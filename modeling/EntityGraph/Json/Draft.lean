import EntityGraph.Json.Number

/-!
JSON text by its grammar alone: numbers as their digits, strings as characters and escaped code
units. A draft becomes a value when its numbers are in range, its escapes name characters and its
nesting stays below the limit; parts that a reader skips need not.
-/

namespace EntityGraph.Json

/-- One character of a string, or one escaped 16-bit unit. -/
inductive TextUnit
  | char (c : Char)
  | code (n : Nat)
  deriving DecidableEq

/-- Text that follows the grammar. -/
inductive Draft
  | null
  | bool (b : Bool)
  | number (t : NumberText)
  | string (units : List TextUnit)
  | array (items : List Draft)
  | object (members : List (List TextUnit × Draft))
  deriving Inhabited

/-- The text of the units; two units that pair up make one character, a lone half makes none. -/
def textOf? : List TextUnit → Option (List Char)
  | [] => some []
  | .char c :: us => (textOf? us).map (c :: ·)
  | .code n :: us =>
    if n < 0xD800 ∨ 0xDFFF < n then (textOf? us).map (Char.ofNat n :: ·)
    else match us with
      | .code m :: us =>
        if n < 0xDC00 ∧ 0xDC00 ≤ m ∧ m ≤ 0xDFFF then
          (textOf? us).map (Char.ofNat (0x10000 + 0x400 * (n - 0xD800) + (m - 0xDC00)) :: ·)
        else none
      | _ => none

/-- The text of the units as a string. -/
def stringOf? (units : List TextUnit) : Option String := (textOf? units).map String.ofList

mutual

/-- The value of a draft with at most `depth` arrays and objects inside one another. -/
def Draft.value? : Nat → Draft → Option Json
  | _, .null => some .null
  | _, .bool b => some (.bool b)
  | _, .number t => t.value?
  | _, .string us => (stringOf? us).map .string
  | 0, .array _ => none
  | depth + 1, .array ds => (Draft.values? depth ds).map .array
  | 0, .object _ => none
  | depth + 1, .object ms => (Draft.memberValues? depth ms).map .object

/-- The values of a list of drafts. -/
def Draft.values? : Nat → List Draft → Option (List Json)
  | _, [] => some []
  | depth, d :: ds => do
    let v ← Draft.value? depth d
    return v :: (← Draft.values? depth ds)

/-- The names and values of the members of an object. -/
def Draft.memberValues? : Nat → List (List TextUnit × Draft) → Option (List (String × Json))
  | _, [] => some []
  | depth, (k, d) :: ms => do
    let name ← stringOf? k
    let v ← Draft.value? depth d
    return (name, v) :: (← Draft.memberValues? depth ms)

end

/-- How many arrays and objects may stand inside one another. -/
def depthLimit : Nat := 127

end EntityGraph.Json
