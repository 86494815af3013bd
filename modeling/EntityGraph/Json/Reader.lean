import EntityGraph.Decimal.Integer
import EntityGraph.Json.Draft

/-!
Reading JSON text. `Draft.read?` follows the grammar to the letter: no blanks but the four of JSON,
no leading zeros, no raw control characters in strings, nothing after the value.
-/

namespace EntityGraph.Json

/-- Space, tab, line feed and carriage return. -/
def isSpace (c : Char) : Bool := c = ' ' || c = '\t' || c = '\n' || c = '\r'

/-- Skips blanks. -/
def skipSpace (cs : List Char) : List Char := cs.dropWhile isSpace

/-- The digits at the start, and the rest. -/
def takeDigits : List Char → List Nat × List Char
  | [] => ([], [])
  | c :: cs =>
    match digitValue? c with
    | none => ([], c :: cs)
    | some d => let (ds, rest) := takeDigits cs; (d :: ds, rest)

/-- At least one digit. -/
def takeDigits1? (cs : List Char) : Option (List Nat × List Char) :=
  match takeDigits cs with
  | ([], _) => none
  | r => some r

/-- The digits before the point: a single zero, or digits that do not start with one. -/
def takeWhole? (cs : List Char) : Option (List Nat × List Char) :=
  match takeDigits1? cs with
  | some (0 :: _ :: _, _) => none
  | r => r

/-- The digits after a point, if there is one. -/
def takeFraction? : List Char → Option (Option (List Nat) × List Char)
  | '.' :: cs => do
    let (ds, cs) ← takeDigits1? cs
    return (some ds, cs)
  | cs => some (none, cs)

/-- Sign and digits of an exponent. -/
def takeSigned? : List Char → Option ((Bool × List Nat) × List Char)
  | '-' :: cs => do
    let (ds, cs) ← takeDigits1? cs
    return ((true, ds), cs)
  | '+' :: cs => do
    let (ds, cs) ← takeDigits1? cs
    return ((false, ds), cs)
  | cs => do
    let (ds, cs) ← takeDigits1? cs
    return ((false, ds), cs)

/-- The exponent, if there is one. -/
def takeExponent? : List Char → Option (Option (Bool × List Nat) × List Char)
  | 'e' :: cs | 'E' :: cs => do
    let (e, cs) ← takeSigned? cs
    return (some e, cs)
  | cs => some (none, cs)

/-- A number without its sign. -/
def takeNumber? (negative : Bool) (cs : List Char) : Option (NumberText × List Char) := do
  let (whole, cs) ← takeWhole? cs
  let (fraction, cs) ← takeFraction? cs
  let (exponent, cs) ← takeExponent? cs
  return (⟨negative, whole, fraction, exponent⟩, cs)

/-- The value of a hexadecimal digit. -/
def hexValue? (c : Char) : Option Nat :=
  if 'a' ≤ c ∧ c ≤ 'f' then some (c.toNat - 'a'.toNat + 10)
  else if 'A' ≤ c ∧ c ≤ 'F' then some (c.toNat - 'A'.toNat + 10)
  else digitValue? c

/-- The number that hexadecimal digits stand for. -/
def hexNumber? (ds : List Char) : Option Nat :=
  (ds.mapM hexValue?).map (·.foldl (fun n d => 16 * n + d) 0)

/-- What a one-letter escape stands for. -/
def escaped? : Char → Option Char
  | '"' => some '"'
  | '\\' => some '\\'
  | '/' => some '/'
  | 'b' => some '\x08'
  | 'f' => some '\x0c'
  | 'n' => some '\n'
  | 'r' => some '\r'
  | 't' => some '\t'
  | _ => none

/-- The units up to the closing quote, and what follows it. -/
def takeUnits? : List Char → Option (List TextUnit × List Char)
  | [] => none
  | '"' :: cs => some ([], cs)
  | '\\' :: 'u' :: a :: b :: c :: d :: cs => do
    let n ← hexNumber? [a, b, c, d]
    let (us, cs) ← takeUnits? cs
    return (.code n :: us, cs)
  | '\\' :: c :: cs => do
    let e ← escaped? c
    let (us, cs) ← takeUnits? cs
    return (.char e :: us, cs)
  | c :: cs =>
    if c = '\\' || c < ' ' then none
    else do
      let (us, cs) ← takeUnits? cs
      return (.char c :: us, cs)

mutual

/-- One value, blanks before it skipped, and what follows it. -/
def takeValue? : Nat → List Char → Option (Draft × List Char)
  | 0, _ => none
  | fuel + 1, cs =>
    match skipSpace cs with
    | 'n' :: 'u' :: 'l' :: 'l' :: cs => some (.null, cs)
    | 't' :: 'r' :: 'u' :: 'e' :: cs => some (.bool true, cs)
    | 'f' :: 'a' :: 'l' :: 's' :: 'e' :: cs => some (.bool false, cs)
    | '"' :: cs => (takeUnits? cs).map fun (us, cs) => (.string us, cs)
    | '[' :: cs =>
      match skipSpace cs with
      | ']' :: cs => some (.array [], cs)
      | cs => (takeItems? fuel cs).map fun (ds, cs) => (.array ds, cs)
    | '\x7b' :: cs =>
      match skipSpace cs with
      | '\x7d' :: cs => some (.object [], cs)
      | cs => (takeMembers? fuel cs).map fun (ms, cs) => (.object ms, cs)
    | '-' :: cs => (takeNumber? true cs).map fun (t, cs) => (.number t, cs)
    | cs => (takeNumber? false cs).map fun (t, cs) => (.number t, cs)

/-- The items of an array up to its closing bracket; at least one. -/
def takeItems? : Nat → List Char → Option (List Draft × List Char)
  | 0, _ => none
  | fuel + 1, cs => do
    let (d, cs) ← takeValue? fuel cs
    match skipSpace cs with
    | ',' :: cs => do
      let (ds, cs) ← takeItems? fuel cs
      return (d :: ds, cs)
    | ']' :: cs => return ([d], cs)
    | _ => none

/-- The members of an object up to its closing brace; at least one. -/
def takeMembers? : Nat → List Char → Option (List (List TextUnit × Draft) × List Char)
  | 0, _ => none
  | fuel + 1, cs => do
    let '"' :: cs := skipSpace cs | none
    let (k, cs) ← takeUnits? cs
    let ':' :: cs := skipSpace cs | none
    let (d, cs) ← takeValue? fuel cs
    match skipSpace cs with
    | ',' :: cs => do
      let (ms, cs) ← takeMembers? fuel cs
      return ((k, d) :: ms, cs)
    | '\x7d' :: cs => return ([(k, d)], cs)
    | _ => none

end

/-- The draft of a text that holds one value and nothing else. -/
def Draft.read? (text : String) : Option Draft := do
  let cs := text.toList
  -- every second call takes a character
  let (d, rest) ← takeValue? (2 * cs.length + 2) cs
  if (skipSpace rest).isEmpty then some d else none

/-- The value of a text. -/
def read? (text : String) : Option Json := (Draft.read? text).bind (·.value? depthLimit)

/-- The parts of a record, by name from an object or in order from an array; a missing part is
`none`. A name given twice is refused, and a foreign one too if the record is `closed`. -/
def Draft.parts? (names : List String) (closed : Bool) : Draft → Option (List (Option Json))
  | .array ds => do
    let vs ← Draft.values? (depthLimit - 1) ds
    if vs.length ≤ names.length then
      some (vs.map some ++ List.replicate (names.length - vs.length) none)
    else none
  | .object ms => do
    let ms ← ms.mapM fun (k, d) => (stringOf? k).map (·, d)
    if closed && ms.any (fun m => !names.contains m.1) then none
    else names.mapM fun name =>
      match ms.filter (·.1 = name) with
      | [] => some none
      | [(_, d)] => (d.value? (depthLimit - 1)).map some
      | _ => none
  | _ => none

end EntityGraph.Json
