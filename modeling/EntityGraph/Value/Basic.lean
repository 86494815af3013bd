import EntityGraph.Assoc
import EntityGraph.Decimal.Layout
import EntityGraph.Text.Blank
import EntityGraph.Text.Outline

/-!
Property values. `==` is equality of values: no variant equals another one, numbers compare as
numbers, so a NaN equals nothing and the two zeros are equal at any depth.
-/

namespace EntityGraph

/-- The value of a property. An object lists its fields by increasing name. -/
inductive Value
  | null
  | bool (b : Bool)
  | int (n : Int64)
  | float (x : Binary64)
  | string (s : String)
  | array (items : List Value)
  | object (fields : List (String × Value))
  deriving Inhabited

/-- The properties of a node or relationship, by increasing name. -/
abbrev Properties := Assoc String Value

namespace Value

mutual

/-- Equality of values. -/
def equals : Value → Value → Bool
  | .null, .null => true
  | .bool a, .bool b => a == b
  | .int a, .int b => decide (a = b)
  | .float a, .float b => a.equals b
  | .string a, .string b => decide (a = b)
  | .array a, .array b => equalsItems a b
  | .object a, .object b => equalsFields a b
  | _, _ => false

/-- Equality item by item. -/
def equalsItems : List Value → List Value → Bool
  | [], [] => true
  | a :: as, b :: bs => equals a b && equalsItems as bs
  | _, _ => false

/-- Equality field by field. -/
def equalsFields : List (String × Value) → List (String × Value) → Bool
  | [], [] => true
  | (j, a) :: as, (k, b) :: bs => decide (j = k) && equals a b && equalsFields as bs
  | _, _ => false

end

instance : BEq Value := ⟨equals⟩

/-- The name of the variant. -/
def kind : Value → String
  | .null => "Null"
  | .bool _ => "Bool"
  | .int _ => "Int"
  | .float _ => "Float"
  | .string _ => "String"
  | .array _ => "Array"
  | .object _ => "Object"

/-- The null value. -/
def isNull : Value → Bool
  | .null => true
  | _ => false

/-- What is kept of a value: nothing of null. -/
def kept (v : Value) : Option Value := if v.isNull then none else some v

/-- Null, blank text, or nothing inside. -/
def isEmpty : Value → Bool
  | .null => true
  | .string s => (trim s.toList).isEmpty
  | .array vs => vs.isEmpty
  | .object fs => fs.isEmpty
  | _ => false

/-- The truth value. -/
def bool? : Value → Option Bool
  | .bool b => some b
  | _ => none

/-- The integer. -/
def int? : Value → Option Int64
  | .int n => some n
  | _ => none

/-- The floating-point number. -/
def float? : Value → Option Binary64
  | .float x => some x
  | _ => none

/-- The text. -/
def string? : Value → Option String
  | .string s => some s
  | _ => none

/-- The items. -/
def array? : Value → Option (List Value)
  | .array vs => some vs
  | _ => none

/-- The fields. -/
def object? : Value → Option Properties
  | .object fs => some fs
  | _ => none

mutual

/-- The value as messages show it. -/
def outline : Value → String
  | .null => "Null"
  | .bool b => Outline.tuple "Bool" [if b then "true" else "false"]
  | .int n => Outline.tuple "Int" [toString n.toInt]
  | .float x => Outline.tuple "Float" [messageNumber.write x]
  | .string s => Outline.tuple "String" [quoted s]
  | .array vs => Outline.tuple "Array" [Outline.list (outlineItems vs)]
  | .object fs => Outline.tuple "Object" [Outline.table (outlineFields fs)]

/-- The items as messages show them. -/
def outlineItems : List Value → List String
  | [] => []
  | v :: vs => outline v :: outlineItems vs

/-- The fields as messages show them. -/
def outlineFields : List (String × Value) → List (String × String)
  | [] => []
  | (k, v) :: fs => (quoted k, outline v) :: outlineFields fs

end

theorem isNull_iff {v : Value} : v.isNull = true ↔ v = .null := by
  cases v <;> simp [isNull]

theorem kept_null : Value.null.kept = none := rfl

theorem kept_of_ne_null {v : Value} (h : v ≠ .null) : v.kept = some v :=
  if_neg fun hnull => h (isNull_iff.1 hnull)

theorem getD_kept (v : Value) : v.kept.getD .null = v := by
  cases v <;> rfl

end Value

namespace Properties

/-- The value under `key` is there and equals `v`. -/
def holds (p : Properties) (key : String) (v : Value) : Bool := p.get? key == some v

/-- Every entry of `wanted` is matched by an equal value. -/
def containsAll (p wanted : Properties) : Bool := wanted.all fun (k, v) => p.holds k v

end Properties
end EntityGraph
