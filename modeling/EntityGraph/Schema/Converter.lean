import EntityGraph.Caller
import EntityGraph.Decimal.Integer
import EntityGraph.Schema.Resolver

/-!
Conversions between the value a caller gives and the value stored. Each runs one way on writing and
the other way on reading; the three built in leave what they read as it is stored.
-/

namespace EntityGraph

/-- A conversion in both directions. -/
structure Converter where
  /-- From the caller's value to the stored one. -/
  convert : Resolver → Value → Except Failure Value
  /-- From the stored value to the caller's. -/
  revert : Resolver → Value → Except Failure Value

/-- The kinds of conversion that a key can have. -/
inductive ConverterKind
  | integer
  | boolean
  | lowercase
  /-- The conversion built by the factory of this name. -/
  | named (name : String)
  deriving DecidableEq, Inhabited

namespace ConverterKind

/-- The name of the kind. -/
def name : ConverterKind → String
  | integer => "Integer"
  | boolean => "Boolean"
  | lowercase => "Lowercase"
  | named n => Outline.tuple "Named" [n]

/-- The kind of a name, factories apart. -/
def ofName? (s : String) : Option ConverterKind :=
  [integer, boolean, lowercase].find? (·.name = s)

/-- The kind with its data. -/
def outline : ConverterKind → String
  | named n => Outline.tuple "Named" [quoted n]
  | k => k.name

end ConverterKind

namespace Converter

/-- A value that the conversion does not take. -/
def refuse (v : Value) (target : String) : Except Failure Value :=
  .error (.conversion s!"cannot convert {v.kind} to {target}")

/-- Whole numbers and texts of whole numbers as integers; null becomes `default`, if it is given. A
floating-point number beyond the integers becomes the nearest one. -/
def toInteger (default : Option Int64) : Value → Except Failure Value
  | .null => .ok ((default.map Value.int).getD .null)
  | .int n => .ok (.int n)
  | .float x =>
    match x.toInt? with
    | some n => .ok (.int (Integer64.saturate n))
    | none => refuse (.float x) "integer"
  | .string s =>
    match Integer64.read (trim s.toList) with
    | .ok n => .ok (.int n)
    | .error e => .error (.conversion s!"{quoted s} is not an integer: {e.message}")
  | v => refuse v "integer"

/-- Truth values, integers by whether they are zero, and the words for true and false. -/
def toBoolean : Value → Except Failure Value
  | .null => .ok .null
  | .bool b => .ok (.bool b)
  | .int n => .ok (.bool (n ≠ 0))
  | .string s =>
    let word := lowercase (String.ofList (trim s.toList))
    if word ∈ ["true", "1", "yes"] then .ok (.bool true)
    else if word ∈ ["false", "0", "no"] then .ok (.bool false)
    else .error (.conversion s!"{quoted s} is not a boolean")
  | v => refuse v "boolean"

/-- Text in lowercase; any other value as it is. -/
def toLowercase : Value → Value
  | .string s => .string (EntityGraph.lowercase s)
  | v => v

/-- A conversion on writing alone. -/
def onWrite (convert : Value → Except Failure Value) : Converter :=
  ⟨fun _ => convert, fun _ v => .ok v⟩

/-- Stores integers; the parameter, if it is one, stands in for null. -/
def integer (parameter : Option Value) : Converter :=
  onWrite (toInteger (parameter.bind Value.int?))

/-- Stores truth values. -/
def boolean : Converter := onWrite toBoolean

/-- Stores text in lowercase. -/
def lowercase : Converter := onWrite fun v => .ok (toLowercase v)

end Converter

/-- Builds a conversion for a caller and the parameter registered for the key. -/
abbrev ConverterFactory := Caller → Option Value → Except Failure Converter

end EntityGraph
