import EntityGraph.Json.Reader
import EntityGraph.Value.Basic

/-!
Values as plain JSON. A number that JSON cannot hold becomes null on the way out; an integer that 64
signed bits cannot hold becomes a floating-point number on the way in, and of two members with one
name the later counts.
-/

namespace EntityGraph.Value

mutual

/-- The plain JSON form. -/
def toPlain : Value → Json
  | .null => .null
  | .bool b => .bool b
  | .int n => .int n.toInt
  | .float x => if x.isFinite then .float x else .null
  | .string s => .string s
  | .array vs => .array (toPlainItems vs)
  | .object fs => .object (toPlainFields fs)

/-- The plain forms of items. -/
def toPlainItems : List Value → List Json
  | [] => []
  | v :: vs => toPlain v :: toPlainItems vs

/-- The plain forms of fields. -/
def toPlainFields : List (String × Value) → List (String × Json)
  | [] => []
  | (k, v) :: fs => (k, toPlain v) :: toPlainFields fs

end

mutual

/-- The value that plain JSON stands for. -/
def ofPlain : Json → Value
  | .null => .null
  | .bool b => .bool b
  | .int n =>
    match Integer64.ofInt? n with
    | some i => .int i
    | none => .float (Binary64.ofInt n)
  | .float x => .float x
  | .string s => .string s
  | .array js => .array (ofPlainItems js)
  | .object ms => .object (Assoc.ofRows (ofPlainMembers ms))

/-- The values of items. -/
def ofPlainItems : List Json → List Value
  | [] => []
  | j :: js => ofPlain j :: ofPlainItems js

/-- The names and values of members. -/
def ofPlainMembers : List (String × Json) → List (String × Value)
  | [] => []
  | (k, j) :: ms => (k, ofPlain j) :: ofPlainMembers ms

end

/-- The value of a JSON text. -/
def ofPlainText? (text : String) : Option Value := (Json.read? text).map ofPlain

end EntityGraph.Value
