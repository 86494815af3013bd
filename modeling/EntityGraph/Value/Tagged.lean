import EntityGraph.Json.Reader
import EntityGraph.Value.Basic

/-!
Values as tagged JSON: the name of the variant with its content, so that integers and floating-point
numbers stay apart.
-/

namespace EntityGraph.Value

/-- A variant with its content. -/
def tag (name : String) (content : Json) : Json := .object [(name, content)]

mutual

/-- The tagged JSON form. -/
def toTagged : Value → Json
  | .null => .string "Null"
  | .bool b => tag "Bool" (.bool b)
  | .int n => tag "Int" (.int n.toInt)
  | .float x => tag "Float" (if x.isFinite then .float x else .null)
  | .string s => tag "String" (.string s)
  | .array vs => tag "Array" (.array (toTaggedItems vs))
  | .object fs => tag "Object" (.object (toTaggedFields fs))

/-- The tagged forms of items. -/
def toTaggedItems : List Value → List Json
  | [] => []
  | v :: vs => toTagged v :: toTaggedItems vs

/-- The tagged forms of fields. -/
def toTaggedFields : List (String × Value) → List (String × Json)
  | [] => []
  | (k, v) :: fs => (k, toTagged v) :: toTaggedFields fs

end

mutual

/-- The value that tagged JSON stands for. -/
def ofTagged? : Json → Option Value
  | .string s => if s = "Null" then some .null else none
  | .object [(name, content)] => ofContent? name content
  | _ => none

/-- The value of the variant `name` with the given content. -/
def ofContent? (name : String) : Json → Option Value
  | .null => if name = "Null" then some .null else none
  | .bool b => if name = "Bool" then some (.bool b) else none
  | .int n =>
    if name = "Int" then (Integer64.ofInt? n).map .int
    else if name = "Float" then some (.float (Binary64.ofInt n))
    else none
  | .float x => if name = "Float" then some (.float x) else none
  | .string s => if name = "String" then some (.string s) else none
  | .array js => if name = "Array" then (ofTaggedItems? js).map .array else none
  | .object ms =>
    if name = "Object" then (ofTaggedMembers? ms).map fun rows => .object (Assoc.ofRows rows)
    else none

/-- The values of items. -/
def ofTaggedItems? : List Json → Option (List Value)
  | [] => some []
  | j :: js => do
    let v ← ofTagged? j
    return v :: (← ofTaggedItems? js)

/-- The names and values of members. -/
def ofTaggedMembers? : List (String × Json) → Option (List (String × Value))
  | [] => some []
  | (k, j) :: ms => do
    let v ← ofTagged? j
    return (k, v) :: (← ofTaggedMembers? ms)

end

/-- The value of a tagged JSON text. -/
def ofTaggedText? (text : String) : Option Value := (Json.read? text).bind ofTagged?

end EntityGraph.Value
