import EntityGraph.Schema.Resolver

/-!
Groups show several properties of a node as one object value and take such a value apart again.
-/

namespace EntityGraph

/-- One value over several properties. -/
structure PropertyGroup where
  read : Node → Except Failure Value
  write : Node → Value → Except Failure Node

namespace PropertyGroup

/-- An object with an entry per key, null where the property is not set; null if none is set. -/
def readKeys (keys : List PropertyKey) (node : Node) : Value :=
  if keys.all fun k => (node.property? k.name).isNone then .null
  else .object (Assoc.ofRows (keys.map fun k => (k.name, node.propertyOrNull k.name)))

/-- Writes the entry of one key, if there is one; null removes the property. -/
def writeKey (fields : Properties) (node : Node) (key : PropertyKey) : Node :=
  match fields.get? key.name with
  | none => node
  | some .null => node.removeProperty key.name
  | some v => node.setProperty key.name v

/-- Writes the entries of an object, which must all belong to the group; null removes every key. Given
is how this ends, and the node as it is then. -/
def writeKeys (keys : List PropertyKey) (node : Node) : Value → Except Failure Unit × Node
  | .null => (.ok (), keys.foldl (fun n k => n.removeProperty k.name) node)
  | .object fields =>
    match (Assoc.keys fields).find? fun name => !keys.any (·.name = name) with
    | some name => (.error (.invalidInput s!"{name} is not part of this property group"), node)
    | none => (.ok (), keys.foldl (writeKey fields) node)
  | v => (.error (.invalidInput s!"property group expects an object, got {v.kind}"), node)

/-- The group over fixed keys. -/
def ofKeys (keys : List PropertyKey) : PropertyGroup where
  read node := .ok (readKeys keys node)
  write node v :=
    let (done, after) := writeKeys keys node v
    done.map fun () => after

end PropertyGroup
end EntityGraph
