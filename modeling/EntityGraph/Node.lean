import EntityGraph.EntityType
import EntityGraph.Identity
import EntityGraph.PropertyKey
import EntityGraph.Value.Basic

/-!
Nodes with their entity type, and relationships between nodes.
-/

namespace EntityGraph

/-- The property under which a store keeps the type of a node. -/
def typeProperty : String := "type"

/-- The property under which a node shown as a whole gives its identity. -/
def idProperty : String := "id"

/-- A node of an entity type. -/
structure Node where
  id : NodeId
  type : EntityType
  properties : Properties
  deriving Inhabited

instance : ToString Node := ⟨fun n => toString n.type ++ "(" ++ toString n.id ++ ")"⟩

namespace Node

/-- The value of a property, if it is set. -/
def property? (n : Node) (key : String) : Option Value := n.properties.get? key

/-- The value of a property, null if it is not set. -/
def propertyOrNull (n : Node) (key : String) : Value := (n.property? key).getD .null

/-- Sets a property. -/
def setProperty (n : Node) (key : String) (v : Value) : Node :=
  { n with properties := n.properties.put key v }

/-- Removes a property. -/
def removeProperty (n : Node) (key : String) : Node :=
  { n with properties := n.properties.without key }

/-- Same identity, same type, equal properties. -/
def equals (a b : Node) : Bool :=
  decide (a.id = b.id) && decide (a.type = b.type) &&
    Value.equalsFields a.properties b.properties

/-- The node is of the type or a subtype, if one is given, and matches the properties. -/
def matchesAll (n : Node) (type : Option EntityType) (wanted : Properties) : Bool :=
  type.all n.type.isSubtypeOf && Properties.containsAll n.properties wanted

/-- The node holds the value, and its chain names the type, if one is given. -/
def holds (n : Node) (type : Option String) (key : PropertyKey) (v : Value) : Bool :=
  type.all n.type.chain.contains && Properties.holds n.properties key.name v

end Node

/-- A relationship with its end points. -/
structure Relationship where
  id : RelationshipId
  type : String
  start : NodeId
  stop : NodeId
  properties : Properties
  deriving Inhabited

instance : ToString Relationship where
  toString r := s!"({r.start})-[{r.id}:{r.type}]->({r.stop})"

namespace Relationship

/-- `node` is one of the end points. -/
def touches (r : Relationship) (node : NodeId) : Bool := r.start = node || r.stop = node

/-- The end point across from `node`. -/
def otherNode? (r : Relationship) (node : NodeId) : Option NodeId :=
  if node = r.start then some r.stop else if node = r.stop then some r.start else none

/-- Same identity, type and end points, equal properties. -/
def equals (a b : Relationship) : Bool :=
  decide (a.id = b.id) && decide (a.type = b.type) && decide (a.start = b.start) &&
    decide (a.stop = b.stop) && Value.equalsFields a.properties b.properties

end Relationship
end EntityGraph
