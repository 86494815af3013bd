import EntityGraph.EventPlan
import EntityGraph.Schema.Lookup

/-!
The nodes and relationships of a graph at one time. A node keeps the name of its type as a property,
and a node whose type is not known cannot be seen.
-/

namespace EntityGraph

/-- Stored nodes by their properties, and stored relationships. -/
structure GraphState where
  nodes : Assoc NodeId Properties := []
  relationships : Assoc RelationshipId Relationship := []
  deriving Inhabited

/-- The type that stored properties name, if it is known. -/
def Schema.typeOf? (s : Schema) (p : Properties) : Option EntityType :=
  match p.get? typeProperty with
  | some (.string raw) => s.type? raw
  | _ => none

/-- The node of stored properties. -/
def Schema.typed? (s : Schema) (id : NodeId) (p : Properties) : Option Node :=
  (s.typeOf? p).map (⟨id, ·, p⟩)

namespace GraphState

/-- The node of an identity. -/
def node? (g : GraphState) (s : Schema) (id : NodeId) : Option Node :=
  (g.nodes.get? id).bind (s.typed? id)

/-- Every node, in the order of identities. -/
def allNodes (g : GraphState) (s : Schema) : List Node :=
  g.nodes.filterMap fun (id, p) => s.typed? id p

/-- The nodes of a type and its subtypes, or all nodes, that match the properties. -/
def find (g : GraphState) (s : Schema) (type : Option EntityType) (wanted : Properties) :
    List Node :=
  (g.allNodes s).filter (·.matchesAll type wanted)

/-- The nodes that hold a value, of those whose chain names the type or of all. -/
def holders (g : GraphState) (s : Schema) (type : Option String) (key : PropertyKey) (v : Value) :
    List NodeId :=
  ((g.allNodes s).filter (·.holds type key v)).map (·.id)

/-- The relationships with a node as an end point. -/
def relationshipsOf (g : GraphState) (id : NodeId) : List Relationship :=
  g.relationships.values.filter (·.touches id)

/-- Typed objects as of this state. -/
def factory (g : GraphState) (s : Schema) : EntityFactory :=
  ⟨fun id => .ok (g.node? s id), fun r => .ok (some r)⟩

/-- Access to the nodes of this state. -/
def resolver (g : GraphState) (s : Schema) : Resolver :=
  ⟨fun id => .ok (g.node? s id), fun type wanted => .ok (g.find s type wanted)⟩

end GraphState
end EntityGraph
