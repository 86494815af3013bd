import EntityGraph.Failure
import EntityGraph.Node

/-!
Access to stored nodes for whoever turns references into nodes or looks for holders of a value.
-/

namespace EntityGraph

/-- Finds stored nodes. -/
structure Resolver where
  /-- The node of an identity. -/
  node? : NodeId → Except Failure (Option Node)
  /-- The nodes of a type and its subtypes, or all nodes, that match the properties. -/
  find : Option EntityType → Properties → Except Failure (List Node)

/-- Finds the nodes that hold a value under a key, among all or those whose chain names the type. -/
abbrev HolderLookup := Option String → PropertyKey → Value → Except Failure (List NodeId)

/-- The node of an identity, which must be there. -/
def Resolver.require (r : Resolver) (id : NodeId) : Except Failure Node := do
  match ← r.node? id with
  | some node => return node
  | none => .error (.notFound s!"node {id}")

/-- A resolver over a list of nodes; with a failure given, every lookup fails with it. -/
def Resolver.ofNodes (nodes : List Node) (failure : Option Failure) : Resolver where
  node? id := answerUnless failure (nodes.find? (·.id = id))
  find type wanted := answerUnless failure (nodes.filter (·.matchesAll type wanted))

/-- The holders of a value in a list of nodes; with a failure given, every lookup fails with it. -/
def HolderLookup.ofNodes (nodes : List Node) (failure : Option Failure) : HolderLookup :=
  fun type key v => answerUnless failure ((nodes.filter (·.holds type key v)).map (·.id))

end EntityGraph
