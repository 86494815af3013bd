import EntityGraph.Graph.State

/-!
First committer wins. A change set fits a committed state if what it rests on is still there: the
properties it wrote have the values it knew, the nodes and relationships it deleted are there with
nothing added, and the end points of what it created exist. A change set that fits is applied to the
state.
-/

namespace EntityGraph

/-- The conflict over a node that is gone. -/
def nodeGone (id : NodeId) : Failure := .conflict s!"node {id} was deleted by another transaction"

/-- Two optional values are both missing, or equal. -/
def sameValue (a b : Option Value) : Bool := a == b

namespace ChangeSet

/-- A write to a node that is gone, or over a value that has changed. -/
def writeConflict? (c : ChangeSet) (g : GraphState) (e : PropertyEntry) : Option Failure :=
  if c.isCreated e.node then none
  else match g.nodes.get? e.node with
    | none => some (nodeGone e.node)
    | some p =>
      if sameValue (p.get? e.key.name) e.previous then none
      else some (.conflict s!"{e.node}.{e.key} was changed by another transaction")

/-- A deleted node that is gone, or has gained or lost properties. -/
def deletionConflict? (g : GraphState) (id : NodeId) (snapshot : Properties) : Option Failure :=
  match g.nodes.get? id with
  | none => some (nodeGone id)
  | some p =>
    if (p.filter (·.1 ≠ typeProperty)).length = snapshot.length then none
    else some (.conflict s!"node {id} was changed by another transaction")

/-- A deleted relationship that is gone. -/
def relationshipConflict? (g : GraphState) (r : Relationship) : Option Failure :=
  if g.relationships.has r.id then none
  else some (.conflict s!"relationship {r.id} was deleted by another transaction")

/-- A relationship at a deleted node that is not deleted with it. -/
def danglingConflict? (c : ChangeSet) (g : GraphState) (id : NodeId) : Option Failure :=
  (g.relationships.values.find? fun r =>
      r.touches id && !c.deletedRelationships.any (·.id = r.id)).map fun r =>
    .conflict s!"relationship {r.id} to node {id} was created by another transaction"

/-- An end point of a created relationship that is gone. -/
def endPointConflict? (c : ChangeSet) (g : GraphState) (r : Relationship) : Option Failure :=
  ([r.start, r.stop].find? fun id => !c.isCreated id && !g.nodes.has id).map nodeGone

/-- The first reason why the change set does not fit the state. -/
def conflict? (c : ChangeSet) (g : GraphState) : Option Failure :=
  (c.propertyChanges.findSome? (c.writeConflict? g)).or <|
  (c.deletionSnapshots.findSome? fun (id, p) => deletionConflict? g id p).or <|
  (c.deletedRelationships.findSome? (relationshipConflict? g)).or <|
  (c.deletedNodes.findSome? (c.danglingConflict? g)).or <|
  c.createdRelationships.findSome? (c.endPointConflict? g)

end ChangeSet

namespace GraphState

/-- Stores a created node as the working copy has it. -/
def addNode (working : GraphState) (g : GraphState) (id : NodeId) : GraphState :=
  match working.nodes.get? id with
  | some p => { g with nodes := g.nodes.put id p }
  | none => g

/-- Applies a write to a node that was neither created nor deleted. -/
def applyEntry (c : ChangeSet) (g : GraphState) (e : PropertyEntry) : GraphState :=
  if c.isCreated e.node || c.isDeleted e.node then g
  else match e.value with
    | some v => { g with nodes := g.nodes.adjust e.node (Assoc.put · e.key.name v) }
    | none => { g with nodes := g.nodes.adjust e.node (Assoc.without · e.key.name) }

/-- Stores a created relationship as the working copy has it. -/
def addRelationship (working : GraphState) (g : GraphState) (id : RelationshipId) : GraphState :=
  match working.relationships.get? id with
  | some r => { g with relationships := g.relationships.put id r }
  | none => g

/-- Removes a relationship. -/
def removeRelationship (g : GraphState) (id : RelationshipId) : GraphState :=
  { g with relationships := g.relationships.without id }

/-- Removes a node. -/
def removeNode (g : GraphState) (id : NodeId) : GraphState := { g with nodes := g.nodes.without id }

/-- The state with the changes made, created objects taken from the working copy. -/
def apply (g working : GraphState) (c : ChangeSet) : GraphState :=
  let g := c.createdNodes.foldl (addNode working) g
  let g := c.propertyChanges.foldl (applyEntry c) g
  let g := (c.createdRelationships.map (·.id)).foldl (addRelationship working) g
  let g := (c.deletedRelationships.map (·.id)).foldl removeRelationship g
  c.deletedNodes.foldl removeNode g

end GraphState
end EntityGraph
