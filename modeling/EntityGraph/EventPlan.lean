import EntityGraph.ChangeSet
import EntityGraph.Event
import EntityGraph.Failure

/-!
The events of a change set, in the order in which listeners are told of them: nodes created,
relationships created, relationships deleted, nodes deleted, properties set, properties removed,
nodes modified. An object whose type cannot be found is left out, or fails the commit in its place
in the order.
-/

namespace EntityGraph

/-- Gives identities and records their types, as of the pending commit. -/
structure EntityFactory where
  node : NodeId → Except Failure (Option Node)
  relationship : Relationship → Except Failure (Option Relationship)

/-- A factory over a list of nodes, in which some identities fail and some records have no type. -/
def EntityFactory.ofNodes (nodes : List Node) (nodeFailures : List (Nat × Failure))
    (untyped : List RelationshipId) (relationshipFailures : List (Nat × Failure)) :
    EntityFactory where
  node id := answerUnless (nodeFailures.lookup id.raw) (nodes.find? (·.id = id))
  relationship r :=
    answerUnless (relationshipFailures.lookup r.id.raw)
      (if untyped.contains r.id then none else some r)

/-- What happens next in a commit: an event, or the failure that ends it. -/
abbrev PlanStep := Except Failure Event

namespace EventPlan

/-- The object, or the failure to find one if `strict`. -/
def rehydrate {α : Type} (strict : Bool) (what : String) (found : Except Failure (Option α)) :
    Except Failure (Option α) :=
  match found with
  | .ok none =>
    if strict then .error (.rehydration s!"{what} could not be instantiated") else .ok none
  | r => r

/-- The event about an object, if there is one. -/
def about {α : Type} (event : α → Event) : Except Failure (Option α) → List PlanStep
  | .error e => [.error e]
  | .ok none => []
  | .ok (some a) => [.ok (event a)]

variable (strict : Bool) (f : EntityFactory) (c : ChangeSet)

/-- The typed node of an identity. -/
def typedNode (id : NodeId) : Except Failure (Option Node) :=
  rehydrate strict s!"node {id}" (f.node id)

/-- The typed relationship of a record. -/
def typedRelationship (r : Relationship) : Except Failure (Option Relationship) :=
  rehydrate strict s!"relationship {r.id}" (f.relationship r)

/-- The property changes of nodes that are not deleted. -/
def survivingChanges : List PropertyEntry :=
  c.propertyChanges.filter fun e => !c.isDeleted e.node

/-- The nodes that were modified but not created, in the order of their first change. -/
def modifiedNodes : List NodeId :=
  ((survivingChanges c).map (·.node)).eraseDups.filter fun id => !c.isCreated id

/-- Nodes created. -/
def creations : List PlanStep :=
  c.createdNodes.flatMap fun id => about .nodeCreated (typedNode strict f id)

/-- Relationships created, then relationships deleted. -/
def relationshipChanges : List PlanStep :=
  (c.createdRelationships.flatMap fun r =>
    about .relationshipCreated (typedRelationship strict f r)) ++
  c.deletedRelationships.flatMap fun r => about .relationshipDeleted (typedRelationship strict f r)

/-- Nodes deleted, which need no type, with the properties that they had. -/
def deletions : List PlanStep :=
  let snapshots := c.deletionSnapshots
  c.deletedNodes.map fun id => .ok (.nodeDeleted id ((snapshots.get? id).getD []))

/-- Properties changed. -/
def modifications : List PlanStep :=
  (survivingChanges c).flatMap fun e =>
    about (.propertyModified · e.key e.previous e.value) (typedNode strict f e.node)

/-- Nodes modified. -/
def summaries : List PlanStep :=
  (modifiedNodes c).flatMap fun id => about .nodeModified (typedNode strict f id)

/-- Every step of a commit. -/
def steps : List PlanStep :=
  .ok .begin :: (creations strict f c ++ relationshipChanges strict f c ++ deletions c ++
    modifications strict f c ++ summaries strict f c ++ [.ok .commit])

end EventPlan

/-- What a commit delivered: what became of which object, and how many events. -/
structure CommitSummary where
  txn : TxnId
  createdNodes : List NodeId := []
  modifiedNodes : List NodeId := []
  deletedNodes : List NodeId := []
  createdRelationships : List RelationshipId := []
  deletedRelationships : List RelationshipId := []
  events : Nat := 0
  deriving Inhabited

namespace EventPlan

/-- The object was found. -/
def isFound {α : Type} : Except Failure (Option α) → Bool
  | .ok (some _) => true
  | _ => false

/-- The summary of a commit all of whose steps were delivered; identities in increasing order. -/
def summary (strict : Bool) (f : EntityFactory) (c : ChangeSet) (txn : TxnId) : CommitSummary where
  txn
  createdNodes := inOrder (c.createdNodes.filter (isFound <| f.node ·))
  modifiedNodes := inOrder ((modifiedNodes c).filter (isFound <| f.node ·))
  deletedNodes := inOrder c.deletedNodes
  createdRelationships :=
    inOrder ((c.createdRelationships.filter (isFound <| f.relationship ·)).map (·.id))
  deletedRelationships :=
    inOrder ((c.deletedRelationships.filter (isFound <| f.relationship ·)).map (·.id))
  events := (steps strict f c).length

end EventPlan
end EntityGraph
