import EntityGraph.Node

/-!
What listeners are told about one commit, step by step.
-/

namespace EntityGraph

/-- One step of a commit. -/
inductive Event
  | begin
  /-- A property of a node that is not deleted changed. -/
  | propertyModified (node : Node) (key : PropertyKey) (old new : Option Value)
  | relationshipCreated (r : Relationship)
  | relationshipDeleted (r : Relationship)
  | nodeCreated (node : Node)
  /-- A node that was there before changed. -/
  | nodeModified (node : Node)
  /-- A node was deleted; the properties that it had. -/
  | nodeDeleted (id : NodeId) (removed : Properties)
  | commit
  | rollback
  /-- Nodes were read outside a commit. -/
  | visited (nodes : List Node)
  deriving Inhabited

/-- The name of the kind of event. -/
def Event.kind : Event → String
  | begin => "begin"
  | propertyModified .. => "propertyModified"
  | relationshipCreated _ => "relationshipCreated"
  | relationshipDeleted _ => "relationshipDeleted"
  | nodeCreated _ => "graphObjectCreated"
  | nodeModified _ => "graphObjectModified"
  | nodeDeleted .. => "graphObjectDeleted"
  | commit => "commit"
  | rollback => "rollback"
  | visited _ => "visited"

end EntityGraph
