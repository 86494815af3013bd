import EntityGraph.Node

/-!
What one transaction did: nodes and relationships created and deleted, and writes to properties in
the order in which they were recorded. A write to a property already written is folded into the
earlier entry, so that what remains is the net change.
-/

namespace EntityGraph

/-- A written property: its committed value before and its value now, none where it is not set. -/
structure PropertyEntry where
  node : NodeId
  key : PropertyKey
  previous : Option Value
  value : Option Value
  deriving Inhabited

/-- The entry removes the property. -/
def PropertyEntry.isRemoval (e : PropertyEntry) : Bool := e.value.isNone

/-- The changes of one transaction. Entries are numbered in the order of recording, and `latest`
gives the number of the entry that a further write to a property is folded into. -/
structure ChangeSet where
  createdNodes : List NodeId := []
  deletedNodes : List NodeId := []
  createdRelationships : List Relationship := []
  deletedRelationships : List Relationship := []
  entries : List (Nat × PropertyEntry) := []
  latest : List ((NodeId × String) × Nat) := []
  nextNumber : Nat := 0
  deriving Inhabited

namespace ChangeSet

/-- Records that a node was created. -/
def createNode (c : ChangeSet) (id : NodeId) : ChangeSet :=
  if id ∈ c.createdNodes then c else { c with createdNodes := c.createdNodes ++ [id] }

/-- Records that a node was deleted. -/
def deleteNode (c : ChangeSet) (id : NodeId) : ChangeSet :=
  if id ∈ c.deletedNodes then c else { c with deletedNodes := c.deletedNodes ++ [id] }

/-- Records that a relationship was created. -/
def createRelationship (c : ChangeSet) (r : Relationship) : ChangeSet :=
  { c with createdRelationships := c.createdRelationships ++ [r] }

/-- Records that a relationship was deleted. -/
def deleteRelationship (c : ChangeSet) (r : Relationship) : ChangeSet :=
  { c with deletedRelationships := c.deletedRelationships ++ [r] }

/-- The node was created in this transaction. -/
def isCreated (c : ChangeSet) (id : NodeId) : Bool := id ∈ c.createdNodes

/-- The node was deleted in this transaction. -/
def isDeleted (c : ChangeSet) (id : NodeId) : Bool := id ∈ c.deletedNodes

/-- Forgets a node created in this transaction, with the latest writes to it; whether it was. -/
def discardNode (c : ChangeSet) (id : NodeId) : Bool × ChangeSet :=
  if c.isCreated id then
    let numbers := (c.latest.filter (·.1.1 = id)).map (·.2)
    (true, { c with
      createdNodes := c.createdNodes.filter (· ≠ id)
      entries := c.entries.filter (·.1 ∉ numbers)
      latest := c.latest.filter (·.1.1 ≠ id) })
  else (false, c)

/-- Forgets a relationship created in this transaction; whether it was. -/
def discardRelationship (c : ChangeSet) (id : RelationshipId) : Bool × ChangeSet :=
  if c.createdRelationships.any (·.id = id) then
    (true, { c with createdRelationships := c.createdRelationships.filter (·.id ≠ id) })
  else (false, c)

/-- Appends an entry and makes it the latest of its property. -/
def push (c : ChangeSet) (e : PropertyEntry) : ChangeSet :=
  { c with
    entries := c.entries ++ [(c.nextNumber, e)]
    latest := c.latest.filter (·.1 ≠ (e.node, e.key.name)) ++ [((e.node, e.key.name), c.nextNumber)]
    nextNumber := c.nextNumber + 1 }

/-- Records that a property was set. -/
def assign (c : ChangeSet) (node : NodeId) (key : PropertyKey) (previous : Option Value)
    (value : Value) : ChangeSet :=
  c.push ⟨node, key, previous, some value⟩

/-- Records that a property was removed. -/
def remove (c : ChangeSet) (node : NodeId) (key : PropertyKey) (previous : Value) : ChangeSet :=
  c.push ⟨node, key, some previous, none⟩

/-- The entry of a number. -/
def entryAt? (c : ChangeSet) (number : Nat) : Option PropertyEntry := c.entries.lookup number

/-- The latest entry of a property. -/
def entryOf? (c : ChangeSet) (node : NodeId) (key : String) : Option PropertyEntry :=
  (c.latest.lookup (node, key)).bind c.entryAt?

/-- Gives the entry of a number a new value. -/
def setValue (c : ChangeSet) (number : Nat) (value : Value) : ChangeSet :=
  { c with entries := c.entries.map fun (n, e) =>
      if n = number then (n, { e with value := some value }) else (n, e) }

/-- Takes the latest entry of a property out. -/
def take (c : ChangeSet) (node : NodeId) (key : String) (number : Nat) : ChangeSet :=
  { c with
    entries := c.entries.filter (·.1 ≠ number)
    latest := c.latest.filter (·.1 ≠ (node, key)) }

/-- Appends the net change from `previous` to `value`, if there is one. -/
def net (c : ChangeSet) (node : NodeId) (key : PropertyKey) (previous : Option Value) :
    Option Value → ChangeSet
  | some value => c.assign node key previous value
  | none =>
    match previous with
    | some old => c.remove node key old
    | none => c

/-- Records a write. The first write to a property starts from its `current` value, a later one from
where the earlier one started; a value that overwrites a value keeps its place. -/
def write (c : ChangeSet) (node : NodeId) (key : PropertyKey) (current value : Option Value) :
    ChangeSet :=
  match c.latest.lookup (node, key.name) with
  | none => c.net node key current value
  | some number =>
    match c.entryAt? number, value with
    | some ⟨_, _, _, some _⟩, some new => c.setValue number new
    | earlier, _ => (c.take node key.name number).net node key (earlier.bind (·.previous)) value

/-- The entries in the order of recording. -/
def log (c : ChangeSet) : List PropertyEntry := c.entries.map (·.2)

/-- The entries that set a property. -/
def assigned (c : ChangeSet) : List PropertyEntry := c.log.filter (!·.isRemoval)

/-- The entries that remove a property. -/
def removed (c : ChangeSet) : List PropertyEntry := c.log.filter (·.isRemoval)

/-- Every entry, those that set a property first. -/
def propertyChanges (c : ChangeSet) : List PropertyEntry := c.assigned ++ c.removed

/-- The nodes created, deleted or written, in order. -/
def touched (c : ChangeSet) : List NodeId :=
  inOrder (c.createdNodes ++ c.deletedNodes ++ c.log.map (·.node))

/-- The last committed properties of each deleted node, as far as their removal was recorded. -/
def deletionSnapshots (c : ChangeSet) : Assoc NodeId Properties :=
  c.removed.foldl
    (fun snapshots e =>
      match e.previous with
      | some old => snapshots.adjust e.node (Assoc.put · e.key.name old)
      | none => snapshots)
    (Assoc.ofRows (c.deletedNodes.map (·, [])))

/-- Nothing was recorded. -/
def isEmpty (c : ChangeSet) : Bool :=
  c.createdNodes.isEmpty && c.deletedNodes.isEmpty && c.createdRelationships.isEmpty &&
    c.deletedRelationships.isEmpty && c.entries.isEmpty

end ChangeSet
end EntityGraph
