import EntityGraph.Graph.Claims
import EntityGraph.Graph.Conflict
import EntityGraph.TransactionContext

/-!
Open transactions. A transaction works on a copy of the state that was committed when it began and
records what it changes. A write passes the marks of the property, its conversion and its check, in
this order; what must be unique is claimed before its permit is given back.
-/

namespace EntityGraph

/-- What all transactions share: the schema and its locks, the committed state, the claims, and the
identities to give out next. -/
structure Graph where
  schema : Schema := {}
  locks : LockTable := {}
  committed : GraphState := {}
  claims : ClaimTable := []
  nextNode : Nat := 1
  nextRelationship : Nat := 1

/-- Access to the committed nodes. -/
def Graph.resolver (g : Graph) : Resolver := g.committed.resolver g.schema

/-- The graph as messages show it. -/
def Graph.outline (g : Graph) : String :=
  Outline.record "MemoryGraph" [("nodes", toString g.committed.nodes.length),
    ("relationships", toString g.committed.relationships.length)]

/-- A transaction. Its context is gone once it commits or ends. -/
structure Transaction where
  txn : TxnId
  caller : Caller
  /-- The commit hook that the transaction began with. -/
  hook : Nat
  context : Option TransactionContext
  working : GraphState
  changes : ChangeSet := {}
  deriving Inhabited

namespace Transaction

/-- How an operation on a transaction ends: in a result with what it leaves, or waiting for a permit
that never comes back. -/
abbrev Outcome (α : Type) := Option (Except Failure α × Graph × Transaction)

/-- The operation fails and changes nothing. -/
def fail {α : Type} (g : Graph) (t : Transaction) (e : Failure) : Outcome α := some (.error e, g, t)

/-- The node of an identity, as the transaction sees it. -/
def node? (g : Graph) (t : Transaction) (id : NodeId) : Option Node := t.working.node? g.schema id

/-- The node of an identity, which must be there. -/
def requireNode (g : Graph) (t : Transaction) (id : NodeId) : Except Failure Node :=
  match t.node? g id with
  | some n => .ok n
  | none => .error (.notFound s!"node {id}")

/-- The nodes that match, as the transaction sees them. -/
def find (g : Graph) (t : Transaction) (type : Option EntityType) (wanted : Properties) :
    List Node :=
  t.working.find g.schema type wanted

/-- Who holds a value: nodes that the transaction touched as it has them, all others as they are
committed now, and nodes for which other transactions claim the value. -/
def lookup (g : Graph) (t : Transaction) : HolderLookup := fun type key v =>
  let touched := t.changes.touched
  let own := (t.working.holders g.schema type key v).filter (touched.contains ·)
  let others := (g.committed.holders g.schema type key v).filter (!touched.contains ·)
  .ok (inOrder (own ++ others ++ g.claims.holders t.txn type key v))

/-- The marks of a property allow the write. -/
def checkMarks (g : Graph) (node : Node) (key : PropertyKey) : Except Failure Unit :=
  if g.schema.isReadOnly node.type key then
    .error (.invalidInput s!"{node.type}.{key} is read-only")
  else if g.schema.isWriteOnce node.type key && (node.property? key.name).any (!·.isNull) then
    .error (.invalidInput s!"{node.type}.{key} can only be written once")
  else .ok ()

/-- The value to store: the write is allowed, and the value is converted. -/
def prepare (g : Graph) (t : Transaction) (id : NodeId) (key : PropertyKey) (v : Value)
    (creating : Bool) : Except Failure (Node × Value) := do
  if key.name = typeProperty then throw (.invalidInput "the type property cannot be written")
  let node ← t.requireNode g id
  if !creating then checkMarks g node key
  let v ← g.schema.convert g.resolver node.type key t.caller v
  return (node, v)

/-- Checks a value and claims it if a permit was taken for it. Permits are given back. -/
def check (g : Graph) (t : Transaction) (node : Node) (key : PropertyKey) (v : Value) :
    Option (Except Failure Unit × Graph) :=
  let context : ValidationContext := { caller := t.caller, lookup := t.lookup g, locks := g.locks }
  (g.schema.validate context node key v).map fun (result, context) =>
    let claimed := match result with
      | .ok () => !context.permits.isEmpty
      | .error _ => false
    let claims := if claimed then g.claims.add t.txn node.id key.name ⟨node.type, v⟩ else g.claims
    (result, { g with locks := context.releaseAll.locks, claims })

/-- Stores a checked value in the working copy; null removes the property. -/
def store (t : Transaction) (node : Node) (key : PropertyKey) (v : Value) : Transaction :=
  let previous := node.property? key.name
  if v.isNull then
    match previous with
    | none => t
    | some old => { t with
        working.nodes := t.working.nodes.adjust node.id (Assoc.without · key.name)
        changes := t.changes.write node.id key (some old) none }
  else { t with
      working.nodes := t.working.nodes.adjust node.id (Assoc.put · key.name v)
      changes := t.changes.write node.id key previous (some v) }

/-- Writes a property; null removes it. While a node is created its marks do not count. -/
def write (g : Graph) (t : Transaction) (id : NodeId) (key : PropertyKey) (v : Value)
    (creating : Bool := false) : Outcome Unit :=
  match t.prepare g id key v creating with
  | .error e => fail g t e
  | .ok (node, v) =>
    match t.check g node key v with
    | none => none
    | some (.error e, g) => fail g t e
    | some (.ok (), g) =>
      let g := if v.isNull then { g with claims := g.claims.release t.txn id key.name } else g
      some (.ok (), g, t.store node key v)

/-- Writes the properties of a new node, up to the first that fails. -/
def writeAll (g : Graph) (t : Transaction) (id : NodeId) (type : String) :
    Properties → Outcome Unit
  | [] => some (.ok (), g, t)
  | (name, v) :: rest =>
    match t.write g id (.declaredBy type name) v true with
    | some (.ok (), g, t) => writeAll g t id type rest
    | r => r

/-- Creates a node. Its properties pass the transformations of the type and are then written one by
one. -/
def createNode (g : Graph) (t : Transaction) (type : EntityType) (initial : Properties) :
    Outcome Node :=
  if (g.schema.type? type.name).isNone then
    fail g t (.invalidInput s!"type {type} is not defined")
  else
    let id : NodeId := ⟨g.nextNode⟩
    let g := { g with nextNode := g.nextNode + 1 }
    let transformations := g.schema.transformationsOf type
    match Transformation.applyAll t.caller ⟨id, type, initial⟩ transformations with
    | (.error e, _) => fail g t e
    | (.ok (), node) =>
      let t := { t with
        working.nodes := t.working.nodes.put id [(typeProperty, .string type.name)]
        changes := t.changes.createNode id }
      match t.writeAll g id type.name (node.properties.without typeProperty) with
      | none => none
      | some (.error e, g, t) => fail g t e
      | some (.ok (), g, t) => some (t.requireNode g id, g, t)

/-- Creates a relationship between two nodes. -/
def createRelationship (g : Graph) (t : Transaction) (start stop : NodeId) (type : String)
    (properties : Properties) : Outcome RelationshipId :=
  match t.requireNode g start, t.requireNode g stop with
  | .error e, _ => fail g t e
  | .ok _, .error e => fail g t e
  | .ok _, .ok _ =>
    let id : RelationshipId := ⟨g.nextRelationship⟩
    let r : Relationship := ⟨id, type, start, stop, properties⟩
    some (.ok id, { g with nextRelationship := g.nextRelationship + 1 }, { t with
      working.relationships := t.working.relationships.put id r
      changes := t.changes.createRelationship r })

/-- Takes a relationship out of the working copy. -/
def dropRelationship (t : Transaction) (r : Relationship) : Transaction :=
  let (discarded, changes) := t.changes.discardRelationship r.id
  { t with
    working.relationships := t.working.relationships.without r.id
    changes := if discarded then changes else changes.deleteRelationship r }

/-- Deletes a relationship. -/
def deleteRelationship (g : Graph) (t : Transaction) (id : RelationshipId) : Outcome Unit :=
  match t.working.relationships.get? id with
  | none => fail g t (.notFound s!"relationship {id}")
  | some r => some (.ok (), g, t.dropRelationship r)

/-- Records that a node and all its properties are gone. -/
def recordDeletion (c : ChangeSet) (id : NodeId) (p : Properties) : ChangeSet :=
  let rows := p.without typeProperty
  (rows.foldl (fun c (name, v) => c.write id (.named name) (some v) none) c).deleteNode id

/-- Deletes a node and its relationships. A node created in this transaction is forgotten. -/
def deleteNode (g : Graph) (t : Transaction) (id : NodeId) : Outcome Unit :=
  let t := (t.working.relationshipsOf id).foldl dropRelationship t
  match t.working.nodes.get? id with
  | none => fail g t (.notFound s!"node {id}")
  | some p =>
    let (discarded, changes) := t.changes.discardNode id
    some (.ok (), { g with claims := g.claims.releaseNode t.txn id }, { t with
      working.nodes := t.working.nodes.without id
      changes := if discarded then changes else recordDeletion changes id p })

end Transaction
end EntityGraph
