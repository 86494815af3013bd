import EntityGraph.World.Basic

/-!
Operations on the open transactions of a world. A transaction that is about to end is no longer open
to them.
-/

namespace EntityGraph.World
variable {L H : Type}

/-- Begins a transaction on a copy of the committed state. -/
def begin (w : World L H) (h : Nat) (caller : Caller) : Nat × World L H :=
  let (context, w) := w.beginContext h caller
  let t : Transaction :=
    { txn := context.txn, caller, hook := h, context := some context, working := w.graph.committed }
  let n := w.nextTransaction
  (n, { w with transactions := w.transactions.put n t, nextTransaction := n + 1 })

/-- An open transaction that is not about to end. -/
def transaction? (w : World L H) (n : Nat) : Option (Transaction × TransactionContext) := do
  let t ← w.transactions.get? n
  return (t, ← t.context)

/-- Takes the context of a transaction that is about to end. -/
def close (w : World L H) (n : Nat) : World L H :=
  { w with transactions := w.transactions.adjust n ({ · with context := none }) }

/-- Forgets a transaction and its claims. -/
def forget (w : World L H) (n : Nat) (txn : TxnId) : World L H :=
  { w with
    transactions := w.transactions.without n
    graph.claims := w.graph.claims.without txn }

/-- An operation on an open transaction. -/
def onTransaction {α : Type} (w : World L H) (n : Nat)
    (op : Graph → Transaction → Transaction.Outcome α) : Outcome L H α :=
  match w.transaction? n with
  | none => none
  | some (t, _) => (op w.graph t).map fun (result, graph, t) =>
    (result, { w with graph, transactions := w.transactions.put n t })

/-- Creates a node. -/
def createNode (w : World L H) (n : Nat) (type : EntityType) (p : Properties) : Outcome L H Node :=
  w.onTransaction n fun g t => t.createNode g type p

/-- Sets a property; null removes it. -/
def setProperty (w : World L H) (n : Nat) (id : NodeId) (key : PropertyKey) (v : Value) :
    Outcome L H Unit :=
  w.onTransaction n fun g t => t.write g id key v

/-- Removes a property. -/
def removeProperty (w : World L H) (n : Nat) (id : NodeId) (key : PropertyKey) : Outcome L H Unit :=
  w.setProperty n id key .null

/-- Creates a relationship. -/
def createRelationship (w : World L H) (n : Nat) (start stop : NodeId) (type : String)
    (p : Properties) : Outcome L H RelationshipId :=
  w.onTransaction n fun g t => t.createRelationship g start stop type p

/-- Deletes a relationship. -/
def deleteRelationship (w : World L H) (n : Nat) (id : RelationshipId) : Outcome L H Unit :=
  w.onTransaction n fun g t => t.deleteRelationship g id

/-- Deletes a node with its relationships. -/
def deleteNode (w : World L H) (n : Nat) (id : NodeId) : Outcome L H Unit :=
  w.onTransaction n fun g t => t.deleteNode g id

end EntityGraph.World
