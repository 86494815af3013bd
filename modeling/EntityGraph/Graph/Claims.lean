import EntityGraph.Node

/-!
Unique values that open transactions have written. Such a value counts as held by its node for every
other transaction, until the transaction ends.
-/

namespace EntityGraph

/-- A unique value that a transaction wrote, with the type of its node. -/
structure Claim where
  type : EntityType
  value : Value
  deriving Inhabited

/-- Claims by transaction, node and property. -/
abbrev ClaimTable := Assoc TxnId (Assoc NodeId (Assoc String Claim))

namespace ClaimTable

/-- The claim of a transaction on a property. -/
def claim? (t : ClaimTable) (txn : TxnId) (node : NodeId) (key : String) : Option Claim :=
  ((t.get? txn).bind (·.get? node)).bind (·.get? key)

/-- Claims a value for a property. -/
def add (t : ClaimTable) (txn : TxnId) (node : NodeId) (key : String) (c : Claim) : ClaimTable :=
  let byNode := (t.get? txn).getD []
  t.put txn (byNode.put node (((byNode.get? node).getD []).put key c))

/-- Gives up the claim on a property. -/
def release (t : ClaimTable) (txn : TxnId) (node : NodeId) (key : String) : ClaimTable :=
  t.adjust txn fun byNode => byNode.adjust node (Assoc.without · key)

/-- Gives up the claims on a node. -/
def releaseNode (t : ClaimTable) (txn : TxnId) (node : NodeId) : ClaimTable :=
  t.adjust txn fun byNode => Assoc.without byNode node

/-- The nodes for which other transactions claim the value, of those whose chain names the type or
of all. -/
def holders (t : ClaimTable) (txn : TxnId) (type : Option String) (key : PropertyKey) (v : Value) :
    List NodeId :=
  (t.filter (·.1 ≠ txn)).flatMap fun (_, byNode) =>
    byNode.filterMap fun (node, byKey) =>
      match Assoc.get? byKey key.name with
      | some c => if c.value == v && type.all c.type.chain.contains then some node else none
      | none => none

end ClaimTable
end EntityGraph
