import EntityGraph.Json.Reader
import EntityGraph.Json.Writer

/-!
Identities of nodes, relationships and transactions. They are natural numbers, handed out in
increasing order; text holds them as 64-bit words.
-/

namespace EntityGraph

/-- Identity of a node. -/
structure NodeId where
  raw : Nat
  deriving DecidableEq, Inhabited

/-- Identity of a relationship. -/
structure RelationshipId where
  raw : Nat
  deriving DecidableEq, Inhabited

/-- Identity of one attempted commit. -/
structure TxnId where
  raw : Nat
  deriving DecidableEq, Inhabited

instance : LT NodeId := ⟨fun a b => a.raw < b.raw⟩
instance : DecidableLT NodeId := fun a b => inferInstanceAs (Decidable (a.raw < b.raw))
instance : LT RelationshipId := ⟨fun a b => a.raw < b.raw⟩
instance : DecidableLT RelationshipId := fun a b => inferInstanceAs (Decidable (a.raw < b.raw))
instance : LT TxnId := ⟨fun a b => a.raw < b.raw⟩
instance : DecidableLT TxnId := fun a b => inferInstanceAs (Decidable (a.raw < b.raw))

instance : ToString NodeId := ⟨fun n => "n" ++ toString n.raw⟩
instance : ToString RelationshipId := ⟨fun r => "r" ++ toString r.raw⟩
instance : ToString TxnId := ⟨fun t => "txn-" ++ toString t.raw⟩

/-- The identity as messages show it. -/
def NodeId.outline (n : NodeId) : String := s!"NodeId({n.raw})"

/-- The identity as messages show it. -/
def RelationshipId.outline (r : RelationshipId) : String := s!"RelationshipId({r.raw})"

/-- The identity as messages show it. -/
def TxnId.outline (t : TxnId) : String := s!"TxnId({t.raw})"

/-- The identity of an integer, which must not be negative. -/
def NodeId.ofInt? (n : Int64) : Option NodeId := if 0 ≤ n.toInt then some ⟨n.toInt.toNat⟩ else none

/-- Reads an identity as its number. -/
def NodeId.ofJson? (j : Json) : Option NodeId := j.word?.map NodeId.mk

/-- Reads an identity as its number. -/
def RelationshipId.ofJson? (j : Json) : Option RelationshipId := j.word?.map RelationshipId.mk

/-- Reads an identity as its number. -/
def TxnId.ofJson? (j : Json) : Option TxnId := j.word?.map TxnId.mk

/-- The identity as its number. -/
def NodeId.toJson (n : NodeId) : Json := .int n.raw

/-- The identity as its number. -/
def RelationshipId.toJson (r : RelationshipId) : Json := .int r.raw

/-- The identity as its number. -/
def TxnId.toJson (t : TxnId) : Json := .int t.raw

end EntityGraph
