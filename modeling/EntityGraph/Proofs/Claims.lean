import EntityGraph.Proofs.Consistency
import EntityGraph.Proofs.UniqueWrites
import Mathlib.Data.Set.Subsingleton

/-!
What guards unique values while transactions are open. A value that a transaction holds is claimed,
so no other one writes it to another node, and a check looks at the committed state as well; only a
node that the transaction itself touched is looked at in its working copy alone.

Main statement: `Reaches.seesOtherwise` — if all transactions begin with one hook and every scope
has its lock, then a committed node that holds a value equal to one that a transaction holds is one
that the transaction knows with another value, or none.
-/

namespace EntityGraph

namespace Transaction

/-- Every value that the transaction holds is claimed. -/
def Claimed (s : Schema) (claims : ClaimTable) (t : Transaction) : Prop :=
  ∀ σ id key v, t.Holds s σ id key v →
    ∃ c, claims.claim? t.txn id key = some c ∧ c.value = v ∧ s.scope? c.type key = some σ

/-- The node is one that the transaction sees, or deleted. -/
def Knows (t : Transaction) (id : NodeId) : Prop :=
  t.working.nodes.has id = true ∨ id ∈ t.changes.deletedNodes

/-- A committed node that holds a value equal to one of its own is one that the transaction knows,
with another value or none. -/
def SeesOtherwise (s : Schema) (g : GraphState) (t : Transaction) : Prop :=
  ∀ σ id m key u v, t.Holds s σ id key v → m ≠ id → g.scope? s m key = some σ →
    g.value? m key = some u → (u == v) = true →
      t.Knows m ∧ ∀ u', t.working.value? m key = some u' → (u' == v) = false

/-- What guards the values of a transaction, and those of others against it. -/
structure Guarded (others : Transaction → Prop) (a : Graph × Transaction) : Prop where
  locked : a.1.schema.Locked a.1.locks
  apart : Apart a.1.schema a.2 a.2
  claimed : Claimed a.1.schema a.1.claims a.2
  seesOtherwise : SeesOtherwise a.1.schema a.1.committed a.2
  othersApart : ∀ t, others t → Apart a.1.schema a.2 t
  othersClaimed : ∀ t, others t → Claimed a.1.schema a.1.claims t

variable {start : GraphState} {a b : Graph × Transaction}

theorem knows_of_start {t : Transaction} (ht : Tracks start t.working t.changes) {id : NodeId}
    (h : start.nodes.has id = true) : t.Knows id := by
  cases hw : t.working.nodes.has id with
  | true => exact Or.inl hw
  | false => exact Or.inr ((ht.deleted id).2 ⟨h, hw⟩)

/-- A node that a transaction touched was there when it began, or the transaction made it. -/
theorem start_of_touched {t : Transaction} (ht : Tracks start t.working t.changes) {id : NodeId}
    (h : id ∈ t.changes.touched) :
    start.nodes.has id = true ∨ t.working.nodes.has id = true := by
  rcases ChangeSet.mem_touched.1 h with hc | hd | ⟨e, he, rfl⟩
  · exact Or.inr ((ht.created id).1 hc).1
  · exact Or.inl ((ht.deleted id).1 hd).1
  · exact (ht.change _ _ _ _ (ht.filed.change?_of_mem he)).2.2.2

theorem Step.keeps (hs : a.1.schema.KeepsLocks) (h : Step a b) :
    LockTable.Keeps a.1.locks b.1.locks := by
  cases h with
  | refused hcheck => exact check_keeps hs hcheck
  | @written g g' t node k v hnode hkey hcheck =>
    have hlocks : (t.settled g' node.id k v).locks = g'.locks := by rw [settled_eq]
    exact hlocks ▸ check_keeps hs hcheck
  | skipped => exact fun _ h => h
  | entered => exact fun _ h => h
  | related => exact fun _ h => h
  | dropped => exact fun _ h => h
  | erased => exact fun _ h => h

/-- Whatever is filed under the identities of others stays. -/
theorem Step.row_other (h : Step a b) {txn : TxnId} (hne : txn ≠ a.2.txn) :
    Assoc.get? b.1.claims txn = Assoc.get? a.1.claims txn := by
  have hadd : ∀ {g g' : Graph} {t : Transaction} {node : Node} {k : PropertyKey} {v : Value}
      {r : Except Failure Unit}, txn ≠ t.txn → t.check g node k v = some (r, g') →
        Assoc.get? g'.claims txn = Assoc.get? g.claims txn := by
    intro g g' t node k v r hne hcheck
    rcases check_claims hcheck with hsame | ⟨-, hadd⟩
    · rw [hsame]
    · rw [hadd, ClaimTable.add, Assoc.get?_put, if_neg hne]
  cases h with
  | refused hcheck => exact hadd hne hcheck
  | @written g g' t node k v hnode hkey hcheck =>
    rw [← hadd hne hcheck, settled]
    split
    · exact (Assoc.get?_adjust _ _ _ _).trans (if_neg hne)
    · rfl
  | skipped => rfl
  | entered => rfl
  | related => rfl
  | dropped => rfl
  | erased => exact (Assoc.get?_adjust _ _ _ _).trans (if_neg hne)

/-- The claims of others stay. -/
theorem Step.claim?_other (h : Step a b) {txn : TxnId} (hne : txn ≠ a.2.txn) (id : NodeId)
    (key : String) : b.1.claims.claim? txn id key = a.1.claims.claim? txn id key := by
  rw [ClaimTable.claim?, h.row_other hne, ClaimTable.claim?]

theorem Wrote.held {σ : UniqueScope} {node : Node} {k : PropertyKey} {v : Value}
    (h : Wrote a b node k v) (hl : a.1.schema.Locked a.1.locks)
    (hσ : a.1.schema.scope? node.type k.name = some σ) :
    b.1.claims = a.1.claims.add a.2.txn node.id k.name ⟨node.type, v⟩ := by
  refine (check_unique hσ h.notNull h.check).2 ?_
  have htype := (node?_eq_some h.present).2.2
  rw [Schema.typeOf?] at htype
  split at htype
  · exact hl _ _ _ _ htype hσ
  · simp at htype

theorem Guarded.step {others : Transaction → Prop} (hkeeps : a.1.schema.KeepsLocks)
    (hothers : ∀ t, others t → t.txn ≠ a.2.txn) (ht : Tracks start a.2.working a.2.changes)
    (ht' : Tracks start b.2.working b.2.changes)
    (hknown : ∀ id, a.2.working.nodes.has id = true → a.1.committed.nodes.has id = true →
      start.nodes.has id = true)
    (htypes : a.2.working.SameTypes a.1.committed) (h : Step a b) (ha : Guarded others a) :
    Guarded others b := by
  have hframe := h.frame
  have hscope : ∀ {m key σ u}, a.1.committed.scope? a.1.schema m key = some σ →
      a.1.committed.value? m key = some u → a.2.working.nodes.has m = true →
        a.2.working.scope? a.1.schema m key = some σ := by
    intro m key σ u hσ hu hm
    rwa [GraphState.scope?_congr (htypes m hm (GraphState.has_of_value? hu))]
  refine ⟨?_, ?_, ?_, ?_, ?_, ?_⟩ <;> rw [hframe.schema]
  · intro raw type key σ htype hσ
    exact h.keeps hkeeps _ (ha.locked raw type key σ htype hσ)
  · exact ha.apart.step ht ht' h
  · intro σ id key v hv
    rw [hframe.txn]
    rcases h.holds ht ht' hv with ⟨hv₀, hleft⟩ | ⟨node, k, hwrote, rfl, rfl, hσ⟩
    · rw [hleft.claim]
      exact ha.claimed σ id key v hv₀
    · refine ⟨⟨node.type, v⟩, ?_, rfl, hσ⟩
      rw [hwrote.held ha.locked hσ, ClaimTable.claim?_add, if_pos ⟨rfl, rfl, rfl⟩]
  · intro σ id m key u v hv hm hσm hu he
    rw [hframe.committed] at hσm hu
    have hstart : a.2.working.nodes.has m = true → start.nodes.has m = true :=
      fun hw => hknown m hw (GraphState.has_of_value? hu)
    rcases h.holds ht ht' hv with ⟨hv₀, -⟩ | ⟨node, k, hwrote, rfl, rfl, hσ⟩
    · obtain ⟨hm₀, hother⟩ := ha.seesOtherwise σ id m key u v hv₀ hm hσm hu he
      refine ⟨knows_of_start ht' (hm₀.elim hstart fun hd => ((ht.deleted m).1 hd).1),
        fun u' hu' => ?_⟩
      rcases h.cell ht m (hv.value ht').2 with hnone | hleft | ⟨node, k, v', hwrote, rfl, rfl⟩
      · rw [hnone] at hu'
        simp at hu'
      · rw [hleft.value] at hu'
        exact hother u' hu'
      · -- the transaction writes to the committed holder itself
        obtain rfl := Option.some.inj ((hwrote.value ht).symm.trans hu')
        have hnode : a.2.working.nodes.has node.id = true :=
          (Assoc.has_eq_true_iff _ _).2 ⟨_, (node?_eq_some hwrote.present).2.1⟩
        have hσ := hscope hσm hu hnode
        rw [GraphState.scope?_of_node hwrote.present] at hσ
        rw [Value.beq_comm]
        exact (hwrote.free hσ).touched id v (Ne.symm hm) (hv₀.touched ht.filed) hv₀.scope
          (hv₀.value ht).1
    · by_cases htouched : m ∈ a.2.changes.touched
      · refine ⟨knows_of_start ht' ((start_of_touched ht htouched).elim id hstart),
          fun u' hu' => ?_⟩
        rw [hwrote.value_elsewhere ht fun he => hm (Prod.mk.inj he).1] at hu'
        exact (hwrote.free hσ).touched m u' hm htouched
          (hscope hσm hu (GraphState.has_of_value? hu')) hu'
      · have hfree := (hwrote.free hσ).untouched m u hm htouched hσm hu
        rw [hfree] at he
        simp at he
  · intro t hothersT σ m n key u v hu hv hne
    rcases h.holds ht ht' hu with ⟨hu₀, -⟩ | ⟨node, k, hwrote, rfl, rfl, hσ⟩
    · exact ha.othersApart t hothersT σ m n key u v hu₀ hv hne
    · obtain ⟨c, hc, rfl, hσc⟩ := ha.othersClaimed t hothersT σ n k.name v hv
      rw [Value.beq_comm]
      exact (hwrote.free hσ).unclaimed n t.txn c (Ne.symm hne) (hothers t hothersT) hc hσc
  · intro t hothersT σ id key v hv
    rw [h.claim?_other (hothers t hothersT)]
    exact ha.othersClaimed t hothersT σ id key v hv

theorem Guarded.steps {others : Transaction → Prop} (hkeeps : a.1.schema.KeepsLocks)
    (hothers : ∀ t, others t → t.txn ≠ a.2.txn)
    (ht : ∀ s, Steps a s → Tracks start s.2.working s.2.changes)
    (hknown : ∀ s, Steps a s → ∀ id, s.2.working.nodes.has id = true →
      s.1.committed.nodes.has id = true → start.nodes.has id = true)
    (htypes : ∀ s, Steps a s → s.2.working.SameTypes s.1.committed) (h : Steps a b)
    (ha : Guarded others a) : Guarded others b := by
  induction h with
  | refl => exact ha
  | tail hab hstep ih =>
    have hframe := Steps.frame hab
    refine ih.step (hframe.schema ▸ hkeeps) (fun t hother => ?_) (ht _ hab)
      (ht _ (hab.tail hstep)) (hknown _ hab) (htypes _ hab) hstep
    rw [hframe.txn]
    exact hothers t hother

/-- What a node holds after the changes were applied: the transaction wrote it, it made the node, or
it was there before. -/
theorem holds_of_apply {s : Schema} {t : Transaction} {g : GraphState} {σ : UniqueScope}
    {id : NodeId} {key : String} {v : Value} (ht : Tracks start t.working t.changes)
    (htypes : t.working.SameTypes g)
    (hσ : (g.apply t.working t.changes).scope? s id key = some σ)
    (hv : (g.apply t.working t.changes).value? id key = some v) :
    t.Holds s σ id key v ∨ id ∈ t.changes.createdNodes ∧ key = typeProperty ∨
      id ∉ t.changes.createdNodes ∧ t.changes.change? id key = none ∧
        g.scope? s id key = some σ ∧ g.value? id key = some v := by
  obtain ⟨hd, hin⟩ := (ht.has_apply g id).1 (GraphState.has_of_value? hv)
  by_cases hc : id ∈ t.changes.createdNodes
  · by_cases hkey : key = typeProperty
    · exact Or.inr (Or.inl ⟨hc, hkey⟩)
    left
    have hsame : ∀ k, (g.apply t.working t.changes).value? id k = t.working.value? id k := by
      intro k
      rw [GraphState.value?, ht.get?_apply_created g hc, GraphState.value?]
    rw [hsame] at hv
    rw [GraphState.scope?_congr (hsame typeProperty)] at hσ
    rcases hchange : t.changes.change? id key with _ | ⟨previous, value⟩
    · have hnew := ((ht.created id).1 hc).2
      rw [ht.unchanged id key hchange hkey, GraphState.value?_eq_none_of_has hnew] at hv
      simp at hv
    · obtain ⟨-, rfl, -⟩ := ht.change id key previous value hchange
      exact ⟨⟨previous, hv ▸ hchange⟩, hσ⟩
  · replace hin := hin.resolve_left hc
    have htype : (g.apply t.working t.changes).value? id typeProperty =
        g.value? id typeProperty := by
      rw [ht.value?_apply g hd hc hin, ht.change?_type]
      rfl
    rw [ht.value?_apply g hd hc hin] at hv
    rw [GraphState.scope?_congr htype] at hσ
    rcases hchange : t.changes.change? id key with _ | ⟨previous, value⟩
    · rw [hchange] at hv
      exact Or.inr (Or.inr ⟨hc, rfl, hσ, hv⟩)
    · left
      rw [hchange] at hv
      obtain ⟨-, rfl, -⟩ := ht.change id key previous value hchange
      have hw := ht.has_of_change? hchange hd
      refine ⟨⟨previous, hchange.trans ?_⟩, ?_⟩
      · rw [show t.working.value? id key = some v from hv]
      · rwa [GraphState.scope?_congr (htypes id hw hin)]

end Transaction

namespace World
variable {L H : Type} {hooks : Set Nat} {w w₁ : World L H} {log : List CommitRecord}
  {origin : Nat → GraphState}

/-- What guards unique values, if transactions begin with the given hooks. -/
structure Guarded (hooks : Set Nat) (w : World L H) : Prop where
  locked : w.graph.schema.Locked w.graph.locks
  /-- The identity of a transaction was given out by one of the hooks. -/
  issued : ∀ n t, w.transactions.get? n = some t → ∃ h ∈ hooks, t.txn.raw < (w.hook h).nextTxn
  distinct : ∀ n m t t', w.transactions.get? n = some t → w.transactions.get? m = some t' →
    n ≠ m → t.txn ≠ t'.txn
  claimed : ∀ n t, w.transactions.get? n = some t →
    t.Claimed w.graph.schema w.graph.claims
  apart : ∀ n m t t', w.transactions.get? n = some t → w.transactions.get? m = some t' →
    t.Apart w.graph.schema t'
  seesOtherwise : ∀ n t, w.transactions.get? n = some t →
    t.SeesOtherwise w.graph.schema w.graph.committed

namespace Guarded

theorem aside {w' : World L H} (h : Guarded hooks w) (ha : Aside w w') : Guarded hooks w' := by
  obtain ⟨hg, ht, -, hnext⟩ := ha
  refine ⟨hg ▸ h.locked, fun n t hn => ?_, ht ▸ h.distinct, ht ▸ hg ▸ h.claimed,
    ht ▸ hg ▸ h.apart, ht ▸ hg ▸ h.seesOtherwise⟩
  obtain ⟨k, hk, hlt⟩ := h.issued n t (ht ▸ hn)
  exact ⟨k, hk, hlt.trans_le (hnext k)⟩

theorem not_holds_newcomer {s : Schema} {k : Nat} {caller : Caller} {σ : UniqueScope}
    {id : NodeId} {key : String} {v : Value} :
    ¬ (w.newcomer k caller).Holds s σ id key v := by
  rintro ⟨⟨previous, hc⟩, -⟩
  simp [newcomer, ChangeSet.change?, ChangeSet.entryOf?] at hc

theorem begin (h : Guarded hooks w) (hone : hooks.Subsingleton) {k : Nat} (hk : k ∈ hooks)
    (caller : Caller) : Guarded hooks (w.begin k caller).2 := by
  -- the one hook gave out every identity in use, each before this one
  have hold : ∀ {n t}, w.transactions.get? n = some t → t.txn.raw < (w.hook k).nextTxn := by
    intro n t ht
    obtain ⟨k', hk', hlt⟩ := h.issued n t ht
    rwa [hone hk' hk] at hlt
  refine ⟨h.locked, ?_, ?_, ?_, ?_, ?_⟩
  · intro n t ht
    refine ⟨k, hk, ?_⟩
    rw [nextTxn_begin, if_pos rfl]
    rcases get?_of_begin ht with ⟨-, rfl⟩ | ⟨-, ht⟩
    · exact Nat.lt_succ_self _
    · exact Nat.lt_succ_of_lt (hold ht)
  · intro n m t t' ht ht' hne he
    rcases get?_of_begin ht with ⟨rfl, rfl⟩ | ⟨-, ht⟩
    · rcases get?_of_begin ht' with ⟨rfl, -⟩ | ⟨-, ht'⟩
      · exact hne rfl
      · exact Nat.lt_irrefl _ (he ▸ hold ht')
    · rcases get?_of_begin ht' with ⟨rfl, rfl⟩ | ⟨-, ht'⟩
      · exact Nat.lt_irrefl _ (he ▸ hold ht)
      · exact h.distinct n m t t' ht ht' hne he
  · intro n t ht
    rcases get?_of_begin ht with ⟨-, rfl⟩ | ⟨-, ht⟩
    · exact fun _ _ _ _ hv => absurd hv not_holds_newcomer
    · exact h.claimed n t ht
  · intro n m t t' ht ht'
    rcases get?_of_begin ht with ⟨-, rfl⟩ | ⟨-, ht⟩
    · exact fun _ _ _ _ _ _ hv => absurd hv not_holds_newcomer
    · rcases get?_of_begin ht' with ⟨-, rfl⟩ | ⟨-, ht'⟩
      · exact fun _ _ _ _ _ _ _ hv => absurd hv not_holds_newcomer
      · exact h.apart n m t t' ht ht'
  · intro n t ht
    rcases get?_of_begin ht with ⟨-, rfl⟩ | ⟨-, ht⟩
    · exact fun _ _ _ _ _ _ hv => absurd hv not_holds_newcomer
    · exact h.seesOtherwise n t ht

/-- Steps of an operation on one of the transactions. -/
theorem put (h : Guarded hooks w) (hs : Sound origin w) (hkeeps : w.graph.schema.KeepsLocks)
    {n : Nat} {t : Transaction} {s : Graph × Transaction} (ht : w.transactions.get? n = some t)
    (hsteps : Transaction.Steps (w.graph, t) s) : Guarded hooks (w.put n s) := by
  have hget := get?_put w n s
  have hself : ∀ s, (w.put n s).transactions.get? n = some s.2 := fun s => by
    rw [get?_put, if_pos rfl]
  have hframe := hsteps.frame
  have hguarded : Transaction.Guarded
      (fun t' => ∃ m, m ≠ n ∧ w.transactions.get? m = some t') s := by
    refine Transaction.Guarded.steps hkeeps ?_
      (fun s' hs' => (hs.put ht hs').tracks n s'.2 (hself s'))
      (fun s' hs' => (hs.put ht hs').known (hself s'))
      (fun s' hs' => (hs.put ht hs').sameTypes (hself s')) hsteps
      ⟨h.locked, h.apart n n t t ht ht, h.claimed n t ht, h.seesOtherwise n t ht, ?_, ?_⟩
    · rintro t' ⟨m, hm, ht'⟩
      exact h.distinct m n t' t ht' ht hm
    · rintro t' ⟨m, -, ht'⟩
      exact h.apart n m t t' ht ht'
    · rintro t' ⟨m, -, ht'⟩
      exact h.claimed m t' ht'
  refine ⟨hguarded.locked, ?_, ?_, ?_, ?_, ?_⟩
  · intro m t' ht'
    rcases get?_of_put ht' with ⟨rfl, rfl⟩ | ⟨-, ht'⟩
    · rw [hframe.txn]
      exact h.issued m t ht
    · exact h.issued m t' ht'
  · intro m m' t₁ t₂ h₁ h₂ hne
    rcases get?_of_put h₁ with ⟨rfl, rfl⟩ | ⟨-, h₁'⟩
    · rcases get?_of_put h₂ with ⟨rfl, -⟩ | ⟨-, h₂'⟩
      · exact absurd rfl hne
      · rw [hframe.txn]
        exact h.distinct m m' t t₂ ht h₂' hne
    · rcases get?_of_put h₂ with ⟨rfl, rfl⟩ | ⟨-, h₂'⟩
      · rw [hframe.txn]
        exact h.distinct m m' t₁ t h₁' ht hne
      · exact h.distinct m m' t₁ t₂ h₁' h₂' hne
  · intro m t' ht'
    rcases get?_of_put ht' with ⟨-, rfl⟩ | ⟨hm, ht'⟩
    · exact hguarded.claimed
    · exact hguarded.othersClaimed t' ⟨m, hm, ht'⟩
  · intro m m' t₁ t₂ h₁ h₂
    rcases get?_of_put h₁ with ⟨-, rfl⟩ | ⟨hm, h₁⟩
    · rcases get?_of_put h₂ with ⟨-, rfl⟩ | ⟨hm', h₂⟩
      · exact hguarded.apart
      · exact hguarded.othersApart t₂ ⟨m', hm', h₂⟩
    · rcases get?_of_put h₂ with ⟨-, rfl⟩ | ⟨-, h₂⟩
      · exact (hguarded.othersApart t₁ ⟨m, hm, h₁⟩).symm
      · exact hframe.schema ▸ h.apart m m' t₁ t₂ h₁ h₂
  · intro m t' ht'
    rcases get?_of_put ht' with ⟨-, rfl⟩ | ⟨-, ht'⟩
    · exact hguarded.seesOtherwise
    · have hcommitted : (w.put n s).graph.committed = w.graph.committed := hframe.committed
      have hschema : (w.put n s).graph.schema = w.graph.schema := hframe.schema
      rw [hcommitted, hschema]
      exact h.seesOtherwise m t' ht'

theorem close (h : Guarded hooks w) (n : Nat) : Guarded hooks (w.close n) := by
  refine ⟨h.locked, ?_, ?_, ?_, ?_, ?_⟩
  · intro m t ht
    obtain ⟨t₀, ht₀, he, -⟩ := get?_of_close ht
    rw [he]
    exact h.issued m t₀ ht₀
  · intro m m' t t' ht ht' hne
    obtain ⟨t₀, ht₀, he, -⟩ := get?_of_close ht
    obtain ⟨t₀', ht₀', he', -⟩ := get?_of_close ht'
    rw [he, he']
    exact h.distinct m m' t₀ t₀' ht₀ ht₀' hne
  · intro m t ht
    obtain ⟨t₀, ht₀, he, -⟩ := get?_of_close ht
    rw [he]
    exact fun σ id key v hv => h.claimed m t₀ ht₀ σ id key v ((Transaction.holds_context _).1 hv)
  · intro m m' t t' ht ht'
    obtain ⟨t₀, ht₀, he, -⟩ := get?_of_close ht
    obtain ⟨t₀', ht₀', he', -⟩ := get?_of_close ht'
    rw [he, he']
    exact fun σ i j key u v hu hv => h.apart m m' t₀ t₀' ht₀ ht₀' σ i j key u v
      ((Transaction.holds_context _).1 hu) ((Transaction.holds_context _).1 hv)
  · intro m t ht
    obtain ⟨t₀, ht₀, he, -⟩ := get?_of_close ht
    rw [he]
    exact fun σ i j key u v hv => h.seesOtherwise m t₀ ht₀ σ i j key u v
      ((Transaction.holds_context _).1 hv)

/-- A transaction ends, and the committed state becomes one against which the others are guarded. -/
theorem leave (h : Guarded hooks w) {n : Nat} {t : Transaction}
    (ht : w.transactions.get? n = some t) {g : GraphState}
    (hg : ∀ m t', m ≠ n → w.transactions.get? m = some t' →
      t'.SeesOtherwise w.graph.schema g) :
    Guarded hooks (({ w with graph.committed := g } : World L H).forget n t.txn) := by
  refine ⟨h.locked, ?_, ?_, ?_, ?_, ?_⟩
  · intro m t' ht'
    exact h.issued m t' (get?_of_forget ht').2
  · intro m m' t₁ t₂ h₁ h₂
    exact h.distinct m m' t₁ t₂ (get?_of_forget h₁).2 (get?_of_forget h₂).2
  · intro m t' ht' σ id key v hv
    obtain ⟨hm, ht'⟩ := get?_of_forget ht'
    obtain ⟨c, hc, hrest⟩ := h.claimed m t' ht' σ id key v hv
    refine ⟨c, ?_, hrest⟩
    exact (ClaimTable.claim?_without _ _ _ _ _).trans
      ((if_neg (h.distinct m n t' t ht' ht hm)).trans hc)
  · intro m m' t₁ t₂ h₁ h₂
    exact h.apart m m' t₁ t₂ (get?_of_forget h₁).2 (get?_of_forget h₂).2
  · intro m t' ht'
    exact hg m t' (get?_of_forget ht').1 (get?_of_forget ht').2

theorem forget (h : Guarded hooks w) {n : Nat} {t : Transaction}
    (ht : w.transactions.get? n = some t) : Guarded hooks (w.forget n t.txn) :=
  h.leave ht fun m t' _ ht' => h.seesOtherwise m t' ht'

theorem settle (h : Guarded hooks w) (hs : Sound origin w) {n : Nat} {t : Transaction}
    (ht : w.transactions.get? n = some t) : Guarded hooks (w.settle n t) := by
  refine h.leave ht fun m t' hm ht' σ id j key u v hv hj hσ hu he => ?_
  have hkey := (hv.value (hs.tracks m t' ht')).2
  rcases Transaction.holds_of_apply (hs.tracks n t ht) (hs.sameTypes ht) hσ hu with
    hheld | ⟨-, htype⟩ | ⟨-, -, hσ, hu⟩
  · rw [h.apart n m t t' ht ht' σ j id key u v hheld hv hj] at he
    simp at he
  · exact absurd htype hkey
  · exact h.seesOtherwise m t' ht' σ id j key u v hv hj hσ hu he

end Guarded

/-- Unique values stay guarded if all transactions begin with one hook. -/
theorem guarded_invariant (hone : hooks.Subsingleton) {schema : Schema}
    (hkeeps : schema.KeepsLocks) :
    Invariant hooks fun w : World L H => w.graph.schema = schema ∧ Guarded hooks w where
  aside := fun ⟨hschema, hg⟩ ha => ⟨ha.graph ▸ hschema, hg.aside ha⟩
  begin := fun caller ⟨hschema, hg⟩ hk => ⟨hschema, hg.begin hone hk caller⟩
  put := fun hs ⟨hschema, hg⟩ ht hsteps =>
    ⟨hsteps.frame.schema.trans hschema, hg.put hs (hschema ▸ hkeeps) ht hsteps⟩
  close := fun n ⟨hschema, hg⟩ => ⟨hschema, hg.close n⟩
  settle := fun hs ⟨hschema, hg⟩ ht _ => ⟨hschema, hg.settle hs ht⟩
  forget := fun ⟨hschema, hg⟩ ht => ⟨hschema, hg.forget ht⟩

/-- Whatever a commit finds committed its transaction knows with another value, if it is a value
equal to one that the transaction wrote to another node. -/
theorem Reaches.seesOtherwise (h : Reaches hooks w log w₁) (hone : hooks.Subsingleton)
    (hkeeps : w.graph.schema.KeepsLocks) (hs : Sound origin w) (hg : Guarded hooks w) :
    ∀ c ∈ log, c.transaction.SeesOtherwise w.graph.schema c.before := by
  refine ((guarded_invariant hone hkeeps).reaches (fun {o w' n t} _ hp hclosed => ?_)
    h hs ⟨rfl, hg⟩).2
  obtain ⟨hschema, hg'⟩ := hp
  rw [← hschema]
  intro σ i j key u v hv
  exact hg'.seesOtherwise n _ hclosed σ i j key u v ((Transaction.holds_context none).2 hv)

theorem guarded_start {schema : Schema} {locks : LockTable} (hl : schema.Locked locks)
    (table : Assoc Nat (CommitHook L)) (host : H) :
    Guarded hooks (start schema locks table host : World L H) where
  locked := hl
  issued := by intro n t h; simp [start] at h
  distinct := by intro n m t t' h; simp [start] at h
  claimed := by intro n t h; simp [start] at h
  apart := by intro n m t t' h; simp [start] at h
  seesOtherwise := by intro n t h; simp [start] at h

end World
end EntityGraph
