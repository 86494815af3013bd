import EntityGraph.Proofs.ClaimIsolation
import EntityGraph.Proofs.Rejections
import EntityGraph.Proofs.WriteHistory

/-!
What claims say of open transactions. A value is claimed as long as an open transaction has it in
its working copy, set by its last write to the property, if values of the property are checked for
uniqueness under a lock; and nothing else is claimed. This needs checks that take the permit of the
lock with every value. A check that lets some values pass without a permit leaves the claim on an
earlier value of the property behind. A check looks at all nodes that its transaction touched and at
all claims of others, so the values that are claimed in one scope stay apart, though the copy of a
node may be older than what is committed.

Main statements: `Follows.step` and `ReservesApart.step` — what a step makes of claims;
`claimsMirrored_invariant` — claims follow the working copies throughout; `claims_mirrored` — so
claims follow from what has been written; `claim_left_behind` — but not if a check takes no permit.
-/

namespace EntityGraph

/-- Nodes of the type are in the scope, and values of the key are checked for uniqueness there. -/
structure Schema.InScope (s : Schema) (caller : Caller) (type : EntityType) (key : String)
    (σ : UniqueScope) : Prop where
  guarded : s.GuardedIn caller type key σ
  named : σ.type?.all type.chain.contains = true

theorem Schema.inScope_of_scope {s : Schema} {type : EntityType} {key : PropertyKey}
    {σ : UniqueScope} (h : s.scope? type key.name = some σ) (caller : Caller) :
    s.InScope caller type key.name σ :=
  ⟨guardedIn_of_scope h caller, scope?_chain h⟩

namespace Transaction

/-- A value that the transaction has set last is to be claimed. -/
structure Reserves (g : Graph) (t : Transaction) (id : NodeId) (key : String) (c : Claim) :
    Prop where
  set : ∃ previous, t.changes.change? id key = some (previous, some c.value)
  type : t.working.type? g.schema id = some c.type
  claimable : g.schema.Claimable g.locks t.caller c.type key

/-- Claims follow the values that the transaction has set last. -/
structure Follows (g : Graph) (t : Transaction) : Prop where
  /-- Only properties that are set are claimed. -/
  set : ∀ id key c, g.claims.claim? t.txn id key = some c →
    ∃ previous u, t.changes.change? id key = some (previous, some u)
  /-- A value that is set is claimed, or it passed without a permit. -/
  covered : ∀ id key type previous u, t.changes.change? id key = some (previous, some u) →
    t.working.type? g.schema id = some type →
      g.claims.claim? t.txn id key = some ⟨type, u⟩ ∨
        g.schema.Unparked g.locks t.caller id type key u

/-- Values of one scope that two transactions are to claim, on different nodes, are not equal. -/
def ReservesApart (g : Graph) (t t' : Transaction) : Prop :=
  ∀ σ id id' key c c', t.Reserves g id key c → t'.Reserves g id' key c' → id ≠ id' →
    g.schema.InScope t.caller c.type key σ → g.schema.InScope t'.caller c'.type key σ →
      (c.value == c'.value) = false

variable {g g' : Graph} {t t' : Transaction} {start : GraphState} {a b : Graph × Transaction}
  {id : NodeId} {key : String} {c : Claim} {σ : UniqueScope}

theorem Reserves.congr (h : t.Reserves g id key c) (hschema : g'.schema = g.schema)
    (hlocks : g'.locks.registered = g.locks.registered) (hcaller : t'.caller = t.caller)
    (hchange : t'.changes.change? id key = t.changes.change? id key)
    (htype : t'.working.value? id typeProperty = t.working.value? id typeProperty) :
    t'.Reserves g' id key c where
  set := hchange ▸ h.set
  type := by rw [hschema, GraphState.type?_congr htype, h.type]
  claimable := by
    rw [hschema, hcaller]
    exact h.claimable.congr hlocks

/-- It does not depend on claims, nor on the context of the transaction. -/
theorem reserves_iff_of_same (hschema : g'.schema = g.schema)
    (hlocks : g'.locks.registered = g.locks.registered)
    (ht : t' = { t with context := t'.context }) :
    t'.Reserves g' id key c ↔ t.Reserves g id key c := by
  rw [ht]
  exact ⟨fun h => h.congr hschema.symm hlocks.symm rfl rfl rfl,
    fun h => h.congr hschema hlocks rfl rfl rfl⟩

/-- Claims follow the values also when the transaction takes no part in what happens. -/
theorem Follows.of_same (h : t.Follows g) (hschema : g'.schema = g.schema)
    (hlocks : g.schema.FixesLocks → g'.locks.registered = g.locks.registered)
    (ht : t' = { t with context := t'.context })
    (hclaims : ∀ id key, g'.claims.claim? t.txn id key = g.claims.claim? t.txn id key) :
    t'.Follows g' := by
  have htxn : t'.txn = t.txn := by rw [ht]
  have hcaller : t'.caller = t.caller := by rw [ht]
  have hchanges : t'.changes = t.changes := by rw [ht]
  have hworking : t'.working = t.working := by rw [ht]
  refine ⟨fun id key c hc => ?_, fun id key type previous u hset htype => ?_⟩
  · rw [htxn, hclaims] at hc
    exact hchanges ▸ h.set id key c hc
  · rw [hchanges] at hset
    rw [hworking, hschema] at htype
    rw [htxn, hclaims, hschema, hcaller]
    exact (h.covered id key type previous u hset htype).imp_right fun hfree => hfree.fixed hlocks

/-- What is to be claimed is claimed, as long as checks leave the locks alone. -/
theorem Follows.claim_of_reserves (h : t.Follows g) (hs : g.schema.FixesLocks)
    (hr : t.Reserves g id key c) : g.claims.claim? t.txn id key = some c := by
  obtain ⟨previous, hset⟩ := hr.set
  rcases h.covered id key c.type previous c.value hset hr.type with hclaim | hfree
  · exact hclaim
  · exact absurd hr.claimable (hfree.not_claimable hs)

/-- What is claimed is to be claimed, where checks conform and leave the locks alone. -/
theorem Follows.reserves_of_claim (h : t.Follows g) (hs : g.schema.FixesLocks)
    (hconf : g.schema.Conforms t.caller c.type key) (ht : Tracks start t.working t.changes)
    (hbacks : Backs g t t.txn id key c) (hc : g.claims.claim? t.txn id key = some c) :
    t.Reserves g id key c := by
  obtain ⟨previous, u, hset⟩ := h.set id key c hc
  obtain ⟨w, hvalue, hw⟩ := hbacks.value
  obtain rfl : w = u := Option.some.inj (hvalue.symm.trans (ht.value_of_set ⟨previous, hset⟩).1)
  rcases hw with rfl | hwavers
  · exact ⟨⟨previous, hset⟩, hbacks.type, hbacks.parked.claimable hs.keepsLocks hconf⟩
  · exact absurd hwavers (hconf.not_wavers hs.keepsLocks)

theorem ReservesApart.of_same {u u' : Transaction} (h : ReservesApart g t u)
    (hschema : g'.schema = g.schema) (hlocks : g'.locks.registered = g.locks.registered)
    (ht : t' = { t with context := t'.context }) (hu : u' = { u with context := u'.context }) :
    ReservesApart g' t' u' := by
  have hcaller : t'.caller = t.caller := by rw [ht]
  have hcaller' : u'.caller = u.caller := by rw [hu]
  intro σ id id' key c c' hc hc'
  rw [hschema, hcaller, hcaller']
  exact h σ id id' key c c' ((reserves_iff_of_same hschema hlocks ht).1 hc)
    ((reserves_iff_of_same hschema hlocks hu).1 hc')

theorem Reserves.value (h : t.Reserves g id key c) (ht : Tracks start t.working t.changes) :
    t.working.value? id key = some c.value ∧ key ≠ typeProperty := ht.value_of_set h.set

theorem Reserves.touched (h : t.Reserves g id key c) (ht : t.changes.Filed) :
    id ∈ t.changes.touched := by
  obtain ⟨previous, hchange⟩ := h.set
  exact ht.touched_of_change? hchange

theorem ReservesApart.symm (h : ReservesApart g t t') : ReservesApart g t' t := by
  intro σ id id' key c c' hc hc' hne hσ hσ'
  rw [Value.beq_comm]
  exact h σ id' id key c' c hc' hc (Ne.symm hne) hσ' hσ

/-! ### A value that is written -/

section Wrote
variable {node : Node} {k : PropertyKey} {v : Value}

theorem Wrote.set (h : Wrote a b node k v) (ht : Tracks start a.2.working a.2.changes) :
    ∃ previous, b.2.changes.change? node.id k.name = some (previous, some v) := by
  refine ⟨start.value? node.id k.name, ?_⟩
  rw [h.store, ht.change?_store (node?_eq_some h.present).2.1 h.keyName, Value.kept, h.notNull]
  cases start.value? node.id k.name <;> rfl

/-- What else was set before stays set. -/
theorem Wrote.reserves_elsewhere (hs : a.1.schema.FixesLocks) (hstep : Step a b)
    (h : Wrote a b node k v) (ht : Tracks start a.2.working a.2.changes)
    (hb : b.2.Reserves b.1 id key c) (hne : id ≠ node.id) : a.2.Reserves a.1 id key c := by
  have hf := hstep.frame
  have hcell : (id, key) ≠ (node.id, k.name) := fun he => hne (Prod.mk.inj he).1
  exact hb.congr hf.schema.symm (hstep.registered hs).symm hf.caller.symm
    (h.change_elsewhere ht hcell).symm (h.type ht id).symm

/-- The transaction itself claims no equal value for another node of the scope. -/
theorem Wrote.apart_own (h : Wrote a b node k v) (ht : Tracks start a.2.working a.2.changes)
    (hσ : a.1.schema.GuardedIn a.2.caller node.type k.name σ) (hc : a.2.Reserves a.1 id k.name c)
    (hne : id ≠ node.id) (hnamed : σ.type?.all c.type.chain.contains = true) :
    (c.value == v) = false := by
  rw [← Bool.not_eq_true]
  intro he
  refine hne (heldBy_of_guarded hσ h.notNull h.check id ?_)
  refine List.mem_append_left _ (List.mem_append_left _ (List.mem_filter.2 ⟨?_, ?_⟩))
  · exact GraphState.mem_holders_of_type hc.type hnamed (hc.value ht).1 he
  · exact List.contains_iff_mem.2 (hc.touched ht.filed)

/-- Nor does another transaction. -/
theorem Wrote.apart_other (h : Wrote a b node k v)
    (hσ : a.1.schema.GuardedIn a.2.caller node.type k.name σ) {txn : TxnId} (htxn : txn ≠ a.2.txn)
    (hc : a.1.claims.claim? txn id k.name = some c) (hne : id ≠ node.id)
    (hnamed : σ.type?.all c.type.chain.contains = true) : (c.value == v) = false := by
  rw [← Bool.not_eq_true]
  intro he
  refine hne (heldBy_of_guarded hσ h.notNull h.check id ?_)
  exact List.mem_append_right _ (ClaimTable.mem_holders hc htxn he hnamed)

end Wrote

/-! ### Steps -/

/-- Where a value that is to be claimed comes from: it was so before a step, which left it, or the
step wrote it. -/
theorem Step.reserves (hs : a.1.schema.FixesLocks) (ht : Tracks start a.2.working a.2.changes)
    (ht' : Tracks start b.2.working b.2.changes) (h : Step a b)
    (hb : b.2.Reserves b.1 id key c) :
    (a.2.Reserves a.1 id key c ∧ Left a b id key) ∨
      ∃ node k, Wrote a b node k c.value ∧ node.id = id ∧ k.name = key ∧ node.type = c.type := by
  have hf := h.frame
  obtain ⟨hvalue, hkey⟩ := hb.value ht'
  rcases h.cell ht id hkey with hnone | hleft | ⟨node, k, v, hwrote, rfl, rfl⟩
  · rw [hnone] at hvalue
    simp at hvalue
  · refine Or.inl ⟨?_, hleft⟩
    exact hb.congr hf.schema.symm (h.registered hs).symm hf.caller.symm hleft.change.symm
      hleft.type.symm
  · obtain rfl : v = c.value := Option.some.inj ((hwrote.value ht).symm.trans hvalue)
    refine Or.inr ⟨node, k, hwrote, rfl, rfl, ?_⟩
    have htype := hb.type
    rw [hf.schema, GraphState.type?_congr (hwrote.type ht node.id),
      GraphState.type?_of_node hwrote.present] at htype
    exact Option.some.inj htype

/-- A value that a step writes is claimed, or it passed without a permit. -/
theorem Wrote.covered {node : Node} {k : PropertyKey} {v : Value} (h : Wrote a b node k v) :
    b.1.claims.claim? a.2.txn node.id k.name = some ⟨node.type, v⟩ ∨
      a.1.schema.Unparked a.1.locks a.2.caller node.id node.type k.name v := by
  obtain ⟨d, d', hpass, hlocks, ⟨-, hadd⟩ | ⟨hnone, -⟩⟩ := check_parked h.check
  · left
    rw [hadd, ClaimTable.claim?_add, if_pos ⟨rfl, rfl, rfl⟩]
  · exact Or.inr ⟨d, d', hpass, hnone, h.notNull, fun _ => by rw [hlocks]⟩

/-- A step that sets a value claims it if its check left a permit, and one that unsets it releases
the claim. -/
theorem Follows.step (ht : Tracks start a.2.working a.2.changes)
    (ht' : Tracks start b.2.working b.2.changes)
    (hbacks : ∀ id key c, b.1.claims.claim? b.2.txn id key = some c →
      Backs b.1 b.2 b.2.txn id key c)
    (h : Step a b) (ha : Follows a.1 a.2) : Follows b.1 b.2 := by
  have hf := h.frame
  have hlocks : a.1.schema.FixesLocks → b.1.locks.registered = a.1.locks.registered :=
    fun hs => h.registered hs
  refine ⟨fun id key c hc => ?_, fun id key type previous u hset htype => ?_⟩
  · have hb := hbacks id key c hc
    obtain ⟨u, hvalue, -⟩ := hb.value
    rcases h.cell ht id hb.keyName with hnone | hleft | ⟨node, k, v, hwrote, rfl, rfl⟩
    · exact absurd (hvalue.symm.trans hnone) (by simp)
    · rw [hf.txn, hleft.claim] at hc
      exact hleft.change ▸ ha.set id key c hc
    · obtain ⟨previous, hset⟩ := hwrote.set ht
      exact ⟨previous, v, hset⟩
  · obtain ⟨hvalue, hkey⟩ := ht'.value_of_set ⟨previous, hset⟩
    rw [hf.txn, hf.schema, hf.caller]
    rw [hf.schema] at htype
    rcases h.cell ht id hkey with hnone | hleft | ⟨node, k, v, hwrote, rfl, rfl⟩
    · exact absurd (hvalue.symm.trans hnone) (by simp)
    · rw [hleft.claim]
      have hold := ha.covered id key type previous u (hleft.change ▸ hset)
        ((GraphState.type?_congr hleft.type).symm.trans htype)
      exact hold.imp_right fun hfree => hfree.fixed hlocks
    · obtain rfl : v = u := Option.some.inj ((hwrote.value ht).symm.trans hvalue)
      obtain rfl : node.type = type := by
        rw [GraphState.type?_congr (hwrote.type ht node.id),
          GraphState.type?_of_node hwrote.present] at htype
        exact Option.some.inj htype
      exact hwrote.covered.imp_right fun hfree => hfree.fixed hlocks

/-- The values that one transaction claims stay apart. -/
theorem ReservesApart.step (hs : a.1.schema.FixesLocks) (ht : Tracks start a.2.working a.2.changes)
    (ht' : Tracks start b.2.working b.2.changes) (h : Step a b)
    (ha : ReservesApart a.1 a.2 a.2) : ReservesApart b.1 b.2 b.2 := by
  have hf := h.frame
  intro σ id id' key c c' hc hc' hne hσ hσ'
  rw [hf.schema, hf.caller] at hσ hσ'
  rcases h.reserves hs ht ht' hc' with ⟨hold', -⟩ | ⟨node, k, hwrote, rfl, rfl, htype⟩
  · rcases h.reserves hs ht ht' hc with ⟨hold, -⟩ | ⟨node, k, hwrote, rfl, rfl, htype⟩
    · exact ha σ id id' key c c' hold hold' hne hσ hσ'
    · rw [Value.beq_comm]
      exact hwrote.apart_own ht (htype ▸ hσ.guarded) hold' (Ne.symm hne) hσ'.named
  · have hold := hwrote.reserves_elsewhere hs h ht hc hne
    exact hwrote.apart_own ht (htype ▸ hσ'.guarded) hold hne hσ.named

/-- They stay apart from those of others. -/
theorem ReservesApart.step_other (hs : a.1.schema.FixesLocks)
    (ht : Tracks start a.2.working a.2.changes) (ht' : Tracks start b.2.working b.2.changes)
    (htxn : t.txn ≠ a.2.txn) (hfollows : Follows a.1 t) (h : Step a b)
    (ha : ReservesApart a.1 a.2 t) : ReservesApart b.1 b.2 t := by
  have hf := h.frame
  intro σ id id' key c c' hc hc' hne hσ hσ'
  rw [hf.schema, hf.caller] at hσ
  rw [hf.schema] at hσ'
  have hold' := (reserves_iff_of_same hf.schema (h.registered hs) rfl).1 hc'
  rcases h.reserves hs ht ht' hc with ⟨hold, -⟩ | ⟨node, k, hwrote, rfl, rfl, htype⟩
  · exact ha σ id id' key c c' hold hold' hne hσ hσ'
  · rw [Value.beq_comm]
    exact hwrote.apart_other (htype ▸ hσ.guarded) htxn (hfollows.claim_of_reserves hs hold')
      (Ne.symm hne) hσ'.named

/-- The claims of others stay as they are, and so does what they have set. -/
theorem Follows.step_other (htxn : t.txn ≠ a.2.txn) (h : Step a b) (ha : Follows a.1 t) :
    Follows b.1 t :=
  ha.of_same h.frame.schema (fun hs => h.registered hs) rfl (h.claim?_other htxn)

/-- What claims say of a transaction and of others. -/
structure Mirrored (others : Transaction → Prop) (a : Graph × Transaction) : Prop where
  backed : Backed others a
  follows : Follows a.1 a.2
  othersFollow : ∀ t, others t → Follows a.1 t
  apart : a.1.schema.FixesLocks → ReservesApart a.1 a.2 a.2
  othersApart : a.1.schema.FixesLocks → ∀ t, others t → ReservesApart a.1 a.2 t

variable {others : Transaction → Prop}

theorem Backed.own (h : Backed others a) (hothers : ∀ t, others t → t.txn ≠ a.2.txn)
    (hc : a.1.claims.claim? a.2.txn id key = some c) : Backs a.1 a.2 a.2.txn id key c := by
  rcases h.backed _ id key c hc with hown | ⟨t, ht, hother⟩
  · exact hown
  · exact absurd hother.txn (hothers t ht)

theorem Mirrored.step (hothers : ∀ t, others t → t.txn ≠ a.2.txn)
    (ht : Tracks start a.2.working a.2.changes) (ht' : Tracks start b.2.working b.2.changes)
    (hgiven : GivenOut a.1 a.2.working) (h : Step a b) (ha : Mirrored others a) :
    Mirrored others b := by
  have hbacked := ha.backed.step ht hgiven h
  have hschema := h.frame.schema
  have hothers' : ∀ t, others t → t.txn ≠ b.2.txn := fun t hother =>
    h.frame.txn ▸ hothers t hother
  refine ⟨hbacked, ?_, fun t hother => ?_, fun hs => ?_, fun hs t hother => ?_⟩
  · exact ha.follows.step ht ht' (fun id key c hc => hbacked.own hothers' hc) h
  · exact (ha.othersFollow t hother).step_other (hothers t hother) h
  · rw [hschema] at hs
    exact (ha.apart hs).step hs ht ht' h
  · rw [hschema] at hs
    exact (ha.othersApart hs t hother).step_other hs ht ht' (hothers t hother)
      (ha.othersFollow t hother) h

theorem Mirrored.steps (hothers : ∀ t, others t → t.txn ≠ a.2.txn)
    (ht : ∀ s, Steps a s → Tracks start s.2.working s.2.changes)
    (hgiven : GivenOut a.1 a.2.working) (h : Steps a b) (ha : Mirrored others a) :
    Mirrored others b := by
  induction h with
  | refl => exact ha
  | tail hab hstep ih =>
    have hf := Steps.frame hab
    exact ih.step (fun t hother => hf.txn ▸ hothers t hother) (ht _ hab) (ht _ (hab.tail hstep))
      (hgiven.working (Steps.grows hab)) hstep

/-- Whatever is filed under the identities of others stays, however many steps are made. -/
theorem Steps.row_other (h : Steps a b) {txn : TxnId} (hne : txn ≠ a.2.txn) :
    Assoc.get? b.1.claims txn = Assoc.get? a.1.claims txn := by
  induction h with
  | refl => rfl
  | tail hab hstep ih => rw [hstep.row_other ((Steps.frame hab).txn ▸ hne), ih]

end Transaction

namespace World
variable {L H : Type} {hooks : Set Nat} {w w' : World L H} {origin : Nat → GraphState}
  {locks : LockTable} {n : Nat} {t : Transaction}

/-- Claims follow the working copies of open transactions. -/
structure ClaimsMirrored (locks : LockTable) (w : World L H) : Prop where
  rows : ∀ txn, (w.graph.claims.get? txn).isSome = true →
    ∃ n t, w.transactions.get? n = some t ∧ t.txn = txn
  follows : ∀ n t, w.transactions.get? n = some t → t.Follows w.graph
  locks : w.graph.schema.FixesLocks → w.graph.locks.registered = locks.registered
  apart : w.graph.schema.FixesLocks → ∀ n m t t', w.transactions.get? n = some t →
    w.transactions.get? m = some t' → Transaction.ReservesApart w.graph t t'

namespace ClaimsMirrored

theorem aside (h : ClaimsMirrored locks w) (ha : Aside w w') : ClaimsMirrored locks w' := by
  obtain ⟨hg, ht, -, -⟩ := ha
  exact ⟨hg ▸ ht ▸ h.rows, hg ▸ ht ▸ h.follows, hg ▸ h.locks, hg ▸ ht ▸ h.apart⟩

/-- What is filed under another identity than that of a transaction is there for another one. -/
theorem row_other (h : ClaimsMirrored locks w) (ht : w.transactions.get? n = some t) {txn : TxnId}
    (hrow : (w.graph.claims.get? txn).isSome = true) (hne : txn ≠ t.txn) :
    ∃ m t', m ≠ n ∧ w.transactions.get? m = some t' ∧ t'.txn = txn := by
  obtain ⟨m, t', ht', he⟩ := h.rows txn hrow
  refine ⟨m, t', ?_, ht', he⟩
  rintro rfl
  obtain rfl := Option.some.inj (ht.symm.trans ht')
  exact hne he.symm

theorem not_set_newcomer {k : Nat} {caller : Caller} {id : NodeId} {key : String}
    {previous value : Option Value} :
    (w.newcomer k caller).changes.change? id key ≠ some (previous, value) := by
  simp [newcomer, ChangeSet.change?, ChangeSet.entryOf?]

theorem not_reserves_newcomer {g : Graph} {k : Nat} {caller : Caller} {id : NodeId} {key : String}
    {c : Claim} : ¬ (w.newcomer k caller).Reserves g id key c := fun h =>
  h.set.elim fun _ hset => not_set_newcomer hset

/-- Nothing is filed yet under the identity that a transaction begins with. -/
theorem begin (h : ClaimsMirrored locks w) (hb : ClaimsBacked w) (hn : Numbered hooks w)
    (hone : hooks.Subsingleton) {k : Nat} (hk : k ∈ hooks) (caller : Caller) :
    ClaimsMirrored locks (w.begin k caller).2 := by
  have hnone : w.graph.claims.get? ⟨(w.hook k).nextTxn⟩ = none := by
    by_contra hrow
    obtain ⟨n, t, ht, he⟩ := h.rows _ (Option.isSome_iff_ne_none.2 hrow)
    have hlt := hn.issued n t ht
    rw [hone (hn.began n t ht) hk, he] at hlt
    exact Nat.lt_irrefl _ hlt
  refine ⟨fun txn hrow => ?_, fun n t ht => ?_, h.locks, fun hs n m t t' ht ht' => ?_⟩
  · obtain ⟨n, t, ht, he⟩ := h.rows txn hrow
    refine ⟨n, t, ?_, he⟩
    rw [get?_begin, if_neg (Nat.ne_of_lt (hb.numbers n t ht)), ht]
  · rcases get?_of_begin ht with ⟨-, rfl⟩ | ⟨-, ht⟩
    · refine ⟨fun id key c hc => ?_, fun id key type previous u hset _ => ?_⟩
      · have hclaim : w.graph.claims.claim? (w.newcomer k caller).txn id key = none := by
          rw [ClaimTable.claim?, newcomer, hnone]
          rfl
        exact absurd (hclaim.symm.trans hc) (by simp)
      · exact absurd hset not_set_newcomer
    · exact h.follows n t ht
  · rcases get?_of_begin ht with ⟨-, rfl⟩ | ⟨-, ht⟩
    · exact fun _ _ _ _ _ _ hc => absurd hc not_reserves_newcomer
    · rcases get?_of_begin ht' with ⟨-, rfl⟩ | ⟨-, ht'⟩
      · exact fun _ _ _ _ _ _ _ hc => absurd hc not_reserves_newcomer
      · exact h.apart hs n m t t' ht ht'

theorem put (h : ClaimsMirrored locks w) (hs : Sound origin w) (hb : ClaimsBacked w)
    (hn : Numbered hooks w) (hone : hooks.Subsingleton) {s : Graph × Transaction}
    (ht : w.transactions.get? n = some t) (hsteps : Transaction.Steps (w.graph, t) s) :
    ClaimsMirrored locks (w.put n s) := by
  have hf := hsteps.frame
  have hself : (w.put n s).transactions.get? n = some s.2 := by rw [get?_put, if_pos rfl]
  have hfixed : (w.put n s).graph.schema.FixesLocks → w.graph.schema.FixesLocks :=
    fun hfix => hf.schema ▸ hfix
  have hmirrored : Transaction.Mirrored
      (fun t' => ∃ m, m ≠ n ∧ w.transactions.get? m = some t') s := by
    refine Transaction.Mirrored.steps ?_ (fun s' hs' => hs.tracks_steps ht hs')
      (hs.givenOut ht).2 hsteps
      ⟨hb.seen ht, h.follows n t ht, ?_, fun hfix => h.apart hfix n n t t ht ht, ?_⟩
    · rintro t' ⟨m, hm, ht'⟩
      exact hn.txn_ne hone ht' ht hm
    · rintro t' ⟨m, -, ht'⟩
      exact h.follows m t' ht'
    · rintro hfix t' ⟨m, -, ht'⟩
      exact h.apart hfix n m t t' ht ht'
  refine ⟨fun txn hrow => ?_, fun m t' ht' => ?_, fun hfix => ?_, fun hfix m m' t₁ t₂ h₁ h₂ => ?_⟩
  · by_cases hown : txn = t.txn
    · exact ⟨n, s.2, hself, hf.txn.trans hown.symm⟩
    · obtain ⟨m, t', hm, ht', he⟩ := h.row_other ht (hsteps.row_other hown ▸ hrow) hown
      exact ⟨m, t', by rw [get?_put, if_neg hm, ht'], he⟩
  · rcases get?_of_put ht' with ⟨-, rfl⟩ | ⟨hm, ht'⟩
    · exact hmirrored.follows
    · exact hmirrored.othersFollow t' ⟨m, hm, ht'⟩
  · exact (hsteps.registered (hfixed hfix)).trans (h.locks (hfixed hfix))
  · rcases get?_of_put h₁ with ⟨-, rfl⟩ | ⟨hm, h₁⟩
    · rcases get?_of_put h₂ with ⟨-, rfl⟩ | ⟨hm', h₂⟩
      · exact hmirrored.apart hfix
      · exact hmirrored.othersApart hfix t₂ ⟨m', hm', h₂⟩
    · rcases get?_of_put h₂ with ⟨-, rfl⟩ | ⟨-, h₂⟩
      · exact (hmirrored.othersApart hfix t₁ ⟨m, hm, h₁⟩).symm
      · exact (h.apart (hfixed hfix) m m' t₁ t₂ h₁ h₂).of_same hf.schema
          (hsteps.registered (hfixed hfix)) rfl rfl

theorem close (h : ClaimsMirrored locks w) (n : Nat) : ClaimsMirrored locks (w.close n) := by
  refine ⟨fun txn hrow => ?_, fun m t ht => ?_, h.locks, fun hfix m m' t t' ht ht' => ?_⟩
  · obtain ⟨m, t, ht, he⟩ := h.rows txn hrow
    by_cases hm : m = n
    · exact ⟨m, { t with context := none }, by rw [get?_close, if_pos hm, ht]; rfl, he⟩
    · exact ⟨m, t, by rw [get?_close, if_neg hm, ht], he⟩
  · obtain ⟨t₀, ht₀, he, -⟩ := get?_of_close ht
    exact (h.follows m t₀ ht₀).of_same rfl (fun _ => rfl) he fun _ _ => rfl
  · obtain ⟨t₀, ht₀, he, -⟩ := get?_of_close ht
    obtain ⟨t₀', ht₀', he', -⟩ := get?_of_close ht'
    exact (h.apart hfix m m' t₀ t₀' ht₀ ht₀').of_same rfl rfl he he'

/-- With a transaction go its claims, and no others. -/
theorem leave (h : ClaimsMirrored locks w) (hn : Numbered hooks w) (hone : hooks.Subsingleton)
    (ht : w.transactions.get? n = some t) (g : GraphState) :
    ClaimsMirrored locks (({ w with graph.committed := g } : World L H).forget n t.txn) := by
  have hrows := Assoc.get?_without w.graph.claims t.txn
  refine ⟨fun txn hrow => ?_, fun m t' ht' => ?_, h.locks, fun hfix m m' t₁ t₂ h₁ h₂ => ?_⟩
  · have hne : txn ≠ t.txn := by
      rintro rfl
      have hgone := (hrows t.txn).trans (if_pos rfl)
      exact absurd hrow (by simp [forget, hgone])
    obtain ⟨m, t', hm, ht', he⟩ := h.row_other ht ((hrows txn).trans (if_neg hne) ▸ hrow) hne
    exact ⟨m, t', by rw [get?_forget, if_neg hm]; exact ht', he⟩
  · obtain ⟨hm, ht'⟩ := get?_of_forget ht'
    refine (h.follows m t' ht').of_same rfl (fun _ => rfl) rfl fun id key => ?_
    exact (ClaimTable.claim?_without _ _ _ _ _).trans (if_neg (hn.txn_ne hone ht' ht hm))
  · exact (h.apart hfix m m' t₁ t₂ (get?_of_forget h₁).2 (get?_of_forget h₂).2).of_same
      rfl rfl rfl rfl

end ClaimsMirrored

theorem ClaimsBacked.own (h : ClaimsBacked w) (hn : Numbered hooks w) (hone : hooks.Subsingleton)
    (ht : w.transactions.get? n = some t) {id : NodeId} {key : String} {c : Claim}
    (hc : w.graph.claims.claim? t.txn id key = some c) :
    Transaction.Backs w.graph t t.txn id key c := by
  obtain ⟨m, t', ht', hbacks⟩ := h.backed _ id key c hc
  by_cases hm : m = n
  · subst hm
    obtain rfl := Option.some.inj (ht.symm.trans ht')
    exact hbacks
  · exact absurd hbacks.txn (hn.txn_ne hone ht' ht hm)

/-- Claims follow the working copies at each moment of a run, if all transactions begin with one
hook. -/
theorem claimsMirrored_invariant (hone : hooks.Subsingleton) (locks : LockTable) :
    Invariant hooks fun w : World L H =>
      ClaimsBacked w ∧ Numbered hooks w ∧ ClaimsMirrored locks w := by
  have hbacked : Invariant hooks (ClaimsBacked : World L H → Prop) := claimsBacked_invariant
  have hnumbered : Invariant hooks (Numbered hooks : World L H → Prop) := numbered_invariant
  exact {
    aside := fun ⟨hb, hn, h⟩ ha => ⟨hbacked.aside hb ha, hnumbered.aside hn ha, h.aside ha⟩
    begin := fun caller ⟨hb, hn, h⟩ hk =>
      ⟨hbacked.begin caller hb hk, hnumbered.begin caller hn hk, h.begin hb hn hone hk caller⟩
    put := fun hs ⟨hb, hn, h⟩ ht hsteps =>
      ⟨hbacked.put hs hb ht hsteps, hnumbered.put hs hn ht hsteps, h.put hs hb hn hone ht hsteps⟩
    close := fun n ⟨hb, hn, h⟩ => ⟨hbacked.close n hb, hnumbered.close n hn, h.close n⟩
    settle := fun hs ⟨hb, hn, h⟩ ht hfits =>
      ⟨hbacked.settle hs hb ht hfits, hnumbered.settle hs hn ht hfits, h.leave hn hone ht _⟩
    forget := fun ⟨hb, hn, h⟩ ht =>
      ⟨hbacked.forget hb ht, hnumbered.forget hn ht, h.leave hn hone ht _⟩ }

theorem claimsMirrored_start (schema : Schema) (locks : LockTable)
    (table : Assoc Nat (CommitHook L)) (host : H) :
    ClaimsMirrored locks (start schema locks table host : World L H) where
  rows := by intro txn h; simp [start] at h
  follows := by intro n t h; simp [start] at h
  locks := fun _ => rfl
  apart := by intro _ n m t t' h; simp [start] at h

end World

/-! ### Claims and what has been written -/

/-- What a transaction claims, by what it has written. -/
structure Transaction.ClaimsFollow (g : Graph) (t : Transaction) (ws : List Write) : Prop where
  /-- A claim is on a property that was set last, of a node that is there; its value is the one in
  the working copy, unless the check wavers between the two. -/
  claimed : ∀ id key c, g.claims.claim? t.txn id key = some c →
    t.working.type? g.schema id = some c.type ∧
      ∃ u, lastStored? ws id key = some (some u) ∧ t.working.value? id key = some u ∧
        (u = c.value ∨ g.schema.Wavers t.caller id c.type key c.value u)
  /-- A value that was set last, of a node that is there, is claimed, or its check left no
  permit. -/
  covered : ∀ id key type u, lastStored? ws id key = some (some u) →
    t.working.type? g.schema id = some type →
      t.working.value? id key = some u ∧
        (g.claims.claim? t.txn id key = some ⟨type, u⟩ ∨
          ∃ d d', g.schema.LetsPass t.caller id type key u d d' ∧ d'.permits = [])

namespace World
variable {L H : Type} {hooks : Set Nat} {w : World L H} {locks : LockTable} {n : Nat}
  {t : Transaction}

theorem ClaimsMirrored.claimsFollow (h : ClaimsMirrored locks w) {origin : Nat → GraphState}
    (hs : Sound origin w) (hb : ClaimsBacked w) (hn : Numbered hooks w)
    (hone : hooks.Subsingleton) (ht : w.transactions.get? n = some t) {ws : List Write}
    (hr : t.Recorded w.graph ws) : t.ClaimsFollow w.graph ws := by
  have htracks := hs.tracks n t ht
  refine ⟨fun id key c hc => ?_, fun id key type u hlast htype => ?_⟩
  · have hbacks := hb.own hn hone ht hc
    obtain ⟨previous, u, hset⟩ := (h.follows n t ht).set id key c hc
    obtain ⟨u', hvalue, hu'⟩ := hbacks.value
    obtain ⟨hlast, -⟩ := (hr.set_iff id key u).2 ⟨previous, hset⟩
    obtain rfl : u' = u :=
      Option.some.inj (hvalue.symm.trans (htracks.value_of_set ⟨previous, hset⟩).1)
    exact ⟨hbacks.type, u', hlast, hvalue, hu'⟩
  · obtain ⟨previous, hset⟩ := (hr.set_iff id key u).1 ⟨hlast, GraphState.has_of_type? htype⟩
    refine ⟨(htracks.value_of_set ⟨previous, hset⟩).1, ?_⟩
    refine ((h.follows n t ht).covered id key type previous u hset htype).imp_right ?_
    rintro ⟨d, d', hpass, hnone, -, -⟩
    exact ⟨d, d', hpass, hnone⟩

/-- If all transactions begin with one hook, claims are filed only under the identities of
transactions that are there, and say what these have written last, except that a claim is left
behind where a check wavers. As long as checks leave the locks alone, a transaction claims a value
for a property whose check conforms exactly if its last write to the property stored the value, it
has not deleted the node, and values of the key are checked for uniqueness under a lock for nodes of
the type, and no two claims on different nodes of one scope are equal. -/
theorem claims_mirrored {schema : Schema} {locks : LockTable} {table : Assoc Nat (CommitHook L)}
    {host : H} (hone : hooks.Subsingleton) :
    (∀ w : World L H, Moves hooks (start schema locks table host) w →
      ∃ ws, Chronicle hooks (start schema locks table host) ws w) ∧
    ∀ (ws : History) (w : World L H), Chronicle hooks (start schema locks table host) ws w →
      (∀ txn byNode, w.graph.claims.get? txn = some byNode →
        ∃ n t, w.transactions.get? n = some t ∧ t.txn = txn) ∧
      (∀ n t, w.transactions.get? n = some t → t.ClaimsFollow w.graph (ws n)) ∧
      (schema.FixesLocks →
        (∀ n t, w.transactions.get? n = some t → ∀ id key c,
          schema.Conforms t.caller c.type key →
            (w.graph.claims.claim? t.txn id key = some c ↔
              lastStored? (ws n) id key = some (some c.value) ∧
                t.working.nodes.has id = true ∧ t.working.type? schema id = some c.type ∧
                  schema.Claimable locks t.caller c.type key)) ∧
        ∀ n n' t t', w.transactions.get? n = some t → w.transactions.get? n' = some t' →
          ∀ σ id id' key c c', w.graph.claims.claim? t.txn id key = some c →
            w.graph.claims.claim? t'.txn id' key = some c' → id ≠ id' →
              schema.InScope t.caller c.type key σ → schema.InScope t'.caller c'.type key σ →
                (c.value == c'.value) = false) := by
  refine ⟨fun w run => run.chronicle, fun ws w hchronicle => ?_⟩
  have run := hchronicle.moves
  have hstart := sound_start schema locks table host fun _ => {}
  obtain ⟨origin, hs⟩ := run.sound hstart
  obtain ⟨hb, hn, h⟩ := (claimsMirrored_invariant hone locks).moves run hstart
    ⟨claimsBacked_start schema locks table host, numbered_start schema locks table host,
      claimsMirrored_start schema locks table host⟩
  have hschema : w.graph.schema = schema := (run.frame hstart).1
  have hrecorded := hchronicle.recorded.recorded
  refine ⟨fun txn byNode hrow => h.rows txn (by rw [hrow]; rfl),
    fun n t ht => h.claimsFollow hs hb hn hone ht (hrecorded n t ht), fun hfix => ?_⟩
  subst hschema
  have hreserves : ∀ n t, w.transactions.get? n = some t → ∀ id key c,
      w.graph.schema.Conforms t.caller c.type key →
        w.graph.claims.claim? t.txn id key = some c → t.Reserves w.graph id key c := by
    intro n t ht id key c hconf hc
    exact (h.follows n t ht).reserves_of_claim hfix hconf (hs.tracks n t ht)
      (hb.own hn hone ht hc) hc
  refine ⟨fun n t ht id key c hconf => ⟨fun hc => ?_, ?_⟩,
    fun n n' t t' ht ht' σ id id' key c c' hc hc' hne hσ hσ' => ?_⟩
  · have hr := hreserves n t ht id key c hconf hc
    obtain ⟨hlast, hhas⟩ := ((hrecorded n t ht).set_iff id key c.value).2 hr.set
    exact ⟨hlast, hhas, hr.type, hr.claimable.congr (h.locks hfix).symm⟩
  · rintro ⟨hlast, hhas, htype, hclaimable⟩
    refine (h.follows n t ht).claim_of_reserves hfix ⟨?_, htype, hclaimable.congr (h.locks hfix)⟩
    exact ((hrecorded n t ht).set_iff id key c.value).1 ⟨hlast, hhas⟩
  · exact h.apart hfix n n' t t' ht ht' σ id id' key c c'
      (hreserves n t ht id key c hσ.guarded.conforms hc)
      (hreserves n' t' ht' id' key c' hσ'.guarded.conforms hc') hne hσ hσ'

/-- A claim is left behind when its value is overwritten with one that the check takes no permit for,
and claims are there while listeners are told that their transaction was rolled back. -/
theorem claim_left_behind :
    (Moves {0} (reception (.uniqueOnly (.string "x"))) vacated ∧
      ∃ t, vacated.transactions.get? 0 = some t ∧
        vacated.graph.claims.claim? t.txn ⟨1⟩ "email" = some ⟨.root "Guest", .string "x"⟩ ∧
        t.working.value? ⟨1⟩ "email" = some (.string "y")) ∧
    Moves {0} listened (withdrawn.close 0) ∧
      ∃ txn, (withdrawn.close 0).graph.claims.claim? txn ⟨1⟩ "email" =
          some ⟨.root "Person", .string "e"⟩ ∧
        ∀ n t c, (withdrawn.close 0).transaction? n = some (t, c) → t.txn ≠ txn := by
  refine ⟨⟨vacated_reached, _, rfl, rfl, rfl⟩, withdrawn_closed, ⟨1⟩, rfl, fun n t c ht => ?_⟩
  rw [(withdrawn_open ht).1]
  decide

/-- Of two clients with one hook, the first has given its guest another address, and the second one
has given the former address to a person. -/
def moved : World Unit Unit :=
  (perform silent
    [.begin 0 .superUser, .begin 0 .superUser,
      .operate 0 (.createNode (.root "Guest") [("email", .string "e")]),
      .operate 0 (.setProperty ⟨1⟩ (.named "email") (.string "f")),
      .operate 1 (.createNode (.root "Person") [("email", .string "e")])]
    (reception (.unique .global))).get rfl

theorem moved_reached : Moves {0} (reception (.unique .global)) moved :=
  moves_of_perform lawful_silent (by simp [Action.allowed]) (Option.some_get rfl).symm

/-- Guests have addresses that a check built by a factory looks at. -/
theorem visitors_guest (caller : Caller) :
    (visitors (.unique .global)).schema.InScope caller (.root "Guest") "email" .global :=
  ⟨⟨_, rfl, Validator.unique_guards .global⟩, rfl⟩

theorem visitors_person (caller : Caller) :
    (visitors (.unique .global)).schema.InScope caller (.root "Person") "email" .global := by
  have hscope : (visitors (.unique .global)).schema.scope? (.root "Person")
    (PropertyKey.named "email").name = some .global := rfl
  exact Schema.inScope_of_scope hscope caller

/-- The claims are those on the two addresses that were written last, also where the check was built
by a factory. -/
theorem claims_mirrored_moved :
    ∃ ws t t', Chronicle {0} (reception (.unique .global)) ws moved ∧
      moved.transactions.get? 0 = some t ∧ moved.transactions.get? 1 = some t' ∧
      lastStored? (ws 0) ⟨1⟩ "email" = some (some (.string "f")) ∧
      lastStored? (ws 1) ⟨2⟩ "email" = some (some (.string "e")) ∧
      (visitors (.unique .global)).schema.Claimable (visitors (.unique .global)).locks .superUser
        (.root "Guest") "email" ∧
      (Value.string "f" == .string "e") = false := by
  have hone : Set.Subsingleton ({0} : Set Nat) := Set.subsingleton_singleton
  obtain ⟨ws, hchronicle⟩ := (claims_mirrored hone).1 moved moved_reached
  obtain ⟨-, -, hfixed⟩ := (claims_mirrored hone).2 ws moved hchronicle
  obtain ⟨hclaims, hapart⟩ := hfixed (visitors_fixesLocks .global)
  obtain ⟨t, ht, hcaller, hclaim⟩ : ∃ t, moved.transactions.get? 0 = some t ∧
      t.caller = .superUser ∧
      moved.graph.claims.claim? t.txn ⟨1⟩ "email" = some ⟨.root "Guest", .string "f"⟩ :=
    ⟨_, rfl, rfl, rfl⟩
  obtain ⟨t', ht', hclaim'⟩ : ∃ t, moved.transactions.get? 1 = some t ∧
      moved.graph.claims.claim? t.txn ⟨2⟩ "email" = some ⟨.root "Person", .string "e"⟩ :=
    ⟨_, rfl, rfl⟩
  have hguest := visitors_guest t.caller
  have hperson := visitors_person t'.caller
  obtain ⟨hlast, -, -, hclaimable⟩ := (hclaims 0 t ht ⟨1⟩ "email" ⟨.root "Guest", .string "f"⟩
    hguest.guarded.conforms).1 hclaim
  obtain ⟨hlast', -⟩ := (hclaims 1 t' ht' ⟨2⟩ "email" ⟨.root "Person", .string "e"⟩
    hperson.guarded.conforms).1 hclaim'
  refine ⟨ws, t, t', hchronicle, ht, ht', hlast, hlast', hcaller ▸ hclaimable, ?_⟩
  exact hapart 0 1 t t' ht ht' .global ⟨1⟩ ⟨2⟩ "email" _ _ hclaim hclaim' (by decide) hguest hperson

end World
end EntityGraph
