import EntityGraph.Proofs.Claims
import EntityGraph.Proofs.Moments

/-!
Every claim is backed by an open transaction to which the check of the property left a permit with
the value. As a rule its working copy holds the value: the next value of the property replaces the
claim, a value that is removed or deleted with its node takes its claim with it, and so does the
transaction when it ends. But where a check leaves a permit with one value and none with the next,
the claim on the first stays behind.

Main statements: `Schema.Wavers.unsteady` — only checks that factories build do so; `Backed.step` —
a step keeps claims backed; `claimsBacked_invariant` — so does every move of a run.
-/

namespace EntityGraph

instance : IsStrictTotalOrder TxnId (· < ·) where
  trichotomous := fun ⟨_⟩ ⟨_⟩ h h' =>
    congrArg TxnId.mk (Nat.le_antisymm (not_lt.1 h') (not_lt.1 h))
  irrefl := fun a => Nat.lt_irrefl a.raw
  trans := fun _ _ _ h h' => Nat.lt_trans h h'

/-! ### Claims in order -/

namespace ClaimTable

/-- Transactions stand in the order of their identities, and so do the nodes of each. -/
structure InOrder (t : ClaimTable) : Prop where
  transactions : Assoc.Ordered t
  nodes : ∀ txn byNode, t.get? txn = some byNode → Assoc.Ordered byNode

variable {t : ClaimTable}

theorem inOrder_empty : InOrder [] := ⟨Assoc.ordered_nil, by simp⟩

theorem InOrder.row (h : t.InOrder) (txn : TxnId) : Assoc.Ordered ((t.get? txn).getD []) := by
  cases hrow : Assoc.get? t txn with
  | none => exact Assoc.ordered_nil
  | some byNode => exact h.nodes txn byNode hrow

theorem InOrder.add (h : t.InOrder) (txn : TxnId) (node : NodeId) (key : String) (c : Claim) :
    (t.add txn node key c).InOrder := by
  refine ⟨h.transactions.put _ _, fun txn' byNode hrow => ?_⟩
  rw [ClaimTable.add, Assoc.get?_put] at hrow
  split at hrow
  · obtain rfl := Option.some.inj hrow
    exact (h.row txn).put _ _
  · exact h.nodes txn' byNode hrow

theorem InOrder.adjust (h : t.InOrder) (txn : TxnId)
    {f : Assoc NodeId (Assoc String Claim) → Assoc NodeId (Assoc String Claim)}
    (hf : ∀ byNode, Assoc.Ordered byNode → Assoc.Ordered (f byNode)) :
    InOrder (Assoc.adjust t txn f) := by
  refine ⟨h.transactions.adjust _ _, fun txn' byNode hrow => ?_⟩
  rw [Assoc.get?_adjust] at hrow
  split at hrow
  · obtain ⟨byNode', hrow', rfl⟩ := Option.map_eq_some_iff.1 hrow
    exact hf byNode' (h.nodes txn' byNode' hrow')
  · exact h.nodes txn' byNode hrow

theorem InOrder.release (h : t.InOrder) (txn : TxnId) (node : NodeId) (key : String) :
    (t.release txn node key).InOrder := h.adjust txn fun _ hb => hb.adjust node _

theorem InOrder.releaseNode (h : t.InOrder) (txn : TxnId) (node : NodeId) :
    (t.releaseNode txn node).InOrder := h.adjust txn fun _ hb => hb.without node

theorem InOrder.without (h : t.InOrder) (txn : TxnId) : InOrder (Assoc.without t txn) := by
  refine ⟨h.transactions.without txn, fun txn' byNode hrow => ?_⟩
  rw [Assoc.get?_without] at hrow
  split at hrow
  · simp at hrow
  · exact h.nodes txn' byNode hrow

/-- A node that others are counted to hold a value for has a claim on it. -/
theorem InOrder.claim_of_mem_holders (h : t.InOrder) {txn : TxnId} {type : Option String}
    {key : PropertyKey} {v : Value} {id : NodeId} (hid : id ∈ t.holders txn type key v) :
    ∃ other c, other ≠ txn ∧ t.claim? other id key.name = some c ∧ (c.value == v) = true ∧
      type.all c.type.chain.contains = true := by
  obtain ⟨⟨other, byNode⟩, hrow, hid⟩ := List.mem_flatMap.1 hid
  obtain ⟨hrow, hne⟩ := List.mem_filter.1 hrow
  obtain ⟨⟨node, byKey⟩, hcell, hid⟩ := List.mem_filterMap.1 hid
  have hget := h.transactions.get?_of_mem hrow
  have hgetNode := (h.nodes other byNode hget).get?_of_mem hcell
  simp only at hid
  split at hid
  · next c hc =>
    split at hid
    · next hcounts =>
      obtain rfl := Option.some.inj hid
      obtain ⟨hvalue, htype⟩ := Bool.and_eq_true_iff.1 hcounts
      refine ⟨other, c, of_decide_eq_true hne, ?_, hvalue, htype⟩
      rw [claim?, hget, Option.bind_some, hgetNode, Option.bind_some, hc]
    · simp at hid
  · simp at hid

end ClaimTable

/-! ### Checks that leave permits -/

/-- A check that leaves a permit for a property leaves one whenever it lets a value pass, as long as
no lock is forgotten. -/
def Validator.Steady (check : Validator) : Prop :=
  ∀ c node key v p c' d node' key' v' d',
    check.validate c node key v p = some (.ok (), c') → c.permits = [] → c'.permits ≠ [] →
    check.validate d node' key' v' p = some (.ok (), d') → d.permits = [] → v'.isNull = false →
    d.caller = c.caller → LockTable.Keeps c.locks d.locks →
    node'.id = node.id → node'.type = node.type → key'.name = key.name → d'.permits ≠ []

theorem Validator.unique_steady (σ : UniqueScope) : (Validator.unique σ).Steady := by
  intro c node key v p c' d node' key' v' d' hpass hempty hleft hpass' _ hv' _ hkeeps _ _ hkey
  have hlock : (c.locks.held? ⟨σ, key.name⟩).isSome = true := by
    cases unique_end hpass with
    | null | unlocked => exact absurd hempty hleft
    | passed _ hfree => rw [hfree]; rfl
  cases unique_end hpass' with
  | null hnull =>
    rw [hv'] at hnull
    exact absurd hnull Bool.false_ne_true
  | unlocked _ hnone =>
    have hlock' := hkeeps _ hlock
    rw [← hkey, hnone] at hlock'
    simp at hlock'
  | passed => simp [ValidationContext.hold]

theorem Validator.ofCheck_steady
    (check : Node → PropertyKey → Value → Option Value → Except Failure Unit) :
    (Validator.ofCheck check).Steady := by
  intro c node key v p c' d node' key' v' d' hpass hempty hleft
  obtain ⟨-, rfl⟩ := Prod.mk.inj (Option.some.inj hpass)
  exact absurd hempty hleft

/-- The check of a property of a node lets a value pass, on behalf of a caller and with no permit
held before. -/
structure Schema.LetsPass (s : Schema) (caller : Caller) (id : NodeId) (type : EntityType)
    (key : String) (v : Value) (c c' : ValidationContext) : Prop where
  passed : ∃ node k, s.validate c node k v = some (.ok (), c') ∧ node.id = id ∧ node.type = type ∧
    k.name = key
  caller : c.caller = caller
  fresh : c.permits = []

/-- A permit was left with a value, under locks that are still there unless checks make the locks
forget. -/
def Schema.Parked (s : Schema) (locks : LockTable) (caller : Caller) (id : NodeId)
    (type : EntityType) (key : String) (v : Value) : Prop :=
  ∃ c c', s.LetsPass caller id type key v c c' ∧ c'.permits ≠ [] ∧
    (s.KeepsLocks → LockTable.Keeps c.locks locks)

/-- The check of a property leaves a permit with one value and lets another pass without one, though
the locks are still there, unless checks make the locks forget. -/
def Schema.Wavers (s : Schema) (caller : Caller) (id : NodeId) (type : EntityType) (key : String)
    (v u : Value) : Prop :=
  ∃ c c' d d', s.LetsPass caller id type key v c c' ∧ c'.permits ≠ [] ∧
    s.LetsPass caller id type key u d d' ∧ d'.permits = [] ∧ u.isNull = false ∧
    (s.KeepsLocks → LockTable.Keeps c.locks d.locks)

namespace Schema
variable {s : Schema} {locks locks' : LockTable} {caller : Caller} {id : NodeId}
  {type : EntityType} {key : String} {v u : Value} {c c' d d' : ValidationContext}

theorem Parked.keeps (h : s.Parked locks caller id type key v)
    (hk : s.KeepsLocks → LockTable.Keeps locks locks') : s.Parked locks' caller id type key v := by
  obtain ⟨c, c', hpass, hleft, hkeeps⟩ := h
  exact ⟨c, c', hpass, hleft, fun hs l hl => hk hs l (hkeeps hs l hl)⟩

/-- Whenever the check then lets a value pass without a permit, it wavers. -/
theorem Parked.wavers (h : s.Parked d.locks caller id type key v)
    (hpass : s.LetsPass caller id type key u d d') (hnone : d'.permits = [])
    (hu : u.isNull = false) : s.Wavers caller id type key v u := by
  obtain ⟨c, c', hpass₀, hleft, hkeeps⟩ := h
  exact ⟨c, c', d, d', hpass₀, hleft, hpass, hnone, hu, hkeeps⟩

/-- A property at which a permit was left has a check. -/
theorem LetsPass.check (h : s.LetsPass caller id type key v c c') (hleft : c'.permits ≠ []) :
    ∃ check, s.validator? type (.named key) caller = some check := by
  obtain ⟨⟨node, k, hpass, rfl, rfl, rfl⟩, rfl, hfresh⟩ := h
  rw [validate] at hpass
  split at hpass
  · next check hcheck => exact ⟨check, hcheck⟩
  · obtain ⟨-, rfl⟩ := Prod.mk.inj (Option.some.inj hpass)
    exact absurd hfresh hleft

/-- It is the check of the property that the value passes. -/
theorem LetsPass.of_check (h : s.LetsPass caller id type key v c c') {check : Validator}
    (hcheck : s.validator? type (.named key) caller = some check) :
    ∃ node k, check.validate c node k v (s.validationParameter? type (.named key)) =
      some (.ok (), c') ∧ node.id = id ∧ node.type = type ∧ k.name = key := by
  obtain ⟨⟨node, k, hpass, rfl, rfl, rfl⟩, rfl, -⟩ := h
  replace hcheck : s.validator? node.type k c.caller = some check := hcheck
  rw [validate, hcheck] at hpass
  exact ⟨node, k, hpass, rfl, rfl, rfl⟩

/-- Only a check that a factory built wavers, as long as no lock is forgotten. -/
theorem Wavers.unsteady (hs : s.KeepsLocks) (h : s.Wavers caller id type key v u) :
    ∃ name f check, s.validatorFactories.get? name = some f ∧ f caller = .ok check ∧
      s.validator? type (.named key) caller = some check ∧ ¬ check.Steady := by
  obtain ⟨c, c', d, d', hpass, hleft, hpass', hnone, hu, hkeeps⟩ := h
  obtain ⟨check, hcheck⟩ := hpass.check hleft
  obtain ⟨node, k, hvalidate, hid, htype, hkey⟩ := hpass.of_check hcheck
  obtain ⟨node', k', hvalidate', hid', htype', hkey'⟩ := hpass'.of_check hcheck
  have hunsteady : ¬ check.Steady := fun hsteady =>
    hsteady _ _ _ _ _ _ _ _ _ _ _ hvalidate hpass.fresh hleft hvalidate' hpass'.fresh hu
      (hpass'.caller.trans hpass.caller.symm) (hkeeps hs) (hid'.trans hid.symm)
      (htype'.trans htype.symm) (hkey'.trans hkey.symm) hnone
  rcases validator_cases hcheck with ⟨σ, rfl⟩ | ⟨f, rfl⟩ | ⟨name, f, -, hf, hok⟩
  · exact absurd (Validator.unique_steady σ) hunsteady
  · exact absurd (Validator.ofCheck_steady f) hunsteady
  · exact ⟨name, f, check, hf, hok, hcheck, hunsteady⟩

end Schema

namespace Transaction

/-! ### Who backs a claim -/

/-- The check of a property left the transaction a permit with the value that is claimed, and the
working copy holds that value, or one that passed later without a permit. -/
structure Backs (g : Graph) (t : Transaction) (txn : TxnId) (id : NodeId) (key : String)
    (c : Claim) : Prop where
  txn : t.txn = txn
  keyName : key ≠ typeProperty
  type : t.working.type? g.schema id = some c.type
  parked : g.schema.Parked g.locks t.caller id c.type key c.value
  value : ∃ u, t.working.value? id key = some u ∧
    (u = c.value ∨ g.schema.Wavers t.caller id c.type key c.value u)

/-- Every claim is backed, by the transaction or by another one. -/
structure Backed (others : Transaction → Prop) (s : Graph × Transaction) : Prop where
  inOrder : s.1.claims.InOrder
  backed : ∀ txn id key c, s.1.claims.claim? txn id key = some c →
    Backs s.1 s.2 txn id key c ∨ ∃ t, others t ∧ Backs s.1 t txn id key c

variable {g g' : Graph} {t t' : Transaction} {txn : TxnId} {id : NodeId} {key : String} {c : Claim}

/-- Whoever backs a claim goes on to do so as long as it holds the value, or one that passed later
without a permit. -/
theorem Backs.congr (h : Backs g t txn id key c) (hschema : g'.schema = g.schema)
    (hlocks : g.schema.KeepsLocks → LockTable.Keeps g.locks g'.locks) (htxn : t'.txn = t.txn)
    (hcaller : t'.caller = t.caller)
    (htype : t'.working.value? id typeProperty = t.working.value? id typeProperty)
    (hvalue : ∃ u, t'.working.value? id key = some u ∧
      (u = c.value ∨ g.schema.Wavers t.caller id c.type key c.value u)) :
    Backs g' t' txn id key c where
  txn := htxn.trans h.txn
  keyName := h.keyName
  type := by rw [hschema, GraphState.type?_congr htype, h.type]
  parked := hschema ▸ hcaller ▸ h.parked.keeps hlocks
  value := by rw [hschema, hcaller]; exact hvalue

theorem Backs.of_same (h : Backs g t txn id key c) (hschema : g'.schema = g.schema)
    (hlocks : g.schema.KeepsLocks → LockTable.Keeps g.locks g'.locks) (htxn : t'.txn = t.txn)
    (hcaller : t'.caller = t.caller)
    (hvalue : t'.working.value? id key = t.working.value? id key)
    (htype : t'.working.value? id typeProperty = t.working.value? id typeProperty) :
    Backs g' t' txn id key c :=
  h.congr hschema hlocks htxn hcaller htype (hvalue ▸ h.value)

theorem Backs.of_graph (h : Backs g t txn id key c) (hschema : g'.schema = g.schema)
    (hlocks : g.schema.KeepsLocks → LockTable.Keeps g.locks g'.locks) : Backs g' t txn id key c :=
  h.of_same hschema hlocks rfl rfl rfl rfl

/-- A claim that was there is backed by the same transaction, if this one goes on to back it. -/
theorem Backed.mono {others : Transaction → Prop} {a b : Graph × Transaction}
    (h : Backed others a) (hf : Frame a b)
    (hlocks : a.1.schema.KeepsLocks → LockTable.Keeps a.1.locks b.1.locks)
    (hclaim : a.1.claims.claim? txn id key = some c)
    (hown : Backs a.1 a.2 txn id key c → Backs b.1 b.2 txn id key c) :
    Backs b.1 b.2 txn id key c ∨ ∃ t, others t ∧ Backs b.1 t txn id key c := by
  rcases h.backed txn id key c hclaim with hbacks | ⟨t, ht, hother⟩
  · exact Or.inl (hown hbacks)
  · exact Or.inr ⟨t, ht, hother.of_graph hf.schema hlocks⟩

/-- It does so if it keeps the value. -/
theorem Backed.mono_of_same {others : Transaction → Prop} {a b : Graph × Transaction}
    (h : Backed others a) (hf : Frame a b)
    (hlocks : a.1.schema.KeepsLocks → LockTable.Keeps a.1.locks b.1.locks)
    (hclaim : a.1.claims.claim? txn id key = some c)
    (hsame : Backs a.1 a.2 txn id key c →
      b.2.working.value? id key = a.2.working.value? id key ∧
        b.2.working.value? id typeProperty = a.2.working.value? id typeProperty) :
    Backs b.1 b.2 txn id key c ∨ ∃ t, others t ∧ Backs b.1 t txn id key c :=
  h.mono hf hlocks hclaim fun hown =>
    hown.of_same hf.schema hlocks hf.txn hf.caller (hsame hown).1 (hsame hown).2

/-! ### A write that passed -/

variable {start : GraphState} {node : Node} {k : PropertyKey} {v : Value}

/-- A value that passed is claimed if its check left a permit. -/
theorem check_parked (h : t.check g node k v = some (.ok (), g')) :
    ∃ c c', g.schema.LetsPass t.caller node.id node.type k.name v c c' ∧ c.locks = g.locks ∧
      (c'.permits ≠ [] ∧ g'.claims = g.claims.add t.txn node.id k.name ⟨node.type, v⟩ ∨
        c'.permits = [] ∧ g'.claims = g.claims) := by
  obtain ⟨⟨r, d⟩, hpass, he⟩ := Option.map_eq_some_iff.1 h
  obtain ⟨rfl, rfl⟩ := Prod.mk.inj he
  refine ⟨_, d, ⟨⟨node, k, hpass, rfl, rfl, rfl⟩, rfl, rfl⟩, rfl, ?_⟩
  by_cases hd : d.permits = []
  · exact Or.inr ⟨hd, by simp [hd]⟩
  · exact Or.inl ⟨hd, by simp [hd]⟩

theorem claim?_settled (t : Transaction) (g : Graph) (node : NodeId) (k : PropertyKey) (v : Value)
    (txn : TxnId) (id : NodeId) (key : String) :
    (t.settled g node k v).claims.claim? txn id key =
      if v.isNull = true ∧ txn = t.txn ∧ id = node ∧ key = k.name then none
      else g.claims.claim? txn id key := by
  rw [settled]
  by_cases hv : v.isNull = true
  · rw [if_pos hv]
    exact (ClaimTable.claim?_release _ _ _ _ _ _ _).trans (if_congr (by simp [hv]) rfl rfl)
  · rw [if_neg hv, if_neg fun h => hv h.1]

/-- A claim after a write: it is the one on the written value, or one that was there. If it is then
the transaction's own claim on the written property, the value passed without a permit. -/
theorem claim?_of_written (hcheck : t.check g node k v = some (.ok (), g'))
    (hc : (t.settled g' node.id k v).claims.claim? txn id key = some c) :
    (txn = t.txn ∧ id = node.id ∧ key = k.name ∧ v.isNull = false ∧ c = ⟨node.type, v⟩ ∧
      g.schema.Parked g.locks t.caller node.id node.type k.name v) ∨
    g.claims.claim? txn id key = some c ∧
      (txn = t.txn → (id, key) = (node.id, k.name) → v.isNull = false ∧
        ∃ d d', g.schema.LetsPass t.caller node.id node.type k.name v d d' ∧ d.locks = g.locks ∧
          d'.permits = []) := by
  rw [claim?_settled] at hc
  split at hc
  · simp at hc
  · next hnot =>
    have hnotNull : txn = t.txn → (id, key) = (node.id, k.name) → v.isNull = false := by
      intro htxn hcell
      obtain ⟨rfl, rfl⟩ := Prod.mk.inj hcell
      rw [← Bool.not_eq_true]
      exact fun hv => hnot ⟨hv, htxn, rfl, rfl⟩
    obtain ⟨d, d', hpass, hlocks, ⟨hleft, hadd⟩ | ⟨hnone, hsame⟩⟩ := check_parked hcheck
    · rw [hadd, ClaimTable.claim?_add] at hc
      split at hc
      · next hcell =>
        obtain ⟨rfl, rfl, rfl⟩ := hcell
        have hparked : g.schema.Parked g.locks t.caller node.id node.type k.name v :=
          ⟨d, d', hpass, hleft, fun _ => hlocks ▸ fun _ h => h⟩
        exact Or.inl ⟨rfl, rfl, rfl, hnotNull rfl rfl, (Option.some.inj hc).symm, hparked⟩
      · next hcell =>
        refine Or.inr ⟨hc, fun htxn he => absurd ?_ hcell⟩
        obtain ⟨rfl, rfl⟩ := Prod.mk.inj he
        exact ⟨htxn, rfl, rfl⟩
    · exact Or.inr ⟨hsame ▸ hc, fun htxn he =>
        ⟨hnotNull htxn he, d, d', hpass, hlocks, hnone⟩⟩

/-! ### Steps -/

/-- A step that changes neither claims nor the nodes of the working copy. -/
theorem Backed.of_sameNodes {others : Transaction → Prop} {a b : Graph × Transaction}
    (ha : Backed others a) (hf : Frame a b)
    (hlocks : a.1.schema.KeepsLocks → LockTable.Keeps a.1.locks b.1.locks)
    (hclaims : b.1.claims = a.1.claims) (hn : b.2.working.nodes = a.2.working.nodes) :
    Backed others b := by
  have hvalue : ∀ id k, b.2.working.value? id k = a.2.working.value? id k := fun id k =>
    congrArg (fun nodes => (Assoc.get? nodes id).bind (Assoc.get? · k)) hn
  refine ⟨hclaims ▸ ha.inOrder, fun txn id key c hc => ?_⟩
  exact ha.mono_of_same hf hlocks (hclaims ▸ hc) fun _ => ⟨hvalue _ _, hvalue _ _⟩

theorem inOrder_settled (h : g.claims.InOrder) (hcheck : t.check g node k v = some (.ok (), g')) :
    (t.settled g' node.id k v).claims.InOrder := by
  have hchecked : g'.claims.InOrder := by
    rcases check_claims hcheck with hsame | ⟨-, hadd⟩
    · exact hsame ▸ h
    · exact hadd ▸ h.add _ _ _ _
  rw [settled]
  split
  · exact hchecked.release _ _ _
  · exact hchecked

/-- A value that is written is backed if it is claimed, and a claim on the property that stays
outlives its value. -/
theorem Backed.written {others : Transaction → Prop} (ha : Backed others (g, t))
    (ht : Tracks start t.working t.changes)
    (hf : Frame (g, t) (t.settled g' node.id k v, t.store node k v))
    (hlocks : g.schema.KeepsLocks → LockTable.Keeps g.locks (t.settled g' node.id k v).locks)
    (hnode : t.node? g node.id = some node) (hkey : k.name ≠ typeProperty)
    (hcheck : t.check g node k v = some (.ok (), g')) :
    Backed others (t.settled g' node.id k v, t.store node k v) := by
  obtain ⟨-, hp, -⟩ := node?_eq_some hnode
  have htype := GraphState.type?_of_node (g := t.working) hnode
  have hcell := fun id key => (store_cell ht hp k v id key).1
  have hwritten : v.isNull = false →
      (t.store node k v).working.value? node.id k.name = some v := fun hv => by
    rw [hcell, if_pos rfl, hv]
    rfl
  have hsameType : ∀ id, (t.store node k v).working.value? id typeProperty =
      t.working.value? id typeProperty := fun id =>
    (hcell _ _).trans (if_neg fun he => hkey (Prod.mk.inj he).2.symm)
  refine ⟨inOrder_settled ha.inOrder hcheck, fun txn id key c hc => ?_⟩
  rcases claim?_of_written hcheck hc with ⟨rfl, rfl, rfl, hv, rfl, hparked⟩ | ⟨hold, hpassed⟩
  · refine Or.inl ⟨hf.txn, hkey, ?_, ?_, v, hwritten hv, Or.inl rfl⟩
    · rw [hf.schema, ← htype]
      exact GraphState.type?_congr (hsameType _)
    · rw [hf.schema, hf.caller]
      exact hparked.keeps hlocks
  · refine ha.mono hf hlocks hold fun hown => ?_
    by_cases he : (id, key) = (node.id, k.name)
    · obtain ⟨hv, d, d', hpass, hd, hnone⟩ := hpassed hown.txn.symm he
      obtain ⟨rfl, rfl⟩ := Prod.mk.inj he
      have hsame : node.type = c.type := Option.some.inj (htype.symm.trans hown.type)
      have hwavers := (hd ▸ hown.parked).wavers (hsame ▸ hpass) hnone hv
      exact hown.congr hf.schema hlocks hf.txn hf.caller (hsameType _)
        ⟨v, hwritten hv, Or.inr hwavers⟩
    · exact hown.of_same hf.schema hlocks hf.txn hf.caller ((hcell _ _).trans (if_neg he))
        (hsameType _)

/-- Every step keeps claims backed: a claim goes with the property, and stays with a value that
passes without a permit. -/
theorem Backed.step {others : Transaction → Prop} {a b : Graph × Transaction}
    (ht : Tracks start a.2.working a.2.changes) (hgiven : GivenOut a.1 a.2.working) (h : Step a b)
    (ha : Backed others a) : Backed others b := by
  have hf := h.frame
  have hlocks : a.1.schema.KeepsLocks → LockTable.Keeps a.1.locks b.1.locks := fun hs => h.keeps hs
  cases h with
  | @refused g g' t node k v e hcheck =>
    have hclaims : g'.claims = g.claims :=
      (check_claims hcheck).resolve_right fun hr => by simp at hr
    exact ha.of_sameNodes hf hlocks hclaims rfl
  | written hnode hkey hcheck => exact ha.written ht hf hlocks hnode hkey hcheck
  | skipped => exact ha.of_sameNodes hf hlocks rfl rfl
  | @entered g t type htype =>
    refine ⟨ha.inOrder, fun txn id key c hc => ha.mono_of_same hf hlocks hc fun hown => ?_⟩
    have hne : id ≠ ⟨g.nextNode⟩ := by
      rintro rfl
      exact Nat.lt_irrefl _ (hgiven.nodes g.nextNode (GraphState.has_of_type? hown.type))
    have hvalue := GraphState.value?_put t.working ⟨g.nextNode⟩ [(typeProperty, .string type)] id
    exact ⟨(hvalue key).trans (if_neg hne), (hvalue typeProperty).trans (if_neg hne)⟩
  | related => exact ha.of_sameNodes hf hlocks rfl rfl
  | dropped => exact ha.of_sameNodes hf hlocks rfl rfl
  | @erased g t i p hp hfree =>
    refine ⟨ha.inOrder.releaseNode _ _, fun txn id key c hc => ?_⟩
    replace hc := (ClaimTable.claim?_releaseNode _ _ _ _ _ _).symm.trans hc
    split at hc
    · simp at hc
    · next hnot =>
      refine ha.mono_of_same hf hlocks hc fun hown => ?_
      have hne : id ≠ i := fun he => hnot ⟨hown.txn.symm, he⟩
      have hvalue := GraphState.value?_without t.working i id
      exact ⟨(hvalue key).trans (if_neg hne), (hvalue typeProperty).trans (if_neg hne)⟩

theorem Backed.steps {others : Transaction → Prop} {a b : Graph × Transaction}
    (ht : ∀ s, Steps a s → Tracks start s.2.working s.2.changes)
    (hgiven : GivenOut a.1 a.2.working) (h : Steps a b) (ha : Backed others a) :
    Backed others b := by
  induction h with
  | refl => exact ha
  | tail hab hstep ih =>
    exact ih.step (ht _ hab) (hgiven.working (Steps.grows hab)) hstep

end Transaction

namespace World
variable {L H : Type} {w : World L H} {hooks : Set Nat}

/-- Every claim is backed by an open transaction. -/
structure ClaimsBacked (w : World L H) : Prop where
  numbers : ∀ n t, w.transactions.get? n = some t → n < w.nextTransaction
  inOrder : w.graph.claims.InOrder
  backed : ∀ txn id key c, w.graph.claims.claim? txn id key = some c →
    ∃ n t, w.transactions.get? n = some t ∧ t.Backs w.graph txn id key c

namespace ClaimsBacked

theorem aside {w' : World L H} (h : ClaimsBacked w) (ha : Aside w w') : ClaimsBacked w' := by
  obtain ⟨hg, ht, hn, -⟩ := ha
  exact ⟨ht ▸ hn ▸ h.numbers, hg ▸ h.inOrder, ht ▸ hg ▸ h.backed⟩

theorem begin (h : ClaimsBacked w) (k : Nat) (caller : Caller) :
    ClaimsBacked (w.begin k caller).2 := by
  refine ⟨fun n t ht => ?_, h.inOrder, fun txn id key c hc => ?_⟩
  · rcases get?_of_begin ht with ⟨rfl, -⟩ | ⟨-, ht⟩
    · exact Nat.lt_succ_self _
    · exact Nat.lt_succ_of_lt (h.numbers n t ht)
  · obtain ⟨n, t, ht, hbacks⟩ := h.backed txn id key c hc
    refine ⟨n, t, ?_, hbacks⟩
    rw [get?_begin, if_neg (Nat.ne_of_lt (h.numbers n t ht)), ht]

/-- To each transaction, the claims are its own or those of others. -/
theorem seen (h : ClaimsBacked w) {n : Nat} {t : Transaction}
    (ht : w.transactions.get? n = some t) :
    Transaction.Backed (fun t' => ∃ m, m ≠ n ∧ w.transactions.get? m = some t') (w.graph, t) := by
  refine ⟨h.inOrder, fun txn id key c hc => ?_⟩
  obtain ⟨m, t', ht', hbacks⟩ := h.backed txn id key c hc
  by_cases hm : m = n
  · subst hm
    obtain rfl := Option.some.inj (ht.symm.trans ht')
    exact Or.inl hbacks
  · exact Or.inr ⟨t', ⟨m, hm, ht'⟩, hbacks⟩

theorem put (h : ClaimsBacked w) {origin : Nat → GraphState} (hs : Sound origin w)
    {n : Nat} {t : Transaction} {s : Graph × Transaction} (ht : w.transactions.get? n = some t)
    (hsteps : Transaction.Steps (w.graph, t) s) :
    ClaimsBacked (w.put n s) := by
  have hbacked := (h.seen ht).steps (fun s' hs' => hs.tracks_steps ht hs')
    (hs.givenOut ht).2 hsteps
  refine ⟨fun m t' ht' => ?_, hbacked.inOrder, fun txn id key c hc => ?_⟩
  · rcases get?_of_put ht' with ⟨rfl, -⟩ | ⟨-, ht'⟩
    · exact h.numbers m t ht
    · exact h.numbers m t' ht'
  · rcases hbacked.backed txn id key c hc with hown | ⟨t', ⟨m, hm, ht'⟩, hbacks⟩
    · exact ⟨n, s.2, by rw [get?_put, if_pos rfl], hown⟩
    · exact ⟨m, t', by rw [get?_put, if_neg hm, ht'], hbacks⟩

theorem close (h : ClaimsBacked w) (n : Nat) : ClaimsBacked (w.close n) := by
  refine ⟨fun m t ht => ?_, h.inOrder, fun txn id key c hc => ?_⟩
  · obtain ⟨t₀, ht₀, -⟩ := get?_of_close ht
    exact h.numbers m t₀ ht₀
  · obtain ⟨m, t, ht, hbacks⟩ := h.backed txn id key c hc
    have hlocks : w.graph.schema.KeepsLocks →
        LockTable.Keeps w.graph.locks (w.close n).graph.locks := fun _ _ h => h
    by_cases hm : m = n
    · refine ⟨m, _, by rw [get?_close, if_pos hm, ht]; rfl, ?_⟩
      exact hbacks.of_same rfl hlocks rfl rfl rfl rfl
    · exact ⟨m, t, by rw [get?_close, if_neg hm, ht], hbacks.of_graph rfl hlocks⟩

/-- With a transaction go all claims that it backs. -/
theorem leave (h : ClaimsBacked w) {n : Nat} {t : Transaction}
    (ht : w.transactions.get? n = some t) (g : GraphState) :
    ClaimsBacked (({ w with graph.committed := g } : World L H).forget n t.txn) := by
  refine ⟨fun m t' ht' => h.numbers m t' (get?_of_forget ht').2, h.inOrder.without _,
    fun txn id key c hc => ?_⟩
  replace hc := (ClaimTable.claim?_without _ _ _ _ _).symm.trans hc
  split at hc
  · simp at hc
  · next hne =>
    obtain ⟨m, t', ht', hbacks⟩ := h.backed txn id key c hc
    have hm : m ≠ n := by
      rintro rfl
      obtain rfl := Option.some.inj (ht.symm.trans ht')
      exact hne hbacks.txn.symm
    exact ⟨m, t', by rw [get?_forget, if_neg hm]; exact ht',
      hbacks.of_graph rfl fun _ _ h => h⟩

end ClaimsBacked

/-- Claims are backed at each moment of a run. -/
theorem claimsBacked_invariant : Invariant hooks (ClaimsBacked : World L H → Prop) where
  aside := fun h ha => h.aside ha
  begin := fun caller h _ => h.begin _ caller
  put := fun hs h ht hsteps => h.put hs ht hsteps
  close := fun n h => h.close n
  settle := fun _ h ht _ => h.leave ht _
  forget := fun h ht => h.leave ht _

theorem claimsBacked_start (schema : Schema) (locks : LockTable)
    (table : Assoc Nat (CommitHook L)) (host : H) :
    ClaimsBacked (start schema locks table host : World L H) where
  numbers := by intro n t h; simp [start] at h
  inOrder := ClaimTable.inOrder_empty
  backed := by intro txn id key c h; simp [start, ClaimTable.claim?] at h

end World
end EntityGraph
