import EntityGraph.Proofs.UniqueChecks

/-!
Unique values that a transaction wrote. Every step of an operation leaves a property as it is,
empties it, or writes a value to it that has passed its check, so the values of one scope that a
transaction wrote differ from each other throughout.

Main statements: `Step.cell` — what a step does to one property; `Step.holds` — where a value that a
transaction holds comes from; `Apart.step` — what a transaction holds stays apart.
-/

namespace EntityGraph

namespace Transaction

/-- The transaction wrote a value that must be unique. -/
structure Holds (s : Schema) (t : Transaction) (σ : UniqueScope) (id : NodeId) (key : String)
    (v : Value) : Prop where
  change : ∃ previous, t.changes.change? id key = some (previous, some v)
  scope : t.working.scope? s id key = some σ

/-- Values of one scope that two transactions wrote, to different nodes, are not equal. -/
def Apart (s : Schema) (t t' : Transaction) : Prop :=
  ∀ σ m n key u v, t.Holds s σ m key u → t'.Holds s σ n key v → m ≠ n → (u == v) = false

theorem Apart.symm {s : Schema} {t t' : Transaction} (h : Apart s t t') : Apart s t' t := by
  intro σ m n key u v hu hv hne
  rw [Value.beq_comm]
  exact h σ n m key v u hv hu (Ne.symm hne)

/-- A step leaves a property as it is, and the claim on it. -/
structure Left (a b : Graph × Transaction) (id : NodeId) (key : String) : Prop where
  change : b.2.changes.change? id key = a.2.changes.change? id key
  value : b.2.working.value? id key = a.2.working.value? id key
  type : b.2.working.value? id typeProperty = a.2.working.value? id typeProperty
  claim : b.1.claims.claim? a.2.txn id key = a.1.claims.claim? a.2.txn id key

/-- A step writes a value that passed its check. -/
structure Wrote (a b : Graph × Transaction) (node : Node) (key : PropertyKey) (v : Value) :
    Prop where
  present : a.2.node? a.1 node.id = some node
  keyName : key.name ≠ typeProperty
  notNull : v.isNull = false
  check : a.2.check a.1 node key v = some (.ok (), b.1)
  store : b.2 = a.2.store node key v

variable {start : GraphState} {a b : Graph × Transaction}

theorem Holds.value {s : Schema} {t : Transaction} {σ : UniqueScope} {id : NodeId} {key : String}
    {v : Value} (h : t.Holds s σ id key v) (ht : Tracks start t.working t.changes) :
    t.working.value? id key = some v ∧ key ≠ typeProperty := ht.value_of_set h.change

/-- What a transaction holds does not depend on its context. -/
theorem holds_context {s : Schema} {t : Transaction} {σ : UniqueScope} {id : NodeId} {key : String}
    {v : Value} (c : Option TransactionContext) :
    ({ t with context := c } : Transaction).Holds s σ id key v ↔ t.Holds s σ id key v :=
  ⟨fun h => ⟨h.change, h.scope⟩, fun h => ⟨h.change, h.scope⟩⟩

/-! ### One property -/

/-- What was not written stays. -/
theorem left_of_sameNodes {id : NodeId} {key : String}
    (hn : b.2.working.nodes = a.2.working.nodes)
    (hc : ∀ n k, b.2.changes.change? n k = a.2.changes.change? n k)
    (hg : b.1.claims = a.1.claims) : Left a b id key := by
  refine ⟨hc id key, ?_, ?_, ?_⟩
  · exact congrArg (fun nodes => (Assoc.get? nodes id).bind (Assoc.get? · key)) hn
  · exact congrArg (fun nodes => (Assoc.get? nodes id).bind (Assoc.get? · typeProperty)) hn
  · exact congrArg (ClaimTable.claim? · a.2.txn id key) hg

/-- No entry is about a relationship. -/
theorem filed_dropRelationship {t : Transaction} (h : t.changes.Filed) (r : Relationship) :
    (t.dropRelationship r).changes.Filed ∧
      ∀ n k, (t.dropRelationship r).changes.change? n k = t.changes.change? n k := by
  rw [dropRelationship, ChangeSet.discardRelationship]
  by_cases hany : (t.changes.createdRelationships.any (·.id = r.id)) = true
  · simp only [hany, if_true]
    exact h.congr rfl rfl rfl
  · simp only [hany, if_false, Bool.false_eq_true]
    exact h.congr rfl rfl rfl

theorem change?_dropRelationship {t : Transaction} (h : t.changes.Filed) (r : Relationship)
    (n : NodeId) (k : String) :
    (t.dropRelationship r).changes.change? n k = t.changes.change? n k :=
  (filed_dropRelationship h r).2 n k

theorem filed_foldl_dropRelationship (rs : List Relationship) {t : Transaction}
    (h : t.changes.Filed) : (rs.foldl dropRelationship t).changes.Filed ∧
      ∀ n k, (rs.foldl dropRelationship t).changes.change? n k = t.changes.change? n k := by
  induction rs generalizing t with
  | nil => exact ⟨h, fun _ _ => rfl⟩
  | cons r rs ih =>
    obtain ⟨hfiled, hchange⟩ := filed_dropRelationship h r
    obtain ⟨hrest, hsame⟩ := ih hfiled
    exact ⟨hrest, fun n k => (hsame n k).trans (hchange n k)⟩

/-- The entries of all nodes but the erased one stay. -/
theorem change?_erase {t : Transaction} (h : Tracks start t.working t.changes) {id : NodeId}
    {p : Properties} (hp : t.working.nodes.get? id = some p) {n : NodeId} (hn : n ≠ id)
    (k : String) : (t.erase id p).changes.change? n k = t.changes.change? n k := by
  rw [erase]
  by_cases hc : t.changes.isCreated id = true
  · have hdiscard : (t.changes.discardNode id).1 = true := by rw [ChangeSet.discardNode, if_pos hc]
    simp only [hdiscard, if_true]
    rw [(h.filed.discardNode hc).2, if_neg hn]
  · have hdiscard : t.changes.discardNode id = (false, t.changes) := by
      rw [ChangeSet.discardNode, if_neg hc]
    simp only [hdiscard, Bool.false_eq_true, if_false]
    obtain ⟨hremoved, hremove⟩ := h.filed.removals id
      ((h.tidy.properties id p hp).without typeProperty).keys_nodup
    exact ((hremoved.deleteNode id).2 n k).trans
      ((hremove n k).trans (if_neg fun hand => hn hand.1))

/-- A value stored in the working copy, or none. -/
theorem store_cell {t : Transaction} (h : Tracks start t.working t.changes) {node : Node}
    (hnode : t.working.nodes.get? node.id = some node.properties) (key : PropertyKey) (v : Value)
    (id : NodeId) (k : String) :
    (t.store node key v).working.value? id k =
        (if (id, k) = (node.id, key.name) then if v.isNull then none else some v
          else t.working.value? id k) ∧
      ((id, k) ≠ (node.id, key.name) →
        (t.store node key v).changes.change? id k = t.changes.change? id k) := by
  refine ⟨value?_store hnode key v id k, fun hne => ?_⟩
  rw [store]
  simp only
  split
  · split
    · rfl
    · next old _ => rw [(h.filed.write node.id key (some old) none).2, if_neg hne]
  · rw [(h.filed.write node.id key _ (some v)).2, if_neg hne]

/-- What a step does to one property: it is empty afterwards, or as it was, or it was written. -/
theorem Step.cell (ht : Tracks start a.2.working a.2.changes) (h : Step a b) (id : NodeId)
    {k : String} (hk : k ≠ typeProperty) :
    b.2.working.value? id k = none ∨ Left a b id k ∨
      ∃ node key v, Wrote a b node key v ∧ node.id = id ∧ key.name = k := by
  cases h with
  | @refused g g' t node key v e hcheck =>
    have hclaims : g'.claims = g.claims :=
      (check_claims hcheck).resolve_right fun hr => by simp at hr
    exact Or.inr (Or.inl (left_of_sameNodes rfl (fun _ _ => rfl) hclaims))
  | @written g g' t node key v hnode hkey hcheck =>
    obtain ⟨-, hp, -⟩ := node?_eq_some hnode
    obtain ⟨hvalue, hchange⟩ := store_cell ht hp key v id k
    by_cases he : (id, k) = (node.id, key.name)
    · rw [if_pos he] at hvalue
      obtain ⟨rfl, rfl⟩ := Prod.mk.inj he
      by_cases hv : v.isNull = true
      · exact Or.inl (by simpa [hv] using hvalue)
      · rw [Bool.not_eq_true] at hv
        refine Or.inr (Or.inr ⟨node, key, v, ⟨hnode, hkey, hv, ?_, rfl⟩, rfl, rfl⟩)
        simpa [settled, hv] using hcheck
    · rw [if_neg he] at hvalue
      refine Or.inr (Or.inl ⟨hchange he, hvalue, ?_, ?_⟩)
      · have htype := (store_cell ht hp key v id typeProperty).1
        rwa [if_neg fun h => hkey (Prod.mk.inj h).2.symm] at htype
      · have hadd : g'.claims.claim? t.txn id k = g.claims.claim? t.txn id k := by
          rcases check_claims hcheck with hsame | ⟨-, hadd⟩
          · rw [hsame]
          · rw [hadd, ClaimTable.claim?_add, if_neg fun h => he (by rw [h.2.1, h.2.2])]
        rw [← hadd, settled]
        split
        · exact (ClaimTable.claim?_release _ _ _ _ _ _ _).trans
            (if_neg fun h => he (by rw [h.2.1, h.2.2]))
        · rfl
  | skipped => exact Or.inr (Or.inl (left_of_sameNodes rfl (fun _ _ => rfl) rfl))
  | @entered g t type htype =>
    have hvalue := GraphState.value?_put t.working ⟨g.nextNode⟩ [(typeProperty, .string type)] id
    by_cases hid : id = ⟨g.nextNode⟩
    · left
      refine (hvalue k).trans ?_
      rw [if_pos hid, Assoc.get?_cons, if_neg (Ne.symm hk), Assoc.get?_nil]
    · refine Or.inr (Or.inl ⟨(ht.filed.createNode _).2 id k, ?_, ?_, rfl⟩)
      · exact (hvalue k).trans (if_neg hid)
      · exact (hvalue typeProperty).trans (if_neg hid)
  | related =>
    exact Or.inr (Or.inl (left_of_sameNodes rfl (ht.filed.congr rfl rfl rfl).2 rfl))
  | @dropped g t r hr =>
    exact Or.inr (Or.inl (left_of_sameNodes rfl (change?_dropRelationship ht.filed r) rfl))
  | @erased g t i p hp hfree =>
    have hvalue := GraphState.value?_without t.working i id
    by_cases hid : id = i
    · exact Or.inl ((hvalue k).trans (if_pos hid))
    · refine Or.inr (Or.inl ⟨change?_erase ht hp hid k, ?_, ?_, ?_⟩)
      · exact (hvalue k).trans (if_neg hid)
      · exact (hvalue typeProperty).trans (if_neg hid)
      · exact (ClaimTable.claim?_releaseNode _ _ _ _ _ _).trans (if_neg fun h => hid h.2)

/-! ### Values that are held -/

variable {σ : UniqueScope} {id : NodeId} {key : String} {v : Value}

theorem Holds.touched {s : Schema} {t : Transaction} (h : t.Holds s σ id key v)
    (ht : t.changes.Filed) : id ∈ t.changes.touched := by
  obtain ⟨previous, hc⟩ := h.change
  exact ht.touched_of_change? hc

theorem Wrote.value {node : Node} {key : PropertyKey} (h : Wrote a b node key v)
    (ht : Tracks start a.2.working a.2.changes) :
    b.2.working.value? node.id key.name = some v := by
  have hvalue := (store_cell ht (node?_eq_some h.present).2.1 key v node.id key.name).1
  rw [h.store, hvalue, if_pos rfl, h.notNull]
  rfl

theorem Wrote.value_elsewhere {node : Node} {key : PropertyKey} {k : String}
    (h : Wrote a b node key v) (ht : Tracks start a.2.working a.2.changes)
    (hne : (id, k) ≠ (node.id, key.name)) :
    b.2.working.value? id k = a.2.working.value? id k := by
  have hvalue := (store_cell ht (node?_eq_some h.present).2.1 key v id k).1
  rw [h.store, hvalue, if_neg hne]

theorem Wrote.change_elsewhere {node : Node} {key : PropertyKey} {k : String}
    (h : Wrote a b node key v) (ht : Tracks start a.2.working a.2.changes)
    (hne : (id, k) ≠ (node.id, key.name)) :
    b.2.changes.change? id k = a.2.changes.change? id k := by
  rw [h.store, (store_cell ht (node?_eq_some h.present).2.1 key v id k).2 hne]

theorem Wrote.type {node : Node} {key : PropertyKey} (h : Wrote a b node key v)
    (ht : Tracks start a.2.working a.2.changes) (id : NodeId) :
    b.2.working.value? id typeProperty = a.2.working.value? id typeProperty :=
  h.value_elsewhere ht fun he => h.keyName (Prod.mk.inj he).2.symm

/-- Everything but the written property is held as before. -/
theorem Wrote.holds_elsewhere {s : Schema} {node : Node} {key : PropertyKey} {k : String}
    {u : Value} (h : Wrote a b node key v) (ht : Tracks start a.2.working a.2.changes)
    (hu : b.2.Holds s σ id k u) (hne : id ≠ node.id) : a.2.Holds s σ id k u where
  change := h.change_elsewhere ht (fun he => hne (Prod.mk.inj he).1) ▸ hu.change
  scope := GraphState.scope?_congr (h.type ht id) k ▸ hu.scope

/-- A value that a transaction holds after a step: it held it before, and the step left it, or the
step wrote it. -/
theorem Step.holds (ht : Tracks start a.2.working a.2.changes)
    (ht' : Tracks start b.2.working b.2.changes) (h : Step a b)
    (hb : b.2.Holds a.1.schema σ id key v) :
    (a.2.Holds a.1.schema σ id key v ∧ Left a b id key) ∨
      ∃ node k, Wrote a b node k v ∧ node.id = id ∧ k.name = key ∧
        a.1.schema.scope? node.type k.name = some σ := by
  obtain ⟨hvalue, hkey⟩ := hb.value ht'
  rcases h.cell ht id hkey with hnone | hleft | ⟨node, k, v', hwrote, rfl, rfl⟩
  · rw [hnone] at hvalue
    simp at hvalue
  · obtain ⟨⟨previous, hc⟩, hσ⟩ := hb
    refine Or.inl ⟨⟨⟨previous, hleft.change ▸ hc⟩, ?_⟩, hleft⟩
    rwa [GraphState.scope?_congr hleft.type] at hσ
  · obtain rfl : v' = v := Option.some.inj ((hwrote.value ht).symm.trans hvalue)
    refine Or.inr ⟨node, k, hwrote, rfl, rfl, ?_⟩
    rw [← GraphState.scope?_of_node hwrote.present k.name,
      ← GraphState.scope?_congr (hwrote.type ht node.id)]
    exact hb.scope

theorem Wrote.free {node : Node} {k : PropertyKey} (h : Wrote a b node k v)
    (hσ : a.1.schema.scope? node.type k.name = some σ) : Free a.1 a.2 σ node.id k.name v :=
  (check_unique hσ h.notNull h.check).1

/-- The values that one transaction holds stay apart. -/
theorem Apart.step (ht : Tracks start a.2.working a.2.changes)
    (ht' : Tracks start b.2.working b.2.changes) (h : Step a b)
    (ha : Apart a.1.schema a.2 a.2) : Apart a.1.schema b.2 b.2 := by
  intro σ m n key u v hu hv hne
  rcases h.holds ht ht' hv with ⟨hv₀, -⟩ | ⟨node, k, hwrote, rfl, rfl, hσ⟩
  · rcases h.holds ht ht' hu with ⟨hu₀, -⟩ | ⟨node, k, hwrote, rfl, rfl, hσ⟩
    · exact ha σ m n key u v hu₀ hv₀ hne
    · rw [Value.beq_comm]
      exact (hwrote.free hσ).touched n v (Ne.symm hne) (hv₀.touched ht.filed) hv₀.scope
        (hv₀.value ht).1
  · have hu₀ := hwrote.holds_elsewhere ht hu hne
    exact (hwrote.free hσ).touched m u hne (hu₀.touched ht.filed) hu₀.scope (hu₀.value ht).1

theorem Apart.steps (ht : ∀ s, Steps a s → Tracks start s.2.working s.2.changes) (h : Steps a b)
    (ha : Apart a.1.schema a.2 a.2) : Apart a.1.schema b.2 b.2 := by
  induction h with
  | refl => exact ha
  | tail hab hstep ih =>
    rw [← Steps.frame hab |>.schema] at ih ⊢
    exact ih.step (ht _ hab) (ht _ (hab.tail hstep)) hstep

end Transaction
end EntityGraph
