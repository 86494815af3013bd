import EntityGraph.Proofs.Operations

/-!
The working copy of a transaction and its change set say the same. Two records are kept of what a
transaction does, and each operation updates both: the change set always leads from the state that
the transaction began with to its working copy.

Main statement: `Tracks.step` — every step of an operation keeps the two in agreement.
-/

namespace EntityGraph

/-- Every node names its type. -/
def GraphState.Typed (g : GraphState) : Prop :=
  ∀ id p, g.nodes.get? id = some p → ∃ name, p.get? typeProperty = some (.string name)

/-- The change set leads from the state that a transaction began with to its working copy. -/
structure Tracks (start working : GraphState) (c : ChangeSet) : Prop where
  filed : c.Filed
  tidy : working.Tidy
  typed : working.Typed
  created : ∀ id, id ∈ c.createdNodes ↔ working.nodes.has id = true ∧ start.nodes.has id = false
  deleted : ∀ id, id ∈ c.deletedNodes ↔ start.nodes.has id = true ∧ working.nodes.has id = false
  /-- An entry goes from the value at the start to the value now. -/
  change : ∀ id k previous value, c.change? id k = some (previous, value) →
    previous = start.value? id k ∧ value = working.value? id k ∧ k ≠ typeProperty ∧
      (start.nodes.has id = true ∨ working.nodes.has id = true)
  unchanged : ∀ id k, c.change? id k = none → k ≠ typeProperty →
    working.value? id k = start.value? id k
  type : ∀ id, start.nodes.has id = true → working.nodes.has id = true →
    working.value? id typeProperty = start.value? id typeProperty
  createdRelationships : ∀ r, r ∈ c.createdRelationships ↔
    working.relationships.get? r.id = some r ∧ start.relationships.get? r.id = none
  deletedRelationships : ∀ r, r ∈ c.deletedRelationships ↔
    start.relationships.get? r.id = some r ∧ working.relationships.get? r.id = none
  relationship : ∀ id r r', start.relationships.get? id = some r →
    working.relationships.get? id = some r' → r' = r

theorem tracks_refl {s : GraphState} (hs : s.Tidy) (ht : s.Typed) : Tracks s s {} where
  filed := ChangeSet.filed_empty
  tidy := hs
  typed := ht
  created := by intro id; cases s.nodes.has id <;> simp
  deleted := by intro id; cases s.nodes.has id <;> simp
  change := by simp [ChangeSet.change?, ChangeSet.entryOf?]
  unchanged := fun _ _ _ _ => rfl
  type := fun _ _ _ => rfl
  createdRelationships := by intro r; cases s.relationships.get? r.id <;> simp
  deletedRelationships := by
    intro r
    cases h : s.relationships.get? r.id <;> simp
  relationship := by
    intro id r r' h h'
    exact Option.some.inj (h'.symm.trans h)

/-! ### What a change of tables does to values -/

theorem Assoc.has_adjust {κ α : Type} [DecidableEq κ] (t : Assoc κ α) (k : κ) (f : α → α) (j : κ) :
    (t.adjust k f).has j = t.has j := by
  rw [has, get?_adjust, has]
  split <;> simp

theorem Assoc.has_without {κ α : Type} [DecidableEq κ] (t : Assoc κ α) (k j : κ) :
    (t.without k).has j = (decide (j ≠ k) && t.has j) := by
  rw [has, get?_without, has]
  by_cases h : j = k <;> simp [h]

theorem Assoc.has_put {κ α : Type} [DecidableEq κ] [LT κ] [DecidableLT κ] (t : Assoc κ α) (k : κ)
    (a : α) (j : κ) : (t.put k a).has j = (decide (j = k) || t.has j) := by
  rw [has, get?_put, has]
  by_cases h : j = k <;> simp [h]

namespace GraphState

theorem value?_adjust {g : GraphState} {id : NodeId} {p : Properties}
    (hp : g.nodes.get? id = some p) {f : Properties → Properties} {k : String} {v : Option Value}
    (hf : ∀ j, (f p).get? j = if j = k then v else p.get? j) (i : NodeId) (j : String) :
    ({ g with nodes := g.nodes.adjust id f } : GraphState).value? i j =
      if (i, j) = (id, k) then v else g.value? i j := by
  rw [value?, Assoc.get?_adjust]
  by_cases hi : i = id
  · subst hi
    rw [if_pos rfl, hp, Option.map_some, Option.bind_some, hf, value?_of_node hp]
    by_cases hj : j = k <;> simp [hj]
  · rw [if_neg hi, if_neg (by simp [hi]), value?]

theorem value?_without (g : GraphState) (id i : NodeId) (j : String) :
    ({ g with nodes := g.nodes.without id } : GraphState).value? i j =
      if i = id then none else g.value? i j := by
  rw [value?, Assoc.get?_without, value?]
  split <;> rfl

theorem value?_put (g : GraphState) (id : NodeId) (p : Properties) (i : NodeId) (j : String) :
    ({ g with nodes := g.nodes.put id p } : GraphState).value? i j =
      if i = id then p.get? j else g.value? i j := by
  rw [value?, Assoc.get?_put, value?]
  split <;> rfl

theorem value?_eq_none_of_has {g : GraphState} {id : NodeId} (h : g.nodes.has id = false)
    (k : String) : g.value? id k = none :=
  value?_of_none ((Assoc.has_eq_false_iff _ _).1 h) k

theorem has_of_value? {g : GraphState} {id : NodeId} {k : String} {v : Value}
    (h : g.value? id k = some v) : g.nodes.has id = true := by
  obtain ⟨p, hp, -⟩ := exists_of_value? h
  exact (Assoc.has_eq_true_iff _ _).2 ⟨p, hp⟩

theorem has_of_node? {g : GraphState} {s : Schema} {id : NodeId} {node : Node}
    (h : g.node? s id = some node) : g.nodes.has id = true := by
  obtain ⟨p, hp, -⟩ := Option.bind_eq_some_iff.1 h
  exact (Assoc.has_eq_true_iff _ _).2 ⟨p, hp⟩

theorem Tidy.withoutNode {g : GraphState} (h : g.Tidy) (id : NodeId) :
    Tidy { g with nodes := g.nodes.without id } := by
  refine ⟨h.nodes.without _, fun i p hp => ?_, h.relationships, h.ids⟩
  rw [Assoc.get?_without] at hp
  split at hp
  · simp at hp
  · exact h.properties i p hp

theorem Typed.withoutNode {g : GraphState} (h : g.Typed) (id : NodeId) :
    Typed { g with nodes := g.nodes.without id } := by
  intro i p hp
  rw [Assoc.get?_without] at hp
  split at hp
  · simp at hp
  · exact h i p hp

end GraphState

/-! ### The steps of an operation -/

namespace Tracks
variable {s w : GraphState} {c : ChangeSet}

theorem change?_eq_none (h : Tracks s w c) {id : NodeId} (hs : s.nodes.has id = false)
    (hw : w.nodes.has id = false) (k : String) : c.change? id k = none := by
  rcases hc : c.change? id k with _ | ⟨previous, value⟩
  · rfl
  · obtain ⟨-, -, -, hhas⟩ := h.change _ _ _ _ hc
    simp [hs, hw] at hhas

/-- A property that was set, whenever that was, has the value now. -/
theorem value_of_set (h : Tracks s w c) {id : NodeId} {k : String} {v : Value}
    (hc : ∃ previous, c.change? id k = some (previous, some v)) :
    w.value? id k = some v ∧ k ≠ typeProperty := by
  obtain ⟨previous, hc⟩ := hc
  obtain ⟨-, hvalue, hkey, -⟩ := h.change id k previous _ hc
  exact ⟨hvalue.symm, hkey⟩

theorem type_withoutNode (h : Tracks s w c) (id : NodeId) (i : NodeId) (hs : s.nodes.has i = true)
    (hw : (w.nodes.without id).has i = true) :
    ({ w with nodes := w.nodes.without id } : GraphState).value? i typeProperty =
      s.value? i typeProperty := by
  rw [Assoc.has_without] at hw
  obtain ⟨hne, hw⟩ : i ≠ id ∧ w.nodes.has i = true := by simpa using hw
  rw [GraphState.value?_without, if_neg hne]
  exact h.type i hs hw

/-- The base of a property, with or without an entry, is its value at the start. -/
theorem baseOf_eq (h : Tracks s w c) (id : NodeId) {k : String} (hk : k ≠ typeProperty) :
    c.baseOf id k (w.value? id k) = s.value? id k := by
  rw [ChangeSet.baseOf]
  rcases hc : c.change? id k with _ | ⟨previous, value⟩
  · exact h.unchanged id k hc hk
  · exact (h.change id k previous value hc).1

theorem write (h : Tracks s w c) {id : NodeId} {p : Properties}
    (hp : w.nodes.get? id = some p) {key : PropertyKey} (hkey : key.name ≠ typeProperty)
    {f : Properties → Properties} (hord : ∀ q, Assoc.Ordered q → Assoc.Ordered (f q))
    {v : Option Value} (hf : ∀ j, (f p).get? j = if j = key.name then v else p.get? j) :
    Tracks s { w with nodes := w.nodes.adjust id f }
      (c.write id key (p.get? key.name) v) := by
  have hvalue := GraphState.value?_adjust hp hf
  have hhas : ∀ i, (w.nodes.adjust id f).has i = w.nodes.has i := fun i =>
    Assoc.has_adjust _ _ _ _
  have hin : w.nodes.has id = true := (Assoc.has_eq_true_iff _ _).2 ⟨p, hp⟩
  have hobjects := c.sameObjects_write id key (p.get? key.name) v
  obtain ⟨hfiled, hchange⟩ := h.filed.write id key (p.get? key.name) v
  have hbase : c.baseOf id key.name (p.get? key.name) = s.value? id key.name := by
    rw [← GraphState.value?_of_node hp, h.baseOf_eq id hkey]
  rw [hbase] at hchange
  refine ⟨hfiled, ?_, ?_, ?_, ?_, ?_, ?_, ?_, ?_, ?_, h.relationship⟩
  · refine ⟨h.tidy.nodes.adjust id f, fun i q hq => ?_, h.tidy.relationships, h.tidy.ids⟩
    rw [Assoc.get?_adjust] at hq
    split at hq
    · obtain ⟨q', hq', rfl⟩ := Option.map_eq_some_iff.1 hq
      exact hord q' (h.tidy.properties i q' hq')
    · exact h.tidy.properties i q hq
  · intro i q hq
    rw [Assoc.get?_adjust] at hq
    split at hq
    · next hi =>
      rw [hi, hp, Option.map_some, Option.some.injEq] at hq
      rw [← hq, hf, if_neg (Ne.symm hkey)]
      exact h.typed id p hp
    · exact h.typed i q hq
  · intro i; rw [hobjects.createdNodes, h.created, hhas]
  · intro i; rw [hobjects.deletedNodes, h.deleted, hhas]
  · intro i k previous value hc
    rw [hchange] at hc
    rw [hvalue, hhas]
    split at hc
    · next hik =>
      obtain ⟨rfl, rfl⟩ := Prod.mk.inj hik
      obtain ⟨rfl, rfl⟩ := ChangeSet.netChange_eq hc
      exact ⟨rfl, by rw [if_pos rfl], hkey, Or.inr hin⟩
    · next hik =>
      rw [if_neg hik]
      exact h.change i k previous value hc
  · intro i k hc hk
    rw [hchange] at hc
    rw [hvalue]
    split at hc
    · next hik =>
      obtain ⟨rfl, rfl⟩ := Prod.mk.inj hik
      obtain ⟨hs, hv⟩ := ChangeSet.netChange_eq_none.1 hc
      rw [if_pos rfl, hs, hv]
    · next hik =>
      rw [if_neg hik]
      exact h.unchanged i k hc hk
  · intro i hs hw
    rw [hhas] at hw
    rw [hvalue, if_neg (by simp [Ne.symm hkey])]
    exact h.type i hs hw
  · intro r; rw [hobjects.createdRelationships]; exact h.createdRelationships r
  · intro r; rw [hobjects.deletedRelationships]; exact h.deletedRelationships r

theorem store {t : Transaction} (h : Tracks s t.working t.changes) {node : Node}
    (hnode : t.working.nodes.get? node.id = some node.properties) {key : PropertyKey}
    (hkey : key.name ≠ typeProperty) (v : Value) :
    Tracks s (t.store node key v).working (t.store node key v).changes := by
  rw [Transaction.store]
  simp only [Node.property?]
  split
  · split
    · exact h
    · next old hold =>
      rw [← hold]
      exact h.write hnode hkey (fun q hq => hq.without _) fun j => Assoc.get?_without _ _ _
  · exact h.write hnode hkey (fun q hq => hq.put _ _) fun j => Assoc.get?_put _ _ _ _

theorem enter {t : Transaction} (h : Tracks s t.working t.changes) {id : NodeId}
    (hs : s.nodes.has id = false) (hw : t.working.nodes.has id = false) (type : String) :
    Tracks s (t.enter id type).working (t.enter id type).changes := by
  have hnone := h.change?_eq_none hs hw
  obtain ⟨hfiled, hchange⟩ := h.filed.createNode id
  have hvalue := GraphState.value?_put t.working id [(typeProperty, .string type)]
  have hhas := Assoc.has_put t.working.nodes id [(typeProperty, .string type)]
  have hsingle : ∀ k, k ≠ typeProperty →
      Assoc.get? [(typeProperty, Value.string type)] k = none := by
    intro k hk
    simp [Assoc.get?_cons, Ne.symm hk]
  have hlists : ∀ c : ChangeSet, (c.createNode id).deletedNodes = c.deletedNodes ∧
      (c.createNode id).createdRelationships = c.createdRelationships ∧
      (c.createNode id).deletedRelationships = c.deletedRelationships := by
    intro c
    rw [ChangeSet.createNode]
    split <;> exact ⟨rfl, rfl, rfl⟩
  refine ⟨hfiled, ?_, ?_, ?_, ?_, ?_, ?_, ?_, ?_, ?_, h.relationship⟩
  · refine ⟨h.tidy.nodes.put id _, fun i q hq => ?_, h.tidy.relationships, h.tidy.ids⟩
    rw [Transaction.enter, Assoc.get?_put] at hq
    split at hq
    · rw [← Option.some.inj hq]
      exact List.pairwise_singleton _ _
    · exact h.tidy.properties i q hq
  · intro i q hq
    rw [Transaction.enter, Assoc.get?_put] at hq
    split at hq
    · exact ⟨type, by rw [← Option.some.inj hq]; rfl⟩
    · exact h.typed i q hq
  · intro i
    rw [Transaction.enter, hhas, ChangeSet.mem_createNode, h.created]
    by_cases hi : i = id
    · simp [hi, hs]
    · simp [hi]
  · intro i
    rw [Transaction.enter, hhas, (hlists _).1, h.deleted]
    by_cases hi : i = id
    · simp [hi, hs]
    · simp [hi]
  · intro i k previous value hc
    rw [Transaction.enter, hchange] at hc
    have hi : i ≠ id := by
      rintro rfl
      rw [hnone] at hc
      simp at hc
    rw [Transaction.enter, hvalue, hhas, if_neg hi]
    simpa [hi] using h.change i k previous value hc
  · intro i k hc hk
    rw [Transaction.enter, hchange] at hc
    rw [Transaction.enter, hvalue]
    split
    · next hi => rw [hi, GraphState.value?_eq_none_of_has hs, hsingle k hk]
    · exact h.unchanged i k hc hk
  · intro i hi hw'
    have hne : i ≠ id := by rintro rfl; simp [hs] at hi
    rw [Transaction.enter, hhas] at hw'
    rw [Transaction.enter, hvalue, if_neg hne]
    exact h.type i hi (by simpa [hne] using hw')
  · intro r
    rw [Transaction.enter, (hlists _).2.1]
    exact h.createdRelationships r
  · intro r
    rw [Transaction.enter, (hlists _).2.2]
    exact h.deletedRelationships r

theorem relate {t : Transaction} (h : Tracks s t.working t.changes) {r : Relationship}
    (hs : s.relationships.get? r.id = none) (hw : t.working.relationships.get? r.id = none) :
    Tracks s (t.relate r).working (t.relate r).changes := by
  have hget := Assoc.get?_put t.working.relationships r.id r
  have hcongr := h.filed.congr (d := t.changes.createRelationship r) rfl rfl rfl
  refine ⟨hcongr.1, ?_, h.typed, h.created, h.deleted, ?_, ?_, h.type, ?_, ?_, ?_⟩
  · refine ⟨h.tidy.nodes, h.tidy.properties, h.tidy.relationships.put _ _, fun i r' hr => ?_⟩
    rw [Transaction.relate, hget] at hr
    split at hr
    · next hi => rw [← Option.some.inj hr, hi]
    · exact h.tidy.ids i r' hr
  · intro i k previous value hc
    exact h.change i k previous value ((hcongr.2 i k).symm.trans hc)
  · intro i k hc hk
    exact h.unchanged i k ((hcongr.2 i k).symm.trans hc) hk
  · intro d
    rw [Transaction.relate, hget, ChangeSet.createRelationship, List.mem_append,
      h.createdRelationships, List.mem_singleton]
    by_cases hd : d.id = r.id
    · rw [if_pos hd, hd, hs, hw]
      simp [eq_comm]
    · have hne : d ≠ r := fun e => hd (congrArg Relationship.id e)
      simp [hd, hne]
  · intro d
    rw [Transaction.relate, hget]
    refine (h.deletedRelationships d).trans ?_
    by_cases hd : d.id = r.id
    · simp [hd, hs]
    · simp [hd]
  · intro i a b ha hb
    rw [Transaction.relate, hget] at hb
    split at hb
    · next hi => rw [hi, hs] at ha; simp at ha
    · exact h.relationship i a b ha hb

theorem dropRelationship {t : Transaction} (h : Tracks s t.working t.changes) {r : Relationship}
    (hr : t.working.relationships.get? r.id = some r) :
    Tracks s (t.dropRelationship r).working (t.dropRelationship r).changes := by
  have hget := Assoc.get?_without t.working.relationships r.id
  have htidy : GraphState.Tidy
      { t.working with relationships := t.working.relationships.without r.id } := by
    refine ⟨h.tidy.nodes, h.tidy.properties, h.tidy.relationships.without _, fun i r' hr => ?_⟩
    rw [hget] at hr
    split at hr
    · simp at hr
    · exact h.tidy.ids i r' hr
  have hkept : ∀ i a b, s.relationships.get? i = some a →
      (t.working.relationships.without r.id).get? i = some b → b = a := by
    intro i a b ha hb
    rw [hget] at hb
    split at hb
    · simp at hb
    · exact h.relationship i a b ha hb
  rw [Transaction.dropRelationship, ChangeSet.discardRelationship]
  by_cases hany : (t.changes.createdRelationships.any (·.id = r.id)) = true
  · -- created by this transaction: nothing is left of it
    obtain ⟨d, hd, hid⟩ := List.any_eq_true.1 hany
    have hs : s.relationships.get? r.id = none := by
      rw [← of_decide_eq_true hid]
      exact ((h.createdRelationships d).1 hd).2
    have hcongr := h.filed.congr (d := { t.changes with
      createdRelationships := t.changes.createdRelationships.filter (·.id ≠ r.id) }) rfl rfl rfl
    simp only [hany, if_true]
    refine ⟨hcongr.1, htidy, h.typed, h.created, h.deleted, ?_, ?_, h.type, ?_, ?_, hkept⟩
    · intro i k previous value hc
      exact h.change i k previous value ((hcongr.2 i k).symm.trans hc)
    · intro i k hc hk
      exact h.unchanged i k ((hcongr.2 i k).symm.trans hc) hk
    · intro d
      rw [List.mem_filter, h.createdRelationships, hget]
      by_cases hd : d.id = r.id <;> simp [hd]
    · intro d
      rw [h.deletedRelationships, hget]
      by_cases hd : d.id = r.id
      · simp [hd, hs]
      · simp [hd]
  · have hs : s.relationships.get? r.id = some r := by
      cases hs : s.relationships.get? r.id with
      | some r' => rw [h.relationship r.id r' r hs hr]
      | none =>
        refine absurd (List.any_eq_true.2 ⟨r, ?_, by simp⟩) hany
        exact (h.createdRelationships r).2 ⟨hr, hs⟩
    have hcongr := h.filed.congr (d := t.changes.deleteRelationship r) rfl rfl rfl
    simp only [hany, if_false, Bool.false_eq_true]
    refine ⟨hcongr.1, htidy, h.typed, h.created, h.deleted, ?_, ?_, h.type, ?_, ?_, hkept⟩
    · intro i k previous value hc
      exact h.change i k previous value ((hcongr.2 i k).symm.trans hc)
    · intro i k hc hk
      exact h.unchanged i k ((hcongr.2 i k).symm.trans hc) hk
    · intro d
      rw [hget]
      refine (h.createdRelationships d).trans ?_
      by_cases hd : d.id = r.id
      · simp [hd, hs]
      · simp [hd]
    · intro d
      rw [ChangeSet.deleteRelationship, List.mem_append, h.deletedRelationships, hget,
        List.mem_singleton]
      by_cases hd : d.id = r.id
      · simp [hd, hs, hr, eq_comm]
      · have hne : d ≠ r := fun e => hd (congrArg Relationship.id e)
        simp [hd, hne]

/-- A node created by the transaction: nothing is left of it. -/
theorem discardNode (h : Tracks s w c) {id : NodeId} (hc : c.isCreated id = true) :
    Tracks s { w with nodes := w.nodes.without id } (c.discardNode id).2 := by
  have hs : s.nodes.has id = false := ((h.created id).1 (by simpa [ChangeSet.isCreated] using hc)).2
  have hhas := Assoc.has_without w.nodes id
  have hvalue := GraphState.value?_without w id
  obtain ⟨hfiled, hchange⟩ := h.filed.discardNode hc
  rw [ChangeSet.discardNode, if_pos hc] at hfiled hchange ⊢
  refine ⟨hfiled, h.tidy.withoutNode id, h.typed.withoutNode id, ?_, ?_, ?_, ?_,
    h.type_withoutNode id, h.createdRelationships, h.deletedRelationships, h.relationship⟩
  · intro i
    rw [List.mem_filter, h.created, hhas]
    by_cases hi : i = id <;> simp [hi]
  · intro i
    rw [h.deleted, hhas]
    by_cases hi : i = id <;> simp [hi, hs]
  · intro i k previous value hk
    rw [hchange] at hk
    split at hk
    · simp at hk
    · next hi =>
      rw [hvalue, if_neg hi, hhas]
      simpa [hi] using h.change i k previous value hk
  · intro i k hk hkey
    rw [hchange] at hk
    rw [hvalue]
    split
    · next hi => rw [hi, GraphState.value?_eq_none_of_has hs]
    · next hi =>
      rw [if_neg hi] at hk
      exact h.unchanged i k hk hkey

/-- A node that was there at the start: the removal of each property is recorded. -/
theorem recordDeletion (h : Tracks s w c) {id : NodeId} {p : Properties}
    (hp : w.nodes.get? id = some p) (hc : c.isCreated id = false) :
    Tracks s { w with nodes := w.nodes.without id } (Transaction.recordDeletion c id p) := by
  have hin : w.nodes.has id = true := (Assoc.has_eq_true_iff _ _).2 ⟨p, hp⟩
  have hs : s.nodes.has id = true := by
    rw [← Bool.not_eq_false]
    intro hs
    simp [ChangeSet.isCreated, (h.created id).2 ⟨hin, hs⟩] at hc
  have hhas := Assoc.has_without w.nodes id
  have hvalue := GraphState.value?_without w id
  have hrow : ∀ k, (p.without typeProperty).get? k =
      if k = typeProperty then none else w.value? id k := by
    intro k
    rw [Assoc.get?_without, GraphState.value?_of_node hp]
  obtain ⟨hremoved, hremove⟩ := h.filed.removals id
    ((h.tidy.properties id p hp).without typeProperty).keys_nodup
  have hobjects := c.sameObjects_removals id (p.without typeProperty)
  rw [Transaction.recordDeletion]
  simp only
  generalize hd : List.foldl _ c (p.without typeProperty) = d at hremoved hremove hobjects
  obtain ⟨hfiled, hdelete⟩ := hremoved.deleteNode id
  have hlists : (d.deleteNode id).createdNodes = c.createdNodes ∧
      (d.deleteNode id).createdRelationships = c.createdRelationships ∧
      (d.deleteNode id).deletedRelationships = c.deletedRelationships := by
    rw [ChangeSet.deleteNode]
    split <;>
      exact ⟨hobjects.createdNodes, hobjects.createdRelationships, hobjects.deletedRelationships⟩
  refine ⟨hfiled, h.tidy.withoutNode id, h.typed.withoutNode id, ?_, ?_, ?_, ?_,
    h.type_withoutNode id, ?_, ?_, h.relationship⟩
  · intro i
    rw [hlists.1, h.created, hhas]
    by_cases hi : i = id <;> simp [hi, hs]
  · intro i
    rw [ChangeSet.mem_deleteNode, hobjects.deletedNodes, h.deleted, hhas]
    by_cases hi : i = id <;> simp [hi, hs]
  · intro i k previous value hk
    rw [hdelete, hremove] at hk
    rw [hvalue, hhas]
    split at hk
    · next hik =>
      obtain ⟨rfl, hhask⟩ := hik
      have hkey : k ≠ typeProperty := by
        rintro rfl
        simp [Assoc.has, hrow] at hhask
      rw [hrow, if_neg hkey, h.baseOf_eq i hkey] at hk
      obtain ⟨rfl, rfl⟩ := ChangeSet.netChange_eq hk
      exact ⟨rfl, by rw [if_pos rfl], hkey, Or.inl hs⟩
    · next hik =>
      obtain ⟨rfl, hv, hkey, hor⟩ := h.change i k previous value hk
      refine ⟨rfl, ?_, hkey, ?_⟩
      · rw [hv]
        split
        · next hi =>
          have hnone : (p.without typeProperty).get? k = none := by
            simpa [hi, Assoc.has_eq_false_iff] using hik
          rwa [hrow, if_neg hkey, ← hi] at hnone
        · rfl
      · by_cases hi : i = id
        · exact Or.inl (hi ▸ hs)
        · simpa [hi] using hor
  · intro i k hk hkey
    rw [hdelete, hremove] at hk
    rw [hvalue]
    split at hk
    · next hik =>
      obtain ⟨rfl, -⟩ := hik
      rw [hrow, if_neg hkey, h.baseOf_eq i hkey] at hk
      rw [if_pos rfl, (ChangeSet.netChange_eq_none.1 hk).1]
    · next hik =>
      rw [← h.unchanged i k hk hkey]
      split
      · next hi =>
        have hnone : (p.without typeProperty).get? k = none := by
          simpa [hi, Assoc.has_eq_false_iff] using hik
        rw [hrow, if_neg hkey, ← hi] at hnone
        exact hnone.symm
      · rfl
  · intro r; rw [hlists.2.1]; exact h.createdRelationships r
  · intro r; rw [hlists.2.2]; exact h.deletedRelationships r

theorem erase {t : Transaction} (h : Tracks s t.working t.changes) {id : NodeId} {p : Properties}
    (hp : t.working.nodes.get? id = some p) :
    Tracks s (t.erase id p).working (t.erase id p).changes := by
  rw [Transaction.erase]
  by_cases hc : t.changes.isCreated id = true
  · have hdiscard : (t.changes.discardNode id).1 = true := by rw [ChangeSet.discardNode, if_pos hc]
    simpa only [hdiscard, if_true] using h.discardNode hc
  · have hdiscard : t.changes.discardNode id = (false, t.changes) := by
      rw [ChangeSet.discardNode, if_neg hc]
    simpa only [hdiscard, Bool.false_eq_true, if_false] using
      h.recordDeletion hp (Bool.not_eq_true _ ▸ hc)

end Tracks

namespace Transaction

/-! ### The working copy after a value was stored -/

theorem has_store (t : Transaction) (node : Node) (key : PropertyKey) (v : Value) (id : NodeId) :
    (t.store node key v).working.nodes.has id = t.working.nodes.has id := by
  rw [store]
  simp only
  split
  · split
    · rfl
    · exact Assoc.has_adjust t.working.nodes node.id (Assoc.without · key.name) id
  · exact Assoc.has_adjust t.working.nodes node.id (Assoc.put · key.name v) id

theorem relationships_store (t : Transaction) (node : Node) (key : PropertyKey) (v : Value) :
    (t.store node key v).working.relationships = t.working.relationships := by
  rw [store]
  simp only
  split
  · split <;> rfl
  · rfl

theorem value?_store {t : Transaction} {node : Node}
    (hnode : t.working.nodes.get? node.id = some node.properties) (key : PropertyKey) (v : Value)
    (id : NodeId) (k : String) : (t.store node key v).working.value? id k =
      if (id, k) = (node.id, key.name) then if v.isNull then none else some v
      else t.working.value? id k := by
  have hvalue := GraphState.value?_of_node hnode key.name
  rw [store]
  simp only [Node.property?]
  split
  · split
    · next hnone =>
      split
      · next he =>
        obtain ⟨rfl, rfl⟩ := Prod.mk.inj he
        rw [hvalue, hnone]
      · rfl
    · exact GraphState.value?_adjust hnode (fun j => Assoc.get?_without _ _ _) id k
  · exact GraphState.value?_adjust hnode (fun j => Assoc.get?_put _ _ _ _) id k

end Transaction

/-- The node is there. -/
def GraphState.hasNode (g : GraphState) (i : Nat) : Prop := g.nodes.has ⟨i⟩ = true

/-- The relationship is there. -/
def GraphState.hasRelationship (g : GraphState) (i : Nat) : Prop := g.relationships.has ⟨i⟩ = true

/-- The working copy has nothing new but what identities were given out for. -/
structure Grows (a b : Graph × Transaction) : Prop where
  nextNode : a.1.nextNode ≤ b.1.nextNode
  nodes : ∀ i, b.2.working.hasNode i →
    a.2.working.hasNode i ∨ a.1.nextNode ≤ i ∧ i < b.1.nextNode
  nextRelationship : a.1.nextRelationship ≤ b.1.nextRelationship
  relationships : ∀ i, b.2.working.hasRelationship i →
    a.2.working.hasRelationship i ∨ a.1.nextRelationship ≤ i ∧ i < b.1.nextRelationship

theorem Transaction.Step.grows {a b : Graph × Transaction} (h : Transaction.Step a b) :
    Grows a b := by
  cases h with
  | refused hcheck =>
    rw [Transaction.check_eq_some hcheck]
    exact ⟨Nat.le_refl _, fun _ => Or.inl, Nat.le_refl _, fun _ => Or.inl⟩
  | @written g g' t node key v hnode hkey hcheck =>
    rw [Transaction.settled_eq, Transaction.check_eq_some hcheck]
    refine ⟨Nat.le_refl _, fun i hi => Or.inl ?_, Nat.le_refl _, fun i hi => Or.inl ?_⟩
    · exact (t.has_store node key v ⟨i⟩).symm.trans hi
    · rwa [GraphState.hasRelationship, t.relationships_store] at hi
  | skipped => exact ⟨Nat.le_succ _, fun _ => Or.inl, Nat.le_refl _, fun _ => Or.inl⟩
  | entered =>
    refine ⟨Nat.le_succ _, fun i hi => ?_, Nat.le_refl _, fun _ => Or.inl⟩
    rw [GraphState.hasNode, Transaction.enter, Assoc.has_put] at hi
    rcases Bool.or_eq_true_iff.1 hi with hi | hi
    · right
      obtain rfl : i = _ := by simpa using hi
      exact ⟨Nat.le_refl _, Nat.lt_succ_self _⟩
    · exact Or.inl hi
  | related =>
    refine ⟨Nat.le_refl _, fun _ => Or.inl, Nat.le_succ _, fun i hi => ?_⟩
    rw [GraphState.hasRelationship, Transaction.relate, Assoc.has_put] at hi
    rcases Bool.or_eq_true_iff.1 hi with hi | hi
    · right
      obtain rfl : i = _ := by simpa using hi
      exact ⟨Nat.le_refl _, Nat.lt_succ_self _⟩
    · exact Or.inl hi
  | dropped =>
    refine ⟨Nat.le_refl _, fun _ => Or.inl, Nat.le_refl _, fun i hi => Or.inl ?_⟩
    rw [GraphState.hasRelationship, Transaction.dropRelationship, Assoc.has_without] at hi
    exact (Bool.and_eq_true_iff.1 hi).2
  | erased =>
    refine ⟨Nat.le_refl _, fun i hi => Or.inl ?_, Nat.le_refl _, fun _ => Or.inl⟩
    rw [GraphState.hasNode, Transaction.erase, Assoc.has_without] at hi
    exact (Bool.and_eq_true_iff.1 hi).2

theorem Transaction.Steps.grows {a b : Graph × Transaction} (h : Transaction.Steps a b) :
    Grows a b := by
  induction h with
  | refl => exact ⟨Nat.le_refl _, fun _ => Or.inl, Nat.le_refl _, fun _ => Or.inl⟩
  | tail _ hstep ih =>
    have hg := hstep.grows
    refine ⟨ih.nextNode.trans hg.nextNode, fun i hi => ?_,
      ih.nextRelationship.trans hg.nextRelationship, fun i hi => ?_⟩
    · rcases hg.nodes i hi with h | ⟨hle, hlt⟩
      · exact (ih.nodes i h).imp_right fun ⟨hle, hlt⟩ => ⟨hle, hlt.trans_le hg.nextNode⟩
      · exact Or.inr ⟨ih.nextNode.trans hle, hlt⟩
    · rcases hg.relationships i hi with h | ⟨hle, hlt⟩
      · exact (ih.relationships i h).imp_right fun ⟨hle, hlt⟩ =>
          ⟨hle, hlt.trans_le hg.nextRelationship⟩
      · exact Or.inr ⟨ih.nextRelationship.trans hle, hlt⟩

/-- The identities of a state have been given out. -/
structure GivenOut (g : Graph) (s : GraphState) : Prop where
  nodes : ∀ i, s.hasNode i → i < g.nextNode
  relationships : ∀ i, s.hasRelationship i → i < g.nextRelationship

theorem GivenOut.grows {a b : Graph × Transaction} {s : GraphState} (h : Grows a b)
    (hs : GivenOut a.1 s) : GivenOut b.1 s :=
  ⟨fun i hi => (hs.nodes i hi).trans_le h.nextNode,
    fun i hi => (hs.relationships i hi).trans_le h.nextRelationship⟩

theorem GivenOut.working {a b : Graph × Transaction} (h : Grows a b)
    (hs : GivenOut a.1 a.2.working) : GivenOut b.1 b.2.working :=
  ⟨fun i hi => (h.nodes i hi).elim (fun hi => (hs.nodes i hi).trans_le h.nextNode) (·.2),
    fun i hi => (h.relationships i hi).elim
      (fun hi => (hs.relationships i hi).trans_le h.nextRelationship) (·.2)⟩

theorem GivenOut.node_new {g : Graph} {s : GraphState} (h : GivenOut g s) :
    s.nodes.has ⟨g.nextNode⟩ = false :=
  Bool.eq_false_iff.2 fun hi => Nat.lt_irrefl _ (h.nodes _ hi)

theorem GivenOut.relationship_new {g : Graph} {s : GraphState} (h : GivenOut g s) :
    s.relationships.get? ⟨g.nextRelationship⟩ = none :=
  (Assoc.has_eq_false_iff _ _).1
    (Bool.eq_false_iff.2 fun hi => Nat.lt_irrefl _ (h.relationships _ hi))

namespace Tracks

theorem step {s : GraphState} {a b : Graph × Transaction} (h : Tracks s a.2.working a.2.changes)
    (hs : GivenOut a.1 s) (hw : GivenOut a.1 a.2.working) (hstep : Transaction.Step a b) :
    Tracks s b.2.working b.2.changes := by
  cases hstep with
  | refused => exact h
  | written hnode hkey => exact h.store (Transaction.node?_eq_some hnode).2.1 hkey _
  | skipped => exact h
  | entered => exact h.enter hs.node_new hw.node_new _
  | related => exact h.relate hs.relationship_new hw.relationship_new
  | dropped hr => exact h.dropRelationship hr
  | erased hp => exact h.erase hp

theorem steps {s : GraphState} {a b : Graph × Transaction} (h : Tracks s a.2.working a.2.changes)
    (hs : GivenOut a.1 s) (hw : GivenOut a.1 a.2.working) (hsteps : Transaction.Steps a b) :
    Tracks s b.2.working b.2.changes := by
  induction hsteps with
  | refl => exact h
  | tail hab hstep ih =>
    exact ih.step (hs.grows (Transaction.Steps.grows hab))
      (hw.working (Transaction.Steps.grows hab)) hstep

end Tracks
end EntityGraph
