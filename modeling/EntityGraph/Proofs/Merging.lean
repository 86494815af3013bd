import EntityGraph.Graph.Conflict
import EntityGraph.Proofs.NetChanges

/-!
What it means that a change set fits a committed state, and what the state is after the change set
has been applied.

Main statements: `conflict?_eq_none_iff` — no conflict is reported exactly if the change set fits;
`nodes_apply` and `relationships_apply` — the state afterwards, table by table;
`value?_apply` — a property has the value of its entry, if it has one, and stays otherwise.
-/

namespace EntityGraph

attribute [ext] GraphState

namespace GraphState

/-- The value of a property of a node, if there are both. -/
def value? (g : GraphState) (id : NodeId) (key : String) : Option Value :=
  (g.nodes.get? id).bind (·.get? key)

/-- Every table is in key order, and relationships are kept under their identities. -/
structure Tidy (g : GraphState) : Prop where
  nodes : g.nodes.Ordered
  properties : ∀ id p, g.nodes.get? id = some p → Assoc.Ordered p
  relationships : g.relationships.Ordered
  ids : ∀ id r, g.relationships.get? id = some r → r.id = id

theorem tidy_empty : Tidy {} :=
  ⟨Assoc.ordered_nil, by simp, Assoc.ordered_nil, by simp⟩

theorem value?_of_node {g : GraphState} {id : NodeId} {p : Properties}
    (h : g.nodes.get? id = some p) (key : String) : g.value? id key = p.get? key := by
  rw [value?, h, Option.bind_some]

theorem value?_of_none {g : GraphState} {id : NodeId} (h : g.nodes.get? id = none) (key : String) :
    g.value? id key = none := by
  rw [value?, h, Option.bind_none]

theorem exists_of_value? {g : GraphState} {id : NodeId} {key : String} {v : Value}
    (h : g.value? id key = some v) : ∃ p, g.nodes.get? id = some p ∧ p.get? key = some v :=
  Option.bind_eq_some_iff.1 h

/-! ### The steps of an application -/

/-- What an entry does to the properties of its node. -/
def edit (p : Properties) (e : PropertyEntry) : Properties :=
  match e.value with
  | some v => p.put e.key.name v
  | none => p.without e.key.name

theorem get?_edit (p : Properties) (e : PropertyEntry) (k : String) :
    (edit p e).get? k = if k = e.key.name then e.value else p.get? k := by
  rw [edit]
  split
  · next h => rw [h, Assoc.get?_put]
  · next h => rw [h, Assoc.get?_without]

theorem applyEntry_eq (c : ChangeSet) (g : GraphState) (e : PropertyEntry) :
    applyEntry c g e =
      if c.isCreated e.node || c.isDeleted e.node then g
      else { g with nodes := g.nodes.adjust e.node (edit · e) } := by
  rw [applyEntry]
  split
  · rfl
  · cases hv : e.value <;> simp [edit, hv]

variable (working : GraphState) (c : ChangeSet)

theorem foldl_addNode (ids : List NodeId) (g : GraphState) : ids.foldl (addNode working) g =
    { g with nodes := ids.foldl (Assoc.copy working.nodes) g.nodes } := by
  induction ids generalizing g with
  | nil => rfl
  | cons id ids ih =>
    rw [List.foldl_cons, ih, List.foldl_cons, addNode, Assoc.copy]
    cases working.nodes.get? id <;> rfl

theorem foldl_addRelationship (ids : List RelationshipId) (g : GraphState) :
    ids.foldl (addRelationship working) g =
      { g with relationships := ids.foldl (Assoc.copy working.relationships) g.relationships } := by
  induction ids generalizing g with
  | nil => rfl
  | cons id ids ih =>
    rw [List.foldl_cons, ih, List.foldl_cons, addRelationship, Assoc.copy]
    cases working.relationships.get? id <;> rfl

theorem foldl_removeRelationship (ids : List RelationshipId) (g : GraphState) :
    ids.foldl removeRelationship g =
      { g with relationships := ids.foldl Assoc.without g.relationships } := by
  induction ids generalizing g with
  | nil => rfl
  | cons id ids ih => rw [List.foldl_cons, ih]; rfl

theorem foldl_removeNode (ids : List NodeId) (g : GraphState) :
    ids.foldl removeNode g = { g with nodes := ids.foldl Assoc.without g.nodes } := by
  induction ids generalizing g with
  | nil => rfl
  | cons id ids ih => rw [List.foldl_cons, ih]; rfl

theorem foldl_applyEntry (es : List PropertyEntry) (g : GraphState) :
    (es.foldl (applyEntry c) g).relationships = g.relationships ∧ ∀ id,
      (es.foldl (applyEntry c) g).nodes.get? id =
        if c.isCreated id || c.isDeleted id then g.nodes.get? id
        else (g.nodes.get? id).map fun p => (es.filter (·.node = id)).foldl edit p := by
  induction es generalizing g with
  | nil => simp
  | cons e es ih =>
    obtain ⟨hr, hn⟩ := ih (applyEntry c g e)
    rw [List.foldl_cons]
    refine ⟨hr.trans (by rw [applyEntry_eq]; split <;> rfl), fun id => ?_⟩
    rw [hn, applyEntry_eq]
    by_cases hskip : (c.isCreated id || c.isDeleted id) = true
    · rw [if_pos hskip, if_pos hskip]
      split
      · rfl
      · next hne =>
        have hid : id ≠ e.node := by rintro rfl; exact hne hskip
        simp [Assoc.get?_adjust, hid]
    · rw [if_neg hskip, if_neg hskip]
      by_cases hid : e.node = id
      · subst hid
        rw [if_neg hskip, Assoc.get?_adjust, if_pos rfl, Option.map_map]
        simp [Function.comp_def]
      · split
        · simp [hid]
        · simp [Assoc.get?_adjust, hid, Ne.symm hid]

/-! ### The state after an application -/

variable (g : GraphState)

theorem nodes_apply (id : NodeId) : (g.apply working c).nodes.get? id =
    if id ∈ c.deletedNodes then none
    else if id ∈ c.createdNodes then (working.nodes.get? id).or (g.nodes.get? id)
    else (g.nodes.get? id).map fun p => (c.propertyChanges.filter (·.node = id)).foldl edit p := by
  simp only [apply, foldl_removeNode, foldl_removeRelationship, foldl_addRelationship]
  rw [Assoc.get?_foldl_without, (foldl_applyEntry _ _ _).2, foldl_addNode, Assoc.get?_foldl_copy]
  by_cases hd : id ∈ c.deletedNodes
  · simp [hd]
  · by_cases hc : id ∈ c.createdNodes <;> simp [hd, hc, ChangeSet.isCreated, ChangeSet.isDeleted]

theorem relationships_apply (id : RelationshipId) : (g.apply working c).relationships.get? id =
    if id ∈ c.deletedRelationships.map (·.id) then none
    else if id ∈ c.createdRelationships.map (·.id) then
      (working.relationships.get? id).or (g.relationships.get? id)
    else g.relationships.get? id := by
  simp only [apply, foldl_removeNode, foldl_removeRelationship, foldl_addRelationship]
  rw [Assoc.get?_foldl_without, Assoc.get?_foldl_copy, (foldl_applyEntry _ _ _).1, foldl_addNode]

variable {c}

theorem get?_foldl_edit (h : c.Filed) (id : NodeId) (p : Properties) (k : String) :
    ((c.propertyChanges.filter (·.node = id)).foldl edit p).get? k =
      match c.change? id k with
      | some (_, value) => value
      | none => p.get? k := by
  rw [ChangeSet.get?_foldl_entries edit (·.value) _ (fun e _ p k => get?_edit p e k)
    (ChangeSet.keys_nodup_of_pairs h.pairs_propertyChanges id)]
  cases hf : (c.propertyChanges.filter (·.node = id)).find? (·.key.name = k) with
  | some e =>
    obtain ⟨hm, hid⟩ := List.mem_filter.1 (List.mem_of_find?_eq_some hf)
    have hk : e.key.name = k := by simpa using List.find?_some hf
    have hchange := h.change?_of_mem (ChangeSet.mem_propertyChanges.1 hm)
    rw [of_decide_eq_true hid, hk] at hchange
    rw [hchange]
  | none =>
    cases hc : c.change? id k with
    | none => rfl
    | some r =>
      obtain ⟨e, hm, rfl, rfl, -⟩ := h.change?_eq_some hc
      refine absurd rfl (of_decide_eq_false (Bool.eq_false_iff.2 (List.find?_eq_none.1 hf e ?_)))
      exact List.mem_filter.2 ⟨ChangeSet.mem_propertyChanges.2 hm, by simp⟩

theorem value?_apply (h : c.Filed) {id : NodeId} (hd : id ∉ c.deletedNodes)
    (hc : id ∉ c.createdNodes) {p : Properties} (hp : g.nodes.get? id = some p) (k : String) :
    (g.apply working c).value? id k =
      match c.change? id k with
      | some (_, value) => value
      | none => g.value? id k := by
  rw [value?, nodes_apply, if_neg hd, if_neg hc, hp, Option.map_some, Option.bind_some,
    get?_foldl_edit h, value?_of_node hp]

theorem ordered_foldl_applyEntry (c : ChangeSet) (es : List PropertyEntry) (g : GraphState)
    (h : g.nodes.Ordered) : (es.foldl (applyEntry c) g).nodes.Ordered := by
  induction es generalizing g with
  | nil => exact h
  | cons e es ih =>
    refine ih (applyEntry c g e) ?_
    rw [applyEntry_eq]
    split
    · exact h
    · exact h.adjust e.node (edit · e)

theorem ordered_foldl_edit (es : List PropertyEntry) (p : Properties) (h : Assoc.Ordered p) :
    Assoc.Ordered (es.foldl edit p) := by
  refine Assoc.Ordered.foldl h edit (fun p e hp => ?_) es
  rw [edit]
  split
  · exact hp.put _ _
  · exact hp.without _

theorem Tidy.apply {g working : GraphState} (hg : g.Tidy) (hw : working.Tidy) (c : ChangeSet) :
    (g.apply working c).Tidy where
  nodes := by
    have hcopy := hg.nodes.foldl_copy working.nodes c.createdNodes
    have hedit := ordered_foldl_applyEntry c c.propertyChanges
      (c.createdNodes.foldl (addNode working) g) (by rw [foldl_addNode]; exact hcopy)
    simp only [GraphState.apply, foldl_removeNode, foldl_removeRelationship, foldl_addRelationship]
    exact hedit.foldl_without _
  properties := by
    intro id p hp
    rw [nodes_apply] at hp
    split at hp
    · simp at hp
    · split at hp
      · rcases Option.or_eq_some_iff.1 hp with hp | ⟨-, hp⟩
        · exact hw.properties id p hp
        · exact hg.properties id p hp
      · obtain ⟨q, hq, rfl⟩ := Option.map_eq_some_iff.1 hp
        exact ordered_foldl_edit _ q (hg.properties id q hq)
  relationships := by
    simp only [GraphState.apply, foldl_removeNode, foldl_removeRelationship, foldl_addRelationship,
      (foldl_applyEntry _ _ _).1, foldl_addNode]
    exact (hg.relationships.foldl_copy working.relationships _).foldl_without _
  ids := by
    intro id r hr
    rw [relationships_apply] at hr
    split at hr
    · simp at hr
    · split at hr
      · rcases Option.or_eq_some_iff.1 hr with hr | ⟨-, hr⟩
        · exact hw.ids id r hr
        · exact hg.ids id r hr
      · exact hg.ids id r hr

end GraphState

namespace ChangeSet
variable {c : ChangeSet}

/-! ### Snapshots of deleted nodes -/

/-- What a removal adds to the snapshot of its node. -/
def restore (p : Properties) (e : PropertyEntry) : Properties :=
  match e.previous with
  | some old => p.put e.key.name old
  | none => p

theorem ordered_restore (p : Properties) (e : PropertyEntry) (h : Assoc.Ordered p) :
    Assoc.Ordered (restore p e) := by
  rw [restore]
  split
  · exact h.put _ _
  · exact h

theorem deletionSnapshots_eq (c : ChangeSet) : c.deletionSnapshots =
    c.removed.foldl (fun t e => t.adjust e.node (restore · e))
      (Assoc.ofRows (c.deletedNodes.map (·, []))) := by
  unfold deletionSnapshots
  congr 1
  funext t e
  cases hp : e.previous with
  | some old => simp only [restore, hp]
  | none => simp [restore, hp, Assoc.adjust]

theorem get?_foldl_restore (es : List PropertyEntry) (t : Assoc NodeId Properties) (id : NodeId) :
    Assoc.get? (es.foldl (fun t e => Assoc.adjust t e.node (restore · e)) t) id =
      (t.get? id).map fun p => (es.filter (·.node = id)).foldl restore p := by
  induction es generalizing t with
  | nil => simp
  | cons e es ih =>
    rw [List.foldl_cons, ih, Assoc.get?_adjust]
    by_cases hid : e.node = id
    · simp [hid, Function.comp_def]
    · simp [hid, Ne.symm hid]

theorem deletionSnapshots_ordered (c : ChangeSet) : c.deletionSnapshots.Ordered := by
  rw [deletionSnapshots_eq]
  exact Assoc.Ordered.foldl (Assoc.ordered_ofRows _) _ (fun t e ht => ht.adjust _ _) _

/-- The snapshot of a deleted node is what the removals of its properties restore. -/
theorem get?_deletionSnapshots {id : NodeId} (hd : id ∈ c.deletedNodes) :
    c.deletionSnapshots.get? id = some ((c.removed.filter (·.node = id)).foldl restore []) := by
  rw [deletionSnapshots_eq, get?_foldl_restore, Assoc.get?_ofRows_same, if_pos hd, Option.map_some]

/-- The snapshot of a deleted node holds the base of every removed property, and nothing else. -/
theorem Filed.snapshot_of_deleted (h : c.Filed) {id : NodeId} (hd : id ∈ c.deletedNodes) :
    ∃ p, c.deletionSnapshots.get? id = some p ∧ Assoc.Ordered p ∧ ∀ k, p.get? k =
      match c.change? id k with
      | some (previous, none) => previous
      | _ => none := by
  have hpairs : (c.removed.map (·.pair)).Nodup :=
    h.pairs.sublist (List.filter_sublist.map _)
  have hrestore : ∀ e ∈ c.removed.filter (·.node = id), ∀ p k,
      (restore p e).get? k = if k = e.key.name then e.previous else p.get? k := by
    intro e he p k
    obtain ⟨hm, hr⟩ := List.mem_filter.1 (List.mem_of_mem_filter he)
    have hprev := h.net e hm (by simpa [PropertyEntry.isRemoval] using hr)
    rw [restore]
    split
    · next old ho => rw [ho, Assoc.get?_put]
    · next ho => exact absurd ho hprev
  refine ⟨_, get?_deletionSnapshots hd, ?_, fun k => ?_⟩
  · exact Assoc.Ordered.foldl Assoc.ordered_nil restore (fun p e hp => ordered_restore p e hp) _
  · rw [get?_foldl_entries restore (·.previous) _ hrestore (keys_nodup_of_pairs hpairs id)]
    cases hf : (c.removed.filter (·.node = id)).find? (·.key.name = k) with
    | some e =>
      obtain ⟨hm, hid⟩ := List.mem_filter.1 (List.mem_of_find?_eq_some hf)
      obtain ⟨hm, hr⟩ := List.mem_filter.1 hm
      have hk : e.key.name = k := by simpa using List.find?_some hf
      have hchange := h.change?_of_mem hm
      have hv : e.value = none := by simpa [PropertyEntry.isRemoval] using hr
      rw [of_decide_eq_true hid, hk, hv] at hchange
      rw [hchange]
    | none =>
      rcases hc : c.change? id k with _ | ⟨previous, _ | v⟩
      · rfl
      · obtain ⟨e, hm, rfl, rfl, -, hv⟩ := h.change?_eq_some hc
        refine absurd rfl (of_decide_eq_false (Bool.eq_false_iff.2 (List.find?_eq_none.1 hf e ?_)))
        refine List.mem_filter.2 ⟨List.mem_filter.2 ⟨hm, ?_⟩, by simp⟩
        simp [PropertyEntry.isRemoval, hv]
      · rfl

/-! ### Fitting a state -/

/-- The change set fits the state: what it rests on is still there. -/
structure Fits (c : ChangeSet) (g : GraphState) : Prop where
  /-- A written node is there and has the value that the first write found. -/
  writes : ∀ e ∈ c.log, e.node ∉ c.createdNodes →
    ∃ p, g.nodes.get? e.node = some p ∧ sameValue (p.get? e.key.name) e.previous = true
  /-- A deleted node is there and has as many properties as were removed from it. -/
  deletions : ∀ id p, c.deletionSnapshots.get? id = some p →
    ∃ q, g.nodes.get? id = some q ∧ (q.filter (·.1 ≠ typeProperty)).length = p.length
  /-- A deleted relationship is there. -/
  relationships : ∀ r ∈ c.deletedRelationships, g.relationships.has r.id = true
  /-- A relationship at a deleted node is deleted. -/
  touching : ∀ id ∈ c.deletedNodes, ∀ r ∈ g.relationships.values, r.touches id = true →
    ∃ d ∈ c.deletedRelationships, d.id = r.id
  /-- The end points of a created relationship are created or there. -/
  ends : ∀ r ∈ c.createdRelationships, ∀ id ∈ [r.start, r.stop],
    id ∈ c.createdNodes ∨ g.nodes.has id = true

theorem writeConflict?_eq_none_iff (c : ChangeSet) (g : GraphState) (e : PropertyEntry) :
    c.writeConflict? g e = none ↔ (e.node ∉ c.createdNodes →
      ∃ p, g.nodes.get? e.node = some p ∧ sameValue (p.get? e.key.name) e.previous = true) := by
  rw [writeConflict?, isCreated]
  by_cases hc : e.node ∈ c.createdNodes
  · simp [hc]
  · cases hp : g.nodes.get? e.node with
    | none => simp [hc]
    | some p => by_cases hs : sameValue (p.get? e.key.name) e.previous = true <;> simp [hc, hs]

theorem deletionConflict?_eq_none_iff (g : GraphState) (id : NodeId) (p : Properties) :
    deletionConflict? g id p = none ↔
      ∃ q, g.nodes.get? id = some q ∧ (q.filter (·.1 ≠ typeProperty)).length = p.length := by
  rw [deletionConflict?]
  cases hq : g.nodes.get? id with
  | none => simp
  | some q => simp

theorem conflict?_eq_none_iff (c : ChangeSet) (g : GraphState) :
    c.conflict? g = none ↔ c.Fits g := by
  simp only [conflict?, Option.or_eq_none_iff, List.findSome?_eq_none_iff, mem_propertyChanges,
    Prod.forall, c.deletionSnapshots_ordered.mem_iff, writeConflict?_eq_none_iff,
    deletionConflict?_eq_none_iff]
  constructor
  · rintro ⟨hw, hd, hr, ht, he⟩
    refine ⟨hw, hd, fun r h => ?_, fun id h r hm htouch => ?_, fun r h id hid => ?_⟩
    · simpa [relationshipConflict?] using hr r h
    · have hnone := ht id h
      simp only [danglingConflict?, Option.map_eq_none_iff, List.find?_eq_none] at hnone
      simpa [htouch] using hnone r hm
    · have hnone := he r h
      simp only [endPointConflict?, Option.map_eq_none_iff, List.find?_eq_none] at hnone
      have hid := hnone id hid
      by_cases hc : id ∈ c.createdNodes
      · exact Or.inl hc
      · exact Or.inr (by simpa [isCreated, hc] using hid)
  · rintro ⟨hw, hd, hr, ht, he⟩
    refine ⟨hw, hd, fun r h => ?_, fun id h => ?_, fun r h => ?_⟩
    · simp [relationshipConflict?, hr r h]
    · simp only [danglingConflict?, Option.map_eq_none_iff, List.find?_eq_none]
      intro r hm
      by_cases htouch : r.touches id = true
      · simpa [htouch] using ht id h r hm htouch
      · simp [htouch]
    · simp only [endPointConflict?, Option.map_eq_none_iff, List.find?_eq_none]
      intro id hid
      rcases he r h id hid with hc | hc <;> simp [isCreated, hc]

end ChangeSet
end EntityGraph
