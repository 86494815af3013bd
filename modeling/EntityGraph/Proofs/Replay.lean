import EntityGraph.Proofs.WorkingCopy

/-!
What the changes of a transaction make of a state, in terms of the working copy: what has an entry
or was created is as the working copy has it, the rest stays.

Main statements: `Tracks.has_apply`, `Tracks.get?_apply_created`, `Tracks.value?_apply` — the nodes
after an application; `Tracks.apply_start` — on the state that the transaction began with it gives
the working copy.
-/

namespace EntityGraph

/-- Nodes that both states know have the same type. -/
def GraphState.SameTypes (g h : GraphState) : Prop :=
  ∀ id, g.nodes.has id = true → h.nodes.has id = true →
    g.value? id typeProperty = h.value? id typeProperty

namespace Tracks
variable {s w : GraphState} {c : ChangeSet}

theorem not_created_of_deleted (h : Tracks s w c) {id : NodeId} (hd : id ∈ c.deletedNodes) :
    id ∉ c.createdNodes := by
  intro hc
  have hin := ((h.created id).1 hc).1
  rw [((h.deleted id).1 hd).2] at hin
  exact Bool.false_ne_true hin

theorem change?_type (h : Tracks s w c) (id : NodeId) : c.change? id typeProperty = none := by
  rcases hc : c.change? id typeProperty with _ | ⟨previous, value⟩
  · rfl
  · exact absurd rfl (h.change _ _ _ _ hc).2.2.1

/-- A node with an entry is in the working copy, unless it is deleted. -/
theorem has_of_change? (h : Tracks s w c) {id : NodeId} {k : String}
    {e : Option Value × Option Value} (hc : c.change? id k = some e) (hd : id ∉ c.deletedNodes) :
    w.nodes.has id = true := by
  obtain ⟨-, -, -, hor⟩ := h.change id k e.1 e.2 hc
  refine hor.elim (fun hs => ?_) fun hw => hw
  rw [← Bool.not_eq_false]
  exact fun hw => hd ((h.deleted id).2 ⟨hs, hw⟩)

/-- The nodes after an application: what was there or was created, and is not deleted. -/
theorem has_apply (h : Tracks s w c) (g : GraphState) (id : NodeId) :
    (g.apply w c).nodes.has id = true ↔
      id ∉ c.deletedNodes ∧ (id ∈ c.createdNodes ∨ g.nodes.has id = true) := by
  rw [Assoc.has, GraphState.nodes_apply]
  by_cases hd : id ∈ c.deletedNodes
  · simp [hd]
  · by_cases hc : id ∈ c.createdNodes
    · obtain ⟨p, hp⟩ := (Assoc.has_eq_true_iff _ _).1 ((h.created id).1 hc).1
      simp [hd, hc, hp]
    · simp [hd, hc, Assoc.has]

/-- A created node is stored as the working copy has it. -/
theorem get?_apply_created (h : Tracks s w c) (g : GraphState) {id : NodeId}
    (hc : id ∈ c.createdNodes) : (g.apply w c).nodes.get? id = w.nodes.get? id := by
  obtain ⟨p, hp⟩ := (Assoc.has_eq_true_iff _ _).1 ((h.created id).1 hc).1
  rw [GraphState.nodes_apply, if_neg fun hd => h.not_created_of_deleted hd hc, if_pos hc, hp]
  rfl

/-- A node that was there has the working copy's value where there is an entry. -/
theorem value?_apply (h : Tracks s w c) (g : GraphState) {id : NodeId}
    (hd : id ∉ c.deletedNodes) (hc : id ∉ c.createdNodes) (hg : g.nodes.has id = true)
    (k : String) :
    (g.apply w c).value? id k =
      if (c.change? id k).isSome then w.value? id k else g.value? id k := by
  obtain ⟨p, hp⟩ := (Assoc.has_eq_true_iff _ _).1 hg
  rw [GraphState.value?_apply w g h.filed hd hc hp]
  rcases hchange : c.change? id k with _ | ⟨previous, value⟩
  · rfl
  · exact (h.change id k previous value hchange).2.1

/-- Changes of nodes that are not their own keep the types of a state. -/
theorem sameTypes_apply (h : Tracks s w c) {g : GraphState}
    (hown : ∀ id, g.nodes.has id = true → id ∉ c.createdNodes) : g.SameTypes (g.apply w c) := by
  intro id hg hid
  rw [h.value?_apply g ((h.has_apply g id).1 hid).1 (hown id hg) hg, h.change?_type]
  rfl

theorem typed_apply (h : Tracks s w c) {g : GraphState} (hg : g.Typed) : (g.apply w c).Typed := by
  intro id p hp
  have hin : (g.apply w c).nodes.has id = true := (Assoc.has_eq_true_iff _ _).2 ⟨p, hp⟩
  obtain ⟨hd, hor⟩ := (h.has_apply g id).1 hin
  by_cases hc : id ∈ c.createdNodes
  · exact h.typed id p (by rw [← h.get?_apply_created g hc]; exact hp)
  · have hg' := hor.resolve_left hc
    obtain ⟨q, hq⟩ := (Assoc.has_eq_true_iff _ _).1 hg'
    have hvalue := h.value?_apply g hd hc hg' typeProperty
    rw [h.change?_type, GraphState.value?_of_node hp, GraphState.value?_of_node hq] at hvalue
    rw [hvalue]
    exact hg id q hq

theorem mem_created_ids (h : Tracks s w c) (id : RelationshipId) :
    id ∈ c.createdRelationships.map (·.id) ↔
      w.relationships.has id = true ∧ s.relationships.get? id = none := by
  rw [List.mem_map, Assoc.has_eq_true_iff]
  constructor
  · rintro ⟨r, hr, rfl⟩
    obtain ⟨hw, hs⟩ := (h.createdRelationships r).1 hr
    exact ⟨⟨r, hw⟩, hs⟩
  · rintro ⟨⟨r, hr⟩, hs⟩
    obtain rfl := h.tidy.ids id r hr
    exact ⟨r, (h.createdRelationships r).2 ⟨hr, hs⟩, rfl⟩

/-- The relationships after an application: what was there or was created. -/
theorem hasRelationship_apply (h : Tracks s w c) (g : GraphState) {i : Nat}
    (hi : (g.apply w c).hasRelationship i) :
    g.hasRelationship i ∨ w.hasRelationship i ∧ s.relationships.get? ⟨i⟩ = none := by
  rw [GraphState.hasRelationship, Assoc.has, GraphState.relationships_apply] at hi
  split at hi
  · simp at hi
  · split at hi
    · next hc => exact Or.inr ((h.mem_created_ids _).1 hc)
    · exact Or.inl hi

/-! ### The state that the transaction began with -/

theorem get?_apply_start (h : Tracks s w c) (hs : s.Tidy) (id : NodeId) :
    (s.apply w c).nodes.get? id = w.nodes.get? id := by
  by_cases hc : id ∈ c.createdNodes
  · exact h.get?_apply_created s hc
  · by_cases hd : id ∈ c.deletedNodes
    · rw [GraphState.nodes_apply, if_pos hd]
      exact ((Assoc.has_eq_false_iff _ _).1 ((h.deleted id).1 hd).2).symm
    · cases hp : s.nodes.get? id with
      | none =>
        have hw : w.nodes.has id = false := by
          rw [← Bool.not_eq_true]
          exact fun hw => hc ((h.created id).2 ⟨hw, (Assoc.has_eq_false_iff _ _).2 hp⟩)
        rw [GraphState.nodes_apply, if_neg hd, if_neg hc, hp, Option.map_none]
        exact ((Assoc.has_eq_false_iff _ _).1 hw).symm
      | some p =>
        have hin : s.nodes.has id = true := (Assoc.has_eq_true_iff _ _).2 ⟨p, hp⟩
        have hw : w.nodes.has id = true := by
          rw [← Bool.not_eq_false]
          exact fun hw => hd ((h.deleted id).2 ⟨hin, hw⟩)
        obtain ⟨a, ha⟩ := (Assoc.has_eq_true_iff _ _).1 ((h.has_apply s id).2 ⟨hd, Or.inr hin⟩)
        obtain ⟨b, hb⟩ := (Assoc.has_eq_true_iff _ _).1 hw
        have hvalue : ∀ k, (s.apply w c).value? id k = w.value? id k := by
          intro k
          rw [h.value?_apply s hd hc hin]
          split
          · rfl
          · next hnone =>
            by_cases hk : k = typeProperty
            · rw [hk, h.type id hin hw]
            · exact (h.unchanged id k (Option.not_isSome_iff_eq_none.1 hnone) hk).symm
        have hab : a = b := by
          refine ((hs.apply h.tidy c).properties id a ha).ext (h.tidy.properties id b hb)
            fun k => ?_
          rw [← GraphState.value?_of_node ha, ← GraphState.value?_of_node hb, hvalue]
        rw [ha, hb, hab]

theorem mem_deleted_ids (h : Tracks s w c) (hs : s.Tidy) (id : RelationshipId) :
    id ∈ c.deletedRelationships.map (·.id) ↔
      s.relationships.has id = true ∧ w.relationships.get? id = none := by
  rw [List.mem_map, Assoc.has_eq_true_iff]
  constructor
  · rintro ⟨r, hr, rfl⟩
    obtain ⟨hsr, hw⟩ := (h.deletedRelationships r).1 hr
    exact ⟨⟨r, hsr⟩, hw⟩
  · rintro ⟨⟨r, hr⟩, hw⟩
    obtain rfl := hs.ids id r hr
    exact ⟨r, (h.deletedRelationships r).2 ⟨hr, hw⟩, rfl⟩

theorem relationships_apply_start (h : Tracks s w c) (hs : s.Tidy) (id : RelationshipId) :
    (s.apply w c).relationships.get? id = w.relationships.get? id := by
  rw [GraphState.relationships_apply]
  split
  · next hd => exact ((h.mem_deleted_ids hs id).1 hd).2.symm
  · next hd =>
    split
    · next hc =>
      obtain ⟨r, hr⟩ := (Assoc.has_eq_true_iff _ _).1 ((h.mem_created_ids id).1 hc).1
      rw [hr]
      rfl
    · next hc =>
      cases hp : s.relationships.get? id with
      | none =>
        cases hw : w.relationships.get? id with
        | none => rfl
        | some r =>
          exact absurd ((h.mem_created_ids id).2 ⟨(Assoc.has_eq_true_iff _ _).2 ⟨r, hw⟩, hp⟩) hc
      | some r =>
        cases hw : w.relationships.get? id with
        | none =>
          exact absurd ((h.mem_deleted_ids hs id).2 ⟨(Assoc.has_eq_true_iff _ _).2 ⟨r, hp⟩, hw⟩) hd
        | some r' => rw [h.relationship id r r' hp hw]

/-- Applied to the state that the transaction began with, its changes give its working copy. -/
theorem apply_start (h : Tracks s w c) (hs : s.Tidy) : s.apply w c = w := by
  have htidy := hs.apply h.tidy c
  exact GraphState.ext (htidy.nodes.ext h.tidy.nodes (h.get?_apply_start hs))
    (htidy.relationships.ext h.tidy.relationships (h.relationships_apply_start hs))

end Tracks

end EntityGraph
