import EntityGraph.Proofs.Intact

/-!
What listeners are to be told of a transaction. Every node that its change set speaks of, and does
not delete, is in the working copy with its type, so that each of them can be told of and the plan
of its commit has no place where it could fail.

Main statement: `steps_eq` — the plan, event by event.
-/

namespace EntityGraph

/-- The node of an identity that is there. -/
def GraphState.nodeOf (g : GraphState) (s : Schema) (id : NodeId) : Node :=
  (g.node? s id).getD default

theorem GraphState.Intact.node?_eq {s : Schema} {g : GraphState} (h : g.Intact s) {id : NodeId}
    (hid : g.nodes.has id = true) : g.node? s id = some (g.nodeOf s id) := by
  obtain ⟨node, hnode⟩ := h.readable hid
  rw [nodeOf, hnode]
  rfl

/-- It is stored under its identity. -/
theorem GraphState.Intact.get?_eq {s : Schema} {g : GraphState} (h : g.Intact s) {id : NodeId}
    (hid : g.nodes.has id = true) :
    (g.nodeOf s id).id = id ∧ g.nodes.get? id = some (g.nodeOf s id).properties := by
  obtain ⟨p, hp, htyped⟩ := Option.bind_eq_some_iff.1 (h.node?_eq hid)
  obtain ⟨type, -, hnode⟩ := Option.map_eq_some_iff.1 htyped
  rw [← hnode]
  exact ⟨rfl, hp⟩

namespace EventPlan
variable {s : Schema} {start w : GraphState} {c : ChangeSet}

/-- The events of a commit, in order. -/
def events (s : Schema) (w : GraphState) (c : ChangeSet) : List Event :=
  .begin :: (c.createdNodes.map (fun id => .nodeCreated (w.nodeOf s id)) ++
    (c.createdRelationships.map .relationshipCreated ++
      c.deletedRelationships.map .relationshipDeleted) ++
    c.deletedNodes.map (fun id => .nodeDeleted id ((c.deletionSnapshots.get? id).getD [])) ++
    (survivingChanges c).map
      (fun e => .propertyModified (w.nodeOf s e.node) e.key e.previous e.value) ++
    (modifiedNodes c).map (fun id => .nodeModified (w.nodeOf s id)) ++ [.commit])

/-- The objects can all be told of. -/
theorem flatMap_about {α β : Type} (event : β → α → Event) {find : β → Except Failure (Option α)}
    (found : β → α) {l : List β} (h : ∀ b ∈ l, find b = .ok (some (found b))) :
    (l.flatMap fun b => about (event b) (find b)) = (l.map fun b => event b (found b)).map .ok := by
  induction l with
  | nil => rfl
  | cons b l ih =>
    rw [List.flatMap_cons, h b (by simp), ih fun b hb => h b (by simp [hb])]
    rfl

theorem typedNode_eq (strict : Bool) (hi : w.Intact s) {id : NodeId}
    (hid : w.nodes.has id = true) :
    typedNode strict (w.factory s) id = .ok (some (w.nodeOf s id)) := by
  simp [typedNode, rehydrate, GraphState.factory, hi.node?_eq hid]

/-- A node with an entry that is not deleted is in the working copy. -/
theorem has_of_survivingChange (h : Tracks start w c) {e : PropertyEntry}
    (he : e ∈ survivingChanges c) : w.nodes.has e.node = true := by
  obtain ⟨hm, hd⟩ := List.mem_filter.1 he
  have hchange := h.filed.change?_of_mem (ChangeSet.mem_propertyChanges.1 hm)
  exact h.has_of_change? hchange (by simpa [ChangeSet.isDeleted] using hd)

theorem has_of_modified (h : Tracks start w c) {id : NodeId} (hid : id ∈ modifiedNodes c) :
    w.nodes.has id = true := by
  have hm := (List.mem_filter.1 hid).1
  rw [List.mem_eraseDups] at hm
  obtain ⟨e, he, rfl⟩ := List.mem_map.1 hm
  exact has_of_survivingChange h he

/-- The plan of a commit tells of every event and cannot fail. -/
theorem steps_eq (h : Tracks start w c) (hi : w.Intact s) (strict : Bool) :
    steps strict (w.factory s) c = (events s w c).map .ok := by
  have hcreations : creations strict (w.factory s) c = _ :=
    flatMap_about (fun _ => .nodeCreated) (w.nodeOf s) fun id hid =>
      typedNode_eq strict hi ((h.created id).1 hid).1
  have hmodifications : modifications strict (w.factory s) c =
      ((survivingChanges c).map fun e =>
        .propertyModified (w.nodeOf s e.node) e.key e.previous e.value).map .ok := by
    rw [modifications]
    exact flatMap_about (fun e a => .propertyModified a e.key e.previous e.value) _ fun e he =>
      typedNode_eq strict hi (has_of_survivingChange h he)
  have hsummaries : summaries strict (w.factory s) c = _ :=
    flatMap_about (fun _ => .nodeModified) (w.nodeOf s) fun id hid =>
      typedNode_eq strict hi (has_of_modified h hid)
  have hcreated : (c.createdRelationships.flatMap fun r =>
      about .relationshipCreated (typedRelationship strict (w.factory s) r)) = _ :=
    flatMap_about (fun _ => .relationshipCreated) (fun r => r) fun r _ => rfl
  have hdeleted : (c.deletedRelationships.flatMap fun r =>
      about .relationshipDeleted (typedRelationship strict (w.factory s) r)) = _ :=
    flatMap_about (fun _ => .relationshipDeleted) (fun r => r) fun r _ => rfl
  rw [steps, hcreations, hmodifications, hsummaries, relationshipChanges, hcreated, hdeleted]
  simp [events, deletions]

end EventPlan
end EntityGraph
