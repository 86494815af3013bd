import EntityGraph.Proofs.Clients
import EntityGraph.Proofs.Moments

/-!
What a successful commit rests on and what it leaves. Whatever other transactions committed since a
transaction began, its changes are applied only if what they rest on is as it was, and then they
make of the committed state what the transaction saw.

Main statements: `first_committer_wins` — nothing that the transaction wrote or deleted was changed
by another; `commits_what_it_saw` — the state afterwards has the working copy's values where the
transaction changed something, and is the working copy if nothing else was committed.
-/

namespace EntityGraph

/-- What a change set rests on is in a state as it was in the state that the transaction began
with. -/
structure Undisturbed (start now : GraphState) (c : ChangeSet) : Prop where
  /-- A node that was there and is written is there, with the same value under the key. -/
  writes : ∀ e ∈ c.propertyChanges, e.node ∉ c.createdNodes → now.nodes.has e.node = true ∧
    sameValue (now.value? e.node e.key.name) (start.value? e.node e.key.name) = true
  /-- A deleted node is there, with the same keys and values. -/
  deletions : ∀ id ∈ c.deletedNodes, now.nodes.has id = true ∧ start.nodes.has id = true ∧
    ∀ k, sameValue (now.value? id k) (start.value? id k) = true
  /-- A deleted relationship is there as it was. -/
  relationships : ∀ r ∈ c.deletedRelationships, now.relationships.get? r.id = some r ∧
    start.relationships.get? r.id = some r
  /-- Every relationship at a deleted node is deleted. -/
  touching : ∀ id ∈ c.deletedNodes, ∀ rid r, now.relationships.get? rid = some r →
    r.touches id = true → r ∈ c.deletedRelationships
  /-- The end points of a created relationship are created or there. -/
  ends : ∀ r ∈ c.createdRelationships, ∀ id ∈ [r.start, r.stop],
    id ∈ c.createdNodes ∨ now.nodes.has id = true

/-- A state is what a change set makes of the state before, with what the working copy has. -/
structure AsSeen (before working after : GraphState) (c : ChangeSet) : Prop where
  /-- A created node is stored as the working copy has it. -/
  created : ∀ id ∈ c.createdNodes, ∃ p, working.nodes.get? id = some p ∧
    after.nodes.get? id = some p
  /-- A written property of any other node has the working copy's value. -/
  written : ∀ id, after.nodes.has id = true → id ∉ c.createdNodes → ∀ e ∈ c.propertyChanges,
    e.node = id → after.value? id e.key.name = working.value? id e.key.name
  /-- A property that was not written stays. -/
  kept : ∀ id, after.nodes.has id = true → id ∉ c.createdNodes → ∀ k,
    (∀ e ∈ c.propertyChanges, e.node = id → e.key.name ≠ k) →
      after.value? id k = before.value? id k
  nodes : ∀ id, after.nodes.has id = true ↔
    (before.nodes.has id = true ∨ id ∈ c.createdNodes) ∧ id ∉ c.deletedNodes
  relationships : ∀ id, after.relationships.has id = true ↔
    (before.relationships.has id = true ∨ id ∈ c.createdRelationships.map (·.id)) ∧
      id ∉ c.deletedRelationships.map (·.id)
  /-- A created relationship is stored as the working copy has it. -/
  newRecords : ∀ r ∈ c.createdRelationships, working.relationships.get? r.id = some r ∧
    after.relationships.get? r.id = some r
  /-- Any other relationship stays, and the working copy has it no other way. -/
  oldRecords : ∀ id r, after.relationships.get? id = some r →
    id ∉ c.createdRelationships.map (·.id) → before.relationships.get? id = some r ∧
      ∀ r', working.relationships.get? id = some r' → r' = r

/-! ### A state that the change set fits -/

theorem sameValue_type {g : GraphState} (hg : g.Typed) {id : NodeId}
    (hid : g.nodes.has id = true) :
    sameValue (g.value? id typeProperty) (g.value? id typeProperty) = true := by
  obtain ⟨p, hp⟩ := (Assoc.has_eq_true_iff _ _).1 hid
  obtain ⟨name, hname⟩ := hg id p hp
  rw [GraphState.value?_of_node hp, hname]
  exact decide_eq_true rfl

namespace Tracks
variable {s w p : GraphState} {c : ChangeSet}

/-- The snapshot of a deleted node has what the node had at the start, its type apart. -/
theorem snapshot_eq (h : Tracks s w c) {id : NodeId} (hd : id ∈ c.deletedNodes) :
    ∃ q, c.deletionSnapshots.get? id = some q ∧ Assoc.Ordered q ∧
      ∀ k, q.get? k = if k = typeProperty then none else s.value? id k := by
  obtain ⟨q, hq, hord, hget⟩ := h.filed.snapshot_of_deleted hd
  refine ⟨q, hq, hord, fun k => ?_⟩
  have hw := GraphState.value?_eq_none_of_has ((h.deleted id).1 hd).2
  rw [hget]
  rcases hc : c.change? id k with _ | ⟨previous, value⟩
  · by_cases hk : k = typeProperty
    · simp [hk]
    · simp [hk, ← h.unchanged id k hc hk, hw]
  · obtain ⟨rfl, rfl, hk, -⟩ := h.change id k previous value hc
    simp [hk, hw]

/-- A deleted node of a state that the change set fits has what it had at the start: nothing was
changed or removed, or a write would not fit, and the number of properties leaves no room for more.
-/
theorem sameValue_of_deleted (h : Tracks s w c) (hfits : c.Fits p) {id : NodeId}
    (hd : id ∈ c.deletedNodes) {k : String} (hk : k ≠ typeProperty) :
    sameValue (p.value? id k) (s.value? id k) = true := by
  obtain ⟨snap, hsnap, hord, hget⟩ := h.snapshot_eq hd
  obtain ⟨q, hq, hlength⟩ := hfits.deletions id snap hsnap
  have hwritten : ∀ j, j ≠ typeProperty → ∀ v, s.value? id j = some v →
      sameValue (q.get? j) (some v) = true := by
    intro j hj v hv
    rcases hc : c.change? id j with _ | ⟨previous, value⟩
    · have hsame := h.unchanged id j hc hj
      rw [GraphState.value?_eq_none_of_has ((h.deleted id).1 hd).2, hv] at hsame
      simp at hsame
    · obtain ⟨rfl, -, -, -⟩ := h.change id j previous value hc
      obtain ⟨e, he, rfl, rfl, hprevious, -⟩ := h.filed.change?_eq_some hc
      obtain ⟨q', hq', hsame⟩ := hfits.writes e he (h.not_created_of_deleted hd)
      obtain rfl := Option.some.inj (hq.symm.trans hq')
      rwa [hprevious, hv] at hsame
  have hsub : ∀ j, snap.has j = true → (q.without typeProperty).has j = true := by
    intro j hj
    rw [Assoc.has, hget] at hj
    by_cases hjt : j = typeProperty
    · simp [hjt] at hj
    · rw [if_neg hjt] at hj
      obtain ⟨v, hv⟩ := Option.isSome_iff_exists.1 hj
      have hsame := hwritten j hjt v hv
      rw [Assoc.has_without]
      cases hqj : q.get? j with
      | none => rw [hqj] at hsame; exact absurd hsame Bool.false_ne_true
      | some u => simp [hjt, Assoc.has, hqj]
  rw [GraphState.value?_of_node hq]
  cases hv : s.value? id k with
  | some v => exact hwritten k hk v hv
  | none =>
    cases hqk : q.get? k with
    | none => rfl
    | some u =>
      have hin := hord.has_of_length hsub (Nat.le_of_eq hlength) k
        (by rw [Assoc.has_without, Assoc.has, hqk]; simp [hk])
      rw [Assoc.has, hget, if_neg hk, hv] at hin
      exact absurd hin Bool.false_ne_true

/-- What a change set that fits rests on is as it was at the start, given that nothing changes the
type of a node or the record of a relationship. -/
theorem undisturbed (h : Tracks s w c) (hfits : c.Fits p) (hs : s.Typed)
    (htypes : ∀ id, s.nodes.has id = true → p.nodes.has id = true →
      p.value? id typeProperty = s.value? id typeProperty)
    (hp : p.Tidy)
    (hrecords : ∀ id r r', s.relationships.get? id = some r →
      p.relationships.get? id = some r' → r' = r) : Undisturbed s p c where
  writes := by
    intro e he hc
    have hm := ChangeSet.mem_propertyChanges.1 he
    obtain ⟨q, hq, hsame⟩ := hfits.writes e hm hc
    obtain ⟨hprevious, -⟩ := h.change _ _ _ _ (h.filed.change?_of_mem hm)
    refine ⟨(Assoc.has_eq_true_iff _ _).2 ⟨q, hq⟩, ?_⟩
    rwa [GraphState.value?_of_node hq, ← hprevious]
  deletions := by
    intro id hd
    obtain ⟨snap, hsnap, -⟩ := h.snapshot_eq hd
    obtain ⟨q, hq, -⟩ := hfits.deletions id snap hsnap
    have hnow : p.nodes.has id = true := (Assoc.has_eq_true_iff _ _).2 ⟨q, hq⟩
    have hstart := ((h.deleted id).1 hd).1
    refine ⟨hnow, hstart, fun k => ?_⟩
    by_cases hk : k = typeProperty
    · rw [hk, htypes id hstart hnow]
      exact sameValue_type hs hstart
    · exact h.sameValue_of_deleted hfits hd hk
  relationships := by
    intro r hr
    obtain ⟨hstart, -⟩ := (h.deletedRelationships r).1 hr
    obtain ⟨r', hr'⟩ := (Assoc.has_eq_true_iff _ _).1 (hfits.relationships r hr)
    rw [hrecords r.id r r' hstart hr'] at hr'
    exact ⟨hr', hstart⟩
  touching := by
    intro id hd rid r hr htouch
    have hvalue := hp.relationships.mem_values_iff.2 ⟨rid, hr⟩
    obtain ⟨d, hdel, hid⟩ := hfits.touching id hd r hvalue htouch
    obtain ⟨hstart, -⟩ := (h.deletedRelationships d).1 hdel
    rw [hid, hp.ids rid r hr] at hstart
    rw [hrecords rid d r hstart hr]
    exact hdel
  ends := hfits.ends

/-- What the changes make of a state, given that nothing changes the record of a relationship. -/
theorem asSeen (h : Tracks s w c) (hs : s.Tidy)
    (hrecords : ∀ id r r', s.relationships.get? id = some r →
      p.relationships.get? id = some r' → r' = r) : AsSeen p w (p.apply w c) c where
  created := by
    intro id hc
    obtain ⟨q, hq⟩ := (Assoc.has_eq_true_iff _ _).1 ((h.created id).1 hc).1
    exact ⟨q, hq, (h.get?_apply_created p hc).trans hq⟩
  written := by
    intro id hin hc e he hid
    obtain ⟨hd, hor⟩ := (h.has_apply p id).1 hin
    have hchange := h.filed.change?_of_mem (ChangeSet.mem_propertyChanges.1 he)
    rw [hid] at hchange
    rw [h.value?_apply p hd hc (hor.resolve_left hc), hchange]
    rfl
  kept := by
    intro id hin hc k hk
    obtain ⟨hd, hor⟩ := (h.has_apply p id).1 hin
    rw [h.value?_apply p hd hc (hor.resolve_left hc)]
    rcases hchange : c.change? id k with _ | ⟨previous, value⟩
    · rfl
    · obtain ⟨e, he, hid, hkey, -⟩ := h.filed.change?_eq_some hchange
      exact absurd hkey (hk e (ChangeSet.mem_propertyChanges.2 he) hid)
  nodes := by
    intro id
    rw [h.has_apply p id]
    tauto
  relationships := by
    intro id
    rw [Assoc.has, GraphState.relationships_apply]
    by_cases hd : id ∈ c.deletedRelationships.map (·.id)
    · rw [if_pos hd]
      exact ⟨fun hf => absurd hf Bool.false_ne_true, fun hr => absurd hd hr.2⟩
    · rw [if_neg hd]
      by_cases hc : id ∈ c.createdRelationships.map (·.id)
      · obtain ⟨r, hr⟩ := (Assoc.has_eq_true_iff _ _).1 ((h.mem_created_ids id).1 hc).1
        rw [if_pos hc, hr]
        exact ⟨fun _ => ⟨Or.inr hc, hd⟩, fun _ => rfl⟩
      · rw [if_neg hc]
        exact ⟨fun hr => ⟨Or.inl hr, hd⟩, fun hr => hr.1.resolve_right hc⟩
  newRecords := by
    intro r hr
    obtain ⟨hw, hstart⟩ := (h.createdRelationships r).1 hr
    have hc := (h.mem_created_ids r.id).2 ⟨(Assoc.has_eq_true_iff _ _).2 ⟨r, hw⟩, hstart⟩
    have hd : r.id ∉ c.deletedRelationships.map (·.id) := by
      intro hd
      have hin := ((h.mem_deleted_ids hs r.id).1 hd).1
      rw [Assoc.has, hstart] at hin
      exact Bool.false_ne_true hin
    refine ⟨hw, ?_⟩
    rw [GraphState.relationships_apply, if_neg hd, if_pos hc, hw]
    rfl
  oldRecords := by
    intro id r hr hc
    rw [GraphState.relationships_apply] at hr
    split at hr
    · simp at hr
    · refine ⟨hr, fun r' hw => ?_⟩
      cases hstart : s.relationships.get? id with
      | none =>
        exact absurd ((h.mem_created_ids id).2 ⟨(Assoc.has_eq_true_iff _ _).2 ⟨r', hw⟩, hstart⟩) hc
      | some r₀ => rw [hrecords id r₀ r hstart hr, h.relationship id r₀ r' hstart hw]

end Tracks

/-! ### Commits -/

namespace World
variable {L H : Type} {react : Reaction L H} {hooks : Set Nat} {schema : Schema}
  {locks : LockTable} {table : Assoc Nat (CommitHook L)} {host : H} {w₀ w₁ w' : World L H}
  {log₀ log₁ : List CommitRecord} {h : Nat} {caller : Caller} {s : CommitSummary}

/-- The end of a transaction that began at some moment and now commits: what was delivered, and what
the commit finds when its changes are applied. -/
theorem attempt_after_begin (hl : Lawful hooks react)
    (h₀ : Moves hooks (start schema locks table host) w₀)
    (h₁ : Moves hooks (w₀.begin h caller).2 w₁)
    (hcommit : w₁.commit react (w₀.begin h caller).1 = some (.ok s, w')) :
    ∃ t c ds w₂ log₂ origin, w₁.transaction? (w₀.begin h caller).1 = some (t, c) ∧
      Attempted react w₁ (w₀.begin h caller).1 t c ds w₂ (.ok ()) ∧
      w₁.announced? react (w₀.begin h caller).1 = some w₂ ∧
      Reaches hooks (w₁.close (w₀.begin h caller).1) log₂ w₂ ∧
      w'.graph.committed = w₂.graph.committed.apply t.working t.changes ∧
      t.changes.Fits w₂.graph.committed ∧ Sound origin w₂ ∧
      w₂.transactions.get? (w₀.begin h caller).1 = some { t with context := none } ∧
      origin (w₀.begin h caller).1 = w₀.graph.committed ∧
      Tracks w₀.graph.committed t.working t.changes := by
  obtain ⟨o₀, hs₀⟩ := h₀.sound (sound_start schema locks table host fun _ => {})
  obtain ⟨o₁, hs₁, -, hold₁⟩ := h₁.origins (hs₀.begin h caller)
  have horigin : o₁ (w₀.begin h caller).1 = w₀.graph.committed :=
    (hold₁ w₀.nextTransaction (Nat.lt_succ_self _)).trans (Function.update_self _ _ _)
  obtain ⟨t, c, ht⟩ := open_of_commit hcommit
  obtain ⟨hget, -⟩ := transaction?_eq_some.1 ht
  obtain ⟨hactive, hfailure⟩ := hs₁.active ht
  obtain ⟨ds, w₂, hattempt, hannounced, hnone, rfl⟩ := commit_spec ht hactive hfailure hcommit
  obtain ⟨log₂, hrun⟩ := hattempt.reaches hl
  obtain ⟨hclosed, -, o₂, hs₂, hold₂⟩ := hs₁.closed ht hrun
  refine ⟨t, c, ds, w₂, log₂, o₂, ht, hattempt, hannounced, hrun, rfl,
    (t.changes.conflict?_eq_none_iff _).1 hnone, hs₂, hclosed, hold₂.trans horigin, ?_⟩
  have htracks := hs₁.tracks _ t hget
  rwa [horigin] at htracks

theorem commit_after_begin (hl : Lawful hooks react)
    (h₀ : Reaches hooks (start schema locks table host) log₀ w₀)
    (h₁ : Reaches hooks (w₀.begin h caller).2 log₁ w₁)
    (hcommit : w₁.commit react (w₀.begin h caller).1 = some (.ok s, w')) :
    ∃ t c w₂ log₂ origin, w₁.transaction? (w₀.begin h caller).1 = some (t, c) ∧
      w₁.announced? react (w₀.begin h caller).1 = some w₂ ∧
      Reaches hooks (w₁.close (w₀.begin h caller).1) log₂ w₂ ∧
      w'.graph.committed = w₂.graph.committed.apply t.working t.changes ∧
      t.changes.Fits w₂.graph.committed ∧ Sound origin w₂ ∧
      w₂.transactions.get? (w₀.begin h caller).1 = some { t with context := none } ∧
      origin (w₀.begin h caller).1 = w₀.graph.committed ∧
      Tracks w₀.graph.committed t.working t.changes := by
  have hsound := sound_start schema locks table host fun _ => {}
  obtain ⟨o₀, hs₀, -⟩ := h₀.sound hsound
  obtain ⟨t, c, ds, w₂, log₂, origin, ht, -, hrest⟩ :=
    attempt_after_begin hl (h₀.moves hsound) (h₁.moves (hs₀.begin h caller)) hcommit
  exact ⟨t, c, w₂, log₂, origin, ht, hrest⟩

/-- First committer wins: when the changes of a transaction are applied, what they rest on is as it
was when the transaction began, whatever was committed in between. -/
theorem first_committer_wins (hl : Lawful hooks react)
    (h₀ : Reaches hooks (start schema locks table host) log₀ w₀)
    (h₁ : Reaches hooks (w₀.begin h caller).2 log₁ w₁)
    (hcommit : w₁.commit react (w₀.begin h caller).1 = some (.ok s, w')) :
    ∃ t c w₂, w₁.transaction? (w₀.begin h caller).1 = some (t, c) ∧
      w₁.announced? react (w₀.begin h caller).1 = some w₂ ∧
      w'.graph.committed = w₂.graph.committed.apply t.working t.changes ∧
      Undisturbed w₀.graph.committed w₂.graph.committed t.changes := by
  obtain ⟨t, c, w₂, log₂, origin, ht, hannounced, -, happly, hfits, hs₂, hclosed, horigin,
    htracks⟩ :=
    commit_after_begin hl h₀ h₁ hcommit
  obtain ⟨o₀, hs₀, -⟩ := h₀.sound (sound_start schema locks table host fun _ => {})
  refine ⟨t, c, w₂, ht, hannounced, happly, ?_⟩
  refine htracks.undisturbed hfits hs₀.typed (fun id => ?_) hs₂.tidy fun id r r' => ?_
  · rw [← horigin]
    exact hs₂.types _ _ id hclosed
  · rw [← horigin]
    exact hs₂.records _ _ id r r' hclosed

/-- One client commits to a node on which the other then commits another property. -/
theorem first_committer_wins_shared :
    ∃ t c w₂ s w', shared.commit silent 1 = some (.ok s, w') ∧
      shared.transaction? 1 = some (t, c) ∧ shared.announced? silent 1 = some w₂ ∧
      w'.graph.committed = w₂.graph.committed.apply t.working t.changes ∧
      Undisturbed noted.graph.committed w₂.graph.committed t.changes := by
  obtain ⟨log₀, h₀⟩ := noted_reached
  obtain ⟨log₁, h₁⟩ := shared_reached
  have hcommit : ∃ s w', shared.commit silent 1 = some (.ok s, w') := ⟨_, _, rfl⟩
  obtain ⟨s, w', hcommit⟩ := hcommit
  obtain ⟨t, c, w₂, h⟩ := first_committer_wins lawful_silent h₀ h₁ hcommit
  exact ⟨t, c, w₂, s, w', hcommit, h⟩

/-- What a transaction saw is what it commits: what it changed is then as its working copy has it,
and the rest as others left it. If nothing was committed since it began, by others or while
listeners were told, the committed state becomes its working copy. -/
theorem commits_what_it_saw (hl : Lawful hooks react)
    (h₀ : Reaches hooks (start schema locks table host) log₀ w₀)
    (h₁ : Reaches hooks (w₀.begin h caller).2 log₁ w₁)
    (hcommit : w₁.commit react (w₀.begin h caller).1 = some (.ok s, w')) :
    ∃ t c w₂ log₂, w₁.transaction? (w₀.begin h caller).1 = some (t, c) ∧
      w₁.announced? react (w₀.begin h caller).1 = some w₂ ∧
      Reaches hooks (w₁.close (w₀.begin h caller).1) log₂ w₂ ∧
      AsSeen w₂.graph.committed t.working w'.graph.committed t.changes ∧
      (w₂.graph.committed = w₀.graph.committed → w'.graph.committed = t.working) ∧
      (log₁ = [] → log₂ = [] → w'.graph.committed = t.working) := by
  obtain ⟨t, c, w₂, log₂, origin, ht, hannounced, hrun, happly, -, hs₂, hclosed, horigin,
    htracks⟩ :=
    commit_after_begin hl h₀ h₁ hcommit
  obtain ⟨o₀, hs₀, -⟩ := h₀.sound (sound_start schema locks table host fun _ => {})
  have hsame : w₂.graph.committed = w₀.graph.committed → w'.graph.committed = t.working := by
    intro heq
    rw [happly, heq]
    exact htracks.apply_start hs₀.tidy
  refine ⟨t, c, w₂, log₂, ht, hannounced, hrun, ?_, hsame, ?_⟩
  · rw [happly]
    refine htracks.asSeen hs₀.tidy fun id r r' => ?_
    rw [← horigin]
    exact hs₂.records _ _ id r r' hclosed
  · rintro rfl rfl
    exact hsame (hrun.committed_eq.trans h₁.committed_eq)

/-- What one client commits beside what the other had committed. -/
theorem commits_what_it_saw_shared :
    ∃ t c w₂ log₂ s w', shared.commit silent 1 = some (.ok s, w') ∧
      shared.transaction? 1 = some (t, c) ∧ shared.announced? silent 1 = some w₂ ∧
      Reaches {0} (shared.close 1) log₂ w₂ ∧
      AsSeen w₂.graph.committed t.working w'.graph.committed t.changes := by
  obtain ⟨log₀, h₀⟩ := noted_reached
  obtain ⟨log₁, h₁⟩ := shared_reached
  have hcommit : ∃ s w', shared.commit silent 1 = some (.ok s, w') := ⟨_, _, rfl⟩
  obtain ⟨s, w', hcommit⟩ := hcommit
  obtain ⟨t, c, w₂, log₂, ht, hannounced, hrun, hseen, -⟩ :=
    commits_what_it_saw lawful_silent h₀ h₁ hcommit
  exact ⟨t, c, w₂, log₂, s, w', hcommit, ht, hannounced, hrun, hseen⟩

end World
end EntityGraph
