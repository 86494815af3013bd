import EntityGraph.Proofs.EventStream
import EntityGraph.Proofs.Isolation

/-!
What listeners hear of deleted nodes. A transaction keeps no copy of a node that it deletes: what is
told is put together from the removals that it recorded, each with the value that the property had
when the transaction began. It is nevertheless what the commit takes away, whatever was written
before the deletion and whatever others committed.

Main statements: `Step.deletedOnce` — a deletion is recorded once; `filterMap_deletionOf?_events` —
so one event tells of it; `deletions_told` — each listener hears once of each node that a commit
deletes, with what the node had.
-/

namespace EntityGraph

/-! ### Sameness of values -/

theorem sameValue_comm (a b : Option Value) : sameValue a b = sameValue b a := by
  cases a with
  | none => cases b <;> rfl
  | some u =>
    cases b with
    | none => rfl
    | some v => exact Value.beq_comm u v

theorem sameValue_trans {a b c : Option Value} (hab : sameValue a b = true)
    (hbc : sameValue b c = true) : sameValue a c = true := by
  cases a with
  | none =>
    cases b with
    | none => exact hbc
    | some v => simp [sameValue] at hab
  | some u =>
    cases b with
    | none => simp [sameValue] at hab
    | some v =>
      cases c with
      | none => simp [sameValue] at hbc
      | some x => exact Value.equals_trans hab hbc

/-! ### A deletion is recorded once -/

theorem ChangeSet.nodup_deleteNode {c : ChangeSet} (h : c.deletedNodes.Nodup) (id : NodeId) :
    (c.deleteNode id).deletedNodes.Nodup := by
  rw [deleteNode]
  split
  · exact h
  · next hnew => exact List.nodup_append.2 ⟨h, List.nodup_singleton id, by grind⟩

namespace Transaction
variable {a b : Graph × Transaction}

theorem deletedNodes_dropRelationship (t : Transaction) (r : Relationship) :
    (t.dropRelationship r).changes.deletedNodes = t.changes.deletedNodes := by
  simp only [dropRelationship, ChangeSet.discardRelationship]
  split <;> rfl

theorem Step.deletedOnce (h : Step a b) (ha : a.2.changes.deletedNodes.Nodup) :
    b.2.changes.deletedNodes.Nodup := by
  cases h with
  | refused | skipped | related => exact ha
  | @written g g' t node key v =>
    rw [(t.sameObjects_store node key v).deletedNodes]
    exact ha
  | entered =>
    simp only [enter, ChangeSet.createNode]
    split <;> exact ha
  | @dropped g t r =>
    rw [t.deletedNodes_dropRelationship r]
    exact ha
  | @erased g t id p =>
    rw [erase, ChangeSet.discardNode]
    by_cases hc : t.changes.isCreated id = true
    · simpa only [if_pos hc, if_true] using ha
    · simp only [if_neg hc, Bool.false_eq_true, if_false]
      refine ChangeSet.nodup_deleteNode ?_ id
      rw [(t.changes.sameObjects_removals id (p.without typeProperty)).deletedNodes]
      exact ha

end Transaction

/-! ### One event tells of it -/

/-- What an event shows of a node whose deletion it tells of. -/
def Event.deletionOf? (id : NodeId) : Event → Option Properties
  | .nodeDeleted i removed => if i = id then some removed else none
  | _ => none

theorem Event.deletionOf?_eq_some {id : NodeId} {e : Event} {p : Properties} :
    e.deletionOf? id = some p ↔ e = .nodeDeleted id p := by
  cases e with
  | nodeDeleted i removed =>
    by_cases hi : i = id <;> simp [deletionOf?, hi]
  | _ => simp [deletionOf?]

theorem filterMap_same {α : Type} {ids : List NodeId} (h : ids.Nodup) (id : NodeId)
    (f : NodeId → α) : (ids.filterMap fun i => if i = id then some (f i) else none) =
      if id ∈ ids then [f id] else [] := by
  induction ids with
  | nil => rfl
  | cons i ids ih =>
    obtain ⟨hi, hids⟩ := List.nodup_cons.1 h
    rw [List.filterMap_cons, ih hids]
    by_cases he : i = id
    · subst he
      simp [hi]
    · simp [he, Ne.symm he]

/-- The events of a commit that tell of the deletion of a node. -/
theorem EventPlan.filterMap_deletionOf?_events (s : Schema) (w : GraphState) {c : ChangeSet}
    (h : c.deletedNodes.Nodup) (id : NodeId) : (events s w c).filterMap (·.deletionOf? id) =
      if id ∈ c.deletedNodes then [(c.deletionSnapshots.get? id).getD []] else [] := by
  rw [← filterMap_same h id fun i => (c.deletionSnapshots.get? i).getD []]
  simp only [events, List.filterMap_cons, List.filterMap_append, List.filterMap_map,
    Function.comp_def, Event.deletionOf?, List.filterMap_none, List.filterMap_nil,
    List.nil_append, List.append_nil]

namespace World
variable {L H : Type}

/-- Who heard of the deletion of a node, each with what was shown. -/
def deletionsOf (id : NodeId) (ds : List (Delivery L)) : List (L × Properties) :=
  ds.filterMap fun d => (d.event.deletionOf? id).map (d.listener, ·)

theorem deletionsOf_flatMap_taken (id : NodeId) (ls : List L) (es : List Event) :
    deletionsOf id (es.flatMap (taken ls)) =
      (es.filterMap (·.deletionOf? id)).flatMap fun p => ls.map (·, p) := by
  induction es with
  | nil => rfl
  | cons e es ih =>
    have hone : deletionsOf id (taken ls e) =
        ((e.deletionOf? id).map fun p => ls.map (·, p)).getD [] := by
      rw [deletionsOf, taken, List.filterMap_map]
      cases he : e.deletionOf? id <;> simp [he]
    rw [List.flatMap_cons, deletionsOf, List.filterMap_append, ← deletionsOf, ← deletionsOf, ih,
      hone, List.filterMap_cons]
    cases e.deletionOf? id <;> simp

/-! ### Commits -/

/-- What was delivered of the nodes that a commit deletes, in terms of the state that the
transaction began with and of those before and after the commit. -/
structure DeletionsTold (start before after : GraphState) (ls : List L) (ds : List (Delivery L)) :
    Prop where
  /-- What is told of took place, and what is shown is what the node had, its type apart. -/
  shown : ∀ d ∈ ds, ∀ id p, d.event = .nodeDeleted id p →
    before.nodes.has id = true ∧ after.nodes.has id = false ∧ Assoc.Ordered p ∧
      ∀ k, sameValue (p.get? k) (if k = typeProperty then none else before.value? id k) = true
  /-- Every listener hears once of each node that is deleted. -/
  once : ∀ id, before.nodes.has id = true → after.nodes.has id = false →
    ∃ p, deletionsOf id ds = ls.map (·, p)
  /-- Nobody hears of a node that was not there when the transaction began, so of none that it made.
  -/
  fresh : ∀ id, start.nodes.has id = false → deletionsOf id ds = []

theorem mem_deletionsOf {id : NodeId} {ds : List (Delivery L)} {d : Delivery L} {p : Properties}
    (hd : d ∈ ds) (he : d.event = .nodeDeleted id p) : (d.listener, p) ∈ deletionsOf id ds := by
  refine List.mem_filterMap.2 ⟨d, hd, ?_⟩
  rw [Event.deletionOf?_eq_some.2 he]
  rfl

/-- The events of a commit, each taken by every listener, tell of its deletions. -/
theorem deletionsTold_events {s : Schema} {start working before : GraphState} {c : ChangeSet}
    (h : Tracks start working c) (hfits : c.Fits before) (honce : c.deletedNodes.Nodup)
    (ls : List L) : DeletionsTold start before (before.apply working c) ls
      ((EventPlan.events s working c).flatMap (taken ls)) := by
  have hheard : ∀ id, deletionsOf id ((EventPlan.events s working c).flatMap (taken ls)) =
      if id ∈ c.deletedNodes then ls.map (·, (c.deletionSnapshots.get? id).getD []) else [] := by
    intro id
    rw [deletionsOf_flatMap_taken, EventPlan.filterMap_deletionOf?_events s working honce]
    split <;> simp
  have hgone : ∀ id ∈ c.deletedNodes, (before.apply working c).nodes.has id = false := by
    intro id hid
    rw [← Bool.not_eq_true, h.has_apply]
    exact fun hin => hin.1 hid
  refine ⟨fun d hd id p he => ?_, fun id hbefore hafter => ?_, fun id hstart => ?_⟩
  · have hmem := mem_deletionsOf hd he
    rw [hheard] at hmem
    split at hmem
    · next hid =>
      obtain ⟨l, -, hl⟩ := List.mem_map.1 hmem
      obtain ⟨-, rfl⟩ := Prod.mk.inj hl
      obtain ⟨q, hq, hord, hget⟩ := h.snapshot_eq hid
      obtain ⟨r, hr, -⟩ := hfits.deletions id q hq
      refine ⟨(Assoc.has_eq_true_iff _ _).2 ⟨r, hr⟩, hgone id hid, ?_, fun k => ?_⟩
      · rw [hq]
        exact hord
      · rw [hq, Option.getD_some, hget]
        split
        · rfl
        · next hk =>
          rw [sameValue_comm]
          exact h.sameValue_of_deleted hfits hid hk
    · simp at hmem
  · have hid : id ∈ c.deletedNodes := by
      by_contra hid
      rw [(h.has_apply before id).2 ⟨hid, Or.inr hbefore⟩] at hafter
      exact Bool.false_ne_true hafter.symm
    exact ⟨_, (hheard id).trans (if_pos hid)⟩
  · refine (hheard id).trans (if_neg fun hid => ?_)
    rw [((h.deleted id).1 hid).1] at hstart
    exact Bool.false_ne_true hstart.symm

variable {react : Reaction L H} {hooks : Set Nat} {schema : Schema} {locks : LockTable}
  {table : Assoc Nat (CommitHook L)} {host : H} {w₀ w₁ w' : World L H} {h : Nat} {caller : Caller}
  {s : CommitSummary}

/-- What a commit deletes is told faithfully: each listener hears once of each node that it takes
out of the committed state, with the properties that the node has there, and of no node that the
transaction made itself. -/
theorem deletions_told (hl : Lawful hooks react)
    (h₀ : Moves hooks (start schema locks table host) w₀)
    (h₁ : Moves hooks (w₀.begin h caller).2 w₁)
    (hcommit : w₁.commit react (w₀.begin h caller).1 = some (.ok s, w')) :
    ∃ t c ds w₂, w₁.transaction? (w₀.begin h caller).1 = some (t, c) ∧
      Attempted react w₁ (w₀.begin h caller).1 t c ds w₂ (.ok ()) ∧
      w'.graph.committed = w₂.graph.committed.apply t.working t.changes ∧
      DeletionsTold w₀.graph.committed w₂.graph.committed w'.graph.committed
        (w₁.hook t.hook).listeners.snapshot ds := by
  obtain ⟨t, c, ds, w₂, -, -, ht, hattempt, -, -, happly, hfits, -, -, -, htracks⟩ :=
    attempt_after_begin hl h₀ h₁ hcommit
  have hsound := sound_start schema locks table host fun _ => {}
  have hmoves := h₀.through h₁
  obtain ⟨hget, -⟩ := transaction?_eq_some.1 ht
  have hintact := hmoves.intact_of_start (Or.inr ⟨_, t, hget, rfl⟩)
  have honce : t.changes.deletedNodes.Nodup :=
    hmoves.transactions (P := fun _ t => t.changes.deletedNodes.Nodup)
      (fun _ _ _ => List.nodup_nil) (fun _ ha => ha) (fun _ _ hstep ha => hstep.deletedOnce ha)
      hsound (by simp [start]) _ t hget
  have hds := hattempt.dispatched_of_ok.eq_of_ok (EventPlan.steps_eq htracks hintact _)
  refine ⟨t, c, ds, w₂, ht, hattempt, happly, ?_⟩
  rw [happly, hds]
  exact deletionsTold_events htracks hfits honce _

/-! ### A note that is thrown away -/

/-- A client commits a note with a text. -/
def jotted : World Unit Unit :=
  (perform silent
    [.begin 0 .superUser, .operate 0 (.createNode (.root "note") [("text", .string "first")]),
      .commit 0] blank).get rfl

/-- It then writes to the note and deletes it, and another note that it made. -/
def discarded : World Unit Unit :=
  (perform silent
    [.operate 1 (.setProperty ⟨1⟩ (.named "text") (.string "second")),
      .operate 1 (.setProperty ⟨1⟩ (.named "read") (.bool true)),
      .operate 1 (.createNode (.root "note") []), .operate 1 (.deleteNode ⟨2⟩),
      .operate 1 (.deleteNode ⟨1⟩)]
    (jotted.begin 0 .superUser).2).get rfl

/-- What the listener hears of the two notes, of which only the first was ever committed. -/
theorem deletions_told_discarded :
    ∃ t c ds w₂ s w', discarded.commit silent 1 = some (.ok s, w') ∧
      discarded.transaction? 1 = some (t, c) ∧ Attempted silent discarded 1 t c ds w₂ (.ok ()) ∧
      jotted.graph.committed.value? ⟨1⟩ "text" = some (.string "first") ∧
      w'.graph.committed.nodes.has ⟨1⟩ = false ∧ deletionsOf ⟨2⟩ ds = [] ∧
      DeletionsTold jotted.graph.committed w₂.graph.committed w'.graph.committed
        (discarded.hook t.hook).listeners.snapshot ds := by
  have hsound := sound_start noteSchema {} blank.hooks () fun _ => {}
  obtain ⟨log₀, h₀⟩ : ∃ log, Reaches {0} blank log jotted := by
    refine perform_reaches lawful_silent hsound ?_ (Option.some_get rfl).symm
    simp [Action.allowed]
  obtain ⟨origin, hs, -⟩ := h₀.sound hsound
  obtain ⟨log₁, h₁⟩ : ∃ log, Reaches {0} (jotted.begin 0 .superUser).2 log discarded := by
    refine perform_reaches lawful_silent (hs.begin 0 _) ?_ (Option.some_get rfl).symm
    simp [Action.allowed]
  have hcommit : ∃ s w', discarded.commit silent 1 = some (.ok s, w') ∧
      w'.graph.committed.nodes.has ⟨1⟩ = false := ⟨_, _, rfl, rfl⟩
  obtain ⟨s, w', hcommit, hgone⟩ := hcommit
  obtain ⟨t, c, ds, w₂, ht, hattempt, -, htold⟩ :=
    deletions_told lawful_silent (h₀.moves hsound) (h₁.moves (hs.begin 0 _)) hcommit
  exact ⟨t, c, ds, w₂, s, w', hcommit, ht, hattempt, rfl, hgone, htold.fresh ⟨2⟩ rfl, htold⟩

end World
end EntityGraph
