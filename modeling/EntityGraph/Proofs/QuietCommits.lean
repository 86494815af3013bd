import EntityGraph.Proofs.AllOrNothing
import EntityGraph.Proofs.EqualValues
import EntityGraph.Proofs.Plans

/-!
Commits that nobody interferes with. If nothing was committed since a transaction began, what it
rests on is still there; but a value that holds a NaN does not equal itself, so a change to such a
property never fits, not even the state that it was made of.

Main statements: `fits_start_iff` — which change sets fit the state that they lead from;
`quiet_commit` — without such a change, a commit fails only if a listener fails or commits.
-/

namespace EntityGraph

/-! ### Values that do not equal themselves -/

/-- A value stays the same value unless it holds a NaN. -/
theorem sameValue_self (v : Option Value) : sameValue v v = !v.any Value.holdsNaN := by
  cases v with
  | none => rfl
  | some v => exact v.equals_self

/-! ### Fitting the state at the start -/

namespace ChangeSet

/-- A property that held a NaN is written or removed, of a node that was there. -/
def overwritesNaN (c : ChangeSet) (start : GraphState) : Bool :=
  c.propertyChanges.any fun e =>
    !c.isCreated e.node && (start.value? e.node e.key.name).any Value.holdsNaN

variable {c : ChangeSet} {g : GraphState}

theorem overwritesNaN_eq_false_iff : c.overwritesNaN g = false ↔
    ∀ e ∈ c.log, e.node ∉ c.createdNodes →
      (g.value? e.node e.key.name).any Value.holdsNaN = false := by
  simp [overwritesNaN, isCreated, mem_propertyChanges]

/-- Only deleted nodes have snapshots. -/
theorem deleted_of_snapshot {id : NodeId} {p : Properties}
    (h : c.deletionSnapshots.get? id = some p) : id ∈ c.deletedNodes := by
  rw [deletionSnapshots_eq, get?_foldl_restore, Assoc.get?_ofRows_same] at h
  by_contra hd
  simp [hd] at h

/-- Whatever does not fit is a conflict. -/
theorem conflict_of_conflict? {e : Failure} (h : c.conflict? g = some e) :
    ∃ reason, e = .conflict reason := by
  simp only [conflict?, Option.or_eq_some_iff] at h
  rcases h with h | ⟨-, h | ⟨-, h | ⟨-, h | ⟨-, h⟩⟩⟩⟩
  · obtain ⟨entry, -, h⟩ := List.exists_of_findSome?_eq_some h
    rw [writeConflict?] at h
    grind [nodeGone]
  · obtain ⟨⟨id, p⟩, -, h⟩ := List.exists_of_findSome?_eq_some h
    simp only [deletionConflict?] at h
    grind [nodeGone]
  · obtain ⟨r, -, h⟩ := List.exists_of_findSome?_eq_some h
    rw [relationshipConflict?] at h
    grind
  · obtain ⟨id, -, h⟩ := List.exists_of_findSome?_eq_some h
    obtain ⟨r, -, rfl⟩ := Option.map_eq_some_iff.1 h
    exact ⟨_, rfl⟩
  · obtain ⟨r, -, h⟩ := List.exists_of_findSome?_eq_some h
    obtain ⟨id, -, rfl⟩ := Option.map_eq_some_iff.1 h
    exact ⟨_, rfl⟩

end ChangeSet

namespace Tracks
variable {s w : GraphState} {c : ChangeSet}

/-- A node with an entry was there at the start, unless it was created. -/
theorem has_start_of_entry (h : Tracks s w c) {e : PropertyEntry} (he : e ∈ c.log)
    (hc : e.node ∉ c.createdNodes) : s.nodes.has e.node = true := by
  obtain ⟨-, -, -, hor⟩ := h.change _ _ _ _ (h.filed.change?_of_mem he)
  rw [← Bool.not_eq_false]
  intro hs
  exact hc ((h.created e.node).2 ⟨hor.resolve_left (by simp [hs]), hs⟩)

/-- An entry starts from what was there. -/
theorem same_previous_iff (h : Tracks s w c) {e : PropertyEntry} (he : e ∈ c.log)
    (hc : e.node ∉ c.createdNodes) :
    (∃ p, s.nodes.get? e.node = some p ∧ sameValue (p.get? e.key.name) e.previous = true) ↔
      (s.value? e.node e.key.name).any Value.holdsNaN = false := by
  obtain ⟨p, hp⟩ := (Assoc.has_eq_true_iff _ _).1 (h.has_start_of_entry he hc)
  obtain ⟨hprevious, -⟩ := h.change _ _ _ _ (h.filed.change?_of_mem he)
  rw [hprevious, GraphState.value?_of_node hp]
  simp [hp, sameValue_self]

/-- The snapshot of a deleted node is all that it had, its type apart. -/
theorem snapshot_of_start (h : Tracks s w c) (hs : s.Tidy) {id : NodeId} {snapshot : Properties}
    (hsnap : c.deletionSnapshots.get? id = some snapshot) :
    ∃ p, s.nodes.get? id = some p ∧ p.without typeProperty = snapshot := by
  have hd := ChangeSet.deleted_of_snapshot hsnap
  obtain ⟨p, hp⟩ := (Assoc.has_eq_true_iff _ _).1 ((h.deleted id).1 hd).1
  obtain ⟨q, hq, hord, hget⟩ := h.snapshot_eq hd
  obtain rfl := Option.some.inj (hq.symm.trans hsnap)
  refine ⟨p, hp, ((hs.properties id p hp).without _).ext hord fun k => ?_⟩
  rw [hget, Assoc.get?_without, GraphState.value?_of_node hp]

/-- A change set fits the state that it leads from, unless it overwrites a NaN. -/
theorem fits_start_iff (h : Tracks s w c) (hs : s.Tidy) {schema : Schema} (hi : w.Intact schema) :
    c.Fits s ↔ c.overwritesNaN s = false := by
  rw [ChangeSet.overwritesNaN_eq_false_iff]
  refine ⟨fun hfits e he hc => (h.same_previous_iff he hc).1 (hfits.writes e he hc), fun hnan => ?_⟩
  refine ⟨fun e he hc => (h.same_previous_iff he hc).2 (hnan e he hc), fun id snapshot hsnap => ?_,
    fun r hr => ?_, fun id hd r hr htouch => ?_, fun r hr id hid => ?_⟩
  · obtain ⟨p, hp, rfl⟩ := h.snapshot_of_start hs hsnap
    exact ⟨p, hp, rfl⟩
  · exact (Assoc.has_eq_true_iff _ _).2 ⟨r, ((h.deletedRelationships r).1 hr).1⟩
  · -- in the working copy it would dangle
    obtain ⟨rid, hr⟩ := hs.relationships.mem_values_iff.1 hr
    obtain rfl := hs.ids rid r hr
    refine ⟨r, (h.deletedRelationships r).2 ⟨hr, ?_⟩, rfl⟩
    have hgone := ((h.deleted id).1 hd).2
    rcases hw : w.relationships.get? r.id with _ | r'
    · rfl
    · obtain rfl := h.relationship _ r r' hr hw
      obtain ⟨hstart, hstop⟩ := hi.ends _ r' hw
      rcases (by simpa [Relationship.touches] using htouch : r'.start = id ∨ r'.stop = id) with
        rfl | rfl
      · simp [hgone] at hstart
      · simp [hgone] at hstop
  · obtain ⟨hstart, hstop⟩ := hi.ends r.id r ((h.createdRelationships r).1 hr).1
    have hin : w.nodes.has id = true := by
      rcases (by simpa using hid : id = r.start ∨ id = r.stop) with rfl | rfl
      · exact hstart
      · exact hstop
    rcases hbefore : s.nodes.has id with _ | _
    · exact Or.inl ((h.created id).2 ⟨hin, hbefore⟩)
    · exact Or.inr rfl

end Tracks

/-! ### Commits -/

namespace World
variable {L H : Type} {react : Reaction L H} {hooks : Set Nat} {schema : Schema}
  {locks : LockTable} {table : Assoc Nat (CommitHook L)} {host : H} {w₀ w₁ w₂ w' : World L H}
  {log₀ log₁ : List CommitRecord} {h n : Nat} {caller : Caller} {t : Transaction}
  {c : TransactionContext} {ds : List (Delivery L)} {e : Failure}

/-- Events can all be told of, so that a dispatch that fails ends with a listener that did. -/
theorem Dispatched.failed_delivery {ls : List L} {steps : List PlanStep}
    (h : Dispatched ls steps ds (.error e)) {es : List Event} (hsteps : steps = es.map .ok) :
    ∃ d ∈ ds, d.answer = .error e := by
  cases h with
  | vetoed es' event rest before l after x hls => exact ⟨⟨l, event, .error e⟩, by simp, rfl⟩
  | stuck es' x rest =>
    have hin : .error e ∈ es.map Except.ok := by simp [← hsteps]
    simp at hin

/-- A transaction that began somewhere in a run, as it is later on: its change set leads from the
state that was committed then, and its working copy is intact. -/
theorem open_after_begin (h₀ : Reaches hooks (start schema locks table host) log₀ w₀)
    (h₁ : Reaches hooks (w₀.begin h caller).2 log₁ w₁)
    (ht : w₁.transaction? (w₀.begin h caller).1 = some (t, c)) :
    w₀.graph.committed.Tidy ∧ Tracks w₀.graph.committed t.working t.changes ∧
      t.working.Intact w₁.graph.schema ∧ c = { txn := t.txn, caller := t.caller } := by
  have hstart := sound_start schema locks table host fun _ => {}
  obtain ⟨o₀, hs₀, -⟩ := h₀.sound hstart
  have hbegun := hs₀.begin h caller
  obtain ⟨o₁, hs₁, -⟩ := h₁.sound hbegun
  obtain ⟨hget, hc⟩ := transaction?_eq_some.1 ht
  have htracks := tracks_after_begin (h₀.moves hstart) (h₁.moves hbegun) hget
  have hintact := Moves.intact (.single (.begin caller rfl : Move {h} w₀ _)) hs₀
    fun g => (h₀.moves hstart).intact_of_start
  refine ⟨hs₀.tidy, htracks, ?_, hs₁.contexts _ t c hget hc⟩
  exact (h₁.moves hbegun).intact hbegun hintact _ (Or.inr ⟨_, t, hget, rfl⟩)

/-- An attempt fails for one of these reasons, if its plan consists of events. -/
theorem Attempted.cause (h : Attempted react w₁ n t c ds w₂ (.error e)) {es : List Event}
    (hsteps : EventPlan.steps (w₁.hook t.hook).settings.strictRehydration
      (t.working.factory w₁.graph.schema) t.changes = es.map .ok) :
    t.changes.conflict? w₁.graph.committed = some e ∨ (∃ d ∈ ds, d.answer = .error e) ∨
      t.changes.conflict? w₂.graph.committed = some e := by
  generalize hr : (.error e : Except Failure Unit) = r at h
  cases h with
  | stale hstale =>
    obtain rfl := Except.error.inj hr
    exact Or.inl hstale
  | refused _ _ hd =>
    obtain rfl := Except.error.inj hr
    exact Or.inr (Or.inl (hd.failed_delivery hsteps))
  | dispatched =>
    cases hfits : t.changes.conflict? w₂.graph.committed with
    | none => simp [hfits, reported] at hr
    | some e' =>
      rw [hfits] at hr
      obtain rfl := Except.error.inj hr
      exact Or.inr (Or.inr rfl)

theorem Attempted.eq_of_stale {r : Except Failure Unit} (h : Attempted react w₁ n t c ds w₂ r)
    (hstale : t.changes.conflict? w₁.graph.committed = some e) : r = .error e := by
  cases h with
  | stale hstale' => rw [Option.some.inj (hstale'.symm.trans hstale)]
  | refused hfresh | dispatched hfresh => simp [hfresh] at hstale

/-- If nothing was committed since a transaction began, its commit fails if a NaN is overwritten.
Otherwise it fails only if a listener fails, or commits something while it is told. -/
theorem quiet_commit (h₀ : Reaches hooks (start schema locks table host) log₀ w₀)
    (h₁ : Reaches hooks (w₀.begin h caller).2 [] w₁) {r : Except Failure CommitSummary}
    (hcommit : w₁.commit react (w₀.begin h caller).1 = some (r, w')) :
    ∃ t c, w₁.transaction? (w₀.begin h caller).1 = some (t, c) ∧
      (t.changes.overwritesNaN w₀.graph.committed = true →
        ∃ reason, r = .error (.conflict reason)) ∧
      (t.changes.overwritesNaN w₀.graph.committed = false → ∀ e, r = .error e →
        ∃ ds w₂, Attempted react w₁ (w₀.begin h caller).1 t c ds w₂ (.error e) ∧
          ((∃ d ∈ ds, d.answer = .error e) ∨ w₂.graph.committed ≠ w₀.graph.committed)) := by
  obtain ⟨t, c, ht⟩ := open_of_commit hcommit
  obtain ⟨htidy, htracks, hintact, hctx⟩ := open_after_begin h₀ h₁ ht
  have hquiet : w₁.graph.committed = w₀.graph.committed := h₁.committed_eq
  have hfits := (t.changes.conflict?_eq_none_iff _).trans (htracks.fits_start_iff htidy hintact)
  obtain ⟨ds, w₂, hspec⟩ := commit_spec ht (by rw [hctx]) (by rw [hctx]) hcommit
  refine ⟨t, c, ht, fun hnan => ?_, fun hnan e hr => ?_⟩
  · cases hconflict : t.changes.conflict? w₁.graph.committed with
    | none =>
      rw [hquiet, hfits, hnan] at hconflict
      simp at hconflict
    | some e =>
      obtain ⟨reason, rfl⟩ := ChangeSet.conflict_of_conflict? hconflict
      cases r with
      | error e => exact ⟨reason, congrArg _ (Except.error.inj (hspec.1.eq_of_stale hconflict))⟩
      | ok s => simpa using hspec.1.eq_of_stale hconflict
  · subst hr
    refine ⟨ds, w₂, hspec.1, ?_⟩
    rcases hspec.1.cause (EventPlan.steps_eq htracks hintact _) with hstale | hfailed | hstale
    · rw [hquiet, hfits.2 hnan] at hstale
      simp at hstale
    · exact Or.inl hfailed
    · refine Or.inr fun hsame => ?_
      rw [hsame, hfits.2 hnan] at hstale
      simp at hstale

/-! ### A measurement without a result -/

/-- A client commits a note with a value that is not a number. -/
def measured : World Unit Unit :=
  (perform silent
    [.begin 0 .superUser,
      .operate 0 (.createNode (.root "note") [("x", .float ⟨0x7FF8000000000000⟩)]), .commit 0]
    blank).get rfl

/-- It then begins to write a number in its place. -/
def corrected : World Unit Unit :=
  (perform silent [.operate 1 (.setProperty ⟨1⟩ (.named "x") (.int 1))]
    (measured.begin 0 .superUser).2).get rfl

theorem measured_reached : ∃ log, Reaches {0} blank log measured := by
  refine perform_reaches lawful_silent (sound_start _ _ _ _ fun _ => {}) ?_
    (Option.some_get rfl).symm
  simp [Action.allowed]

theorem corrected_reached : Reaches {0} (measured.begin 0 .superUser).2 [] corrected :=
  (Reaches.refl _).operation (n := 1) (o := .setProperty ⟨1⟩ (.named "x") (.int 1)) rfl

/-- The commit conflicts, and yet nobody else committed anything. -/
theorem quiet_commit_conflicts :
    ∃ log w', Reaches {0} blank log measured ∧
      Reaches {0} (measured.begin 0 .superUser).2 [] corrected ∧
      corrected.commit silent (measured.begin 0 .superUser).1 =
        some (.error (.conflict "n1.x was changed by another transaction"), w') := by
  obtain ⟨log, hmeasured⟩ := measured_reached
  exact ⟨log, _, hmeasured, corrected_reached, rfl⟩

/-- Or it begins to write another property. -/
def completed : World Unit Unit :=
  (perform silent [.operate 1 (.setProperty ⟨1⟩ (.named "y") (.int 1))]
    (measured.begin 0 .superUser).2).get rfl

theorem completed_reached : Reaches {0} (measured.begin 0 .superUser).2 [] completed :=
  (Reaches.refl _).operation (n := 1) (o := .setProperty ⟨1⟩ (.named "y") (.int 1)) rfl

/-- The first conflicts because what it overwrites does not equal itself; the other one overwrites
nothing of the kind, and a listener that fails is the reason. -/
theorem quiet_commit_corrected :
    (∃ t c reason w', corrected.transaction? 1 = some (t, c) ∧
      t.changes.overwritesNaN measured.graph.committed = true ∧
      corrected.commit silent 1 = some (.error (.conflict reason), w')) ∧
    ∃ t c w' ds w₂, completed.transaction? 1 = some (t, c) ∧
      t.changes.overwritesNaN measured.graph.committed = false ∧
      completed.commit guard 1 = some (.error (.vetoed "closed"), w') ∧
      Attempted guard completed 1 t c ds w₂ (.error (.vetoed "closed")) ∧
      ((∃ d ∈ ds, d.answer = .error (.vetoed "closed")) ∨
        w₂.graph.committed ≠ measured.graph.committed) := by
  obtain ⟨log, hmeasured⟩ := measured_reached
  constructor
  · obtain ⟨r, w', hcommit⟩ : ∃ r w', corrected.commit silent 1 = some (r, w') := ⟨_, _, rfl⟩
    obtain ⟨t, c, ht, hconflict, -⟩ := quiet_commit hmeasured corrected_reached hcommit
    have hnan : (corrected.transaction? 1).map
        (·.1.changes.overwritesNaN measured.graph.committed) = some true := rfl
    rw [show corrected.transaction? 1 = some (t, c) from ht] at hnan
    obtain ⟨reason, rfl⟩ := hconflict (Option.some.inj hnan)
    exact ⟨t, c, reason, w', ht, Option.some.inj hnan, hcommit⟩
  · obtain ⟨w', hcommit⟩ : ∃ w', completed.commit guard 1 =
        some (.error (.vetoed "closed"), w') := ⟨_, rfl⟩
    obtain ⟨t, c, ht, -, hfailed⟩ := quiet_commit hmeasured completed_reached hcommit
    have hnan : (completed.transaction? 1).map
        (·.1.changes.overwritesNaN measured.graph.committed) = some false := rfl
    rw [show completed.transaction? 1 = some (t, c) from ht] at hnan
    obtain ⟨ds, w₂, hattempted, hcause⟩ := hfailed (Option.some.inj hnan) _ rfl
    exact ⟨t, c, w', ds, w₂, ht, Option.some.inj hnan, hcommit, hattempted, hcause⟩

end World
end EntityGraph
