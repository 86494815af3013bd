import EntityGraph.Proofs.Isolation

/-!
A commit is all or nothing. An attempt that fails leaves nothing of the transaction behind, is
rolled back before its listeners and reports its first failure; an attempt that does not fail has
its changes applied, and nothing can fail after that.

Main statement: `commit_all_or_nothing`.
-/

namespace EntityGraph.World
variable {L H : Type}

/-- Nothing of a transaction is left: only what others committed while listeners were told has
changed the committed state. -/
structure Undone (hooks : Set Nat) (w w' : World L H) (n : Nat) (t : Transaction) : Prop where
  others : ∃ log w₂, Reaches hooks (w.close n) log w₂ ∧ (∀ r ∈ log, r.handle ≠ n) ∧
    w'.graph.committed = replay w.graph.committed log
  createdNodes : ∀ id ∈ t.changes.createdNodes, w'.graph.committed.nodes.has id = false
  createdRelationships : ∀ r ∈ t.changes.createdRelationships,
    w'.graph.committed.relationships.get? r.id = none
  claims : w'.graph.claims.get? t.txn = none
  gone : w'.transactions.get? n = none

/-- A commit failed: with the first failure of its attempt, which told of no rollback, and after a
rollback. -/
structure Failed (hooks : Set Nat) (react : Reaction L H) (w w' : World L H) (n : Nat)
    (t : Transaction) (c : TransactionContext) (e : Failure) : Prop where
  attempt : ∃ ds w₁, Attempted react w n t c ds w₁ (.error e) ∧ (∀ d ∈ ds, d.event ≠ .rollback) ∧
    RolledBack react n t c e w₁ w'
  context : ∃ c', (c.recordFailure e).rollBack = .ok (some e, c') ∧ c'.status = .rolledBack
  undone : Undone hooks w w' n t

/-- A commit succeeded: its attempt told of no rollback, its changes are applied to what was
committed then, and no listener is told of anything more. -/
structure Succeeded (react : Reaction L H) (w w' : World L H) (n : Nat) (t : Transaction)
    (c : TransactionContext) : Prop where
  attempt : ∃ ds w₁, Attempted react w n t c ds w₁ (.ok ()) ∧ (∀ d ∈ ds, d.event ≠ .rollback) ∧
    w' = (w₁.settle n t).count t.hook .recordCommit ∧
    AsSeen w₁.graph.committed t.working w'.graph.committed t.changes
  claims : w'.graph.claims.get? t.txn = none
  gone : w'.transactions.get? n = none

/-- How a commit ended. -/
def Concluded (hooks : Set Nat) (react : Reaction L H) (w w' : World L H) (n : Nat)
    (t : Transaction) (c : TransactionContext) : Except Failure CommitSummary → Prop
  | .error e => Failed hooks react w w' n t c e
  | .ok _ => Succeeded react w w' n t c

variable {react : Reaction L H} {hooks : Set Nat} {w w' w₁ : World L H} {n : Nat}
  {t : Transaction} {c : TransactionContext} {origin : Nat → GraphState}

/-- The deliveries of a dispatch are of events of its plan. -/
theorem Dispatched.event_mem {ls : List L} {steps : List PlanStep} {ds : List (Delivery L)}
    {r : Except Failure Unit} (h : Dispatched ls steps ds r) {d : Delivery L} (hd : d ∈ ds) :
    .ok d.event ∈ steps := by
  have htaken : ∀ {es : List Event}, d ∈ es.flatMap (taken ls) → d.event ∈ es := by
    intro es hd
    obtain ⟨e, he, hd⟩ := List.mem_flatMap.1 hd
    obtain ⟨l, -, rfl⟩ := List.mem_map.1 hd
    exact he
  cases h with
  | complete es => exact List.mem_map_of_mem (htaken hd)
  | vetoed es e rest before l after x hls =>
    rcases List.mem_append.1 hd with hd | hd
    · exact List.mem_append_left _ (List.mem_map_of_mem (htaken hd))
    · refine List.mem_append_right _ (List.mem_cons.2 (Or.inl ?_))
      rcases List.mem_append.1 hd with hd | hd
      · obtain ⟨l', -, rfl⟩ := List.mem_map.1 hd
        rfl
      · rw [List.mem_singleton.1 hd]
  | stuck es x rest => exact List.mem_append_left _ (List.mem_map_of_mem (htaken hd))

/-- The attempt of a commit tells no listener of a rollback. -/
theorem Attempted.no_rollback {ds : List (Delivery L)} {r : Except Failure Unit}
    (h : Attempted react w n t c ds w₁ r) : ∀ d ∈ ds, d.event ≠ .rollback := by
  intro d hd he
  cases h with
  | stale => simp at hd
  | refused _ _ hds => exact rollback_notMem_steps _ _ _ (he ▸ hds.event_mem hd)
  | dispatched _ _ hds => exact rollback_notMem_steps _ _ _ (he ▸ hds.event_mem hd)

/-- A transaction that was closed and is then forgotten without having been applied. -/
theorem undone_of_reaches {log : List CommitRecord} {w₂ : World L H} (hs : Sound origin w)
    (ht : w.transaction? n = some (t, c)) (hrun : Reaches hooks (w.close n) log w₂) :
    Undone hooks w (w₂.forget n t.txn) n t := by
  obtain ⟨hclosed, hlog, o₂, hs₂, -⟩ := hs.closed ht hrun
  have htracks := hs₂.tracks n _ hclosed
  refine ⟨⟨log, w₂, hrun, hlog, hrun.committed_eq⟩, ?_, ?_, ?_, ?_⟩
  · intro id hid
    obtain ⟨hw, ho⟩ := (htracks.created id).1 hid
    rw [← Bool.not_eq_true]
    refine hs₂.nodes.unseen n id.raw ⟨_, hclosed, hw⟩ fun hsees => ?_
    exact Bool.false_ne_true (ho.symm.trans hsees.2)
  · intro r hr
    obtain ⟨hw, ho⟩ := (htracks.createdRelationships r).1 hr
    rw [← Assoc.has_eq_false_iff, ← Bool.not_eq_true]
    exact hs₂.relationships.unseen n r.id.raw
      ⟨_, hclosed, (Assoc.has_eq_true_iff _ _).2 ⟨r, hw⟩⟩ (Sound.not_originSees ho)
  · exact (Assoc.get?_without _ _ _).trans (if_pos rfl)
  · rw [get?_forget, if_pos rfl]

theorem concluded_of_commit (hl : Lawful hooks react) (hs : Sound origin w)
    {r : Except Failure CommitSummary} (ht : w.transaction? n = some (t, c))
    (h : w.commit react n = some (r, w')) : Concluded hooks react w w' n t c r := by
  obtain ⟨hactive, hfailure⟩ := hs.active ht
  obtain ⟨ds, w₁, hspec⟩ := commit_spec ht hactive hfailure h
  cases r with
  | error e =>
    obtain ⟨hattempt, hrolled⟩ := hspec
    refine ⟨⟨ds, w₁, hattempt, hattempt.no_rollback, hrolled⟩,
      ⟨_, rollBack_recordFailure hfailure e, rfl⟩, ?_⟩
    obtain ⟨log, hrun⟩ := hattempt.reaches hl
    obtain ⟨log', w₂, hrun', rfl⟩ := hrolled.reaches hl
    exact undone_of_reaches hs ht (hrun.trans hrun')
  | ok s =>
    obtain ⟨hattempt, -, -, rfl⟩ := hspec
    obtain ⟨log, hrun⟩ := hattempt.reaches hl
    obtain ⟨hclosed, -, o₂, hs₂, -⟩ := hs.closed ht hrun
    have hseen := (hs₂.tracks n _ hclosed).asSeen (hs₂.origins n _ hclosed)
      fun id r r' => hs₂.records n _ id r r' hclosed
    refine ⟨⟨ds, w₁, hattempt, hattempt.no_rollback, rfl, hseen⟩, ?_, ?_⟩
    · exact (Assoc.get?_without _ _ _).trans (if_pos rfl)
    · exact (get?_forget _ n t.txn n).trans (if_pos rfl)

/-- A rollback leaves nothing of the transaction, and its listeners hear of it once. -/
theorem undone_of_rollback (hl : Lawful hooks react) (hs : Sound origin w)
    {r : Except Failure Unit} (ht : w.transaction? n = some (t, c))
    (h : w.rollback react n = some (r, w')) :
    r = .ok () ∧ Undone hooks w w' n t ∧
      ∃ ds w₂, Told react c.caller c.txn (w.close n) ds w₂ ∧ RollbackTold w t.hook ds ∧
        w' = w₂.forget n t.txn := by
  obtain ⟨t', c', w₂, ht', hafter, rfl⟩ := rollback_eq_some h
  obtain ⟨rfl, rfl⟩ := Prod.mk.inj (Option.some.inj (ht.symm.trans ht'))
  obtain ⟨hget, hc⟩ := transaction?_eq_some.1 ht
  have hctx := hs.contexts n t c hget hc
  obtain ⟨ds', htold'⟩ := afterRollback_told hafter
  obtain ⟨log, hrun⟩ := htold'.reaches hl
  have hroll : c.rollBack = .ok (none, { c with status := .rolledBack, failure := none }) := by
    rw [hctx]
    rfl
  obtain ⟨ds, htold, hds, hr⟩ := afterRollback_spec hroll hafter
  exact ⟨hr, undone_of_reaches hs ht hrun, ds, w₂, htold, hds, rfl⟩

/-- A commit that fails leaves nothing of its transaction and reports its first failure, one that
succeeds has all its changes applied, nothing fails once they are, and nothing but a commit changes
the committed state. -/
theorem commit_all_or_nothing {schema : Schema} {locks : LockTable}
    {table : Assoc Nat (CommitHook L)} {host : H} {log : List CommitRecord}
    (hl : Lawful hooks react) (hw : Reaches hooks (start schema locks table host) log w) :
    (∀ n r w', w.commit react n = some (r, w') →
      ∃ t c, w.transaction? n = some (t, c) ∧ Concluded hooks react w w' n t c r) ∧
    (∀ n t c w₁, w.transaction? n = some (t, c) →
      t.changes.conflict? w.graph.committed = none → w.announced? react n = some w₁ →
      t.changes.conflict? w₁.graph.committed = none →
      ∃ s, w.commit react n = some (.ok s, (w₁.settle n t).count t.hook .recordCommit)) ∧
    (∀ n r w', w.rollback react n = some (r, w') →
      ∃ t c, w.transaction? n = some (t, c) ∧ r = .ok () ∧ Undone hooks w w' n t ∧
        ∃ ds w₂, Told react c.caller c.txn (w.close n) ds w₂ ∧ RollbackTold w t.hook ds ∧
          w' = w₂.forget n t.txn) ∧
    (∀ n o r w', w.onTransaction n (Operation.run o) = some (r, w') →
      w'.graph.committed = w.graph.committed) ∧
    ∀ h caller, (w.begin h caller).2.graph.committed = w.graph.committed := by
  obtain ⟨origin, hs, -⟩ := hw.sound (sound_start schema locks table host fun _ => {})
  refine ⟨fun n r w' h => ?_, fun n t c w₁ ht hfresh ha hfits => ?_, fun n r w' h => ?_,
    fun n o r w' h => ?_, fun _ _ => rfl⟩
  · obtain ⟨t, c, ht⟩ := open_of_commit h
    exact ⟨t, c, ht, concluded_of_commit hl hs ht h⟩
  · obtain ⟨hget, hc⟩ := transaction?_eq_some.1 ht
    have hctx := hs.contexts n t c hget hc
    exact commit_of_announced ht (by rw [hctx]) hfresh ha hfits
  · obtain ⟨t, c, -, ht, -⟩ := rollback_eq_some h
    exact ⟨t, c, ht, undone_of_rollback hl hs ht h⟩
  · obtain ⟨t, c, s, -, hrun, rfl⟩ := onTransaction_eq_some h
    exact (Operation.frame hrun).committed

/-- A listener that vetoes every commit. -/
def guard : Reaction Unit Unit := fun _ _ _ e w =>
  some (match e with
    | .commit => .error (.vetoed "closed")
    | _ => .ok (), w)

/-- A client creates a note. -/
def drafted : World Unit Unit :=
  (perform guard [.begin 0 .superUser, .operate 0 (.createNode (.root "note") [])] blank).get rfl

/-- The veto of a listener. -/
theorem commit_all_or_nothing_vetoed :
    ∃ t c w', drafted.commit guard 0 = some (.error (.vetoed "closed"), w') ∧
      Failed {0} guard drafted w' 0 t c (.vetoed "closed") := by
  have hl : Lawful {0} guard :=
    lawful_of_still fun _ _ _ _ _ _ _ h => (Prod.mk.inj (Option.some.inj h)).2.symm
  have hrun : ∃ log, Reaches {0} blank log drafted := by
    refine perform_reaches hl (sound_start _ _ _ _ fun _ => {}) ?_ (Option.some_get rfl).symm
    simp [Action.allowed]
  obtain ⟨log, hrun⟩ := hrun
  have hcommit : ∃ w', drafted.commit guard 0 = some (.error (.vetoed "closed"), w') := ⟨_, rfl⟩
  obtain ⟨w', hcommit⟩ := hcommit
  obtain ⟨t, c, -, hfailed⟩ := (commit_all_or_nothing hl hrun).1 0 _ w' hcommit
  exact ⟨t, c, w', hcommit, hfailed⟩

end EntityGraph.World
