import EntityGraph.Proofs.Runs

/-!
How transactions end. The attempt of a commit goes on until its first failure: the change set does
not fit what is committed, the dispatch fails, or the change set does not fit any more. Only an
attempt without a failure has its changes applied; any other ends like a rollback.

Main statements: `commit_spec` — the two ways in which a commit ends; `commit_reaches` and
`rollback_reaches` — both are runs if listeners make none but runs.
-/

namespace EntityGraph.World
variable {L H : Type}

/-- How the attempt of a commit goes, with what was delivered and the world that it leaves. -/
inductive Attempted (react : Reaction L H) (w : World L H) (n : Nat) (t : Transaction)
    (c : TransactionContext) : List (Delivery L) → World L H → Except Failure Unit → Prop
  /-- The change set does not fit what is committed. -/
  | stale {e} (h : t.changes.conflict? w.graph.committed = some e) :
    Attempted react w n t c [] (w.close n) (.error e)
  /-- A listener fails, or an object cannot be found. -/
  | refused {ds w₁ e} (h : t.changes.conflict? w.graph.committed = none)
    (ht : Told react c.caller c.txn (w.close n) ds w₁)
    (hd : Dispatched (w.hook t.hook).listeners.snapshot
      (EventPlan.steps (w.hook t.hook).settings.strictRehydration
        (t.working.factory w.graph.schema) t.changes) ds (.error e)) :
    Attempted react w n t c ds w₁ (.error e)
  /-- The dispatch is complete, and the change set does not fit any more or still does. -/
  | dispatched {ds w₁} (h : t.changes.conflict? w.graph.committed = none)
    (ht : Told react c.caller c.txn (w.close n) ds w₁)
    (hd : Dispatched (w.hook t.hook).listeners.snapshot
      (EventPlan.steps (w.hook t.hook).settings.strictRehydration
        (t.working.factory w.graph.schema) t.changes) ds (.ok ())) :
    Attempted react w n t c ds w₁ (reported (t.changes.conflict? w₁.graph.committed))

/-- The world in which the changes of a transaction are applied, if its dispatch completes. -/
def announced? (react : Reaction L H) (w : World L H) (n : Nat) : Option (World L H) :=
  match w.transaction? n with
  | none => none
  | some (t, c) =>
    match beforeCommit react t.hook c t.changes (t.working.factory w.graph.schema) (w.close n) with
    | some (.ok (.committed _), _, w₁) => some w₁
    | _ => none

variable {react : Reaction L H} {w w' w₁ : World L H} {c c' : TransactionContext}

theorem rollBack_recordFailure (hc : c.failure = none) (e : Failure) :
    (c.recordFailure e).rollBack =
      .ok (some e, { c with status := .rolledBack, failure := none }) := by
  simp [TransactionContext.rollBack, TransactionContext.recordFailure, hc]

theorem beforeCommit_spec {h : Nat} {changes : ChangeSet} {f : EntityFactory}
    {r : Except Failure CommitOutcome} (hc : c.status = .active)
    (hb : beforeCommit react h c changes f w = some (r, c', w')) :
    ∃ ds d, Told react c.caller c.txn w ds w' ∧
      Dispatched (w.hook h).listeners.snapshot
        (EventPlan.steps (w.hook h).settings.strictRehydration f changes) ds d ∧
      match d with
      | .ok () => r = .ok (.committed (EventPlan.summary
          (w.hook h).settings.strictRehydration f changes c.txn)) ∧
          c' = { c with status := .prepared }
      | .error e => r = .ok (.rolledBack c.txn e) ∧ c' = c.recordFailure e := by
  have hensure : c.ensure .active = .ok () := by rw [TransactionContext.ensure, if_pos hc]
  simp only [beforeCommit, hensure] at hb
  split at hb
  · simp at hb
  · next e w₁ hdispatch =>
    simp only [Option.some.injEq, Prod.mk.injEq] at hb
    obtain ⟨rfl, rfl, rfl⟩ := hb
    obtain ⟨ds, htold, hds⟩ := dispatch_spec hdispatch
    exact ⟨ds, _, htold, hds, rfl, rfl⟩
  · next w₁ hdispatch =>
    obtain ⟨ds, htold, hds⟩ := dispatch_spec hdispatch
    have hprepare : c.prepare = .ok { c with status := .prepared } := by
      simp [TransactionContext.prepare, hensure, bind, Except.bind, pure, Except.pure]
    simp only [hprepare, Option.some.injEq, Prod.mk.injEq] at hb
    obtain ⟨rfl, rfl, rfl⟩ := hb
    exact ⟨ds, _, htold, hds, rfl, rfl⟩

/-- An attempt that fails is rolled back, and its failure is what comes of it. -/
def RolledBack (react : Reaction L H) (n : Nat) (t : Transaction) (c : TransactionContext)
    (e : Failure) (w₁ w' : World L H) : Prop :=
  ∃ ds w₂, Told react c.caller c.txn w₁ ds w₂ ∧ RollbackTold w₁ t.hook ds ∧
    afterRollback react t.hook (c.recordFailure e) w₁ = some (.error e, w₂) ∧
    w' = w₂.forget n t.txn

theorem rolledBack_of_afterRollback {n : Nat} {t : Transaction} {e : Failure}
    {r : Except Failure Unit} (hc : c.failure = none)
    (h : afterRollback react t.hook (c.recordFailure e) w₁ = some (r, w')) :
    r = .error e ∧ RolledBack react n t c e w₁ (w'.forget n t.txn) := by
  obtain ⟨ds, htold, hds, rfl⟩ := afterRollback_spec (rollBack_recordFailure hc e) h
  exact ⟨rfl, ds, w', htold, hds, h, rfl⟩

theorem open_of_commit {n : Nat} {r : Except Failure CommitSummary}
    (h : w.commit react n = some (r, w')) : ∃ t c, w.transaction? n = some (t, c) := by
  cases ht : w.transaction? n with
  | none => simp [commit, ht] at h
  | some s => exact ⟨s.1, s.2, rfl⟩

/-- How a commit comes to its end: the change set does not fit; or listeners were told, and one of
them failed, or the change set does not fit any more, or still does. -/
theorem commit_eq_some {n : Nat} {t : Transaction} {r : Except Failure CommitSummary}
    (ht : w.transaction? n = some (t, c)) (hactive : c.status = .active) (hc : c.failure = none)
    (h : w.commit react n = some (r, w')) :
    (∃ e, t.changes.conflict? w.graph.committed = some e ∧ r = .error e ∧
      RolledBack react n t c e (w.close n) w') ∨
    t.changes.conflict? w.graph.committed = none ∧ ∃ o c' w₁,
      beforeCommit react t.hook c t.changes (t.working.factory w.graph.schema) (w.close n) =
        some (.ok o, c', w₁) ∧
      match o with
      | .rolledBack _ e => r = .error e ∧ RolledBack react n t c e w₁ w'
      | .committed s =>
        match t.changes.conflict? w₁.graph.committed with
        | some e => r = .error e ∧ RolledBack react n t c e w₁ w'
        | none => r = .ok s ∧ w' = (w₁.settle n t).count t.hook .recordCommit := by
  simp only [commit, ht] at h
  obtain ⟨⟨r', w₂⟩, hfinish, he⟩ := Option.map_eq_some_iff.1 h
  obtain ⟨rfl, rfl⟩ := Prod.mk.inj he
  simp only [finishCommit] at hfinish
  split at hfinish
  · next e hstale =>
    obtain ⟨⟨r₂, w₂⟩, hrollback, he⟩ := Option.map_eq_some_iff.1 hfinish
    obtain ⟨rfl, hrolled⟩ := rolledBack_of_afterRollback (n := n) hc hrollback
    obtain ⟨rfl, rfl⟩ := Prod.mk.inj he
    exact Or.inl ⟨e, hstale, rfl, hrolled⟩
  · next hfresh =>
    refine Or.inr ⟨hfresh, ?_⟩
    cases hbefore : beforeCommit react t.hook c t.changes
        (t.working.factory (w.close n).graph.schema) (w.close n) with
    | none => simp [hbefore] at hfinish
    | some s =>
      obtain ⟨rb, cb, wb⟩ := s
      obtain ⟨ds, d, -, -, hd⟩ := beforeCommit_spec hactive hbefore
      rw [hbefore] at hfinish
      cases d with
      | error e =>
        obtain ⟨rfl, rfl⟩ := hd
        obtain ⟨⟨r₂, w₂⟩, hrollback, he⟩ := Option.map_eq_some_iff.1 hfinish
        obtain ⟨rfl, hrolled⟩ := rolledBack_of_afterRollback (n := n) hc hrollback
        obtain ⟨rfl, rfl⟩ := Prod.mk.inj he
        exact ⟨_, _, wb, hbefore, rfl, hrolled⟩
      | ok =>
        obtain ⟨rfl, rfl⟩ := hd
        refine ⟨_, _, wb, hbefore, ?_⟩
        simp only at hfinish ⊢
        cases hfits : t.changes.conflict? wb.graph.committed with
        | some e =>
          rw [hfits] at hfinish
          obtain ⟨⟨r₂, w₂⟩, hrollback, he⟩ := Option.map_eq_some_iff.1 hfinish
          obtain ⟨rfl, hrolled⟩ := rolledBack_of_afterRollback (n := n) hc hrollback
          obtain ⟨rfl, rfl⟩ := Prod.mk.inj he
          exact ⟨rfl, hrolled⟩
        | none =>
          rw [hfits] at hfinish
          simp only [afterCommit, TransactionContext.commit, TransactionContext.ensure, if_true,
            bind, Except.bind, pure, Except.pure] at hfinish
          obtain ⟨rfl, rfl⟩ := Prod.mk.inj (Option.some.inj hfinish)
          exact ⟨rfl, rfl⟩

/-- How a commit ends: with the first failure of its attempt, after a rollback; or with its changes
applied. -/
theorem commit_spec {n : Nat} {t : Transaction} {r : Except Failure CommitSummary}
    (ht : w.transaction? n = some (t, c)) (hactive : c.status = .active) (hc : c.failure = none)
    (h : w.commit react n = some (r, w')) :
    ∃ ds w₁, match r with
      | .error e => Attempted react w n t c ds w₁ (.error e) ∧ RolledBack react n t c e w₁ w'
      | .ok _ => Attempted react w n t c ds w₁ (.ok ()) ∧ w.announced? react n = some w₁ ∧
          t.changes.conflict? w₁.graph.committed = none ∧
          w' = (w₁.settle n t).count t.hook .recordCommit := by
  rcases commit_eq_some ht hactive hc h with ⟨e, hstale, rfl, hrolled⟩ |
    ⟨hfresh, o, c', w₁, hbefore, hend⟩
  · exact ⟨[], _, .stale hstale, hrolled⟩
  · obtain ⟨ds, d, htold, hds, hd⟩ := beforeCommit_spec hactive hbefore
    refine ⟨ds, w₁, ?_⟩
    cases d with
    | error e =>
      obtain ⟨he, rfl⟩ := hd
      obtain rfl := Except.ok.inj he
      obtain ⟨rfl, hrolled⟩ := hend
      exact ⟨.refused hfresh htold hds, hrolled⟩
    | ok =>
      obtain ⟨he, rfl⟩ := hd
      obtain rfl := Except.ok.inj he
      have hattempt := Attempted.dispatched (w := w) (n := n) hfresh htold hds
      cases hfits : t.changes.conflict? w₁.graph.committed with
      | some e =>
        rw [hfits] at hend hattempt
        obtain ⟨rfl, hrolled⟩ := hend
        exact ⟨hattempt, hrolled⟩
      | none =>
        rw [hfits] at hend hattempt
        obtain ⟨rfl, rfl⟩ := hend
        refine ⟨hattempt, ?_, rfl, rfl⟩
        simp only [announced?, ht, hbefore]

theorem rollback_eq_some {n : Nat} {r : Except Failure Unit}
    (h : w.rollback react n = some (r, w')) :
    ∃ t c w₂, w.transaction? n = some (t, c) ∧
      afterRollback react t.hook c (w.close n) = some (r, w₂) ∧ w' = w₂.forget n t.txn := by
  rw [rollback] at h
  split at h
  · simp at h
  · next t c ht =>
    obtain ⟨⟨r', w₂⟩, hafter, he⟩ := Option.map_eq_some_iff.1 h
    obtain ⟨rfl, rfl⟩ := Prod.mk.inj he
    exact ⟨t, c, w₂, ht, hafter, rfl⟩

/-- Once the dispatch is complete and the change set fits, nothing fails any more. -/
theorem commit_of_announced {n : Nat} {t : Transaction} (ht : w.transaction? n = some (t, c))
    (hactive : c.status = .active) (hfresh : t.changes.conflict? w.graph.committed = none)
    (ha : w.announced? react n = some w₁)
    (hfits : t.changes.conflict? w₁.graph.committed = none) :
    ∃ s, w.commit react n = some (.ok s, (w₁.settle n t).count t.hook .recordCommit) := by
  simp only [announced?, ht] at ha
  split at ha
  · next s c' w₂ hbefore =>
    obtain rfl := Option.some.inj ha
    obtain ⟨ds, d, -, -, hd⟩ := beforeCommit_spec hactive hbefore
    cases d with
    | error e => simp at hd
    | ok =>
      obtain ⟨-, rfl⟩ := hd
      refine ⟨s, ?_⟩
      have hclose : (w.close n).graph = w.graph := rfl
      simp only [commit, ht, finishCommit, hclose, hfresh, hbefore, hfits, afterCommit,
        TransactionContext.commit, TransactionContext.ensure, if_true, bind, Except.bind, pure,
        Except.pure, Option.map_some, Except.map]
      rfl
  · simp at ha

/-! ### Endings are runs -/

variable {hooks : Set Nat}

theorem Attempted.told {n : Nat} {t : Transaction} {ds : List (Delivery L)}
    {r : Except Failure Unit} (h : Attempted react w n t c ds w₁ r) :
    Told react c.caller c.txn (w.close n) ds w₁ := by
  cases h with
  | stale => exact .nil _
  | refused _ ht _ => exact ht
  | dispatched _ ht _ => exact ht

theorem Attempted.reaches (hl : Lawful hooks react) {n : Nat} {t : Transaction}
    {ds : List (Delivery L)} {r : Except Failure Unit} (h : Attempted react w n t c ds w₁ r) :
    ∃ log, Reaches hooks (w.close n) log w₁ := h.told.reaches hl

theorem afterRollback_told {h : Nat} {r : Except Failure Unit}
    (hr : afterRollback react h c w = some (r, w')) :
    ∃ ds, Told react c.caller c.txn w ds w' := by
  cases hc : c.rollBack with
  | error e =>
    simp only [afterRollback, hc] at hr
    obtain ⟨-, rfl⟩ := Prod.mk.inj (Option.some.inj hr)
    exact ⟨[], .nil _⟩
  | ok s =>
    obtain ⟨ds, htold, -⟩ := afterRollback_spec hc hr
    exact ⟨ds, htold⟩

/-- A failed attempt is a run of listeners between the closing and the end of the transaction. -/
theorem RolledBack.reaches (hl : Lawful hooks react) {n : Nat} {t : Transaction} {e : Failure}
    (h : RolledBack react n t c e w₁ w') :
    ∃ log w₂, Reaches hooks w₁ log w₂ ∧ w' = w₂.forget n t.txn := by
  obtain ⟨ds, w₂, htold, -, -, rfl⟩ := h
  obtain ⟨log, hrun⟩ := htold.reaches hl
  exact ⟨log, w₂, hrun, rfl⟩

theorem commit_reaches (hl : Lawful hooks react) {n : Nat} {t : Transaction}
    {r : Except Failure CommitSummary} (ht : w.transaction? n = some (t, c))
    (hactive : c.status = .active) (hc : c.failure = none)
    (h : w.commit react n = some (r, w')) : ∃ log, Reaches hooks w log w' := by
  obtain ⟨ds, w₁, hspec⟩ := commit_spec ht hactive hc h
  cases r with
  | error e =>
    obtain ⟨hattempt, hrolled⟩ := hspec
    obtain ⟨log, hrun⟩ := hattempt.reaches hl
    obtain ⟨log', w₂, hrun', rfl⟩ := hrolled.reaches hl
    exact ⟨_, (Reaches.refl w).rollback ht (hrun.trans hrun')⟩
  | ok =>
    obtain ⟨hattempt, -, hfits, rfl⟩ := hspec
    obtain ⟨log, hrun⟩ := hattempt.reaches hl
    exact ⟨_, ((Reaches.refl w).commit ht hrun hfits).aside (aside_count _ _ _)⟩

theorem rollback_reaches (hl : Lawful hooks react) {n : Nat} {r : Except Failure Unit}
    (h : w.rollback react n = some (r, w')) : ∃ log, Reaches hooks w log w' := by
  obtain ⟨t, c, w₂, ht, hafter, rfl⟩ := rollback_eq_some h
  obtain ⟨ds, htold⟩ := afterRollback_told hafter
  obtain ⟨log, hrun⟩ := htold.reaches hl
  exact ⟨_, (Reaches.refl w).rollback ht hrun⟩

end EntityGraph.World
