import EntityGraph.Proofs.Clients
import EntityGraph.Proofs.Milestones
import Mathlib.Data.Set.Card

/-!
What a hook counts of transactions. The ends of a transaction are spread over several steps, between
which listeners make runs of their own, and what is counted depends on how they come out.

Main statement: `transactions_counted` — at each moment the counters say how many transactions have
begun, are open, have committed and were rolled back, and each end counts once, as what it reports.
-/

namespace EntityGraph.World
variable {L H : Type}

open Milestone

/-- What telling listeners comes to, one call after the other, between the counting of events. -/
inductive Calls (react : Reaction L H) (h : Nat) (caller : Caller) (txn : TxnId) (w : World L H) :
    World L H → Prop
  | refl : Calls react h caller txn w w
  | call {w₁ l e r w₂} (rest : Calls react h caller txn w w₁)
    (hr : react l caller txn e w₁ = some (r, w₂)) : Calls react h caller txn w w₂
  | event {w₁} (rest : Calls react h caller txn w w₁) :
    Calls react h caller txn w (w₁.count h .recordEvent)

/-- Whatever listeners do is a run of transactions of the hook. -/
def Accountable (k : Nat) (react : Reaction L H) : Prop :=
  ∀ l caller txn e w r w', react l caller txn e w = some (r, w') → ∃ hist, Tallied k w hist w'

variable {react : Reaction L H} {k h : Nat} {caller : Caller} {txn : TxnId} {w w' w₁ w₂ : World L H}
  {hist : List Milestone} {n : Nat} {t : Transaction} {c : TransactionContext}

/-! ### What listeners are told -/

theorem Calls.trans (h₁ : Calls react h caller txn w w₁) (h₂ : Calls react h caller txn w₁ w₂) :
    Calls react h caller txn w w₂ := by
  induction h₂ with
  | refl => exact h₁
  | call _ hr ih => exact ih.call hr
  | event _ ih => exact ih.event

theorem tell_calls {e : Event} {ls : List L} {r : Except Failure Unit}
    (ht : tell react caller txn e ls w = some (r, w')) : Calls react h caller txn w w' := by
  induction ls generalizing w with
  | nil =>
    obtain ⟨-, rfl⟩ : .ok () = r ∧ w = w' := by simpa [tell] using ht
    exact .refl
  | cons l ls ih =>
    rw [tell] at ht
    split at ht
    · next hl => exact (Calls.refl.call hl).trans (ih ht)
    · exact Calls.refl.call ht

theorem dispatch_calls {ls : List L} {steps : List PlanStep} {r : Except Failure Unit}
    (hd : dispatch react h ls c steps w = some (r, w')) : Calls react h c.caller c.txn w w' := by
  induction steps generalizing w with
  | nil =>
    obtain ⟨-, rfl⟩ : .ok () = r ∧ w = w' := by simpa [dispatch] using hd
    exact .refl
  | cons step steps ih =>
    cases step with
    | error x =>
      obtain ⟨-, rfl⟩ : .error x = r ∧ w = w' := by simpa [dispatch] using hd
      exact .refl
    | ok e =>
      rw [dispatch] at hd
      split at hd
      · next ht => exact (tell_calls ht).event.trans (ih hd)
      · exact tell_calls hd

theorem tellAll_calls {e : Event} {ls : List L} (ht : tellAll react caller txn e ls w = some w') :
    Calls react h caller txn w w' := by
  induction ls generalizing w with
  | nil =>
    obtain rfl : w = w' := by simpa [tellAll] using ht
    exact .refl
  | cons l ls ih =>
    obtain ⟨⟨r, w₁⟩, hl, hrest⟩ := Option.bind_eq_some_iff.1 ht
    exact (Calls.refl.call hl).trans (ih hrest)

theorem beforeCommit_calls {changes : ChangeSet} {f : EntityFactory} {c' : TransactionContext}
    {r : Except Failure CommitOutcome}
    (hb : beforeCommit react h c changes f w = some (r, c', w')) :
    Calls react h c.caller c.txn w w' := by
  simp only [beforeCommit] at hb
  split at hb
  · obtain ⟨-, -, rfl⟩ : _ ∧ _ ∧ w = w' := by simpa using hb
    exact .refl
  · split at hb
    · simp at hb
    · next hd =>
      obtain ⟨-, -, rfl⟩ : _ ∧ _ ∧ _ = w' := by simpa using hb
      exact dispatch_calls hd
    · next hd =>
      split at hb
      all_goals
        obtain ⟨-, -, rfl⟩ : _ ∧ _ ∧ _ = w' := by simpa using hb
        exact dispatch_calls hd

theorem afterRollback_calls {c' : TransactionContext} {cause : Option Failure}
    {r : Except Failure Unit} (hc : c.rollBack = .ok (cause, c'))
    (hr : afterRollback react h c w = some (r, w')) :
    Calls react h c.caller c.txn (w.count h .recordRollback) w' := by
  simp only [afterRollback, hc] at hr
  split at hr
  · obtain ⟨w₁, htell, he⟩ := Option.map_eq_some_iff.1 hr
    obtain ⟨-, rfl⟩ := Prod.mk.inj he
    exact (tellAll_calls htell).event
  · obtain ⟨-, rfl⟩ := Prod.mk.inj (Option.some.inj hr)
    exact .refl

theorem Calls.tallied (hl : Accountable k react) (hc : Calls react h caller txn w w₁) :
    ∃ hist, Tallied k w hist w₁ := by
  induction hc with
  | refl => exact ⟨[], .refl⟩
  | call _ hr ih =>
    obtain ⟨hist, hrun⟩ := ih
    obtain ⟨hist', hrun'⟩ := hl _ _ _ _ _ _ _ hr
    exact ⟨hist ++ hist', hrun.trans hrun'⟩
  | @event w₁ _ ih =>
    obtain ⟨hist, hrun⟩ := ih
    refine ⟨hist, hrun.aside (aside_count w₁ h _) ?_⟩
    rw [World.count, hook_setHook]
    split
    · next e => rw [e]; rfl
    · rfl

/-! ### Ends -/

/-- A transaction is closed and listeners are told; its end stays under way. -/
theorem tallied_of_close (hl : Accountable k react) (ht : w.transaction? n = some (t, c))
    (hn : n < w.nextTransaction) (hc : Calls react h caller txn (w.close n) w₁) :
    ∃ hist, Tallied k w hist w₁ ∧ n ∈ endingIn hist ∧ n < w₁.nextTransaction ∧
      w₁.transactions.get? n = some { t with context := none } := by
  obtain ⟨hget, -⟩ := transaction?_eq_some.1 ht
  obtain ⟨hist, hrun⟩ := hc.tallied hl
  have hclosed : (w.close n).transactions.get? n = some { t with context := none } := by
    rw [get?_close, if_pos rfl, hget]
    rfl
  obtain ⟨hget₁, hothers⟩ := hrun.closed hn hclosed rfl
  have hclose : Tallied k w [.closed n] (w.close n) := Tallied.refl.close ht
  have hending : n ∈ endingIn [.closed n] := Set.mem_insert n ∅
  exact ⟨_, hclose.trans hrun, ending_append hending hothers,
    Nat.lt_of_lt_of_le hn hrun.nextTransaction_le, hget₁⟩

/-- And then its rollback counts, and listeners are told of it. -/
theorem tallied_of_undo (hl : Accountable k react) (ht : w.transaction? n = some (t, c))
    (hn : n < w.nextTransaction) (before : Calls react h caller txn (w.close n) w₁)
    (after : Calls react h caller txn (w₁.count t.hook .recordRollback) w₂) :
    ∃ hist, Tallied k w hist w₂ ∧ .rolledBack n ∈ hist ∧
      w₂.transactions.get? n = some { t with context := none } := by
  obtain ⟨hist, hrun, hending, hn₁, hget⟩ := tallied_of_close hl ht hn before
  obtain ⟨hist', hrun'⟩ := after.tallied hl
  obtain ⟨hget', -⟩ := hrun'.closed hn₁ hget rfl
  have hundone := hrun.undo hending hget
  exact ⟨_, hundone.trans hrun', by simp, hget'⟩

theorem tallied_of_afterRollback (hl : Accountable k react) (ht : w.transaction? n = some (t, c))
    (hn : n < w.nextTransaction) {c' c₂ : TransactionContext} {cause : Option Failure}
    {r : Except Failure Unit} (hc : c'.rollBack = .ok (cause, c₂))
    (hr : afterRollback react t.hook c' w₁ = some (r, w₂))
    (before : Calls react t.hook c'.caller c'.txn (w.close n) w₁) :
    ∃ hist, Tallied k w hist (w₂.forget n t.txn) ∧ .rolledBack n ∈ hist := by
  obtain ⟨hist, hrun, hrolled, hget⟩ :=
    tallied_of_undo hl ht hn before (afterRollback_calls hc hr)
  have hforgotten := hrun.forget hrolled hget
  exact ⟨hist, hforgotten, hrolled⟩

theorem RolledBack.tallied (hl : Accountable k react) (ht : w.transaction? n = some (t, c))
    (hn : n < w.nextTransaction) (hc : c.failure = none) {e : Failure}
    (before : Calls react t.hook c.caller c.txn (w.close n) w₁)
    (hr : RolledBack react n t c e w₁ w') :
    ∃ hist, Tallied k w hist w' ∧ .rolledBack n ∈ hist := by
  obtain ⟨ds, w₂, -, -, hafter, rfl⟩ := hr
  exact tallied_of_afterRollback hl ht hn (rollBack_recordFailure hc e) hafter before

/-- A commit counts as one if it returns a summary, and otherwise as a rollback. -/
theorem commit_tallied (hl : Accountable k react) (ht : w.transaction? n = some (t, c))
    (hn : n < w.nextTransaction) (hactive : c.status = .active) (hc : c.failure = none)
    {r : Except Failure CommitSummary} (hcommit : w.commit react n = some (r, w')) :
    ∃ hist, Tallied k w hist w' ∧
      match r with
      | .ok _ => .committed n ∈ hist
      | .error _ => .rolledBack n ∈ hist := by
  rcases commit_eq_some ht hactive hc hcommit with ⟨e, -, rfl, hrolled⟩ |
    ⟨-, o, c', w₁, hbefore, hend⟩
  · exact hrolled.tallied hl ht hn hc .refl
  · have hcalls := beforeCommit_calls hbefore
    cases o with
    | rolledBack _ e =>
      obtain ⟨rfl, hrolled⟩ := hend
      exact hrolled.tallied hl ht hn hc hcalls
    | committed s =>
      cases hfits : t.changes.conflict? w₁.graph.committed with
      | some e =>
        rw [hfits] at hend
        obtain ⟨rfl, hrolled⟩ := hend
        exact hrolled.tallied hl ht hn hc hcalls
      | none =>
        rw [hfits] at hend
        obtain ⟨rfl, rfl⟩ := hend
        obtain ⟨hist, hrun, hending, -, hget⟩ := tallied_of_close hl ht hn hcalls
        exact ⟨_, hrun.commit hending hget hfits, by simp⟩

theorem rollback_tallied (hl : Accountable k react) (ht : w.transaction? n = some (t, c))
    (hn : n < w.nextTransaction) (hactive : c.status = .active) {r : Except Failure Unit}
    (hrollback : w.rollback react n = some (r, w')) :
    ∃ hist, Tallied k w hist w' ∧ .rolledBack n ∈ hist := by
  obtain ⟨t', c', w₂, ht', hafter, rfl⟩ := rollback_eq_some hrollback
  obtain ⟨rfl, rfl⟩ := Prod.mk.inj (Option.some.inj (ht.symm.trans ht'))
  have hroll : c.rollBack = .ok (c.failure, { c with status := .rolledBack, failure := none }) := by
    simp [TransactionContext.rollBack, hactive]
  exact tallied_of_afterRollback hl ht hn hroll hafter .refl

/-! ### Listeners that answer keep nobody waiting -/

/-- No listener waits for ever. -/
def Answering (react : Reaction L H) : Prop := ∀ l caller txn e w, react l caller txn e w ≠ none

theorem tell_ne_none (ha : Answering react) {e : Event} {ls : List L} :
    tell react caller txn e ls w ≠ none := by
  induction ls generalizing w with
  | nil => simp [tell]
  | cons l ls ih =>
    rw [tell]
    split
    · exact ih
    · exact ha l caller txn e w

theorem tellAll_ne_none (ha : Answering react) {e : Event} {ls : List L} :
    tellAll react caller txn e ls w ≠ none := by
  induction ls generalizing w with
  | nil => simp [tellAll]
  | cons l ls ih =>
    obtain ⟨⟨r, w₁⟩, hr⟩ := Option.ne_none_iff_exists'.1 (ha l caller txn e w)
    rw [tellAll, hr]
    exact ih

theorem dispatch_ne_none (ha : Answering react) {ls : List L} {steps : List PlanStep} :
    dispatch react h ls c steps w ≠ none := by
  induction steps generalizing w with
  | nil => simp [dispatch]
  | cons step steps ih =>
    cases step with
    | error => simp [dispatch]
    | ok e =>
      rw [dispatch]
      split
      · exact ih
      · exact tell_ne_none ha

theorem beforeCommit_ne_none (ha : Answering react) {changes : ChangeSet} {f : EntityFactory} :
    beforeCommit react h c changes f w ≠ none := by
  simp only [beforeCommit]
  split
  · simp
  · split
    · next hd => exact absurd hd (dispatch_ne_none ha)
    · simp
    · split <;> simp

theorem afterRollback_ne_none (ha : Answering react) : afterRollback react h c w ≠ none := by
  simp only [afterRollback]
  split
  · simp
  · split
    · rw [ne_eq, Option.map_eq_none_iff]
      exact tellAll_ne_none ha
    · simp

theorem rollback_ne_none (ha : Answering react) (hn : w.Ongoing n) : w.rollback react n ≠ none := by
  obtain ⟨t, c, ht⟩ := hn
  simpa [rollback, ht] using afterRollback_ne_none ha

theorem commit_ne_none (ha : Answering react) (hn : w.Ongoing n) : w.commit react n ≠ none := by
  obtain ⟨t, c, ht⟩ := hn
  simp only [commit, ht, finishCommit, ne_eq, Option.map_eq_none_iff]
  split
  · simpa using afterRollback_ne_none ha
  · split
    · next hb => exact absurd hb (beforeCommit_ne_none ha)
    · simpa using afterRollback_ne_none ha
    · simpa using afterRollback_ne_none ha
    · split
      · simpa using afterRollback_ne_none ha
      · simp

/-! ### At each moment -/

/-- What the hook has counted after the milestones. -/
structure Accounts (k : Nat) (hist : List Milestone) (w : World L H) : Prop where
  /-- Each transaction counts once, and the counters say how many there are of each kind. -/
  counted : Counted hist (w.hook k).counters
  balance : (w.hook k).counters.begun = (w.hook k).counters.active +
    (w.hook k).counters.committed + (w.hook k).counters.rolledBack
  /-- Open are those that go on and those whose end is under way. -/
  open_iff : ∀ n, n ∈ openIn hist ↔ w.Ongoing n ∨ n ∈ endingIn hist
  active : (w.hook k).counters.active = {n | w.Ongoing n ∨ n ∈ endingIn hist}.ncard
  /-- Who has ended ends no more. -/
  final : ∀ n, .committed n ∈ hist ∨ .rolledBack n ∈ hist → w.transaction? n = none

/-- What ends come to from here on. -/
structure Continued (k : Nat) (react : Reaction L H) (w₀ : World L H) (hist : List Milestone)
    (w : World L H) : Prop where
  /-- Whatever listeners are told, the run goes on. -/
  told : ∀ h caller txn w₁, Calls react h caller txn w w₁ →
    ∃ hist', Tallied k w₀ (hist ++ hist') w₁
  /-- While listeners are told of a commit, the transaction is open. -/
  closing : ∀ n t c w₁, w.transaction? n = some (t, c) →
    Calls react t.hook c.caller c.txn (w.close n) w₁ →
    ∃ hist', Tallied k w₀ (hist ++ hist') w₁ ∧ n ∈ openIn (hist ++ hist')
  /-- While they are told of its rollback, it counts as rolled back. -/
  undoing : ∀ n t c w₁ w₂, w.transaction? n = some (t, c) →
    Calls react t.hook c.caller c.txn (w.close n) w₁ →
    Calls react t.hook c.caller c.txn (w₁.count t.hook .recordRollback) w₂ →
    ∃ hist', Tallied k w₀ (hist ++ hist') w₂ ∧ .rolledBack n ∈ hist ++ hist'
  /-- A transaction counts as committed if its commit returns a summary, and only then. -/
  commit : ∀ n r w', w.commit react n = some (r, w') → ∃ hist', Tallied k w₀ (hist ++ hist') w' ∧
    (.committed n ∈ hist ++ hist' ↔ ∃ s, r = .ok s) ∧
    (.rolledBack n ∈ hist ++ hist' ↔ ∃ e, r = .error e)
  rollback : ∀ n r w', w.rollback react n = some (r, w') →
    ∃ hist', Tallied k w₀ (hist ++ hist') w' ∧ .rolledBack n ∈ hist ++ hist' ∧
      .committed n ∉ hist ++ hist'
  /-- Whoever is asked to end does, if all listeners answer. -/
  ends : Answering react → ∀ n, w.Ongoing n → w.commit react n ≠ none ∧ w.rollback react n ≠ none

theorem Ledger.accounts (hw : Ledger k hist w) : Accounts k hist w where
  counted := hw.counted
  balance := hw.counted.balance
  open_iff := hw.open_iff
  active := by
    have hopen : {n | w.Ongoing n ∨ n ∈ endingIn hist} = ((openIn hist).toFinset : Set Nat) := by
      ext n
      rw [Set.mem_ofPred_eq, ← hw.open_iff, List.coe_toFinset, Set.mem_ofPred_eq]
    rw [hopen, Set.ncard_coe_finset, List.toFinset_card_of_nodup hw.counted.nodup_open]
    exact hw.counted.active
  final := by
    intro n hn
    have hclosed : n ∉ openIn hist := by
      rcases hn with hn | hn
      · exact hw.counted.not_open_of_committed hn
      · exact hw.counted.not_open_of_rolledBack hn
    by_contra hne
    obtain ⟨⟨t, c⟩, ht⟩ := Option.ne_none_iff_exists'.1 hne
    exact hclosed ((hw.open_iff n).2 (Or.inl ⟨t, c, ht⟩))

theorem Ledger.of_transaction? (hw : Ledger k hist w) (ht : w.transaction? n = some (t, c)) :
    n < w.nextTransaction ∧ c.status = .active ∧ c.failure = none := by
  obtain ⟨hget, hc⟩ := transaction?_eq_some.1 ht
  have hopen := (hw.open_iff n).2 (Or.inl ⟨t, c, ht⟩)
  exact ⟨hw.numbers n (hw.counted.begun_of_open hopen), (hw.entries n t hget).2 c hc⟩

theorem Tallied.continued {w₀ : World L H} (hl : Accountable k react) (h₀ : Ledger k [] w₀)
    (hw : Tallied k w₀ hist w) : Continued k react w₀ hist w where
  told := by
    intro h caller txn w₁ hc
    obtain ⟨hist', hrun⟩ := hc.tallied hl
    exact ⟨hist', hw.trans hrun⟩
  closing := by
    intro n t c w₁ ht hc
    obtain ⟨hn, -⟩ := (hw.ledger h₀).of_transaction? ht
    obtain ⟨hist', hrun, hending, -⟩ := tallied_of_close hl ht hn hc
    have hrun' := hw.trans hrun
    exact ⟨hist', hrun', (hrun'.ledger h₀).open_of_ending (endingIn_subset _ _ hending)⟩
  undoing := by
    intro n t c w₁ w₂ ht before after
    obtain ⟨hn, -⟩ := (hw.ledger h₀).of_transaction? ht
    obtain ⟨hist', hrun, hrolled, -⟩ := tallied_of_undo hl ht hn before after
    exact ⟨hist', hw.trans hrun, List.mem_append_right _ hrolled⟩
  commit := by
    intro n r w' hcommit
    obtain ⟨t, c, ht⟩ := open_of_commit hcommit
    obtain ⟨hn, hactive, hfailure⟩ := (hw.ledger h₀).of_transaction? ht
    obtain ⟨hist', hrun, hend⟩ := commit_tallied hl ht hn hactive hfailure hcommit
    have hrun' := hw.trans hrun
    have hcounted := (hrun'.ledger h₀).counted
    refine ⟨hist', hrun', ?_⟩
    cases r with
    | ok s =>
      have hcommitted : .committed n ∈ hist ++ hist' := List.mem_append_right _ hend
      exact ⟨iff_of_true hcommitted ⟨s, rfl⟩,
        iff_of_false (hcounted.not_rolledBack_of_committed hcommitted) (by simp)⟩
    | error e =>
      have hrolled : .rolledBack n ∈ hist ++ hist' := List.mem_append_right _ hend
      exact ⟨iff_of_false (fun hin => hcounted.not_rolledBack_of_committed hin hrolled) (by simp),
        iff_of_true hrolled ⟨e, rfl⟩⟩
  rollback := by
    intro n r w' hrollback
    obtain ⟨t, c, -, ht, -⟩ := rollback_eq_some hrollback
    obtain ⟨hn, hactive, -⟩ := (hw.ledger h₀).of_transaction? ht
    obtain ⟨hist', hrun, hend⟩ := rollback_tallied hl ht hn hactive hrollback
    have hrun' := hw.trans hrun
    have hrolled : .rolledBack n ∈ hist ++ hist' := List.mem_append_right _ hend
    exact ⟨hist', hrun', hrolled, fun hin =>
      (hrun'.ledger h₀).counted.not_rolledBack_of_committed hin hrolled⟩
  ends := fun ha _ hn => ⟨commit_ne_none ha hn, rollback_ne_none ha hn⟩

/-- Whatever clients do is a run. -/
theorem perform_tallied {w₀ : World L H} (hl : Accountable k react) (h₀ : Ledger k [] w₀)
    (hw : Tallied k w₀ hist w) {as : List Action} (ha : ∀ a ∈ as, a.allowed {k})
    (hp : perform react as w = some w') : ∃ hist', Tallied k w₀ (hist ++ hist') w' := by
  induction as generalizing w hist with
  | nil =>
    obtain rfl := Option.some.inj hp
    exact ⟨[], by rwa [List.append_nil]⟩
  | cons a as ih =>
    obtain ⟨w₁, hact, hrest⟩ := Option.bind_eq_some_iff.1 hp
    have hone : ∃ hist', Tallied k w₀ (hist ++ hist') w₁ := by
      cases a with
      | begin h caller =>
        obtain rfl : h = k := ha _ (List.mem_cons_self ..)
        obtain rfl := Option.some.inj hact
        exact ⟨_, hw.begin caller⟩
      | operate n o =>
        obtain ⟨⟨r, w₁⟩, hop, rfl⟩ := Option.map_eq_some_iff.1 hact
        exact ⟨[], by simpa using hw.operation hop⟩
      | commit n =>
        obtain ⟨⟨r, w₁⟩, hcommit, rfl⟩ := Option.map_eq_some_iff.1 hact
        obtain ⟨hist', hrun, -⟩ := (hw.continued hl h₀).commit n r w₁ hcommit
        exact ⟨hist', hrun⟩
      | rollback n =>
        obtain ⟨⟨r, w₁⟩, hrollback, rfl⟩ := Option.map_eq_some_iff.1 hact
        obtain ⟨hist', hrun, -⟩ := (hw.continued hl h₀).rollback n r w₁ hrollback
        exact ⟨hist', hrun⟩
    obtain ⟨hist', hrun⟩ := hone
    obtain ⟨hist₂, hrun₂⟩ := ih hrun (fun b hb => ha b (List.mem_cons_of_mem _ hb)) hrest
    exact ⟨hist' ++ hist₂, by rwa [← List.append_assoc]⟩

/-- The counters of a hook through which all transactions of a new graph begin, at each moment: how
many are open, and that each is counted once when it ends, and as what. Whether a transaction is
dropped or asked to roll back makes no difference. -/
theorem transactions_counted {schema : Schema} {locks : LockTable}
    {table : Assoc Nat (CommitHook L)} {host : H} (hl : Accountable k react)
    (hnew : ((start schema locks table host).hook k).counters.ofTransactions = {})
    (hw : Tallied k (start schema locks table host) hist w) :
    Accounts k hist w ∧ Continued k react (start schema locks table host) hist w :=
  ⟨(hw.ledger (ledger_start hnew)).accounts, hw.continued hl (ledger_start hnew)⟩

/-- A listener that begins a transaction when it is told of the first commit, and vetoes any
other. -/
def warden : Reaction Unit Unit := fun _ _ txn e w =>
  match e with
  | .commit =>
    if txn = ⟨1⟩ then some (.ok (), (w.begin 0 .superUser).2)
    else some (.error (.vetoed "closed"), w)
  | _ => some (.ok (), w)

/-- One client commits, one is refused, and one gives up. -/
def guarded : World Unit Unit :=
  (perform warden
    [.begin 0 .superUser, .begin 0 .superUser, .begin 0 .superUser,
      .operate 0 (.createNode (.root "note") []), .commit 0, .commit 1, .rollback 2] blank).get rfl

theorem accountable_warden : Accountable 0 warden := by
  intro l caller txn e w r w' h
  simp only [warden] at h
  split at h
  · split at h
    · obtain ⟨-, rfl⟩ := Prod.mk.inj (Option.some.inj h)
      exact ⟨_, Tallied.refl.begin .superUser⟩
    · obtain ⟨-, rfl⟩ := Prod.mk.inj (Option.some.inj h)
      exact ⟨[], .refl⟩
  · obtain ⟨-, rfl⟩ := Prod.mk.inj (Option.some.inj h)
    exact ⟨[], .refl⟩

/-- The transaction that the listener began is open. -/
theorem transactions_counted_warden : ∃ hist, Accounts 0 hist guarded ∧
    Continued 0 warden blank hist guarded ∧
    (guarded.hook 0).counters.ofTransactions =
      { active := 1, begun := 4, committed := 1, rolledBack := 2 } := by
  have hnew : (blank.hook 0).counters.ofTransactions = {} := rfl
  have hrun : ∃ hist, Tallied 0 blank ([] ++ hist) guarded := by
    refine perform_tallied accountable_warden (ledger_start hnew) .refl ?_
      (Option.some_get rfl).symm
    simp [Action.allowed]
  obtain ⟨hist, hrun⟩ := hrun
  obtain ⟨haccounts, hcontinued⟩ := transactions_counted accountable_warden hnew hrun
  exact ⟨_, haccounts, hcontinued, rfl⟩

end EntityGraph.World
