import EntityGraph.TransactionContext
import Mathlib.Data.List.Induction

/-!
Calls on one context, in any order. Every call but the record of a failure looks at the state first,
so the end of a transaction is final as long as no failure is recorded after it; one that is makes
an ended transaction a failed one, which can be ended again. Whoever has recorded a failure never
commits, late or not.

Main statement: `final_iff_not_late`.
-/

namespace EntityGraph.TransactionContext

/-- A call on a context. -/
inductive Call
  | prepare
  | recordFailure (cause : Failure)
  | commit
  | rollBack
  deriving DecidableEq

/-- What a call answers, with the failure that a rollback hands back, and the context after it. A
call that is refused changes nothing. -/
def call (c : TransactionContext) : Call → Except Failure (Option Failure) × TransactionContext
  | .prepare =>
    match c.prepare with
    | .ok c' => (.ok none, c')
    | .error e => (.error e, c)
  | .recordFailure cause => (.ok none, c.recordFailure cause)
  | .commit =>
    match c.commit with
    | .ok c' => (.ok none, c')
    | .error e => (.error e, c)
  | .rollBack =>
    match c.rollBack with
    | .ok (cause, c') => (.ok cause, c')
    | .error e => (.error e, c)

/-- The context after one call after the other. -/
def after (c : TransactionContext) (calls : List Call) : TransactionContext :=
  calls.foldl (fun c k => (c.call k).2) c

/-- The transaction is committed or rolled back. -/
def Ended (c : TransactionContext) : Prop := c.status = .committed ∨ c.status = .rolledBack

/-- The call ends the transaction, if it succeeds. -/
def Call.ends : Call → Bool
  | .commit | .rollBack => true
  | _ => false

/-- The failure that the call records. -/
def Call.failure? : Call → Option Failure
  | .recordFailure cause => some cause
  | _ => none

/-- The calls that succeeded in ending the transaction. -/
def endings (c : TransactionContext) : List Call → List Call
  | [] => []
  | k :: calls =>
    if k.ends ∧ (c.call k).1.isOk then k :: endings (c.call k).2 calls
    else endings (c.call k).2 calls

/-- The failures recorded, the first one first. -/
def failures (calls : List Call) : List Failure := calls.filterMap Call.failure?

/-- A failure is recorded after the end of the transaction. -/
def Late (c : TransactionContext) (calls : List Call) : Prop :=
  ∃ before cause rest, calls = before ++ .recordFailure cause :: rest ∧ (c.after before).Ended

/-- Once a failure is recorded, the transaction is not a committed one. -/
def NoCommitFailed (c : TransactionContext) (calls : List Call) : Prop :=
  ∀ before more, before ++ more <+: calls → failures before ≠ [] →
    (c.after (before ++ more)).status ≠ .committed

/-- The end of a transaction is final. -/
structure Final (c : TransactionContext) (calls : List Call) : Prop where
  stays : ∀ before more, before ++ more <+: calls → (c.after before).Ended →
    (c.after (before ++ more)).status = (c.after before).status
  once : (c.endings calls).length ≤ 1
  first : ∀ before, before ++ [.rollBack] <+: calls → ∀ cause c',
    (c.after before).rollBack = .ok (cause, c') → cause = (failures before).head?
  failed : c.NoCommitFailed calls

variable {c : TransactionContext} {k : Call} {calls : List Call}

theorem after_append (c : TransactionContext) (calls more : List Call) :
    c.after (calls ++ more) = (c.after calls).after more := List.foldl_append ..

theorem failures_append (calls more : List Call) :
    failures (calls ++ more) = failures calls ++ failures more := List.filterMap_append ..

/-! ### One call -/

/-- Only the record of a failure changes a context that has ended. -/
theorem call_of_ended (h : c.Ended) (hk : k.failure? = none) :
    (c.call k).2 = c ∧ (k.ends → (c.call k).1.isOk = false) := by
  obtain ⟨txn, caller, status, failure⟩ := c
  rcases h with h | h <;> simp only at h <;> subst h <;> cases k <;> first
    | exact ⟨rfl, fun _ => rfl⟩
    | cases hk

theorem ended_of_call (hk : k.ends) (h : (c.call k).1.isOk) : (c.call k).2.Ended := by
  obtain ⟨txn, caller, status, failure⟩ := c
  cases status <;> cases k <;> first
    | exact Or.inl rfl
    | exact Or.inr rfl
    | exact Bool.noConfusion hk
    | exact Bool.noConfusion h

/-- Whatever is called on a context that goes on, it ends, or keeps the first failure. -/
theorem call_of_not_ended (h : ¬ c.Ended) :
    (c.call k).2.Ended ∨ (c.call k).2.failure = c.failure.or k.failure? := by
  obtain ⟨txn, caller, status, failure⟩ := c
  cases status <;> cases k <;> first
    | exact absurd (Or.inl rfl) h
    | exact absurd (Or.inr rfl) h
    | exact Or.inl (Or.inl rfl)
    | exact Or.inl (Or.inr rfl)
    | exact Or.inr Option.or_none.symm
    | exact Or.inr rfl

/-- A failed transaction can only be rolled back. -/
theorem status_call_of_failed (h : c.status = .failed ∨ c.status = .rolledBack) :
    (c.call k).2.status = .failed ∨ (c.call k).2.status = .rolledBack := by
  obtain ⟨txn, caller, status, failure⟩ := c
  rcases h with h | h <;> simp only at h <;> subst h <;> cases k <;> first
    | exact Or.inl rfl
    | exact Or.inr rfl

/-! ### One call after the other -/

theorem status_after_of_failed (h : c.status = .failed ∨ c.status = .rolledBack) :
    (c.after calls).status = .failed ∨ (c.after calls).status = .rolledBack := by
  induction calls generalizing c with
  | nil => exact h
  | cons k calls ih => exact ih (status_call_of_failed h)

theorem noCommitFailed (c : TransactionContext) (calls : List Call) : c.NoCommitFailed calls := by
  intro before more _ hfailed
  obtain ⟨cause, hmem⟩ := List.exists_mem_of_ne_nil _ hfailed
  obtain ⟨k, hk, hcause⟩ := List.mem_filterMap.1 hmem
  obtain ⟨s, rest, rfl⟩ := List.append_of_mem hk
  obtain ⟨cause, rfl⟩ : ∃ e, k = .recordFailure e := by
    cases k <;> first | exact ⟨_, rfl⟩ | cases hcause
  have hstatus : (c.after (s ++ .recordFailure cause :: rest ++ more)).status = .failed ∨
      (c.after (s ++ .recordFailure cause :: rest ++ more)).status = .rolledBack := by
    rw [List.append_assoc, after_append]
    exact status_after_of_failed (c := ((c.after s).call (.recordFailure cause)).2) (Or.inl rfl)
  intro hcommitted
  rcases hstatus with h | h <;> cases hcommitted.symm.trans h

/-- A call that is not late follows on calls that are not. -/
theorem Late.cons (h : (c.call k).2.Late calls) : c.Late (k :: calls) := by
  obtain ⟨before, cause, rest, rfl, hended⟩ := h
  exact ⟨k :: before, cause, rest, rfl, hended⟩

theorem Late.mono {more : List Call} (h : c.Late calls) (hle : calls <+: more) : c.Late more := by
  obtain ⟨before, cause, rest, rfl, hended⟩ := h
  obtain ⟨tail, rfl⟩ := hle
  exact ⟨before, cause, rest ++ tail, by simp, hended⟩

/-- Without late failures, a call on an ended context records none. -/
theorem failure?_of_not_late (hl : ¬ c.Late (k :: calls)) (h : c.Ended) : k.failure? = none := by
  cases k with
  | recordFailure cause => exact absurd ⟨[], cause, calls, rfl, h⟩ hl
  | _ => rfl

/-- Without late failures, an ended context stays what it is, and cannot be ended. -/
theorem after_of_ended (hl : ¬ c.Late calls) (h : c.Ended) :
    c.after calls = c ∧ c.endings calls = [] := by
  induction calls with
  | nil => exact ⟨rfl, rfl⟩
  | cons k calls ih =>
    obtain ⟨hsame, hrefused⟩ := call_of_ended h (failure?_of_not_late hl h)
    obtain ⟨hafter, hendings⟩ := ih fun hlate => hl (Late.cons (by rwa [hsame]))
    have hnot : ¬ (k.ends ∧ (c.call k).1.isOk) := by
      rintro ⟨hends, hok⟩
      cases (hrefused hends).symm.trans hok
    refine ⟨?_, ?_⟩
    · rw [after, List.foldl_cons, hsame]
      exact hafter
    · rw [endings, if_neg hnot, hsame]
      exact hendings

theorem length_endings_le (hl : ¬ c.Late calls) : (c.endings calls).length ≤ 1 := by
  induction calls generalizing c with
  | nil => exact Nat.zero_le _
  | cons k calls ih =>
    have hrest : ¬ (c.call k).2.Late calls := fun h => hl h.cons
    rw [endings]
    split
    · next h => simp [(after_of_ended hrest (ended_of_call h.1 h.2)).2]
    · exact ih hrest

/-- Without late failures, a context that goes on holds the first failure recorded. -/
theorem failure_after (hl : ¬ c.Late calls) (h : ¬ (c.after calls).Ended) :
    (c.after calls).failure = c.failure.or (failures calls).head? := by
  induction calls using List.reverseRecOn with
  | nil => exact Option.or_none.symm
  | append_singleton calls k ih =>
    rw [after_append] at h ⊢
    have hgoes : ¬ (c.after calls).Ended := by
      intro hended
      have hnone : k.failure? = none := by
        cases k with
        | recordFailure cause => exact absurd ⟨calls, cause, [], rfl, hended⟩ hl
        | _ => rfl
      exact h (by rw [after, List.foldl_cons, List.foldl_nil, (call_of_ended hended hnone).1]
                  exact hended)
    have hkept := (call_of_not_ended (k := k) hgoes).resolve_left h
    have hlast : (failures (calls ++ [k])).head? = (failures calls).head?.or k.failure? := by
      rw [failures_append, List.head?_append]
      cases k <;> rfl
    rw [hlast, ← Option.or_assoc, ← ih (fun hlate => hl (hlate.mono (List.prefix_append ..))) hgoes]
    exact hkept

theorem not_ended_of_rollBack {cause : Option Failure} {c' : TransactionContext}
    (h : c.rollBack = .ok (cause, c')) : ¬ c.Ended ∧ cause = c.failure := by
  rw [rollBack] at h
  split at h
  · cases h
  · cases h
  · next hcommitted hrolledBack =>
    exact ⟨fun hended => hended.elim hcommitted hrolledBack,
      congrArg Prod.fst (Except.ok.inj h).symm⟩

/-- The end of a new transaction is final exactly if no failure is recorded after it; and whether
or not there is one, nobody commits who has recorded a failure. -/
theorem final_iff_not_late (txn : TxnId) (caller : Caller) (calls : List Call) :
    (Final { txn, caller } calls ↔ ¬ Late { txn, caller } calls) ∧
      NoCommitFailed { txn, caller } calls := by
  refine ⟨⟨fun hfinal => ?_, fun hl => ?_⟩, noCommitFailed _ _⟩
  · rintro ⟨before, cause, rest, rfl, hended⟩
    have hstays := hfinal.stays before [.recordFailure cause] (by simp) hended
    have hfailed : (after { txn, caller } (before ++ [.recordFailure cause])).status = .failed := by
      rw [after_append]
      rfl
    rw [hfailed] at hstays
    rcases hended with h | h <;> cases hstays.trans h
  · refine ⟨fun before more hle hended => ?_, length_endings_le hl,
      fun before hle cause c' hr => ?_, noCommitFailed _ _⟩
    · have hmore : ¬ (after { txn, caller } before).Late more := by
        rintro ⟨s, cause, rest, rfl, h⟩
        refine hl (Late.mono ⟨before ++ s, cause, rest, (List.append_assoc ..).symm, ?_⟩ hle)
        rwa [after_append]
      rw [after_append, (after_of_ended hmore hended).1]
    · obtain ⟨hgoes, rfl⟩ := not_ended_of_rollBack hr
      refine (failure_after (fun hlate => hl (hlate.mono ?_)) hgoes).trans Option.none_or
      exact (List.prefix_append ..).trans hle

/-- A failure recorded after a commit fails the transaction, which is then rolled back as well. -/
theorem rolledBack_after_commit :
    (after { txn := ⟨1⟩, caller := .superUser } [.prepare, .commit]).status = .committed ∧
      (after { txn := ⟨1⟩, caller := .superUser }
        [.prepare, .commit, .recordFailure (.vetoed "late"), .rollBack]).status = .rolledBack ∧
      ¬ Final { txn := ⟨1⟩, caller := .superUser }
        [.prepare, .commit, .recordFailure (.vetoed "late"), .rollBack] :=
  ⟨rfl, rfl, fun h => absurd h.once (by decide)⟩

end EntityGraph.TransactionContext
