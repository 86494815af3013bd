import EntityGraph.Proofs.Runs
import Mathlib.Data.List.Induction
import Mathlib.Data.List.Perm.Basic
import Mathlib.Data.Set.Basic

/-!
How far transactions come, in the order in which it happens, beside what a hook counts. A
transaction is open from its beginning until it counts as committed or as rolled back, and its end
is under way from when its context is taken. Ends of several transactions may be under way at once,
in whatever order they come about.

Main statement: `Tallied.ledger` — at each moment of a run the counters are in step with the
history.
-/

namespace EntityGraph

/-- How far a transaction, by its number, comes. A rollback counts before listeners are told of
it. -/
inductive Milestone
  | begun (n : Nat)
  /-- It is about to end. -/
  | closed (n : Nat)
  | committed (n : Nat)
  | rolledBack (n : Nat)

namespace Milestone

/-- Whose milestone it is. -/
def transaction : Milestone → Nat
  | begun n | closed n | committed n | rolledBack n => n

/-- The transactions that have begun. -/
def begunIn (hist : List Milestone) : List Nat :=
  hist.filterMap fun | begun n => some n | _ => none

/-- The transactions that have committed. -/
def committedIn (hist : List Milestone) : List Nat :=
  hist.filterMap fun | committed n => some n | _ => none

/-- The transactions that were rolled back. -/
def rolledBackIn (hist : List Milestone) : List Nat :=
  hist.filterMap fun | rolledBack n => some n | _ => none

/-- What a milestone makes of the open transactions. -/
def update (ns : List Nat) : Milestone → List Nat
  | begun n => ns ++ [n]
  | closed _ => ns
  | committed n | rolledBack n => ns.erase n

/-- The transactions that have begun and not ended since. -/
def openIn (hist : List Milestone) : List Nat := hist.foldl update []

/-- What a milestone makes of the transactions whose end is under way. -/
def turn (ns : Set Nat) : Milestone → Set Nat
  | begun _ => ns
  | closed n => insert n ns
  | committed n | rolledBack n => ns \ {n}

/-- The transactions whose end is under way. -/
def endingIn (hist : List Milestone) : Set Nat := hist.foldl turn ∅

/-- Each transaction that has begun is open, or has committed, or was rolled back, once and not
otherwise; and the counters say how many there are of each kind. -/
structure Counted (hist : List Milestone) (c : Counters) : Prop where
  once : (begunIn hist).Nodup
  each : (begunIn hist).Perm (openIn hist ++ (committedIn hist ++ rolledBackIn hist))
  active : c.active = (openIn hist).length
  begun : c.begun = (begunIn hist).length
  committed : c.committed = (committedIn hist).length
  rolledBack : c.rolledBack = (rolledBackIn hist).length

variable {hist hist' : List Milestone} {c : Counters} {n : Nat} {m : Milestone}

theorem openIn_concat (hist : List Milestone) (m : Milestone) :
    openIn (hist ++ [m]) = update (openIn hist) m := by
  rw [openIn, List.foldl_append]
  rfl

theorem endingIn_concat (hist : List Milestone) (m : Milestone) :
    endingIn (hist ++ [m]) = turn (endingIn hist) m := by
  rw [endingIn, List.foldl_append]
  rfl

/-- The milestone is the end of a transaction. -/
def Ends (m : Milestone) (n : Nat) : Prop := m = committed n ∨ m = rolledBack n

theorem Ends.begunIn (h : m.Ends n) (hist : List Milestone) :
    begunIn (hist ++ [m]) = begunIn hist := by
  rcases h with rfl | rfl <;> simp [Milestone.begunIn]

theorem Ends.openIn (h : m.Ends n) (hist : List Milestone) :
    openIn (hist ++ [m]) = (openIn hist).erase n := by
  rcases h with rfl | rfl <;> exact openIn_concat hist _

theorem Ends.endingIn (h : m.Ends n) (hist : List Milestone) :
    endingIn (hist ++ [m]) = endingIn hist \ {n} := by
  rcases h with rfl | rfl <;> exact endingIn_concat hist _

theorem mem_committedIn : n ∈ committedIn hist ↔ committed n ∈ hist := by
  rw [committedIn, List.mem_filterMap]
  constructor
  · rintro ⟨m, hm, he⟩
    cases m <;> simp at he
    rwa [← he]
  · exact fun h => ⟨_, h, rfl⟩

theorem mem_rolledBackIn : n ∈ rolledBackIn hist ↔ rolledBack n ∈ hist := by
  rw [rolledBackIn, List.mem_filterMap]
  constructor
  · rintro ⟨m, hm, he⟩
    cases m <;> simp at he
    rwa [← he]
  · exact fun h => ⟨_, h, rfl⟩

/-! ### Ends that are under way -/

theorem mem_turn {ns : Set Nat} (hm : m.transaction ≠ n) : n ∈ turn ns m ↔ n ∈ ns := by
  cases m <;> simp [turn, transaction] at hm ⊢ <;> grind

theorem closed_of_ending (h : n ∈ endingIn hist) : closed n ∈ hist := by
  induction hist using List.reverseRecOn with
  | nil => exact absurd h (Set.notMem_empty n)
  | append_singleton hist m ih =>
    rw [endingIn_concat] at h
    by_cases hm : m.transaction = n
    · cases m with
      | closed k =>
        obtain rfl : k = n := hm
        exact List.mem_append_right _ (List.mem_singleton_self _)
      | begun => exact List.mem_append_left _ (ih h)
      | committed | rolledBack => exact List.mem_append_left _ (ih h.1)
    · exact List.mem_append_left _ (ih ((mem_turn hm).1 h))

/-- What came before does not matter to an end that came under way since. -/
theorem endingIn_subset (hist hist' : List Milestone) :
    endingIn hist' ⊆ endingIn (hist ++ hist') := by
  induction hist' using List.reverseRecOn with
  | nil => exact Set.empty_subset _
  | append_singleton hist' m ih =>
    rw [← List.append_assoc, endingIn_concat, endingIn_concat]
    cases m with
    | begun => exact ih
    | closed n => exact Set.insert_subset_insert ih
    | committed n | rolledBack n => exact fun k hk => ⟨ih hk.1, hk.2⟩

/-- Milestones of others leave an end under way. -/
theorem ending_append (h : n ∈ endingIn hist) (hothers : ∀ m ∈ hist', m.transaction ≠ n) :
    n ∈ endingIn (hist ++ hist') := by
  induction hist' using List.reverseRecOn with
  | nil => rwa [List.append_nil]
  | append_singleton hist' m ih =>
    rw [← List.append_assoc, endingIn_concat, mem_turn]
    · exact ih fun m hm => hothers m (List.mem_append_left _ hm)
    · exact hothers m (List.mem_append_right _ (List.mem_singleton_self _))

/-! ### Counting -/

theorem counted_nil : Counted [] {} := ⟨List.nodup_nil, .refl _, rfl, rfl, rfl, rfl⟩

theorem Counted.begun_of_open (h : Counted hist c) (hn : n ∈ openIn hist) : n ∈ begunIn hist :=
  h.each.mem_iff.2 (List.mem_append_left _ hn)

theorem Counted.nodup (h : Counted hist c) :
    (openIn hist ++ (committedIn hist ++ rolledBackIn hist)).Nodup := h.each.nodup_iff.1 h.once

theorem Counted.nodup_open (h : Counted hist c) : (openIn hist).Nodup :=
  (List.nodup_append.1 h.nodup).1

theorem Counted.not_open_of_committed (h : Counted hist c) (hn : .committed n ∈ hist) :
    n ∉ openIn hist := fun ho =>
  List.disjoint_of_nodup_append h.nodup ho (List.mem_append_left _ (mem_committedIn.2 hn))

theorem Counted.not_open_of_rolledBack (h : Counted hist c) (hn : .rolledBack n ∈ hist) :
    n ∉ openIn hist := fun ho =>
  List.disjoint_of_nodup_append h.nodup ho (List.mem_append_right _ (mem_rolledBackIn.2 hn))

theorem Counted.not_rolledBack_of_committed (h : Counted hist c) (hn : .committed n ∈ hist) :
    .rolledBack n ∉ hist := fun hr =>
  List.disjoint_of_nodup_append (List.nodup_append.1 h.nodup).2.1 (mem_committedIn.2 hn)
    (mem_rolledBackIn.2 hr)

/-- The number of transactions begun is that of those open, committed and rolled back. -/
theorem Counted.balance (h : Counted hist c) : c.begun = c.active + c.committed + c.rolledBack := by
  have hlength := h.each.length_eq
  simp only [List.length_append] at hlength
  rw [h.begun, h.active, h.committed, h.rolledBack, hlength]
  omega

theorem Counted.begin (h : Counted hist c) (hn : n ∉ begunIn hist) :
    Counted (hist ++ [.begun n]) c.recordBegin := by
  have hbegun : begunIn (hist ++ [.begun n]) = begunIn hist ++ [n] := by simp [begunIn]
  have hcommitted : committedIn (hist ++ [.begun n]) = committedIn hist := by simp [committedIn]
  have hrolledBack : rolledBackIn (hist ++ [.begun n]) = rolledBackIn hist := by
    simp [rolledBackIn]
  have hopen : openIn (hist ++ [.begun n]) = openIn hist ++ [n] := openIn_concat hist _
  constructor
  · rw [hbegun]
    exact List.nodup_append.2 ⟨h.once, List.nodup_singleton n, by grind⟩
  · rw [hbegun, hcommitted, hrolledBack, hopen, List.append_assoc]
    refine (h.each.append_right _).trans ?_
    rw [List.append_assoc]
    exact List.perm_append_comm.append_left _
  · rw [hopen, List.length_append, ← h.active]
    rfl
  · rw [hbegun, List.length_append, ← h.begun]
    rfl
  · rw [hcommitted]
    exact h.committed
  · rw [hrolledBack]
    exact h.rolledBack

theorem Counted.close (h : Counted hist c) (n : Nat) : Counted (hist ++ [.closed n]) c := by
  have hbegun : begunIn (hist ++ [.closed n]) = begunIn hist := by simp [begunIn]
  have hcommitted : committedIn (hist ++ [.closed n]) = committedIn hist := by simp [committedIn]
  have hrolledBack : rolledBackIn (hist ++ [.closed n]) = rolledBackIn hist := by
    simp [rolledBackIn]
  have hopen : openIn (hist ++ [.closed n]) = openIn hist := openIn_concat hist _
  constructor <;> simp only [hbegun, hcommitted, hrolledBack, hopen]
  exacts [h.once, h.each, h.active, h.begun, h.committed, h.rolledBack]

/-- An open transaction, apart from the others. -/
theorem Counted.each_erase (h : Counted hist c) (hn : n ∈ openIn hist) : (begunIn hist).Perm
    (n :: ((openIn hist).erase n ++ committedIn hist ++ rolledBackIn hist)) := by
  refine h.each.trans (((List.perm_cons_erase hn).append_right _).trans ?_)
  rw [List.cons_append, List.append_assoc]

theorem Counted.commit (h : Counted hist c) (hn : n ∈ openIn hist) :
    Counted (hist ++ [.committed n]) c.recordCommit := by
  have hend : (Milestone.committed n).Ends n := Or.inl rfl
  have hcommitted : committedIn (hist ++ [.committed n]) = committedIn hist ++ [n] := by
    simp [committedIn]
  have hrolledBack : rolledBackIn (hist ++ [.committed n]) = rolledBackIn hist := by
    simp [rolledBackIn]
  constructor
  · rw [hend.begunIn]
    exact h.once
  · rw [hend.begunIn, hcommitted, hrolledBack, hend.openIn]
    refine (h.each_erase hn).trans ?_
    rw [List.append_assoc _ [n], ← List.append_assoc]
    exact List.perm_middle.symm
  · rw [hend.openIn, List.length_erase_of_mem hn, ← h.active]
    rfl
  · rw [hend.begunIn]
    exact h.begun
  · rw [hcommitted, List.length_append, ← h.committed]
    rfl
  · rw [hrolledBack]
    exact h.rolledBack

theorem Counted.rollback (h : Counted hist c) (hn : n ∈ openIn hist) :
    Counted (hist ++ [.rolledBack n]) c.recordRollback := by
  have hend : (Milestone.rolledBack n).Ends n := Or.inr rfl
  have hcommitted : committedIn (hist ++ [.rolledBack n]) = committedIn hist := by
    simp [committedIn]
  have hrolledBack : rolledBackIn (hist ++ [.rolledBack n]) = rolledBackIn hist ++ [n] := by
    simp [rolledBackIn]
  constructor
  · rw [hend.begunIn]
    exact h.once
  · rw [hend.begunIn, hcommitted, hrolledBack, hend.openIn, ← List.append_assoc,
      ← List.append_assoc]
    exact (h.each_erase hn).trans (List.perm_append_singleton _ _).symm
  · rw [hend.openIn, List.length_erase_of_mem hn, ← h.active]
    rfl
  · rw [hend.begunIn]
    exact h.begun
  · rw [hcommitted]
    exact h.committed
  · rw [hrolledBack, List.length_append, ← h.rolledBack]
    rfl

end Milestone

/-- What is counted, but for events. -/
def Counters.ofTransactions (c : Counters) : Counters := { c with events := 0 }

theorem Milestone.Counted.congr {hist : List Milestone} {c c' : Counters}
    (h : Milestone.Counted hist c) (he : c'.ofTransactions = c.ofTransactions) :
    Milestone.Counted hist c' := by
  obtain ⟨a, b, co, r, ev⟩ := c
  obtain ⟨a', b', co', r', ev'⟩ := c'
  simp only [Counters.ofTransactions, Counters.mk.injEq] at he
  obtain ⟨rfl, rfl, rfl, rfl, -⟩ := he
  exact ⟨h.once, h.each, h.active, h.begun, h.committed, h.rolledBack⟩

namespace World
variable {L H : Type}

open Milestone

/-- Runs of transactions of one hook, move by move, with their milestones. What a hook counts is
changed by nothing else, but for the events that it delivers. -/
inductive Tallied (k : Nat) (w : World L H) : List Milestone → World L H → Prop
  | refl : Tallied k w [] w
  | aside {hist w₁ w₂} (run : Tallied k w hist w₁) (h : Aside w₁ w₂)
    (hcount : (w₂.hook k).counters.ofTransactions = (w₁.hook k).counters.ofTransactions) :
    Tallied k w hist w₂
  | begin {hist w₁} (caller : Caller) (run : Tallied k w hist w₁) :
    Tallied k w (hist ++ [.begun w₁.nextTransaction]) (w₁.begin k caller).2
  | operation {hist w₁ n o r w₂} (run : Tallied k w hist w₁)
    (h : w₁.onTransaction n (Operation.run o) = some (r, w₂)) : Tallied k w hist w₂
  /-- A transaction is about to end. -/
  | close {hist w₁ n t c} (run : Tallied k w hist w₁) (ht : w₁.transaction? n = some (t, c)) :
    Tallied k w (hist ++ [.closed n]) (w₁.close n)
  /-- Its changes still fit and are applied, and the commit counts. -/
  | commit {hist w₁ n} {t : Transaction} (run : Tallied k w hist w₁) (hn : n ∈ endingIn hist)
    (ht : w₁.transactions.get? n = some { t with context := none })
    (hfits : t.changes.conflict? w₁.graph.committed = none) :
    Tallied k w (hist ++ [.committed n]) ((w₁.settle n t).count t.hook .recordCommit)
  /-- Or the rollback counts. -/
  | undo {hist w₁ n t} (run : Tallied k w hist w₁) (hn : n ∈ endingIn hist)
    (ht : w₁.transactions.get? n = some t) :
    Tallied k w (hist ++ [.rolledBack n]) (w₁.count t.hook .recordRollback)
  | forget {hist w₁ n t} (run : Tallied k w hist w₁) (hn : .rolledBack n ∈ hist)
    (ht : w₁.transactions.get? n = some t) : Tallied k w hist (w₁.forget n t.txn)

variable {k : Nat} {w w' w₁ w₂ : World L H} {hist hist' : List Milestone} {n : Nat}
  {t : Transaction} {c : TransactionContext}

theorem Tallied.trans (h : Tallied k w hist w₁) (h' : Tallied k w₁ hist' w₂) :
    Tallied k w (hist ++ hist') w₂ := by
  induction h' with
  | refl => rwa [List.append_nil]
  | aside _ ha hcount ih => exact ih.aside ha hcount
  | begin caller _ ih => simpa only [List.append_assoc] using ih.begin caller
  | operation _ ho ih => exact ih.operation ho
  | close _ ht ih => simpa only [List.append_assoc] using ih.close ht
  | commit _ hn ht hfits ih =>
    simpa only [List.append_assoc] using ih.commit (endingIn_subset _ _ hn) ht hfits
  | undo _ hn ht ih =>
    simpa only [List.append_assoc] using ih.undo (endingIn_subset _ _ hn) ht
  | forget _ hn ht ih => exact ih.forget (List.mem_append_right _ hn) ht

theorem Tallied.nextTransaction_le (h : Tallied k w hist w₁) :
    w.nextTransaction ≤ w₁.nextTransaction := by
  induction h with
  | refl => exact Nat.le_refl _
  | aside _ ha _ ih => exact ha.nextTransaction ▸ ih
  | begin caller _ ih => exact Nat.le_succ_of_le ih
  | operation _ ho ih =>
    obtain ⟨t, c, s, -, -, rfl⟩ := onTransaction_eq_some ho
    exact ih
  | close _ _ ih | commit _ _ _ _ ih | undo _ _ _ ih | forget _ _ _ ih => exact ih

/-- A run ends only transactions that it closes. -/
theorem Tallied.closed (h : Tallied k w hist w₁) (hn : n < w.nextTransaction)
    (ht : w.transactions.get? n = some t) (hc : t.context = none) :
    w₁.transactions.get? n = some t ∧ ∀ m ∈ hist, m.transaction ≠ n := by
  have hconcat : ∀ {hist : List Milestone} {m : Milestone}, (∀ m ∈ hist, m.transaction ≠ n) →
      m.transaction ≠ n → ∀ m' ∈ hist ++ [m], m'.transaction ≠ n := by
    intro hist m hist' hm m' hm'
    rcases List.mem_append.1 hm' with hm' | hm'
    · exact hist' m' hm'
    · rwa [List.mem_singleton.1 hm']
  induction h with
  | refl => exact ⟨ht, by simp⟩
  | aside _ ha _ ih =>
    rw [ha.transactions]
    exact ih
  | begin caller run ih =>
    obtain ⟨hget, hothers⟩ := ih
    have hne := Nat.ne_of_lt (Nat.lt_of_lt_of_le hn run.nextTransaction_le)
    rw [get?_begin, if_neg hne]
    exact ⟨hget, hconcat hothers hne.symm⟩
  | operation _ ho ih =>
    obtain ⟨t', c', s, ht', -, rfl⟩ := onTransaction_eq_some ho
    obtain ⟨hget, hothers⟩ := ih
    rw [get?_put, if_neg (ne_of_open ht' hget hc)]
    exact ⟨hget, hothers⟩
  | close _ ht' ih =>
    obtain ⟨hget, hothers⟩ := ih
    have hne := ne_of_open ht' hget hc
    rw [get?_close, if_neg hne]
    exact ⟨hget, hconcat hothers hne.symm⟩
  | @commit hist w₁ m t' _ hm _ _ ih =>
    obtain ⟨hget, hothers⟩ := ih
    have hne : m ≠ n := hothers _ (closed_of_ending hm)
    refine ⟨?_, hconcat hothers hne⟩
    change (w₁.settle m t').transactions.get? n = some t
    rw [settle, get?_forget, if_neg hne.symm]
    exact hget
  | undo _ hm _ ih =>
    obtain ⟨hget, hothers⟩ := ih
    have hne := hothers _ (closed_of_ending hm)
    exact ⟨hget, hconcat hothers hne⟩
  | @forget hist w₁ m t' _ hm _ ih =>
    obtain ⟨hget, hothers⟩ := ih
    have hne : m ≠ n := hothers _ hm
    rw [get?_forget, if_neg hne.symm]
    exact ⟨hget, hothers⟩

/-! ### The counters are in step with the history -/

/-- The transaction is open, and its end is not under way. -/
def Ongoing (w : World L H) (n : Nat) : Prop := ∃ t c, w.transaction? n = some (t, c)

theorem ongoing_iff : w.Ongoing n ↔ ∃ t c, w.transactions.get? n = some t ∧ t.context = some c := by
  simp only [Ongoing, transaction?_eq_some]

theorem ongoing_begin {caller : Caller} :
    (w.begin k caller).2.Ongoing n ↔ n = w.nextTransaction ∨ w.Ongoing n := by
  rw [ongoing_iff, ongoing_iff, get?_begin]
  by_cases e : n = w.nextTransaction
  · rw [if_pos e]
    exact ⟨fun _ => Or.inl e, fun _ => ⟨_, _, rfl, rfl⟩⟩
  · rw [if_neg e, or_iff_right e]

theorem ongoing_close {n' : Nat} : (w.close n).Ongoing n' ↔ n' ≠ n ∧ w.Ongoing n' := by
  rw [ongoing_iff, ongoing_iff, get?_close]
  by_cases e : n' = n
  · rw [if_pos e]
    refine iff_of_false ?_ fun h => h.1 e
    rintro ⟨t, c, ht, hc⟩
    obtain ⟨t₀, -, rfl⟩ := Option.map_eq_some_iff.1 ht
    simp at hc
  · rw [if_neg e, and_iff_right e]

theorem ongoing_forget {txn : TxnId} {n' : Nat} :
    (w.forget n txn).Ongoing n' ↔ n' ≠ n ∧ w.Ongoing n' := by
  rw [ongoing_iff, ongoing_iff, get?_forget]
  by_cases e : n' = n
  · rw [if_pos e]
    simp [e]
  · rw [if_neg e, and_iff_right e]

/-- The transaction ends through the hook, and its context is as new while it has one. -/
def EndsThrough (k : Nat) (t : Transaction) : Prop :=
  t.hook = k ∧ ∀ c, t.context = some c → c.status = .active ∧ c.failure = none

/-- The history of a world. -/
structure Ledger (k : Nat) (hist : List Milestone) (w : World L H) : Prop where
  counted : Counted hist (w.hook k).counters
  numbers : ∀ n ∈ begunIn hist, n < w.nextTransaction
  entries : ∀ n t, w.transactions.get? n = some t → EndsThrough k t
  /-- Whoever is open goes on, or its end is under way. -/
  open_iff : ∀ n, n ∈ openIn hist ↔ w.Ongoing n ∨ n ∈ endingIn hist
  apart : ∀ n ∈ endingIn hist, ¬ w.Ongoing n

/-- What changes neither who is open nor what is counted. -/
theorem Ledger.congr (h : Ledger k hist w)
    (hcounters : (w'.hook k).counters.ofTransactions = (w.hook k).counters.ofTransactions)
    (hnext : w'.nextTransaction = w.nextTransaction)
    (hentries : ∀ n t, w'.transactions.get? n = some t → EndsThrough k t)
    (hongoing : ∀ n, w'.Ongoing n ↔ w.Ongoing n) : Ledger k hist w' := by
  refine ⟨h.counted.congr hcounters, fun n hn => ?_, hentries, fun n => ?_, fun n hn => ?_⟩
  · rw [hnext]
    exact h.numbers n hn
  · rw [hongoing]
    exact h.open_iff n
  · rw [hongoing]
    exact h.apart n hn

theorem Ledger.aside (h : Ledger k hist w) (ha : Aside w w')
    (hcounters : (w'.hook k).counters.ofTransactions = (w.hook k).counters.ofTransactions) :
    Ledger k hist w' := by
  refine h.congr hcounters ha.nextTransaction (fun n t ht => ?_) fun n => ?_
  · rw [ha.transactions] at ht
    exact h.entries n t ht
  · rw [ongoing_iff, ongoing_iff, ha.transactions]

theorem Ledger.begin (h : Ledger k hist w) (caller : Caller) :
    Ledger k (hist ++ [.begun w.nextTransaction]) (w.begin k caller).2 := by
  have hfresh : w.nextTransaction ∉ begunIn hist := fun hin => Nat.lt_irrefl _ (h.numbers _ hin)
  have hcounters : ((w.begin k caller).2.hook k).counters = (w.hook k).counters.recordBegin := by
    refine (congrArg CommitHook.counters (hook_setHook w k k fun a =>
      { a with nextTxn := a.nextTxn + 1, counters := a.counters.recordBegin })).trans ?_
    rw [if_pos rfl]
  refine ⟨?_, fun n hn => ?_, fun n t ht => ?_, fun n => ?_, fun n hn => ?_⟩
  · rw [hcounters]
    exact h.counted.begin hfresh
  · have hn' : n ∈ begunIn hist ∨ n = w.nextTransaction := by simpa [begunIn] using hn
    rcases hn' with hn' | rfl
    · exact Nat.lt_succ_of_lt (h.numbers n hn')
    · exact Nat.lt_succ_self _
  · rcases get?_of_begin ht with ⟨-, rfl⟩ | ⟨-, ht⟩
    · refine ⟨rfl, fun c hc => ?_⟩
      obtain rfl := Option.some.inj hc
      exact ⟨rfl, rfl⟩
    · exact h.entries n t ht
  · rw [openIn_concat, endingIn_concat, ongoing_begin, update, turn, List.mem_append,
      List.mem_singleton, h.open_iff]
    exact or_comm.trans (or_assoc ..).symm
  · rw [endingIn_concat] at hn
    rw [ongoing_begin]
    rintro (rfl | hongoing)
    · exact hfresh (h.counted.begun_of_open ((h.open_iff _).2 (Or.inr hn)))
    · exact h.apart n hn hongoing

theorem Ledger.operation (h : Ledger k hist w) {o : Operation} {r : Except Failure Unit}
    (ho : w.onTransaction n (Operation.run o) = some (r, w')) : Ledger k hist w' := by
  obtain ⟨t, c, s, ht, hrun, rfl⟩ := onTransaction_eq_some ho
  obtain ⟨hget, hc⟩ := transaction?_eq_some.1 ht
  have hframe := Operation.frame hrun
  refine h.congr rfl rfl (fun m t' ht' => ?_) fun m => ?_
  · rcases get?_of_put ht' with ⟨rfl, rfl⟩ | ⟨-, ht'⟩
    · rw [EndsThrough, hframe.hook, hframe.context]
      exact h.entries _ t hget
    · exact h.entries m t' ht'
  · rw [ongoing_iff, ongoing_iff, get?_put]
    by_cases e : m = n
    · rw [if_pos e, e]
      exact iff_of_true ⟨s.2, c, rfl, hframe.context.trans hc⟩ ⟨t, c, hget, hc⟩
    · rw [if_neg e]

theorem Ledger.close (h : Ledger k hist w) (ht : w.transaction? n = some (t, c)) :
    Ledger k (hist ++ [.closed n]) (w.close n) := by
  refine ⟨h.counted.close n, fun m hm => ?_, fun m t' ht' => ?_, fun m => ?_, fun m hm => ?_⟩
  · exact h.numbers m (by simpa [begunIn] using hm)
  · obtain ⟨t₀, ht₀, he, hc⟩ := get?_of_close ht'
    obtain ⟨hhook, hcontext⟩ := h.entries m t₀ ht₀
    exact ⟨by rw [he]; exact hhook, fun c' hc' => hcontext c' (hc c' hc')⟩
  · rw [openIn_concat, endingIn_concat, ongoing_close, update, turn, Set.mem_insert_iff, h.open_iff]
    by_cases e : m = n
    · simp only [e, ne_eq, not_true_eq_false, false_and, true_or, or_true, iff_true]
      exact Or.inl ⟨t, c, ht⟩
    · simp only [e, ne_eq, not_false_eq_true, true_and, false_or]
  · rw [endingIn_concat, turn, Set.mem_insert_iff] at hm
    rw [ongoing_close]
    rintro ⟨hne, hongoing⟩
    exact h.apart m (hm.resolve_left hne) hongoing

/-- What counts the end of a transaction. -/
theorem Ledger.end (h : Ledger k hist w) (hn : n ∈ endingIn hist) {m : Milestone}
    {f : Counters → Counters} (hcounted : Counted (hist ++ [m]) (f (w.hook k).counters))
    (hm : m.Ends n) : Ledger k (hist ++ [m]) (w.count k f) := by
  have hcounters : ((w.count k f).hook k).counters = f (w.hook k).counters := by
    rw [World.count, hook_setHook, if_pos rfl]
  refine ⟨hcounters ▸ hcounted, ?_, h.entries, fun n' => ?_, fun n' hn' => ?_⟩
  · rw [hm.begunIn]
    exact h.numbers
  · rw [hm.openIn, h.counted.nodup_open.mem_erase_iff, h.open_iff, hm.endingIn]
    constructor
    · exact fun ⟨hne, ho⟩ => ho.imp_right fun hin => ⟨hin, hne⟩
    · rintro (hongoing | ⟨hin, hne⟩)
      · refine ⟨?_, Or.inl hongoing⟩
        rintro rfl
        exact h.apart n' hn hongoing
      · exact ⟨hne, Or.inr hin⟩
  · rw [hm.endingIn] at hn'
    exact h.apart n' hn'.1

theorem Ledger.forget (h : Ledger k hist w) (hn : ¬ w.Ongoing n) (txn : TxnId) :
    Ledger k hist (w.forget n txn) := by
  refine h.congr rfl rfl (fun m t ht => h.entries m t (get?_of_forget ht).2) fun m => ?_
  rw [ongoing_forget, and_iff_right_iff_imp]
  rintro hongoing rfl
  exact hn hongoing

theorem Ledger.settle (h : Ledger k hist w) (hn : ¬ w.Ongoing n) (t : Transaction) :
    Ledger k hist (w.settle n t) := by
  have happly : Ledger k hist
      { w with graph.committed := w.graph.committed.apply t.working t.changes } :=
    h.congr rfl rfl h.entries fun _ => Iff.rfl
  exact happly.forget hn t.txn

theorem Ledger.open_of_ending (h : Ledger k hist w) (hn : n ∈ endingIn hist) : n ∈ openIn hist :=
  (h.open_iff n).2 (Or.inr hn)

theorem Tallied.ledger (h : Tallied k w hist w₁) (h₀ : Ledger k [] w) : Ledger k hist w₁ := by
  induction h with
  | refl => exact h₀
  | aside _ ha hcount ih => exact (ih).aside ha hcount
  | begin caller _ ih => exact (ih).begin caller
  | operation _ ho ih => exact (ih).operation ho
  | close _ ht ih => exact (ih).close ht
  | commit _ hn ht _ hledger =>
    obtain ⟨rfl, -⟩ := hledger.entries _ _ ht
    exact (hledger.settle (hledger.apart _ hn) _).end hn
      (hledger.counted.commit (hledger.open_of_ending hn)) (Or.inl rfl)
  | undo _ hn ht hledger =>
    obtain ⟨rfl, -⟩ := hledger.entries _ _ ht
    exact hledger.end hn (hledger.counted.rollback (hledger.open_of_ending hn)) (Or.inr rfl)
  | forget _ hn _ hledger =>
    have hclosed := hledger.counted.not_open_of_rolledBack hn
    exact hledger.forget (fun hongoing => hclosed ((hledger.open_iff _).2 (Or.inl hongoing))) _

/-- A new graph, and a hook that has counted nothing. -/
theorem ledger_start {schema : Schema} {locks : LockTable} {table : Assoc Nat (CommitHook L)}
    {host : H} (h : ((start schema locks table host).hook k).counters.ofTransactions = {}) :
    Ledger k [] (start schema locks table host) where
  counted := counted_nil.congr h
  numbers := by simp [begunIn]
  entries := by simp [start]
  open_iff := by simp [openIn, endingIn, ongoing_iff, start]
  apart := by simp [endingIn]

end World
end EntityGraph
