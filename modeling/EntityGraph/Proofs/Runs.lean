import EntityGraph.Proofs.Deliveries
import EntityGraph.Proofs.Operations
import Mathlib.Data.Set.Insert

/-!
Runs of a world. Operations, commits and rollbacks of any number of transactions follow each other
in any order, and while listeners are told of an end they may make a run of their own. A run lists
the commits that succeeded, in the order in which their changes were applied.

Main statements: `Reaches.committed_eq` — nothing but these commits changes the committed state;
`Reaches.closed` — a transaction that is about to end is out of reach of what happens meanwhile.
-/

namespace EntityGraph

/-- A commit that succeeded: the number of the transaction, the state to which its changes were
applied, and the transaction. -/
structure CommitRecord where
  handle : Nat
  before : GraphState
  transaction : Transaction

/-- The state that a commit left. -/
def CommitRecord.after (c : CommitRecord) : GraphState :=
  c.before.apply c.transaction.working c.transaction.changes

/-- Each commit applies its changes to what the one before it left. -/
def Chained : GraphState → List CommitRecord → Prop
  | _, [] => True
  | g, c :: cs => c.before = g ∧ Chained c.after cs

namespace World
variable {L H : Type}

/-- A new graph over a schema and its locks. -/
def start (schema : Schema) (locks : LockTable) (hooks : Assoc Nat (CommitHook L)) (host : H) :
    World L H :=
  { graph := { schema, locks }, hooks, host }

/-- The transaction and the graph after a step of an operation. -/
def put (w : World L H) (n : Nat) (s : Graph × Transaction) : World L H :=
  { w with graph := s.1, transactions := w.transactions.put n s.2 }

/-- The changes of a transaction are applied, and it is forgotten. -/
def settle (w : World L H) (n : Nat) (t : Transaction) : World L H :=
  ({ w with graph.committed := w.graph.committed.apply t.working t.changes }).forget n t.txn

/-- Nothing changes but hooks and what listeners keep, and no hook gives an identity out again. -/
structure Aside (w w' : World L H) : Prop where
  graph : w'.graph = w.graph
  transactions : w'.transactions = w.transactions
  nextTransaction : w'.nextTransaction = w.nextTransaction
  nextTxn : ∀ h, (w.hook h).nextTxn ≤ (w'.hook h).nextTxn

/-- Runs in which transactions begin with the given hooks. -/
inductive Reaches (hooks : Set Nat) : World L H → List CommitRecord → World L H → Prop
  | refl (w) : Reaches hooks w [] w
  | aside {w log w₁ w₂} (run : Reaches hooks w log w₁) (h : Aside w₁ w₂) : Reaches hooks w log w₂
  | begin {w log w₁ h} (caller : Caller) (run : Reaches hooks w log w₁) (hh : h ∈ hooks) :
    Reaches hooks w log (w₁.begin h caller).2
  | operation {w log w₁ n o r w₂} (run : Reaches hooks w log w₁)
    (h : w₁.onTransaction n (Operation.run o) = some (r, w₂)) : Reaches hooks w log w₂
  /-- Listeners make a run, after which the change set still fits. -/
  | commit {w log w₁ n t c log' w₂} (run : Reaches hooks w log w₁)
    (ht : w₁.transaction? n = some (t, c)) (meanwhile : Reaches hooks (w₁.close n) log' w₂)
    (hfits : t.changes.conflict? w₂.graph.committed = none) :
    Reaches hooks w (log ++ log' ++ [⟨n, w₂.graph.committed, t⟩]) (w₂.settle n t)
  /-- Listeners make a run. -/
  | rollback {w log w₁ n t c log' w₂} (run : Reaches hooks w log w₁)
    (ht : w₁.transaction? n = some (t, c)) (meanwhile : Reaches hooks (w₁.close n) log' w₂) :
    Reaches hooks w (log ++ log') (w₂.forget n t.txn)

/-- Whatever listeners do is a run. -/
def Lawful (hooks : Set Nat) (react : Reaction L H) : Prop :=
  ∀ l caller txn e w r w', react l caller txn e w = some (r, w') → ∃ log, Reaches hooks w log w'

variable {hooks : Set Nat} {w w₁ w₂ : World L H} {log log' : List CommitRecord}

theorem Reaches.trans (h : Reaches hooks w log w₁) (h' : Reaches hooks w₁ log' w₂) :
    Reaches hooks w (log ++ log') w₂ := by
  induction h' with
  | refl => simpa using h
  | aside _ ha ih => exact (ih h).aside ha
  | begin caller _ hh ih => exact (ih h).begin caller hh
  | operation _ ho ih => exact (ih h).operation ho
  | commit _ ht meanwhile hfits ih _ =>
    simpa only [List.append_assoc] using (ih h).commit ht meanwhile hfits
  | rollback _ ht meanwhile ih _ =>
    simpa only [List.append_assoc] using (ih h).rollback ht meanwhile

/-! ### Looking up transactions -/

theorem transaction?_eq_some {w : World L H} {n : Nat} {t : Transaction} {c : TransactionContext} :
    w.transaction? n = some (t, c) ↔ w.transactions.get? n = some t ∧ t.context = some c := by
  rw [transaction?]
  cases ht : w.transactions.get? n with
  | none => simp
  | some t' =>
    cases hc : t'.context with
    | none =>
      simp only [bind, Option.bind, hc]
      constructor
      · simp
      · rintro ⟨h, hc'⟩
        obtain rfl := Option.some.inj h
        simp [hc] at hc'
    | some c' =>
      simp only [bind, Option.bind, hc, pure, Option.some.injEq, Prod.mk.injEq]
      constructor
      · rintro ⟨rfl, rfl⟩
        exact ⟨rfl, hc⟩
      · rintro ⟨rfl, hc'⟩
        exact ⟨rfl, Option.some.inj (hc.symm.trans hc')⟩

theorem ne_of_open {w : World L H} {n m : Nat} {t t' : Transaction} {c : TransactionContext}
    (hm : w.transaction? m = some (t', c)) (hn : w.transactions.get? n = some t)
    (hc : t.context = none) : n ≠ m := by
  rintro rfl
  obtain ⟨hm, hc'⟩ := transaction?_eq_some.1 hm
  obtain rfl := Option.some.inj (hm.symm.trans hn)
  simp [hc] at hc'

theorem onTransaction_eq_some {α : Type} {w w' : World L H} {n : Nat}
    {op : Graph → Transaction → Transaction.Outcome α} {r : Except Failure α}
    (h : w.onTransaction n op = some (r, w')) :
    ∃ t c s, w.transaction? n = some (t, c) ∧ op w.graph t = some (r, s) ∧ w' = w.put n s := by
  rw [onTransaction] at h
  split at h
  · simp at h
  · next t c ht =>
    obtain ⟨⟨r', g, t'⟩, hop, he⟩ := Option.map_eq_some_iff.1 h
    obtain ⟨rfl, rfl⟩ := Prod.mk.inj he
    exact ⟨t, c, (g, t'), ht, hop, rfl⟩

theorem get?_close (w : World L H) (n m : Nat) : (w.close n).transactions.get? m =
    if m = n then (w.transactions.get? m).map ({ · with context := none })
    else w.transactions.get? m :=
  Assoc.get?_adjust w.transactions n ({ · with context := none }) m

/-- Whoever is open after a transaction is closed was open before, and may have lost its context. -/
theorem get?_of_close {w : World L H} {n m : Nat} {t : Transaction}
    (h : (w.close n).transactions.get? m = some t) :
    ∃ t₀, w.transactions.get? m = some t₀ ∧ t = { t₀ with context := t.context } ∧
      ∀ c, t.context = some c → t₀.context = some c := by
  rw [get?_close] at h
  split at h
  · obtain ⟨t₀, ht₀, rfl⟩ := Option.map_eq_some_iff.1 h
    exact ⟨t₀, ht₀, rfl, by simp⟩
  · exact ⟨t, h, rfl, fun _ => id⟩

theorem get?_forget (w : World L H) (n : Nat) (txn : TxnId) (m : Nat) :
    (w.forget n txn).transactions.get? m = if m = n then none else w.transactions.get? m :=
  Assoc.get?_without _ _ _

/-- Whoever is open after a transaction is forgotten is another one. -/
theorem get?_of_forget {w : World L H} {n m : Nat} {txn : TxnId} {t : Transaction}
    (h : (w.forget n txn).transactions.get? m = some t) :
    m ≠ n ∧ w.transactions.get? m = some t := by
  rw [get?_forget] at h
  split at h
  · simp at h
  · next e => exact ⟨e, h⟩

theorem get?_put (w : World L H) (n : Nat) (s : Graph × Transaction) (m : Nat) :
    (w.put n s).transactions.get? m = if m = n then some s.2 else w.transactions.get? m :=
  Assoc.get?_put _ _ _ _

/-- Whoever is open after an operation is the one that made it, or another one. -/
theorem get?_of_put {w : World L H} {n m : Nat} {s : Graph × Transaction} {t : Transaction}
    (h : (w.put n s).transactions.get? m = some t) :
    m = n ∧ t = s.2 ∨ m ≠ n ∧ w.transactions.get? m = some t := by
  rw [get?_put] at h
  split at h
  · next e => exact Or.inl ⟨e, (Option.some.inj h).symm⟩
  · next e => exact Or.inr ⟨e, h⟩

/-- The transaction that begins. -/
def newcomer (w : World L H) (h : Nat) (caller : Caller) : Transaction :=
  { txn := ⟨(w.hook h).nextTxn⟩, caller, hook := h
    context := some { txn := ⟨(w.hook h).nextTxn⟩, caller }, working := w.graph.committed }

theorem get?_begin (w : World L H) (h : Nat) (caller : Caller) (m : Nat) :
    (w.begin h caller).2.transactions.get? m =
      if m = w.nextTransaction then some (w.newcomer h caller) else w.transactions.get? m :=
  Assoc.get?_put _ _ _ _

/-- Whoever is open after a transaction began is the new one, or was open before. -/
theorem get?_of_begin {w : World L H} {k m : Nat} {caller : Caller} {t : Transaction}
    (h : (w.begin k caller).2.transactions.get? m = some t) :
    m = w.nextTransaction ∧ t = w.newcomer k caller ∨
      m ≠ w.nextTransaction ∧ w.transactions.get? m = some t := by
  rw [get?_begin] at h
  split at h
  · next e => exact Or.inl ⟨e, (Option.some.inj h).symm⟩
  · next e => exact Or.inr ⟨e, h⟩

/-- The hook of a transaction that begins gives its identity to nobody else. -/
theorem nextTxn_begin (w : World L H) (h : Nat) (caller : Caller) (h' : Nat) :
    ((w.begin h caller).2.hook h').nextTxn =
      if h' = h then (w.hook h).nextTxn + 1 else (w.hook h').nextTxn := by
  refine (congrArg CommitHook.nextTxn (hook_setHook w h h' fun k =>
    { k with nextTxn := k.nextTxn + 1, counters := k.counters.recordBegin })).trans ?_
  split <;> rfl

/-! ### Runs -/

/-- What the commits of a run make of the committed state, each applied to what the ones before it
left. -/
def replay (g : GraphState) (log : List CommitRecord) : GraphState :=
  log.foldl (fun g c => g.apply c.transaction.working c.transaction.changes) g

theorem replay_append (g : GraphState) (log log' : List CommitRecord) :
    replay g (log ++ log') = replay (replay g log) log' := List.foldl_append ..

theorem Reaches.committed_eq (h : Reaches hooks w log w₁) :
    w₁.graph.committed = replay w.graph.committed log := by
  induction h with
  | refl => rfl
  | aside _ ha ih => rw [ha.graph, ih]
  | begin caller _ _ ih => exact ih
  | operation _ ho ih =>
    obtain ⟨t, c, s, -, hop, rfl⟩ := onTransaction_eq_some ho
    exact (Operation.frame hop).committed.trans ih
  | commit _ _ _ _ ih ihm =>
    rw [replay_append, replay_append, ← ih]
    exact congrArg (GraphState.apply · _ _) ihm
  | rollback _ _ _ ih ihm =>
    rw [replay_append, ← ih]
    exact ihm

theorem chained_append {g : GraphState} {log log' : List CommitRecord} :
    Chained g (log ++ log') ↔ Chained g log ∧ Chained (replay g log) log' := by
  induction log generalizing g with
  | nil => simp [Chained, replay]
  | cons c log ih =>
    rw [List.cons_append, Chained, Chained, ih, and_assoc]
    refine and_congr_right fun h => ?_
    rw [replay, replay, List.foldl_cons, ← h]
    rfl

theorem Reaches.chained (h : Reaches hooks w log w₁) : Chained w.graph.committed log := by
  induction h with
  | refl => exact trivial
  | aside _ _ ih => exact ih
  | begin _ _ _ ih => exact ih
  | operation _ _ ih => exact ih
  | commit run _ meanwhile _ ih ihm =>
    have hall : Chained _ _ := chained_append.2 ⟨ih, run.committed_eq ▸ ihm⟩
    refine chained_append.2 ⟨hall, ?_, trivial⟩
    rw [replay_append, ← run.committed_eq]
    exact meanwhile.committed_eq
  | rollback run _ _ ih ihm => exact chained_append.2 ⟨ih, run.committed_eq ▸ ihm⟩

theorem Reaches.nextTransaction_le (h : Reaches hooks w log w₁) :
    w.nextTransaction ≤ w₁.nextTransaction := by
  induction h with
  | refl => exact Nat.le_refl _
  | aside _ ha ih => exact ha.nextTransaction ▸ ih
  | begin caller _ _ ih => exact Nat.le_succ_of_le ih
  | operation _ ho ih =>
    obtain ⟨t, c, s, -, -, rfl⟩ := onTransaction_eq_some ho
    exact ih
  | commit _ _ _ _ ih ihm => exact ih.trans ihm
  | rollback _ _ _ ih ihm => exact ih.trans ihm

/-- A transaction whose context was taken stays as it is, and no commit is its own. -/
theorem Reaches.closed (h : Reaches hooks w log w₁) {n : Nat} {t : Transaction}
    (hn : n < w.nextTransaction) (ht : w.transactions.get? n = some t) (hc : t.context = none) :
    w₁.transactions.get? n = some t ∧ ∀ c ∈ log, c.handle ≠ n := by
  induction h with
  | refl => exact ⟨ht, by simp⟩
  | aside _ ha ih =>
    rw [ha.transactions]
    exact ih hn ht
  | begin caller run _ ih =>
    have hlt := Nat.lt_of_lt_of_le hn run.nextTransaction_le
    rw [get?_begin, if_neg (Nat.ne_of_lt hlt)]
    exact ih hn ht
  | operation _ ho ih =>
    obtain ⟨t', c', s, ht', -, rfl⟩ := onTransaction_eq_some ho
    obtain ⟨hget, hlog⟩ := ih hn ht
    rw [get?_put, if_neg (ne_of_open ht' hget hc)]
    exact ⟨hget, hlog⟩
  | @commit w log w₁ m t' c' log' w₂ run ht' _ _ ih ihm =>
    obtain ⟨hget, hlog⟩ := ih hn ht
    have hne : n ≠ m := ne_of_open ht' hget hc
    obtain ⟨hget₂, hlog₂⟩ := ihm (Nat.lt_of_lt_of_le hn run.nextTransaction_le)
      (by rw [get?_close, if_neg hne]; exact hget)
    refine ⟨by rw [settle, get?_forget, if_neg hne]; exact hget₂, fun d hd => ?_⟩
    rcases List.mem_append.1 hd with hd | hd
    · exact (List.mem_append.1 hd).elim (hlog d) (hlog₂ d)
    · rw [List.mem_singleton.1 hd]
      exact hne.symm
  | @rollback w log w₁ m t' c' log' w₂ run ht' _ ih ihm =>
    obtain ⟨hget, hlog⟩ := ih hn ht
    have hne : n ≠ m := ne_of_open ht' hget hc
    obtain ⟨hget₂, hlog₂⟩ := ihm (Nat.lt_of_lt_of_le hn run.nextTransaction_le)
      (by rw [get?_close, if_neg hne]; exact hget)
    refine ⟨by rw [get?_forget, if_neg hne]; exact hget₂, fun d hd => ?_⟩
    exact (List.mem_append.1 hd).elim (hlog d) (hlog₂ d)

/-! ### What listeners make -/

theorem aside_setHook (w : World L H) (h : Nat) (f : CommitHook L → CommitHook L)
    (hf : ∀ k, k.nextTxn ≤ (f k).nextTxn) : Aside w (w.setHook h f) := by
  refine ⟨rfl, rfl, rfl, fun h' => ?_⟩
  rw [hook_setHook]
  split
  · next e => rw [e]; exact hf _
  · exact Nat.le_refl _

theorem aside_count (w : World L H) (h : Nat) (f : Counters → Counters) : Aside w (w.count h f) :=
  aside_setHook w h _ fun _ => Nat.le_refl _

theorem Told.reaches {react : Reaction L H} (hl : Lawful hooks react) {caller : Caller}
    {txn : TxnId} {ds : List (Delivery L)} (h : Told react caller txn w ds w₁) :
    ∃ log, Reaches hooks w log w₁ := by
  induction h with
  | nil => exact ⟨[], .refl _⟩
  | count _ h f ih =>
    obtain ⟨log, hrun⟩ := ih
    exact ⟨log, hrun.aside (aside_count _ h f)⟩
  | call _ hr ih =>
    obtain ⟨log, hrun⟩ := ih
    obtain ⟨log', hrun'⟩ := hl _ _ _ _ _ _ _ hr
    exact ⟨log ++ log', hrun.trans hrun'⟩

end World
end EntityGraph
