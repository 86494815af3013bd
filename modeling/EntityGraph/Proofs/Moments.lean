import EntityGraph.Proofs.Consistency

/-!
Moments of a run. Between two of its moves a run can be looked at, also while listeners are told of
an end, and what is looked at is the committed state and what each open transaction works on.

Main statements: `Moves.keeps` — what every step keeps and every commit holds of all states at each
moment; `Moves.transactions` — what a transaction begins with and every step keeps holds of all
transactions; `Invariant.moves` — so does what is kept of the world as a whole.
-/

namespace EntityGraph

namespace World
variable {L H : Type}

/-- The state is committed, or an open transaction works on it. -/
def Holds (w : World L H) (g : GraphState) : Prop :=
  g = w.graph.committed ∨ ∃ n t, w.transactions.get? n = some t ∧ g = t.working

/-- One move of a run. An end is three moves or more: the transaction is closed, listeners move, and
then its changes are applied if they still fit, or not. -/
inductive Move (hooks : Set Nat) : World L H → World L H → Prop
  | aside {w w'} (h : Aside w w') : Move hooks w w'
  | begin {w h} (caller : Caller) (hh : h ∈ hooks) : Move hooks w (w.begin h caller).2
  | operation {w n o r w'} (h : w.onTransaction n (Operation.run o) = some (r, w')) :
    Move hooks w w'
  | close {w n t c} (ht : w.transaction? n = some (t, c)) : Move hooks w (w.close n)
  | settle {w n} {t : Transaction}
    (ht : w.transactions.get? n = some { t with context := none })
    (hfits : t.changes.conflict? w.graph.committed = none) : Move hooks w (w.settle n t)
  | forget {w n} {t : Transaction} (ht : w.transactions.get? n = some { t with context := none }) :
    Move hooks w (w.forget n t.txn)

/-- Moves, one after the other. -/
abbrev Moves (hooks : Set Nat) : World L H → World L H → Prop := Relation.ReflTransGen (Move hooks)

variable {hooks : Set Nat} {w w' w₁ : World L H} {origin : Nat → GraphState}

/-- A run is a sequence of moves, and so is what happens until a listener is told something. -/
theorem Reaches.moves {log : List CommitRecord} (h : Reaches hooks w log w₁)
    (hs : Sound origin w) : Moves hooks w w₁ := by
  induction h generalizing origin with
  | refl => exact .refl
  | aside _ ha ih => exact (ih hs).tail (.aside ha)
  | begin caller _ hh ih => exact (ih hs).tail (.begin caller hh)
  | operation _ hop ih => exact (ih hs).tail (.operation hop)
  | commit run ht meanwhile hfits ih ihm =>
    obtain ⟨o, ho, -⟩ := run.sound hs
    obtain ⟨hclosed, -⟩ := ho.closed ht meanwhile
    have hmeanwhile := ((ih hs).tail (.close ht)).trans (ihm (ho.close _))
    exact hmeanwhile.tail (.settle hclosed hfits)
  | rollback run ht meanwhile ih ihm =>
    obtain ⟨o, ho, -⟩ := run.sound hs
    obtain ⟨hclosed, -⟩ := ho.closed ht meanwhile
    have hmeanwhile := ((ih hs).tail (.close ht)).trans (ihm (ho.close _))
    exact hmeanwhile.tail (.forget hclosed)

/-- Operations keep to steps, also where only moves are known. -/
theorem steps_of_onTransaction (hs : Sound origin w) {n : Nat} {o : Operation}
    {r : Except Failure Unit} (h : w.onTransaction n (Operation.run o) = some (r, w')) :
    ∃ t s, w.transactions.get? n = some t ∧ Transaction.Steps (w.graph, t) s ∧ w' = w.put n s := by
  obtain ⟨t, c, s, ht, hrun, rfl⟩ := onTransaction_eq_some h
  obtain ⟨ht, -⟩ := transaction?_eq_some.1 ht
  exact ⟨t, s, ht, Operation.steps (hs.tracks n t ht).tidy hrun, rfl⟩

/-- Each open transaction keeps the state that it began with. -/
theorem Move.origins (h : Move hooks w w') (hs : Sound origin w) :
    ∃ origin', Sound origin' w' ∧ w.nextTransaction ≤ w'.nextTransaction ∧
      ∀ n < w.nextTransaction, origin' n = origin n := by
  have hsame : ∀ n < w.nextTransaction, origin n = origin n := fun _ _ => rfl
  cases h with
  | aside ha => exact ⟨_, hs.aside ha, ha.nextTransaction.ge, hsame⟩
  | begin caller =>
    refine ⟨_, hs.begin _ caller, Nat.le_succ _, fun n hn => ?_⟩
    exact Function.update_of_ne (Nat.ne_of_lt hn) _ _
  | operation hop =>
    obtain ⟨t, s, ht, hsteps, rfl⟩ := steps_of_onTransaction hs hop
    exact ⟨_, hs.put ht hsteps, Nat.le_refl _, hsame⟩
  | close ht => exact ⟨_, hs.close _, Nat.le_refl _, hsame⟩
  | settle ht =>
    have hsettled := hs.settle ht
    exact ⟨_, hsettled, Nat.le_refl _, hsame⟩
  | forget ht => exact ⟨_, hs.forget _ _, Nat.le_refl _, hsame⟩

theorem Move.sound (h : Move hooks w w') (hs : Sound origin w) : ∃ origin', Sound origin' w' := by
  obtain ⟨o, ho, -⟩ := h.origins hs
  exact ⟨o, ho⟩

theorem Move.mono {hooks' : Set Nat} (h : Move hooks w w') (hsub : hooks ⊆ hooks') :
    Move hooks' w w' := by
  cases h with
  | aside ha => exact .aside ha
  | begin caller hh => exact .begin caller (hsub hh)
  | operation hop => exact .operation hop
  | close ht => exact .close ht
  | settle ht hfits => exact .settle ht hfits
  | forget ht => exact .forget ht

theorem Move.frame (h : Move hooks w w') (hs : Sound origin w) :
    w'.graph.schema = w.graph.schema ∧ w.graph.nextNode ≤ w'.graph.nextNode := by
  cases h with
  | aside ha => rw [ha.graph]; exact ⟨rfl, Nat.le_refl _⟩
  | operation hop =>
    obtain ⟨t, s, ht, hsteps, rfl⟩ := steps_of_onTransaction hs hop
    exact ⟨hsteps.frame.schema, hsteps.grows.nextNode⟩
  | begin | close | settle | forget => exact ⟨rfl, Nat.le_refl _⟩

/-- What becomes of the committed state: it stays, or a commit applies its changes. -/
theorem Move.committed (h : Move hooks w w') (hs : Sound origin w) :
    w'.graph.committed = w.graph.committed ∨
      ∃ n t, w.transactions.get? n = some t ∧ t.changes.Fits w.graph.committed ∧
        w'.graph.committed = w.graph.committed.apply t.working t.changes := by
  cases h with
  | aside ha => exact Or.inl (congrArg Graph.committed ha.graph)
  | operation hop =>
    obtain ⟨t, s, ht, hsteps, rfl⟩ := steps_of_onTransaction hs hop
    exact Or.inl hsteps.frame.committed
  | settle ht hfits =>
    exact Or.inr ⟨_, _, ht, (ChangeSet.conflict?_eq_none_iff _ _).1 hfits, rfl⟩
  | begin | close | forget => exact Or.inl rfl

theorem Holds.of_put {n : Nat} {t : Transaction} {s : Graph × Transaction} {g : GraphState}
    (hsteps : Transaction.Steps (w.graph, t) s) (hg : (w.put n s).Holds g) :
    w.Holds g ∨ g = s.2.working := by
  rcases hg with rfl | ⟨m, t', ht', rfl⟩
  · exact Or.inl (Or.inl hsteps.frame.committed)
  · rcases get?_of_put ht' with ⟨-, rfl⟩ | ⟨-, ht'⟩
    · exact Or.inr rfl
    · exact Or.inl (Or.inr ⟨m, t', ht', rfl⟩)

/-- What becomes of states: an operation changes one working copy, and any other move leaves states
that were there before, or what a commit makes of the committed one. -/
theorem Move.states (h : Move hooks w w') (hs : Sound origin w) :
    (∃ n t s, w.transactions.get? n = some t ∧ Transaction.Steps (w.graph, t) s ∧
      w' = w.put n s) ∨
    ∀ g, w'.Holds g → w.Holds g ∨ ∃ n t, w.transactions.get? n = some t ∧
      t.changes.Fits w.graph.committed ∧ g = w.graph.committed.apply t.working t.changes := by
  cases h with
  | aside ha =>
    refine Or.inr fun g hg => Or.inl ?_
    rwa [Holds, ha.graph, ha.transactions] at hg
  | begin caller =>
    refine Or.inr fun g hg => Or.inl ?_
    rcases hg with rfl | ⟨n, t, ht, rfl⟩
    · exact Or.inl rfl
    · rcases get?_of_begin ht with ⟨-, rfl⟩ | ⟨-, ht⟩
      · exact Or.inl rfl
      · exact Or.inr ⟨n, t, ht, rfl⟩
  | operation hop =>
    obtain ⟨t, s, ht, hsteps, rfl⟩ := steps_of_onTransaction hs hop
    exact Or.inl ⟨_, t, s, ht, hsteps, rfl⟩
  | close =>
    refine Or.inr fun g hg => Or.inl ?_
    rcases hg with rfl | ⟨n, t, ht, rfl⟩
    · exact Or.inl rfl
    · obtain ⟨t₀, ht₀, he, -⟩ := get?_of_close ht
      exact Or.inr ⟨n, t₀, ht₀, by rw [he]⟩
  | settle ht hfits =>
    refine Or.inr fun g hg => ?_
    rcases hg with rfl | ⟨m, t', ht', rfl⟩
    · exact Or.inr ⟨_, _, ht, (ChangeSet.conflict?_eq_none_iff _ _).1 hfits, rfl⟩
    · exact Or.inl (Or.inr ⟨m, t', (get?_of_forget ht').2, rfl⟩)
  | forget =>
    refine Or.inr fun g hg => Or.inl ?_
    rcases hg with rfl | ⟨m, t', ht', rfl⟩
    · exact Or.inl rfl
    · exact Or.inr ⟨m, t', (get?_of_forget ht').2, rfl⟩

/-- Whoever is open after a move has just begun, or was open before and made steps, perhaps none; it
may have lost its context. -/
theorem Move.transaction (h : Move hooks w w') (hs : Sound origin w) {n : Nat} {t : Transaction}
    (ht : w'.transactions.get? n = some t) :
    (∃ k caller, t = w.newcomer k caller) ∨
      ∃ t₀ s, w.transactions.get? n = some t₀ ∧ Transaction.Steps (w.graph, t₀) s ∧
        t = { s.2 with context := t.context } := by
  cases h with
  | aside ha =>
    rw [ha.transactions] at ht
    exact Or.inr ⟨t, _, ht, .refl, rfl⟩
  | @begin k caller hk =>
    rcases get?_of_begin ht with ⟨-, rfl⟩ | ⟨-, ht⟩
    · exact Or.inl ⟨k, caller, rfl⟩
    · exact Or.inr ⟨t, _, ht, .refl, rfl⟩
  | operation hop =>
    obtain ⟨t₀, s, ht₀, hsteps, rfl⟩ := steps_of_onTransaction hs hop
    rcases get?_of_put ht with ⟨rfl, rfl⟩ | ⟨-, ht⟩
    · exact Or.inr ⟨t₀, s, ht₀, hsteps, rfl⟩
    · exact Or.inr ⟨t, _, ht, .refl, rfl⟩
  | close =>
    obtain ⟨t₀, ht₀, he, -⟩ := get?_of_close ht
    exact Or.inr ⟨t₀, _, ht₀, .refl, he⟩
  | settle => exact Or.inr ⟨t, _, (get?_of_forget ht).2, .refl, rfl⟩
  | forget => exact Or.inr ⟨t, _, (get?_of_forget ht).2, .refl, rfl⟩

theorem Moves.origins (h : Moves hooks w w') (hs : Sound origin w) :
    ∃ origin', Sound origin' w' ∧ w.nextTransaction ≤ w'.nextTransaction ∧
      ∀ n < w.nextTransaction, origin' n = origin n := by
  induction h with
  | refl => exact ⟨origin, hs, Nat.le_refl _, fun _ _ => rfl⟩
  | tail _ hmove ih =>
    obtain ⟨o, ho, hle, hold⟩ := ih
    obtain ⟨o', ho', hle', hold'⟩ := hmove.origins ho
    exact ⟨o', ho', hle.trans hle', fun n hn => (hold' n (hn.trans_le hle)).trans (hold n hn)⟩

theorem Moves.sound (h : Moves hooks w w') (hs : Sound origin w) :
    ∃ origin', Sound origin' w' := by
  obtain ⟨o, ho, -⟩ := Moves.origins h hs
  exact ⟨o, ho⟩

/-- Moves between which a transaction begins. -/
theorem Moves.through {h : Nat} {caller : Caller} (h₀ : Moves hooks w w₁)
    (h₁ : Moves hooks (w₁.begin h caller).2 w') : Moves Set.univ w w' := by
  have hmono : ∀ a b : World L H, Move hooks a b → Move Set.univ a b :=
    fun _ _ hmove => hmove.mono (Set.subset_univ _)
  have hbegin := (Relation.ReflTransGen.mono hmono _ _ h₀).tail (.begin caller (Set.mem_univ h))
  exact hbegin.trans (Relation.ReflTransGen.mono hmono _ _ h₁)

/-- At each later moment, the change set of a transaction leads from the state that was committed
when it began. -/
theorem tracks_after_begin {schema : Schema} {locks : LockTable}
    {table : Assoc Nat (CommitHook L)} {host : H} {k : Nat} {caller : Caller}
    (h₀ : Moves hooks (start schema locks table host) w)
    (run : Moves hooks (w.begin k caller).2 w') {t : Transaction}
    (ht : w'.transactions.get? (w.begin k caller).1 = some t) :
    Tracks w.graph.committed t.working t.changes := by
  obtain ⟨o₀, hs₀⟩ := h₀.sound (sound_start schema locks table host fun _ => {})
  obtain ⟨o, hs, -, hold⟩ := run.origins (hs₀.begin k caller)
  have horigin : o (w.begin k caller).1 = w.graph.committed :=
    (hold w.nextTransaction (Nat.lt_succ_self _)).trans (Function.update_self _ _ _)
  exact horigin ▸ hs.tracks _ t ht

theorem Moves.frame (h : Moves hooks w w') (hs : Sound origin w) :
    w'.graph.schema = w.graph.schema ∧ w.graph.nextNode ≤ w'.graph.nextNode := by
  induction h with
  | refl => exact ⟨rfl, Nat.le_refl _⟩
  | tail hmoves hmove ih =>
    obtain ⟨o, ho⟩ := Moves.sound hmoves hs
    obtain ⟨hschema, hnext⟩ := hmove.frame ho
    exact ⟨hschema.trans ih.1, ih.2.trans hnext⟩

/-- The identities of all nodes have been given out. -/
theorem Sound.lt_nextNode (hs : Sound origin w) {g : GraphState} (hg : w.Holds g) {id : NodeId}
    (hid : g.nodes.has id = true) : id.raw < w.graph.nextNode := by
  rcases hg with rfl | ⟨n, t, ht, rfl⟩
  · exact hs.nodes.committed_lt id.raw hid
  · exact hs.nodes.working_lt n id.raw ⟨t, ht, hid⟩

/-- A node that is committed at one moment is made by no transaction from then on, also once it is
deleted. -/
theorem Moves.not_created (h : Moves hooks w w') (hs : Sound origin w) {id : NodeId}
    (hid : w.graph.committed.nodes.has id = true) :
    ∀ n t, w'.transactions.get? n = some t → id ∉ t.changes.createdNodes := by
  induction h with
  | refl => exact fun n t ht => hs.not_created ht hid
  | tail hmoves hmove ih =>
    intro n t ht
    obtain ⟨o, ho⟩ := Moves.sound hmoves hs
    rcases hmove.transaction ho ht with ⟨k, caller, rfl⟩ | ⟨t₀, s, ht₀, hsteps, he⟩
    · exact List.not_mem_nil
    · rw [he]
      intro hcreated
      obtain ⟨hw, hnew⟩ := ((ho.tracks_steps ht₀ hsteps).created id).1 hcreated
      rcases hsteps.grows.nodes id.raw hw with hw₀ | ⟨hle, -⟩
      · exact ih n t₀ ht₀ (((ho.tracks n t₀ ht₀).created id).2 ⟨hw₀, hnew⟩)
      · have hlt := (hs.lt_nextNode (Or.inl rfl) hid).trans_le (Moves.frame hmoves hs).2
        exact Nat.not_lt.2 hle hlt

/-- A node that is committed at two moments is committed in between: nobody makes it again. -/
theorem Moves.has_between (h : Moves hooks w w₁) (hmove : Move hooks w₁ w') (hs : Sound origin w)
    {id : NodeId} (hid : w.graph.committed.nodes.has id = true)
    (hid' : w'.graph.committed.nodes.has id = true) :
    w₁.graph.committed.nodes.has id = true := by
  obtain ⟨o, ho⟩ := Moves.sound h hs
  rcases hmove.committed ho with he | ⟨n, t, ht, -, he⟩
  · rwa [he] at hid'
  · rw [he] at hid'
    have hin := (((ho.tracks n t ht).has_apply _ id).1 hid').2
    exact hin.resolve_left (Moves.not_created h hs hid n t ht)

theorem holds_start {schema : Schema} {locks : LockTable} {table : Assoc Nat (CommitHook L)}
    {host : H} {g : GraphState} (hg : (start schema locks table host).Holds g) : g = {} := by
  rcases hg with rfl | ⟨n, t, ht, -⟩
  · rfl
  · simp [start] at ht

/-! ### What every move keeps -/

/-- What every step keeps of a working copy, and every commit of the state that it makes, holds of
all states. -/
theorem Moves.keeps {P : Schema → GraphState → Prop} (h : Moves hooks w w')
    (hstep : ∀ {a b}, Transaction.Step a b → P a.1.schema a.2.working → P a.1.schema b.2.working)
    (happly : ∀ {s start working g c}, Tracks start working c → c.Fits g → g.Tidy →
      working.SameTypes g → P s working → P s g → P s (g.apply working c))
    (hs : Sound origin w) (hw : ∀ g, w.Holds g → P w.graph.schema g) :
    ∀ g, w'.Holds g → P w.graph.schema g := by
  have hsteps : ∀ {a b}, Transaction.Steps a b → P a.1.schema a.2.working →
      P a.1.schema b.2.working := by
    intro a b hab ha
    induction hab with
    | refl => exact ha
    | tail hab hstep' ih =>
      rw [← (Transaction.Steps.frame hab).schema] at ih ⊢
      exact hstep hstep' ih
  induction h with
  | refl => exact hw
  | tail hmoves hmove ih =>
    obtain ⟨o, ho⟩ := Moves.sound hmoves hs
    have hschema := (Moves.frame hmoves hs).1
    rcases hmove.states ho with ⟨n, t, s, ht, hrun, rfl⟩ | hstates
    · intro g hg
      rcases Holds.of_put hrun hg with hg | rfl
      · exact ih g hg
      · have hworking := ih t.working (Or.inr ⟨n, t, ht, rfl⟩)
        rw [← hschema] at hworking ⊢
        exact hsteps hrun hworking
    · intro g hg
      rcases hstates g hg with hg | ⟨n, t, ht, hfits, rfl⟩
      · exact ih g hg
      · exact happly (ho.tracks n t ht) hfits ho.tidy (ho.sameTypes ht)
          (ih _ (Or.inr ⟨n, t, ht, rfl⟩)) (ih _ (Or.inl rfl))

/-- What transactions begin with and every step keeps holds of all of them, if it is nothing about
their context. -/
theorem Moves.transactions {P : Schema → Transaction → Prop} (h : Moves hooks w w')
    (hnew : ∀ (w : World L H) k caller, P w.graph.schema (w.newcomer k caller))
    (hcontext : ∀ {s t} c, P s t → P s { t with context := c })
    (hstep : ∀ {start a b}, Tracks start a.2.working a.2.changes →
      Tracks start b.2.working b.2.changes → Transaction.Step a b → P a.1.schema a.2 →
        P a.1.schema b.2)
    (hs : Sound origin w) (hw : ∀ n t, w.transactions.get? n = some t → P w.graph.schema t) :
    ∀ n t, w'.transactions.get? n = some t → P w.graph.schema t := by
  induction h with
  | refl => exact hw
  | @tail m _ hmoves hmove ih =>
    intro n t ht
    obtain ⟨o, ho⟩ := Moves.sound hmoves hs
    have hschema := (Moves.frame hmoves hs).1
    rcases hmove.transaction ho ht with ⟨k, caller, rfl⟩ | ⟨t₀, s, ht₀, hsteps, he⟩
    · exact hschema ▸ hnew m k caller
    · have hall : ∀ s, Transaction.Steps (m.graph, t₀) s → P w.graph.schema s.2 := by
        intro s hsteps
        induction hsteps with
        | refl => exact ih n t₀ ht₀
        | tail hab hlast ih =>
          rw [← hschema, ← (Transaction.Steps.frame hab).schema] at ih ⊢
          exact hstep (ho.tracks_steps ht₀ hab) (ho.tracks_steps ht₀ (hab.tail hlast)) hlast ih
      rw [he]
      exact hcontext _ (hall s hsteps)

/-- An invariant holds at each moment of a run. -/
theorem Invariant.moves {P : World L H → Prop} (hi : Invariant hooks P) (h : Moves hooks w w')
    (hs : Sound origin w) (hp : P w) : P w' := by
  induction h with
  | refl => exact hp
  | tail hmoves hmove ih =>
    obtain ⟨o, ho⟩ := Moves.sound hmoves hs
    cases hmove with
    | aside ha => exact hi.aside ih ha
    | begin caller hk => exact hi.begin caller ih hk
    | operation hop =>
      obtain ⟨t, s, ht, hsteps, rfl⟩ := steps_of_onTransaction ho hop
      exact hi.put ho ih ht hsteps
    | close => exact hi.close _ ih
    | settle ht hfits =>
      have hsettled := hi.settle ho ih ht hfits
      exact hsettled
    | forget ht =>
      have hforgotten := hi.forget ih ht
      exact hforgotten

end World
end EntityGraph
