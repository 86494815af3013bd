import EntityGraph.Proofs.Consistency
import EntityGraph.Proofs.Endings

/-!
What clients do is a run. A client begins transactions, works on them and ends them, whatever it
does next and however each operation ends.

Main statement: `perform_reaches` — every sequence of public operations is a run, if listeners make
none but runs.
-/

namespace EntityGraph.World
variable {L H : Type}

/-- A public operation on a world. -/
inductive Action
  | begin (h : Nat) (caller : Caller)
  | operate (n : Nat) (o : Operation)
  | commit (n : Nat)
  | rollback (n : Nat)

/-- Does one thing, whether it fails or not; nothing comes of it if it cannot take place. -/
def act (react : Reaction L H) (w : World L H) : Action → Option (World L H)
  | .begin h caller => some (w.begin h caller).2
  | .operate n o => (w.onTransaction n o.run).map (·.2)
  | .commit n => (w.commit react n).map (·.2)
  | .rollback n => (w.rollback react n).map (·.2)

/-- Does one thing after the other. -/
def perform (react : Reaction L H) : List Action → World L H → Option (World L H)
  | [], w => some w
  | a :: as, w => (act react w a).bind (perform react as)

/-- Transactions begin with hooks of the set. -/
def Action.allowed (hooks : Set Nat) : Action → Prop
  | .begin h _ => h ∈ hooks
  | _ => True

variable {react : Reaction L H} {hooks : Set Nat} {w w' : World L H}

theorem act_reaches (hl : Lawful hooks react) {origin : Nat → GraphState} (hs : Sound origin w)
    {a : Action} (ha : a.allowed hooks) (h : act react w a = some w') :
    ∃ log, Reaches hooks w log w' := by
  cases a with
  | begin k caller =>
    obtain rfl := Option.some.inj h
    exact ⟨[], (Reaches.refl w).begin caller ha⟩
  | operate n o =>
    obtain ⟨⟨r, w₁⟩, hop, rfl⟩ := Option.map_eq_some_iff.1 h
    exact ⟨[], (Reaches.refl w).operation hop⟩
  | commit n =>
    obtain ⟨⟨r, w₁⟩, hcommit, rfl⟩ := Option.map_eq_some_iff.1 h
    obtain ⟨t, c, ht⟩ := open_of_commit hcommit
    obtain ⟨hactive, hfailure⟩ := hs.active ht
    exact commit_reaches hl ht hactive hfailure hcommit
  | rollback n =>
    obtain ⟨⟨r, w₁⟩, hrollback, rfl⟩ := Option.map_eq_some_iff.1 h
    exact rollback_reaches hl hrollback

theorem perform_reaches (hl : Lawful hooks react) {origin : Nat → GraphState}
    (hs : Sound origin w) {as : List Action} (ha : ∀ a ∈ as, a.allowed hooks)
    (h : perform react as w = some w') : ∃ log, Reaches hooks w log w' := by
  induction as generalizing w origin with
  | nil =>
    obtain rfl := Option.some.inj h
    exact ⟨[], .refl w⟩
  | cons a as ih =>
    obtain ⟨w₁, hact, hrest⟩ := Option.bind_eq_some_iff.1 h
    obtain ⟨log, hrun⟩ := act_reaches hl hs (ha a (List.mem_cons_self ..)) hact
    obtain ⟨origin', hs', -⟩ := hrun.sound hs
    obtain ⟨log', hrun'⟩ := ih hs' (fun b hb => ha b (List.mem_cons_of_mem _ hb)) hrest
    exact ⟨log ++ log', hrun.trans hrun'⟩

/-- Listeners that only answer. -/
theorem lawful_of_still
    (h : ∀ l caller txn e w r w', react l caller txn e w = some (r, w') → w' = w) :
    Lawful hooks react := by
  intro l caller txn e w r w' hr
  obtain rfl := h l caller txn e w r w' hr
  exact ⟨[], .refl _⟩

/-! ### Clients of a small graph -/

/-- A schema that knows one type. -/
def noteSchema : Schema := { types := [("note", .root "note")] }

/-- A new graph for notes, with one listener. -/
def blank : World Unit Unit :=
  start noteSchema {} [(0, { listeners := (ListenerSet.register {} ()).2 })] ()

/-- A listener that takes everything. -/
def silent : Reaction Unit Unit := fun _ _ _ _ w => some (.ok (), w)

/-- A client commits a note. -/
def noted : World Unit Unit :=
  (perform silent
    [.begin 0 .superUser, .operate 0 (.createNode (.root "note") []), .commit 0] blank).get rfl

/-- Two clients write different properties of the note, and one has committed. -/
def shared : World Unit Unit :=
  (perform silent
    [.begin 0 .superUser, .operate 2 (.setProperty ⟨1⟩ (.named "read") (.bool true)), .commit 2,
      .operate 1 (.setProperty ⟨1⟩ (.named "done") (.bool true))]
    (noted.begin 0 .superUser).2).get rfl

theorem silent_still (l : Unit) (caller : Caller) (txn : TxnId) (e : Event) (w : World Unit Unit)
    (r : Except Failure Unit) (w' : World Unit Unit) (h : silent l caller txn e w = some (r, w')) :
    w' = w := (Prod.mk.inj (Option.some.inj h)).2.symm

theorem lawful_silent : Lawful hooks silent := lawful_of_still silent_still

theorem noted_reached : ∃ log, Reaches {0} blank log noted := by
  refine perform_reaches lawful_silent (sound_start _ _ _ _ fun _ => {}) ?_
    (Option.some_get rfl).symm
  simp [Action.allowed]

theorem shared_reached : ∃ log, Reaches {0} (noted.begin 0 .superUser).2 log shared := by
  obtain ⟨log, hrun⟩ := noted_reached
  obtain ⟨origin, hs, -⟩ := hrun.sound (sound_start _ _ _ _ fun _ => {})
  refine perform_reaches lawful_silent (hs.begin 0 _) ?_ (Option.some_get rfl).symm
  simp [Action.allowed]

end EntityGraph.World
