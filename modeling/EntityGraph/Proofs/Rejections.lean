import EntityGraph.Proofs.GuardedKeys
import EntityGraph.Proofs.Uniqueness

/-!
Why a check for uniqueness rejects a value. As a rule somebody else holds an equal one: in the
working copy of the transaction that writes, in the committed state, or in the working copy of
another transaction. There are two exceptions. The claims of a transaction last until its end is
over, also while listeners are told that it was rolled back. And the claim on a value outlasts the
value itself where a check takes a permit for it and lets the next value of the property pass
without one.

Main statements: `rejection_justified` — there is no other reason; `unheld_rejected` — both
exceptions happen.
-/

namespace EntityGraph

/-- A node of a scope holds a value under a key. -/
structure GraphState.HoldsIn (g : GraphState) (s : Schema) (σ : UniqueScope) (id : NodeId)
    (key : String) (v : Value) : Prop where
  value : g.value? id key = some v
  scope : ∃ type, g.type? s id = some type ∧ σ.type?.all type.chain.contains = true

theorem GraphState.Tidy.holdsIn_of_mem_holders {g : GraphState} (h : g.Tidy) {s : Schema}
    {σ : UniqueScope} {id : NodeId} {key : PropertyKey} {v : Value}
    (hid : id ∈ g.holders s σ.type? key v) :
    ∃ u, (u == v) = true ∧ g.HoldsIn s σ id key.name u := by
  obtain ⟨node, hnode, rfl⟩ := List.mem_map.1 hid
  obtain ⟨hnode, hholds⟩ := List.mem_filter.1 hnode
  obtain ⟨⟨id, p⟩, hrow, htyped⟩ := List.mem_filterMap.1 hnode
  obtain ⟨type, htype, rfl⟩ := Option.map_eq_some_iff.1 htyped
  have hp := h.nodes.get?_of_mem hrow
  obtain ⟨hscope, hvalue⟩ := Bool.and_eq_true_iff.1 hholds
  rw [Properties.holds] at hvalue
  cases hu : p.get? key.name with
  | none =>
    rw [hu] at hvalue
    exact absurd hvalue Bool.false_ne_true
  | some u =>
    rw [hu] at hvalue
    refine ⟨u, hvalue, ?_, type, ?_, hscope⟩
    · rw [value?_of_node hp, hu]
    · have hnode : g.node? s id = some ⟨id, type, p⟩ := by
        rw [node?, hp]
        exact htyped
      exact type?_of_node hnode

/-- A check for uniqueness rejects a value only if it is no null and another node is looked up as
holding it. -/
theorem Validator.mem_lookup_of_unique {σ : UniqueScope} {c c' : ValidationContext} {node : Node}
    {key : PropertyKey} {v : Value} {p : Option Value} {e : Failure} {holders : List NodeId}
    (h : (Validator.unique σ).validate c node key v p = some (.error e, c'))
    (hl : c.lookup σ.type? key v = .ok holders) : ∃ m ∈ holders, m ≠ node.id := by
  have hfind : ∀ {e}, checkHolders σ c.lookup node key v = .error e →
      ∃ m ∈ holders, m ≠ node.id := by
    intro e he
    by_contra hnone
    have hall : holders.find? (· ≠ node.id) = none := by
      simp only [List.find?_eq_none]
      exact fun m hm hne => hnone ⟨m, hm, of_decide_eq_true hne⟩
    cases σ <;>
    · simp only [UniqueScope.type?] at hl
      simp only [checkHolders, bind, Except.bind, hl, hall] at he
      cases he
  cases unique_end h with
  | unlocked _ _ hcheck => exact hfind hcheck
  | refused _ _ hcheck => exact hfind hcheck

namespace Transaction

/-- The check for uniqueness in a scope rejects a write of a value, as it is to be stored. -/
def Rejects (g : Graph) (t : Transaction) (σ : UniqueScope) (id : NodeId) (key : PropertyKey)
    (v : Value) : Prop :=
  ∃ given creating node e s, t.prepare g id key given creating = .ok (node, v) ∧
    g.schema.validator? node.type key t.caller = some (.unique σ) ∧
    t.write g id key given creating = some (.error e, s)

theorem mem_heldBy_of_rejects {g : Graph} {t : Transaction} {σ : UniqueScope} {id : NodeId}
    {key : PropertyKey} {v : Value} (h : Rejects g t σ id key v) :
    ∃ m ∈ heldBy g t σ key v, m ≠ id := by
  obtain ⟨given, creating, node, e, s, hprepare, hvalidator, hwrite⟩ := h
  obtain ⟨-, hnode, -⟩ := prepare_eq_ok hprepare
  obtain ⟨rfl, -⟩ := node?_eq_some hnode
  rw [write, hprepare] at hwrite
  simp only at hwrite
  split at hwrite
  · simp at hwrite
  · next e' g' hcheck =>
    obtain ⟨⟨r, d⟩, hvalidate, he⟩ := Option.map_eq_some_iff.1 hcheck
    obtain ⟨rfl, -⟩ := Prod.mk.inj he
    rw [Schema.validate, hvalidator] at hvalidate
    obtain ⟨m, hm, hne⟩ := Validator.mem_lookup_of_unique hvalidate
      (show t.lookup g σ.type? key v = .ok (inOrder (heldBy g t σ key v)) from rfl)
    exact ⟨m, (mem_inOrder _ _).1 hm, hne⟩
  · simp at hwrite

end Transaction

namespace World
variable {L H : Type} {w : World L H} {hooks : Set Nat}

/-- Somebody else in the scope holds an equal value, as far as the transaction knows, as committed,
or as another open transaction knows. -/
def HeldElsewhere (w : World L H) (n : Nat) (working : GraphState) (σ : UniqueScope) (id : NodeId)
    (key : String) (v : Value) : Prop :=
  ∃ m u, m ≠ id ∧ (u == v) = true ∧
    (working.HoldsIn w.graph.schema σ m key u ∨
      w.graph.committed.HoldsIn w.graph.schema σ m key u ∨
      ∃ n' t' c, n' ≠ n ∧ w.transaction? n' = some (t', c) ∧
        t'.working.HoldsIn w.graph.schema σ m key u)

/-- Another transaction whose commit or rollback is under way holds an equal value. -/
def HeldToTheEnd (w : World L H) (n : Nat) (σ : UniqueScope) (id : NodeId) (key : String)
    (v : Value) : Prop :=
  ∃ n' t' m u, n' ≠ n ∧ w.transactions.get? n' = some t' ∧ t'.context = none ∧ m ≠ id ∧
    (u == v) = true ∧ t'.working.HoldsIn w.graph.schema σ m key u

/-- Another transaction claims an equal value for a node that has a different value by now: the
check of the property left a permit with the one and none with the other. -/
def ClaimOutlasts (w : World L H) (n : Nat) (σ : UniqueScope) (id : NodeId) (key : String)
    (v : Value) : Prop :=
  ∃ n' t' m c u, n' ≠ n ∧ w.transactions.get? n' = some t' ∧ m ≠ id ∧
    w.graph.claims.claim? t'.txn m key = some c ∧ (c.value == v) = true ∧
    σ.type?.all c.type.chain.contains = true ∧
    t'.working.type? w.graph.schema m = some c.type ∧ t'.working.value? m key = some u ∧
    w.graph.schema.Wavers t'.caller m c.type key c.value u

/-- Whoever is counted as a holder is one, or is claimed to be one. -/
theorem held_of_mem_heldBy {origin : Nat → GraphState} (hs : Sound origin w)
    (hb : ClaimsBacked w) {n : Nat} {t : Transaction} (ht : w.transactions.get? n = some t)
    {σ : UniqueScope} {id m : NodeId} {key : PropertyKey} {v : Value}
    (hm : m ∈ t.heldBy w.graph σ key v) (hne : m ≠ id) :
    HeldElsewhere w n t.working σ id key.name v ∨ HeldToTheEnd w n σ id key.name v ∨
      ClaimOutlasts w n σ id key.name v := by
  rcases List.mem_append.1 hm with hm | hm
  · left
    rcases List.mem_append.1 hm with hm | hm
    · obtain ⟨u, hu, hheld⟩ := (hs.tracks n t ht).tidy.holdsIn_of_mem_holders
        (List.mem_of_mem_filter hm)
      exact ⟨m, u, hne, hu, Or.inl hheld⟩
    · obtain ⟨u, hu, hheld⟩ := hs.tidy.holdsIn_of_mem_holders (List.mem_of_mem_filter hm)
      exact ⟨m, u, hne, hu, Or.inr (Or.inl hheld)⟩
  · obtain ⟨txn, c, htxn, hclaim, hv, hscope⟩ := hb.inOrder.claim_of_mem_holders hm
    obtain ⟨n', t', ht', hbacks⟩ := hb.backed txn m key.name c hclaim
    have hother : n' ≠ n := by
      rintro rfl
      obtain rfl := Option.some.inj (ht.symm.trans ht')
      exact htxn hbacks.txn.symm
    obtain ⟨u, hu, rfl | hwavers⟩ := hbacks.value
    · have hholds : t'.working.HoldsIn w.graph.schema σ m key.name c.value :=
        ⟨hu, c.type, hbacks.type, hscope⟩
      cases hc : t'.context with
      | none => exact Or.inr (Or.inl ⟨n', t', m, c.value, hother, ht', hc, hne, hv, hholds⟩)
      | some context =>
        exact Or.inl ⟨m, c.value, hne, hv, Or.inr (Or.inr ⟨n', t', context, hother,
          transaction?_eq_some.2 ⟨ht', hc⟩, hholds⟩)⟩
    · obtain rfl := hbacks.txn
      exact Or.inr (Or.inr ⟨n', t', m, c, u, hother, ht', hne, hclaim, hv, hscope, hbacks.type, hu,
        hwavers⟩)

/-- Whenever a transaction, within an operation or between two, has a value rejected by a check for
uniqueness, another node of the scope holds an equal one at that moment, a transaction whose end is
under way held one, or the claim on one outlasts it. The last needs a check, built by a factory,
that takes permits for some values alone: where checks of the key are steady, no claim outlasts its
value. -/
theorem rejection_justified {schema : Schema} {locks : LockTable}
    {table : Assoc Nat (CommitHook L)} {host : H}
    (run : Moves hooks (start schema locks table host) w) {n : Nat} {t : Transaction}
    (ht : w.transactions.get? n = some t) {a : Graph × Transaction}
    (ha : Transaction.Steps (w.graph, t) a) {σ : UniqueScope} {id : NodeId} {key : PropertyKey}
    {v : Value} (hrejects : a.2.Rejects a.1 σ id key v) :
    (HeldElsewhere (w.put n a) n a.2.working σ id key.name v ∨
      HeldToTheEnd (w.put n a) n σ id key.name v ∨ ClaimOutlasts (w.put n a) n σ id key.name v) ∧
    (schema.KeepsLocks →
      (∀ name f type caller check, schema.validatorFactories.get? name = some f →
        f caller = .ok check → schema.validator? type (.named key.name) caller = some check →
          check.Steady) →
        ¬ ClaimOutlasts (w.put n a) n σ id key.name v) := by
  have hstart := sound_start schema locks table host fun _ => {}
  obtain ⟨origin, hs⟩ := run.sound hstart
  have hbacked := claimsBacked_invariant.moves run hstart
    (claimsBacked_start schema locks table host)
  have hschema : (w.put n a).graph.schema = schema :=
    ha.frame.schema.trans (Moves.frame run hstart).1
  refine ⟨?_, fun hkeeps hsteady houtlasts => ?_⟩
  · -- the moment within the operation, seen as a world of its own
    have hself : (w.put n a).transactions.get? n = some a.2 := by rw [get?_put, if_pos rfl]
    obtain ⟨m, hm, hne⟩ := Transaction.mem_heldBy_of_rejects hrejects
    exact held_of_mem_heldBy (hs.put ht ha) (hbacked.put hs ht ha) hself hm hne
  · obtain ⟨n', t', m, c, u, -, -, -, -, -, -, -, -, hwavers⟩ := houtlasts
    rw [hschema] at hwavers
    obtain ⟨name, f, check, hf, hok, hcheck, hunsteady⟩ := hwavers.unsteady hkeeps
    exact hunsteady (hsteady name f c.type t'.caller check hf hok hcheck)

/-! ### Values that nobody else holds -/

/-- A check for uniqueness rejects a value that nobody else holds. -/
def RejectsUnheld (w : World L H) (n : Nat) (σ : UniqueScope) (id : NodeId) (key : PropertyKey)
    (v : Value) : Prop :=
  ∃ t, w.transactions.get? n = some t ∧ t.Rejects w.graph σ id key v ∧
    ¬ HeldElsewhere w n t.working σ id key.name v

theorem moves_of_perform {react : Reaction L H} (hl : Lawful hooks react) {schema : Schema}
    {locks : LockTable} {table : Assoc Nat (CommitHook L)} {host : H} {as : List Action}
    (ha : ∀ a ∈ as, a.allowed hooks)
    (h : perform react as (start schema locks table host) = some w) :
    Moves hooks (start schema locks table host) w := by
  have hs := sound_start schema locks table host fun _ => {}
  obtain ⟨log, hrun⟩ := perform_reaches hl hs ha h
  exact hrun.moves hs

/-- Only the address "x" of guests is checked. One client gives a guest that address and then
another one, and the other client makes a person. -/
def vacated : World Unit Unit :=
  (perform silent
    [.begin 0 .superUser, .begin 0 .superUser,
      .operate 0 (.createNode (.root "Guest") [("email", .string "x")]),
      .operate 0 (.setProperty ⟨1⟩ (.named "email") (.string "y")),
      .operate 1 (.createNode (.root "Person") [])]
    (reception (.uniqueOnly (.string "x")))).get rfl

theorem vacated_reached : Moves {0} (reception (.uniqueOnly (.string "x"))) vacated :=
  moves_of_perform lawful_silent (by simp [Action.allowed]) (Option.some_get rfl).symm

/-- No address is "x" any more. -/
theorem vacated_values :
    (∀ m, vacated.graph.committed.value? m "email" = none) ∧
    ∀ n t m u, vacated.transactions.get? n = some t → t.working.value? m "email" = some u →
      u = .string "y" := by
  obtain ⟨t₀, t₁, hopen, hguests, hpersons⟩ : ∃ t₀ t₁, vacated.transactions = [(0, t₀), (1, t₁)] ∧
      t₀.working.nodes = [(⟨1⟩, [("email", .string "y"), ("type", .string "Guest")])] ∧
      t₁.working.nodes = [(⟨2⟩, [("type", .string "Person")])] := ⟨_, _, rfl, rfl, rfl⟩
  refine ⟨fun m => rfl, fun n t m u ht hu => ?_⟩
  obtain ⟨p, hp, hu⟩ := Option.bind_eq_some_iff.1 hu
  have hrow := Assoc.mem_of_get? ht
  have hnode := Assoc.mem_of_get? hp
  have hvalue := Assoc.mem_of_get? hu
  rw [hopen] at hrow
  rcases List.mem_pair.1 hrow with he | he
  · obtain ⟨-, rfl⟩ := Prod.mk.inj he
    obtain ⟨-, rfl⟩ : m = ⟨1⟩ ∧ p = _ := by simpa [hguests] using hnode
    simpa using hvalue
  · obtain ⟨-, rfl⟩ := Prod.mk.inj he
    obtain ⟨-, rfl⟩ : m = ⟨2⟩ ∧ p = _ := by simpa [hpersons] using hnode
    simp at hvalue

theorem vacated_not_held {n n' : Nat} {t : Transaction} (ht : vacated.transactions.get? n' = some t)
    {σ : UniqueScope} {id : NodeId} :
    ¬ HeldElsewhere vacated n t.working σ id "email" (.string "x") := by
  obtain ⟨hcommitted, hopen⟩ := vacated_values
  rintro ⟨m, u, -, hu, hown | hstored | ⟨n'', t', c, -, ht', hother⟩⟩
  · obtain rfl := hopen n' t m u ht hown.value
    exact absurd hu (by decide)
  · exact absurd (hstored.value.symm.trans (hcommitted m)) (by simp)
  · obtain rfl := hopen n'' t' m u (transaction?_eq_some.1 ht').1 hother.value
    exact absurd hu (by decide)

/-- A listener that, when it is told of a rollback, gives the address to the other client's person
and keeps the answer. -/
def claimant : Reaction Unit (Option (Except Failure Unit)) := fun _ _ _ e w =>
  match e with
  | .rollback =>
    (w.setProperty 1 ⟨2⟩ (.named "email") (.string "e")).map fun (r, w) =>
      (.ok (), { w with host := some r })
  | _ => some (.ok (), w)

theorem lawful_claimant : Lawful hooks claimant := by
  intro l caller txn e w r w' h
  simp only [claimant] at h
  split at h
  · obtain ⟨⟨r, w₁⟩, hset, he⟩ := Option.map_eq_some_iff.1 h
    obtain ⟨-, rfl⟩ := Prod.mk.inj he
    have hset' : w.onTransaction 1
      (Operation.run (.setProperty ⟨2⟩ (.named "email") (.string "e"))) = some (r, w₁) := hset
    exact ⟨[], ((Reaches.refl w).operation hset').aside ⟨rfl, rfl, rfl, fun _ => Nat.le_refl _⟩⟩
  · obtain ⟨-, rfl⟩ := Prod.mk.inj (Option.some.inj h)
    exact ⟨[], .refl _⟩

/-- A new graph for persons, with one listener. -/
def listened : World Unit (Option (Except Failure Unit)) :=
  start people.schema people.locks blank.hooks none

/-- Two clients have made a person each, and the first has given its person an address. -/
def withdrawn : World Unit (Option (Except Failure Unit)) :=
  (perform claimant
    [.begin 0 .superUser, .begin 0 .superUser,
      .operate 0 (.createNode (.root "Person") [("email", .string "e")]),
      .operate 1 (.createNode (.root "Person") [])] listened).get rfl

theorem withdrawn_reached : Moves {0} listened withdrawn :=
  moves_of_perform lawful_claimant (by simp [Action.allowed]) (Option.some_get rfl).symm

theorem withdrawn_closed : Moves {0} listened (withdrawn.close 0) := by
  obtain ⟨t, c, ht⟩ : ∃ t c, withdrawn.transaction? 0 = some (t, c) := ⟨_, _, rfl⟩
  exact withdrawn_reached.tail (.close ht)

/-- While listeners are told, the second client's transaction is open, with a person without an
address. -/
theorem withdrawn_open {n : Nat} {t : Transaction} {c : TransactionContext}
    (ht : (withdrawn.close 0).transaction? n = some (t, c)) :
    t.txn = ⟨2⟩ ∧ t.working.nodes = [(⟨2⟩, [("type", .string "Person")])] := by
  obtain ⟨t₀, t₁, hopen, hclosed, hsecond⟩ : ∃ t₀ t₁,
      (withdrawn.close 0).transactions = [(0, t₀), (1, t₁)] ∧ t₀.context = none ∧
      t₁.txn = ⟨2⟩ ∧ t₁.working.nodes = [(⟨2⟩, [("type", .string "Person")])] :=
    ⟨_, _, rfl, rfl, rfl, rfl⟩
  obtain ⟨ht, hc⟩ := transaction?_eq_some.1 ht
  have hrow := Assoc.mem_of_get? ht
  rw [hopen] at hrow
  rcases List.mem_pair.1 hrow with he | he
  · obtain ⟨-, rfl⟩ := Prod.mk.inj he
    exact absurd (hclosed.symm.trans hc) (by simp)
  · obtain ⟨-, rfl⟩ := Prod.mk.inj he
    exact hsecond

/-- No address is known to it. -/
theorem withdrawn_values {n : Nat} {t : Transaction} {c : TransactionContext}
    (ht : (withdrawn.close 0).transaction? n = some (t, c)) (m : NodeId) :
    t.working.value? m "email" = none := by
  obtain ⟨-, hnodes⟩ := withdrawn_open ht
  rw [GraphState.value?, hnodes, Assoc.get?_cons, Assoc.get?_nil]
  split <;> rfl

theorem withdrawn_not_held {n n' : Nat} {t : Transaction} {c : TransactionContext}
    (ht : (withdrawn.close 0).transaction? n' = some (t, c)) {σ : UniqueScope} {id : NodeId} :
    ¬ HeldElsewhere (withdrawn.close 0) n t.working σ id "email" (.string "e") := by
  have hcommitted : ∀ m, (withdrawn.close 0).graph.committed.value? m "email" = none := fun _ => rfl
  rintro ⟨m, u, -, -, hown | hstored | ⟨n'', t', c', -, ht', hother⟩⟩
  · exact absurd (hown.value.symm.trans (withdrawn_values ht m)) (by simp)
  · exact absurd (hstored.value.symm.trans (hcommitted m)) (by simp)
  · exact absurd (hother.value.symm.trans (withdrawn_values ht' m)) (by simp)

/-- Values that nobody holds are rejected: one that was rolled back, as long as listeners are told
so, and one that was overwritten with a value that its check takes no permit for. -/
theorem unheld_rejected :
    Moves {0} listened (withdrawn.close 0) ∧
    RejectsUnheld (withdrawn.close 0) 1 .global ⟨2⟩ (.named "email") (.string "e") ∧
    (∃ r w e, withdrawn.rollback claimant 0 = some (r, w) ∧ w.host = some (.error e)) ∧
    Moves {0} (reception (.uniqueOnly (.string "x"))) vacated ∧
    RejectsUnheld vacated 1 .global ⟨2⟩ (.named "email") (.string "x") := by
  have hanswer : ∃ r w e, withdrawn.rollback claimant 0 = some (r, w) ∧
      w.host = some (.error e) := ⟨_, _, _, rfl, rfl⟩
  obtain ⟨t, c, ht, hrejects⟩ : ∃ t c, (withdrawn.close 0).transaction? 1 = some (t, c) ∧
      t.Rejects (withdrawn.close 0).graph .global ⟨2⟩ (.named "email") (.string "e") :=
    ⟨_, _, rfl, .string "e", false, _, _, _, rfl, rfl, rfl⟩
  obtain ⟨t', ht', hrejects'⟩ : ∃ t, vacated.transactions.get? 1 = some t ∧
      t.Rejects vacated.graph .global ⟨2⟩ (.named "email") (.string "x") :=
    ⟨_, rfl, .string "x", false, _, _, _, rfl, rfl, rfl⟩
  exact ⟨withdrawn_closed, ⟨t, (transaction?_eq_some.1 ht).1, hrejects, withdrawn_not_held ht⟩,
    hanswer, vacated_reached, ⟨t', ht', hrejects', vacated_not_held ht'⟩⟩

/-- A guest has an address, which another client wants for its person. -/
def welcomed : World Unit Unit :=
  (perform silent
    [.begin 0 .superUser, .begin 0 .superUser,
      .operate 0 (.createNode (.root "Guest") [("email", .string "x")]),
      .operate 1 (.createNode (.root "Person") [])]
    (reception (.unique .global))).get rfl

theorem welcomed_reached : Moves {0} (reception (.unique .global)) welcomed :=
  moves_of_perform lawful_silent (by simp [Action.allowed]) (Option.some_get rfl).symm

theorem welcomed_open {n : Nat} {t : Transaction} (ht : welcomed.transactions.get? n = some t) :
    t.context ≠ none := by
  obtain ⟨t₀, t₁, hopen, h₀, h₁⟩ : ∃ t₀ t₁, welcomed.transactions = [(0, t₀), (1, t₁)] ∧
      t₀.context.isSome = true ∧ t₁.context.isSome = true := ⟨_, _, rfl, rfl, rfl⟩
  have hrow := Assoc.mem_of_get? ht
  rw [hopen] at hrow
  rcases List.mem_pair.1 hrow with he | he
  · obtain ⟨-, rfl⟩ := Prod.mk.inj he
    exact Option.isSome_iff_ne_none.1 h₀
  · obtain ⟨-, rfl⟩ := Prod.mk.inj he
    exact Option.isSome_iff_ne_none.1 h₁

/-- One rejection of each kind: the claim outlasts the value, the end of its holder is under way, and
the value is held. -/
theorem rejection_justified_visitors :
    (∃ t, vacated.transactions.get? 1 = some t ∧
      t.Rejects vacated.graph .global ⟨2⟩ (.named "email") (.string "x") ∧
      ClaimOutlasts vacated 1 .global ⟨2⟩ "email" (.string "x")) ∧
    (∃ t, (withdrawn.close 0).transactions.get? 1 = some t ∧
      t.Rejects (withdrawn.close 0).graph .global ⟨2⟩ (.named "email") (.string "e") ∧
      HeldToTheEnd (withdrawn.close 0) 1 .global ⟨2⟩ "email" (.string "e")) ∧
    ∃ t, welcomed.transactions.get? 1 = some t ∧
      t.Rejects welcomed.graph .global ⟨2⟩ (.named "email") (.string "x") ∧
      HeldElsewhere welcomed 1 t.working .global ⟨2⟩ "email" (.string "x") := by
  obtain ⟨t, ht, hput, hrejects⟩ : ∃ t, vacated.transactions.get? 1 = some t ∧
      vacated.put 1 (vacated.graph, t) = vacated ∧
      t.Rejects vacated.graph .global ⟨2⟩ (.named "email") (.string "x") :=
    ⟨_, rfl, rfl, .string "x", false, _, _, _, rfl, rfl, rfl⟩
  obtain ⟨t₁, c₁, ht₁, hput₁, hrejects₁⟩ : ∃ t c, (withdrawn.close 0).transaction? 1 = some (t, c) ∧
      (withdrawn.close 0).put 1 ((withdrawn.close 0).graph, t) = withdrawn.close 0 ∧
      t.Rejects (withdrawn.close 0).graph .global ⟨2⟩ (.named "email") (.string "e") :=
    ⟨_, _, rfl, rfl, .string "e", false, _, _, _, rfl, rfl, rfl⟩
  obtain ⟨t', ht', hput', hrejects'⟩ : ∃ t, welcomed.transactions.get? 1 = some t ∧
      welcomed.put 1 (welcomed.graph, t) = welcomed ∧
      t.Rejects welcomed.graph .global ⟨2⟩ (.named "email") (.string "x") :=
    ⟨_, rfl, rfl, .string "x", false, _, _, _, rfl, rfl, rfl⟩
  obtain ⟨hopen₁, -⟩ := transaction?_eq_some.1 ht₁
  refine ⟨⟨t, ht, hrejects, ?_⟩, ⟨t₁, hopen₁, hrejects₁, ?_⟩, t', ht', hrejects', ?_⟩
  · obtain ⟨hheld, -⟩ := rejection_justified vacated_reached ht .refl hrejects
    rw [hput] at hheld
    rcases hheld with hheld | hheld | houtlasts
    · exact absurd hheld (vacated_not_held ht)
    · obtain ⟨n', t'', m, u, -, ht'', -, -, hu, hholds⟩ := hheld
      obtain rfl := vacated_values.2 n' t'' m u ht'' hholds.value
      exact absurd hu (by decide)
    · exact houtlasts
  · obtain ⟨hheld, hsteady⟩ := rejection_justified withdrawn_closed hopen₁ .refl hrejects₁
    rw [hput₁] at hheld hsteady
    rcases hheld with hheld | hending | houtlasts
    · exact absurd hheld (withdrawn_not_held ht₁)
    · exact hending
    · have hnone : people.schema.validatorFactories = [] := rfl
      refine absurd houtlasts (hsteady people_keepsLocks fun name f type caller check hf => ?_)
      simp [hnone] at hf
  · obtain ⟨hheld, hsteady⟩ := rejection_justified welcomed_reached ht' .refl hrejects'
    rw [hput'] at hheld hsteady
    have hkeeps : (visitors (.unique .global)).schema.KeepsLocks :=
      (visitors_fixesLocks .global).keepsLocks
    rcases hheld with hheld | hending | houtlasts
    · exact hheld
    · obtain ⟨n', t'', m, u, -, ht'', hc, -⟩ := hending
      exact absurd hc (welcomed_open ht'')
    · exact absurd houtlasts (hsteady hkeeps fun _ _ _ _ _ hf hok _ => visitors_steady hf hok)

end World
end EntityGraph
