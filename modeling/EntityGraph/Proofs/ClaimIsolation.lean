import EntityGraph.Proofs.Moments
import EntityGraph.Proofs.Uniqueness

/-!
How far the claims of open transactions are kept apart. Claims are filed under the identity of their
transaction, which the hook gives out that the transaction began with, and each hook counts for
itself. So two transactions that began with one hook never get at each other's claims, while two
that began with different hooks may have one identity, and then neither counts the claims of the
other, and the first that ends drops them.

Main statements: `numbered_invariant` — identities that one hook gave out differ;
`claims_isolated` — a transaction counts the claims under all identities but its own and leaves them
alone, so that with one hook for all the claims of each change only with operations on it.
-/

namespace EntityGraph

theorem ClaimTable.holders_without (t : ClaimTable) (txn : TxnId) (type : Option String)
    (key : PropertyKey) (v : Value) :
    holders (Assoc.without t txn) txn type key v = t.holders txn type key v := by
  rw [holders, Assoc.without, List.filter_filter, holders]
  simp only [Bool.and_self]

/-- The claims of others stay, however many steps an operation makes. -/
theorem Transaction.Steps.claim?_other {a b : Graph × Transaction} (h : Steps a b) {txn : TxnId}
    (hne : txn ≠ a.2.txn) (id : NodeId) (key : String) :
    b.1.claims.claim? txn id key = a.1.claims.claim? txn id key := by
  induction h with
  | refl => rfl
  | tail hab hstep ih => rw [hstep.claim?_other ((Steps.frame hab).txn ▸ hne), ih]

namespace World
variable {L H : Type} {react : Reaction L H} {hooks : Set Nat} {w w' w₁ : World L H}
  {origin : Nat → GraphState} {n m : Nat} {t t' : Transaction}

/-! ### Identities of transactions -/

/-- Each hook gave its transactions identities of their own. -/
structure Numbered (hooks : Set Nat) (w : World L H) : Prop where
  began : ∀ n t, w.transactions.get? n = some t → t.hook ∈ hooks
  issued : ∀ n t, w.transactions.get? n = some t → t.txn.raw < (w.hook t.hook).nextTxn
  distinct : ∀ n m t t', w.transactions.get? n = some t → w.transactions.get? m = some t' →
    n ≠ m → t.hook = t'.hook → t.txn ≠ t'.txn

/-- Numbers stay apart if nobody begins and no hook counts back. -/
theorem Numbered.mono (h : Numbered hooks w)
    (hnext : ∀ k, (w.hook k).nextTxn ≤ (w'.hook k).nextTxn)
    (hopen : ∀ n t, w'.transactions.get? n = some t →
      ∃ t₀, w.transactions.get? n = some t₀ ∧ t.txn = t₀.txn ∧ t.hook = t₀.hook) :
    Numbered hooks w' where
  began := by
    intro n t ht
    obtain ⟨t₀, ht₀, -, hhook⟩ := hopen n t ht
    exact hhook ▸ h.began n t₀ ht₀
  issued := by
    intro n t ht
    obtain ⟨t₀, ht₀, htxn, hhook⟩ := hopen n t ht
    rw [htxn, hhook]
    exact (h.issued n t₀ ht₀).trans_le (hnext _)
  distinct := by
    intro n m t t' ht ht' hne hsame
    obtain ⟨t₀, ht₀, htxn, hhook⟩ := hopen n t ht
    obtain ⟨t₀', ht₀', htxn', hhook'⟩ := hopen m t' ht'
    rw [htxn, htxn']
    exact h.distinct n m t₀ t₀' ht₀ ht₀' hne (hhook.symm.trans (hsame.trans hhook'))

theorem Numbered.begin (h : Numbered hooks w) {k : Nat} (hk : k ∈ hooks) (caller : Caller) :
    Numbered hooks (w.begin k caller).2 := by
  -- the next identity of a hook is in use by none of its transactions
  have hfresh : ∀ {n t}, w.transactions.get? n = some t → t.hook = k →
      t.txn ≠ ⟨(w.hook k).nextTxn⟩ := by
    intro n t ht hhook he
    have hlt := h.issued n t ht
    rw [he, hhook] at hlt
    exact Nat.lt_irrefl _ hlt
  refine ⟨fun n t ht => ?_, fun n t ht => ?_, fun n m t t' ht ht' hne hsame => ?_⟩
  · rcases get?_of_begin ht with ⟨-, rfl⟩ | ⟨-, ht⟩
    · exact hk
    · exact h.began n t ht
  · rw [nextTxn_begin]
    rcases get?_of_begin ht with ⟨-, rfl⟩ | ⟨-, ht⟩
    · exact (Nat.lt_succ_self _).trans_eq (if_pos rfl).symm
    · split
      · next he => exact Nat.lt_succ_of_lt (he ▸ h.issued n t ht)
      · exact h.issued n t ht
  · rcases get?_of_begin ht with ⟨rfl, rfl⟩ | ⟨-, ht⟩
    · rcases get?_of_begin ht' with ⟨rfl, -⟩ | ⟨-, ht'⟩
      · exact absurd rfl hne
      · exact (hfresh ht' hsame.symm).symm
    · rcases get?_of_begin ht' with ⟨-, rfl⟩ | ⟨-, ht'⟩
      · exact hfresh ht hsame
      · exact h.distinct n m t t' ht ht' hne hsame

/-- Transactions that all begin with one hook have different identities. -/
theorem Numbered.txn_ne (h : Numbered hooks w) (hone : hooks.Subsingleton)
    (ht : w.transactions.get? n = some t) (ht' : w.transactions.get? m = some t') (hne : n ≠ m) :
    t.txn ≠ t'.txn :=
  h.distinct n m t t' ht ht' hne (hone (h.began n t ht) (h.began m t' ht'))

/-- Each hook gives out identities of their own throughout. -/
theorem numbered_invariant : Invariant hooks (Numbered hooks : World L H → Prop) where
  aside := fun h ha => h.mono ha.nextTxn fun n t ht => ⟨t, ha.transactions ▸ ht, rfl, rfl⟩
  begin := fun caller h hk => h.begin hk caller
  put := by
    intro origin w n t s _ h ht hsteps
    refine h.mono (fun _ => Nat.le_refl _) fun m t' ht' => ?_
    rcases get?_of_put ht' with ⟨rfl, rfl⟩ | ⟨-, ht'⟩
    · exact ⟨t, ht, hsteps.frame.txn, hsteps.frame.hook⟩
    · exact ⟨t', ht', rfl, rfl⟩
  close := by
    intro w n h
    refine h.mono (fun _ => Nat.le_refl _) fun m t ht => ?_
    obtain ⟨t₀, ht₀, he, -⟩ := get?_of_close ht
    exact ⟨t₀, ht₀, by rw [he], by rw [he]⟩
  settle := fun _ h _ _ =>
    h.mono (fun _ => Nat.le_refl _) fun _ t ht => ⟨t, (get?_of_forget ht).2, rfl, rfl⟩
  forget := fun h _ =>
    h.mono (fun _ => Nat.le_refl _) fun _ t ht => ⟨t, (get?_of_forget ht).2, rfl, rfl⟩

theorem numbered_start (schema : Schema) (locks : LockTable) (table : Assoc Nat (CommitHook L))
    (host : H) : Numbered hooks (start schema locks table host : World L H) where
  began := by intro n t h; simp [start] at h
  issued := by intro n t h; simp [start] at h
  distinct := by intro n m t t' h; simp [start] at h

/-! ### Claims at one moment -/

/-- A transaction ends: a commit, whatever comes of it, or a rollback. -/
def Ends (react : Reaction L H) (w : World L H) (n : Nat) (w' : World L H) : Prop :=
  (∃ r, w.commit react n = some (r, w')) ∨ ∃ r, w.rollback react n = some (r, w')

/-- Whatever listeners make of the claims, an end drops those under the identity of the
transaction. -/
theorem Ends.claims (hs : Sound origin w) (h : Ends react w n w')
    (ht : w.transactions.get? n = some t) :
    ∃ c ds w₁, w.transaction? n = some (t, c) ∧ Told react c.caller c.txn (w.close n) ds w₁ ∧
      w'.graph.claims = Assoc.without w₁.graph.claims t.txn := by
  rcases h with ⟨r, hcommit⟩ | ⟨r, hrollback⟩
  · obtain ⟨u, c, hu⟩ := open_of_commit hcommit
    obtain ⟨hget, -⟩ := transaction?_eq_some.1 hu
    obtain rfl := Option.some.inj (ht.symm.trans hget)
    obtain ⟨hactive, hfailure⟩ := hs.active hu
    obtain ⟨ds, w₁, hspec⟩ := commit_spec hu hactive hfailure hcommit
    cases r with
    | error e =>
      obtain ⟨hattempt, ds', w₂, htold, -, -, rfl⟩ := hspec
      exact ⟨c, _, w₂, hu, hattempt.told.trans htold, rfl⟩
    | ok s =>
      obtain ⟨hattempt, -, -, rfl⟩ := hspec
      exact ⟨c, ds, w₁, hu, hattempt.told, rfl⟩
  · obtain ⟨u, c, w₁, hu, hafter, rfl⟩ := rollback_eq_some hrollback
    obtain rfl := Option.some.inj (ht.symm.trans (transaction?_eq_some.1 hu).1)
    obtain ⟨ds, htold⟩ := afterRollback_told hafter
    exact ⟨c, ds, w₁, hu, htold, rfl⟩

/-- A transaction counts the claims under another identity as held, and leaves them alone. -/
structure Isolated (w : World L H) (n : Nat) (t : Transaction) (txn : TxnId) : Prop where
  /-- A lookup counts each claim of an equal value, if the chain of the node names the type that is
  asked for, or none is. -/
  counted : ∀ id (key : PropertyKey) c type v,
    w.graph.claims.claim? txn id key.name = some c → (c.value == v) = true →
      type.all c.type.chain.contains = true →
        ∃ ids, t.lookup w.graph type key v = .ok ids ∧ id ∈ ids
  operated : ∀ o r w', w.onTransaction n (Operation.run o) = some (r, w') → ∀ id key,
    w'.graph.claims.claim? txn id key = w.graph.claims.claim? txn id key
  /-- After an end the claims are as listeners left them. -/
  ended : ∀ react w', Ends react w n w' → ∃ c ds w₁, w.transaction? n = some (t, c) ∧
    Told react c.caller c.txn (w.close n) ds w₁ ∧ ∀ id key,
      w'.graph.claims.claim? txn id key = w₁.graph.claims.claim? txn id key

/-- Whoever made them, a transaction takes the claims under its identity for its own: no lookup
counts them, and they go when it ends. -/
structure Owns (w : World L H) (n : Nat) (t : Transaction) : Prop where
  overlooked : ∀ type key v, t.lookup w.graph type key v =
    t.lookup { w.graph with claims := w.graph.claims.without t.txn } type key v
  ended : ∀ react w', Ends react w n w' → ∀ id key, w'.graph.claims.claim? t.txn id key = none

theorem isolated_of_ne (hs : Sound origin w) (ht : w.transactions.get? n = some t) {txn : TxnId}
    (hne : txn ≠ t.txn) : Isolated w n t txn where
  counted := by
    intro id key c type v hc he htype
    refine ⟨_, rfl, (mem_inOrder _ _).2 (List.mem_append_right _ ?_)⟩
    exact ClaimTable.mem_holders hc hne he htype
  operated := by
    intro o r w' hop id key
    obtain ⟨u, s, hu, hsteps, rfl⟩ := steps_of_onTransaction hs hop
    obtain rfl := Option.some.inj (ht.symm.trans hu)
    exact hsteps.claim?_other hne id key
  ended := by
    intro react w' hends
    obtain ⟨c, ds, w₁, hopen, htold, hclaims⟩ := hends.claims hs ht
    refine ⟨c, ds, w₁, hopen, htold, fun id key => ?_⟩
    rw [hclaims, ClaimTable.claim?_without, if_neg hne]

theorem owns_of_open (hs : Sound origin w) (ht : w.transactions.get? n = some t) :
    Owns w n t where
  overlooked := by
    intro type key v
    simp only [Transaction.lookup, ClaimTable.holders_without]
  ended := by
    intro react w' hends id key
    obtain ⟨c, ds, w₁, -, -, hclaims⟩ := hends.claims hs ht
    rw [hclaims, ClaimTable.claim?_without, if_pos rfl]

/-! ### Claims over a run -/

/-- Moves, none of which is an operation on the transaction. -/
abbrev Meanwhile (hooks : Set Nat) (n : Nat) : World L H → World L H → Prop :=
  Relation.ReflTransGen fun w w' =>
    Move hooks w w' ∧ ∀ o r, w.onTransaction n (Operation.run o) ≠ some (r, w')

/-- A move that is no operation on a transaction, nor its end, leaves the claims under its identity
alone, unless another open transaction has the same one. -/
theorem Move.claim?_other (h : Move hooks w w') (hs : Sound origin w)
    (hn : n < w.nextTransaction) (ht' : w'.transactions.get? n = some t')
    (hother : ∀ o r, w.onTransaction n (Operation.run o) ≠ some (r, w')) :
    ∃ t, w.transactions.get? n = some t ∧ t'.txn = t.txn ∧
      ((∀ m u, m ≠ n → w.transactions.get? m = some u → t.txn ≠ u.txn) → ∀ id key,
        w'.graph.claims.claim? t.txn id key = w.graph.claims.claim? t.txn id key) := by
  cases h with
  | aside ha => exact ⟨t', ha.transactions ▸ ht', rfl, fun _ _ _ => by rw [ha.graph]⟩
  | begin caller =>
    rcases get?_of_begin ht' with ⟨rfl, -⟩ | ⟨-, ht⟩
    · exact absurd hn (Nat.lt_irrefl _)
    · exact ⟨t', ht, rfl, fun _ _ _ => rfl⟩
  | @operation m o r _ hop =>
    obtain ⟨u, s, hu, hsteps, rfl⟩ := steps_of_onTransaction hs hop
    rcases get?_of_put ht' with ⟨rfl, -⟩ | ⟨hne, ht⟩
    · exact absurd hop (hother o r)
    · exact ⟨t', ht, rfl, fun hapart => hsteps.claim?_other (hapart m u hne.symm hu)⟩
  | close =>
    obtain ⟨t, ht, he, -⟩ := get?_of_close ht'
    exact ⟨t, ht, by rw [he], fun _ _ _ => rfl⟩
  | settle hu | forget hu =>
    obtain ⟨hne, ht⟩ := get?_of_forget ht'
    refine ⟨t', ht, rfl, fun hapart id key => ?_⟩
    exact (ClaimTable.claim?_without _ _ _ _ _).trans (if_neg (hapart _ _ hne.symm hu))

/-- If all transactions begin with one hook, the claims of one change only with an operation on it,
as long as it is open. -/
theorem Meanwhile.claims (h : Meanwhile hooks n w w') (hone : hooks.Subsingleton)
    (hs : Sound origin w) (hw : Numbered hooks w) (ht : w.transactions.get? n = some t)
    (ht' : w'.transactions.get? n = some t') :
    t'.txn = t.txn ∧ ∀ id key,
      w'.graph.claims.claim? t.txn id key = w.graph.claims.claim? t.txn id key := by
  induction h generalizing t' with
  | refl => exact ⟨congrArg _ (Option.some.inj (ht'.symm.trans ht)), fun _ _ => rfl⟩
  | tail hmeanwhile hlast ih =>
    obtain ⟨hmove, hother⟩ := hlast
    have hmoves := Relation.ReflTransGen.mono (fun _ _ h => h.1) _ _ hmeanwhile
    obtain ⟨o, ho, hle, -⟩ := Moves.origins hmoves hs
    have hnumbered := numbered_invariant.moves hmoves hs hw
    obtain ⟨u, hu, htxn, hkept⟩ :=
      hmove.claim?_other ho ((hs.numbers n t ht).trans_le hle) ht' hother
    obtain ⟨hsame, hclaims⟩ := ih hu
    have hstays := hkept fun m v hm hv => hnumbered.txn_ne hone hu hv hm.symm
    refine ⟨htxn.trans hsame, fun id key => ?_⟩
    rw [← hclaims, ← hsame]
    exact hstays id key

/-- Two open transactions that began with one hook have different identities. An open transaction
counts the claims under every identity but its own, and no operation on it and no end changes them;
those under its own it overlooks and drops, also if they are those of a transaction that began with
another hook. So if all begin with one hook, the claims of a transaction change only with operations
on it, as long as it is open. -/
theorem claims_isolated {schema : Schema} {locks : LockTable} {table : Assoc Nat (CommitHook L)}
    {host : H} (run : Moves hooks (start schema locks table host) w) :
    (∀ n m t t', w.transactions.get? n = some t → w.transactions.get? m = some t' → n ≠ m →
      t.hook = t'.hook → t.txn ≠ t'.txn) ∧
      (∀ n t, w.transactions.get? n = some t →
        (∀ txn, txn ≠ t.txn → Isolated w n t txn) ∧ Owns w n t) ∧
      (hooks.Subsingleton → ∀ w' n t t', Meanwhile hooks n w w' →
        w.transactions.get? n = some t → w'.transactions.get? n = some t' →
          t'.txn = t.txn ∧ ∀ id key,
            w'.graph.claims.claim? t.txn id key = w.graph.claims.claim? t.txn id key) := by
  have hstart := sound_start schema locks table host fun _ => {}
  obtain ⟨origin, hs⟩ := run.sound hstart
  have hw := numbered_invariant.moves run hstart (numbered_start schema locks table host)
  refine ⟨hw.distinct, fun n t ht => ⟨fun txn => isolated_of_ne hs ht, owns_of_open hs ht⟩, ?_⟩
  intro hone w' n t t' hmeanwhile ht ht'
  exact Meanwhile.claims hmeanwhile hone hs hw ht ht'

/-- Of two clients with one hook, the first has given a new person an address. -/
def reserved : World Unit Unit :=
  (perform silent
    [.begin 0 .superUser, .begin 0 .superUser,
      .operate 0 (.createNode (.root "Person") [("email", .string "e")])] office).get rfl

/-- The other one counts the address as held, and it stays claimed while a third client begins. -/
theorem claims_isolated_reserved :
    ∃ t t', reserved.transactions.get? 1 = some t ∧ reserved.transactions.get? 0 = some t' ∧
      Isolated reserved 1 t t'.txn ∧
      (∃ ids, t.lookup reserved.graph none (.named "email") (.string "e") = .ok ids ∧
        ⟨1⟩ ∈ ids) ∧
      (reserved.begin 0 .superUser).2.graph.claims.claim? t'.txn ⟨1⟩ "email" =
        some ⟨.root "Person", .string "e"⟩ := by
  have hs : Sound (fun _ => {}) office := sound_start _ _ _ _ _
  have hrun : ∃ log, Reaches {0} office log reserved := by
    refine perform_reaches lawful_silent hs ?_ (Option.some_get rfl).symm
    simp [Action.allowed]
  obtain ⟨log, hrun⟩ := hrun
  obtain ⟨t, ht⟩ : ∃ t, reserved.transactions.get? 1 = some t := ⟨_, rfl⟩
  obtain ⟨t', ht', hclaim⟩ : ∃ t', reserved.transactions.get? 0 = some t' ∧
      reserved.graph.claims.claim? t'.txn ⟨1⟩ "email" = some ⟨.root "Person", .string "e"⟩ :=
    ⟨_, rfl, rfl⟩
  obtain ⟨hdistinct, hclaims, hkept⟩ := claims_isolated (hrun.moves hs)
  have hhook : t'.hook = t.hook := by
    obtain rfl := Option.some.inj ht
    obtain rfl := Option.some.inj ht'
    rfl
  have hi := (hclaims 1 t ht).1 t'.txn (hdistinct 0 1 t' t ht' ht (by decide) hhook)
  -- no operation on the first client's transaction makes a transaction begin
  have hmeanwhile : Meanwhile {0} 0 reserved (reserved.begin 0 .superUser).2 := by
    refine .single ⟨.begin .superUser rfl, fun o r hop => ?_⟩
    obtain ⟨u, c, s, -, -, he⟩ := onTransaction_eq_some hop
    exact Nat.succ_ne_self _ (congrArg World.nextTransaction he)
  have hstays := (hkept Set.subsingleton_singleton _ 0 t' t' hmeanwhile ht' ht').2
  exact ⟨t, t', ht, ht', hi, hi.counted _ (.named "email") _ none _ hclaim (by decide) rfl,
    (hstays _ _).trans hclaim⟩

/-! ### Claims that get lost -/

/-- Two clients with a hook each, of which the first has given a new person an address. -/
def twins : World Unit Unit :=
  (perform silent
    [.begin 0 .superUser, .begin 1 .superUser,
      .operate 0 (.createNode (.root "Person") [("email", .string "e")])] office).get rfl

/-- A schema in which employees are persons, though in other letters. -/
def staff : SchemaDraft :=
  .ofRegistrations {} [.type (.root "Person"), .type ⟨"Employee", ["PERSON"]⟩,
    .validator (.root "Person") (.named "email") .typeUniqueness none]

/-- Two clients with one hook where employees are known, of which the first has given a new person
an address. -/
def hired : World Unit Unit :=
  (perform silent
    [.begin 0 .superUser, .begin 0 .superUser,
      .operate 0 (.createNode (.root "Person") [("email", .string "e")])]
    (start staff.schema staff.locks [] ())).get rfl

/-- An open transaction claims an address, and the other one does not count it as held: its hook
gave it the same identity, so that a rollback of the one drops the claim of the other; or it names
the scope in other letters than the chain of the person, so that an employee gets the address. -/
theorem claims_lost :
    ((∃ log, Reaches {0, 1} office log twins) ∧
      ∃ t t' w', twins.transactions.get? 0 = some t ∧ twins.transactions.get? 1 = some t' ∧
        twins.graph.claims.claim? t.txn ⟨1⟩ "email" = some ⟨.root "Person", .string "e"⟩ ∧
        t'.lookup twins.graph none (.named "email") (.string "e") = .ok [] ∧
        twins.rollback silent 1 = some (.ok (), w') ∧ w'.transactions.get? 0 = some t ∧
        w'.graph.claims.claim? t.txn ⟨1⟩ "email" = none) ∧
      (∃ log, Reaches {0} (start staff.schema staff.locks [] ()) log hired) ∧
      ∃ t t' node w', hired.transactions.get? 0 = some t ∧ hired.transactions.get? 1 = some t' ∧
        hired.graph.claims.claim? t.txn ⟨1⟩ "email" = some ⟨.root "Person", .string "e"⟩ ∧
        t'.lookup hired.graph (some "PERSON") (.named "email") (.string "e") = .ok [] ∧
        hired.createNode 1 ⟨"Employee", ["PERSON"]⟩ [("email", .string "e")] =
          some (.ok node, w') := by
  refine ⟨⟨?_, _, _, _, rfl, rfl, rfl, rfl, rfl, rfl, rfl⟩, ?_, _, _, _, _, rfl, rfl, rfl, rfl, rfl⟩
  · refine perform_reaches lawful_silent (sound_start _ _ _ _ fun _ => {}) ?_
      (Option.some_get rfl).symm
    simp [Action.allowed]
  · refine perform_reaches lawful_silent (sound_start _ _ _ _ fun _ => {}) ?_
      (Option.some_get rfl).symm
    simp [Action.allowed]

end World
end EntityGraph
