import EntityGraph.Proofs.ClaimIsolation

/-!
Which lock guards a value. A check asks for the lock of its scope alone, which bears the name of the
registering type as the chain of the node spells it. Whoever knows only the name of a type tries the
lock of that name, then that of all nodes, without regard to ancestors. The locks are those that
were ever registered, whatever replaced the checks that needed them.

Main statements: `lock_found_iff` — when a check finds its lock, and what comes of a value that
passes; `lookup_agrees_iff` — when a lookup by the name of a type finds the lock of the check.
-/

namespace EntityGraph

/-! ### Values that pass -/

/-- A value that passes is guarded by the permit of the lock, if there is one. -/
theorem Validator.unique_passes {σ : UniqueScope} {c c' : ValidationContext} {node : Node}
    {key : PropertyKey} {v : Value} {p : Option Value} (hv : v.isNull = false)
    (h : (unique σ).validate c node key v p = some (.ok (), c')) :
    c' = if (c.locks.held? ⟨σ, key.name⟩).isSome = true then c.hold ⟨σ, key.name⟩ else c := by
  cases unique_end h with
  | null hnull => simp [hv] at hnull
  | unlocked _ hnone => simp [hnone]
  | passed _ hfree => simp [hfree]

/-- A value that passes is claimed if there is a lock. -/
theorem Transaction.check_passes {g g' : Graph} {t : Transaction} {node : Node} {key : PropertyKey}
    {v : Value} {σ : UniqueScope}
    (hcheck : g.schema.validator? node.type key t.caller = some (.unique σ))
    (hv : v.isNull = false) (h : t.check g node key v = some (.ok (), g')) :
    g'.claims = if (g.locks.held? ⟨σ, key.name⟩).isSome = true then
      g.claims.add t.txn node.id key.name ⟨node.type, v⟩ else g.claims := by
  obtain ⟨⟨r, context⟩, hvalidate, he⟩ := Option.map_eq_some_iff.1 h
  obtain ⟨rfl, rfl⟩ := Prod.mk.inj he
  rw [Schema.validate, hcheck] at hvalidate
  rw [Validator.unique_passes hv hvalidate]
  by_cases hlock : (g.locks.held? ⟨σ, key.name⟩).isSome = true <;>
    simp [hlock, ValidationContext.hold]

/-! ### Scopes and kinds of check -/

/-- A type has a scope for a key exactly if the check for the key is one for uniqueness. -/
theorem Schema.isSome_scope?_iff (s : Schema) (type : EntityType) (key : PropertyKey) :
    (s.scope? type key.name).isSome = true ↔
      s.validatorKind? type key = some .globalUniqueness ∨
        s.validatorKind? type key = some .typeUniqueness := by
  rw [scope?, validatorKind?, TypeTable.inherited?]
  cases s.validators.findInChain type key.name with
  | none => simp
  | some found =>
    obtain ⟨name, kind⟩ := found
    cases kind <;> simp [ValidatorKind.scope?]

/-! ### Locks that are looked up -/

namespace LockTable

theorem lookup?_eq (t : LockTable) (type key : String) :
    t.lookup? type key =
      if (t.held? ⟨.type type, key⟩).isSome = true then some ⟨.type type, key⟩
      else if (t.held? ⟨.global, key⟩).isSome = true then some ⟨.global, key⟩ else none := by
  rw [lookup?, List.find?_cons, List.find?_cons, List.find?_nil]
  cases (t.held? ⟨.type type, key⟩).isSome <;> cases (t.held? ⟨.global, key⟩).isSome <;> rfl

theorem lookup?_eq_none_iff (t : LockTable) (type key : String) :
    t.lookup? type key = none ↔
      t.held? ⟨.type type, key⟩ = none ∧ t.held? ⟨.global, key⟩ = none := by
  simp [lookup?]

/-- A lookup finds a lock that is there if it is that of the type, or that of all nodes and the type
has none. -/
theorem lookup?_eq_some_iff {t : LockTable} {σ : UniqueScope} {key : String}
    (h : (t.held? ⟨σ, key⟩).isSome = true) (type : String) :
    t.lookup? type key = some ⟨σ, key⟩ ↔
      σ = .type type ∨ σ = .global ∧ t.held? ⟨.type type, key⟩ = none := by
  rw [lookup?_eq]
  cases hown : t.held? ⟨.type type, key⟩ with
  | some held => simp [eq_comm]
  | none =>
    cases σ with
    | global => simp [h]
    | type name =>
      have hne : name ≠ type := by
        rintro rfl
        simp [hown] at h
      by_cases hall : (t.held? ⟨.global, key⟩).isSome = true <;> simp [hall, hne]

end LockTable

namespace SchemaDraft
variable {locks : LockTable} {rs : List Registration} {type : EntityType} {key : PropertyKey}

/-- A check for uniqueness finds its lock exactly if it was there before or a registration needs
just this lock. The check of a kind that needs a lock misses it only if the type was registered
under another spelling of its name; that of a factory brings no lock along. A value that passes
is guarded by the permit, and then claimed, exactly if the lock is found. -/
theorem lock_found_iff {caller : Caller} {σ : UniqueScope}
    (hcheck : (ofRegistrations locks rs).schema.validator? type key caller = some (.unique σ)) :
    let d := ofRegistrations locks rs
    let lock : Lock := ⟨σ, key.name⟩
    ((d.locks.held? lock).isSome = true ↔
      (locks.held? lock).isSome = true ∨ ∃ r ∈ rs, r.lock? = some lock) ∧
      (d.schema.scope? type key.name = some σ →
        (d.locks.held? lock).isSome = true ∨
          ∃ name ∈ type.chain, σ = .type name ∧ SpelledOtherwise rs name key.name) ∧
      (∀ c node v c', node.type = type → c.caller = caller → v.isNull = false →
        d.schema.validate c node key v = some (.ok (), c') →
          c' = if (c.locks.held? lock).isSome = true then c.hold lock else c) ∧
      (∀ (g : Graph) (t : Transaction) node v g', g.schema = d.schema → node.type = type →
        t.caller = caller → v.isNull = false → t.check g node key v = some (.ok (), g') →
          g'.claims = if (g.locks.held? lock).isSome = true then
            g.claims.add t.txn node.id key.name ⟨type, v⟩ else g.claims) := by
  refine ⟨registered_iff locks rs _, fun hσ => ?_, ?_, ?_⟩
  · rcases lock_of_scope hσ with hneeded | hother
    · exact Or.inl ((registered_iff locks rs _).2 (Or.inr hneeded))
    · exact Or.inr hother
  · rintro c node v c' rfl rfl hv hvalidate
    rw [Schema.validate, hcheck] at hvalidate
    exact Validator.unique_passes hv hvalidate
  · rintro g t node v g' hschema rfl rfl hv h
    exact Transaction.check_passes (hschema ▸ hcheck) hv h

/-- Where employees are known, nobody holds anything yet. -/
def unheld : ValidationContext :=
  { caller := .superUser, lookup := fun _ _ _ => .ok [], locks := World.staff.locks }

/-- The check of a person's address finds its lock; an address passes, and the permit is kept. -/
theorem lock_found_iff_staff :
    (World.staff.locks.held? ⟨.type "Person", "email"⟩).isSome = true ∧
      ∃ c', World.staff.schema.validate unheld ⟨⟨1⟩, .root "Person", []⟩ (.named "email")
        (.string "e") = some (.ok (), c') ∧ c' = unheld.hold ⟨.type "Person", "email"⟩ := by
  have hcheck : World.staff.schema.validator? (.root "Person") (.named "email") .superUser =
      some (.unique (.type "Person")) := Schema.validator?_of_scope rfl _
  obtain ⟨hfound, -, hkeeps, -⟩ := lock_found_iff hcheck
  have hlock := hfound.2 (Or.inr ⟨_, List.mem_cons_of_mem _ (List.mem_cons_of_mem _
    (List.mem_cons_self ..)), rfl⟩)
  obtain ⟨c', hpass⟩ : ∃ c', World.staff.schema.validate unheld ⟨⟨1⟩, .root "Person", []⟩
      (.named "email") (.string "e") = some (.ok (), c') := ⟨_, rfl⟩
  exact ⟨hlock, c', hpass, (hkeeps unheld _ _ c' rfl rfl rfl hpass).trans (if_pos hlock)⟩

/-- An employee is a person whose type is written in other letters. The check of the address asks
for a lock that nobody registered; an address passes without a permit, and is not claimed. -/
theorem lock_missed :
    let employee : EntityType := ⟨"Employee", ["PERSON"]⟩
    World.staff.schema.validatorKind? employee (.named "email") = some .typeUniqueness ∧
      World.staff.schema.validator? employee (.named "email") .superUser =
        some (.unique (.type "PERSON")) ∧
      World.staff.locks.held? ⟨.type "PERSON", "email"⟩ = none ∧
      World.staff.schema.validate unheld ⟨⟨1⟩, employee, []⟩ (.named "email") (.string "e") =
        some (.ok (), unheld) ∧
      ∃ node w, World.hired.createNode 1 employee [("email", .string "e")] =
          some (.ok node, w) ∧
        node.property? "email" = some (.string "e") ∧
        w.graph.claims = World.hired.graph.claims := by
  exact ⟨rfl, Schema.validator?_of_scope rfl _, rfl, rfl, _, _, rfl, rfl, rfl⟩

/-- A check for uniqueness of one of the schema's own kinds takes the permit of one lock, which is
there. A lookup by the simple name of the type finds this lock exactly if the type itself registered
the check for its nodes, or the check is for all nodes and no check for nodes of the type alone was
ever registered; it finds none exactly if the check is inherited from a type that registered it for
its own nodes, and neither the name nor the key of all nodes has a lock. -/
theorem lookup_agrees_iff
    (hkind : (ofRegistrations locks rs).schema.validatorKind? type key = some .globalUniqueness ∨
      (ofRegistrations locks rs).schema.validatorKind? type key = some .typeUniqueness)
    (hspelled : ∀ name ∈ type.chain, ¬ SpelledOtherwise rs name key.name) :
    let d := ofRegistrations locks rs
    let own : Lock := ⟨.type type.name, key.name⟩
    ∃ σ, d.schema.scope? type key.name = some σ ∧
      (∀ caller, d.schema.validator? type key caller = some (.unique σ)) ∧
      (d.locks.held? ⟨σ, key.name⟩).isSome = true ∧
      (∀ c node v, node.type = type → v.isNull = false →
        (c.locks.held? ⟨σ, key.name⟩).isSome = true →
          (d.schema.validate c node key v = none ↔ c.locks.held? ⟨σ, key.name⟩ = some true) ∧
            ∀ c', d.schema.validate c node key v = some (.ok (), c') →
              c' = c.hold ⟨σ, key.name⟩) ∧
      (d.locks.lookup? type.name key.name = some ⟨σ, key.name⟩ ↔
        σ = .type type.name ∨ σ = .global ∧ d.locks.held? own = none) ∧
      (d.locks.lookup? type.name key.name = none ↔ σ ≠ .type type.name ∧ σ ≠ .global ∧
        d.locks.held? own = none ∧ d.locks.held? ⟨.global, key.name⟩ = none) ∧
      ((d.locks.held? own).isSome = true ↔
        (locks.held? own).isSome = true ∨ ∃ r ∈ rs, r.lock? = some own) := by
  intro d own
  obtain ⟨σ, hσ⟩ := Option.isSome_iff_exists.1 ((d.schema.isSome_scope?_iff type key).2 hkind)
  have hcheck := Schema.validator?_of_scope hσ
  have hlock : (d.locks.held? ⟨σ, key.name⟩).isSome = true := by
    rcases lock_of_scope hσ with hneeded | ⟨name, hname, -, hother⟩
    · exact (registered_iff locks rs _).2 (Or.inr hneeded)
    · exact absurd hother (hspelled name hname)
  refine ⟨σ, hσ, hcheck, hlock, ?_, LockTable.lookup?_eq_some_iff hlock type.name, ?_,
    registered_iff locks rs own⟩
  · rintro c node v rfl hv hthere
    rw [Schema.validate, hcheck]
    refine ⟨?_, fun c' h => ?_⟩
    · rw [Validator.unique_waits_iff]
      simp [hv]
    · rw [Validator.unique_passes hv h, if_pos hthere]
  · rw [LockTable.lookup?_eq_none_iff]
    constructor
    · rintro ⟨hown, hall⟩
      refine ⟨?_, ?_, hown, hall⟩ <;> rintro rfl
      · simp [show d.locks.held? ⟨.type type.name, key.name⟩ = none from hown] at hlock
      · simp [hall] at hlock
    · rintro ⟨-, -, hown, hall⟩
      exact ⟨hown, hall⟩

/-- A schema in which persons have logins of their own, and so have users, who are persons. -/
def accounts : SchemaDraft :=
  .ofRegistrations {} [.type (.root "Person"), .type ⟨"User", ["Person"]⟩,
    .validator (.root "Person") (.named "login") .typeUniqueness none]

/-- A schema in which the logins of persons have to differ from those of everybody. -/
def replaced : SchemaDraft :=
  .ofRegistrations {} [.type (.root "Person"),
    .validator (.root "Person") (.named "login") .typeUniqueness none,
    .validator (.root "Person") (.named "login") .globalUniqueness none]

/-- A lookup by the type of persons finds the lock that the check of a login takes. -/
theorem lookup_agrees_iff_accounts :
    accounts.locks.lookup? "Person" "login" = some ⟨.type "Person", "login"⟩ ∧
      (accounts.locks.held? ⟨.type "Person", "login"⟩).isSome = true := by
  have hspelled : ∀ name ∈ (EntityType.root "Person").chain, ¬ SpelledOtherwise
      [.type (.root "Person"), .type ⟨"User", ["Person"]⟩,
        .validator (.root "Person") (.named "login") .typeUniqueness none] name "login" := by
    rintro name hname ⟨t, k, p, hmem, -, hne, -⟩
    obtain rfl : name = "Person" := by simpa [EntityType.chain, EntityType.root] using hname
    obtain ⟨rfl, -⟩ : t = .root "Person" ∧ _ := by simpa using hmem
    exact hne rfl
  have hkind : accounts.schema.validatorKind? (.root "Person") (.named "login") =
      some .typeUniqueness := rfl
  obtain ⟨σ, hσ, -, hlock, -, hfinds, -⟩ := lookup_agrees_iff (Or.inr hkind) hspelled
  obtain rfl : UniqueScope.type "Person" = σ := Option.some.inj hσ
  exact ⟨hfinds.2 (Or.inl rfl), hlock⟩

/-- A lookup by the name of a subtype does not find the lock that the check of a login takes, though
the lock is there; and where the check was replaced by one for all nodes, it finds the older lock of
the type. -/
theorem lookup_misses :
    (accounts.schema.validatorKind? ⟨"User", ["Person"]⟩ (.named "login") = some .typeUniqueness ∧
      accounts.schema.validator? ⟨"User", ["Person"]⟩ (.named "login") .superUser =
        some (.unique (.type "Person")) ∧
      accounts.locks.held? ⟨.type "Person", "login"⟩ = some false ∧
      accounts.locks.lookup? "User" "login" = none) ∧
    replaced.schema.validatorKind? (.root "Person") (.named "login") = some .globalUniqueness ∧
      replaced.schema.validator? (.root "Person") (.named "login") .superUser =
        some (.unique .global) ∧
      replaced.locks.held? ⟨.global, "login"⟩ = some false ∧
      replaced.locks.lookup? "Person" "login" = some ⟨.type "Person", "login"⟩ := by
  exact ⟨⟨rfl, Schema.validator?_of_scope rfl _, rfl, rfl⟩, rfl, Schema.validator?_of_scope rfl _,
    rfl, rfl⟩

end SchemaDraft
end EntityGraph
