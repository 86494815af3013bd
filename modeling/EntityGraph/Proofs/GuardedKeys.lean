import EntityGraph.Proofs.BackedClaims
import EntityGraph.Proofs.LivePermits

/-!
Keys whose values are checked for uniqueness, whoever built the check. Such a check looks for
another holder in its scope, and leaves the permit of the scope's lock with a value that passes, if
there is such a lock. A check that is about anything else leaves no permit. So a permit that is left
tells that a value was checked for uniqueness.

Main statements: `Validator.unique_guards` — the schema's own checks for uniqueness are such checks;
`Schema.Parked.claimable` and `Schema.Unparked.not_claimable` — where a permit was left, values of
the key are claimed, and where none was left, they are not; `Transaction.heldBy_of_guarded` — no
other node holds a guarded value that passed.
-/

namespace EntityGraph

namespace Validator
variable {check : Validator} {σ : UniqueScope}

/-- A check for uniqueness in a scope. -/
structure Guards (σ : UniqueScope) (check : Validator) : Prop where
  /-- No other node of the scope holds a value that passes. -/
  free : ∀ {c node key v p c'}, check.validate c node key v p = some (.ok (), c') →
    v.isNull = false → checkHolders σ c.lookup node key v = .ok ()
  /-- A permit is left for it exactly if the scope has a lock for the key. -/
  parks : ∀ {c node key v p c'}, check.validate c node key v p = some (.ok (), c') →
    c.permits = [] → (c'.permits ≠ [] ↔ v.isNull = false ∧ ⟨σ, key.name⟩ ∈ c.locks.registered)

/-- A check that leaves no permit with a value that passes. -/
def TakesNone (check : Validator) : Prop :=
  ∀ {c node key v p c'}, check.validate c node key v p = some (.ok (), c') → c.permits = [] →
    c'.permits = []

theorem unique_guards (σ : UniqueScope) : (unique σ).Guards σ where
  free h hv := by
    cases unique_end h with
    | null hnull => simp [hv] at hnull
    | unlocked _ _ hcheck | passed _ _ hcheck => exact hcheck
  parks h hempty := by
    rw [LockTable.mem_registered_iff]
    cases unique_end h with
    | null hv => simp [hempty, hv]
    | unlocked _ hnone => simp [hempty, hnone]
    | passed hv hfree => simp [ValidationContext.hold, hv, hfree]

theorem ofCheck_takesNone
    (f : Node → PropertyKey → Value → Option Value → Except Failure Unit) :
    (ofCheck f).TakesNone := by
  intro c node key v p c' h hempty
  obtain ⟨-, rfl⟩ := Prod.mk.inj (Option.some.inj h)
  exact hempty

theorem unique_registered {c c' : ValidationContext} {node : Node} {key : PropertyKey} {v : Value}
    {p : Option Value} {r : Except Failure Unit}
    (h : (unique σ).validate c node key v p = some (r, c')) :
    c'.locks.registered = c.locks.registered := by
  cases unique_end h with
  | null | unlocked | refused => rfl
  | passed => exact LockTable.registered_mark _ _ _

theorem Guards.steady (h : check.Guards σ) : check.Steady := by
  intro c node key v p c' d node' key' v' d' hpass hempty hleft hpass' hempty' hv' _ hkeeps _ _ hkey
  obtain ⟨-, hlock⟩ := (h.parks hpass hempty).1 hleft
  refine (h.parks hpass' hempty').2 ⟨hv', ?_⟩
  rw [LockTable.mem_registered_iff] at hlock ⊢
  exact hkey ▸ hkeeps _ hlock

theorem TakesNone.steady (h : check.TakesNone) : check.Steady := by
  intro c node key v p c' d node' key' v' d' hpass hempty hleft
  exact absurd (h hpass hempty) hleft

end Validator

namespace Schema
variable {s : Schema} {type : EntityType} {key : PropertyKey} {caller : Caller}
  {check : Validator} {σ : UniqueScope}

/-- No check that a factory builds registers a lock or makes the locks forget one. -/
def FixesLocks (s : Schema) : Prop :=
  ∀ name f caller check, s.validatorFactories.get? name = some f → f caller = .ok check →
    ∀ c node key v p r c', check.validate c node key v p = some (r, c') →
      c'.locks.registered = c.locks.registered

/-- If a factory built the check of a key, it leaves permits as the schema's own do: one for
uniqueness leaves that of its lock with every value, any other leaves none. -/
def Conforms (s : Schema) (caller : Caller) (type : EntityType) (key : String) : Prop :=
  ∀ name f check, s.validatorFactories.get? name = some f → f caller = .ok check →
    s.validator? type (.named key) caller = some check → (∃ σ, check.Guards σ) ∨ check.TakesNone

theorem Conforms.guards_or_takesNone {key : String} (h : s.Conforms caller type key)
    (hcheck : s.validator? type (.named key) caller = some check) :
    (∃ σ, check.Guards σ) ∨ check.TakesNone := by
  rcases Schema.validator_cases hcheck with ⟨σ, rfl⟩ | ⟨f, rfl⟩ | ⟨name, f, -, hf, hok⟩
  · exact Or.inl ⟨σ, Validator.unique_guards σ⟩
  · exact Or.inr (Validator.ofCheck_takesNone f)
  · exact h name f check hf hok hcheck

theorem FixesLocks.keepsLocks (hs : s.FixesLocks) : s.KeepsLocks := by
  intro name f caller check hf hok c node key v p r c' h l hl
  rw [← LockTable.mem_registered_iff] at hl ⊢
  rwa [hs name f caller check hf hok _ _ _ _ _ _ _ h]

theorem FixesLocks.validate_registered (hs : s.FixesLocks) {c c' : ValidationContext} {node : Node}
    {v : Value} {r : Except Failure Unit} (h : s.validate c node key v = some (r, c')) :
    c'.locks.registered = c.locks.registered := by
  rw [validate] at h
  split at h
  · next check hcheck =>
    rcases Schema.validator_cases hcheck with ⟨σ, rfl⟩ | ⟨f, rfl⟩ | ⟨name, f, -, hf, hok⟩
    · exact Validator.unique_registered h
    · obtain ⟨-, rfl⟩ := Prod.mk.inj (Option.some.inj h)
      rfl
    · exact hs name f c.caller check hf hok _ _ _ _ _ _ _ h
  · obtain ⟨-, rfl⟩ := Prod.mk.inj (Option.some.inj h)
    rfl

/-- A check that conforms does not waver. -/
theorem Conforms.not_wavers {id : NodeId} {key : String} {v u : Value}
    (h : s.Conforms caller type key) (hs : s.KeepsLocks) : ¬ s.Wavers caller id type key v u := by
  intro hwavers
  obtain ⟨name, f, check, -, -, hcheck, hunsteady⟩ := hwavers.unsteady hs
  rcases h.guards_or_takesNone hcheck with ⟨σ, hguards⟩ | hnone
  · exact hunsteady hguards.steady
  · exact hunsteady hnone.steady

/-- Values of the key of a type are checked for uniqueness in the scope. -/
def GuardedIn (s : Schema) (caller : Caller) (type : EntityType) (key : String)
    (σ : UniqueScope) : Prop :=
  ∃ check, s.validator? type (.named key) caller = some check ∧ check.Guards σ

theorem guardedIn_of_scope (h : s.scope? type key.name = some σ) (caller : Caller) :
    s.GuardedIn caller type key.name σ := by
  have hcheck : s.validator? type key caller = some (.unique σ) := validator?_of_scope h caller
  exact ⟨_, hcheck, Validator.unique_guards σ⟩

/-- A value that passed has passed the check of its key. -/
theorem GuardedIn.passed {c c' : ValidationContext} {node : Node} {v : Value}
    (h : s.GuardedIn c.caller node.type key.name σ)
    (hpass : s.validate c node key v = some (.ok (), c')) :
    ∃ (check : Validator) (p : Option Value), check.Guards σ ∧
      check.validate c node key v p = some (.ok (), c') := by
  obtain ⟨check, hcheck, hguards⟩ := h
  replace hcheck : s.validator? node.type key c.caller = some check := hcheck
  rw [Schema.validate, hcheck] at hpass
  exact ⟨check, _, hguards, hpass⟩

/-- Values of the key of a type are claimed: they are checked for uniqueness in a scope that has a
lock for the key. -/
def Claimable (s : Schema) (locks : LockTable) (caller : Caller) (type : EntityType)
    (key : String) : Prop :=
  ∃ σ, s.GuardedIn caller type key σ ∧ ⟨σ, key⟩ ∈ locks.registered

theorem GuardedIn.conforms {key : String} (h : s.GuardedIn caller type key σ) :
    s.Conforms caller type key := by
  intro name f check' _ _ hcheck'
  obtain ⟨check, hcheck, hguards⟩ := h
  obtain rfl := Option.some.inj (hcheck.symm.trans hcheck')
  exact Or.inl ⟨σ, hguards⟩

/-- Only which locks are registered counts. -/
theorem Claimable.congr {locks locks' : LockTable} {key : String}
    (h : s.Claimable locks caller type key) (hlocks : locks'.registered = locks.registered) :
    s.Claimable locks' caller type key := by
  obtain ⟨σ, hσ, hlock⟩ := h
  exact ⟨σ, hσ, hlocks ▸ hlock⟩

/-- Where a conforming check left a permit, a value was checked for uniqueness under a lock. -/
theorem Parked.claimable {locks : LockTable} {id : NodeId} {key : String} {v : Value}
    (h : s.Parked locks caller id type key v) (hs : s.KeepsLocks)
    (hconf : s.Conforms caller type key) : s.Claimable locks caller type key := by
  obtain ⟨c, c', hpass, hleft, hkeeps⟩ := h
  obtain ⟨check, hcheck⟩ := hpass.check hleft
  obtain ⟨node, k, hvalidate, -, -, rfl⟩ := hpass.of_check hcheck
  rcases hconf.guards_or_takesNone hcheck with ⟨σ, hguards⟩ | hnone
  · obtain ⟨-, hlock⟩ := (hguards.parks hvalidate hpass.fresh).1 hleft
    refine ⟨σ, ⟨check, hcheck, hguards⟩, ?_⟩
    rw [LockTable.mem_registered_iff] at hlock ⊢
    exact hkeeps hs _ hlock
  · exact absurd (hnone hvalidate hpass.fresh) hleft

/-- A value passed without a permit, under the locks of now unless checks change them. -/
def Unparked (s : Schema) (locks : LockTable) (caller : Caller) (id : NodeId) (type : EntityType)
    (key : String) (v : Value) : Prop :=
  ∃ d d', s.LetsPass caller id type key v d d' ∧ d'.permits = [] ∧ v.isNull = false ∧
    (s.FixesLocks → d.locks.registered = locks.registered)

theorem Unparked.fixed {locks locks' : LockTable} {id : NodeId} {key : String} {v : Value}
    (h : s.Unparked locks caller id type key v)
    (hlocks : s.FixesLocks → locks'.registered = locks.registered) :
    s.Unparked locks' caller id type key v := by
  obtain ⟨d, d', hpass, hnone, hv, hfixed⟩ := h
  exact ⟨d, d', hpass, hnone, hv, fun hs => (hfixed hs).trans (hlocks hs).symm⟩

/-- Where no permit was left with a value, values are not checked for uniqueness under a lock. -/
theorem Unparked.not_claimable {locks : LockTable} {id : NodeId} {key : String} {v : Value}
    (h : s.Unparked locks caller id type key v) (hs : s.FixesLocks) :
    ¬ s.Claimable locks caller type key := by
  rintro ⟨σ, ⟨check, hcheck, hguards⟩, hlock⟩
  obtain ⟨d, d', hpass, hnone, hv, hfixed⟩ := h
  obtain ⟨node, k, hvalidate, -, -, rfl⟩ := hpass.of_check hcheck
  exact (hguards.parks hvalidate hpass.fresh).2 ⟨hv, hfixed hs ▸ hlock⟩ hnone

end Schema

namespace LockTable

theorem registered_releaseAll (t : LockTable) (ls : List Lock) :
    (t.releaseAll ls).registered = t.registered := by
  induction ls generalizing t with
  | nil => rfl
  | cons l ls ih => exact (ih _).trans (t.registered_release l)

end LockTable

namespace Transaction
variable {g g' : Graph} {t : Transaction} {node : Node} {key : PropertyKey} {v : Value}
  {σ : UniqueScope} {a b : Graph × Transaction}

theorem check_registered (hs : g.schema.FixesLocks) {r : Except Failure Unit}
    (h : t.check g node key v = some (r, g')) : g'.locks.registered = g.locks.registered := by
  obtain ⟨⟨r', c⟩, hvalidate, he⟩ := Option.map_eq_some_iff.1 h
  obtain ⟨-, rfl⟩ := Prod.mk.inj he
  exact (LockTable.registered_releaseAll _ _).trans (hs.validate_registered hvalidate)

/-- No step registers a lock or forgets one. -/
theorem Step.registered (hs : a.1.schema.FixesLocks) (h : Step a b) :
    b.1.locks.registered = a.1.locks.registered := by
  cases h with
  | refused hcheck => exact check_registered hs hcheck
  | written _ _ hcheck =>
    have hchecked := check_registered hs hcheck
    rw [settled_eq]
    exact hchecked
  | skipped | entered | related | dropped | erased => rfl

theorem Steps.registered (hs : a.1.schema.FixesLocks) (h : Steps a b) :
    b.1.locks.registered = a.1.locks.registered := by
  induction h with
  | refl => rfl
  | tail hab hstep ih =>
    exact (hstep.registered ((Steps.frame hab).schema ▸ hs)).trans ih

/-- No other node of the scope holds a guarded value that passed. -/
theorem heldBy_of_guarded (hσ : g.schema.GuardedIn t.caller node.type key.name σ)
    (hv : v.isNull = false) (h : t.check g node key v = some (.ok (), g')) :
    ∀ m ∈ heldBy g t σ key v, m = node.id := by
  obtain ⟨⟨r, c⟩, hpass, he⟩ := Option.map_eq_some_iff.1 h
  obtain ⟨rfl, rfl⟩ := Prod.mk.inj he
  obtain ⟨check, p, hguards, hvalidate⟩ := hσ.passed hpass
  exact checkHolders_lookup g t σ node key v (hguards.free hvalidate hv)

end Transaction

/-! ### Addresses of persons and guests -/

/-- A check that one value be unique, and no other. -/
def Validator.uniqueOnly (only : Value) : Validator where
  validate c node key v p :=
    if v == only then (unique .global).validate c node key v p else some (.ok (), c)

/-- A schema in which email addresses of persons are unique, and those of guests are checked by what
a factory builds. -/
def visitors (check : Validator) : SchemaDraft :=
  .ofRegistrations {} [.type (.root "Person"), .type (.root "Guest"),
    .validator (.root "Person") (.named "email") .globalUniqueness none,
    .validator (.root "Guest") (.named "email") (.named "address") none,
    .validatorFactory "address" fun _ => .ok check]

theorem visitors_factory {check : Validator} {name : String}
    {f : Caller → Except Failure Validator}
    (h : (visitors check).schema.validatorFactories.get? name = some f) :
    f = fun _ => .ok check := by
  have hfactories : (visitors check).schema.validatorFactories =
    [("address", fun _ => .ok check)] := rfl
  rw [hfactories, Assoc.get?_cons, Assoc.get?_nil] at h
  split at h
  · exact (Option.some.inj h).symm
  · simp at h

theorem visitors_fixesLocks (σ : UniqueScope) : (visitors (.unique σ)).schema.FixesLocks := by
  intro name f caller check hf hok c node key v p r c' h
  obtain rfl := visitors_factory hf
  obtain rfl := Except.ok.inj hok
  exact Validator.unique_registered h

theorem visitors_steady {σ : UniqueScope} {name : String}
    {f : Caller → Except Failure Validator} {caller : Caller} {check : Validator}
    (hf : (visitors (.unique σ)).schema.validatorFactories.get? name = some f)
    (hok : f caller = .ok check) : check.Steady := by
  obtain rfl := visitors_factory hf
  obtain rfl := Except.ok.inj hok
  exact Validator.unique_steady σ

/-- A new graph for persons and guests. -/
def reception (check : Validator) : World Unit Unit :=
  World.start (visitors check).schema (visitors check).locks [] ()

end EntityGraph
