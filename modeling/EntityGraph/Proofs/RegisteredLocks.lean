import EntityGraph.Proofs.Declarations
import EntityGraph.Proofs.UniqueChecks

/-!
The locks of a schema that was built from registrations. A check for uniqueness asks for the lock of
its scope, which is named after the type as the chain of the node spells it, while the lock bears
the name as the registration spells it.

Main statements: `SchemaDraft.registered_iff` — which locks there are; `SchemaDraft.lock_of_scope` —
a scope has its lock unless the name of its type was spelled otherwise; `SchemaDraft.locked` — every
scope has its lock if names of types are spelled in one way.
-/

namespace EntityGraph

namespace SchemaDraft

/-- Names in the chains of known types are spelled as the registrations of checks that need a lock
of their own type spell them. -/
def OneSpelling (s : Schema) (rs : List Registration) : Prop :=
  ∀ t key p, .validator t key .typeUniqueness p ∈ rs → ∀ raw type, s.type? raw = some type →
    ∀ name ∈ type.chain, normalize name = normalize t.name → name = t.name

theorem registered_register (d : SchemaDraft) (r : Registration) (l : Lock) :
    ((d.register r).locks.held? l).isSome = true ↔
      (d.locks.held? l).isSome = true ∨ r.lock? = some l := by
  rw [register]
  cases r.lock? with
  | none => simp
  | some m =>
    simp only [LockTable.held?_register, Option.some.injEq]
    by_cases hm : l = m
    · subst hm
      cases d.locks.held? l <;> simp
    · simp [hm, Ne.symm hm]

/-- The locks that are there: those that were there before, and those that registrations need. -/
theorem registered_iff (locks : LockTable) (rs : List Registration) (l : Lock) :
    ((ofRegistrations locks rs).locks.held? l).isSome = true ↔
      (locks.held? l).isSome = true ∨ ∃ r ∈ rs, r.lock? = some l := by
  have hfold : ∀ d : SchemaDraft, ((rs.foldl register d).locks.held? l).isSome = true ↔
      (d.locks.held? l).isSome = true ∨ ∃ r ∈ rs, r.lock? = some l := by
    induction rs with
    | nil => simp
    | cons r rs ih =>
      intro d
      rw [List.foldl_cons, ih, registered_register]
      simp [or_assoc]
  exact hfold _

/-- A check that is found along the chain of a type was registered for a type of that name, in
whichever letters. -/
theorem registration_of_findInChain {locks : LockTable} {rs : List Registration}
    {type : EntityType} {key name : String} {kind : ValidatorKind}
    (h : (ofRegistrations locks rs).schema.validators.findInChain type key = some (name, kind)) :
    ∃ t k p, .validator t k kind p ∈ rs ∧ normalize name = normalize t.name ∧ k.name = key := by
  have hentry := (entryOf?_of_findInChain h).2
  rw [schema_ofRegistrations, Schema.tells_validators.eq_last?,
    Declaration.last?_eq_some_iff] at hentry
  obtain ⟨earlier, d, later, hds, ⟨hname, hkey⟩, rfl, -⟩ := hentry
  have hmem : d ∈ rs.filterMap Registration.check? := hds ▸ by simp
  obtain ⟨r, hr, hdeclared⟩ := List.mem_filterMap.1 hmem
  cases r with
  | validator t k kind p =>
    obtain rfl := Option.some.inj hdeclared
    exact ⟨t, k, p, hr, hname, hkey.symm⟩
  | _ => cases hdeclared

/-- A check for unique values of a type was registered under another spelling of its name. -/
def SpelledOtherwise (rs : List Registration) (name key : String) : Prop :=
  ∃ t k p, .validator t k .typeUniqueness p ∈ rs ∧ k.name = key ∧ t.name ≠ name ∧
    normalize t.name = normalize name

/-- The lock of a scope was registered, unless the name of its type was spelled otherwise. -/
theorem lock_of_scope {locks : LockTable} {rs : List Registration} {type : EntityType}
    {key : String} {σ : UniqueScope}
    (hσ : (ofRegistrations locks rs).schema.scope? type key = some σ) :
    (∃ r ∈ rs, r.lock? = some ⟨σ, key⟩) ∨
      ∃ name ∈ type.chain, σ = .type name ∧ SpelledOtherwise rs name key := by
  obtain ⟨⟨name, kind⟩, hfind, hkind⟩ := Option.bind_eq_some_iff.1 hσ
  obtain ⟨t, k, p, hmem, hsame, rfl⟩ := registration_of_findInChain hfind
  cases kind <;> simp only [ValidatorKind.scope?, Option.some.injEq, reduceCtorEq] at hkind
  · subst hkind
    exact Or.inl ⟨_, hmem, rfl⟩
  · subst hkind
    by_cases hname : t.name = name
    · exact Or.inl ⟨_, hmem, by rw [Registration.lock?, ← hname]; rfl⟩
    · exact Or.inr ⟨name, (entryOf?_of_findInChain hfind).1, rfl, t, k, p, hmem, rfl, hname,
        hsame.symm⟩

/-- Every scope of a schema that was built from registrations has its lock. -/
theorem locked (locks : LockTable) (rs : List Registration)
    (h : OneSpelling (ofRegistrations locks rs).schema rs) :
    (ofRegistrations locks rs).schema.Locked (ofRegistrations locks rs).locks := by
  intro raw type key σ htype hσ
  rcases lock_of_scope hσ with ⟨r, hr, hlock⟩ | ⟨name, hname, -, t, k, p, hmem, -, hne, hsame⟩
  · exact (registered_iff locks rs _).2 (Or.inr ⟨r, hr, hlock⟩)
  · exact absurd (h t k p hmem raw type htype name hname hsame.symm).symm hne

end SchemaDraft
end EntityGraph
