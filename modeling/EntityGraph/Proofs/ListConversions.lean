import EntityGraph.Proofs.StoredReferences

/-!
Lists of which some items cannot be converted. Leniently, the items that fail are left out and the
others are given in their order. Strictly, the first item that fails decides how the list fails. So
the two conversions give the same list, or the strict one gives none.

Main statements: `convertAll_eq_error_iff` — which item a strict conversion fails with;
`listsAgree_convertAll` — how the two conversions of a list agree; `Notion.lists_agree` — so they
agree on nodes that are shown and on nodes that are found.
-/

namespace EntityGraph
variable {α β : Type} {f : α → Except Failure β} {items : List α} {e : Failure}

/-- Some item fails in this way, and every item before it succeeds. -/
def FirstFailure (f : α → Except Failure β) (items : List α) (e : Failure) : Prop :=
  ∃ before a after, items = before ++ a :: after ∧ (∀ b ∈ before, (f b).isOk = true) ∧
    f a = .error e

theorem not_firstFailure_nil : ¬ FirstFailure f [] e := by
  rintro ⟨before, a, after, hitems, -⟩
  simp at hitems

theorem firstFailure_cons_iff {a : α} :
    FirstFailure f (a :: items) e ↔
      f a = .error e ∨ (f a).isOk = true ∧ FirstFailure f items e := by
  constructor
  · rintro ⟨before, b, after, hitems, hbefore, hb⟩
    cases before with
    | nil =>
      obtain ⟨rfl, -⟩ := List.cons.inj hitems
      exact Or.inl hb
    | cons c before =>
      obtain ⟨rfl, rfl⟩ := List.cons.inj hitems
      obtain ⟨ha, hbefore⟩ := List.forall_mem_cons.1 hbefore
      exact Or.inr ⟨ha, before, b, after, rfl, hbefore, hb⟩
  · rintro (ha | ⟨ha, before, b, after, rfl, hbefore, hb⟩)
    · exact ⟨[], a, items, rfl, List.forall_mem_nil _, ha⟩
    · exact ⟨a :: before, b, after, rfl, List.forall_mem_cons.2 ⟨ha, hbefore⟩, hb⟩

theorem convertAll_cons_eq_error_iff {a : α} :
    convertAll f (a :: items) = .error e ↔
      f a = .error e ∨ (f a).isOk = true ∧ convertAll f items = .error e := by
  rw [convertAll]
  cases f a with
  | error e' => simp [Bind.bind, Except.bind, Except.isOk, Except.toBool]
  | ok b =>
    cases convertAll f items <;>
      simp [Bind.bind, Except.bind, Pure.pure, Except.pure, Except.isOk, Except.toBool]

/-- A strict conversion fails as the first item does that fails. -/
theorem convertAll_eq_error_iff : convertAll f items = .error e ↔ FirstFailure f items e := by
  induction items with
  | nil =>
    refine ⟨fun h => ?_, fun h => absurd h not_firstFailure_nil⟩
    cases h
  | cons a as ih => rw [convertAll_cons_eq_error_iff, firstFailure_cons_iff, ih]

/-- A strict conversion succeeds if no item fails. -/
theorem isOk_convertAll : (convertAll f items).isOk = items.all fun a => (f a).isOk := by
  induction items with
  | nil => rfl
  | cons a as ih =>
    rw [convertAll, List.all_cons, ← ih]
    cases f a with
    | error e => rfl
    | ok b => cases convertAll f as <;> rfl

/-- A lenient conversion gives the results of the items that do not fail, in their order. -/
theorem map_ok_convertLenient :
    (convertLenient f items).map Except.ok = (items.map f).filter Except.isOk := by
  rw [convertLenient]
  induction items with
  | nil => rfl
  | cons a as ih =>
    rw [List.filterMap_cons, List.map_cons]
    cases f a with
    | error e => exact ih
    | ok b => exact congrArg (Except.ok b :: ·) ih

/-- What is given leniently and strictly for a list, of whose items some may fail. -/
structure ListsAgree (f : α → Except Failure β) (items : List α) (lenient : List β)
    (strict : Except Failure (List β)) : Prop where
  /-- The results of the items that do not fail are given leniently, in their order. -/
  given : lenient.map Except.ok = (items.map f).filter Except.isOk
  /-- Something is given strictly exactly if no item fails. -/
  strictly : strict.isOk = true ↔ ∀ a ∈ items, (f a).isOk = true
  /-- What is given strictly is given leniently. -/
  same : ∀ out, strict = .ok out → out = lenient
  /-- If nothing is given strictly, the first item that fails says why. -/
  first : ∀ e, strict = .error e ↔ FirstFailure f items e

theorem listsAgree_convertAll (f : α → Except Failure β) (items : List α) :
    ListsAgree f items (convertLenient f items) (convertAll f items) where
  given := map_ok_convertLenient
  strictly := by rw [isOk_convertAll, List.all_eq_true]
  same _ := eq_convertLenient_of_convertAll
  first _ := convertAll_eq_error_iff

/-- A list of nodes is shown, and a list of nodes is found from what was shown, in the same two
ways: with the items that fail left out, or as a whole unless one fails. Where no list is given, no
nodes are meant. -/
theorem Notion.lists_agree (n : Notion) (caller : Caller) (r : Resolver) :
    (∀ nodes : List Node, ListsAgree (n.get caller) nodes (convertLenient (n.get caller) nodes)
      (n.getAll caller nodes)) ∧
    (∀ vs : List Value, ListsAgree (n.set caller r) vs (convertLenient (n.set caller r) vs)
      (n.setAll caller r (some vs))) ∧
    n.setAll caller r none = .ok [] :=
  ⟨listsAgree_convertAll (n.get caller), listsAgree_convertAll (n.set caller r), rfl⟩

end EntityGraph
