import EntityGraph.Name
import EntityGraph.Proofs.LowercaseTexts

/-!
Plurals of names. A plural is lowercase and ends in an `s`; a name like that is its own plural. So
these names are the plurals, and the plural of a plural is that plural again.

Main statements: `pluralize_eq_self_iff` — which names are their own plural; `plural_settled` — the
plural of every name is one of them, comes of the lowercase name alone, and begins with that name
unless it ends in a `y`.
-/

namespace EntityGraph

/-! ### Characters of a plural -/

/-- How the plural of a lowercase name is formed, by the last character of the name. -/
theorem pluralChars_cases (cs : List Char) :
    (∃ stem, cs = stem ++ ['y'] ∧ pluralChars cs = stem ++ ['i', 'e', 's']) ∨
      (∃ stem, cs = stem ++ ['s'] ∧ pluralChars cs = stem ++ ['s']) ∨
      cs.getLast? ≠ some 'y' ∧ cs.getLast? ≠ some 's' ∧ pluralChars cs = cs ++ ['s'] := by
  rw [pluralChars]
  split
  · next hy =>
    obtain ⟨stem, rfl⟩ := List.getLast?_eq_some_iff.1 hy
    exact Or.inl ⟨stem, rfl, by rw [List.dropLast_concat]⟩
  · next hs =>
    obtain ⟨stem, rfl⟩ := List.getLast?_eq_some_iff.1 hs
    exact Or.inr (Or.inl ⟨stem, rfl, rfl⟩)
  · next hy hs => exact Or.inr (Or.inr ⟨hy, hs, rfl⟩)

theorem getLast?_pluralChars (cs : List Char) : (pluralChars cs).getLast? = some 's' := by
  obtain ⟨stem, -, h⟩ | ⟨stem, -, h⟩ | ⟨-, -, h⟩ := pluralChars_cases cs <;> simp [h]

theorem pluralChars_eq_self_iff {cs : List Char} :
    pluralChars cs = cs ↔ cs.getLast? = some 's' := by
  constructor
  · exact fun h => h ▸ getLast?_pluralChars cs
  · intro hs
    obtain ⟨stem, rfl, -⟩ | ⟨stem, rfl, h⟩ | ⟨-, hne, -⟩ := pluralChars_cases cs
    · simp at hs
    · exact h
    · exact absurd hs hne

theorem mem_or_mem_of_mem_pluralChars {cs : List Char} {c : Char} (hc : c ∈ pluralChars cs) :
    c ∈ cs ∨ c ∈ ['i', 'e', 's'] := by
  obtain ⟨stem, rfl, h⟩ | ⟨stem, rfl, h⟩ | ⟨-, -, h⟩ := pluralChars_cases cs <;>
    rw [h, List.mem_append] at hc
  · exact hc.imp_left (List.mem_append_left _)
  · exact Or.inl (List.mem_append.2 hc)
  · exact hc.imp_right fun hc => by simp_all

/-- A plural begins with the name that it comes of, unless a final `y` went. -/
theorem isPrefix_pluralChars_iff {cs : List Char} :
    cs <+: pluralChars cs ↔ cs.getLast? ≠ some 'y' := by
  obtain ⟨stem, rfl, h⟩ | ⟨stem, rfl, h⟩ | ⟨hne, -, h⟩ := pluralChars_cases cs <;> rw [h]
  · simp [List.prefix_append_right_inj]
  · simp
  · exact iff_of_true (List.prefix_append _ _) hne

/-! ### Names -/

theorem toList_pluralize (name : String) :
    (pluralize name).toList = pluralChars (normalize name).toList :=
  String.toList_ofList

theorem isLowercase_of_mem_ending {c : Char} (hc : c ∈ ['i', 'e', 's']) : IsLowercase c := by
  simp only [List.mem_cons, List.not_mem_nil, or_false] at hc
  rcases hc with rfl | rfl | rfl <;> exact isLowercase_of_lowerChar (by decide) (by decide +kernel)

/-- A plural is lowercase. -/
theorem normalize_pluralize (name : String) : normalize (pluralize name) = pluralize name := by
  refine lowercase_eq_self_iff.2 fun c hc => ?_
  rw [toList_pluralize] at hc
  -- the characters of the name are lowercase wherever they stand, so the ending changes none
  rcases mem_or_mem_of_mem_pluralChars hc with hc | hc
  · exact isLowercase_of_mem_lowercase hc
  · exact isLowercase_of_mem_ending hc

theorem pluralize_normalize (name : String) : pluralize (normalize name) = pluralize name := by
  rw [pluralize, pluralize, normalize, normalize, lowercase_lowercase]

/-- The lowercase names that end in an `s` are those that are their own plural. -/
theorem pluralize_eq_self_iff {name : String} :
    pluralize name = name ↔ normalize name = name ∧ name.toList.getLast? = some 's' := by
  constructor
  · intro h
    refine ⟨h ▸ normalize_pluralize name, ?_⟩
    rw [← h, toList_pluralize]
    exact getLast?_pluralChars _
  · rintro ⟨hlower, hs⟩
    rw [← String.toList_inj, toList_pluralize, hlower]
    exact pluralChars_eq_self_iff.2 hs

/-- The plural of a name ends in an `s`, is lowercase, depends only on the lowercase name, and is
its own plural. The lowercase name is how it begins, exactly if that does not end in a `y`. -/
theorem plural_settled (name : String) :
    (pluralize name).toList.getLast? = some 's' ∧
      normalize (pluralize name) = pluralize name ∧
      pluralize (normalize name) = pluralize name ∧
      (∀ other, normalize other = normalize name → pluralize other = pluralize name) ∧
      pluralize (pluralize name) = pluralize name ∧
      ((normalize name).toList <+: (pluralize name).toList ↔
        (normalize name).toList.getLast? ≠ some 'y') := by
  have hlast : (pluralize name).toList.getLast? = some 's' :=
    toList_pluralize name ▸ getLast?_pluralChars _
  refine ⟨hlast, normalize_pluralize name, pluralize_normalize name, fun other h => ?_,
    pluralize_eq_self_iff.2 ⟨normalize_pluralize name, hlast⟩, ?_⟩
  · rw [← pluralize_normalize, h, pluralize_normalize]
  · rw [toList_pluralize]
    exact isPrefix_pluralChars_iff

/-- The capital sigma of a name in capitals becomes a final one, which stays one before the `s`. -/
theorem plural_settled_logos :
    normalize "λόγος" = normalize "ΛΌΓΟΣ" ∧ pluralize "λόγος" = pluralize "ΛΌΓΟΣ" ∧
      pluralize "ΛΌΓΟΣ" = "λόγοςs" ∧ pluralize "λόγοςs" = "λόγοςs" := by
  obtain ⟨-, -, -, hsame, hagain, -⟩ := plural_settled "ΛΌΓΟΣ"
  have hlower : normalize "λόγος" = normalize "ΛΌΓΟΣ" := by decide +kernel
  have hplural : pluralize "ΛΌΓΟΣ" = "λόγοςs" := by decide +kernel
  exact ⟨hlower, hsame _ hlower, hplural, hplural ▸ hagain⟩

end EntityGraph
