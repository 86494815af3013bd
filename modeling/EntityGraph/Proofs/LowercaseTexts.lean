import EntityGraph.Text.Lowercase
import Mathlib.Data.List.Basic

/-!
Lowercase texts. The lowercase letters of a run are letters of no run, so the lowercase form of a
character is made of characters that are their own lowercase form wherever they stand; the two forms
of a sigma are among them. A text of such characters is its own lowercase form.

Main statement: `lowercase_lowercase` — the lowercase form of a text is its own lowercase form.
-/

namespace EntityGraph

/-! ### Runs of letters -/

namespace LetterRun

/-- The lowercase letters of `r` are no letters of `r'`: they lie below or above these, or in the
gaps between them. This is computed on the numbers, as it is checked for every two runs. -/
def apart (r r' : LetterRun) : Bool :=
  (r.target + (r.last - r.first)).blt r'.first || r'.last.blt r.target ||
    r'.step.beq 2 && (r.step.beq 2 || r.first.beq r.last) && ((r.target + r'.first) % 2).beq 1

/-- The lowercase letters of `r` are characters, and `İ` is none of them. -/
def Proper (r : LetterRun) : Prop :=
  (r.target + (r.last - r.first) < 0xD800 ∨
      0xDFFF < r.target ∧ r.target + (r.last - r.first) < 0x110000) ∧
    (r.target + (r.last - r.first) < 'İ'.toNat ∨ 'İ'.toNat < r.target)

instance (r : LetterRun) : Decidable r.Proper := inferInstanceAs (Decidable (_ ∧ _))

variable {r r' : LetterRun} {m n : Nat}

theorem lower?_eq_some_iff :
    r.lower? n = some m ↔ (r.first ≤ n ∧ n ≤ r.last ∧ (n - r.first) % r.step = 0) ∧
      r.target + (n - r.first) = m := by
  rw [lower?, Option.ite_none_right_eq_some, Option.some.injEq]

theorem lower?_eq_none_of_apart (h : r.apart r' = true) (hm : r.lower? n = some m) :
    r'.lower? m = none := by
  obtain ⟨⟨hfirst, hlast, hstep⟩, rfl⟩ := lower?_eq_some_iff.1 hm
  refine if_neg fun ⟨hfirst', hlast', hstep'⟩ => ?_
  simp only [apart, Bool.or_eq_true, Bool.and_eq_true, Nat.blt_eq, Nat.beq_eq] at h
  rcases h with (hbelow | habove) | ⟨⟨htwo, hgaps⟩, hparity⟩
  · omega
  · omega
  · rw [htwo] at hstep'
    rcases hgaps with htwo' | hsingle
    · rw [htwo'] at hstep
      omega
    · omega

theorem Proper.toNat_ofNat (h : r.Proper) (hm : r.lower? n = some m) :
    (Char.ofNat m).toNat = m := by
  have hvalid : m.isValidChar := by
    obtain ⟨⟨hfirst, hlast, -⟩, rfl⟩ := lower?_eq_some_iff.1 hm
    have hrun := h.1
    unfold Nat.isValidChar
    omega
  rw [Char.ofNat, dif_pos hvalid]
  rfl

theorem Proper.ne_dotted (h : r.Proper) (hm : r.lower? n = some m) : m ≠ 'İ'.toNat := by
  obtain ⟨⟨hfirst, hlast, -⟩, rfl⟩ := lower?_eq_some_iff.1 hm
  have hdotted := h.2
  omega

end LetterRun

theorem letterRuns_apart :
    (letterRuns.all fun r => letterRuns.all fun r' => r.apart r') = true := by decide +kernel

theorem letterRuns_proper : ∀ r ∈ letterRuns, r.Proper := by decide +kernel

/-! ### Characters -/

/-- A character is its own lowercase form, wherever it stands. -/
def IsLowercase (c : Char) : Prop := ∀ before after, lowerBetween before c after = [c]

theorem lowerChar_sigma : lowerChar 'Σ' = 'σ' := by decide +kernel

theorem isLowercase_of_lowerChar {c : Char} (hdotted : c ≠ 'İ') (hc : lowerChar c = c) :
    IsLowercase c := by
  have hsigma : c ≠ 'Σ' := by
    rintro rfl
    rw [lowerChar_sigma] at hc
    exact absurd hc (by decide)
  intro before after
  rw [lowerBetween, if_neg hsigma, if_neg hdotted, hc]

/-- The lowercase letter of a character is its own lowercase form. -/
theorem isLowercase_lowerChar {c : Char} (hdotted : c ≠ 'İ') : IsLowercase (lowerChar c) := by
  cases hfound : letterRuns.findSome? (·.lower? c.toNat) with
  | none =>
    have hc : lowerChar c = c := by rw [lowerChar, hfound]
    rw [hc]
    exact isLowercase_of_lowerChar hdotted hc
  | some m =>
    obtain ⟨r, hr, hm⟩ := List.exists_of_findSome?_eq_some hfound
    have hproper := letterRuns_proper r hr
    have hnat := hproper.toNat_ofNat hm
    have hnone : letterRuns.findSome? (·.lower? (Char.ofNat m).toNat) = none := by
      rw [hnat, List.findSome?_eq_none_iff]
      intro r' hr'
      have hapart := List.all_eq_true.1 (List.all_eq_true.1 letterRuns_apart r hr) r' hr'
      exact LetterRun.lower?_eq_none_of_apart hapart hm
    have hc : lowerChar c = Char.ofNat m := by rw [lowerChar, hfound]
    rw [hc]
    refine isLowercase_of_lowerChar (fun h => hproper.ne_dotted hm ?_) (by rw [lowerChar, hnone])
    rw [← h, hnat]

/-- The lowercase form of a character is made of characters that are their own lowercase form. -/
theorem isLowercase_of_mem_lowerBetween {before after : List Char} {c d : Char}
    (hd : d ∈ lowerBetween before c after) : IsLowercase d := by
  have hsigma : IsLowercase 'σ' := lowerChar_sigma ▸ isLowercase_lowerChar (by decide)
  have hfinal : IsLowercase 'ς' := isLowercase_of_lowerChar (by decide) (by decide +kernel)
  have hi : IsLowercase 'i' := isLowercase_of_lowerChar (by decide) (by decide +kernel)
  have hdot : IsLowercase '\u0307' := isLowercase_of_lowerChar (by decide) (by decide +kernel)
  rw [lowerBetween] at hd
  split_ifs at hd with hs hlast hdotted
  · rwa [List.mem_singleton.1 hd]
  · rwa [List.mem_singleton.1 hd]
  · rcases List.mem_pair.1 hd with rfl | rfl
    · exact hi
    · exact hdot
  · rw [List.mem_singleton.1 hd]
    exact isLowercase_lowerChar hdotted

/-! ### Texts -/

theorem isLowercase_of_mem_lowerAfter {before cs : List Char} {d : Char}
    (hd : d ∈ lowerAfter before cs) : IsLowercase d := by
  induction cs generalizing before with
  | nil => cases hd
  | cons c cs ih =>
    rcases List.mem_append.1 hd with hd | hd
    · exact isLowercase_of_mem_lowerBetween hd
    · exact ih hd

/-- A text of characters that are their own lowercase form is its own lowercase form. -/
theorem lowerAfter_of_isLowercase {before cs : List Char} (h : ∀ c ∈ cs, IsLowercase c) :
    lowerAfter before cs = cs := by
  induction cs generalizing before with
  | nil => rfl
  | cons c cs ih =>
    rw [List.forall_mem_cons] at h
    rw [lowerAfter, h.1 before cs, ih h.2, List.singleton_append]

theorem isLowercase_of_mem_lowercase {s : String} {c : Char} (hc : c ∈ (lowercase s).toList) :
    IsLowercase c := by
  rw [lowercase, String.toList_ofList] at hc
  exact isLowercase_of_mem_lowerAfter hc

/-- A text is its own lowercase form if each of its characters is. -/
theorem lowercase_eq_self_iff {s : String} :
    lowercase s = s ↔ ∀ c ∈ s.toList, IsLowercase c := by
  constructor
  · exact fun h c hc => isLowercase_of_mem_lowercase (s := s) (h.symm ▸ hc)
  · intro h
    rw [lowercase, lowerAfter_of_isLowercase h, String.ofList_toList]

/-- The lowercase form of a text is its own lowercase form. -/
theorem lowercase_lowercase (s : String) : lowercase (lowercase s) = lowercase s :=
  lowercase_eq_self_iff.2 fun _ => isLowercase_of_mem_lowercase

end EntityGraph
