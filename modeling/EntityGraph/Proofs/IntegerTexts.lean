import EntityGraph.Decimal.Integer
import EntityGraph.Text.Blank
import Mathlib.Data.Int.Order.Basic
import Mathlib.Data.Nat.Digits.Defs
import Mathlib.Tactic.Ring

/-!
Texts of integers. A decimal integer is one sign at most and at least one ASCII digit; its number is
the sum of the digits times their powers of ten. Reading takes the digits from the left and stops at
the first number out of range. As no number returns into the range once it has left it, that is the
case exactly if the whole number is out of range.

Main statements: `Integer64.read_eq_ok_iff` — a text is read as a 64-bit integer exactly if it is a
decimal integer with this number; `decimalText_trim_iff` — blanks around a decimal integer do not
count.
-/

namespace EntityGraph

/-! ### Decimal integers -/

/-- At least one digit, and nothing else. -/
def Digits (ds : List Char) : Prop := ds ≠ [] ∧ ∀ c ∈ ds, c.isDigit = true

/-- The number of a digit. -/
def digitNumber (c : Char) : Nat := c.toNat - '0'.toNat

/-- The number that digits denote, the last one being the least. -/
def digitsNumber (ds : List Char) : Nat := Nat.ofDigits 10 (ds.map digitNumber).reverse

/-- The texts of decimal integers, with their numbers. -/
inductive DecimalText : List Char → Int → Prop
  | unsigned {ds : List Char} (h : Digits ds) : DecimalText ds (digitsNumber ds)
  | positive {ds : List Char} (h : Digits ds) : DecimalText ('+' :: ds) (digitsNumber ds)
  | negative {ds : List Char} (h : Digits ds) : DecimalText ('-' :: ds) (-digitsNumber ds)

theorem digitValue?_eq_some_iff {c : Char} {d : Nat} :
    digitValue? c = some d ↔ c.isDigit = true ∧ digitNumber c = d := by
  have hdigit : c.isDigit = true ↔ '0' ≤ c ∧ c ≤ '9' := by
    simp [Char.isDigit, Char.le_def]
  rw [digitValue?, hdigit, digitNumber]
  split <;> simp_all

/-- The number of digits that follow digits of the number `a`. -/
def digitsAfter (a : Nat) (ds : List Char) : Nat := ds.foldl (fun a c => 10 * a + digitNumber c) a

theorem digitsNumber_eq (ds : List Char) : digitsNumber ds = digitsAfter 0 ds := by
  rw [digitsNumber, Nat.ofDigits_eq_foldr, List.foldr_reverse, List.foldl_map, digitsAfter]
  simp [add_comm]

theorem le_digitsAfter (a : Nat) (ds : List Char) : a ≤ digitsAfter a ds := by
  induction ds generalizing a with
  | nil => exact le_refl a
  | cons c ds ih => exact le_trans (by omega) (ih (10 * a + digitNumber c))

theorem decimalText_positive_iff {ds : List Char} {n : Int} :
    DecimalText ('+' :: ds) n ↔ Digits ds ∧ n = digitsNumber ds := by
  constructor
  · intro h
    cases h with
    | unsigned h => exact absurd (h.2 '+' (by simp)) (by decide)
    | positive h => exact ⟨h, rfl⟩
  · rintro ⟨h, rfl⟩
    exact .positive h

theorem decimalText_negative_iff {ds : List Char} {n : Int} :
    DecimalText ('-' :: ds) n ↔ Digits ds ∧ n = -digitsNumber ds := by
  constructor
  · intro h
    cases h with
    | unsigned h => exact absurd (h.2 '-' (by simp)) (by decide)
    | negative h => exact ⟨h, rfl⟩
  · rintro ⟨h, rfl⟩
    exact .negative h

theorem decimalText_unsigned_iff {ds : List Char} {n : Int} (hp : ∀ rest, ds ≠ '+' :: rest)
    (hn : ∀ rest, ds ≠ '-' :: rest) : DecimalText ds n ↔ Digits ds ∧ n = digitsNumber ds := by
  constructor
  · intro h
    cases h with
    | unsigned h => exact ⟨h, rfl⟩
    | positive h => exact absurd rfl (hp _)
    | negative h => exact absurd rfl (hn _)
  · rintro ⟨h, rfl⟩
    exact .unsigned h

theorem decimalText_unique {cs : List Char} {m n : Int} (hm : DecimalText cs m)
    (hn : DecimalText cs n) : m = n := by
  cases hm with
  | positive => exact (decimalText_positive_iff.1 hn).2.symm
  | negative => exact (decimalText_negative_iff.1 hn).2.symm
  | unsigned hds =>
    cases hn with
    | unsigned => rfl
    | positive h => exact (decimalText_positive_iff.1 (.unsigned hds)).2
    | negative h => exact (decimalText_negative_iff.1 (.unsigned hds)).2

namespace Integer64

/-- The number of digits with or without the sign. -/
def signed (negative : Bool) (a : Nat) : Int := if negative then -a else a

/-- A number that has left the range does not return when it grows. -/
theorem inRange_of_le {negative : Bool} {a b : Nat} (hab : a ≤ b)
    (h : InRange (signed negative b)) : InRange (signed negative a) := by
  have hmin : Int64.minValue.toInt ≤ 0 := by decide
  have hmax : 0 ≤ Int64.maxValue.toInt := by decide
  rw [InRange, signed] at h ⊢
  cases negative with
  | false =>
    rw [if_neg Bool.false_ne_true] at h ⊢
    omega
  | true =>
    rw [if_pos rfl] at h ⊢
    omega

/-- One more digit is read if the number is in the range with it. -/
theorem readDigits_cons_eq_ok_iff {negative : Bool} {a d : Nat} {c : Char} {cs : List Char}
    {n : Int} (hd : digitValue? c = some d) :
    readDigits negative (signed negative a) (c :: cs) = .ok n ↔
      InRange (signed negative (10 * a + d)) ∧
        readDigits negative (signed negative (10 * a + d)) cs = .ok n := by
  have hmin := Int64.toInt_minValue
  have hmax := Int64.toInt_maxValue
  rw [readDigits, hd]
  cases negative with
  | false =>
    have hacc : 10 * signed false a + d = signed false (10 * a + d) := by simp [signed]
    simp only [hacc, Bool.false_eq_true, if_false]
    by_cases hout : Int64.maxValue.toInt < signed false (10 * a + d)
    · rw [if_pos hout]
      exact ⟨fun h => (nomatch h), fun h => absurd h.1.2 (not_le.2 hout)⟩
    · have hlow : 0 ≤ signed false (10 * a + d) := Int.natCast_nonneg _
      simp only [hout, if_false, iff_and_self]
      exact fun _ => ⟨by omega, not_lt.1 hout⟩
  | true =>
    have hacc : 10 * signed true a - d = signed true (10 * a + d) := by simp [signed]; ring
    simp only [hacc, if_true]
    by_cases hout : signed true (10 * a + d) < Int64.minValue.toInt
    · rw [if_pos hout]
      exact ⟨fun h => (nomatch h), fun h => absurd h.1.1 (not_le.2 hout)⟩
    · have hhigh : signed true (10 * a + d) ≤ 0 := Int.neg_nonpos_of_nonneg (Int.natCast_nonneg _)
      simp only [hout, if_false, iff_and_self]
      exact fun _ => ⟨not_lt.1 hout, by omega⟩

/-- Digits are read on to a number if they are digits and the whole number is in the range. -/
theorem readDigits_eq_ok_iff {negative : Bool} {ds : List Char} {a : Nat} {n : Int}
    (ha : InRange (signed negative a)) :
    readDigits negative (signed negative a) ds = .ok n ↔
      (∀ c ∈ ds, c.isDigit = true) ∧ InRange n ∧ signed negative (digitsAfter a ds) = n := by
  induction ds generalizing a with
  | nil =>
    simp only [readDigits, Except.ok.injEq, digitsAfter, List.foldl_nil]
    exact ⟨fun h => ⟨by simp, h ▸ ha, h⟩, fun h => h.2.2⟩
  | cons c cs ih =>
    cases hd : digitValue? c with
    | none =>
      have hc : ¬ c.isDigit = true := fun hc => by
        simpa [hd] using digitValue?_eq_some_iff.2 ⟨hc, rfl⟩
      simp [readDigits, hd, hc]
    | some d =>
      obtain ⟨hc, rfl⟩ := digitValue?_eq_some_iff.1 hd
      rw [readDigits_cons_eq_ok_iff hd, List.forall_mem_cons]
      constructor
      · rintro ⟨hnext, h⟩
        obtain ⟨hcs, hn, hsum⟩ := (ih hnext).1 h
        exact ⟨⟨hc, hcs⟩, hn, hsum⟩
      · rintro ⟨⟨-, hcs⟩, hn, hsum⟩
        have hnext : InRange (signed negative (10 * a + digitNumber c)) :=
          inRange_of_le (le_digitsAfter _ cs) (hsum ▸ hn)
        exact ⟨hnext, (ih hnext).2 ⟨hcs, hn, hsum⟩⟩

theorem inRange_zero (negative : Bool) : InRange (signed negative 0) := by
  cases negative <;> decide

/-- Digits are read as the number that they denote, if it is in the range. -/
theorem readDigits_zero_eq_ok_iff (negative : Bool) {ds : List Char} {n : Int} (hds : ds ≠ []) :
    readDigits negative 0 ds = .ok n ↔
      Digits ds ∧ InRange n ∧ signed negative (digitsNumber ds) = n := by
  have hzero : signed negative 0 = 0 := by cases negative <;> rfl
  rw [← hzero, readDigits_eq_ok_iff (inRange_zero negative), digitsNumber_eq, Digits]
  simp [hds]

/-- A text is read as a number exactly if it is a decimal integer with this number, and in range. -/
theorem readInt_eq_ok_iff {cs : List Char} {n : Int} :
    readInt cs = .ok n ↔ DecimalText cs n ∧ InRange n := by
  have hnil : ¬ Digits [] := fun h => h.1 rfl
  unfold readInt
  split
  · simp [decimalText_unsigned_iff, hnil]
  · simp [decimalText_positive_iff, hnil]
  · simp [decimalText_negative_iff, hnil]
  · next ds hne =>
    rw [readDigits_zero_eq_ok_iff false (by simpa using hne), decimalText_positive_iff]
    simp only [signed, Bool.false_eq_true, if_false]
    tauto
  · next ds hne =>
    rw [readDigits_zero_eq_ok_iff true (by simpa using hne), decimalText_negative_iff]
    simp only [signed, if_true]
    tauto
  · next ds hne _ _ hp hn =>
    rw [readDigits_zero_eq_ok_iff false hne, decimalText_unsigned_iff hp hn]
    simp only [signed, Bool.false_eq_true, if_false]
    tauto

/-- A text is read as a 64-bit integer exactly if it is a decimal integer with this number. -/
theorem read_eq_ok_iff {cs : List Char} {i : Int64} :
    read cs = .ok i ↔ DecimalText cs i.toInt := by
  have hread : read cs = .ok i ↔ ∃ n, readInt cs = .ok n ∧ Int64.ofInt n = i := by
    rw [read]
    cases readInt cs <;> simp [Except.map]
  rw [hread]
  constructor
  · rintro ⟨n, hn, rfl⟩
    obtain ⟨htext, hrange⟩ := readInt_eq_ok_iff.1 hn
    rwa [toInt_ofInt hrange]
  · exact fun h => ⟨_, readInt_eq_ok_iff.2 ⟨h, inRange_toInt i⟩, Int64.ofInt_toInt i⟩

end Integer64

/-! ### Blanks around a text -/

/-- A text is what is left when it is trimmed, between blanks. -/
theorem exists_eq_append_trim (cs : List Char) :
    ∃ before after, cs = before ++ trim cs ++ after ∧
      (∀ c ∈ before, isBlank c = true) ∧ ∀ c ∈ after, isBlank c = true := by
  refine ⟨cs.takeWhile isBlank, ((cs.dropWhile isBlank).reverse.takeWhile isBlank).reverse, ?_,
    List.all_eq_true.1 List.all_takeWhile,
    fun c hc => List.all_eq_true.1 List.all_takeWhile c (List.mem_reverse.1 hc)⟩
  rw [trim, List.append_assoc, ← List.reverse_append, List.takeWhile_append_dropWhile,
    List.reverse_reverse, List.takeWhile_append_dropWhile]

/-- Trimming takes the blanks off and nothing else. -/
theorem trim_append {before core after : List Char} (hbefore : ∀ c ∈ before, isBlank c = true)
    (hcore : ∀ c ∈ core, isBlank c = false) (hne : core ≠ [])
    (hafter : ∀ c ∈ after, isBlank c = true) : trim (before ++ core ++ after) = core := by
  have hstays : ∀ {front rest : List Char}, front ≠ [] → (∀ c ∈ front, isBlank c = false) →
      (front ++ rest).dropWhile isBlank = front ++ rest := by
    intro front rest hfront hblank
    obtain ⟨c, front, rfl⟩ := List.exists_cons_of_ne_nil hfront
    rw [List.cons_append, List.dropWhile_cons_of_neg (by simp [hblank c])]
  rw [trim, List.append_assoc, List.dropWhile_append_of_pos hbefore, hstays hne hcore,
    List.reverse_append, List.dropWhile_append_of_pos (by simpa using hafter),
    ← List.append_nil core.reverse, hstays (by simpa using hne) (by simpa using hcore)]
  simp

theorem isBlank_of_decimalText {cs : List Char} {n : Int} (h : DecimalText cs n) :
    ∀ c ∈ cs, isBlank c = false := by
  have hdigit : ∀ c : Char, c.isDigit = true → isBlank c = false := fun c hc => by
    have hrange : 48 ≤ c.toNat ∧ c.toNat ≤ 57 := by
      simpa [Char.isDigit, UInt32.le_iff_toNat_le] using hc
    rw [← Bool.not_eq_true, isBlank, CharRanges.holds_eq_true_iff]
    simp only [blankRanges, List.mem_cons, List.not_mem_nil, or_false, exists_eq_or_imp,
      exists_eq_left]
    omega
  cases h with
  | unsigned h => exact fun c hc => hdigit c (h.2 c hc)
  | positive h | negative h =>
    exact List.forall_mem_cons.2 ⟨by decide, fun c hc => hdigit c (h.2 c hc)⟩

/-- A trimmed text is a decimal integer exactly if the text is one between blanks. -/
theorem decimalText_trim_iff {cs : List Char} {n : Int} :
    DecimalText (trim cs) n ↔ ∃ before core after, cs = before ++ core ++ after ∧
      (∀ c ∈ before, isBlank c = true) ∧ (∀ c ∈ after, isBlank c = true) ∧ DecimalText core n := by
  constructor
  · intro h
    obtain ⟨before, after, hcs, hbefore, hafter⟩ := exists_eq_append_trim cs
    exact ⟨before, _, after, hcs, hbefore, hafter, h⟩
  · rintro ⟨before, core, after, rfl, hbefore, hafter, h⟩
    have hne : core ≠ [] := by
      rintro rfl
      cases h with
      | unsigned h => exact h.1 rfl
    rwa [trim_append hbefore (isBlank_of_decimalText h) hne hafter]

end EntityGraph
