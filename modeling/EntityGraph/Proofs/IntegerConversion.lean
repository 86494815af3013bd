import EntityGraph.Proofs.IntegerTexts
import EntityGraph.Schema.Converter
import Mathlib.Algebra.Order.Field.Rat
import Mathlib.Tactic.FieldSimp
import Mathlib.Tactic.NormNum

/-!
Conversion to integers. An integer denotes itself, a finite floating-point number the number that
its fields stand for, and a text the decimal integer that stands in it between blanks. What a value
denotes is what it is converted to, with one exception: a floating-point number that is an integer
of more than 64 bits becomes the nearest one of 64 bits.

Main statements: `Binary64.toInt?_eq_some_iff` — which integer a floating-point number is;
`Converter.toInteger_eq_ok_iff` — what a value is converted to; `Converter.integer_exact_iff` — the
conversion is exact but for floating-point numbers out of range.
-/

namespace EntityGraph

/-! ### Floating-point numbers -/

namespace Binary64

/-- The number that the fields of a finite floating-point number stand for: the exponent is biased
by 1023, and the leading bit is one unless the exponent field is zero. -/
def toRat (x : Binary64) : ℚ :=
  (if x.isNegative then -1 else 1) *
    if x.exponent = 0 then (x.fraction / 2 ^ 52) * (2 : ℚ) ^ (-1022 : ℤ)
    else (1 + x.fraction / 2 ^ 52) * (2 : ℚ) ^ ((x.exponent : ℤ) - 1023)

theorem unitsPerOne_eq : unitsPerOne = 2 ^ (52 + 1022) := by decide +kernel

theorem unitsPerOne_pos : 0 < unitsPerOne := by
  rw [unitsPerOne_eq]
  positivity

/-- Whole digits, with the point moved before the last `w` of them and by the biased exponent. -/
theorem scaled_eq (m : ℚ) (w e bias : ℕ) :
    m / 2 ^ w * (2 : ℚ) ^ ((e : ℤ) - bias) = m * 2 ^ e / 2 ^ (w + bias) := by
  rw [zpow_sub₀ two_ne_zero, zpow_natCast, zpow_natCast, pow_add]
  field_simp

/-- The number is counted in units. -/
theorem toRat_eq (x : Binary64) :
    x.toRat = (if x.isNegative then -1 else 1) * (x.units / unitsPerOne) := by
  rw [toRat, units, significand, step, unitsPerOne_eq]
  simp only [Nat.pow_eq, Nat.cast_mul, Nat.cast_pow, Nat.cast_ofNat, -Nat.reducePow]
  congr 1
  cases x.exponent with
  | zero =>
    have h := scaled_eq x.fraction 52 0 1022
    rw [Nat.cast_zero, zero_sub, Nat.cast_ofNat] at h
    simpa only [if_true, Nat.zero_sub] using h
  | succ k =>
    have h := scaled_eq (2 ^ 52 + x.fraction) 52 k 1022
    have hdigits : (1 : ℚ) + x.fraction / 2 ^ 52 = (2 ^ 52 + x.fraction) / 2 ^ 52 := by
      rw [add_div, div_self (by norm_num)]
    have hexponent : ((k + 1 : ℕ) : ℤ) - 1023 = k - (1022 : ℕ) := by omega
    rw [if_neg (Nat.succ_ne_zero k), if_neg (Nat.succ_ne_zero k), hdigits, hexponent, h]
    rw [Nat.add_sub_cancel]
    norm_cast

/-- A number of units is a whole number exactly if the units can be divided. -/
theorem div_eq_iff_mod_eq_zero {a u : ℕ} (hu : 0 < u) (n : ℤ) :
    (a : ℚ) / u = n ↔ a % u = 0 ∧ ((a / u : ℕ) : ℤ) = n := by
  have hproduct : (a : ℚ) / u = n ↔ (a : ℤ) = n * u := by
    rw [div_eq_iff (by positivity)]
    norm_cast
  rw [hproduct]
  constructor
  · intro h
    have hdvd : u ∣ a := Int.natCast_dvd_natCast.1 ⟨n, h.trans (mul_comm _ _)⟩
    have hquotient : (a : ℤ) / u = n := by rw [h, Int.mul_ediv_cancel _ (by omega)]
    exact ⟨Nat.mod_eq_zero_of_dvd hdvd, (Int.natCast_ediv a u).trans hquotient⟩
  · rintro ⟨hmod, rfl⟩
    exact_mod_cast (Nat.div_mul_cancel (Nat.dvd_of_mod_eq_zero hmod)).symm

/-- The sign can be taken to the other side. -/
theorem signed_eq_iff {negative : Bool} {q : ℚ} {n : ℤ} :
    (if negative then -1 else 1) * q = n ↔ q = (if negative then -n else n : ℤ) := by
  cases negative
  · simp
  · simpa using neg_eq_iff_eq_neg

/-- A floating-point number is an integer exactly if it is finite and the number of its fields is.
-/
theorem toInt?_eq_some_iff {x : Binary64} {n : Int} :
    x.toInt? = some n ↔ x.isFinite = true ∧ x.toRat = n := by
  rw [toRat_eq, signed_eq_iff, div_eq_iff_mod_eq_zero unitsPerOne_pos, toInt?]
  -- The units are named, as `simp` would compute how many make one.
  generalize x.units % unitsPerOne = rest, x.units / unitsPerOne = whole
  cases x.isNegative <;> simp [neg_eq_iff_eq_neg, and_assoc]

end Binary64

/-! ### What a value denotes -/

/-- The numbers that a value denotes as an integer, at most one for each value. -/
inductive Value.Denotes : Value → Int → Prop
  | int (i : Int64) : Denotes (.int i) i.toInt
  | float {x : Binary64} {n : Int} (hfinite : x.isFinite = true) (hnumber : x.toRat = n) :
    Denotes (.float x) n
  | string {s : String} {before core after : List Char} {n : Int}
    (hs : s.toList = before ++ core ++ after) (hbefore : ∀ c ∈ before, isBlank c = true)
    (hafter : ∀ c ∈ after, isBlank c = true) (hcore : DecimalText core n) : Denotes (.string s) n

namespace Value

theorem denotes_int_iff {i : Int64} {n : Int} : (Value.int i).Denotes n ↔ n = i.toInt :=
  ⟨fun h => by cases h; rfl, fun h => h ▸ .int i⟩

theorem denotes_float_iff {x : Binary64} {n : Int} :
    (Value.float x).Denotes n ↔ x.toInt? = some n := by
  rw [Binary64.toInt?_eq_some_iff]
  exact ⟨fun | .float hfinite hnumber => ⟨hfinite, hnumber⟩, fun h => .float h.1 h.2⟩

theorem denotes_string_iff {s : String} {n : Int} :
    (Value.string s).Denotes n ↔ DecimalText (trim s.toList) n := by
  rw [decimalText_trim_iff]
  exact ⟨fun | .string hs hbefore hafter hcore => ⟨_, _, _, hs, hbefore, hafter, hcore⟩,
    fun ⟨_, _, _, hs, hbefore, hafter, hcore⟩ => .string hs hbefore hafter hcore⟩

theorem denotes_unique {v : Value} {m n : Int} (hm : v.Denotes m) (hn : v.Denotes n) : m = n := by
  cases v with
  | int i => rw [denotes_int_iff] at hm hn; rw [hm, hn]
  | float x => rw [denotes_float_iff] at hm hn; exact Option.some.inj (hm.symm.trans hn)
  | string s => rw [denotes_string_iff] at hm hn; exact decimalText_unique hm hn
  | null | bool | array | object => cases hm

end Value

/-! ### The conversion -/

namespace Converter
open Integer64

/-- What is converted denotes a number, which is in the range unless it is a floating-point number.
-/
theorem toInteger_eq_ok_iff {default : Option Int64} {v w : Value} (hv : v ≠ .null) :
    toInteger default v = .ok w ↔
      ∃ n, v.Denotes n ∧ (v.float? = none → InRange n) ∧ w = .int (saturate n) := by
  cases v with
  | null => exact absurd rfl hv
  | int i =>
    simp [toInteger, Value.denotes_int_iff, saturate_toInt, inRange_toInt, eq_comm]
  | float x =>
    rw [toInteger]
    cases hx : x.toInt? with
    | none => simp [Value.denotes_float_iff, hx, refuse]
    | some n => simp [Value.denotes_float_iff, hx, Value.float?, eq_comm]
  | string s =>
    rw [toInteger]
    cases hs : read (trim s.toList) with
    | error e =>
      refine ⟨fun h => (nomatch h), ?_⟩
      rintro ⟨n, hn, hrange, -⟩
      rw [Value.denotes_string_iff, ← toInt_ofInt (hrange rfl), ← read_eq_ok_iff, hs] at hn
      exact nomatch hn
    | ok i =>
      have hi := Value.denotes_string_iff.2 (read_eq_ok_iff.1 hs)
      constructor
      · intro h
        obtain rfl := Except.ok.inj h
        exact ⟨_, hi, fun _ => inRange_toInt i, by rw [saturate_toInt]⟩
      · rintro ⟨n, hn, -, rfl⟩
        obtain rfl := Value.denotes_unique hi hn
        simp only [saturate_toInt]
  | bool | array | object =>
    refine ⟨fun h => (nomatch h), ?_⟩
    rintro ⟨n, hn, -⟩
    cases hn

theorem integer_eq_ok_iff {parameter : Option Value} {r : Resolver} {v w : Value} (hv : v ≠ .null) :
    (integer parameter).convert r v = .ok w ↔
      ∃ n, v.Denotes n ∧ (v.float? = none → InRange n) ∧ w = .int (saturate n) :=
  toInteger_eq_ok_iff hv

/-- What is not converted is reported as such. -/
theorem toInteger_eq_error {default : Option Int64} {v : Value} {e : Failure}
    (h : toInteger default v = .error e) : ∃ text, e = .conversion text := by
  cases v with
  | null | int => cases h
  | float x =>
    rw [toInteger] at h
    split at h
    · cases h
    · exact ⟨_, (Except.error.inj h).symm⟩
  | string s =>
    rw [toInteger] at h
    split at h
    · cases h
    · exact ⟨_, (Except.error.inj h).symm⟩
  | bool | array | object => exact ⟨_, (Except.error.inj h).symm⟩

/-- A value is read exactly: what it is converted to is the one number that it denotes, and it is
refused if it denotes no 64-bit integer. -/
structure ReadsExactly (c : Converter) (r : Resolver) (v : Value) : Prop where
  denoted : ∀ i, c.convert r v = .ok (.int i) → ∀ n, v.Denotes n ↔ n = i.toInt
  refused : (∀ n, v.Denotes n → ¬ InRange n) → ∃ text, c.convert r v = .error (.conversion text)

/-- Every value but null is read exactly, by any parameter, unless it is a floating-point number
that is an integer of more than 64 bits; this becomes the nearest integer of 64 bits. -/
theorem integer_exact_iff (parameter : Option Value) (r : Resolver) {v : Value} (hv : v ≠ .null) :
    ((integer parameter).ReadsExactly r v ↔ ∀ x n, v = .float x → v.Denotes n → InRange n) ∧
      (∀ n, v.Denotes n → InRange n →
        (integer parameter).convert r v = .ok (.int (Int64.ofInt n))) ∧
      ∀ x n, v = .float x → v.Denotes n → ¬ InRange n →
        (integer parameter).convert r v =
          .ok (.int (if n < 0 then Int64.minValue else Int64.maxValue)) := by
  have hsaturated : ∀ x n, v = .float x → v.Denotes n → ¬ InRange n →
      (integer parameter).convert r v = .ok (.int (saturate n)) := by
    rintro x n rfl hn -
    exact (integer_eq_ok_iff hv).2 ⟨n, hn, fun h => (nomatch h), rfl⟩
  refine ⟨⟨fun h x n hx hn => ?_, fun h => ?_⟩, fun n hn hrange => ?_, fun x n hx hn hout => ?_⟩
  · by_contra hout
    have hsame := (h.denoted _ (hsaturated x n hx hn hout) n).1 hn
    exact hout (toInt_saturate_eq_iff.1 hsame.symm)
  · have hrange : ∀ n, v.Denotes n → (v.float? = none → InRange n) → InRange n := by
      intro n hn hother
      cases v with
      | float x => exact h x n rfl hn
      | null | bool | int | string | array | object => exact hother rfl
    refine ⟨fun i hi n => ?_, fun hnone => ?_⟩
    · obtain ⟨m, hm, hother, hmi⟩ := (integer_eq_ok_iff hv).1 hi
      have hi : i.toInt = m := by
        rw [Value.int.inj hmi, toInt_saturate_eq_iff]
        exact hrange m hm hother
      rw [hi]
      exact ⟨fun hn => Value.denotes_unique hn hm, fun hn => hn ▸ hm⟩
    · cases hconverted : (integer parameter).convert r v with
      | ok w =>
        obtain ⟨m, hm, hother, -⟩ := (integer_eq_ok_iff hv).1 hconverted
        exact absurd (hrange m hm hother) (hnone m hm)
      | error e =>
        obtain ⟨text, rfl⟩ := toInteger_eq_error hconverted
        exact ⟨text, rfl⟩
  · rw [← saturate_of_inRange hrange]
    exact (integer_eq_ok_iff hv).2 ⟨n, hn, fun _ => hrange, rfl⟩
  · rw [← saturate_of_not_inRange hout]
    exact hsaturated x n hx hn hout

/-- Blanks and the sign of a text do not count, and the parameter does not either. -/
theorem integer_exact_iff_text : Value.string " +42\n" ≠ .null ∧
    (integer (some (.int 7))).ReadsExactly (.ofNodes [] none) (.string " +42\n") ∧
    (integer (some (.int 7))).convert (.ofNodes [] none) (.string " +42\n") = .ok (.int 42) := by
  have hnull : Value.string " +42\n" ≠ .null := fun h => nomatch h
  have htext : " +42\n".toList = [' '] ++ ['+', '4', '2'] ++ ['\n'] := rfl
  have hdenotes : (Value.string " +42\n").Denotes 42 :=
    .string htext (List.all_eq_true.1 (by decide)) (List.all_eq_true.1 (by decide))
      (.positive ⟨by simp, List.all_eq_true.1 (by decide)⟩)
  obtain ⟨hexact, haccepted, -⟩ := integer_exact_iff (some (.int 7)) (.ofNodes [] none) hnull
  exact ⟨hnull, hexact.2 fun x n hx => (nomatch hx), haccepted 42 hdenotes (by decide)⟩

/-- The float `2 ^ 63` is converted to the integer below it. -/
theorem integer_saturated :
    (Value.float ⟨0x43E0000000000000⟩).Denotes (2 ^ 63) ∧ ¬ InRange (2 ^ 63) ∧
      (integer none).convert (.ofNodes [] none) (.float ⟨0x43E0000000000000⟩) =
        .ok (.int Int64.maxValue) ∧
      ¬ (integer none).ReadsExactly (.ofNodes [] none) (.float ⟨0x43E0000000000000⟩) := by
  have hdenotes : (Value.float ⟨0x43E0000000000000⟩).Denotes (2 ^ 63) :=
    Value.denotes_float_iff.2 (by decide +kernel)
  have hnull : Value.float ⟨0x43E0000000000000⟩ ≠ .null := fun h => nomatch h
  have hconverted : (integer none).convert (.ofNodes [] none) (.float ⟨0x43E0000000000000⟩) =
      .ok (.int Int64.maxValue) :=
    (integer_eq_ok_iff hnull).2
      ⟨2 ^ 63, hdenotes, fun h => (nomatch h), congrArg Value.int (by decide)⟩
  refine ⟨hdenotes, by decide, hconverted, fun h => ?_⟩
  have hsame := (h.denoted _ hconverted (2 ^ 63)).1 hdenotes
  exact absurd hsame (by decide)

end Converter
end EntityGraph
