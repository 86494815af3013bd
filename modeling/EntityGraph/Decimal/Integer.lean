/-!
Integers of 64 bits. One is read from one sign at most and then ASCII digits only; the text is read
from the left, so the first fault met is the one reported.

Main statements: `ofInt?_eq_some_iff` and `toInt_saturate_eq_iff` — a number is kept if it is in the
range.
-/

namespace EntityGraph

/-- Why a text is no 64-bit integer. -/
inductive IntegerFault
  | empty
  | invalidDigit
  | tooLarge
  | tooSmall
  deriving DecidableEq

/-- The fault in words. -/
def IntegerFault.message : IntegerFault → String
  | .empty => "cannot parse integer from empty string"
  | .invalidDigit => "invalid digit found in string"
  | .tooLarge => "number too large to fit in target type"
  | .tooSmall => "number too small to fit in target type"

/-- The value of an ASCII digit. -/
def digitValue? (c : Char) : Option Nat :=
  if '0' ≤ c ∧ c ≤ '9' then some (c.toNat - '0'.toNat) else none

namespace Integer64

/-- Reads digits on to `acc` for as long as the number stays in range. -/
def readDigits (negative : Bool) : Int → List Char → Except IntegerFault Int
  | acc, [] => .ok acc
  | acc, c :: cs =>
    match digitValue? c with
    | none => .error .invalidDigit
    | some d =>
      if negative then
        let acc := 10 * acc - d
        if acc < Int64.minValue.toInt then .error .tooSmall else readDigits negative acc cs
      else
        let acc := 10 * acc + d
        if Int64.maxValue.toInt < acc then .error .tooLarge else readDigits negative acc cs

/-- The integer that the text denotes. -/
def readInt : List Char → Except IntegerFault Int
  | [] => .error .empty
  | ['+'] | ['-'] => .error .invalidDigit
  | '+' :: ds => readDigits false 0 ds
  | '-' :: ds => readDigits true 0 ds
  | ds => readDigits false 0 ds

/-- The 64-bit integer that the text denotes. -/
def read (cs : List Char) : Except IntegerFault Int64 := (readInt cs).map Int64.ofInt

/-- The 64-bit integer nearest to `n`. -/
def saturate (n : Int) : Int64 :=
  if n < Int64.minValue.toInt then Int64.minValue
  else if Int64.maxValue.toInt < n then Int64.maxValue
  else Int64.ofInt n

/-- The 64-bit integer that is `n`, if there is one. -/
def ofInt? (n : Int) : Option Int64 :=
  if Int64.minValue.toInt ≤ n ∧ n ≤ Int64.maxValue.toInt then some (Int64.ofInt n) else none

/-- The number is a 64-bit integer. -/
def InRange (n : Int) : Prop := Int64.minValue.toInt ≤ n ∧ n ≤ Int64.maxValue.toInt

instance (n : Int) : Decidable (InRange n) := inferInstanceAs (Decidable (_ ∧ _))

theorem inRange_toInt (i : Int64) : InRange i.toInt :=
  ⟨Int64.minValue_le_toInt i, Int64.toInt_le i⟩

theorem toInt_ofInt {n : Int} (h : InRange n) : (Int64.ofInt n).toInt = n := by
  obtain ⟨hlow, hhigh⟩ := h
  rw [Int64.toInt_minValue] at hlow
  rw [Int64.toInt_maxValue] at hhigh
  exact Int64.toInt_ofInt_of_le hlow (by omega)

theorem ofInt?_of_inRange {n : Int} (h : InRange n) : ofInt? n = some (Int64.ofInt n) := if_pos h

theorem ofInt?_eq_some_iff {n : Int} {i : Int64} : ofInt? n = some i ↔ i.toInt = n := by
  constructor
  · intro h
    rw [ofInt?, Option.ite_none_right_eq_some] at h
    obtain ⟨hrange, hi⟩ := h
    rw [← Option.some.inj hi, toInt_ofInt hrange]
  · rintro rfl
    rw [ofInt?_of_inRange (inRange_toInt i), Int64.ofInt_toInt]

theorem saturate_of_inRange {n : Int} (h : InRange n) : saturate n = Int64.ofInt n := by
  rw [saturate, if_neg (Int.not_lt.2 h.1), if_neg (Int.not_lt.2 h.2)]

theorem saturate_toInt (i : Int64) : saturate i.toInt = i := by
  rw [saturate_of_inRange (inRange_toInt i), Int64.ofInt_toInt]

theorem saturate_of_not_inRange {n : Int} (h : ¬ InRange n) :
    saturate n = if n < 0 then Int64.minValue else Int64.maxValue := by
  have hmin := Int64.toInt_minValue
  have hmax := Int64.toInt_maxValue
  rw [InRange, Decidable.not_and_iff_or_not, Int.not_le, Int.not_le] at h
  rw [saturate]
  by_cases hlow : n < Int64.minValue.toInt
  · rw [if_pos hlow, if_pos (by omega)]
  · rw [if_neg hlow, if_pos (by omega), if_neg (by omega)]

theorem toInt_saturate_eq_iff {n : Int} : (saturate n).toInt = n ↔ InRange n := by
  constructor
  · intro h
    rw [← h]
    exact inRange_toInt _
  · intro h
    rw [saturate_of_inRange h, toInt_ofInt h]

end Integer64
end EntityGraph
