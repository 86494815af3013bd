/-!
Sets of characters as lists of code point ranges.

Main statement: `holds_eq_true_iff`, membership as the bounds of some range.
-/

namespace EntityGraph

/-- First and last code points of the ranges of a set of characters. -/
abbrev CharRanges := List (Nat × Nat)

/-- The character lies in one of the ranges. -/
def CharRanges.holds (ranges : CharRanges) (c : Char) : Bool :=
  ranges.any fun r => r.1 ≤ c.toNat && c.toNat ≤ r.2

theorem CharRanges.holds_eq_true_iff (ranges : CharRanges) (c : Char) :
    ranges.holds c = true ↔ ∃ r ∈ ranges, r.1 ≤ c.toNat ∧ c.toNat ≤ r.2 := by
  simp [CharRanges.holds]

end EntityGraph
