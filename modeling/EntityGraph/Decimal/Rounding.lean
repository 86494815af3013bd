import EntityGraph.Decimal.Binary64

/-!
Rounding a fraction to the nearest 64-bit floating-point number, a half going to the even neighbour,
and the arithmetic that is exact but for that one rounding.
-/

namespace EntityGraph

/-- The whole number nearest to `num / den`; of two the even one. -/
def roundHalfEven (num den : Nat) : Nat :=
  let q := num / den
  let r := num % den
  if 2 * r < den then q else if den < 2 * r then q + 1 else q + q % 2

namespace Binary64

/-- The number nearest to `num / den` with the given sign; infinite if the fraction is too large. -/
def ofRatio (negative : Bool) (num den : Nat) : Binary64 :=
  let inUnits := num * unitsPerOne / den
  -- the step that leaves 53 binary digits, or one unit
  let shift := inUnits.log2 - 52
  let digits := roundHalfEven (num * unitsPerOne) (den * Nat.pow 2 shift)
  let fields := shift * Nat.pow 2 52 + digits
  if fields < 2047 * Nat.pow 2 52 then ofFields negative fields else infinity negative

/-- The number nearest to an integer. -/
def ofInt (n : Int) : Binary64 := ofRatio (n < 0) n.natAbs 1

/-- The product of two finite numbers, rounded. -/
def mul (x y : Binary64) : Binary64 :=
  ofRatio (x.isNegative != y.isNegative) (x.units * y.units) (unitsPerOne * unitsPerOne)

/-- The quotient of two finite numbers, the second not zero, rounded. -/
def div (x y : Binary64) : Binary64 :=
  ofRatio (x.isNegative != y.isNegative) x.units y.units

end Binary64
end EntityGraph
