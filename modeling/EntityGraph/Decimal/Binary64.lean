/-!
Binary floating-point numbers of 64 bits, as their bit patterns. A finite number is a sign and a
whole number of units, one unit being the least positive number, `2 ^ (-1074)`.
-/

namespace EntityGraph

/-- A 64-bit floating-point number: sign, 11 bits of exponent, 52 bits of fraction. -/
structure Binary64 where
  bits : UInt64
  deriving DecidableEq, Inhabited

namespace Binary64

/-- The exponent field. -/
def exponent (x : Binary64) : Nat := x.bits.toNat / Nat.pow 2 52 % Nat.pow 2 11

/-- The fraction field. -/
def fraction (x : Binary64) : Nat := x.bits.toNat % Nat.pow 2 52

/-- The sign bit is set. -/
def isNegative (x : Binary64) : Bool := Nat.pow 2 63 ≤ x.bits.toNat

/-- Neither infinite nor a NaN. -/
def isFinite (x : Binary64) : Bool := x.exponent != 2047

/-- Not a number. -/
def isNaN (x : Binary64) : Bool := x.exponent == 2047 && x.fraction != 0

/-- The digits before the binary point is moved: fraction and leading bit. -/
def significand (x : Binary64) : Nat :=
  if x.exponent = 0 then x.fraction else Nat.pow 2 52 + x.fraction

/-- Units between a finite number and its neighbours. -/
def step (x : Binary64) : Nat := Nat.pow 2 (x.exponent - 1)

/-- Distance from zero of a finite number, in units of `2 ^ (-1074)`. -/
def units (x : Binary64) : Nat := x.significand * x.step

/-- How many units make one. -/
def unitsPerOne : Nat := Nat.pow 2 1074

/-- One of the two zeros. -/
def isZero (x : Binary64) : Bool := x.exponent == 0 && x.fraction == 0

/-- Equality of numbers: a NaN equals nothing, and the two zeros are equal. -/
def equals (x y : Binary64) : Bool :=
  !x.isNaN && !y.isNaN && (decide (x = y) || (x.isZero && y.isZero))

/-- The number with the given sign and fields. -/
def ofFields (negative : Bool) (fields : Nat) : Binary64 :=
  ⟨.ofNat ((if negative then Nat.pow 2 63 else 0) + fields)⟩

/-- Positive or negative zero. -/
def zero (negative : Bool) : Binary64 := ofFields negative 0

/-- Positive or negative infinity. -/
def infinity (negative : Bool) : Binary64 := ofFields negative (2047 * Nat.pow 2 52)

/-- The same distance from zero on the other side. -/
def negate (x : Binary64) : Binary64 := ⟨x.bits ^^^ 0x8000000000000000⟩

/-- The integer that a finite number is, if it has no fractional part. -/
def toInt? (x : Binary64) : Option Int :=
  if x.isFinite && x.units % unitsPerOne == 0 then
    let n := x.units / unitsPerOne
    some (if x.isNegative then -n else n)
  else none

end Binary64
end EntityGraph
