import EntityGraph.Decimal.Binary64

/-!
The shortest decimal that reads back as a given number: the fewest digits for which a decimal lies
among the reals that round to the number, and of those decimals the one nearest to it.
-/

namespace EntityGraph

/-- A positive decimal `0.d₁d₂… · 10 ^ point`, its digits read as one whole number. -/
structure ShortDecimal where
  digits : Nat
  point : Int
  deriving DecidableEq

namespace ShortDecimal

/-- How many digits the decimal has. -/
def length (d : ShortDecimal) : Nat := (Nat.toDigits 10 d.digits).length

/-- Drops zeros at the end; `fuel` bounds their number. -/
def stripZeros : Nat → Nat → Nat
  | 0, n => n
  | fuel + 1, n => if n % 10 = 0 ∧ n ≠ 0 then stripZeros fuel (n / 10) else n

end ShortDecimal

namespace Binary64

/-- The exponent `k` with `10 ^ (k - 1) ≤ num / den < 10 ^ k`. -/
def decimalPoint (num den : Nat) : Int :=
  if den ≤ num then (Nat.toDigits 10 (num / den)).length
  else -(((List.range 400).find? fun j => den ≤ num * Nat.pow 10 (j + 1)).getD 0 : Nat)

/-- The reals that round to a finite number, in quarters of a unit; the ends belong to them if
`closed`. -/
structure Interval where
  low : Nat
  high : Nat
  closed : Bool

/-- The numbers below a power of two are half as far apart as those above it. -/
def interval (x : Binary64) : Interval where
  low := 4 * x.units - if x.fraction = 0 ∧ 1 < x.exponent then x.step else 2 * x.step
  high := 4 * x.units + 2 * x.step
  closed := x.significand % 2 = 0

/-- `num / den` quarters of a unit lie in the interval. -/
def Interval.holds (i : Interval) (num den : Nat) : Bool :=
  if i.closed then i.low * den ≤ num && num ≤ i.high * den
  else i.low * den < num && num < i.high * den

/-- The decimal of `n` digits nearest to the number, if it reads back; a tie goes up. -/
def nearestOfLength (x : Binary64) (point : Int) (n : Nat) : Option Nat :=
  -- one grid step is `10 ^ (point - n)`; `num / den` is the number counted in grid steps
  let up := (n - point).toNat
  let down := (point - n).toNat
  let num := x.units * Nat.pow 10 up
  let den := unitsPerOne * Nat.pow 10 down
  let q := num / den
  let fits (d : Nat) := x.interval.holds (4 * d * den) (Nat.pow 10 up)
  let below := fits q
  let above := fits (q + 1)
  if below && (!above || 2 * (num % den) < den) then some q
  else if above then some (q + 1)
  else none

/-- The shortest decimal that reads back as the number, which is finite and not zero. -/
def shortest (x : Binary64) : ShortDecimal :=
  let point := decimalPoint x.units unitsPerOne
  let n := ((List.range 17).find? fun n => (x.nearestOfLength point (n + 1)).isSome).getD 16 + 1
  let d := (x.nearestOfLength point n).getD 0
  let digits := ShortDecimal.stripZeros 20 d
  -- a carry out of the first digit moves the point
  ⟨digits, if Nat.pow 10 n ≤ d then point + 1 else point⟩

end Binary64
end EntityGraph
