import EntityGraph.Decimal.Rounding
import EntityGraph.Json.Basic

/-!
The number that a JSON literal denotes. Whole numbers of 64 bits are exact. Any other literal is
read in two roundings: its first digits that fit 64 bits become a floating-point number, which is
then multiplied or divided by a power of ten.
-/

namespace EntityGraph.Json

/-- A number as it is written, by its decimal digits. -/
structure NumberText where
  negative : Bool
  whole : List Nat
  fraction : Option (List Nat)
  /-- Sign and digits of the power of ten. -/
  exponent : Option (Bool × List Nat)
  deriving DecidableEq

/-- The whole number that decimal digits denote. -/
def ofDigits (ds : List Nat) : Nat := ds.foldl (fun n d => 10 * n + d) 0

/-- The largest 64-bit word. -/
def greatestWord : Nat := Nat.pow 2 64 - 1

/-- Appends digits to `n` while the result fits 64 bits; also how many digits did not. -/
def appendDigits : Nat → List Nat → Nat × Nat
  | n, [] => (n, 0)
  | n, d :: ds =>
    if 10 * n + d ≤ greatestWord then appendDigits (10 * n + d) ds else (n, ds.length + 1)

/-- The power of ten as a floating-point number. -/
def powerOfTen (k : Nat) : Binary64 := Binary64.ofInt (Int.pow 10 k)

/-- `x · 10 ^ e`, in steps that floating-point powers of ten can take; nothing if too large. -/
def scale : Nat → Binary64 → Int → Option Binary64
  | 0, _, _ => none
  | fuel + 1, x, e =>
    if e.natAbs ≤ 308 then
      if 0 ≤ e then
        let y := x.mul (powerOfTen e.natAbs)
        if y.isFinite then some y else none
      else some (x.div (powerOfTen e.natAbs))
    else if x.isZero then some x
    else if 0 ≤ e then none
    else scale fuel (x.div (powerOfTen 308)) (e + 308)

namespace NumberText

/-- The literal read as a floating-point number; nothing if it is too large. -/
def toFloat? (t : NumberText) : Option Binary64 :=
  let (n, extra) := appendDigits 0 t.whole
  let fraction := t.fraction.getD []
  let (n, unread) := appendDigits n fraction
  let shift : Int := extra - (fraction.length - unread : Nat)
  let magnitude :=
    match t.exponent with
    | none => scale 4 (Binary64.ofInt n) shift
    | some (negative, ds) =>
      let e := ofDigits ds
      if e < Nat.pow 2 31 then scale 4 (Binary64.ofInt n) (if negative then shift - e else shift + e)
      else if n = 0 ∨ negative then some (Binary64.zero false)
      else none
  magnitude.map fun x => if t.negative then x.negate else x

/-- The value of the literal. -/
def value? (t : NumberText) : Option Json :=
  let n := ofDigits t.whole
  if t.fraction.isNone && t.exponent.isNone && n ≤ greatestWord then
    if !t.negative then some (.int n)
    else if n ≠ 0 ∧ n ≤ Nat.pow 2 63 then some (.int (-n))
    else some (.float (Binary64.ofInt n).negate)
  else t.toFloat?.map .float

end NumberText
end EntityGraph.Json
