import EntityGraph.Decimal.Shortest

/-!
How a number is written: its shortest decimal, set out positionally or with a power of ten as the
layout record says.
-/

namespace EntityGraph

/-- The choices of a number's written form. -/
structure NumberLayout where
  /-- Positional from this point on … -/
  leastPoint : Int
  /-- … up to this one. -/
  greatestPoint : Int
  /-- What ends a whole number written positionally. -/
  wholeEnd : String
  exponentMark : String
  notANumber : String
  infinite : String

namespace NumberLayout

/-- Digits with the decimal point after the first `point` of them. -/
def positional (l : NumberLayout) (digits : String) (point : Int) : String :=
  let n := digits.length
  if point ≤ 0 then "0." ++ String.ofList (List.replicate (-point).toNat '0') ++ digits
  else if (n : Int) ≤ point then
    digits ++ String.ofList (List.replicate (point - n).toNat '0') ++ l.wholeEnd
  else
    let (whole, rest) := digits.toList.splitAt point.toNat
    String.ofList whole ++ "." ++ String.ofList rest

/-- Digits with a point after the first one and a power of ten. -/
def scientific (l : NumberLayout) (digits : String) (point : Int) : String :=
  let (first, rest) := digits.toList.splitAt 1
  String.ofList first ++ (if rest.isEmpty then "" else "." ++ String.ofList rest) ++
    l.exponentMark ++ toString (point - 1)

/-- The written form of a number. -/
def write (l : NumberLayout) (x : Binary64) : String :=
  if x.isNaN then l.notANumber
  else
    let sign := if x.isNegative then "-" else ""
    if !x.isFinite then sign ++ l.infinite
    else if x.isZero then sign ++ "0" ++ l.wholeEnd
    else
      let d := x.shortest
      let digits := toString d.digits
      let point := Binary64.decimalPoint x.units Binary64.unitsPerOne
      sign ++ if l.leastPoint ≤ point && point ≤ l.greatestPoint then l.positional digits d.point
        else l.scientific digits d.point

end NumberLayout

/-- In messages a number is written positionally from `0.0001` up to below `10 ^ 16`, and a whole
number ends in `.0`. -/
def messageNumber : NumberLayout where
  leastPoint := -3
  greatestPoint := 16
  wholeEnd := ".0"
  exponentMark := "e"
  notANumber := "NaN"
  infinite := "inf"

end EntityGraph
