import EntityGraph.Text.Lowercase.Tables

/-!
Lowercase text. Each character has its own lowercase form, of two characters for `İ`; a capital
sigma becomes the final form at the end of a word.
-/

namespace EntityGraph

/-- The lowercase letter of code point `n`, if the run holds it. -/
def LetterRun.lower? (r : LetterRun) (n : Nat) : Option Nat :=
  if r.first ≤ n ∧ n ≤ r.last ∧ (n - r.first) % r.step = 0 then some (r.target + (n - r.first))
  else none

/-- The lowercase letter of a character, or the character itself. -/
def lowerChar (c : Char) : Char :=
  match letterRuns.findSome? (·.lower? c.toNat) with
  | some n => Char.ofNat n
  | none => c

/-- The nearest character that is not Case_Ignorable is Cased. -/
def nextIsCased (cs : List Char) : Bool :=
  match cs.dropWhile caseIgnorableRanges.holds with
  | [] => false
  | c :: _ => casedRanges.holds c

/-- The lowercase form of `c`, read between the text `before` it (nearest first) and `after` it. -/
def lowerBetween (before : List Char) (c : Char) (after : List Char) : List Char :=
  if c = 'Σ' then [if nextIsCased before && !nextIsCased after then 'ς' else 'σ']
  else if c = 'İ' then ['i', '\u0307']
  else [lowerChar c]

/-- The lowercase form of a text that follows `before`. -/
def lowerAfter : List Char → List Char → List Char
  | _, [] => []
  | before, c :: cs => lowerBetween before c cs ++ lowerAfter (c :: before) cs

/-- The lowercase form of a text. -/
def lowercase (s : String) : String := String.ofList (lowerAfter [] s.toList)

end EntityGraph
