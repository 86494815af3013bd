import EntityGraph.Decimal.Binary64

/-!
JSON values: integers and floating-point numbers are told apart, and the members of an object stand
as they were written, repeated names included.
-/

namespace EntityGraph

/-- A JSON value. -/
inductive Json
  | null
  | bool (b : Bool)
  | int (n : Int)
  | float (x : Binary64)
  | string (s : String)
  | array (items : List Json)
  | object (members : List (String × Json))
  deriving Inhabited

namespace Json

/-- The members of an object. -/
def members? : Json → Option (List (String × Json))
  | .object ms => some ms
  | _ => none

/-- The text of a string. -/
def string? : Json → Option String
  | .string s => some s
  | _ => none

/-- Truth values. -/
def bool? : Json → Option Bool
  | .bool b => some b
  | _ => none

/-- An integer from 0 up to below `2 ^ 64`. -/
def word? : Json → Option Nat
  | .int n => if 0 ≤ n ∧ n < Int.pow 2 64 then some n.toNat else none
  | _ => none

/-- The name of a case without data: a string, or an object whose only member is null. -/
def caseName? : Json → Option String
  | .string s => some s
  | .object [(s, .null)] => some s
  | _ => none

end Json
end EntityGraph
