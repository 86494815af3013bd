import EntityGraph.Decimal.Layout
import EntityGraph.Json.Basic

/-!
JSON text without blanks. Strings keep every character except quotes, backslashes and the control
characters below the space.
-/

namespace EntityGraph.Json

/-- Four hexadecimal digits. -/
def hex4 (n : Nat) : List Char :=
  let ds := Nat.toDigits 16 n
  List.replicate (4 - ds.length) '0' ++ ds

/-- A character as it stands between the quotes. -/
def writeChar (c : Char) : List Char :=
  if c = '"' then ['\\', '"']
  else if c = '\\' then ['\\', '\\']
  else if c = '\x08' then ['\\', 'b']
  else if c = '\x0c' then ['\\', 'f']
  else if c = '\n' then ['\\', 'n']
  else if c = '\r' then ['\\', 'r']
  else if c = '\t' then ['\\', 't']
  else if c < ' ' then '\\' :: 'u' :: hex4 c.toNat
  else [c]

/-- A string in quotes. -/
def writeString (s : String) : String :=
  String.ofList ('"' :: s.toList.flatMap writeChar ++ ['"'])

/-- In JSON text a number is written positionally from `0.00001` up to below `10 ^ 16`. -/
def textNumber : NumberLayout := { messageNumber with leastPoint := -4, notANumber := "null" }

mutual

/-- The text of a value. -/
def write : Json → String
  | .null => "null"
  | .bool b => if b then "true" else "false"
  | .int n => toString n
  | .float x => if x.isFinite then textNumber.write x else "null"
  | .string s => writeString s
  | .array vs => "[" ++ String.intercalate "," (writeItems vs) ++ "]"
  | .object ms => "\x7b" ++ String.intercalate "," (writeMembers ms) ++ "\x7d"

/-- The texts of the items of an array. -/
def writeItems : List Json → List String
  | [] => []
  | v :: vs => write v :: writeItems vs

/-- The texts of the members of an object. -/
def writeMembers : List (String × Json) → List String
  | [] => []
  | (k, v) :: ms => (writeString k ++ ":" ++ write v) :: writeMembers ms

end

end EntityGraph.Json
