import EntityGraph.Text.Quoted

/-!
How structured data is shown in messages: named fields in braces, unnamed ones in parentheses, lists
in brackets, and optional parts as `Some` or `None`.
-/

namespace EntityGraph.Outline

/-- The parts with a comma between them. -/
def commas (parts : List String) : String := String.intercalate ", " parts

/-- A name with named fields. -/
def record (name : String) (fields : List (String × String)) : String :=
  name ++ " \x7b " ++ commas (fields.map fun f => f.1 ++ ": " ++ f.2) ++ " \x7d"

/-- A name with unnamed parts. -/
def tuple (name : String) (parts : List String) : String := name ++ "(" ++ commas parts ++ ")"

/-- Parts in order. -/
def list (parts : List String) : String := "[" ++ commas parts ++ "]"

/-- Rows of a table. -/
def table (rows : List (String × String)) : String :=
  "\x7b" ++ commas (rows.map fun r => r.1 ++ ": " ++ r.2) ++ "\x7d"

/-- A part that may be missing. -/
def option : Option String → String
  | none => "None"
  | some s => tuple "Some" [s]

end EntityGraph.Outline
