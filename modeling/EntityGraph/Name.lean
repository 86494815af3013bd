import EntityGraph.Text.Lowercase

/-!
Names of types and relations. Tables know a type by its lowercase name; a collection is named by the
plural.
-/

namespace EntityGraph

/-- The name under which tables know a type. -/
def normalize (name : String) : String := lowercase name

/-- The plural of a lowercase name: a final `y` becomes `ies`, and any other name gets an `s` unless
it ends in one. -/
def pluralChars (cs : List Char) : List Char :=
  match cs.getLast? with
  | some 'y' => cs.dropLast ++ ['i', 'e', 's']
  | some 's' => cs
  | _ => cs ++ ['s']

/-- The plural of a name, lowercase. -/
def pluralize (name : String) : String := String.ofList (pluralChars (normalize name).toList)

/-- The name of one or of many. -/
def nameOf (name : String) (plural : Bool) : String :=
  if plural then pluralize name else normalize name

end EntityGraph
