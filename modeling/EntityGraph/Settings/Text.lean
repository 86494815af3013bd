import EntityGraph.Settings.Basic

/-!
The text form of the settings: lines that are blank, hold a comment, or give one setting as
`name = true` or `name = false`. A name stands bare or in quotes, and is given at most once.
-/

namespace EntityGraph.Settings

/-- Space and tab. -/
def skipGap (cs : List Char) : List Char := cs.dropWhile fun c => c = ' ' || c = '\t'

/-- Characters of a bare name. -/
def isBareName (c : Char) : Bool := c.isAlphanum || c = '_' || c = '-'

/-- Characters of a comment: no control characters but the tab. -/
def isComment (c : Char) : Bool := c = '\t' || (' ' ≤ c && c ≠ '\x7f')

/-- The character of a code point in hexadecimal. -/
def escapedChar? (digits : List Char) : Option Char := do
  let n ← Json.hexNumber? digits
  if n.isValidChar then some (Char.ofNat n) else none

/-- A name in double quotes up to the closing one. No name has a character that needs one of the
short escapes, so only escapes by code point are read. -/
def takeQuoted? : List Char → Option (List Char × List Char)
  | '"' :: cs => some ([], cs)
  | '\\' :: 'u' :: a :: b :: c :: d :: cs => do
    let e ← escapedChar? [a, b, c, d]
    let (name, cs) ← takeQuoted? cs
    return (e :: name, cs)
  | '\\' :: 'U' :: a :: b :: c :: d :: e :: f :: g :: h :: cs => do
    let e ← escapedChar? [a, b, c, d, e, f, g, h]
    let (name, cs) ← takeQuoted? cs
    return (e :: name, cs)
  | c :: cs =>
    if c = '\\' then none
    else do
      let (name, cs) ← takeQuoted? cs
      return (c :: name, cs)
  | [] => none

/-- A name at the start of a line, and what follows it. -/
def takeName? : List Char → Option (List Char × List Char)
  | '"' :: cs => takeQuoted? cs
  | '\x27' :: cs =>
    match cs.dropWhile (· ≠ '\x27') with
    | [] => none
    | _ :: rest => some (cs.takeWhile (· ≠ '\x27'), rest)
  | cs => some (cs.takeWhile isBareName, cs.dropWhile isBareName)

/-- Nothing, or a comment. -/
def isLineEnd (cs : List Char) : Bool :=
  match skipGap cs with
  | [] => true
  | '#' :: cs => cs.all isComment
  | _ => false

/-- The settings that a line gives: one or none. -/
def readLine? (line : List Char) : Option (List (String × Bool)) :=
  if isLineEnd line then some []
  else do
    let (name, cs) ← takeName? (skipGap line)
    let '=' :: cs := skipGap cs | none
    let (value, cs) ← match skipGap cs with
      | 't' :: 'r' :: 'u' :: 'e' :: cs => some (true, cs)
      | 'f' :: 'a' :: 'l' :: 's' :: 'e' :: cs => some (false, cs)
      | _ => none
    let name := String.ofList name
    if isLineEnd cs && names.contains name then some [(name, value)] else none

/-- Splits a text at its line feeds, which a carriage return may precede. -/
def linesOf : List Char → List (List Char)
  | [] => [[]]
  | '\r' :: '\n' :: cs => [] :: linesOf cs
  | '\n' :: cs => [] :: linesOf cs
  | c :: cs =>
    match linesOf cs with
    | [] => [[c]]
    | l :: ls => (c :: l) :: ls

/-- The settings that a text gives. -/
def ofText? (text : String) : Option Settings := do
  let cs := match text.toList with
    | '\ufeff' :: cs => cs
    | cs => cs
  let given := (← (linesOf cs).mapM readLine?).flatten
  if (given.map (·.1)).Nodup then some (ofAssignments given) else none

/-- The settings as text. -/
def toText (s : Settings) : String :=
  String.join ((names.zip s.values).map fun (name, b) => name ++ " = " ++ word b ++ "\n")

/-- The text of the default settings, with comments. -/
def defaultText : String :=
  "# stratagraph change interceptor configuration\n" ++
  "#\n" ++
  "# Veto the commit when a created or modified node cannot be turned into a\n" ++
  "# typed entity (default: true). When false the node is logged and skipped.\n" ++
  "strict_rehydration = true\n" ++
  "\n" ++
  "# Log every dispatched domain event at trace level (default: false)\n" ++
  "trace_events = false\n" ++
  "\n" ++
  "# Deliver the rollback event to listeners after a rollback (default: true)\n" ++
  "dispatch_rollback = true\n"

end EntityGraph.Settings
