import EntityGraph.Json.Reader
import EntityGraph.Json.Writer
import EntityGraph.Text.Outline

/-!
Who acts: a user name, if there is one, and how far the access reaches.
-/

namespace EntityGraph

/-- How far a caller's access reaches. -/
inductive AccessScope
  | superUser
  | authenticated
  | anyone
  deriving DecidableEq, Inhabited

namespace AccessScope

/-- The name of the scope. -/
def name : AccessScope → String
  | superUser => "SuperUser"
  | authenticated => "Authenticated"
  | anyone => "Public"

/-- The scope of that name. -/
def ofName? (s : String) : Option AccessScope :=
  [superUser, authenticated, anyone].find? (·.name = s)

/-- Reads a scope as its name. -/
def ofJson? (j : Json) : Option AccessScope := j.caseName?.bind ofName?

/-- The scope as its name. -/
def toJson (s : AccessScope) : Json := .string s.name

end AccessScope

/-- Identity and access of the caller. -/
structure Caller where
  user : Option String
  scope : AccessScope
  deriving DecidableEq, Inhabited

namespace Caller

/-- Unrestricted access. -/
def superUser : Caller := ⟨none, .superUser⟩

/-- An authenticated user. -/
def ofUser (user : String) : Caller := ⟨some user, .authenticated⟩

/-- Anonymous access. -/
def anonymous : Caller := ⟨none, .anyone⟩

/-- The access is unrestricted. -/
def isSuperUser (c : Caller) : Bool := c.scope = .superUser

instance : ToString Caller where
  toString c :=
    if c.isSuperUser then "superuser"
    else match c.user with
      | some user => "user:" ++ user
      | none => "anonymous"

/-- The caller as messages show it. -/
def outline (c : Caller) : String :=
  Outline.record "SecurityContext"
    [("user", Outline.option (c.user.map quoted)), ("scope", c.scope.name)]

/-- The record of user and scope. -/
def toJson (c : Caller) : Json :=
  .object [("user", (c.user.map Json.string).getD .null), ("scope", c.scope.toJson)]

/-- Reads the record of user and scope; a missing user is none, and foreign members are skipped. -/
def ofDraft? (d : Json.Draft) : Option Caller := do
  match ← d.parts? ["user", "scope"] false with
  | [user, some scope] => do
    let scope ← AccessScope.ofJson? scope
    match user with
    | none | some .null => return ⟨none, scope⟩
    | some (.string u) => return ⟨some u, scope⟩
    | _ => none
  | _ => none

end Caller
end EntityGraph
