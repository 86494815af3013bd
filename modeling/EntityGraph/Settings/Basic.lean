import EntityGraph.Json.Reader
import EntityGraph.Json.Writer
import EntityGraph.Text.Outline

/-!
Settings of the commit hook.
-/

namespace EntityGraph

/-- Settings of the commit hook. -/
structure Settings where
  /-- Refuse a commit that touches an object without a type, instead of leaving it out. -/
  strictRehydration : Bool := true
  /-- Log each event. -/
  traceEvents : Bool := false
  /-- Tell listeners of a rollback. -/
  dispatchRollback : Bool := true
  deriving DecidableEq, Inhabited

namespace Settings

/-- The names of the settings, in order. -/
def names : List String := ["strict_rehydration", "trace_events", "dispatch_rollback"]

/-- The values of the settings, in order. -/
def values (s : Settings) : List Bool := [s.strictRehydration, s.traceEvents, s.dispatchRollback]

/-- The settings with some values given, by name. -/
def ofAssignments (given : List (String × Bool)) : Settings where
  strictRehydration := (given.lookup "strict_rehydration").getD true
  traceEvents := (given.lookup "trace_events").getD false
  dispatchRollback := (given.lookup "dispatch_rollback").getD true

/-- A truth value in words. -/
def word (b : Bool) : String := if b then "true" else "false"

/-- The settings as messages show them. -/
def outline (s : Settings) : String :=
  Outline.record "InterceptorConfig" (names.zip (s.values.map word))

/-- The record of the settings. -/
def toJson (s : Settings) : Json := .object (names.zip (s.values.map Json.bool))

/-- Reads the record of the settings; a missing part has its default, a foreign one is refused. -/
def ofDraft? (d : Json.Draft) : Option Settings := do
  let parts ← d.parts? names true
  let given ← (names.zip parts).filterMapM fun (name, part) =>
    match part with
    | none => some none
    | some j => j.bool?.map fun b => some (name, b)
  return ofAssignments given

end Settings
end EntityGraph
