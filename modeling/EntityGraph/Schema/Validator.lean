import EntityGraph.Caller
import EntityGraph.Lock
import EntityGraph.Schema.Resolver

/-!
Checks of a value before it is written. A check may take the permit of a lock and leave it with the
context, so that the value stays checked until the write is done.

Main statement: `unique_waits_iff` — the check for uniqueness waits exactly when its lock's permit
is out.
-/

namespace EntityGraph

/-- The state of some checks: on whose behalf, what is stored, the locks, the permits held. -/
structure ValidationContext where
  caller : Caller
  lookup : HolderLookup
  locks : LockTable
  permits : List Lock := []

namespace ValidationContext

/-- Keeps the permit of a lock whose permit is not out. -/
def hold (c : ValidationContext) (l : Lock) : ValidationContext :=
  { c with locks := c.locks.mark l true, permits := c.permits ++ [l] }

/-- Gives every permit back. -/
def releaseAll (c : ValidationContext) : ValidationContext :=
  { c with locks := c.locks.releaseAll c.permits, permits := [] }

/-- A permit for the key is out that a check for uniqueness may ask for. -/
def mayWait (c : ValidationContext) (node : Node) (key : PropertyKey) (v : Value) : Bool :=
  !v.isNull && (.global :: node.type.chain.map UniqueScope.type).any fun scope =>
    c.locks.held? ⟨scope, key.name⟩ = some true

/-- The context as messages show it. -/
def outline (c : ValidationContext) : String :=
  Outline.record "ValidationContext"
    [("security", c.caller.outline), ("permits", Outline.list (c.permits.map Lock.permitOutline))]

end ValidationContext

/-- A check of a value for a key of a node, given the parameter registered for the key. It ends in a
result and a context, or waits for a permit that is out. -/
structure Validator where
  validate : ValidationContext → Node → PropertyKey → Value → Option Value →
    Option (Except Failure Unit × ValidationContext)

/-- The kinds of check that a key can have. -/
inductive ValidatorKind
  /-- No other node holds the value. -/
  | globalUniqueness
  /-- No other node of the registering type holds the value. -/
  | typeUniqueness
  | notEmpty
  /-- The value is one of those listed by the parameter. -/
  | matchesAny
  /-- The check built by the factory of this name. -/
  | named (name : String)
  deriving DecidableEq, Inhabited

namespace ValidatorKind

/-- The name of the kind. -/
def name : ValidatorKind → String
  | globalUniqueness => "GlobalUniqueness"
  | typeUniqueness => "TypeAndPropertyUniqueness"
  | notEmpty => "NotEmpty"
  | matchesAny => "MatchesAny"
  | named n => Outline.tuple "Named" [n]

/-- The kind of a name, factories apart. -/
def ofName? (s : String) : Option ValidatorKind :=
  [globalUniqueness, typeUniqueness, notEmpty, matchesAny].find? (·.name = s)

/-- The kind with its data. -/
def outline : ValidatorKind → String
  | named n => Outline.tuple "Named" [quoted n]
  | k => k.name

/-- The scope in which the kind needs a lock, when `type` registers it. -/
def scope? (type : String) : ValidatorKind → Option UniqueScope
  | globalUniqueness => some .global
  | typeUniqueness => some (.type type)
  | _ => none

end ValidatorKind

namespace Validator

/-- A check that takes no permit. -/
def ofCheck (check : Node → PropertyKey → Value → Option Value → Except Failure Unit) : Validator :=
  ⟨fun c node key v param => some (check node key v param, c)⟩

/-- Refuses the value of a key. -/
def refuse (node : Node) (key : PropertyKey) (reason : String) : Except Failure Unit :=
  .error (.validation node.type.name key.name reason)

/-- No node but `node` holds the value in the scope. -/
def checkHolders (scope : UniqueScope) (lookup : HolderLookup) (node : Node) (key : PropertyKey)
    (v : Value) : Except Failure Unit := do
  let type? := match scope with
    | .type name => some name
    | .global => none
  match (← lookup type? key v).find? (· ≠ node.id) with
  | some other => refuse node key s!"value {v.outline} already used by node {other}"
  | none => return ()

/-- The value is held by no other node of the scope. Null is never held. The permit of the scope's
lock is taken for the check, kept if the check passes and given back if it fails. -/
def unique (scope : UniqueScope) : Validator where
  validate c node key v _ :=
    if v.isNull then some (.ok (), c)
    else
      let lock : Lock := ⟨scope, key.name⟩
      let result := checkHolders scope c.lookup node key v
      match c.locks.held? lock with
      | none => some (result, c)
      | some true => none
      | some false =>
        match result with
        | .ok () => some (.ok (), c.hold lock)
        | .error e => some (.error e, c)

/-- Not null, not blank, not without items. -/
def notEmpty : Validator := ofCheck fun node key v _ =>
  if v.isEmpty then refuse node key "must not be empty" else .ok ()

/-- Null, or equal to an item of the parameter. -/
def matchesAny : Validator := ofCheck fun node key v param =>
  if v.isNull then .ok ()
  else match param.bind Value.array? with
    | none => refuse node key "no list of allowed values registered"
    | some allowed =>
      if allowed.contains v then .ok ()
      else refuse node key
        s!"{v.outline} is not one of {Outline.list (allowed.map Value.outline)}"

theorem unique_waits_iff (scope : UniqueScope) (c : ValidationContext) (node : Node)
    (key : PropertyKey) (v : Value) (param : Option Value) :
    (unique scope).validate c node key v param = none ↔
      v.isNull = false ∧ c.locks.held? ⟨scope, key.name⟩ = some true := by
  unfold unique
  by_cases h : v.isNull = true
  · simp [h]
  · simp only [h, if_false, true_and, Bool.false_eq_true]
    cases c.locks.held? ⟨scope, key.name⟩ with
    | none => simp
    | some held =>
      cases held with
      | true => simp
      | false => simp; split <;> simp

end Validator

/-- Builds a check for a caller. -/
abbrev ValidatorFactory := Caller → Except Failure Validator

end EntityGraph
