import EntityGraph.Text.Outline

/-!
Why an operation fails. Each cause has one message; `outline` shows the cause with its data.
-/

namespace EntityGraph

/-- Cause of a failed operation. -/
inductive Failure
  | notFound (what : String)
  | invalidInput (reason : String)
  /-- A listener refused the commit. -/
  | vetoed (reason : String)
  /-- A validator refused a value. -/
  | validation (type property reason : String)
  | conversion (reason : String)
  /-- A stored object could not be given its type. -/
  | rehydration (reason : String)
  /-- A validator or converter could not be built. -/
  | instantiation (reason : String)
  | contextMissing
  /-- A commit step met a transaction in the wrong state. -/
  | wrongState (expected actual : String)
  /-- Another transaction committed first. -/
  | conflict (reason : String)
  | config (reason : String)
  | internal (reason : String)
  deriving DecidableEq, Inhabited

namespace Failure

/-- The failure in words. -/
def message : Failure → String
  | notFound what => "Not found: " ++ what
  | invalidInput r => "Invalid input: " ++ r
  | vetoed r => "Vetoed: " ++ r
  | validation t p r => "Validation failed for " ++ t ++ "." ++ p ++ ": " ++ r
  | conversion r => "Conversion error: " ++ r
  | rehydration r => "Rehydration failed: " ++ r
  | instantiation r => "Instantiation failed: " ++ r
  | contextMissing => "No transaction context for commit callback"
  | wrongState e a => "Invalid transaction state: expected " ++ e ++ ", found " ++ a
  | conflict r => "Transaction conflict: " ++ r
  | config r => "Configuration error: " ++ r
  | internal r => "Internal error: " ++ r

/-- Starting again from scratch may succeed. -/
def isConflict : Failure → Bool
  | conflict _ => true
  | _ => false

/-- The caller broke the order of commit steps. -/
def isProgrammingError : Failure → Bool
  | contextMissing | wrongState _ _ => true
  | _ => false

/-- The name of the cause. -/
def kind : Failure → String
  | notFound _ => "NotFound"
  | invalidInput _ => "InvalidInput"
  | vetoed _ => "Vetoed"
  | validation .. => "Validation"
  | conversion _ => "Conversion"
  | rehydration _ => "Rehydration"
  | instantiation _ => "Instantiation"
  | contextMissing => "TransactionContextMissing"
  | wrongState .. => "InvalidTransactionState"
  | conflict _ => "Conflict"
  | config _ => "Config"
  | internal _ => "Internal"

/-- The failure of a kind with the texts it is about. -/
def ofParts? (kind : String) (texts : List String) : Option Failure :=
  (candidates texts).find? (·.kind = kind)
where
  candidates : List String → List Failure
    | [] => [contextMissing]
    | [s] => [notFound s, invalidInput s, vetoed s, conversion s, rehydration s, instantiation s,
        conflict s, config s, internal s]
    | [expected, actual] => [wrongState expected actual]
    | [type, property, reason] => [validation type property reason]
    | _ => []

/-- The failure as messages show it. -/
def outline (e : Failure) : String :=
  match e with
  | contextMissing => e.kind
  | vetoed r => Outline.record e.kind [("reason", quoted r)]
  | validation t p r =>
    Outline.record e.kind [("type_name", quoted t), ("property", quoted p), ("reason", quoted r)]
  | wrongState x a => Outline.record e.kind [("expected", quoted x), ("actual", quoted a)]
  | notFound s | invalidInput s | conversion s | rehydration s | instantiation s | conflict s
  | config s | internal s => Outline.tuple e.kind [quoted s]

end Failure

/-- A lookup that fails with the given failure, or answers. -/
def answerUnless {α : Type} (failure : Option Failure) (a : α) : Except Failure α :=
  match failure with
  | some e => .error e
  | none => .ok a

/-- Two steps give a result if the first one does and the second one does with what it gave. -/
theorem bind_eq_ok_iff {α β : Type} {x : Except Failure α} {f : α → Except Failure β} {b : β} :
    (x >>= f) = .ok b ↔ ∃ a, x = .ok a ∧ f a = .ok b := by
  cases x <;> simp [Bind.bind, Except.bind]

end EntityGraph
