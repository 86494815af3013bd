import EntityGraph.Caller
import EntityGraph.Failure
import EntityGraph.Identity

/-!
The states of one attempted commit.

    active ──▶ prepared ──▶ committed
      │           │
      ▼           ▼
    failed ──▶ rolled back

A transaction is rolled back from any state but the two last ones, and the first failure recorded is
the one handed back then.
-/

namespace EntityGraph

/-- State of an attempted commit. -/
inductive TransactionStatus
  | active
  | prepared
  | failed
  | committed
  | rolledBack
  deriving DecidableEq, Inhabited

/-- The name of the state. -/
def TransactionStatus.name : TransactionStatus → String
  | active => "Active"
  | prepared => "Prepared"
  | failed => "Failed"
  | committed => "Committed"
  | rolledBack => "RolledBack"

/-- The state of a name. -/
def TransactionStatus.ofName? (s : String) : Option TransactionStatus :=
  [active, prepared, failed, committed, rolledBack].find? (·.name = s)

/-- One attempted commit: its identity, on whose behalf, its state and its first failure. -/
structure TransactionContext where
  txn : TxnId
  caller : Caller
  status : TransactionStatus := .active
  failure : Option Failure := none
  deriving Inhabited

namespace TransactionContext

/-- Fails unless the state is the expected one. -/
def ensure (c : TransactionContext) (expected : TransactionStatus) : Except Failure Unit :=
  if c.status = expected then .ok () else .error (.wrongState expected.name c.status.name)

/-- From active to prepared. -/
def prepare (c : TransactionContext) : Except Failure TransactionContext := do
  c.ensure .active
  return { c with status := .prepared }

/-- From prepared to committed. -/
def commit (c : TransactionContext) : Except Failure TransactionContext := do
  c.ensure .prepared
  return { c with status := .committed }

/-- Keeps the first failure; the state is failed. -/
def recordFailure (c : TransactionContext) (cause : Failure) : TransactionContext :=
  { c with status := .failed, failure := c.failure.or (some cause) }

/-- Ends the transaction without a commit and hands back the failure recorded. -/
def rollBack (c : TransactionContext) : Except Failure (Option Failure × TransactionContext) :=
  match c.status with
  | .committed | .rolledBack => .error (.wrongState "Active, Prepared or Failed" c.status.name)
  | _ => .ok (c.failure, { c with status := .rolledBack, failure := none })

end TransactionContext
end EntityGraph
