import EntityGraph.Decimal.Rounding

/-!
What a commit hook counts. A context that did not begin through the hook may still end through it,
so the number of open transactions stops at zero.
-/

namespace EntityGraph

/-- Transactions by how far they came, and events delivered. -/
structure Counters where
  active : Nat := 0
  begun : Nat := 0
  committed : Nat := 0
  rolledBack : Nat := 0
  events : Nat := 0
  deriving DecidableEq, Inhabited

namespace Counters

/-- A transaction begins. -/
def recordBegin (c : Counters) : Counters := { c with active := c.active + 1, begun := c.begun + 1 }

/-- A transaction commits. -/
def recordCommit (c : Counters) : Counters :=
  { c with active := c.active - 1, committed := c.committed + 1 }

/-- A transaction is rolled back. -/
def recordRollback (c : Counters) : Counters :=
  { c with active := c.active - 1, rolledBack := c.rolledBack + 1 }

/-- An event was delivered, to however many listeners. -/
def recordEvent (c : Counters) : Counters := { c with events := c.events + 1 }

/-- The share of the ended transactions that were rolled back. -/
def rollbackRate (c : Counters) : Binary64 :=
  let ended := c.committed + c.rolledBack
  if ended = 0 then Binary64.zero false
  else (Binary64.ofInt c.rolledBack).div (Binary64.ofInt ended)

end Counters
end EntityGraph
