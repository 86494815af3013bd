import EntityGraph.World.Basic

/-!
The steps of a commit hook: before a commit listeners are told what changed, and the first that
fails vetoes the commit; after a rollback they are told of it. The hook counts what it delivers.
-/

namespace EntityGraph

/-- What the pre-commit step reports: every event was delivered, or what went wrong first. -/
inductive CommitOutcome
  | committed (summary : CommitSummary)
  | rolledBack (txn : TxnId) (cause : Failure)
  deriving Inhabited

namespace World
variable {L H : Type} (react : Reaction L H)

/-- Tells listeners of an event, one after the other, up to the first that fails. -/
def tell (caller : Caller) (txn : TxnId) (e : Event) :
    List L → World L H → Outcome L H Unit
  | [], w => some (.ok (), w)
  | l :: ls, w =>
    match react l caller txn e w with
    | some (.ok (), w) => tell caller txn e ls w
    | r => r

/-- Tells every listener of an event, whether others fail or not. -/
def tellAll (caller : Caller) (txn : TxnId) (e : Event) : List L → World L H → Option (World L H)
  | [], w => some w
  | l :: ls, w => (react l caller txn e w).bind fun (_, w) => tellAll caller txn e ls w

/-- Goes through the steps of a commit up to the first failure, counting the events delivered. -/
def dispatch (h : Nat) (ls : List L) (c : TransactionContext) :
    List PlanStep → World L H → Outcome L H Unit
  | [], w => some (.ok (), w)
  | .error e :: _, w => some (.error e, w)
  | .ok e :: steps, w =>
    match tell react c.caller c.txn e ls w with
    | some (.ok (), w) => dispatch h ls c steps (w.count h .recordEvent)
    | r => r

/-- The pre-commit step: tells the listeners of now about the change set. The context is prepared,
or fails with the first failure. A context that is not active is refused. -/
def beforeCommit (h : Nat) (c : TransactionContext) (changes : ChangeSet) (f : EntityFactory)
    (w : World L H) : Option (Except Failure CommitOutcome × TransactionContext × World L H) :=
  match c.ensure .active with
  | .error e => some (.error e, c, w)
  | .ok () =>
    let strict := (w.hook h).settings.strictRehydration
    let steps := EventPlan.steps strict f changes
    match dispatch react h (w.hook h).listeners.snapshot c steps w with
    | none => none
    | some (.error e, w) => some (.ok (.rolledBack c.txn e), c.recordFailure e, w)
    | some (.ok (), w) =>
      match c.prepare with
      | .error e => some (.error e, c, w)
      | .ok c => some (.ok (.committed (EventPlan.summary strict f changes c.txn)), c, w)

/-- The step after a commit. -/
def afterCommit (h : Nat) (c : TransactionContext) (w : World L H) :
    Except Failure Unit × World L H :=
  match c.commit with
  | .error e => (.error e, w)
  | .ok _ => (.ok (), w.count h .recordCommit)

/-- The step after a rollback: tells the listeners of now, whose failures do not count, and fails
with the failure that the context recorded. -/
def afterRollback (h : Nat) (c : TransactionContext) (w : World L H) : Outcome L H Unit :=
  match c.rollBack with
  | .error e => some (.error e, w)
  | .ok (cause, _) =>
    let result := match cause with
      | some e => .error e
      | none => .ok ()
    let w := w.count h .recordRollback
    if (w.hook h).settings.dispatchRollback then
      (tellAll react c.caller c.txn .rollback (w.hook h).listeners.snapshot w).map fun w =>
        (result, w.count h .recordEvent)
    else some (result, w)

/-- Tells listeners of nodes that were read, if there are any. -/
def notifyVisited (h : Nat) (caller : Caller) (txn : TxnId) (nodes : List Node) (w : World L H) :
    Outcome L H Unit :=
  if nodes.isEmpty then some (.ok (), w)
  else
    match tell react caller txn (.visited nodes) (w.hook h).listeners.snapshot w with
    | some (.ok (), w) => some (.ok (), w.count h .recordEvent)
    | r => r

end World
end EntityGraph
