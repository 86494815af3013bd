import EntityGraph.World.Hook
import EntityGraph.World.Transactions

/-!
How transactions end. A commit checks that the change set fits what is committed, tells listeners,
checks again, since they may have committed something themselves, and applies the changes. Anything
that goes wrong before that ends in a rollback.
-/

namespace EntityGraph.World
variable {L H : Type} (react : Reaction L H)

/-- The commit of a transaction whose context was taken. A change set that does not fit the
committed state, before listeners are told or after, or a failing listener, ends in a rollback. -/
def finishCommit (t : Transaction) (c : TransactionContext) (w : World L H) :
    Outcome L H CommitSummary :=
  let abort (c : TransactionContext) (e : Failure) (w : World L H) : Outcome L H CommitSummary :=
    (afterRollback react t.hook (c.recordFailure e) w).map fun (r, w) =>
      (r.bind fun _ => .error e, w)
  match t.changes.conflict? w.graph.committed with
  | some e => abort c e w
  | none =>
    match beforeCommit react t.hook c t.changes (t.working.factory w.graph.schema) w with
    | none => none
    | some (.error e, c, w) =>
      (afterRollback react t.hook c w).map fun (r, w) => (r.bind fun _ => .error e, w)
    | some (.ok (.rolledBack _ cause), c, w) =>
      (afterRollback react t.hook c w).map fun (r, w) => (r.bind fun _ => .error cause, w)
    | some (.ok (.committed summary), c, w) =>
      match t.changes.conflict? w.graph.committed with
      | some e => abort c e w
      | none =>
        let w := { w with graph.committed := w.graph.committed.apply t.working t.changes }
        let (r, w) := afterCommit t.hook c w
        some (r.map fun _ => summary, w)

/-- Commits a transaction. It is closed while listeners are told, and then forgotten. -/
def commit (w : World L H) (n : Nat) : Outcome L H CommitSummary :=
  match w.transaction? n with
  | none => none
  | some (t, c) => (finishCommit react t c (w.close n)).map fun (r, w) => (r, w.forget n t.txn)

/-- Ends a transaction without committing it. -/
def rollback (w : World L H) (n : Nat) : Outcome L H Unit :=
  match w.transaction? n with
  | none => none
  | some (t, c) =>
    (afterRollback react t.hook c (w.close n)).map fun (r, w) => (r, w.forget n t.txn)

end EntityGraph.World
