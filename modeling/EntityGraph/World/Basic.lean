import EntityGraph.Counters
import EntityGraph.Graph.Transaction
import EntityGraph.ListenerSet
import EntityGraph.Settings.Basic

/-!
A graph with its open transactions and the commit hooks that listeners register with. Listeners act
while a commit is under way: what they do, to the graph, to other transactions or to themselves, is
a parameter of every step that tells them something.

A step yields nothing if it cannot take place: the transaction is not open, or the step would wait
for a permit for ever.
-/

namespace EntityGraph

/-- Tells listeners what happens in commits. -/
structure CommitHook (L : Type) where
  listeners : ListenerSet L := {}
  settings : Settings := {}
  nextTxn : Nat := 1
  counters : Counters := {}

/-- The hook as messages show it. -/
def CommitHook.outline {L : Type} (h : CommitHook L) : String :=
  Outline.record "ChangeInterceptor"
    [("listeners", toString h.listeners.size), ("config", h.settings.outline)]

/-- A graph, its transactions, its hooks, and what the listeners keep for themselves. -/
structure World (L H : Type) where
  graph : Graph := {}
  /-- A hook that is not listed is a new one. -/
  hooks : Assoc Nat (CommitHook L) := []
  transactions : Assoc Nat Transaction := []
  nextTransaction : Nat := 0
  host : H

/-- What a listener does when it is told of an event, and whether it fails. -/
abbrev Reaction (L H : Type) :=
  L → Caller → TxnId → Event → World L H → Option (Except Failure Unit × World L H)

/-- How a step of the world ends. -/
abbrev World.Outcome (L H α : Type) := Option (Except Failure α × World L H)

namespace World
variable {L H : Type}

/-- The hook of a number. -/
def hook (w : World L H) (h : Nat) : CommitHook L := (w.hooks.get? h).getD {}

/-- Changes a hook. -/
def setHook (w : World L H) (h : Nat) (f : CommitHook L → CommitHook L) : World L H :=
  { w with hooks := w.hooks.put h (f (w.hook h)) }

/-- Changes what a hook counts. -/
def count (w : World L H) (h : Nat) (f : Counters → Counters) : World L H :=
  w.setHook h fun k => { k with counters := f k.counters }

/-- Registers a listener. -/
def register (w : World L H) (h : Nat) (l : L) : ListenerHandle × World L H :=
  let (handle, listeners) := (w.hook h).listeners.register l
  (handle, w.setHook h fun k => { k with listeners })

/-- Removes the registration of a listener; whether it was there. -/
def unregister (w : World L H) (h : Nat) (handle : ListenerHandle) : Bool × World L H :=
  let (there, listeners) := (w.hook h).listeners.unregister handle
  (there, w.setHook h fun k => { k with listeners })

/-- Begins an attempted commit. -/
def beginContext (w : World L H) (h : Nat) (caller : Caller) : TransactionContext × World L H :=
  let txn : TxnId := ⟨(w.hook h).nextTxn⟩
  ({ txn, caller }, w.setHook h fun k =>
    { k with nextTxn := k.nextTxn + 1, counters := k.counters.recordBegin })

end World
end EntityGraph
