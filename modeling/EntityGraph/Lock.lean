import EntityGraph.Assoc
import EntityGraph.Text.Outline

/-!
Locks for values that must be unique. There is one lock for a scope and a property; whoever holds
its permit may check a value and write it. A permit is known by its lock, since a lock has at most
one.
-/

namespace EntityGraph

/-- Where a value must be unique. -/
inductive UniqueScope
  /-- Among the nodes of one type and its subtypes. -/
  | type (name : String)
  /-- Among all nodes. -/
  | global
  deriving DecidableEq, Inhabited

/-- The name of the scope of all nodes. -/
def globalScopeName : String := "global_uniqueness_key"

instance : ToString UniqueScope where
  toString
    | .type name => name
    | .global => globalScopeName

/-- The scope as messages show it. -/
def UniqueScope.outline : UniqueScope → String
  | .type name => Outline.tuple "Type" [quoted name]
  | .global => "Global"

/-- A lock is known by its scope and property. -/
structure Lock where
  scope : UniqueScope
  key : String
  deriving DecidableEq, Inhabited

/-- The lock as messages show it. -/
def Lock.outline (l : Lock) (held : Bool) : String :=
  Outline.record "UniquenessLock"
    [("scope", l.scope.outline), ("key", quoted l.key), ("held", if held then "true" else "false")]

/-- The permit of the lock as messages show it. -/
def Lock.permitOutline (l : Lock) : String :=
  Outline.record "UniquenessPermit" [("scope", l.scope.outline), ("key", quoted l.key)]

/-- The registered locks, each with whether its permit is out. -/
structure LockTable where
  entries : List (Lock × Bool) := []
  deriving Inhabited

namespace LockTable

/-- Whether the permit of a registered lock is out; nothing for a lock that is not registered. -/
def held? (t : LockTable) (l : Lock) : Option Bool := t.entries.lookup l

/-- Registers a lock; one that is there stays as it is. -/
def register (t : LockTable) (l : Lock) : LockTable :=
  if (t.held? l).isSome then t else ⟨t.entries ++ [(l, false)]⟩

/-- Notes whether the permit of a lock is out. -/
def mark (t : LockTable) (l : Lock) (held : Bool) : LockTable :=
  ⟨t.entries.map fun e => if e.1 = l then (l, held) else e⟩

/-- Gives a permit back. -/
def release (t : LockTable) (l : Lock) : LockTable := t.mark l false

/-- Gives permits back. -/
def releaseAll (t : LockTable) (ls : List Lock) : LockTable := ls.foldl release t

/-- The lock that guards `key` for nodes of a type: that of the type, else that of all nodes. -/
def lookup? (t : LockTable) (type key : String) : Option Lock :=
  [⟨.type type, key⟩, ⟨.global, key⟩].find? fun l => (t.held? l).isSome

/-- How many locks are registered. -/
def size (t : LockTable) : Nat := t.entries.length

/-- The table as messages show it. -/
def outline (t : LockTable) : String :=
  Outline.record "UniquenessCoordinator" [("locks", toString t.size)]

theorem held?_register (t : LockTable) (l m : Lock) :
    (t.register l).held? m = if (t.held? l).isNone ∧ m = l then some false else t.held? m := by
  unfold register
  by_cases h : (t.held? l).isSome
  · simp [h, Option.isNone_iff_eq_none, Option.isSome_iff_ne_none.1 h]
  · rw [if_neg h]
    have hn : t.held? l = none := by simpa using h
    by_cases hm : m = l
    · subst hm
      simp only [held?] at hn ⊢
      simp [List.lookup_append, hn]
    · simp only [held?, hm, and_false, if_false, List.lookup_append]
      have : (m == l) = false := by simpa using hm
      simp [List.lookup_cons, this]

end LockTable
end EntityGraph
