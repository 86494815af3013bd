import EntityGraph.Text.Outline

/-!
Listeners in the order of registration. Each registration has a handle of its own, also when one
listener registers twice.

Main statement: `snapshot_register` — a new listener comes last.
-/

namespace EntityGraph

/-- What a registration is known by. -/
structure ListenerHandle where
  raw : Nat
  deriving DecidableEq, Inhabited

instance : ToString ListenerHandle := ⟨fun h => "listener-" ++ toString h.raw⟩

/-- The registered listeners. -/
structure ListenerSet (L : Type) where
  next : Nat := 0
  entries : List (ListenerHandle × L) := []

namespace ListenerSet
variable {L : Type}

/-- Adds a listener at the end. -/
def register (s : ListenerSet L) (l : L) : ListenerHandle × ListenerSet L :=
  (⟨s.next⟩, ⟨s.next + 1, s.entries ++ [(⟨s.next⟩, l)]⟩)

/-- Removes a registration; whether it was there. -/
def unregister (s : ListenerSet L) (h : ListenerHandle) : Bool × ListenerSet L :=
  (s.entries.any (·.1 = h), { s with entries := s.entries.filter (·.1 ≠ h) })

/-- The listeners as they are now. -/
def snapshot (s : ListenerSet L) : List L := s.entries.map (·.2)

/-- How many registrations there are. -/
def size (s : ListenerSet L) : Nat := s.entries.length

/-- The set as messages show it. -/
def outline (s : ListenerSet L) : String :=
  Outline.record "ListenerSet" [("listeners", toString s.size)]

@[simp] theorem snapshot_register (s : ListenerSet L) (l : L) :
    (s.register l).2.snapshot = s.snapshot ++ [l] := by
  simp [register, snapshot]

end ListenerSet
end EntityGraph
