import EntityGraph.Lock

/-!
A table of locks with the permits that are out, each kept under a name.
-/

namespace EntityGraph

/-- Locks, and the permits that are out by the name of who keeps them. -/
structure PermitDesk where
  locks : LockTable := {}
  permits : Assoc String Lock := []
  deriving Inhabited

/-- What became of a request for a permit. -/
inductive PermitAnswer
  /-- The lock is not registered. -/
  | noLock
  /-- The permit is out. -/
  | held
  | granted (l : Lock)
  deriving DecidableEq

namespace PermitDesk

/-- Registers a lock. -/
def register (d : PermitDesk) (l : Lock) : PermitDesk := { d with locks := d.locks.register l }

/-- Takes the permit of a lock and keeps it under a name; the permit kept there before is given back
afterwards. -/
def take (d : PermitDesk) (name : String) (l : Lock) : PermitAnswer × PermitDesk :=
  match d.locks.held? l with
  | none => (.noLock, d)
  | some true => (.held, d)
  | some false =>
    let locks := d.locks.mark l true
    let locks := match d.permits.get? name with
      | some old => locks.release old
      | none => locks
    (.granted l, ⟨locks, d.permits.put name l⟩)

/-- Gives the permit kept under a name back; whether there was one. -/
def release (d : PermitDesk) (name : String) : Bool × PermitDesk :=
  match d.permits.get? name with
  | some l => (true, ⟨d.locks.release l, d.permits.without name⟩)
  | none => (false, d)

end PermitDesk
end EntityGraph
