import EntityGraph.Name

/-!
Entity types. A type carries the names of all its ancestors, the nearest first, and a lookup that
inherits walks this chain.
-/

namespace EntityGraph

/-- A type name and the names of its ancestors, nearest first. -/
structure EntityType where
  name : String
  ancestors : List String
  deriving DecidableEq, Inhabited

namespace EntityType

/-- A type without a supertype. -/
def root (name : String) : EntityType := ⟨name, []⟩

/-- The names from the type itself to its root. -/
def chain (t : EntityType) : List String := t.name :: t.ancestors

/-- A subtype of `t`. -/
def derive (t : EntityType) (name : String) : EntityType := ⟨name, t.chain⟩

/-- The type of a chain, if it names any. -/
def ofChain? : List String → Option EntityType
  | [] => none
  | name :: ancestors => some ⟨name, ancestors⟩

/-- The direct supertype. -/
def supertype? (t : EntityType) : Option EntityType := ofChain? t.ancestors

/-- How many types the chain names. -/
def depth (t : EntityType) : Nat := t.chain.length

/-- The name under which tables know the type. -/
def normalizedName (t : EntityType) : String := normalize t.name

/-- The chain as tables know it. -/
def normalizedChain (t : EntityType) : List String := t.chain.map normalize

/-- The type and its ancestors. -/
def lineage (t : EntityType) : List EntityType := go t.name t.ancestors
where
  go (name : String) : List String → List EntityType
    | [] => [⟨name, []⟩]
    | a :: as => ⟨name, a :: as⟩ :: go a as

/-- `other` is the type itself or one of its ancestors. -/
def isSubtypeOf (t other : EntityType) : Bool := t.chain.contains other.name

end EntityType

instance : ToString EntityType := ⟨EntityType.name⟩

end EntityGraph
