import EntityGraph.Schema.Notion

/-!
Relations that a type declares: a property of the source that leads to nodes of the target over
relationships of one type.
-/

namespace EntityGraph

/-- Which way the relationships run, as the source sees them. -/
inductive Direction
  | outgoing
  | incoming
  | both
  deriving DecidableEq, Inhabited

namespace Direction

/-- The name of the direction. -/
def name : Direction → String
  | outgoing => "Outgoing"
  | incoming => "Incoming"
  | both => "Both"

/-- The direction of that name. -/
def ofName? (s : String) : Option Direction := [outgoing, incoming, both].find? (·.name = s)

/-- Reads a direction as its name. -/
def ofJson? (j : Json) : Option Direction := j.caseName?.bind ofName?

/-- The direction as its name. -/
def toJson (d : Direction) : Json := .string d.name

end Direction

/-- How many sources and targets a relation joins. -/
inductive Cardinality
  | oneToOne
  | oneToMany
  | manyToOne
  | manyToMany
  deriving DecidableEq, Inhabited

namespace Cardinality

/-- The name of the cardinality. -/
def name : Cardinality → String
  | oneToOne => "OneToOne"
  | oneToMany => "OneToMany"
  | manyToOne => "ManyToOne"
  | manyToMany => "ManyToMany"

/-- The cardinality of that name. -/
def ofName? (s : String) : Option Cardinality :=
  [oneToOne, oneToMany, manyToOne, manyToMany].find? (·.name = s)

/-- Reads a cardinality as its name. -/
def ofJson? (j : Json) : Option Cardinality := j.caseName?.bind ofName?

/-- The cardinality as its name. -/
def toJson (c : Cardinality) : Json := .string c.name

/-- The source sees a collection of targets. -/
def isCollection : Cardinality → Bool
  | oneToMany | manyToMany => true
  | _ => false

/-- The cardinality of a relation that names none. -/
def standard : Cardinality := manyToMany

end Cardinality

/-- A declared relation; the names of types and property are normalized. -/
structure Relation where
  source : String
  property : String
  target : String
  relType : String
  direction : Direction
  cardinality : Cardinality
  notion : Notion

/-- Where a relation is declared. The keys of one source stand together, by property. -/
structure RelationKey where
  source : String
  property : String
  deriving DecidableEq

/-- Keys are ordered by source, and those of one source by property. -/
instance : LT RelationKey :=
  ⟨fun a b => a.source < b.source ∨ a.source = b.source ∧ a.property < b.property⟩

instance : DecidableLT RelationKey := fun a b =>
  inferInstanceAs (Decidable (a.source < b.source ∨ a.source = b.source ∧ a.property < b.property))

/-- The relation as messages show it. -/
def Relation.outline (r : Relation) : String :=
  Outline.record "RelationDefinition"
    [("source_type", quoted r.source), ("property", quoted r.property),
      ("target_type", quoted r.target), ("rel_type", quoted r.relType),
      ("direction", r.direction.name), ("cardinality", r.cardinality.name),
      ("notion", r.notion.outline)]

end EntityGraph
