import EntityGraph.Schema.Group
import EntityGraph.Schema.Relation
import EntityGraph.Schema.Validator

/-!
The schema: what is known about each entity type, in tables by normalized type name. A lookup that
inherits walks the chain of the type and takes the first entry. Relations are in one table in the
order of their keys.

Main statement: `findInChain_eq_none_iff` — nothing is found exactly if no name of the chain has an
entry.
-/

namespace EntityGraph

/-- The label of the properties that anyone sees. -/
def publicView : String := "public"

/-- The label of the properties shown on screen. -/
def uiView : String := "ui"

/-- The label of all properties. -/
def allView : String := "all"

/-- A change to a node right after its creation. Transformations of one name are the same. -/
structure Transformation where
  name : String
  apply : Caller → Node → Except Failure Node

/-- Applies transformations in order until one fails; also the node they leave. -/
def Transformation.applyAll (caller : Caller) (node : Node) :
    List Transformation → Except Failure Unit × Node
  | [] => (.ok (), node)
  | f :: fs =>
    match f.apply caller node with
    | .ok node => applyAll caller node fs
    | .error e => (.error e, node)

/-- Entries by normalized type name, then by the name of a property, view or index. -/
abbrev TypeTable (α : Type) := Assoc String (Assoc String α)

/-- What is known about entity types. -/
structure Schema where
  types : Assoc String EntityType := []
  views : TypeTable (List PropertyKey) := []
  relations : Assoc RelationKey Relation := []
  validators : TypeTable ValidatorKind := []
  validationParameters : TypeTable Value := []
  converters : TypeTable ConverterKind := []
  conversionParameters : TypeTable Value := []
  readOnly : TypeTable Unit := []
  writeOnce : TypeTable Unit := []
  searchable : TypeTable (List PropertyKey) := []
  groups : TypeTable PropertyGroup := []
  transformations : Assoc String (List Transformation) := []
  validatorFactories : Assoc String ValidatorFactory := []
  converterFactories : Assoc String ConverterFactory := []

namespace TypeTable
variable {α : Type}

/-- The entry of one type. -/
def entryOf? (t : TypeTable α) (type key : String) : Option α :=
  (t.get? (normalize type)).bind (·.get? key)

/-- Sets the entry of one type. -/
def setEntry (t : TypeTable α) (type key : String) (a : α) : TypeTable α :=
  t.put (normalize type) (((t.get? (normalize type)).getD []).put key a)

/-- The first entry along the chain of a type, and the name that has it. -/
def findInChain (t : TypeTable α) (type : EntityType) (key : String) : Option (String × α) :=
  type.chain.findSome? fun name => (t.entryOf? name key).map (name, ·)

/-- The first entry along the chain of a type. -/
def inherited? (t : TypeTable α) (type : EntityType) (key : String) : Option α :=
  (t.findInChain type key).map (·.2)

theorem entryOf?_setEntry (t : TypeTable α) (type key type' key' : String) (a : α) :
    (t.setEntry type key a).entryOf? type' key' =
      if normalize type' = normalize type ∧ key' = key then some a else t.entryOf? type' key' := by
  by_cases h : normalize type' = normalize type
  · simp only [entryOf?, setEntry, Assoc.get?_put, h, if_true, true_and, Option.bind_some]
    cases hg : Assoc.get? t (normalize type) <;> simp
  · simp [entryOf?, setEntry, Assoc.get?_put, h]

theorem findInChain_eq_none_iff (t : TypeTable α) (type : EntityType) (key : String) :
    t.findInChain type key = none ↔ ∀ name ∈ type.chain, t.entryOf? name key = none := by
  simp [findInChain]

end TypeTable
end EntityGraph
