import EntityGraph.Schema.Basic

/-!
How a schema comes about: registrations, applied in order. A later registration of the same entry
overwrites an earlier one. A validator that needs a lock registers it.
-/

namespace EntityGraph

/-- One statement about an entity type. -/
inductive Registration
  /-- Makes a type and its ancestors known by name. -/
  | type (t : EntityType)
  | relation (source : EntityType) (property : String) (target : EntityType) (relType : String)
      (direction : Direction) (cardinality : Cardinality) (notion : Notion)
  /-- Adds keys to a view. -/
  | view (t : EntityType) (label : String) (keys : List PropertyKey)
  | clearView (t : EntityType) (label : String)
  | validator (t : EntityType) (key : PropertyKey) (kind : ValidatorKind) (parameter : Option Value)
  | converter (t : EntityType) (key : PropertyKey) (kind : ConverterKind) (parameter : Option Value)
  | readOnly (t : EntityType) (key : PropertyKey)
  | writeOnce (t : EntityType) (key : PropertyKey)
  /-- Adds keys to a search index. -/
  | searchable (t : EntityType) (index : String) (keys : List PropertyKey)
  | transformation (t : EntityType) (f : Transformation)
  | group (t : EntityType) (key : PropertyKey) (g : PropertyGroup)
  | validatorFactory (name : String) (f : ValidatorFactory)
  | converterFactory (name : String) (f : ConverterFactory)

/-- A schema in the making, with the locks that its validators need. -/
structure SchemaDraft where
  schema : Schema := {}
  locks : LockTable := {}

namespace Schema

/-- Makes a type and its ancestors known; a name that is known keeps its type. -/
def defineType (s : Schema) (t : EntityType) : Schema :=
  { s with
    types := t.lineage.foldl
      (fun ts t => if ts.has t.normalizedName then ts else ts.put t.normalizedName t) s.types }

/-- Declares a relation, its notion bound to the target; both types become known. -/
def addRelation (s : Schema) (source : EntityType) (property : String) (target : EntityType)
    (relType : String) (direction : Direction) (cardinality : Cardinality) (notion : Notion) :
    Schema :=
  let s := (s.defineType source).defineType target
  let property := lowercase property
  { s with
    relations := s.relations.put ⟨source.normalizedName, property⟩
      ⟨source.normalizedName, property, target.normalizedName, relType, direction, cardinality,
        notion.bind target⟩ }

/-- The keys that the ancestors of a type list in their own views, root first. -/
def ancestorKeys (s : Schema) (t : EntityType) (label : String) : List PropertyKey :=
  t.ancestors.reverse.foldl (fun ks a => addKeys ks ((s.views.entryOf? a label).getD [])) []

/-- A view lists what the ancestors list now, then what the type listed, then the new keys. -/
def addToView (s : Schema) (t : EntityType) (label : String) (keys : List PropertyKey) : Schema :=
  let own := (s.views.entryOf? t.name label).getD []
  { s with
    views := s.views.setEntry t.name label
      (addKeys (addKeys (s.ancestorKeys t label) own) keys) }

/-- Forgets what a type itself lists in a view. -/
def clearView (s : Schema) (t : EntityType) (label : String) : Schema :=
  { s with
    views := s.views.adjust t.normalizedName (·.without label) }

/-- Adds keys to the search index of a type. -/
def addSearchable (s : Schema) (t : EntityType) (index : String) (keys : List PropertyKey) :
    Schema :=
  { s with
    searchable := s.searchable.setEntry t.name index
      (addKeys ((s.searchable.entryOf? t.name index).getD []) keys) }

/-- Appends a transformation to those of a type. -/
def addTransformation (s : Schema) (t : EntityType) (f : Transformation) : Schema :=
  { s with
    transformations := s.transformations.put t.normalizedName
      ((s.transformations.get? t.normalizedName).getD [] ++ [f]) }

/-- Sets a parameter, if there is one. -/
def withParameter (t : TypeTable Value) (type key : String) : Option Value → TypeTable Value
  | none => t
  | some v => t.setEntry type key v

/-- What a registration changes in the tables. -/
def register (s : Schema) : Registration → Schema
  | .type t => s.defineType t
  | .relation source property target relType direction cardinality notion =>
    s.addRelation source property target relType direction cardinality notion
  | .view t label keys => s.addToView t label keys
  | .clearView t label => s.clearView t label
  | .validator t key kind parameter =>
    { s with
      validators := s.validators.setEntry t.name key.name kind
      validationParameters := withParameter s.validationParameters t.name key.name parameter }
  | .converter t key kind parameter =>
    { s with
      converters := s.converters.setEntry t.name key.name kind
      conversionParameters := withParameter s.conversionParameters t.name key.name parameter }
  | .readOnly t key => { s with readOnly := s.readOnly.setEntry t.name key.name () }
  | .writeOnce t key => { s with writeOnce := s.writeOnce.setEntry t.name key.name () }
  | .searchable t index keys => s.addSearchable t index keys
  | .transformation t f => s.addTransformation t f
  | .group t key g => { s with groups := s.groups.setEntry t.name key.name g }
  | .validatorFactory name f => { s with validatorFactories := s.validatorFactories.put name f }
  | .converterFactory name f => { s with converterFactories := s.converterFactories.put name f }

end Schema

/-- The lock that a registration needs. -/
def Registration.lock? : Registration → Option Lock
  | .validator t key kind _ => (kind.scope? t.name).map (⟨·, key.name⟩)
  | _ => none

namespace SchemaDraft

/-- Applies one registration. -/
def register (d : SchemaDraft) (r : Registration) : SchemaDraft where
  schema := d.schema.register r
  locks := match r.lock? with
    | some l => d.locks.register l
    | none => d.locks

/-- Applies registrations in order, the locks starting from those given. -/
def ofRegistrations (locks : LockTable) (rs : List Registration) : SchemaDraft :=
  rs.foldl register { locks }

end SchemaDraft
end EntityGraph
