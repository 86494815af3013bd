import EntityGraph.Schema.Registration

/-!
What a schema says about an entity type. Kinds, parameters, relations, views and marks are
inherited; search indexes and groups are not. A validator or converter that cannot be built is no
validator or converter.
-/

namespace EntityGraph.Schema

/-! ### Types -/

/-- The type of a stored type name, in any case of letters. -/
def type? (s : Schema) (raw : String) : Option EntityType := s.types.get? (normalize raw)

/-- How many types are known. -/
def typeCount (s : Schema) : Nat := s.types.length

/-! ### Relations -/

/-- The relation that a property is, on the type or its nearest ancestor. -/
def relation? (s : Schema) (t : EntityType) (property : String) : Option Relation :=
  t.normalizedChain.findSome? fun name => s.relations.get? ⟨name, lowercase property⟩

/-- The relation of a type known by name; of an unknown type only what it declares itself. -/
def relationByName? (s : Schema) (source property : String) : Option Relation :=
  match s.type? source with
  | some t => s.relation? t property
  | none => s.relations.get? ⟨normalize source, lowercase property⟩

/-- The relations that the type of a normalized name declares, by property: the rows from its first
possible key on, as far as they bear its name. -/
def relationsDeclaredOn (s : Schema) (name : String) : List Relation :=
  Assoc.values ((s.relations.startingAt ⟨name, ""⟩).takeWhile fun r => r.1.source = name)

/-- The first relation along the chain whose target has the given name, or the given plural. -/
def relationBetween? (s : Schema) (source : EntityType) (target : String) (plural : Bool) :
    Option Relation :=
  source.normalizedChain.findSome? fun name =>
    (s.relationsDeclaredOn name).find? fun r => nameOf r.target plural = normalize target

/-- Adds relations by property; a property that is there keeps its relation. -/
def addVisible (visible : Assoc String Relation) (rs : List Relation) : Assoc String Relation :=
  rs.foldl (fun visible r =>
    if visible.has r.property then visible else visible.put r.property r) visible

/-- The relations of a type by property; that of a subtype hides that of an ancestor. -/
def visibleRelations (s : Schema) (t : EntityType) : Assoc String Relation :=
  t.normalizedChain.foldl (fun visible name => addVisible visible (s.relationsDeclaredOn name)) []

/-- How many relations are declared. -/
def relationCount (s : Schema) : Nat := s.relations.length

/-! ### Views -/

/-- The keys of a view, as the type or its nearest ancestor lists them. -/
def view (s : Schema) (t : EntityType) (label : String) : List PropertyKey :=
  (s.views.inherited? t label).getD []

/-- The labels of the views that a type itself lists. -/
def viewLabels (s : Schema) (t : EntityType) : List String :=
  ((s.views.get? t.normalizedName).getD []).keys

/-! ### Validators -/

/-- The kind of check for a key. -/
def validatorKind? (s : Schema) (t : EntityType) (key : PropertyKey) : Option ValidatorKind :=
  s.validators.inherited? t key.name

/-- The parameter of the check for a key. -/
def validationParameter? (s : Schema) (t : EntityType) (key : PropertyKey) : Option Value :=
  s.validationParameters.inherited? t key.name

/-- The check of a kind that `definingType` registered. -/
def buildValidator? (s : Schema) (definingType : String) (caller : Caller) :
    ValidatorKind → Option Validator
  | .globalUniqueness => some (.unique .global)
  | .typeUniqueness => some (.unique (.type definingType))
  | .notEmpty => some .notEmpty
  | .matchesAny => some .matchesAny
  | .named name => (s.validatorFactories.get? name).bind fun f => (f caller).toOption

/-- The check for a key. -/
def validator? (s : Schema) (t : EntityType) (key : PropertyKey) (caller : Caller) :
    Option Validator :=
  (s.validators.findInChain t key.name).bind fun (name, kind) => s.buildValidator? name caller kind

/-- Runs the check for a key, if there is one. -/
def validate (s : Schema) (c : ValidationContext) (node : Node) (key : PropertyKey) (v : Value) :
    Option (Except Failure Unit × ValidationContext) :=
  match s.validator? node.type key c.caller with
  | some check => check.validate c node key v (s.validationParameter? node.type key)
  | none => some (.ok (), c)

/-! ### Converters -/

/-- The kind of conversion for a key. -/
def converterKind? (s : Schema) (t : EntityType) (key : PropertyKey) : Option ConverterKind :=
  s.converters.inherited? t key.name

/-- The parameter of the conversion for a key. -/
def conversionParameter? (s : Schema) (t : EntityType) (key : PropertyKey) : Option Value :=
  s.conversionParameters.inherited? t key.name

/-- The conversion of a kind. -/
def buildConverter? (s : Schema) (caller : Caller) (parameter : Option Value) :
    ConverterKind → Option Converter
  | .integer => some (.integer parameter)
  | .boolean => some .boolean
  | .lowercase => some .lowercase
  | .named name => (s.converterFactories.get? name).bind fun f => (f caller parameter).toOption

/-- The conversion for a key. -/
def converter? (s : Schema) (t : EntityType) (key : PropertyKey) (caller : Caller) :
    Option Converter :=
  (s.converterKind? t key).bind (s.buildConverter? caller (s.conversionParameter? t key))

/-- The stored value of what a caller gives. -/
def convert (s : Schema) (r : Resolver) (t : EntityType) (key : PropertyKey) (caller : Caller)
    (v : Value) : Except Failure Value :=
  match s.converter? t key caller with
  | some c => c.convert r v
  | none => .ok v

/-- What a caller is given for a stored value. -/
def revert (s : Schema) (r : Resolver) (t : EntityType) (key : PropertyKey) (caller : Caller)
    (v : Value) : Except Failure Value :=
  match s.converter? t key caller with
  | some c => c.revert r v
  | none => .ok v

/-! ### Marks -/

/-- The type or an ancestor marks the key as read-only. -/
def isReadOnly (s : Schema) (t : EntityType) (key : PropertyKey) : Bool :=
  (s.readOnly.inherited? t key.name).isSome

/-- The type or an ancestor marks the key as written once. -/
def isWriteOnce (s : Schema) (t : EntityType) (key : PropertyKey) : Bool :=
  (s.writeOnce.inherited? t key.name).isSome

/-! ### Search, groups, transformations -/

/-- The keys of the search index of exactly this type. -/
def searchableKeys (s : Schema) (t : EntityType) (index : String) : List PropertyKey :=
  (s.searchable.entryOf? t.name index).getD []

/-- The key is in the search index of exactly this type. -/
def isSearchable (s : Schema) (t : EntityType) (index : String) (key : PropertyKey) : Bool :=
  (s.searchableKeys t index).contains key

/-- The group of exactly this type. -/
def group? (s : Schema) (t : EntityType) (key : PropertyKey) : Option PropertyGroup :=
  s.groups.entryOf? t.name key.name

/-- Appends the transformations that are not there yet. -/
def addTransformations (fs more : List Transformation) : List Transformation :=
  more.foldl (fun fs f => if fs.any (·.name = f.name) then fs else fs ++ [f]) fs

/-- The transformations of a new node, each once, those of the type itself first. -/
def transformationsOf (s : Schema) (t : EntityType) : List Transformation :=
  t.normalizedChain.foldl
    (fun fs name => addTransformations fs ((s.transformations.get? name).getD [])) []

/-- The schema and its locks as messages show them. -/
def outline (s : Schema) (locks : LockTable) : String :=
  Outline.record "MetadataRegistry"
    [("types", toString s.typeCount), ("relations", toString s.relationCount),
      ("validators", toString s.validators.length), ("converters", toString s.converters.length),
      ("uniqueness", locks.outline)]

end EntityGraph.Schema
