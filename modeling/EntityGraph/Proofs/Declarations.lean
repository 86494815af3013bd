import EntityGraph.Schema.Lookup
import Mathlib.Data.List.Induction

/-!
What a schema answers about a key of a type is what its registrations declared: the last of those
about the nearest type of the chain that any of them is about. Types are told apart by their names
in whichever letters. What was declared of other types, of other keys or of other matters does not
show.

Main statements: `Schema.Tells.eq_last?` — what a table holds after any registrations;
`SchemaDraft.answers_are_declared` — the lookups that inherit, one by one.
-/

namespace EntityGraph

/-! ### Declarations -/

/-- What a registration says about a key of a type. -/
structure Declaration (α : Type) where
  type : String
  key : String
  value : α

namespace Declaration
variable {α : Type}

/-- The declaration is about this key of the type of this name. -/
def About (d : Declaration α) (name key : String) : Prop :=
  normalize name = normalize d.type ∧ key = d.key

instance (d : Declaration α) (name key : String) : Decidable (d.About name key) :=
  inferInstanceAs (Decidable (_ ∧ _))

/-- No declaration is about the key of the type. -/
def Silent (ds : List (Declaration α)) (name key : String) : Prop := ∀ d ∈ ds, ¬ d.About name key

/-- The last declaration about the key of the type says `a`. -/
def Latest (ds : List (Declaration α)) (name key : String) (a : α) : Prop :=
  ∃ earlier d later, ds = earlier ++ d :: later ∧ d.About name key ∧ d.value = a ∧
    Silent later name key

/-- What declarations come to, for a key of a type with ancestors. -/
inductive Answer (ds : List (Declaration α)) (type : EntityType) (key : String) : Option α → Prop
  /-- The last declaration counts, about the nearest type of the chain that has any. -/
  | found {nearer farther : List String} {name : String} {a : α}
      (chain : type.chain = nearer ++ name :: farther)
      (silent : ∀ n ∈ nearer, Silent ds n key) (last : Latest ds name key a) :
      Answer ds type key (some a)
  | absent (silent : ∀ name ∈ type.chain, Silent ds name key) : Answer ds type key none

/-- The value of the last declaration about the key of the type. -/
def last? (ds : List (Declaration α)) (name key : String) : Option α :=
  (ds.reverse.find? fun d => d.About name key).map (·.value)

theorem last?_concat (ds : List (Declaration α)) (d : Declaration α) (name key : String) :
    last? (ds ++ [d]) name key = if d.About name key then some d.value else last? ds name key := by
  by_cases h : d.About name key <;> simp [last?, h]

theorem last?_eq_none_iff (ds : List (Declaration α)) (name key : String) :
    last? ds name key = none ↔ Silent ds name key := by
  simp [last?, Silent]

theorem last?_isSome_iff (ds : List (Declaration α)) (name key : String) :
    (last? ds name key).isSome = true ↔ ∃ d ∈ ds, d.About name key := by
  simp [last?]

theorem last?_eq_some_iff (ds : List (Declaration α)) (name key : String) (a : α) :
    last? ds name key = some a ↔ Latest ds name key a := by
  simp only [last?, Option.map_eq_some_iff, List.find?_eq_some_iff_append, decide_eq_true_eq,
    List.reverse_eq_iff]
  constructor
  · rintro ⟨d, ⟨hd, later, earlier, rfl, hlater⟩, rfl⟩
    exact ⟨earlier.reverse, d, later.reverse, by simp, hd, rfl, by simpa [Silent] using hlater⟩
  · rintro ⟨earlier, d, later, rfl, hd, rfl, hlater⟩
    exact ⟨d, ⟨hd, later.reverse, earlier.reverse, by simp, by simpa [Silent] using hlater⟩, rfl⟩

/-- The first type of the chain that has a declaration gives the answer. -/
theorem findSome?_last?_iff (ds : List (Declaration α)) (type : EntityType) (key : String)
    (answer : Option α) :
    (type.chain.findSome? fun name => last? ds name key) = answer ↔ Answer ds type key answer := by
  cases answer with
  | none =>
    simp only [List.findSome?_eq_none_iff, last?_eq_none_iff]
    exact ⟨.absent, fun | .absent h => h⟩
  | some a =>
    simp only [List.findSome?_eq_some_iff, last?_eq_none_iff, last?_eq_some_iff]
    constructor
    · rintro ⟨nearer, name, farther, hchain, hlast, hsilent⟩
      exact .found hchain hsilent hlast
    · rintro ⟨hchain, hsilent, hlast⟩
      exact ⟨_, _, _, hchain, hlast, hsilent⟩

end Declaration

/-! ### What each registration declares -/

namespace Registration

/-- The kind of check that is declared for a key. -/
def check? : Registration → Option (Declaration ValidatorKind)
  | .validator t key kind _ => some ⟨t.name, key.name, kind⟩
  | _ => none

/-- The parameter that is declared for a check. -/
def checkParameter? : Registration → Option (Declaration Value)
  | .validator t key _ parameter => parameter.map (⟨t.name, key.name, ·⟩)
  | _ => none

/-- The kind of conversion that is declared for a key. -/
def conversion? : Registration → Option (Declaration ConverterKind)
  | .converter t key kind _ => some ⟨t.name, key.name, kind⟩
  | _ => none

/-- The parameter that is declared for a conversion. -/
def conversionParameter? : Registration → Option (Declaration Value)
  | .converter t key _ parameter => parameter.map (⟨t.name, key.name, ·⟩)
  | _ => none

/-- The relation that is declared for a property, in lowercase letters. -/
def relation? : Registration → Option (Declaration Relation)
  | .relation source property target relType direction cardinality notion =>
    some ⟨source.name, lowercase property, normalize source.name, lowercase property,
      normalize target.name, relType, direction, cardinality, notion.bind target⟩
  | _ => none

/-- The mark of a key as read-only. -/
def readOnly? : Registration → Option (Declaration Unit)
  | .readOnly t key => some ⟨t.name, key.name, ()⟩
  | _ => none

/-- The mark of a key as written once. -/
def writeOnce? : Registration → Option (Declaration Unit)
  | .writeOnce t key => some ⟨t.name, key.name, ()⟩
  | _ => none

end Registration

/-! ### Tables tell what was declared -/

namespace Schema
variable {α : Type}

/-- A lookup tells what registrations say: each overwrites what it is about and nothing else. -/
structure Tells (look : Schema → String → String → Option α)
    (declared : Registration → Option (Declaration α)) : Prop where
  new : ∀ name key, look {} name key = none
  register : ∀ s r name key, look (s.register r) name key =
    match declared r with
    | some d => if d.About name key then some d.value else look s name key
    | none => look s name key

/-- A table of types that sets the entry that is declared. -/
theorem tells_entryOf? {table : Schema → TypeTable α}
    {declared : Registration → Option (Declaration α)} (hnew : table {} = [])
    (hregister : ∀ s r, table (s.register r) = match declared r with
      | some d => (table s).setEntry d.type d.key d.value
      | none => table s) : Tells (fun s => (table s).entryOf?) declared where
  new name key := by simp [hnew, TypeTable.entryOf?]
  register s r name key := by
    rw [hregister]
    cases declared r with
    | none => rfl
    | some d => exact TypeTable.entryOf?_setEntry ..

theorem tells_validators : Tells (fun s => s.validators.entryOf?) Registration.check? :=
  tells_entryOf? rfl fun s r => by cases r <;> rfl

theorem tells_validationParameters :
    Tells (fun s => s.validationParameters.entryOf?) Registration.checkParameter? :=
  tells_entryOf? rfl fun s r => by
    cases r with
    | validator t key kind parameter => cases parameter <;> rfl
    | _ => rfl

theorem tells_converters : Tells (fun s => s.converters.entryOf?) Registration.conversion? :=
  tells_entryOf? rfl fun s r => by cases r <;> rfl

theorem tells_conversionParameters :
    Tells (fun s => s.conversionParameters.entryOf?) Registration.conversionParameter? :=
  tells_entryOf? rfl fun s r => by
    cases r with
    | converter t key kind parameter => cases parameter <;> rfl
    | _ => rfl

theorem tells_readOnly : Tells (fun s => s.readOnly.entryOf?) Registration.readOnly? :=
  tells_entryOf? rfl fun s r => by cases r <;> rfl

theorem tells_writeOnce : Tells (fun s => s.writeOnce.entryOf?) Registration.writeOnce? :=
  tells_entryOf? rfl fun s r => by cases r <;> rfl

theorem tells_relations :
    Tells (fun s name key => s.relations.get? ⟨normalize name, key⟩) Registration.relation? where
  new _ _ := rfl
  register s r name key := by
    cases r with
    | relation source property target relType direction cardinality notion =>
      simp only [Schema.register, addRelation, defineType, Assoc.get?_put, RelationKey.mk.injEq]
      rfl
    | _ => rfl

end Schema

namespace SchemaDraft

theorem schema_foldl (rs : List Registration) (d : SchemaDraft) :
    (rs.foldl register d).schema = rs.foldl Schema.register d.schema := by
  induction rs generalizing d with
  | nil => rfl
  | cons r rs ih => rw [List.foldl_cons, ih]; rfl

/-- The schema of a history; the locks of the start play no part in it. -/
theorem schema_ofRegistrations (locks : LockTable) (rs : List Registration) :
    (ofRegistrations locks rs).schema = rs.foldl Schema.register {} :=
  schema_foldl rs { locks }

end SchemaDraft

open Declaration

namespace Schema.Tells
variable {α : Type} {look : Schema → String → String → Option α}
  {declared : Registration → Option (Declaration α)}

theorem eq_last? (h : Tells look declared) (rs : List Registration) (name key : String) :
    look (rs.foldl Schema.register {}) name key = last? (rs.filterMap declared) name key := by
  induction rs using List.reverseRecOn with
  | nil => exact h.new name key
  | append_singleton rs r ih =>
    rw [List.foldl_append, List.foldl_cons, List.foldl_nil, h.register, List.filterMap_append, ih]
    cases hr : declared r with
    | none => simp [hr]
    | some d => simp [hr, last?_concat]

/-- What is found along the chain of a type is what was declared. -/
theorem answer_iff (h : Tells look declared) (rs : List Registration) (type : EntityType)
    (key : String) (answer : Option α) :
    (type.chain.findSome? fun name => look (rs.foldl Schema.register {}) name key) = answer ↔
      Answer (rs.filterMap declared) type key answer := by
  simp only [h.eq_last?]
  exact findSome?_last?_iff ..

end Schema.Tells

namespace TypeTable

theorem inherited?_eq {α : Type} (t : TypeTable α) (type : EntityType) (key : String) :
    t.inherited? type key = type.chain.findSome? fun name => t.entryOf? name key := by
  rw [inherited?, findInChain, List.map_findSome?]
  refine congrArg (type.chain.findSome? ·) (funext fun name => ?_)
  cases h : t.entryOf? name key <;> simp [h]

end TypeTable

namespace Schema

theorem relation?_eq (s : Schema) (type : EntityType) (property : String) :
    s.relation? type property =
      type.chain.findSome? fun name => s.relations.get? ⟨normalize name, lowercase property⟩ := by
  rw [relation?, EntityType.normalizedChain, List.findSome?_map]
  rfl

/-- A mark is found exactly if one was declared for a type of the chain. -/
theorem Tells.isSome_iff {look : Schema → String → String → Option Unit}
    {declared : Registration → Option (Declaration Unit)} (h : Tells look declared)
    (rs : List Registration) (type : EntityType) (key : String) :
    (type.chain.findSome? fun name => look (rs.foldl Schema.register {}) name key).isSome = true ↔
      ∃ d ∈ rs.filterMap declared, ∃ name ∈ type.chain, d.About name key := by
  simp only [List.findSome?_isSome_iff, h.eq_last?, last?_isSome_iff]
  exact ⟨fun ⟨name, hname, d, hd, habout⟩ => ⟨d, hd, name, hname, habout⟩,
    fun ⟨d, hd, name, hname, habout⟩ => ⟨name, hname, d, hd, habout⟩⟩

end Schema

namespace SchemaDraft

/-- The lookups that inherit answer what was declared last, about the nearest type of the chain of
which anything was declared; a mark holds if it was ever declared for a type of the chain. -/
theorem answers_are_declared (locks : LockTable) (rs : List Registration) (type : EntityType)
    (key : PropertyKey) (property : String) :
    let s := (ofRegistrations locks rs).schema
    (∀ answer, s.validatorKind? type key = answer ↔
        Answer (rs.filterMap Registration.check?) type key.name answer) ∧
      (∀ answer, s.validationParameter? type key = answer ↔
        Answer (rs.filterMap Registration.checkParameter?) type key.name answer) ∧
      (∀ answer, s.converterKind? type key = answer ↔
        Answer (rs.filterMap Registration.conversion?) type key.name answer) ∧
      (∀ answer, s.conversionParameter? type key = answer ↔
        Answer (rs.filterMap Registration.conversionParameter?) type key.name answer) ∧
      (∀ answer, s.relation? type property = answer ↔
        Answer (rs.filterMap Registration.relation?) type (lowercase property) answer) ∧
      (s.isReadOnly type key = true ↔ ∃ d ∈ rs.filterMap Registration.readOnly?,
        ∃ name ∈ type.chain, d.About name key.name) ∧
      (s.isWriteOnce type key = true ↔ ∃ d ∈ rs.filterMap Registration.writeOnce?,
        ∃ name ∈ type.chain, d.About name key.name) := by
  simp only [schema_ofRegistrations, Schema.validatorKind?, Schema.validationParameter?,
    Schema.converterKind?, Schema.conversionParameter?, Schema.isReadOnly, Schema.isWriteOnce,
    TypeTable.inherited?_eq, Schema.relation?_eq]
  exact ⟨Schema.tells_validators.answer_iff rs type key.name,
    Schema.tells_validationParameters.answer_iff rs type key.name,
    Schema.tells_converters.answer_iff rs type key.name,
    Schema.tells_conversionParameters.answer_iff rs type key.name,
    Schema.tells_relations.answer_iff rs type (lowercase property),
    Schema.tells_readOnly.isSome_iff rs type key.name,
    Schema.tells_writeOnce.isSome_iff rs type key.name⟩

end SchemaDraft
end EntityGraph
