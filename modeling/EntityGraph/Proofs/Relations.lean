import EntityGraph.Proofs.Declarations
import EntityGraph.Proofs.Tables

/-!
The relations of a type, looked up by property, listed, and looked up by target. The table of
relations is in the order of source and property, so that those of one source stand together: they
begin at the least key of the source and end at the first key of another, though its name may begin
with the same letters. The declaration of the nearest type of the chain hides those of its
ancestors for the same property.

Main statements: `Schema.relationsDeclaredOn_eq` — the scan finds just the rows of the source;
`SchemaDraft.relation_iff_listed` — a property is looked up where it is listed;
`SchemaDraft.between_is_nearest` — a lookup by target finds the nearest declaration, hidden or not.
-/

namespace EntityGraph

/-! ### The order of keys -/

namespace RelationKey

theorem lt_iff (a b : RelationKey) :
    a < b ↔ a.source < b.source ∨ a.source = b.source ∧ a.property < b.property := Iff.rfl

instance : IsStrictTotalOrder RelationKey (· < ·) where
  trichotomous := fun a b hab hba => by
    rw [lt_iff, not_or, not_and] at hab hba
    have hsource : a.source = b.source := le_antisymm (not_lt.1 hba.1) (not_lt.1 hab.1)
    have hproperty : a.property = b.property :=
      le_antisymm (not_lt.1 (hba.2 hsource.symm)) (not_lt.1 (hab.2 hsource))
    cases a
    cases b
    simp_all
  irrefl := fun a h => by
    rcases h with h | ⟨-, h⟩ <;> exact lt_irrefl _ h
  trans := fun a b c hab hbc => by
    rcases hab with hab | ⟨hab, hab'⟩ <;> rcases hbc with hbc | ⟨hbc, hbc'⟩
    · exact Or.inl (hab.trans hbc)
    · exact Or.inl (hbc ▸ hab)
    · exact Or.inl (hab ▸ hbc)
    · exact Or.inr ⟨hab.trans hbc, hab'.trans hbc'⟩

/-- The keys from the least of a source on are those whose source is not smaller. -/
theorem not_lt_least_iff (k : RelationKey) (source : String) :
    ¬ k < ⟨source, ""⟩ ↔ source ≤ k.source := by
  have hempty : ¬ k.property < "" := fun h => List.not_lt_nil _ (String.lt_iff_toList_lt.1 h)
  rw [lt_iff, not_or, not_lt]
  exact ⟨And.left, fun h => ⟨h, fun h' => hempty h'.2⟩⟩

end RelationKey

/-! ### Scanning a part of a table -/

/-- A scan that ends where a property fails finds all that has it, if it never holds again. -/
theorem takeWhile_eq_filter {α : Type} {p : α → Bool} {l : List α}
    (h : l.Pairwise fun a b => p b = true → p a = true) : l.takeWhile p = l.filter p := by
  induction l with
  | nil => rfl
  | cons a l ih =>
    obtain ⟨ha, hl⟩ := List.pairwise_cons.1 h
    by_cases hp : p a = true
    · rw [List.takeWhile_cons_of_pos hp, List.filter_cons_of_pos hp, ih hl]
    · rw [List.takeWhile_cons_of_neg hp, List.filter_cons_of_neg hp, eq_comm,
        List.filter_eq_nil_iff]
      exact fun b hb hpb => hp (ha b hb hpb)

theorem filter_dropWhile {α : Type} {p q : α → Bool} (h : ∀ a, p a = true → ¬ q a = true)
    (l : List α) : (l.dropWhile p).filter q = l.filter q := by
  induction l with
  | nil => rfl
  | cons a l ih =>
    by_cases hp : p a = true
    · rw [List.dropWhile_cons_of_pos hp, ih, List.filter_cons_of_neg (h a hp)]
    · rw [List.dropWhile_cons_of_neg hp]

namespace Schema

/-- The table of relations is in order, and each relation stands under its own source and
property. -/
structure RelationsInPlace (s : Schema) : Prop where
  ordered : s.relations.Ordered
  own : ∀ row ∈ s.relations, row.1 = ⟨row.2.source, row.2.property⟩

theorem RelationsInPlace.register {s : Schema} (h : s.RelationsInPlace) (r : Registration) :
    (s.register r).RelationsInPlace := by
  cases r with
  | relation source property target relType direction cardinality notion =>
    refine ⟨h.ordered.put _ _, fun row hrow => ?_⟩
    rcases Assoc.eq_or_mem_of_mem_put hrow with rfl | hrow
    · rfl
    · exact h.own row hrow
  | _ => exact ⟨h.ordered, h.own⟩

theorem relationsInPlace_foldl (rs : List Registration) :
    (rs.foldl register {}).RelationsInPlace :=
  List.foldlRecOn rs register ⟨Assoc.ordered_nil, by simp⟩ fun _ h r _ => h.register r

/-- The scan finds just the rows of the source. -/
theorem relationsDeclaredOn_eq {s : Schema} (h : s.RelationsInPlace) (name : String) :
    s.relationsDeclaredOn name = Assoc.values (s.relations.filter (·.1.source = name)) := by
  have hfrom : ∀ row ∈ s.relations.startingAt ⟨name, ""⟩, name ≤ row.1.source := fun row hrow =>
    (RelationKey.not_lt_least_iff ..).1 (h.ordered.not_lt_of_mem_startingAt hrow)
  have hordered : Assoc.Ordered (s.relations.startingAt ⟨name, ""⟩) :=
    h.ordered.sublist (List.dropWhile_sublist _)
  -- No row of another source stands between the rows of this one.
  have htogether : (s.relations.startingAt ⟨name, ""⟩).Pairwise fun a b =>
      decide (b.1.source = name) = true → decide (a.1.source = name) = true := by
    refine hordered.imp_of_mem fun {a b} ha _ hab hb => ?_
    rw [decide_eq_true_eq] at hb ⊢
    have hle : a.1.source ≤ b.1.source := by
      rcases hab with h | ⟨h, -⟩
      · exact h.le
      · exact h.le
    exact le_antisymm (hb ▸ hle) (hfrom a ha)
  have hbefore : ∀ row : RelationKey × Relation, decide (row.1 < ⟨name, ""⟩) = true →
      ¬ decide (row.1.source = name) = true := by
    intro row hlt hsource
    rw [decide_eq_true_eq] at hlt hsource
    exact (RelationKey.not_lt_least_iff ..).2 hsource.ge hlt
  rw [relationsDeclaredOn, takeWhile_eq_filter htogether, Assoc.startingAt,
    filter_dropWhile hbefore]

/-- The type with this normalized name declares the relation. -/
def Declares (s : Schema) (name : String) (r : Relation) : Prop :=
  s.relations.get? ⟨name, r.property⟩ = some r

section InPlace
variable {s : Schema}

theorem RelationsInPlace.own_of_get? (h : s.RelationsInPlace) {name property : String}
    {r : Relation} (hr : s.relations.get? ⟨name, property⟩ = some r) :
    r.source = name ∧ r.property = property := by
  have hkey := h.own _ (Assoc.mem_of_get? hr)
  simp only [RelationKey.mk.injEq] at hkey
  exact ⟨hkey.1.symm, hkey.2.symm⟩

theorem mem_relationsDeclaredOn (h : s.RelationsInPlace) (name : String) (r : Relation) :
    r ∈ s.relationsDeclaredOn name ↔ s.Declares name r := by
  simp only [relationsDeclaredOn_eq h, Assoc.values, List.mem_map, List.mem_filter,
    decide_eq_true_eq]
  constructor
  · rintro ⟨⟨key, r⟩, ⟨hrow, rfl⟩, rfl⟩
    obtain rfl : key = ⟨r.source, r.property⟩ := h.own _ hrow
    exact h.ordered.get?_of_mem hrow
  · intro hr
    exact ⟨_, ⟨Assoc.mem_of_get? hr, rfl⟩, rfl⟩

/-- The relation that a type declares for a property is found in the scan. -/
theorem find?_relationsDeclaredOn (h : s.RelationsInPlace) (name property : String) :
    (s.relationsDeclaredOn name).find? (·.property = property) =
      s.relations.get? ⟨name, property⟩ := by
  cases hget : s.relations.get? ⟨name, property⟩ with
  | none =>
    simp only [List.find?_eq_none, decide_eq_true_eq]
    rintro r hr rfl
    rw [mem_relationsDeclaredOn h, Declares, hget] at hr
    cases hr
  | some r =>
    obtain ⟨-, rfl⟩ := h.own_of_get? hget
    cases hfind : (s.relationsDeclaredOn name).find? (·.property = r.property) with
    | none =>
      have hr : r ∈ s.relationsDeclaredOn name := (mem_relationsDeclaredOn h name r).2 hget
      exact absurd (decide_eq_true rfl) (List.find?_eq_none.1 hfind r hr)
    | some r' =>
      have hsame : r'.property = r.property := by simpa using List.find?_some hfind
      have hr' := (mem_relationsDeclaredOn h name r').1 (List.mem_of_find?_eq_some hfind)
      rw [Declares, hsame, hget] at hr'
      exact hr'.symm

/-- The scan lists relations by property. -/
theorem relationsDeclaredOn_pairwise (h : s.RelationsInPlace) (name : String) :
    (s.relationsDeclaredOn name).Pairwise (·.property < ·.property) := by
  rw [relationsDeclaredOn_eq h, Assoc.values, List.pairwise_map]
  refine (h.ordered.filter _).imp_of_mem fun {a b} ha hb hab => ?_
  rw [List.mem_filter, decide_eq_true_eq] at ha hb
  rcases hab with hsource | ⟨-, hproperty⟩
  · exact absurd (ha.2.trans hb.2.symm) hsource.ne
  · rwa [h.own a ha.1, h.own b hb.1] at hproperty

end InPlace

/-! ### What is visible on a type -/

theorem get?_addVisible (visible : Assoc String Relation) (rs : List Relation) (property : String) :
    (addVisible visible rs).get? property =
      (visible.get? property).or (rs.find? (·.property = property)) := by
  induction rs generalizing visible with
  | nil => simp [addVisible]
  | cons r rs ih =>
    rw [addVisible, List.foldl_cons, ← addVisible, ih, List.find?_cons]
    by_cases hr : r.property = property
    · subst hr
      cases hget : visible.get? r.property <;> simp [Assoc.has, hget, Assoc.get?_put]
    · cases visible.has r.property <;> simp [hr, Assoc.get?_put, Ne.symm hr]

/-- Relations by property, each under its own. -/
structure Listed (visible : Assoc String Relation) : Prop where
  ordered : visible.Ordered
  own : ∀ row ∈ visible, row.1 = row.2.property

theorem Listed.addVisible {visible : Assoc String Relation} (h : Listed visible)
    (rs : List Relation) : Listed (addVisible visible rs) := by
  refine List.foldlRecOn rs _ h fun visible h r _ => ?_
  split
  · exact h
  · refine ⟨h.ordered.put _ _, fun row hrow => ?_⟩
    rcases Assoc.eq_or_mem_of_mem_put hrow with rfl | hrow
    · rfl
    · exact h.own row hrow

theorem listed_visibleRelations (s : Schema) (type : EntityType) :
    Listed (s.visibleRelations type) :=
  List.foldlRecOn type.normalizedChain _ ⟨Assoc.ordered_nil, by simp⟩ fun _ h _ _ => h.addVisible _

/-- The nearest type of the chain that declares a relation for a property makes it visible. -/
theorem get?_visibleRelations {s : Schema} (h : s.RelationsInPlace) (type : EntityType)
    (property : String) : (s.visibleRelations type).get? property =
      type.normalizedChain.findSome? fun name => s.relations.get? ⟨name, property⟩ := by
  have hfold : ∀ (names : List String) (visible : Assoc String Relation),
      Assoc.get? (names.foldl (fun visible name => addVisible visible (s.relationsDeclaredOn name))
        visible) property = (visible.get? property).or
          (names.findSome? fun name => s.relations.get? ⟨name, property⟩) := by
    intro names
    induction names with
    | nil => simp
    | cons name names ih =>
      intro visible
      rw [List.foldl_cons, ih, get?_addVisible, find?_relationsDeclaredOn h, List.findSome?_cons]
      cases visible.get? property <;> cases s.relations.get? ⟨name, property⟩ <;> rfl
  rw [visibleRelations, hfold, Assoc.get?_nil, Option.none_or]

theorem Listed.get?_eq_some_iff {visible : Assoc String Relation} (h : Listed visible)
    (property : String) (r : Relation) :
    visible.get? property = some r ↔ r ∈ visible.values ∧ r.property = property := by
  rw [h.ordered.mem_values_iff]
  constructor
  · intro hr
    exact ⟨⟨property, hr⟩, (h.own _ (Assoc.mem_of_get? hr)).symm⟩
  · rintro ⟨⟨k, hk⟩, rfl⟩
    obtain rfl : k = r.property := h.own _ (Assoc.mem_of_get? hk)
    exact hk

theorem mem_visibleRelations {s : Schema} (h : s.RelationsInPlace) (type : EntityType)
    (r : Relation) : r ∈ (s.visibleRelations type).values ↔
      (type.normalizedChain.findSome? fun name => s.relations.get? ⟨name, r.property⟩) =
        some r := by
  rw [← get?_visibleRelations h, (s.listed_visibleRelations type).get?_eq_some_iff]
  exact (and_iff_left rfl).symm

theorem Listed.pairwise {visible : Assoc String Relation} (h : Listed visible) :
    visible.values.Pairwise (·.property < ·.property) := by
  rw [Assoc.values, List.pairwise_map]
  refine h.ordered.imp_of_mem fun {a b} ha hb hab => ?_
  rwa [h.own a ha, h.own b hb] at hab

end Schema

/-! ### What leads to a target -/

/-- The target has this name, or this plural. -/
def Relation.LeadsTo (r : Relation) (target : String) (plural : Bool) : Prop :=
  nameOf r.target plural = normalize target

instance (r : Relation) (target : String) (plural : Bool) : Decidable (r.LeadsTo target plural) :=
  inferInstanceAs (Decidable (_ = _))

namespace Schema
variable {s : Schema} {source : EntityType} {target : String} {plural : Bool}

theorem relationBetween?_eq_none_iff (h : s.RelationsInPlace) :
    s.relationBetween? source target plural = none ↔ ∀ name ∈ source.normalizedChain,
      ∀ r, s.Declares name r → ¬ r.LeadsTo target plural := by
  simp only [relationBetween?, List.findSome?_eq_none_iff, List.find?_eq_none, decide_eq_true_eq,
    mem_relationsDeclaredOn h, Relation.LeadsTo]

/-- The relation that is found: the first by property of the nearest type that has any. -/
theorem relationBetween?_eq_some (h : s.RelationsInPlace) {r : Relation}
    (hr : s.relationBetween? source target plural = some r) :
    r.LeadsTo target plural ∧ ∃ nearer name farther,
      source.normalizedChain = nearer ++ name :: farther ∧ s.Declares name r ∧
      (∀ n ∈ nearer, ∀ d, s.Declares n d → ¬ d.LeadsTo target plural) ∧
      ∀ d, s.Declares name d → d.LeadsTo target plural → ¬ d.property < r.property := by
  obtain ⟨nearer, name, farther, hchain, hfind, hnone⟩ := List.findSome?_eq_some_iff.1 hr
  obtain ⟨hleads, before, after, hsplit, hbefore⟩ := List.find?_eq_some_iff_append.1 hfind
  refine ⟨of_decide_eq_true hleads, nearer, name, farther, hchain,
    (mem_relationsDeclaredOn h name r).1 (List.mem_of_find?_eq_some hfind), ?_, ?_⟩
  · intro n hn d hd hwanted
    have hd' := (mem_relationsDeclaredOn h n d).2 hd
    exact List.find?_eq_none.1 (hnone n hn) d hd' (decide_eq_true hwanted)
  · intro d hd hwanted hlt
    have hordered := relationsDeclaredOn_pairwise h name
    have hd' := (mem_relationsDeclaredOn h name d).2 hd
    rw [hsplit] at hordered hd'
    obtain ⟨hafter, -⟩ := List.pairwise_cons.1 (List.pairwise_append.1 hordered).2.1
    rcases List.mem_append.1 hd' with hd' | hd'
    · have hother := hbefore d hd'
      rw [Bool.not_eq_true', decide_eq_false_iff_not] at hother
      exact hother hwanted
    · rcases List.mem_cons.1 hd' with rfl | hd'
      · exact lt_irrefl _ hlt
      · exact lt_asymm hlt (hafter d hd')

/-- A declaration is visible exactly if no nearer type declares a relation for its property. -/
theorem visible_iff (h : s.RelationsInPlace) {r : Relation} {nearer farther : List String}
    {name : String} (hchain : source.normalizedChain = nearer ++ name :: farther)
    (hr : s.Declares name r) (hfirst : ∀ n ∈ nearer, ¬ s.Declares n r) :
    r ∈ (s.visibleRelations source).values ↔
      ∀ n ∈ nearer, s.relations.get? ⟨n, r.property⟩ = none := by
  rw [mem_visibleRelations h, hchain, List.findSome?_append, List.findSome?_cons,
    show s.relations.get? ⟨name, r.property⟩ = some r from hr]
  constructor
  · intro hfound n hn
    cases hnear : nearer.findSome? fun n => s.relations.get? ⟨n, r.property⟩ with
    | none => exact List.findSome?_eq_none_iff.1 hnear n hn
    | some d =>
      rw [hnear, Option.some_or] at hfound
      obtain rfl := Option.some.inj hfound
      obtain ⟨n', hn', hget⟩ := List.exists_of_findSome?_eq_some hnear
      exact absurd hget (hfirst n' hn')
  · intro hnone
    rw [List.findSome?_eq_none_iff.2 hnone, Option.none_or]

end Schema

namespace SchemaDraft

theorem relationsInPlace (locks : LockTable) (rs : List Registration) :
    (ofRegistrations locks rs).schema.RelationsInPlace := by
  rw [schema_ofRegistrations]
  exact Schema.relationsInPlace_foldl rs

/-- The relations of a type are listed by property, strictly increasing; and a property is looked up
as the listed relation with its lowercase name, if there is one. -/
theorem relation_iff_listed (locks : LockTable) (rs : List Registration) (type : EntityType) :
    let s := (ofRegistrations locks rs).schema
    let listed := (s.visibleRelations type).values
    listed.Pairwise (·.property < ·.property) ∧
      ∀ property,
        (∀ r, s.relation? type property = some r ↔
          r ∈ listed ∧ r.property = lowercase property) ∧
        (s.relation? type property = none ↔ ∀ r ∈ listed, r.property ≠ lowercase property) := by
  intro s listed
  have hplace : s.RelationsInPlace := relationsInPlace locks rs
  have hlisted := s.listed_visibleRelations type
  have hfound : ∀ property r, s.relation? type property = some r ↔
      r ∈ listed ∧ r.property = lowercase property := by
    intro property r
    rw [Schema.relation?, ← Schema.get?_visibleRelations hplace, hlisted.get?_eq_some_iff]
  refine ⟨hlisted.pairwise, fun property => ⟨hfound property, ?_⟩⟩
  simp only [Option.eq_none_iff_forall_ne_some, ne_eq, hfound, not_and]

/-- A lookup by target finds the first relation by property of the nearest type of the chain that
declares one with this target, and none exactly if no type of the chain declares any; so it finds
one whenever one is visible. What it finds is visible exactly if no type that is nearer still
declares another relation for its property: such a type would hide it. -/
theorem between_is_nearest (locks : LockTable) (rs : List Registration) (source : EntityType)
    (target : String) (plural : Bool) :
    let s := (ofRegistrations locks rs).schema
    let found := s.relationBetween? source target plural
    let listed := (s.visibleRelations source).values
    (∀ r, found = some r → r.LeadsTo target plural ∧ ∃ nearer name farther,
        source.normalizedChain = nearer ++ name :: farther ∧ s.Declares name r ∧
        (∀ n ∈ nearer, ∀ d, s.Declares n d → ¬ d.LeadsTo target plural) ∧
        (∀ d, s.Declares name d → d.LeadsTo target plural → ¬ d.property < r.property) ∧
        (r ∈ listed ↔ ∀ n ∈ nearer, s.relations.get? ⟨n, r.property⟩ = none)) ∧
      (found = none ↔ ∀ name ∈ source.normalizedChain, ∀ d, s.Declares name d →
        ¬ d.LeadsTo target plural) ∧
      ((∃ r ∈ listed, r.LeadsTo target plural) → found.isSome = true) := by
  intro s found listed
  have hplace : s.RelationsInPlace := relationsInPlace locks rs
  have hnone : found = none ↔ ∀ name ∈ source.normalizedChain, ∀ d, s.Declares name d →
      ¬ d.LeadsTo target plural := Schema.relationBetween?_eq_none_iff hplace
  refine ⟨fun r hr => ?_, hnone, ?_⟩
  · obtain ⟨hleads, nearer, name, farther, hchain, hdeclares, hnearer, hfirst⟩ :=
      Schema.relationBetween?_eq_some hplace hr
    exact ⟨hleads, nearer, name, farther, hchain, hdeclares, hnearer, hfirst,
      Schema.visible_iff hplace hchain hdeclares fun n hn hd => hnearer n hn r hd hleads⟩
  · rintro ⟨r, hr, hleads⟩
    rw [Schema.mem_visibleRelations hplace] at hr
    obtain ⟨name, hname, hdeclares⟩ := List.exists_of_findSome?_eq_some hr
    rw [Option.isSome_iff_ne_none]
    exact fun hfound => hnone.1 hfound name hname r hdeclares hleads

/-- A schema in which nodes lie in folders, but files belong to persons instead. -/
def archive : List Registration :=
  [.relation (.root "Node") "parent" (.root "Folder") "CONTAINS" .incoming .manyToMany .object,
    .relation ⟨"File", ["Node"]⟩ "parent" (.root "Person") "OWNS" .incoming .manyToMany .object]

/-- A report, which is a file, belongs to persons: the relation is visible, and found. -/
theorem between_is_nearest_archive :
    let s := (ofRegistrations {} archive).schema
    let report : EntityType := ⟨"Report", ["File", "Node"]⟩
    (∃ r ∈ (s.visibleRelations report).values, r.LeadsTo "Persons" true) ∧
      ∃ r, s.relationBetween? report "Persons" true = some r ∧ r.LeadsTo "Persons" true := by
  intro s report
  obtain ⟨hfound, -, hvisible⟩ := between_is_nearest {} archive report "Persons" true
  have hany : (s.visibleRelations report).values.any (·.LeadsTo "Persons" true) = true := by
    decide +kernel
  have hlisted : ∃ r ∈ (s.visibleRelations report).values, r.LeadsTo "Persons" true := by
    simpa using hany
  obtain ⟨r, hr⟩ := Option.isSome_iff_exists.1 (hvisible hlisted)
  exact ⟨hlisted, r, hr, (hfound r hr).1⟩

/-- A lookup by target finds the folder of a file, though files have a relation of their own for the
property that hides it. -/
theorem between_hidden :
    let s := (ofRegistrations {} archive).schema
    let file : EntityType := ⟨"File", ["Node"]⟩
    ∃ r, s.relationBetween? file "Folder" false = some r ∧
      r ∉ (s.visibleRelations file).values ∧
      (s.relation? file r.property).map (·.target) = some "person" := by
  intro s file
  have hfolder : (s.relationBetween? file "Folder" false).map (fun r => (r.property, r.target)) =
      some ("parent", "folder") := by decide +kernel
  have hlisted : (s.visibleRelations file).values.map (·.target) = ["person"] := by decide +kernel
  have hperson : (s.relation? file "parent").map (·.target) = some "person" := by decide +kernel
  obtain ⟨r, hr, hfound⟩ := Option.map_eq_some_iff.1 hfolder
  obtain ⟨hproperty, htarget⟩ := Prod.mk.inj hfound
  refine ⟨r, hr, fun hmem => ?_, hproperty ▸ hperson⟩
  have hwrong : r.target ∈ ["person"] := hlisted ▸ List.mem_map_of_mem hmem
  rw [htarget] at hwrong
  exact absurd hwrong (by decide)

end SchemaDraft
end EntityGraph
