import EntityGraph.Proofs.Intact
import EntityGraph.Proofs.IntegerConversion

/-!
Values that are stored. Whatever a caller gives, in whatever order and while others commit, what is
kept under a property came out of the conversion for its key and then passed the check for it.

Main statements: `Schema.admissible_of_passed` — what a conversion and a check leave of a value;
`Step.admits` and `Tracks.admits_apply` — operations and commits store nothing else;
`stored_values_admissible` — so nothing else is committed or in a working copy, at any moment.
-/

namespace EntityGraph

/-! ### Conversions and checks -/

namespace Converter

theorem toInteger_eq_ok {default : Option Int64} {given v : Value}
    (h : toInteger default given = .ok v) (hv : v.isNull = false) : ∃ n, v = .int n := by
  by_cases hgiven : given = .null
  · subst hgiven
    obtain rfl := Except.ok.inj h
    cases default with
    | none => simp [Value.isNull] at hv
    | some n => exact ⟨n, rfl⟩
  · obtain ⟨n, -, -, rfl⟩ := (toInteger_eq_ok_iff hgiven).1 h
    exact ⟨_, rfl⟩

theorem toBoolean_eq_ok {given v : Value} (h : toBoolean given = .ok v) (hv : v.isNull = false) :
    ∃ b, v = .bool b := by
  cases given with
  | null =>
    obtain rfl := Except.ok.inj h
    simp [Value.isNull] at hv
  | bool b => exact ⟨b, (Except.ok.inj h).symm⟩
  | int n => exact ⟨_, (Except.ok.inj h).symm⟩
  | string s =>
    simp only [toBoolean] at h
    split at h
    · exact ⟨true, (Except.ok.inj h).symm⟩
    · split at h
      · exact ⟨false, (Except.ok.inj h).symm⟩
      · simp at h
  | float | array | object => simp [toBoolean, refuse] at h

theorem toLowercase_eq_string {given : Value} {text : String}
    (h : toLowercase given = .string text) : ∃ original, text = EntityGraph.lowercase original := by
  cases given with
  | string s => exact ⟨s, (Value.string.inj h).symm⟩
  | null | bool | int | float | array | object => simp [toLowercase] at h

end Converter

namespace Validator
variable {c c' : ValidationContext} {node : Node} {key : PropertyKey} {v : Value}
  {parameter : Option Value}

theorem isEmpty_of_notEmpty
    (h : notEmpty.validate c node key v parameter = some (.ok (), c')) : v.isEmpty = false := by
  have hresult := (Prod.mk.inj (Option.some.inj h)).1
  rw [← Bool.not_eq_true]
  intro hempty
  simp [hempty, refuse] at hresult

theorem exists_of_matchesAny
    (h : matchesAny.validate c node key v parameter = some (.ok (), c')) (hv : v.isNull = false) :
    ∃ allowed, parameter = some (.array allowed) ∧ ∃ a ∈ allowed, (v == a) = true := by
  have hresult := (Prod.mk.inj (Option.some.inj h)).1
  simp only [hv, Bool.false_eq_true, if_false] at hresult
  split at hresult
  · simp [refuse] at hresult
  · next allowed hallowed =>
    obtain ⟨p, rfl, hp⟩ := Option.bind_eq_some_iff.1 hallowed
    cases p <;> simp only [Value.array?, Option.some.injEq, reduceCtorEq] at hp
    obtain rfl := hp
    refine ⟨_, rfl, ?_⟩
    split at hresult
    · next hcontains =>
      rw [List.contains_eq_any_beq, List.any_eq_true] at hcontains
      exact hcontains
    · simp [refuse] at hresult

end Validator

namespace Schema

/-- A value is of the form that its conversion gives and that its check lets through, as far as
these are built in. -/
structure Admissible (s : Schema) (type : EntityType) (key : PropertyKey) (v : Value) : Prop where
  integer : s.converterKind? type key = some .integer → ∃ n, v = .int n
  boolean : s.converterKind? type key = some .boolean → ∃ b, v = .bool b
  lowercase : s.converterKind? type key = some .lowercase →
    ∀ text, v = .string text → ∃ original, text = EntityGraph.lowercase original
  notEmpty : s.validatorKind? type key = some .notEmpty → v.isEmpty = false
  /-- The value equals one of those that the parameter lists. -/
  matchesAny : s.validatorKind? type key = some .matchesAny →
    ∃ allowed, s.validationParameter? type key = some (.array allowed) ∧
      ∃ a ∈ allowed, (v == a) = true

variable {s : Schema} {type : EntityType} {key : PropertyKey} {caller : Caller}

/-- What is registered for a key goes by its name. -/
theorem Admissible.congr {key' : PropertyKey} {v : Value} (h : s.Admissible type key v)
    (hname : key.name = key'.name) : s.Admissible type key' v := by
  obtain ⟨name, declaringType⟩ := key
  obtain rfl : name = key'.name := hname
  exact ⟨h.integer, h.boolean, h.lowercase, h.notEmpty, h.matchesAny⟩

theorem converter?_of_kind {kind : ConverterKind} (h : s.converterKind? type key = some kind) :
    s.converter? type key caller =
      s.buildConverter? caller (s.conversionParameter? type key) kind := by
  rw [converter?, h, Option.bind_some]

theorem validator?_of_kind {kind : ValidatorKind} (h : s.validatorKind? type key = some kind)
    (caller : Caller) :
    ∃ definingType, s.validator? type key caller = s.buildValidator? definingType caller kind := by
  obtain ⟨⟨name, kind'⟩, hfind, rfl⟩ := Option.map_eq_some_iff.1 h
  exact ⟨name, by rw [validator?, hfind, Option.bind_some]⟩

/-- What was converted and then passed its check is admissible. -/
theorem admissible_of_passed {r : Resolver} {given v : Value} {c c' : ValidationContext}
    {node : Node} (hconverted : s.convert r node.type key caller given = .ok v)
    (hpassed : s.validate c node key v = some (.ok (), c')) (hv : v.isNull = false) :
    s.Admissible node.type key v := by
  rw [convert] at hconverted
  rw [validate] at hpassed
  refine ⟨fun hkind => ?_, fun hkind => ?_, fun hkind text htext => ?_, fun hkind => ?_,
    fun hkind => ?_⟩
  · rw [converter?_of_kind hkind] at hconverted
    exact Converter.toInteger_eq_ok hconverted hv
  · rw [converter?_of_kind hkind] at hconverted
    exact Converter.toBoolean_eq_ok hconverted hv
  · rw [converter?_of_kind hkind] at hconverted
    exact Converter.toLowercase_eq_string ((Except.ok.inj hconverted).trans htext)
  · obtain ⟨definingType, hcheck⟩ := validator?_of_kind hkind c.caller
    rw [hcheck] at hpassed
    exact Validator.isEmpty_of_notEmpty hpassed
  · obtain ⟨definingType, hcheck⟩ := validator?_of_kind hkind c.caller
    rw [hcheck] at hpassed
    exact Validator.exists_of_matchesAny hpassed hv

end Schema

/-- Every property that a state stores, the type apart, is admissible for its key. -/
def GraphState.Admits (s : Schema) (g : GraphState) : Prop :=
  ∀ id type (key : PropertyKey) v, g.type? s id = some type → key.name ≠ typeProperty →
    g.value? id key.name = some v → s.Admissible type key v

/-! ### Operations and commits -/

namespace Transaction
variable {a b : Graph × Transaction}

theorem Step.admits (h : Step a b) (ha : a.2.working.Admits a.1.schema) :
    b.2.working.Admits a.1.schema := by
  intro id type key v htype hk hv
  obtain ⟨hsame, hor⟩ := h.value hk hv
  rw [GraphState.type?_congr hsame] at htype
  rcases hor with hold | ⟨node, k, g, hnode, hcheck, hadmits, hnull, rfl, hkey⟩
  · exact ha id type key v htype hk hold
  · obtain rfl := Option.some.inj ((GraphState.type?_of_node hnode).symm.trans htype)
    obtain ⟨given, hconverted⟩ := hadmits.converted
    obtain ⟨⟨r, c⟩, hvalidate, he⟩ := Option.map_eq_some_iff.1 hcheck
    obtain ⟨rfl, -⟩ := Prod.mk.inj he
    exact (Schema.admissible_of_passed hconverted hvalidate hnull).congr hkey

end Transaction

/-- A commit stores what is in the working copy or was committed, under the type that both have. -/
theorem Tracks.admits_apply {s : Schema} {start working g : GraphState} {c : ChangeSet}
    (h : Tracks start working c) (htypes : working.SameTypes g) (hw : working.Admits s)
    (hg : g.Admits s) : (g.apply working c).Admits s := by
  intro id type key v htype hk hv
  rcases h.node_apply (GraphState.has_of_value? hv) with ⟨-, hvalue⟩ | ⟨hid, hsame, hor⟩
  · rw [hvalue] at hv
    rw [GraphState.type?_congr (hvalue typeProperty)] at htype
    exact hw id type key v htype hk hv
  · rw [GraphState.type?_congr hsame] at htype
    rcases hor key.name with he | he <;> rw [he] at hv
    · rw [← GraphState.type?_congr (htypes id (GraphState.has_of_value? hv) hid)] at htype
      exact hw id type key v htype hk hv
    · exact hg id type key v htype hk hv

/-! ### Runs -/

namespace World
variable {L H : Type} {hooks : Set Nat} {schema : Schema} {locks : LockTable}
  {table : Assoc Nat (CommitHook L)} {host : H} {w : World L H}

/-- Nothing is ever stored that was not converted and checked: at each moment of a run, whatever
the committed state or a working copy holds under a key is of the form that the kinds registered for
the key ask for, as the type of the node inherits them. -/
theorem stored_values_admissible (run : Moves hooks (start schema locks table host) w)
    {g : GraphState} (hg : w.Holds g) {id : NodeId} {key : PropertyKey} {v : Value}
    (hk : key.name ≠ typeProperty) (hv : g.value? id key.name = some v) :
    ∃ type, g.type? schema id = some type ∧ schema.Admissible type key v := by
  have hsound := sound_start schema locks table host fun _ => {}
  have hintact := run.intact_of_start hg
  rw [(Moves.frame run hsound).1] at hintact
  obtain ⟨node, hnode⟩ := hintact.readable (GraphState.has_of_value? hv)
  refine ⟨node.type, GraphState.type?_of_node hnode, ?_⟩
  refine run.keeps (P := fun s g => g.Admits s) (fun hstep ha => hstep.admits ha)
    (fun htracks _ _ htypes => htracks.admits_apply htypes) hsound (fun g hg => ?_) g hg id
    node.type key v (GraphState.type?_of_node hnode) hk hv
  intro id type key v _ _ hv
  simp [holds_start hg, GraphState.value?] at hv

/-! ### A rated note -/

/-- Notes are rated with one of three numbers of stars and labelled in lowercase. -/
def ratedSchema : Schema :=
  { noteSchema with
    converters := [("note", [("done", .boolean), ("label", .lowercase), ("stars", .integer)])]
    validators := [("note", [("label", .notEmpty), ("stars", .matchesAny)])]
    validationParameters := [("note", [("stars", .array [.int 1, .int 2, .int 3])])] }

/-- A client commits a rated note and then rates it again, where one rating is refused. -/
def rated : World Unit Unit :=
  (perform silent
    [.begin 0 .superUser,
      .operate 0 (.createNode (.root "note")
        [("done", .string "yes"), ("label", .string "Urgent"), ("stars", .string " 2")]),
      .commit 0, .begin 0 .superUser,
      .operate 1 (.setProperty ⟨1⟩ (.named "stars") (.string "3")),
      .operate 1 (.setProperty ⟨1⟩ (.named "stars") (.string "4"))]
    (start ratedSchema {} [(0, {})] ())).get rfl

/-- The rating that is not committed yet is one of the three numbers. -/
theorem stored_values_admissible_rated :
    ∃ t v type, rated.transactions.get? 1 = some t ∧
      t.working.value? ⟨1⟩ "stars" = some v ∧ t.working.type? ratedSchema ⟨1⟩ = some type ∧
      ratedSchema.Admissible type (.named "stars") v ∧
      rated.graph.committed.value? ⟨1⟩ "label" = some (.string "urgent") := by
  have hsound := sound_start ratedSchema {} [(0, ({} : CommitHook Unit))] () fun _ => {}
  obtain ⟨log, hrun⟩ : ∃ log, Reaches {0} (start ratedSchema {} [(0, {})] ()) log rated := by
    refine perform_reaches lawful_silent hsound ?_ (Option.some_get rfl).symm
    simp [Action.allowed]
  have hopen : ∃ t, rated.transactions.get? 1 = some t ∧
      t.working.value? ⟨1⟩ (PropertyKey.named "stars").name = some (.int 3) := ⟨_, rfl, rfl⟩
  obtain ⟨t, ht, hstars⟩ := hopen
  obtain ⟨type, htype, hadmissible⟩ := stored_values_admissible (hrun.moves hsound)
    (Or.inr ⟨1, t, ht, rfl⟩) (by decide) hstars
  exact ⟨t, _, type, ht, hstars, htype, hadmissible, rfl⟩

end World
end EntityGraph
