import EntityGraph.Proofs.LowercaseTexts
import EntityGraph.Proofs.StoredValues

/-!
Converted values. Whatever a conversion that is built in gives is given again when it is converted
once more, and these conversions show what is stored as it is. So a value that is read and written
again is stored unchanged, whoever reads and writes it.

Main statement: `Schema.stored_unchanged` — a value that is read and written again is stored
unchanged, unless a factory built the conversion.
-/

namespace EntityGraph

namespace Converter

/-! ### Converting once more -/

theorem toInteger_idempotent {default : Option Int64} {source v : Value}
    (h : toInteger default source = .ok v) : toInteger default v = .ok v := by
  by_cases hsource : source = .null
  · subst hsource
    obtain rfl := Except.ok.inj h
    cases default <;> rfl
  · obtain ⟨n, -, -, rfl⟩ := (toInteger_eq_ok_iff hsource).1 h
    rfl

theorem toBoolean_idempotent {source v : Value} (h : toBoolean source = .ok v) :
    toBoolean v = .ok v := by
  cases hv : v.isNull with
  | true => rw [Value.isNull_iff.1 hv, toBoolean]
  | false =>
    obtain ⟨b, rfl⟩ := toBoolean_eq_ok h hv
    rfl

theorem toLowercase_idempotent (v : Value) : toLowercase (toLowercase v) = toLowercase v := by
  cases v with
  | string s => rw [toLowercase, toLowercase, lowercase_lowercase]
  | null | bool | int | float | array | object => rfl

/-! ### Writing what was read -/

/-- What is stored is stored unchanged when it is read and written again. -/
def StoresUnchanged (c : Converter) : Prop :=
  ∀ {r r' r'' : Resolver} {source v : Value}, c.convert r source = .ok v →
    ∃ shown, c.revert r' v = .ok shown ∧ c.convert r'' shown = .ok v

theorem storesUnchanged_onWrite {f : Value → Except Failure Value}
    (hf : ∀ {source v}, f source = .ok v → f v = .ok v) : (onWrite f).StoresUnchanged :=
  fun h => ⟨_, rfl, hf h⟩

theorem storesUnchanged_integer (parameter : Option Value) : (integer parameter).StoresUnchanged :=
  storesUnchanged_onWrite toInteger_idempotent

theorem storesUnchanged_boolean : boolean.StoresUnchanged :=
  storesUnchanged_onWrite toBoolean_idempotent

theorem storesUnchanged_lowercase : lowercase.StoresUnchanged :=
  storesUnchanged_onWrite fun h => by
    obtain rfl := Except.ok.inj h
    rw [toLowercase_idempotent]

end Converter

namespace Schema

/-- No factory builds a conversion for the key: if there is one, it is built in. -/
def ConvertsBuiltIn (s : Schema) (type : EntityType) (key : PropertyKey) : Prop :=
  ∀ name, s.converterKind? type key = some (.named name) →
    ∀ caller, s.converter? type key caller = none

/-- One conversion is at work for the key, whoever the caller is, or none. -/
theorem converter?_of_convertsBuiltIn {s : Schema} {type : EntityType} {key : PropertyKey}
    (h : s.ConvertsBuiltIn type key) :
    (∀ caller, s.converter? type key caller = none) ∨
      ∃ c : Converter, c.StoresUnchanged ∧ ∀ caller, s.converter? type key caller = some c := by
  cases hkind : s.converterKind? type key with
  | none => exact .inl fun caller => by rw [converter?, hkind, Option.bind_none]
  | some kind =>
    cases kind with
    | integer =>
      exact .inr ⟨_, Converter.storesUnchanged_integer _, fun _ => converter?_of_kind hkind⟩
    | boolean =>
      exact .inr ⟨_, Converter.storesUnchanged_boolean, fun _ => converter?_of_kind hkind⟩
    | lowercase =>
      exact .inr ⟨_, Converter.storesUnchanged_lowercase, fun _ => converter?_of_kind hkind⟩
    | named name => exact .inl (h name hkind)

/-- What is stored through a conversion that is built in, or through none, is stored unchanged when
it is read and written again; reader and writers may be different callers. -/
theorem stored_unchanged :
    ((∀ parameter, (Converter.integer parameter).StoresUnchanged) ∧
        Converter.boolean.StoresUnchanged ∧ Converter.lowercase.StoresUnchanged) ∧
      ∀ {s : Schema} {type : EntityType} {key : PropertyKey}, s.ConvertsBuiltIn type key →
        ∀ {r r' r'' : Resolver} {writer reader again : Caller} {source v : Value},
          s.convert r type key writer source = .ok v →
            ∃ shown, s.revert r' type key reader v = .ok shown ∧
              s.convert r'' type key again shown = .ok v := by
  refine ⟨⟨Converter.storesUnchanged_integer, Converter.storesUnchanged_boolean,
    Converter.storesUnchanged_lowercase⟩, ?_⟩
  intro s type key hbuiltIn r r' r'' writer reader again source v h
  simp only [convert, revert] at h ⊢
  obtain hnone | ⟨c, hc, hsome⟩ := converter?_of_convertsBuiltIn hbuiltIn
  · simp only [hnone]
    exact ⟨v, rfl, rfl⟩
  · simp only [hsome] at h ⊢
    exact hc h

/-- A label of two words, each with a sigma at its end, is kept with the final form of both. -/
theorem stored_unchanged_label :
    World.ratedSchema.ConvertsBuiltIn (.root "note") (.named "label") ∧
      World.ratedSchema.convert (.ofNodes [] none) (.root "note") (.named "label") .superUser
        (.string "ΟΔΟΣ ΣΑΣ") = .ok (.string "οδος σας") ∧
      ∃ shown, World.ratedSchema.revert (.ofNodes [] none) (.root "note") (.named "label")
          .superUser (.string "οδος σας") = .ok shown ∧
        World.ratedSchema.convert (.ofNodes [] none) (.root "note") (.named "label") .superUser
          shown = .ok (.string "οδος σας") := by
  have hkind : World.ratedSchema.converterKind? (.root "note") (.named "label") =
      some .lowercase := rfl
  have hbuiltIn : World.ratedSchema.ConvertsBuiltIn (.root "note") (.named "label") :=
    fun name hname => by simp [hkind] at hname
  have hword : EntityGraph.lowercase "ΟΔΟΣ ΣΑΣ" = "οδος σας" := by decide +kernel
  have hwritten : World.ratedSchema.convert (.ofNodes [] none) (.root "note") (.named "label")
      .superUser (.string "ΟΔΟΣ ΣΑΣ") = .ok (.string "οδος σας") := by
    rw [← hword]
    rfl
  exact ⟨hbuiltIn, hwritten, stored_unchanged.2 hbuiltIn hwritten⟩

end Schema
end EntityGraph
