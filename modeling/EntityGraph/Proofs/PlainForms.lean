import EntityGraph.Proofs.Tables
import EntityGraph.Value.Plain

/-!
Values that are written as plain JSON and read again. An infinity or a NaN comes back as null, at
whatever depth it stands. Everything else comes back as it was: integers up to both ends of their
range, floating-point numbers bit by bit, whole ones and negative zero too, items in their order and
fields under their names.

Main statements: `ofPlain_toPlain` — what comes back; `plain_and_back` — so it is the value itself
exactly if every number in it is finite.
-/

namespace EntityGraph

namespace Value

/-! ### Values inside values -/

/-- A value stands in another one at some depth, or is that value. -/
inductive Within (u : Value) : Value → Prop
  | self : Within u u
  | item {v : Value} {vs : List Value} (hv : v ∈ vs) (h : Within u v) : Within u (.array vs)
  | field {k : String} {v : Value} {fs : List (String × Value)} (hv : (k, v) ∈ fs)
    (h : Within u v) : Within u (.object fs)

/-- Every object in the value lists its fields by increasing name. -/
def Ordered (v : Value) : Prop := ∀ fs, Within (.object fs) v → Assoc.Ordered fs

/-- No number in the value is infinite or a NaN. -/
def Finite (v : Value) : Prop := ∀ x, Within (.float x) v → x.isFinite = true

mutual

/-- The value with null in place of each infinity and each NaN. -/
def finitePart : Value → Value
  | .float x => if x.isFinite then .float x else .null
  | .array vs => .array (finitePartItems vs)
  | .object fs => .object (finitePartFields fs)
  | v => v

/-- The items with null in place of each infinity and each NaN. -/
def finitePartItems : List Value → List Value
  | [] => []
  | v :: vs => finitePart v :: finitePartItems vs

/-- The fields with null in place of each infinity and each NaN. -/
def finitePartFields : List (String × Value) → List (String × Value)
  | [] => []
  | (k, v) :: fs => (k, finitePart v) :: finitePartFields fs

end

variable {u v : Value} {vs : List Value} {fs : List (String × Value)}

theorem within_array_iff : u.Within (.array vs) ↔ u = .array vs ∨ ∃ v ∈ vs, u.Within v := by
  constructor
  · rintro (_ | ⟨hv, h⟩)
    · exact Or.inl rfl
    · exact Or.inr ⟨_, hv, h⟩
  · rintro (rfl | ⟨v, hv, h⟩)
    · exact .self
    · exact .item hv h

theorem within_object_iff : u.Within (.object fs) ↔ u = .object fs ∨ ∃ r ∈ fs, u.Within r.2 := by
  constructor
  · rintro (_ | _ | ⟨hv, h⟩)
    · exact Or.inl rfl
    · exact Or.inr ⟨_, hv, h⟩
  · rintro (rfl | ⟨r, hr, h⟩)
    · exact .self
    · exact .field hr h

theorem within_float_iff {x : Binary64} : u.Within (.float x) ↔ u = .float x := by
  constructor
  · rintro ⟨⟩
    rfl
  · rintro rfl
    exact .self

theorem ordered_int (n : Int64) : Ordered (.int n) := by
  rintro gs ⟨⟩

theorem ordered_float (x : Binary64) : Ordered (.float x) := by
  simp [Ordered, within_float_iff]

/-- What is so of values of some kind in an array is so of those in each item. -/
theorem forall_within_array_iff {α : Type} {f : α → Value} {p : α → Prop}
    (hf : ∀ a, f a ≠ .array vs) :
    (∀ a, Within (f a) (.array vs) → p a) ↔ ∀ v ∈ vs, ∀ a, Within (f a) v → p a := by
  simp only [within_array_iff, hf, false_or]
  exact ⟨fun h v hv a ha => h a ⟨v, hv, ha⟩, fun h a ⟨v, hv, ha⟩ => h v hv a ha⟩

/-- What is so of values of some kind in an object is so of those in each field. -/
theorem forall_within_object_iff {α : Type} {f : α → Value} {p : α → Prop}
    (hf : ∀ a, f a ≠ .object fs) :
    (∀ a, Within (f a) (.object fs) → p a) ↔ ∀ r ∈ fs, ∀ a, Within (f a) r.2 → p a := by
  simp only [within_object_iff, hf, false_or]
  exact ⟨fun h r hr a ha => h a ⟨r, hr, ha⟩, fun h a ⟨r, hr, ha⟩ => h r hr a ha⟩

theorem ordered_array_iff : Ordered (.array vs) ↔ ∀ v ∈ vs, v.Ordered :=
  forall_within_array_iff (by simp)

theorem ordered_object_iff :
    Ordered (.object fs) ↔ Assoc.Ordered fs ∧ ∀ r ∈ fs, r.2.Ordered := by
  simp only [Ordered, within_object_iff, object.injEq]
  constructor
  · exact fun h => ⟨h fs (Or.inl rfl), fun r hr gs hgs => h gs (Or.inr ⟨r, hr, hgs⟩)⟩
  · rintro ⟨hfs, h⟩ gs (rfl | ⟨r, hr, hgs⟩)
    · exact hfs
    · exact h r hr gs hgs

theorem finite_array_iff : Finite (.array vs) ↔ ∀ v ∈ vs, v.Finite :=
  forall_within_array_iff (by simp)

theorem finite_object_iff : Finite (.object fs) ↔ ∀ r ∈ fs, r.2.Finite :=
  forall_within_object_iff (by simp)

theorem finite_float_iff (x : Binary64) : Finite (.float x) ↔ x.isFinite = true := by
  simp [Finite, within_float_iff]

theorem keys_finitePartFields (fs : List (String × Value)) :
    Assoc.keys (finitePartFields fs) = Assoc.keys fs := by
  induction fs with
  | nil => rfl
  | cons r fs ih => exact congrArg (r.1 :: ·) ih

theorem ordered_finitePartFields (h : Assoc.Ordered fs) : Assoc.Ordered (finitePartFields fs) :=
  h.of_keys_eq (keys_finitePartFields fs)

/-! ### What comes back -/

mutual

theorem ofPlain_toPlain : ∀ v : Value, v.Ordered → ofPlain (toPlain v) = v.finitePart
  | .null, _ => rfl
  | .bool _, _ => rfl
  | .int n, _ => by rw [toPlain, ofPlain, Integer64.ofInt?_eq_some_iff.2 rfl]; rfl
  | .float x, _ => by rw [toPlain, finitePart]; split <;> rfl
  | .string _, _ => rfl
  | .array vs, h => by
    rw [toPlain, ofPlain, finitePart, ofPlainItems_toPlainItems vs (ordered_array_iff.1 h)]
  | .object fs, h => by
    obtain ⟨hfs, hvalues⟩ := ordered_object_iff.1 h
    rw [toPlain, ofPlain, finitePart, ofPlainMembers_toPlainFields fs hvalues,
      (ordered_finitePartFields hfs).ofRows_eq]

theorem ofPlainItems_toPlainItems : ∀ vs : List Value, (∀ v ∈ vs, v.Ordered) →
    ofPlainItems (toPlainItems vs) = finitePartItems vs
  | [], _ => rfl
  | v :: vs, h => by
    obtain ⟨hv, hvs⟩ := List.forall_mem_cons.1 h
    rw [toPlainItems, ofPlainItems, finitePartItems, ofPlain_toPlain v hv,
      ofPlainItems_toPlainItems vs hvs]

theorem ofPlainMembers_toPlainFields : ∀ fs : List (String × Value), (∀ r ∈ fs, r.2.Ordered) →
    ofPlainMembers (toPlainFields fs) = finitePartFields fs
  | [], _ => rfl
  | (k, v) :: fs, h => by
    obtain ⟨hv, hfs⟩ := List.forall_mem_cons.1 h
    rw [toPlainFields, ofPlainMembers, finitePartFields, ofPlain_toPlain v hv,
      ofPlainMembers_toPlainFields fs hfs]

end

mutual

theorem finitePart_eq_self_iff : ∀ v : Value, v.finitePart = v ↔ v.Finite
  | .null | .bool _ | .int _ | .string _ => ⟨by rintro - x ⟨⟩, fun _ => rfl⟩
  | .float x => by
    rw [finite_float_iff, finitePart]
    split <;> simp_all
  | .array vs => by
    rw [finite_array_iff, ← finitePartItems_eq_self_iff vs, finitePart, array.injEq]
  | .object fs => by
    rw [finite_object_iff, ← finitePartFields_eq_self_iff fs, finitePart, object.injEq]

theorem finitePartItems_eq_self_iff : ∀ vs : List Value,
    finitePartItems vs = vs ↔ ∀ v ∈ vs, v.Finite
  | [] => by simp [finitePartItems]
  | v :: vs => by
    rw [finitePartItems, List.cons.injEq, List.forall_mem_cons, finitePart_eq_self_iff v,
      finitePartItems_eq_self_iff vs]

theorem finitePartFields_eq_self_iff : ∀ fs : List (String × Value),
    finitePartFields fs = fs ↔ ∀ r ∈ fs, r.2.Finite
  | [] => by simp [finitePartFields]
  | (k, v) :: fs => by
    rw [finitePartFields, List.cons.injEq, List.forall_mem_cons, Prod.mk.injEq,
      finitePart_eq_self_iff v, finitePartFields_eq_self_iff fs]
    simp

end

/-- A value that is written as plain JSON comes back with null in place of each infinity and each
NaN, and otherwise as it was. So it comes back unchanged exactly if every number in it is finite. -/
theorem plain_and_back (v : Value) (h : v.Ordered) :
    ofPlain (toPlain v) = v.finitePart ∧ (ofPlain (toPlain v) = v ↔ v.Finite) := by
  rw [ofPlain_toPlain v h]
  exact ⟨rfl, finitePart_eq_self_iff v⟩

/-- Measurements: the lowest integer, a whole number, and a negative zero beside a NaN and an
infinity. -/
def measured : Value :=
  .object [("count", .int Int64.minValue), ("high", .float ⟨0x3FF0000000000000⟩),
    ("low", .array [.float ⟨0x8000000000000000⟩, .float ⟨0x7FF8000000000000⟩,
      .object [("least", .float ⟨0xFFF0000000000000⟩)]])]

/-- The NaN and the infinity come back as null, and nothing else changes. -/
theorem plain_and_back_measured :
    measured.Ordered ∧
      ofPlain (toPlain measured) =
        .object [("count", .int Int64.minValue), ("high", .float ⟨0x3FF0000000000000⟩),
          ("low", .array [.float ⟨0x8000000000000000⟩, .null, .object [("least", .null)]])] ∧
      ofPlain (toPlain measured) ≠ measured := by
  have hordered : measured.Ordered := by
    have hnames : ["count", "high", "low"].Pairwise (· < ·) := by decide
    simpa [measured, ordered_object_iff, ordered_array_iff, ordered_int, ordered_float,
      Assoc.ordered_iff_keys, Assoc.keys] using hnames
  have hnan : Within (.float ⟨0x7FF8000000000000⟩) measured :=
    .field (.tail _ (.tail _ (.head _))) (.item (.tail _ (.head _)) .self)
  obtain ⟨hback, hsame⟩ := plain_and_back measured hordered
  refine ⟨hordered, hback.trans rfl, fun h => ?_⟩
  exact absurd (hsame.1 h _ hnan) (by decide)

end Value
end EntityGraph
