import EntityGraph.Proofs.PlainForms

/-!
Equal values. Take away the sign of every zero in a value, at whatever depth it stands: two values
are equal exactly if the same is left of both and there is no NaN in it. All that equality has in
common with sameness follows from this, and so does the one law that fails: a value that holds a NaN
does not equal itself.

Main statements: `equals_iff` — which values are equal; `equality_laws` — equality is symmetric and
transitive, goes by variant, item by item and name by name, and does not see the sign of a zero.
-/

namespace EntityGraph

/-! ### Numbers -/

namespace Binary64

/-- The number, with positive zero in place of negative zero. -/
def unsignedZero (x : Binary64) : Binary64 := if x.isZero then zero false else x

theorem isNaN_of_isZero {x : Binary64} (h : x.isZero = true) : x.isNaN = false := by
  simp_all [isZero, isNaN]

theorem isZero_unsignedZero (x : Binary64) : x.unsignedZero.isZero = x.isZero := by
  rw [unsignedZero]
  split
  · next h => rw [h]; rfl
  · rfl

theorem isNaN_unsignedZero (x : Binary64) : x.unsignedZero.isNaN = x.isNaN := by
  rw [unsignedZero]
  split
  · next h => rw [isNaN_of_isZero h]; rfl
  · rfl

theorem equals_iff {x y : Binary64} :
    x.equals y = true ↔ x.isNaN = false ∧ x.unsignedZero = y.unsignedZero := by
  simp only [equals, Bool.and_eq_true, Bool.not_eq_true', Bool.or_eq_true, decide_eq_true_eq]
  constructor
  · rintro ⟨⟨hx, -⟩, rfl | ⟨hxzero, hyzero⟩⟩
    · exact ⟨hx, rfl⟩
    · exact ⟨hx, by rw [unsignedZero, unsignedZero, if_pos hxzero, if_pos hyzero]⟩
  · rintro ⟨hx, hsame⟩
    have hy : y.isNaN = false := by rw [← isNaN_unsignedZero, ← hsame, isNaN_unsignedZero, hx]
    have hzero : x.isZero = y.isZero := by
      rw [← isZero_unsignedZero, hsame, isZero_unsignedZero]
    refine ⟨⟨hx, hy⟩, ?_⟩
    -- what is the same is the two numbers, unless both are zeros
    rw [unsignedZero, unsignedZero, hzero] at hsame
    cases hyzero : y.isZero with
    | true => exact Or.inr ⟨hzero.trans hyzero, rfl⟩
    | false => exact Or.inl (by simpa [hyzero] using hsame)

end Binary64

namespace Value

/-! ### NaNs and zeros inside values -/

mutual

/-- There is a NaN in the value, at any depth. -/
def holdsNaN : Value → Bool
  | .float x => x.isNaN
  | .array vs => holdsNaNItems vs
  | .object fs => holdsNaNFields fs
  | _ => false

/-- There is a NaN in one of the items. -/
def holdsNaNItems : List Value → Bool
  | [] => false
  | v :: vs => holdsNaN v || holdsNaNItems vs

/-- There is a NaN in one of the fields. -/
def holdsNaNFields : List (String × Value) → Bool
  | [] => false
  | (_, v) :: fs => holdsNaN v || holdsNaNFields fs

end

mutual

/-- The value with positive zero in place of each negative zero. -/
def unsignedZeros : Value → Value
  | .float x => .float x.unsignedZero
  | .array vs => .array (unsignedZerosItems vs)
  | .object fs => .object (unsignedZerosFields fs)
  | v => v

/-- The items with positive zero in place of each negative zero. -/
def unsignedZerosItems : List Value → List Value
  | [] => []
  | v :: vs => unsignedZeros v :: unsignedZerosItems vs

/-- The fields with positive zero in place of each negative zero. -/
def unsignedZerosFields : List (String × Value) → List (String × Value)
  | [] => []
  | (k, v) :: fs => (k, unsignedZeros v) :: unsignedZerosFields fs

end

mutual

theorem holdsNaN_eq_false_iff : ∀ v : Value,
    v.holdsNaN = false ↔ ∀ x, Within (.float x) v → x.isNaN = false
  | .null | .bool _ | .int _ | .string _ => ⟨by rintro - x ⟨⟩, fun _ => rfl⟩
  | .float x => by simp [holdsNaN, within_float_iff]
  | .array vs => by
    rw [holdsNaN, holdsNaNItems_eq_false_iff vs, forall_within_array_iff fun _ => by simp]
  | .object fs => by
    rw [holdsNaN, holdsNaNFields_eq_false_iff fs, forall_within_object_iff fun _ => by simp]

theorem holdsNaNItems_eq_false_iff : ∀ vs : List Value,
    holdsNaNItems vs = false ↔ ∀ v ∈ vs, ∀ x, Within (.float x) v → x.isNaN = false
  | [] => by simp [holdsNaNItems]
  | v :: vs => by
    rw [holdsNaNItems, Bool.or_eq_false_iff, List.forall_mem_cons, holdsNaN_eq_false_iff v,
      holdsNaNItems_eq_false_iff vs]

theorem holdsNaNFields_eq_false_iff : ∀ fs : List (String × Value),
    holdsNaNFields fs = false ↔ ∀ r ∈ fs, ∀ x, Within (.float x) r.2 → x.isNaN = false
  | [] => by simp [holdsNaNFields]
  | (k, v) :: fs => by
    rw [holdsNaNFields, Bool.or_eq_false_iff, List.forall_mem_cons, holdsNaN_eq_false_iff v,
      holdsNaNFields_eq_false_iff fs]

end

mutual

theorem holdsNaN_unsignedZeros : ∀ v : Value, v.unsignedZeros.holdsNaN = v.holdsNaN
  | .null | .bool _ | .int _ | .string _ => rfl
  | .float x => x.isNaN_unsignedZero
  | .array vs => holdsNaNItems_unsignedZerosItems vs
  | .object fs => holdsNaNFields_unsignedZerosFields fs

theorem holdsNaNItems_unsignedZerosItems : ∀ vs : List Value,
    holdsNaNItems (unsignedZerosItems vs) = holdsNaNItems vs
  | [] => rfl
  | v :: vs => by
    rw [unsignedZerosItems, holdsNaNItems, holdsNaNItems, holdsNaN_unsignedZeros v,
      holdsNaNItems_unsignedZerosItems vs]

theorem holdsNaNFields_unsignedZerosFields : ∀ fs : List (String × Value),
    holdsNaNFields (unsignedZerosFields fs) = holdsNaNFields fs
  | [] => rfl
  | (k, v) :: fs => by
    rw [unsignedZerosFields, holdsNaNFields, holdsNaNFields, holdsNaN_unsignedZeros v,
      holdsNaNFields_unsignedZerosFields fs]

end

variable {u v w : Value} {us vs : List Value} {fs gs : List (String × Value)}

theorem holdsNaN_congr (h : u.unsignedZeros = v.unsignedZeros) : u.holdsNaN = v.holdsNaN := by
  rw [← holdsNaN_unsignedZeros u, h, holdsNaN_unsignedZeros]

theorem kind_unsignedZeros (v : Value) : v.unsignedZeros.kind = v.kind := by
  cases v <;> rfl

theorem keys_unsignedZerosFields (fs : List (String × Value)) :
    Assoc.keys (unsignedZerosFields fs) = Assoc.keys fs := by
  induction fs with
  | nil => rfl
  | cons r fs ih => exact congrArg (r.1 :: ·) ih

theorem get?_unsignedZerosFields (fs : List (String × Value)) (k : String) :
    Assoc.get? (unsignedZerosFields fs) k = (Assoc.get? fs k).map unsignedZeros := by
  induction fs with
  | nil => rfl
  | cons r fs ih =>
    rw [unsignedZerosFields, Assoc.get?_cons, Assoc.get?_cons, ih]
    split <;> rfl

/-- Rows in the order of their names are the same but for the signs of zeros if what stands under
each name is. -/
theorem unsignedZerosFields_eq_iff (hfs : Assoc.Ordered fs) (hgs : Assoc.Ordered gs) :
    unsignedZerosFields fs = unsignedZerosFields gs ↔
      ∀ k, (Assoc.get? fs k).map unsignedZeros = (Assoc.get? gs k).map unsignedZeros := by
  have hfs' := hfs.of_keys_eq (keys_unsignedZerosFields fs)
  have hgs' := hgs.of_keys_eq (keys_unsignedZerosFields gs)
  simp only [← get?_unsignedZerosFields]
  exact ⟨fun h k => by rw [h], hfs'.ext hgs'⟩

/-! ### Which values are equal -/

mutual

/-- Two values are equal if there is no NaN in the first and they are the same but for the signs of
zeros. -/
theorem equals_iff : ∀ {u v : Value},
    u.equals v = true ↔ u.holdsNaN = false ∧ u.unsignedZeros = v.unsignedZeros
  | .float x, v => by
    cases v <;> simp [equals, holdsNaN, unsignedZeros, Binary64.equals_iff]
  | .array us, v => by
    cases v <;> simp [equals, holdsNaN, unsignedZeros, equalsItems_iff]
  | .object fs, v => by
    cases v <;> simp [equals, holdsNaN, unsignedZeros, equalsFields_iff]
  | .null, v | .bool _, v | .int _, v | .string _, v => by
    cases v <;> simp [equals, holdsNaN, unsignedZeros]

theorem equalsItems_iff : ∀ {us vs : List Value}, equalsItems us vs = true ↔
    holdsNaNItems us = false ∧ unsignedZerosItems us = unsignedZerosItems vs
  | [], vs => by cases vs <;> simp [equalsItems, holdsNaNItems, unsignedZerosItems]
  | u :: us, vs => by
    cases vs with
    | nil => simp [equalsItems, unsignedZerosItems]
    | cons v vs =>
      simp only [equalsItems, holdsNaNItems, unsignedZerosItems, Bool.and_eq_true,
        Bool.or_eq_false_iff, List.cons.injEq, @equals_iff u, @equalsItems_iff us]
      exact and_and_and_comm

theorem equalsFields_iff : ∀ {fs gs : List (String × Value)}, equalsFields fs gs = true ↔
    holdsNaNFields fs = false ∧ unsignedZerosFields fs = unsignedZerosFields gs
  | [], gs => by cases gs <;> simp [equalsFields, holdsNaNFields, unsignedZerosFields]
  | (j, u) :: fs, gs => by
    cases gs with
    | nil => simp [equalsFields, unsignedZerosFields]
    | cons r gs =>
      simp only [equalsFields, holdsNaNFields, unsignedZerosFields, Bool.and_eq_true,
        Bool.or_eq_false_iff, List.cons.injEq, Prod.mk.injEq, decide_eq_true_eq,
        @equals_iff u, @equalsFields_iff fs]
      tauto

end

theorem equals_self (v : Value) : v.equals v = !v.holdsNaN := by
  rw [Bool.eq_iff_iff, equals_iff, and_iff_left rfl, Bool.not_eq_true']

theorem equals_congr (h : u.unsignedZeros = v.unsignedZeros) (w : Value) :
    u.equals w = v.equals w := by
  rw [Bool.eq_iff_iff, equals_iff, equals_iff, holdsNaN_congr h, h]

theorem equals_comm (u v : Value) : u.equals v = v.equals u := by
  have hswap : ∀ {a b : Value}, a.equals b = true → b.equals a = true := by
    intro a b h
    obtain ⟨hnan, hsame⟩ := equals_iff.1 h
    exact equals_iff.2 ⟨holdsNaN_congr hsame ▸ hnan, hsame.symm⟩
  exact Bool.eq_iff_iff.2 ⟨hswap, hswap⟩

theorem beq_comm (u v : Value) : (u == v) = (v == u) := equals_comm u v

theorem equals_trans (huv : u.equals v = true) (hvw : v.equals w = true) :
    u.equals w = true := by
  obtain ⟨hnan, hsame⟩ := equals_iff.1 huv
  exact equals_iff.2 ⟨hnan, hsame.trans (equals_iff.1 hvw).2⟩

theorem kind_eq_of_beq (h : (u == v) = true) : u.kind = v.kind := by
  rw [← kind_unsignedZeros u, (equals_iff.1 h).2, kind_unsignedZeros]

/-! ### Items and fields -/

theorem equalsItems_iff_forall₂ :
    equalsItems us vs = true ↔ List.Forall₂ (fun u v => (u == v) = true) us vs := by
  induction us generalizing vs with
  | nil => cases vs <;> simp [equalsItems]
  | cons u us ih =>
    cases vs with
    | nil => simp [equalsItems]
    | cons v vs =>
      rw [equalsItems, Bool.and_eq_true, ih, List.forall₂_cons]
      rfl

theorem array_beq_iff : (array us == array vs) = true ↔ us.length = vs.length ∧
    ∀ i (hu : i < us.length) (hv : i < vs.length), (us[i] == vs[i]) = true :=
  equalsItems_iff_forall₂.trans List.forall₂_iff_get

/-- Objects are compared row by row; as both list their names in order, that is to compare them name
by name. -/
theorem object_beq_iff (hfs : Assoc.Ordered fs) (hgs : Assoc.Ordered gs) :
    (object fs == object gs) = true ↔ (∀ k, k ∈ Assoc.keys fs ↔ k ∈ Assoc.keys gs) ∧
      ∀ k a b, Assoc.get? fs k = some a → Assoc.get? gs k = some b → (a == b) = true := by
  refine Iff.trans (@equalsFields_iff fs gs) ?_
  simp only [unsignedZerosFields_eq_iff hfs hgs, holdsNaNFields_eq_false_iff,
    ← holdsNaN_eq_false_iff, Assoc.mem_keys_iff]
  constructor
  · rintro ⟨hnan, hsame⟩
    refine ⟨fun k => ?_, fun k a b ha hb => ?_⟩
    · have hboth := congrArg Option.isSome (hsame k)
      rw [Option.isSome_map, Option.isSome_map] at hboth
      exact Bool.eq_iff_iff.1 hboth
    · have hab := hsame k
      rw [ha, hb] at hab
      exact equals_iff.2 ⟨hnan (k, a) (Assoc.mem_of_get? ha), Option.some.inj hab⟩
  · rintro ⟨hkeys, hvalues⟩
    simp only [Assoc.has_eq_true_iff] at hkeys
    refine ⟨?_, fun k => ?_⟩
    -- each value of the first object equals one of the second, so there is no NaN in it
    · rintro ⟨k, a⟩ hr
      have ha := hfs.get?_of_mem hr
      obtain ⟨b, hb⟩ := (hkeys k).1 ⟨a, ha⟩
      exact (equals_iff.1 (hvalues k a b ha hb)).1
    · have hboth := hkeys k
      cases ha : Assoc.get? fs k <;> cases hb : Assoc.get? gs k
      case some.some a b => exact congrArg some (equals_iff.1 (hvalues k a b ha hb)).2
      all_goals simp_all

/-! ### Laws of equality -/

/-- Equality of values is symmetric and transitive, and a value equals itself exactly if there is no
NaN in it. Values of different variants are never equal; arrays are equal item by item and objects
name by name. Values that differ only in the signs of zeros, at whatever depth, equal the same
values. -/
theorem equality_laws (u v w : Value) (us vs : List Value) {fs gs : List (String × Value)}
    (hfs : Assoc.Ordered fs) (hgs : Assoc.Ordered gs) :
    (u == v) = (v == u) ∧
      ((u == v) = true → (v == w) = true → (u == w) = true) ∧
      ((v == v) = true ↔ ∀ x, Within (.float x) v → x.isNaN = false) ∧
      (u.kind ≠ v.kind → (u == v) = false) ∧
      ((array us == array vs) = true ↔ us.length = vs.length ∧
        ∀ i (hu : i < us.length) (hv : i < vs.length), (us[i] == vs[i]) = true) ∧
      ((object fs == object gs) = true ↔ (∀ k, k ∈ Assoc.keys fs ↔ k ∈ Assoc.keys gs) ∧
        ∀ k a b, Assoc.get? fs k = some a → Assoc.get? gs k = some b → (a == b) = true) ∧
      (u.unsignedZeros = v.unsignedZeros → (u == w) = (v == w) ∧ (w == u) = (w == v)) := by
  have hself : (v == v) = true ↔ ∀ x, Within (.float x) v → x.isNaN = false := by
    rw [← holdsNaN_eq_false_iff, ← Bool.not_eq_true', ← equals_self]
    rfl
  refine ⟨beq_comm u v, equals_trans, hself, fun hkind => ?_, array_beq_iff,
    object_beq_iff hfs hgs, fun hsame => ?_⟩
  · exact Bool.eq_false_iff.2 fun h => hkind (kind_eq_of_beq h)
  · have huw : (u == w) = (v == w) := equals_congr hsame w
    exact ⟨huw, by rw [beq_comm w u, huw, beq_comm]⟩

/-- What a purchase costs, in parts and in total. -/
def charged : Properties :=
  [("parts", .array [.float ⟨0⟩, .int 3]), ("total", .float ⟨0x8000000000000000⟩)]

/-- The same amounts, with the other sign of each zero. -/
def refunded : Properties :=
  [("parts", .array [.float ⟨0x8000000000000000⟩, .int 3]), ("total", .float ⟨0⟩)]

/-- A score that is not a number. -/
def unrated : Value := .array [.object [("score", .float ⟨0x7FF8000000000000⟩)], .null]

/-- The amounts are different values that equal each other; the score does not equal itself. -/
theorem equality_laws_refunded :
    Assoc.Ordered charged ∧ Assoc.Ordered refunded ∧ charged ≠ refunded ∧
      (object charged == object refunded) = true ∧ (unrated == unrated) = false := by
  have hnames : ["parts", "total"].Pairwise (· < ·) := by decide
  have hcharged : Assoc.Ordered charged := (Assoc.ordered_iff_keys charged).2 hnames
  have hrefunded : Assoc.Ordered refunded := (Assoc.ordered_iff_keys refunded).2 hnames
  have hlaws := fun u v w => equality_laws u v w [] [] hcharged hrefunded
  obtain ⟨-, -, hself, -, -, -, hzeros⟩ :=
    hlaws (.object charged) (.object refunded) (.object refunded)
  obtain ⟨-, -, hunrated, -⟩ := hlaws unrated unrated unrated
  rw [← holdsNaN_eq_false_iff] at hself hunrated
  refine ⟨hcharged, hrefunded, by simp [charged, refunded], ?_, ?_⟩
  · exact (hzeros rfl).1.trans (hself.2 rfl)
  · exact Bool.eq_false_iff.2 fun h => absurd (hunrated.1 h) (by decide)

end Value
end EntityGraph
