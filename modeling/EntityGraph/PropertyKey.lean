import EntityGraph.Text.Outline

/-!
Property keys. A key names a property and may remember the type that declared it; two keys are the
same key when their names agree.
-/

namespace EntityGraph

/-- The name of a property and the type that declared it. -/
structure PropertyKey where
  name : String
  declaringType : Option String
  deriving Inhabited

/-- Keys compare by name alone. -/
instance : BEq PropertyKey := ⟨fun a b => decide (a.name = b.name)⟩

instance : ToString PropertyKey := ⟨PropertyKey.name⟩

namespace PropertyKey

/-- A key without a declaring type. -/
def named (name : String) : PropertyKey := ⟨name, none⟩

/-- A key that `type` declares. -/
def declaredBy (type name : String) : PropertyKey := ⟨name, some type⟩

/-- The key as messages show it. -/
def outline (k : PropertyKey) : String :=
  Outline.record "PropertyKey"
    [("name", quoted k.name), ("declaring_type", Outline.option (k.declaringType.map quoted))]

@[simp] theorem named_name (name : String) : (named name).name = name := rfl

@[simp] theorem beq_iff_name_eq (a b : PropertyKey) : (a == b) = true ↔ a.name = b.name :=
  decide_eq_true_iff

end PropertyKey

/-- Appends each key that is not there yet. -/
def addKeys (keys more : List PropertyKey) : List PropertyKey :=
  more.foldl (fun ks k => if ks.contains k then ks else ks ++ [k]) keys

end EntityGraph
