import EntityGraph.Proofs.Tables
import EntityGraph.Schema.Group

/-!
Properties that are shown and written as a group. In the value of a group null stands for a property
that is not set, and null alone for a node that has none of them; what the value does not mention is
left as it is.

Main statements: `property?_written` and `get?_shown` — what writing leaves under a key, and what is
shown of it; `group_laws` — what was read can be written back, what was written is read, the last
writing counts, and nothing changes outside the group or when writing fails.
-/

namespace EntityGraph

namespace Node

theorem property?_setProperty (node : Node) (key : String) (v : Value) (name : String) :
    (node.setProperty key v).property? name =
      if name = key then some v else node.property? name := Assoc.get?_put ..

theorem property?_removeProperty (node : Node) (key name : String) :
    (node.removeProperty key).property? name =
      if name = key then none else node.property? name := Assoc.get?_without ..

/-- What is shown of a property is kept as it was, unless it was null. -/
theorem kept_propertyOrNull {node : Node} {name : String} (h : node.property? name ≠ some .null) :
    (node.propertyOrNull name).kept = node.property? name := by
  rw [propertyOrNull]
  cases hv : node.property? name with
  | none => rfl
  | some v => exact Value.kept_of_ne_null fun hnull => h (hnull ▸ hv)

/-- Both are the same node, and hold the same value or none under every key. -/
structure Alike (a b : Node) : Prop where
  id : a.id = b.id
  type : a.type = b.type
  property? : ∀ name, a.property? name = b.property? name

end Node

namespace PropertyGroup
variable {keys : List PropertyKey} {fields : Properties} {node after : Node} {v : Value}

/-- The names of the properties of a group. -/
def names (keys : List PropertyKey) : List String := keys.map (·.name)

/-! ### What writing leaves -/

/-- What an object leaves under a key: what is kept of its entry, or what was there if it has none.
-/
def left (fields : Properties) (node : Node) (name : String) : Option Value :=
  (fields.get? name).elim (node.property? name) Value.kept

theorem property?_writeKey (fields : Properties) (node : Node) (key : PropertyKey) (name : String) :
    (writeKey fields node key).property? name =
      if name = key.name then left fields node name else node.property? name := by
  rw [writeKey]
  split
  · next hget => by_cases hname : name = key.name <;> simp [hname, left, hget]
  · next hget =>
    by_cases hname : name = key.name <;>
      simp [hname, left, hget, Node.property?_removeProperty, Value.kept_null]
  · next v hne hget =>
    by_cases hname : name = key.name <;>
      simp [hname, left, hget, Node.property?_setProperty, Value.kept_of_ne_null hne]

/-- A key may stand in a group more than once. -/
theorem property?_foldl_writeKey (fields : Properties) (keys : List PropertyKey) (node : Node)
    (name : String) :
    (keys.foldl (writeKey fields) node).property? name =
      if name ∈ names keys then left fields node name else node.property? name := by
  induction keys generalizing node with
  | nil => rfl
  | cons key keys ih =>
    rw [List.foldl_cons, ih]
    simp only [names, List.map_cons, List.mem_cons, left, property?_writeKey]
    cases fields.get? name <;> by_cases hname : name = key.name <;> simp [hname]

theorem property?_foldl_removeProperty (keys : List PropertyKey) (node : Node) (name : String) :
    (keys.foldl (fun n k => n.removeProperty k.name) node).property? name =
      if name ∈ names keys then none else node.property? name := by
  induction keys generalizing node with
  | nil => rfl
  | cons key keys ih =>
    rw [List.foldl_cons, ih, Node.property?_removeProperty]
    by_cases hname : name = key.name <;> simp [names, hname]

theorem id_foldl {f : Node → PropertyKey → Node}
    (hf : ∀ n k, (f n k).id = n.id ∧ (f n k).type = n.type) (keys : List PropertyKey)
    (node : Node) :
    (keys.foldl f node).id = node.id ∧ (keys.foldl f node).type = node.type := by
  induction keys generalizing node with
  | nil => exact ⟨rfl, rfl⟩
  | cons key keys ih => exact ⟨(ih _).1.trans (hf node key).1, (ih _).2.trans (hf node key).2⟩

theorem id_writeKey (fields : Properties) (node : Node) (key : PropertyKey) :
    (writeKey fields node key).id = node.id ∧ (writeKey fields node key).type = node.type := by
  rw [writeKey]
  split <;> exact ⟨rfl, rfl⟩

/-! ### Writing and reading a group -/

/-- An object is written if all its entries belong to the group. -/
theorem writeKeys_object_iff :
    writeKeys keys node (.object fields) = (.ok (), after) ↔
      (∀ name ∈ Assoc.keys fields, name ∈ names keys) ∧
        keys.foldl (writeKey fields) node = after := by
  have hall : (∀ name ∈ Assoc.keys fields, name ∈ names keys) ↔
      (Assoc.keys fields).find? (fun name => !keys.any (·.name = name)) = none := by
    simp [List.find?_eq_none, names]
  rw [hall, writeKeys]
  split
  · next name hname => simp [hname]
  · next hnone => simp [hnone]

theorem mem_names_of_written (h : writeKeys keys node (.object fields) = (.ok (), after))
    {name : String} {w : Value} (hw : fields.get? name = some w) : name ∈ names keys :=
  (writeKeys_object_iff.1 h).1 name (List.mem_map_of_mem (Assoc.mem_of_get? hw))

/-- What was written under a key is what the object leaves there. -/
theorem property?_written (h : writeKeys keys node (.object fields) = (.ok (), after))
    (name : String) : after.property? name = left fields node name := by
  obtain ⟨-, rfl⟩ := writeKeys_object_iff.1 h
  rw [property?_foldl_writeKey]
  split
  · rfl
  · next hname =>
    cases hw : fields.get? name with
    | none => rw [left, hw, Option.elim_none]
    | some w => exact absurd (mem_names_of_written h hw) hname

/-- Writing leaves the node what it is, and keeps what does not belong to the group. -/
theorem writeKeys_frame (keys : List PropertyKey) (node : Node) (v : Value) :
    (writeKeys keys node v).2.id = node.id ∧ (writeKeys keys node v).2.type = node.type ∧
      ∀ name ∉ names keys, (writeKeys keys node v).2.property? name = node.property? name := by
  cases v with
  | null =>
    have hid := id_foldl (f := fun n k => n.removeProperty k.name) (fun n k => ⟨rfl, rfl⟩) keys node
    refine ⟨hid.1, hid.2, fun name hname => ?_⟩
    exact (property?_foldl_removeProperty keys node name).trans (if_neg hname)
  | object fields =>
    rw [writeKeys]
    split
    · exact ⟨rfl, rfl, fun _ _ => rfl⟩
    · have hid := id_foldl (id_writeKey fields) keys node
      refine ⟨hid.1, hid.2, fun name hname => ?_⟩
      exact (property?_foldl_writeKey fields keys node name).trans (if_neg hname)
  | bool | int | float | string | array => exact ⟨rfl, rfl, fun _ _ => rfl⟩

/-- A writing that fails leaves the node as it was. -/
theorem eq_of_writeKeys_error {e : Failure} (h : writeKeys keys node v = (.error e, after)) :
    after = node := by
  cases v with
  | null => cases h
  | object fields =>
    rw [writeKeys] at h
    split at h
    · exact (Prod.mk.inj h).2.symm
    · cases h
  | bool | int | float | string | array => exact (Prod.mk.inj h).2.symm

theorem readKeys_eq_null_iff :
    readKeys keys node = .null ↔ ∀ name ∈ names keys, node.property? name = none := by
  simp [readKeys, names]

/-- A node that has some property of the group is shown as an object, with an entry for every key.
-/
theorem readKeys_of_ne_null (h : readKeys keys node ≠ .null) :
    ∃ fields : Properties, readKeys keys node = .object fields ∧ fields.Ordered ∧
      ∀ name, fields.get? name =
        if name ∈ names keys then some (node.propertyOrNull name) else none := by
  refine ⟨_, ?_, Assoc.ordered_ofRows _, node.get?_ofRows_propertyOrNull keys⟩
  rw [readKeys]
  split
  · next hall => exact absurd (if_pos hall) h
  · rfl

/-- What is read of a group, unless a property of it is null, can be written back and changes
nothing. -/
theorem write_readKeys (h : ∀ name ∈ names keys, node.property? name ≠ some .null) :
    ∃ after, writeKeys keys node (readKeys keys node) = (.ok (), after) ∧ after.Alike node := by
  by_cases hread : readKeys keys node = .null
  · obtain ⟨hid, htype, -⟩ := writeKeys_frame keys node .null
    refine ⟨_, by rw [hread, writeKeys], hid, htype, fun name => ?_⟩
    rw [writeKeys, property?_foldl_removeProperty]
    split
    · next hname => exact (readKeys_eq_null_iff.1 hread name hname).symm
    · rfl
  · obtain ⟨fields, hfields, -, hget⟩ := readKeys_of_ne_null hread
    have hwrite : writeKeys keys node (.object fields) =
        (.ok (), keys.foldl (writeKey fields) node) := by
      refine writeKeys_object_iff.2 ⟨fun name hname => ?_, rfl⟩
      rw [Assoc.mem_keys_iff, Assoc.has, hget] at hname
      by_contra hnot
      simp [hnot] at hname
    obtain ⟨hid, htype, -⟩ := writeKeys_frame keys node (.object fields)
    rw [hwrite] at hid htype
    refine ⟨_, hfields ▸ hwrite, hid, htype, fun name => ?_⟩
    rw [property?_written hwrite, left, hget]
    split
    · next hname => exact Node.kept_propertyOrNull (h name hname)
    · rfl

/-- An object that was written and has an entry for every key is read, or null if it holds nothing
but null. -/
theorem readKeys_written (hfields : fields.Ordered) (hfull : ∀ name ∈ names keys, fields.has name)
    (h : writeKeys keys node (.object fields) = (.ok (), after)) :
    readKeys keys after = if fields.values.all Value.isNull then .null else .object fields := by
  have hafter : ∀ name w, fields.get? name = some w → after.property? name = w.kept :=
    fun name w hw => by rw [property?_written h, left, hw, Option.elim_some]
  have hnull : readKeys keys after = .null ↔ fields.values.all Value.isNull = true := by
    rw [readKeys_eq_null_iff, List.all_eq_true]
    refine ⟨fun hunset w hw => ?_, fun hall name hname => ?_⟩
    · obtain ⟨name, hget⟩ := hfields.mem_values_iff.1 hw
      have hkept : w.kept = none :=
        (hafter name w hget).symm.trans (hunset name (mem_names_of_written h hget))
      by_contra hne
      rw [Value.kept, if_neg hne] at hkept
      cases hkept
    · obtain ⟨w, hget⟩ := (Assoc.has_eq_true_iff fields name).1 (hfull name hname)
      rw [hafter name w hget, Value.kept, if_pos (hall w (hfields.mem_values_iff.2 ⟨name, hget⟩))]
  split
  · next hall => exact hnull.2 hall
  · next hall =>
    obtain ⟨shown, hshown, hordered, hget⟩ := readKeys_of_ne_null fun h => hall (hnull.1 h)
    rw [hshown]
    refine congrArg Value.object (hordered.ext hfields fun name => ?_)
    rw [hget]
    cases hw : fields.get? name with
    | none =>
      exact if_neg fun hname => by simpa [Assoc.has, hw] using hfull name hname
    | some w =>
      rw [if_pos (mem_names_of_written h hw), Node.propertyOrNull, hafter name w hw,
        Value.getD_kept]

/-- An object that has an entry for every key leaves nothing of what was written before. -/
theorem writeKeys_writeKeys {second : Properties} (hfull : ∀ name ∈ names keys, second.has name)
    {between : Node} {r : Except Failure Unit} (hfirst : writeKeys keys node v = (r, between))
    (hsecond : writeKeys keys between (.object second) = (.ok (), after)) :
    ∃ direct, writeKeys keys node (.object second) = (.ok (), direct) ∧ after.Alike direct := by
  have hdirect : writeKeys keys node (.object second) =
      (.ok (), keys.foldl (writeKey second) node) :=
    writeKeys_object_iff.2 ⟨(writeKeys_object_iff.1 hsecond).1, rfl⟩
  have hone := writeKeys_frame keys node v
  have htwo := writeKeys_frame keys between (.object second)
  have hthree := writeKeys_frame keys node (.object second)
  rw [hfirst] at hone
  rw [hsecond] at htwo
  rw [hdirect] at hthree
  refine ⟨_, hdirect, htwo.1.trans (hone.1.trans hthree.1.symm),
    htwo.2.1.trans (hone.2.1.trans hthree.2.1.symm), fun name => ?_⟩
  rw [property?_written hsecond, property?_written hdirect, left, left]
  cases hw : second.get? name with
  | some w => rfl
  | none =>
    exact hone.2.2 name fun hname => by simpa [Assoc.has, hw] using hfull name hname

/-- What was read of a group can be written back and changes nothing, unless a property of it is
null. An object with an entry for every key is read as it was written, null standing for one of
nulls, and a second such object leaves nothing of it. A key that an object does not mention keeps
its value, and so does whatever is not in the group. If writing fails, the node is as it was. -/
theorem group_laws (keys : List PropertyKey) (node : Node) :
    ((∀ name ∈ names keys, node.property? name ≠ some .null) →
      ∃ after, writeKeys keys node (readKeys keys node) = (.ok (), after) ∧ after.Alike node) ∧
    (∀ (first : Properties) after, first.Ordered → (∀ name ∈ names keys, first.has name) →
      writeKeys keys node (.object first) = (.ok (), after) →
        readKeys keys after = (if first.values.all Value.isNull then .null else .object first) ∧
        ∀ (second : Properties) last, (∀ name ∈ names keys, second.has name) →
          writeKeys keys after (.object second) = (.ok (), last) →
            ∃ direct, writeKeys keys node (.object second) = (.ok (), direct) ∧
              last.Alike direct) ∧
    (∀ (part : Properties) after, writeKeys keys node (.object part) = (.ok (), after) →
      ∀ name, part.get? name = none → after.property? name = node.property? name) ∧
    (∀ v, (writeKeys keys node v).2.id = node.id ∧ (writeKeys keys node v).2.type = node.type ∧
      ∀ name ∉ names keys, (writeKeys keys node v).2.property? name = node.property? name) ∧
    ∀ v e after, writeKeys keys node v = (.error e, after) → after = node := by
  refine ⟨write_readKeys, fun first after hordered hfull hfirst => ⟨?_, ?_⟩,
    fun part after hpart name hname => ?_, writeKeys_frame keys node,
    fun v e after => eq_of_writeKeys_error⟩
  · exact readKeys_written hordered hfull hfirst
  · exact fun second last hsecond hlast => writeKeys_writeKeys hsecond hfirst hlast
  · rw [property?_written hpart, left, hname, Option.elim_none]

/-! ### An address -/

/-- Street and city, the street named twice. -/
def address : List PropertyKey := [.named "street", .named "city", .named "street"]

/-- Someone who lives in a street of no city. -/
def neighbour : Node := ⟨⟨1⟩, .root "Person", [("name", .string "eve"), ("street", .string "Long")]⟩

/-- The address is written back; an address without a street is read as it was written, and another
address takes its place; the name does not belong to it. -/
theorem group_laws_address :
    (∃ after, writeKeys address neighbour (readKeys address neighbour) = (.ok (), after) ∧
      after.Alike neighbour) ∧
    (∃ moved, writeKeys address neighbour
        (.object [("city", .string "Rome"), ("street", .null)]) = (.ok (), moved) ∧
      readKeys address moved = .object [("city", .string "Rome"), ("street", .null)] ∧
      ∃ last, writeKeys address moved (.object [("city", .null), ("street", .string "Main")]) =
          (.ok (), last) ∧
        ∃ direct, writeKeys address neighbour
            (.object [("city", .null), ("street", .string "Main")]) = (.ok (), direct) ∧
          last.Alike direct) ∧
    ∃ e after, writeKeys address neighbour (.object [("name", .string "ann")]) = (.error e, after) ∧
      after = neighbour := by
  obtain ⟨hback, hfull, -, -, herror⟩ := group_laws address neighbour
  refine ⟨hback (by simp [names, address, neighbour, Node.property?, Assoc.get?]), ⟨_, rfl, ?_⟩,
    _, _, rfl, herror (.object [("name", .string "ann")]) _ _ rfl⟩
  obtain ⟨hread, hover⟩ := hfull [("city", .string "Rome"), ("street", .null)] _
    (List.pairwise_pair.2 (by decide +kernel)) (by decide) rfl
  exact ⟨hread, _, rfl, hover _ _ (by decide) rfl⟩

end PropertyGroup
end EntityGraph
