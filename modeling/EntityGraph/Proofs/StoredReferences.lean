import EntityGraph.Proofs.NotionRoundTrips

/-!
References that are read and written back. A reference is stored as the identity of a node. Who
reads it is shown the node by a notion, and who writes what was shown stores a reference again. Null
stands for no reference and for a node of which nothing is shown, so it is written back as null. Any
other reference to a node of the target type is written back as it was or not at all.

Main statements: `Notion.ofReference_eq_ok_iff` and `Notion.toReference_eq_ok_iff` — what is shown
of a reference and what is stored for it; `Notion.Shape.kept` — what is written back is the
reference that was read; `Notion.references_written_back` — for single references and for arrays of
them.
-/

namespace EntityGraph

theorem convertAll_eq_ok_iff {α β : Type} {f : α → Except Failure β} {items : List α}
    {out : List β} :
    convertAll f items = .ok out ↔ List.Forall₂ (fun a b => f a = .ok b) items out := by
  induction items generalizing out with
  | nil => cases out <;> simp [convertAll]
  | cons a as ih =>
    rw [convertAll, bind_eq_ok_iff]
    simp only [bind_eq_ok_iff, ih]
    cases out with
    | nil => simp [Pure.pure, Except.pure]
    | cons b bs => simp [Pure.pure, Except.pure]

/-- A node is given for an identity exactly if it is there and has it. -/
theorem Resolver.Over.require_eq_ok_iff {r : Resolver} {nodes : List Node} (hr : r.Over nodes)
    {id : NodeId} {node : Node} : r.require id = .ok node ↔ node ∈ nodes ∧ node.id = id := by
  refine ⟨fun h => ?_, fun ⟨hn, hid⟩ => hid ▸ hr.require_eq hn⟩
  rw [Resolver.require, hr.node?] at h
  cases hfind : nodes.find? (·.id = id) with
  | none => simp [hfind, Bind.bind, Except.bind] at h
  | some d =>
    obtain rfl : d = node := by
      simpa [hfind, Bind.bind, Except.bind, Pure.pure, Except.pure] using h
    exact ⟨List.mem_of_find?_eq_some hfind, by simpa using List.find?_some hfind⟩

namespace Notion
variable {r : Resolver} {nodes : List Node} {node : Node} {s v u : Value} {caller : Caller}

/-! ### What is shown of a reference, and what is stored for it -/

/-- No reference is null. -/
theorem isNull_of_toValue {id : NodeId} (h : id.toValue = .ok s) : s.isNull = false := by
  cases s with
  | null => cases toValue_eq_ok_iff.1 h
  | bool | int | float | string | array | object => rfl

/-- Null is shown of null, and of a reference the node that it leads to. -/
theorem ofReference_eq_ok_iff (hr : r.Over nodes) {n : Notion} :
    n.ofReference caller r s = .ok v ↔
      s = .null ∧ v = .null ∨
        ∃ node ∈ nodes, node.id.toValue = .ok s ∧ n.get caller node = .ok v := by
  rw [ofReference]
  by_cases hnull : s.isNull = true
  · rw [if_pos hnull]
    obtain rfl := Value.isNull_iff.1 hnull
    refine ⟨fun h => Or.inl ⟨rfl, (Except.ok.inj h).symm⟩, ?_⟩
    rintro (⟨-, rfl⟩ | ⟨node, -, hid, -⟩)
    · rfl
    · cases isNull_of_toValue hid
  · rw [if_neg hnull]
    have hne : s ≠ .null := fun h => hnull (Value.isNull_iff.2 h)
    cases hid : storedId? s with
    | none => simp [hne, toValue_eq_ok_iff, hid]
    | some id =>
      simp only [bind_eq_ok_iff, hr.require_eq_ok_iff, hne, toValue_eq_ok_iff, hid, false_and,
        false_or, Option.some.injEq, and_assoc, eq_comm (a := id)]

/-- Null is stored for null, and for what is shown of a node its identity. -/
theorem toReference_eq_ok_iff {n : Notion} :
    n.toReference caller r v = .ok u ↔
      v = .null ∧ u = .null ∨
        v ≠ .null ∧ ∃ m, n.set caller r v = .ok m ∧ m.id.toValue = .ok u := by
  rw [toReference]
  by_cases hnull : v.isNull = true
  · rw [if_pos hnull]
    simp [Value.isNull_iff.1 hnull, eq_comm]
  · rw [if_neg hnull]
    have hne : v ≠ .null := fun h => hnull (Value.isNull_iff.2 h)
    simp [bind_eq_ok_iff, hne]

namespace Shape
variable {shape : Shape} {target : Option EntityType} {m : Node} {reading writing : Caller}

/-- A node whose identity can be stored is shown, and shown as null only by a property that it does
not hold. -/
theorem get_of_toValue (shape : Shape) (target : Option EntityType) (caller : Caller)
    (hid : node.id.toValue = .ok s) :
    ∃ v, (shape.notion target).get caller node = .ok v ∧
      (v = .null ↔ ∃ key, shape = .property key ∧ node.propertyOrNull key.name = .null) := by
  rw [notion_eq]
  cases shape with
  | object =>
    have hshown : encodeWhole node = .ok (.object (node.properties.put idProperty s)) := by
      rw [encodeWhole, hid]
      rfl
    exact ⟨_, hshown, by simp⟩
  | property key => exact ⟨_, rfl, by simp⟩
  | propertySet keys => exact ⟨_, rfl, by simp [encodeKeys]⟩

theorem keys?_eq_none_iff : shape.keys? = none ↔ shape = .object := by
  cases shape <;> simp [keys?]

/-- Who means a node by what was shown of another one means this one, unless it is not of the target
type and shown by some of its properties only. -/
theorem kept (hr : r.Over nodes) (hn : node ∈ nodes)
    (ht : shape = .object ∨ target.all node.type.isSubtypeOf = true)
    (hget : (shape.notion target).get reading node = .ok v)
    (hset : (shape.notion target).set writing r v = .ok m) : m = node := by
  cases hkeys : shape.keys? with
  | some keys =>
    have ht : target.all node.type.isSubtypeOf = true :=
      ht.resolve_left fun h => by simp [h, keys?] at hkeys
    exact eq_of_filter hn ht ((set_shown_iff hr hkeys hget).1 hset).2
  | none =>
    obtain rfl := keys?_eq_none_iff.1 hkeys
    rw [notion_eq] at hget hset
    exact ((decodeById_shown_iff hr hn hget).1 hset).1

end Shape

/-! ### Writing back what was shown -/

/-- What is to become of a reference that was read as `v`. -/
def writtenBack (s v : Value) : Value := if v.isNull then .null else s

/-- A reference to some node leads to one of the type. -/
def LeadsTo (nodes : List Node) (t : EntityType) (s : Value) : Prop :=
  ∀ node ∈ nodes, node.id.toValue = .ok s → node.type.isSubtypeOf t = true

variable {shape : Shape} {t : EntityType}

/-- A reference that is written back is the one that was read, or null if null was read. -/
theorem Shape.eq_writtenBack (hr : r.Over nodes) (hs : shape = .object ∨ LeadsTo nodes t s)
    (hread : (shape.notion (some t)).ofReference caller r s = .ok v)
    (hback : (shape.notion (some t)).toReference caller r v = .ok u) : u = writtenBack s v := by
  rw [writtenBack]
  rcases toReference_eq_ok_iff.1 hback with ⟨rfl, rfl⟩ | ⟨hne, m, hset, hm⟩
  · rfl
  · rw [if_neg fun h => hne (Value.isNull_iff.1 h)]
    rcases (ofReference_eq_ok_iff hr).1 hread with ⟨-, hnull⟩ | ⟨node, hn, hid, hget⟩
    · exact absurd hnull hne
    · obtain rfl : m = node := kept hr hn (hs.imp_right fun hs => hs node hn hid) hget hset
      exact Except.ok.inj (hm.symm.trans hid)

/-- Null is read of null, and of a reference to a node that is shown by a property which it does not
hold. -/
theorem Shape.ofReference_eq_null_iff (hr : r.Over nodes) (target : Option EntityType) :
    (shape.notion target).ofReference caller r s = .ok .null ↔
      s = .null ∨ ∃ node ∈ nodes, node.id.toValue = .ok s ∧
        ∃ key, shape = .property key ∧ node.propertyOrNull key.name = .null := by
  rw [ofReference_eq_ok_iff hr]
  refine or_congr (and_iff_left rfl) (exists_congr fun node => and_congr_right fun _ =>
    and_congr_right fun hid => ?_)
  obtain ⟨v, hget, hnull⟩ := get_of_toValue shape target caller hid
  rw [hget, ← hnull, Except.ok.injEq]

/-- A reference that was not read as null is written back if the node is not shown by properties, or
if it holds some of them and is the only one to hold what it holds. -/
theorem Shape.writes_back_iff (hr : r.Over nodes) (hn : node ∈ nodes)
    (ht : node.type.isSubtypeOf t = true) (hid : node.id.toValue = .ok s) (hv : v ≠ .null)
    (hget : (shape.notion (some t)).get caller node = .ok v) :
    (shape.notion (some t)).toReference caller r v = .ok s ↔
      ∀ keys, shape.keys? = some keys → queryOf keys node.properties ≠ [] ∧
        nodes.filter (·.matchesAll (some t) (queryOf keys node.properties)) = [node] := by
  have hall : (some t).all node.type.isSubtypeOf = true := ht
  refine ⟨fun h keys hkeys => ?_, fun h => ?_⟩
  · rcases toReference_eq_ok_iff.1 h with ⟨hnull, -⟩ | ⟨-, m, hset, -⟩
    · exact absurd hnull hv
    · obtain rfl : m = node := kept hr hn (Or.inr hall) hget hset
      exact (set_shown_iff hr hkeys hget).1 hset
  · refine toReference_eq_ok_iff.2 (Or.inr ⟨hv, node, ?_, hid⟩)
    cases hkeys : shape.keys? with
    | some keys => exact (set_shown_iff hr hkeys hget).2 (h keys hkeys)
    | none =>
      obtain rfl := keys?_eq_none_iff.1 hkeys
      rw [notion_eq] at hget ⊢
      exact (decodeById_shown_iff hr hn hget).2 ⟨rfl, hall⟩

/-- The items of one list lead to those of another one, and these to what a function gives of both.
-/
theorem eq_zipWith_of_forall₂ {α β γ : Type} {f : α → β → γ} {p : α → β → Prop} {q : β → γ → Prop}
    {as : List α} {bs : List β} {cs : List γ} (hp : List.Forall₂ p as bs)
    (hq : List.Forall₂ q bs cs) (h : ∀ a ∈ as, ∀ b c, p a b → q b c → c = f a b) :
    cs = List.zipWith f as bs := by
  induction hp generalizing cs with
  | nil => cases hq; rfl
  | cons hab _ ih =>
    cases hq with
    | cons hbc hq =>
      obtain ⟨hfirst, hrest⟩ := List.forall_mem_cons.1 h
      rw [List.zipWith_cons_cons, hfirst _ _ hab hbc, ih hq hrest]

/-- The references of an array are read one by one. -/
theorem eachReference_eq_ok_iff {f : Value → Except Failure Value} {vs : List Value} :
    eachReference f (.array vs) = .ok u ↔
      ∃ us, u = .array us ∧ List.Forall₂ (fun v u => f v = .ok u) vs us := by
  rw [eachReference]
  cases hall : convertAll f vs with
  | error e => simp [← convertAll_eq_ok_iff, hall, Except.map]
  | ok us => simp [← convertAll_eq_ok_iff, hall, Except.map, eq_comm]

/-- A reference to a node of the target type that is read, and written back as it was read, is kept
or refused; only what is read as null is written back as null. That is so for null itself, and for a
node that is shown by one property and does not hold it. A node that is shown as a whole is kept
whatever its type. The references of an array are kept one by one, in their order. -/
theorem references_written_back (hr : r.Over nodes) (shape : Shape) (t : EntityType)
    (caller : Caller) :
    let one := (shape.unbound.bind t).entityConverter caller
    let many := (shape.unbound.bind t).collectionConverter caller
    one.convert r .null = .ok .null ∧
    (∀ s, one.revert r s = .ok .null ↔
      s = .null ∨ ∃ node ∈ nodes, node.id.toValue = .ok s ∧
        ∃ key, shape = .property key ∧ node.propertyOrNull key.name = .null) ∧
    (∀ s v u, (shape = .object ∨ LeadsTo nodes t s) →
      one.revert r s = .ok v → one.convert r v = .ok u → u = writtenBack s v) ∧
    (∀ node ∈ nodes, ∀ s, node.type.isSubtypeOf t = true → node.id.toValue = .ok s →
      ∃ v, one.revert r s = .ok v ∧ (v ≠ .null → (one.convert r v = .ok s ↔
        ∀ keys, shape.keys? = some keys → queryOf keys node.properties ≠ [] ∧
          nodes.filter (·.matchesAll (some t) (queryOf keys node.properties)) = [node]))) ∧
    ∀ ss w x, (∀ s ∈ ss, shape = .object ∨ LeadsTo nodes t s) →
      many.revert r (.array ss) = .ok w → many.convert r w = .ok x →
        ∃ vs, w = .array vs ∧ List.Forall₂ (fun s v => one.revert r s = .ok v) ss vs ∧
          x = .array (List.zipWith writtenBack ss vs) := by
  refine ⟨rfl, fun s => Shape.ofReference_eq_null_iff hr (some t), fun s v u hs hread hback => ?_,
    fun node hn s ht hid => ?_, fun ss w x hss hread hback => ?_⟩
  · exact Shape.eq_writtenBack hr hs hread hback
  · obtain ⟨v, hget, -⟩ := Shape.get_of_toValue shape (some t) caller hid
    refine ⟨v, (ofReference_eq_ok_iff hr).2 (Or.inr ⟨node, hn, hid, hget⟩), fun hv => ?_⟩
    exact Shape.writes_back_iff hr hn ht hid hv hget
  · obtain ⟨vs, rfl, hvs⟩ := eachReference_eq_ok_iff.1 hread
    obtain ⟨us, rfl, hus⟩ := eachReference_eq_ok_iff.1 hback
    refine ⟨vs, rfl, hvs, congrArg Value.array ?_⟩
    exact eq_zipWith_of_forall₂ hvs hus fun s hs v u hv hu =>
      Shape.eq_writtenBack hr (hss s hs) hv hu

/-- Both of two people lead to a person, and what is written back for the two after their names were
read is what was read. -/
theorem references_written_back_people :
    let r := Resolver.ofNodes [bob, ann] none
    let one := ((Shape.property (.named "name")).unbound.bind (.root "Person")).entityConverter
      .superUser
    let many := ((Shape.property (.named "name")).unbound.bind (.root "Person")).collectionConverter
      .superUser
    r.Over [bob, ann] ∧ (∀ s, LeadsTo [bob, ann] (.root "Person") s) ∧
    (one.revert r (.int 2) = .ok (.string "ann") ∧ one.convert r (.string "ann") = .ok (.int 2)) ∧
    ∃ w, many.revert r (.array [.int 2, .null, .int 1]) = .ok w ∧
      ∀ x, many.convert r w = .ok x → x = .array [.int 2, .null, .int 1] := by
  intro r one many
  have hover : r.Over [bob, ann] := Resolver.over_ofNodes (by decide)
  have hleads : ∀ s, LeadsTo [bob, ann] (.root "Person") s := fun s node hn _ => by
    rcases List.mem_pair.1 hn with rfl | rfl <;> decide
  obtain ⟨-, -, -, hone, hmany⟩ := references_written_back hover (.property (.named "name"))
    (.root "Person") .superUser
  have hread : one.revert r (.int 2) = .ok (.string "ann") := rfl
  obtain ⟨v, hv, hback⟩ := hone ann (by simp) (.int 2) (by decide) rfl
  obtain rfl : .string "ann" = v := Except.ok.inj (hread.symm.trans hv)
  refine ⟨hover, hleads, ⟨hread, (hback (by simp)).2 ?_⟩,
    .array [.string "ann", .null, .string "bob"], rfl, fun x hx => ?_⟩
  · rintro keys ⟨⟩
    exact ⟨List.cons_ne_nil _ _, rfl⟩
  · obtain ⟨vs, hvs, -, rfl⟩ := hmany [.int 2, .null, .int 1] _ x
      (fun s _ => Or.inr (hleads s)) rfl hx
    obtain rfl := Value.array.inj hvs
    rfl

/-- A shop that bears the name of a person. -/
def shop : Node := ⟨⟨3⟩, .root "Shop", [("name", .string "ann"), ("type", .string "Shop")]⟩

/-- A reference to a person who has no email is lost where people are shown by their emails; one to
a shop becomes a reference to a person where people are shown by their names. -/
theorem reference_changed :
    let r := Resolver.ofNodes [bob, ann, shop] none
    let byEmail := ((Shape.property (.named "email")).unbound.bind (.root "Person")).entityConverter
      .superUser
    let byName := ((Shape.property (.named "name")).unbound.bind (.root "Person")).entityConverter
      .superUser
    r.Over [bob, ann, shop] ∧
    (byEmail.revert r (.int 1) = .ok .null ∧ byEmail.convert r .null = .ok .null) ∧
    byName.revert r (.int 3) = .ok (.string "ann") ∧
      byName.convert r (.string "ann") = .ok (.int 2) :=
  ⟨Resolver.over_ofNodes (by decide), ⟨rfl, rfl⟩, rfl, rfl⟩

end Notion
end EntityGraph
