import EntityGraph.Proofs.Moments
import EntityGraph.Proofs.UniqueChecks
import EntityGraph.Schema.Notion

/-!
Nodes that are shown and found again. A notion shows a node by its identity or by some of its
properties, and finds a node from what it shows. It may find none, or not know which of several is
meant, but it never takes a node for another.

Main statements: `Notion.Shape.set_shown_iff` — whom a node is taken for that is shown by some of
its properties; `Notion.set_of_get` — what is shown of a node leads to that node or to none, and to
that node if it is shown as a whole.
-/

namespace EntityGraph

/-! ### Access to some nodes -/

/-- The resolver gives access to these nodes, which have different identities. Nodes that match are
given in any order. -/
structure Resolver.Over (r : Resolver) (nodes : List Node) : Prop where
  distinct : (nodes.map (·.id)).Nodup
  node? : ∀ id, r.node? id = .ok (nodes.find? (·.id = id))
  find : ∀ type wanted, ∃ found, r.find type wanted = .ok found ∧
    found.Perm (nodes.filter (·.matchesAll type wanted))

theorem Resolver.over_ofNodes {nodes : List Node} (h : (nodes.map (·.id)).Nodup) :
    (Resolver.ofNodes nodes none).Over nodes :=
  ⟨h, fun _ => rfl, fun _ _ => ⟨_, rfl, .refl _⟩⟩

namespace GraphState
variable {s : Schema}

theorem id_of_typed {i : NodeId} {p : Properties} {node : Node} (h : s.typed? i p = some node) :
    node.id = i := by
  obtain ⟨type, -, rfl⟩ := Option.map_eq_some_iff.1 h
  rfl

theorem ids_typed_sublist (rows : Assoc NodeId Properties) :
    ((rows.filterMap fun (i, p) => s.typed? i p).map (·.id)).Sublist rows.keys := by
  induction rows with
  | nil => exact .refl _
  | cons row rows ih =>
    cases hnode : s.typed? row.1 row.2 with
    | none => simpa [List.filterMap_cons, hnode, Assoc.keys] using ih.cons row.1
    | some node =>
      simpa [List.filterMap_cons, hnode, Assoc.keys, id_of_typed hnode] using ih.cons_cons row.1

theorem find?_typed {rows : Assoc NodeId Properties} (h : rows.keys.Nodup) (id : NodeId) :
    (rows.filterMap fun (i, p) => s.typed? i p).find? (·.id = id) =
      (rows.get? id).bind (s.typed? id) := by
  induction rows with
  | nil => rfl
  | cons row rows ih =>
    obtain ⟨i, p⟩ := row
    obtain ⟨hnew, hrows⟩ := List.nodup_cons.1 (show (i :: Assoc.keys rows).Nodup from h)
    rw [List.filterMap_cons, Assoc.get?_cons]
    by_cases hi : i = id
    · subst hi
      rw [if_pos rfl, Option.bind_some]
      cases hnode : s.typed? i p with
      | none =>
        have hnone : Assoc.get? rows i = none := by
          rw [← Assoc.has_eq_false_iff, ← Bool.not_eq_true, ← Assoc.mem_keys_iff]
          exact hnew
        simp only [hnode]
        rw [ih hrows, hnone]
        rfl
      | some node => simp [hnode, id_of_typed hnode]
    · rw [if_neg hi]
      cases hnode : s.typed? i p with
      | none => simpa [hnode] using ih hrows
      | some node =>
        have hne : ¬ node.id = id := id_of_typed hnode ▸ hi
        simpa [hnode, hne] using ih hrows

/-- A state gives access to the nodes that can be seen. -/
theorem over_resolver {g : GraphState} (h : g.Tidy) (s : Schema) :
    (g.resolver s).Over (g.allNodes s) where
  distinct := (ids_typed_sublist g.nodes).nodup h.nodes.keys_nodup
  node? id := congrArg Except.ok (find?_typed h.nodes.keys_nodup id).symm
  find _ _ := ⟨_, rfl, .refl _⟩

end GraphState

/-- At each moment of a run, the graph gives access to the nodes that are committed. -/
theorem World.over_resolver {L H : Type} {hooks : Set Nat} {schema : Schema} {locks : LockTable}
    {table : Assoc Nat (CommitHook L)} {host : H} {w : World L H}
    (run : Moves hooks (start schema locks table host) w) :
    w.graph.resolver.Over (w.graph.committed.allNodes w.graph.schema) := by
  obtain ⟨origin, hs⟩ := run.sound (sound_start schema locks table host fun _ => {})
  exact GraphState.over_resolver hs.tidy w.graph.schema

/-! ### Finding the node that was shown -/

theorem Notion.single_eq_ok_iff {what : String} {nodes : List Node} {m : Node} :
    single what nodes = .ok m ↔ nodes = [m] := by
  match nodes with
  | [] => simp [single]
  | [n] => simp [single]
  | _ :: _ :: _ => simp [single]

/-- A value that equals another one equals itself. -/
theorem Properties.holds_of_holds {p q : Properties} {k : String} {v : Value}
    (hp : p.get? k = some v) (hq : q.holds k v = true) : p.holds k v = true := by
  rw [holds] at hq ⊢
  cases hu : q.get? k with
  | none => simp [hu] at hq
  | some u =>
    rw [hu] at hq
    rw [hp]
    have hvu : v.equals u = true := (Value.equals_comm v u).trans hq
    exact Value.equals_trans hvu hq

namespace Resolver.Over
variable {r : Resolver} {nodes : List Node} {node m : Node} {target : Option EntityType}

/-- A node is found by its identity. -/
theorem require_eq (hr : r.Over nodes) (hn : node ∈ nodes) : r.require node.id = .ok node := by
  have hfind : nodes.find? (·.id = node.id) = some node := by
    cases hf : nodes.find? (·.id = node.id) with
    | none => simpa using List.find?_eq_none.1 hf node hn
    | some d =>
      have hid : d.id = node.id := by simpa using List.find?_some hf
      rw [List.inj_on_of_nodup_map hr.distinct (List.mem_of_find?_eq_some hf) hn hid]
  rw [Resolver.require, hr.node?, hfind]
  rfl

/-- A node is found by some values if it is the only one that holds them. -/
theorem single_find_iff (hr : r.Over nodes) {what : String} {wanted : Properties} :
    (r.find target wanted >>= Notion.single what) = .ok m ↔
      nodes.filter (·.matchesAll target wanted) = [m] := by
  obtain ⟨found, hfound, hperm⟩ := hr.find target wanted
  rw [hfound]
  refine Notion.single_eq_ok_iff.trans ⟨fun h => ?_, fun h => ?_⟩
  · exact List.perm_singleton.1 (h ▸ hperm.symm)
  · exact List.perm_singleton.1 (h ▸ hperm)

end Resolver.Over

/-! ### What is shown of a node -/

theorem Assoc.mem_of_mem_ofRows {κ α : Type} [DecidableEq κ] [LT κ] [DecidableLT κ]
    {rows : List (κ × α)} {row : κ × α} (h : row ∈ ofRows rows) : row ∈ rows := by
  suffices hall : ∀ (rows : List (κ × α)) (t : Assoc κ α),
      row ∈ rows.foldl (fun t r => t.put r.1 r.2) t → row ∈ t ∨ row ∈ rows by
    simpa using hall rows [] h
  intro rows
  induction rows with
  | nil => exact fun _ h => Or.inl h
  | cons r rows ih =>
    intro t h
    rcases ih _ h with h | h
    · rcases eq_or_mem_of_mem_put h with rfl | h
      · exact Or.inr (List.mem_cons_self ..)
      · exact Or.inl h
    · exact Or.inr (List.mem_cons_of_mem _ h)

namespace Notion
variable {r : Resolver} {nodes : List Node} {node m : Node} {target : Option EntityType} {v : Value}

/-- Only what a node holds is asked for. -/
theorem property?_of_mem_query {keys : List PropertyKey} {row : String × Value}
    (hrow : row ∈ queryOf keys node.properties) : node.property? row.1 = some row.2 := by
  obtain ⟨k, -, hk⟩ := List.mem_filterMap.1 (Assoc.mem_of_mem_ofRows hrow)
  split at hk
  · cases hk
  · cases hk
  · next v _ hget =>
    obtain rfl := Option.some.inj hk
    exact hget

/-- If what a node holds is held by a single node, it is this one. -/
theorem eq_of_filter (hn : node ∈ nodes) (ht : target.all node.type.isSubtypeOf = true)
    {keys : List PropertyKey}
    (h : nodes.filter (·.matchesAll target (queryOf keys node.properties)) = [m]) : m = node := by
  have hm : m ∈ nodes.filter (·.matchesAll target (queryOf keys node.properties)) := by simp [h]
  obtain ⟨-, hall⟩ := Bool.and_eq_true_iff.1 (List.mem_filter.1 hm).2
  have hmatches : node.matchesAll target (queryOf keys node.properties) = true := by
    refine Bool.and_eq_true_iff.2 ⟨ht, List.all_eq_true.2 fun row hrow => ?_⟩
    exact Properties.holds_of_holds (property?_of_mem_query hrow) (List.all_eq_true.1 hall row hrow)
  have hnode : node ∈ nodes.filter (·.matchesAll target (queryOf keys node.properties)) :=
    List.mem_filter.2 ⟨hn, hmatches⟩
  exact (List.mem_singleton.1 (h ▸ hnode)).symm

/-- An identity is stored as the value that stores it. -/
theorem toValue_eq_ok_iff {id : NodeId} : id.toValue = .ok v ↔ storedId? v = some id := by
  have hstored : id.toValue = .ok v ↔ ∃ i, v = .int i ∧ i.toInt = id.raw := by
    simp only [← Integer64.ofInt?_eq_some_iff]
    rw [NodeId.toValue]
    cases Integer64.ofInt? id.raw <;> simp [eq_comm]
  rw [hstored]
  cases v with
  | int i =>
    rw [storedId?, NodeId.ofInt?, Option.ite_none_right_eq_some, Option.some.injEq]
    obtain ⟨raw⟩ := id
    simp only [Value.int.injEq, exists_eq_left', NodeId.mk.injEq]
    omega
  | null | bool | float | string | array | object => simp [storedId?]

theorem toValue_of_lt {id : NodeId} (h : id.raw < 2 ^ 63) : ∃ v, id.toValue = .ok v := by
  have hrange : Integer64.InRange id.raw := by
    rw [Integer64.InRange, Int64.toInt_minValue, Int64.toInt_maxValue]
    omega
  rw [NodeId.toValue, Integer64.ofInt?_of_inRange hrange]
  exact ⟨_, rfl⟩

/-- Whom a node is taken for that is shown as a whole, whatever it keeps under the name of the
identity: itself, if it is of the target type. -/
theorem decodeById_shown_iff (hr : r.Over nodes) (hn : node ∈ nodes)
    (h : encodeWhole node = .ok v) :
    decodeById target r v = .ok m ↔ m = node ∧ target.all node.type.isSubtypeOf = true := by
  obtain ⟨w, hid, h⟩ := bind_eq_ok_iff.1 h
  obtain rfl := Except.ok.inj h
  have hread : idOf? (.object (node.properties.put idProperty w)) = some node.id := by
    rw [idOf?, Assoc.get?_put, if_pos rfl, Option.bind_some, toValue_eq_ok_iff.1 hid]
  rw [decodeById, hread]
  simp only [hr.require_eq hn, Bind.bind, Except.bind]
  cases target with
  | none => simp [checkTarget, eq_comm]
  | some t => by_cases ht : node.type.isSubtypeOf t = true <;> simp [checkTarget, ht, eq_comm]

/-- A node that is shown as a whole is found. -/
theorem decodeById_encodeWhole (hr : r.Over nodes) (hn : node ∈ nodes)
    (ht : target.all node.type.isSubtypeOf = true) (h : encodeWhole node = .ok v) :
    decodeById target r v = .ok node := (decodeById_shown_iff hr hn h).2 ⟨rfl, ht⟩

theorem queryOf_singleton (key : PropertyKey) (p : Properties) :
    queryOf [key] p =
      if ((p.get? key.name).getD .null).isNull then []
      else [(key.name, (p.get? key.name).getD .null)] := by
  cases hp : p.get? key.name with
  | none => simp [queryOf, hp, Assoc.ofRows, Value.isNull]
  | some v => cases v <;> simp [queryOf, hp, Assoc.ofRows, Assoc.put, Value.isNull]

/-- Whom a node is taken for that is shown as one property. -/
theorem decodeByKey_shown_iff (hr : r.Over nodes) {key : PropertyKey} :
    decodeByKey key target r (node.propertyOrNull key.name) = .ok m ↔
      queryOf [key] node.properties ≠ [] ∧
        nodes.filter (·.matchesAll target (queryOf [key] node.properties)) = [m] := by
  rw [decodeByKey, queryOf_singleton, Node.propertyOrNull, Node.property?]
  split
  · simp
  · rw [hr.single_find_iff]
    simp

/-- What is asked for after a node was shown is what it holds: null stands for what it does not
hold, and is not asked for. -/
theorem queryOf_shown {keys : List PropertyKey} {fields : Properties}
    (h : encodeKeys keys node = .object fields) :
    queryOf keys fields = queryOf keys node.properties := by
  obtain rfl := Value.object.inj h
  refine congrArg Assoc.ofRows (List.filterMap_congr fun k hk => ?_)
  have hmem : k.name ∈ keys.map (·.name) := List.mem_map_of_mem hk
  rw [Node.get?_ofRows_propertyOrNull, if_pos hmem, Node.propertyOrNull, Node.property?]
  cases node.properties.get? k.name <;> rfl

/-- Whom a node is taken for that is shown by some keys. -/
theorem decodeByKeys_shown_iff (hr : r.Over nodes) {keys : List PropertyKey} :
    decodeByKeys keys target r (encodeKeys keys node) = .ok m ↔
      queryOf keys node.properties ≠ [] ∧
        nodes.filter (·.matchesAll target (queryOf keys node.properties)) = [m] := by
  obtain ⟨fields, hfields⟩ : ∃ fields, encodeKeys keys node = .object fields := ⟨_, rfl⟩
  rw [hfields, decodeByKeys, queryOf_shown hfields]
  split
  · next hempty => simp [List.isEmpty_iff.1 hempty]
  · next hempty =>
    rw [hr.single_find_iff]
    exact (and_iff_right fun hnil => hempty (List.isEmpty_iff.2 hnil)).symm

/-- The notions that are built in. -/
inductive Shape
  | object
  | property (key : PropertyKey)
  | propertySet (keys : List PropertyKey)

/-- The notion of a shape, for nodes of any type. -/
def Shape.unbound : Shape → Notion
  | .object => Notion.object
  | .property key => Notion.property key
  | .propertySet keys => Notion.propertySet keys

/-- The notion of a shape, bound to a type if one is given. -/
def Shape.notion (shape : Shape) : Option EntityType → Notion
  | some t => shape.unbound.bind t
  | none => shape.unbound

theorem Shape.notion_eq (shape : Shape) (target : Option EntityType) :
    shape.notion target = { shape.unbound with target := target } := by
  cases target with
  | some t => rfl
  | none => cases shape <;> rfl

/-- The keys that a node is shown by, if it is not shown as a whole. -/
def Shape.keys? : Shape → Option (List PropertyKey)
  | .object => none
  | .property key => some [key]
  | .propertySet keys => some keys

/-- Whom a node is taken for that is not shown as a whole: the only one that holds all that the node
holds under the keys. If the node holds nothing under them, it is taken for no one. -/
theorem Shape.set_shown_iff (hr : r.Over nodes) {shape : Shape} {keys : List PropertyKey}
    (hkeys : shape.keys? = some keys) {shown asking : Caller}
    (hget : (shape.notion target).get shown node = .ok v) :
    (shape.notion target).set asking r v = .ok m ↔
      queryOf keys node.properties ≠ [] ∧
        nodes.filter (·.matchesAll target (queryOf keys node.properties)) = [m] := by
  rw [Shape.notion_eq] at hget ⊢
  cases shape with
  | object => cases hkeys
  | property key =>
    obtain rfl := Option.some.inj hkeys
    obtain rfl := Except.ok.inj hget
    exact decodeByKey_shown_iff hr
  | propertySet keys' =>
    obtain rfl := Option.some.inj hkeys
    obtain rfl := Except.ok.inj hget
    exact decodeByKeys_shown_iff hr

/-- Whoever is shown a node, and whoever asks for it by what was shown, gets this node or none. A
node that was shown as a whole is always found, if its identity fits into an integer; another one is
found if it holds something under the keys that no other node holds as well. -/
theorem set_of_get (hr : r.Over nodes) (hn : node ∈ nodes)
    (ht : target.all node.type.isSubtypeOf = true) (shown asking : Caller) :
    (∀ (shape : Shape) v m, (shape.notion target).get shown node = .ok v →
      (shape.notion target).set asking r v = .ok m → m = node) ∧
    (node.id.raw < 2 ^ 63 → ∃ v, (Shape.object.notion target).get shown node = .ok v ∧
      (Shape.object.notion target).set asking r v = .ok node) ∧
    ∀ (shape : Shape) keys, shape.keys? = some keys →
      ∃ v, (shape.notion target).get shown node = .ok v ∧
        ((shape.notion target).set asking r v = .ok node ↔
          queryOf keys node.properties ≠ [] ∧
            nodes.filter (·.matchesAll target (queryOf keys node.properties)) = [node]) := by
  refine ⟨fun shape v m hget hset => ?_, fun hid => ?_, fun shape keys hkeys => ?_⟩
  · cases hkeys : shape.keys? with
    | some keys =>
      obtain ⟨-, hmatch⟩ := (Shape.set_shown_iff hr hkeys hget).1 hset
      exact eq_of_filter hn ht hmatch
    | none =>
      cases shape with
      | object =>
        rw [Shape.notion_eq] at hget hset
        have hfound := decodeById_encodeWhole hr hn ht hget
        exact Except.ok.inj (hset.symm.trans hfound)
      | property key => cases hkeys
      | propertySet keys => cases hkeys
  · obtain ⟨w, hw⟩ := toValue_of_lt hid
    have hshown : encodeWhole node = .ok (.object (node.properties.put idProperty w)) := by
      rw [encodeWhole, hw]
      rfl
    rw [Shape.notion_eq]
    exact ⟨_, hshown, decodeById_encodeWhole hr hn ht hshown⟩
  · obtain ⟨v, hget⟩ : ∃ v, (shape.notion target).get shown node = .ok v := by
      rw [Shape.notion_eq]
      cases shape with
      | object => cases hkeys
      | property key => exact ⟨_, rfl⟩
      | propertySet keys => exact ⟨_, rfl⟩
    exact ⟨v, hget, Shape.set_shown_iff hr hkeys hget⟩

/-! ### A person with an identity card -/

/-- A person who keeps a number of a card under the name of the identity. -/
def ann : Node :=
  ⟨⟨2⟩, .root "Person", [("id", .int 1), ("name", .string "ann"), ("type", .string "Person")]⟩

/-- A person whose identity is the number of the card. -/
def bob : Node :=
  ⟨⟨1⟩, .root "Person", [("name", .string "bob"), ("type", .string "Person")]⟩

/-- She is found by what is shown of her as a whole; who is found by her name is she; and as no one
else has her name, she is found by it. -/
theorem set_of_get_ann :
    (∃ v, (Shape.object.notion (some (.root "Person"))).get .superUser ann = .ok v ∧
      (Shape.object.notion (some (.root "Person"))).set .superUser (.ofNodes [bob, ann] none) v =
        .ok ann) ∧
    (∃ m, ((Shape.property (.named "name")).notion none).set .superUser
      (.ofNodes [bob, ann] none) (.string "ann") = .ok m ∧ m = ann) ∧
    ∃ v, ((Shape.propertySet [.named "name"]).notion none).get .superUser ann = .ok v ∧
      ((Shape.propertySet [.named "name"]).notion none).set .superUser
        (.ofNodes [bob, ann] none) v = .ok ann := by
  have hover : (Resolver.ofNodes [bob, ann] none).Over [bob, ann] :=
    Resolver.over_ofNodes (by decide)
  have hann : ann ∈ [bob, ann] := by simp
  have hbound : (some (EntityType.root "Person")).all ann.type.isSubtypeOf = true := by decide
  have hunbound : (none : Option EntityType).all ann.type.isSubtypeOf = true := rfl
  obtain ⟨m, hm⟩ : ∃ m, ((Shape.property (.named "name")).notion none).set .superUser
      (.ofNodes [bob, ann] none) (.string "ann") = .ok m := ⟨_, rfl⟩
  obtain ⟨hone, -, hset⟩ := set_of_get hover hann hunbound .superUser .superUser
  obtain ⟨v, hget, hiff⟩ := hset (.propertySet [.named "name"]) _ rfl
  refine ⟨(set_of_get hover hann hbound _ _).2.1 (by decide), ⟨m, hm, ?_⟩, v, hget, ?_⟩
  · exact hone (.property (.named "name")) _ m rfl hm
  · exact hiff.2 ⟨List.cons_ne_nil _ _, rfl⟩

end Notion
end EntityGraph
