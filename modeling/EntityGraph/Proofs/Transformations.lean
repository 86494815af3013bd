import EntityGraph.Proofs.Declarations
import EntityGraph.Proofs.FailedOperations
import EntityGraph.Proofs.Removals

/-!
Transformations of new nodes. They are registered for a type as often as one likes, and for several
types of a chain. A new node passes each of them once: those of its own type first, then those of
its ancestors, in the order in which they were registered. What they leave of the properties is
converted and stored, and nothing else is.

Main statements: `eachOnce_addTransformations` — adding transformations one after another leaves the
first of each name; `SchemaDraft.transformationsOf_eq` — which are added for a type;
`Transaction.value?_writeAll` — what writing the properties of a new node stores;
`SchemaDraft.transformed_once` — so each transformation is applied once, before anything is stored.
-/

namespace EntityGraph

/-! ### Each transformation once -/

/-- Of some transformations, in which one may occur again, the first of each name in the order in
which these occur. -/
structure EachOnce (all fs : List Transformation) : Prop where
  once : (fs.map (·.name)).Nodup
  /-- Listed are the transformations that are the first of their name. -/
  mem_iff : ∀ f, f ∈ fs ↔ all.find? (·.name = f.name) = some f
  inOrder : fs.Pairwise fun f g =>
    all.findIdx (·.name = f.name) < all.findIdx (·.name = g.name)

namespace EachOnce
variable {all fs : List Transformation}

theorem mem (h : EachOnce all fs) {f : Transformation} (hf : f ∈ fs) : f ∈ all :=
  List.mem_of_find?_eq_some ((h.mem_iff f).1 hf)

/-- None is missing. -/
theorem exists_of_mem (h : EachOnce all fs) {f : Transformation} (hf : f ∈ all) :
    ∃ g ∈ fs, g.name = f.name := by
  obtain ⟨g, hg⟩ := Option.isSome_iff_exists.1
    (List.find?_isSome.2 ⟨f, hf, by simp⟩ : (all.find? (·.name = f.name)).isSome = true)
  have hname : g.name = f.name := by simpa using List.find?_some hg
  exact ⟨g, (h.mem_iff g).2 (hname ▸ hg), hname⟩

theorem any_iff (h : EachOnce all fs) (f : Transformation) :
    fs.any (·.name = f.name) = true ↔ all.any (·.name = f.name) = true := by
  simp only [List.any_eq_true, decide_eq_true_eq]
  constructor
  · rintro ⟨g, hg, hname⟩
    exact ⟨g, h.mem hg, hname⟩
  · rintro ⟨g, hg, hname⟩
    obtain ⟨g', hg', hname'⟩ := h.exists_of_mem hg
    exact ⟨g', hg', hname'.trans hname⟩

theorem findIdx_lt {f : Transformation} (hf : f ∈ all) :
    all.findIdx (·.name = f.name) < all.length :=
  List.findIdx_lt_length_of_exists ⟨f, hf, by simp⟩

theorem findIdx_concat {f g : Transformation} (hg : g ∈ all) :
    (all ++ [f]).findIdx (·.name = g.name) = all.findIdx (·.name = g.name) := by
  rw [List.findIdx_append, if_pos (findIdx_lt hg)]

theorem inOrder_concat (h : EachOnce all fs) (f : Transformation) : fs.Pairwise fun g g' =>
    (all ++ [f]).findIdx (·.name = g.name) < (all ++ [f]).findIdx (·.name = g'.name) := by
  refine h.inOrder.imp_of_mem fun hg hg' hlt => ?_
  rwa [findIdx_concat (h.mem hg), findIdx_concat (h.mem hg')]

/-- One more transformation that is listed already. -/
theorem concat_of_any (h : EachOnce all fs) {f : Transformation}
    (hf : fs.any (·.name = f.name) = true) : EachOnce (all ++ [f]) fs := by
  obtain ⟨f', hf', hname⟩ := List.any_eq_true.1 ((h.any_iff f).1 hf)
  refine ⟨h.once, fun g => ?_, h.inOrder_concat f⟩
  rw [h.mem_iff, List.find?_append]
  cases hfind : all.find? (·.name = g.name) with
  | some g' => simp
  | none =>
    -- The new one is not of this name, since an earlier one is of its name.
    have hne : f.name ≠ g.name := fun he =>
      List.find?_eq_none.1 hfind f' hf' (by simpa [← he] using hname)
    simp [hne]

/-- One more transformation, of a name that no other has. -/
theorem concat_of_new (h : EachOnce all fs) {f : Transformation}
    (hnew : ∀ g ∈ all, g.name ≠ f.name) : EachOnce (all ++ [f]) (fs ++ [f]) := by
  refine ⟨?_, fun g => ?_, ?_⟩
  · rw [List.map_append, List.nodup_append]
    refine ⟨h.once, by simp, ?_⟩
    rintro _ hg _ hf rfl
    obtain ⟨g, hg, hname⟩ := List.mem_map.1 hg
    exact hnew g (h.mem hg) (hname.trans (by simpa using hf))
  · rw [List.mem_append, h.mem_iff, List.mem_singleton, List.find?_append]
    cases hfind : all.find? (·.name = g.name) with
    | some g' =>
      have hne : g ≠ f := by
        rintro rfl
        exact hnew g' (List.mem_of_find?_eq_some hfind) (by simpa using List.find?_some hfind)
      simp [hne]
    | none =>
      by_cases hg : f.name = g.name
      · simp [hg, eq_comm]
      · have hne : g ≠ f := fun he => hg (congrArg Transformation.name he.symm)
        simp [hg, hne]
  · refine List.pairwise_append.2
      ⟨h.inOrder_concat f, List.pairwise_singleton _ _, fun g hg f' hf' => ?_⟩
    obtain rfl := List.mem_singleton.1 hf'
    have hlast : (all ++ [f']).findIdx (·.name = f'.name) = all.length := by
      have hnone : all.findIdx (·.name = f'.name) = all.length :=
        List.findIdx_eq_length.2 (by simpa using hnew)
      simp [List.findIdx_append, hnone]
    rw [findIdx_concat (h.mem hg), hlast]
    exact findIdx_lt (h.mem hg)

end EachOnce

/-- Adding transformations one after another leaves the first of each name. -/
theorem eachOnce_addTransformations (all : List Transformation) :
    EachOnce all (Schema.addTransformations [] all) := by
  induction all using List.reverseRecOn with
  | nil => exact ⟨List.nodup_nil, by simp [Schema.addTransformations], List.Pairwise.nil⟩
  | append_singleton all f ih =>
    rw [Schema.addTransformations, List.foldl_append, List.foldl_cons, List.foldl_nil]
    split
    · next hf => exact ih.concat_of_any hf
    · next hf => exact ih.concat_of_new (by simpa using mt (ih.any_iff f).2 hf)

/-! ### The transformations of a type -/

/-- The transformation that is registered for the type of this name. -/
def Registration.transformation? (name : String) : Registration → Option Transformation
  | .transformation t f => if normalize name = normalize t.name then some f else none
  | _ => none

/-- The transformations that are registered for the types of a chain: those of the type itself, then
those of its ancestors, nearest first, for each of them in the order of the registrations. -/
def Registration.transformationsAlong (rs : List Registration) (type : EntityType) :
    List Transformation :=
  type.chain.flatMap fun name => rs.filterMap (transformation? name)

namespace Schema

theorem get?_transformations_register (s : Schema) (r : Registration) (name : String) :
    ((s.register r).transformations.get? (normalize name)).getD [] =
      (s.transformations.get? (normalize name)).getD [] ++ (r.transformation? name).toList := by
  cases r with
  | transformation t f =>
    rw [register, addTransformation, Assoc.get?_put, Registration.transformation?,
      EntityType.normalizedName]
    by_cases h : normalize name = normalize t.name <;> simp [h]
  | type | relation | view | clearView | validator | converter | readOnly | writeOnce | searchable
    | group | validatorFactory | converterFactory => exact (List.append_nil _).symm

/-- What is registered for one type is kept in the order of the registrations. -/
theorem get?_transformations (rs : List Registration) (name : String) :
    ((rs.foldl register {}).transformations.get? (normalize name)).getD [] =
      rs.filterMap (Registration.transformation? name) := by
  induction rs using List.reverseRecOn with
  | nil => rfl
  | append_singleton rs r ih =>
    rw [List.foldl_append, List.foldl_cons, List.foldl_nil, get?_transformations_register, ih,
      List.filterMap_append]
    cases h : r.transformation? name <;> simp [h]

end Schema

theorem SchemaDraft.transformationsOf_eq (locks : LockTable) (rs : List Registration)
    (type : EntityType) : (ofRegistrations locks rs).schema.transformationsOf type =
      Schema.addTransformations [] (Registration.transformationsAlong rs type) := by
  rw [schema_ofRegistrations, Registration.transformationsAlong, Schema.addTransformations,
    List.foldl_flatMap, Schema.transformationsOf, EntityType.normalizedChain, List.foldl_map]
  simp only [Schema.get?_transformations]
  rfl

/-! ### What a new node is stored with -/

/-- What transformations make of a node, each given what the one before left; the first that fails
says why. -/
def Transformation.through (caller : Caller) (fs : List Transformation) (node : Node) :
    Except Failure Node :=
  fs.foldlM (fun node f => f.apply caller node) node

theorem Transformation.through_eq (caller : Caller) (fs : List Transformation) (node : Node) :
    through caller fs node =
      (applyAll caller node fs).1.map fun _ => (applyAll caller node fs).2 := by
  induction fs generalizing node with
  | nil => rfl
  | cons f fs ih =>
    rw [through, List.foldlM_cons, applyAll]
    cases f.apply caller node with
    | error e => rfl
    | ok node => exact ih node

namespace Transaction
variable {g g' : Graph} {t t' : Transaction} {id : NodeId} {name : String} {known : EntityType}

/-- The transaction made the node, under the name of a type that is known. -/
structure Made (g : Graph) (t : Transaction) (id : NodeId) (name : String) (known : EntityType) :
    Prop where
  created : id ∈ t.changes.createdNodes
  named : t.working.value? id typeProperty = some (.string name)
  known : g.schema.type? name = some known

/-- What is stored if this value is given for a property of a new node. -/
def given (g : Graph) (t : Transaction) (name : String) (known : EntityType) (k : String)
    (v : Value) : Except Failure Value :=
  g.schema.convert g.resolver known (.declaredBy name k) t.caller v

theorem given_of_frame (h : Frame (g, t) (g', t')) (k : String) (v : Value) :
    given g' t' name known k v = given g t name known k v := by
  rw [given, Graph.resolver, h.schema, h.committed, h.caller]
  rfl

theorem made_enter (hknown : g.schema.type? name = some known) :
    Made { g with nextNode := g.nextNode + 1 } (t.enter ⟨g.nextNode⟩ name) ⟨g.nextNode⟩ name
      known where
  created := (t.changes.mem_createNode _ _).2 (Or.inl rfl)
  named := (GraphState.value?_put _ _ _ _ _).trans (if_pos rfl)
  known := hknown

/-- A property of a new node that is written holds what is kept of the converted value. -/
theorem Made.write (hmade : Made g t id name known) {k : String} {v : Value}
    (h : t.write g id (.declaredBy name k) v true = some (.ok (), g', t')) :
    Made g' t' id name known ∧ Frame (g, t) (g', t') ∧ k ≠ typeProperty ∧
      ∃ u, given g t name known k v = .ok u ∧
        ∀ j, t'.working.value? id j = if j = k then u.kept else t.working.value? id j := by
  obtain ⟨hsteps, hcreated⟩ := write_steps (fun _ => hmade.created) h
  obtain ⟨node, u, hprepare, rfl⟩ := write_eq_ok h
  obtain ⟨hkey, hnode, -, hconverted⟩ := prepare_eq_ok hprepare
  replace hkey : k ≠ typeProperty := hkey
  obtain ⟨rfl, hp, hread⟩ := node?_eq_some hnode
  have hvalue : ∀ j, (t.store node (.declaredBy name k) u).working.value? node.id j =
      if j = k then u.kept else t.working.value? node.id j := by
    intro j
    rw [value?_store hp]
    by_cases hj : j = k <;> simp [hj, Value.kept, PropertyKey.declaredBy]
  obtain rfl : known = node.type := by
    have hnamed := hmade.named
    rw [GraphState.value?_of_node hp] at hnamed
    rw [Schema.typeOf?, hnamed] at hread
    exact Option.some.inj (hmade.known.symm.trans hread)
  refine ⟨⟨hcreated ▸ hmade.created, ?_, hsteps.frame.schema ▸ hmade.known⟩, hsteps.frame, hkey, u,
    hconverted, hvalue⟩
  rw [hvalue, if_neg (Ne.symm hkey), hmade.named]

/-- However far the writing of properties comes, a new node holds nothing but what they are
converted to. -/
theorem value?_writeAll {rows : Properties} {r : Except Failure Unit}
    (hmade : Made g t id name known) (h : t.writeAll g id name rows = some (r, g', t')) {k : String}
    {u : Value} (hu : t'.working.value? id k = some u) :
    t.working.value? id k = some u ∨
      k ≠ typeProperty ∧ ∃ v, (k, v) ∈ rows ∧ given g t name known k v = .ok u := by
  induction rows generalizing g t with
  | nil =>
    obtain ⟨-, -, rfl⟩ : _ ∧ g = g' ∧ t = t' := by simpa [writeAll] using h
    exact Or.inl hu
  | cons row rows ih =>
    obtain ⟨j, v⟩ := row
    rw [writeAll] at h
    split at h
    · next g₁ t₁ hwrite =>
      obtain ⟨hmade₁, hframe, hj, w, hw, hvalue⟩ := hmade.write hwrite
      rcases ih hmade₁ h with hbefore | ⟨hk, v', hv', hgiven⟩
      · rw [hvalue] at hbefore
        split at hbefore
        · next hkj =>
          subst hkj
          obtain rfl : w = u := by
            rw [Value.kept] at hbefore
            split at hbefore
            · simp at hbefore
            · exact Option.some.inj hbefore
          exact Or.inr ⟨hj, v, List.mem_cons_self .., hw⟩
        · exact Or.inl hbefore
      · rw [given_of_frame hframe] at hgiven
        exact Or.inr ⟨hk, v', List.mem_cons_of_mem _ hv', hgiven⟩
    · next hnot =>
      cases r with
      | error e => exact Or.inl ((write_error h).1 ▸ hu)
      | ok => exact absurd h (hnot g' t')

/-- If all properties are written, a new node holds what each is converted to. -/
theorem value?_writeAll_ok {rows : Properties} (hmade : Made g t id name known)
    (h : t.writeAll g id name rows = some (.ok (), g', t')) (hkeys : rows.keys.Nodup) :
    (∀ k, k ∉ rows.keys → t'.working.value? id k = t.working.value? id k) ∧
      ∀ k v, (k, v) ∈ rows →
        ∃ u, given g t name known k v = .ok u ∧ t'.working.value? id k = u.kept := by
  induction rows generalizing g t with
  | nil =>
    obtain ⟨-, rfl⟩ : g = g' ∧ t = t' := by simpa [writeAll] using h
    exact ⟨fun k _ => rfl, by simp⟩
  | cons row rows ih =>
    obtain ⟨j, v⟩ := row
    obtain ⟨hnew, hkeys⟩ := List.nodup_cons.1 hkeys
    rw [writeAll] at h
    split at h
    · next g₁ t₁ hwrite =>
      obtain ⟨hmade₁, hframe, -, u, hu, hvalue⟩ := hmade.write hwrite
      obtain ⟨hrest, hall⟩ := ih hmade₁ h hkeys
      refine ⟨fun k hk => ?_, fun k v' hkv => ?_⟩
      · obtain ⟨hkj, hk⟩ : k ≠ j ∧ k ∉ Assoc.keys rows := by simpa [Assoc.keys] using hk
        rw [hrest k hk, hvalue, if_neg hkj]
      · rcases List.mem_cons.1 hkv with he | hkv
        · obtain ⟨rfl, rfl⟩ := Prod.mk.inj he
          exact ⟨u, hu, (hrest k hnew).trans ((hvalue k).trans (if_pos rfl))⟩
        · obtain ⟨u', hu', hk⟩ := hall k v' hkv
          exact ⟨u', given_of_frame hframe k v' ▸ hu', hk⟩
    · next hnot => exact absurd h (hnot g' t')

/-- How a creation ends that puts the given properties through transformations first. -/
structure PutThrough (fs : List Transformation) (g : Graph) (t : Transaction) (type : EntityType)
    (initial : Properties) (known : EntityType) (r : Except Failure Node) (t' : Transaction) :
    Prop where
  /-- If one of them fails, so does the creation, and nothing is stored. -/
  refused : ∀ e, Transformation.through t.caller fs ⟨⟨g.nextNode⟩, type, initial⟩ = .error e →
    r = .error e ∧ t' = t
  /-- Whatever the new node holds, even if its creation fails, is what they left, converted. -/
  only : ∀ node, Transformation.through t.caller fs ⟨⟨g.nextNode⟩, type, initial⟩ = .ok node →
    ∀ k u, k ≠ typeProperty → t'.working.value? ⟨g.nextNode⟩ k = some u →
      ∃ v, (k, v) ∈ node.properties ∧ given g t type.name known k v = .ok u
  /-- If the node is created, it holds all that they left. -/
  all : ∀ node n, Transformation.through t.caller fs ⟨⟨g.nextNode⟩, type, initial⟩ = .ok node →
    r = .ok n → node.properties.keys.Nodup →
      ∀ k v, (k, v) ∈ node.properties → k ≠ typeProperty →
        ∃ u, given g t type.name known k v = .ok u ∧
          t'.working.value? ⟨g.nextNode⟩ k = u.kept

theorem createNode_of_unknown {type : EntityType} {initial : Properties} {r : Except Failure Node}
    (hunknown : g.schema.type? type.name = none)
    (h : t.createNode g type initial = some (r, g', t')) :
    r = .error (.invalidInput s!"type {type} is not defined") ∧ g' = g ∧ t' = t := by
  rw [createNode, hunknown] at h
  obtain ⟨rfl, rfl, rfl⟩ : _ = r ∧ g = g' ∧ t = t' := by simpa [fail] using h
  exact ⟨rfl, rfl, rfl⟩

/-- Once the transformations have not failed, the new node is entered and what they left is
written. -/
theorem createNode_writes {type : EntityType} {initial : Properties} {r : Except Failure Node}
    {node : Node} (hknown : (g.schema.type? type.name).isSome = true)
    (hleft : Transformation.applyAll t.caller ⟨⟨g.nextNode⟩, type, initial⟩
      (g.schema.transformationsOf type) = (.ok (), node))
    (h : t.createNode g type initial = some (r, g', t')) :
    ∃ r', (t.enter ⟨g.nextNode⟩ type.name).writeAll { g with nextNode := g.nextNode + 1 }
        ⟨g.nextNode⟩ type.name (node.properties.without typeProperty) = some (r', g', t') ∧
      ∀ n, r = .ok n → r' = .ok () := by
  rw [createNode, if_neg (by simpa using Option.isSome_iff_ne_none.1 hknown)] at h
  simp only [hleft] at h
  split at h
  · simp at h
  · next hall =>
    obtain ⟨rfl, rfl, rfl⟩ : _ = r ∧ _ = g' ∧ _ = t' := by simpa [fail] using h
    exact ⟨_, hall, by simp⟩
  · next hall =>
    obtain ⟨-, rfl, rfl⟩ : _ ∧ _ = g' ∧ _ = t' := by simpa using h
    exact ⟨_, hall, fun _ _ => rfl⟩

theorem putThrough_createNode {type known : EntityType} {initial : Properties}
    {r : Except Failure Node} (hknown : g.schema.type? type.name = some known)
    (h : t.createNode g type initial = some (r, g', t')) :
    PutThrough (g.schema.transformationsOf type) g t type initial known r t' := by
  have hthrough := Transformation.through_eq t.caller (g.schema.transformationsOf type)
    ⟨⟨g.nextNode⟩, type, initial⟩
  cases hleft : Transformation.applyAll t.caller ⟨⟨g.nextNode⟩, type, initial⟩
    (g.schema.transformationsOf type) with
  | mk result node =>
    rw [hleft] at hthrough
    cases result with
    | error e =>
      replace hthrough : Transformation.through _ _ _ = .error e := hthrough
      rw [createNode, hknown] at h
      simp only [Option.isNone_some, Bool.false_eq_true, if_false, hleft] at h
      obtain ⟨rfl, -, rfl⟩ : _ = r ∧ _ ∧ t = t' := by simpa [fail] using h
      refine ⟨fun e' he => ⟨?_, rfl⟩, fun n hn => ?_, fun n _ hn => ?_⟩
      · obtain rfl := Except.error.inj (hthrough.symm.trans he)
        rfl
      · cases hthrough.symm.trans hn
      · cases hthrough.symm.trans hn
    | ok =>
      replace hthrough : Transformation.through _ _ _ = .ok node := hthrough
      obtain ⟨r', hall, hok⟩ := createNode_writes (hknown ▸ rfl) hleft h
      have hmade := made_enter (t := t) hknown
      refine ⟨fun e he => ?_, fun n hn k u hk hu => ?_, fun n _ hn hr hkeys k v hkv hk => ?_⟩
      · cases hthrough.symm.trans he
      · obtain rfl := Except.ok.inj (hthrough.symm.trans hn)
        rcases value?_writeAll hmade hall hu with hbefore | ⟨-, v, hv, hgiven⟩
        · rw [enter, GraphState.value?_put, if_pos rfl, Assoc.get?_cons, if_neg (Ne.symm hk)]
            at hbefore
          cases hbefore
        · exact ⟨v, List.mem_of_mem_filter hv, hgiven⟩
      · obtain rfl := Except.ok.inj (hthrough.symm.trans hn)
        obtain rfl := hok _ hr
        have hrows : (Assoc.keys (node.properties.without typeProperty)).Nodup :=
          (List.filter_sublist.map _).nodup hkeys
        exact (value?_writeAll_ok hmade hall hrows).2 k v
          (List.mem_filter.2 ⟨hkv, by simpa using hk⟩)

end Transaction

namespace SchemaDraft

/-- Of all transformations that are registered for a type and its ancestors, a new node passes each
exactly once, in the order in which they occur first along the chain. What is given for the node is
put through exactly these, and what they leave is converted and stored. Nothing reaches the node
around them. -/
theorem transformed_once (locks : LockTable) (rs : List Registration) (type : EntityType) :
    let s := (ofRegistrations locks rs).schema
    EachOnce (Registration.transformationsAlong rs type) (s.transformationsOf type) ∧
      ∀ g g' t t' initial r, g.schema = s →
        Transaction.createNode g t type initial = some (r, g', t') →
          (s.type? type.name = none →
            r = .error (.invalidInput s!"type {type} is not defined") ∧ g' = g ∧ t' = t) ∧
          ∀ known, s.type? type.name = some known →
            Transaction.PutThrough (s.transformationsOf type) g t type initial known r t' := by
  refine ⟨?_, fun g g' t t' initial r hschema h => ⟨fun hunknown => ?_, fun known hknown => ?_⟩⟩
  · rw [transformationsOf_eq]
    exact eachOnce_addTransformations _
  · exact Transaction.createNode_of_unknown (hschema ▸ hunknown) h
  · rw [← hschema] at hknown ⊢
    exact Transaction.putThrough_createNode hknown h

/-- A transformation that needs a name and makes it louder. -/
def louder : Transformation where
  name := "louder"
  apply _ node := match node.property? "name" with
    | some (.string text) => .ok (node.setProperty "name" (.string (text ++ "!")))
    | _ => .error (.invalidInput "there is no name")

/-- A transformation that marks the node. -/
def marked : Transformation := ⟨"marked", fun _ node => .ok (node.setProperty "new" (.bool true))⟩

/-- Visitors are persons. -/
def visitor : EntityType := (EntityType.root "Person").derive "Visitor"

/-- That the names of new visitors are made louder is said three times. -/
def greetings : List Registration :=
  [.type visitor, .transformation (.root "Person") marked, .transformation visitor louder,
    .transformation (.root "Person") louder, .transformation visitor louder,
    .transformation (.root "Place") marked]

/-- A graph for visitors. -/
def lobby : Graph := { schema := (ofRegistrations {} greetings).schema }

/-- A client has begun to work on it. -/
def porter : Transaction := ⟨⟨1⟩, .superUser, 0, none, {}, {}⟩

/-- The name of a new visitor is made louder once. -/
theorem transformed_once_visitor :
    (lobby.schema.transformationsOf visitor).map (·.name) = ["louder", "marked"] ∧
      (∃ r g t, porter.createNode lobby visitor [("name", .string "ann")] = some (r, g, t) ∧
        t.working.value? ⟨1⟩ "name" = some (.string "ann!") ∧
        t.working.value? ⟨1⟩ "new" = some (.bool true)) ∧
      ∃ r g t, porter.createNode lobby visitor [] = some (r, g, t) ∧
        r = .error (.invalidInput "there is no name") ∧ t = porter := by
  obtain ⟨-, hput⟩ := transformed_once {} greetings visitor
  have hknown : lobby.schema.type? visitor.name = some visitor := rfl
  refine ⟨rfl, ?_, ?_⟩
  · obtain ⟨n, g, t, hrun⟩ : ∃ n g t,
        porter.createNode lobby visitor [("name", .string "ann")] = some (.ok n, g, t) :=
      ⟨_, _, _, rfl⟩
    have hall := ((hput _ _ _ _ _ _ rfl hrun).2 visitor hknown).all _ n rfl rfl (by decide)
    obtain ⟨u, hu, hname⟩ := hall "name" (.string "ann!") (.head _) (by decide)
    obtain ⟨u', hu', hnew⟩ := hall "new" (.bool true) (.tail _ (.head _)) (by decide)
    obtain rfl := Except.ok.inj hu
    obtain rfl := Except.ok.inj hu'
    exact ⟨_, g, t, hrun, hname, hnew⟩
  · obtain ⟨r, g, t, hrun⟩ : ∃ r g t, porter.createNode lobby visitor [] = some (r, g, t) :=
      ⟨_, _, _, rfl⟩
    have hrefused := ((hput _ _ _ _ _ _ rfl hrun).2 visitor hknown).refused
      (.invalidInput "there is no name") rfl
    exact ⟨r, g, t, hrun, hrefused⟩

end SchemaDraft
end EntityGraph
