import EntityGraph.Graph.Transaction
import EntityGraph.Proofs.Merging
import Mathlib.Logic.Relation

/-!
What the operations on an open transaction consist of. However an operation ends, what it did to
the graph and to the transaction is a sequence of the few steps listed here, so that whatever every
step keeps is kept by every operation.

Main statement: `Operation.steps` — an operation is a sequence of steps.
-/

namespace EntityGraph

/-- A public operation that changes an open transaction. -/
inductive Operation
  | createNode (type : EntityType) (initial : Properties)
  /-- Null removes the property. -/
  | setProperty (id : NodeId) (key : PropertyKey) (v : Value)
  | createRelationship (start stop : NodeId) (type : String) (properties : Properties)
  | deleteRelationship (id : RelationshipId)
  | deleteNode (id : NodeId)

/-- Runs an operation; only whether it fails counts. -/
def Operation.run (o : Operation) (g : Graph) (t : Transaction) : Transaction.Outcome Unit :=
  match o with
  | createNode type initial =>
    (t.createNode g type initial).map fun (r, s) => (r.map fun _ => (), s)
  | setProperty id key v => t.write g id key v
  | createRelationship start stop type properties =>
    (t.createRelationship g start stop type properties).map fun (r, s) => (r.map fun _ => (), s)
  | deleteRelationship id => t.deleteRelationship g id
  | deleteNode id => t.deleteNode g id

namespace Transaction

/-- A new node in the working copy, with nothing but its type. -/
def enter (t : Transaction) (id : NodeId) (type : String) : Transaction :=
  { t with
    working.nodes := t.working.nodes.put id [(typeProperty, .string type)]
    changes := t.changes.createNode id }

/-- A new relationship in the working copy. -/
def relate (t : Transaction) (r : Relationship) : Transaction :=
  { t with
    working.relationships := t.working.relationships.put r.id r
    changes := t.changes.createRelationship r }

/-- Takes a node out of the working copy. -/
def erase (t : Transaction) (id : NodeId) (p : Properties) : Transaction :=
  let (discarded, changes) := t.changes.discardNode id
  { t with
    working.nodes := t.working.nodes.without id
    changes := if discarded then changes else recordDeletion changes id p }

/-- The graph after a checked write: a removal gives up what was claimed for the property. -/
def settled (t : Transaction) (g : Graph) (id : NodeId) (key : PropertyKey) (v : Value) : Graph :=
  if v.isNull then { g with claims := g.claims.release t.txn id key.name } else g

/-- A write may store a value: the marks of the property allow it or the node is new, and the value
is what a conversion gives. -/
structure Admits (g : Graph) (t : Transaction) (node : Node) (key : PropertyKey) (v : Value) :
    Prop where
  marks : node.id ∉ t.changes.createdNodes → checkMarks g node key = .ok ()
  converted : ∃ given, g.schema.convert g.resolver node.type key t.caller given = .ok v

/-- One step of an operation. -/
inductive Step : Graph × Transaction → Graph × Transaction → Prop
  /-- A value does not pass its check. -/
  | refused {g g' t node key v e} (hcheck : t.check g node key v = some (.error e, g')) :
    Step (g, t) (g', t)
  /-- A value passes its check and is stored. -/
  | written {g g' t node key v} (hnode : t.node? g node.id = some node)
    (hkey : key.name ≠ typeProperty) (hcheck : t.check g node key v = some (.ok (), g'))
    (hadmits : t.Admits g node key v) :
    Step (g, t) (t.settled g' node.id key v, t.store node key v)
  /-- An identity is given out for a node that a transformation then refuses. -/
  | skipped {g t} : Step (g, t) ({ g with nextNode := g.nextNode + 1 }, t)
  | entered {g t type} (htype : (g.schema.type? type).isSome = true) :
    Step (g, t) ({ g with nextNode := g.nextNode + 1 }, t.enter ⟨g.nextNode⟩ type)
  | related {g t start stop type properties} (hstart : (t.node? g start).isSome = true)
    (hstop : (t.node? g stop).isSome = true) :
    Step (g, t) ({ g with nextRelationship := g.nextRelationship + 1 },
      t.relate ⟨⟨g.nextRelationship⟩, type, start, stop, properties⟩)
  | dropped {g t r} (hr : t.working.relationships.get? r.id = some r) :
    Step (g, t) (g, t.dropRelationship r)
  /-- A node at which there is no relationship any more. -/
  | erased {g t id p} (hp : t.working.nodes.get? id = some p)
    (hfree : ∀ rid r, t.working.relationships.get? rid = some r → r.touches id = false) :
    Step (g, t) ({ g with claims := g.claims.releaseNode t.txn id }, t.erase id p)

/-- Steps, one after the other. -/
abbrev Steps : Graph × Transaction → Graph × Transaction → Prop := Relation.ReflTransGen Step

variable {g g' : Graph} {t t' : Transaction}

/-! ### What every step keeps -/

/-- Neither the schema, nor what is committed, nor what the transaction is known by changes. -/
structure Frame (a b : Graph × Transaction) : Prop where
  schema : b.1.schema = a.1.schema
  committed : b.1.committed = a.1.committed
  txn : b.2.txn = a.2.txn
  caller : b.2.caller = a.2.caller
  hook : b.2.hook = a.2.hook
  context : b.2.context = a.2.context

theorem check_eq_some {node : Node} {key : PropertyKey} {v : Value} {r : Except Failure Unit}
    (h : t.check g node key v = some (r, g')) :
    g' = { g with locks := g'.locks, claims := g'.claims } := by
  obtain ⟨s, -, hs⟩ := Option.map_eq_some_iff.1 h
  obtain ⟨-, rfl⟩ := Prod.mk.inj hs
  rfl

theorem settled_eq (t : Transaction) (g : Graph) (id : NodeId) (key : PropertyKey) (v : Value) :
    t.settled g id key v = { g with claims := (t.settled g id key v).claims } := by
  rw [settled]; split <;> rfl

theorem store_eq (t : Transaction) (node : Node) (key : PropertyKey) (v : Value) :
    t.store node key v =
      { t with
        working := (t.store node key v).working
        changes := (t.store node key v).changes } := by
  rw [store]
  simp only
  split
  · split <;> rfl
  · rfl

theorem sameObjects_store (t : Transaction) (node : Node) (key : PropertyKey) (v : Value) :
    t.changes.SameObjects (t.store node key v).changes := by
  rw [store]
  simp only
  split
  · split
    · exact ⟨rfl, rfl, rfl, rfl⟩
    · exact t.changes.sameObjects_write _ _ _ _
  · exact t.changes.sameObjects_write _ _ _ _

theorem Step.frame {a b : Graph × Transaction} (h : Step a b) : Frame a b := by
  cases h with
  | refused hcheck =>
    rw [check_eq_some hcheck]
    exact ⟨rfl, rfl, rfl, rfl, rfl, rfl⟩
  | written hnode hkey hcheck hadmits =>
    rw [settled_eq, store_eq, check_eq_some hcheck]
    exact ⟨rfl, rfl, rfl, rfl, rfl, rfl⟩
  | skipped => exact ⟨rfl, rfl, rfl, rfl, rfl, rfl⟩
  | entered => exact ⟨rfl, rfl, rfl, rfl, rfl, rfl⟩
  | related => exact ⟨rfl, rfl, rfl, rfl, rfl, rfl⟩
  | dropped => exact ⟨rfl, rfl, rfl, rfl, rfl, rfl⟩
  | erased => exact ⟨rfl, rfl, rfl, rfl, rfl, rfl⟩

theorem Steps.frame {a b : Graph × Transaction} (h : Steps a b) : Frame a b := by
  induction h with
  | refl => exact ⟨rfl, rfl, rfl, rfl, rfl, rfl⟩
  | tail _ hstep ih =>
    have hf := hstep.frame
    exact ⟨hf.schema.trans ih.schema, hf.committed.trans ih.committed, hf.txn.trans ih.txn,
      hf.caller.trans ih.caller, hf.hook.trans ih.hook, hf.context.trans ih.context⟩

theorem frame_foldl_dropRelationship (g : Graph) (t : Transaction) (rs : List Relationship) :
    Frame (g, t) (g, rs.foldl dropRelationship t) := by
  induction rs generalizing t with
  | nil => exact ⟨rfl, rfl, rfl, rfl, rfl, rfl⟩
  | cons r rs ih =>
    have h := ih (t.dropRelationship r)
    exact ⟨rfl, rfl, h.txn, h.caller, h.hook, h.context⟩

/-! ### The steps of each operation -/

theorem node?_eq_some {id : NodeId} {node : Node} (h : t.node? g id = some node) :
    node.id = id ∧ t.working.nodes.get? id = some node.properties ∧
      g.schema.typeOf? node.properties = some node.type := by
  obtain ⟨p, hp, htyped⟩ := Option.bind_eq_some_iff.1 h
  obtain ⟨type, htype, rfl⟩ := Option.map_eq_some_iff.1 htyped
  exact ⟨rfl, hp, htype⟩

theorem prepare_eq_ok {id : NodeId} {key : PropertyKey} {v v' : Value} {creating : Bool}
    {node : Node} (h : t.prepare g id key v creating = .ok (node, v')) :
    key.name ≠ typeProperty ∧ t.node? g id = some node ∧
      (creating = false → checkMarks g node key = .ok ()) ∧
        g.schema.convert g.resolver node.type key t.caller v = .ok v' := by
  simp only [prepare, bind, Except.bind] at h
  split at h
  · simp [throw, throwThe, MonadExceptOf.throw] at h
  · next hkey =>
    refine ⟨hkey, ?_⟩
    cases hnode : t.node? g id with
    | none => simp [requireNode, hnode] at h
    | some n =>
      simp only [requireNode, hnode, pure, Except.pure] at h
      cases hv : g.schema.convert g.resolver n.type key t.caller v with
      | error e => cases creating <;> cases hm : checkMarks g n key <;> simp [hm, hv] at h
      | ok v'' =>
        have hmarks : creating = false → checkMarks g n key = .ok () := by
          rintro rfl
          cases hm : checkMarks g n key with
          | error e => simp [hm] at h
          | ok => rfl
        obtain ⟨rfl, rfl⟩ : n = node ∧ v'' = v' := by
          cases creating with
          | true => simpa [hv] using h
          | false => simpa [hmarks rfl, hv] using h
        exact ⟨rfl, hmarks, hv⟩

theorem write_steps {id : NodeId} {key : PropertyKey} {v : Value} {creating : Bool}
    {r : Except Failure Unit} (hcreating : creating = true → id ∈ t.changes.createdNodes)
    (h : t.write g id key v creating = some (r, g', t')) :
    Steps (g, t) (g', t') ∧ t'.changes.createdNodes = t.changes.createdNodes := by
  rw [write] at h
  split at h
  · obtain ⟨-, rfl, rfl⟩ : _ ∧ g = g' ∧ t = t' := by simpa [fail] using h
    exact ⟨.refl, rfl⟩
  · next node v' hprepare =>
    obtain ⟨hkey, hnode, hmarks, hconverted⟩ := prepare_eq_ok hprepare
    obtain ⟨rfl, -⟩ := node?_eq_some hnode
    have hadmits : t.Admits g node key v' := by
      refine ⟨fun hnew => hmarks ?_, v, hconverted⟩
      rw [← Bool.not_eq_true]
      exact fun hc => hnew (hcreating hc)
    split at h
    · simp at h
    · next e g₁ hcheck =>
      obtain ⟨-, rfl, rfl⟩ : _ ∧ g₁ = g' ∧ t = t' := by simpa [fail] using h
      exact ⟨.single (.refused hcheck), rfl⟩
    · next g₁ hcheck =>
      obtain ⟨-, rfl, rfl⟩ : _ ∧ t.settled g₁ node.id key v' = g' ∧ t.store node key v' = t' := by
        simpa [settled] using h
      exact ⟨.single (.written hnode hkey hcheck hadmits), (t.sameObjects_store node key v').1⟩

theorem writeAll_steps {id : NodeId} {type : String} {rows : Properties} {r : Except Failure Unit}
    (hid : id ∈ t.changes.createdNodes) (h : t.writeAll g id type rows = some (r, g', t')) :
    Steps (g, t) (g', t') := by
  induction rows generalizing g t with
  | nil =>
    obtain ⟨-, rfl, rfl⟩ : _ ∧ g = g' ∧ t = t' := by simpa [writeAll] using h
    exact .refl
  | cons row rows ih =>
    rw [writeAll] at h
    split at h
    · next hwrite =>
      obtain ⟨hsteps, hcreated⟩ := write_steps (fun _ => hid) hwrite
      exact hsteps.trans (ih (hcreated ▸ hid) h)
    · exact (write_steps (fun _ => hid) h).1

theorem createNode_steps {type : EntityType} {initial : Properties} {r : Except Failure Node}
    (h : t.createNode g type initial = some (r, g', t')) : Steps (g, t) (g', t') := by
  rw [createNode] at h
  split at h
  · obtain ⟨-, rfl, rfl⟩ : _ ∧ g = g' ∧ t = t' := by simpa [fail] using h
    exact .refl
  · next htype =>
    have henter : Step (g, t) ({ g with nextNode := g.nextNode + 1 },
        t.enter ⟨g.nextNode⟩ type.name) :=
      .entered (Option.isSome_iff_ne_none.2 (by simpa using htype))
    have hentered : ⟨g.nextNode⟩ ∈ (t.enter ⟨g.nextNode⟩ type.name).changes.createdNodes :=
      (t.changes.mem_createNode _ _).2 (Or.inl rfl)
    simp only at h
    split at h
    · obtain ⟨-, rfl, rfl⟩ : _ ∧ { g with nextNode := g.nextNode + 1 } = g' ∧ t = t' := by
        simpa [fail] using h
      exact .single .skipped
    · split at h
      · simp at h
      · next hall =>
        obtain ⟨-, rfl, rfl⟩ : _ ∧ _ = g' ∧ _ = t' := by simpa [fail] using h
        exact .head henter (writeAll_steps hentered hall)
      · next hall =>
        obtain ⟨-, rfl, rfl⟩ : _ ∧ _ = g' ∧ _ = t' := by simpa using h
        exact .head henter (writeAll_steps hentered hall)

theorem createRelationship_steps {start stop : NodeId} {type : String} {properties : Properties}
    {r : Except Failure RelationshipId}
    (h : t.createRelationship g start stop type properties = some (r, g', t')) :
    Steps (g, t) (g', t') := by
  rw [createRelationship] at h
  cases hstart : t.node? g start with
  | none =>
    obtain ⟨-, rfl, rfl⟩ : _ ∧ g = g' ∧ t = t' := by simpa [requireNode, hstart, fail] using h
    exact .refl
  | some a =>
    cases hstop : t.node? g stop with
    | none =>
      obtain ⟨-, rfl, rfl⟩ : _ ∧ g = g' ∧ t = t' := by
        simpa [requireNode, hstart, hstop, fail] using h
      exact .refl
    | some b =>
      obtain ⟨-, rfl, rfl⟩ : _ ∧ _ = g' ∧ _ = t' := by
        simpa [requireNode, hstart, hstop] using h
      exact .single (.related (by rw [hstart]; rfl) (by rw [hstop]; rfl))

theorem deleteRelationship_steps {id : RelationshipId} {r : Except Failure Unit}
    (ht : t.working.Tidy) (h : t.deleteRelationship g id = some (r, g', t')) :
    Steps (g, t) (g', t') := by
  rw [deleteRelationship] at h
  split at h
  · obtain ⟨-, rfl, rfl⟩ : _ ∧ g = g' ∧ t = t' := by simpa [fail] using h
    exact .refl
  · next r hr =>
    obtain ⟨-, rfl, rfl⟩ : _ ∧ g = g' ∧ t.dropRelationship r = t' := by simpa using h
    exact .single (.dropped (by rw [ht.ids id r hr]; exact hr))

theorem get?_dropRelationship (t : Transaction) (r : Relationship) (id : RelationshipId) :
    (t.dropRelationship r).working.relationships.get? id =
      if id = r.id then none else t.working.relationships.get? id :=
  Assoc.get?_without _ _ _

/-- Dropping some of the relationships of the working copy, each once. -/
theorem foldl_dropRelationship_steps (rs : List Relationship) (hn : (rs.map (·.id)).Nodup)
    (hr : ∀ r ∈ rs, t.working.relationships.get? r.id = some r) :
    Steps (g, t) (g, rs.foldl dropRelationship t) := by
  induction rs generalizing t with
  | nil => exact .refl
  | cons r rs ih =>
    obtain ⟨hnew, hn⟩ := List.nodup_cons.1 (List.map_cons ▸ hn)
    refine .head (.dropped (hr r (List.mem_cons_self ..))) (ih hn fun d hd => ?_)
    have hne : d.id ≠ r.id := fun e => hnew (List.mem_map.2 ⟨d, hd, e⟩)
    rw [get?_dropRelationship, if_neg hne]
    exact hr d (List.mem_cons_of_mem _ hd)

theorem get?_foldl_dropRelationship (rs : List Relationship) (t : Transaction)
    (id : RelationshipId) :
    (rs.foldl dropRelationship t).working.relationships.get? id =
      if id ∈ rs.map (·.id) then none else t.working.relationships.get? id := by
  induction rs generalizing t with
  | nil => simp
  | cons r rs ih =>
    rw [List.foldl_cons, ih, get?_dropRelationship]
    by_cases hid : id = r.id <;> simp [hid]

theorem get?_of_mem_relationshipsOf {s : GraphState} (hs : s.Tidy) {id : NodeId} {r : Relationship}
    (h : r ∈ s.relationshipsOf id) : s.relationships.get? r.id = some r := by
  obtain ⟨rid, hr⟩ := hs.relationships.mem_values_iff.1 (List.mem_of_mem_filter h)
  rw [hs.ids rid r hr]
  exact hr

theorem relationshipsOf_nodup {s : GraphState} (hs : s.Tidy) (id : NodeId) :
    ((s.relationshipsOf id).map (·.id)).Nodup := by
  have hkeys : s.relationships.values.map (·.id) = s.relationships.keys := by
    simp only [Assoc.values, Assoc.keys, List.map_map]
    refine List.map_congr_left fun row hrow => ?_
    exact hs.ids row.1 row.2 (hs.relationships.get?_of_mem hrow)
  refine List.Nodup.sublist ?_ (hkeys ▸ hs.relationships.keys_nodup)
  exact List.filter_sublist.map _

/-- Once its relationships are dropped, there is none at the node. -/
theorem free_of_dropped (ht : t.working.Tidy) (id : NodeId) (rid : RelationshipId)
    (r : Relationship)
    (hr : ((t.working.relationshipsOf id).foldl dropRelationship t).working.relationships.get? rid =
      some r) : r.touches id = false := by
  rw [get?_foldl_dropRelationship] at hr
  split at hr
  · simp at hr
  · next hnot =>
    rw [← Bool.not_eq_true]
    intro htouch
    refine hnot (List.mem_map.2 ⟨r, List.mem_filter.2 ⟨?_, htouch⟩, ht.ids rid r hr⟩)
    exact ht.relationships.mem_values_iff.2 ⟨rid, hr⟩

theorem deleteNode_steps {id : NodeId} {r : Except Failure Unit} (ht : t.working.Tidy)
    (h : t.deleteNode g id = some (r, g', t')) : Steps (g, t) (g', t') := by
  have hdrop : Steps (g, t) (g, (t.working.relationshipsOf id).foldl dropRelationship t) :=
    foldl_dropRelationship_steps _ (relationshipsOf_nodup ht id)
      fun r hr => get?_of_mem_relationshipsOf ht hr
  rw [deleteNode] at h
  simp only at h
  split at h
  · obtain ⟨-, rfl, rfl⟩ : _ ∧ g = g' ∧ _ = t' := by simpa [fail] using h
    exact hdrop
  · next p hp =>
    obtain ⟨-, rfl, rfl⟩ : _ ∧ _ = g' ∧ _ = t' := by simpa using h
    exact hdrop.tail (.erased hp (free_of_dropped ht id))

end Transaction

/-- Whatever an operation does, and on any working copy, it keeps the frame. -/
theorem Operation.frame {o : Operation} {g g' : Graph} {t t' : Transaction}
    {r : Except Failure Unit} (h : o.run g t = some (r, g', t')) :
    Transaction.Frame (g, t) (g', t') := by
  cases o with
  | createNode type initial =>
    obtain ⟨⟨r', s⟩, hrun, he⟩ := Option.map_eq_some_iff.1 h
    obtain ⟨-, rfl⟩ := Prod.mk.inj he
    exact (Transaction.createNode_steps hrun).frame
  | setProperty id key v => exact (Transaction.write_steps (by simp) h).1.frame
  | createRelationship start stop type properties =>
    obtain ⟨⟨r', s⟩, hrun, he⟩ := Option.map_eq_some_iff.1 h
    obtain ⟨-, rfl⟩ := Prod.mk.inj he
    exact (Transaction.createRelationship_steps hrun).frame
  | deleteRelationship id =>
    replace h : t.deleteRelationship g id = some (r, g', t') := h
    rw [Transaction.deleteRelationship] at h
    split at h
    · obtain ⟨-, rfl, rfl⟩ : _ ∧ g = g' ∧ t = t' := by simpa [Transaction.fail] using h
      exact ⟨rfl, rfl, rfl, rfl, rfl, rfl⟩
    · next r _ =>
      obtain ⟨-, rfl, rfl⟩ : _ ∧ g = g' ∧ t.dropRelationship r = t' := by simpa using h
      exact ⟨rfl, rfl, rfl, rfl, rfl, rfl⟩
  | deleteNode id =>
    replace h : t.deleteNode g id = some (r, g', t') := h
    have hdrop := Transaction.frame_foldl_dropRelationship g t (t.working.relationshipsOf id)
    rw [Transaction.deleteNode] at h
    simp only at h
    split at h
    · obtain ⟨-, rfl, rfl⟩ : _ ∧ g = g' ∧ _ = t' := by simpa [Transaction.fail] using h
      exact hdrop
    · obtain ⟨-, rfl, rfl⟩ : _ ∧ _ = g' ∧ _ = t' := by simpa using h
      exact ⟨rfl, rfl, hdrop.txn, hdrop.caller, hdrop.hook, hdrop.context⟩

theorem Operation.steps {o : Operation} {g g' : Graph} {t t' : Transaction}
    {r : Except Failure Unit} (ht : t.working.Tidy) (h : o.run g t = some (r, g', t')) :
    Transaction.Steps (g, t) (g', t') := by
  cases o with
  | createNode type initial =>
    obtain ⟨⟨r', s⟩, hrun, he⟩ := Option.map_eq_some_iff.1 h
    obtain ⟨-, rfl⟩ := Prod.mk.inj he
    exact Transaction.createNode_steps hrun
  | setProperty id key v => exact (Transaction.write_steps (by simp) h).1
  | createRelationship start stop type properties =>
    obtain ⟨⟨r', s⟩, hrun, he⟩ := Option.map_eq_some_iff.1 h
    obtain ⟨-, rfl⟩ := Prod.mk.inj he
    exact Transaction.createRelationship_steps hrun
  | deleteRelationship id => exact Transaction.deleteRelationship_steps ht h
  | deleteNode id => exact Transaction.deleteNode_steps ht h

end EntityGraph
