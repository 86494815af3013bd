import EntityGraph.Proofs.Clients
import EntityGraph.Proofs.Moments

/-!
Removals. To remove a property is to write null to it, and as any write this passes the conversion
of the key first. Null stays null unless the conversion has something to stand in for it: then this
is stored, and the property is not removed.

Main statements: `Schema.convert_null` — which conversions may have something to stand in for null;
`Tracks.change?_store` — the entry that a write leaves, whatever was written before;
`null_written` — what a transaction sees and has recorded once it has removed a property.
-/

namespace EntityGraph

/-- What can stand in for null under a key: the integer that is given as the parameter of a
conversion to integers, or whatever a conversion makes of it that a factory built. -/
inductive Schema.StandsIn (s : Schema) (type : EntityType) (key : PropertyKey) : Value → Prop
  | parameter {n : Int64} (hkind : s.converterKind? type key = some .integer)
    (hparameter : s.conversionParameter? type key = some (.int n)) : StandsIn s type key (.int n)
  | built {v : Value} {name : String} {f : ConverterFactory}
    (hkind : s.converterKind? type key = some (.named name))
    (hfactory : s.converterFactories.get? name = some f) : StandsIn s type key v

/-- Null stays null unless something stands in for it. -/
theorem Schema.convert_null {s : Schema} {r : Resolver} {type : EntityType} {key : PropertyKey}
    {caller : Caller} {v : Value} (h : s.convert r type key caller .null = .ok v) :
    v = .null ∨ s.StandsIn type key v := by
  cases hkind : s.converterKind? type key with
  | none =>
    rw [convert, converter?, hkind] at h
    exact Or.inl (Except.ok.inj h).symm
  | some kind =>
    rw [convert, converter?, hkind, Option.bind_some] at h
    cases kind with
    | integer =>
      have hv := Except.ok.inj h
      cases hparameter : (s.conversionParameter? type key).bind Value.int? with
      | none =>
        rw [hparameter] at hv
        exact Or.inl hv.symm
      | some n =>
        rw [hparameter, Option.map_some, Option.getD_some] at hv
        obtain ⟨p, hp, hpn⟩ := Option.bind_eq_some_iff.1 hparameter
        cases p <;> simp [Value.int?] at hpn
        subst hpn
        exact Or.inr (hv ▸ .parameter hkind hp)
    | boolean | lowercase => exact Or.inl (Except.ok.inj h).symm
    | named name =>
      cases hfactory : s.converterFactories.get? name with
      | none =>
        rw [buildConverter?, hfactory] at h
        exact Or.inl (Except.ok.inj h).symm
      | some f => exact Or.inr (.built hkind hfactory)

/-! ### What is recorded of a property -/

namespace Tracks
variable {s w : GraphState} {c : ChangeSet}

/-- A property that is not set is recorded as removed if it was set at the start, and else not at
all. -/
theorem change?_of_none (h : Tracks s w c) {id : NodeId} {k : String} (hk : k ≠ typeProperty)
    (hnone : w.value? id k = none) : c.change? id k = ChangeSet.netChange (s.value? id k) none := by
  rcases hc : c.change? id k with _ | ⟨previous, value⟩
  · rw [← h.unchanged id k hc hk, hnone]
    rfl
  · obtain ⟨hprevious, rfl, -⟩ := h.change id k previous value hc
    obtain ⟨e, he, -, -, rfl, hvalue⟩ := h.filed.change?_eq_some hc
    have hset := h.filed.net e he (hvalue.trans hnone)
    obtain ⟨old, hold⟩ := Option.ne_none_iff_exists'.1 hset
    rw [← hprevious, hold, hnone]
    rfl

/-- The entry that a write leaves goes from the value at the start to what is kept, whatever was
written before. -/
theorem change?_store {t : Transaction} (h : Tracks s t.working t.changes) {node : Node}
    (hnode : t.working.nodes.get? node.id = some node.properties) {key : PropertyKey}
    (hkey : key.name ≠ typeProperty) (v : Value) :
    (t.store node key v).changes.change? node.id key.name =
      ChangeSet.netChange (s.value? node.id key.name) v.kept := by
  cases hv : v.isNull with
  | true =>
    rw [Value.kept, hv]
    refine (h.store hnode hkey v).change?_of_none hkey ?_
    rw [Transaction.value?_store hnode, if_pos rfl, hv]
    rfl
  | false =>
    have hwritten := (h.filed.write node.id key (node.property? key.name) (some v)).2
    have hbase : t.changes.baseOf node.id key.name (node.property? key.name) =
        s.value? node.id key.name := by
      rw [← h.baseOf_eq node.id hkey, GraphState.value?_of_node hnode]
      rfl
    rw [Transaction.store, Value.kept, hv]
    simp only [Bool.false_eq_true, if_false]
    rw [hwritten, if_pos rfl, hbase]

end Tracks

namespace Transaction
variable {g g' : Graph} {t t' : Transaction}

/-- A write that succeeds stores what the conversion made of the value. -/
theorem write_eq_ok {id : NodeId} {key : PropertyKey} {v : Value} {creating : Bool}
    (h : t.write g id key v creating = some (.ok (), g', t')) :
    ∃ node v', t.prepare g id key v creating = .ok (node, v') ∧ t' = t.store node key v' := by
  rw [write] at h
  split at h
  · simp [fail] at h
  · next node v' hprepare =>
    split at h
    · simp at h
    · simp [fail] at h
    · obtain ⟨-, rfl⟩ : _ ∧ t.store node key v' = t' := by simpa using h
      exact ⟨node, v', hprepare, rfl⟩

/-- What is kept of the value is under the key, and all else stays. -/
theorem get?_store {node : Node} (hnode : t.working.nodes.get? node.id = some node.properties)
    (key : PropertyKey) (v : Value) : ∃ p : Properties,
      (∀ k, p.get? k = if k = key.name then v.kept else node.property? k) ∧
        ∀ i, (t.store node key v).working.nodes.get? i =
          if i = node.id then some p else t.working.nodes.get? i := by
  have hadjust : ∀ (f : Properties → Properties) i, (t.working.nodes.adjust node.id f).get? i =
      if i = node.id then some (f node.properties) else t.working.nodes.get? i := by
    intro f i
    rw [Assoc.get?_adjust]
    split
    · next hi => rw [hi, hnode, Option.map_some]
    · rfl
  rw [store, Value.kept]
  cases v.isNull with
  | true =>
    simp only [if_true]
    split
    · next hnone =>
      refine ⟨node.properties, fun k => ?_, fun i => ?_⟩
      · split
        · next hk => exact hk ▸ hnone
        · rfl
      · split
        · next hi => rw [hi, hnode]
        · rfl
    · exact ⟨node.properties.without key.name, Assoc.get?_without _ _, hadjust _⟩
  | false =>
    exact ⟨node.properties.put key.name v, Assoc.get?_put _ _ _, hadjust (Assoc.put · key.name v)⟩

/-- The node is shown with what is kept of the value, and other nodes as before. -/
theorem node?_store (hschema : g'.schema = g.schema) {node : Node}
    (hnode : t.node? g node.id = some node) {key : PropertyKey} (hkey : key.name ≠ typeProperty)
    (v : Value) : ∃ p : Properties,
      (∀ k, p.get? k = if k = key.name then v.kept else node.property? k) ∧
        ∀ i, (t.store node key v).node? g' i =
          if i = node.id then some ⟨node.id, node.type, p⟩ else t.node? g i := by
  obtain ⟨-, hstored, htype⟩ := node?_eq_some hnode
  obtain ⟨p, hp, hrest⟩ := get?_store hstored key v
  refine ⟨p, hp, fun i => ?_⟩
  rw [node?, GraphState.node?, hrest, hschema]
  split
  · next hi =>
    have hsame : g.schema.typeOf? p = some node.type := by
      rw [← htype, Schema.typeOf?, Schema.typeOf?, hp, if_neg (Ne.symm hkey)]
      rfl
    rw [hi, Option.bind_some, Schema.typed?, hsame]
    rfl
  · rfl

end Transaction

/-- What a transaction that began on `base` sees and has recorded once null was written to a
property, of which the conversion made a value. -/
structure NullWritten (base : GraphState) (g : Graph) (t : Transaction) (g' : Graph)
    (t' : Transaction) (node : Node) (key : PropertyKey) (v : Value) : Prop where
  /-- The node has kept the value, and its other properties. -/
  shown : ∃ p : Properties, t'.node? g' node.id = some ⟨node.id, node.type, p⟩ ∧
    ∀ k, p.get? k = if k = key.name then v.kept else node.property? k
  /-- Other nodes are as before. -/
  others : ∀ i, i ≠ node.id → t'.node? g' i = t.node? g i
  /-- If null stayed null, the removal is recorded of a property that was set at the start, and of
  no other. -/
  removal : v = .null →
    (t'.changes.log.filter (·.pair = (node.id, key.name))).map (fun e => (e.previous, e.value)) =
      (base.value? node.id key.name).toList.map fun old => (some old, none)
  /-- If something stood in for it, this is recorded as assigned. -/
  assignment : v ≠ .null →
    (t'.changes.log.filter (·.pair = (node.id, key.name))).map (fun e => (e.previous, e.value)) =
      [(base.value? node.id key.name, some v)]

namespace World
variable {L H : Type} {hooks : Set Nat} {schema : Schema} {locks : LockTable}
  {table : Assoc Nat (CommitHook L)} {host : H} {w₀ w w' : World L H} {k : Nat} {caller : Caller}
  {id : NodeId} {key : PropertyKey}

/-- To remove a property is to store what the conversion makes of null. Where it makes null of it,
the property is gone and its removal recorded; what stands in for null is stored and recorded
instead. Nothing else changes in what the transaction sees. -/
theorem null_written (h₀ : Moves hooks (start schema locks table host) w₀)
    (run : Moves hooks (w₀.begin k caller).2 w)
    (h : w.removeProperty (w₀.begin k caller).1 id key = some (.ok (), w') ∨
      w.setProperty (w₀.begin k caller).1 id key .null = some (.ok (), w')) :
    ∃ t t' node v, w.transactions.get? (w₀.begin k caller).1 = some t ∧
      w'.transactions.get? (w₀.begin k caller).1 = some t' ∧ t.node? w.graph id = some node ∧
      schema.convert w.graph.resolver node.type key t.caller .null = .ok v ∧
      (v = .null ∨ schema.StandsIn node.type key v) ∧
      NullWritten w₀.graph.committed w.graph t w'.graph t' node key v := by
  have hset : w.onTransaction (w₀.begin k caller).1 (fun g t => t.write g id key .null) =
      some (.ok (), w') := by
    rcases h with h | h <;> exact h
  obtain ⟨t, c, ⟨g', t'⟩, ht, hwrite, rfl⟩ := onTransaction_eq_some hset
  obtain ⟨hget, -⟩ := transaction?_eq_some.1 ht
  obtain ⟨node, v, hprepare, rfl⟩ := Transaction.write_eq_ok hwrite
  obtain ⟨hkey, hnode, -, hconverted⟩ := Transaction.prepare_eq_ok hprepare
  obtain ⟨rfl, hstored, -⟩ := Transaction.node?_eq_some hnode
  have hschema : w.graph.schema = schema :=
    (Moves.frame (h₀.through run) (sound_start schema locks table host fun _ => {})).1
  rw [hschema] at hconverted
  have htracks := tracks_after_begin h₀ run hget
  have hlog := (htracks.store hstored hkey v).filed.filter_log node.id key.name
  rw [htracks.change?_store hstored hkey v] at hlog
  have hframe := (Transaction.write_steps (by simp) hwrite).1.frame
  obtain ⟨p, hp, hshown⟩ := Transaction.node?_store hframe.schema hnode hkey v
  refine ⟨t, _, node, v, hget, (get?_put _ _ _ _).trans (if_pos rfl), hnode, hconverted,
    Schema.convert_null hconverted, ⟨p, ?_, hp⟩, fun i hi => ?_, fun hv => ?_, fun hv => ?_⟩
  · exact (hshown node.id).trans (if_pos rfl)
  · exact (hshown i).trans (if_neg hi)
  · rw [hlog, hv, Value.kept_null]
    cases w₀.graph.committed.value? node.id key.name <;> rfl
  · rw [hlog, Value.kept_of_ne_null hv]
    cases w₀.graph.committed.value? node.id key.name <;> rfl

/-! ### A note that cannot be without an age -/

/-- Notes have an age, five where none is given. -/
def agedSchema : Schema :=
  { noteSchema with
    converters := [("note", [("age", .integer)])]
    conversionParameters := [("note", [("age", .int 5)])] }

/-- A client commits a note with a text and an age of one. -/
def aged : World Unit Unit :=
  (perform silent
    [.begin 0 .superUser,
      .operate 0 (.createNode (.root "note") [("age", .int 1), ("text", .string "draft")]),
      .commit 0]
    (start agedSchema {} [(0, {})] ())).get rfl

theorem aged_reached : Moves {0} (start agedSchema {} [(0, {})] ()) aged := by
  have hsound := sound_start agedSchema {} [(0, ({} : CommitHook Unit))] () fun _ => {}
  obtain ⟨log, hrun⟩ : ∃ log, Reaches {0} (start agedSchema {} [(0, {})] ()) log aged := by
    refine perform_reaches lawful_silent hsound ?_ (Option.some_get rfl).symm
    simp [Action.allowed]
  exact hrun.moves hsound

/-- Its age is removed, which succeeds, and it is five. -/
theorem age_not_removed :
    ∃ w', Moves {0} (start agedSchema {} [(0, {})] ()) aged ∧
      (aged.begin 0 .superUser).2.removeProperty 1 ⟨1⟩ (.named "age") = some (.ok (), w') ∧
      (w'.transactions.get? 1).bind (·.working.value? ⟨1⟩ "age") = some (.int 5) ∧
      (w'.transactions.get? 1).map (·.changes.log) =
        some [⟨⟨1⟩, .named "age", some (.int 1), some (.int 5)⟩] :=
  ⟨_, aged_reached, rfl, rfl, rfl⟩

/-- Its text is removed, and it has none. -/
theorem null_written_text :
    ∃ w' t t' node v, (aged.begin 0 .superUser).2.removeProperty 1 ⟨1⟩ (.named "text") =
        some (.ok (), w') ∧ (w'.transactions.get? 1).bind (·.working.value? ⟨1⟩ "text") = none ∧
      NullWritten aged.graph.committed (aged.begin 0 .superUser).2.graph t w'.graph t' node
        (.named "text") v := by
  obtain ⟨w', hremove, hgone⟩ : ∃ w',
      (aged.begin 0 .superUser).2.removeProperty 1 ⟨1⟩ (.named "text") = some (.ok (), w') ∧
        (w'.transactions.get? 1).bind (·.working.value? ⟨1⟩ "text") = none := ⟨_, rfl, rfl⟩
  obtain ⟨t, t', node, v, -, -, -, -, -, hwritten⟩ :=
    null_written aged_reached .refl (Or.inl hremove)
  exact ⟨w', t, t', node, v, hremove, hgone, hwritten⟩

end World
end EntityGraph
