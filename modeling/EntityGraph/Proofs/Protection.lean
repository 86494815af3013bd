import EntityGraph.Proofs.Intact
import EntityGraph.Proofs.UniqueWrites

/-!
Properties that are marked as read-only or as written once. A mark is looked at when a transaction
writes, and then only against what the transaction sees; that two transactions both write for the
first time shows when the second commits. So an entry for a marked property of a node that the
transaction did not make adds a value where there was none, or is not there at all.

Main statements: `Step.spares` — every step of an operation keeps the entries to what marks allow;
`Tracks.protected_apply` — a commit of such entries leaves protected values as they are;
`protected_properties` — from one moment of a run to any later one they stay.
-/

namespace EntityGraph

/-- The type or an ancestor has a mark. -/
def TypeTable.Marks (marks : TypeTable Unit) (type : EntityType) (key : String) : Prop :=
  ∃ name ∈ type.chain, marks.entryOf? name key = some ()

theorem TypeTable.marks_iff (marks : TypeTable Unit) (type : EntityType) (key : String) :
    marks.Marks type key ↔ (marks.inherited? type key).isSome = true := by
  rw [inherited?, Option.isSome_map, Option.isSome_iff_ne_none, Ne, findInChain_eq_none_iff, Marks]
  push Not
  refine exists_congr fun name => and_congr_right fun _ => ?_
  cases marks.entryOf? name key <;> simp

/-- What a change set does to nodes that it did not create is what the marks of their types allow.
-/
def ChangeSet.Spares (c : ChangeSet) (s : Schema) (working : GraphState) : Prop :=
  ∀ id type key previous value, working.type? s id = some type → id ∉ c.createdNodes →
    c.change? id key = some (previous, value) →
      ¬ s.readOnly.Marks type key ∧
        (s.writeOnce.Marks type key → ∀ v, previous = some v → v.isNull = true)

/-! ### Operations -/

namespace Transaction
variable {start : GraphState} {a b : Graph × Transaction}

theorem checkMarks_eq_ok {g : Graph} {node : Node} {key : PropertyKey}
    (h : checkMarks g node key = .ok ()) :
    ¬ g.schema.readOnly.Marks node.type key.name ∧
      (g.schema.writeOnce.Marks node.type key.name →
        ∀ v, node.property? key.name = some v → v.isNull = true) := by
  rw [checkMarks] at h
  split at h
  · simp at h
  · next hreadOnly =>
    split at h
    · simp at h
    · next hwriteOnce =>
      rw [TypeTable.marks_iff, TypeTable.marks_iff]
      refine ⟨hreadOnly, fun hmark v hv => ?_⟩
      simpa [Schema.isWriteOnce, hmark, hv] using hwriteOnce

/-- An entry after a step was there before, or the step wrote the property. -/
theorem Step.entry (ht : Tracks start a.2.working a.2.changes) (h : Step a b) {id : NodeId}
    {k : String} {e : Option Value × Option Value} (hid : b.2.working.nodes.has id = true)
    (hc : b.2.changes.change? id k = some e) :
    a.2.changes.change? id k = some e ∨ ∃ node key v, a.2.node? a.1 node.id = some node ∧
      a.2.Admits a.1 node key v ∧ node.id = id ∧ key.name = k := by
  cases h with
  | refused | skipped => exact Or.inl hc
  | @written g g' t node key v hnode hkey hcheck hadmits =>
    by_cases he : (id, k) = (node.id, key.name)
    · obtain ⟨rfl, rfl⟩ := Prod.mk.inj he
      exact Or.inr ⟨node, key, v, hnode, hadmits, rfl, rfl⟩
    · have hstore := (store_cell ht (node?_eq_some hnode).2.1 key v id k).2 he
      exact Or.inl (hstore.symm.trans hc)
  | entered => exact Or.inl (((ht.filed.createNode _).2 id k).symm.trans hc)
  | related => exact Or.inl (((ht.filed.congr rfl rfl rfl).2 id k).symm.trans hc)
  | @dropped g t r =>
    exact Or.inl ((change?_dropRelationship ht.filed r id k).symm.trans hc)
  | @erased g t i p hp =>
    rw [erase, Assoc.has_without] at hid
    obtain ⟨hne, -⟩ : id ≠ i ∧ t.working.nodes.has id = true := by simpa using hid
    exact Or.inl ((change?_erase ht hp hne k).symm.trans hc)

theorem Step.spares (ht : Tracks start a.2.working a.2.changes)
    (ht' : Tracks start b.2.working b.2.changes) (h : Step a b)
    (ha : a.2.changes.Spares a.1.schema a.2.working) :
    b.2.changes.Spares a.1.schema b.2.working := by
  intro id type k previous value htype hnew hc
  have hid := GraphState.has_of_type? htype
  obtain ⟨hid₀, htype₀⟩ := (h.node hid).resolve_right fun hmade => hnew hmade.2.1
  rw [GraphState.type?_congr htype₀] at htype
  have hnew₀ : id ∉ a.2.changes.createdNodes := by
    intro hmade
    exact hnew ((ht'.created id).2 ⟨hid, ((ht.created id).1 hmade).2⟩)
  rcases h.entry ht hid hc with hold | ⟨node, key, v, hnode, hadmits, rfl, rfl⟩
  · exact ha id type k previous value htype hnew₀ hold
  · obtain rfl := Option.some.inj ((GraphState.type?_of_node hnode).symm.trans htype)
    obtain ⟨hreadOnly, hwriteOnce⟩ := checkMarks_eq_ok (hadmits.marks hnew₀)
    refine ⟨hreadOnly, fun hmark u hu => ?_⟩
    -- the value at the start is that of an earlier entry, or the one that the check saw
    obtain ⟨hstart, -, hkey, -⟩ := ht'.change _ _ _ _ hc
    rcases hc₀ : a.2.changes.change? node.id key.name with _ | ⟨previous₀, value₀⟩
    · refine hwriteOnce hmark u ?_
      rw [← hu, hstart, ← ht.unchanged _ _ hc₀ hkey]
      exact (GraphState.value?_of_node (node?_eq_some hnode).2.1 _).symm
    · obtain ⟨hstart₀, -⟩ := ht.change _ _ _ _ hc₀
      refine (ha _ _ _ _ _ htype hnew₀ hc₀).2 hmark u ?_
      rw [hstart₀, ← hstart, hu]

end Transaction

/-! ### Commits -/

/-- Protected properties of nodes that are in both states have the values that they had. -/
structure Protected (s : Schema) (before after : GraphState) : Prop where
  readOnly : ∀ id type key, before.type? s id = some type → after.nodes.has id = true →
    s.readOnly.Marks type key → after.value? id key = before.value? id key
  writeOnce : ∀ id type key v, before.type? s id = some type → after.nodes.has id = true →
    s.writeOnce.Marks type key → before.value? id key = some v → after.value? id key = some v

/-- What is protected from one state to the next and from there to a third is protected from the
first to the third, as far as nodes of both are in the one between. -/
theorem Protected.trans {s : Schema} {g₀ g₁ g₂ : GraphState} (h : Protected s g₀ g₁)
    (h' : Protected s g₁ g₂) (htypes : g₀.SameTypes g₁)
    (hbetween : ∀ id, g₀.nodes.has id = true → g₂.nodes.has id = true →
      g₁.nodes.has id = true) : Protected s g₀ g₂ := by
  have hmiddle : ∀ {id type}, g₀.type? s id = some type → g₂.nodes.has id = true →
      g₁.nodes.has id = true ∧ g₁.type? s id = some type := by
    intro id type htype h₂
    have h₀ := GraphState.has_of_type? htype
    have h₁ := hbetween id h₀ h₂
    exact ⟨h₁, (GraphState.type?_congr (htypes id h₀ h₁)).symm.trans htype⟩
  refine ⟨fun id type key htype h₂ hmark => ?_, fun id type key v htype h₂ hmark hv => ?_⟩
  · obtain ⟨h₁, htype₁⟩ := hmiddle htype h₂
    exact (h'.readOnly id type key htype₁ h₂ hmark).trans (h.readOnly id type key htype h₁ hmark)
  · obtain ⟨h₁, htype₁⟩ := hmiddle htype h₂
    exact h'.writeOnce id type key v htype₁ h₂ hmark (h.writeOnce id type key v htype h₁ hmark hv)

theorem Value.isNull_of_beq {u v : Value} (h : (v == u) = true) (hu : u.isNull = true) :
    v.isNull = true := by
  cases u <;> simp [isNull] at hu
  cases v <;> first | rfl | exact absurd h Bool.false_ne_true

/-- Entries that marks allow leave protected values of a state that they fit as they are. -/
theorem Tracks.protected_apply {s : Schema} {start working g : GraphState} {c : ChangeSet}
    (h : Tracks start working c) (hspares : c.Spares s working) (hfits : c.Fits g)
    (htypes : working.SameTypes g) (hnull : ∀ id k v, g.value? id k = some v → v.isNull = false)
    (hown : ∀ id, g.nodes.has id = true → id ∉ c.createdNodes) :
    Protected s g (g.apply working c) := by
  have hseen : ∀ {id type key e}, g.type? s id = some type →
      (g.apply working c).nodes.has id = true → c.change? id key = some e →
        working.type? s id = some type := by
    intro id type key e htype hid hc
    have hw := h.has_of_change? hc ((h.has_apply g id).1 hid).1
    rw [← htype]
    exact GraphState.type?_congr (htypes id hw (GraphState.has_of_type? htype))
  have hnew : ∀ {id type}, g.type? s id = some type → id ∉ c.createdNodes :=
    fun htype => hown _ (GraphState.has_of_type? htype)
  have hvalue : ∀ {id type key}, g.type? s id = some type →
      (g.apply working c).nodes.has id = true → (g.apply working c).value? id key =
        if (c.change? id key).isSome then working.value? id key else g.value? id key :=
    fun htype hid => h.value?_apply g ((h.has_apply g _).1 hid).1 (hnew htype)
      (GraphState.has_of_type? htype) _
  refine ⟨fun id type key htype hid hmark => ?_, fun id type key v htype hid hmark hv => ?_⟩
  · rw [hvalue htype hid]
    rcases hc : c.change? id key with _ | ⟨previous, value⟩
    · rfl
    · exact absurd hmark (hspares id type key _ _ (hseen htype hid hc) (hnew htype) hc).1
  · rw [hvalue htype hid]
    rcases hc : c.change? id key with _ | ⟨previous, value⟩
    · exact hv
    · exfalso
      have hunset := (hspares id type key _ _ (hseen htype hid hc) (hnew htype) hc).2 hmark
      obtain ⟨e, he, rfl, rfl, rfl, -⟩ := h.filed.change?_eq_some hc
      obtain ⟨q, hq, hsame⟩ := hfits.writes e he (hnew htype)
      rw [← GraphState.value?_of_node hq, hv] at hsame
      cases hprevious : e.previous with
      | none => simp [hprevious, sameValue] at hsame
      | some u =>
        rw [hprevious] at hsame
        have hv' := Value.isNull_of_beq hsame (hunset u hprevious)
        rw [hnull e.node e.key.name v hv] at hv'
        exact Bool.false_ne_true hv'

/-! ### Runs -/

namespace World
variable {L H : Type} {hooks : Set Nat} {schema : Schema} {locks : LockTable}
  {table : Assoc Nat (CommitHook L)} {host : H} {w w' : World L H}

/-- Every open transaction keeps to what marks allow. -/
theorem Moves.spares (run : Moves hooks (start schema locks table host) w) {n : Nat}
    {t : Transaction} (ht : w.transactions.get? n = some t) :
    t.changes.Spares schema t.working := by
  refine run.transactions (P := fun s t => t.changes.Spares s t.working) (fun _ _ _ => ?_)
    (fun _ ha => ha) (fun ht ht' hstep ha => hstep.spares ht ht' ha)
    (sound_start schema locks table host fun _ => {}) (by simp [start]) n t ht
  intro id type key previous value _ _ hc
  simp [newcomer, ChangeSet.change?, ChangeSet.entryOf?] at hc

/-- A move at some moment of a run leaves what is protected, and types, as they are. -/
theorem Moves.protects (run : Moves hooks (start schema locks table host) w)
    (hmove : Move hooks w w') : w.graph.committed.SameTypes w'.graph.committed ∧
      Protected schema w.graph.committed w'.graph.committed := by
  obtain ⟨o, ho⟩ := run.sound (sound_start schema locks table host fun _ => {})
  rcases hmove.committed ho with he | ⟨n, t, ht, hfits, he⟩
  · rw [he]
    exact ⟨fun _ _ _ => rfl, fun _ _ _ _ _ _ => rfl, fun _ _ _ _ _ _ _ hv => hv⟩
  · rw [he]
    have htracks := ho.tracks n t ht
    have hown : ∀ id, w.graph.committed.nodes.has id = true → id ∉ t.changes.createdNodes :=
      fun _ => ho.not_created ht
    exact ⟨htracks.sameTypes_apply hown, htracks.protected_apply (run.spares ht) hfits
      (ho.sameTypes ht) (run.intact_of_start (Or.inl rfl)).notNull hown⟩

/-- Protected properties stay: from the moment at which a node is committed to any later one at
which it is there, a read-only property has the value that it had, or none if it had none, and a
property that is written once keeps its value as soon as it has one. -/
theorem protected_properties (run : Moves hooks (start schema locks table host) w)
    (later : Moves hooks w w') :
    Protected schema w.graph.committed w'.graph.committed := by
  obtain ⟨o, ho⟩ := run.sound (sound_start schema locks table host fun _ => {})
  suffices h : w.graph.committed.SameTypes w'.graph.committed ∧
      Protected schema w.graph.committed w'.graph.committed from h.2
  induction later with
  | refl => exact ⟨fun _ _ _ => rfl, fun _ _ _ _ _ _ => rfl, fun _ _ _ _ _ _ _ hv => hv⟩
  | tail hmoves hmove ih =>
    obtain ⟨htypes, hprotected⟩ := ih
    obtain ⟨htypes', hprotected'⟩ := Moves.protects (run.trans hmoves) hmove
    have hbetween := fun id (hw : w.graph.committed.nodes.has id = true) =>
      Moves.has_between hmoves hmove ho hw
    refine ⟨fun id hw hid => ?_, hprotected.trans hprotected' htypes hbetween⟩
    have hm := hbetween id hw hid
    exact (htypes id hw hm).trans (htypes' id hm hid)

/-! ### Two titles for one note -/

/-- Notes that keep their origin, and their title once they have one. -/
def markedSchema : Schema :=
  { noteSchema with
    readOnly := [("note", [("origin", ())])]
    writeOnce := [("note", [("title", ())])] }

/-- Two clients give a note without a title one each, and the first commits. -/
def titled : World Unit Unit :=
  (perform silent
    [.begin 0 .superUser, .operate 0 (.createNode (.root "note") [("origin", .string "desk")]),
      .commit 0, .begin 0 .superUser, .begin 0 .superUser,
      .operate 1 (.setProperty ⟨1⟩ (.named "title") (.string "first")),
      .operate 2 (.setProperty ⟨1⟩ (.named "title") (.string "second")), .commit 1]
    (start markedSchema {} [(0, {})] ())).get rfl

/-- The second commits as well, and a third client writes to what is protected. -/
def contested : World Unit Unit :=
  (perform silent
    [.commit 2, .begin 0 .superUser,
      .operate 3 (.setProperty ⟨1⟩ (.named "title") .null),
      .operate 3 (.setProperty ⟨1⟩ (.named "origin") (.string "shelf")),
      .operate 3 (.setProperty ⟨1⟩ (.named "read") (.bool true)), .commit 3] titled).get rfl

/-- The note has its first title and its origin, although it was written to. -/
theorem protected_properties_contested :
    contested.graph.committed.value? ⟨1⟩ "title" = some (.string "first") ∧
      contested.graph.committed.value? ⟨1⟩ "origin" =
        titled.graph.committed.value? ⟨1⟩ "origin" ∧
      contested.graph.committed.value? ⟨1⟩ "read" = some (.bool true) := by
  have hsound := sound_start markedSchema {} [(0, ({} : CommitHook Unit))] () fun _ => {}
  obtain ⟨log, hrun⟩ : ∃ log, Reaches {0} (start markedSchema {} [(0, {})] ()) log titled := by
    refine perform_reaches lawful_silent hsound ?_ (Option.some_get rfl).symm
    simp [Action.allowed]
  obtain ⟨origin, hs, -⟩ := hrun.sound hsound
  obtain ⟨log', hlater⟩ : ∃ log, Reaches {0} titled log contested := by
    refine perform_reaches lawful_silent hs ?_ (Option.some_get rfl).symm
    simp [Action.allowed]
  have hprotected := protected_properties (hrun.moves hsound) (hlater.moves hs)
  have htype : titled.graph.committed.type? markedSchema ⟨1⟩ = some (.root "note") := rfl
  refine ⟨?_, ?_, rfl⟩
  · exact hprotected.writeOnce _ _ "title" _ htype rfl ⟨"note", by decide, rfl⟩ rfl
  · exact hprotected.readOnly _ _ "origin" htype rfl ⟨"note", by decide, rfl⟩

end World
end EntityGraph
