import EntityGraph.Proofs.Clients
import EntityGraph.Proofs.Moments
import EntityGraph.Proofs.UniqueChecks

/-!
What every state is like that a graph has committed or that an open transaction works on.
Relationships stand between nodes of their own state, each node has a type that the schema knows,
and no property holds null. What an identity once names keeps its type in all these states.

Main statements: `Step.intact` — a step of an operation keeps a working copy intact;
`Tracks.intact_apply` — so does a commit, although its changes were made on an older state;
`held_states_intact` — all states are intact at each moment of a run, and no node changes its type.
-/

namespace EntityGraph

/-- Nothing in the state is left hanging. -/
structure GraphState.Intact (s : Schema) (g : GraphState) : Prop where
  /-- The end points of a relationship are there. -/
  ends : ∀ rid r, g.relationships.get? rid = some r →
    g.nodes.has r.start = true ∧ g.nodes.has r.stop = true
  /-- A node names a type that is known. -/
  types : ∀ id, g.nodes.has id = true → ∃ name type,
    g.value? id typeProperty = some (.string name) ∧ s.type? name = some type
  notNull : ∀ id k v, g.value? id k = some v → v.isNull = false

/-- The types that nodes name are those of a table. -/
def GraphState.NamedBy (names : NodeId → Option Value) (g : GraphState) : Prop :=
  ∀ id, g.nodes.has id = true → g.value? id typeProperty = names id

namespace GraphState
variable {s : Schema} {g : GraphState}

theorem intact_empty (s : Schema) : Intact s {} := by
  refine ⟨?_, ?_, ?_⟩ <;> simp [value?, Assoc.has]

/-- A node of an intact state can be read. -/
theorem Intact.readable (h : g.Intact s) {id : NodeId} (hid : g.nodes.has id = true) :
    ∃ node, g.node? s id = some node := by
  obtain ⟨name, type, hname, htype⟩ := h.types id hid
  have hread : g.type? s id = some type := by rw [type?_eq, hname]; exact htype
  obtain ⟨node, hnode, -⟩ := Option.map_eq_some_iff.1 hread
  exact ⟨node, hnode⟩

end GraphState

/-! ### Operations -/

namespace Transaction
variable {a b : Graph × Transaction}

/-- A node after a step was there before, under the same type, or the transaction just made it, of a
type that is known. -/
theorem Step.node (h : Step a b) {id : NodeId} (hid : b.2.working.nodes.has id = true) :
    a.2.working.nodes.has id = true ∧
        b.2.working.value? id typeProperty = a.2.working.value? id typeProperty ∨
      id = ⟨a.1.nextNode⟩ ∧ id ∈ b.2.changes.createdNodes ∧ ∃ name type,
        b.2.working.value? id typeProperty = some (.string name) ∧
          a.1.schema.type? name = some type := by
  cases h with
  | refused => exact Or.inl ⟨hid, rfl⟩
  | @written g g' t node key v hnode hkey hcheck =>
    refine Or.inl ⟨(t.has_store node key v id).symm.trans hid, ?_⟩
    rw [value?_store (node?_eq_some hnode).2.1, if_neg fun he => hkey (Prod.mk.inj he).2.symm]
  | skipped => exact Or.inl ⟨hid, rfl⟩
  | @entered g t name htype =>
    have hvalue := GraphState.value?_put t.working ⟨g.nextNode⟩ [(typeProperty, .string name)] id
    rw [enter, Assoc.has_put] at hid
    by_cases hnew : id = ⟨g.nextNode⟩
    · obtain ⟨type, htype⟩ := Option.isSome_iff_exists.1 htype
      have hcreated := (t.changes.mem_createNode ⟨g.nextNode⟩ id).2 (Or.inl hnew)
      exact Or.inr ⟨hnew, hcreated, name, type, (hvalue _).trans (if_pos hnew), htype⟩
    · exact Or.inl ⟨by simpa [hnew] using hid, (hvalue _).trans (if_neg hnew)⟩
  | related => exact Or.inl ⟨hid, rfl⟩
  | dropped => exact Or.inl ⟨hid, rfl⟩
  | @erased g t i p hp hfree =>
    rw [erase, Assoc.has_without] at hid
    obtain ⟨hne, hid⟩ : id ≠ i ∧ t.working.nodes.has id = true := by simpa using hid
    exact Or.inl ⟨hid, (GraphState.value?_without _ _ _ _).trans (if_neg hne)⟩

/-- A value after a step was there before, or the step stored it; the type of its node stays. -/
theorem Step.value (h : Step a b) {id : NodeId} {k : String} {v : Value} (hk : k ≠ typeProperty)
    (hv : b.2.working.value? id k = some v) :
    b.2.working.value? id typeProperty = a.2.working.value? id typeProperty ∧
      (a.2.working.value? id k = some v ∨
        ∃ node key g, a.2.node? a.1 node.id = some node ∧
          a.2.check a.1 node key v = some (.ok (), g) ∧ a.2.Admits a.1 node key v ∧
          v.isNull = false ∧ node.id = id ∧ key.name = k) := by
  cases h with
  | refused | skipped | related | dropped => exact ⟨rfl, Or.inl hv⟩
  | @written g g' t node key u hnode hkey hcheck hadmits =>
    have hp := (node?_eq_some hnode).2.1
    refine ⟨?_, ?_⟩
    · rw [value?_store hp, if_neg fun he => hkey (Prod.mk.inj he).2.symm]
    · rw [value?_store hp] at hv
      split at hv
      · next he =>
        obtain ⟨rfl, rfl⟩ := Prod.mk.inj he
        split at hv
        · simp at hv
        · next hu =>
          obtain rfl := Option.some.inj hv
          exact Or.inr ⟨node, key, g', hnode, hcheck, hadmits, Bool.not_eq_true _ ▸ hu, rfl, rfl⟩
      · exact Or.inl hv
  | @entered g t name =>
    rw [enter, GraphState.value?_put] at hv
    split at hv
    · rw [Assoc.get?_cons, if_neg (Ne.symm hk)] at hv
      simp at hv
    · next hne => exact ⟨(GraphState.value?_put _ _ _ _ _).trans (if_neg hne), Or.inl hv⟩
  | @erased g t i p =>
    rw [erase, GraphState.value?_without] at hv
    split at hv
    · simp at hv
    · next hne => exact ⟨(GraphState.value?_without _ _ _ _).trans (if_neg hne), Or.inl hv⟩

/-- No step stores null. -/
theorem Step.notNull (h : Step a b)
    (ha : ∀ id k v, a.2.working.value? id k = some v → v.isNull = false) (id : NodeId) (k : String)
    (v : Value) (hv : b.2.working.value? id k = some v) : v.isNull = false := by
  by_cases hk : k = typeProperty
  · subst hk
    rcases h.node (GraphState.has_of_value? hv) with ⟨-, hsame⟩ | ⟨-, -, name, -, hname, -⟩
    · exact ha id _ v (hsame.symm.trans hv)
    · exact Option.some.inj (hname.symm.trans hv) ▸ rfl
  · rcases (h.value hk hv).2 with hold | ⟨-, -, -, -, -, -, hnull, -⟩
    · exact ha id k v hold
    · exact hnull

/-- No step leaves a relationship without its end points: one is created between nodes that are
there, and a node goes once there is no relationship at it. -/
theorem Step.ends (h : Step a b)
    (ha : ∀ rid r, a.2.working.relationships.get? rid = some r →
      a.2.working.nodes.has r.start = true ∧ a.2.working.nodes.has r.stop = true)
    (rid : RelationshipId) (r : Relationship)
    (hr : b.2.working.relationships.get? rid = some r) :
    b.2.working.nodes.has r.start = true ∧ b.2.working.nodes.has r.stop = true := by
  cases h with
  | refused => exact ha rid r hr
  | @written g g' t node key u hnode hkey hcheck =>
    rw [relationships_store] at hr
    rw [has_store, has_store]
    exact ha rid r hr
  | skipped => exact ha rid r hr
  | entered =>
    obtain ⟨hstart, hstop⟩ := ha rid r hr
    rw [enter, Assoc.has_put, Assoc.has_put, hstart, hstop]
    simp
  | @related g t start stop type properties hstart hstop =>
    have hin : ∀ {id}, (t.node? g id).isSome = true → t.working.nodes.has id = true := by
      intro id hid
      obtain ⟨node, hnode⟩ := Option.isSome_iff_exists.1 hid
      exact GraphState.has_of_node? hnode
    rw [relate, Assoc.get?_put] at hr
    split at hr
    · obtain rfl := Option.some.inj hr
      exact ⟨hin hstart, hin hstop⟩
    · exact ha rid r hr
  | dropped =>
    rw [get?_dropRelationship] at hr
    split at hr
    · simp at hr
    · exact ha rid r hr
  | @erased g t i p hp hfree =>
    obtain ⟨hstart, hstop⟩ := ha rid r hr
    have hfar : r.start ≠ i ∧ r.stop ≠ i := by
      simpa [Relationship.touches] using hfree rid r hr
    rw [erase, Assoc.has_without, Assoc.has_without, hstart, hstop]
    simp [hfar]

theorem Step.intact (h : Step a b) (ha : a.2.working.Intact a.1.schema) :
    b.2.working.Intact b.1.schema := by
  rw [h.frame.schema]
  refine ⟨h.ends ha.ends, fun id hid => ?_, h.notNull ha.notNull⟩
  rcases h.node hid with ⟨hid, htype⟩ | ⟨-, -, hnew⟩
  · rw [htype]
    exact ha.types id hid
  · exact hnew

theorem Steps.intact (h : Steps a b) (ha : a.2.working.Intact a.1.schema) :
    b.2.working.Intact b.1.schema := by
  induction h with
  | refl => exact ha
  | tail _ hstep ih => exact hstep.intact ih

/-- Steps name only nodes to which they give out identities. -/
theorem Steps.named (h : Steps a b) {names : NodeId → Option Value}
    (ha : a.2.working.NamedBy names) :
    ∃ names', (∀ id, id.raw < a.1.nextNode → names' id = names id) ∧
      b.2.working.NamedBy names' := by
  induction h with
  | refl => exact ⟨names, fun _ _ => rfl, ha⟩
  | @tail m b hsteps hstep ih =>
    obtain ⟨names', hold, hm⟩ := ih
    refine ⟨Function.update names' ⟨m.1.nextNode⟩ (b.2.working.value? ⟨m.1.nextNode⟩ typeProperty),
      fun id hid => ?_, fun id hid => ?_⟩
    · have hne : id ≠ ⟨m.1.nextNode⟩ := by
        rintro rfl
        exact Nat.lt_irrefl _ (hid.trans_le (Steps.grows hsteps).nextNode)
      rw [Function.update_of_ne hne]
      exact hold id hid
    · by_cases hnew : id = ⟨m.1.nextNode⟩
      · rw [hnew, Function.update_self]
      · obtain ⟨hid, htype⟩ := (hstep.node hid).resolve_right fun h => hnew h.1
        rw [Function.update_of_ne hnew, htype]
        exact hm id hid

end Transaction

/-! ### Commits -/

namespace Tracks
variable {start w g : GraphState} {c : ChangeSet} {s : Schema}

/-- A node after an application is as the working copy has it, or was there before under the same
type. -/
theorem node_apply (h : Tracks start w c) {id : NodeId} (hid : (g.apply w c).nodes.has id = true) :
    w.nodes.has id = true ∧ (∀ k, (g.apply w c).value? id k = w.value? id k) ∨
      g.nodes.has id = true ∧
        (g.apply w c).value? id typeProperty = g.value? id typeProperty ∧
          ∀ k, (g.apply w c).value? id k = w.value? id k ∨
            (g.apply w c).value? id k = g.value? id k := by
  obtain ⟨hd, hor⟩ := (h.has_apply g id).1 hid
  by_cases hc : id ∈ c.createdNodes
  · refine Or.inl ⟨((h.created id).1 hc).1, fun k => ?_⟩
    rw [GraphState.value?, h.get?_apply_created g hc, GraphState.value?]
  · have hg := hor.resolve_left hc
    have hvalue := h.value?_apply g hd hc hg
    refine Or.inr ⟨hg, ?_, fun k => ?_⟩
    · rw [hvalue, h.change?_type]
      rfl
    · rw [hvalue]
      split
      · exact Or.inl rfl
      · exact Or.inr rfl

/-- A relationship that the transaction created finds its end points in the committed state, or
created as well; one that was there does because no node at it is deleted without it. -/
theorem ends_apply (h : Tracks start w c) (hfits : c.Fits g) (hg : g.Tidy) (hwi : w.Intact s)
    (hgi : g.Intact s) (rid : RelationshipId) (r : Relationship)
    (hr : (g.apply w c).relationships.get? rid = some r) :
    (g.apply w c).nodes.has r.start = true ∧ (g.apply w c).nodes.has r.stop = true := by
  rw [GraphState.relationships_apply] at hr
  split at hr
  · simp at hr
  · next hnotDeleted =>
    simp only [h.has_apply]
    split at hr
    · next hcreated =>
      obtain ⟨hin, hstart⟩ := (h.mem_created_ids rid).1 hcreated
      obtain ⟨r', hr'⟩ := (Assoc.has_eq_true_iff _ _).1 hin
      rw [hr', Option.some_or, Option.some.injEq] at hr
      obtain rfl := hr
      obtain rfl := h.tidy.ids rid r' hr'
      have hends := hfits.ends r' ((h.createdRelationships r').2 ⟨hr', hstart⟩)
      have hkept : ∀ {id}, w.nodes.has id = true → id ∉ c.deletedNodes := by
        intro id hid hd
        rw [((h.deleted id).1 hd).2] at hid
        exact Bool.false_ne_true hid
      obtain ⟨hs, ht⟩ := hwi.ends r'.id r' hr'
      exact ⟨⟨hkept hs, hends _ (by simp)⟩, hkept ht, hends _ (by simp)⟩
    · have hkept : ∀ {id}, r.touches id = true → id ∉ c.deletedNodes := by
        intro id htouch hd
        have hvalue := hg.relationships.mem_values_iff.2 ⟨rid, hr⟩
        obtain ⟨d, hdel, hid⟩ := hfits.touching id hd r hvalue htouch
        refine hnotDeleted (List.mem_map.2 ⟨d, hdel, ?_⟩)
        rw [hid, hg.ids rid r hr]
      obtain ⟨hs, ht⟩ := hgi.ends rid r hr
      exact ⟨⟨hkept (by simp [Relationship.touches]), Or.inr hs⟩,
        hkept (by simp [Relationship.touches]), Or.inr ht⟩

theorem intact_apply (h : Tracks start w c) (hfits : c.Fits g) (hg : g.Tidy) (hwi : w.Intact s)
    (hgi : g.Intact s) : (g.apply w c).Intact s := by
  refine ⟨h.ends_apply hfits hg hwi hgi, fun id hid => ?_, fun id k v hv => ?_⟩
  · rcases h.node_apply hid with ⟨hid, hvalue⟩ | ⟨hid, htype, -⟩
    · rw [hvalue]
      exact hwi.types id hid
    · rw [htype]
      exact hgi.types id hid
  · rcases h.node_apply (GraphState.has_of_value? hv) with ⟨-, hvalue⟩ | ⟨-, -, hor⟩
    · exact hwi.notNull id k v ((hvalue k).symm.trans hv)
    · rcases hor k with he | he
      · exact hwi.notNull id k v (he.symm.trans hv)
      · exact hgi.notNull id k v (he.symm.trans hv)

theorem named_apply (h : Tracks start w c) {names : NodeId → Option Value} (hw : w.NamedBy names)
    (hg : g.NamedBy names) : (g.apply w c).NamedBy names := by
  intro id hid
  rcases h.node_apply hid with ⟨hid, hvalue⟩ | ⟨hid, htype, -⟩
  · rw [hvalue]
    exact hw id hid
  · rw [htype]
    exact hg id hid

end Tracks

/-! ### Moments of a run -/

namespace World
variable {L H : Type} {hooks : Set Nat} {w w' : World L H} {origin : Nat → GraphState}

theorem Moves.intact (h : Moves hooks w w') (hs : Sound origin w)
    (hw : ∀ g, w.Holds g → g.Intact w.graph.schema) :
    ∀ g, w'.Holds g → g.Intact w'.graph.schema := by
  rw [(Moves.frame h hs).1]
  refine h.keeps (fun hstep ha => ?_) (fun htracks hfits hg _ => ?_) hs hw
  · rw [← hstep.frame.schema]
    exact hstep.intact ha
  · exact htracks.intact_apply hfits hg

/-- Whatever happens, an identity that was given out keeps its type. -/
theorem Moves.named (h : Moves hooks w w') (hs : Sound origin w) {names : NodeId → Option Value}
    (hw : ∀ g, w.Holds g → g.NamedBy names) :
    ∃ names', (∀ id, id.raw < w.graph.nextNode → names' id = names id) ∧
      ∀ g, w'.Holds g → g.NamedBy names' := by
  induction h with
  | refl => exact ⟨names, fun _ _ => rfl, hw⟩
  | @tail w₁ w' hmoves hmove ih =>
    obtain ⟨names', hold, hnamed⟩ := ih
    obtain ⟨o, ho⟩ := Moves.sound hmoves hs
    rcases hmove.states ho with ⟨n, t, s, ht, hsteps, rfl⟩ | hstates
    · obtain ⟨names'', hold', hs'⟩ := hsteps.named (hnamed _ (Or.inr ⟨n, t, ht, rfl⟩))
      refine ⟨names'', fun id hid => ?_, fun g hg => ?_⟩
      · rw [hold' id (hid.trans_le (Moves.frame hmoves hs).2), hold id hid]
      · rcases Holds.of_put hsteps hg with hg | rfl
        · intro id hid
          rw [hold' id (ho.lt_nextNode hg hid)]
          exact hnamed g hg id hid
        · exact hs'
    · refine ⟨names', hold, fun g hg => ?_⟩
      rcases hstates g hg with hg | ⟨n, t, ht, hfits, rfl⟩
      · exact hnamed g hg
      · exact (ho.tracks n t ht).named_apply (hnamed _ (Or.inr ⟨n, t, ht, rfl⟩))
          (hnamed _ (Or.inl rfl))

theorem Moves.intact_of_start {schema : Schema} {locks : LockTable}
    {table : Assoc Nat (CommitHook L)} {host : H}
    (run : Moves hooks (start schema locks table host) w) {g : GraphState} (hg : w.Holds g) :
    g.Intact w.graph.schema := by
  refine run.intact (sound_start schema locks table host fun _ => {}) (fun g hg => ?_) g hg
  rw [holds_start hg]
  exact GraphState.intact_empty _

/-- At each moment of a run the committed state and all working copies are intact and each of their
nodes can be read, and no node changes its type, neither from state to state nor in time. -/
theorem held_states_intact {schema : Schema} {locks : LockTable} {table : Assoc Nat (CommitHook L)}
    {host : H} (run : Moves hooks (start schema locks table host) w) (later : Moves hooks w w') :
    (∀ g, w'.Holds g → g.Intact schema ∧
      ∀ id, g.nodes.has id = true → ∃ node, g.node? schema id = some node) ∧
    ∀ g g' id node node', w.Holds g → w'.Holds g' → g.node? schema id = some node →
      g'.node? schema id = some node' → node'.type = node.type := by
  have hsound := sound_start schema locks table host fun _ => {}
  have hall : Moves hooks _ w' := run.trans later
  refine ⟨fun g hg => ?_, fun g g' id node node' hg hg' hnode hnode' => ?_⟩
  · have hintact := hall.intact_of_start hg
    rw [(hall.frame hsound).1] at hintact
    exact ⟨hintact, fun id hid => hintact.readable hid⟩
  · have hnone : ∀ g, (start schema locks table host).Holds g → g.NamedBy fun _ => none := by
      intro g hg id hid
      simp [holds_start hg, Assoc.has] at hid
    obtain ⟨names, -, hnamed⟩ := run.named hsound hnone
    obtain ⟨o, ho⟩ := run.sound hsound
    obtain ⟨names', hold, hnamed'⟩ := later.named ho hnamed
    have hid := GraphState.has_of_node? hnode
    have hsame : g.value? id typeProperty = g'.value? id typeProperty := by
      rw [hnamed g hg id hid, hnamed' g' hg' id (GraphState.has_of_node? hnode'),
        hold id (ho.lt_nextNode hg hid)]
    have htype := GraphState.type?_congr (s := schema) hsame
    simpa [GraphState.type?, hnode, hnode', eq_comm] using htype

/-- A client commits another note, to which the first one is related. -/
def linked : World Unit Unit :=
  (perform silent
    [.begin 0 .superUser, .operate 1 (.createNode (.root "note") []),
      .operate 1 (.createRelationship ⟨1⟩ ⟨2⟩ "follows" []), .commit 1] noted).get rfl

/-- The related notes are there, and the first is still a note. -/
theorem held_states_intact_linked :
    ∃ r node node', linked.graph.committed.relationships.get? ⟨1⟩ = some r ∧
      linked.graph.committed.nodes.has r.stop = true ∧
      noted.graph.committed.node? noteSchema ⟨1⟩ = some node ∧
      linked.graph.committed.node? noteSchema ⟨1⟩ = some node' ∧ node'.type = node.type := by
  have hsound := sound_start noteSchema {} blank.hooks () fun _ => {}
  obtain ⟨log, hnoted⟩ := noted_reached
  have hrun : Moves {0} blank noted := hnoted.moves hsound
  obtain ⟨origin, hs, -⟩ := hnoted.sound hsound
  obtain ⟨log', hlinked⟩ : ∃ log, Reaches {0} noted log linked := by
    refine perform_reaches lawful_silent hs ?_ (Option.some_get rfl).symm
    simp [Action.allowed]
  obtain ⟨hintact, htype⟩ := held_states_intact hrun (hlinked.moves hs)
  have hr : ∃ r, linked.graph.committed.relationships.get? ⟨1⟩ = some r := ⟨_, rfl⟩
  have hnode : ∃ node, noted.graph.committed.node? noteSchema ⟨1⟩ = some node := ⟨_, rfl⟩
  have hnode' : ∃ node, linked.graph.committed.node? noteSchema ⟨1⟩ = some node := ⟨_, rfl⟩
  obtain ⟨r, hr⟩ := hr
  obtain ⟨node, hnode⟩ := hnode
  obtain ⟨node', hnode'⟩ := hnode'
  exact ⟨r, node, node', hr, ((hintact _ (Or.inl rfl)).1.ends _ r hr).2, hnode, hnode',
    htype _ _ _ node node' (Or.inl rfl) (Or.inl rfl) hnode hnode'⟩

end World
end EntityGraph
