import EntityGraph.Proofs.Announcements
import EntityGraph.Proofs.Deletions

/-!
The summary of a commit. It is put together from the change set while listeners are told, before the
changes are applied to what others may have committed meanwhile, and with each identity once. It is
nevertheless the difference between the state to which the changes are applied and the one that they
leave, and counts the events without any left out.

Main statements: `Step.distinct` — no step records an object twice; `Tracks.difference` — the
summary of a change set that fits; `summary_eq_difference` — the summary that a commit answers with.
-/

namespace EntityGraph

/-! ### Identities in increasing order -/

section Order
variable {κ : Type} [DecidableEq κ] [LT κ] [DecidableLT κ] [IsStrictTotalOrder κ (· < ·)]

theorem pairwise_addOrdered {l : List κ} (h : l.Pairwise (· < ·)) (k : κ) :
    (addOrdered l k).Pairwise (· < ·) := by
  induction l with
  | nil => exact List.pairwise_singleton _ _
  | cons j l ih =>
    obtain ⟨hj, hl⟩ := List.pairwise_cons.1 h
    rw [addOrdered]
    split
    · exact h
    · next hne =>
      split
      · next hlt =>
        refine List.pairwise_cons.2 ⟨fun i hi => ?_, h⟩
        rcases List.mem_cons.1 hi with rfl | hi
        · exact hlt
        · exact trans_of (· < ·) hlt (hj i hi)
      · next hnlt =>
        have hjk : j < k := (trichotomous_of (· < ·) j k).resolve_right (by tauto)
        refine List.pairwise_cons.2 ⟨fun i hi => ?_, ih hl⟩
        rcases (mem_addOrdered l k i).1 hi with rfl | hi
        · exact hjk
        · exact hj i hi

theorem pairwise_inOrder (l : List κ) : (inOrder l).Pairwise (· < ·) :=
  List.foldlRecOn l addOrdered List.Pairwise.nil fun _ h k _ => pairwise_addOrdered h k

theorem length_inOrder {l : List κ} (h : l.Nodup) : (inOrder l).length = l.length := by
  have hnodup : (inOrder l).Nodup := by
    refine (pairwise_inOrder l).imp fun {a b} hlt he => ?_
    rw [he] at hlt
    exact irrefl_of (· < ·) b hlt
  exact ((List.perm_ext_iff_of_nodup hnodup h).2 (mem_inOrder l)).length_eq

end Order

/-! ### Objects are recorded once -/

/-- Nothing is recorded twice as created or as deleted. -/
structure ChangeSet.Distinct (c : ChangeSet) : Prop where
  createdNodes : c.createdNodes.Nodup
  deletedNodes : c.deletedNodes.Nodup
  createdRelationships : (c.createdRelationships.map (·.id)).Nodup
  deletedRelationships : (c.deletedRelationships.map (·.id)).Nodup

theorem ChangeSet.distinct_empty : Distinct {} :=
  ⟨List.nodup_nil, List.nodup_nil, List.nodup_nil, List.nodup_nil⟩

theorem ChangeSet.Distinct.congr {c d : ChangeSet} (h : c.Distinct) (hs : c.SameObjects d) :
    d.Distinct := by
  obtain ⟨hcn, hdn, hcr, hdr⟩ := hs
  exact ⟨hcn ▸ h.createdNodes, hdn ▸ h.deletedNodes, hcr ▸ h.createdRelationships,
    hdr ▸ h.deletedRelationships⟩

theorem nodup_concat {α : Type} {l : List α} {a : α} (h : l.Nodup) (ha : a ∉ l) :
    (l ++ [a]).Nodup := by
  refine List.nodup_append.2 ⟨h, List.nodup_singleton a, fun b hb d hd he => ha ?_⟩
  rw [← List.mem_singleton.1 hd, ← he]
  exact hb

namespace Transaction
variable {a b : Graph × Transaction} {start : GraphState}

/-- The deletion of a node creates nothing, and records no relationship. -/
theorem recorded_erase (t : Transaction) (id : NodeId) (p : Properties) :
    (t.erase id p).changes.createdNodes.Sublist t.changes.createdNodes ∧
      (t.erase id p).changes.createdRelationships = t.changes.createdRelationships ∧
      (t.erase id p).changes.deletedRelationships = t.changes.deletedRelationships := by
  have hobjects := t.changes.sameObjects_removals id (p.without typeProperty)
  rw [erase, ChangeSet.discardNode]
  by_cases hc : t.changes.isCreated id = true
  · simp only [if_pos hc, if_true]
    exact ⟨List.filter_sublist, trivial, trivial⟩
  · simp only [if_neg hc, Bool.false_eq_true, if_false, recordDeletion, ChangeSet.deleteNode]
    split <;>
      exact ⟨hobjects.createdNodes ▸ List.Sublist.refl _, hobjects.createdRelationships,
        hobjects.deletedRelationships⟩

/-- What is new was not recorded before, and what is deleted is not there any more. -/
theorem Step.distinct (h : Step a b) (ht : Tracks start a.2.working a.2.changes)
    (hw : GivenOut a.1 a.2.working) (ha : a.2.changes.Distinct) : b.2.changes.Distinct := by
  have hdeleted := h.deletedOnce ha.deletedNodes
  cases h with
  | refused | skipped => exact ha
  | @written g g' t node key v => exact ha.congr (t.sameObjects_store node key v)
  | @entered g t type =>
    simp only [enter, ChangeSet.createNode]
    split
    · exact ha
    · next hnew =>
      exact ⟨nodup_concat ha.createdNodes hnew, ha.deletedNodes, ha.createdRelationships,
        ha.deletedRelationships⟩
  | @related g t start stop type properties =>
    refine ⟨ha.createdNodes, ha.deletedNodes, ?_, ha.deletedRelationships⟩
    simp only [relate, ChangeSet.createRelationship, List.map_append]
    refine nodup_concat ha.createdRelationships fun hmem => ?_
    obtain ⟨r, hr, hid⟩ := List.mem_map.1 hmem
    have hin := ((ht.createdRelationships r).1 hr).1
    rw [hid, hw.relationship_new] at hin
    cases hin
  | @dropped g t r hr =>
    simp only [dropRelationship, ChangeSet.discardRelationship]
    split
    · exact ⟨ha.createdNodes, ha.deletedNodes,
        ha.createdRelationships.sublist (List.filter_sublist.map _), ha.deletedRelationships⟩
    · refine ⟨ha.createdNodes, ha.deletedNodes, ha.createdRelationships, ?_⟩
      simp only [Bool.false_eq_true, if_false, ChangeSet.deleteRelationship, List.map_append]
      refine nodup_concat ha.deletedRelationships fun hmem => ?_
      obtain ⟨d, hd, hid⟩ := List.mem_map.1 hmem
      have hout := ((ht.deletedRelationships d).1 hd).2
      rw [hid, hr] at hout
      cases hout
  | @erased g t id p =>
    obtain ⟨hcreated, hcr, hdr⟩ := t.recorded_erase id p
    exact ⟨ha.createdNodes.sublist hcreated, hdeleted, hcr ▸ ha.createdRelationships,
      hdr ▸ ha.deletedRelationships⟩

theorem Steps.distinct (h : Steps a b) (ht : Tracks start a.2.working a.2.changes)
    (hs : GivenOut a.1 start) (hw : GivenOut a.1 a.2.working) (ha : a.2.changes.Distinct) :
    b.2.changes.Distinct := by
  induction h with
  | refl => exact ha
  | tail hab hstep ih =>
    have hgrows := Steps.grows hab
    exact hstep.distinct (ht.steps hs hw hab) (hw.working hgrows) ih

end Transaction

/-! ### The summary of a change set -/

namespace EventPlan
variable {s : Schema} {start w p : GraphState} {c : ChangeSet}

theorem mem_modifiedNodes (id : NodeId) : id ∈ modifiedNodes c ↔
    (∃ e ∈ c.log, e.node = id) ∧ id ∉ c.deletedNodes ∧ id ∉ c.createdNodes := by
  simp only [modifiedNodes, List.mem_filter, List.mem_eraseDups, List.mem_map, survivingChanges,
    ChangeSet.mem_propertyChanges, ChangeSet.isDeleted, ChangeSet.isCreated]
  constructor
  · rintro ⟨⟨e, ⟨he, hd⟩, rfl⟩, hc⟩
    exact ⟨⟨e, he, rfl⟩, by simpa using hd, by simpa using hc⟩
  · rintro ⟨⟨e, he, rfl⟩, hd, hc⟩
    exact ⟨⟨e, ⟨he, by simpa using hd⟩, rfl⟩, by simpa using hc⟩

/-- The entries that are told of, whichever come first. -/
theorem length_survivingChanges (c : ChangeSet) :
    (survivingChanges c).length = (c.log.filter fun e => e.node ∉ c.deletedNodes).length := by
  have hperm : c.propertyChanges.Perm c.log := by
    have h := List.filter_append_perm (fun e : PropertyEntry => !e.isRemoval) c.log
    simpa only [ChangeSet.propertyChanges, ChangeSet.assigned, ChangeSet.removed, Bool.not_not]
      using h
  have hfilter := (hperm.filter fun e => !c.isDeleted e.node).length_eq
  rw [survivingChanges, hfilter]
  congr 2
  funext e
  simp [ChangeSet.isDeleted]

/-- If every object can be told of, the summary has every object. -/
theorem summary_eq (h : Tracks start w c) (hi : w.Intact s) (strict : Bool) (txn : TxnId) :
    summary strict (w.factory s) c txn =
      { txn
        createdNodes := inOrder c.createdNodes
        modifiedNodes := inOrder (modifiedNodes c)
        deletedNodes := inOrder c.deletedNodes
        createdRelationships := inOrder (c.createdRelationships.map (·.id))
        deletedRelationships := inOrder (c.deletedRelationships.map (·.id))
        events := (events s w c).length } := by
  have hfound : ∀ {id}, w.nodes.has id = true → isFound ((w.factory s).node id) = true := by
    intro id hid
    have hnode : (w.factory s).node id = .ok (w.node? s id) := rfl
    rw [hnode, hi.node?_eq hid]
    rfl
  have hcreated : c.createdNodes.filter (isFound <| (w.factory s).node ·) = c.createdNodes :=
    List.filter_eq_self.2 fun id hid => hfound ((h.created id).1 hid).1
  have hmodified : (modifiedNodes c).filter (isFound <| (w.factory s).node ·) = modifiedNodes c :=
    List.filter_eq_self.2 fun id hid => hfound (has_of_modified h hid)
  have hrelationships : ∀ rs : List Relationship,
      rs.filter (isFound <| (w.factory s).relationship ·) = rs := fun rs =>
    List.filter_eq_self.2 fun _ _ => rfl
  rw [summary, hcreated, hmodified, hrelationships, hrelationships, steps_eq h hi, List.length_map]

theorem length_events (s : Schema) (w : GraphState) (c : ChangeSet) :
    (events s w c).length = 2 + c.createdNodes.length + c.createdRelationships.length +
      c.deletedRelationships.length + c.deletedNodes.length + (survivingChanges c).length +
      (modifiedNodes c).length := by
  simp only [events, List.length_cons, List.length_append, List.length_map, List.length_nil]
  omega

end EventPlan

/-- A summary as the difference between two states, for a commit with the given entries. -/
structure CommitSummary.Difference (before after : GraphState) (c : ChangeSet) (s : CommitSummary) :
    Prop where
  createdNodes : ∀ id, id ∈ s.createdNodes ↔
    after.nodes.has id = true ∧ before.nodes.has id = false
  deletedNodes : ∀ id, id ∈ s.deletedNodes ↔
    before.nodes.has id = true ∧ after.nodes.has id = false
  createdRelationships : ∀ id, id ∈ s.createdRelationships ↔
    after.relationships.has id = true ∧ before.relationships.has id = false
  deletedRelationships : ∀ id, id ∈ s.deletedRelationships ↔
    before.relationships.has id = true ∧ after.relationships.has id = false
  modifiedNodes : ∀ id, id ∈ s.modifiedNodes ↔ before.nodes.has id = true ∧
    after.nodes.has id = true ∧ ∃ e ∈ c.log, e.node = id
  /-- Whatever differs is reported. -/
  differing : ∀ id k, before.nodes.has id = true → after.nodes.has id = true →
    after.value? id k ≠ before.value? id k → id ∈ s.modifiedNodes
  disjoint : ∀ id ∈ s.modifiedNodes, id ∉ s.createdNodes ∧ id ∉ s.deletedNodes
  /-- Every identity is listed once. -/
  nodesInOrder : ∀ ids ∈ [s.createdNodes, s.modifiedNodes, s.deletedNodes], ids.Pairwise (· < ·)
  relationshipsInOrder : ∀ ids ∈ [s.createdRelationships, s.deletedRelationships],
    ids.Pairwise (· < ·)
  events : s.events = 2 + s.createdNodes.length + s.createdRelationships.length +
    s.deletedRelationships.length + s.deletedNodes.length +
    (c.log.filter fun e => after.nodes.has e.node).length + s.modifiedNodes.length

namespace Tracks
variable {s : Schema} {start w p : GraphState} {c : ChangeSet}

theorem not_deleted_of_createdRelationship (h : Tracks start w c) {id : RelationshipId}
    (hc : id ∈ c.createdRelationships.map (·.id)) : id ∉ c.deletedRelationships.map (·.id) := by
  intro hmem
  obtain ⟨d, hd, rfl⟩ := List.mem_map.1 hmem
  have hstart := ((h.mem_created_ids d.id).1 hc).2
  rw [((h.deletedRelationships d).1 hd).1] at hstart
  cases hstart

/-- What is written is there after the commit, unless it is deleted. -/
theorem has_apply_of_entry (h : Tracks start w c) (hfits : c.Fits p) {e : PropertyEntry}
    (he : e ∈ c.log) : (p.apply w c).nodes.has e.node = true ↔ e.node ∉ c.deletedNodes := by
  rw [h.has_apply]
  refine ⟨fun hin => hin.1, fun hd => ⟨hd, ?_⟩⟩
  by_cases hc : e.node ∈ c.createdNodes
  · exact Or.inl hc
  · obtain ⟨q, hq, -⟩ := hfits.writes e he hc
    exact Or.inr ((Assoc.has_eq_true_iff _ _).2 ⟨q, hq⟩)

variable (h : Tracks start w c) (hfits : c.Fits p)
  (hnodes : ∀ id, p.nodes.has id = true → id ∉ c.createdNodes)

include h

theorem mem_created_iff (hnodes : ∀ id, p.nodes.has id = true → id ∉ c.createdNodes) (id : NodeId) :
    id ∈ c.createdNodes ↔ (p.apply w c).nodes.has id = true ∧ p.nodes.has id = false := by
  rw [h.has_apply]
  constructor
  · intro hc
    exact ⟨⟨fun hd => h.not_created_of_deleted hd hc, Or.inl hc⟩,
      Bool.eq_false_iff.2 fun hp => hnodes id hp hc⟩
  · rintro ⟨⟨-, hor⟩, hp⟩
    exact hor.resolve_right (Bool.eq_false_iff.1 hp)

include hfits

theorem mem_deleted_iff (id : NodeId) :
    id ∈ c.deletedNodes ↔ p.nodes.has id = true ∧ (p.apply w c).nodes.has id = false := by
  rw [Bool.eq_false_iff, ne_eq, h.has_apply]
  constructor
  · intro hd
    obtain ⟨snap, hsnap, -⟩ := h.snapshot_eq hd
    obtain ⟨q, hq, -⟩ := hfits.deletions id snap hsnap
    exact ⟨(Assoc.has_eq_true_iff _ _).2 ⟨q, hq⟩, fun hin => hin.1 hd⟩
  · rintro ⟨hp, hout⟩
    by_contra hd
    exact hout ⟨hd, Or.inr hp⟩

include hnodes

theorem mem_modified_iff (id : NodeId) : id ∈ EventPlan.modifiedNodes c ↔
    p.nodes.has id = true ∧ (p.apply w c).nodes.has id = true ∧ ∃ e ∈ c.log, e.node = id := by
  rw [EventPlan.mem_modifiedNodes]
  constructor
  · rintro ⟨⟨e, he, rfl⟩, hd, hc⟩
    obtain ⟨q, hq, -⟩ := hfits.writes e he hc
    exact ⟨(Assoc.has_eq_true_iff _ _).2 ⟨q, hq⟩, (h.has_apply_of_entry hfits he).2 hd, e, he, rfl⟩
  · rintro ⟨hp, hin, hentry⟩
    exact ⟨hentry, ((h.has_apply p id).1 hin).1, hnodes id hp⟩

/-- The summary of a change set that fits a state to which its objects are new. -/
theorem difference (hi : w.Intact s) (hdistinct : c.Distinct)
    (hseen : AsSeen p w (p.apply w c) c)
    (hrelationships : ∀ id, p.relationships.has id = true →
      id ∉ c.createdRelationships.map (·.id)) (strict : Bool) (txn : TxnId) :
    (EventPlan.summary strict (w.factory s) c txn).Difference p (p.apply w c) c := by
  rw [EventPlan.summary_eq h hi]
  have hmodified := h.mem_modified_iff hfits hnodes
  constructor
  all_goals simp only [mem_inOrder]
  · exact h.mem_created_iff hnodes
  · exact h.mem_deleted_iff hfits
  · intro id
    rw [hseen.relationships]
    constructor
    · intro hc
      exact ⟨⟨Or.inr hc, h.not_deleted_of_createdRelationship hc⟩,
        Bool.eq_false_iff.2 fun hp => hrelationships id hp hc⟩
    · rintro ⟨⟨hor, -⟩, hp⟩
      exact hor.resolve_left (Bool.eq_false_iff.1 hp)
  · intro id
    rw [Bool.eq_false_iff, ne_eq, hseen.relationships]
    constructor
    · intro hd
      obtain ⟨r, hr, rfl⟩ := List.mem_map.1 hd
      exact ⟨hfits.relationships r hr, fun hin => hin.2 hd⟩
    · rintro ⟨hp, hout⟩
      by_contra hd
      exact hout ⟨Or.inl hp, hd⟩
  · exact hmodified
  · intro id k hp hin hne
    obtain ⟨hd, -⟩ := (h.has_apply p id).1 hin
    have hvalue := h.value?_apply p hd (hnodes id hp) hp k
    rcases hchange : c.change? id k with _ | ⟨previous, value⟩
    · rw [hchange] at hvalue
      exact absurd hvalue hne
    · obtain ⟨e, he, hid, -⟩ := h.filed.change?_eq_some hchange
      exact (hmodified id).2 ⟨hp, hin, e, he, hid⟩
  · intro id hid
    obtain ⟨-, hd, hc⟩ := (EventPlan.mem_modifiedNodes id).1 hid
    exact ⟨hc, hd⟩
  · simp only [List.mem_cons, List.not_mem_nil, or_false]
    rintro ids (rfl | rfl | rfl) <;> exact pairwise_inOrder _
  · simp only [List.mem_cons, List.not_mem_nil, or_false]
    rintro ids (rfl | rfl) <;> exact pairwise_inOrder _
  · rw [EventPlan.length_events, EventPlan.length_survivingChanges,
      length_inOrder hdistinct.createdNodes, length_inOrder hdistinct.deletedNodes,
      length_inOrder hdistinct.createdRelationships, length_inOrder hdistinct.deletedRelationships,
      length_inOrder (Announcement.inTurn_modifiedNodes c).once, List.length_map, List.length_map]
    congr 3
    refine List.filter_congr fun e he => ?_
    rw [Bool.eq_iff_iff, decide_eq_true_iff, h.has_apply_of_entry hfits he]

end Tracks

/-! ### Commits -/

namespace World
variable {L H : Type} {react : Reaction L H} {hooks : Set Nat} {schema : Schema}
  {locks : LockTable} {table : Assoc Nat (CommitHook L)} {host : H} {w w' : World L H} {n : Nat}
  {s : CommitSummary}

theorem invariant_distinct : Invariant hooks fun w : World L H =>
    ∀ n t, w.transactions.get? n = some t → t.changes.Distinct where
  aside hp ha := by
    rw [ha.transactions]
    exact hp
  begin caller hp _ n t ht := by
    rcases get?_of_begin ht with ⟨-, rfl⟩ | ⟨-, ht⟩
    · exact ChangeSet.distinct_empty
    · exact hp n t ht
  put hs hp ht hsteps n t' ht' := by
    rcases get?_of_put ht' with ⟨rfl, rfl⟩ | ⟨-, ht'⟩
    · obtain ⟨hgo, hgw⟩ := hs.givenOut ht
      exact hsteps.distinct (hs.tracks _ _ ht) hgo hgw (hp _ _ ht)
    · exact hp n t' ht'
  close m hp n t ht := by
    obtain ⟨t₀, ht₀, he, -⟩ := get?_of_close ht
    rw [he]
    exact hp n t₀ ht₀
  settle _ hp _ _ n t ht := hp n t (get?_of_forget ht).2
  forget hp _ n t ht := hp n t (get?_of_forget ht).2

/-- No transaction makes a relationship that is committed. -/
theorem Sound.not_createdRelationship {origin : Nat → GraphState} (h : Sound origin w)
    {t : Transaction} (ht : w.transactions.get? n = some t) {id : RelationshipId}
    (hc : w.graph.committed.relationships.has id = true) :
    id ∉ t.changes.createdRelationships.map (·.id) := by
  intro hcreated
  obtain ⟨hw, hs⟩ := ((h.tracks n t ht).mem_created_ids id).1 hcreated
  exact h.relationships.unseen n id.raw ⟨t, ht, hw⟩ (Sound.not_originSees hs) hc

/-- The summary of a commit is the difference that it made: between the state to which the changes
were applied, which is the committed state but for what listeners committed while they were told,
and the state that it left. -/
theorem summary_eq_difference (hl : Lawful hooks react)
    (h₀ : Moves hooks (start schema locks table host) w)
    (hcommit : w.commit react n = some (.ok s, w')) :
    ∃ t c w₂ log, w.transaction? n = some (t, c) ∧ w.announced? react n = some w₂ ∧
      Reaches hooks (w.close n) log w₂ ∧
      w₂.graph.committed = replay w.graph.committed log ∧
      w'.graph.committed = w₂.graph.committed.apply t.working t.changes ∧ s.txn = t.txn ∧
      s.Difference w₂.graph.committed w'.graph.committed t.changes := by
  have hstart := sound_start schema locks table host fun _ => {}
  obtain ⟨origin, hs⟩ := h₀.sound hstart
  obtain ⟨t, c, ht⟩ := open_of_commit hcommit
  obtain ⟨hget, hctx⟩ := transaction?_eq_some.1 ht
  obtain ⟨hactive, hfailure⟩ := hs.active ht
  rcases commit_eq_some ht hactive hfailure hcommit with ⟨e, -, he, -⟩ |
    ⟨-, o, c', w₂, hbefore, hend⟩
  · cases he
  obtain ⟨ds, d, htold, -, hd⟩ := beforeCommit_spec hactive hbefore
  cases d with
  | error e =>
    obtain ⟨he, -⟩ := hd
    obtain rfl := Except.ok.inj he
    cases hend.1
  | ok =>
    obtain ⟨he, -⟩ := hd
    obtain rfl := Except.ok.inj he
    cases hconflict : t.changes.conflict? w₂.graph.committed with
    | some e =>
      rw [hconflict] at hend
      cases hend.1
    | none =>
      rw [hconflict] at hend
      obtain ⟨hsummary, rfl⟩ := hend
      obtain rfl := Except.ok.inj hsummary
      obtain ⟨log, hrun⟩ := htold.reaches hl
      obtain ⟨hclosed, -, o₂, hs₂, hsame⟩ := hs.closed ht hrun
      have htracks := hs.tracks n t hget
      have hintact := h₀.intact_of_start (Or.inr ⟨n, t, hget, rfl⟩)
      have hdistinct := invariant_distinct.moves h₀ hstart (by simp [start]) n t hget
      have hfits := (t.changes.conflict?_eq_none_iff _).1 hconflict
      have hrecords := fun id r r' => hs₂.records n _ id r r' hclosed
      rw [hsame] at hrecords
      have hseen := htracks.asSeen (hs.origins n t hget) hrecords
      refine ⟨t, c, w₂, log, ht, ?_, hrun, hrun.committed_eq, rfl, ?_, ?_⟩
      · simp only [announced?, ht, hbefore]
      · rw [hs.contexts n t c hget hctx]
        rfl
      · exact htracks.difference hfits (fun id hid => hs₂.not_created hclosed hid) hintact
          hdistinct hseen (fun id hid => hs₂.not_createdRelationship hclosed hid) _ _

/-- The summary of a commit beside another. -/
theorem summary_eq_difference_shared :
    ∃ t c w₂ log s w', shared.commit silent 1 = some (.ok s, w') ∧
      s.modifiedNodes = [⟨1⟩] ∧ s.events = 4 ∧ shared.transaction? 1 = some (t, c) ∧
      Reaches {0} (shared.close 1) log w₂ ∧
      s.Difference w₂.graph.committed w'.graph.committed t.changes := by
  obtain ⟨log₀, h₀⟩ := noted_reached
  obtain ⟨log₁, h₁⟩ := shared_reached
  have hsound := sound_start noteSchema {} blank.hooks () fun _ => {}
  obtain ⟨origin, hs, -⟩ := h₀.sound hsound
  have hbegin : Reaches {0} noted [] (noted.begin 0 .superUser).2 :=
    (Reaches.refl noted).begin _ rfl
  have hmoves := (h₀.trans (hbegin.trans h₁)).moves hsound
  have hcommit : ∃ s w', shared.commit silent 1 = some (.ok s, w') ∧ s.modifiedNodes = [⟨1⟩] ∧
      s.events = 4 := ⟨_, _, rfl, rfl, rfl⟩
  obtain ⟨s, w', hcommit, hmodified, hevents⟩ := hcommit
  obtain ⟨t, c, w₂, log, ht, -, hrun, -, -, -, hdifference⟩ :=
    summary_eq_difference lawful_silent hmoves hcommit
  exact ⟨t, c, w₂, log, s, w', hcommit, hmodified, hevents, ht, hrun, hdifference⟩

end World
end EntityGraph
