import EntityGraph.Proofs.Dispatches
import EntityGraph.Proofs.Plans

/-!
What a replica makes of the events that it hears of. A replica stores what a creation event shows,
writes what a modification event tells and forgets what a deletion event names. The events of one
commit make of a copy of the committed state a copy of the state that the commit leaves, although
the two are made in a different order.

Main statements: `Tracks.foldl_events` — one commit, event by event; `replica_eq_committed` — a
replica that follows one listener of each commit is the committed state after each commit.
-/

namespace EntityGraph

namespace GraphState

/-- What a replica makes of an event that it hears of. -/
def follow (g : GraphState) : Event → GraphState
  | .nodeCreated node => { g with nodes := g.nodes.put node.id node.properties }
  | .propertyModified node key _ (some v) =>
    { g with nodes := g.nodes.adjust node.id (Assoc.put · key.name v) }
  | .propertyModified node key _ none =>
    { g with nodes := g.nodes.adjust node.id (Assoc.without · key.name) }
  | .relationshipCreated r => { g with relationships := g.relationships.put r.id r }
  | .relationshipDeleted r => { g with relationships := g.relationships.without r.id }
  | .nodeDeleted id _ => { g with nodes := g.nodes.without id }
  | _ => g

/-- The state with whatever was created and without whatever was deleted. -/
def moved (g working : GraphState) (c : ChangeSet) : GraphState where
  nodes := c.deletedNodes.foldl Assoc.without
    (c.createdNodes.foldl (Assoc.copy working.nodes) g.nodes)
  relationships := (c.deletedRelationships.map (·.id)).foldl Assoc.without
    ((c.createdRelationships.map (·.id)).foldl (Assoc.copy working.relationships) g.relationships)

end GraphState

namespace Tracks
variable {s : Schema} {start w p : GraphState} {c : ChangeSet}

theorem foldl_created (h : Tracks start w c) (hi : w.Intact s) (p : GraphState) :
    (c.createdNodes.map fun id => Event.nodeCreated (w.nodeOf s id)).foldl GraphState.follow p =
      c.createdNodes.foldl (GraphState.addNode w) p := by
  rw [List.foldl_map]
  refine List.foldl_ext _ _ _ fun g id hid => ?_
  obtain ⟨hid, hget⟩ := hi.get?_eq ((h.created id).1 hid).1
  rw [GraphState.follow, GraphState.addNode, hget, hid]

theorem foldl_createdRelationships (h : Tracks start w c) (p : GraphState) :
    (c.createdRelationships.map Event.relationshipCreated).foldl GraphState.follow p =
      (c.createdRelationships.map (·.id)).foldl (GraphState.addRelationship w) p := by
  rw [List.foldl_map, List.foldl_map]
  refine List.foldl_ext _ _ _ fun g r hr => ?_
  rw [GraphState.follow, GraphState.addRelationship, ((h.createdRelationships r).1 hr).1]

theorem foldl_deletedRelationships (rs : List Relationship) (p : GraphState) :
    (rs.map Event.relationshipDeleted).foldl GraphState.follow p =
      (rs.map (·.id)).foldl GraphState.removeRelationship p := by
  rw [List.foldl_map, List.foldl_map]
  rfl

theorem foldl_deletedNodes (removed : NodeId → Properties) (ids : List NodeId) (p : GraphState) :
    (ids.map fun id => Event.nodeDeleted id (removed id)).foldl GraphState.follow p =
      ids.foldl GraphState.removeNode p := by
  rw [List.foldl_map]
  rfl

/-- A replica writes whatever was written, also to nodes that it just created. -/
theorem foldl_modified (h : Tracks start w c) (hi : w.Intact s) (p : GraphState) :
    ((EventPlan.survivingChanges c).map fun e =>
        Event.propertyModified (w.nodeOf s e.node) e.key e.previous e.value).foldl
      GraphState.follow p =
      (EventPlan.survivingChanges c).foldl (GraphState.applyEntry {}) p := by
  rw [List.foldl_map]
  refine List.foldl_ext _ _ _ fun g e he => ?_
  obtain ⟨hid, -⟩ := hi.get?_eq (EventPlan.has_of_survivingChange h he)
  rw [GraphState.applyEntry, if_neg (by simp [ChangeSet.isCreated, ChangeSet.isDeleted])]
  cases e.value <;> rw [GraphState.follow, hid]

theorem foldl_summaries (f : NodeId → Node) (ids : List NodeId) (p : GraphState) :
    (ids.map fun id => Event.nodeModified (f id)).foldl GraphState.follow p = p := by
  induction ids with
  | nil => rfl
  | cons id ids ih => exact ih

/-- A replica that hears of a commit creates and deletes first and then writes. -/
theorem foldl_events_eq (h : Tracks start w c) (hi : w.Intact s) (p : GraphState) :
    (EventPlan.events s w c).foldl GraphState.follow p =
      (EventPlan.survivingChanges c).foldl (GraphState.applyEntry {}) (p.moved w c) := by
  simp only [EventPlan.events, List.foldl_cons, List.foldl_append, h.foldl_created hi,
    h.foldl_createdRelationships, foldl_deletedRelationships, foldl_deletedNodes,
    h.foldl_modified hi, foldl_summaries, GraphState.foldl_removeNode,
    GraphState.foldl_removeRelationship, GraphState.foldl_addRelationship, GraphState.foldl_addNode]
  rfl

/-- The entries of a node that is there afterwards can all be told of. -/
theorem filter_survivingChanges {id : NodeId} (hd : id ∉ c.deletedNodes) :
    (EventPlan.survivingChanges c).filter (·.node = id) =
      c.propertyChanges.filter (·.node = id) := by
  rw [EventPlan.survivingChanges, List.filter_filter]
  refine List.filter_congr fun e _ => ?_
  rcases eq_or_ne e.node id with rfl | he
  · simp [ChangeSet.isDeleted, hd]
  · simp [he]

/-- Going through the entries of a created node once more changes nothing. -/
theorem foldl_edit_created (h : Tracks start w c) {id : NodeId} {q : Properties}
    (hq : w.nodes.get? id = some q) :
    (c.propertyChanges.filter (·.node = id)).foldl GraphState.edit q = q := by
  have hord := h.tidy.properties id q hq
  refine (GraphState.ordered_foldl_edit _ q hord).ext hord fun k => ?_
  rw [GraphState.get?_foldl_edit h.filed]
  rcases hchange : c.change? id k with _ | ⟨previous, value⟩
  · rfl
  · rw [← GraphState.value?_of_node hq]
    exact (h.change id k previous value hchange).2.1

/-- The nodes of a replica that heard of a commit. A created node came with the values that its
entries then write once more. -/
theorem get?_followed (h : Tracks start w c) (id : NodeId) :
    ((EventPlan.survivingChanges c).foldl (GraphState.applyEntry {}) (p.moved w c)).nodes.get? id =
      (p.apply w c).nodes.get? id := by
  rw [(GraphState.foldl_applyEntry _ _ _).2, GraphState.nodes_apply, GraphState.moved,
    Assoc.get?_foldl_without, Assoc.get?_foldl_copy,
    if_neg (by simp [ChangeSet.isCreated, ChangeSet.isDeleted])]
  by_cases hd : id ∈ c.deletedNodes
  · simp [hd]
  · rw [if_neg hd, if_neg hd, filter_survivingChanges hd]
    by_cases hc : id ∈ c.createdNodes
    · obtain ⟨q, hq⟩ := (Assoc.has_eq_true_iff _ _).1 ((h.created id).1 hc).1
      rw [if_pos hc, if_pos hc, hq, Option.some_or, Option.map_some, h.foldl_edit_created hq]
    · rw [if_neg hc, if_neg hc]

/-- A replica of the committed state that hears of a commit becomes a replica of what it leaves. -/
theorem foldl_events (h : Tracks start w c) (hi : w.Intact s) (hp : p.Tidy) :
    (EventPlan.events s w c).foldl GraphState.follow p = p.apply w c := by
  have hmoved : (p.moved w c).nodes.Ordered := (hp.nodes.foldl_copy w.nodes _).foldl_without _
  have hfollowed := GraphState.ordered_foldl_applyEntry {} (EventPlan.survivingChanges c) _ hmoved
  rw [h.foldl_events_eq hi]
  refine GraphState.ext (hfollowed.ext (hp.apply h.tidy c).nodes h.get?_followed) ?_
  simp only [(GraphState.foldl_applyEntry _ _ _).1, GraphState.moved, GraphState.apply,
    GraphState.foldl_removeNode, GraphState.foldl_removeRelationship,
    GraphState.foldl_addRelationship, GraphState.foldl_addNode]

end Tracks

/-! ### What one listener hears -/

namespace GraphState

theorem follow_follow (g : GraphState) (e : Event) : (g.follow e).follow e = g.follow e := by
  cases e with
  | nodeCreated | relationshipCreated => simp [follow, Assoc.put_put]
  | nodeDeleted | relationshipDeleted => simp [follow, Assoc.without_without]
  | propertyModified node key old new =>
    cases new with
    | none => rw [follow, follow, Assoc.adjust_adjust _ _ _ fun p => Assoc.without_without p _]
    | some v => rw [follow, follow, Assoc.adjust_adjust _ _ _ fun p => Assoc.put_put p _ _]
  | begin | nodeModified | commit | rollback | visited => rfl

/-- Hearing of an event several times is like hearing of it once. -/
theorem foldl_follow_same {e : Event} {l : List Event} (hne : l ≠ []) (h : ∀ x ∈ l, x = e)
    (g : GraphState) : l.foldl follow g = g.follow e := by
  induction l generalizing g with
  | nil => exact absurd rfl hne
  | cons x l ih =>
    obtain rfl := h x (by simp)
    rw [List.foldl_cons]
    rcases eq_or_ne l [] with rfl | hl
    · rfl
    · rw [ih hl (fun y hy => h y (by simp [hy])), follow_follow]

end GraphState

namespace World
variable {L H : Type}

theorem foldl_follow_heard [DecidableEq L] {l : L} {ls : List L} (hl : l ∈ ls)
    (es : List Event) (g : GraphState) :
    (heard l (es.flatMap (taken ls))).foldl GraphState.follow g =
      es.foldl GraphState.follow g := by
  induction es generalizing g with
  | nil => rfl
  | cons e es ih =>
    have hone : (heard l (taken ls e)).foldl GraphState.follow g = g.follow e := by
      refine GraphState.foldl_follow_same ?_ (fun x hx => ?_) g
      · simpa [heard, taken, List.filter_map] using hl
      · simp only [heard, taken, List.mem_map, List.mem_filter] at hx
        obtain ⟨d, ⟨⟨l', -, rfl⟩, -⟩, rfl⟩ := hx
        rfl
    rw [List.flatMap_cons, heard, List.filter_append, List.map_append, List.foldl_append,
      List.foldl_cons, ← hone]
    exact ih _

/-- If the dispatch of a plan is complete, every listener took every event. -/
theorem Dispatched.eq_of_ok {ls : List L} {steps : List PlanStep} {ds : List (Delivery L)}
    (h : Dispatched ls steps ds (.ok ())) {es : List Event} (hsteps : steps = es.map .ok) :
    ds = es.flatMap (taken ls) := by
  cases h with
  | complete es' =>
    have hinj : Function.Injective (Except.ok : Event → PlanStep) := fun _ _ => Except.ok.inj
    rw [hinj.list_map hsteps]

/-! ### Runs with what was told -/

/-- A commit that succeeded, the listeners that were registered when it was told of, and what was
delivered to them. -/
structure Notice (L : Type) where
  commit : CommitRecord
  listeners : List L
  deliveries : List (Delivery L)

/-- Runs as before, which list with each commit what listeners were told of it. -/
inductive Heard (react : Reaction L H) (hooks : Set Nat) :
    World L H → List (Notice L) → World L H → Prop
  | refl (w) : Heard react hooks w [] w
  | aside {w log w₁ w₂} (run : Heard react hooks w log w₁) (h : Aside w₁ w₂) :
    Heard react hooks w log w₂
  | begin {w log w₁ h} (caller : Caller) (run : Heard react hooks w log w₁) (hh : h ∈ hooks) :
    Heard react hooks w log (w₁.begin h caller).2
  | operation {w log w₁ n o r w₂} (run : Heard react hooks w log w₁)
    (h : w₁.onTransaction n (Operation.run o) = some (r, w₂)) : Heard react hooks w log w₂
  | commit {w log w₁ n t c ds log' w₂} (run : Heard react hooks w log w₁)
    (ht : w₁.transaction? n = some (t, c)) (told : Attempted react w₁ n t c ds w₂ (.ok ()))
    (meanwhile : Heard react hooks (w₁.close n) log' w₂)
    (hfits : t.changes.conflict? w₂.graph.committed = none) :
    Heard react hooks w (log ++ log' ++ [⟨⟨n, w₂.graph.committed, t⟩,
      (w₁.hook t.hook).listeners.snapshot, ds⟩]) (w₂.settle n t)
  | rollback {w log w₁ n t c log' w₂} (run : Heard react hooks w log w₁)
    (ht : w₁.transaction? n = some (t, c)) (meanwhile : Heard react hooks (w₁.close n) log' w₂) :
    Heard react hooks w (log ++ log') (w₂.forget n t.txn)

variable {react : Reaction L H} {hooks : Set Nat} {w w' w₁ w₂ : World L H}
  {log log' : List (Notice L)} {n : Nat} {t : Transaction} {c : TransactionContext}
  {ds : List (Delivery L)}

theorem Heard.reaches (h : Heard react hooks w log w₁) :
    Reaches hooks w (log.map (·.commit)) w₁ := by
  induction h with
  | refl => exact .refl _
  | aside _ ha ih => exact ih.aside ha
  | begin caller _ hh ih => exact ih.begin caller hh
  | operation _ hop ih => exact ih.operation hop
  | commit _ ht _ _ hfits ih ihm =>
    rw [List.map_append, List.map_append]
    exact ih.commit ht ihm hfits
  | rollback _ ht _ ih ihm =>
    rw [List.map_append]
    exact ih.rollback ht ihm

theorem Heard.trans (h : Heard react hooks w log w₁) (h' : Heard react hooks w₁ log' w₂) :
    Heard react hooks w (log ++ log') w₂ := by
  induction h' with
  | refl => simpa using h
  | aside _ ha ih => exact (ih h).aside ha
  | begin caller _ hh ih => exact (ih h).begin caller hh
  | operation _ hop ih => exact (ih h).operation hop
  | commit _ ht told meanwhile hfits ih _ =>
    simpa only [List.append_assoc] using (ih h).commit ht told meanwhile hfits
  | rollback _ ht meanwhile ih _ =>
    simpa only [List.append_assoc] using (ih h).rollback ht meanwhile

/-- An attempt without a failure told every listener of the whole plan. -/
theorem Attempted.dispatched_of_ok (h : Attempted react w n t c ds w₁ (.ok ())) :
    Dispatched (w.hook t.hook).listeners.snapshot
      (EventPlan.steps (w.hook t.hook).settings.strictRehydration
        (t.working.factory w.graph.schema) t.changes) ds (.ok ()) := by
  generalize hr : (.ok () : Except Failure Unit) = r at h
  cases h with
  | stale | refused => simp at hr
  | dispatched _ _ hd =>
    rw [← hr]
    exact hd

/-- A commit that succeeds is listed with what was delivered, after the commits that listeners made
meanwhile. -/
theorem heard_of_commit {s : CommitSummary} (ht : w.transaction? n = some (t, c))
    (hactive : c.status = .active) (hc : c.failure = none)
    (h : w.commit react n = some (.ok s, w')) :
    ∃ ds w₂, Told react c.caller c.txn (w.close n) ds w₂ ∧
      ∀ log', Heard react hooks (w.close n) log' w₂ →
        Heard react hooks w (log' ++ [⟨⟨n, w₂.graph.committed, t⟩,
          (w.hook t.hook).listeners.snapshot, ds⟩]) w' := by
  obtain ⟨ds, w₂, hattempt, -, hfits, rfl⟩ := commit_spec ht hactive hc h
  refine ⟨ds, w₂, hattempt.told, fun log' hmeanwhile => ?_⟩
  exact ((Heard.refl w).commit ht hattempt hmeanwhile hfits).aside (aside_count _ _ _)

/-! ### A replica -/

section Replica
variable [DecidableEq L]

/-- Whichever listener a replica follows, what it heard makes of the state before the commit the
state after it. -/
structure Notice.Complete (a : Notice L) : Prop where
  tidy : a.commit.transaction.working.Tidy
  follows : ∀ l ∈ a.listeners, ∀ p : GraphState, p.Tidy →
    (heard l a.deliveries).foldl GraphState.follow p =
      p.apply a.commit.transaction.working a.commit.transaction.changes

theorem Heard.complete (h : Heard react hooks w log w₁) {origin : Nat → GraphState}
    (hs : Sound origin w) (hi : ∀ g, w.Holds g → g.Intact w.graph.schema) :
    ∀ a ∈ log, a.Complete := by
  induction h generalizing origin with
  | refl => simp
  | aside _ _ ih => exact ih hs hi
  | begin _ _ _ ih => exact ih hs hi
  | operation _ _ ih => exact ih hs hi
  | @commit w log w₁ n t c ds log' w₂ run ht told meanwhile hfits ih ihm =>
    obtain ⟨o, ho, -⟩ := run.reaches.sound hs
    have hmoves := run.reaches.moves hs
    have hclose : Moves hooks w (w₁.close n) := hmoves.tail (.close ht)
    have hmeanwhile := ihm (ho.close n) (hclose.intact hs hi)
    obtain ⟨hget, -⟩ := transaction?_eq_some.1 ht
    have htracks := ho.tracks n t hget
    have hintact := hmoves.intact hs hi t.working (Or.inr ⟨n, t, hget, rfl⟩)
    have hds := told.dispatched_of_ok.eq_of_ok (EventPlan.steps_eq htracks hintact _)
    intro a ha
    rcases List.mem_append.1 ha with ha | ha
    · exact (List.mem_append.1 ha).elim (ih hs hi a) (hmeanwhile a)
    · obtain rfl := List.mem_singleton.1 ha
      refine ⟨htracks.tidy, fun l hl p hp => ?_⟩
      rw [hds, foldl_follow_heard hl]
      exact htracks.foldl_events hintact hp
  | @rollback w log w₁ n t c log' w₂ run ht meanwhile ih ihm =>
    obtain ⟨o, ho, -⟩ := run.reaches.sound hs
    have hclose : Moves hooks w (w₁.close n) := (run.reaches.moves hs).tail (.close ht)
    have hmeanwhile := ihm (ho.close n) (hclose.intact hs hi)
    intro a ha
    exact (List.mem_append.1 ha).elim (ih hs hi a) (hmeanwhile a)

/-- A replica that follows, for each commit, what one of its listeners heard. -/
def replica (view : Notice L → L) (log : List (Notice L)) : GraphState :=
  log.foldl (fun g a => (heard (view a) a.deliveries).foldl GraphState.follow g) {}

theorem replica_eq_replay {view : Notice L → L} (hview : ∀ a ∈ log, view a ∈ a.listeners)
    (hc : ∀ a ∈ log, a.Complete) : replica view log = replay {} (log.map (·.commit)) := by
  suffices h : ∀ p : GraphState, p.Tidy →
      log.foldl (fun g a => (heard (view a) a.deliveries).foldl GraphState.follow g) p =
        replay p (log.map (·.commit)) from h {} GraphState.tidy_empty
  induction log with
  | nil => exact fun _ _ => rfl
  | cons a log ih =>
    intro p hp
    have ha := hc a (by simp)
    rw [List.foldl_cons, ha.follows _ (hview a (by simp)) p hp]
    exact ih (fun b hb => hview b (by simp [hb])) (fun b hb => hc b (by simp [hb])) _
      (hp.apply ha.tidy _)

/-- The event stream is complete: a replica that starts empty and follows what a listener heard of
each commit, in the order of the commits, is the committed state after each of them. -/
theorem replica_eq_committed {schema : Schema} {locks : LockTable}
    {table : Assoc Nat (CommitHook L)} {host : H}
    (run : Heard react hooks (start schema locks table host) log w) {view : Notice L → L}
    (hview : ∀ a ∈ log, view a ∈ a.listeners) :
    replica view log = w.graph.committed ∧
      ∀ log₁ a log₂, log = log₁ ++ a :: log₂ → replica view (log₁ ++ [a]) = a.commit.after := by
  have hsound := sound_start schema locks table host fun _ => {}
  have hcomplete := run.complete hsound fun g hg => holds_start hg ▸ GraphState.intact_empty _
  refine ⟨?_, ?_⟩
  · rw [replica_eq_replay hview hcomplete, run.reaches.committed_eq]
    rfl
  · rintro log₁ a log₂ rfl
    have hsub : ∀ b ∈ log₁ ++ [a], b ∈ log₁ ++ a :: log₂ := by
      intro b hb
      simp only [List.mem_append, List.mem_cons] at hb ⊢
      tauto
    rw [replica_eq_replay (fun b hb => hview b (hsub b hb)) fun b hb => hcomplete b (hsub b hb)]
    have hchained := run.reaches.chained
    rw [List.map_append, List.map_cons, chained_append] at hchained
    rw [List.map_append, replay_append, CommitRecord.after, hchained.2.1]
    rfl

end Replica

/-! ### A replica of two notes -/

/-- Listeners that only answer commit nothing. -/
theorem Told.heard_of_still
    (hstill : ∀ l caller txn e w r w', react l caller txn e w = some (r, w') → w' = w)
    {caller : Caller} {txn : TxnId} (h : Told react caller txn w ds w₁) :
    Heard react hooks w [] w₁ := by
  induction h with
  | nil => exact .refl _
  | count _ h f ih => exact ih.aside (aside_count _ h f)
  | call _ hr ih => rwa [hstill _ _ _ _ _ _ _ hr]

/-- Clients that end no transaction commit nothing. -/
theorem perform_heard_nil {as : List Action} (ha : ∀ a ∈ as, a.allowed hooks)
    (hopen : ∀ a ∈ as, ∀ n, a ≠ .commit n ∧ a ≠ .rollback n)
    (h : perform react as w = some w') : Heard react hooks w [] w' := by
  induction as generalizing w with
  | nil =>
    obtain rfl := Option.some.inj h
    exact .refl w
  | cons a as ih =>
    obtain ⟨w₁, hact, hrest⟩ := Option.bind_eq_some_iff.1 h
    have hallowed := ha a (List.mem_cons_self ..)
    have hnone := hopen a (List.mem_cons_self ..)
    have hfirst : Heard react hooks w [] w₁ := by
      cases a with
      | begin k caller =>
        obtain rfl := Option.some.inj hact
        exact (Heard.refl w).begin caller hallowed
      | operate n o =>
        obtain ⟨⟨r, w₁⟩, hop, rfl⟩ := Option.map_eq_some_iff.1 hact
        exact (Heard.refl w).operation hop
      | commit n => exact absurd rfl (hnone n).1
      | rollback n => exact absurd rfl (hnone n).2
    exact hfirst.trans (ih (fun b hb => ha b (List.mem_cons_of_mem _ hb))
      (fun b hb => hopen b (List.mem_cons_of_mem _ hb)) hrest)

/-- A client relates two new notes. -/
def sketched : World Unit Unit :=
  (perform silent
    [.begin 0 .superUser, .operate 0 (.createNode (.root "note") [("text", .string "first")]),
      .operate 0 (.createNode (.root "note") []),
      .operate 0 (.createRelationship ⟨1⟩ ⟨2⟩ "follows" [])] blank).get rfl

/-- The replica of the one listener has the notes and their relationship. -/
theorem replica_eq_committed_sketched :
    ∃ log s w', sketched.commit silent 0 = some (.ok s, w') ∧ Heard silent {0} blank log w' ∧
      replica (fun _ => ()) log = w'.graph.committed ∧
      w'.graph.committed.value? ⟨1⟩ "text" = some (.string "first") ∧
      w'.graph.committed.relationships.has ⟨1⟩ = true := by
  have hopened : Heard silent {0} blank [] sketched := by
    refine perform_heard_nil ?_ ?_ (Option.some_get rfl).symm <;> simp [Action.allowed]
  have hcommit : ∃ s w', sketched.commit silent 0 = some (.ok s, w') ∧
      w'.graph.committed.value? ⟨1⟩ "text" = some (.string "first") ∧
      w'.graph.committed.relationships.has ⟨1⟩ = true := ⟨_, _, rfl, rfl, rfl⟩
  have hlistens : (sketched.transaction? 0).map
      (fun p => (sketched.hook p.1.hook).listeners.snapshot) = some [()] := rfl
  obtain ⟨s, w', hcommit, htext, hfollows⟩ := hcommit
  obtain ⟨t, c, ht⟩ := open_of_commit hcommit
  obtain ⟨origin, hs, -⟩ := hopened.reaches.sound (sound_start _ _ _ _ fun _ => {})
  obtain ⟨hget, hc⟩ := transaction?_eq_some.1 ht
  have hctx := hs.contexts 0 t c hget hc
  obtain ⟨ds, w₂, htold, hheard⟩ := heard_of_commit ht (by rw [hctx]) (by rw [hctx]) hcommit
  have hquiet : Heard silent {0} (sketched.close 0) [] w₂ := htold.heard_of_still silent_still
  have hrun := hopened.trans (hheard [] hquiet)
  rw [ht] at hlistens
  have hview : ∀ a ∈ [(⟨⟨0, w₂.graph.committed, t⟩, (sketched.hook t.hook).listeners.snapshot,
      ds⟩ : Notice Unit)], () ∈ a.listeners := by
    simp [Option.some.inj hlistens]
  exact ⟨_, s, w', hcommit, hrun, (replica_eq_committed hrun hview).1, htext, hfollows⟩

end World
end EntityGraph
