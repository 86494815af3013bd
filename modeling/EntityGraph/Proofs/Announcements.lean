import EntityGraph.Proofs.ListedRecordings
import EntityGraph.Proofs.Merging
import EntityGraph.Proofs.Vetoes

/-!
What a commit announces, and in which order. A change set calls for announcements, some of them
about nodes and relationships whose types have yet to be found. Whether an object that cannot be
found is passed over or ends the commit is a setting; it changes nothing else.

Main statement: `beforeCommit_announces`.
-/

namespace EntityGraph

/-- `a` comes up in a list before `b` does. -/
def ComesBefore {α : Type} (l : List α) (a b : α) : Prop :=
  ∃ pre post, l = pre ++ a :: post ∧ b ∉ a :: pre

/-- The members of a list that satisfy a condition, each once, in the order in which they come up
first. -/
structure InTurn {α : Type} (l : List α) (p : α → Prop) (ms : List α) : Prop where
  once : ms.Nodup
  mem_iff : ∀ a, a ∈ ms ↔ a ∈ l ∧ p a
  order : ms.Pairwise (ComesBefore l)

theorem ComesBefore.of_filter {α : Type} {p : α → Bool} {l : List α} {a b : α} (hb : p b = true)
    (h : ComesBefore (l.filter p) a b) : ComesBefore l a b := by
  obtain ⟨pre, post, hl, hnot⟩ := h
  obtain ⟨l₁, l₂, rfl, hpre, hpost⟩ := List.filter_eq_append_iff.1 hl
  obtain ⟨l₃, l₄, rfl, hnone, -, -⟩ := List.filter_eq_cons_iff.1 hpost
  refine ⟨l₁ ++ l₃, l₄, by rw [List.append_assoc], fun hm => hnot ?_⟩
  rcases List.mem_cons.1 hm with rfl | hm
  · exact List.mem_cons_self ..
  · rcases List.mem_append.1 hm with hm | hm
    · exact List.mem_cons_of_mem _ (hpre ▸ List.mem_filter.2 ⟨hm, hb⟩)
    · exact absurd hb (by simpa using hnone b hm)

theorem ComesBefore.cons {α : Type} {l : List α} {a b x : α} (hx : b ≠ x)
    (h : ComesBefore l a b) : ComesBefore (x :: l) a b := by
  obtain ⟨pre, post, rfl, hnot⟩ := h
  refine ⟨x :: pre, post, rfl, fun hm => ?_⟩
  simp only [List.mem_cons, not_or] at hm hnot
  tauto

/-- Taking later duplicates out leaves the first of each. -/
theorem pairwise_eraseDups {α : Type} [DecidableEq α] (l : List α) :
    l.eraseDups.Pairwise (ComesBefore l) := by
  induction hn : l.length using Nat.strong_induction_on generalizing l with
  | _ n ih =>
    cases l with
    | nil => exact .nil
    | cons a l =>
      have hlen : (l.filter fun b => !b == a).length < n :=
        hn ▸ Nat.lt_succ_of_le (List.length_filter_le _ _)
      have hrest := ih _ hlen _ rfl
      have hne : ∀ b ∈ (l.filter fun b => !b == a).eraseDups, b ≠ a := fun b hb => by
        simpa using (List.mem_filter.1 (List.mem_eraseDups.1 hb)).2
      rw [List.eraseDups_cons]
      refine List.pairwise_cons.2 ⟨fun b hb => ⟨[], l, rfl, by simpa using hne b hb⟩, ?_⟩
      exact hrest.imp_of_mem fun _ hc h => (h.of_filter (by simpa using hne _ hc)).cons (hne _ hc)

theorem inTurn_eraseDups {α : Type} [DecidableEq α] (l : List α) (p : α → Prop)
    [DecidablePred p] : InTurn l p (l.eraseDups.filter (p ·)) where
  once := (pairwise_eraseDups l).imp (fun h => by
    obtain ⟨pre, post, -, hnot⟩ := h
    exact fun hab => hnot (hab ▸ List.mem_cons_self ..)) |>.filter _
  mem_iff a := by rw [List.mem_filter, List.mem_eraseDups, decide_eq_true_eq]
  order := (pairwise_eraseDups l).filter _

/-! ### What is called for -/

namespace ChangeSet

/-- The entries that set a property, then those that remove one, in the order of recording. Those of
deleted nodes are left out. -/
def surviving (c : ChangeSet) : List PropertyEntry :=
  ((c.entries.map (·.2)).filter (·.value.isSome) ++
    (c.entries.map (·.2)).filter (·.value.isNone)).filter (·.node ∉ c.deletedNodes)

/-- What a node had, as far as its properties were removed. -/
def before (c : ChangeSet) (id : NodeId) : Properties :=
  (((c.entries.map (·.2)).filter (·.value.isNone)).filter (·.node = id)).foldl restore []

theorem survivingChanges_eq (c : ChangeSet) : EventPlan.survivingChanges c = c.surviving := by
  simp only [EventPlan.survivingChanges, propertyChanges, assigned, removed, log, surviving,
    isDeleted, PropertyEntry.isRemoval, Option.not_isNone, decide_not]

end ChangeSet

/-! ### Announcements -/

/-- Something that a commit tells listeners: an event as it is, or one about an object that is yet
to be found. -/
inductive Announcement
  | plain (e : Event)
  | node (id : NodeId) (event : Node → Event)
  | relationship (r : Relationship) (event : Relationship → Event)

namespace Announcement

/-- The event, if its object is found. -/
def find (f : EntityFactory) : Announcement → Except Failure (Option Event)
  | plain e => .ok (some e)
  | node id event => (f.node id).map (·.map event)
  | relationship r event => (f.relationship r).map (·.map event)

/-- The event of an object that was found. -/
def found? (f : EntityFactory) (a : Announcement) : Option Event :=
  match a.find f with
  | .ok e => e
  | .error _ => none

/-- The object that is to be found, as messages show it. -/
def subject : Announcement → String
  | plain _ => ""
  | node id _ => s!"node {id}"
  | relationship r _ => s!"relationship {r.id}"

/-- The failure to find its object. -/
def absence (a : Announcement) : Failure :=
  .rehydration s!"{a.subject} could not be instantiated"

/-- It does not keep a commit from going on: its object is found, or may be passed over. -/
def Settled (strict : Bool) (f : EntityFactory) (a : Announcement) : Prop :=
  ∃ e, a.find f = .ok e ∧ (strict = true → e ≠ none)

/-- What a change set calls for, with the nodes whose modification is announced as a whole. -/
def ofChanges (c : ChangeSet) (modified : List NodeId) : List Announcement :=
  [.plain .begin] ++
  c.createdNodes.map (.node · .nodeCreated) ++
  c.createdRelationships.map (.relationship · .relationshipCreated) ++
  c.deletedRelationships.map (.relationship · .relationshipDeleted) ++
  c.deletedNodes.map (fun id => .plain (.nodeDeleted id (c.before id))) ++
  c.surviving.map (fun e => .node e.node (.propertyModified · e.key e.previous e.value)) ++
  modified.map (.node · .nodeModified) ++
  [.plain .commit]

/-- The nodes whose properties change and that are not deleted, once for each change. -/
def changedNodes (c : ChangeSet) : List NodeId := c.surviving.map (·.node)

/-- The steps that a commit takes for an announcement. -/
def steps (strict : Bool) (f : EntityFactory) (a : Announcement) : List PlanStep :=
  EventPlan.about id (EventPlan.rehydrate strict a.subject (a.find f))

variable {strict : Bool} {f : EntityFactory} {a : Announcement} {as : List Announcement}

theorem about_eq {α : Type} (event : α → Event) (what : String)
    (x : Except Failure (Option α)) :
    EventPlan.about event (EventPlan.rehydrate strict what x) =
      EventPlan.about id (EventPlan.rehydrate strict what (x.map (·.map event))) := by
  rcases x with x | _ | o
  · rfl
  · cases strict <;> rfl
  · rfl

/-- The plan of a commit is taken announcement by announcement. -/
theorem steps_eq_flatMap (strict : Bool) (f : EntityFactory) (c : ChangeSet) :
    EventPlan.steps strict f c =
      (ofChanges c (EventPlan.modifiedNodes c)).flatMap (steps strict f) := by
  have hnode : ∀ id event, EventPlan.about event (EventPlan.typedNode strict f id) =
      (Announcement.node id event).steps strict f := fun id event => about_eq event _ _
  have hrelationship : ∀ r event, EventPlan.about event (EventPlan.typedRelationship strict f r) =
      (Announcement.relationship r event).steps strict f := fun r event => about_eq event _ _
  have hdeletions : EventPlan.deletions c = (c.deletedNodes.map fun id =>
      Announcement.plain (.nodeDeleted id (c.before id))).flatMap (steps strict f) := by
    rw [List.flatMap_map, EventPlan.deletions, List.map_eq_flatMap]
    refine List.flatMap_congr fun id hid => ?_
    rw [ChangeSet.get?_deletionSnapshots hid]
    rfl
  simp only [EventPlan.steps, EventPlan.creations, EventPlan.relationshipChanges,
    EventPlan.modifications, EventPlan.summaries, hnode, hrelationship, hdeletions,
    ChangeSet.survivingChanges_eq,    ofChanges, List.flatMap_append, List.flatMap_map]
  simp [steps, find, EventPlan.about, EventPlan.rehydrate]

/-- The nodes that are announced as modified are those that the plan speaks of. -/
theorem inTurn_modifiedNodes (c : ChangeSet) :
    InTurn (changedNodes c) (· ∉ c.createdNodes) (EventPlan.modifiedNodes c) := by
  have heq : EventPlan.modifiedNodes c =
      (changedNodes c).eraseDups.filter (· ∉ c.createdNodes) := by
    simp [EventPlan.modifiedNodes, changedNodes, ChangeSet.survivingChanges_eq,
      ChangeSet.isCreated]
  exact heq ▸ inTurn_eraseDups _ _

/-! ### How far a plan goes -/

theorem steps_of_settled (h : a.Settled strict f) :
    a.steps strict f = (a.found? f).toList.map .ok := by
  obtain ⟨e, hfind, hstrict⟩ := h
  rw [steps, found?, hfind]
  cases e with
  | some e => rfl
  | none =>
    cases strict with
    | true => exact absurd rfl (hstrict rfl)
    | false => rfl

/-- A hook that is not strict stops at no announcement if the search for objects does not fail. -/
theorem settled_of_answers (hnode : ∀ id, ∃ n, f.node id = .ok n)
    (hrelationship : ∀ r, ∃ q, f.relationship r = .ok q) : a.Settled false f := by
  cases a with
  | plain e => exact ⟨some e, rfl, fun h => absurd h Bool.false_ne_true⟩
  | node id event =>
    obtain ⟨n, hn⟩ := hnode id
    exact ⟨n.map event, by rw [find, hn]; rfl, fun h => absurd h Bool.false_ne_true⟩
  | relationship r event =>
    obtain ⟨q, hq⟩ := hrelationship r
    exact ⟨q.map event, by rw [find, hq]; rfl, fun h => absurd h Bool.false_ne_true⟩

theorem steps_of_absent (h : a.find f = .ok none) : a.steps true f = [.error a.absence] := by
  rw [steps, h]
  rfl

/-- An announcement that does not settle is a failure in its place. -/
theorem settled_of_steps {es : List Event} (h : a.steps strict f = es.map .ok) :
    a.Settled strict f := by
  rw [steps] at h
  rcases hfind : a.find f with x | _ | e
  · rw [hfind] at h
    cases es <;> simp [EventPlan.rehydrate, EventPlan.about] at h
  · refine ⟨none, hfind, fun hstrict => ?_⟩
    rw [hfind, hstrict] at h
    cases es <;> simp [EventPlan.rehydrate, EventPlan.about] at h
  · exact ⟨some e, hfind, fun _ => Option.some_ne_none e⟩

theorem flatMap_steps (h : ∀ a ∈ as, a.Settled strict f) :
    as.flatMap (steps strict f) = (as.filterMap (found? f)).map .ok := by
  induction as with
  | nil => rfl
  | cons a as ih =>
    rw [List.flatMap_cons, steps_of_settled (h a (List.mem_cons_self ..)),
      ih fun b hb => h b (List.mem_cons_of_mem _ hb), ← List.map_append, List.filterMap_cons]
    cases a.found? f <;> rfl

/-- A plan without a failure has all its announcements settled. -/
theorem settled_of_flatMap {es : List Event} (h : as.flatMap (steps strict f) = es.map .ok) :
    ∀ a ∈ as, a.Settled strict f := by
  intro a ha
  obtain ⟨pre, post, rfl⟩ := List.append_of_mem ha
  rw [List.flatMap_append, List.flatMap_cons] at h
  obtain ⟨-, es₂, -, -, h₂⟩ := List.append_eq_map_iff.1 h
  obtain ⟨es₃, -, -, h₃, -⟩ := List.append_eq_map_iff.1 h₂.symm
  exact settled_of_steps h₃.symm

end Announcement

namespace World
variable {L H : Type}
open Announcement

/-- Listeners that take whatever they are told for a transaction. -/
def TakeAll (react : Reaction L H) (c : TransactionContext) (ls : List L) : Prop :=
  ∀ l ∈ ls, ∀ e w, ∃ w', react l c.caller c.txn e w = some (.ok (), w')

/-- A commit that tells its listeners of these announcements. -/
structure Announces [DecidableEq L] (react : Reaction L H) (h : Nat) (c : TransactionContext)
    (changes : ChangeSet) (f : EntityFactory) (w : World L H) (as : List Announcement) : Prop where
  /-- When nothing fails, each listener has heard all that was found, and, if the hook is strict,
  everything was. -/
  sequence : ∀ s c' w',
    beforeCommit react h c changes f w = some (.ok (.committed s), c', w') →
    Delivered react c.caller c.txn w
      ((as.filterMap (found? f)).flatMap (taken (w.hook h).listeners.snapshot)) w' ∧
    ((w.hook h).listeners.snapshot.Nodup → ∀ l ∈ (w.hook h).listeners.snapshot,
      heard l ((as.filterMap (found? f)).flatMap (taken (w.hook h).listeners.snapshot)) =
        as.filterMap (found? f)) ∧
    ∀ a ∈ as, a.Settled (w.hook h).settings.strictRehydration f
  /-- Nothing fails but a listener or the search for an object. -/
  completes : TakeAll react c (w.hook h).listeners.snapshot →
    (∀ a ∈ as, a.Settled (w.hook h).settings.strictRehydration f) →
    ∃ s w', beforeCommit react h c changes f w =
      some (.ok (.committed s), { c with status := .prepared }, w')
  /-- A strict hook stops at the first object that is absent. -/
  stops : (w.hook h).settings.strictRehydration = true →
    TakeAll react c (w.hook h).listeners.snapshot → ∀ pre a post, as = pre ++ a :: post →
    (∀ b ∈ pre, b.Settled true f) → a.find f = .ok none →
    ∃ w', beforeCommit react h c changes f w =
        some (.ok (.rolledBack c.txn a.absence), c.recordFailure a.absence, w') ∧
      Delivered react c.caller c.txn w
        ((pre.filterMap (found? f)).flatMap (taken (w.hook h).listeners.snapshot)) w'

variable {react : Reaction L H} {c : TransactionContext} {w : World L H} {h : Nat}

theorem beforeCommit_of_took {changes : ChangeSet} {f : EntityFactory} {es : List Event}
    {w' : World L H} (hc : c.status = .active)
    (hsteps : EventPlan.steps (w.hook h).settings.strictRehydration f changes = es.map .ok)
    (ht : Took react h (w.hook h).listeners.snapshot c.caller c.txn w es w') :
    ∃ s, beforeCommit react h c changes f w =
      some (.ok (.committed s), { c with status := .prepared }, w') := by
  have hensure : c.ensure .active = .ok () := if_pos hc
  have hprepare : c.prepare = .ok { c with status := .prepared } := by
    simp [TransactionContext.prepare, hensure, bind, Except.bind, pure, Except.pure]
  have hd : dispatch react h (w.hook h).listeners.snapshot c (es.map .ok) w =
      some (.ok (), w') := by
    rw [← List.append_nil (es.map _), ht.dispatch]
    rfl
  simp only [beforeCommit, hensure, hsteps, hd, hprepare]
  exact ⟨_, rfl⟩

/-- A commit announces what its change set calls for. -/
theorem announces_ofChanges [DecidableEq L] (changes : ChangeSet) (f : EntityFactory)
    (hc : c.status = .active) :
    Announces react h c changes f w (ofChanges changes (EventPlan.modifiedNodes changes)) := by
  have hplan := steps_eq_flatMap (w.hook h).settings.strictRehydration f changes
  refine ⟨fun s c' w' hb => ?_, fun htake hsettled => ?_,
    fun hstrict htake pre a post has hpre ha => ?_⟩
  · obtain ⟨ds, d, htold, hds, hd⟩ := beforeCommit_spec hc hb
    cases d with
    | error e => simp at hd
    | ok =>
      obtain ⟨es, hes, rfl⟩ : ∃ es : List Event,
          EventPlan.steps (w.hook h).settings.strictRehydration f changes = es.map .ok ∧
          ds = es.flatMap (taken (w.hook h).listeners.snapshot) := by
        generalize EventPlan.steps (w.hook h).settings.strictRehydration f changes = steps at hds
        cases hds with
        | complete es => exact ⟨es, rfl, rfl⟩
      have hsettled := settled_of_flatMap (hplan.symm.trans hes)
      have heq := (flatMap_steps hsettled).symm.trans (hplan.symm.trans hes)
      obtain rfl := List.map_injective_iff.2 (fun _ _ => Except.ok.inj) heq
      exact ⟨htold.delivered, fun hnodup l hl => heard_flatMap_taken hnodup hl _, hsettled⟩
  · obtain ⟨w', htook⟩ : ∃ w', Took react h (w.hook h).listeners.snapshot c.caller c.txn w
        ((ofChanges changes (EventPlan.modifiedNodes changes)).filterMap (found? f)) w' :=
      took_of_answers fun l hl e _ => htake l hl e
    obtain ⟨s, hb⟩ := beforeCommit_of_took hc (hplan.trans (flatMap_steps hsettled)) htook
    exact ⟨s, w', hb⟩
  · obtain ⟨w', htook⟩ : ∃ w', Took react h (w.hook h).listeners.snapshot c.caller c.txn w
        (pre.filterMap (found? f)) w' := took_of_answers fun l hl e _ => htake l hl e
    have hsteps : EventPlan.steps (w.hook h).settings.strictRehydration f changes =
        (pre.filterMap (found? f)).map .ok ++ .error a.absence :: post.flatMap (steps true f) := by
      rw [hplan, hstrict, has, List.flatMap_append, List.flatMap_cons, flatMap_steps hpre,
        steps_of_absent ha]
      rfl
    refine ⟨w', beforeCommit_of_dispatch hc ?_, htook.told.delivered⟩
    rw [hsteps, htook.dispatch]
    rfl

/-- What a change set that was recorded step by step has its commit announce, in the order of
recording. The change set lists each recording after those before it, until one takes it back. -/
theorem beforeCommit_announces [DecidableEq L] (react : Reaction L H) (h : Nat)
    (c : TransactionContext) (w : World L H) (rs : List Recording) (f : EntityFactory)
    (hc : c.status = .active) :
    InTurn (changedNodes (.ofRecordings rs)) (· ∉ (ChangeSet.ofRecordings rs).createdNodes)
      (EventPlan.modifiedNodes (.ofRecordings rs)) ∧
    Announces react h c (.ofRecordings rs) f w
      (ofChanges (.ofRecordings rs) (EventPlan.modifiedNodes (.ofRecordings rs))) ∧
    (ChangeSet.ofRecordings rs).Orderly ∧
    ∀ k, (ChangeSet.ofRecordings (rs.take k)).Continues (.ofRecordings (rs.take (k + 1))) ∧
      ∀ r, rs[k]? = some r → r.ListedIn (.ofRecordings (rs.take (k + 1))) ∧
        (ChangeSet.ofRecordings (rs.take k)).Retains r (.ofRecordings (rs.take (k + 1))) :=
  ⟨inTurn_modifiedNodes _, announces_ofChanges _ f hc, ChangeSet.orderly_ofRecordings rs,
    fun k => ⟨ChangeSet.continues_take rs k, fun _ hr => ChangeSet.listed_take hr⟩⟩

/-- A note is created and read, an older one is read, another one loses its title, and a last one is
deleted. -/
def errands : List Recording :=
  [.createNode ⟨3⟩, .write ⟨4⟩ (.named "title") (some (.string "a")) none,
    .write ⟨3⟩ (.named "read") none (some (.bool true)),
    .write ⟨1⟩ (.named "read") none (some (.bool true)),
    .remove ⟨2⟩ (.named "read") (.bool true), .deleteNode ⟨2⟩]

/-- The notes that can be found, which are not all. -/
def found : EntityFactory := .ofNodes [⟨⟨3⟩, .root "note", []⟩, ⟨⟨4⟩, .root "note", []⟩] [] [] []

/-- Listeners that take everything. -/
def obliging : Reaction Nat Unit := fun _ _ _ _ w => some (.ok (), w)

/-- A new graph with two listeners. -/
def audience (strict : Bool) : World Nat Unit :=
  let hook : CommitHook Nat :=
    { listeners := ⟨2, [(⟨0⟩, 0), (⟨1⟩, 1)]⟩, settings := { strictRehydration := strict } }
  start {} {} [(0, hook)] ()

/-- Both listeners hear of everything but the older note. If the hook is strict, the older note ends
the commit. -/
theorem beforeCommit_announces_errands :
    (∃ s w' ds, beforeCommit obliging 0 { txn := ⟨1⟩, caller := .superUser }
        (.ofRecordings errands) found (audience false) =
      some (.ok (.committed s), { txn := ⟨1⟩, caller := .superUser, status := .prepared }, w') ∧
      Delivered obliging .superUser ⟨1⟩ (audience false) ds w' ∧
      ∀ l ∈ [0, 1], heard l ds =
        [.begin, .nodeCreated ⟨⟨3⟩, .root "note", []⟩, .nodeDeleted ⟨2⟩ [("read", .bool true)],
          .propertyModified ⟨⟨3⟩, .root "note", []⟩ (.named "read") none (some (.bool true)),
          .propertyModified ⟨⟨4⟩, .root "note", []⟩ (.named "title") (some (.string "a")) none,
          .nodeModified ⟨⟨4⟩, .root "note", []⟩, .commit]) ∧
    ∃ c' w', beforeCommit obliging 0 { txn := ⟨1⟩, caller := .superUser }
        (.ofRecordings errands) found (audience true) =
      some (.ok (.rolledBack ⟨1⟩ (.rehydration "node n1 could not be instantiated")), c', w') := by
  have htake : ∀ ls, TakeAll obliging { txn := ⟨1⟩, caller := .superUser } ls :=
    fun _ _ _ _ w => ⟨w, rfl⟩
  constructor
  · obtain ⟨-, hannounces, -⟩ := beforeCommit_announces obliging 0
      { txn := ⟨1⟩, caller := .superUser } (audience false) errands found rfl
    have hsettled : ∀ a ∈ ofChanges (.ofRecordings errands)
        (EventPlan.modifiedNodes (.ofRecordings errands)), a.Settled false found :=
      fun a _ => settled_of_answers (fun _ => ⟨_, rfl⟩) (fun _ => ⟨_, rfl⟩)
    obtain ⟨s, w', hcommit⟩ := hannounces.completes (htake _) hsettled
    obtain ⟨hdelivered, hheard, -⟩ := hannounces.sequence s _ w' hcommit
    have hlisteners : ((audience false).hook 0).listeners.snapshot = [0, 1] := rfl
    rw [hlisteners] at hdelivered hheard
    exact ⟨s, w', _, hcommit, hdelivered, fun l hl => hheard (by decide) l hl⟩
  · obtain ⟨-, hannounces, -⟩ := beforeCommit_announces obliging 0
      { txn := ⟨1⟩, caller := .superUser } (audience true) errands found rfl
    have hpre : ∀ b ∈ (ofChanges (.ofRecordings errands)
        (EventPlan.modifiedNodes (.ofRecordings errands))).take 4, b.Settled true found := by
      refine List.forall_mem_cons.2 ⟨⟨_, rfl, fun _ => Option.some_ne_none _⟩, ?_⟩
      refine List.forall_mem_cons.2 ⟨⟨_, rfl, fun _ => Option.some_ne_none _⟩, ?_⟩
      refine List.forall_mem_cons.2 ⟨⟨_, rfl, fun _ => Option.some_ne_none _⟩, ?_⟩
      exact List.forall_mem_cons.2 ⟨⟨_, rfl, fun _ => Option.some_ne_none _⟩, by simp⟩
    obtain ⟨w', hrolled, -⟩ := hannounces.stops rfl (htake _) _
      (.node ⟨1⟩ (.propertyModified · (.named "read") none (some (.bool true)))) _ rfl hpre rfl
    exact ⟨_, w', hrolled⟩

end World
end EntityGraph
