import EntityGraph.Proofs.Clients
import EntityGraph.Proofs.Dispatches

/-!
What the first failure of a dispatch comes to. The listeners up to the one that fails have heard the
event it fails on, the others only the events before, which are the ones that are counted. The
commit is rolled back with that failure, and the rollback, whatever listeners make of it, hands the
same failure back.

Main statement: `beforeCommit_veto`.
-/

namespace EntityGraph

namespace TransactionContext

/-- The contexts that there are: a new one, and what becomes of one. -/
inductive Made : TransactionContext → Prop
  | new (txn caller) : Made { txn, caller }
  | prepare {c c'} (hc : Made c) (h : c.prepare = .ok c') : Made c'
  | commit {c c'} (hc : Made c) (h : c.commit = .ok c') : Made c'
  | recordFailure {c} (hc : Made c) (e : Failure) : Made (c.recordFailure e)
  | rollBack {c cause c'} (hc : Made c) (h : c.rollBack = .ok (cause, c')) : Made c'

variable {c c' : TransactionContext}

theorem status_of_prepare (h : c.prepare = .ok c') : c'.status = .prepared := by
  simp only [prepare, bind, Except.bind, pure, Except.pure] at h
  split at h
  · cases h
  · exact congrArg status (Except.ok.inj h).symm

theorem status_of_commit (h : c.commit = .ok c') : c'.status = .committed := by
  simp only [commit, bind, Except.bind, pure, Except.pure] at h
  split at h
  · cases h
  · exact congrArg status (Except.ok.inj h).symm

theorem status_of_rollBack {cause : Option Failure} (h : c.rollBack = .ok (cause, c')) :
    c'.status = .rolledBack := by
  rw [rollBack] at h
  split at h
  · cases h
  · cases h
  · exact congrArg (·.2.status) (Except.ok.inj h).symm

/-- An active context has recorded no failure. -/
theorem Made.failure_of_active (h : Made c) (ha : c.status = .active) : c.failure = none := by
  cases h with
  | new => rfl
  | prepare _ h => simp [status_of_prepare h] at ha
  | commit _ h => simp [status_of_commit h] at ha
  | recordFailure => simp [TransactionContext.recordFailure] at ha
  | rollBack _ h => simp [status_of_rollBack h] at ha

end TransactionContext

namespace World
variable {L H : Type}

/-- The first failure of a dispatch: all listeners took the events before, and those registered
before the one that fails took the event too. -/
def FirstFailure (react : Reaction L H) (h : Nat) (c : TransactionContext) (w : World L H)
    (es : List Event) (e : Event) (before : List L) (l : L) (after : List L) (x : Failure)
    (w' : World L H) : Prop :=
  ∃ w₁ w₂, Took react h (before ++ l :: after) c.caller c.txn w es w₁ ∧
    tell react c.caller c.txn e before w₁ = some (.ok (), w₂) ∧
    react l c.caller c.txn e w₂ = some (.error x, w')

/-- What is delivered up to the first failure. -/
def upTo (es : List Event) (e : Event) (before : List L) (l : L) (after : List L) (x : Failure) :
    List (Delivery L) :=
  es.flatMap (taken (before ++ l :: after)) ++ (taken before e ++ [⟨l, e, .error x⟩])

/-- What the first failure comes to. -/
structure Vetoed [DecidableEq L] (react : Reaction L H) (h : Nat) (c : TransactionContext)
    (changes : ChangeSet) (f : EntityFactory) (w : World L H) (es : List Event) (e : Event)
    (before : List L) (l : L) (after : List L) (x : Failure) (w' : World L H) : Prop where
  outcome : beforeCommit react h c changes f w =
    some (.ok (.rolledBack c.txn x), c.recordFailure x, w')
  delivered : Delivered react c.caller c.txn w (upTo es e before l after x) w'
  /-- Whoever is registered up to the listener that fails heard its event, the others did not. -/
  heard : (before ++ l :: after).Nodup →
    (∀ k ∈ before ++ [l], heard k (upTo es e before l after x) = es ++ [e]) ∧
      ∀ k ∈ after, World.heard k (upTo es e before l after x) = es
  counted : LeaveCount react c.caller c.txn h → eventCount w' h = eventCount w h + es.length
  /-- The rollback, whenever it comes, tells whoever is registered then. -/
  rollback : ∀ w₁, (∀ k ∈ (w₁.hook h).listeners.snapshot, ∀ v,
      ∃ r v', react k c.caller c.txn .rollback v = some (r, v')) →
    ∃ ds w₂, afterRollback react h (c.recordFailure x) w₁ = some (.error x, w₂) ∧
      Delivered react c.caller c.txn w₁ ds w₂ ∧ RollbackTold w₁ h ds

variable {react : Reaction L H} {c c' : TransactionContext} {w w₁ w' : World L H} {h : Nat}

/-! ### Before a commit -/

theorem beforeCommit_of_dispatch {changes : ChangeSet} {f : EntityFactory} {x : Failure}
    (hc : c.status = .active)
    (hd : dispatch react h (w.hook h).listeners.snapshot c
      (EventPlan.steps (w.hook h).settings.strictRehydration f changes) w = some (.error x, w')) :
    beforeCommit react h c changes f w =
      some (.ok (.rolledBack c.txn x), c.recordFailure x, w') := by
  have hensure : c.ensure .active = .ok () := if_pos hc
  simp only [beforeCommit, hensure, hd]

theorem beforeCommit_of_not_active {changes : ChangeSet} {f : EntityFactory}
    (hc : c.status ≠ .active) :
    beforeCommit react h c changes f w =
      some (.error (.wrongState TransactionStatus.active.name c.status.name), c, w) := by
  have hensure : c.ensure .active = .error (.wrongState _ c.status.name) := if_neg hc
  simp only [beforeCommit, hensure]

/-- A dispatch ends with its first failure. -/
theorem FirstFailure.dispatch {es : List Event} {e : Event} {rest : List PlanStep}
    {before after : List L} {l : L} {x : Failure}
    (hf : FirstFailure react h c w es e before l after x w') :
    dispatch react h (before ++ l :: after) c (es.map .ok ++ .ok e :: rest) w =
      some (.error x, w') := by
  obtain ⟨w₁, w₂, htook, htell, hfail⟩ := hf
  have hend : tell react c.caller c.txn e (before ++ l :: after) w₁ = some (.error x, w') := by
    rw [tell_append htell, tell, hfail]
  rw [htook.dispatch, World.dispatch, hend]

theorem FirstFailure.told {es : List Event} {e : Event} {before after : List L} {l : L}
    {x : Failure} (hf : FirstFailure react h c w es e before l after x w') :
    Told react c.caller c.txn w (upTo es e before l after x) w' := by
  obtain ⟨w₁, w₂, htook, htell, hfail⟩ := hf
  exact htook.told.trans ((told_of_tell htell).trans (told_one hfail))

theorem FirstFailure.eventCount {es : List Event} {e : Event} {before after : List L} {l : L}
    {x : Failure} (hf : FirstFailure react h c w es e before l after x w')
    (hl : LeaveCount react c.caller c.txn h) :
    eventCount w' h = eventCount w h + es.length := by
  obtain ⟨w₁, w₂, htook, htell, hfail⟩ := hf
  rw [hl _ _ _ _ _ hfail, hl.tell htell, htook.eventCount hl]

/-! ### Who heard what -/

section Heard
variable [DecidableEq L]

theorem heard_append (k : L) (ds ds' : List (Delivery L)) :
    heard k (ds ++ ds') = heard k ds ++ heard k ds' := by
  simp [heard]

theorem heard_taken_of_notMem {k : L} {ls : List L} (hk : k ∉ ls) (e : Event) :
    heard k (taken ls e) = [] := by
  simp only [heard, taken, List.map_eq_nil_iff, List.filter_eq_nil_iff, List.mem_map,
    decide_eq_true_eq]
  rintro _ ⟨l, hl, rfl⟩ rfl
  exact hk hl

theorem heard_taken_of_mem {k : L} {ls : List L} (hnodup : ls.Nodup) (hk : k ∈ ls) (e : Event) :
    heard k (taken ls e) = [e] := by
  obtain ⟨before, after, rfl⟩ := List.append_of_mem hk
  obtain ⟨-, hafter, hdisjoint⟩ := List.nodup_append.1 hnodup
  have hb : k ∉ before := fun hb => hdisjoint k hb k (List.mem_cons_self ..) rfl
  have ha : k ∉ after := (List.nodup_cons.1 hafter).1
  have hsplit : taken (before ++ k :: after) e =
      taken before e ++ ([⟨k, e, .ok ()⟩] ++ taken after e) := by simp [taken]
  rw [hsplit, heard_append, heard_append, heard_taken_of_notMem hb, heard_taken_of_notMem ha]
  simp [heard]

theorem heard_flatMap_taken {k : L} {ls : List L} (hnodup : ls.Nodup) (hk : k ∈ ls)
    (es : List Event) : heard k (es.flatMap (taken ls)) = es := by
  induction es with
  | nil => rfl
  | cons e es ih =>
    rw [List.flatMap_cons, heard_append, heard_taken_of_mem hnodup hk, ih, List.singleton_append]

theorem heard_upTo {es : List Event} {e : Event} {before after : List L} {l : L} {x : Failure}
    (hnodup : (before ++ l :: after).Nodup) :
    (∀ k ∈ before ++ [l], heard k (upTo es e before l after x) = es ++ [e]) ∧
      ∀ k ∈ after, heard k (upTo es e before l after x) = es := by
  obtain ⟨hbefore, hafter, hdisjoint⟩ := List.nodup_append.1 hnodup
  have hlast : ∀ k, heard k [(⟨l, e, .error x⟩ : Delivery L)] = if l = k then [e] else [] := by
    intro k
    by_cases hk : l = k <;> simp [heard, hk]
  refine ⟨fun k hk => ?_, fun k hk => ?_⟩
  · have hmem : k ∈ before ++ l :: after := by
      rcases List.mem_append.1 hk with hk | hk
      · exact List.mem_append_left _ hk
      · exact List.mem_append_right _ (by simp [List.mem_singleton.1 hk])
    rw [upTo, heard_append, heard_flatMap_taken hnodup hmem, heard_append, hlast]
    congr 1
    rcases List.mem_append.1 hk with hk | hk
    · have hne : l ≠ k := fun hl => hdisjoint k hk l (List.mem_cons_self ..) hl.symm
      rw [heard_taken_of_mem hbefore hk, if_neg hne, List.append_nil]
    · obtain rfl := List.mem_singleton.1 hk
      have hb : k ∉ before := fun hb => hdisjoint k hb k (List.mem_cons_self ..) rfl
      rw [heard_taken_of_notMem hb, if_pos rfl, List.nil_append]
  · have hmem : k ∈ before ++ l :: after :=
      List.mem_append_right _ (List.mem_cons_of_mem _ hk)
    have hb : k ∉ before := fun hb => hdisjoint k hb k (List.mem_cons_of_mem _ hk) rfl
    have hne : l ≠ k := fun hl => (List.nodup_cons.1 hafter).1 (hl ▸ hk)
    rw [upTo, heard_append, heard_flatMap_taken hnodup hmem, heard_append, hlast, if_neg hne,
      heard_taken_of_notMem hb, List.append_nil, List.append_nil]

end Heard

/-! ### The rollback that follows -/

theorem tellAll_of_answers {caller : Caller} {txn : TxnId} {e : Event} {ls : List L}
    (ha : ∀ l ∈ ls, ∀ v, ∃ r v', react l caller txn e v = some (r, v')) :
    ∃ w', tellAll react caller txn e ls w = some w' := by
  induction ls generalizing w with
  | nil => exact ⟨w, rfl⟩
  | cons l ls ih =>
    obtain ⟨r, w₁, hl⟩ := ha l (List.mem_cons_self ..) w
    obtain ⟨w', hrest⟩ := ih (w := w₁) fun k hk => ha k (List.mem_cons_of_mem _ hk)
    exact ⟨w', by rw [tellAll, hl]; exact hrest⟩

/-- The rollback comes to an end if each listener answers, whether it fails or not. -/
theorem afterRollback_of_answers {cause : Option Failure} (hc : c.rollBack = .ok (cause, c'))
    (ha : ∀ k ∈ (w.hook h).listeners.snapshot, ∀ v,
      ∃ r v', react k c.caller c.txn .rollback v = some (r, v')) :
    ∃ ds w', afterRollback react h c w = some (reported cause, w') ∧
      Delivered react c.caller c.txn w ds w' ∧ RollbackTold w h ds := by
  have hends : ∃ r w', afterRollback react h c w = some (r, w') := by
    have hcount := hook_setHook w h h fun k => { k with counters := k.counters.recordRollback }
    rw [if_pos rfl] at hcount
    simp only [afterRollback, hc]
    rw [show w.count h .recordRollback = w.setHook h _ from rfl, hcount]
    obtain ⟨w', hw'⟩ := tellAll_of_answers
      (w := w.setHook h fun k => { k with counters := k.counters.recordRollback }) ha
    split
    · exact ⟨_, _, by rw [hw']; rfl⟩
    · exact ⟨_, _, rfl⟩
  obtain ⟨r, w', hr⟩ := hends
  obtain ⟨ds, htold, hds, rfl⟩ := afterRollback_spec hc hr
  exact ⟨ds, w', hr, htold.delivered, hds⟩

/-- The first failure of a listener vetoes the commit, and a context that is not active is refused
before anything is delivered. -/
theorem beforeCommit_veto [DecidableEq L] (hmade : c.Made) (changes : ChangeSet)
    (f : EntityFactory) :
    (c.status = .active → ∀ es e rest before l after x w',
      EventPlan.steps (w.hook h).settings.strictRehydration f changes =
        es.map .ok ++ .ok e :: rest →
      (w.hook h).listeners.snapshot = before ++ l :: after →
      FirstFailure react h c w es e before l after x w' →
        Vetoed react h c changes f w es e before l after x w') ∧
    (c.status ≠ .active → beforeCommit react h c changes f w =
      some (.error (.wrongState TransactionStatus.active.name c.status.name), c, w)) := by
  refine ⟨fun hc es e rest before l after x w' hsteps hls hf => ?_, beforeCommit_of_not_active⟩
  have hcause := rollBack_recordFailure (hmade.failure_of_active hc) x
  exact {
    outcome := beforeCommit_of_dispatch hc (by rw [hls, hsteps]; exact hf.dispatch)
    delivered := hf.told.delivered
    heard := heard_upTo
    counted := hf.eventCount
    rollback := fun w₁ ha => afterRollback_of_answers hcause ha }

/-- Listeners of which the one numbered 1 vetoes every commit. -/
def sentinel : Reaction Nat Unit := fun l _ _ e w =>
  some (match l, e with
    | 1, .commit => .error (.vetoed "closed")
    | _, _ => .ok (), w)

/-- A new graph with three listeners. -/
def watched : World Nat Unit :=
  start {} {} [(0, { listeners := ⟨3, [(⟨0⟩, 0), (⟨1⟩, 1), (⟨2⟩, 2)]⟩ })] ()

/-- The second of three listeners vetoes the creation of a note, and the third never hears of the
end of the commit. -/
theorem beforeCommit_veto_second :
    Vetoed sentinel 0 { txn := ⟨1⟩, caller := .superUser } (({} : ChangeSet).createNode ⟨1⟩)
      (.ofNodes [⟨⟨1⟩, .root "note", []⟩] [] [] []) watched
      [.begin, .nodeCreated ⟨⟨1⟩, .root "note", []⟩] .commit [0] 1 [2] (.vetoed "closed")
      ((watched.count 0 .recordEvent).count 0 .recordEvent) :=
  (beforeCommit_veto (.new ⟨1⟩ .superUser) _ _).1 rfl _ _ [] _ _ _ _ _ rfl rfl
    ⟨_, _, .cons rfl (.cons rfl (.nil _)), rfl, rfl⟩

end World
end EntityGraph
