import EntityGraph.World.Commit
import Mathlib.Data.List.Basic

/-!
What listeners hear of the end of one transaction. Telling them is a sequence of calls, each of
which may change the world, and the first that fails ends the dispatch of a commit.

Main statements: `dispatch_spec` — a dispatch delivers every event to every listener, or everything
before the first failure; `afterRollback_spec` — every listener hears of a rollback once, if the
hook says so, and the failure recorded comes back.
-/

namespace EntityGraph

/-- A listener was told of an event and answered. -/
structure Delivery (L : Type) where
  listener : L
  event : Event
  answer : Except Failure Unit

namespace World
variable {L H : Type}

/-- What becomes of a world while listeners are told of one transaction, between the counting of
events. -/
inductive Told (react : Reaction L H) (caller : Caller) (txn : TxnId) :
    World L H → List (Delivery L) → World L H → Prop
  | nil (w) : Told react caller txn w [] w
  | count {w ds w₁} (rest : Told react caller txn w ds w₁) (h : Nat) (f : Counters → Counters) :
    Told react caller txn w ds (w₁.count h f)
  | call {w ds w₁ l e r w₂} (rest : Told react caller txn w ds w₁)
    (h : react l caller txn e w₁ = some (r, w₂)) : Told react caller txn w (ds ++ [⟨l, e, r⟩]) w₂

variable {react : Reaction L H} {caller : Caller} {txn : TxnId} {w w₁ w' : World L H}

theorem Told.trans {ds ds' : List (Delivery L)} (h : Told react caller txn w ds w₁)
    (h' : Told react caller txn w₁ ds' w') : Told react caller txn w (ds ++ ds') w' := by
  induction h' with
  | nil => simpa using h
  | count _ k f ih => exact ih.count k f
  | call _ hr ih => simpa only [List.append_assoc] using ih.call hr

theorem told_one {l : L} {e : Event} {r : Except Failure Unit}
    (h : react l caller txn e w = some (r, w')) : Told react caller txn w [⟨l, e, r⟩] w' :=
  Told.call (.nil w) h

/-- Every listener took an event. -/
def taken (ls : List L) (e : Event) : List (Delivery L) := ls.map (⟨·, e, .ok ()⟩)

/-- How telling some listeners of an event ends. -/
inductive ToldOf (ls : List L) (e : Event) : List (Delivery L) → Except Failure Unit → Prop
  | all : ToldOf ls e (taken ls e) (.ok ())
  | refused (before : List L) (l : L) (after : List L) (x : Failure)
    (h : ls = before ++ l :: after) :
    ToldOf ls e (taken before e ++ [⟨l, e, .error x⟩]) (.error x)

theorem tell_spec {e : Event} {ls : List L} {r : Except Failure Unit}
    (h : tell react caller txn e ls w = some (r, w')) :
    ∃ ds, Told react caller txn w ds w' ∧ ToldOf ls e ds r := by
  induction ls generalizing w with
  | nil =>
    obtain ⟨rfl, rfl⟩ : .ok () = r ∧ w = w' := by simpa [tell] using h
    exact ⟨[], .nil w, .all⟩
  | cons l ls ih =>
    rw [tell] at h
    split at h
    · next w₁ hl =>
      obtain ⟨ds, htold, hof⟩ := ih h
      refine ⟨⟨l, e, .ok ()⟩ :: ds, (told_one hl).trans htold, ?_⟩
      cases hof with
      | all => exact .all
      | refused before l' after x hls =>
        exact .refused (l :: before) l' after x (by rw [hls, List.cons_append])
    · next hl =>
      cases r with
      | error x => exact ⟨_, told_one h, .refused [] l ls x rfl⟩
      | ok => exact absurd h (hl w')

/-- How the dispatch of a plan ends: every event was taken by every listener, or a listener failed,
or the plan could not go on. -/
inductive Dispatched (ls : List L) : List PlanStep → List (Delivery L) → Except Failure Unit → Prop
  | complete (es : List Event) : Dispatched ls (es.map .ok) (es.flatMap (taken ls)) (.ok ())
  | vetoed (es : List Event) (e : Event) (rest : List PlanStep) (before : List L) (l : L)
    (after : List L) (x : Failure) (h : ls = before ++ l :: after) :
    Dispatched ls (es.map .ok ++ .ok e :: rest)
      (es.flatMap (taken ls) ++ (taken before e ++ [⟨l, e, .error x⟩])) (.error x)
  | stuck (es : List Event) (x : Failure) (rest : List PlanStep) :
    Dispatched ls (es.map .ok ++ .error x :: rest) (es.flatMap (taken ls)) (.error x)

theorem Dispatched.cons {ls : List L} {steps : List PlanStep} {ds : List (Delivery L)}
    {r : Except Failure Unit} (h : Dispatched ls steps ds r) (e : Event) :
    Dispatched ls (.ok e :: steps) (taken ls e ++ ds) r := by
  cases h with
  | complete es => exact .complete (e :: es)
  | vetoed es e' rest before l after x hls =>
    simpa only [List.flatMap_cons, List.append_assoc, List.map_cons, List.cons_append] using
      Dispatched.vetoed (e :: es) e' rest before l after x hls
  | stuck es x rest => exact .stuck (e :: es) x rest

theorem dispatch_spec {h : Nat} {ls : List L} {c : TransactionContext} {steps : List PlanStep}
    {r : Except Failure Unit} (hd : dispatch react h ls c steps w = some (r, w')) :
    ∃ ds, Told react c.caller c.txn w ds w' ∧ Dispatched ls steps ds r := by
  induction steps generalizing w with
  | nil =>
    obtain ⟨rfl, rfl⟩ : .ok () = r ∧ w = w' := by simpa [dispatch] using hd
    exact ⟨[], .nil w, .complete []⟩
  | cons step steps ih =>
    cases step with
    | error x =>
      obtain ⟨rfl, rfl⟩ : .error x = r ∧ w = w' := by simpa [dispatch] using hd
      exact ⟨[], .nil w, .stuck [] x steps⟩
    | ok e =>
      rw [dispatch] at hd
      split at hd
      · next w₁ ht =>
        obtain ⟨ds, htold, hof⟩ := tell_spec ht
        obtain ⟨ds', htold', hdispatched⟩ := ih hd
        refine ⟨ds ++ ds', (htold.count h _).trans htold', ?_⟩
        cases hof
        exact hdispatched.cons e
      · next ht =>
        obtain ⟨ds, htold, hof⟩ := tell_spec hd
        cases hof with
        | all => exact absurd hd (ht w')
        | refused before l after x hls =>
          exact ⟨_, htold, .vetoed [] e steps before l after x hls⟩

/-- A plan never tells of a rollback. -/
theorem rollback_notMem_steps (strict : Bool) (f : EntityFactory) (c : ChangeSet) :
    .ok .rollback ∉ EventPlan.steps strict f c := by
  have habout : ∀ {α : Type} (event : α → Event) (x : Except Failure (Option α)),
      (∀ a, event a ≠ .rollback) → .ok .rollback ∉ EventPlan.about event x := by
    intro α event x hne
    rcases x with _ | _ | a <;> simp [EventPlan.about, Ne.symm (hne _)]
  simp only [EventPlan.steps, EventPlan.creations, EventPlan.relationshipChanges,
    EventPlan.deletions, EventPlan.modifications, EventPlan.summaries, List.mem_cons,
    List.mem_append, List.mem_flatMap, List.mem_map, not_or, not_exists, not_and]
  refine ⟨by simp, ⟨⟨⟨⟨?_, ?_, ?_⟩, ?_⟩, ?_⟩, ?_⟩, by simp⟩
  · exact fun _ _ => habout _ _ (by simp)
  · exact fun _ _ => habout _ _ (by simp)
  · exact fun _ _ => habout _ _ (by simp)
  · simp
  · exact fun _ _ => habout _ _ (by simp)
  · exact fun _ _ => habout _ _ (by simp)

/-! ### After a rollback -/

theorem hook_setHook (w : World L H) (h h' : Nat) (f : CommitHook L → CommitHook L) :
    (w.setHook h f).hook h' = if h' = h then f (w.hook h) else w.hook h' := by
  rw [hook, setHook, Assoc.get?_put]
  split <;> rfl

theorem tellAll_spec {e : Event} {ls : List L}
    (h : tellAll react caller txn e ls w = some w') :
    ∃ ds, Told react caller txn w ds w' ∧
      ds.map (fun d => (d.listener, d.event)) = ls.map (·, e) := by
  induction ls generalizing w with
  | nil =>
    obtain rfl : w = w' := by simpa [tellAll] using h
    exact ⟨[], .nil w, rfl⟩
  | cons l ls ih =>
    obtain ⟨⟨r, w₁⟩, hl, hrest⟩ := Option.bind_eq_some_iff.1 h
    obtain ⟨ds, htold, hds⟩ := ih hrest
    exact ⟨⟨l, e, r⟩ :: ds, (told_one hl).trans htold, by simp [hds]⟩

/-- What a rollback reports: the failure recorded, if there is one. -/
def reported : Option Failure → Except Failure Unit
  | some e => .error e
  | none => .ok ()

/-- The rollback was told to the listeners that are registered now, once to each and in order, if
the hook says so; else to none. -/
def RollbackTold (w : World L H) (h : Nat) (ds : List (Delivery L)) : Prop :=
  ds.map (fun d => (d.listener, d.event)) =
    if (w.hook h).settings.dispatchRollback then
      (w.hook h).listeners.snapshot.map (·, .rollback)
    else []

theorem afterRollback_spec {h : Nat} {c c' : TransactionContext} {cause : Option Failure}
    {r : Except Failure Unit} (hc : c.rollBack = .ok (cause, c'))
    (hr : afterRollback react h c w = some (r, w')) :
    ∃ ds, Told react c.caller c.txn w ds w' ∧ RollbackTold w h ds ∧ r = reported cause := by
  have hcount := hook_setHook w h h fun k => { k with counters := k.counters.recordRollback }
  rw [if_pos rfl] at hcount
  simp only [afterRollback, hc] at hr
  rw [show w.count h .recordRollback = w.setHook h _ from rfl, hcount] at hr
  split at hr
  · next hset =>
    obtain ⟨w₁, htell, he⟩ := Option.map_eq_some_iff.1 hr
    obtain ⟨rfl, rfl⟩ := Prod.mk.inj he
    obtain ⟨ds, htold, hds⟩ := tellAll_spec htell
    refine ⟨ds, (((Told.nil w).count h .recordRollback).trans htold).count h _, ?_, ?_⟩
    · rw [RollbackTold, if_pos hset]
      exact hds
    · cases cause <;> rfl
  · next hset =>
    obtain ⟨rfl, rfl⟩ := Prod.mk.inj (Option.some.inj hr)
    refine ⟨[], (Told.nil w).count h .recordRollback, ?_, ?_⟩
    · rw [RollbackTold, if_neg hset]
      rfl
    · cases cause <;> rfl

end World
end EntityGraph
