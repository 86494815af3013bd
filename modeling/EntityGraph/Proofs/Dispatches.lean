import EntityGraph.Proofs.Endings

/-!
Telling listeners, as it goes on: as long as they take what they are told, a dispatch moves from one
event to the next and counts each. A log that listeners keep shows what they were told.

Main statements: `Told.log` — a log grows by the calls that were made; `Took.dispatch` — a dispatch
goes on after the events that were taken.
-/

namespace EntityGraph.World
variable {L H : Type}

/-- A log of what listeners are told for one transaction: each call adds an entry with the answer,
and counting adds none. -/
structure Logs (react : Reaction L H) (caller : Caller) (txn : TxnId)
    (log : World L H → List (Delivery L)) : Prop where
  call : ∀ {l e w r w'}, react l caller txn e w = some (r, w') → log w' = log w ++ [⟨l, e, r⟩]
  count : ∀ w h f, log (w.count h f) = log w

/-- These calls were made, in this order, and every log shows just them. -/
structure Delivered (react : Reaction L H) (caller : Caller) (txn : TxnId) (w : World L H)
    (ds : List (Delivery L)) (w' : World L H) : Prop where
  told : Told react caller txn w ds w'
  logged : ∀ log, Logs react caller txn log → log w' = log w ++ ds

/-- The events that one listener was told of. -/
def heard [DecidableEq L] (l : L) (ds : List (Delivery L)) : List Event :=
  (ds.filter (·.listener = l)).map (·.event)

/-- Listeners take events, one after the other, and the hook counts each that all have taken. -/
inductive Took (react : Reaction L H) (h : Nat) (ls : List L) (caller : Caller) (txn : TxnId) :
    World L H → List Event → World L H → Prop
  | nil (w) : Took react h ls caller txn w [] w
  | cons {w e w₁ es w₂} (he : tell react caller txn e ls w = some (.ok (), w₁))
    (rest : Took react h ls caller txn (w₁.count h .recordEvent) es w₂) :
    Took react h ls caller txn w (e :: es) w₂

variable {react : Reaction L H} {caller : Caller} {txn : TxnId} {w w₁ w₂ : World L H} {h : Nat}
  {ls : List L}

theorem Told.log {ds : List (Delivery L)} {log : World L H → List (Delivery L)}
    (ht : Told react caller txn w ds w₁) (hlog : Logs react caller txn log) :
    log w₁ = log w ++ ds := by
  induction ht with
  | nil => rw [List.append_nil]
  | count _ k f ih => rw [hlog.count, ih]
  | call _ hr ih => rw [hlog.call hr, ih, List.append_assoc]

theorem Told.delivered {ds : List (Delivery L)} (ht : Told react caller txn w ds w₁) :
    Delivered react caller txn w ds w₁ :=
  ⟨ht, fun _ hlog => ht.log hlog⟩

/-! ### One event -/

theorem told_of_tell {e : Event} (he : tell react caller txn e ls w = some (.ok (), w₁)) :
    Told react caller txn w (taken ls e) w₁ := by
  obtain ⟨ds, htold, hof⟩ := tell_spec he
  cases hof
  exact htold

theorem tell_append {e : Event} {before after : List L}
    (he : tell react caller txn e before w = some (.ok (), w₁)) :
    tell react caller txn e (before ++ after) w = tell react caller txn e after w₁ := by
  induction before generalizing w with
  | nil =>
    obtain rfl : w = w₁ := by simpa [tell] using he
    rfl
  | cons l before ih =>
    rw [tell] at he
    split at he
    · next w' hl =>
      rw [List.cons_append, tell, hl]
      exact ih he
    · next hne => exact absurd he (hne w₁)

/-- Listeners that never fail take an event. -/
theorem tell_of_answers {e : Event}
    (ha : ∀ l ∈ ls, ∀ w, ∃ w', react l caller txn e w = some (.ok (), w')) :
    ∃ w', tell react caller txn e ls w = some (.ok (), w') := by
  induction ls generalizing w with
  | nil => exact ⟨w, rfl⟩
  | cons l ls ih =>
    obtain ⟨w₁, hl⟩ := ha l (List.mem_cons_self ..) w
    obtain ⟨w₂, hrest⟩ := ih (w := w₁) fun k hk => ha k (List.mem_cons_of_mem _ hk)
    exact ⟨w₂, by rw [tell, hl]; exact hrest⟩

/-! ### A sequence of events -/

theorem Took.told {es : List Event} (ht : Took react h ls caller txn w es w₁) :
    Told react caller txn w (es.flatMap (taken ls)) w₁ := by
  induction ht with
  | nil w => exact .nil w
  | cons he _ ih => exact ((told_of_tell he).count h _).trans ih

theorem took_of_answers {es : List Event}
    (ha : ∀ l ∈ ls, ∀ e ∈ es, ∀ w, ∃ w', react l caller txn e w = some (.ok (), w')) :
    ∃ w', Took react h ls caller txn w es w' := by
  induction es generalizing w with
  | nil => exact ⟨w, .nil w⟩
  | cons e es ih =>
    obtain ⟨w₁, he⟩ := tell_of_answers (w := w) fun l hl => ha l hl e (List.mem_cons_self ..)
    obtain ⟨w₂, hrest⟩ := ih (w := w₁.count h .recordEvent) fun l hl e he =>
      ha l hl e (List.mem_cons_of_mem _ he)
    exact ⟨w₂, .cons he hrest⟩

/-- A dispatch goes on after the events that listeners took. -/
theorem Took.dispatch {c : TransactionContext} {es : List Event} {rest : List PlanStep}
    (ht : Took react h ls c.caller c.txn w es w₁) :
    dispatch react h ls c (es.map .ok ++ rest) w = World.dispatch react h ls c rest w₁ := by
  induction es generalizing w with
  | nil =>
    cases ht
    rfl
  | cons e es ih =>
    cases ht with
    | cons he hrest =>
      rw [List.map_cons, List.cons_append, World.dispatch, he]
      exact ih hrest

/-- The events that a hook has counted. -/
def eventCount (w : World L H) (h : Nat) : Nat := (w.hook h).counters.events

theorem eventCount_recordEvent (w : World L H) (h : Nat) :
    eventCount (w.count h .recordEvent) h = eventCount w h + 1 := by
  rw [eventCount, count, hook_setHook, if_pos rfl]
  rfl

/-- Listeners leave what the hook counts alone. -/
def LeaveCount (react : Reaction L H) (caller : Caller) (txn : TxnId) (h : Nat) : Prop :=
  ∀ l e w r w', react l caller txn e w = some (r, w') → eventCount w' h = eventCount w h

theorem LeaveCount.tell (hl : LeaveCount react caller txn h) {e : Event} {r : Except Failure Unit}
    (he : tell react caller txn e ls w = some (r, w₁)) : eventCount w₁ h = eventCount w h := by
  induction ls generalizing w with
  | nil =>
    obtain ⟨-, rfl⟩ : .ok () = r ∧ w = w₁ := by simpa [World.tell] using he
    rfl
  | cons l ls ih =>
    rw [World.tell] at he
    split at he
    · next w' hw => exact (ih he).trans (hl _ _ _ _ _ hw)
    · exact hl _ _ _ _ _ he

theorem Took.eventCount (hl : LeaveCount react caller txn h) {es : List Event}
    (ht : Took react h ls caller txn w es w₁) :
    eventCount w₁ h = eventCount w h + es.length := by
  induction ht with
  | nil => rfl
  | cons he _ ih =>
    rw [ih, eventCount_recordEvent, hl.tell he, List.length_cons]
    omega

end EntityGraph.World
