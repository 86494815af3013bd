import EntityGraph.PermitDesk
import EntityGraph.Proofs.UniqueChecks
import Mathlib.Data.Finset.Card

/-!
Permits that are out. However locks are registered, and permits taken and given back, a lock has one
row in the table for good, and its permit is out exactly if somebody keeps it.

Main statements: `Matched.call` — every call keeps locks and permits matched;
`permits_match_locks` — so they are after any calls, the locks being those that were registered.
-/

namespace EntityGraph

/-- A call that may change a desk. Looking a lock up changes nothing. -/
inductive DeskCall
  | register (l : Lock)
  /-- Asks for the permit of a lock, to be kept under a name. Nobody waits for one that is out. -/
  | take (name : String) (l : Lock)
  /-- Asks for the permit of the lock that guards a key for nodes of a type. -/
  | takeFor (name type key : String)
  | release (name : String)

/-- The lock that a call registers. -/
def DeskCall.registers? : DeskCall → Option Lock
  | register l => some l
  | _ => none

/-! ### Registered locks -/

namespace LockTable

/-- The registered locks, in the order of registration. -/
def registered (t : LockTable) : List Lock := t.entries.map (·.1)

/-- The row of a lock, in which whoever knows the lock finds it again. -/
def row? (t : LockTable) (l : Lock) : Option Nat := t.registered.idxOf? l

theorem mem_registered_iff (t : LockTable) (l : Lock) :
    l ∈ t.registered ↔ (t.held? l).isSome = true := by
  rw [registered, held?]
  induction t.entries with
  | nil => simp
  | cons e es ih =>
    rw [List.map_cons, List.mem_cons, List.lookup_cons]
    by_cases h : l = e.1
    · simp [h]
    · have hne : (l == e.1) = false := by simpa using h
      simp [h, hne, ih]

theorem registered_register (t : LockTable) (l : Lock) :
    (t.register l).registered = if l ∈ t.registered then t.registered else t.registered ++ [l] := by
  by_cases h : l ∈ t.registered
  · rw [if_pos h, register, if_pos ((mem_registered_iff t l).1 h)]
  · rw [if_neg h, register, if_neg fun hl => h ((mem_registered_iff t l).2 hl)]
    simp [registered]

@[simp] theorem registered_mark (t : LockTable) (l : Lock) (held : Bool) :
    (t.mark l held).registered = t.registered := by
  rw [registered, mark, List.map_map]
  refine List.map_congr_left fun e _ => ?_
  by_cases h : e.1 = l <;> simp [h]

@[simp] theorem registered_release (t : LockTable) (l : Lock) :
    (t.release l).registered = t.registered := t.registered_mark l false

/-- A lock that is registered stays in its row. -/
theorem row?_of_prefix {t t' : LockTable} (h : t.registered <+: t'.registered) {l : Lock}
    (hl : l ∈ t.registered) : t'.row? l = t.row? l := by
  obtain ⟨ls, hls⟩ := h
  obtain ⟨i, hi⟩ := Option.isSome_iff_exists.1 (List.isSome_idxOf?.2 hl)
  rw [row?, row?, ← hls, List.idxOf?, List.findIdx?_append, ← List.idxOf?, hi]
  rfl

/-- No two locks share a row. -/
theorem row?_inj {t : LockTable} {l m : Lock} {i : Nat} (hl : t.row? l = some i)
    (hm : t.row? m = some i) : l = m := by
  rw [row?, List.idxOf?, List.findIdx?_eq_some_iff_getElem] at hl hm
  obtain ⟨_, hl, -⟩ := hl
  obtain ⟨_, hm, -⟩ := hm
  exact (eq_of_beq hl).symm.trans (eq_of_beq hm)

/-- The locks after a permit is taken and another one, if there is one, given back. -/
def exchange (t : LockTable) (old : Option Lock) (l : Lock) : LockTable :=
  match old with
  | some o => (t.mark l true).release o
  | none => t.mark l true

theorem registered_exchange (t : LockTable) (old : Option Lock) (l : Lock) :
    (t.exchange old l).registered = t.registered := by
  cases old <;> simp [exchange]

theorem held?_exchange {t : LockTable} {old : Option Lock} {l : Lock}
    (hl : t.held? l = some false) (hold : ∀ o, old = some o → t.held? o = some true) (m : Lock) :
    (t.exchange old l).held? m = some true ↔ m = l ∨ t.held? m = some true ∧ old ≠ some m := by
  have hmark : (t.mark l true).held? m = some true ↔ m = l ∨ t.held? m = some true := by
    rw [held?_mark]
    by_cases hm : m = l <;> simp [hm, hl]
  cases old with
  | none => simpa [exchange] using hmark
  | some o =>
    have hne : l ≠ o := by
      rintro rfl
      simp [hl] at hold
    rw [exchange, release, held?_mark]
    by_cases hm : m = o
    · subst hm
      simp [hne.symm]
    · rw [if_neg hm, hmark]
      simp [Ne.symm hm]

end LockTable

namespace PermitDesk

/-- What a call leaves. -/
def call (d : PermitDesk) : DeskCall → PermitDesk
  | .register l => d.register l
  | .take name l => (d.take name l).2
  | .takeFor name type key =>
    match d.locks.lookup? type key with
    | some l => (d.take name l).2
    | none => d
  | .release name => (d.release name).2

/-- What some calls leave, one after the other. -/
def after (d : PermitDesk) (calls : List DeskCall) : PermitDesk := calls.foldl call d

variable {d : PermitDesk}

/-! ### Locks and their permits -/

/-- A lock has one row, and its permit is out exactly if it is kept under a name, which is then the
only one. -/
structure Matched (d : PermitDesk) : Prop where
  once : d.locks.registered.Nodup
  names : Assoc.Ordered d.permits
  held : ∀ l, d.locks.held? l = some true ↔ ∃ name, d.permits.get? name = some l
  single : ∀ name name' l, d.permits.get? name = some l → d.permits.get? name' = some l →
    name = name'

theorem matched_empty : Matched {} :=
  ⟨List.nodup_nil, Assoc.ordered_nil, by simp [LockTable.held?], by simp⟩

theorem Matched.register (h : d.Matched) (l : Lock) : (d.register l).Matched where
  once := by
    rw [PermitDesk.register, LockTable.registered_register]
    split
    · exact h.once
    · next hl =>
      refine List.nodup_append.2 ⟨h.once, List.nodup_singleton l, fun m hm m' hm' he => hl ?_⟩
      rw [← List.mem_singleton.1 hm', ← he]
      exact hm
  names := h.names
  held := by
    intro m
    rw [← show _ ↔ ∃ name, (d.register l).permits.get? name = some m from h.held m,
      PermitDesk.register, LockTable.held?_register]
    split
    · next hnew => simp [hnew.2, Option.isNone_iff_eq_none.1 hnew.1]
    · exact Iff.rfl
  single := h.single

/-- A request is granted if the lock is registered and free, and otherwise changes nothing. -/
theorem take_cases (d : PermitDesk) (name : String) (l : Lock) :
    d.locks.held? l = some false ∧
      d.take name l =
        (.granted l, ⟨d.locks.exchange (d.permits.get? name) l, d.permits.put name l⟩) ∨
    d.locks.held? l ≠ some false ∧ (d.take name l).1 ≠ .granted l ∧ (d.take name l).2 = d := by
  rw [PermitDesk.take]
  split
  · next hnone => exact Or.inr (by simp [hnone])
  · next hheld => exact Or.inr (by simp [hheld])
  · next hfree =>
    refine Or.inl ⟨hfree, ?_⟩
    cases d.permits.get? name <;> rfl

theorem Matched.unkept (h : d.Matched) {l : Lock} (hfree : d.locks.held? l = some false)
    (name : String) : d.permits.get? name ≠ some l := by
  intro hkept
  have hheld := (h.held l).2 ⟨name, hkept⟩
  rw [hfree] at hheld
  simp at hheld

theorem Matched.take (h : d.Matched) (name : String) (l : Lock) : (d.take name l).2.Matched := by
  rcases d.take_cases name l with ⟨hfree, he⟩ | ⟨-, -, he⟩
  · rw [he]
    have hold : ∀ o, d.permits.get? name = some o → d.locks.held? o = some true :=
      fun o ho => (h.held o).2 ⟨name, ho⟩
    refine ⟨?_, h.names.put _ _, fun m => ?_, fun n n' m hn hn' => ?_⟩
    · rw [LockTable.registered_exchange]
      exact h.once
    · rw [LockTable.held?_exchange hfree hold, h.held]
      simp only [Assoc.get?_put]
      constructor
      · rintro (rfl | ⟨⟨n, hn⟩, hne⟩)
        · exact ⟨name, if_pos rfl⟩
        · have hother : n ≠ name := by
            rintro rfl
            exact hne hn
          exact ⟨n, (if_neg hother).trans hn⟩
      · rintro ⟨n, hn⟩
        split at hn
        · exact Or.inl (Option.some.inj hn).symm
        · next hother => exact Or.inr ⟨⟨n, hn⟩, fun ho => hother (h.single n name m hn ho)⟩
    · simp only [Assoc.get?_put] at hn hn'
      split at hn <;> split at hn'
      · next he he' => exact he.trans he'.symm
      · obtain rfl := Option.some.inj hn
        exact absurd hn' (h.unkept hfree n')
      · obtain rfl := Option.some.inj hn'
        exact absurd hn (h.unkept hfree n)
      · exact h.single n n' m hn hn'
  · rw [he]
    exact h

theorem Matched.release (h : d.Matched) (name : String) : (d.release name).2.Matched := by
  rw [PermitDesk.release]
  split
  · next l hl =>
    refine ⟨by simpa using h.once, h.names.without _, fun m => ?_, fun n n' m hn hn' => ?_⟩
    · rw [LockTable.release, LockTable.held?_mark]
      simp only [Assoc.get?_without]
      by_cases hm : m = l
      · subst hm
        have hgone : ∀ n, ¬ n = name → ¬ d.permits.get? n = some m :=
          fun n hne hn => hne (h.single n name m hn hl)
        simpa [Option.map_eq_some_iff] using hgone
      · rw [if_neg hm, h.held]
        refine exists_congr fun n => ?_
        split
        · next he =>
          subst he
          simp [hl, Ne.symm hm]
        · exact Iff.rfl
    · simp only [Assoc.get?_without] at hn hn'
      split at hn
      · simp at hn
      · split at hn'
        · simp at hn'
        · exact h.single n n' m hn hn'
  · exact h

theorem Matched.call (h : d.Matched) (c : DeskCall) : (d.call c).Matched := by
  cases c with
  | register l => exact h.register l
  | take name l => exact h.take name l
  | takeFor name type key =>
    rw [PermitDesk.call]
    split
    · exact h.take name _
    · exact h
  | release name => exact h.release name

theorem Matched.after (h : d.Matched) (calls : List DeskCall) : (d.after calls).Matched :=
  List.foldlRecOn calls PermitDesk.call h fun _ hd c _ => hd.call c

theorem Matched.nodup (h : d.Matched) : d.permits.values.Nodup := by
  refine (List.nodup_map_iff_inj_on h.names.nodup).2 fun r hr r' hr' he => ?_
  have hget := h.names.get?_of_mem hr
  have hget' := h.names.get?_of_mem hr'
  exact Prod.ext (h.single _ _ _ hget (he ▸ hget')) he

theorem Matched.count (h : d.Matched) (l : Lock) :
    d.permits.values.count l = if d.locks.held? l = some true then 1 else 0 := by
  rw [h.nodup.count]
  exact if_congr (h.names.mem_values_iff.trans (h.held l).symm) rfl rfl

/-! ### Which locks are registered -/

theorem registered_take (d : PermitDesk) (name : String) (l : Lock) :
    (d.take name l).2.locks.registered = d.locks.registered := by
  rcases d.take_cases name l with ⟨-, he⟩ | ⟨-, -, he⟩
  · rw [he]
    exact LockTable.registered_exchange _ _ _
  · rw [he]

theorem registered_call (d : PermitDesk) (c : DeskCall) :
    (d.call c).locks.registered =
      match c.registers? with
      | some l => if l ∈ d.locks.registered then d.locks.registered else d.locks.registered ++ [l]
      | none => d.locks.registered := by
  cases c with
  | register l => exact d.locks.registered_register l
  | take name l => exact d.registered_take name l
  | takeFor name type key =>
    rw [PermitDesk.call]
    split
    · exact d.registered_take name _
    · rfl
  | release name =>
    rw [PermitDesk.call, PermitDesk.release]
    split
    · exact d.locks.registered_release _
    · rfl

theorem registered_grows (d : PermitDesk) (calls : List DeskCall) :
    d.locks.registered <+: (d.after calls).locks.registered := by
  induction calls generalizing d with
  | nil => exact List.prefix_rfl
  | cons c calls ih =>
    refine List.IsPrefix.trans ?_ (ih (d.call c))
    rw [registered_call]
    split
    · split
      · exact List.prefix_rfl
      · exact List.prefix_append _ _
    · exact List.prefix_rfl

theorem mem_registered_after (d : PermitDesk) (calls : List DeskCall) (l : Lock) :
    l ∈ (d.after calls).locks.registered ↔
      l ∈ d.locks.registered ∨ l ∈ calls.filterMap DeskCall.registers? := by
  induction calls generalizing d with
  | nil => simp [PermitDesk.after]
  | cons c calls ih =>
    rw [show d.after (c :: calls) = (d.call c).after calls from rfl, ih, registered_call,
      List.filterMap_cons]
    cases c.registers? with
    | none => rfl
    | some m =>
      by_cases hm : m ∈ d.locks.registered
      · simp only [hm, if_true, List.mem_cons]
        constructor
        · rintro (hl | hl)
          · exact Or.inl hl
          · exact Or.inr (Or.inr hl)
        · rintro (hl | rfl | hl)
          · exact Or.inl hl
          · exact Or.inl hm
          · exact Or.inr hl
      · simp [hm, or_assoc]

/-- After any calls on a new desk, a permit of a lock is kept exactly if the lock is held, and then
one; so it is granted exactly while nobody keeps it. Every lock that was registered, and no other,
has a row, which it keeps whatever is called then, and registering it again changes nothing. -/
theorem permits_match_locks (calls : List DeskCall) :
    let d := PermitDesk.after {} calls
    let registered := calls.filterMap DeskCall.registers?
    (∀ l, d.permits.values.count l = if d.locks.held? l = some true then 1 else 0) ∧
      d.permits.values.Nodup ∧
      (∀ name l, (d.take name l).1 = .granted l ↔ l ∈ registered ∧ l ∉ d.permits.values) ∧
      d.locks.size = registered.toFinset.card ∧
      (∀ l, (d.locks.row? l).isSome = true ↔ l ∈ registered) ∧
      (∀ l m i, d.locks.row? l = some i → d.locks.row? m = some i → l = m) ∧
      ∀ l ∈ registered, d.register l = d ∧
        ∀ more, (d.after more).locks.row? l = d.locks.row? l := by
  intro d registered
  have h : d.Matched := matched_empty.after calls
  have hmem : ∀ l, l ∈ d.locks.registered ↔ l ∈ registered := by
    intro l
    rw [mem_registered_after]
    simp [LockTable.registered, registered]
  refine ⟨h.count, h.nodup, fun name l => ?_, ?_, fun l => ?_, fun l m i => LockTable.row?_inj,
    fun l hl => ⟨?_, fun more => ?_⟩⟩
  · rw [← hmem, LockTable.mem_registered_iff, h.names.mem_values_iff, ← h.held]
    rcases d.take_cases name l with ⟨hfree, he⟩ | ⟨hnot, hrefused, -⟩
    · simp [he, hfree]
    · refine iff_of_false hrefused ?_
      rintro ⟨hthere, hunheld⟩
      obtain ⟨held, hheld⟩ := Option.isSome_iff_exists.1 hthere
      cases held <;> simp_all
  · have hsame : registered.toFinset = d.locks.registered.toFinset := by
      ext l
      simp [hmem]
    rw [hsame, List.toFinset_card_of_nodup h.once, LockTable.registered, List.length_map]
    rfl
  · rw [LockTable.row?, List.isSome_idxOf?, hmem]
  · rw [PermitDesk.register, LockTable.register,
      if_pos ((LockTable.mem_registered_iff _ _).1 ((hmem l).2 hl))]
  · exact LockTable.row?_of_prefix (registered_grows d more) ((hmem l).2 hl)

/-! ### Two owners -/

/-- One owner keeps the permit of a type, another one has had that of all nodes meanwhile. -/
def crossed : List DeskCall :=
  [.register ⟨.global, "email"⟩, .register ⟨.type "Person", "email"⟩,
    .takeFor "a" "Person" "email", .take "b" ⟨.global, "email"⟩, .take "a" ⟨.global, "email"⟩,
    .release "b"]

/-- The permit of the type is out once and refused to the other owner, that of all nodes is granted
again, and either lock keeps its row. -/
theorem permits_match_locks_crossed :
    let d := PermitDesk.after {} crossed
    let person : Lock := ⟨.type "Person", "email"⟩
    let anyone : Lock := ⟨.global, "email"⟩
    d.permits.values.count person = 1 ∧ (d.take "b" person).1 ≠ .granted person ∧
      (d.take "a" anyone).1 = .granted anyone ∧ d.locks.size = 2 ∧
      d.register person = d ∧ (d.after [.release "a", .register anyone]).locks.row? person =
        d.locks.row? person := by
  obtain ⟨hcount, -, hgranted, hsize, -, -, hstays⟩ := permits_match_locks crossed
  refine ⟨?_, ?_, ?_, ?_, (hstays _ ?_).1, (hstays _ ?_).2 _⟩
  · rw [hcount]
    decide
  · rw [Ne, hgranted]
    decide
  · rw [hgranted]
    decide
  · rw [hsize]
    decide
  · decide
  · decide

end PermitDesk
end EntityGraph
