import EntityGraph.Proofs.Recordings

/-!
Entries that are lost sight of. The index of a change set leads to the latest entry of a property. A
write is folded into that entry; but an entry that is recorded directly, for a property that has one
already, overlays it: the earlier entry stays where it is, and nothing leads to it any more. Neither
a later write nor forgetting the node takes it out.

Main statements: `Indexed.record` — how many entries of a property are overlaid after one more
recording; `nothing_lost_unless_overlaid` — which entries there are, and which stay when a node is
forgotten.
-/

namespace EntityGraph

/-- How many entries of a property a recording overlays: one, if it records an entry directly and
the property has one. -/
def Recording.overlays (c : ChangeSet) (n : NodeId) (k : String) : Recording → Nat
  | .assign node key _ _ | .remove node key _ =>
    if (node, key.name) = (n, k) ∧ (c.entryOf? n k).isSome = true then 1 else 0
  | _ => 0

namespace ChangeSet

/-- How many entries of a property some recordings overlay. -/
def overlays : ChangeSet → List Recording → NodeId → String → Nat
  | _, [], _, _ => 0
  | c, r :: rs, n, k => r.overlays c n k + (c.record r).overlays rs n k

/-- The index leads to an entry. -/
def leadsTo (c : ChangeSet) (r : Nat × PropertyEntry) : Prop := (r.2.pair, r.1) ∈ c.latest

instance (c : ChangeSet) (r : Nat × PropertyEntry) : Decidable (c.leadsTo r) :=
  inferInstanceAs (Decidable (_ ∈ _))

/-- How many entries of a property are overlaid: the index does not lead to them. -/
def overlaid (c : ChangeSet) (n : NodeId) (k : String) : Nat :=
  c.entries.countP fun r => r.2.pair = (n, k) ∧ ¬ c.leadsTo r

/-- The index has at most one row for a property, which leads to its last entry. -/
structure Indexed (c : ChangeSet) : Prop where
  orderly : c.Orderly
  keys : (c.latest.map (·.1)).Nodup
  leads : ∀ p number, (p, number) ∈ c.latest → ∃ e, (number, e) ∈ c.entries ∧ e.pair = p
  last : ∀ p number, (p, number) ∈ c.latest → ∀ r ∈ c.entries, r.2.pair = p → r.1 ≤ number

/-- Some properties are dropped: their rows and the entries that these lead to. -/
structure Drops (q : NodeId × String → Prop) [DecidablePred q] (c d : ChangeSet) : Prop where
  latest : d.latest = c.latest.filter fun row => ¬ q row.1
  entries : d.entries = c.entries.filter fun r => ¬ (q r.2.pair ∧ c.leadsTo r)

variable {c d : ChangeSet}

/-! ### What the index leads to -/

theorem Orderly.numbers (h : c.Orderly) : (c.entries.map (·.1)).Nodup :=
  List.pairwise_map.2 (h.increasing.imp Nat.ne_of_lt)

namespace Indexed

theorem lookup_eq_some_iff (h : c.Indexed) {p : NodeId × String} {number : Nat} :
    c.latest.lookup p = some number ↔ (p, number) ∈ c.latest := by
  refine ⟨fun hlookup => ?_, lookup_of_mem h.keys⟩
  obtain ⟨before, after, hsplit, -⟩ := List.lookup_eq_some_iff.1 hlookup
  simp [hsplit]

theorem entryOf?_eq_some_iff (h : c.Indexed) {n : NodeId} {k : String} {e : PropertyEntry} :
    c.entryOf? n k = some e ↔
      ∃ number, (number, e) ∈ c.entries ∧ e.pair = (n, k) ∧ c.leadsTo (number, e) := by
  simp only [entryOf?, Option.bind_eq_some_iff, h.lookup_eq_some_iff, leadsTo]
  refine exists_congr fun number => ?_
  constructor
  · rintro ⟨hrow, he⟩
    obtain ⟨d, hd, hp⟩ := h.leads _ _ hrow
    obtain rfl : d = e := Option.some.inj ((lookup_of_mem h.orderly.numbers hd).symm.trans he)
    exact ⟨hd, hp, hp ▸ hrow⟩
  · rintro ⟨hm, hp, hrow⟩
    exact ⟨hp ▸ hrow, lookup_of_mem h.orderly.numbers hm⟩

/-- The index leads to one entry of a property at most. -/
theorem number_eq (h : c.Indexed) {r s : Nat × PropertyEntry} (hr : c.leadsTo r)
    (hs : c.leadsTo s) (hp : r.2.pair = s.2.pair) : r.1 = s.1 := by
  rw [leadsTo, hp] at hr
  have hlookup := (h.lookup_eq_some_iff.2 hr).symm.trans (h.lookup_eq_some_iff.2 hs)
  exact Option.some.inj hlookup

/-- The index leads to the entry of a property that is found. -/
theorem countP_leadsTo (h : c.Indexed) (n : NodeId) (k : String) :
    (c.entries.countP fun r => r.2.pair = (n, k) ∧ c.leadsTo r) =
      (c.entryOf? n k).toList.length := by
  cases hfound : c.entryOf? n k with
  | none =>
    refine List.countP_eq_zero.2 fun r hr => ?_
    simp only [decide_eq_true_eq, not_and]
    intro hp hleads
    have hsome := h.entryOf?_eq_some_iff.2 ⟨r.1, hr, hp, hleads⟩
    rw [hfound] at hsome
    cases hsome
  | some e =>
    obtain ⟨number, hm, hp, hleads⟩ := h.entryOf?_eq_some_iff.1 hfound
    have honly : ∀ r ∈ c.entries, (r.2.pair = (n, k) ∧ c.leadsTo r) ↔ r.1 = number := by
      intro r hr
      constructor
      · rintro ⟨hrp, hrleads⟩
        exact h.number_eq hrleads hleads (hrp.trans hp.symm)
      · intro hnumber
        obtain rfl := List.inj_on_of_nodup_map h.orderly.numbers hr hm hnumber
        exact ⟨hp, hleads⟩
    have hone := List.count_eq_one_of_mem h.orderly.numbers (List.mem_map_of_mem hm)
    rw [List.count, List.countP_map] at hone
    rw [Option.toList_some, List.length_singleton, ← hone]
    refine List.countP_congr fun r hr => ?_
    simpa using honly r hr

/-- A property has the entries that are overlaid, and the one that the index leads to. -/
theorem countP_log (h : c.Indexed) (n : NodeId) (k : String) :
    c.log.countP (·.pair = (n, k)) = c.overlaid n k + (c.entryOf? n k).toList.length := by
  rw [← h.countP_leadsTo, log, List.countP_map,
    List.countP_eq_countP_filter_add _ _ (fun r => ¬ c.leadsTo r), overlaid, List.countP_filter,
    List.countP_filter]
  simp

/-- The index leads to the last entry of a property. -/
theorem getLast?_filter (h : c.Indexed) {n : NodeId} {k : String} {e : PropertyEntry}
    (he : c.entryOf? n k = some e) : (c.log.filter (·.pair = (n, k))).getLast? = some e := by
  obtain ⟨number, hm, hp, hleads⟩ := h.entryOf?_eq_some_iff.1 he
  have hrow : ((n, k), number) ∈ c.latest := hp ▸ hleads
  have hfilter : (number, e) ∈ c.entries.filter (·.2.pair = (n, k)) :=
    List.mem_filter.2 ⟨hm, by simpa using hp⟩
  obtain ⟨before, after, hsplit⟩ := List.append_of_mem hfilter
  have hafter : after = [] := by
    have hsorted := h.orderly.increasing.filter fun r => r.2.pair = (n, k)
    rw [hsplit] at hsorted
    have hlater := (List.pairwise_cons.1 (List.pairwise_append.1 hsorted).2.1).1
    refine List.eq_nil_iff_forall_not_mem.2 fun r hr => ?_
    have hrm : r ∈ c.entries.filter (·.2.pair = (n, k)) := by simp [hsplit, hr]
    obtain ⟨hre, hrp⟩ := List.mem_filter.1 hrm
    exact Nat.not_lt.2 (h.last _ _ hrow r hre (by simpa using hrp)) (hlater r hr)
  have hlog : c.log.filter (·.pair = (n, k)) =
      (c.entries.filter (·.2.pair = (n, k))).map (·.2) := by
    rw [log, List.filter_map]
    rfl
  rw [hlog, hsplit, hafter]
  simp

/-! ### One recording -/

theorem latest_push (c : ChangeSet) (e : PropertyEntry) : (c.push e).latest =
    c.latest.filter (·.1 ≠ e.pair) ++ [(e.pair, c.nextNumber)] := rfl

theorem push (h : c.Indexed) (e : PropertyEntry) : (c.push e).Indexed where
  orderly := h.orderly.push e
  keys := by
    have hkept : ((c.latest.filter (·.1 ≠ e.pair)).map (·.1)).Nodup :=
      (List.filter_sublist.map _).nodup h.keys
    have hnew : e.pair ∉ (c.latest.filter (·.1 ≠ e.pair)).map (·.1) := by simp
    rw [latest_push, List.map_append]
    simpa only [List.concat_eq_append, List.map_cons, List.map_nil] using hkept.concat hnew
  leads := by
    intro p number hrow
    rcases List.mem_append.1 hrow with hrow | hrow
    · obtain ⟨d, hd, hp⟩ := h.leads p number (List.mem_of_mem_filter hrow)
      exact ⟨d, List.mem_append_left _ hd, hp⟩
    · obtain ⟨rfl, rfl⟩ := Prod.mk.inj (List.mem_singleton.1 hrow)
      exact ⟨e, List.mem_append_right _ (List.mem_singleton_self _), rfl⟩
  last := by
    intro p number hrow r hr hp
    rcases List.mem_append.1 hrow with hrow | hrow
    · have hne : p ≠ e.pair := of_decide_eq_true (List.mem_filter.1 hrow).2
      rcases List.mem_append.1 hr with hr | hr
      · exact h.last p number (List.mem_of_mem_filter hrow) r hr hp
      · rw [List.mem_singleton.1 hr] at hp
        exact absurd hp.symm hne
    · obtain ⟨-, rfl⟩ := Prod.mk.inj (List.mem_singleton.1 hrow)
      exact Nat.lt_succ_iff.1 ((h.orderly.push e).below r hr)

/-- A pushed entry overlays the one that its property has. -/
theorem overlaid_push (h : c.Indexed) (e : PropertyEntry) (n : NodeId) (k : String) :
    (c.push e).overlaid n k = c.overlaid n k +
      if e.pair = (n, k) ∧ (c.entryOf? n k).isSome = true then 1 else 0 := by
  have hnew : (c.push e).leadsTo (c.nextNumber, e) := by simp [leadsTo, latest_push]
  -- a row made before leads where it led, unless it is about the property of the new entry
  have hold : ∀ r ∈ c.entries, (c.push e).leadsTo r ↔ r.2.pair ≠ e.pair ∧ c.leadsTo r := by
    intro r hr
    have hne : r.1 ≠ c.nextNumber := Nat.ne_of_lt (h.orderly.below r hr)
    simp [leadsTo, latest_push, hne, and_comm]
  have hcount : (c.push e).overlaid n k =
      c.entries.countP fun r => r.2.pair = (n, k) ∧ ¬ (c.push e).leadsTo r := by
    rw [overlaid, show (c.push e).entries = c.entries ++ [(c.nextNumber, e)] from rfl,
      List.countP_append]
    simp [hnew]
  rw [hcount]
  by_cases hp : e.pair = (n, k)
  · have hall : c.entries.countP (fun r => r.2.pair = (n, k) ∧ ¬ (c.push e).leadsTo r) =
        c.log.countP (·.pair = (n, k)) := by
      rw [log, List.countP_map]
      refine List.countP_congr fun r hr => ?_
      simp only [hold r hr, hp, decide_eq_true_eq, Function.comp_apply]
      tauto
    rw [hall, h.countP_log]
    cases c.entryOf? n k <;> simp [hp]
  · rw [if_neg fun hboth => hp hboth.1, Nat.add_zero, overlaid]
    refine List.countP_congr fun r hr => ?_
    have hne : r.2.pair = (n, k) → r.2.pair ≠ e.pair := fun hr he => hp (he.symm.trans hr)
    simp only [hold r hr, decide_eq_true_eq]
    tauto

/-- The index and the properties of the entries are all that counts. -/
theorem congr (h : c.Indexed) (ho : d.Orderly) (hlatest : d.latest = c.latest)
    (hplaces : d.entries.map place = c.entries.map place) :
    d.Indexed ∧ ∀ n k, d.overlaid n k = c.overlaid n k := by
  have hmem : ∀ {l l' : List (Nat × PropertyEntry)}, l.map place = l'.map place →
      ∀ r ∈ l, ∃ s ∈ l', s.1 = r.1 ∧ s.2.pair = r.2.pair := by
    intro l l' hl r hr
    obtain ⟨s, hs, hrs⟩ := List.mem_map.1 (hl ▸ List.mem_map_of_mem hr)
    simp only [place, Prod.mk.injEq] at hrs
    exact ⟨s, hs, hrs.1, by rw [PropertyEntry.pair, PropertyEntry.pair, hrs.2.1, hrs.2.2]⟩
  refine ⟨⟨ho, hlatest ▸ h.keys, fun p number hrow => ?_, fun p number hrow r hr hp => ?_⟩, ?_⟩
  · obtain ⟨e, he, hp⟩ := h.leads p number (hlatest ▸ hrow)
    obtain ⟨s, hs, rfl, hsp⟩ := hmem hplaces.symm _ he
    exact ⟨s.2, hs, hsp.trans hp⟩
  · obtain ⟨s, hs, hnumber, hsp⟩ := hmem hplaces r hr
    exact hnumber ▸ h.last p number (hlatest ▸ hrow) s hs (hsp.trans hp)
  · intro n k
    have hcount : ∀ c : ChangeSet, c.overlaid n k = (c.entries.map place).countP fun r =>
        (r.2.1, r.2.2.name) = (n, k) ∧ ((r.2.1, r.2.2.name), r.1) ∉ c.latest := fun c => by
      rw [List.countP_map]
      rfl
    rw [hcount, hcount, hplaces, hlatest]

theorem setValue (h : c.Indexed) (number : Nat) (value : Value) :
    (c.setValue number value).Indexed ∧
      ∀ n k, (c.setValue number value).overlaid n k = c.overlaid n k :=
  h.congr (h.orderly.setValue number value) rfl (map_place_setValue c number value)

/-- Dropping properties takes out what the index leads to, and nothing else. -/
theorem drop {q : NodeId × String → Prop} [DecidablePred q] (h : c.Indexed) (ho : d.Orderly)
    (hd : Drops q c d) :
    d.Indexed ∧ ∀ n k, d.overlaid n k = c.overlaid n k := by
  have hrows : ∀ p number, (p, number) ∈ d.latest ↔ (p, number) ∈ c.latest ∧ ¬ q p := by
    simp [hd.latest]
  have hentries : ∀ r, r ∈ d.entries ↔ r ∈ c.entries ∧ ¬ (q r.2.pair ∧ c.leadsTo r) := by
    simp [hd.entries, imp_iff_not_or]
  refine ⟨⟨ho, ?_, fun p number hrow => ?_, fun p number hrow r hr hp => ?_⟩, fun n k => ?_⟩
  · exact hd.latest ▸ (List.filter_sublist.map _).nodup h.keys
  · obtain ⟨hrow, hq⟩ := (hrows p number).1 hrow
    obtain ⟨e, he, rfl⟩ := h.leads p number hrow
    exact ⟨e, (hentries _).2 ⟨he, fun hdropped => hq hdropped.1⟩, rfl⟩
  · exact h.last p number ((hrows p number).1 hrow).1 r ((hentries r).1 hr).1 hp
  · rw [overlaid, hd.entries, List.countP_filter, overlaid]
    refine List.countP_congr fun r _ => ?_
    have hleads : d.leadsTo r ↔ c.leadsTo r ∧ ¬ q r.2.pair := hrows r.2.pair r.1
    simp only [Bool.and_eq_true, decide_eq_true_eq, hleads]
    tauto

/-! ### The ways of recording -/

/-- A number is that of one entry. -/
theorem leadsTo_of_row (h : c.Indexed) {r : Nat × PropertyEntry} (hr : r ∈ c.entries)
    {p : NodeId × String} (hrow : (p, r.1) ∈ c.latest) : r.2.pair = p ∧ c.leadsTo r := by
  obtain ⟨e, he, rfl⟩ := h.leads p r.1 hrow
  have hre : r = (r.1, e) := List.inj_on_of_nodup_map h.orderly.numbers hr he rfl
  rw [leadsTo, hre]
  exact ⟨rfl, hrow⟩

theorem take (h : c.Indexed) {node : NodeId} {key : String} {number : Nat}
    (hrow : ((node, key), number) ∈ c.latest) :
    (c.take node key number).Indexed ∧
      ∀ n k, (c.take node key number).overlaid n k = c.overlaid n k := by
  refine h.drop (q := (· = (node, key))) (h.orderly.take node key number) ⟨rfl, ?_⟩
  refine List.filter_congr fun r hr => decide_eq_decide.2 (not_congr ⟨?_, ?_⟩)
  · rintro rfl
    exact h.leadsTo_of_row hr hrow
  · rintro ⟨hp, hleads⟩
    rw [leadsTo, hp] at hleads
    have hlookup := h.lookup_eq_some_iff.2 hleads
    exact Option.some.inj (hlookup.symm.trans (h.lookup_eq_some_iff.2 hrow))

theorem entryOf?_take (c : ChangeSet) (node : NodeId) (key : String) (number : Nat) :
    (c.take node key number).entryOf? node key = none := by
  have hlookup : (c.take node key number).latest.lookup (node, key) = none := by
    refine List.lookup_eq_none_iff.2 fun row hrow => ?_
    have hne : row.1 ≠ (node, key) := of_decide_eq_true (List.mem_filter.1 hrow).2
    simpa using hne.symm
  rw [entryOf?, hlookup]
  rfl

/-- A net change overlays nothing where the property has no entry. -/
theorem net (h : c.Indexed) {node : NodeId} {key : PropertyKey}
    (hnone : c.entryOf? node key.name = none) (previous value : Option Value) :
    (c.net node key previous value).Indexed ∧
      ∀ n k, (c.net node key previous value).overlaid n k = c.overlaid n k := by
  have hpush : ∀ e : PropertyEntry, e.node = node → e.key = key →
      (c.push e).Indexed ∧ ∀ n k, (c.push e).overlaid n k = c.overlaid n k := by
    rintro e rfl rfl
    refine ⟨h.push e, fun n k => ?_⟩
    rw [h.overlaid_push, if_neg]
    · rfl
    · rintro ⟨hp, hsome⟩
      obtain ⟨rfl, rfl⟩ := Prod.mk.inj hp
      simp [hnone] at hsome
  cases value with
  | some v => exact hpush _ rfl rfl
  | none =>
    cases previous with
    | some old => exact hpush _ rfl rfl
    | none => exact ⟨h, fun _ _ => rfl⟩

/-- A write overlays nothing. -/
theorem write (h : c.Indexed) (node : NodeId) (key : PropertyKey) (current value : Option Value) :
    (c.write node key current value).Indexed ∧
      ∀ n k, (c.write node key current value).overlaid n k = c.overlaid n k := by
  rw [ChangeSet.write]
  split
  · next hlookup => exact h.net (by rw [entryOf?, hlookup]; rfl) current value
  · next number hlookup =>
    split
    · exact h.setValue number _
    · obtain ⟨htake, hsame⟩ := h.take (h.lookup_eq_some_iff.1 hlookup)
      obtain ⟨hnet, hsame'⟩ := htake.net (entryOf?_take c node key.name number)
        ((c.entryAt? number).bind (·.previous)) _
      exact ⟨hnet, fun n k => (hsame' n k).trans (hsame n k)⟩

theorem drops_discardNode (h : c.Indexed) {id : NodeId} (hc : c.isCreated id = true) :
    Drops (·.1 = id) c (c.discardNode id).2 := by
  rw [ChangeSet.discardNode, if_pos hc]
  refine ⟨rfl, List.filter_congr fun r hr => decide_eq_decide.2 (not_congr ?_)⟩
  constructor
  · intro hnumber
    obtain ⟨row, hrow, hr1⟩ := List.mem_map.1 hnumber
    obtain ⟨hrow, hid⟩ := List.mem_filter.1 hrow
    obtain ⟨hp, hleads⟩ := h.leadsTo_of_row hr (p := row.1) (hr1 ▸ hrow)
    exact ⟨hp ▸ of_decide_eq_true hid, hleads⟩
  · rintro ⟨hid, hleads⟩
    exact List.mem_map.2 ⟨_, List.mem_filter.2 ⟨hleads, decide_eq_true hid⟩, rfl⟩

theorem discardNode (h : c.Indexed) (id : NodeId) :
    (c.discardNode id).2.Indexed ∧
      ∀ n k, (c.discardNode id).2.overlaid n k = c.overlaid n k := by
  by_cases hc : c.isCreated id = true
  · exact h.drop (h.orderly.record (.discardNode id)) (h.drops_discardNode hc)
  · rw [ChangeSet.discardNode, if_neg hc]
    exact ⟨h, fun _ _ => rfl⟩

theorem record (h : c.Indexed) (r : Recording) :
    (c.record r).Indexed ∧
      ∀ n k, (c.record r).overlaid n k = c.overlaid n k + r.overlays c n k := by
  have ho := h.orderly.record r
  cases r with
  | createNode id =>
    refine h.congr ho ?_ ?_ <;> (rw [ChangeSet.record, createNode]; split <;> rfl)
  | deleteNode id =>
    refine h.congr ho ?_ ?_ <;> (rw [ChangeSet.record, deleteNode]; split <;> rfl)
  | createRelationship r => exact h.congr ho rfl rfl
  | deleteRelationship r => exact h.congr ho rfl rfl
  | discardNode id => exact h.discardNode id
  | discardRelationship id =>
    refine h.congr ho ?_ ?_ <;> (rw [ChangeSet.record, discardRelationship]; split <;> rfl)
  | assign => exact ⟨h.push _, h.overlaid_push _⟩
  | remove => exact ⟨h.push _, h.overlaid_push _⟩
  | write => exact h.write ..

end Indexed

/-! ### Any recordings -/

theorem indexed_empty : Indexed {} :=
  ⟨orderly_empty, List.nodup_nil, nofun, nofun⟩

theorem Indexed.foldl (h : c.Indexed) (rs : List Recording) :
    (rs.foldl ChangeSet.record c).Indexed ∧
      ∀ n k, (rs.foldl ChangeSet.record c).overlaid n k = c.overlaid n k + c.overlays rs n k := by
  induction rs generalizing c with
  | nil => exact ⟨h, fun _ _ => rfl⟩
  | cons r rs ih =>
    obtain ⟨hrecord, hone⟩ := h.record r
    obtain ⟨hall, hrest⟩ := ih hrecord
    exact ⟨hall, fun n k => by rw [List.foldl_cons, hrest, hone, overlays, Nat.add_assoc]⟩

/-- Which entries a change set holds, finds and forgets, given how many of each property were
overlaid. -/
structure Remembers (c : ChangeSet) (overlaid : NodeId → String → Nat) : Prop where
  /-- A property has the entry that is found, and those that were overlaid. -/
  counted : ∀ n k,
    c.log.countP (·.pair = (n, k)) = overlaid n k + (c.entryOf? n k).toList.length
  /-- What is found is the last entry of the property. -/
  last : ∀ n k e, c.entryOf? n k = some e →
    (c.log.filter (·.pair = (n, k))).getLast? = some e
  /-- An entry is found exactly if there is one, unless only overlaid ones are left. -/
  found_iff : ∀ n k, ((c.entryOf? n k).isSome = true ↔ ∃ e ∈ c.log, e.pair = (n, k)) ↔
    overlaid n k = 0 ∨ (c.entryOf? n k).isSome = true
  /-- Forgetting a node leaves the entries of the others, in their order. -/
  others : ∀ id d, c.discardNode id = (true, d) →
    d.log.filter (·.node ≠ id) = c.log.filter (·.node ≠ id)
  /-- Of its own entries it leaves those that were overlaid, which are not found. -/
  own : ∀ id d, c.discardNode id = (true, d) → ∀ k,
    d.entryOf? id k = none ∧ d.log.countP (·.pair = (id, k)) = overlaid id k
  /-- So it leaves none exactly if none was overlaid. -/
  forgotten_iff : ∀ id d, c.discardNode id = (true, d) →
    ((∀ e ∈ d.log, e.node ≠ id) ↔ ∀ k, overlaid id k = 0)

namespace Indexed

theorem of_discardNode {id : NodeId} (h : c.discardNode id = (true, d)) :
    c.isCreated id = true ∧ (c.discardNode id).2 = d := by
  refine ⟨?_, by rw [h]⟩
  rw [ChangeSet.discardNode] at h
  split at h
  · assumption
  · cases h

/-- A forgotten node has nothing that is found. -/
theorem entryOf?_discardNode (c : ChangeSet) {id : NodeId} (hc : c.isCreated id = true)
    (k : String) : (c.discardNode id).2.entryOf? id k = none := by
  have hlookup : (c.discardNode id).2.latest.lookup (id, k) = none := by
    rw [ChangeSet.discardNode, if_pos hc]
    refine List.lookup_eq_none_iff.2 fun row hrow => ?_
    have hne : row.1.1 ≠ id := of_decide_eq_true (List.mem_filter.1 hrow).2
    have hpair : (id, k) ≠ row.1 := fun hp => hne (hp ▸ rfl)
    simpa using hpair
  rw [entryOf?, hlookup]
  rfl

theorem log_discardNode (h : c.Indexed) {id : NodeId} (hc : c.isCreated id = true) :
    (c.discardNode id).2.log.filter (·.node ≠ id) = c.log.filter (·.node ≠ id) := by
  rw [log, log, (h.drops_discardNode hc).entries, List.filter_map, List.filter_map,
    List.filter_filter]
  congr 1
  refine List.filter_congr fun r _ => ?_
  by_cases hid : r.2.node = id <;> simp [PropertyEntry.pair, hid]

/-- Of its own entries a forgotten node keeps those that were overlaid. -/
theorem countP_discardNode (h : c.Indexed) {id : NodeId} (hc : c.isCreated id = true)
    (k : String) : (c.discardNode id).2.log.countP (·.pair = (id, k)) = c.overlaid id k := by
  obtain ⟨hindexed, hoverlaid⟩ := h.discardNode id
  rw [hindexed.countP_log, hoverlaid, entryOf?_discardNode c hc]
  rfl

theorem remembers (h : c.Indexed) : c.Remembers c.overlaid where
  counted := h.countP_log
  last := fun _ _ _ he => h.getLast?_filter he
  found_iff := by
    intro n k
    have hcount := h.countP_log n k
    have hany : (∃ e ∈ c.log, e.pair = (n, k)) ↔ 0 < c.log.countP (·.pair = (n, k)) := by
      simp [List.countP_pos_iff]
    rw [hany, hcount]
    cases c.entryOf? n k <;> simp
  others := by
    intro id d hd
    obtain ⟨hc, rfl⟩ := of_discardNode hd
    exact h.log_discardNode hc
  own := by
    intro id d hd k
    obtain ⟨hc, rfl⟩ := of_discardNode hd
    exact ⟨entryOf?_discardNode c hc k, h.countP_discardNode hc k⟩
  forgotten_iff := by
    intro id d hd
    obtain ⟨hc, rfl⟩ := of_discardNode hd
    simp only [← h.countP_discardNode hc, List.countP_eq_zero, decide_eq_true_eq]
    refine ⟨fun hall k e he hp => hall e he (congrArg (·.1) hp), fun hall e he hid => ?_⟩
    exact hall e.key.name e he (hid ▸ rfl)

end Indexed

/-- Whatever is recorded: the entries of a property are the one that is found and those that were
overlaid, and forgetting a node takes out the former only. -/
theorem nothing_lost_unless_overlaid (rs : List Recording) :
    (ofRecordings rs).Remembers (overlays {} rs) := by
  obtain ⟨hindexed, hoverlaid⟩ := indexed_empty.foldl rs
  have hcount : (ofRecordings rs).overlaid = overlays {} rs := by
    funext n k
    exact (hoverlaid n k).trans (Nat.zero_add _)
  exact hcount ▸ hindexed.remembers

/-! ### An entry that is left behind -/

/-- A node is created and named, twice by an entry of its own. -/
def namedTwice : List Recording :=
  [.createNode ⟨7⟩, .assign ⟨7⟩ (.named "name") none (.string "a"),
    .assign ⟨7⟩ (.named "name") none (.string "b")]

/-- When the node is forgotten, the first entry stays, and it is not found. -/
theorem entry_left_behind :
    ((ofRecordings namedTwice).discardNode ⟨7⟩).1 = true ∧
      ((ofRecordings namedTwice).discardNode ⟨7⟩).2.log =
        [⟨⟨7⟩, .named "name", none, some (.string "a")⟩] ∧
      ((ofRecordings namedTwice).discardNode ⟨7⟩).2.entryOf? ⟨7⟩ "name" = none :=
  ⟨rfl, rfl, rfl⟩

/-- A node is created and named, twice by a write; another one is named by an entry of its own. -/
def namedOnce : List Recording :=
  [.createNode ⟨7⟩, .write ⟨7⟩ (.named "name") none (some (.string "a")),
    .write ⟨7⟩ (.named "name") (some (.string "a")) (some (.string "b")),
    .assign ⟨8⟩ (.named "name") none (.string "kept")]

/-- When the first node is forgotten, none of its entries stays. -/
theorem nothing_lost_unless_overlaid_named :
    ((ofRecordings namedOnce).discardNode ⟨7⟩).1 = true ∧
      ∀ e ∈ ((ofRecordings namedOnce).discardNode ⟨7⟩).2.log, e.node ≠ ⟨7⟩ := by
  have hnone : ∀ k, overlays {} namedOnce ⟨7⟩ k = 0 := fun k => by
    simp [overlays, namedOnce, Recording.overlays]
  exact ⟨rfl, ((nothing_lost_unless_overlaid namedOnce).forgotten_iff ⟨7⟩ _ rfl).2 hnone⟩

end ChangeSet
end EntityGraph
