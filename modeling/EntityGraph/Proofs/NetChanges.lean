import EntityGraph.ChangeSet
import EntityGraph.Proofs.Tables
import Mathlib.Data.List.Nodup

/-!
What a change set says about each property. Entries and index are kept in step, so that a property
has at most one entry, which holds its value before the first write and its value after the last.

Main statements: `Filed.write` — recording a write keeps entries and index in step;
`change?_write` — the entry of the written property is folded, those of all others stay.
-/

namespace EntityGraph

/-- The property that an entry is about. -/
def PropertyEntry.pair (e : PropertyEntry) : NodeId × String := (e.node, e.key.name)

theorem mem_inOrder {κ : Type} [DecidableEq κ] [LT κ] [DecidableLT κ] (l : List κ) (k : κ) :
    k ∈ inOrder l ↔ k ∈ l := by
  suffices h : ∀ (l acc : List κ), k ∈ l.foldl addOrdered acc ↔ k ∈ acc ∨ k ∈ l by
    simpa [inOrder] using h l []
  intro l
  induction l with
  | nil => simp
  | cons j l ih => intro acc; rw [List.foldl_cons, ih, mem_addOrdered, List.mem_cons]; tauto

namespace ChangeSet

/-- Entries and index are in step: the index numbers every entry, no property has two, and no entry
goes from nothing to nothing. -/
structure Filed (c : ChangeSet) : Prop where
  latest_eq : c.latest = c.entries.map fun r => (r.2.pair, r.1)
  pairs : (c.log.map (·.pair)).Nodup
  numbers : (c.entries.map (·.1)).Nodup
  below : ∀ r ∈ c.entries, r.1 < c.nextNumber
  net : ∀ e ∈ c.log, e.value = none → e.previous ≠ none

/-- The value of a property before the transaction and its value now, if it has an entry. -/
def change? (c : ChangeSet) (node : NodeId) (key : String) :
    Option (Option Value × Option Value) :=
  (c.entryOf? node key).map fun e => (e.previous, e.value)

/-- The entries of a net change: none if there is no value before and none after. -/
def netEntries (node : NodeId) (key : PropertyKey) : Option Value → Option Value →
    List PropertyEntry
  | none, none => []
  | previous, value => [⟨node, key, previous, value⟩]

/-! ### The index -/

theorem filed_empty : Filed {} :=
  ⟨rfl, List.nodup_nil, List.nodup_nil, by simp, by simp [log]⟩

theorem lookup_map_eq_find? (l : List (Nat × PropertyEntry)) (p : NodeId × String) :
    (l.map fun r => (r.2.pair, r.1)).lookup p = (l.find? (·.2.pair = p)).map (·.1) := by
  induction l with
  | nil => rfl
  | cons r l ih =>
    rw [List.map_cons, List.lookup_cons, List.find?_cons]
    by_cases h : r.2.pair = p
    · simp [h]
    · have h' : (p == r.2.pair) = false := by simpa using Ne.symm h
      simp [h, h', ih]

theorem lookup_of_mem {κ α : Type} [BEq κ] [LawfulBEq κ] {l : List (κ × α)}
    (h : (l.map (·.1)).Nodup) {k : κ} {a : α} (hm : (k, a) ∈ l) : l.lookup k = some a := by
  induction l with
  | nil => simp at hm
  | cons r l ih =>
    obtain ⟨hr, hl⟩ := List.nodup_cons.1 (List.map_cons ▸ h)
    rw [List.lookup_cons]
    rcases List.mem_cons.1 hm with e | hm
    · simp [← e]
    · have hne : (k == r.1) = false := by
        simp only [beq_eq_false_iff_ne]
        rintro rfl
        exact hr (List.mem_map.2 ⟨_, hm, rfl⟩)
      rw [hne]
      exact ih hl hm

variable {c : ChangeSet}

theorem mem_log_iff {e : PropertyEntry} : e ∈ c.log ↔ ∃ number, (number, e) ∈ c.entries := by
  simp [log]

theorem Filed.entryAt?_of_mem (h : c.Filed) {number : Nat} {e : PropertyEntry}
    (hm : (number, e) ∈ c.entries) : c.entryAt? number = some e := lookup_of_mem h.numbers hm

theorem Filed.pair_inj (h : c.Filed) {a b : Nat × PropertyEntry} (ha : a ∈ c.entries)
    (hb : b ∈ c.entries) (hp : a.2.pair = b.2.pair) : a = b := by
  have hn : (c.entries.map fun r => r.2.pair).Nodup := by
    simpa [log, Function.comp_def] using h.pairs
  exact List.inj_on_of_nodup_map hn ha hb hp

theorem Filed.number_inj (h : c.Filed) {a b : Nat × PropertyEntry} (ha : a ∈ c.entries)
    (hb : b ∈ c.entries) (hp : a.1 = b.1) : a = b := List.inj_on_of_nodup_map h.numbers ha hb hp

theorem Filed.lookup_latest (h : c.Filed) (node : NodeId) (key : String) :
    c.latest.lookup (node, key) = (c.entries.find? (·.2.pair = (node, key))).map (·.1) := by
  rw [h.latest_eq, lookup_map_eq_find?]

theorem Filed.entryOf?_eq_find? (h : c.Filed) (node : NodeId) (key : String) :
    c.entryOf? node key = c.log.find? (·.pair = (node, key)) := by
  have hfind : c.log.find? (·.pair = (node, key)) =
    (c.entries.find? (·.2.pair = (node, key))).map (·.2) := List.find?_map
  rw [entryOf?, h.lookup_latest, hfind]
  cases hf : c.entries.find? (·.2.pair = (node, key)) with
  | none => rfl
  | some r => exact h.entryAt?_of_mem (List.mem_of_find?_eq_some hf)

theorem Filed.entryOf?_eq_some_iff (h : c.Filed) {node : NodeId} {key : String}
    {e : PropertyEntry} :
    c.entryOf? node key = some e ↔ e ∈ c.log ∧ e.node = node ∧ e.key.name = key := by
  rw [h.entryOf?_eq_find?]
  constructor
  · intro hf
    have hp := List.find?_some hf
    exact ⟨List.mem_of_find?_eq_some hf, by simpa [PropertyEntry.pair] using hp⟩
  · rintro ⟨hm, rfl, rfl⟩
    cases hf : c.log.find? (·.pair = (e.node, e.key.name)) with
    | none =>
      have hne := List.find?_eq_none.1 hf e hm
      simp [PropertyEntry.pair] at hne
    | some e' =>
      have hp : e'.pair = e.pair := by simpa [PropertyEntry.pair] using List.find?_some hf
      rw [List.inj_on_of_nodup_map h.pairs (List.mem_of_find?_eq_some hf) hm hp]

theorem Filed.change?_eq_find? (h : c.Filed) (node : NodeId) (key : String) :
    c.change? node key =
      (c.log.find? (·.pair = (node, key))).map fun e => (e.previous, e.value) := by
  rw [change?, h.entryOf?_eq_find?]

theorem Filed.change?_of_mem (h : c.Filed) {e : PropertyEntry} (hm : e ∈ c.log) :
    c.change? e.node e.key.name = some (e.previous, e.value) := by
  rw [change?, h.entryOf?_eq_some_iff.2 ⟨hm, rfl, rfl⟩]; rfl

theorem Filed.change?_eq_some (h : c.Filed) {node : NodeId} {key : String}
    {previous value : Option Value} (hc : c.change? node key = some (previous, value)) :
    ∃ e ∈ c.log, e.node = node ∧ e.key.name = key ∧ e.previous = previous ∧ e.value = value := by
  obtain ⟨e, he, heq⟩ := Option.map_eq_some_iff.1 hc
  obtain ⟨hm, hn, hk⟩ := h.entryOf?_eq_some_iff.1 he
  simp only [Prod.mk.injEq] at heq
  exact ⟨e, hm, hn, hk, heq.1, heq.2⟩

theorem filter_pair_eq {l : List PropertyEntry} (h : (l.map (·.pair)).Nodup) (p : NodeId × String) :
    l.filter (·.pair = p) = (l.find? (·.pair = p)).toList := by
  induction l with
  | nil => rfl
  | cons e l ih =>
    obtain ⟨hnew, hl⟩ := List.nodup_cons.1 (List.map_cons ▸ h)
    rw [List.filter_cons, List.find?_cons]
    by_cases hp : e.pair = p
    · have hrest : l.filter (·.pair = p) = [] := by
        refine List.filter_eq_nil_iff.2 fun d hd hdp => hnew (List.mem_map.2 ⟨d, hd, ?_⟩)
        rw [hp]
        simpa using hdp
      simp [hp, hrest]
    · simp [hp, ih hl]

/-- The entries of a property are its change, if it has one. -/
theorem Filed.filter_log (h : c.Filed) (n : NodeId) (k : String) :
    (c.log.filter (·.pair = (n, k))).map (fun e => (e.previous, e.value)) =
      (c.change? n k).toList := by
  rw [filter_pair_eq h.pairs, h.change?_eq_find?]
  cases c.log.find? (·.pair = (n, k)) <;> rfl

/-! ### The log after each change -/

theorem log_push (e : PropertyEntry) : (c.push e).log = c.log ++ [e] := by simp [push, log]

theorem log_net (node : NodeId) (key : PropertyKey) (previous value : Option Value) :
    (c.net node key previous value).log = c.log ++ netEntries node key previous value := by
  cases value <;> cases previous <;> simp [net, assign, remove, log_push, netEntries]

theorem Filed.push (h : c.Filed) (e : PropertyEntry) (hp : ∀ d ∈ c.log, d.pair ≠ e.pair)
    (he : e.value = none → e.previous ≠ none) : (c.push e).Filed where
  latest_eq := by
    have hl : c.latest.filter (·.1 ≠ (e.node, e.key.name)) = c.latest := by
      rw [List.filter_eq_self, h.latest_eq]
      intro r hr
      obtain ⟨s, hs, rfl⟩ := List.mem_map.1 hr
      exact decide_eq_true (hp s.2 (mem_log_iff.2 ⟨s.1, hs⟩))
    simp only [ChangeSet.push]
    rw [hl, h.latest_eq, List.map_append]
    rfl
  pairs := by
    rw [log_push, List.map_append, List.nodup_append]
    refine ⟨h.pairs, by simp, ?_⟩
    intro a ha b hb
    obtain ⟨d, hd, rfl⟩ := List.mem_map.1 ha
    obtain rfl := List.mem_singleton.1 (by simpa using hb)
    exact hp d hd
  numbers := by
    simp only [ChangeSet.push]
    rw [List.map_append, List.nodup_append]
    refine ⟨h.numbers, by simp, ?_⟩
    intro a ha b hb
    obtain ⟨r, hr, rfl⟩ := List.mem_map.1 ha
    obtain rfl := List.mem_singleton.1 (by simpa using hb)
    exact Nat.ne_of_lt (h.below r hr)
  below := by
    intro r hr
    simp only [ChangeSet.push] at hr ⊢
    rcases List.mem_append.1 hr with hr | hr
    · exact Nat.lt_succ_of_lt (h.below r hr)
    · obtain rfl := List.mem_singleton.1 hr
      exact Nat.lt_succ_self _
  net := by
    intro d hd
    rw [log_push] at hd
    rcases List.mem_append.1 hd with hd | hd
    · exact h.net d hd
    · obtain rfl := List.mem_singleton.1 hd
      exact he

theorem Filed.add (h : c.Filed) {node : NodeId} {key : PropertyKey}
    (hp : ∀ d ∈ c.log, d.pair ≠ (node, key.name)) (previous value : Option Value) :
    (c.net node key previous value).Filed := by
  cases value with
  | some v => exact h.push ⟨node, key, previous, some v⟩ hp (by simp)
  | none =>
    cases previous with
    | some old => exact h.push ⟨node, key, some old, none⟩ hp (by simp)
    | none => exact h

/-- Entries and index lose the same properties. -/
theorem Filed.restrict (h : c.Filed) (keep : NodeId × String → Bool) {d : ChangeSet}
    (he : d.entries = c.entries.filter (keep ·.2.pair))
    (hl : d.latest = c.latest.filter (keep ·.1)) (hn : d.nextNumber = c.nextNumber) :
    d.Filed ∧ d.log = c.log.filter (keep ·.pair) := by
  have hlog : d.log = c.log.filter (keep ·.pair) := by
    simp [log, he, List.filter_map, Function.comp_def]
  refine ⟨⟨?_, ?_, ?_, ?_, ?_⟩, hlog⟩
  · rw [hl, h.latest_eq, he, List.filter_map]; rfl
  · rw [hlog]; exact (h.pairs.sublist (List.filter_sublist.map _))
  · rw [he]; exact (h.numbers.sublist (List.filter_sublist.map _))
  · intro r hr
    rw [he] at hr
    rw [hn]
    exact h.below r (List.mem_of_mem_filter hr)
  · intro e hm
    rw [hlog] at hm
    exact h.net e (List.mem_of_mem_filter hm)

theorem Filed.change?_restrict (h : c.Filed) (keep : NodeId × String → Bool) {d : ChangeSet}
    (hd : d.Filed ∧ d.log = c.log.filter (keep ·.pair)) (n : NodeId) (k : String) :
    d.change? n k = if keep (n, k) then c.change? n k else none := by
  rw [hd.1.change?_eq_find?, h.change?_eq_find?, hd.2, List.find?_filter]
  by_cases hk : keep (n, k) = true
  · have hp : (fun e : PropertyEntry => keep e.pair && decide (e.pair = (n, k))) =
        fun e => decide (e.pair = (n, k)) := by
      funext e
      by_cases hp : e.pair = (n, k) <;> simp [hp, hk]
    simp [hk, hp]
  · rw [if_neg hk, Option.map_eq_none_iff, List.find?_eq_none]
    intro e _
    by_cases hp : e.pair = (n, k) <;> simp [hp, hk]

theorem Filed.take (h : c.Filed) {r : Nat × PropertyEntry} (hr : r ∈ c.entries) :
    (c.take r.2.node r.2.key.name r.1).Filed ∧
      (c.take r.2.node r.2.key.name r.1).log = c.log.filter (·.pair ≠ r.2.pair) := by
  refine h.restrict (· ≠ r.2.pair) (List.filter_congr fun s hs => ?_) rfl rfl
  have hiff : s.1 = r.1 ↔ s.2.pair = r.2.pair :=
    ⟨fun e => by rw [h.number_inj hs hr e], fun e => by rw [h.pair_inj hs hr e]⟩
  simp [hiff]

theorem Filed.setValue (h : c.Filed) {r : Nat × PropertyEntry} (hr : r ∈ c.entries)
    (value : Value) :
    (c.setValue r.1 value).Filed ∧ (c.setValue r.1 value).log =
      c.log.map fun e => if e.pair = r.2.pair then { e with value := some value } else e := by
  have hent : (c.setValue r.1 value).entries = c.entries.map fun s =>
      (s.1, if s.2.pair = r.2.pair then { s.2 with value := some value } else s.2) := by
    refine List.map_congr_left fun s hs => ?_
    have hiff : s.1 = r.1 ↔ s.2.pair = r.2.pair :=
      ⟨fun e => by rw [h.number_inj hs hr e], fun e => by rw [h.pair_inj hs hr e]⟩
    by_cases hp : s.2.pair = r.2.pair <;> simp [hp, hiff]
  have hpair : ∀ e : PropertyEntry,
      (if e.pair = r.2.pair then { e with value := some value } else e).pair = e.pair := by
    intro e; split <;> rfl
  have hlog : (c.setValue r.1 value).log =
      c.log.map fun e => if e.pair = r.2.pair then { e with value := some value } else e := by
    rw [log, hent]; simp [log]
  refine ⟨⟨?_, ?_, ?_, ?_, ?_⟩, hlog⟩
  · rw [hent]
    simp only [ChangeSet.setValue, h.latest_eq, List.map_map, Function.comp_def, hpair]
  · rw [hlog]; simpa [Function.comp_def, hpair] using h.pairs
  · rw [hent]; simpa [Function.comp_def] using h.numbers
  · rw [hent]
    intro s hs
    obtain ⟨s', hs', rfl⟩ := List.mem_map.1 hs
    exact h.below s' hs'
  · rw [hlog]
    intro e he
    obtain ⟨e', he', rfl⟩ := List.mem_map.1 he
    split
    · simp
    · exact h.net e' he'

/-! ### Writes -/

/-- What is before the first write of a property: the base of its entry, else its current value. -/
def baseOf (c : ChangeSet) (node : NodeId) (key : String) (current : Option Value) : Option Value :=
  match c.change? node key with
  | some (previous, _) => previous
  | none => current

/-- The net change from one value to another: none if there is no value before and none after. -/
def netChange : Option Value → Option Value → Option (Option Value × Option Value)
  | none, none => none
  | previous, value => some (previous, value)

/-- An entry goes from the value before to the value after. -/
theorem netChange_eq {a b previous value : Option Value} :
    netChange a b = some (previous, value) → previous = a ∧ value = b := by
  cases a <;> cases b <;> simp [netChange, eq_comm]

theorem netChange_eq_none {a b : Option Value} : netChange a b = none ↔ a = none ∧ b = none := by
  cases a <;> cases b <;> simp [netChange]

theorem find?_netEntries (node : NodeId) (key : PropertyKey) (previous value : Option Value)
    (p : NodeId × String) :
    ((netEntries node key previous value).find? (·.pair = p)).map (fun e => (e.previous, e.value)) =
      if p = (node, key.name) then netChange previous value else none := by
  by_cases hp : p = (node, key.name)
  · subst hp
    cases previous <;> cases value <;> simp [netEntries, netChange, PropertyEntry.pair]
  · have hp' : ¬ (node, key.name) = p := Ne.symm hp
    cases previous <;> cases value <;> simp [netEntries, PropertyEntry.pair, hp, hp']

/-- Appending a net change to a change set without an entry for the property. -/
theorem Filed.change?_add (h : c.Filed) {node : NodeId} {key : PropertyKey}
    (hp : ∀ d ∈ c.log, d.pair ≠ (node, key.name)) (previous value : Option Value) (n : NodeId)
    (k : String) :
    (c.net node key previous value).change? n k =
      if (n, k) = (node, key.name) then netChange previous value else c.change? n k := by
  rw [(h.add hp previous value).change?_eq_find?, h.change?_eq_find?, log_net, List.find?_append]
  by_cases hnk : (n, k) = (node, key.name)
  · have hnone : c.log.find? (·.pair = (n, k)) = none := by
      rw [hnk, List.find?_eq_none]
      intro d hd
      simpa using hp d hd
    rw [hnone, Option.none_or, find?_netEntries, if_pos hnk, if_pos hnk]
  · have hnone : (netEntries node key previous value).find? (·.pair = (n, k)) = none := by
      have hfind := find?_netEntries node key previous value (n, k)
      rw [if_neg hnk] at hfind
      exact Option.map_eq_none_iff.1 hfind
    rw [hnone, Option.or_none, if_neg hnk]

theorem Filed.change?_setValue (h : c.Filed) {r : Nat × PropertyEntry} (hr : r ∈ c.entries)
    (value : Value) (n : NodeId) (k : String) :
    (c.setValue r.1 value).change? n k =
      if (n, k) = r.2.pair then some (r.2.previous, some value) else c.change? n k := by
  have hpair : ∀ e : PropertyEntry,
      (if e.pair = r.2.pair then { e with value := some value } else e).pair = e.pair := by
    intro e; split <;> rfl
  obtain ⟨hset, hlog⟩ := h.setValue hr value
  rw [hset.change?_eq_find?, h.change?_eq_find?, hlog, List.find?_map]
  simp only [Function.comp_def, hpair]
  cases hf : c.log.find? (·.pair = (n, k)) with
  | none =>
    have hne : (n, k) ≠ r.2.pair := by
      rintro e
      simpa [e] using List.find?_eq_none.1 hf r.2 (mem_log_iff.2 ⟨r.1, hr⟩)
    simp [hne]
  | some e =>
    have hp : e.pair = (n, k) := by simpa using List.find?_some hf
    obtain ⟨number, hm⟩ := mem_log_iff.1 (List.mem_of_find?_eq_some hf)
    by_cases hnk : (n, k) = r.2.pair
    · obtain rfl := h.pair_inj hm hr (hp.trans hnk)
      simp [hnk]
    · simp [hp, hnk]

theorem Filed.write (h : c.Filed) (node : NodeId) (key : PropertyKey)
    (current value : Option Value) :
    (c.write node key current value).Filed ∧ ∀ n k,
      (c.write node key current value).change? n k =
        if (n, k) = (node, key.name) then netChange (c.baseOf node key.name current) value
        else c.change? n k := by
  rw [ChangeSet.write, h.lookup_latest]
  cases hf : c.entries.find? (·.2.pair = (node, key.name)) with
  | none =>
    have hp : ∀ d ∈ c.log, d.pair ≠ (node, key.name) := by
      intro d hd
      obtain ⟨number, hm⟩ := mem_log_iff.1 hd
      simpa using List.find?_eq_none.1 hf _ hm
    have hbase : c.baseOf node key.name current = current := by
      rw [baseOf, h.change?_eq_find?, List.find?_eq_none.2 fun d hd => by simpa using hp d hd]
      rfl
    simp only [Option.map_none, hbase]
    exact ⟨h.add hp current value, h.change?_add hp current value⟩
  | some r =>
    have hr : r ∈ c.entries := List.mem_of_find?_eq_some hf
    have hpair : r.2.pair = (node, key.name) := by simpa using List.find?_some hf
    obtain ⟨rfl, hkey⟩ : r.2.node = node ∧ r.2.key.name = key.name := by
      simpa [PropertyEntry.pair] using hpair
    have hchange := h.change?_of_mem (mem_log_iff.2 ⟨r.1, hr⟩)
    rw [hkey] at hchange
    have hbase : c.baseOf r.2.node key.name current = r.2.previous := by rw [baseOf, hchange]
    have htake := h.take hr
    rw [hkey] at htake
    have hgone : ∀ d ∈ (c.take r.2.node key.name r.1).log, d.pair ≠ (r.2.node, key.name) := by
      rw [htake.2, ← hpair]
      intro d hd
      simpa using (List.mem_filter.1 hd).2
    have hrest : ∀ n k, (n, k) ≠ (r.2.node, key.name) →
        (c.take r.2.node key.name r.1).change? n k = c.change? n k := by
      intro n k hne
      rw [h.change?_restrict (· ≠ r.2.pair) htake, if_pos (decide_eq_true (hpair ▸ hne))]
    -- a value that overwrites a value keeps its entry, any other write makes a new one
    have hfold : ∀ v, ((c.take r.2.node key.name r.1).net r.2.node key r.2.previous v).Filed ∧
        ∀ n k, ((c.take r.2.node key.name r.1).net r.2.node key r.2.previous v).change? n k =
          if (n, k) = (r.2.node, key.name) then netChange r.2.previous v else c.change? n k := by
      refine fun v => ⟨htake.1.add hgone _ _, fun n k => ?_⟩
      rw [htake.1.change?_add hgone]
      split
      · rfl
      · next hne => exact hrest n k hne
    simp only [Option.map_some, h.entryAt?_of_mem hr, hbase]
    obtain ⟨number, entryNode, entryKey, previous, old⟩ := r
    cases old with
    | none => simpa using hfold value
    | some w =>
      cases value with
      | none => simpa using hfold none
      | some new =>
        have hset := h.setValue hr new
        refine ⟨hset.1, fun n k => ?_⟩
        rw [h.change?_setValue hr, hpair]
        cases previous <;> rfl

/-! ### Changes that are not writes -/

/-- What is recorded of nodes and relationships does not matter to the entries. -/
theorem Filed.congr (h : c.Filed) {d : ChangeSet} (he : d.entries = c.entries)
    (hl : d.latest = c.latest) (hn : d.nextNumber = c.nextNumber) :
    d.Filed ∧ ∀ n k, d.change? n k = c.change? n k := by
  have hd := h.restrict (fun _ => true) (by simpa using he) (by simpa using hl) hn
  exact ⟨hd.1, fun n k => by simpa using h.change?_restrict (fun _ => true) hd n k⟩

theorem Filed.createNode (h : c.Filed) (id : NodeId) :
    (c.createNode id).Filed ∧ ∀ n k, (c.createNode id).change? n k = c.change? n k := by
  rw [ChangeSet.createNode]
  split
  · exact ⟨h, fun _ _ => rfl⟩
  · exact h.congr rfl rfl rfl

theorem Filed.deleteNode (h : c.Filed) (id : NodeId) :
    (c.deleteNode id).Filed ∧ ∀ n k, (c.deleteNode id).change? n k = c.change? n k := by
  rw [ChangeSet.deleteNode]
  split
  · exact ⟨h, fun _ _ => rfl⟩
  · exact h.congr rfl rfl rfl

theorem Filed.discardNode (h : c.Filed) {id : NodeId} (hc : c.isCreated id = true) :
    (c.discardNode id).2.Filed ∧ ∀ n k,
      (c.discardNode id).2.change? n k = if n = id then none else c.change? n k := by
  have hnum : ∀ r ∈ c.entries, r.1 ∈ (c.latest.filter (·.1.1 = id)).map (·.2) ↔ r.2.node = id := by
    intro r hr
    simp only [h.latest_eq, List.mem_map, List.mem_filter, decide_eq_true_eq]
    constructor
    · rintro ⟨_, ⟨⟨s, hs, rfl⟩, hid⟩, hsr⟩
      obtain rfl := h.number_inj hs hr hsr
      exact hid
    · exact fun hid => ⟨_, ⟨⟨r, hr, rfl⟩, hid⟩, rfl⟩
  have hd : (c.discardNode id).2.Filed ∧
      (c.discardNode id).2.log = c.log.filter (·.pair.1 ≠ id) := by
    rw [ChangeSet.discardNode, if_pos hc]
    refine h.restrict (·.1 ≠ id) (List.filter_congr fun r hr => ?_) rfl rfl
    simp only [ne_eq, decide_eq_decide, not_iff_not]
    exact hnum r hr
  refine ⟨hd.1, fun n k => ?_⟩
  rw [h.change?_restrict (·.1 ≠ id) hd]
  by_cases hn : n = id <;> simp [hn]

/-- Recording that each of some properties of a node is gone. -/
theorem Filed.removals (h : c.Filed) (id : NodeId) {rows : Properties} (hr : rows.keys.Nodup) :
    (rows.foldl (fun c (name, v) => c.write id (.named name) (some v) none) c).Filed ∧ ∀ n k,
      (rows.foldl (fun c (name, v) => c.write id (.named name) (some v) none) c).change? n k =
        if n = id ∧ rows.has k = true then netChange (c.baseOf id k (rows.get? k)) none
        else c.change? n k := by
  induction rows generalizing c with
  | nil => exact ⟨h, fun n k => by simp [Assoc.has]⟩
  | cons r rows ih =>
    obtain ⟨name, v⟩ := r
    obtain ⟨hnew, hrows⟩ := List.nodup_cons.1 (show (name :: Assoc.keys rows).Nodup from hr)
    obtain ⟨hw, hchange⟩ := h.write id (.named name) (some v) none
    obtain ⟨hfiled, hrest⟩ := ih hw hrows
    refine ⟨hfiled, fun n k => ?_⟩
    rw [List.foldl_cons, hrest, hchange]
    have hkey : Assoc.has rows name = false := by
      rw [← Bool.not_eq_true, ← Assoc.mem_keys_iff]
      exact hnew
    have hhas : Assoc.has ((name, v) :: rows) k = (decide (name = k) || Assoc.has rows k) := by
      by_cases hk : name = k <;> simp [Assoc.has, Assoc.get?_cons, hk]
    by_cases hn : n = id
    · subst hn
      by_cases hk : name = k
      · subst hk
        simp [hkey, hhas, Assoc.get?_cons]
      · have hbase : (c.write n (.named name) (some v) none).baseOf n k (Assoc.get? rows k) =
            c.baseOf n k (Assoc.get? rows k) := by
          rw [baseOf, hchange, if_neg (by simpa using Ne.symm hk)]
          rfl
        rw [hbase]
        simp [hhas, hk, Ne.symm hk, Assoc.get?_cons]
    · simp [hn]

/-! ### Reading the log -/

theorem mem_propertyChanges {e : PropertyEntry} : e ∈ c.propertyChanges ↔ e ∈ c.log := by
  simp only [propertyChanges, assigned, removed, List.mem_append, List.mem_filter]
  cases e.isRemoval <;> simp

theorem mem_touched {id : NodeId} : id ∈ c.touched ↔
    id ∈ c.createdNodes ∨ id ∈ c.deletedNodes ∨ ∃ e ∈ c.log, e.node = id := by
  simp [touched, mem_inOrder]

theorem Filed.touched_of_change? (h : c.Filed) {id : NodeId} {key : String}
    {x : Option Value × Option Value} (hc : c.change? id key = some x) : id ∈ c.touched := by
  obtain ⟨e, he, hid, -⟩ := h.change?_eq_some hc
  exact mem_touched.2 (Or.inr (Or.inr ⟨e, he, hid⟩))

theorem Filed.pairs_propertyChanges (h : c.Filed) : (c.propertyChanges.map (·.pair)).Nodup := by
  have hperm : (c.assigned ++ c.removed).Perm c.log := by
    have hp := List.filter_append_perm (fun e : PropertyEntry => !e.isRemoval) c.log
    simpa [assigned, removed] using hp
  exact (hperm.map _).nodup_iff.2 h.pairs

/-- Going through entries with different keys, each of which settles the value under its key. -/
theorem get?_foldl_entries (act : Properties → PropertyEntry → Properties)
    (result : PropertyEntry → Option Value) (es : List PropertyEntry)
    (hact : ∀ e ∈ es, ∀ p k, (act p e).get? k = if k = e.key.name then result e else p.get? k)
    (hn : (es.map (·.key.name)).Nodup) (p : Properties) (k : String) :
    (es.foldl act p).get? k =
      match es.find? (·.key.name = k) with
      | some e => result e
      | none => p.get? k := by
  induction es generalizing p with
  | nil => rfl
  | cons e es ih =>
    obtain ⟨hnew, hes⟩ := List.nodup_cons.1 (List.map_cons ▸ hn)
    rw [List.foldl_cons, ih (fun d hd => hact d (List.mem_cons_of_mem _ hd)) hes, List.find?_cons]
    by_cases hk : e.key.name = k
    · have hnone : es.find? (·.key.name = k) = none := by
        rw [List.find?_eq_none]
        intro d hd hdk
        exact hnew (List.mem_map.2 ⟨d, hd, by simpa [hk] using hdk⟩)
      simp [hnone, hk, hact e (List.mem_cons_self ..)]
    · simp [hk, hact e (List.mem_cons_self ..), Ne.symm hk]

/-- The entries of one node, of some entries with different properties. -/
theorem keys_nodup_of_pairs {es : List PropertyEntry} (h : (es.map (·.pair)).Nodup) (id : NodeId) :
    ((es.filter (·.node = id)).map (·.key.name)).Nodup := by
  refine List.Nodup.map_on ?_ ((h.of_map _).filter _)
  intro a ha b hb hab
  obtain ⟨ha, hai⟩ := List.mem_filter.1 ha
  obtain ⟨hb, hbi⟩ := List.mem_filter.1 hb
  refine List.inj_on_of_nodup_map h ha hb ?_
  simp only [decide_eq_true_eq] at hai hbi
  rw [PropertyEntry.pair, PropertyEntry.pair, hai, hbi, hab]

/-! ### Nodes and relationships -/

section Objects
variable (c)

/-- The same nodes and relationships are recorded. -/
structure SameObjects (c d : ChangeSet) : Prop where
  createdNodes : d.createdNodes = c.createdNodes
  deletedNodes : d.deletedNodes = c.deletedNodes
  createdRelationships : d.createdRelationships = c.createdRelationships
  deletedRelationships : d.deletedRelationships = c.deletedRelationships

theorem sameObjects_net (node : NodeId) (key : PropertyKey) (previous value : Option Value) :
    SameObjects c (c.net node key previous value) := by
  cases value <;> cases previous <;> exact ⟨rfl, rfl, rfl, rfl⟩

/-- A write changes nothing but the entries and their index. -/
theorem sameObjects_write (node : NodeId) (key : PropertyKey) (current value : Option Value) :
    SameObjects c (c.write node key current value) := by
  rw [write]
  split
  · exact c.sameObjects_net node key current value
  · next number _ =>
    split
    · exact ⟨rfl, rfl, rfl, rfl⟩
    · have h := (c.take node key.name number).sameObjects_net node key
      exact ⟨(h _ _).1, (h _ _).2, (h _ _).3, (h _ _).4⟩

theorem sameObjects_removals (id : NodeId) (rows : Properties) :
    SameObjects c (rows.foldl (fun c (name, v) => c.write id (.named name) (some v) none) c) := by
  induction rows generalizing c with
  | nil => exact ⟨rfl, rfl, rfl, rfl⟩
  | cons r rows ih =>
    have h := c.sameObjects_write id (.named r.1) (some r.2) none
    have hrows := ih (c.write id (.named r.1) (some r.2) none)
    exact ⟨hrows.1.trans h.1, hrows.2.trans h.2, hrows.3.trans h.3, hrows.4.trans h.4⟩

theorem mem_createNode (id i : NodeId) :
    i ∈ (c.createNode id).createdNodes ↔ i = id ∨ i ∈ c.createdNodes := by
  rw [createNode]
  split
  · next h => exact ⟨Or.inr, fun h' => h'.elim (fun e => e ▸ h) fun h => h⟩
  · simp [or_comm]

theorem mem_deleteNode (id i : NodeId) :
    i ∈ (c.deleteNode id).deletedNodes ↔ i = id ∨ i ∈ c.deletedNodes := by
  rw [deleteNode]
  split
  · next h => exact ⟨Or.inr, fun h' => h'.elim (fun e => e ▸ h) fun h => h⟩
  · simp [or_comm]

end Objects

end ChangeSet
end EntityGraph
