import EntityGraph.Proofs.Recordings

/-!
Writes that are folded. Properties of any nodes are written in any order, while nodes and
relationships are created, deleted and forgotten in between. What is kept of all this is the net
change of each property: from its value before the first write to its value after the last.

Main statements: `Journal.Agrees.record` — one more recording keeps the entries at the net changes;
`Journal.net_changes_kept` — which entries there are after any number of recordings, and what they
lead to.
-/

namespace EntityGraph

/-- The value of each property, none where it is not set. -/
abbrev PropertyValues := NodeId → String → Option Value

/-- The values after the change that an entry describes. -/
def PropertyValues.enact (values : PropertyValues) (e : PropertyEntry) : PropertyValues :=
  fun n k => if e.pair = (n, k) then e.value else values n k

/-- A change set under way, and what each property was last set to. Writes to a node that is
forgotten do not count. -/
structure Journal where
  changes : ChangeSet := {}
  written : NodeId → String → Option (Option Value) := fun _ _ => none

namespace Journal

/-- The values after all writes that count, over those at the base. -/
def values (base : PropertyValues) (j : Journal) : PropertyValues :=
  fun n k => (j.written n k).getD (base n k)

/-- What each property was last set to, after one more recording. -/
def writtenAfter (j : Journal) : Recording → NodeId → String → Option (Option Value)
  | .write node key _ value => fun n k => if (n, k) = (node, key.name) then some value
    else j.written n k
  | .discardNode id => fun n k => if n = id ∧ j.changes.isCreated id = true then none
    else j.written n k
  | _ => j.written

/-- Records a change. -/
def record (j : Journal) (r : Recording) : Journal := ⟨j.changes.record r, j.writtenAfter r⟩

/-- Properties change by writes alone, and each starts from the value that its property has. -/
def Takes (base : PropertyValues) (j : Journal) : Recording → Prop
  | .write node key current _ => current = j.values base node key.name
  | .assign .. | .remove .. => False
  | _ => True

/-- Each of some recordings is taken after those before it. -/
def Follows (base : PropertyValues) : Journal → List Recording → Prop
  | _, [] => True
  | j, r :: rs => j.Takes base r ∧ Follows base (j.record r) rs

/-- The entries are kept at the net changes. -/
structure Agrees (base : PropertyValues) (j : Journal) : Prop where
  filed : j.changes.Filed
  change : ∀ n k, j.changes.change? n k = (j.written n k).bind (ChangeSet.netChange (base n k))

variable {base : PropertyValues} {j : Journal}

/-! ### One recording -/

/-- However often a property was written, its entry starts from the base; and where it has none, its
value is the base again. -/
theorem Agrees.baseOf_eq (h : Agrees base j) (node : NodeId) (key : String) :
    j.changes.baseOf node key (j.values base node key) = base node key := by
  rw [ChangeSet.baseOf, h.change, values]
  rcases j.written node key with _ | _ | v
  · rfl
  · cases hb : base node key <;> simp [ChangeSet.netChange]
  · cases hb : base node key <;> simp [ChangeSet.netChange]

theorem agrees_empty : Agrees base {} :=
  ⟨ChangeSet.filed_empty, by simp [ChangeSet.change?, ChangeSet.entryOf?]⟩

theorem Agrees.record {r : Recording} (h : Agrees base j) (hr : j.Takes base r) :
    Agrees base (j.record r) := by
  have hsame : ∀ {c : ChangeSet}, (c.Filed ∧ ∀ n k, c.change? n k = j.changes.change? n k) →
      Agrees base ⟨c, j.written⟩ :=
    fun hc => ⟨hc.1, fun n k => (hc.2 n k).trans (h.change n k)⟩
  cases r with
  | createNode id => exact hsame (h.filed.createNode id)
  | deleteNode id => exact hsame (h.filed.deleteNode id)
  | createRelationship r => exact hsame (h.filed.congr rfl rfl rfl)
  | deleteRelationship r => exact hsame (h.filed.congr rfl rfl rfl)
  | discardRelationship id =>
    refine hsame ?_
    rw [ChangeSet.record, ChangeSet.discardRelationship]
    split <;> exact h.filed.congr rfl rfl rfl
  | discardNode id =>
    by_cases hc : j.changes.isCreated id = true
    · obtain ⟨hfiled, hchange⟩ := h.filed.discardNode hc
      refine ⟨hfiled, fun n k => (hchange n k).trans ?_⟩
      by_cases hn : n = id <;> simp [Journal.record, writtenAfter, hn, hc, h.change]
    · have hunchanged : (j.changes.discardNode id).2 = j.changes := by
        rw [ChangeSet.discardNode, if_neg hc]
      have hwritten : j.writtenAfter (.discardNode id) = j.written := by
        funext n k
        simp [writtenAfter, hc]
      rw [Journal.record, hwritten, ChangeSet.record, hunchanged]
      exact h
  | assign | remove => exact hr.elim
  | write node key current value =>
    obtain rfl : current = j.values base node key.name := hr
    obtain ⟨hfiled, hchange⟩ := h.filed.write node key (j.values base node key.name) value
    refine ⟨hfiled, fun n k => (hchange n k).trans ?_⟩
    rw [h.baseOf_eq]
    by_cases hp : (n, k) = (node, key.name)
    · obtain ⟨rfl, rfl⟩ := Prod.mk.inj hp
      simp [Journal.record, writtenAfter]
    · simp only [Journal.record, writtenAfter, if_neg hp, h.change]

theorem Agrees.foldl {rs : List Recording} (h : Agrees base j) (hrs : Follows base j rs) :
    Agrees base (rs.foldl Journal.record j) := by
  induction rs generalizing j with
  | nil => exact h
  | cons r rs ih => exact ih (h.record hrs.1) hrs.2

theorem changes_foldl (j : Journal) (rs : List Recording) :
    (rs.foldl record j).changes = rs.foldl ChangeSet.record j.changes := by
  induction rs generalizing j with
  | nil => rfl
  | cons r rs ih => exact ih (j.record r)

end Journal

/-! ### What entries lead to -/

/-- Enacting entries about different properties, in any order. -/
theorem PropertyValues.foldl_enact (values : PropertyValues) {es : List PropertyEntry}
    (h : (es.map (·.pair)).Nodup) (n : NodeId) (k : String) :
    es.foldl enact values n k =
      match es.find? (·.pair = (n, k)) with
      | some e => e.value
      | none => values n k := by
  induction es generalizing values with
  | nil => rfl
  | cons e es ih =>
    obtain ⟨hnew, hes⟩ := List.nodup_cons.1 (List.map_cons ▸ h)
    rw [List.foldl_cons, ih _ hes, List.find?_cons]
    by_cases hp : e.pair = (n, k)
    · have hnone : es.find? (·.pair = (n, k)) = none := by
        refine List.find?_eq_none.2 fun d hd hdp => hnew (List.mem_map.2 ⟨d, hd, ?_⟩)
        rw [hp]
        simpa using hdp
      simp [hnone, enact, hp]
    · simp [enact, hp]

namespace ChangeSet
variable {c : ChangeSet}

/-- Changing the entry of one property, of entries about different properties. -/
theorem map_eq_set {l : List PropertyEntry} (hl : (l.map (·.pair)).Nodup) {i : Nat}
    {e : PropertyEntry} (he : l[i]? = some e) (f : PropertyEntry → PropertyEntry) :
    l.map (fun d => if d.pair = e.pair then f d else d) = l.set i (f e) := by
  induction l generalizing i with
  | nil => simp at he
  | cons d l ih =>
    obtain ⟨hd, hl⟩ := List.nodup_cons.1 (List.map_cons ▸ hl)
    cases i with
    | zero =>
      obtain rfl : d = e := by simpa using he
      have hrest : l.map (fun d' => if d'.pair = d.pair then f d' else d') = l := by
        refine (List.map_congr_left fun d' hd' => if_neg fun hp => hd ?_).trans (List.map_id l)
        exact List.mem_map.2 ⟨d', hd', hp⟩
      rw [List.map_cons, if_pos rfl, hrest, List.set_cons_zero]
    | succ i =>
      have he : l[i]? = some e := by simpa using he
      have hne : d.pair ≠ e.pair := fun hp =>
        hd (List.mem_map.2 ⟨e, List.mem_of_getElem? he, hp.symm⟩)
      rw [List.map_cons, if_neg hne, ih hl he, List.set_cons_succ]

/-- A value written over a value keeps the place of the entry. -/
theorem Filed.log_write_over (h : c.Filed) {i : Nat} {e : PropertyEntry} (he : c.log[i]? = some e)
    (hvalue : e.value ≠ none) {key : PropertyKey} (hkey : key.name = e.key.name)
    (current : Option Value) (v : Value) :
    (c.write e.node key current (some v)).log = c.log.set i { e with value := some v } := by
  obtain ⟨number, hm⟩ := mem_log_iff.1 (List.mem_of_getElem? he)
  have hlookup : c.latest.lookup (e.node, key.name) = some number := by
    rw [h.lookup_latest]
    cases hf : c.entries.find? (·.2.pair = (e.node, key.name)) with
    | none => simpa [PropertyEntry.pair, hkey] using List.find?_eq_none.1 hf _ hm
    | some r =>
      have hp : r.2.pair = e.pair := by
        simpa [PropertyEntry.pair, hkey] using List.find?_some hf
      rw [h.pair_inj (List.mem_of_find?_eq_some hf) hm hp]
      rfl
  have hwrite : c.write e.node key current (some v) = c.setValue number v := by
    obtain ⟨node, entryKey, previous, value⟩ := e
    obtain ⟨w, rfl⟩ := Option.ne_none_iff_exists'.1 hvalue
    simp [ChangeSet.write, hlookup, h.entryAt?_of_mem hm]
  rw [hwrite, (h.setValue hm v).2]
  exact map_eq_set h.pairs he fun d => { d with value := some v }

end ChangeSet

/-- What a change set keeps of the writes that were recorded in it. -/
structure Journal.KeepsNetChanges (base : PropertyValues) (j : Journal) : Prop where
  /-- A property has at most one entry. -/
  once : (j.changes.log.map (·.pair)).Nodup
  /-- It has one if it was written, unless it is not set at the base and not set now. -/
  entry_iff : ∀ n k, (∃ e ∈ j.changes.log, e.pair = (n, k)) ↔
    (j.written n k).isSome = true ∧ ¬ (base n k = none ∧ j.values base n k = none)
  /-- An entry goes from the value at the base to the value now. -/
  spans : ∀ e ∈ j.changes.log,
    e.previous = base e.node e.key.name ∧ e.value = j.values base e.node e.key.name
  /-- Every entry is found under its property, and nothing else is. -/
  found_iff : ∀ n k e, j.changes.entryOf? n k = some e ↔ e ∈ j.changes.log ∧ e.pair = (n, k)
  /-- A value written over a value keeps its place. -/
  place : ∀ (i : Nat) e, j.changes.log[i]? = some e → e.value ≠ none → ∀ key current v,
    key.name = e.key.name → (j.changes.write e.node key current (some v)).log =
      j.changes.log.set i { e with value := some v }
  /-- The entries lead from the base to the values now, in whatever order they are enacted. -/
  enacted : ∀ es : List PropertyEntry, es.Perm j.changes.log →
    es.foldl PropertyValues.enact base = j.values base

namespace Journal
variable {base : PropertyValues} {j : Journal}

theorem Agrees.values_eq (h : Agrees base j) (n : NodeId) (k : String) :
    j.values base n k =
      match j.changes.change? n k with
      | some (_, value) => value
      | none => base n k := by
  rw [h.change, values]
  rcases j.written n k with _ | _ | v <;> cases hb : base n k <;> rfl

theorem Agrees.keepsNetChanges (h : Agrees base j) : j.KeepsNetChanges base where
  once := h.filed.pairs
  entry_iff := by
    intro n k
    have hentry : (∃ e ∈ j.changes.log, e.pair = (n, k)) ↔
        (j.changes.change? n k).isSome = true := by
      rw [h.filed.change?_eq_find?, Option.isSome_map, List.find?_isSome]
      simp
    rw [hentry, h.change, values]
    rcases j.written n k with _ | _ | v <;> cases hb : base n k <;> simp [ChangeSet.netChange]
  spans := by
    intro e he
    have hchange := (h.change e.node e.key.name).symm.trans (h.filed.change?_of_mem he)
    rw [values]
    rcases hw : j.written e.node e.key.name with _ | w
    · simp [hw] at hchange
    · rw [hw, Option.bind_some] at hchange
      obtain ⟨hprevious, hvalue⟩ := ChangeSet.netChange_eq hchange
      exact ⟨hprevious, hvalue⟩
  found_iff := by
    intro n k e
    rw [h.filed.entryOf?_eq_some_iff, PropertyEntry.pair, Prod.mk.injEq]
  place := fun i e he hvalue key current v hkey => h.filed.log_write_over he hvalue hkey current v
  enacted := by
    intro es hes
    funext n k
    have hpairs := (hes.map PropertyEntry.pair).nodup_iff.2 h.filed.pairs
    rw [base.foldl_enact hpairs, h.values_eq]
    cases hf : es.find? (·.pair = (n, k)) with
    | some e =>
      have hp : e.pair = (n, k) := by simpa using List.find?_some hf
      obtain ⟨rfl, rfl⟩ := Prod.mk.inj hp
      rw [h.filed.change?_of_mem (hes.mem_iff.1 (List.mem_of_find?_eq_some hf))]
    | none =>
      have hnone : j.changes.log.find? (·.pair = (n, k)) = none :=
        List.find?_eq_none.2 fun e he => List.find?_eq_none.1 hf e (hes.mem_iff.2 he)
      rw [h.filed.change?_eq_find?, hnone]
      rfl

/-- Whatever is written, with whatever happens to nodes and relationships in between: the change set
holds the net change of each property, and nothing more. -/
theorem net_changes_kept {rs : List Recording} (h : Follows base {} rs) :
    (rs.foldl record {}).changes = .ofRecordings rs ∧
      (rs.foldl record {}).KeepsNetChanges base :=
  ⟨changes_foldl {} rs, (agrees_empty.foldl h).keepsNetChanges⟩

/-! ### A title that is removed in the end -/

/-- One node has a title. -/
def titled : PropertyValues :=
  fun n k => if (n, k) = (⟨1⟩, "title") then some (.string "a") else none

/-- The title is written twice and removed. Meanwhile another node gets a name and loses it, and a
third one is written to and forgotten. -/
def retitling : List Recording :=
  [.write ⟨1⟩ (.named "title") (some (.string "a")) (some (.string "b")),
    .createNode ⟨2⟩, .write ⟨2⟩ (.named "name") none (some (.string "x")),
    .write ⟨1⟩ (.named "title") (some (.string "b")) (some (.string "c")),
    .createNode ⟨3⟩, .write ⟨3⟩ (.named "name") none (some (.string "y")), .discardNode ⟨3⟩,
    .write ⟨2⟩ (.named "name") (some (.string "x")) none, .deleteNode ⟨4⟩,
    .write ⟨1⟩ (.named "title") (some (.string "c")) none]

theorem retitling_follows : Follows titled {} retitling :=
  ⟨rfl, trivial, rfl, rfl, trivial, rfl, trivial, rfl, trivial, rfl, trivial⟩

/-- What is left is the removal of the title. -/
theorem net_changes_kept_retitled :
    (ChangeSet.ofRecordings retitling).log =
        [⟨⟨1⟩, .named "title", some (.string "a"), none⟩] ∧
      (retitling.foldl record {}).KeepsNetChanges titled :=
  ⟨rfl, (net_changes_kept retitling_follows).2⟩

end Journal
end EntityGraph
