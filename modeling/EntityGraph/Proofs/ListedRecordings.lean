import EntityGraph.Proofs.OverlaidEntries

/-!
What becomes of a recording. A change set lists what was recorded last, and still lists whatever it
listed before, unless the recording takes it back: a write takes back what was written to the same
property, and forgetting a node or a relationship takes back its creation and the writes to it.

Main statements: `Indexed.listedIn_record` — the recording is listed; `Indexed.retains_record` —
so is everything else.
-/

namespace EntityGraph

/-- A change set lists what was recorded last. -/
def Recording.ListedIn (d : ChangeSet) : Recording → Prop
  | .createNode id => id ∈ d.createdNodes
  | .deleteNode id => id ∈ d.deletedNodes
  | .createRelationship r => d.createdRelationships.getLast? = some r
  | .deleteRelationship r => d.deletedRelationships.getLast? = some r
  | .discardNode id => id ∉ d.createdNodes
  | .discardRelationship id => ∀ r ∈ d.createdRelationships, r.id ≠ id
  | .assign node key previous value =>
    ∃ number, d.entries.getLast? = some (number, ⟨node, key, previous, some value⟩)
  | .remove node key previous =>
    ∃ number, d.entries.getLast? = some (number, ⟨node, key, some previous, none⟩)
  | .write node key _ value => ∀ v, value = some v →
    ∃ r ∈ d.entries, r.2.pair = (node, key.name) ∧ r.2.value = some v

/-- A recording takes an entry back: it writes the property again, or forgets the node. -/
def Recording.Replaces (e : PropertyEntry) : Recording → Prop
  | .write node key _ _ => e.pair = (node, key.name)
  | .discardNode id => e.node = id
  | _ => False

/-- Whatever a change set listed is still listed after a recording, unless the recording takes it
back. -/
structure ChangeSet.Retains (c : ChangeSet) (r : Recording) (d : ChangeSet) : Prop where
  createdNodes : ∀ id ∈ c.createdNodes, id ∈ d.createdNodes ∨ r = .discardNode id
  deletedNodes : ∀ id ∈ c.deletedNodes, id ∈ d.deletedNodes
  createdRelationships : ∀ q ∈ c.createdRelationships,
    q ∈ d.createdRelationships ∨ r = .discardRelationship q.id
  deletedRelationships : ∀ q ∈ c.deletedRelationships, q ∈ d.deletedRelationships
  entries : ∀ e ∈ c.entries, e ∈ d.entries ∨ r.Replaces e.2

namespace ChangeSet
variable {c : ChangeSet}

theorem Indexed.listed_write (h : c.Indexed) (node : NodeId) (key : PropertyKey)
    (current : Option Value) (v : Value) : ∃ r ∈ (c.write node key current (some v)).entries,
      r.2.pair = (node, key.name) ∧ r.2.value = some v := by
  have hpush : ∀ (d : ChangeSet) (previous : Option Value),
      ∃ r ∈ (d.assign node key previous v).entries,
        r.2.pair = (node, key.name) ∧ r.2.value = some v :=
    fun d previous => ⟨(d.nextNumber, _), List.mem_append_right _ (List.mem_singleton.2 rfl),
      rfl, rfl⟩
  rw [ChangeSet.write]
  split
  · exact hpush c current
  · next number hlookup =>
    split
    · next new _ _ _ _ _ _ he =>
      obtain rfl := Option.some.inj he
      obtain ⟨e, hm, hpair⟩ := h.leads _ _ (h.lookup_eq_some_iff.1 hlookup)
      exact ⟨(number, { e with value := some v }),
        List.mem_map.2 ⟨_, hm, if_pos rfl⟩, hpair, rfl⟩
    · exact hpush _ _

theorem Indexed.listedIn_record (h : c.Indexed) (r : Recording) : r.ListedIn (c.record r) := by
  cases r with
  | createNode id =>
    rw [Recording.ListedIn, ChangeSet.record, createNode]
    split
    · assumption
    · simp
  | deleteNode id =>
    rw [Recording.ListedIn, ChangeSet.record, deleteNode]
    split
    · assumption
    · simp
  | createRelationship r => exact List.getLast?_concat ..
  | deleteRelationship r => exact List.getLast?_concat ..
  | discardNode id =>
    rw [Recording.ListedIn, ChangeSet.record, ChangeSet.discardNode]
    split
    · simp
    · next hnot => simpa [isCreated] using hnot
  | discardRelationship id =>
    rw [Recording.ListedIn, ChangeSet.record, discardRelationship]
    split
    · simp
    · next hnone => simpa using hnone
  | assign node key previous value => exact ⟨c.nextNumber, List.getLast?_concat ..⟩
  | remove node key previous => exact ⟨c.nextNumber, List.getLast?_concat ..⟩
  | write node key current value =>
    rintro v rfl
    exact h.listed_write node key current v

/-- An entry to which the index leads is about the property of the row. -/
theorem Indexed.pair_of_row (h : c.Indexed) {p : NodeId × String} {e : Nat × PropertyEntry}
    (he : e ∈ c.entries) (hrow : (p, e.1) ∈ c.latest) : e.2.pair = p :=
  (h.leadsTo_of_row he hrow).1

theorem retains_of_entries {d : ChangeSet} {r : Recording} (hc : d.createdNodes = c.createdNodes)
    (hd : d.deletedNodes = c.deletedNodes) (hcr : d.createdRelationships = c.createdRelationships)
    (hdr : d.deletedRelationships = c.deletedRelationships)
    (he : ∀ e ∈ c.entries, e ∈ d.entries ∨ r.Replaces e.2) : c.Retains r d :=
  ⟨fun _ hid => Or.inl (hc ▸ hid), fun _ hid => hd ▸ hid, fun _ hq => Or.inl (hcr ▸ hq),
    fun _ hq => hdr ▸ hq, he⟩

theorem Retains.refl (c : ChangeSet) (r : Recording) : c.Retains r c :=
  retains_of_entries rfl rfl rfl rfl fun _ he => Or.inl he

theorem Retains.push {d : ChangeSet} {r : Recording} (h : c.Retains r d) (e : PropertyEntry) :
    c.Retains r (d.push e) :=
  ⟨h.createdNodes, h.deletedNodes, h.createdRelationships, h.deletedRelationships,
    fun e' he => (h.entries e' he).imp_left fun hd => List.mem_append_left _ hd⟩

theorem Retains.net {d : ChangeSet} {r : Recording} (h : c.Retains r d) (node : NodeId)
    (key : PropertyKey) (previous value : Option Value) :
    c.Retains r (d.net node key previous value) := by
  rcases value with _ | v
  · rcases previous with _ | old
    · exact h
    · exact h.push _
  · exact h.push _

theorem Indexed.retains_write (h : c.Indexed) (node : NodeId) (key : PropertyKey)
    (current value : Option Value) :
    c.Retains (.write node key current value) (c.write node key current value) := by
  rw [ChangeSet.write]
  split
  · exact (Retains.refl c _).net node key current value
  · next number hlookup =>
    have hrow := h.lookup_eq_some_iff.1 hlookup
    have hpair : ∀ e ∈ c.entries, e.1 = number → e.2.pair = (node, key.name) := by
      rintro e he rfl
      exact h.pair_of_row he hrow
    have htake : ∀ v, c.Retains (.write node key current v) (c.take node key.name number) := by
      refine fun v => retains_of_entries rfl rfl rfl rfl fun e he => ?_
      by_cases hn : e.1 = number
      · exact Or.inr (hpair e he hn)
      · exact Or.inl (List.mem_filter.2 ⟨he, decide_eq_true hn⟩)
    split
    · refine retains_of_entries rfl rfl rfl rfl fun e he => ?_
      by_cases hn : e.1 = number
      · exact Or.inr (hpair e he hn)
      · exact Or.inl (List.mem_map.2 ⟨e, he, if_neg hn⟩)
    · exact (htake _).net node key _ _

theorem Indexed.retains_record (h : c.Indexed) (r : Recording) : c.Retains r (c.record r) := by
  cases r with
  | createNode id =>
    rw [ChangeSet.record, createNode]
    split
    · exact .refl c _
    · exact { Retains.refl c _ with createdNodes := fun _ hid => Or.inl (List.mem_append_left _ hid) }
  | deleteNode id =>
    rw [ChangeSet.record, deleteNode]
    split
    · exact .refl c _
    · exact { Retains.refl c _ with deletedNodes := fun _ hid => List.mem_append_left _ hid }
  | createRelationship q =>
    exact { Retains.refl c _ with
      createdRelationships := fun _ hq => Or.inl (List.mem_append_left _ hq) }
  | deleteRelationship q =>
    exact { Retains.refl c _ with deletedRelationships := fun _ hq => List.mem_append_left _ hq }
  | discardNode id =>
    rw [ChangeSet.record, ChangeSet.discardNode]
    split
    · refine { Retains.refl c _ with createdNodes := fun i hi => ?_, entries := fun e he => ?_ }
      · by_cases hid : i = id
        · exact Or.inr (hid ▸ rfl)
        · exact Or.inl (List.mem_filter.2 ⟨hi, decide_eq_true hid⟩)
      · by_cases hn : e.1 ∈ (c.latest.filter (·.1.1 = id)).map (·.2)
        · obtain ⟨row, hrow, hnumber⟩ := List.mem_map.1 hn
          obtain ⟨hrow, hid⟩ := List.mem_filter.1 hrow
          have hpair := h.pair_of_row (p := row.1) he (hnumber ▸ hrow)
          exact Or.inr ((congrArg Prod.fst hpair).trans (of_decide_eq_true hid))
        · exact Or.inl (List.mem_filter.2 ⟨he, decide_eq_true hn⟩)
    · exact .refl c _
  | discardRelationship id =>
    rw [ChangeSet.record, discardRelationship]
    split
    · refine { Retains.refl c _ with createdRelationships := fun q hq => ?_ }
      by_cases hid : q.id = id
      · exact Or.inr (hid ▸ rfl)
      · exact Or.inl (List.mem_filter.2 ⟨hq, decide_eq_true hid⟩)
    · exact .refl c _
  | assign => exact (Retains.refl c _).push _
  | remove => exact (Retains.refl c _).push _
  | write node key current value => exact h.retains_write node key current value

/-- What a recording lists, and what it leaves, among others. -/
theorem listed_take {rs : List Recording} {k : Nat} {r : Recording} (hr : rs[k]? = some r) :
    r.ListedIn (ofRecordings (rs.take (k + 1))) ∧
      (ofRecordings (rs.take k)).Retains r (ofRecordings (rs.take (k + 1))) := by
  have hindexed : (ofRecordings (rs.take k)).Indexed := (indexed_empty.foldl (rs.take k)).1
  have hnext : ofRecordings (rs.take (k + 1)) = (ofRecordings (rs.take k)).record r := by
    rw [List.take_add_one, hr, ofRecordings, List.foldl_append]
    rfl
  rw [hnext]
  exact ⟨hindexed.listedIn_record r, hindexed.retains_record r⟩

end ChangeSet
end EntityGraph
