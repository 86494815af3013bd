import EntityGraph.Proofs.NetChanges

/-!
Change sets that are built by recording one change after the other. Nothing is recorded twice, and
everything that a change set lists is listed in the order in which it was recorded: what is recorded
next comes last, whatever it takes out.

Main statements: `orderly_ofRecordings`, `continues_record`.
-/

namespace EntityGraph

/-- A change that is recorded. -/
inductive Recording
  | createNode (id : NodeId)
  | deleteNode (id : NodeId)
  | createRelationship (r : Relationship)
  | deleteRelationship (r : Relationship)
  | discardNode (id : NodeId)
  | discardRelationship (id : RelationshipId)
  | assign (node : NodeId) (key : PropertyKey) (previous : Option Value) (value : Value)
  | remove (node : NodeId) (key : PropertyKey) (previous : Value)
  | write (node : NodeId) (key : PropertyKey) (current value : Option Value)

namespace ChangeSet

/-- Records a change. -/
def record (c : ChangeSet) : Recording → ChangeSet
  | .createNode id => c.createNode id
  | .deleteNode id => c.deleteNode id
  | .createRelationship r => c.createRelationship r
  | .deleteRelationship r => c.deleteRelationship r
  | .discardNode id => (c.discardNode id).2
  | .discardRelationship id => (c.discardRelationship id).2
  | .assign node key previous value => c.assign node key previous value
  | .remove node key previous => c.remove node key previous
  | .write node key current value => c.write node key current value

/-- The change set of some recordings. -/
def ofRecordings (rs : List Recording) : ChangeSet := rs.foldl record {}

/-- No node is listed twice, and entries stand in the order of their numbers, which are handed out
one after the other. -/
structure Orderly (c : ChangeSet) : Prop where
  created : c.createdNodes.Nodup
  deleted : c.deletedNodes.Nodup
  increasing : c.entries.Pairwise (·.1 < ·.1)
  below : ∀ r ∈ c.entries, r.1 < c.nextNumber

/-- Some members of a list may be gone, the others keep their order, and what is new comes last. -/
def Appends {α : Type} (l l' : List α) : Prop :=
  ∃ kept new, kept.Sublist l ∧ new.length ≤ 1 ∧ l' = kept ++ new

/-- The number of an entry, and the property that it is about. -/
def place (r : Nat × PropertyEntry) : Nat × NodeId × PropertyKey := (r.1, r.2.node, r.2.key)

/-- A change set after one more recording. -/
structure Continues (c d : ChangeSet) : Prop where
  createdNodes : Appends c.createdNodes d.createdNodes
  deletedNodes : Appends c.deletedNodes d.deletedNodes
  createdRelationships : Appends c.createdRelationships d.createdRelationships
  deletedRelationships : Appends c.deletedRelationships d.deletedRelationships
  entries : Appends (c.entries.map place) (d.entries.map place)

variable {c : ChangeSet}

/-! ### What is listed -/

theorem appends_of_sublist {α : Type} {l l' : List α} (h : l'.Sublist l) : Appends l l' :=
  ⟨l', [], h, Nat.zero_le 1, (List.append_nil l').symm⟩

theorem appends_rfl {α : Type} {l : List α} : Appends l l := appends_of_sublist (.refl l)

theorem appends_one {α : Type} (l : List α) (a : α) : Appends l (l ++ [a]) :=
  ⟨l, [a], .refl l, Nat.le_refl 1, rfl⟩

theorem Appends.trans_sublist {α : Type} {l₁ l₂ l₃ : List α} (h : Appends l₂ l₃)
    (hs : l₂.Sublist l₁) : Appends l₁ l₃ := by
  obtain ⟨kept, new, hkept, hnew, rfl⟩ := h
  exact ⟨kept, new, hkept.trans hs, hnew, rfl⟩

theorem Orderly.filter (h : c.Orderly) (p : Nat × PropertyEntry → Bool) {d : ChangeSet}
    (hc : d.createdNodes.Sublist c.createdNodes) (hd : d.deletedNodes = c.deletedNodes)
    (he : d.entries = c.entries.filter p) (hn : d.nextNumber = c.nextNumber) : d.Orderly where
  created := hc.nodup h.created
  deleted := hd ▸ h.deleted
  increasing := he ▸ h.increasing.filter p
  below := by
    intro r hr
    rw [he] at hr
    exact hn ▸ h.below r (List.mem_filter.1 hr).1

theorem Orderly.push (h : c.Orderly) (e : PropertyEntry) : (c.push e).Orderly where
  created := h.created
  deleted := h.deleted
  increasing := List.pairwise_append.2 ⟨h.increasing, List.pairwise_singleton _ _, fun r hr s hs =>
    (List.mem_singleton.1 hs) ▸ h.below r hr⟩
  below := by
    intro r hr
    rcases List.mem_append.1 hr with hr | hr
    · exact Nat.lt_succ_of_lt (h.below r hr)
    · rw [List.mem_singleton.1 hr]
      exact Nat.lt_succ_self _

theorem continues_push (c : ChangeSet) (e : PropertyEntry) : c.Continues (c.push e) where
  createdNodes := appends_rfl
  deletedNodes := appends_rfl
  createdRelationships := appends_rfl
  deletedRelationships := appends_rfl
  entries := by
    rw [ChangeSet.push, List.map_append]
    exact appends_one _ _

theorem Continues.rfl : c.Continues c :=
  ⟨appends_rfl, appends_rfl, appends_rfl, appends_rfl, appends_rfl⟩

/-! ### Writes -/

theorem Orderly.take (h : c.Orderly) (node : NodeId) (key : String) (number : Nat) :
    (c.take node key number).Orderly := h.filter _ (.refl _) rfl rfl rfl

theorem Orderly.net (h : c.Orderly) (node : NodeId) (key : PropertyKey)
    (previous value : Option Value) : (c.net node key previous value).Orderly := by
  rcases value with _ | v
  · rcases previous with _ | old
    · exact h
    · exact h.push _
  · exact h.push _

theorem continues_net (c : ChangeSet) (node : NodeId) (key : PropertyKey)
    (previous value : Option Value) : c.Continues (c.net node key previous value) := by
  rcases value with _ | v
  · rcases previous with _ | old
    · exact .rfl
    · exact continues_push c _
  · exact continues_push c _

/-- A value written in place of another keeps the place of the entry. -/
theorem map_place_setValue (c : ChangeSet) (number : Nat) (value : Value) :
    (c.setValue number value).entries.map place = c.entries.map place := by
  rw [setValue, List.map_map]
  refine List.map_congr_left fun r _ => ?_
  by_cases hr : r.1 = number <;> simp [place, hr]

theorem Orderly.setValue (h : c.Orderly) (number : Nat) (value : Value) :
    (c.setValue number value).Orderly where
  created := h.created
  deleted := h.deleted
  increasing := by
    have hnumbers : ∀ l : List (Nat × PropertyEntry),
        l.Pairwise (·.1 < ·.1) ↔ (l.map place).Pairwise (·.1 < ·.1) := fun l => by
      simp only [List.pairwise_map, place]
    rw [hnumbers, map_place_setValue, ← hnumbers]
    exact h.increasing
  below := by
    intro r hr
    have hplace := List.mem_map_of_mem (f := place) hr
    rw [map_place_setValue] at hplace
    obtain ⟨s, hs, hrs⟩ := List.mem_map.1 hplace
    have hnumber : s.1 = r.1 := congrArg (·.1) hrs
    exact hnumber ▸ h.below s hs

theorem Continues.of_take {node : NodeId} {key : String} {number : Nat} {d : ChangeSet}
    (h : (c.take node key number).Continues d) : c.Continues d where
  createdNodes := h.createdNodes
  deletedNodes := h.deletedNodes
  createdRelationships := h.createdRelationships
  deletedRelationships := h.deletedRelationships
  entries := h.entries.trans_sublist (List.filter_sublist.map place)

/-- The ways in which a write is recorded: as an entry of its own, in the place of an assignment, or
instead of the entry that it is folded into. -/
theorem write_cases (c : ChangeSet) (node : NodeId) (key : PropertyKey)
    (current value : Option Value) :
    c.write node key current value = c.net node key current value ∨
    (∃ number new, c.write node key current value = c.setValue number new) ∨
    ∃ number previous, c.write node key current value =
      (c.take node key.name number).net node key previous value := by
  rw [write]
  split
  · exact .inl rfl
  · split
    · exact .inr (.inl ⟨_, _, rfl⟩)
    · exact .inr (.inr ⟨_, _, rfl⟩)

/-! ### Every recording -/

theorem Orderly.record (h : c.Orderly) (r : Recording) : (c.record r).Orderly := by
  cases r with
  | createNode id =>
    rw [ChangeSet.record, createNode]
    split
    · exact h
    · next hid =>
      have hcreated : (c.createdNodes ++ [id]).Nodup := by simpa using h.created.concat hid
      exact ⟨hcreated, h.deleted, h.increasing, h.below⟩
  | deleteNode id =>
    rw [ChangeSet.record, deleteNode]
    split
    · exact h
    · next hid =>
      have hdeleted : (c.deletedNodes ++ [id]).Nodup := by simpa using h.deleted.concat hid
      exact ⟨h.created, hdeleted, h.increasing, h.below⟩
  | createRelationship r => exact ⟨h.created, h.deleted, h.increasing, h.below⟩
  | deleteRelationship r => exact ⟨h.created, h.deleted, h.increasing, h.below⟩
  | discardNode id =>
    rw [ChangeSet.record, discardNode]
    split
    · exact h.filter _ List.filter_sublist rfl rfl rfl
    · exact h
  | discardRelationship id =>
    rw [ChangeSet.record, discardRelationship]
    split
    · exact ⟨h.created, h.deleted, h.increasing, h.below⟩
    · exact h
  | assign => exact h.push _
  | remove => exact h.push _
  | write node key current value =>
    rw [ChangeSet.record]
    rcases c.write_cases node key current value with he | ⟨number, new, he⟩ | ⟨number, _, he⟩
    · exact he ▸ h.net _ _ _ _
    · exact he ▸ h.setValue _ _
    · exact he ▸ (h.take node key.name number).net _ _ _ _

theorem orderly_empty : Orderly {} := ⟨List.nodup_nil, List.nodup_nil, .nil, nofun⟩

theorem orderly_ofRecordings (rs : List Recording) : (ofRecordings rs).Orderly := by
  suffices h : ∀ c : ChangeSet, c.Orderly → (rs.foldl record c).Orderly from h {} orderly_empty
  induction rs with
  | nil => exact fun _ hc => hc
  | cons r rs ih => exact fun c hc => ih (c.record r) (hc.record r)

/-- What is recorded next comes last. -/
theorem continues_record (c : ChangeSet) (r : Recording) : c.Continues (c.record r) := by
  cases r with
  | createNode id =>
    rw [record, createNode]
    split
    · exact .rfl
    · exact ⟨appends_one _ _, appends_rfl, appends_rfl, appends_rfl, appends_rfl⟩
  | deleteNode id =>
    rw [record, deleteNode]
    split
    · exact .rfl
    · exact ⟨appends_rfl, appends_one _ _, appends_rfl, appends_rfl, appends_rfl⟩
  | createRelationship r =>
    exact ⟨appends_rfl, appends_rfl, appends_one _ _, appends_rfl, appends_rfl⟩
  | deleteRelationship r =>
    exact ⟨appends_rfl, appends_rfl, appends_rfl, appends_one _ _, appends_rfl⟩
  | discardNode id =>
    rw [record, discardNode]
    split
    · exact ⟨appends_of_sublist List.filter_sublist, appends_rfl, appends_rfl, appends_rfl,
        appends_of_sublist (List.filter_sublist.map place)⟩
    · exact .rfl
  | discardRelationship id =>
    rw [record, discardRelationship]
    split
    · exact ⟨appends_rfl, appends_rfl, appends_of_sublist List.filter_sublist, appends_rfl,
        appends_rfl⟩
    · exact .rfl
  | assign => exact continues_push c _
  | remove => exact continues_push c _
  | write node key current value =>
    rw [record]
    rcases c.write_cases node key current value with he | ⟨number, new, he⟩ | ⟨number, _, he⟩
    · exact he ▸ continues_net c _ _ _ _
    · rw [he]
      exact ⟨appends_rfl, appends_rfl, appends_rfl, appends_rfl,
        (map_place_setValue c number new).symm ▸ appends_rfl⟩
    · exact he ▸ (continues_net (c.take node key.name number) _ _ _ _).of_take

/-- Each list of a change set is in the order of recording. -/
theorem continues_take (rs : List Recording) (k : Nat) :
    (ofRecordings (rs.take k)).Continues (ofRecordings (rs.take (k + 1))) := by
  rw [List.take_add_one, ofRecordings, ofRecordings, List.foldl_append]
  cases rs[k]? with
  | none => exact .rfl
  | some r => exact continues_record _ r

end ChangeSet
end EntityGraph
