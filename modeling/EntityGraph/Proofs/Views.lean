import EntityGraph.Proofs.Declarations
import EntityGraph.Proofs.Tables

/-!
Views. Adding keys to a view rebuilds it: what the ancestors list at that moment, root first, then
what the type listed, then the new keys, each name once and at its first place. The keys of the
ancestors are copied, so that nothing but a change to the view itself changes it later. Types are
told apart by their names in whichever letters.

Main statements: `addKeys_nil` — adding keys one after another leaves the first of each name;
`Schema.addToView_addToView` — adding the same keys again changes nothing;
`SchemaDraft.views_are_snapshots` — what a view lists after any registrations.
-/

namespace EntityGraph

/-! ### Lists that name each key once -/

/-- The names of keys, in order. -/
def keyNames (keys : List PropertyKey) : List String := keys.map (·.name)

/-- No two keys have one name. -/
def ListsOnce (keys : List PropertyKey) : Prop := (keyNames keys).Nodup

theorem listsOnce_nil : ListsOnce [] := List.nodup_nil

theorem contains_iff (keys : List PropertyKey) (k : PropertyKey) :
    keys.contains k = true ↔ k.name ∈ keyNames keys := by
  simp only [List.contains_iff_exists_mem_beq, PropertyKey.beq_iff_name_eq, keyNames, List.mem_map]
  exact exists_congr fun j => and_congr_right fun _ => eq_comm

theorem keyNames_append (l m : List PropertyKey) : keyNames (l ++ m) = keyNames l ++ keyNames m :=
  List.map_append

theorem name_mem_keyNames {keys : List PropertyKey} {k : PropertyKey} (h : k ∈ keys) :
    k.name ∈ keyNames keys := List.mem_map_of_mem h

theorem addKeys_cons (keys more : List PropertyKey) (k : PropertyKey) :
    addKeys keys (k :: more) = addKeys (if keys.contains k then keys else keys ++ [k]) more := rfl

theorem addKeys_append (keys l m : List PropertyKey) :
    addKeys keys (l ++ m) = addKeys (addKeys keys l) m := List.foldl_append

/-- What is added: the first key of each name that is new. -/
theorem addKeys_eq (keys more : List PropertyKey) :
    addKeys keys more = keys ++ (more.filter fun k => !keys.contains k).eraseDups := by
  induction more generalizing keys with
  | nil => simp [addKeys]
  | cons k more ih =>
    rw [addKeys_cons, ih]
    by_cases h : keys.contains k = true
    · simp [h]
    · rw [if_neg h, List.filter_cons_of_pos (by simpa using h), List.eraseDups_cons,
        List.filter_filter, List.append_assoc, List.singleton_append]
      congr 4
      funext j
      simp [Bool.and_comm]

theorem addKeys_nil (keys : List PropertyKey) : addKeys [] keys = keys.eraseDups := by
  simp [addKeys_eq]

theorem prefix_addKeys (keys more : List PropertyKey) : keys <+: addKeys keys more :=
  addKeys_eq keys more ▸ List.prefix_append _ _

theorem mem_keyNames_addKeys (keys more : List PropertyKey) (name : String) :
    name ∈ keyNames (addKeys keys more) ↔ name ∈ keyNames keys ∨ name ∈ keyNames more := by
  induction more generalizing keys with
  | nil => simp [addKeys, keyNames]
  | cons k more ih =>
    rw [addKeys_cons, ih]
    by_cases h : keys.contains k = true
    · have hk := (contains_iff keys k).1 h
      rw [if_pos h]
      grind [keyNames]
    · rw [if_neg h, keyNames_append]
      simp [keyNames, or_assoc]

theorem ListsOnce.addKeys {keys : List PropertyKey} (h : ListsOnce keys)
    (more : List PropertyKey) : ListsOnce (addKeys keys more) := by
  induction more generalizing keys with
  | nil => exact h
  | cons k more ih =>
    rw [addKeys_cons]
    split
    · exact ih h
    · next hnew =>
      rw [contains_iff] at hnew
      refine ih ?_
      rw [ListsOnce, keyNames_append, List.nodup_append]
      refine ⟨h, by simp [keyNames], ?_⟩
      rintro name hname m hm rfl
      obtain rfl := List.mem_singleton.1 hm
      exact hnew hname

/-- Keys that are all there already add nothing. -/
theorem addKeys_of_mem {keys more : List PropertyKey}
    (h : ∀ k ∈ more, k.name ∈ keyNames keys) : addKeys keys more = keys := by
  rw [addKeys_eq, List.filter_eq_nil_iff.2 fun k hk => by simpa using (contains_iff ..).2 (h k hk)]
  simp

/-- A list grows to any list without repetition that it begins. -/
theorem addKeys_of_prefix {keys m : List PropertyKey} (h : keys <+: m) (hm : ListsOnce m) :
    addKeys keys m = m := by
  obtain ⟨rest, rfl⟩ := h
  rw [addKeys_append, addKeys_of_mem fun k hk => name_mem_keyNames hk]
  induction rest generalizing keys with
  | nil => simp [addKeys]
  | cons k rest ih =>
    have hnew : ¬ keys.contains k = true := by
      rw [contains_iff]
      intro hk
      rw [ListsOnce, keyNames_append] at hm
      exact (List.nodup_append.1 hm).2.2 _ hk _ (List.mem_cons_self ..) rfl
    rw [List.append_cons] at hm ⊢
    rw [addKeys_cons, if_neg hnew, ih hm]

theorem foldl_addKeys (f : String → List PropertyKey) (names : List String)
    (keys : List PropertyKey) :
    names.foldl (fun ks a => addKeys ks (f a)) keys = addKeys keys (names.flatMap f) := by
  induction names generalizing keys with
  | nil => rfl
  | cons a names ih => rw [List.foldl_cons, ih, List.flatMap_cons, addKeys_append]

/-- Merging lists again, of which some have become what was merged, stays within it. -/
theorem prefix_of_merged {f f' : String → List PropertyKey} {m : List PropertyKey}
    (hm : ListsOnce m) {names : List String} (hsame : ∀ a ∈ names, f' a = f a ∨ f' a = m)
    (hmerged : ∀ a ∈ names, ∀ k ∈ f a, k.name ∈ keyNames m) {keys : List PropertyKey}
    (h : addKeys keys (names.flatMap f) <+: m) : addKeys keys (names.flatMap f') <+: m := by
  induction names generalizing keys with
  | nil => exact h
  | cons a names ih =>
    rw [List.flatMap_cons, addKeys_append] at h ⊢
    obtain ⟨ha, hsame⟩ := List.forall_mem_cons.1 hsame
    obtain ⟨-, hmerged⟩ := List.forall_mem_cons.1 hmerged
    rcases ha with ha | ha
    · exact ha ▸ ih hsame hmerged h
    · -- From here on the merge is complete, and the rest adds nothing.
      have hkeys : keys <+: m := ((prefix_addKeys _ _).trans (prefix_addKeys _ _)).trans h
      have hrest : ∀ k ∈ names.flatMap f', k.name ∈ keyNames m := by
        intro k hk
        obtain ⟨b, hb, hkb⟩ := List.mem_flatMap.1 hk
        rcases hsame b hb with hb' | hb'
        · exact hmerged b hb k (hb' ▸ hkb)
        · exact name_mem_keyNames (hb' ▸ hkb)
      have hcomplete : addKeys (addKeys keys (f' a)) (names.flatMap f') = m := by
        rw [ha, addKeys_of_prefix hkeys hm, addKeys_of_mem hrest]
      exact hcomplete ▸ List.prefix_rfl

/-! ### One view -/

theorem TypeTable.setEntry_setEntry {α : Type} (t : TypeTable α) (type key : String) (a : α) :
    (t.setEntry type key a).setEntry type key a = t.setEntry type key a := by
  simp [setEntry, Assoc.get?_put, Assoc.put_put]

namespace Schema

/-- What a type itself lists in a view. -/
def ownView (s : Schema) (name label : String) : List PropertyKey :=
  (s.views.entryOf? name label).getD []

/-- What goes into a view of a type to which keys are added, in order. -/
def viewSources (s : Schema) (t : EntityType) (label : String) (keys : List PropertyKey) :
    List PropertyKey :=
  t.ancestors.reverse.flatMap (s.ownView · label) ++ s.ownView t.name label ++ keys

theorem addToView_eq (s : Schema) (t : EntityType) (label : String) (keys : List PropertyKey) :
    s.addToView t label keys =
      { s with
        views := s.views.setEntry t.name label (addKeys [] (s.viewSources t label keys)) } := by
  rw [viewSources, addKeys_append, addKeys_append, ← foldl_addKeys]
  rfl

theorem views_register_view (s : Schema) (t : EntityType) (label : String)
    (keys : List PropertyKey) : (s.register (.view t label keys)).views =
      s.views.setEntry t.name label (addKeys [] (s.viewSources t label keys)) :=
  congrArg Schema.views (addToView_eq s t label keys)

theorem view_of_entry {s : Schema} {t : EntityType} {label : String} {keys : List PropertyKey}
    (h : s.views.entryOf? t.name label = some keys) : s.view t label = keys := by
  rw [view, TypeTable.inherited?_eq, EntityType.chain, List.findSome?_cons, h]
  rfl

theorem ownView_addToView (s : Schema) (t : EntityType) (label : String) (keys : List PropertyKey)
    (name : String) : (s.addToView t label keys).ownView name label =
      if normalize name = normalize t.name then addKeys [] (s.viewSources t label keys)
      else s.ownView name label := by
  rw [addToView_eq, ownView, TypeTable.entryOf?_setEntry]
  by_cases h : normalize name = normalize t.name <;> simp [h, ownView]

/-- Adding the same keys once more changes nothing. -/
theorem addToView_addToView (s : Schema) (t : EntityType) (label : String)
    (keys : List PropertyKey) :
    (s.addToView t label keys).addToView t label keys = s.addToView t label keys := by
  set s' := s.addToView t label keys with hs'
  set m := addKeys [] (s.viewSources t label keys) with hm
  have honce : ListsOnce m := listsOnce_nil.addKeys _
  have hmem : ∀ k ∈ s.viewSources t label keys, k.name ∈ keyNames m := fun k hk =>
    (mem_keyNames_addKeys ..).2 (Or.inr (name_mem_keyNames hk))
  have hown : ∀ a, s'.ownView a label = s.ownView a label ∨ s'.ownView a label = m := fun a => by
    rw [hs', ownView_addToView]
    split
    · exact Or.inr rfl
    · exact Or.inl rfl
  have hself : s'.ownView t.name label = m := by rw [hs', ownView_addToView, if_pos rfl]
  -- The merge of the ancestors' keys is as far as it was, or complete if one of them is this type.
  have hancestors : addKeys [] (t.ancestors.reverse.flatMap (s'.ownView · label)) <+: m := by
    refine prefix_of_merged honce (fun a _ => hown a) (fun a ha k hk => hmem k ?_) ?_
    · exact List.mem_append_left _ (List.mem_append_left _ (List.mem_flatMap.2 ⟨a, ha, hk⟩))
    · rw [hm, viewSources, addKeys_append, addKeys_append]
      exact (prefix_addKeys _ _).trans (prefix_addKeys _ _)
  have hagain : addKeys [] (s'.viewSources t label keys) = m := by
    rw [viewSources, addKeys_append, addKeys_append, hself, addKeys_of_prefix hancestors honce]
    exact addKeys_of_mem fun k hk => hmem k (List.mem_append_right _ hk)
  rw [addToView_eq s', hagain, hs', addToView_eq, TypeTable.setEntry_setEntry]

/-- No view that a type lists names a key twice. -/
def ViewsOnce (s : Schema) : Prop := ∀ row ∈ s.views, ∀ v ∈ row.2, ListsOnce v.2

theorem ViewsOnce.register {s : Schema} (h : s.ViewsOnce) (r : Registration) :
    (s.register r).ViewsOnce := by
  cases r with
  | view t label keys =>
    rw [ViewsOnce, views_register_view]
    intro row hrow v hv
    rcases Assoc.eq_or_mem_of_mem_put hrow with rfl | hrow
    · rcases Assoc.eq_or_mem_of_mem_put hv with rfl | hv
      · exact listsOnce_nil.addKeys _
      · cases hget : s.views.get? (normalize t.name) with
        | none => simp [hget] at hv
        | some entries => exact h _ (Assoc.mem_of_get? hget) v (by simpa [hget] using hv)
    · exact h row hrow v hv
  | clearView t label =>
    intro row hrow v hv
    obtain ⟨old, hold, rfl⟩ := List.mem_map.1 hrow
    refine h old hold v ?_
    split at hv
    · exact (List.mem_filter.1 hv).1
    · exact hv
  | _ => exact h

end Schema

/-- The registration changes what the type of this name lists in the view. -/
def Registration.RewritesView (name label : String) : Registration → Prop
  | .view t l _ => normalize name = normalize t.name ∧ label = l
  | .clearView t l => normalize name = normalize t.name ∧ label = l
  | _ => False

namespace Schema

theorem entryOf?_register {s : Schema} {r : Registration} {name label : String}
    (h : ¬ r.RewritesView name label) :
    (s.register r).views.entryOf? name label = s.views.entryOf? name label := by
  cases r with
  | view t l keys =>
    rw [views_register_view, TypeTable.entryOf?_setEntry]
    exact if_neg h
  | clearView t l =>
    simp only [register, clearView, TypeTable.entryOf?, Assoc.get?_adjust,
      EntityType.normalizedName]
    split
    · next hname =>
      have hlabel : label ≠ l := fun hl => h ⟨hname, hl⟩
      cases s.views.get? (normalize name) <;> simp [Assoc.get?_without, hlabel]
    · rfl
  | _ => rfl

/-- What a type lists stays, through registrations that are not about this view of this type. -/
theorem entryOf?_foldl_register {s : Schema} {rs : List Registration} {name label : String}
    (h : ∀ r ∈ rs, ¬ r.RewritesView name label) :
    (rs.foldl register s).views.entryOf? name label = s.views.entryOf? name label := by
  induction rs generalizing s with
  | nil => rfl
  | cons r rs ih =>
    obtain ⟨hr, hrs⟩ := List.forall_mem_cons.1 h
    rw [List.foldl_cons, ih hrs, entryOf?_register hr]

end Schema

/-! ### Views of a schema that was built from registrations -/

namespace SchemaDraft

/-- After any registrations, every view names a key once. Adding keys makes the view what the
ancestors list then, root first, what the type listed and the new keys, the first of each name, so
that each of these names is there; adding them again changes nothing. A view that a type has of its
own is what the type lists in it, and stays so through any registrations, of its ancestors too, until
it is changed or cleared itself. -/
theorem views_are_snapshots (locks : LockTable) (rs : List Registration) (type : EntityType)
    (label : String) (keys : List PropertyKey) :
    let s := (ofRegistrations locks rs).schema
    let s' := s.register (.view type label keys)
    (∀ row ∈ s.views, ∀ v ∈ row.2, ListsOnce v.2) ∧
      s'.view type label = (s.viewSources type label keys).eraseDups ∧
      (∀ k ∈ s.viewSources type label keys, k.name ∈ keyNames (s'.view type label)) ∧
      s'.register (.view type label keys) = s' ∧
      ∀ (other : EntityType) label' own (later : List Registration),
        s.views.entryOf? other.name label' = some own →
        (∀ r ∈ later, ¬ r.RewritesView other.name label') →
          s.view other label' = own ∧ (later.foldl Schema.register s).view other label' = own := by
  intro s s'
  have hview : s'.view type label = addKeys [] (s.viewSources type label keys) := by
    refine Schema.view_of_entry ?_
    rw [Schema.views_register_view, TypeTable.entryOf?_setEntry, if_pos ⟨rfl, rfl⟩]
  refine ⟨?_, by rw [hview, addKeys_nil], ?_, Schema.addToView_addToView s type label keys, ?_⟩
  · have honce : s.ViewsOnce := by
      rw [show s = _ from schema_ofRegistrations locks rs]
      exact List.foldlRecOn rs Schema.register (by simp [Schema.ViewsOnce])
        fun s hs r _ => hs.register r
    exact honce
  · intro k hk
    rw [hview, mem_keyNames_addKeys]
    exact Or.inr (name_mem_keyNames hk)
  · intro other label' own later hown hlater
    exact ⟨Schema.view_of_entry hown,
      Schema.view_of_entry ((Schema.entryOf?_foldl_register hlater).trans hown)⟩

/-- A schema in which persons show their names, and users, who are persons, their logins too. -/
def profiles : List Registration :=
  [.view (.root "Person") "ui" [.named "name"], .view ⟨"User", ["Person"]⟩ "ui" [.named "login"]]

/-- Persons show their addresses from now on, in the second place; users do not. -/
theorem views_are_snapshots_profiles :
    let s := (ofRegistrations {} profiles).schema
    let addresses : Registration := .view (.root "Person") "ui" [.named "email"]
    s.views.entryOf? "User" "ui" = some [.named "name", .named "login"] ∧
      (∀ r ∈ [addresses], ¬ r.RewritesView "User" "ui") ∧
      (s.register addresses).view (.root "Person") "ui" = [.named "name", .named "email"] ∧
      ([addresses].foldl Schema.register s).view ⟨"User", ["Person"]⟩ "ui" =
        [.named "name", .named "login"] := by
  intro s addresses
  obtain ⟨-, hview, -, -, hkept⟩ :=
    views_are_snapshots {} profiles (.root "Person") "ui" [.named "email"]
  have hown : s.views.entryOf? "User" "ui" = some [.named "name", .named "login"] := rfl
  have hlater : ∀ r ∈ [addresses], ¬ r.RewritesView "User" "ui" := by
    intro r hr
    obtain rfl := List.mem_singleton.1 hr
    rintro ⟨hname, -⟩
    exact absurd hname (by decide)
  exact ⟨hown, hlater, hview, (hkept ⟨"User", ["Person"]⟩ "ui" _ _ hown hlater).2⟩

end SchemaDraft
end EntityGraph
