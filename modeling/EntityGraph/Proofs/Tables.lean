import EntityGraph.Node
import Mathlib.Data.List.Perm.Subperm
import Mathlib.Data.String.Basic

/-!
Tables in key order. An ordered table is determined by its lookups, and the changes that tables are
made of keep the order. Tables of nodes, relationships, transactions and properties are all ordered.

Main statements: `Ordered.ext` — two ordered tables with the same lookups are equal;
`Ordered.has_of_length` — an ordered table that has no key beyond those of another and as many rows
has the same keys.
-/

namespace EntityGraph

instance : IsStrictTotalOrder NodeId (· < ·) where
  trichotomous := fun ⟨_⟩ ⟨_⟩ h h' =>
    congrArg NodeId.mk (Nat.le_antisymm (not_lt.1 h') (not_lt.1 h))
  irrefl := fun a => Nat.lt_irrefl a.raw
  trans := fun _ _ _ h h' => Nat.lt_trans h h'

instance : IsStrictTotalOrder RelationshipId (· < ·) where
  trichotomous := fun ⟨_⟩ ⟨_⟩ h h' =>
    congrArg RelationshipId.mk (Nat.le_antisymm (not_lt.1 h') (not_lt.1 h))
  irrefl := fun a => Nat.lt_irrefl a.raw
  trans := fun _ _ _ h h' => Nat.lt_trans h h'

namespace Assoc
variable {κ α : Type} [DecidableEq κ]

theorem mem_of_get? {t : Assoc κ α} {k : κ} {a : α} (h : t.get? k = some a) : (k, a) ∈ t := by
  induction t with
  | nil => simp at h
  | cons r t ih =>
    rw [get?_cons] at h
    split at h
    · next e => exact List.mem_cons.2 (Or.inl (Prod.ext e.symm (Option.some.inj h).symm))
    · exact List.mem_cons_of_mem _ (ih h)

theorem get?_eq_none_iff (t : Assoc κ α) (k : κ) : t.get? k = none ↔ ∀ r ∈ t, r.1 ≠ k := by
  induction t with
  | nil => simp
  | cons r t ih =>
    rw [get?_cons, List.forall_mem_cons, ← ih]
    by_cases h : r.1 = k <;> simp [h]

theorem has_eq_false_iff (t : Assoc κ α) (k : κ) : t.has k = false ↔ t.get? k = none := by
  simp [has]

/-- Copies the row of a key from another table, if it has one. -/
def copy [LT κ] [DecidableLT κ] (source t : Assoc κ α) (k : κ) : Assoc κ α :=
  match source.get? k with
  | some a => t.put k a
  | none => t

theorem get?_copy [LT κ] [DecidableLT κ] (source t : Assoc κ α) (k j : κ) :
    (copy source t k).get? j =
      if j = k then (source.get? j).or (t.get? j) else t.get? j := by
  rw [copy]
  cases hs : source.get? k with
  | none => by_cases hj : j = k <;> simp [hj, hs]
  | some a => by_cases hj : j = k <;> simp [get?_put, hj, hs]

theorem get?_foldl_copy [LT κ] [DecidableLT κ] (source : Assoc κ α) (ks : List κ)
    (t : Assoc κ α) (j : κ) :
    get? (ks.foldl (copy source) t) j =
      if j ∈ ks then (source.get? j).or (t.get? j) else t.get? j := by
  induction ks generalizing t with
  | nil => simp
  | cons k ks ih =>
    rw [List.foldl_cons, ih, get?_copy]
    by_cases hj : j = k
    · cases hs : source.get? j <;> simp [hj]
    · simp [hj]

theorem get?_foldl_without (ks : List κ) (t : Assoc κ α) (j : κ) :
    get? (ks.foldl without t) j = if j ∈ ks then none else t.get? j := by
  induction ks generalizing t with
  | nil => simp
  | cons k ks ih =>
    rw [List.foldl_cons, ih, get?_without]
    by_cases hj : j = k <;> simp [hj]

theorem eq_or_mem_of_mem_put [LT κ] [DecidableLT κ] {t : Assoc κ α} {k : κ} {a : α} {r : κ × α}
    (h : r ∈ t.put k a) : r = (k, a) ∨ r ∈ t := by
  induction t with
  | nil => simpa [put] using h
  | cons s t ih => grind [put]

theorem put_put [LT κ] [DecidableLT κ] (t : Assoc κ α) (k : κ) (a : α) :
    (t.put k a).put k a = t.put k a := by
  induction t with
  | nil => simp [put]
  | cons r t ih => grind [put]

theorem without_without (t : Assoc κ α) (k : κ) : (t.without k).without k = t.without k := by
  simp [without]

theorem adjust_adjust (t : Assoc κ α) (k : κ) (f : α → α) (hf : ∀ a, f (f a) = f a) :
    (t.adjust k f).adjust k f = t.adjust k f := by
  rw [adjust, adjust, List.map_map]
  refine List.map_congr_left fun r _ => ?_
  by_cases h : r.1 = k <;> simp [h, hf]

section Order
variable [LT κ]

omit [DecidableEq κ] in
theorem ordered_nil : Ordered ([] : Assoc κ α) := List.Pairwise.nil

omit [DecidableEq κ] in
theorem Ordered.filter {t : Assoc κ α} (h : t.Ordered) (p : κ × α → Bool) :
    Ordered (t.filter p) := List.Pairwise.filter p h

theorem Ordered.without {t : Assoc κ α} (h : t.Ordered) (k : κ) : (t.without k).Ordered :=
  h.filter _

omit [DecidableEq κ] in
theorem Ordered.foldl {β : Type} {t : Assoc κ α} (h : t.Ordered) (f : Assoc κ α → β → Assoc κ α)
    (hf : ∀ t b, t.Ordered → (f t b).Ordered) (l : List β) : Ordered (l.foldl f t) :=
  List.foldlRecOn l f h fun t ht b _ => hf t b ht

theorem Ordered.foldl_without {t : Assoc κ α} (h : t.Ordered) (ks : List κ) :
    Ordered (ks.foldl Assoc.without t) := h.foldl _ (fun _ k ht => ht.without k) ks

theorem Ordered.adjust {t : Assoc κ α} (h : t.Ordered) (k : κ) (f : α → α) :
    (t.adjust k f).Ordered := by
  refine List.pairwise_map.2 (h.imp ?_)
  intro a b hab
  by_cases ha : a.1 = k <;> by_cases hb : b.1 = k <;> simp_all

omit [DecidableEq κ] in
/-- The order of rows is that of their keys. -/
theorem ordered_iff_keys (t : Assoc κ α) : t.Ordered ↔ t.keys.Pairwise (· < ·) :=
  List.pairwise_map.symm

omit [DecidableEq κ] in
theorem Ordered.of_keys_eq {β : Type} {t : Assoc κ α} {u : Assoc κ β} (h : t.Ordered)
    (hkeys : u.keys = t.keys) : u.Ordered := by
  rw [ordered_iff_keys, hkeys, ← ordered_iff_keys]
  exact h

variable [IsStrictTotalOrder κ (· < ·)]

theorem Ordered.get?_of_mem {t : Assoc κ α} (h : t.Ordered) {k : κ} {a : α} (hm : (k, a) ∈ t) :
    t.get? k = some a := by
  induction t with
  | nil => simp at hm
  | cons r t ih =>
    obtain ⟨hr, ht⟩ := List.pairwise_cons.1 h
    rw [get?_cons]
    rcases List.mem_cons.1 hm with e | hm
    · simp [← e]
    · have hlt : r.1 < k := hr (k, a) hm
      have hne : r.1 ≠ k := fun e => irrefl_of (· < ·) k (e ▸ hlt)
      rw [if_neg hne]
      exact ih ht hm

theorem Ordered.mem_iff {t : Assoc κ α} (h : t.Ordered) {k : κ} {a : α} :
    (k, a) ∈ t ↔ t.get? k = some a := ⟨h.get?_of_mem, mem_of_get?⟩

theorem Ordered.mem_values_iff {t : Assoc κ α} (h : t.Ordered) {a : α} :
    a ∈ t.values ↔ ∃ k, t.get? k = some a := by
  simp [values, ← h.mem_iff]

theorem Ordered.put [DecidableLT κ] {t : Assoc κ α} (h : t.Ordered) (k : κ) (a : α) :
    (t.put k a).Ordered := by
  induction t with
  | nil => simp [Assoc.put, Ordered]
  | cons r t ih =>
    obtain ⟨hr, ht⟩ := List.pairwise_cons.1 h
    rw [Assoc.put]
    split
    · next e => exact List.pairwise_cons.2 ⟨fun s hs => e ▸ hr s hs, ht⟩
    · next hne =>
      split
      · next hlt =>
        refine List.pairwise_cons.2 ⟨fun s hs => ?_, h⟩
        rcases List.mem_cons.1 hs with rfl | hs
        · exact hlt
        · exact trans_of (· < ·) hlt (hr s hs)
      · next hnlt =>
        have hrk : r.1 < k := ((trichotomous_of (· < ·) r.1 k).resolve_right (by tauto))
        refine List.pairwise_cons.2 ⟨fun s hs => ?_, ih ht⟩
        have hget := (ih ht).get?_of_mem hs
        rw [get?_put] at hget
        split at hget
        · next e => exact e ▸ hrk
        · exact hr s (mem_of_get? hget)

omit [DecidableEq κ] in
/-- No row from `k` on has a smaller key. -/
theorem Ordered.not_lt_of_mem_startingAt [DecidableLT κ] {t : Assoc κ α} (h : t.Ordered) {k : κ}
    {r : κ × α} (hr : r ∈ t.startingAt k) : ¬ r.1 < k := by
  induction t with
  | nil => simp [startingAt] at hr
  | cons s t ih =>
    obtain ⟨hs, ht⟩ := List.pairwise_cons.1 h
    rw [startingAt, List.dropWhile_cons] at hr
    split at hr
    · exact ih ht hr
    · next hfirst =>
      have hfirst : ¬ s.1 < k := by simpa using hfirst
      rcases List.mem_cons.1 hr with rfl | hr
      · exact hfirst
      · exact fun hlt => hfirst (trans_of (· < ·) (hs r hr) hlt)

omit [DecidableEq κ] in
theorem Ordered.keys_nodup {t : Assoc κ α} (h : t.Ordered) : t.keys.Nodup := by
  refine List.pairwise_map.2 (h.imp fun {a b} hab e => ?_)
  rw [e] at hab
  exact irrefl_of (· < ·) b.1 hab

omit [DecidableEq κ] in
theorem Ordered.nodup {t : Assoc κ α} (h : t.Ordered) : t.Nodup :=
  (List.pairwise_map.1 h.keys_nodup).imp fun hne e => hne (congrArg Prod.fst e)

theorem Ordered.copy [DecidableLT κ] (source : Assoc κ α) {t : Assoc κ α} (h : t.Ordered) (k : κ) :
    (Assoc.copy source t k).Ordered := by
  rw [Assoc.copy]
  split
  · exact h.put _ _
  · exact h

theorem Ordered.foldl_copy [DecidableLT κ] (source : Assoc κ α) {t : Assoc κ α} (h : t.Ordered)
    (ks : List κ) : Ordered (ks.foldl (Assoc.copy source) t) :=
  h.foldl _ (fun _ k ht => ht.copy source k) ks

theorem Ordered.ext {t u : Assoc κ α} (ht : t.Ordered) (hu : u.Ordered)
    (h : ∀ k, t.get? k = u.get? k) : t = u := by
  have hmem : ∀ r, r ∈ t ↔ r ∈ u := fun ⟨k, a⟩ => by rw [ht.mem_iff, hu.mem_iff, h k]
  have hperm := (List.perm_ext_iff_of_nodup ht.nodup hu.nodup).2 hmem
  refine List.Perm.eq_of_pairwise (fun a b _ _ hab hba => ?_) ht hu hperm
  exact absurd (trans_of (· < ·) hab hba) (irrefl_of (· < ·) a.1)

omit [LT κ] [IsStrictTotalOrder κ (· < ·)] in
theorem mem_keys_iff (t : Assoc κ α) (k : κ) : k ∈ t.keys ↔ t.has k = true := by
  rw [← Bool.not_eq_false, has_eq_false_iff, get?_eq_none_iff]
  simp [keys]

theorem Ordered.has_of_length {β : Type} {t : Assoc κ α} {u : Assoc κ β} (ht : t.Ordered)
    (h : ∀ k, t.has k = true → u.has k = true) (hlen : u.length ≤ t.length) (k : κ)
    (hk : u.has k = true) : t.has k = true := by
  have hsub : t.keys ⊆ u.keys := fun j hj => (mem_keys_iff u j).2 (h j ((mem_keys_iff t j).1 hj))
  have hperm := (List.subperm_of_subset ht.keys_nodup hsub).perm_of_length_le (by simpa [keys])
  exact (mem_keys_iff t k).1 (hperm.mem_iff.2 ((mem_keys_iff u k).2 hk))

omit [IsStrictTotalOrder κ (· < ·)] in
theorem get?_ofRows_map [DecidableLT κ] (l : List κ) (f : κ → α) (k : κ) :
    (ofRows (l.map fun j => (j, f j))).get? k = if k ∈ l then some (f k) else none := by
  suffices h : ∀ (l : List κ) (t : Assoc κ α),
      get? ((l.map fun j => (j, f j)).foldl (fun t r => t.put r.1 r.2) t) k
        = if k ∈ l then some (f k) else t.get? k by
    simpa [ofRows] using h l []
  intro l
  induction l with
  | nil => simp
  | cons j l ih =>
    intro t
    rw [List.map_cons, List.foldl_cons, ih, get?_put]
    by_cases hk : k ∈ l <;> by_cases hj : k = j <;> simp [hk, hj]

omit [IsStrictTotalOrder κ (· < ·)] in
theorem get?_ofRows_same [DecidableLT κ] (l : List κ) (a : α) (k : κ) :
    (ofRows (l.map (·, a))).get? k = if k ∈ l then some a else none :=
  get?_ofRows_map l (fun _ => a) k

theorem ordered_ofRows [DecidableLT κ] (rows : List (κ × α)) : (ofRows rows).Ordered :=
  ordered_nil.foldl _ (fun _ r ht => ht.put r.1 r.2) rows

/-- A row with the greatest key goes to the end. -/
theorem put_of_forall_lt [DecidableLT κ] {t : Assoc κ α} {k : κ} {a : α}
    (h : ∀ r ∈ t, r.1 < k) : t.put k a = t ++ [(k, a)] := by
  induction t with
  | nil => rfl
  | cons r t ih =>
    obtain ⟨hr, ht⟩ := List.forall_mem_cons.1 h
    have hne : r.1 ≠ k := fun e => irrefl_of (· < ·) k (e ▸ hr)
    have hnlt : ¬ k < r.1 := fun hlt => irrefl_of (· < ·) k (trans_of (· < ·) hlt hr)
    rw [Assoc.put, if_neg hne, if_neg hnlt, ih ht, List.cons_append]

/-- Rows that stand in order are a table already. -/
theorem Ordered.ofRows_eq [DecidableLT κ] {rows : Assoc κ α} (h : rows.Ordered) :
    ofRows rows = rows := by
  suffices hfold : ∀ t : Assoc κ α, Ordered (t ++ rows) →
      rows.foldl (fun t r => t.put r.1 r.2) t = t ++ rows from hfold [] h
  clear h
  induction rows with
  | nil => simp
  | cons r rows ih =>
    intro t ht
    have hlast : ∀ s ∈ t, s.1 < r.1 := fun s hs =>
      (List.pairwise_append.1 ht).2.2 s hs r (List.mem_cons_self ..)
    rw [List.append_cons] at ht ⊢
    rw [List.foldl_cons, put_of_forall_lt hlast]
    exact ih _ ht

end Order
end Assoc

/-- What a node is shown to hold under some keys. -/
theorem Node.get?_ofRows_propertyOrNull (node : Node) (keys : List PropertyKey) (name : String) :
    (Assoc.ofRows (keys.map fun k => (k.name, node.propertyOrNull k.name))).get? name =
      if name ∈ keys.map (·.name) then some (node.propertyOrNull name) else none := by
  have hrows : (keys.map fun k => (k.name, node.propertyOrNull k.name)) =
      (keys.map (·.name)).map fun n => (n, node.propertyOrNull n) := by simp
  rw [hrows, Assoc.get?_ofRows_map]

end EntityGraph
