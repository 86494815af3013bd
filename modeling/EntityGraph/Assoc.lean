/-!
Tables as association lists. A row is found by its key; a new row goes in front of the first larger
key, so a table built by `put` lists its rows in increasing key order.

Main statements: `get?_put`, `get?_without` and `get?_adjust` say what each change does to the
lookup.
-/

namespace EntityGraph

/-- Rows of a key and what is stored under it. -/
abbrev Assoc (κ α : Type) := List (κ × α)

namespace Assoc
variable {κ α β : Type}

/-- The first value stored under `k`. -/
def get? [DecidableEq κ] : Assoc κ α → κ → Option α
  | [], _ => none
  | (j, a) :: t, k => if j = k then some a else get? t k

/-- Stores `a` under `k`, in place of what was there. -/
def put [DecidableEq κ] [LT κ] [DecidableLT κ] : Assoc κ α → κ → α → Assoc κ α
  | [], k, a => [(k, a)]
  | (j, b) :: t, k, a =>
    if j = k then (k, a) :: t else if k < j then (k, a) :: (j, b) :: t else (j, b) :: put t k a

/-- Forgets whatever is stored under `k`. -/
def without [DecidableEq κ] (t : Assoc κ α) (k : κ) : Assoc κ α := t.filter (·.1 ≠ k)

/-- Changes the value under `k`, if there is one. -/
def adjust [DecidableEq κ] (t : Assoc κ α) (k : κ) (f : α → α) : Assoc κ α :=
  t.map fun r => if r.1 = k then (r.1, f r.2) else r

/-- Some value is stored under `k`. -/
def has [DecidableEq κ] (t : Assoc κ α) (k : κ) : Bool := (t.get? k).isSome

/-- The rows from the first key on that is not smaller than `k`. -/
def startingAt [LT κ] [DecidableLT κ] (t : Assoc κ α) (k : κ) : Assoc κ α := t.dropWhile (·.1 < k)

/-- The keys, in row order. -/
def keys (t : Assoc κ α) : List κ := t.map (·.1)

/-- The stored values, in row order. -/
def values (t : Assoc κ α) : List α := t.map (·.2)

/-- The table of the given rows; of two rows with one key the later counts. -/
def ofRows [DecidableEq κ] [LT κ] [DecidableLT κ] (rows : List (κ × α)) : Assoc κ α :=
  rows.foldl (fun t r => t.put r.1 r.2) []

/-- Rows stand in strictly increasing key order. -/
def Ordered [LT κ] (t : Assoc κ α) : Prop := t.Pairwise (·.1 < ·.1)

section Lookup
variable [DecidableEq κ]

@[simp] theorem get?_nil (k : κ) : get? ([] : Assoc κ α) k = none := rfl

theorem get?_cons (j k : κ) (a : α) (t : Assoc κ α) :
    get? ((j, a) :: t) k = if j = k then some a else get? t k := rfl

theorem get?_put [LT κ] [DecidableLT κ] (t : Assoc κ α) (k : κ) (a : α) (j : κ) :
    (t.put k a).get? j = if j = k then some a else t.get? j := by
  induction t with
  | nil => grind [put, get?]
  | cons r t ih => grind [put, get?]

theorem get?_without (t : Assoc κ α) (k j : κ) :
    (t.without k).get? j = if j = k then none else t.get? j := by
  induction t with
  | nil => simp [without]
  | cons r t ih => simp only [without, List.filter_cons] at ih ⊢; grind [get?]

theorem get?_adjust (t : Assoc κ α) (k : κ) (f : α → α) (j : κ) :
    (t.adjust k f).get? j = if j = k then (t.get? j).map f else t.get? j := by
  induction t with
  | nil => simp [adjust]
  | cons r t ih => simp only [adjust, List.map_cons] at ih ⊢; grind [get?]

theorem has_eq_true_iff (t : Assoc κ α) (k : κ) : t.has k = true ↔ ∃ a, t.get? k = some a := by
  simp [has, Option.isSome_iff_exists]

end Lookup
end Assoc

/-- Adds `k` to a list in increasing order, unless it is there. -/
def addOrdered {κ : Type} [DecidableEq κ] [LT κ] [DecidableLT κ] : List κ → κ → List κ
  | [], k => [k]
  | j :: t, k => if j = k then j :: t else if k < j then k :: j :: t else j :: addOrdered t k

theorem mem_addOrdered {κ : Type} [DecidableEq κ] [LT κ] [DecidableLT κ] (l : List κ) (k j : κ) :
    j ∈ addOrdered l k ↔ j = k ∨ j ∈ l := by
  induction l with
  | nil => simp [addOrdered]
  | cons i t ih =>
    simp only [addOrdered]
    split
    · simp_all
    · split <;> simp_all [or_left_comm]

/-- The distinct members of a list, in increasing order. -/
def inOrder {κ : Type} [DecidableEq κ] [LT κ] [DecidableLT κ] (l : List κ) : List κ :=
  l.foldl addOrdered []

end EntityGraph
