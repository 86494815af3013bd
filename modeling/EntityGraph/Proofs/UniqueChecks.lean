import EntityGraph.Proofs.EqualValues
import EntityGraph.Proofs.WorkingCopy

/-!
What a check for uniqueness finds out. A value passes if no other node of the scope holds it: of the
nodes that the transaction touched none in its working copy, of all others none in the committed
state, and none for which another transaction claims it.

Main statements: `check_unique` — what a passed check says, and that the value is then claimed if
its scope has a lock; `claim?_add` and the lemmas beside it say what happens to claims.
-/

namespace EntityGraph

/-! ### Scopes -/

/-- The scope in which values of a key must be unique among nodes of a type, if they must be. -/
def Schema.scope? (s : Schema) (t : EntityType) (key : String) : Option UniqueScope :=
  (s.validators.findInChain t key).bind fun (name, kind) => kind.scope? name

/-- The name of the type that a lookup of a scope asks for. -/
def UniqueScope.type? : UniqueScope → Option String
  | .type name => some name
  | .global => none

namespace GraphState

/-- The type of a node. -/
def type? (g : GraphState) (s : Schema) (id : NodeId) : Option EntityType :=
  (g.node? s id).map (·.type)

/-- The scope in which the value of a property of a node must be unique, if it must be. -/
def scope? (g : GraphState) (s : Schema) (id : NodeId) (key : String) : Option UniqueScope :=
  (g.type? s id).bind (s.scope? · key)

/-- No two nodes hold equal values under a key in one scope of unique values. -/
def Unique (s : Schema) (g : GraphState) : Prop :=
  ∀ σ m n key u v, m ≠ n → g.scope? s m key = some σ → g.scope? s n key = some σ →
    g.value? m key = some u → g.value? n key = some v → (u == v) = false

theorem has_of_type? {g : GraphState} {s : Schema} {id : NodeId} {type : EntityType}
    (h : g.type? s id = some type) : g.nodes.has id = true := by
  obtain ⟨node, hnode, -⟩ := Option.map_eq_some_iff.1 h
  exact has_of_node? hnode

theorem type?_of_node {g : GraphState} {s : Schema} {id : NodeId} {node : Node}
    (h : g.node? s id = some node) : g.type? s id = some node.type := by rw [type?, h]; rfl

/-- The type of a node is read off its type property. -/
theorem type?_eq (g : GraphState) (s : Schema) (id : NodeId) :
    g.type? s id =
      match g.value? id typeProperty with
      | some (.string raw) => s.type? raw
      | _ => none := by
  rw [type?, node?, value?]
  cases g.nodes.get? id with
  | none => rfl
  | some p =>
    rw [Option.bind_some, Option.bind_some, Schema.typed?, Option.map_map]
    exact congrFun Option.map_id (s.typeOf? p)

theorem type?_congr {g g' : GraphState} {s : Schema} {id : NodeId}
    (h : g.value? id typeProperty = g'.value? id typeProperty) : g.type? s id = g'.type? s id := by
  rw [type?_eq, type?_eq, h]

theorem scope?_congr {g g' : GraphState} {s : Schema} {id : NodeId}
    (h : g.value? id typeProperty = g'.value? id typeProperty) (key : String) :
    g.scope? s id key = g'.scope? s id key := by
  rw [scope?, scope?, type?_congr h]

theorem scope?_of_node {g : GraphState} {s : Schema} {id : NodeId} {node : Node}
    (h : g.node? s id = some node) (key : String) :
    g.scope? s id key = s.scope? node.type key := by
  rw [scope?, type?_of_node h, Option.bind_some]

end GraphState

/-- What a lookup along the chain of a type finds. -/
theorem entryOf?_of_findInChain {α : Type} {t : TypeTable α} {type : EntityType}
    {key name : String} {a : α} (h : t.findInChain type key = some (name, a)) :
    name ∈ type.chain ∧ t.entryOf? name key = some a := by
  obtain ⟨j, hj, he⟩ := List.exists_of_findSome?_eq_some h
  obtain ⟨b, hb, he⟩ := Option.map_eq_some_iff.1 he
  obtain ⟨rfl, rfl⟩ := Prod.mk.inj he
  exact ⟨hj, hb⟩

/-- A node of a scope is one that a lookup of the scope asks for. -/
theorem Schema.scope?_chain {s : Schema} {type : EntityType} {key : String} {σ : UniqueScope}
    (h : s.scope? type key = some σ) : σ.type?.all type.chain.contains = true := by
  obtain ⟨⟨name, kind⟩, hfind, hkind⟩ := Option.bind_eq_some_iff.1 h
  have hname := (entryOf?_of_findInChain hfind).1
  cases kind <;> simp only [ValidatorKind.scope?, Option.some.injEq, reduceCtorEq] at hkind
  · subst hkind
    rfl
  · subst hkind
    simpa [UniqueScope.type?] using hname

theorem Schema.validator?_of_scope {s : Schema} {type : EntityType} {key : PropertyKey}
    {σ : UniqueScope} (h : s.scope? type key.name = some σ) (caller : Caller) :
    s.validator? type key caller = some (.unique σ) := by
  obtain ⟨⟨name, kind⟩, hfind, hkind⟩ := Option.bind_eq_some_iff.1 h
  rw [validator?, hfind, Option.bind_some]
  cases kind <;> simp only [ValidatorKind.scope?, Option.some.injEq, reduceCtorEq] at hkind
  · subst hkind
    rfl
  · subst hkind
    rfl

/-! ### Who holds a value -/

/-- Two optional values are equal if they are there and equal. -/
theorem Properties.holds_of_get? {p : Properties} {key : String} {u v : Value}
    (h : p.get? key = some u) (he : (u == v) = true) : p.holds key v = true := by
  rw [holds, h]
  exact he

theorem GraphState.mem_holders_of_type {g : GraphState} {s : Schema} {id : NodeId}
    {key : PropertyKey} {named : Option String} {type : EntityType} {u v : Value}
    (htype : g.type? s id = some type) (hnamed : named.all type.chain.contains = true)
    (hu : g.value? id key.name = some u) (he : (u == v) = true) : id ∈ g.holders s named key v := by
  obtain ⟨node, hnode, rfl⟩ := Option.map_eq_some_iff.1 htype
  obtain ⟨p, hp, htyped⟩ := Option.bind_eq_some_iff.1 hnode
  obtain ⟨type, -, rfl⟩ := Option.map_eq_some_iff.1 htyped
  rw [value?_of_node hp] at hu
  refine List.mem_map.2 ⟨⟨id, type, p⟩, List.mem_filter.2 ⟨?_, ?_⟩, rfl⟩
  · exact List.mem_filterMap.2 ⟨(id, p), Assoc.mem_of_get? hp, htyped⟩
  · rw [Node.holds, hnamed, Properties.holds_of_get? hu he]
    rfl

theorem GraphState.mem_holders {g : GraphState} {s : Schema} {id : NodeId} {key : PropertyKey}
    {σ : UniqueScope} {u v : Value} (hσ : g.scope? s id key.name = some σ)
    (hu : g.value? id key.name = some u) (he : (u == v) = true) :
    id ∈ g.holders s σ.type? key v := by
  obtain ⟨type, htype, hscope⟩ := Option.bind_eq_some_iff.1 hσ
  exact mem_holders_of_type htype (Schema.scope?_chain hscope) hu he

namespace ClaimTable

theorem mem_holders {t : ClaimTable} {txn other : TxnId} {id : NodeId} {key : PropertyKey}
    {c : Claim} {type : Option String} {v : Value} (hc : t.claim? other id key.name = some c)
    (hne : other ≠ txn) (he : (c.value == v) = true)
    (htype : type.all c.type.chain.contains = true) : id ∈ t.holders txn type key v := by
  obtain ⟨byKey, hbyKey, hkey⟩ := Option.bind_eq_some_iff.1 hc
  obtain ⟨byNode, hbyNode, hnode⟩ := Option.bind_eq_some_iff.1 hbyKey
  refine List.mem_flatMap.2 ⟨(other, byNode), ?_, List.mem_filterMap.2 ⟨(id, byKey), ?_, ?_⟩⟩
  · exact List.mem_filter.2 ⟨Assoc.mem_of_get? hbyNode, decide_eq_true hne⟩
  · exact Assoc.mem_of_get? hnode
  · simp only [hkey, he, htype, Bool.and_self, if_true]

/-! ### What happens to claims -/

theorem claim?_add (t : ClaimTable) (txn : TxnId) (node : NodeId) (key : String) (c : Claim)
    (txn' : TxnId) (node' : NodeId) (key' : String) :
    (t.add txn node key c).claim? txn' node' key' =
      if txn' = txn ∧ node' = node ∧ key' = key then some c else t.claim? txn' node' key' := by
  rw [claim?, add, Assoc.get?_put, claim?]
  by_cases ht : txn' = txn
  · subst ht
    rw [if_pos rfl, Option.bind_some, Assoc.get?_put]
    by_cases hn : node' = node
    · subst hn
      rw [if_pos rfl, Option.bind_some, Assoc.get?_put]
      by_cases hk : key' = key
      · simp [hk]
      · cases hrow : Assoc.get? t txn' with
        | none => simp [hk]
        | some byNode => cases hcell : Assoc.get? byNode node' <;> simp [hk, hcell]
    · cases hrow : Assoc.get? t txn' <;> simp [hn]
  · simp [ht]

theorem claim?_release (t : ClaimTable) (txn : TxnId) (node : NodeId) (key : String)
    (txn' : TxnId) (node' : NodeId) (key' : String) :
    (t.release txn node key).claim? txn' node' key' =
      if txn' = txn ∧ node' = node ∧ key' = key then none else t.claim? txn' node' key' := by
  rw [claim?, release, Assoc.get?_adjust, claim?]
  by_cases ht : txn' = txn
  · subst ht
    rw [if_pos rfl]
    cases hrow : Assoc.get? t txn' with
    | none => simp
    | some byNode =>
      simp only [Option.map_some, Option.bind_some, Assoc.get?_adjust]
      by_cases hn : node' = node
      · subst hn
        cases hcell : Assoc.get? byNode node' with
        | none => simp
        | some byKey => by_cases hk : key' = key <;> simp [Assoc.get?_without, hk]
      · simp [hn]
  · simp [ht]

theorem claim?_releaseNode (t : ClaimTable) (txn : TxnId) (node : NodeId) (txn' : TxnId)
    (node' : NodeId) (key' : String) :
    (t.releaseNode txn node).claim? txn' node' key' =
      if txn' = txn ∧ node' = node then none else t.claim? txn' node' key' := by
  rw [claim?, releaseNode, Assoc.get?_adjust, claim?]
  by_cases ht : txn' = txn
  · subst ht
    rw [if_pos rfl]
    cases hrow : Assoc.get? t txn' with
    | none => simp
    | some byNode => by_cases hn : node' = node <;> simp [Assoc.get?_without, hn]
  · simp [ht]

theorem claim?_without (t : ClaimTable) (txn txn' : TxnId) (node' : NodeId) (key' : String) :
    claim? (Assoc.without t txn) txn' node' key' =
      if txn' = txn then none else t.claim? txn' node' key' := by
  rw [claim?, Assoc.get?_without, claim?]
  split <;> rfl

end ClaimTable

/-! ### The locks that are registered -/

namespace LockTable

theorem held?_mark (t : LockTable) (l : Lock) (held : Bool) (m : Lock) :
    (t.mark l held).held? m = if m = l then (t.held? m).map fun _ => held else t.held? m := by
  rw [held?, held?, mark]
  induction t.entries with
  | nil => simp
  | cons e es ih =>
    rw [List.map_cons, List.lookup_cons, List.lookup_cons, ih]
    by_cases hm : m = l
    · subst hm
      by_cases he : e.1 = m
      · simp [he]
      · have hne : (m == e.1) = false := by simpa using Ne.symm he
        simp [he, hne]
    · have hne : (m == l) = false := by simpa using hm
      by_cases he : e.1 = l
      · simp [he, hm, hne]
      · simp [he, hm]

/-- Registered locks stay registered. -/
def Keeps (t t' : LockTable) : Prop := ∀ l, (t.held? l).isSome = true → (t'.held? l).isSome = true

theorem keeps_mark (t : LockTable) (l : Lock) (held : Bool) : Keeps t (t.mark l held) := by
  intro m hm
  rw [held?_mark]
  split
  · rw [Option.isSome_map]
    exact hm
  · exact hm

theorem keeps_releaseAll (t : LockTable) (ls : List Lock) : Keeps t (t.releaseAll ls) := by
  induction ls generalizing t with
  | nil => exact fun _ h => h
  | cons l ls ih => exact fun m hm => ih (t.release l) m (keeps_mark t l false m hm)

end LockTable

/-- Every scope of unique values has its lock. -/
def Schema.Locked (s : Schema) (locks : LockTable) : Prop :=
  ∀ raw type key σ, s.type? raw = some type → s.scope? type key = some σ →
    (locks.held? ⟨σ, key⟩).isSome = true

/-! ### Checks -/

/-- No check built by a factory makes the locks forget one of them. -/
def Schema.KeepsLocks (s : Schema) : Prop :=
  ∀ name f caller check, s.validatorFactories.get? name = some f → f caller = .ok check →
    ∀ c node key v p r c', check.validate c node key v p = some (r, c') →
      LockTable.Keeps c.locks c'.locks

/-- Values that pass have no other holder among those looked up. -/
theorem Validator.find?_of_checkHolders {σ : UniqueScope} {lookup : HolderLookup} {node : Node}
    {key : PropertyKey} {v : Value} {holders : List NodeId}
    (h : checkHolders σ lookup node key v = .ok ()) (hl : lookup σ.type? key v = .ok holders) :
    holders.find? (· ≠ node.id) = none := by
  have hrefuse : ∀ reason, refuse node key reason ≠ .ok () := fun reason => by simp [refuse]
  cases σ <;>
  · simp only [UniqueScope.type?] at hl
    simp only [checkHolders, bind, Except.bind, hl] at h
    split at h
    · exact absurd h (hrefuse _)
    · next hnone => exact hnone

/-- How a check for uniqueness ends that does not wait. -/
inductive Validator.UniqueEnd (σ : UniqueScope) (c : ValidationContext) (node : Node)
    (key : PropertyKey) (v : Value) : Except Failure Unit → ValidationContext → Prop
  | null (hv : v.isNull = true) : UniqueEnd σ c node key v (.ok ()) c
  /-- There is no lock to ask for. -/
  | unlocked {r} (hv : v.isNull = false) (hnone : c.locks.held? ⟨σ, key.name⟩ = none)
    (hcheck : checkHolders σ c.lookup node key v = r) : UniqueEnd σ c node key v r c
  | refused {e} (hv : v.isNull = false) (hfree : c.locks.held? ⟨σ, key.name⟩ = some false)
    (hcheck : checkHolders σ c.lookup node key v = .error e) :
    UniqueEnd σ c node key v (.error e) c
  | passed (hv : v.isNull = false) (hfree : c.locks.held? ⟨σ, key.name⟩ = some false)
    (hcheck : checkHolders σ c.lookup node key v = .ok ()) :
    UniqueEnd σ c node key v (.ok ()) (c.hold ⟨σ, key.name⟩)

theorem Validator.unique_end {σ : UniqueScope} {c c' : ValidationContext} {node : Node}
    {key : PropertyKey} {v : Value} {p : Option Value} {r : Except Failure Unit}
    (h : (Validator.unique σ).validate c node key v p = some (r, c')) :
    UniqueEnd σ c node key v r c' := by
  simp only [unique] at h
  split at h
  · next hv =>
    obtain ⟨rfl, rfl⟩ := Prod.mk.inj (Option.some.inj h)
    exact .null hv
  · next hv =>
    rw [Bool.not_eq_true] at hv
    split at h
    · next hnone =>
      obtain ⟨hcheck, rfl⟩ := Prod.mk.inj (Option.some.inj h)
      exact .unlocked hv hnone hcheck
    · simp at h
    · next hfree =>
      split at h
      · next hcheck =>
        obtain ⟨rfl, rfl⟩ := Prod.mk.inj (Option.some.inj h)
        exact .passed hv hfree hcheck
      · next hcheck =>
        obtain ⟨rfl, rfl⟩ := Prod.mk.inj (Option.some.inj h)
        exact .refused hv hfree hcheck

theorem Validator.unique_keeps {σ : UniqueScope} {c c' : ValidationContext} {node : Node}
    {key : PropertyKey} {v : Value} {p : Option Value} {r : Except Failure Unit}
    (h : (Validator.unique σ).validate c node key v p = some (r, c')) :
    LockTable.Keeps c.locks c'.locks := by
  cases unique_end h with
  | null | unlocked | refused => exact fun _ h => h
  | passed => exact LockTable.keeps_mark _ _ _

/-- A check is one for uniqueness, or takes no permit, or a factory built it. -/
theorem Schema.validator_cases {s : Schema} {type : EntityType} {key : PropertyKey}
    {caller : Caller} {check : Validator} (h : s.validator? type key caller = some check) :
    (∃ σ, check = .unique σ) ∨ (∃ f, check = .ofCheck f) ∨
      ∃ name f, s.validatorKind? type key = some (.named name) ∧
        s.validatorFactories.get? name = some f ∧ f caller = .ok check := by
  obtain ⟨⟨j, kind⟩, hfind, hbuild⟩ := Option.bind_eq_some_iff.1 h
  cases kind with
  | globalUniqueness => exact Or.inl ⟨_, (Option.some.inj hbuild).symm⟩
  | typeUniqueness => exact Or.inl ⟨_, (Option.some.inj hbuild).symm⟩
  | notEmpty => exact Or.inr (Or.inl ⟨_, (Option.some.inj hbuild).symm⟩)
  | matchesAny => exact Or.inr (Or.inl ⟨_, (Option.some.inj hbuild).symm⟩)
  | named name =>
    obtain ⟨f, hf, hok⟩ := Option.bind_eq_some_iff.1 hbuild
    refine Or.inr (Or.inr ⟨name, f, ?_, hf, ?_⟩)
    · rw [validatorKind?, TypeTable.inherited?, hfind]
      rfl
    · cases hr : f caller with
      | error e => simp [hr, Except.toOption] at hok
      | ok check' => rw [Option.some.inj ((congrArg Except.toOption hr).symm.trans hok)]

theorem Schema.validate_keeps {s : Schema} (hs : s.KeepsLocks) {c c' : ValidationContext}
    {node : Node} {key : PropertyKey} {v : Value} {r : Except Failure Unit}
    (h : s.validate c node key v = some (r, c')) : LockTable.Keeps c.locks c'.locks := by
  rw [validate] at h
  split at h
  · next check hcheck =>
    rcases validator_cases hcheck with ⟨σ, rfl⟩ | ⟨f, rfl⟩ | ⟨name, f, -, hf, hok⟩
    · exact Validator.unique_keeps h
    · obtain ⟨-, rfl⟩ := Prod.mk.inj (Option.some.inj h)
      exact fun _ h => h
    · exact hs name f c.caller check hf hok _ _ _ _ _ _ _ h
  · obtain ⟨-, rfl⟩ := Prod.mk.inj (Option.some.inj h)
    exact fun _ h => h

namespace Transaction
variable {g g' : Graph} {t : Transaction} {node : Node} {key : PropertyKey} {v : Value}
  {σ : UniqueScope} {r : Except Failure Unit}

theorem check_keeps (hs : g.schema.KeepsLocks) (h : t.check g node key v = some (r, g')) :
    LockTable.Keeps g.locks g'.locks := by
  obtain ⟨⟨r', context⟩, hvalidate, he⟩ := Option.map_eq_some_iff.1 h
  obtain ⟨-, rfl⟩ := Prod.mk.inj he
  intro l hl
  exact LockTable.keeps_releaseAll _ _ l (Schema.validate_keeps hs hvalidate l hl)

/-- A check that passes may claim the value, one that fails claims nothing. -/
theorem check_claims (h : t.check g node key v = some (r, g')) :
    g'.claims = g.claims ∨
      r = .ok () ∧ g'.claims = g.claims.add t.txn node.id key.name ⟨node.type, v⟩ := by
  obtain ⟨⟨r', context⟩, -, he⟩ := Option.map_eq_some_iff.1 h
  obtain ⟨rfl, rfl⟩ := Prod.mk.inj he
  cases r' with
  | error e => exact Or.inl rfl
  | ok =>
    simp only
    split
    · exact Or.inr ⟨trivial, rfl⟩
    · exact Or.inl rfl

/-- What a check found out: no other node of the scope holds the value. Nodes that the transaction
touched count as its working copy has them, all others as they are committed. -/
structure Free (g : Graph) (t : Transaction) (σ : UniqueScope) (id : NodeId) (key : String)
    (v : Value) : Prop where
  touched : ∀ m u, m ≠ id → m ∈ t.changes.touched → t.working.scope? g.schema m key = some σ →
    t.working.value? m key = some u → (u == v) = false
  untouched : ∀ m u, m ≠ id → m ∉ t.changes.touched →
    g.committed.scope? g.schema m key = some σ → g.committed.value? m key = some u →
      (u == v) = false
  unclaimed : ∀ m txn c, m ≠ id → txn ≠ t.txn → g.claims.claim? txn m key = some c →
    g.schema.scope? c.type key = some σ → (c.value == v) = false

/-- The nodes among which a check looks for other holders. -/
def heldBy (g : Graph) (t : Transaction) (σ : UniqueScope) (key : PropertyKey) (v : Value) :
    List NodeId :=
  (t.working.holders g.schema σ.type? key v).filter (t.changes.touched.contains ·) ++
    (g.committed.holders g.schema σ.type? key v).filter (!t.changes.touched.contains ·) ++
    g.claims.holders t.txn σ.type? key v

theorem checkHolders_lookup (g : Graph) (t : Transaction) (σ : UniqueScope) (node : Node)
    (key : PropertyKey) (v : Value)
    (h : Validator.checkHolders σ (t.lookup g) node key v = .ok ()) :
    ∀ m ∈ heldBy g t σ key v, m = node.id := by
  have hlookup : t.lookup g σ.type? key v = .ok (inOrder (heldBy g t σ key v)) := rfl
  have hfind := Validator.find?_of_checkHolders h hlookup
  intro m hm
  simpa using List.find?_eq_none.1 hfind m ((mem_inOrder _ _).2 hm)

theorem free_of_heldBy (h : ∀ m ∈ heldBy g t σ key v, m = node.id) :
    Free g t σ node.id key.name v := by
  refine ⟨fun m u hm htouched hσ hu => ?_, fun m u hm htouched hσ hu => ?_,
    fun m txn c hm htxn hc hσ => ?_⟩ <;> rw [← Bool.not_eq_true] <;> intro he <;>
    refine hm (h m ?_)
  · refine List.mem_append_left _ (List.mem_append_left _ (List.mem_filter.2 ⟨?_, ?_⟩))
    · exact GraphState.mem_holders hσ hu he
    · exact List.contains_iff_mem.2 htouched
  · refine List.mem_append_left _ (List.mem_append_right _ (List.mem_filter.2 ⟨?_, ?_⟩))
    · exact GraphState.mem_holders hσ hu he
    · simpa using htouched
  · refine List.mem_append_right _ (ClaimTable.mem_holders hc htxn he ?_)
    exact Schema.scope?_chain hσ

/-- A value that passed: no other node holds it, and it is claimed if its scope has a lock. -/
theorem check_unique (hσ : g.schema.scope? node.type key.name = some σ) (hv : v.isNull = false)
    (h : t.check g node key v = some (.ok (), g')) :
    Free g t σ node.id key.name v ∧
      ((g.locks.held? ⟨σ, key.name⟩).isSome = true →
        g'.claims = g.claims.add t.txn node.id key.name ⟨node.type, v⟩) := by
  obtain ⟨⟨r, context⟩, hvalidate, he⟩ := Option.map_eq_some_iff.1 h
  obtain ⟨rfl, rfl⟩ := Prod.mk.inj he
  rw [Schema.validate, Schema.validator?_of_scope hσ] at hvalidate
  cases Validator.unique_end hvalidate with
  | null hnull => simp [hv] at hnull
  | unlocked _ hnone hcheck =>
    exact ⟨free_of_heldBy (checkHolders_lookup g t σ node key v hcheck), by simp [hnone]⟩
  | passed _ _ hcheck =>
    exact ⟨free_of_heldBy (checkHolders_lookup g t σ node key v hcheck), fun _ => rfl⟩

end Transaction
end EntityGraph
