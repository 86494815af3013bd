import EntityGraph.Proofs.Claims
import EntityGraph.Proofs.Clients
import EntityGraph.Proofs.RegisteredLocks

/-!
When committed nodes hold unique values. A check looks at a node that its transaction touched in the
working copy of the transaction alone, and a commit compares only what was written. So a value that
another transaction committed to such a node after the copy was made goes unnoticed, and two nodes
come to hold it. Nothing else makes two committed nodes hold one value.

Main statement: `unique_iff_nothing_overlooked` — the committed states of a run hold unique values
exactly if no commit overlooks a holder, and what is overlooked is a node that the transaction sees
with another value.
-/

namespace EntityGraph

theorem GraphState.unique_empty (s : Schema) : GraphState.Unique s {} := by
  intro σ m n key u v _ _ _ hu
  simp [value?] at hu

/-! ### The commits of a run -/

/-- What a commit finds fits its transaction: the change set leads to the working copy, nodes have
the types that the transaction knows, and the values that it holds stand apart. -/
structure CommitRecord.Orderly (s : Schema) (c : CommitRecord) : Prop where
  tracks : ∃ start, Tracks start c.transaction.working c.transaction.changes
  types : c.transaction.working.SameTypes c.before
  apart : c.transaction.Apart s c.transaction

/-- After the commit two nodes hold equal values in one scope: the transaction wrote the one, or
made the node, and left the property of the other one alone. -/
structure CommitRecord.Clash (s : Schema) (c : CommitRecord) (σ : UniqueScope) (id m : NodeId)
    (key : String) (v u : Value) : Prop where
  ne : m ≠ id
  scope : c.after.scope? s id key = some σ
  value : c.after.value? id key = some v
  written : (c.transaction.changes.change? id key).isSome = true ∨
    id ∈ c.transaction.changes.createdNodes ∧ key = typeProperty
  otherScope : c.after.scope? s m key = some σ
  otherValue : c.after.value? m key = some u
  left : c.transaction.changes.change? m key = none
  equal : (u == v) = true

/-- The commit overlooks that another node holds a value. -/
def CommitRecord.Overlooks (s : Schema) (c : CommitRecord) : Prop :=
  ∃ σ id m key v u, c.Clash s σ id m key v u

namespace CommitRecord
variable {s : Schema} {c : CommitRecord}

theorem not_unique_of_overlooks (h : c.Overlooks s) : ¬ c.after.Unique s := by
  obtain ⟨σ, id, m, key, v, u, h⟩ := h
  intro hunique
  have hne := hunique σ m id key u v h.ne h.otherScope h.scope h.otherValue h.value
  rw [h.equal] at hne
  simp at hne

/-- A commit that overlooks nothing keeps values unique: two values that it wrote passed a check
against each other, and two that it left alone were there before. -/
theorem Orderly.unique (h : c.Orderly s) (hbefore : c.before.Unique s) (hnot : ¬ c.Overlooks s) :
    c.after.Unique s := by
  intro σ m n key u v hne hσm hσn hu hv
  obtain ⟨start, ht⟩ := h.tracks
  rw [← Bool.not_eq_true]
  intro he
  have hclash : ∀ id m v u, m ≠ id → c.after.scope? s id key = some σ →
      c.after.value? id key = some v → c.after.scope? s m key = some σ →
      c.after.value? m key = some u → (u == v) = true →
      ((c.transaction.changes.change? id key).isSome = true ∨
        id ∈ c.transaction.changes.createdNodes ∧ key = typeProperty) →
      c.transaction.changes.change? m key ≠ none :=
    fun id m v u hne hσ hv hσm hu he hwritten hleft =>
      hnot ⟨σ, id, m, key, v, u, hne, hσ, hv, hwritten, hσm, hu, hleft, he⟩
  rcases Transaction.holds_of_apply ht h.types hσm hu with hm | ⟨hm, rfl⟩ | ⟨-, hm, hσm₀, hu₀⟩
  · rcases Transaction.holds_of_apply ht h.types hσn hv with hn | ⟨-, rfl⟩ | ⟨-, hn, -, -⟩
    · rw [h.apart σ m n key u v hm hn hne] at he
      simp at he
    · exact (hm.value ht).2 rfl
    · obtain ⟨previous, hchange⟩ := hm.change
      rw [Value.beq_comm] at he
      exact hclash m n u v hne.symm hσm hu hσn hv he (Or.inl (by rw [hchange]; rfl)) hn
  · rw [Value.beq_comm] at he
    exact hclash m n u v hne.symm hσm hu hσn hv he (Or.inr ⟨hm, rfl⟩) (ht.change?_type n)
  · rcases Transaction.holds_of_apply ht h.types hσn hv with hn | ⟨hn, rfl⟩ | ⟨-, -, hσn₀, hv₀⟩
    · obtain ⟨previous, hchange⟩ := hn.change
      exact hclash n m v u hne hσn hv hσm hu he (Or.inl (by rw [hchange]; rfl)) hm
    · exact hclash n m v u hne hσn hv hσm hu he (Or.inr ⟨hn, rfl⟩) hm
    · rw [hbefore σ m n key u v hne hσm₀ hσn₀ hu₀ hv₀] at he
      simp at he

/-- What a commit overlooks was committed before it, to a node that its transaction sees with
another value or none. -/
theorem Clash.stale {σ : UniqueScope} {id m : NodeId} {key : String} {v u : Value}
    (h : c.Clash s σ id m key v u) (hc : c.Orderly s)
    (hsees : c.transaction.SeesOtherwise s c.before) (hkey : key ≠ typeProperty) :
    c.before.value? m key = some u ∧ c.transaction.working.nodes.has m = true ∧
      ∀ u', c.transaction.working.value? m key = some u' → (u' == v) = false := by
  obtain ⟨start, ht⟩ := hc.tracks
  have hm := ((ht.has_apply c.before m).1 (GraphState.has_of_value? h.otherValue)).1
  have hchange := h.written.resolve_right fun hand => hkey hand.2
  rcases Transaction.holds_of_apply ht hc.types h.otherScope h.otherValue with
    hm | ⟨-, htype⟩ | ⟨-, -, hσ, hu⟩
  · obtain ⟨previous, hm⟩ := hm.change
    rw [h.left] at hm
    simp at hm
  · exact absurd htype hkey
  · rcases Transaction.holds_of_apply ht hc.types h.scope h.value with
      hid | ⟨-, htype⟩ | ⟨-, hid, -⟩
    · obtain ⟨hknows, hother⟩ := hsees σ id m key u v hid h.ne hσ hu h.equal
      exact ⟨hu, hknows.resolve_right hm, hother⟩
    · exact absurd htype hkey
    · rw [hid] at hchange
      simp at hchange

end CommitRecord

/-- The state that some commits leave is the first one, or the one that a commit left. -/
theorem Chained.replay_mem {g : GraphState} {log : List CommitRecord} (h : Chained g log) :
    World.replay g log = g ∨ ∃ c ∈ log, World.replay g log = c.after := by
  rcases List.eq_nil_or_concat log with rfl | ⟨log, c, rfl⟩
  · exact Or.inl rfl
  · rw [List.concat_eq_append] at h ⊢
    right
    refine ⟨c, by simp, ?_⟩
    rw [World.replay_append, ← ((World.chained_append.1 h).2).1]
    rfl

theorem Chained.unique_iff {s : Schema} {g : GraphState} {log : List CommitRecord}
    (h : Chained g log) (hc : ∀ c ∈ log, c.Orderly s) (hg : g.Unique s) :
    (∀ c ∈ log, c.after.Unique s) ↔ ∀ c ∈ log, ¬ c.Overlooks s := by
  refine ⟨fun h c hc hover => CommitRecord.not_unique_of_overlooks hover (h c hc), fun hnot => ?_⟩
  induction log generalizing g with
  | nil => simp
  | cons c log ih =>
    obtain ⟨rfl, hrest⟩ := h
    have hafter := (hc c (List.mem_cons_self ..)).unique hg (hnot c (List.mem_cons_self ..))
    intro d hd
    rcases List.mem_cons.1 hd with rfl | hd
    · exact hafter
    · exact ih hrest (fun d hd => hc d (List.mem_cons_of_mem _ hd)) hafter
        (fun d hd => hnot d (List.mem_cons_of_mem _ hd)) d hd

namespace World
variable {L H : Type} {hooks : Set Nat} {w w₁ : World L H} {log : List CommitRecord}
  {origin : Nat → GraphState}

/-- The values that each transaction holds stand apart. -/
def ValuesApart (w : World L H) : Prop :=
  ∀ n t, w.transactions.get? n = some t → t.Apart w.graph.schema t

theorem ValuesApart.put (h : ValuesApart w) (hs : Sound origin w) {n : Nat} {t : Transaction}
    {s : Graph × Transaction} (ht : w.transactions.get? n = some t)
    (hsteps : Transaction.Steps (w.graph, t) s) : ValuesApart (w.put n s) := by
  have hschema : (w.put n s).graph.schema = w.graph.schema := hsteps.frame.schema
  intro m t' ht'
  rw [hschema]
  rcases get?_of_put ht' with ⟨-, rfl⟩ | ⟨-, ht'⟩
  · have htracks : ∀ s', Transaction.Steps (w.graph, t) s' →
        Tracks (origin n) s'.2.working s'.2.changes := fun s' hs' =>
      (hs.put ht hs').tracks n s'.2 (by rw [get?_put, if_pos rfl])
    exact Transaction.Apart.steps htracks hsteps (h n t ht)
  · exact h m t' ht'

theorem ValuesApart.close (h : ValuesApart w) (n : Nat) : ValuesApart (w.close n) := by
  intro m t ht
  obtain ⟨t₀, ht₀, he, -⟩ := get?_of_close ht
  rw [he]
  exact fun σ i j key u v hu hv => h m t₀ ht₀ σ i j key u v
    ((Transaction.holds_context _).1 hu) ((Transaction.holds_context _).1 hv)

/-- The values that each transaction holds stand apart throughout. -/
theorem valuesApart_invariant (schema : Schema) :
    Invariant hooks fun w : World L H => w.graph.schema = schema ∧ ValuesApart w where
  aside := by
    rintro w w' ⟨hschema, h⟩ ha
    refine ⟨ha.graph ▸ hschema, fun n t ht => ?_⟩
    rw [ha.graph]
    exact h n t (ha.transactions ▸ ht)
  begin := by
    rintro w k caller ⟨hschema, h⟩ -
    refine ⟨hschema, fun n t ht => ?_⟩
    rcases get?_of_begin ht with ⟨-, rfl⟩ | ⟨-, ht⟩
    · exact fun _ _ _ _ _ _ hu => absurd hu Guarded.not_holds_newcomer
    · exact h n t ht
  put := fun hs ⟨hschema, h⟩ ht hsteps => ⟨hsteps.frame.schema.trans hschema, h.put hs ht hsteps⟩
  close := fun n ⟨hschema, h⟩ => ⟨hschema, h.close n⟩
  settle := fun _ ⟨hschema, h⟩ _ _ => ⟨hschema, fun m t ht => h m t (get?_of_forget ht).2⟩
  forget := fun ⟨hschema, h⟩ _ => ⟨hschema, fun m t ht => h m t (get?_of_forget ht).2⟩

/-- Whatever its commits find fits their transactions. -/
theorem Reaches.orderly (h : Reaches hooks w log w₁) (hs : Sound origin w) (ha : ValuesApart w) :
    ∀ c ∈ log, c.Orderly w.graph.schema := by
  refine ((valuesApart_invariant w.graph.schema).reaches (fun {o w' n t} hs' hp hclosed => ?_)
    h hs ⟨rfl, ha⟩).2
  obtain ⟨hschema, ha'⟩ := hp
  rw [← hschema]
  have htracks := hs'.tracks n _ hclosed
  have htypes := hs'.sameTypes hclosed
  refine ⟨⟨o n, htracks⟩, htypes, fun σ i j key u v hu hv => ?_⟩
  exact ha' n _ hclosed σ i j key u v ((Transaction.holds_context none).2 hu)
    ((Transaction.holds_context none).2 hv)

/-! ### Unique values -/

/-- Committed nodes hold unique values throughout a run exactly if no commit overlooks a holder. If
all transactions begin with one hook and every scope has its lock, a value that is overlooked was
committed before, to a node of which the transaction has an older copy, with another value or none.
No check is made of the property that names the type. -/
theorem unique_iff_nothing_overlooked {schema : Schema} {locks : LockTable}
    {table : Assoc Nat (CommitHook L)} {host : H}
    (run : Reaches hooks (start schema locks table host) log w) :
    (w.graph.committed = {} ∨ ∃ c ∈ log, w.graph.committed = c.after) ∧
      ((∀ c ∈ log, c.after.Unique schema) ↔ ∀ c ∈ log, ¬ c.Overlooks schema) ∧
      (hooks.Subsingleton → schema.Locked locks → schema.KeepsLocks →
        ∀ c ∈ log, ∀ σ id m key v u, c.Clash schema σ id m key v u → key ≠ typeProperty →
          c.before.value? m key = some u ∧ c.transaction.working.nodes.has m = true ∧
            ∀ u', c.transaction.working.value? m key = some u' → (u' == v) = false) := by
  have hsound := sound_start schema locks table host fun _ => {}
  have hstart : ValuesApart (start schema locks table host) := by
    intro n t ht
    simp [start] at ht
  have horderly := run.orderly hsound hstart
  refine ⟨?_, run.chained.unique_iff horderly (GraphState.unique_empty schema),
    fun hone hlocked hkeeps => ?_⟩
  · rw [run.committed_eq]
    exact run.chained.replay_mem
  · have hsees := run.seesOtherwise hone hkeeps hsound (guarded_start hlocked table host)
    intro c hc σ id m key v u hclash hkey
    exact hclash.stale (horderly c hc) (hsees c hc) hkey

/-! ### A holder that is overlooked -/

/-- A schema in which no two persons have the same email address. -/
def people : SchemaDraft :=
  .ofRegistrations {} [.type (.root "Person"),
    .validator (.root "Person") (.named "email") .globalUniqueness none]

/-- A new graph for persons. -/
def office : World Unit Unit := start people.schema people.locks [] ()

/-- While one client works on a person, another one gives that person an address, and the first one
gives it to a new person. -/
def reused : World Unit Unit :=
  (perform silent
    [.begin 0 .superUser, .operate 0 (.createNode (.root "Person") []), .commit 0,
      .begin 0 .superUser, .operate 1 (.setProperty ⟨1⟩ (.named "name") (.string "x")),
      .begin 0 .superUser, .operate 2 (.setProperty ⟨1⟩ (.named "email") (.string "e")), .commit 2,
      .operate 1 (.createNode (.root "Person") [("email", .string "e")]), .commit 1]
    office).get rfl

theorem reused_reached : ∃ log, Reaches {0} office log reused := by
  refine perform_reaches lawful_silent (sound_start _ _ _ _ fun _ => {}) ?_
    (Option.some_get rfl).symm
  simp [Action.allowed]

theorem reused_twice : ¬ reused.graph.committed.Unique people.schema := by
  intro h
  have hne := h .global ⟨1⟩ ⟨2⟩ "email" (.string "e") (.string "e") (by decide) rfl rfl rfl rfl
  exact absurd hne (by decide)

/-- Two persons come to have one address. -/
theorem unique_violated :
    ∃ log, Reaches {0} office log reused ∧ ¬ reused.graph.committed.Unique people.schema := by
  obtain ⟨log, run⟩ := reused_reached
  exact ⟨log, run, reused_twice⟩

theorem people_locked : people.schema.Locked people.locks := by
  refine SchemaDraft.locked _ _ fun t key p hmem => ?_
  simp at hmem

theorem people_keepsLocks : people.schema.KeepsLocks := by
  intro name f caller check hf
  have hnone : people.schema.validatorFactories = [] := rfl
  simp [hnone] at hf

/-- An address is the only property that must be unique. -/
theorem people_scope {type : EntityType} {key : String} {σ : UniqueScope}
    (h : people.schema.scope? type key = some σ) : key = "email" := by
  obtain ⟨⟨name, kind⟩, hfind, -⟩ := Option.bind_eq_some_iff.1 h
  have hentry := (entryOf?_of_findInChain hfind).2
  have hvalidators : people.schema.validators = [("person", [("email", .globalUniqueness)])] := rfl
  rw [TypeTable.entryOf?, hvalidators, Assoc.get?_cons] at hentry
  split at hentry
  · rw [Option.bind_some, Assoc.get?_cons] at hentry
    split at hentry
    · next he => exact he.symm
    · simp at hentry
  · simp at hentry

/-- The address is one that the first client's copy of the person does not have. -/
theorem unique_iff_nothing_overlooked_reused :
    ∃ log, Reaches {0} office log reused ∧ ∃ c ∈ log, ∃ σ id m v u,
      c.Clash people.schema σ id m "email" v u ∧ c.before.value? m "email" = some u ∧
        c.transaction.working.nodes.has m = true ∧
          ∀ u', c.transaction.working.value? m "email" = some u' → (u' == v) = false := by
  obtain ⟨log, run⟩ := reused_reached
  obtain ⟨hstates, hiff, hstale⟩ := unique_iff_nothing_overlooked run
  obtain ⟨c, hc, σ, id, m, key, v, u, hclash⟩ : ∃ c ∈ log, c.Overlooks people.schema := by
    by_contra hnone
    have hunique := hiff.2 fun c hc hover => hnone ⟨c, hc, hover⟩
    rcases hstates with hempty | ⟨c, hc, he⟩
    · exact reused_twice (hempty ▸ GraphState.unique_empty _)
    · exact reused_twice (he ▸ hunique c hc)
  obtain ⟨type, -, hσ⟩ := Option.bind_eq_some_iff.1 hclash.scope
  obtain rfl := people_scope hσ
  exact ⟨log, run, c, hc, σ, id, m, v, u, hclash, hstale Set.subsingleton_singleton people_locked
    people_keepsLocks c hc σ id m _ v u hclash (by decide)⟩

end World
end EntityGraph
