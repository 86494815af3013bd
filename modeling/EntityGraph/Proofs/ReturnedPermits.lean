import EntityGraph.Proofs.ClaimIsolation

/-!
Permits that are given back. Unless a factory built it, a check keeps at most the permit of one lock
that was free, and only of a value that passes; the write gives it back. So operations leave locks
as they find them, however they end, and where no permit is out to begin with nobody waits for one.

Main statements: `Schema.validate_kept` — what a check keeps; `Transaction.Step.held` — every step
of an operation leaves locks as they were; `Operation.run_isSome` — no operation waits for a permit
while all locks are free; `World.permits_given_back` — so it is throughout a run.
-/

namespace EntityGraph

/-! ### Locks -/

namespace LockTable

/-- No permit is out. -/
def Free (t : LockTable) : Prop := ∀ l, t.held? l ≠ some true

theorem free_empty : ({} : LockTable).Free := by simp [Free, held?]

theorem held?_release_mark {t : LockTable} {l : Lock} (h : t.held? l = some false) :
    ((t.mark l true).release l).held? = t.held? := by
  funext m
  rw [release, held?_mark, held?_mark]
  by_cases hm : m = l
  · subst hm
    simp [h]
  · rw [if_neg hm, if_neg hm]

theorem Free.congr {t t' : LockTable} (h : t.Free) (he : t'.held? = t.held?) : t'.Free :=
  fun l => he ▸ h l

theorem Free.register {t : LockTable} (h : t.Free) (l : Lock) : (t.register l).Free := by
  intro m
  rw [held?_register]
  split
  · simp
  · exact h m

end LockTable

/-! ### What a check keeps -/

/-- A check ends with the permits that it found, or with one more, of a lock that was free, if the
value passes. -/
inductive ValidationContext.Kept (c : ValidationContext) :
    Except Failure Unit → ValidationContext → Prop
  | nothing (r) : Kept c r c
  | permit {l} (hfree : c.locks.held? l = some false) : Kept c (.ok ()) (c.hold l)

namespace ValidationContext.Kept
variable {c c' : ValidationContext} {r : Except Failure Unit}

theorem of_error {e : Failure} (h : c.Kept (.error e) c') : c' = c := by
  cases h
  rfl

/-- Whoever gives the permits back leaves the locks as they were. -/
theorem held (h : c.Kept r c') (hc : c.permits = []) :
    c'.releaseAll.locks.held? = c.locks.held? := by
  cases h with
  | nothing => rw [releaseAll, hc]; rfl
  | permit hfree =>
    rw [releaseAll, hold, hc]
    exact LockTable.held?_release_mark hfree

end ValidationContext.Kept

namespace Schema
variable {s : Schema}

/-- No check is one that a factory builds. -/
def BuiltIn (s : Schema) : Prop :=
  ∀ type key name, s.validatorKind? type key ≠ some (.named name)

/-- A check is one for uniqueness, or takes no permit. -/
theorem BuiltIn.validator_eq (hs : s.BuiltIn) {type : EntityType} {key : PropertyKey}
    {caller : Caller} {check : Validator} (h : s.validator? type key caller = some check) :
    (∃ σ, check = .unique σ) ∨ ∃ f, check = .ofCheck f := by
  rcases Schema.validator_cases h with hunique | hcheck | ⟨name, f, hnamed, -⟩
  · exact Or.inl hunique
  · exact Or.inr hcheck
  · exact absurd hnamed (hs type key name)

end Schema

variable {c c' : ValidationContext} {node : Node} {key : PropertyKey} {v : Value}
  {r : Except Failure Unit}

theorem Validator.unique_kept {σ : UniqueScope} {p : Option Value}
    (h : (unique σ).validate c node key v p = some (r, c')) : c.Kept r c' := by
  cases unique_end h with
  | null | unlocked | refused => exact .nothing _
  | passed _ hfree => exact .permit hfree

theorem Schema.validate_kept {s : Schema} (hs : s.BuiltIn)
    (h : s.validate c node key v = some (r, c')) : c.Kept r c' := by
  rw [validate] at h
  split at h
  · next check hcheck =>
    rcases hs.validator_eq hcheck with ⟨σ, rfl⟩ | ⟨f, rfl⟩
    · exact Validator.unique_kept h
    · obtain ⟨rfl, rfl⟩ := Prod.mk.inj (Option.some.inj h)
      exact .nothing _
  · obtain ⟨rfl, rfl⟩ := Prod.mk.inj (Option.some.inj h)
    exact .nothing _

/-- While all locks are free no check waits. -/
theorem Schema.validate_isSome {s : Schema} (hs : s.BuiltIn) (hfree : c.locks.Free) (node : Node)
    (key : PropertyKey) (v : Value) : (s.validate c node key v).isSome = true := by
  rw [validate]
  split
  · next check hcheck =>
    rcases hs.validator_eq hcheck with ⟨σ, rfl⟩ | ⟨f, rfl⟩
    · rw [Option.isSome_iff_ne_none, Ne, Validator.unique_waits_iff]
      exact fun hwaits => hfree _ hwaits.2
    · rfl
  · rfl

/-! ### Schemas that are built from registrations -/

namespace SchemaDraft

theorem builtIn_ofRegistrations {rs : List Registration}
    (h : ∀ t key name p, .validator t key (.named name) p ∉ rs) (locks : LockTable) :
    (ofRegistrations locks rs).schema.BuiltIn := by
  intro type key name hkind
  obtain ⟨⟨j, kind⟩, hfind, rfl⟩ := Option.map_eq_some_iff.1 hkind
  obtain ⟨t, k, p, hmem, -⟩ := registration_of_findInChain hfind
  exact h t k name p hmem

theorem free_ofRegistrations {locks : LockTable} (h : locks.Free) (rs : List Registration) :
    (ofRegistrations locks rs).locks.Free := by
  refine List.foldlRecOn (motive := fun d : SchemaDraft => d.locks.Free) rs register h ?_
  intro d hd r _
  rw [register]
  cases r.lock? with
  | none => exact hd
  | some l => exact hd.register l

end SchemaDraft

/-! ### Operations -/

namespace Transaction
variable {g g' : Graph} {t t' : Transaction} {a b : Graph × Transaction}

theorem check_held (hs : g.schema.BuiltIn) (h : t.check g node key v = some (r, g')) :
    g'.locks.held? = g.locks.held? := by
  obtain ⟨⟨r', context⟩, hvalidate, he⟩ := Option.map_eq_some_iff.1 h
  obtain ⟨-, rfl⟩ := Prod.mk.inj he
  exact (Schema.validate_kept hs hvalidate).held rfl

theorem check_isSome (hs : g.schema.BuiltIn) (hfree : g.locks.Free) (t : Transaction)
    (node : Node) (key : PropertyKey) (v : Value) : (t.check g node key v).isSome = true := by
  rw [check, Option.isSome_map]
  exact Schema.validate_isSome hs hfree node key v

theorem Step.held (hs : a.1.schema.BuiltIn) (h : Step a b) :
    b.1.locks.held? = a.1.locks.held? := by
  cases h with
  | refused hcheck => exact check_held hs hcheck
  | @written g g' t node k v hnode hkey hcheck =>
    have hlocks : (t.settled g' node.id k v).locks = g'.locks := by rw [settled_eq]
    exact hlocks ▸ check_held hs hcheck
  | skipped => rfl
  | entered => rfl
  | related => rfl
  | dropped => rfl
  | erased => rfl

theorem Steps.held (hs : a.1.schema.BuiltIn) (h : Steps a b) :
    b.1.locks.held? = a.1.locks.held? := by
  induction h with
  | refl => rfl
  | tail hab hstep ih => exact (hstep.held ((Steps.frame hab).schema ▸ hs)).trans ih

theorem write_isSome (hs : g.schema.BuiltIn) (hfree : g.locks.Free) (t : Transaction)
    (id : NodeId) (key : PropertyKey) (v : Value) (creating : Bool) :
    (t.write g id key v creating).isSome = true := by
  rw [write]
  split
  · rfl
  · next node v' _ =>
    have hchecked := check_isSome hs hfree t node key v'
    split
    · next hnone => simp [hnone] at hchecked
    · rfl
    · rfl

/-- Each write of a new node finds the locks as the one before it did. -/
theorem writeAll_isSome {id : NodeId} (hs : g.schema.BuiltIn) (hfree : g.locks.Free)
    (hid : id ∈ t.changes.createdNodes) (type : String) (rows : Properties) :
    (t.writeAll g id type rows).isSome = true := by
  induction rows generalizing g t with
  | nil => rfl
  | cons row rows ih =>
    rw [writeAll]
    split
    · next g₁ t₁ hwrite =>
      obtain ⟨hsteps, hcreated⟩ := write_steps (fun _ => hid) hwrite
      refine ih ?_ (hfree.congr (hsteps.held hs)) (hcreated ▸ hid)
      exact hsteps.frame.schema ▸ hs
    · exact write_isSome hs hfree t id _ row.2 true

theorem createNode_isSome (hs : g.schema.BuiltIn) (hfree : g.locks.Free) (t : Transaction)
    (type : EntityType) (initial : Properties) : (t.createNode g type initial).isSome = true := by
  rw [createNode]
  split
  · rfl
  · simp only
    split
    · rfl
    · next node _ =>
      have hwritten := writeAll_isSome (g := { g with nextNode := g.nextNode + 1 })
        (t := t.enter ⟨g.nextNode⟩ type.name) hs hfree
        ((t.changes.mem_createNode _ _).2 (Or.inl rfl)) type.name
        (node.properties.without typeProperty)
      split
      · next hnone => exact absurd hnone (Option.isSome_iff_ne_none.1 hwritten)
      · rfl
      · rfl

end Transaction

/-- While all locks are free no operation waits. -/
theorem Operation.run_isSome {g : Graph} (hs : g.schema.BuiltIn) (hfree : g.locks.Free)
    (o : Operation) (t : Transaction) : (o.run g t).isSome = true := by
  cases o with
  | createNode type initial =>
    exact Option.isSome_map.trans (Transaction.createNode_isSome hs hfree t type initial)
  | setProperty id key v => exact Transaction.write_isSome hs hfree t id key v false
  | createRelationship start stop type properties =>
    refine Option.isSome_map.trans ?_
    rw [Transaction.createRelationship]
    split <;> rfl
  | deleteRelationship id =>
    rw [run, Transaction.deleteRelationship]
    split <;> rfl
  | deleteNode id =>
    rw [run, Transaction.deleteNode]
    split <;> rfl

/-! ### Runs -/

namespace World
variable {L H : Type} {hooks : Set Nat} {w w' : World L H} {origin : Nat → GraphState}

theorem onTransaction_held (hs : Sound origin w) (hbuilt : w.graph.schema.BuiltIn) {n : Nat}
    {o : Operation} (h : w.onTransaction n o.run = some (r, w')) :
    w'.graph.locks.held? = w.graph.locks.held? := by
  obtain ⟨t, s, -, hsteps, rfl⟩ := steps_of_onTransaction hs h
  exact hsteps.held hbuilt

theorem onTransaction_isSome (hbuilt : w.graph.schema.BuiltIn) (hfree : w.graph.locks.Free)
    {n : Nat} {t : Transaction} {context : TransactionContext}
    (ht : w.transaction? n = some (t, context)) (o : Operation) :
    (w.onTransaction n o.run).isSome = true := by
  rw [onTransaction, ht]
  exact Option.isSome_map.trans (o.run_isSome hbuilt hfree t)

/-- Locks stay as they are throughout. -/
theorem held_invariant {schema : Schema} (hbuilt : schema.BuiltIn) (locks : LockTable) :
    Invariant hooks fun w : World L H =>
      w.graph.schema = schema ∧ w.graph.locks.held? = locks.held? where
  aside := fun h ha => ha.graph ▸ h
  begin := fun _ h _ => h
  put := by
    rintro origin w n t s - ⟨rfl, hheld⟩ - hsteps
    exact ⟨hsteps.frame.schema, (hsteps.held hbuilt).trans hheld⟩
  close := fun _ h => h
  settle := fun _ h _ _ => h
  forget := fun h _ => h

/-- If no check is one that a factory builds, each lock is at each moment of a run as it was at the
start, and so an operation leaves it, whether it fails or not; for a check keeps a permit only of a
value that passes, even if nodes cannot be looked up, and giving it back undoes that. If no permit
was out at the start, none ever is between operations, and none of them waits. -/
theorem permits_given_back {schema : Schema} {locks : LockTable}
    {table : Assoc Nat (CommitHook L)} {host : H} (hbuilt : schema.BuiltIn)
    (run : Moves hooks (start schema locks table host) w) :
    w.graph.locks.held? = locks.held? ∧
      (∀ n (o : Operation) r w', w.onTransaction n o.run = some (r, w') →
        w'.graph.locks.held? = w.graph.locks.held?) ∧
      (∀ (c : ValidationContext) node key v r c', c.permits = [] →
        schema.validate c node key v = some (r, c') →
          (∀ e, r = .error e → c' = c) ∧ c'.releaseAll.locks.held? = c.locks.held?) ∧
      (locks.Free → w.graph.locks.Free ∧
        ∀ n t context, w.transaction? n = some (t, context) → ∀ o : Operation,
          (w.onTransaction n o.run).isSome = true) := by
  have hstart := sound_start schema locks table host fun _ => {}
  obtain ⟨hschema, hheld⟩ := (held_invariant hbuilt locks).moves run hstart ⟨rfl, rfl⟩
  obtain ⟨origin, hs⟩ := Moves.sound run hstart
  have hbuilt' : w.graph.schema.BuiltIn := hschema ▸ hbuilt
  refine ⟨hheld, fun n o r w' hop => onTransaction_held hs hbuilt' hop, ?_, fun hfree => ?_⟩
  · intro c node key v r c' hc hvalidate
    have hkept := Schema.validate_kept hbuilt hvalidate
    refine ⟨fun e he => ?_, hkept.held hc⟩
    subst he
    exact hkept.of_error
  · have hfree' := hfree.congr hheld
    exact ⟨hfree', fun n t context ht o => onTransaction_isSome hbuilt' hfree' ht o⟩

/-- The second client cannot give the address to a person of its own, and the lock is free before
and after it tries. -/
theorem permits_given_back_reserved :
    ∃ e w', reserved.onTransaction 1
        (Operation.createNode (.root "Person") [("email", .string "e")]).run =
          some (.error e, w') ∧
      reserved.graph.locks.held? ⟨.global, "email"⟩ = some false ∧
      w'.graph.locks.held? ⟨.global, "email"⟩ = some false ∧
      (reserved.onTransaction 1 (Operation.setProperty ⟨1⟩ (.named "email") .null).run).isSome =
        true := by
  have hs : Sound (fun _ => {}) office := sound_start _ _ _ _ _
  have hrun : ∃ log, Reaches {0} office log reserved := by
    refine perform_reaches lawful_silent hs ?_ (Option.some_get rfl).symm
    simp [Action.allowed]
  obtain ⟨log, hrun⟩ := hrun
  have hbuilt : people.schema.BuiltIn := by
    refine SchemaDraft.builtIn_ofRegistrations (fun t key name p hmem => ?_) _
    simp at hmem
  have hfree : people.locks.Free := SchemaDraft.free_ofRegistrations LockTable.free_empty _
  obtain ⟨hheld, hsame, -, hnone⟩ := permits_given_back hbuilt (hrun.moves hs)
  obtain ⟨e, w', hrefused⟩ : ∃ e w', reserved.onTransaction 1
      (Operation.createNode (.root "Person") [("email", .string "e")]).run = some (.error e, w') :=
    ⟨_, _, rfl⟩
  obtain ⟨t, context, ht⟩ : ∃ t context, reserved.transaction? 1 = some (t, context) := ⟨_, _, rfl⟩
  have hbefore := congrFun hheld ⟨.global, "email"⟩
  exact ⟨e, w', hrefused, hbefore, (congrFun (hsame 1 _ _ w' hrefused) _).trans hbefore,
    (hnone hfree).2 1 t context ht _⟩

end World
end EntityGraph
