import EntityGraph.Proofs.Intact

/-!
What an operation leaves behind when it fails. Every operation but one makes sure of everything
before it changes anything, so its transaction is as it was. A new node, though, is entered before
its properties are checked one by one, and stays with those that passed when one is refused.

Main statement: `failed_operation` — a failed operation changes neither its transaction nor a claim,
exactly if it does not leave a node half made; and such a node is stored by the next commit.
-/

namespace EntityGraph

namespace Transaction

/-- The transaction is as it was; of the graph, locks and the next identity may have changed. -/
def Untouched (a b : Graph × Transaction) : Prop :=
  b.2 = a.2 ∧ b.1 = { a.1 with locks := b.1.locks, nextNode := b.1.nextNode }

/-- The operation creates a node that is refused at one of its properties. By then the node has been
entered, and the properties before that one are written. -/
inductive HalfMade (a : Graph × Transaction) : Operation → Failure → Graph × Transaction → Prop
  | intro {type initial node before name v after g t e b}
    (htype : (a.1.schema.type? type.name).isSome = true)
    (hnode : Transformation.applyAll a.2.caller ⟨⟨a.1.nextNode⟩, type, initial⟩
      (a.1.schema.transformationsOf type) = (.ok (), node))
    (hrows : node.properties.without typeProperty = before ++ (name, v) :: after)
    (hbefore : (a.2.enter ⟨a.1.nextNode⟩ type.name).writeAll
      { a.1 with nextNode := a.1.nextNode + 1 } ⟨a.1.nextNode⟩ type.name before =
        some (.ok (), g, t))
    (hrefused : t.write g ⟨a.1.nextNode⟩ (.declaredBy type.name name) v true =
      some (.error e, b)) : HalfMade a (.createNode type initial) e b

variable {g g' : Graph} {t t' : Transaction} {e : Failure}

theorem error_of_map {α : Type} {x : Outcome α} {b : Graph × Transaction}
    (h : x.map (fun (r, s) => (r.map fun _ => (), s)) = some (.error e, b)) :
    x = some (.error e, b) := by
  obtain ⟨⟨r, s⟩, rfl, he⟩ := Option.map_eq_some_iff.1 h
  cases r <;> simp_all [Except.map]

theorem write_error {id : NodeId} {key : PropertyKey} {v : Value} {creating : Bool}
    (h : t.write g id key v creating = some (.error e, g', t')) :
    t' = t ∧ g' = { g with locks := g'.locks } := by
  rw [write] at h
  split at h
  · obtain ⟨-, rfl, rfl⟩ : _ ∧ g = g' ∧ t = t' := by simpa [fail] using h
    exact ⟨rfl, rfl⟩
  · split at h
    · simp at h
    · next g₁ hcheck =>
      obtain ⟨-, rfl, rfl⟩ : _ ∧ g₁ = g' ∧ t = t' := by simpa [fail] using h
      have hclaims := (check_claims hcheck).resolve_right fun hr => by simp at hr
      rw [check_eq_some hcheck, hclaims]
      exact ⟨rfl, rfl⟩
    · simp at h

/-- Writes go on up to the first that fails. -/
theorem writeAll_error {id : NodeId} {type : String} {rows : Properties}
    (h : t.writeAll g id type rows = some (.error e, g', t')) :
    ∃ before name v after g₁ t₁, rows = before ++ (name, v) :: after ∧
      t.writeAll g id type before = some (.ok (), g₁, t₁) ∧
      t₁.write g₁ id (.declaredBy type name) v true = some (.error e, g', t') := by
  induction rows generalizing g t with
  | nil => simp [writeAll] at h
  | cons row rows ih =>
    obtain ⟨name, v⟩ := row
    rw [writeAll] at h
    split at h
    · next g₁ t₁ hwrite =>
      obtain ⟨before, name', v', after, g₂, t₂, rfl, hbefore, hrefused⟩ := ih h
      refine ⟨(name, v) :: before, name', v', after, g₂, t₂, rfl, ?_, hrefused⟩
      rw [writeAll, hwrite]
      exact hbefore
    · exact ⟨[], name, v, rows, g, t, rfl, rfl, h⟩

theorem has_write {id : NodeId} {key : PropertyKey} {v : Value} {creating : Bool}
    {r : Except Failure Unit} (h : t.write g id key v creating = some (r, g', t')) (i : NodeId) :
    t'.working.nodes.has i = t.working.nodes.has i := by
  rw [write] at h
  split at h
  · obtain ⟨-, -, rfl⟩ : _ ∧ g = g' ∧ t = t' := by simpa [fail] using h
    rfl
  · next node v' _ =>
    split at h
    · simp at h
    · obtain ⟨-, -, rfl⟩ : _ ∧ _ = g' ∧ t = t' := by simpa [fail] using h
      rfl
    · obtain ⟨-, -, rfl⟩ : _ ∧ _ = g' ∧ t.store node key v' = t' := by simpa using h
      exact t.has_store node key v' i

theorem has_writeAll {id : NodeId} {type : String} {rows : Properties} {r : Except Failure Unit}
    (h : t.writeAll g id type rows = some (r, g', t')) (i : NodeId) :
    t'.working.nodes.has i = t.working.nodes.has i := by
  induction rows generalizing g t with
  | nil =>
    obtain ⟨-, -, rfl⟩ : _ ∧ g = g' ∧ t = t' := by simpa [writeAll] using h
    rfl
  | cons row rows ih =>
    rw [writeAll] at h
    split at h
    · next hwrite => exact (ih h).trans (has_write hwrite i)
    · exact has_write h i

theorem has_enter (t : Transaction) (id : NodeId) (type : String) :
    (t.enter id type).working.nodes.has id = true := by
  rw [enter, Assoc.has_put]
  simp

theorem createNode_error {type : EntityType} {initial : Properties} {b : Graph × Transaction}
    (hi : t.working.Intact g.schema) (h : t.createNode g type initial = some (.error e, b)) :
    Untouched (g, t) b ∨ HalfMade (g, t) (.createNode type initial) e b := by
  have hsteps := createNode_steps h
  rw [createNode] at h
  split at h
  · obtain ⟨-, rfl⟩ : _ ∧ (g, t) = b := by simpa [fail] using h
    exact Or.inl ⟨rfl, rfl⟩
  · next htype =>
    simp only at h
    split at h
    · obtain ⟨-, rfl⟩ : _ ∧ _ = b := by simpa [fail] using h
      exact Or.inl ⟨rfl, rfl⟩
    · next node hnode =>
      split at h
      · simp at h
      · next hall =>
        obtain ⟨rfl, rfl⟩ : _ ∧ _ = b := by simpa [fail] using h
        obtain ⟨before, name, v, after, g₁, t₁, hrows, hbefore, hrefused⟩ := writeAll_error hall
        have htype := Option.isSome_iff_ne_none.2 (by simpa using htype)
        exact Or.inr (.intro htype hnode hrows hbefore hrefused)
      · next g₁ t₁ hall =>
        -- all properties are written, so the node is there and can be read
        obtain ⟨hrequire, rfl⟩ : _ ∧ (g₁, t₁) = b := by simpa using h
        have hin := (has_writeAll hall ⟨g.nextNode⟩).trans (has_enter t _ type.name)
        obtain ⟨n, hn⟩ := (Steps.intact hsteps hi).readable hin
        have hn : t₁.node? g₁ ⟨g.nextNode⟩ = some n := hn
        simp [requireNode, hn] at hrequire

theorem createRelationship_error {start stop : NodeId} {type : String} {properties : Properties}
    {b : Graph × Transaction}
    (h : t.createRelationship g start stop type properties = some (.error e, b)) :
    Untouched (g, t) b := by
  rw [createRelationship] at h
  split at h
  · obtain ⟨-, rfl⟩ : _ ∧ (g, t) = b := by simpa [fail] using h
    exact ⟨rfl, rfl⟩
  · obtain ⟨-, rfl⟩ : _ ∧ (g, t) = b := by simpa [fail] using h
    exact ⟨rfl, rfl⟩
  · simp at h

theorem deleteRelationship_error {id : RelationshipId} {b : Graph × Transaction}
    (h : t.deleteRelationship g id = some (.error e, b)) : Untouched (g, t) b := by
  rw [deleteRelationship] at h
  split at h
  · obtain ⟨-, rfl⟩ : _ ∧ (g, t) = b := by simpa [fail] using h
    exact ⟨rfl, rfl⟩
  · simp at h

theorem nodes_foldl_dropRelationship (rs : List Relationship) (t : Transaction) :
    (rs.foldl dropRelationship t).working.nodes = t.working.nodes := by
  induction rs generalizing t with
  | nil => rfl
  | cons r rs ih => rw [List.foldl_cons, ih]; rfl

/-- A node that is not there has no relationships, so none is dropped before the deletion fails. -/
theorem deleteNode_error {id : NodeId} {b : Graph × Transaction} (ht : t.working.Tidy)
    (hi : t.working.Intact g.schema) (h : t.deleteNode g id = some (.error e, b)) :
    Untouched (g, t) b := by
  rw [deleteNode] at h
  simp only [nodes_foldl_dropRelationship] at h
  split at h
  · next hnone =>
    have hnone : t.working.nodes.has id = false := (Assoc.has_eq_false_iff _ _).2 hnone
    have hfree : t.working.relationshipsOf id = [] := by
      refine List.filter_eq_nil_iff.2 fun r hr htouch => ?_
      obtain ⟨rid, hr⟩ := ht.relationships.mem_values_iff.1 hr
      obtain ⟨hstart, hstop⟩ := hi.ends rid r hr
      rcases (by simpa [Relationship.touches] using htouch) with rfl | rfl
      · simp [hnone] at hstart
      · simp [hnone] at hstop
    rw [hfree] at h
    obtain ⟨-, rfl⟩ : _ ∧ (g, t) = b := by simpa [fail] using h
    exact ⟨rfl, rfl⟩
  · simp at h

/-- A half-made node is in the working copy. -/
theorem HalfMade.has {a b : Graph × Transaction} {o : Operation} (h : HalfMade a o e b) :
    b.2.working.nodes.has ⟨a.1.nextNode⟩ = true := by
  obtain ⟨-, -, -, hbefore, hrefused⟩ := h
  rw [has_write hrefused, has_writeAll hbefore]
  exact has_enter _ _ _

end Transaction

theorem Operation.failed {o : Operation} {g : Graph} {t : Transaction} {e : Failure}
    {b : Graph × Transaction} (ht : t.working.Tidy) (hi : t.working.Intact g.schema)
    (h : o.run g t = some (.error e, b)) :
    Transaction.Untouched (g, t) b ∨ Transaction.HalfMade (g, t) o e b := by
  cases o with
  | createNode type initial =>
    exact Transaction.createNode_error hi (Transaction.error_of_map h)
  | setProperty id key v =>
    obtain ⟨ht, hg⟩ := Transaction.write_error h
    refine Or.inl ⟨ht, ?_⟩
    rw [hg]
  | createRelationship start stop type properties =>
    exact Or.inl (Transaction.createRelationship_error (Transaction.error_of_map h))
  | deleteRelationship id => exact Or.inl (Transaction.deleteRelationship_error h)
  | deleteNode id => exact Or.inl (Transaction.deleteNode_error ht hi h)

namespace World
variable {L H : Type} {hooks : Set Nat} {w w' : World L H} {n : Nat} {o : Operation} {e : Failure}

/-- Whenever an operation fails, all other transactions and the committed state are as they were. So
are its own transaction and all claims, unless it leaves a node half made; and that node is stored
with whatever state the transaction is then committed to. -/
theorem failed_operation {schema : Schema} {locks : LockTable} {table : Assoc Nat (CommitHook L)}
    {host : H} (run : Moves hooks (start schema locks table host) w)
    (h : w.onTransaction n (Operation.run o) = some (.error e, w')) :
    w'.graph.committed = w.graph.committed ∧
      (∀ m, m ≠ n → w'.transactions.get? m = w.transactions.get? m) ∧
      ∃ t t', w.transactions.get? n = some t ∧ w'.transactions.get? n = some t' ∧
        (Transaction.Untouched (w.graph, t) (w'.graph, t') ↔
          ¬ Transaction.HalfMade (w.graph, t) o e (w'.graph, t')) ∧
        (Transaction.HalfMade (w.graph, t) o e (w'.graph, t') →
          t.working.nodes.has ⟨w.graph.nextNode⟩ = false ∧
            ∀ g : GraphState,
              (g.apply t'.working t'.changes).nodes.has ⟨w.graph.nextNode⟩ = true) := by
  obtain ⟨origin, hs⟩ := run.sound (sound_start schema locks table host fun _ => {})
  obtain ⟨t, c, s, ht, hrun, rfl⟩ := onTransaction_eq_some h
  obtain ⟨ht, -⟩ := transaction?_eq_some.1 ht
  have hsteps := Operation.steps (hs.tracks n t ht).tidy hrun
  have hnew := (hs.givenOut ht).2.node_new
  have hget : (w.put n s).transactions.get? n = some s.2 := by rw [get?_put, if_pos rfl]
  refine ⟨hsteps.frame.committed, fun m hm => by rw [get?_put, if_neg hm], t, s.2, ht, hget, ?_,
    fun hhalf => ⟨hnew, fun g => ?_⟩⟩
  · constructor
    · intro huntouched hhalf
      have hin := hhalf.has
      rw [huntouched.1, hnew] at hin
      exact Bool.false_ne_true hin
    · have hintact := run.intact_of_start (Or.inr ⟨n, t, ht, rfl⟩)
      exact (Operation.failed (hs.tracks n t ht).tidy hintact hrun).resolve_right
  · have htracks := (hs.put ht hsteps).tracks n s.2 hget
    have hcreated := (htracks.created ⟨w.graph.nextNode⟩).2 ⟨hhalf.has, (hs.givenOut ht).1.node_new⟩
    exact (htracks.has_apply g _).2
      ⟨fun hd => htracks.not_created_of_deleted hd hcreated, Or.inl hcreated⟩

/-! ### A person without an address -/

/-- A schema in which the address of a person must not be empty. -/
def addressed : SchemaDraft :=
  .ofRegistrations {} [.type (.root "Person"),
    .validator (.root "Person") (.named "email") .notEmpty none]

/-- A new graph for persons with addresses. -/
def registry : World Unit Unit := start addressed.schema addressed.locks [] ()

/-- A client has begun to work on it. -/
def opened : World Unit Unit := (registry.begin 0 .superUser).2

/-- A person whose address is empty. -/
def nameless : Operation := .createNode (.root "Person") [("email", .string "")]

/-- The client tries to create that person. -/
def turnedDown : World Unit Unit := (perform silent [.operate 0 nameless] opened).get rfl

theorem opened_reached : Moves {0} registry opened := .single (.begin .superUser (by simp))

theorem nameless_refused : opened.onTransaction 0 nameless.run =
    some (.error (.validation "Person" "email" "must not be empty"), turnedDown) := rfl

/-- The operation fails, and yet the person is in the working copy and is committed. -/
theorem failed_operation_leaves_node :
    ∃ t t' s w', Moves {0} registry opened ∧
      opened.onTransaction 0 nameless.run =
        some (.error (.validation "Person" "email" "must not be empty"), turnedDown) ∧
      opened.transactions.get? 0 = some t ∧ t.working.nodes.has ⟨1⟩ = false ∧
      turnedDown.transactions.get? 0 = some t' ∧ t'.working.nodes.has ⟨1⟩ = true ∧
      turnedDown.commit silent 0 = some (.ok s, w') ∧
      w'.graph.committed.nodes.has ⟨1⟩ = true :=
  ⟨_, _, _, _, opened_reached, nameless_refused, rfl, rfl, rfl, rfl, rfl, rfl⟩

/-- What is left is a person that is half made. -/
theorem failed_operation_nameless :
    ∃ e t t', opened.transactions.get? 0 = some t ∧ turnedDown.transactions.get? 0 = some t' ∧
      Transaction.HalfMade (opened.graph, t) nameless e (turnedDown.graph, t') ∧
      ∀ g : GraphState, (g.apply t'.working t'.changes).nodes.has ⟨1⟩ = true := by
  obtain ⟨-, -, t, t', ht, ht', hiff, hstored⟩ := failed_operation opened_reached nameless_refused
  have hbefore : (opened.transactions.get? 0).map (·.working.nodes.has ⟨1⟩) = some false := rfl
  have hafter : (turnedDown.transactions.get? 0).map (·.working.nodes.has ⟨1⟩) = some true := rfl
  rw [ht] at hbefore
  rw [ht'] at hafter
  have hdiffer : t' ≠ t := by
    rintro rfl
    exact absurd (hbefore.symm.trans hafter) (by decide)
  have hhalf := of_not_not fun hnot => hdiffer (hiff.2 hnot).1
  exact ⟨_, t, t', ht, ht', hhalf, (hstored hhalf).2⟩

end World
end EntityGraph
