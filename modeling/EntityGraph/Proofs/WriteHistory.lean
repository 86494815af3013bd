import EntityGraph.Proofs.FailedOperations
import EntityGraph.Proofs.Removals
import EntityGraph.Proofs.UniqueWrites
import Mathlib.Logic.Function.Basic

/-!
What transactions have written. Each operation is known by the writes of it that succeeded, with
what these stored, and a run by those of all operations on each transaction. A change set keeps less
than that: it does not say how often a property was written, nor that it was written at all if it
was not set before and is not set now. It does say which properties were last set to a value.

Main statements: `Recorded.run` — what an operation writes is what its change set says;
`Moves.chronicle` and `Chronicle.recorded` — every run has a history, and at each moment change sets
agree with it.
-/

namespace EntityGraph

/-! ### Writes -/

/-- A property that was written, and what has been stored for it, if anything. -/
structure Write where
  node : NodeId
  key : String
  stored : Option Value

/-- What the last write to a property stored, if it was written. -/
def lastStored? (ws : List Write) (id : NodeId) (key : String) : Option (Option Value) :=
  (ws.reverse.find? fun w => (w.node, w.key) = (id, key)).map (·.stored)

theorem lastStored?_nil (id : NodeId) (key : String) : lastStored? [] id key = none := rfl

theorem lastStored?_concat (ws : List Write) (w : Write) (id : NodeId) (key : String) :
    lastStored? (ws ++ [w]) id key =
      if (id, key) = (w.node, w.key) then some w.stored else lastStored? ws id key := by
  rw [lastStored?, List.reverse_append, List.reverse_singleton, List.singleton_append,
    List.find?_cons]
  by_cases h : (w.node, w.key) = (id, key)
  · rw [decide_eq_true h, if_pos h.symm]
    rfl
  · rw [decide_eq_false h, if_neg (Ne.symm h)]
    rfl

theorem exists_of_lastStored? {ws : List Write} {id : NodeId} {key : String} {v : Option Value}
    (h : lastStored? ws id key = some v) : ∃ w ∈ ws, w.node = id := by
  obtain ⟨w, hw, -⟩ := Option.map_eq_some_iff.1 h
  have hpair : (w.node, w.key) = (id, key) := by simpa using List.find?_some hw
  exact ⟨w, List.mem_reverse.1 (List.mem_of_find?_eq_some hw), (Prod.mk.inj hpair).1⟩

/-! ### The writes of an operation -/

namespace Transaction

/-- A write to a property that led to this transaction. -/
def written (t : Transaction) (id : NodeId) (key : String) : Write :=
  ⟨id, key, t.working.value? id key⟩

/-- The writes to a new node that succeed: all up to the first that fails. -/
def initialWrites (g : Graph) (t : Transaction) (id : NodeId) (type : String) :
    Properties → List Write
  | [] => []
  | (name, v) :: rest =>
    match t.write g id (.declaredBy type name) v true with
    | some (.ok (), g, t) => t.written id name :: initialWrites g t id type rest
    | _ => []

theorem initialWrites_of_ok {g g' : Graph} {t t' : Transaction} {id : NodeId} {type name : String}
    {v : Value} (h : t.write g id (.declaredBy type name) v true = some (.ok (), g', t'))
    (rest : Properties) : t.initialWrites g id type ((name, v) :: rest) =
      t'.written id name :: t'.initialWrites g' id type rest := by
  simp only [initialWrites, h]

theorem initialWrites_of_error {g g' : Graph} {t t' : Transaction} {id : NodeId}
    {type name : String} {v : Value} {e : Failure}
    (h : t.write g id (.declaredBy type name) v true = some (.error e, g', t'))
    (rest : Properties) : t.initialWrites g id type ((name, v) :: rest) = [] := by
  simp only [initialWrites, h]

end Transaction

/-- The writes of an operation that succeed, also if the operation fails afterwards. -/
def Operation.writes (o : Operation) (g : Graph) (t : Transaction) : List Write :=
  match o with
  | createNode type initial =>
    if (g.schema.type? type.name).isNone then []
    else
      match Transformation.applyAll t.caller ⟨⟨g.nextNode⟩, type, initial⟩
          (g.schema.transformationsOf type) with
      | (.error _, _) => []
      | (.ok (), node) =>
        (t.enter ⟨g.nextNode⟩ type.name).initialWrites { g with nextNode := g.nextNode + 1 }
          ⟨g.nextNode⟩ type.name (node.properties.without typeProperty)
  | setProperty id key v =>
    match t.write g id key v with
    | some (.ok (), _, t) => [t.written id key.name]
    | _ => []
  | createRelationship .. | deleteRelationship _ | deleteNode _ => []

namespace Transaction
variable {g g' : Graph} {t t' : Transaction} {ws : List Write} {start : GraphState}

theorem lastStored?_written (ws : List Write) (t : Transaction) (id : NodeId) (key : String)
    (i : NodeId) (k : String) :
    lastStored? (ws ++ [t.written id key]) i k =
      if (i, k) = (id, key) then some (t.working.value? id key) else lastStored? ws i k :=
  lastStored?_concat ws (t.written id key) i k

/-- A change set says of the same properties as the history that they were last set to a value, of
nodes that are not deleted. -/
structure Recorded (g : Graph) (t : Transaction) (ws : List Write) : Prop where
  /-- The identities of nodes have been given out, also of those that were written to. -/
  nodes : ∀ id, t.working.nodes.has id = true → id.raw < g.nextNode
  known : ∀ w ∈ ws, w.node.raw < g.nextNode
  set_iff : ∀ id key v,
    lastStored? ws id key = some (some v) ∧ t.working.nodes.has id = true ↔
      ∃ previous, t.changes.change? id key = some (previous, some v)

theorem Recorded.congr (h : Recorded g t ws) (hnext : g.nextNode ≤ g'.nextNode)
    (hhas : ∀ id, t'.working.nodes.has id = t.working.nodes.has id)
    (hchange : ∀ id key, t'.changes.change? id key = t.changes.change? id key) :
    Recorded g' t' ws where
  nodes id hid := (h.nodes id ((hhas id).symm.trans hid)).trans_le hnext
  known w hw := (h.known w hw).trans_le hnext
  set_iff id key v := by rw [hhas, hchange, h.set_iff]

theorem nextNode_write {id : NodeId} {key : PropertyKey} {v : Value} {creating : Bool}
    {r : Except Failure Unit} (h : t.write g id key v creating = some (r, g', t')) :
    g'.nextNode = g.nextNode := by
  rw [write] at h
  split at h
  · obtain ⟨-, rfl, -⟩ : _ ∧ g = g' ∧ t = t' := by simpa [fail] using h
    rfl
  · next node v' _ =>
    split at h
    · simp at h
    · next hcheck =>
      obtain ⟨-, rfl, -⟩ : _ ∧ _ = g' ∧ t = t' := by simpa [fail] using h
      rw [check_eq_some hcheck]
    · next g₁ hcheck =>
      obtain ⟨-, rfl, -⟩ : _ ∧ t.settled g₁ id key v' = g' ∧ _ = t' := by
        simpa [settled] using h
      rw [settled_eq, check_eq_some hcheck]

/-- A write that succeeds keeps the change set and the history in agreement. -/
theorem Recorded.write (hr : Recorded g t ws) (ht : Tracks start t.working t.changes)
    {id : NodeId} {key : PropertyKey} {v : Value} {creating : Bool}
    (h : t.write g id key v creating = some (.ok (), g', t')) :
    Recorded g' t' (ws ++ [t'.written id key.name]) ∧ Tracks start t'.working t'.changes := by
  have hnext := nextNode_write h
  obtain ⟨node, u, hprepare, rfl⟩ := write_eq_ok h
  obtain ⟨hkey, hnode, -, -⟩ := prepare_eq_ok hprepare
  have hin := GraphState.has_of_node? hnode
  obtain ⟨rfl, hp, -⟩ := node?_eq_some hnode
  have hhas := t.has_store node key u
  refine ⟨⟨fun i hi => ?_, fun w hw => ?_, fun i k w => ?_⟩, ht.store hp hkey u⟩
  · rw [hnext]
    exact hr.nodes i ((hhas i).symm.trans hi)
  · rw [hnext]
    rcases List.mem_append.1 hw with hw | hw
    · exact hr.known w hw
    · rw [List.mem_singleton.1 hw]
      exact hr.nodes node.id hin
  · obtain ⟨hvalue, hchange⟩ := store_cell ht hp key u i k
    rw [lastStored?_written, hhas]
    by_cases hcell : (i, k) = (node.id, key.name)
    · -- The entry of the written property now leads to what was stored for it.
      obtain ⟨rfl, rfl⟩ := Prod.mk.inj hcell
      rw [if_pos rfl] at hvalue
      rw [if_pos rfl, hvalue, ht.change?_store hp hkey, Value.kept, hin]
      cases u.isNull <;> cases start.value? node.id key.name <;> simp [ChangeSet.netChange]
    · rw [if_neg hcell, hchange hcell, hr.set_iff]

/-- A new node has not been written to. -/
theorem Recorded.enter (hr : Recorded g t ws) (ht : Tracks start t.working t.changes)
    (hnew : start.nodes.has ⟨g.nextNode⟩ = false) (type : String) :
    Recorded { g with nextNode := g.nextNode + 1 } (t.enter ⟨g.nextNode⟩ type) ws ∧
      Tracks start (t.enter ⟨g.nextNode⟩ type).working (t.enter ⟨g.nextNode⟩ type).changes := by
  have hout : t.working.nodes.has ⟨g.nextNode⟩ = false :=
    Bool.eq_false_iff.2 fun hid => Nat.lt_irrefl _ (hr.nodes _ hid)
  have hhas := Assoc.has_put t.working.nodes ⟨g.nextNode⟩ [(typeProperty, .string type)]
  refine ⟨⟨fun i hi => ?_, fun w hw => Nat.lt_succ_of_lt (hr.known w hw), fun i k w => ?_⟩,
    ht.enter hnew hout type⟩
  · rw [Transaction.enter, hhas] at hi
    rcases Bool.or_eq_true_iff.1 hi with hi | hi
    · rw [of_decide_eq_true hi]
      exact Nat.lt_succ_self _
    · exact Nat.lt_succ_of_lt (hr.nodes i hi)
  · have hchange : (t.enter ⟨g.nextNode⟩ type).changes.change? i k = t.changes.change? i k :=
      (ht.filed.createNode _).2 i k
    rw [hchange, ← hr.set_iff, Transaction.enter, hhas]
    by_cases hi : i = ⟨g.nextNode⟩
    · have hunwritten : lastStored? ws i k ≠ some (some w) := by
        intro hlast
        obtain ⟨w, hw, hid⟩ := exists_of_lastStored? hlast
        exact Nat.lt_irrefl g.nextNode (by simpa [hid, hi] using hr.known w hw)
      simp [hunwritten]
    · simp [hi]

/-- A node that is deleted takes its entries with it, or what they lead to. -/
theorem Recorded.erase (hr : Recorded g t ws) (ht : Tracks start t.working t.changes) {id : NodeId}
    {p : Properties} (hp : t.working.nodes.get? id = some p) : Recorded g (t.erase id p) ws := by
  have htracks := ht.erase hp
  have hhas : ∀ i, (t.erase id p).working.nodes.has i =
      (decide (i ≠ id) && t.working.nodes.has i) := Assoc.has_without t.working.nodes id
  refine ⟨fun i hi => ?_, hr.known, fun i k w => ?_⟩
  · rw [hhas] at hi
    exact hr.nodes i (Bool.and_eq_true_iff.1 hi).2
  · by_cases hi : i = id
    · subst hi
      have hgone : (t.erase i p).working.nodes.has i = false := by simp [hhas]
      refine iff_of_false (fun h => by simp [hgone] at h) ?_
      rintro ⟨previous, hchange⟩
      have hvalue := (htracks.change i k previous (some w) hchange).2.1
      rw [GraphState.value?_eq_none_of_has hgone] at hvalue
      simp at hvalue
    · rw [change?_erase ht hp hi, ← hr.set_iff, hhas]
      simp [hi]

/-! ### One operation -/

/-- The initial properties of a node are written, up to the first that fails. -/
theorem Recorded.writeAll (hr : Recorded g t ws) (ht : Tracks start t.working t.changes)
    {id : NodeId} {type : String} {rows : Properties} {r : Except Failure Unit}
    (h : t.writeAll g id type rows = some (r, g', t')) :
    Recorded g' t' (ws ++ t.initialWrites g id type rows) := by
  induction rows generalizing g t ws with
  | nil =>
    obtain ⟨-, rfl, rfl⟩ : _ ∧ g = g' ∧ t = t' := by simpa [Transaction.writeAll] using h
    rwa [initialWrites, List.append_nil]
  | cons row rows ih =>
    obtain ⟨name, v⟩ := row
    rw [Transaction.writeAll] at h
    split at h
    · next g₁ t₁ hwrite =>
      obtain ⟨hr₁, ht₁⟩ := hr.write ht hwrite
      have hrest := ih hr₁ ht₁ h
      rw [List.append_assoc] at hrest
      rw [initialWrites_of_ok hwrite]
      exact hrest
    · next hnot =>
      cases r with
      | ok => exact absurd h (hnot g' t')
      | error e =>
        have hnext := nextNode_write h
        rw [initialWrites_of_error h, List.append_nil]
        obtain ⟨rfl, -⟩ := write_error h
        exact hr.congr hnext.ge (fun _ => rfl) fun _ _ => rfl

theorem Recorded.createNode (hr : Recorded g t ws) (ht : Tracks start t.working t.changes)
    (hnew : start.nodes.has ⟨g.nextNode⟩ = false) {type : EntityType} {initial : Properties}
    {r : Except Failure Node} (h : t.createNode g type initial = some (r, g', t')) :
    Recorded g' t' (ws ++ (Operation.createNode type initial).writes g t) := by
  rw [Transaction.createNode] at h
  split at h
  · next hunknown =>
    obtain ⟨-, rfl, rfl⟩ : _ ∧ g = g' ∧ t = t' := by simpa [fail] using h
    rwa [Operation.writes, if_pos hunknown, List.append_nil]
  · next hknown =>
    simp only at h
    split at h
    · next happly =>
      obtain ⟨-, rfl, rfl⟩ : _ ∧ { g with nextNode := g.nextNode + 1 } = g' ∧ t = t' := by
        simpa [fail] using h
      simp only [Operation.writes, if_neg hknown, happly, List.append_nil]
      exact hr.congr (Nat.le_succ _) (fun _ => rfl) fun _ _ => rfl
    · next node happly =>
      obtain ⟨hentered, htracks⟩ := hr.enter ht hnew type.name
      simp only [Operation.writes, if_neg hknown, happly]
      split at h
      · simp at h
      · next hall =>
        obtain ⟨-, rfl, rfl⟩ : _ ∧ _ = g' ∧ _ = t' := by simpa [fail] using h
        exact hentered.writeAll htracks hall
      · next hall =>
        obtain ⟨-, rfl, rfl⟩ : _ ∧ _ = g' ∧ _ = t' := by simpa using h
        exact hentered.writeAll htracks hall

theorem Recorded.deleteNode (hr : Recorded g t ws)
    (ht : ∀ s, Steps (g, t) s → Tracks start s.2.working s.2.changes) {id : NodeId}
    {r : Except Failure Unit} (h : t.deleteNode g id = some (r, g', t')) : Recorded g' t' ws := by
  have ht₀ := ht _ .refl
  have hdrop : Steps (g, t) (g, (t.working.relationshipsOf id).foldl dropRelationship t) :=
    foldl_dropRelationship_steps _ (relationshipsOf_nodup ht₀.tidy id)
      fun r hr => get?_of_mem_relationshipsOf ht₀.tidy hr
  have hdropped : Recorded g ((t.working.relationshipsOf id).foldl dropRelationship t) ws := by
    refine hr.congr (Nat.le_refl _) (fun i => ?_) (filed_foldl_dropRelationship _ ht₀.filed).2
    rw [nodes_foldl_dropRelationship]
  rw [Transaction.deleteNode] at h
  simp only at h
  split at h
  · obtain ⟨-, rfl, rfl⟩ : _ ∧ g = g' ∧ _ = t' := by simpa [fail] using h
    exact hdropped
  · next p hp =>
    obtain ⟨-, rfl, rfl⟩ : _ ∧ _ = g' ∧ _ = t' := by simpa using h
    exact (hdropped.erase (ht _ hdrop) hp).congr (Nat.le_refl _) (fun _ => rfl) fun _ _ => rfl

/-- However an operation ends, its writes are what becomes of the change set. -/
theorem Recorded.run {o : Operation} (hr : Recorded g t ws)
    (ht : ∀ s, Steps (g, t) s → Tracks start s.2.working s.2.changes)
    (hnew : start.nodes.has ⟨g.nextNode⟩ = false) {r : Except Failure Unit}
    (h : o.run g t = some (r, g', t')) : Recorded g' t' (ws ++ o.writes g t) := by
  have ht₀ := ht _ .refl
  cases o with
  | createNode type initial =>
    obtain ⟨⟨r', s⟩, hrun, he⟩ := Option.map_eq_some_iff.1 h
    obtain ⟨-, rfl⟩ := Prod.mk.inj he
    exact hr.createNode ht₀ hnew hrun
  | setProperty id key v =>
    replace h : t.write g id key v = some (r, g', t') := h
    rw [Operation.writes]
    cases r with
    | ok =>
      simp only [h]
      exact (hr.write ht₀ h).1
    | error e =>
      have hnext := nextNode_write h
      obtain ⟨rfl, -⟩ := write_error h
      simp only [h, List.append_nil]
      exact hr.congr hnext.ge (fun _ => rfl) fun _ _ => rfl
  | createRelationship start stop type properties =>
    obtain ⟨⟨r', s⟩, hrun, he⟩ := Option.map_eq_some_iff.1 h
    obtain ⟨-, rfl⟩ := Prod.mk.inj he
    rw [Operation.writes, List.append_nil]
    rw [Transaction.createRelationship] at hrun
    split at hrun
    · obtain ⟨-, rfl, rfl⟩ : _ ∧ g = g' ∧ t = t' := by simpa [fail] using hrun
      exact hr
    · obtain ⟨-, rfl, rfl⟩ : _ ∧ g = g' ∧ t = t' := by simpa [fail] using hrun
      exact hr
    · obtain ⟨-, rfl, rfl⟩ : _ ∧ _ = g' ∧ _ = t' := by simpa using hrun
      exact hr.congr (Nat.le_refl _) (fun _ => rfl) (ht₀.filed.congr rfl rfl rfl).2
  | deleteRelationship id =>
    replace h : t.deleteRelationship g id = some (r, g', t') := h
    rw [Operation.writes, List.append_nil]
    rw [Transaction.deleteRelationship] at h
    split at h
    · obtain ⟨-, rfl, rfl⟩ : _ ∧ g = g' ∧ t = t' := by simpa [fail] using h
      exact hr
    · obtain ⟨-, rfl, rfl⟩ : _ ∧ g = g' ∧ t.dropRelationship _ = t' := by simpa using h
      exact hr.congr (Nat.le_refl _) (fun _ => rfl) (change?_dropRelationship ht₀.filed _)
  | deleteNode id =>
    rw [Operation.writes, List.append_nil]
    exact hr.deleteNode ht h

end Transaction

namespace World
variable {L H : Type} {hooks : Set Nat} {w₀ w w' : World L H} {origin : Nat → GraphState}

/-- What has been written under the number of each transaction. -/
abbrev History := Nat → List Write

/-- Runs, with what is written in each. -/
inductive Chronicle (hooks : Set Nat) (w₀ : World L H) : History → World L H → Prop
  | refl : Chronicle hooks w₀ (fun _ => []) w₀
  | aside {ws w w'} (run : Chronicle hooks w₀ ws w) (h : Aside w w') : Chronicle hooks w₀ ws w'
  | begin {ws w h} (caller : Caller) (run : Chronicle hooks w₀ ws w) (hh : h ∈ hooks) :
    Chronicle hooks w₀ ws (w.begin h caller).2
  /-- The writes of an operation come after those before it. -/
  | operation {ws w n t o r w'} (run : Chronicle hooks w₀ ws w)
    (ht : w.transactions.get? n = some t)
    (h : w.onTransaction n (Operation.run o) = some (r, w')) :
    Chronicle hooks w₀ (Function.update ws n (ws n ++ o.writes w.graph t)) w'
  | close {ws w n t c} (run : Chronicle hooks w₀ ws w) (ht : w.transaction? n = some (t, c)) :
    Chronicle hooks w₀ ws (w.close n)
  | settle {ws w n} {t : Transaction} (run : Chronicle hooks w₀ ws w)
    (ht : w.transactions.get? n = some { t with context := none })
    (hfits : t.changes.conflict? w.graph.committed = none) : Chronicle hooks w₀ ws (w.settle n t)
  | forget {ws w n} {t : Transaction} (run : Chronicle hooks w₀ ws w)
    (ht : w.transactions.get? n = some { t with context := none }) :
    Chronicle hooks w₀ ws (w.forget n t.txn)

theorem Chronicle.moves {ws : History} (h : Chronicle hooks w₀ ws w) : Moves hooks w₀ w := by
  induction h with
  | refl => exact .refl
  | aside _ ha ih => exact ih.tail (.aside ha)
  | begin caller _ hh ih => exact ih.tail (.begin caller hh)
  | operation _ _ hop ih => exact ih.tail (.operation hop)
  | close _ ht ih => exact ih.tail (.close ht)
  | settle _ ht hfits ih => exact ih.tail (.settle ht hfits)
  | forget _ ht ih => exact ih.tail (.forget ht)

/-- Every run has a history. -/
theorem Moves.chronicle (h : Moves hooks w₀ w) : ∃ ws, Chronicle hooks w₀ ws w := by
  induction h with
  | refl => exact ⟨_, .refl⟩
  | tail _ hmove ih =>
    obtain ⟨ws, run⟩ := ih
    cases hmove with
    | aside ha => exact ⟨ws, run.aside ha⟩
    | begin caller hh => exact ⟨ws, run.begin caller hh⟩
    | operation hop =>
      obtain ⟨t, c, s, ht, -, -⟩ := onTransaction_eq_some hop
      exact ⟨_, run.operation (transaction?_eq_some.1 ht).1 hop⟩
    | close ht => exact ⟨ws, run.close ht⟩
    | settle ht hfits => exact ⟨ws, run.settle ht hfits⟩
    | forget ht => exact ⟨ws, run.forget ht⟩

/-- Change sets agree with the history. -/
structure Recorded (w : World L H) (ws : History) : Prop where
  recorded : ∀ n t, w.transactions.get? n = some t → t.Recorded w.graph (ws n)
  /-- Nothing was written under a number that is not given out yet. -/
  unused : ∀ n, w.nextTransaction ≤ n → ws n = []

theorem Recorded.begin {ws : History} (h : w.Recorded ws) (hs : Sound origin w) (k : Nat)
    (caller : Caller) : (w.begin k caller).2.Recorded ws where
  recorded n t ht := by
    rcases get?_of_begin ht with ⟨rfl, rfl⟩ | ⟨-, ht⟩
    · rw [h.unused _ (Nat.le_refl _)]
      refine ⟨fun id => hs.nodes.committed_lt id.raw, by simp, fun id key v => ?_⟩
      simp [lastStored?_nil, newcomer, ChangeSet.change?, ChangeSet.entryOf?]
    · exact h.recorded n t ht
  unused n hn := h.unused n (Nat.le_of_succ_le hn)

theorem Recorded.operation {ws : History} (h : w.Recorded ws) (hs : Sound origin w) {n : Nat}
    {t : Transaction} {o : Operation} {r : Except Failure Unit}
    (ht : w.transactions.get? n = some t)
    (hop : w.onTransaction n (Operation.run o) = some (r, w')) :
    w'.Recorded (Function.update ws n (ws n ++ o.writes w.graph t)) := by
  obtain ⟨t₀, c, ⟨g, t'⟩, hopen, hrun, rfl⟩ := onTransaction_eq_some hop
  obtain rfl := Option.some.inj (ht.symm.trans (transaction?_eq_some.1 hopen).1)
  have hsteps := Operation.steps (hs.tracks n t ht).tidy hrun
  have hself := (h.recorded n t ht).run (fun s hs' => hs.tracks_steps ht hs')
    (hs.givenOut ht).1.node_new hrun
  refine ⟨fun m u hu => ?_, fun m hm => ?_⟩
  · rcases get?_of_put hu with ⟨rfl, rfl⟩ | ⟨hne, hu⟩
    · rwa [Function.update_self]
    · rw [Function.update_of_ne hne]
      exact (h.recorded m u hu).congr hsteps.grows.nextNode (fun _ => rfl) fun _ _ => rfl
  · have hne : m ≠ n := (Nat.ne_of_lt ((hs.numbers n t ht).trans_le hm)).symm
    rw [Function.update_of_ne hne]
    exact h.unused m hm

/-- At each moment of a run from a new graph, change sets agree with what has been written. -/
theorem Chronicle.recorded {schema : Schema} {locks : LockTable} {table : Assoc Nat (CommitHook L)}
    {host : H} {ws : History} (h : Chronicle hooks (start schema locks table host) ws w) :
    w.Recorded ws := by
  induction h with
  | refl => exact ⟨by intro n t ht; simp [start] at ht, fun _ _ => rfl⟩
  | aside _ ha ih =>
    exact ⟨ha.transactions ▸ ha.graph ▸ ih.recorded, ha.nextTransaction ▸ ih.unused⟩
  | begin caller run _ ih =>
    obtain ⟨o, hs⟩ := run.moves.sound (sound_start schema locks table host fun _ => {})
    exact ih.begin hs _ caller
  | operation run ht hop ih =>
    obtain ⟨o, hs⟩ := run.moves.sound (sound_start schema locks table host fun _ => {})
    exact ih.operation hs ht hop
  | close _ _ ih =>
    refine ⟨fun m t ht => ?_, ih.unused⟩
    obtain ⟨t₀, ht₀, he, -⟩ := get?_of_close ht
    rw [he]
    exact (ih.recorded m t₀ ht₀).congr (Nat.le_refl _) (fun _ => rfl) fun _ _ => rfl
  | settle _ _ _ ih | forget _ _ ih =>
    refine ⟨fun m t ht => ?_, ih.unused⟩
    exact (ih.recorded m t (get?_of_forget ht).2).congr (Nat.le_refl _) (fun _ => rfl)
      fun _ _ => rfl

end World
end EntityGraph
