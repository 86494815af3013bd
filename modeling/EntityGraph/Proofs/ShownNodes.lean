import EntityGraph.Proofs.AllOrNothing
import EntityGraph.Proofs.EventStream

/-!
The nodes that listeners are shown. They are those of the working copy, while a commit writes single
properties over what others have committed in the meantime. So a shown node agrees with the stored
one in its type and in everything that the transaction itself did; another property may be older
than the stored one, but only if somebody else has committed a change of it since.

Main statements: `Logged.value?` — a property changes only where a commit of the log changes it;
`nodes_shown` — each node that an event shows, against the stored one.
-/

namespace EntityGraph

/-- The node that an event shows as created or modified. -/
def Event.shown? : Event → Option Node
  | .nodeCreated node | .nodeModified node | .propertyModified node _ _ _ => some node
  | _ => none

/-- A commit shows nodes of the working copy that it created or wrote to. -/
theorem EventPlan.shown_of_mem_events {s : Schema} {w : GraphState} {c : ChangeSet} {e : Event}
    (he : e ∈ events s w c) {node : Node} (hnode : e.shown? = some node) :
    ∃ id, node = w.nodeOf s id ∧
      (id ∈ c.createdNodes ∨ ∃ x ∈ survivingChanges c, x.node = id) := by
  simp only [events, List.mem_cons, List.mem_append, List.mem_map] at he
  rcases he with rfl | ((((⟨id, hid, rfl⟩ | ⟨r, -, rfl⟩ | ⟨r, -, rfl⟩) | ⟨id, -, rfl⟩) |
    ⟨x, hx, rfl⟩) | ⟨id, hid, rfl⟩) | rfl | h
  · cases hnode
  · exact ⟨id, (Option.some.inj hnode).symm, Or.inl hid⟩
  · cases hnode
  · cases hnode
  · cases hnode
  · exact ⟨x.node, (Option.some.inj hnode).symm, Or.inr ⟨x, hx, rfl⟩⟩
  · obtain ⟨x, hx, hxid⟩ := List.mem_map.1 (List.mem_eraseDups.1 (List.mem_filter.1 hid).1)
    exact ⟨id, (Option.some.inj hnode).symm, Or.inr ⟨x, hx, hxid⟩⟩
  · cases hnode
  · cases h

namespace World
variable {L H : Type}

/-! ### Moments with the commits before them -/

/-- What a run comes to at some moment, with the commits that succeeded until then. -/
inductive Logged (hooks : Set Nat) : World L H → List CommitRecord → World L H → Prop
  | refl (w) : Logged hooks w [] w
  | quiet {w log w₁ w₂} (run : Logged hooks w log w₁) (h : Move hooks w₁ w₂)
    (hsame : w₂.graph.committed = w₁.graph.committed) : Logged hooks w log w₂
  | settle {w log w₁ n} {t : Transaction} (run : Logged hooks w log w₁)
    (ht : w₁.transactions.get? n = some { t with context := none })
    (hfits : t.changes.conflict? w₁.graph.committed = none) :
    Logged hooks w (log ++ [⟨n, w₁.graph.committed, t⟩]) (w₁.settle n t)

variable {hooks : Set Nat} {w w' w₁ w₂ : World L H} {log log' : List CommitRecord}
  {origin : Nat → GraphState}

theorem Logged.trans (h : Logged hooks w log w₁) (h' : Logged hooks w₁ log' w₂) :
    Logged hooks w (log ++ log') w₂ := by
  induction h' with
  | refl => simpa using h
  | quiet _ hmove hsame ih => exact ih.quiet hmove hsame
  | settle _ ht hfits ih => simpa only [List.append_assoc] using ih.settle ht hfits

theorem Logged.moves (h : Logged hooks w log w₁) : Moves hooks w w₁ := by
  induction h with
  | refl => exact .refl
  | quiet _ hmove _ ih => exact ih.tail hmove
  | settle _ ht hfits ih => exact ih.tail (.settle ht hfits)

theorem Reaches.logged (h : Reaches hooks w log w₁) (hs : Sound origin w) :
    Logged hooks w log w₁ := by
  induction h generalizing origin with
  | refl => exact .refl _
  | aside _ ha ih => exact (ih hs).quiet (.aside ha) (congrArg Graph.committed ha.graph)
  | begin caller _ hh ih => exact (ih hs).quiet (.begin caller hh) rfl
  | operation _ hop ih =>
    obtain ⟨t, c, s, -, hrun, rfl⟩ := onTransaction_eq_some hop
    exact (ih hs).quiet (.operation hop) (Operation.frame hrun).committed
  | commit run ht meanwhile hfits ih ihm =>
    obtain ⟨o, ho, -⟩ := run.sound hs
    obtain ⟨hclosed, -⟩ := ho.closed ht meanwhile
    exact (((ih hs).quiet (.close ht) rfl).trans (ihm (ho.close _))).settle hclosed hfits
  | rollback run ht meanwhile ih ihm =>
    obtain ⟨o, ho, -⟩ := run.sound hs
    obtain ⟨hclosed, -⟩ := ho.closed ht meanwhile
    exact (((ih hs).quiet (.close ht) rfl).trans (ihm (ho.close _))).quiet (.forget hclosed) rfl

/-- Whoever is open after a move and is not new was open before. -/
theorem Move.open_before (h : Move hooks w w') {n : Nat} {t : Transaction}
    (hn : n < w.nextTransaction) (ht : w'.transactions.get? n = some t) :
    ∃ t₀, w.transactions.get? n = some t₀ := by
  cases h with
  | aside ha => exact ⟨t, ha.transactions ▸ ht⟩
  | begin caller =>
    rcases get?_of_begin ht with ⟨rfl, -⟩ | ⟨-, ht⟩
    · exact absurd hn (Nat.lt_irrefl _)
    · exact ⟨t, ht⟩
  | operation hop =>
    obtain ⟨t₀, c, s, ht₀, -, rfl⟩ := onTransaction_eq_some hop
    rcases get?_of_put ht with ⟨rfl, -⟩ | ⟨-, ht⟩
    · exact ⟨t₀, (transaction?_eq_some.1 ht₀).1⟩
    · exact ⟨t, ht⟩
  | close =>
    obtain ⟨t₀, ht₀, -⟩ := get?_of_close ht
    exact ⟨t₀, ht₀⟩
  | settle => exact ⟨t, (get?_of_forget ht).2⟩
  | forget => exact ⟨t, (get?_of_forget ht).2⟩

/-- As long as a transaction is open, no commit is its own. -/
theorem Logged.handle_ne (h : Logged hooks w log w₁) (hs : Sound origin w) {n : Nat}
    {t : Transaction} (hn : n < w.nextTransaction) (ht : w₁.transactions.get? n = some t) :
    ∀ r ∈ log, r.handle ≠ n := by
  induction h generalizing t with
  | refl => simp
  | quiet run hmove _ ih =>
    obtain ⟨o, -, hle, -⟩ := Moves.origins run.moves hs
    obtain ⟨t₀, ht₀⟩ := hmove.open_before (hn.trans_le hle) ht
    exact ih ht₀
  | settle _ _ _ ih =>
    obtain ⟨hne, ht⟩ := get?_of_forget ht
    intro r hr
    rcases List.mem_append.1 hr with hr | hr
    · exact ih ht r hr
    · rw [List.mem_singleton.1 hr]
      exact hne.symm

/-- A commit of the list changes the property. -/
def ChangedIn (log : List CommitRecord) (id : NodeId) (k : String) : Prop :=
  ∃ r ∈ log, (r.transaction.changes.change? id k).isSome

/-- A property of a node that is there all along changes only where a commit changes it. -/
theorem Logged.value? (h : Logged hooks w log w₁) (hs : Sound origin w) {id : NodeId}
    (hid : w.graph.committed.nodes.has id = true) (hid' : w₁.graph.committed.nodes.has id = true)
    (k : String) : w₁.graph.committed.value? id k = w.graph.committed.value? id k ∨
      ChangedIn log id k := by
  induction h with
  | refl => exact Or.inl rfl
  | quiet _ _ hsame ih =>
    rw [hsame] at hid' ⊢
    exact ih hid'
  | @settle log v n t run ht hfits ih =>
    have hin := Moves.has_between run.moves (.settle ht hfits) hs hid hid'
    obtain ⟨o, ho⟩ := Moves.sound run.moves hs
    have htracks := ho.tracks n _ ht
    cases hchange : (t.changes.change? id k).isSome with
    | true => exact Or.inr ⟨_, List.mem_append_right _ (List.mem_singleton_self _), hchange⟩
    | false =>
      have hd := ((htracks.has_apply v.graph.committed id).1 hid').1
      have hvalue := htracks.value?_apply v.graph.committed hd (ho.not_created ht hin) hin k
      rw [hchange, if_neg Bool.false_ne_true] at hvalue
      refine (ih hin).imp (fun he => hvalue.trans he) ?_
      rintro ⟨r, hr, hsome⟩
      exact ⟨r, List.mem_append_left _ hr, hsome⟩

/-! ### Shown and stored nodes -/

/-- A node as a commit shows it, and the node that is stored after it: `start` is committed when the
transaction begins, `before` when its changes are applied, and the list has the commits in between.
-/
structure ShownAs (start before : GraphState) (c : ChangeSet) (n : Nat) (log : List CommitRecord)
    (node stored : Node) : Prop where
  identity : stored.id = node.id
  type : stored.type = node.type
  /-- A node that the transaction created is stored as it is shown. -/
  created : node.id ∈ c.createdNodes → stored = node
  /-- So is what it changed of another one. -/
  changed : ∀ k, (c.change? node.id k).isSome → stored.property? k = node.property? k
  /-- What it did not change is shown as it was at the start, and stays as it is committed. -/
  unchanged : node.id ∉ c.createdNodes → ∀ k, c.change? node.id k = none →
    node.property? k = start.value? node.id k ∧ stored.property? k = before.value? node.id k
  /-- A property that is shown as it was has been changed since by somebody else. -/
  overtaken : ∀ k, stored.property? k ≠ node.property? k →
    ∃ r ∈ log, r.handle ≠ n ∧ (r.transaction.changes.change? node.id k).isSome
  /-- Without such a property the node is shown as it is stored. -/
  same : (∀ k, stored.property? k = node.property? k) → stored = node

end World

/-! ### Two states that know a node -/

namespace GraphState
variable {s : Schema} {g h : GraphState} {id : NodeId}

theorem Intact.property?_nodeOf (hi : g.Intact s) (hid : g.nodes.has id = true) (k : String) :
    (g.nodeOf s id).property? k = g.value? id k := by
  obtain ⟨-, hget⟩ := hi.get?_eq hid
  rw [value?_of_node hget]
  rfl

theorem Intact.type_nodeOf (hi : g.Intact s) (hid : g.nodes.has id = true) :
    g.type? s id = some (g.nodeOf s id).type := by
  rw [type?, hi.node?_eq hid]
  rfl

/-- Two states that agree on a node show it alike. -/
theorem nodeOf_congr (hg : g.Intact s) (hh : h.Intact s) (hgt : g.Tidy) (hht : h.Tidy)
    (hgid : g.nodes.has id = true) (hhid : h.nodes.has id = true)
    (htype : (g.nodeOf s id).type = (h.nodeOf s id).type)
    (hvalue : ∀ k, g.value? id k = h.value? id k) : g.nodeOf s id = h.nodeOf s id := by
  obtain ⟨hgi, hgp⟩ := hg.get?_eq hgid
  obtain ⟨hhi, hhp⟩ := hh.get?_eq hhid
  have hproperties : (g.nodeOf s id).properties = (h.nodeOf s id).properties := by
    refine (hgt.properties id _ hgp).ext (hht.properties id _ hhp) fun k => ?_
    rw [← value?_of_node hgp, ← value?_of_node hhp, hvalue]
  generalize g.nodeOf s id = a at *
  generalize h.nodeOf s id = b at *
  obtain ⟨i, type, p⟩ := a
  obtain ⟨j, type', q⟩ := b
  simp only at hgi hhi htype hproperties
  rw [hgi, hhi, htype, hproperties]

end GraphState

/-! ### Commits -/

namespace Tracks
variable {s : Schema} {start w p : GraphState} {c : ChangeSet}

/-- A node that is told of as created or modified is there after the commit, and if the transaction
did not create it, it was there all along. -/
theorem has_of_shown (h : Tracks start w c) (hfits : c.Fits p) {id : NodeId}
    (hid : id ∈ c.createdNodes ∨ ∃ x ∈ EventPlan.survivingChanges c, x.node = id) :
    (p.apply w c).nodes.has id = true ∧ w.nodes.has id = true ∧ (id ∉ c.createdNodes →
      start.nodes.has id = true ∧ p.nodes.has id = true ∧ id ∉ c.deletedNodes) := by
  by_cases hc : id ∈ c.createdNodes
  · have hd : id ∉ c.deletedNodes := fun hd => h.not_created_of_deleted hd hc
    exact ⟨(h.has_apply p id).2 ⟨hd, Or.inl hc⟩, ((h.created id).1 hc).1, absurd hc⟩
  · obtain ⟨x, hx, rfl⟩ := hid.resolve_left hc
    obtain ⟨hm, hd⟩ := List.mem_filter.1 hx
    have hd : x.node ∉ c.deletedNodes := by simpa [ChangeSet.isDeleted] using hd
    have hw := EventPlan.has_of_survivingChange h hx
    obtain ⟨q, hq, -⟩ := hfits.writes x (ChangeSet.mem_propertyChanges.1 hm) hc
    have hp : p.nodes.has x.node = true := (Assoc.has_eq_true_iff _ _).2 ⟨q, hq⟩
    have hstart : start.nodes.has x.node = true := by
      rw [← Bool.not_eq_false]
      exact fun hs => hc ((h.created x.node).2 ⟨hw, hs⟩)
    exact ⟨(h.has_apply p x.node).2 ⟨hd, Or.inr hp⟩, hw, fun _ => ⟨hstart, hp, hd⟩⟩

variable (h : Tracks start w c) (hfits : c.Fits p) {id : NodeId}
  (hid : id ∈ c.createdNodes ∨ ∃ x ∈ EventPlan.survivingChanges c, x.node = id)

include h hfits hid

/-- It is stored as the working copy has it where the transaction itself did something. -/
theorem value?_apply_shown (k : String) : (p.apply w c).value? id k =
    if id ∈ c.createdNodes ∨ (c.change? id k).isSome then w.value? id k else p.value? id k := by
  by_cases hc : id ∈ c.createdNodes
  · rw [if_pos (Or.inl hc), GraphState.value?, h.get?_apply_created p hc]
    rfl
  · obtain ⟨-, hp, hd⟩ := (h.has_of_shown hfits hid).2.2 hc
    rw [h.value?_apply p hd hc hp]
    simp only [hc, false_or]

/-- Elsewhere the working copy has it as it was at the start. -/
theorem value?_of_untouched (hc : id ∉ c.createdNodes) {k : String} (hk : c.change? id k = none) :
    w.value? id k = start.value? id k := by
  obtain ⟨-, hw, hknown⟩ := h.has_of_shown hfits hid
  by_cases htype : k = typeProperty
  · rw [htype]
    exact h.type id (hknown hc).1 hw
  · exact h.unchanged id k hk htype

/-- It keeps the type that the working copy knows. -/
theorem type?_apply_shown (htypes : w.SameTypes p) :
    (p.apply w c).type? s id = w.type? s id := by
  obtain ⟨-, hw, hknown⟩ := h.has_of_shown hfits hid
  refine GraphState.type?_congr ?_
  rw [h.value?_apply_shown hfits hid, h.change?_type]
  by_cases hc : id ∈ c.createdNodes
  · rw [if_pos (Or.inl hc)]
  · rw [if_neg (by simp [hc]), htypes id hw (hknown hc).2.1]

end Tracks

namespace World
variable {L H : Type} {react : Reaction L H} {hooks : Set Nat} {schema : Schema}
  {locks : LockTable} {table : Assoc Nat (CommitHook L)} {host : H} {w₀ w₁ w' : World L H}
  {log₁ : List CommitRecord} {h : Nat} {caller : Caller} {s : CommitSummary}

/-- What the working copy shows of a node that the change set tells of, against what is stored when
its changes are applied to a state in which others have changed what the list has. -/
theorem shownAs_apply {start working before : GraphState} {c : ChangeSet} {n : Nat}
    {log : List CommitRecord} {id : NodeId} (htracks : Tracks start working c)
    (hfits : c.Fits before) (hw : working.Intact schema) (hb : before.Intact schema)
    (hbt : before.Tidy) (htypes : working.SameTypes before) (hlog : ∀ r ∈ log, r.handle ≠ n)
    (hbetween : start.nodes.has id = true → before.nodes.has id = true →
      ∀ k, before.value? id k = start.value? id k ∨ ChangedIn log id k)
    (hid : id ∈ c.createdNodes ∨ ∃ x ∈ EventPlan.survivingChanges c, x.node = id) :
    ShownAs start before c n log (working.nodeOf schema id)
      ((before.apply working c).nodeOf schema id) := by
  obtain ⟨hain, hwin, hknown⟩ := htracks.has_of_shown hfits hid
  have ha := htracks.intact_apply hfits hbt hw hb
  have hstored := htracks.value?_apply_shown hfits hid
  have htype := htracks.type?_apply_shown (s := schema) hfits hid htypes
  rw [ha.type_nodeOf hain, hw.type_nodeOf hwin, Option.some.injEq] at htype
  have hsame : (∀ k, (before.apply working c).value? id k = working.value? id k) →
      (before.apply working c).nodeOf schema id = working.nodeOf schema id :=
    GraphState.nodeOf_congr ha hw (hbt.apply htracks.tidy c) htracks.tidy hain hwin htype
  constructor
  · rw [(ha.get?_eq hain).1, (hw.get?_eq hwin).1]
  · exact htype
  all_goals
    simp only [(hw.get?_eq hwin).1, ha.property?_nodeOf hain, hw.property?_nodeOf hwin]
  · exact fun hc => hsame fun k => (hstored k).trans (if_pos (Or.inl hc))
  · exact fun k hk => (hstored k).trans (if_pos (Or.inr hk))
  · intro hc k hk
    refine ⟨htracks.value?_of_untouched hfits hid hc hk, (hstored k).trans (if_neg ?_)⟩
    simp [hc, hk]
  · intro k hne
    have huntouched : ¬ (id ∈ c.createdNodes ∨ (c.change? id k).isSome) :=
      fun ht => hne ((hstored k).trans (if_pos ht))
    obtain ⟨hc, hk⟩ := not_or.1 huntouched
    rw [hstored, if_neg huntouched, htracks.value?_of_untouched hfits hid hc
      (Option.not_isSome_iff_eq_none.1 hk)] at hne
    obtain ⟨r, hr, hsome⟩ := (hbetween (hknown hc).1 (hknown hc).2.1 k).resolve_left hne
    exact ⟨r, hr, hlog r hr, hsome⟩
  · exact hsame

/-- Each node that an event of a commit shows can be read right after it, and is then as the event
shows it, but for what somebody else has committed to it since the transaction began. -/
theorem nodes_shown (hl : Lawful hooks react)
    (h₀ : Moves hooks (start schema locks table host) w₀)
    (h₁ : Logged hooks (w₀.begin h caller).2 log₁ w₁)
    (hcommit : w₁.commit react (w₀.begin h caller).1 = some (.ok s, w')) :
    ∃ t c ds w₂ log₂, w₁.transaction? (w₀.begin h caller).1 = some (t, c) ∧
      Attempted react w₁ (w₀.begin h caller).1 t c ds w₂ (.ok ()) ∧
      Reaches hooks (w₁.close (w₀.begin h caller).1) log₂ w₂ ∧
      ∀ d ∈ ds, ∀ node, d.event.shown? = some node →
        ∃ stored, w'.graph.committed.node? schema node.id = some stored ∧
          ShownAs w₀.graph.committed w₂.graph.committed t.changes (w₀.begin h caller).1
            (log₁ ++ log₂) node stored := by
  obtain ⟨t, c, ds, w₂, log₂, origin, ht, hattempt, -, hrun, happly, hfits, hs₂, hclosed, -,
    htracks⟩ := attempt_after_begin hl h₀ h₁.moves hcommit
  have hstart := sound_start schema locks table host fun _ => {}
  obtain ⟨o₀, hs₀⟩ := h₀.sound hstart
  obtain ⟨o₁, hs₁⟩ := h₁.moves.sound (hs₀.begin h caller)
  -- the moments from the beginning of the transaction until its changes are applied
  have hlogged : Logged hooks (w₀.begin h caller).2 (log₁ ++ log₂) w₂ :=
    (h₁.quiet (.close ht) rfl).trans (hrun.logged (hs₁.close _))
  have hmoves₁ := h₀.through h₁.moves
  have hmoves₂ := h₀.through hlogged.moves
  have hschema : w₁.graph.schema = schema := (hmoves₁.frame hstart).1
  obtain ⟨hget, -⟩ := transaction?_eq_some.1 ht
  have hw : t.working.Intact schema := by
    have hw := hmoves₁.intact_of_start (Or.inr ⟨_, t, hget, rfl⟩)
    rwa [hschema] at hw
  have hb : w₂.graph.committed.Intact schema := by
    have hb := hmoves₂.intact_of_start (Or.inl rfl)
    rwa [(hmoves₂.frame hstart).1] at hb
  have hlog := hlogged.handle_ne (hs₀.begin h caller) (Nat.lt_succ_self _) hclosed
  refine ⟨t, c, ds, w₂, log₂, ht, hattempt, hrun, fun d hd node hnode => ?_⟩
  have hmem := hattempt.dispatched_of_ok.event_mem hd
  rw [hschema, EventPlan.steps_eq htracks hw] at hmem
  obtain ⟨e, he, hde⟩ := List.mem_map.1 hmem
  obtain rfl := Except.ok.inj hde
  obtain ⟨id, rfl, hid⟩ := EventPlan.shown_of_mem_events he hnode
  obtain ⟨hain, hwin, -⟩ := htracks.has_of_shown hfits hid
  have ha := htracks.intact_apply hfits hs₂.tidy hw hb
  have htypes := hs₂.sameTypes hclosed
  refine ⟨_, ?_, shownAs_apply htracks hfits hw hb hs₂.tidy htypes hlog
    (fun hsin hbin => hlogged.value? (hs₀.begin h caller) hsin hbin) hid⟩
  rw [happly, (hw.get?_eq hwin).1]
  exact ha.node?_eq hain

/-! ### A note that two clients write to -/

/-- A listener that keeps a diary of the events that it is told of. -/
def diary : Reaction Unit (List Event) := fun _ _ _ e w =>
  some (.ok (), { w with host := w.host ++ [e] })

theorem lawful_diary : Lawful hooks diary := by
  intro l caller txn e w r w' hr
  obtain ⟨-, rfl⟩ := Prod.mk.inj (Option.some.inj hr)
  exact ⟨[], (Reaches.refl w).aside ⟨rfl, rfl, rfl, fun _ => Nat.le_refl _⟩⟩

/-- A client commits a note. -/
def recorded : World Unit (List Event) :=
  (perform diary
    [.begin 0 .superUser, .operate 0 (.createNode (.root "note") []), .commit 0]
    (start noteSchema {} blank.hooks [])).get rfl

/-- Two clients write different properties of the note, and one has committed. -/
def overwritten : World Unit (List Event) :=
  (perform diary
    [.begin 0 .superUser, .operate 2 (.setProperty ⟨1⟩ (.named "read") (.bool true)), .commit 2,
      .operate 1 (.setProperty ⟨1⟩ (.named "done") (.bool true))]
    (recorded.begin 0 .superUser).2).get rfl

/-- The second commit shows the note as modified without what the first one wrote, although it is
stored with it. -/
theorem shown_outdated :
    ∃ s w' node stored, overwritten.commit diary 1 = some (.ok s, w') ∧
      .nodeModified node ∈ w'.host.drop overwritten.host.length ∧
      w'.graph.committed.node? noteSchema node.id = some stored ∧
      node.property? "read" = none ∧ stored.property? "read" = some (.bool true) :=
  ⟨_, _, _, _, rfl, List.mem_of_getElem? (i := 2) rfl, rfl, rfl, rfl⟩

/-- What the second commit shows, which is outdated only where the first one wrote. -/
theorem nodes_shown_overwritten :
    ∃ t c ds w₂ log₁ log₂ s w', overwritten.commit diary 1 = some (.ok s, w') ∧
      overwritten.transaction? 1 = some (t, c) ∧
      Attempted diary overwritten 1 t c ds w₂ (.ok ()) ∧
      Reaches {0} (overwritten.close 1) log₂ w₂ ∧
      ∀ d ∈ ds, ∀ node, d.event.shown? = some node →
        ∃ stored, w'.graph.committed.node? noteSchema node.id = some stored ∧
          ShownAs recorded.graph.committed w₂.graph.committed t.changes 1 (log₁ ++ log₂) node
            stored := by
  have hsound := sound_start noteSchema {} blank.hooks ([] : List Event) fun _ => {}
  obtain ⟨log₀, h₀⟩ : ∃ log, Reaches {0} (start noteSchema {} blank.hooks []) log recorded := by
    refine perform_reaches lawful_diary hsound ?_ (Option.some_get rfl).symm
    simp [Action.allowed]
  obtain ⟨origin, hs, -⟩ := h₀.sound hsound
  obtain ⟨log₁, h₁⟩ : ∃ log, Reaches {0} (recorded.begin 0 .superUser).2 log overwritten := by
    refine perform_reaches lawful_diary (hs.begin 0 _) ?_ (Option.some_get rfl).symm
    simp [Action.allowed]
  have hcommit : ∃ s w', overwritten.commit diary 1 = some (.ok s, w') := ⟨_, _, rfl⟩
  obtain ⟨s, w', hcommit⟩ := hcommit
  obtain ⟨t, c, ds, w₂, log₂, h⟩ :=
    nodes_shown lawful_diary (h₀.moves hsound) (h₁.logged (hs.begin 0 _)) hcommit
  exact ⟨t, c, ds, w₂, log₁, log₂, s, w', hcommit, h⟩

end World
end EntityGraph
