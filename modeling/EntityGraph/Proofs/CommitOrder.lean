import EntityGraph.Proofs.Deletions
import EntityGraph.Proofs.Moments
import EntityGraph.Proofs.QuietCommits

/-!
Commits in either order. Two transactions that are open at the same time made different objects, so
what they create and delete does not depend on which one is applied first. Writes of both to one
property fit in either order only if all values in play are equal.

Main statements: `has_apply_apply`, `relationships_apply_apply`, `value?_apply_apply` — the state
after two applications; `agree_of_fits` — it is the same in both orders, but for such properties;
`commits_agree` — so it is for commits that succeed in both orders.
-/

namespace EntityGraph

/-- What a change set created is unknown to another transaction, in the state that it began with and
in its working copy. -/
structure ChangeSet.Foreign (c : ChangeSet) (start working : GraphState) : Prop where
  nodes : ∀ id ∈ c.createdNodes,
    start.nodes.has id = false ∧ working.nodes.has id = false
  relationships : ∀ id ∈ c.createdRelationships.map (·.id),
    start.relationships.has id = false ∧ working.relationships.has id = false

/-- Two states agree: they have the same nodes with the same properties, and the same relationships.
A property has the same value in both, or equal values where both change sets wrote it. -/
structure Agree (c c' : ChangeSet) (g g' : GraphState) : Prop where
  nodes : ∀ id, g.nodes.has id = g'.nodes.has id
  relationships : g.relationships = g'.relationships
  keys : ∀ id k, (g.value? id k).isSome = (g'.value? id k).isSome
  values : ∀ id k, g.value? id k = g'.value? id k ∨
    (c.change? id k).isSome = true ∧ (c'.change? id k).isSome = true ∧
      sameValue (g.value? id k) (g'.value? id k) = true

theorem isSome_eq_of_sameValue {a b : Option Value} (h : sameValue a b = true) :
    a.isSome = b.isSome := by
  cases a <;> cases b <;> simp_all [sameValue]

/-! ### Two applications -/

namespace Tracks
variable {s w s' w' g : GraphState} {c c' : ChangeSet}

/-- The relationships after an application: a created one is as the working copy has it. -/
theorem relationships_apply (h : Tracks s w c) (g : GraphState) (id : RelationshipId) :
    (g.apply w c).relationships.get? id =
      if id ∈ c.deletedRelationships.map (·.id) then none
      else if id ∈ c.createdRelationships.map (·.id) then w.relationships.get? id
      else g.relationships.get? id := by
  rw [GraphState.relationships_apply]
  split
  · rfl
  · split
    · next hc =>
      obtain ⟨r, hr⟩ := (Assoc.has_eq_true_iff _ _).1 ((h.mem_created_ids id).1 hc).1
      rw [hr, Option.some_or]
    · rfl

/-- What is foreign to a transaction is in none of its changes. -/
theorem untouched_of_foreign (h' : Tracks s' w' c') (hf : c.Foreign s' w') {id : NodeId}
    (hc : id ∈ c.createdNodes) :
    id ∉ c'.createdNodes ∧ id ∉ c'.deletedNodes ∧ ∀ k, c'.change? id k = none := by
  obtain ⟨hs, hw⟩ := hf.nodes id hc
  refine ⟨fun hc' => ?_, fun hd' => ?_, fun k => ?_⟩
  · exact Bool.false_ne_true (hw.symm.trans ((h'.created id).1 hc').1)
  · exact Bool.false_ne_true (hs.symm.trans ((h'.deleted id).1 hd').1)
  · rcases hchange : c'.change? id k with _ | ⟨previous, value⟩
    · rfl
    · obtain ⟨-, -, -, hor⟩ := h'.change id k previous value hchange
      simp [hs, hw] at hor

theorem unrelated_of_foreign (h' : Tracks s' w' c') (hs' : s'.Tidy) (hf : c.Foreign s' w')
    {id : RelationshipId} (hc : id ∈ c.createdRelationships.map (·.id)) :
    id ∉ c'.createdRelationships.map (·.id) ∧ id ∉ c'.deletedRelationships.map (·.id) := by
  obtain ⟨hs, hw⟩ := hf.relationships id hc
  refine ⟨fun hc' => ?_, fun hd' => ?_⟩
  · exact Bool.false_ne_true (hw.symm.trans ((h'.mem_created_ids id).1 hc').1)
  · exact Bool.false_ne_true (hs.symm.trans ((h'.mem_deleted_ids hs' id).1 hd').1)

variable (h : Tracks s w c) (h' : Tracks s' w' c') (hf' : c'.Foreign s w)

include h h' hf'

/-- The nodes after two applications: what was there or was created, and neither deletes. -/
theorem has_apply_apply (g : GraphState) (id : NodeId) :
    ((g.apply w c).apply w' c').nodes.has id = true ↔
      (id ∉ c.deletedNodes ∧ id ∉ c'.deletedNodes) ∧
        (id ∈ c.createdNodes ∨ id ∈ c'.createdNodes ∨ g.nodes.has id = true) := by
  have hown : id ∈ c'.createdNodes → id ∉ c.deletedNodes := fun hc' =>
    (h.untouched_of_foreign hf' hc').2.1
  rw [h'.has_apply, h.has_apply]
  tauto

/-- The relationships after two applications: without those that either deletes, and those that
either created as its working copy has them. -/
theorem relationships_apply_apply (hs : s.Tidy) (g : GraphState) (id : RelationshipId) :
    ((g.apply w c).apply w' c').relationships.get? id =
      if id ∈ c.deletedRelationships.map (·.id) ∨ id ∈ c'.deletedRelationships.map (·.id) then none
      else if id ∈ c'.createdRelationships.map (·.id) then w'.relationships.get? id
      else if id ∈ c.createdRelationships.map (·.id) then w.relationships.get? id
      else g.relationships.get? id := by
  have hown : id ∈ c'.createdRelationships.map (·.id) → id ∉ c.deletedRelationships.map (·.id) :=
    fun hc' => (h.unrelated_of_foreign hs hf' hc').2
  rw [h'.relationships_apply, h.relationships_apply]
  by_cases hc' : id ∈ c'.createdRelationships.map (·.id)
  · simp only [hc', hown hc', if_true, if_false, false_or]
  · by_cases hd : id ∈ c.deletedRelationships.map (·.id)
    · simp only [hc', hd, if_true, if_false, true_or, ite_self]
    · simp only [hc', hd, if_false, false_or]

omit hf' in
/-- A property of a node that neither creates or deletes has the value of the later entry. -/
theorem value?_apply_apply {id : NodeId} (hd : id ∉ c.deletedNodes) (hd' : id ∉ c'.deletedNodes)
    (hc : id ∉ c.createdNodes) (hc' : id ∉ c'.createdNodes) (hg : g.nodes.has id = true)
    (k : String) :
    ((g.apply w c).apply w' c').value? id k =
      if (c'.change? id k).isSome then w'.value? id k
      else if (c.change? id k).isSome then w.value? id k else g.value? id k := by
  rw [h'.value?_apply _ hd' hc' ((h.has_apply g id).2 ⟨hd, Or.inr hg⟩), h.value?_apply g hd hc hg]

end Tracks

namespace ChangeSet
variable {c : ChangeSet} {g : GraphState}

/-- What a change set that fits has written is there with the value that it started from. -/
theorem Fits.of_change? (hfits : c.Fits g) (h : c.Filed) {id : NodeId} {k : String}
    {previous value : Option Value} (hchange : c.change? id k = some (previous, value))
    (hc : id ∉ c.createdNodes) : sameValue (g.value? id k) previous = true := by
  obtain ⟨e, he, rfl, rfl, rfl, -⟩ := h.change?_eq_some hchange
  obtain ⟨p, hp, hsame⟩ := hfits.writes e he hc
  rwa [GraphState.value?_of_node hp]

end ChangeSet

section Orders
variable {s w s' w' g : GraphState} {c c' : ChangeSet} (h : Tracks s w c) (h' : Tracks s' w' c')

include h h'

/-- A created node is as its working copy has it, whether another transaction is applied before or
after. -/
theorem value?_of_created_first (hf : c.Foreign s' w') {id : NodeId} (hc : id ∈ c.createdNodes)
    (k : String) : ((g.apply w c).apply w' c').value? id k = w.value? id k ∧
      ((g.apply w' c').apply w c).value? id k = w.value? id k := by
  have hcreated : ∀ g : GraphState, (g.apply w c).value? id k = w.value? id k := fun g => by
    rw [GraphState.value?, h.get?_apply_created g hc, GraphState.value?]
  obtain ⟨hc', hd', hnone⟩ := h'.untouched_of_foreign hf hc
  have hin : (g.apply w c).nodes.has id = true :=
    (h.has_apply g id).2 ⟨fun hd => h.not_created_of_deleted hd hc, Or.inl hc⟩
  refine ⟨?_, hcreated _⟩
  rw [h'.value?_apply _ hd' hc' hin, hnone, Option.isSome_none, if_neg Bool.false_ne_true,
    hcreated]

/-- A property that both wrote, if both change sets fit in either order. -/
theorem sameValue_of_fits {id : NodeId} {k : String} (hc : id ∉ c.createdNodes)
    (hc' : id ∉ c'.createdNodes) (hd : id ∉ c.deletedNodes) (hd' : id ∉ c'.deletedNodes)
    (hg : g.nodes.has id = true) (hk : (c.change? id k).isSome = true)
    (hk' : (c'.change? id k).isSome = true) (hfits : c.Fits g) (hfits' : c'.Fits g)
    (hlast : c.Fits (g.apply w' c')) (hlast' : c'.Fits (g.apply w c)) :
    sameValue (w'.value? id k) (w.value? id k) = true := by
  obtain ⟨⟨previous, value⟩, hchange⟩ := Option.isSome_iff_exists.1 hk
  obtain ⟨⟨previous', value'⟩, hchange'⟩ := Option.isSome_iff_exists.1 hk'
  -- each is written over what the other one started from, and both over what is committed
  have hw : sameValue (w.value? id k) previous' = true := by
    have hsame := hlast'.of_change? h'.filed hchange' hc'
    rwa [h.value?_apply g hd hc hg, hk, if_pos rfl] at hsame
  have hw' : sameValue (w'.value? id k) previous = true := by
    have hsame := hlast.of_change? h.filed hchange hc
    rwa [h'.value?_apply g hd' hc' hg, hk', if_pos rfl] at hsame
  have hprevious : sameValue previous previous' = true := by
    have hg := hfits.of_change? h.filed hchange hc
    have hg' := hfits'.of_change? h'.filed hchange' hc'
    rw [sameValue_comm] at hg
    exact sameValue_trans hg hg'
  rw [sameValue_comm] at hw
  exact sameValue_trans (sameValue_trans hw' hprevious) hw

/-- Two change sets that fit in either order lead to states that agree. -/
theorem agree_of_fits (hg : g.Tidy) (hs : s.Tidy) (hs' : s'.Tidy) (hf : c.Foreign s' w')
    (hf' : c'.Foreign s w) (hfits : c.Fits g) (hfits' : c'.Fits g)
    (hlast : c.Fits (g.apply w' c')) (hlast' : c'.Fits (g.apply w c)) :
    Agree c c' ((g.apply w c).apply w' c') ((g.apply w' c').apply w c) := by
  have hnodes : ∀ id, ((g.apply w c).apply w' c').nodes.has id =
      ((g.apply w' c').apply w c).nodes.has id := by
    intro id
    rw [Bool.eq_iff_iff, h.has_apply_apply h' hf', h'.has_apply_apply h hf]
    tauto
  have hvalues : ∀ id k, ((g.apply w c).apply w' c').value? id k =
        ((g.apply w' c').apply w c).value? id k ∨
      (c.change? id k).isSome = true ∧ (c'.change? id k).isSome = true ∧
        sameValue (((g.apply w c).apply w' c').value? id k)
          (((g.apply w' c').apply w c).value? id k) = true := by
    intro id k
    cases hin : ((g.apply w c).apply w' c').nodes.has id with
    | false =>
      have hin' := (hnodes id).symm.trans hin
      rw [GraphState.value?_of_none ((Assoc.has_eq_false_iff _ _).1 hin),
        GraphState.value?_of_none ((Assoc.has_eq_false_iff _ _).1 hin')]
      exact Or.inl rfl
    | true =>
      obtain ⟨⟨hd, hd'⟩, hor⟩ := (h.has_apply_apply h' hf' g id).1 hin
      by_cases hc : id ∈ c.createdNodes
      · obtain ⟨hfirst, hlast⟩ := value?_of_created_first (g := g) h h' hf hc k
        exact Or.inl (hfirst.trans hlast.symm)
      by_cases hc' : id ∈ c'.createdNodes
      · obtain ⟨hfirst, hlast⟩ := value?_of_created_first (g := g) h' h hf' hc' k
        exact Or.inl (hlast.trans hfirst.symm)
      have hthere := (hor.resolve_left hc).resolve_left hc'
      rw [h.value?_apply_apply h' hd hd' hc hc' hthere,
        h'.value?_apply_apply h hd' hd hc' hc hthere]
      cases hk : (c.change? id k).isSome <;> cases hk' : (c'.change? id k).isSome
      case true.true =>
        exact Or.inr ⟨rfl, rfl,
          sameValue_of_fits h h' hc hc' hd hd' hthere hk hk' hfits hfits' hlast hlast'⟩
      all_goals exact Or.inl rfl
  refine ⟨hnodes, ?_, fun id k => ?_, hvalues⟩
  · refine ((hg.apply h.tidy c).apply h'.tidy c').relationships.ext
      ((hg.apply h'.tidy c').apply h.tidy c).relationships fun id => ?_
    rw [h.relationships_apply_apply h' hf' hs, h'.relationships_apply_apply h hf hs']
    by_cases hc : id ∈ c.createdRelationships.map (·.id)
    · simp only [hc, (h'.unrelated_of_foreign hs' hf hc).1, if_true, if_false, or_comm]
    · simp only [hc, if_false, or_comm]
  · rcases hvalues id k with heq | ⟨-, -, hsame⟩
    · rw [heq]
    · exact isSome_eq_of_sameValue hsame

end Orders

/-! ### Commits -/

namespace World
variable {L H : Type} {react : Reaction L H} {hooks : Set Nat} {schema : Schema}
  {locks : LockTable} {table : Assoc Nat (CommitHook L)} {host : H} {origin : Nat → GraphState}
  {w w₁ w₂ w₁' w₂' : World L H} {n m : Nat} {t t' : Transaction} {c c' : TransactionContext}

/-- Listeners that commit nothing and leave a transaction alone, whatever else they do. -/
def Spares (react : Reaction L H) (n : Nat) : Prop :=
  ∀ l caller txn e w r w', react l caller txn e w = some (r, w') →
    w'.graph.committed = w.graph.committed ∧ w'.transactions.get? n = w.transactions.get? n

theorem Told.spared {caller : Caller} {txn : TxnId} {ds : List (Delivery L)}
    (ht : Told react caller txn w ds w₁) (hn : Spares react n) :
    w₁.graph.committed = w.graph.committed ∧
      w₁.transactions.get? n = w.transactions.get? n := by
  induction ht with
  | nil => exact ⟨rfl, rfl⟩
  | count _ _ _ ih => exact ih
  | call _ hr ih =>
    obtain ⟨hcommitted, hget⟩ := hn _ _ _ _ _ _ _ hr
    exact ⟨hcommitted.trans ih.1, hget.trans ih.2⟩

/-- What one transaction made is unknown to another one. -/
theorem Sound.foreign (hs : Sound origin w) (hne : n ≠ m) (ht : w.transactions.get? n = some t)
    (ht' : w.transactions.get? m = some t') : t.changes.Foreign (origin m) t'.working where
  nodes := by
    intro id hid
    obtain ⟨hw, ho⟩ := ((hs.tracks n t ht).created id).1 hid
    obtain ⟨horigin, hworking⟩ := hs.nodes.own n m id.raw hne ⟨t, ht, hw⟩ fun hsees =>
      Bool.false_ne_true (ho.symm.trans hsees.2)
    rw [← Bool.not_eq_true, ← Bool.not_eq_true]
    exact ⟨fun h => horigin ⟨by rw [ht']; rfl, h⟩, fun h => hworking ⟨t', ht', h⟩⟩
  relationships := by
    intro id hid
    obtain ⟨hw, ho⟩ := ((hs.tracks n t ht).mem_created_ids id).1 hid
    obtain ⟨horigin, hworking⟩ := hs.relationships.own n m id.raw hne ⟨t, ht, hw⟩
      (not_originSees ho)
    rw [← Bool.not_eq_true, ← Bool.not_eq_true]
    exact ⟨fun h => horigin ⟨by rw [ht']; rfl, h⟩, fun h => hworking ⟨t', ht', h⟩⟩

/-- A commit that succeeds while listeners spare a transaction: its changes are applied to what was
committed when it began to end, and any other transaction is as it was. -/
theorem commit_of_spares {s : CommitSummary} (hm : Spares react m)
    (ht : w.transaction? n = some (t, c)) (hc : c.status = .active ∧ c.failure = none)
    (h : w.commit react n = some (.ok s, w₁)) :
    t.changes.Fits w.graph.committed ∧
      w₁.graph.committed = w.graph.committed.apply t.working t.changes ∧
      (m ≠ n → w₁.transactions.get? m = w.transactions.get? m) := by
  obtain ⟨ds, w', hattempt, -, hfits, rfl⟩ := commit_spec ht hc.1 hc.2 h
  obtain ⟨hcommitted, hget⟩ := hattempt.told.spared hm
  have hquiet : w'.graph.committed = w.graph.committed := hcommitted
  refine ⟨(t.changes.conflict?_eq_none_iff _).1 (hquiet ▸ hfits), ?_, fun hne => ?_⟩
  · rw [← hquiet]
    rfl
  · calc (w'.settle n t).transactions.get? m
      _ = w'.transactions.get? m := (get?_forget _ n t.txn m).trans (if_neg hne)
      _ = (w.close n).transactions.get? m := hget
      _ = w.transactions.get? m := (get?_close w n m).trans (if_neg hne)

/-- Two commits, one after the other. -/
theorem commits_of_spares {s s' : CommitSummary} (hs : Sound origin w) (hm : Spares react m)
    (hne : m ≠ n) (ht : w.transaction? n = some (t, c)) (ht' : w.transaction? m = some (t', c'))
    (h₁ : w.commit react n = some (.ok s, w₁)) (h₂ : w₁.commit react m = some (.ok s', w₂)) :
    t.changes.Fits w.graph.committed ∧
      t'.changes.Fits (w.graph.committed.apply t.working t.changes) ∧
      w₂.graph.committed =
        (w.graph.committed.apply t.working t.changes).apply t'.working t'.changes := by
  obtain ⟨hget', hctx'⟩ := transaction?_eq_some.1 ht'
  obtain ⟨hfits, happly, hkept⟩ := commit_of_spares hm ht (hs.active ht) h₁
  have hopen : w₁.transaction? m = some (t', c') :=
    transaction?_eq_some.2 ⟨(hkept hne).trans hget', hctx'⟩
  obtain ⟨hfits', happly', -⟩ := commit_of_spares hm hopen (hs.active ht') h₂
  rw [happly] at hfits' happly'
  exact ⟨hfits, hfits', happly'⟩

/-- A transaction that has committed is gone. -/
theorem ne_of_commits {s : CommitSummary} {r : Except Failure CommitSummary} (hs : Sound origin w)
    (h₁ : w.commit react n = some (.ok s, w₁)) (h₂ : w₁.commit react m = some (r, w₂)) :
    m ≠ n := by
  rintro rfl
  obtain ⟨t, c, ht⟩ := open_of_commit h₁
  obtain ⟨hactive, hfailure⟩ := hs.active ht
  obtain ⟨ds, w', -, -, -, rfl⟩ := commit_spec ht hactive hfailure h₁
  obtain ⟨t', c', ht'⟩ := open_of_commit h₂
  obtain ⟨hget', -⟩ := transaction?_eq_some.1 ht'
  exact absurd hget' (by simp [count, setHook, settle, get?_forget])

/-- If two open transactions can be committed in either order, and listeners leave both alone, the
order makes no difference, but for properties that both wrote: there the values are equal. -/
theorem commits_agree {s₁ s₂ s₁' s₂' : CommitSummary}
    (hw : Moves hooks (start schema locks table host) w) (hn : Spares react n)
    (hm : Spares react m) (h₁ : w.commit react n = some (.ok s₁, w₁))
    (h₂ : w₁.commit react m = some (.ok s₂, w₂)) (h₁' : w.commit react m = some (.ok s₁', w₁'))
    (h₂' : w₁'.commit react n = some (.ok s₂', w₂')) :
    ∃ t c t' c', w.transaction? n = some (t, c) ∧ w.transaction? m = some (t', c') ∧
      Agree t.changes t'.changes w₂.graph.committed w₂'.graph.committed := by
  obtain ⟨origin, hs⟩ := hw.sound (sound_start schema locks table host fun _ => {})
  have hne := ne_of_commits hs h₁ h₂
  obtain ⟨t, c, ht⟩ := open_of_commit h₁
  obtain ⟨t', c', ht'⟩ := open_of_commit h₁'
  obtain ⟨hget, -⟩ := transaction?_eq_some.1 ht
  obtain ⟨hget', -⟩ := transaction?_eq_some.1 ht'
  obtain ⟨hfits, hlast', happly⟩ := commits_of_spares hs hm hne ht ht' h₁ h₂
  obtain ⟨hfits', hlast, happly'⟩ := commits_of_spares hs hn hne.symm ht' ht h₁' h₂'
  refine ⟨t, c, t', c', ht, ht', ?_⟩
  rw [happly, happly']
  exact agree_of_fits (hs.tracks n t hget) (hs.tracks m t' hget') hs.tidy (hs.origins n t hget)
    (hs.origins m t' hget') (hs.foreign hne.symm hget hget') (hs.foreign hne hget' hget) hfits
    hfits' hlast hlast'

/-! ### Small worlds -/

/-- Two clients write both zeros over a zero. -/
def zeroed : World Unit Unit :=
  (perform silent
    [.begin 0 .superUser,
      .operate 0 (.createNode (.root "note") [("x", .float (.zero false))]), .commit 0,
      .begin 0 .superUser, .begin 0 .superUser,
      .operate 1 (.setProperty ⟨1⟩ (.named "x") (.float (.zero true))),
      .operate 2 (.setProperty ⟨1⟩ (.named "x") (.float (.zero false)))] blank).get rfl

theorem zeroed_reached : ∃ log, Reaches {0} blank log zeroed := by
  refine perform_reaches lawful_silent (sound_start _ _ _ _ fun _ => {}) ?_
    (Option.some_get rfl).symm
  simp [Action.allowed]

theorem spares_silent (n : Nat) : Spares silent n := by
  intro l caller txn e w r w' h
  obtain rfl := silent_still l caller txn e w r w' h
  exact ⟨rfl, rfl⟩

/-- The two zeros are equal, and which one is left depends on the order. -/
theorem commits_agree_zeroed :
    ∃ s₁ w₁ s₂ w₂ s₁' w₁' s₂' w₂' t c t' c', zeroed.commit silent 1 = some (.ok s₁, w₁) ∧
      w₁.commit silent 2 = some (.ok s₂, w₂) ∧ zeroed.commit silent 2 = some (.ok s₁', w₁') ∧
      w₁'.commit silent 1 = some (.ok s₂', w₂') ∧ zeroed.transaction? 1 = some (t, c) ∧
      zeroed.transaction? 2 = some (t', c') ∧
      Agree t.changes t'.changes w₂.graph.committed w₂'.graph.committed ∧
      w₂.graph.committed.value? ⟨1⟩ "x" = some (.float (.zero false)) ∧
      w₂'.graph.committed.value? ⟨1⟩ "x" = some (.float (.zero true)) := by
  obtain ⟨log, hrun⟩ := zeroed_reached
  have hcommits : ∃ s₁ w₁ s₂ w₂ s₁' w₁' s₂' w₂', zeroed.commit silent 1 = some (.ok s₁, w₁) ∧
      w₁.commit silent 2 = some (.ok s₂, w₂) ∧ zeroed.commit silent 2 = some (.ok s₁', w₁') ∧
      w₁'.commit silent 1 = some (.ok s₂', w₂') ∧
      w₂.graph.committed.value? ⟨1⟩ "x" = some (.float (.zero false)) ∧
      w₂'.graph.committed.value? ⟨1⟩ "x" = some (.float (.zero true)) :=
    ⟨_, _, _, _, _, _, _, _, rfl, rfl, rfl, rfl, rfl, rfl⟩
  obtain ⟨s₁, w₁, s₂, w₂, s₁', w₁', s₂', w₂', h₁, h₂, h₁', h₂', hvalue, hvalue'⟩ := hcommits
  obtain ⟨t, c, t', c', ht, ht', hagree⟩ :=
    commits_agree (hrun.moves (sound_start noteSchema {} blank.hooks () fun _ => {}))
      (spares_silent 1) (spares_silent 2) h₁ h₂ h₁' h₂'
  exact ⟨s₁, w₁, s₂, w₂, s₁', w₁', s₂', w₂', t, c, t', c', h₁, h₂, h₁', h₂', ht, ht', hagree,
    hvalue, hvalue'⟩

/-- Two transactions can be committed in either order, and the values of a property that are left
are not equal. -/
def LeavesUnequal (react : Reaction L H) (w : World L H) (n m : Nat) (id : NodeId) (k : String) :
    Prop :=
  ∃ s₁ w₁ s₂ w₂ s₁' w₁' s₂' w₂', w.commit react n = some (.ok s₁, w₁) ∧
    w₁.commit react m = some (.ok s₂, w₂) ∧ w.commit react m = some (.ok s₁', w₁') ∧
    w₁'.commit react n = some (.ok s₂', w₂') ∧
    sameValue (w₂.graph.committed.value? id k) (w₂'.graph.committed.value? id k) = false

/-- Two clients add to a measurement without a result. -/
def annotated : World Unit Unit :=
  (perform silent
    [.begin 0 .superUser, .begin 0 .superUser,
      .operate 1 (.setProperty ⟨1⟩ (.named "read") (.bool true)),
      .operate 2 (.setProperty ⟨1⟩ (.named "done") (.bool true))] measured).get rfl

/-- A listener that commits a note about each commit that it hears of. -/
def scribe : Reaction Unit Unit := fun _ _ txn e w =>
  match e with
  | .commit =>
    (perform silent
      [.begin 0 .superUser,
        .operate w.nextTransaction (.createNode (.root "note") [("of", .int (.ofNat txn.raw))]),
        .commit w.nextTransaction] w).map (.ok (), ·)
  | _ => some (.ok (), w)

theorem annotated_reached : ∃ log, Reaches {0} blank log annotated := by
  obtain ⟨log, hrun⟩ := measured_reached
  obtain ⟨origin, hs, -⟩ := hrun.sound (sound_start _ _ _ _ fun _ => {})
  have hrest : ∃ log, Reaches {0} measured log annotated := by
    refine perform_reaches lawful_silent hs ?_ (Option.some_get rfl).symm
    simp [Action.allowed]
  obtain ⟨log', hrun'⟩ := hrest
  exact ⟨_, hrun.trans hrun'⟩

/-- What is not a number does not equal itself, and a listener may write down who came first. -/
theorem leaves_unequal_annotated : (∃ log, Reaches {0} blank log annotated) ∧
    LeavesUnequal silent annotated 1 2 ⟨1⟩ "x" ∧ LeavesUnequal scribe annotated 1 2 ⟨2⟩ "of" :=
  ⟨annotated_reached, ⟨_, _, _, _, _, _, _, _, rfl, rfl, rfl, rfl, rfl⟩,
    ⟨_, _, _, _, _, _, _, _, rfl, rfl, rfl, rfl, rfl⟩⟩

end World

end EntityGraph
