import EntityGraph.Proofs.Replay
import EntityGraph.Proofs.Runs
import Mathlib.Logic.Function.Basic

/-!
What holds of a world throughout a run. Whatever other transactions commit in the meantime, the
change set of each open transaction leads from the state that was committed when it began to its
working copy, identities are given out once, and what two states both know has the same type or the
same record in both.

Main statements: `Reaches.sound` — a run keeps a world sound, and each transaction keeps the state
that it began with; `Invariant.reaches` — what every step keeps holds after a run and at each
commit.
-/

namespace EntityGraph

/-! ### Identities -/

/-- Identities as they are in use, by the committed state and by open transactions, each with the
state that it began with and its working copy. What a transaction made is unknown to all others. -/
structure Allotted (next : Nat) (committed : Nat → Prop) (origin working : Nat → Nat → Prop) :
    Prop where
  committed_lt : ∀ i, committed i → i < next
  origin_lt : ∀ n i, origin n i → i < next
  working_lt : ∀ n i, working n i → i < next
  unseen : ∀ n i, working n i → ¬ origin n i → ¬ committed i
  own : ∀ n m i, n ≠ m → working n i → ¬ origin n i → ¬ origin m i ∧ ¬ working m i

namespace Allotted
variable {next : Nat} {committed : Nat → Prop} {origin working : Nat → Nat → Prop}

theorem begin (h : Allotted next committed origin working) (n : Nat)
    {origin' working' : Nat → Nat → Prop}
    (hn : ∀ i, (origin' n i ↔ committed i) ∧ (working' n i ↔ committed i))
    (hm : ∀ m, m ≠ n → ∀ i, (origin' m i ↔ origin m i) ∧ (working' m i ↔ working m i)) :
    Allotted next committed origin' working' where
  committed_lt := h.committed_lt
  origin_lt := by
    intro m i hi
    by_cases e : m = n
    · exact h.committed_lt i ((hn i).1.1 (e ▸ hi))
    · exact h.origin_lt m i ((hm m e i).1.1 hi)
  working_lt := by
    intro m i hi
    by_cases e : m = n
    · exact h.committed_lt i ((hn i).2.1 (e ▸ hi))
    · exact h.working_lt m i ((hm m e i).2.1 hi)
  unseen := by
    intro m i hw ho
    by_cases e : m = n
    · subst e
      exact absurd ((hn i).1.2 ((hn i).2.1 hw)) ho
    · exact h.unseen m i ((hm m e i).2.1 hw) fun ho' => ho ((hm m e i).1.2 ho')
  own := by
    intro m m' i hne hw ho
    by_cases e : m = n
    · subst e
      exact absurd ((hn i).1.2 ((hn i).2.1 hw)) ho
    · have hw := (hm m e i).2.1 hw
      have ho : ¬ origin m i := fun ho' => ho ((hm m e i).1.2 ho')
      by_cases e' : m' = n
      · subst e'
        have hc := h.unseen m i hw ho
        exact ⟨fun h => hc ((hn i).1.1 h), fun h => hc ((hn i).2.1 h)⟩
      · rw [(hm m' e' i).1, (hm m' e' i).2]
        exact h.own m m' i hne hw ho

/-- One transaction gives up identities and takes new ones. -/
theorem edit (h : Allotted next committed origin working) (n : Nat) {next' : Nat}
    {origin' working' : Nat → Nat → Prop} (hle : next ≤ next')
    (ho : ∀ m i, origin' m i ↔ origin m i)
    (hn : ∀ i, working' n i → working n i ∨ next ≤ i ∧ i < next')
    (hm : ∀ m, m ≠ n → ∀ i, working' m i → working m i) :
    Allotted next' committed origin' working' where
  committed_lt := fun i hi => (h.committed_lt i hi).trans_le hle
  origin_lt := fun m i hi => (h.origin_lt m i ((ho m i).1 hi)).trans_le hle
  working_lt := by
    intro m i hi
    by_cases e : m = n
    · rcases hn i (e ▸ hi) with hi | hi
      · exact (h.working_lt n i hi).trans_le hle
      · exact hi.2
    · exact (h.working_lt m i (hm m e i hi)).trans_le hle
  unseen := by
    intro m i hw hs
    rw [ho] at hs
    by_cases e : m = n
    · subst e
      rcases hn i hw with hi | hi
      · exact h.unseen m i hi hs
      · exact fun hc => Nat.not_lt.2 hi.1 (h.committed_lt i hc)
    · exact h.unseen m i (hm m e i hw) hs
  own := by
    intro m m' i hne hw hs
    rw [ho] at hs
    rw [ho]
    -- an identity that is new is known to nobody
    have hnew : next ≤ i → ∀ m', m' ≠ n → ¬ origin m' i ∧ ¬ working' m' i := fun hi m' e' =>
      ⟨fun h' => Nat.not_lt.2 hi (h.origin_lt m' i h'),
        fun h' => Nat.not_lt.2 hi (h.working_lt m' i (hm m' e' i h'))⟩
    by_cases e : m = n
    · subst e
      rcases hn i hw with hi | hi
      · have hown := h.own m m' i hne hi hs
        exact ⟨hown.1, fun hw' => hown.2 (hm m' (Ne.symm hne) i hw')⟩
      · exact hnew hi.1 m' (Ne.symm hne)
    · have hw := hm m e i hw
      have hown := h.own m m' i hne hw hs
      refine ⟨hown.1, fun hw' => ?_⟩
      by_cases e' : m' = n
      · subst e'
        rcases hn i hw' with hi | hi
        · exact hown.2 hi
        · exact Nat.not_lt.2 hi.1 (h.working_lt m i hw)
      · exact hown.2 (hm m' e' i hw')

/-- One transaction ends, and what it made may become committed. -/
theorem settle (h : Allotted next committed origin working) (n : Nat) {committed' : Nat → Prop}
    {origin' working' : Nat → Nat → Prop}
    (hc : ∀ i, committed' i → committed i ∨ working n i ∧ ¬ origin n i)
    (hn : ∀ i, ¬ origin' n i ∧ ¬ working' n i)
    (hm : ∀ m, m ≠ n → ∀ i, (origin' m i ↔ origin m i) ∧ (working' m i ↔ working m i)) :
    Allotted next committed' origin' working' where
  committed_lt := fun i hi => (hc i hi).elim (h.committed_lt i) fun hi => h.working_lt n i hi.1
  origin_lt := by
    intro m i hi
    by_cases e : m = n
    · exact absurd (e ▸ hi) (hn i).1
    · exact h.origin_lt m i ((hm m e i).1.1 hi)
  working_lt := by
    intro m i hi
    by_cases e : m = n
    · exact absurd (e ▸ hi) (hn i).2
    · exact h.working_lt m i ((hm m e i).2.1 hi)
  unseen := by
    intro m i hw ho
    by_cases e : m = n
    · exact absurd (e ▸ hw) (hn i).2
    · have hw := (hm m e i).2.1 hw
      intro hi
      rcases hc i hi with hi | hi
      · exact h.unseen m i hw (fun ho' => ho ((hm m e i).1.2 ho')) hi
      · exact (h.own n m i (Ne.symm e) hi.1 hi.2).2 hw
  own := by
    intro m m' i hne hw ho
    by_cases e : m = n
    · exact absurd (e ▸ hw) (hn i).2
    · by_cases e' : m' = n
      · rw [e']
        exact hn i
      · rw [(hm m' e' i).1, (hm m' e' i).2]
        exact h.own m m' i hne ((hm m e i).2.1 hw) fun ho' => ho ((hm m e i).1.2 ho')

end Allotted

namespace World
variable {L H : Type}

/-- The states that open transactions began with, as far as `p` sees them. -/
def originSees (origin : Nat → GraphState) (w : World L H) (p : GraphState → Nat → Prop)
    (n i : Nat) : Prop :=
  (w.transactions.get? n).isSome = true ∧ p (origin n) i

/-- The working copies of open transactions, as far as `p` sees them. -/
def workingSees (w : World L H) (p : GraphState → Nat → Prop) (n i : Nat) : Prop :=
  ∃ t, w.transactions.get? n = some t ∧ p t.working i

/-- Identities of nodes, or of relationships, as they are in use. -/
abbrev Allots (origin : Nat → GraphState) (w : World L H) (p : GraphState → Nat → Prop)
    (next : Nat) : Prop :=
  Allotted next (p w.graph.committed) (originSees origin w p) (w.workingSees p)

/-- What holds of a world throughout a run, each open transaction with the state that it began
with. -/
structure Sound (origin : Nat → GraphState) (w : World L H) : Prop where
  tidy : w.graph.committed.Tidy
  typed : w.graph.committed.Typed
  numbers : ∀ n t, w.transactions.get? n = some t → n < w.nextTransaction
  contexts : ∀ n t c, w.transactions.get? n = some t → t.context = some c →
    c = { txn := t.txn, caller := t.caller }
  origins : ∀ n t, w.transactions.get? n = some t → (origin n).Tidy
  tracks : ∀ n t, w.transactions.get? n = some t → Tracks (origin n) t.working t.changes
  nodes : Allots origin w GraphState.hasNode w.graph.nextNode
  relationships : Allots origin w GraphState.hasRelationship w.graph.nextRelationship
  types : ∀ n t id, w.transactions.get? n = some t → (origin n).nodes.has id = true →
    w.graph.committed.nodes.has id = true →
    w.graph.committed.value? id typeProperty = (origin n).value? id typeProperty
  records : ∀ n t id r r', w.transactions.get? n = some t →
    (origin n).relationships.get? id = some r →
    w.graph.committed.relationships.get? id = some r' → r' = r

theorem sound_start (schema : Schema) (locks : LockTable) (hooks : Assoc Nat (CommitHook L))
    (host : H) (origin : Nat → GraphState) :
    Sound origin (start schema locks hooks host : World L H) where
  tidy := GraphState.tidy_empty
  typed := by intro id p h; simp [start] at h
  numbers := by intro n t h; simp [start] at h
  contexts := by intro n t c h; simp [start] at h
  origins := by intro n t h; simp [start] at h
  tracks := by intro n t h; simp [start] at h
  nodes := by
    constructor <;>
      simp [start, originSees, workingSees, GraphState.hasNode, Assoc.has]
  relationships := by
    constructor <;>
      simp [start, originSees, workingSees, GraphState.hasRelationship, Assoc.has]
  types := by intro n t id h; simp [start] at h
  records := by intro n t id r r' h; simp [start] at h

namespace Sound
variable {origin : Nat → GraphState} {w w' : World L H}

theorem aside (h : Sound origin w) (ha : Aside w w') : Sound origin w' := by
  obtain ⟨hg, ht, hn, -⟩ := ha
  have hsees : ∀ p, originSees origin w' p = originSees origin w p ∧
      w'.workingSees p = w.workingSees p := by
    intro p
    constructor <;> (funext n i; simp only [originSees, workingSees, ht])
  refine ⟨hg ▸ h.tidy, hg ▸ h.typed, ht ▸ hn ▸ h.numbers, ht ▸ h.contexts, ht ▸ h.origins,
    ht ▸ h.tracks, ?_, ?_, ht ▸ hg ▸ h.types, ht ▸ hg ▸ h.records⟩
  · rw [Allots, hg, (hsees _).1, (hsees _).2]
    exact h.nodes
  · rw [Allots, hg, (hsees _).1, (hsees _).2]
    exact h.relationships

theorem begin (h : Sound origin w) (k : Nat) (caller : Caller) :
    Sound (Function.update origin w.nextTransaction w.graph.committed) (w.begin k caller).2 := by
  have hget := get?_begin w k caller
  have hother : ∀ {n t}, w.transactions.get? n = some t → n ≠ w.nextTransaction :=
    fun ht => Nat.ne_of_lt (h.numbers _ _ ht)
  have hallots : ∀ {p next}, Allots origin w p next →
      Allots (Function.update origin w.nextTransaction w.graph.committed)
        (w.begin k caller).2 p next := by
    intro p next ha
    refine Allotted.begin ha w.nextTransaction (fun i => ?_) fun m hm i => ?_
    · simp [originSees, workingSees, hget, newcomer]
    · simp [originSees, workingSees, hget, hm]
  refine ⟨h.tidy, h.typed, ?_, ?_, ?_, ?_, hallots h.nodes, hallots h.relationships, ?_, ?_⟩
  · intro n t ht
    rcases get?_of_begin ht with ⟨rfl, -⟩ | ⟨-, ht⟩
    · exact Nat.lt_succ_self _
    · exact Nat.lt_succ_of_lt (h.numbers n t ht)
  · intro n t c ht hc
    rcases get?_of_begin ht with ⟨-, rfl⟩ | ⟨-, ht⟩
    · exact (Option.some.inj hc).symm
    · exact h.contexts n t c ht hc
  · intro n t ht
    rcases get?_of_begin ht with ⟨rfl, -⟩ | ⟨hne, ht⟩
    · rw [Function.update_self]
      exact h.tidy
    · rw [Function.update_of_ne hne]
      exact h.origins n t ht
  · intro n t ht
    rcases get?_of_begin ht with ⟨rfl, rfl⟩ | ⟨hne, ht⟩
    · rw [Function.update_self]
      exact tracks_refl h.tidy h.typed
    · rw [Function.update_of_ne hne]
      exact h.tracks n t ht
  · intro n t id ht ho hc
    rcases get?_of_begin ht with ⟨rfl, -⟩ | ⟨hne, ht⟩
    · rw [Function.update_self]; rfl
    · rw [Function.update_of_ne hne] at ho ⊢
      exact h.types n t id ht ho hc
  · intro n t id r r' ht ho hc
    rcases get?_of_begin ht with ⟨rfl, -⟩ | ⟨hne, ht⟩
    · rw [Function.update_self] at ho
      exact Option.some.inj (hc.symm.trans ho)
    · rw [Function.update_of_ne hne] at ho
      exact h.records n t id r r' ht ho hc

theorem givenOut (h : Sound origin w) {n : Nat} {t : Transaction}
    (ht : w.transactions.get? n = some t) :
    GivenOut w.graph (origin n) ∧ GivenOut w.graph t.working := by
  have hsome : (w.transactions.get? n).isSome = true := by rw [ht]; rfl
  exact ⟨⟨fun i hi => h.nodes.origin_lt n i ⟨hsome, hi⟩,
      fun i hi => h.relationships.origin_lt n i ⟨hsome, hi⟩⟩,
    ⟨fun i hi => h.nodes.working_lt n i ⟨t, ht, hi⟩,
      fun i hi => h.relationships.working_lt n i ⟨t, ht, hi⟩⟩⟩

theorem tracks_steps (h : Sound origin w) {n : Nat} {t : Transaction} {s : Graph × Transaction}
    (ht : w.transactions.get? n = some t) (hs : Transaction.Steps (w.graph, t) s) :
    Tracks (origin n) s.2.working s.2.changes := by
  obtain ⟨hgo, hgw⟩ := h.givenOut ht
  exact (h.tracks n t ht).steps hgo hgw hs

/-- Steps of an operation on one of the transactions. -/
theorem put (h : Sound origin w) {n : Nat} {t : Transaction} {s : Graph × Transaction}
    (ht : w.transactions.get? n = some t) (hs : Transaction.Steps (w.graph, t) s) :
    Sound origin (w.put n s) := by
  have hget := get?_put w n s
  have hframe := hs.frame
  have hgrows := hs.grows
  have hcommitted : (w.put n s).graph.committed = w.graph.committed := hframe.committed
  obtain ⟨hgo, hgw⟩ := h.givenOut ht
  -- whoever is open now was open before
  have hopen : ∀ m t', (w.put n s).transactions.get? m = some t' →
      ∃ t₀, w.transactions.get? m = some t₀ := by
    intro m t' ht'
    rcases get?_of_put ht' with ⟨rfl, -⟩ | ⟨-, ht'⟩
    · exact ⟨t, ht⟩
    · exact ⟨t', ht'⟩
  have horigin : ∀ p m i, originSees origin (w.put n s) p m i ↔ originSees origin w p m i := by
    intro p m i
    rw [originSees, originSees, hget]
    by_cases e : m = n
    · simp [e, ht]
    · simp [e]
  have hrest : ∀ p m, m ≠ n → ∀ i, (w.put n s).workingSees p m i → w.workingSees p m i := by
    rintro p m hm i ⟨t', ht', hi⟩
    rcases get?_of_put ht' with ⟨e, -⟩ | ⟨-, ht'⟩
    · exact absurd e hm
    · exact ⟨t', ht', hi⟩
  refine ⟨hcommitted ▸ h.tidy, hcommitted ▸ h.typed, ?_, ?_, ?_, ?_, ?_, ?_, ?_, ?_⟩
  · intro m t' ht'
    obtain ⟨t₀, ht₀⟩ := hopen m t' ht'
    exact h.numbers m t₀ ht₀
  · intro m t' c ht' hc
    rcases get?_of_put ht' with ⟨rfl, rfl⟩ | ⟨-, ht'⟩
    · rw [hframe.context] at hc
      rw [hframe.txn, hframe.caller]
      exact h.contexts m t c ht hc
    · exact h.contexts m t' c ht' hc
  · intro m t' ht'
    obtain ⟨t₀, ht₀⟩ := hopen m t' ht'
    exact h.origins m t₀ ht₀
  · intro m t' ht'
    rcases get?_of_put ht' with ⟨rfl, rfl⟩ | ⟨-, ht'⟩
    · exact (h.tracks m t ht).steps hgo hgw hs
    · exact h.tracks m t' ht'
  · rw [Allots, hcommitted]
    refine h.nodes.edit n hgrows.nextNode (horigin _) ?_ (hrest _)
    rintro i ⟨t', ht', hi⟩
    rcases get?_of_put ht' with ⟨-, rfl⟩ | ⟨e, -⟩
    · exact (hgrows.nodes i hi).imp_left fun hi => ⟨t, ht, hi⟩
    · exact absurd rfl e
  · rw [Allots, hcommitted]
    refine h.relationships.edit n hgrows.nextRelationship (horigin _) ?_ (hrest _)
    rintro i ⟨t', ht', hi⟩
    rcases get?_of_put ht' with ⟨-, rfl⟩ | ⟨e, -⟩
    · exact (hgrows.relationships i hi).imp_left fun hi => ⟨t, ht, hi⟩
    · exact absurd rfl e
  · intro m t' id ht' ho hc
    obtain ⟨t₀, ht₀⟩ := hopen m t' ht'
    rw [hcommitted] at hc ⊢
    exact h.types m t₀ id ht₀ ho hc
  · intro m t' id r r' ht' ho hc
    obtain ⟨t₀, ht₀⟩ := hopen m t' ht'
    rw [hcommitted] at hc
    exact h.records m t₀ id r r' ht₀ ho hc

theorem close (h : Sound origin w) (n : Nat) : Sound origin (w.close n) := by
  have horigin : ∀ p m i, originSees origin (w.close n) p m i ↔ originSees origin w p m i := by
    intro p m i
    rw [originSees, originSees, get?_close]
    split <;> simp
  have hworking : ∀ p m i, (w.close n).workingSees p m i → w.workingSees p m i := by
    rintro p m i ⟨t, ht, hi⟩
    obtain ⟨t₀, ht₀, he, -⟩ := get?_of_close ht
    rw [he] at hi
    exact ⟨t₀, ht₀, hi⟩
  refine ⟨h.tidy, h.typed, ?_, ?_, ?_, ?_, ?_, ?_, ?_, ?_⟩
  · intro m t ht
    obtain ⟨t₀, ht₀, -⟩ := get?_of_close ht
    exact h.numbers m t₀ ht₀
  · intro m t c ht hc
    obtain ⟨t₀, ht₀, he, hctx⟩ := get?_of_close ht
    rw [he]
    exact h.contexts m t₀ c ht₀ (hctx c hc)
  · intro m t ht
    obtain ⟨t₀, ht₀, -⟩ := get?_of_close ht
    exact h.origins m t₀ ht₀
  · intro m t ht
    obtain ⟨t₀, ht₀, he, -⟩ := get?_of_close ht
    rw [he]
    exact h.tracks m t₀ ht₀
  · exact h.nodes.edit n (Nat.le_refl _) (horigin _) (fun i hi => Or.inl (hworking _ n i hi))
      fun m _ i => hworking _ m i
  · exact h.relationships.edit n (Nat.le_refl _) (horigin _)
      (fun i hi => Or.inl (hworking _ n i hi)) fun m _ i => hworking _ m i
  · intro m t id ht
    obtain ⟨t₀, ht₀, -⟩ := get?_of_close ht
    exact h.types m t₀ id ht₀
  · intro m t id r r' ht
    obtain ⟨t₀, ht₀, -⟩ := get?_of_close ht
    exact h.records m t₀ id r r' ht₀

/-- A transaction ends, and the committed state becomes one that it may leave. -/
theorem leave (h : Sound origin w) (n : Nat) (txn : TxnId) {g : GraphState} (hg : g.Tidy)
    (hgt : g.Typed)
    (hn : ∀ i, g.hasNode i → w.graph.committed.hasNode i ∨
      w.workingSees GraphState.hasNode n i ∧ ¬ originSees origin w GraphState.hasNode n i)
    (hr : ∀ i, g.hasRelationship i → w.graph.committed.hasRelationship i ∨
      w.workingSees GraphState.hasRelationship n i ∧
        ¬ originSees origin w GraphState.hasRelationship n i)
    (htypes : ∀ id, w.graph.committed.nodes.has id = true → g.nodes.has id = true →
      g.value? id typeProperty = w.graph.committed.value? id typeProperty)
    (hrecords : ∀ id r, w.graph.committed.relationships.has id = true →
      g.relationships.get? id = some r → w.graph.committed.relationships.get? id = some r) :
    Sound origin (({ w with graph.committed := g } : World L H).forget n txn) := by
  have hget := get?_forget ({ w with graph.committed := g } : World L H) n txn
  have hallots : ∀ {p next}, Allots origin w p next →
      (∀ i, p g i → p w.graph.committed i ∨ w.workingSees p n i ∧ ¬ originSees origin w p n i) →
      Allots origin (({ w with graph.committed := g } : World L H).forget n txn) p next := by
    intro p next ha hc
    refine Allotted.settle ha n hc (fun i => ?_) fun m hm i => ?_
    · simp [originSees, workingSees, hget]
    · simp [originSees, workingSees, hget, hm]
  refine ⟨hg, hgt, ?_, ?_, ?_, ?_, hallots h.nodes hn, hallots h.relationships hr, ?_, ?_⟩
  · intro m t ht
    exact h.numbers m t (get?_of_forget ht).2
  · intro m t c ht hc
    exact h.contexts m t c (get?_of_forget ht).2 hc
  · intro m t ht
    exact h.origins m t (get?_of_forget ht).2
  · intro m t ht
    exact h.tracks m t (get?_of_forget ht).2
  · intro m t id ht ho hid
    obtain ⟨hne, ht⟩ := get?_of_forget ht
    rcases hn id.raw hid with hc | ⟨hw, hno⟩
    · exact (htypes id hc hid).trans (h.types m t id ht ho hc)
    · refine absurd ⟨?_, ho⟩ (h.nodes.own n m id.raw (Ne.symm hne) hw hno).1
      rw [ht]
      rfl
  · intro m t id r r' ht ho hid
    obtain ⟨hne, ht⟩ := get?_of_forget ht
    have hin : g.relationships.has id = true := (Assoc.has_eq_true_iff _ _).2 ⟨r', hid⟩
    rcases hr id.raw hin with hc | ⟨hw, hno⟩
    · exact h.records m t id r r' ht ho (hrecords id r' hc hid)
    · refine absurd ⟨?_, ?_⟩ (h.relationships.own n m id.raw (Ne.symm hne) hw hno).1
      · rw [ht]
        rfl
      · exact (Assoc.has_eq_true_iff _ _).2 ⟨r, ho⟩

theorem forget (h : Sound origin w) (n : Nat) (txn : TxnId) : Sound origin (w.forget n txn) :=
  h.leave n txn h.tidy h.typed (fun _ => Or.inl) (fun _ => Or.inl) (fun _ _ _ => rfl)
    fun _ _ _ hr => hr

/-- The context of an open transaction is active and has recorded no failure. -/
theorem active (h : Sound origin w) {n : Nat} {t : Transaction} {c : TransactionContext}
    (ht : w.transaction? n = some (t, c)) : c.status = .active ∧ c.failure = none := by
  obtain ⟨hget, hc⟩ := transaction?_eq_some.1 ht
  rw [h.contexts n t c hget hc]
  exact ⟨rfl, rfl⟩

/-- What a transaction sees and is committed was there when the transaction began. -/
theorem known (h : Sound origin w) {n : Nat} {t : Transaction}
    (ht : w.transactions.get? n = some t) (id : NodeId) (hw : t.working.nodes.has id = true)
    (hc : w.graph.committed.nodes.has id = true) : (origin n).nodes.has id = true := by
  rw [← Bool.not_eq_false]
  intro hs
  refine h.nodes.unseen n id.raw ⟨t, ht, hw⟩ (fun ho => ?_) hc
  exact Bool.false_ne_true (hs.symm.trans ho.2)

theorem sameTypes (h : Sound origin w) {n : Nat} {t : Transaction}
    (ht : w.transactions.get? n = some t) : t.working.SameTypes w.graph.committed := by
  intro id hw hc
  have hs := h.known ht id hw hc
  rw [(h.tracks n t ht).type id hs hw, h.types n t id ht hs hc]

/-- No transaction makes a node that is committed. -/
theorem not_created (h : Sound origin w) {n : Nat} {t : Transaction}
    (ht : w.transactions.get? n = some t) {id : NodeId}
    (hc : w.graph.committed.nodes.has id = true) : id ∉ t.changes.createdNodes := by
  intro hcreated
  obtain ⟨hw, hs⟩ := ((h.tracks n t ht).created id).1 hcreated
  exact Bool.false_ne_true (hs.symm.trans (h.known ht id hw hc))

theorem not_originSees {n : Nat} {id : RelationshipId}
    (hs : (origin n).relationships.get? id = none) :
    ¬ originSees origin w GraphState.hasRelationship n id.raw := by
  rintro ⟨-, ho⟩
  rw [GraphState.hasRelationship, (Assoc.has_eq_false_iff _ _).2 hs] at ho
  exact Bool.false_ne_true ho

theorem settle (h : Sound origin w) {n : Nat} {t : Transaction}
    (ht : w.transactions.get? n = some t) : Sound origin (w.settle n t) := by
  have htracks := h.tracks n t ht
  have hsome : (w.transactions.get? n).isSome = true := by rw [ht]; rfl
  refine h.leave n t.txn (h.tidy.apply htracks.tidy _) (htracks.typed_apply h.typed)
    (fun i hi => ?_) (fun i hi => ?_) (fun id hc hin => ?_) fun id r hc hr => ?_
  · obtain ⟨-, hcreated | hc⟩ := (htracks.has_apply _ _).1 hi
    · obtain ⟨hw, hs⟩ := (htracks.created _).1 hcreated
      refine Or.inr ⟨⟨t, ht, hw⟩, fun ho => ?_⟩
      exact Bool.false_ne_true (hs.symm.trans ho.2)
    · exact Or.inl hc
  · rcases htracks.hasRelationship_apply _ hi with hc | ⟨hw, hs⟩
    · exact Or.inl hc
    · exact Or.inr ⟨⟨t, ht, hw⟩, not_originSees hs⟩
  · exact (htracks.sameTypes_apply (fun _ => h.not_created ht) id hc hin).symm
  · rw [GraphState.relationships_apply] at hr
    split at hr
    · simp at hr
    · split at hr
      · next hcreated =>
        obtain ⟨hw, hs⟩ := (htracks.mem_created_ids id).1 hcreated
        exact absurd hc (h.relationships.unseen n id.raw ⟨t, ht, hw⟩ (not_originSees hs))
      · exact hr

end Sound

/-! ### Runs -/

variable {hooks : Set Nat} {w w₁ : World L H} {log : List CommitRecord}

theorem Reaches.sound (h : Reaches hooks w log w₁) {origin : Nat → GraphState}
    (hs : Sound origin w) :
    ∃ origin', Sound origin' w₁ ∧ ∀ n < w.nextTransaction, origin' n = origin n := by
  induction h generalizing origin with
  | refl => exact ⟨origin, hs, fun _ _ => rfl⟩
  | aside _ ha ih =>
    obtain ⟨o, ho, hold⟩ := ih hs
    exact ⟨o, ho.aside ha, hold⟩
  | @begin w log w₁ k caller run _ ih =>
    obtain ⟨o, ho, hold⟩ := ih hs
    refine ⟨_, ho.begin k caller, fun n hn => ?_⟩
    rw [Function.update_of_ne (Nat.ne_of_lt (hn.trans_le run.nextTransaction_le))]
    exact hold n hn
  | operation _ hop ih =>
    obtain ⟨o, ho, hold⟩ := ih hs
    obtain ⟨t, c, s, ht, hrun, rfl⟩ := onTransaction_eq_some hop
    obtain ⟨ht, -⟩ := transaction?_eq_some.1 ht
    exact ⟨o, ho.put ht (Operation.steps (ho.tracks _ t ht).tidy hrun), hold⟩
  | @commit w log w₁ n t c log' w₂ run ht meanwhile _ ih ihm =>
    obtain ⟨o, ho, hold⟩ := ih hs
    obtain ⟨o', ho', hold'⟩ := ihm (ho.close n)
    obtain ⟨ht, hc⟩ := transaction?_eq_some.1 ht
    obtain ⟨hclosed, -⟩ := meanwhile.closed (ho.numbers n t ht)
      (by rw [get?_close, if_pos rfl, ht]; rfl) rfl
    have hsettled := ho'.settle hclosed
    refine ⟨o', hsettled, fun m hm => ?_⟩
    exact (hold' m (hm.trans_le run.nextTransaction_le)).trans (hold m hm)
  | @rollback w log w₁ n t c log' w₂ run ht _ ih ihm =>
    obtain ⟨o, ho, hold⟩ := ih hs
    obtain ⟨o', ho', hold'⟩ := ihm (ho.close n)
    refine ⟨o', ho'.forget n t.txn, fun m hm => ?_⟩
    exact (hold' m (hm.trans_le run.nextTransaction_le)).trans (hold m hm)

/-- While listeners are told of its end, a transaction stays as it was when it was closed. -/
theorem Sound.closed {origin : Nat → GraphState} {n : Nat} {t : Transaction}
    {c : TransactionContext} (hs : Sound origin w) (ht : w.transaction? n = some (t, c))
    (hrun : Reaches hooks (w.close n) log w₁) :
    w₁.transactions.get? n = some { t with context := none } ∧ (∀ r ∈ log, r.handle ≠ n) ∧
      ∃ origin', Sound origin' w₁ ∧ origin' n = origin n := by
  obtain ⟨hget, -⟩ := transaction?_eq_some.1 ht
  have hlt := hs.numbers n t hget
  obtain ⟨hclosed, hlog⟩ := hrun.closed hlt (by rw [get?_close, if_pos rfl, hget]; rfl) rfl
  obtain ⟨origin', hs', hold⟩ := hrun.sound (hs.close n)
  exact ⟨hclosed, hlog, origin', hs', hold n hlt⟩

/-- What every step of a run keeps, of worlds that are sound. -/
structure Invariant (hooks : Set Nat) (P : World L H → Prop) : Prop where
  aside : ∀ {w w'}, P w → Aside w w' → P w'
  begin : ∀ {w k} caller, P w → k ∈ hooks → P (w.begin k caller).2
  put : ∀ {origin w n t s}, Sound origin w → P w → w.transactions.get? n = some t →
    Transaction.Steps (w.graph, t) s → P (w.put n s)
  close : ∀ {w} n, P w → P (w.close n)
  settle : ∀ {origin w n t}, Sound origin w → P w → w.transactions.get? n = some t →
    t.changes.conflict? w.graph.committed = none → P (w.settle n t)
  forget : ∀ {w n t}, P w → w.transactions.get? n = some t → P (w.forget n t.txn)

/-- An invariant holds after a run, and of the world that each commit of the run found, whose
transaction was closed then. -/
theorem Invariant.reaches {P : World L H → Prop} (hi : Invariant hooks P)
    {Q : CommitRecord → Prop} (hq : ∀ {origin w n t}, Sound origin w → P w →
      w.transactions.get? n = some { t with context := none } → Q ⟨n, w.graph.committed, t⟩)
    (h : Reaches hooks w log w₁) {origin : Nat → GraphState} (hs : Sound origin w) (hp : P w) :
    P w₁ ∧ ∀ c ∈ log, Q c := by
  induction h generalizing origin with
  | refl => exact ⟨hp, by simp⟩
  | aside _ ha ih =>
    obtain ⟨hp', hlog⟩ := ih hs hp
    exact ⟨hi.aside hp' ha, hlog⟩
  | begin caller _ hk ih =>
    obtain ⟨hp', hlog⟩ := ih hs hp
    exact ⟨hi.begin caller hp' hk, hlog⟩
  | operation run hop ih =>
    obtain ⟨hp', hlog⟩ := ih hs hp
    obtain ⟨o, ho, -⟩ := run.sound hs
    obtain ⟨t, c, s, ht, hrun, rfl⟩ := onTransaction_eq_some hop
    obtain ⟨ht, -⟩ := transaction?_eq_some.1 ht
    exact ⟨hi.put ho hp' ht (Operation.steps (ho.tracks _ t ht).tidy hrun), hlog⟩
  | commit run ht meanwhile hfits ih ihm =>
    obtain ⟨hp', hlog⟩ := ih hs hp
    obtain ⟨o, ho, -⟩ := run.sound hs
    obtain ⟨hp₂, hlog₂⟩ := ihm (ho.close _) (hi.close _ hp')
    obtain ⟨hclosed, -, o₂, ho₂, -⟩ := ho.closed ht meanwhile
    have hsettled := hi.settle ho₂ hp₂ hclosed hfits
    refine ⟨hsettled, fun d hd => ?_⟩
    rcases List.mem_append.1 hd with hd | hd
    · exact (List.mem_append.1 hd).elim (hlog d) (hlog₂ d)
    · rw [List.mem_singleton.1 hd]
      exact hq ho₂ hp₂ hclosed
  | rollback run ht meanwhile ih ihm =>
    obtain ⟨hp', hlog⟩ := ih hs hp
    obtain ⟨o, ho, -⟩ := run.sound hs
    obtain ⟨hp₂, hlog₂⟩ := ihm (ho.close _) (hi.close _ hp')
    obtain ⟨hclosed, -, -⟩ := ho.closed ht meanwhile
    have hforgotten := hi.forget hp₂ hclosed
    exact ⟨hforgotten, fun d hd => (List.mem_append.1 hd).elim (hlog d) (hlog₂ d)⟩

end World
end EntityGraph
