import Mathlib.Data.List.Rotate
import MultipathQuic.Library.RoundRobin
import MultipathQuic.Scheduler.Traverse

/-!
# Searching the tree

As long as no stream of the tree is finished, `traverse` is a depth-first search for a node that is
ready to send. A node that has nothing ready below it lets its parent turn to the next child, so
that its parent visits all of its children, each once. Where the search has failed, the tree is as
before; where it has succeeded, the nodes on the way have spent a quantum, and each of them is the
current child of its parent or, if its quantum is used up, the last one.

## Main definitions

* `SameShape`: equal up to what scheduling changes
* `Idles`, `Found`: a search that has failed, and one that has succeeded

## Main results

* `Tree.search`, `Tree.schedule_search`: the first node that is ready is found
-/

namespace MultipathQuic

open Function Forest

/-- The fields of a node that scheduling leaves alone as long as no stream finishes. -/
def Node.shape (node : Node) : Node :=
  { node with
    quantum := 0, nextChild := 0, lowestQuantum := 0, numerator := 0, denominator := 0 }

@[simp] theorem Node.shape_setQuantum (node : Node) (q : ℕ) :
    { node with quantum := q }.shape = node.shape := rfl

namespace StreamScheduler

variable {view : ℕ → StreamView} {s s' s'' t t' u : StreamScheduler} {n p q c x a m fuel : ℕ}

/-- The number of turns that a node gets in a row: its weight plus one. -/
def share (s : StreamScheduler) (n : ℕ) : ℕ := (s.node n).weight.toNat + 1

/-- The number of turns that a node gets in a row when it is visited next. -/
def due (s : StreamScheduler) (n : ℕ) : ℕ := RoundRobin.due s.share (n, (s.node n).quantum)

/-- The children of a node from the next one on. -/
def ring (s : StreamScheduler) (n : ℕ) : List ℕ :=
  (s.node n).children.rotate (s.node n).nextChild

theorem due_pos (s : StreamScheduler) (n : ℕ) : 0 < s.due n :=
  RoundRobin.due_pos (fun _ => Nat.succ_pos _) _

/-! ## Trees of the same shape -/

/-- The schedulers are the same, up to quanta, positions and shares of the bandwidth. -/
structure SameShape (s s' : StreamScheduler) : Prop where
  size_eq : s'.size = s.size
  nodeMap_eq : s'.nodeMap = s.nodeMap
  toSend_eq : s'.toSend = s.toSend
  openStreams_eq : s'.openStreams = s.openStreams
  shape_eq : ∀ x, (s'.node x).shape = (s.node x).shape

namespace SameShape

theorem refl (s : StreamScheduler) : SameShape s s := ⟨rfl, rfl, rfl, rfl, fun _ => rfl⟩

theorem trans (h : SameShape s s') (h' : SameShape s' s'') : SameShape s s'' :=
  ⟨h'.size_eq.trans h.size_eq, h'.nodeMap_eq.trans h.nodeMap_eq, h'.toSend_eq.trans h.toSend_eq,
    h'.openStreams_eq.trans h.openStreams_eq, fun x => (h'.shape_eq x).trans (h.shape_eq x)⟩

theorem of_modify {f : Node → Node} (hf : (f (s.node n)).shape = (s.node n).shape) :
    SameShape s (s.modify n f) :=
  ⟨rfl, rfl, rfl, rfl, modify_field Node.shape hf⟩

theorem parent_eq (h : SameShape s s') : s'.parent = s.parent :=
  funext fun x => (congrArg Node.parent (h.shape_eq x) : _)

theorem children_eq (h : SameShape s s') (x : ℕ) : (s'.node x).children = (s.node x).children :=
  (congrArg Node.children (h.shape_eq x) : _)

theorem activeChildren_eq (h : SameShape s s') (x : ℕ) :
    (s'.node x).activeChildren = (s.node x).activeChildren :=
  (congrArg Node.activeChildren (h.shape_eq x) : _)

theorem id_eq (h : SameShape s s') (x : ℕ) : (s'.node x).id = (s.node x).id :=
  (congrArg Node.id (h.shape_eq x) : _)

theorem state_eq (h : SameShape s s') (x : ℕ) : (s'.node x).state = (s.node x).state :=
  (congrArg Node.state (h.shape_eq x) : _)

theorem stream_eq (h : SameShape s s') (x : ℕ) : (s'.node x).stream = (s.node x).stream :=
  (congrArg Node.stream (h.shape_eq x) : _)

theorem share_eq (h : SameShape s s') : s'.share = s.share := by
  funext x
  have hweight : (s'.node x).weight = (s.node x).weight :=
    (congrArg Node.weight (h.shape_eq x) : _)
  rw [share, share, hweight]

theorem attached_iff (h : SameShape s s') (x : ℕ) : s'.attached x ↔ s.attached x := by
  unfold attached
  rw [h.state_eq, h.activeChildren_eq]

theorem finished_iff (h : SameShape s s') (x : ℕ) : s'.finished view x ↔ s.finished view x := by
  unfold finished
  rw [h.stream_eq]

theorem hasWindow_iff (h : SameShape s s') (x : ℕ) : s'.hasWindow view x ↔ s.hasWindow view x := by
  unfold hasWindow
  rw [h.stream_eq]

theorem hasData_iff (h : SameShape s s') (x : ℕ) : s'.hasData view x ↔ s.hasData view x := by
  unfold hasData
  rw [h.stream_eq]

/-- A node that has got at most a new quantum is due the same turns. -/
theorem due_eq (h : SameShape s s')
    (hx : (s'.node x).quantum = (s.node x).quantum ∨ (s'.node x).quantum = s.due x) :
    s'.due x = s.due x := by
  rcases hx with hx | hx
  · unfold due
    rw [hx, h.share_eq]
  · rw [due, RoundRobin.due, hx, if_neg (Nat.ne_of_gt (due_pos s x))]

/-- The ring of a node only depends on its position. -/
theorem ring_eq_of_nextChild_eq (h : SameShape s s')
    (hx : (s'.node x).nextChild = (s.node x).nextChild) : s'.ring x = s.ring x := by
  unfold ring
  rw [hx, h.children_eq]

end SameShape

/-- A tree of the same shape whose positions are in range is a tree. -/
theorem Tree.of_shape (h : Tree s) (hs : SameShape s s')
    (hnext : ∀ x, (s'.node x).nextChild < (s'.node x).children.length ∨
      (s'.node x).nextChild = 0) : Tree s' := by
  have hcanon : s'.canon s'.parent = s.canon s.parent := by
    rw [hs.parent_eq]
    exact canon_congr hs.attached_iff
  have hl := h.listing
  refine h.of_listing hs.parent_eq hs.size_eq hs.nodeMap_eq ?_
  rw [hcanon]
  refine ⟨fun p n => ?_, fun p => ?_, hnext, fun hn => ?_, ?_⟩
  · rw [hs.children_eq]
    exact hl.count p n
  · rw [hs.children_eq, hs.activeChildren_eq]
    exact hl.active p
  · rw [hs.size_eq]
    exact hl.bound hn
  · rw [hs.size_eq]
    exact hl.size_le

/-! ## The steps of a search -/

theorem sameShape_refresh (s : StreamScheduler) (n : ℕ) : SameShape s (s.refresh n) := by
  refine SameShape.of_modify ?_
  dsimp only
  split_ifs <;> split <;> rfl

theorem sameShape_spend (s : StreamScheduler) (n : ℕ) : SameShape s (s.spend n) :=
  SameShape.of_modify (Node.shape_setQuantum _ _)

theorem nextChild_refresh (s : StreamScheduler) (n x : ℕ) :
    ((s.refresh n).node x).nextChild = (s.node x).nextChild := by
  refine modify_field Node.nextChild ?_ x
  dsimp only
  split_ifs <;> split <;> rfl

theorem nextChild_spend (s : StreamScheduler) (n x : ℕ) :
    ((s.spend n).node x).nextChild = (s.node x).nextChild :=
  modify_field Node.nextChild rfl x

theorem quantum_refresh_self (s : StreamScheduler) (n : ℕ) :
    ((s.refresh n).node n).quantum = s.due n := by
  unfold StreamScheduler.refresh
  rw [modify_node_self]
  unfold due RoundRobin.due share
  dsimp only
  split_ifs <;> split <;> rfl

theorem quantum_refresh_of_ne (h : x ≠ n) :
    ((s.refresh n).node x).quantum = (s.node x).quantum := by
  unfold StreamScheduler.refresh
  rw [modify_node_of_ne h]

theorem quantum_spend_self (s : StreamScheduler) (n : ℕ) :
    ((s.spend n).node n).quantum = sub16 (s.node n).quantum 1 := by
  unfold StreamScheduler.spend
  rw [modify_node_self]

theorem quantum_spend_of_ne (h : x ≠ n) : ((s.spend n).node x).quantum = (s.node x).quantum := by
  unfold StreamScheduler.spend
  rw [modify_node_of_ne h]

theorem ring_refresh (s : StreamScheduler) (n x : ℕ) : (s.refresh n).ring x = s.ring x :=
  (sameShape_refresh s n).ring_eq_of_nextChild_eq (nextChild_refresh s n x)

theorem ring_spend (s : StreamScheduler) (n x : ℕ) : (s.spend n).ring x = s.ring x :=
  (sameShape_spend s n).ring_eq_of_nextChild_eq (nextChild_spend s n x)

/-- The ring starts with the child that `traverse` visits next. -/
theorem Tree.getElem_of_ring (h : Tree s) {rest : List ℕ} (hring : s.ring n = c :: rest) :
    (s.node n).children[(s.node n).nextChild]? = some c := by
  have hne : (s.node n).children ≠ [] := by
    intro hnil
    rw [ring, hnil, List.rotate_nil] at hring
    cases hring
  rw [← List.head?_rotate (h.listing.nextChild_lt hne)]
  change (s.ring n).head? = some c
  rw [hring, List.head?_cons]

theorem mem_ring : c ∈ s.ring n ↔ c ∈ (s.node n).children := List.mem_rotate

theorem Wired.parent_of_ring (h : Wired s) (hc : c ∈ s.ring n) : s.parent c = some n :=
  h.parent_of_mem (mem_ring.mp hc)

theorem length_ring (s : StreamScheduler) (n : ℕ) :
    (s.ring n).length = (s.node n).children.length :=
  List.length_rotate _ _

/-- The end of `traverse`: a node without success, or without quantum, lets its parent turn. -/
structure Turned (s s' : StreamScheduler) (p : ℕ) (turns : Prop) : Prop extends SameShape s s' where
  tree : Tree s'
  quantum_eq : ∀ x, (s'.node x).quantum = (s.node x).quantum
  ring_of_ne : ∀ x ≠ p, s'.ring x = s.ring x
  ring_turned : turns → s'.ring p = (s.ring p).rotate 1
  ring_same : ¬ turns → s'.ring p = s.ring p

theorem Tree.advanced (h : Tree s) (hne : (s.node p).children ≠ []) :
    ∃ s', s.advance p = some s' ∧ Turned s s' p True := by
  have hlen := h.listing.length_lt p
  have hpos := List.length_pos_iff.mpr hne
  unfold StreamScheduler.advance
  rw [Nat.mod_eq_of_lt hlen, if_neg (Nat.ne_of_gt hpos)]
  have hs : SameShape s (s.modify p fun node =>
      { node with nextChild := add16 node.nextChild 1 % (s.node p).children.length }) :=
    SameShape.of_modify rfl
  refine ⟨_, rfl, hs, h.of_shape hs fun x => ?_, modify_field Node.quantum rfl, fun x hx => ?_,
    fun _ => ?_, fun hnot => absurd trivial hnot⟩
  · by_cases hx : x = p
    · subst hx
      rw [hs.children_eq, modify_node_self]
      exact Or.inl (Nat.mod_lt _ hpos)
    · rw [modify_node_of_ne hx]
      exact h.listing.next x
  · refine hs.ring_eq_of_nextChild_eq ?_
    rw [modify_node_of_ne hx]
  · have hnext := h.listing.nextChild_lt hne
    rw [ring, hs.children_eq, modify_node_self]
    rw [add16_of_lt (by omega), List.rotate_mod, ← List.rotate_rotate]
    rfl

theorem Tree.turned (h : Tree s) (hp : s.parent n = some p) (hne : (s.node p).children ≠ [])
    (strm : Option ℕ) :
    ∃ s', s.turn strm n = some s' ∧ Turned s s' p (strm = none ∨ (s.node n).quantum = 0) := by
  have hp' : (s.node n).parent = some p := hp
  unfold StreamScheduler.turn
  rw [hp']
  dsimp only
  by_cases hturn : strm = none ∨ (s.node n).quantum = 0
  · rw [if_pos ⟨hturn, hne⟩]
    obtain ⟨s', heq, hs, htree, hquantum, hother, hring, -⟩ := h.advanced hne
    exact ⟨s', heq, hs, htree, hquantum, hother, fun _ => hring trivial,
      fun hnot => absurd hturn hnot⟩
  · rw [if_neg fun hcond => hturn hcond.1]
    exact ⟨s, rfl, SameShape.refl s, h, fun _ => rfl, fun _ _ => rfl,
      fun hcond => absurd hcond hturn, fun _ => rfl⟩

/-- `skip` of a node of the tree returns, and keeps the shape of the tree. -/
theorem Tree.skip (h : Tree s) (hn : n = 0 ∨ s.attached n) :
    ∃ s', s.skip n = some s' ∧ Tree s' ∧ SameShape s s' := by
  unfold StreamScheduler.skip
  have hfuel := Wired.rank_lt_fuel s n
  generalize s.size + 1 = fuel at hfuel
  -- the rank falls from a node to its parent
  induction fuel generalizing s n with
  | zero => exact absurd hfuel (Nat.not_lt_zero _)
  | succ fuel ih =>
    have hs : SameShape s (s.modify n fun node => { node with quantum := 0 }) :=
      SameShape.of_modify rfl
    have htree := h.of_shape hs fun x => by
      rw [hs.children_eq, modify_field Node.nextChild rfl x]
      exact h.listing.next x
    rw [skipUp]
    generalize s.modify n (fun node => { node with quantum := 0 }) = u at hs htree
    cases hp : (u.node n).parent with
    | none => exact ⟨u, rfl, htree, hs⟩
    | some p =>
      have hparent : s.parent n = some p := by
        rw [← hs.parent_eq]
        exact hp
      have hatt : s.attached n := hn.resolve_left (h.ne_zero hparent)
      have hmem : n ∈ (s.node p).children := h.toWired.mem_iff.mpr ⟨hatt, hparent⟩
      obtain ⟨v, hadvance, hturned⟩ : ∃ v, u.advance p = some v ∧ Turned u v p True := by
        refine htree.advanced ?_
        rw [hs.children_eq]
        exact List.ne_nil_of_mem hmem
      have hsv := hs.trans hturned.toSameShape
      obtain ⟨s', heq, htree', hs'⟩ := ih hturned.tree
        (Or.inr ((hsv.attached_iff p).mpr (h.listing.attached_of_mem hmem))) (by
          have hrank := h.forest.rank_lt hparent
          rw [hsv.parent_eq, pointers, hsv.size_eq]
          change rank s.parent s.pointers p < fuel
          omega)
      refine ⟨s', ?_, htree', hsv.trans hs'⟩
      dsimp only
      rw [hadvance]
      exact heq

/-! ## Nodes that are ready -/

/-- The node is in the tree, and `traverse` picks it when it comes to it. -/
def ready (s : StreamScheduler) (view : ℕ → StreamView) (n : ℕ) : Prop :=
  (n = 0 ∨ s.attached n) ∧ s.hasWindow view n ∧
    if (s.node n).id = 0 then s.hasData view n else (s.node n).state = .active

instance (s : StreamScheduler) (view : ℕ → StreamView) : DecidablePred (s.ready view) := fun _ =>
  inferInstanceAs (Decidable (_ ∧ _))

/-- No node from `n` downwards is ready. -/
def Barren (view : ℕ → StreamView) (s : StreamScheduler) (n : ℕ) : Prop :=
  ∀ m, Above s.parent n m → ¬ s.ready view m

/-- No stream of the tree is finished. -/
def Unfinished (view : ℕ → StreamView) (s : StreamScheduler) : Prop :=
  ∀ n < s.size, n = 0 ∨ s.attached n → ¬ s.finished view n

instance (view : ℕ → StreamView) (s : StreamScheduler) : Decidable (Unfinished view s) :=
  inferInstanceAs (Decidable (∀ _ < _, _))

/-- No stream of the tree from `n` downwards is finished. -/
def Lasts (view : ℕ → StreamView) (s : StreamScheduler) (n : ℕ) : Prop :=
  ∀ m, Above s.parent n m → m = 0 ∨ s.attached m → ¬ s.finished view m

theorem SameShape.ready_iff (h : SameShape s s') (x : ℕ) : s'.ready view x ↔ s.ready view x := by
  unfold ready
  rw [h.attached_iff, h.hasWindow_iff, h.hasData_iff, h.id_eq, h.state_eq]

theorem SameShape.barren_iff (h : SameShape s s') (x : ℕ) :
    Barren view s' x ↔ Barren view s x := by
  unfold Barren
  rw [h.parent_eq]
  simp only [h.ready_iff]

theorem SameShape.lasts (h : SameShape s s') (hl : Lasts view s x) : Lasts view s' x := by
  intro m hm hatt hfin
  rw [h.parent_eq] at hm
  rw [h.attached_iff] at hatt
  exact hl m hm hatt ((h.finished_iff m).mp hfin)

theorem Lasts.below (h : Lasts view s n) (hx : Above s.parent n x) : Lasts view s x :=
  fun m hm => h m (hx.trans hm)

theorem Unfinished.lasts (h : Unfinished view s) (hw : Wired s) (hn : n < s.size) :
    Lasts view s n :=
  fun m hm => h m (hw.lt_size_of_above hm hn)

/-- Without finished streams, the tree is calm. -/
theorem Unfinished.calm (h : Unfinished view s) : Calm view s := by
  intro p _ _ _ hne
  obtain ⟨c, hc⟩ := List.exists_mem_of_ne_nil _ hne
  exact ⟨c, hc, fun m hm hatt _ => h m hm (Or.inr hatt)⟩

/-! ## What a search changes -/

/-- A search from `n` that has failed: at most, nodes from `n` downwards have got a new quantum. -/
structure Idles (s t : StreamScheduler) (n : ℕ) : Prop extends SameShape s t where
  quantum : ∀ x, (t.node x).quantum = (s.node x).quantum ∨
    Above s.parent n x ∧ (t.node x).quantum = s.due x
  ring_eq : ∀ x, t.ring x = s.ring x

/-- A search from `n` in the middle of the loop over the children: `n` has got its quantum, and
turns. -/
structure Loops (view : ℕ → StreamView) (s u : StreamScheduler) (n : ℕ) : Prop
    extends SameShape s u where
  quantum_self : (u.node n).quantum = s.due n
  quantum : ∀ x ≠ n, (u.node x).quantum = (s.node x).quantum ∨
    Above s.parent n x ∧ Barren view s x ∧ (u.node x).quantum = s.due x
  ring_of_ne : ∀ x ≠ n, u.ring x = s.ring x

/-- A search from `n` that has found `m`. The nodes on the way have spent a quantum, and each is the
current child of its parent or, if its quantum is used up, the last one; the children before it have
been visited in vain. -/
structure Found (view : ℕ → StreamView) (s t : StreamScheduler) (n m : ℕ) : Prop
    extends SameShape s t where
  above : Above s.parent n m
  ready : s.ready view m
  passed : ∀ x, Above s.parent n x → Above s.parent x m → x ≠ m → ¬ s.ready view x
  served : ∀ x, Above s.parent n x → Above s.parent x m → (x = m → (s.node m).id ≠ 0) →
    (t.node x).quantum = sub16 (s.due x) 1
  unserved : ∀ x, ¬ (Above s.parent n x ∧ Above s.parent x m) →
    (t.node x).quantum = (s.node x).quantum ∨
      Above s.parent n x ∧ Barren view s x ∧ (t.node x).quantum = s.due x
  ring_on : ∀ {c x}, s.parent c = some x → Above s.parent n x → Above s.parent c m →
    ∃ before after, s.ring x = before ++ c :: after ∧ (∀ d ∈ before, Barren view s d) ∧
      t.ring x = if (t.node c).quantum = 0 then after ++ before ++ [c] else c :: (after ++ before)
  ring_off : ∀ {x}, (∀ c, s.parent c = some x → Above s.parent n x → ¬ Above s.parent c m) →
    t.ring x = s.ring x

theorem Barren.below (h : Barren view s n) (hx : Above s.parent n x) : Barren view s x :=
  fun m hm => h m (hx.trans hm)

theorem Loops.due_eq (h : Loops view s u n) (x : ℕ) : u.due x = s.due x := by
  refine h.toSameShape.due_eq ?_
  by_cases hx : x = n
  · exact Or.inr (hx ▸ h.quantum_self)
  · exact (h.quantum x hx).imp_right fun hnew => hnew.2.2

theorem Found.outside (h : Found view s t n m) (hx : ¬ Above s.parent n x) :
    (t.node x).quantum = (s.node x).quantum :=
  (h.unserved x fun hway => hx hway.1).resolve_right fun hnew => hx hnew.1

theorem loops_refresh (view : ℕ → StreamView) (s : StreamScheduler) (n : ℕ) :
    Loops view s (s.refresh n) n where
  toSameShape := sameShape_refresh s n
  quantum_self := quantum_refresh_self s n
  quantum := fun _ hx => Or.inl (quantum_refresh_of_ne hx)
  ring_of_ne := fun x _ => ring_refresh s n x

/-- A loop that has come around has failed. -/
theorem Loops.idles (h : Loops view s t n) (hring : t.ring n = s.ring n) : Idles s t n where
  toSameShape := h.toSameShape
  quantum := by
    intro x
    by_cases hx : x = n
    · subst hx
      exact Or.inr ⟨Above.refl x, h.quantum_self⟩
    · exact (h.quantum x hx).imp_right fun hnew => ⟨hnew.1, hnew.2.2⟩
  ring_eq := by
    intro x
    by_cases hx : x = n
    · rw [hx, hring]
    · exact h.ring_of_ne x hx

/-- The way from `n` to `m` is `n` and the way from its child to `m`. -/
theorem Wired.eq_or_above (h : Wired s) (hc : s.parent c = some n) (hcm : Above s.parent c m)
    (hnx : Above s.parent n x) (hxm : Above s.parent x m) : x = n ∨ Above s.parent c x := by
  rcases hcm.total hxm with hxc | hcx
  · by_cases hne : x = c
    · exact Or.inr (hne ▸ Above.refl x)
    · exact Or.inl (h.forest.antisymm (hxc.above_parent_of_ne hne hc) hnx)
  · exact Or.inr hcx

/-- The visit of a child of `n` that fails is a round of the loop. -/
theorem Loops.visit (hs : Tree s) (h : Loops view s u n) (hc : s.parent c = some n)
    (hbarren : Barren view s c) (hidle : Idles u t c) {turns : Prop}
    (hturned : Turned t t' n turns) : Loops view s t' n := by
  have hidles := hidle.quantum
  rw [h.parent_eq] at hidles
  refine ⟨(h.toSameShape.trans hidle.toSameShape).trans hturned.toSameShape, ?_, fun x hx => ?_,
    fun x hx => ?_⟩
  · rw [hturned.quantum_eq,
      (hidles n).resolve_right fun hnew => hs.forest.acyclic hc hnew.1, h.quantum_self]
  · rw [hturned.quantum_eq]
    rcases hidles x with hsame | ⟨hcx, hnew⟩
    · rw [hsame]
      exact h.quantum x hx
    · rw [hnew, h.due_eq]
      exact Or.inr ⟨(above_parent hc).trans hcx, hbarren.below hcx, rfl⟩
  · rw [hturned.ring_of_ne x hx, hidle.ring_eq, h.ring_of_ne x hx]

/-- The node where the search starts is ready. -/
theorem found_self (h : Tree s) (hready : s.ready view n) :
    Found view s (if (s.node n).id = 0 then s.refresh n else (s.refresh n).spend n) n n := by
  have hself : ∀ {x}, Above s.parent n x → Above s.parent x n → x = n := fun ha hb =>
    h.forest.antisymm hb ha
  have hbelow : ∀ {c x}, s.parent c = some x → Above s.parent n x → ¬ Above s.parent c n :=
    fun hc hx hcn => h.forest.acyclic hc (hcn.trans hx)
  have hshape := sameShape_refresh s n
  have hne : ∀ {x}, ¬ (Above s.parent n x ∧ Above s.parent x n) → x ≠ n := by
    rintro x hx rfl
    exact hx ⟨Above.refl x, Above.refl x⟩
  split
  · next hheader =>
    exact ⟨hshape, Above.refl n, hready, fun x ha hb hx => absurd (hself ha hb) hx,
      fun x ha hb hx => absurd hheader (hx (hself ha hb)),
      fun x hx => Or.inl (quantum_refresh_of_ne (hne hx)),
      fun hc hx hcn => absurd hcn (hbelow hc hx), fun _ => ring_refresh s n _⟩
  · refine ⟨hshape.trans (sameShape_spend (s.refresh n) n), Above.refl n, hready,
      fun x ha hb hx => absurd (hself ha hb) hx, fun x ha hb _ => ?_, fun x hx => Or.inl ?_,
      fun hc hx hcn => absurd hcn (hbelow hc hx), fun _ => ?_⟩
    · rw [hself ha hb, quantum_spend_self, quantum_refresh_self]
    · rw [quantum_spend_of_ne (hne hx), quantum_refresh_of_ne (hne hx)]
    · rw [ring_spend, ring_refresh]

/-- What a child of `n` has found, `n` has found. -/
theorem Found.up (hs : Tree s) (hnot : ¬ s.ready view n) (hc : s.parent c = some n)
    (hloop : Loops view s u n) {before after : List ℕ}
    (hring : s.ring n = before ++ c :: after) (hringu : u.ring n = c :: (after ++ before))
    (hbarren : ∀ d ∈ before, Barren view s d)
    (h : Found view u t c m) (hturned : Turned t t' n (some m = none ∨ (t.node c).quantum = 0)) :
    Found view s (t'.spend n) n m := by
  have hparent : u.parent = s.parent := hloop.parent_eq
  have hcm : Above s.parent c m := hparent ▸ h.above
  have hnotn : ∀ {x}, Above s.parent c x → x ≠ n := by
    rintro x hx rfl
    exact hs.forest.acyclic hc hx
  have hshape : SameShape s (t'.spend n) :=
    ((hloop.toSameShape.trans h.toSameShape).trans hturned.toSameShape).trans (sameShape_spend t' n)
  have hquantum : ∀ {x}, x ≠ n → ((t'.spend n).node x).quantum = (t.node x).quantum := by
    intro x hx
    rw [quantum_spend_of_ne hx, hturned.quantum_eq]
  have hringt : ∀ {x}, x ≠ n → (t'.spend n).ring x = t.ring x := by
    intro x hx
    rw [ring_spend, hturned.ring_of_ne x hx]
  refine ⟨hshape, (above_parent hc).trans hcm, (hloop.ready_iff m).mp h.ready,
    fun x hnx hxm hne => ?_, fun x hnx hxm hid => ?_, fun x hx => ?_,
    fun {y x} hy hnx hym => ?_, fun {x} hx => ?_⟩
  · rcases hs.toWired.eq_or_above hc hcm hnx hxm with rfl | hcx
    · exact hnot
    · rw [← hparent] at hcx hxm
      exact fun hready => h.passed x hcx hxm hne ((hloop.ready_iff x).mpr hready)
  · rcases hs.toWired.eq_or_above hc hcm hnx hxm with rfl | hcx
    · -- the quantum of `n` is the one it has got at the start
      rw [quantum_spend_self, hturned.quantum_eq, h.outside, hloop.quantum_self]
      rw [hparent]
      exact fun hcx => hnotn hcx rfl
    · rw [hquantum (hnotn hcx), ← hloop.due_eq x]
      rw [← hparent] at hcx hxm
      refine h.served x hcx hxm fun hxm' => ?_
      rw [hloop.id_eq]
      exact hid hxm'
  · have hxn : x ≠ n := by
      rintro rfl
      exact hx ⟨Above.refl x, (above_parent hc).trans hcm⟩
    have hoff := h.unserved x
    rw [hparent, hloop.due_eq, hloop.barren_iff] at hoff
    rw [hquantum hxn]
    rcases hoff fun hcx => hx ⟨(above_parent hc).trans hcx.1, hcx.2⟩ with hsame | ⟨hcx, hnew⟩
    · rw [hsame]
      exact hloop.quantum x hxn
    · exact Or.inr ⟨(above_parent hc).trans hcx, hnew⟩
  · rcases hs.toWired.eq_or_above hc hcm hnx ((above_parent hy).trans hym) with rfl | hcx
    · -- at `n` itself
      have hyc := hs.forest.eq_of_above hy hc hym hcm
      subst hyc
      refine ⟨before, after, hring, hbarren, ?_⟩
      have hstays : t.ring x = y :: (after ++ before) := by
        rw [h.ring_off, hringu]
        intro z _ hyx
        rw [hparent] at hyx
        exact absurd rfl (hnotn hyx)
      rw [hquantum (hnotn (Above.refl y)), ring_spend]
      by_cases hzero : (t.node y).quantum = 0
      · rw [if_pos hzero, hturned.ring_turned (Or.inr hzero), hstays, List.rotate_cons_succ,
          List.rotate_zero]
      · have hsame : ¬ (some m = none ∨ (t.node y).quantum = 0) := by
          rintro (hnone | hz)
          · cases hnone
          · exact hzero hz
        rw [if_neg hzero, hturned.ring_same hsame, hstays]
    · have hyn : y ≠ n := hnotn (hcx.trans (above_parent hy))
      rw [hquantum hyn, hringt (hnotn hcx), ← hloop.ring_of_ne x (hnotn hcx)]
      rw [← hparent] at hy hcx hym
      obtain ⟨before', after', hring', hbarren', hringt'⟩ := h.ring_on hy hcx hym
      exact ⟨before', after', hring', fun d hd => (hloop.barren_iff d).mp (hbarren' d hd), hringt'⟩
  · have hxn : x ≠ n := by
      rintro rfl
      exact hx c hc (Above.refl x) hcm
    rw [hringt hxn, h.ring_off, hloop.ring_of_ne x hxn]
    intro y hy hcx
    rw [hparent] at hy hcx ⊢
    exact hx y hy ((above_parent hc).trans hcx)

/-! ## The search -/

/-- The result of a search from `n`, at whose end the parent of `n` may turn. -/
def Searches (view : ℕ → StreamView) (s : StreamScheduler) (n : ℕ)
    (result : Option (Option ℕ × StreamScheduler)) : Prop :=
  (Barren view s n ∧ ∃ t, Tree t ∧ Idles s t n ∧ result = (t.turn none n).map (Prod.mk none)) ∨
  ∃ m t, Tree t ∧ Found view s t n m ∧ result = (t.turn (some m) n).map (Prod.mk (some m))

theorem bind_turn (t : StreamScheduler) (strm : Option ℕ) (n : ℕ) :
    (do
      let r ← some (strm, t)
      let s ← r.2.turn r.1 n
      some (r.1, s)) = (t.turn strm n).map (Prod.mk strm) := by
  change (t.turn strm n).bind _ = _
  cases t.turn strm n <;> rfl

/-- The loop over the children: those of `todo` are visited next, and the others follow. -/
theorem visitChildren_search {visit : StreamScheduler → ℕ → Option (Option ℕ × StreamScheduler)}
    (hs : Tree s) {todo rest : List ℕ} {i k : ℕ}
    (hvisit : ∀ u c, Tree u → SameShape s u → c ∈ todo → Searches view u c (visit u c))
    (hu : Tree u) (hloop : Loops view s u n) (hring : u.ring n = todo ++ rest)
    (hlen : i + todo.length ≤ (s.node n).children.length) :
    ((∀ d ∈ todo, Barren view s d) ∧ ∃ t, Tree t ∧ Loops view s t n ∧ t.ring n = rest ++ todo ∧
      visitChildren visit n (todo.length + k) i u =
        visitChildren visit n k (i + todo.length) t) ∨
    ∃ before c after u' t t' m, todo = before ++ c :: after ∧ (∀ d ∈ before, Barren view s d) ∧
      Loops view s u' n ∧ u'.ring n = c :: (after ++ (rest ++ before)) ∧ Found view u' t c m ∧
      Turned t t' n (some m = none ∨ (t.node c).quantum = 0) ∧
      visitChildren visit n (todo.length + k) i u = some (some m, t'.spend n) := by
  induction todo generalizing u rest i with
  | nil =>
    left
    refine ⟨fun d hd => absurd hd List.not_mem_nil, u, hu, hloop, ?_, ?_⟩
    · rw [hring, List.append_nil, List.nil_append]
    · rw [List.length_nil, Nat.zero_add, Nat.add_zero]
  | cons c todo ih =>
    rw [List.length_cons] at hlen
    have hmem : c ∈ (s.node n).children := by
      rw [← hloop.children_eq n, ← mem_ring, hring]
      exact List.mem_cons_self
    have hc : s.parent c = some n := hs.toWired.parent_of_mem hmem
    have hi : i < (u.node n).children.length := by
      rw [hloop.children_eq]
      omega
    have hround : visitChildren visit n ((c :: todo).length + k) i u = (visit u c).bind fun r =>
        if r.1 ≠ none then some (r.1, r.2.spend n)
        else visitChildren visit n (todo.length + k) (i + 1) r.2 := by
      rw [List.length_cons, Nat.add_right_comm, visitChildren, if_pos hi, hu.getElem_of_ring hring]
      rfl
    -- the end of the visit lets `n` turn
    have hturn : ∀ {t}, Tree t → SameShape u t → ∀ strm, ∃ t', t.turn strm c = some t' ∧
        Turned t t' n (strm = none ∨ (t.node c).quantum = 0) := by
      intro t ht hshape strm
      have hst := hloop.toSameShape.trans hshape
      refine ht.turned (by rw [hst.parent_eq]; exact hc) ?_ strm
      rw [hst.children_eq]
      exact List.ne_nil_of_mem hmem
    rcases hvisit u c hu hloop.toSameShape List.mem_cons_self with
      ⟨hbarren, t, ht, hidle, heq⟩ | ⟨m, t, ht, hfound, heq⟩
    · obtain ⟨t', hteq, hturned⟩ := hturn ht hidle.toSameShape none
      have hbarren' : Barren view s c := (hloop.barren_iff c).mp hbarren
      have hring' : t'.ring n = todo ++ (rest ++ [c]) := by
        rw [hturned.ring_turned (Or.inl rfl), hidle.ring_eq, hring, List.cons_append,
          List.rotate_cons_succ, List.rotate_zero, List.append_assoc]
      have hnext : visitChildren visit n ((c :: todo).length + k) i u =
          visitChildren visit n (todo.length + k) (i + 1) t' := by
        rw [hround, heq, hteq]
        rfl
      have hi' : i + 1 + todo.length = i + (c :: todo).length := by
        rw [List.length_cons]
        omega
      rcases ih (i := i + 1) (fun u d hut hsu hd => hvisit u d hut hsu (List.mem_cons_of_mem c hd))
        hturned.tree (hloop.visit hs hc hbarren' hidle hturned) hring' (by omega) with
        ⟨hall, r, hr, hrloop, hrring, hreq⟩ |
        ⟨before, d, after, u', r, r', m, htodo, hall, hrloop, hrring, hfound, hrturned, hreq⟩
      · left
        refine ⟨List.forall_mem_cons.mpr ⟨hbarren', hall⟩, r, hr, hrloop, ?_, ?_⟩
        · rw [hrring, List.append_assoc, List.singleton_append]
        · rw [hnext, hreq, hi']
      · right
        refine ⟨c :: before, d, after, u', r, r', m, ?_, List.forall_mem_cons.mpr ⟨hbarren', hall⟩,
          hrloop, ?_, hfound, hrturned, hnext.trans hreq⟩
        · rw [htodo, List.cons_append]
        · rw [hrring, List.append_assoc, List.singleton_append]
    · right
      obtain ⟨t', hteq, hturned⟩ := hturn ht hfound.toSameShape (some m)
      refine ⟨[], c, todo, u, t, t', m, rfl, fun d hd => absurd hd List.not_mem_nil, hloop, ?_,
        hfound, hturned, ?_⟩
      · rw [hring, List.append_nil, List.cons_append]
      · rw [hround, heq, hteq]
        rfl

/-- A node that is not ready is barren if all its children are. -/
theorem Tree.barren_of_children (h : Tree s) (hnot : ¬ s.ready view n)
    (hall : ∀ c ∈ (s.node n).children, Barren view s c) : Barren view s n := by
  intro m hnm hready
  by_cases hmn : n = m
  · exact hnot (hmn ▸ hready)
  · -- the child on the way to `m` is in the tree, since `m` is
    have hm0 : m ≠ 0 := by
      rintro rfl
      exact hmn (eq_of_above_of_none h.root hnm)
    have hatt : s.attached m := hready.1.resolve_left hm0
    obtain ⟨c, hc, hcm⟩ := hnm.exists_child hmn
    have hmem := h.toWired.mem_iff.mpr ⟨h.toWired.attached_of_above hatt hcm, hc⟩
    exact hall c hmem m hcm hready

/-- `traverse` picks a node that is ready. -/
theorem traverse_of_ready (hfin : ¬ s.finished view n) (hready : s.ready view n) :
    StreamScheduler.traverse view (fuel + 1) s n =
      ((if (s.node n).id = 0 then s.refresh n else (s.refresh n).spend n).turn (some n) n).map
        (Prod.mk (some n)) := by
  have hshape := sameShape_refresh s n
  have hpos := quantum_refresh_pos s n
  obtain ⟨-, hwindow, hpick⟩ := (hshape.ready_iff n).mpr hready
  rw [← hshape.finished_iff] at hfin
  rw [StreamScheduler.traverse]
  rw [if_neg hfin, ← hshape.id_eq]
  by_cases hid : ((s.refresh n).node n).id = 0
  · rw [if_pos hid] at hpick
    rw [if_pos hid, if_pos ⟨hid, hpick, hwindow⟩]
    exact bind_turn _ (some n) n
  · rw [if_neg hid] at hpick
    rw [if_neg hid, if_neg fun hheader => hid hheader.1, if_pos ⟨hid, hpick, hpos, hwindow⟩]
    exact bind_turn _ (some n) n

/-- `traverse` passes a node that is not ready. -/
theorem traverse_of_not_ready (hfin : ¬ s.finished view n) (hatt : n = 0 ∨ s.attached n)
    (hnot : ¬ s.ready view n) :
    StreamScheduler.traverse view (fuel + 1) s n =
      ((if (s.node n).activeChildren > 0 then
          StreamScheduler.visitChildren (StreamScheduler.traverse view fuel) n
            (s.node n).children.length 0 (s.refresh n)
        else some (none, s.refresh n)).bind fun r =>
          (r.2.turn r.1 n).map (Prod.mk r.1)) := by
  have hshape := sameShape_refresh s n
  have hpos := quantum_refresh_pos s n
  rw [← hshape.finished_iff] at hfin
  have hheader : ¬ (((s.refresh n).node n).id = 0 ∧ (s.refresh n).hasData view n ∧
      (s.refresh n).hasWindow view n) := by
    rintro ⟨hid, hdata, hwindow⟩
    rw [hshape.id_eq] at hid
    refine hnot ⟨hatt, (hshape.hasWindow_iff n).mp hwindow, ?_⟩
    rw [if_pos hid]
    exact (hshape.hasData_iff n).mp hdata
  have hstream : ¬ (((s.refresh n).node n).id ≠ 0 ∧ ((s.refresh n).node n).state = .active ∧
      ((s.refresh n).node n).quantum > 0 ∧ (s.refresh n).hasWindow view n) := by
    rintro ⟨hid, hactive, -, hwindow⟩
    rw [hshape.id_eq] at hid
    refine hnot ⟨hatt, (hshape.hasWindow_iff n).mp hwindow, ?_⟩
    rw [if_neg hid, ← hshape.state_eq]
    exact hactive
  have hinner : (((s.refresh n).node n).activeChildren > 0 ∧
      ((s.refresh n).node n).quantum > 0) ↔ (s.node n).activeChildren > 0 := by
    rw [hshape.activeChildren_eq]
    exact and_iff_left hpos
  have hend : (fun r : Option ℕ × StreamScheduler => (r.2.turn r.1 n).bind fun s => some (r.1, s)) =
      fun r => (r.2.turn r.1 n).map (Prod.mk r.1) :=
    funext fun r => bind_turn r.2 r.1 n
  rw [StreamScheduler.traverse]
  rw [if_neg hfin, if_neg hheader, if_neg hstream, if_congr hinner rfl rfl, hshape.children_eq]
  split
  · exact congrArg _ hend
  · exact congrArg _ hend

/-- The fuel that is left for a child. -/
theorem Tree.fuel_child (h : Tree s) (hc : s.parent c = some n) (hsu : SameShape s u)
    (hfuel : s.size < rank s.parent s.pointers n + (fuel + 1)) :
    u.size < rank u.parent u.pointers c + fuel := by
  have hlt := h.forest.rank_lt hc
  rw [hsu.parent_eq, pointers, hsu.size_eq]
  change s.size < rank s.parent s.pointers c + fuel
  omega

/-- **`traverse` finds the first node that is ready**, if no stream below is finished. -/
theorem Tree.search (h : Tree s) (hu : Lasts view s n) (hatt : n = 0 ∨ s.attached n)
    (hfuel : s.size < rank s.parent s.pointers n + fuel) :
    Searches view s n (StreamScheduler.traverse view fuel s n) := by
  induction fuel generalizing s n with
  | zero =>
    have hlt := Wired.rank_lt_fuel s n
    omega
  | succ fuel ih =>
    obtain ⟨htree, -⟩ : Pruned view s (s.refresh n) := h.refresh n
    have htree_spend : ∀ {t : StreamScheduler}, Tree t → Tree (t.spend n) := by
      intro t ht
      have hpruned : Pruned view t (t.spend n) := ht.spend n
      exact hpruned.1
    have hfin : ¬ s.finished view n := hu n (Above.refl n) hatt
    by_cases hready : s.ready view n
    · right
      refine ⟨n, _, ?_, found_self h hready, traverse_of_ready hfin hready⟩
      split
      · exact htree
      · exact htree_spend htree
    · -- the node is passed, and the search goes on with its children
      rw [traverse_of_not_ready hfin hatt hready, h.listing.active]
      by_cases hnil : (s.node n).children = []
      · left
        refine ⟨h.barren_of_children hready fun c hc => ?_, s.refresh n, htree,
          (loops_refresh view s n).idles (ring_refresh s n n), ?_⟩
        · rw [hnil] at hc
          exact absurd hc List.not_mem_nil
        · rw [hnil, List.length_nil, if_neg (lt_irrefl 0)]
          rfl
      · have hvisit : ∀ u c, Tree u → SameShape s u → c ∈ s.ring n →
            Searches view u c (StreamScheduler.traverse view fuel u c) := by
          intro u c hut hsu hc
          obtain ⟨hattc, hcn⟩ := h.toWired.mem_iff.mp (mem_ring.mp hc)
          exact ih hut (hsu.lasts (hu.below (above_parent hcn)))
            (Or.inr ((hsu.attached_iff c).mpr hattc)) (h.fuel_child hcn hsu hfuel)
        have hlen : 0 + (s.ring n).length = (s.node n).children.length := by
          rw [Nat.zero_add, length_ring]
        have hring : (s.refresh n).ring n = s.ring n ++ [] := by
          rw [ring_refresh, List.append_nil]
        rw [if_pos (List.length_pos_iff.mpr hnil), ← length_ring]
        rcases visitChildren_search (k := 0) h hvisit htree (loops_refresh view s n) hring
          hlen.le with
          ⟨hall, t, ht, hloop, htring, heq⟩ |
          ⟨before, c, after, u, t, t', m, htodo, hall, hloop, huring, hfound, hturned, heq⟩
        · left
          refine ⟨h.barren_of_children hready fun c hc => hall c (mem_ring.mpr hc), t, ht,
            hloop.idles htring, ?_⟩
          have hend : ¬ 0 + (s.ring n).length < (t.node n).children.length := by
            rw [hloop.children_eq, hlen]
            exact lt_irrefl _
          rw [Nat.add_zero] at heq
          rw [heq, StreamScheduler.visitChildren, if_neg hend]
          rfl
        · right
          have hmem : c ∈ (s.node n).children := by
            rw [← mem_ring, htodo]
            exact List.mem_append_right _ List.mem_cons_self
          refine ⟨m, _, htree_spend hturned.tree,
            hfound.up h hready (h.toWired.parent_of_mem hmem) hloop htodo huring hall hturned, ?_⟩
          rw [Nat.add_zero] at heq
          rw [heq]
          rfl

/-- The same for `schedule`, where there is no parent that turns. -/
theorem Tree.schedule_search (h : Tree s) (hu : Unfinished view s) :
    (Barren view s 0 ∧ ∃ t, Tree t ∧ Idles s t 0 ∧ s.schedule view = some (none, t)) ∨
    ∃ m t, Tree t ∧ Found view s t 0 m ∧ s.schedule view = some (some m, t) := by
  have hturn : ∀ {t}, SameShape s t → ∀ strm, t.turn strm 0 = some t := by
    intro t hshape strm
    have hroot : (t.node 0).parent = none := by
      change t.parent 0 = none
      rw [hshape.parent_eq]
      exact h.root
    rw [StreamScheduler.turn, hroot]
  have hsearch : Searches view s 0 (StreamScheduler.traverse view (s.size + 1) s 0) :=
    h.search (hu.lasts h.toWired h.size_pos) (Or.inl rfl) (by omega)
  rcases hsearch with ⟨hbarren, t, ht, hidle, heq⟩ | ⟨m, t, ht, hfound, heq⟩
  · left
    refine ⟨hbarren, t, ht, hidle, ?_⟩
    rw [StreamScheduler.schedule, heq, hturn hidle.toSameShape]
    rfl
  · right
    refine ⟨m, t, ht, hfound, ?_⟩
    rw [StreamScheduler.schedule, heq, hturn hfound.toSameShape]
    rfl

end StreamScheduler

end MultipathQuic
