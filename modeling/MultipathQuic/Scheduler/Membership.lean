import MultipathQuic.Library.Runs
import MultipathQuic.Scheduler.Traverse

/-!
# Runs of the stream scheduler

A run is a sequence of calls on a new scheduler; it has no state any more once a call has panicked
or does not return. A run is sound if none of its calls meets a defect of the scheduler:

* a node that is active loses its place in the tree when its last child leaves (`CanReparent`,
  `Calm`);
* an exclusive re-prioritisation onto a node with more than two children mixes them up
  (`CanReparent`);
* `setActive` puts a node into the list of its parent although it is there already, since it has
  active children;
* with 2^16 nodes the 16-bit counters overflow.
-/

namespace MultipathQuic

open Function Forest Relation
open StreamScheduler (Tree Calm)

/-- The calls on a stream scheduler. A scheduling step is given what it reads from the streams. -/
inductive SchedulerOp
  | addNode (streamID : ℕ)
  | maybeSetWeight (id : ℕ) (weight : UInt8)
  | maybeSetParent (childID parentID : ℕ) (exclusive : Bool)
  | setActive (id : ℕ)
  | schedule (view : ℕ → StreamView)

namespace SchedulerOp

/-- The scheduler after a call. -/
def apply (s : StreamScheduler) : SchedulerOp → Option StreamScheduler
  | .addNode streamID => some (s.addNode streamID)
  | .maybeSetWeight id weight => (s.maybeSetWeight id weight).map Prod.fst
  | .maybeSetParent childID parentID exclusive =>
    (s.maybeSetParent childID parentID exclusive).map Prod.fst
  | .setActive id => (s.setActive id).map Prod.fst
  | .schedule view => (s.schedule view).map Prod.snd

/-- The stream that a call of `setActive` is about. -/
def activated : SchedulerOp → Option ℕ
  | .setActive id => some id
  | _ => none

/-- The call does not meet a defect. -/
def Sound (s : StreamScheduler) : SchedulerOp → Prop
  | .addNode streamID => streamID ≠ 1 → streamID ≠ 3 → s.size < 2 ^ 16
  | .maybeSetWeight _ _ => True
  | .maybeSetParent childID parentID exclusive =>
    ∀ m ∈ s.reparents childID parentID exclusive, s.CanReparent m.1 m.2 exclusive
  | .setActive id => id ≠ 1 → id ≠ 3 → ∀ n ∈ s.nodeMap id, ¬ s.attached n
  | .schedule view => Calm view s

instance (s : StreamScheduler) : DecidablePred (Sound s)
  | .addNode _ | .setActive _ => inferInstanceAs (Decidable (_ → _))
  | .maybeSetWeight .. => inferInstanceAs (Decidable True)
  | .maybeSetParent .. => inferInstanceAs (Decidable (∀ _ ∈ _, _))
  | .schedule view => inferInstanceAs (Decidable (Calm view s))

/-- The calls that return, and what they return. -/
theorem apply_cases {s : StreamScheduler}
    {motive : (op : SchedulerOp) → (s' : StreamScheduler) → op.apply s = some s' → Prop}
    (addNode : ∀ id heq, motive (.addNode id) (s.addNode id) heq)
    (maybeSetWeight : ∀ id weight t err heq, s.maybeSetWeight id weight = some (t, err) →
      motive (.maybeSetWeight id weight) t heq)
    (maybeSetParent : ∀ childID parentID exclusive t err heq,
      s.maybeSetParent childID parentID exclusive = some (t, err) →
      motive (.maybeSetParent childID parentID exclusive) t heq)
    (setActive : ∀ id t err heq, s.setActive id = some (t, err) → motive (.setActive id) t heq)
    (schedule : ∀ view strm t heq, s.schedule view = some (strm, t) → motive (.schedule view) t heq)
    (op : SchedulerOp) (s' : StreamScheduler) (heq : op.apply s = some s') : motive op s' heq := by
  cases op with
  | addNode id =>
    cases heq
    exact addNode id rfl
  | maybeSetWeight id weight =>
    obtain ⟨⟨t, err⟩, hcall, rfl⟩ := Option.map_eq_some_iff.mp heq
    exact maybeSetWeight id weight t err heq hcall
  | maybeSetParent childID parentID exclusive =>
    obtain ⟨⟨t, err⟩, hcall, rfl⟩ := Option.map_eq_some_iff.mp heq
    exact maybeSetParent childID parentID exclusive t err heq hcall
  | setActive id =>
    obtain ⟨⟨t, err⟩, hcall, rfl⟩ := Option.map_eq_some_iff.mp heq
    exact setActive id t err heq hcall
  | schedule view =>
    obtain ⟨⟨strm, t⟩, hcall, rfl⟩ := Option.map_eq_some_iff.mp heq
    exact schedule view strm t heq hcall

/-- **A sound call returns, and keeps the tree.** -/
theorem tree_apply {s : StreamScheduler} (h : Tree s) {op : SchedulerOp} (hop : op.Sound s) :
    ∃ s', op.apply s = some s' ∧ Tree s' := by
  cases op with
  | addNode streamID => exact ⟨_, rfl, h.addNode hop⟩
  | maybeSetWeight id weight =>
    obtain ⟨s', err, heq, h'⟩ := h.maybeSetWeight id weight
    exact ⟨s', by rw [apply, heq]; rfl, h'⟩
  | maybeSetParent childID parentID exclusive =>
    obtain ⟨s', err, heq, h'⟩ := h.maybeSetParent hop
    exact ⟨s', by rw [apply, heq]; rfl, h'⟩
  | setActive id =>
    obtain ⟨s', err, heq, h'⟩ := h.setActive hop
    exact ⟨s', by rw [apply, heq]; rfl, h'⟩
  | schedule view =>
    obtain ⟨r, s', heq, h', -⟩ := h.schedule hop
    exact ⟨s', by rw [apply, heq]; rfl, h'⟩

end SchedulerOp

namespace SchedulerRun

/-- One call, unless a call before it has not returned. -/
def step (o : Option StreamScheduler) (op : SchedulerOp) : Option StreamScheduler := o.bind op.apply

/-- The run of some calls on a new scheduler. -/
def run (ops : List SchedulerOp) : Option StreamScheduler :=
  ops.foldl step (some newStreamScheduler)

/-- No call of the run meets a defect. -/
def Sound (ops : List SchedulerOp) : Prop :=
  Runs.Along step (fun o op => ∀ s ∈ o, op.Sound s) (some newStreamScheduler) ops

instance : DecidablePred Sound := fun _ => inferInstanceAs (Decidable (Runs.Along ..))

/-- Every sound run returns, and its state is a tree. -/
theorem tree {ops : List SchedulerOp} (h : Sound ops) : ∃ s, run ops = some s ∧ Tree s := by
  refine Runs.Along.invariant (P := fun o => ∃ s, o = some s ∧ Tree s) h
    ⟨_, rfl, StreamScheduler.tree_new⟩ ?_
  rintro o op ⟨s, rfl, htree⟩ hop
  exact SchedulerOp.tree_apply htree (hop s rfl)

end SchedulerRun

/-! ## Trees as the scheduler walks them -/

namespace StreamScheduler

variable {s : StreamScheduler} {n p c : ℕ}

/-- The lists that `traverse` walks. -/
def lists (s : StreamScheduler) (p c : ℕ) : Prop := c ∈ (s.node p).children

/-- Every node but the root stands in the list of its parent, once, if it is active or has active
children, and nowhere else; `activeChildren` is the length of the list; and `traverse` can reach
every active node. -/
structure Membership (s : StreamScheduler) : Prop where
  place : ∀ n < s.size, n ≠ 0 → ∃ p, s.parent n = some p ∧
    (s.node p).children.count n = if s.attached n then 1 else 0
  elsewhere : ∀ n p, s.parent n ≠ some p → n ∉ (s.node p).children
  activeChildren : ∀ p, (s.node p).activeChildren = (s.node p).children.length
  reached : ∀ n < s.size, (s.node n).state = .active → ReflTransGen s.lists 0 n

/-- The parents of every node lead to the root. -/
theorem Tree.above_root (h : Tree s) (hn : n < s.size) : Above s.parent 0 n := by
  -- the rank falls from a node to its parent
  induction hk : rank s.parent s.pointers n using Nat.strong_induction_on generalizing n with
  | _ k ih =>
    by_cases h0 : n = 0
    · rw [h0]
    · obtain ⟨p, hp, hps⟩ := h.exists_parent hn h0
      exact (ih _ (hk ▸ h.forest.rank_lt hp) hps rfl).of_parent hp

/-- `traverse` can reach the attached nodes. -/
theorem Tree.reached (h : Tree s) (hn : n < s.size) (hatt : s.attached n) :
    ReflTransGen s.lists 0 n := by
  have hroot := h.above_root hn
  induction hroot using ReflTransGen.head_induction_on with
  | refl => exact ReflTransGen.refl
  | @head x y hxy _ ih =>
    have hx : x ∈ (s.node y).children := h.toWired.mem_iff.mpr ⟨hatt, hxy⟩
    exact (ih (h.toWired.lt_size hxy).2 (h.listing.attached_of_mem hx)).tail hx

/-- The nodes that `traverse` can reach are in the tree. -/
theorem Tree.attached_of_reached (h : Tree s) (hn : ReflTransGen s.lists 0 n) :
    n < s.size ∧ (n = 0 ∨ s.attached n) := by
  rcases ReflTransGen.cases_tail hn with rfl | ⟨p, -, hmem⟩
  · exact ⟨h.size_pos, Or.inl rfl⟩
  · obtain ⟨hatt, hp⟩ := h.toWired.mem_iff.mp hmem
    exact ⟨(h.toWired.lt_size hp).1, Or.inr hatt⟩

theorem Tree.membership (h : Tree s) : Membership s := by
  refine ⟨fun n hn h0 => ?_, fun n p hp hmem => hp (h.toWired.parent_of_mem hmem),
    h.listing.active, fun n hn hactive => h.reached hn (Or.inl hactive)⟩
  obtain ⟨p, hp, -⟩ := h.exists_parent hn h0
  refine ⟨p, hp, ?_⟩
  rw [h.listing.count]
  refine if_congr ?_ rfl rfl
  rw [canon_eq_some]
  exact and_iff_left hp

/-- The rank grows along the lists. -/
theorem Wired.rank_lt_of_lists (h : Wired s) (hc : TransGen s.lists p c) :
    rank s.parent s.pointers p < rank s.parent s.pointers c := by
  induction hc with
  | single hc => exact h.forest.rank_lt (h.parent_of_mem hc)
  | tail _ hc ih => exact ih.trans (h.forest.rank_lt (h.parent_of_mem hc))

end StreamScheduler

open SchedulerRun (run Sound)
open SchedulerOp

/-- No stream has data; those of `finished` are finished, and those of `sending` may send. -/
def viewOf (finished sending : List ℕ) : ℕ → StreamView := fun id =>
  { sendWindowSize := if id ∈ sending then 1000 else 0
    finishedWriteAndSentFin := finished.contains id
    lenOfDataForWriting := 0 }

/-- Streams 5 and 7 are active, and stream 7 depends on stream 5, which depends on the root. -/
def dependent : List SchedulerOp :=
  [addNode 3, addNode 5, addNode 7, maybeSetParent 7 5 false, setActive 5, setActive 7]

/-! ## Membership -/

/-- **In a sound run, every node stands where it belongs.** -/
theorem sound_membership {ops : List SchedulerOp} (h : Sound ops) :
    ∃ s, run ops = some s ∧ s.Membership := by
  obtain ⟨s, heq, htree⟩ := SchedulerRun.tree h
  exact ⟨s, heq, htree.membership⟩

/-- A stream finishes, two streams become exclusive children of a third, and one of them becomes the
parent of its former grandparent. -/
def reprioritised : List SchedulerOp :=
  [addNode 3, addNode 5, addNode 7, addNode 9, addNode 11, addNode 13, maybeSetParent 7 5 false,
    maybeSetParent 9 5 false, maybeSetParent 13 5 false, setActive 7, setActive 9, setActive 13,
    maybeSetWeight 7 3, schedule (viewOf [13] []), setActive 11, maybeSetParent 11 5 true,
    schedule (viewOf [] [7, 9]), maybeSetParent 5 7 false, schedule (viewOf [] [9])]

theorem reprioritised_membership :
    Sound reprioritised ∧ ∃ s, run reprioritised = some s ∧ s.Membership := by
  have hsound : Sound reprioritised := by decide +kernel
  exact ⟨hsound, sound_membership hsound⟩

/-- Stream 7, the only child of the active stream 5, is moved to stream 9. -/
def lastChildLeaves : List SchedulerOp :=
  [addNode 5, addNode 7, addNode 9, maybeSetParent 7 5 false, setActive 5, setActive 7,
    maybeSetParent 7 9 false]

/-- **The active stream 5 drops out of the tree.** -/
theorem lastChildLeaves_not_membership :
    (lastChildLeaves.filterMap activated).Nodup ∧
      ∃ s, run lastChildLeaves = some s ∧ ¬ s.Membership := by
  refine ⟨by decide, ?_⟩
  obtain ⟨s, heq, hlt, hparent, hattached, hnone⟩ : ∃ s ∈ run lastChildLeaves, 1 < s.size ∧
      s.parent 1 = some 0 ∧ s.attached 1 ∧ 1 ∉ (s.node 0).children := by
    decide +kernel
  refine ⟨s, heq, fun h => ?_⟩
  obtain ⟨p, hp, hcount⟩ := h.place 1 hlt one_ne_zero
  rw [hparent] at hp
  cases hp
  rw [if_pos hattached, List.count_eq_zero.mpr hnone] at hcount
  cases hcount

/-! ## Panics -/

/-- **No call of a sound run panics,** and every one returns. -/
theorem sound_isSome {ops : List SchedulerOp} (h : Sound ops) : (run ops).isSome := by
  obtain ⟨s, heq, -⟩ := SchedulerRun.tree h
  rw [heq]
  rfl

/-- A stream with an active child finishes before the child does. -/
def parentFinishesFirst : List SchedulerOp :=
  [addNode 5, addNode 7, maybeSetParent 7 5 false, setActive 5, setActive 7,
    schedule (viewOf [] [5, 7]), schedule (viewOf [5] []), schedule (viewOf [7] []),
    maybeSetWeight 5 255, maybeSetParent 5 7 true, schedule (viewOf [] [])]

theorem parentFinishesFirst_isSome :
    Sound parentFinishesFirst ∧ (run parentFinishesFirst).isSome := by
  have hsound : Sound parentFinishesFirst := by decide +kernel
  exact ⟨hsound, sound_isSome hsound⟩

/-- After stream 5 has dropped out, moving it takes stream 9 out of the list of the root, and moving
stream 9 then finds an empty list. -/
def wrongChildRemoved : List SchedulerOp :=
  [addNode 5, addNode 7, addNode 9, addNode 11, maybeSetParent 7 5 false, setActive 5, setActive 7,
    maybeSetParent 7 9 false, maybeSetParent 5 9 false, maybeSetParent 9 11 false]

/-- **`removeWeight` slices an empty list.** -/
theorem wrongChildRemoved_panics :
    (run wrongChildRemoved.dropLast).isSome ∧ run wrongChildRemoved = none := by
  constructor
  · decide +kernel
  · exact Option.isNone_iff_eq_none.mp (by decide +kernel)

/-! ## Cycles -/

/-- **After a sound run, the parents of every node lead to the root, and no node is reached from
itself through lists of children.** Every call of the run has returned. -/
theorem sound_acyclic {ops : List SchedulerOp} (h : Sound ops) :
    ∃ s, run ops = some s ∧ (∀ id n, s.nodeMap id = some n → Above s.parent 0 n) ∧
      ∀ n, ¬ TransGen s.lists n n := by
  obtain ⟨s, heq, htree⟩ := SchedulerRun.tree h
  refine ⟨s, heq, fun id n hn => htree.above_root (htree.known hn).1, fun n hcycle => ?_⟩
  exact lt_irrefl _ (htree.toWired.rank_lt_of_lists hcycle)

/-- A stream becomes the parent of a stream that it depends on. -/
def dependencyReversed : List SchedulerOp :=
  [addNode 3, addNode 5, addNode 7, addNode 9, maybeSetParent 7 5 false, maybeSetParent 9 7 false,
    setActive 9, maybeSetParent 5 9 false, maybeSetParent 7 9 true, schedule (viewOf [] [9])]

theorem dependencyReversed_acyclic :
    Sound dependencyReversed ∧ ∃ s, run dependencyReversed = some s ∧
      (∀ id n, s.nodeMap id = some n → Above s.parent 0 n) ∧ ∀ n, ¬ TransGen s.lists n n := by
  have hsound : Sound dependencyReversed := by decide +kernel
  exact ⟨hsound, sound_acyclic hsound⟩

/-- Stream 5 becomes active when it is in the list of stream 7 already. Its second entry there stays
when it is moved, and stream 7 is then moved below it. -/
def staleEntry : List SchedulerOp :=
  [addNode 5, addNode 7, addNode 9, addNode 11, maybeSetParent 5 7 false, maybeSetParent 11 5 false,
    setActive 11, setActive 5, maybeSetParent 5 9 false, maybeSetParent 7 5 false]

/-- **Streams 5 and 7 are in each other's lists.** -/
theorem staleEntry_cyclic :
    (staleEntry.filterMap activated).Nodup ∧
      ∃ s, run staleEntry = some s ∧ s.nodeMap 5 = some 1 ∧ TransGen s.lists 1 1 := by
  refine ⟨by decide, ?_⟩
  obtain ⟨s, heq, hmap, hdown, hup⟩ : ∃ s ∈ run staleEntry, s.nodeMap 5 = some 1 ∧
      2 ∈ (s.node 1).children ∧ 1 ∈ (s.node 2).children := by
    decide +kernel
  exact ⟨s, heq, hmap, TransGen.tail (TransGen.single hdown) hup⟩

end MultipathQuic
