import MultipathQuic.Scheduler.OpenStreams
import MultipathQuic.Scheduler.Retirement
import MultipathQuic.Scheduler.Weights
import MultipathQuic.Stream.WorkConservation

/-!
# Streams that are reset

The stream scheduler retires a stream when it has written everything and sent its FIN. A stream that
is reset, by this side or by the peer, sends no FIN any more. Unless it had sent it before, its node
stays active after the session has removed the stream: it keeps its place in the tree and is counted
for the rest of the connection.

## Main definitions

* `Left`: a node has left the scheduler

## Main results

* `resetStream_left_iff`: which ones have
-/

namespace MultipathQuic

open Function
open StreamScheduler (Kept Tally Weighed FirstFinished)

namespace StreamScheduler

variable {s s' : StreamScheduler} {n p c : ℕ}

/-- A node has the stream that it is found by, or has lost it and is not active. -/
def Named (s : StreamScheduler) : Prop :=
  ∀ id n, s.nodeMap id = some n → n ≠ 0 →
    (s.node n).stream = some id ∨ (s.node n).stream = none ∧ (s.node n).state ≠ .active

theorem named_new : Named newStreamScheduler := fun _ _ h => by cases h

/-- A change of a node that keeps its state and its stream. -/
theorem Named.modify (h : Named s) {f : Node → Node}
    (hstate : (f (s.node n)).state = (s.node n).state)
    (hstream : (f (s.node n)).stream = (s.node n).stream) : Named (s.modify n f) := by
  intro id x hx h0
  rw [modify_field Node.state hstate x, modify_field Node.stream hstream x]
  exact h id x hx h0

theorem rewireRule_named : RewireRule Named where
  modify := fun hf h => h.modify (congrArg Node.state hf : _) (congrArg Node.stream hf : _)

theorem scheduleRule_named (view : ℕ → StreamView) : ScheduleRule view (fun _ => True) Named where
  child := fun _ _ _ => trivial
  refresh := by
    intro s n h _
    refine h.modify ?_ ?_
    · dsimp only
      split_ifs <;> split <;> rfl
    · dsimp only
      split_ifs <;> split <;> rfl
  count := fun hf h => h.modify (congrArg Node.state hf : _) (congrArg Node.stream hf : _)
  drop := by
    intro s n c _ h
    unfold StreamScheduler.dropChild
    exact h.modify rfl rfl
  close := by
    intro s n h _ _ id x hx h0
    by_cases hxn : x = n
    · subst hxn
      rw [modify_node_self]
      exact Or.inr ⟨rfl, fun hclosed => by cases hclosed⟩
    · rw [modify_node_of_ne hxn]
      exact h id x hx h0

theorem Named.addNode (h : Named s) (htree : Tree s) (id : ℕ) : Named (s.addNode id) := by
  unfold StreamScheduler.addNode
  split
  · exact h
  · split
    · -- the header stream has the root
      intro i x hx h0
      change update s.nodeMap 3 (some 0) i = some x at hx
      rw [modify_node_of_ne h0]
      by_cases hi : i = 3
      · subst hi
        exact absurd (Option.some.inj hx).symm h0
      · rw [update_of_ne hi] at hx
        exact h i x hx h0
    · intro i x hx h0
      change update s.nodeMap id (some s.size) i = some x at hx
      change (update s.node s.size (newNode id (some id) (some 0)) x).stream = some i ∨
        (update s.node s.size (newNode id (some id) (some 0)) x).stream = none ∧
          (update s.node s.size (newNode id (some id) (some 0)) x).state ≠ .active
      by_cases hi : i = id
      · subst hi
        rw [update_self] at hx
        cases hx
        rw [update_self]
        exact Or.inl rfl
      · rw [update_of_ne hi] at hx
        have hlt := (htree.known hx).1
        rw [update_of_ne (Nat.ne_of_lt hlt)]
        exact h i x hx h0

theorem Named.setActive (h : Named s) {id : ℕ} {err : Option SchedulerError}
    (hstream : id ≠ 1 → id ≠ 3 → ∀ n ∈ s.nodeMap id, (s.node n).stream ≠ none)
    (heq : s.setActive id = some (s', err)) : Named s' := by
  obtain rfl | ⟨n, p, t, h1, h3, hn, hadd, rfl⟩ := setActive_cases heq
  · exact h
  · have hactive : Named (s.modify n fun node => { node with state := .active }) := by
      intro i x hx h0
      by_cases hxn : x = n
      · subst hxn
        rw [modify_node_self]
        have hne := hstream h1 h3 x hn
        exact Or.inl ((h i x hx h0).resolve_right fun hnone => hne hnone.1)
      · rw [modify_node_of_ne hxn]
        exact h i x hx h0
    have ht : Named t := rewireRule_named.addWeightUp hactive hadd
    exact ht

/-- The node is not active, stands in a list only because of its children, and the number of open
streams is right without it. -/
structure Left (s : StreamScheduler) (n : ℕ) : Prop where
  state : (s.node n).state ≠ .active
  listed : ∀ p, n ∈ (s.node p).children → (s.node n).activeChildren > 0
  openStreams : s.openStreams = s.activeStreams.card

end StreamScheduler

/-! ## Conditions on calls -/

/-- Only active streams finish, and the header stream does not; a node that has been closed is not
activated again. -/
def SchedulerOp.Orderly (s : StreamScheduler) : SchedulerOp → Prop
  | .setActive id => id ≠ 1 → id ≠ 3 → ∀ n ∈ s.nodeMap id, (s.node n).stream ≠ none
  | .schedule view => (SchedulerOp.schedule view).RetiresActive s
  | _ => True

instance (s : StreamScheduler) : DecidablePred (SchedulerOp.Orderly s)
  | .setActive _ => inferInstanceAs (Decidable (_ → _))
  | .schedule view => inferInstanceAs (Decidable ((SchedulerOp.schedule view).RetiresActive s))
  | .addNode _ | .maybeSetWeight .. | .maybeSetParent .. => inferInstanceAs (Decidable True)

instance {E : Type} (ok : StreamScheduler → SchedulerOp → Prop) [∀ s, DecidablePred (ok s)]
    (st : SendState E) : DecidablePred (SendOp.Calls ok st)
  | .setStreamPriority .. | .setStreamActive _ | .schedule | .popStreamFrames _ =>
    inferInstanceAs (Decidable (∀ _ ∈ _, _))
  | .openStream | .getOrOpenStream _ | .write .. | .close _ | .cancel .. | .reset ..
  | .registerRemoteError .. | .skip _ | .updateWindow .. | .addFrameForRetransmission _
  | .garbageCollectStreams => inferInstanceAs (Decidable True)

namespace SendRun

variable {E : Type}

/-- No call of the run meets a defect of the tree or of the counter. -/
def Orderly (st : SendState E) (ops : List (SendOp E)) : Prop :=
  Runs.Along step (fun o op => ∀ st ∈ o, op.Sound st ∧ op.Calls SchedulerOp.Orderly st) (some st)
    ops

/-- No call of the run meets a defect of the tree or takes a node out of a list. -/
def Steady (st : SendState E) (ops : List (SendOp E)) : Prop :=
  Runs.Along step (fun o op => ∀ st ∈ o, op.Sound st ∧ op.Calls SchedulerOp.RemovesNothing st)
    (some st) ops

instance (st : SendState E) : DecidablePred (Orderly st) := fun _ =>
  inferInstanceAs (Decidable (Runs.Along ..))

instance (st : SendState E) : DecidablePred (Steady st) := fun _ =>
  inferInstanceAs (Decidable (Runs.Along ..))

end SendRun

namespace StreamScheduler

variable {s s' : StreamScheduler} {n : ℕ}

/-- A tree whose counter is right and whose active nodes have their streams. -/
structure Sorted (s : StreamScheduler) : Prop extends Kept s where
  tally : Tally s 0
  named : Named s

theorem callRule_sorted : CallRule SchedulerOp.Orderly Sorted where
  kept := fun h => h.toKept
  addNode := fun h hsize => ⟨h.toKept.addNode hsize, h.tally.addNode _, h.named.addNode h.toTree _⟩
  apply := by
    intro s s' op h hsound hok heq
    refine ⟨h.toKept.apply op hsound heq, ?_, ?_⟩
    · refine SchedulerOp.tally_apply h.tally
        (SchedulerOp.tallied_of_tree h.toTree hsound ?_) heq
      cases op with
      | schedule view => exact hok
      | addNode | maybeSetWeight | maybeSetParent | setActive => trivial
    · cases op with
      | addNode id =>
        cases heq
        exact h.named.addNode h.toTree id
      | maybeSetWeight id weight =>
        obtain ⟨⟨t, err⟩, hcall, rfl⟩ := Option.map_eq_some_iff.mp heq
        exact rewireRule_named.maybeSetWeight h.named hcall
      | maybeSetParent childID parentID exclusive =>
        obtain ⟨⟨t, err⟩, hcall, rfl⟩ := Option.map_eq_some_iff.mp heq
        exact rewireRule_named.maybeSetParent h.named hcall
      | setActive id =>
        obtain ⟨⟨t, err⟩, hcall, rfl⟩ := Option.map_eq_some_iff.mp heq
        exact h.named.setActive hok hcall
      | schedule view =>
        obtain ⟨⟨strm, t⟩, hcall, rfl⟩ := Option.map_eq_some_iff.mp heq
        exact (scheduleRule_named view).traverse h.named trivial hcall
  skip := fun h hn heq => ⟨h.toKept.skip hn heq, (rewireRule_tally 0).skip h.tally heq,
    rewireRule_named.skip h.named heq⟩

/-- A tree whose sums of weights are right. -/
structure Balanced (s : StreamScheduler) : Prop extends Kept s where
  weighed : Weighed s

theorem callRule_balanced : CallRule SchedulerOp.RemovesNothing Balanced where
  kept := fun h => h.toKept
  addNode := fun h hsize => ⟨h.toKept.addNode hsize, h.weighed.addNode h.toTree _⟩
  apply := fun op h hsound hok heq =>
    ⟨h.toKept.apply op hsound heq, SchedulerOp.weighed_apply h.toTree h.weighed hsound hok heq⟩
  skip := by
    intro s s' n h hn heq
    obtain ⟨t, heq', -, hshape⟩ := h.toTree.skip hn
    cases heq.symm.trans heq'
    refine ⟨h.toKept.skip hn heq, h.weighed.congr hshape.children_eq
      (fun p => (congrArg Node.childrensWeight (hshape.shape_eq p) : _)) fun p c _ => ?_⟩
    exact (congrArg Node.weight (hshape.shape_eq c) : _)

end StreamScheduler

namespace StreamScheduler

variable {view : ℕ → StreamView} {s t : StreamScheduler} {n id : ℕ}

/-- After a call that returns nothing, a node has left iff it was not active or its stream had sent
its FIN. -/
theorem Sorted.left_iff (h : Sorted s) (ht : Sorted t) (hn : s.nodeMap id = some n) (h0 : n ≠ 0)
    (hfirst : FirstFinished view s n) (heq : s.schedule view = some (none, t)) :
    t.Left n ↔ ((s.node n).state = .active → (view id).finishedWriteAndSentFin = true) := by
  have hstream : (s.node n).state = .active → (s.node n).stream = some id := fun hactive =>
    (h.named id n hn h0).resolve_right fun hnone => hnone.2 hactive
  constructor
  · intro hleft hactive
    by_contra hfin
    have hunfinished : ∀ i ∈ some id, (view i).finishedWriteAndSentFin ≠ true := by
      rintro i ⟨⟩
      exact hfin
    have hkeeps := (scheduleRule_unfinished hunfinished).traverse ⟨hactive, hstream hactive⟩ trivial
      heq
    exact hleft.state hkeeps.1
  · intro hfin
    have hstate : (t.node n).state ≠ .active := by
      by_cases hactive : (s.node n).state = .active
      · have hclosed := h.schedule_retires (h.known hn).1 (Or.inr (Or.inl hactive))
          ⟨id, hstream hactive, hfin hactive⟩ hfirst heq
        rw [hclosed]
        exact fun hne => by cases hne
      · exact (scheduleRule_state (Q := (· ≠ .active)) (fun hne => by cases hne) view n).traverse
          hactive trivial heq
    refine ⟨hstate, fun p hp => ?_, ?_⟩
    · exact (ht.mem_iff.mp hp).1.resolve_left hstate
    · have hcount := ht.tally.openStreams
      rwa [add_zero] at hcount

end StreamScheduler

namespace SendRun

variable {E : Type}

theorem sorted_start (perspective : Perspective) (params : ConnectionParameters) (wrr : Bool) :
    ∀ sch ∈ (start E perspective params wrr).streamsMap.streamScheduler, sch.Sorted := by
  intro sch hsch
  cases wrr with
  | true =>
    cases hsch
    exact ⟨StreamScheduler.kept_new, StreamScheduler.tally_new, StreamScheduler.named_new⟩
  | false => cases hsch

theorem balanced_start (perspective : Perspective) (params : ConnectionParameters) (wrr : Bool) :
    ∀ sch ∈ (start E perspective params wrr).streamsMap.streamScheduler, sch.Balanced := by
  intro sch hsch
  cases wrr with
  | true =>
    cases hsch
    exact ⟨StreamScheduler.kept_new, StreamScheduler.weighed_new⟩
  | false => cases hsch

/-- What sound calls preserve holds before and after a last call of `schedule`. -/
theorem scheduler_run_schedule {ok : StreamScheduler → SchedulerOp → Prop}
    {P : StreamScheduler → Prop} (hP : StreamScheduler.CallRule ok P) {st₀ st : SendState E}
    {ops : List (SendOp E)} (h₀ : ∀ sch ∈ st₀.streamsMap.streamScheduler, P sch)
    (h : Runs.Along step (fun o op => ∀ st ∈ o, op.Sound st ∧ op.Calls ok st) (some st₀)
      (ops ++ [.schedule])) (hst : st ∈ run st₀ ops) {s t : StreamScheduler} {strm : Option ℕ}
    (hs : s ∈ st.streamsMap.streamScheduler)
    (heq : s.schedule st.streamsMap.view = some (strm, t)) : P s ∧ P t := by
  obtain ⟨hops, hlast⟩ := Runs.along_append.mp h
  have hPs : P s := scheduler_run hP h₀ hops st hst s hs
  obtain ⟨hsound, hcalls⟩ := (Runs.along_cons.mp hlast).1 st hst
  refine ⟨hPs, hP.apply (.schedule st.streamsMap.view) hPs (hsound s hs) (hcalls s hs) ?_⟩
  rw [SchedulerOp.apply, heq]
  rfl

end SendRun

open SendRun in
/-- **A stream has left the scheduler iff it has sent its FIN**, once `schedule` has returned nothing:
its node is not active, stands in a list only because of its children and is not counted as open, if
and only if it had been retired before or its stream, reset or not, had written everything and sent its
FIN. And every sum of weights is that of the nodes in the list, if the run has taken no node out of a
list. This holds in every run whose calls are orderly, if at the last call no finished stream comes
before it. -/
theorem resetStream_left_iff {E : Type} {perspective : Perspective} {params : ConnectionParameters}
    {wrr : Bool} {ops : List (SendOp E)}
    (h : Orderly (start E perspective params wrr) (ops ++ [.schedule])) :
    ∀ st ∈ run (start E perspective params wrr) ops, ∀ s ∈ st.streamsMap.streamScheduler,
      ∀ id n, s.nodeMap id = some n → n ≠ 0 → FirstFinished st.streamsMap.view s n →
        ∀ t, s.schedule st.streamsMap.view = some (none, t) →
          (t.Left n ↔ ((s.node n).state = .active →
            (st.streamsMap.stream id).finishedWriteAndSentFin = true)) ∧
          (Steady (start E perspective params wrr) (ops ++ [.schedule]) →
            ∀ p, (t.node p).childrensWeight = t.sumOfWeights p) := by
  intro st hst s hs id n hn h0 hfirst t heq
  obtain ⟨hsorted, hsorted'⟩ := scheduler_run_schedule StreamScheduler.callRule_sorted
    (sorted_start perspective params wrr) h hst hs heq
  refine ⟨hsorted.left_iff hsorted' hn h0 hfirst heq, fun hsteady p => ?_⟩
  obtain ⟨-, hbalanced⟩ := scheduler_run_schedule StreamScheduler.callRule_balanced
    (balanced_start perspective params wrr) hsteady hst hs heq
  rw [hbalanced.weighed p, Nat.mod_eq_of_lt (hbalanced.sumOfWeights_lt p)]

/-- Stream 5, which stream 7 depends on, has sent its FIN when the peer resets it. -/
def resetAfterFin : List (SendOp Unit) :=
  [.openStream, .openStream, .openStream, .openStream, .setStreamPriority 7 15 5 false,
    .setStreamActive 5, .setStreamActive 7, .write 5 [0], .close 5, .popStreamFrames 100,
    .registerRemoteError 5 (), .garbageCollectStreams]

open SendRun in
theorem resetAfterFin_left :
    ∃ st ∈ run (start Unit .client smallWindows true) resetAfterFin,
      5 ∉ st.streamsMap.streams ∧ ∃ s ∈ st.streamsMap.streamScheduler, ∃ t,
        s.schedule st.streamsMap.view = some (none, t) ∧ t.Left 1 ∧
          ∀ p, (t.node p).childrensWeight = t.sumOfWeights p := by
  obtain ⟨st, hst, hremoved, s, hs, hmap, hfirst, hfin, r, hr, hnone⟩ :
      ∃ st ∈ run (start Unit .client smallWindows true) resetAfterFin,
        5 ∉ st.streamsMap.streams ∧ ∃ s ∈ st.streamsMap.streamScheduler,
          s.nodeMap 5 = some 1 ∧ FirstFinished st.streamsMap.view s 1 ∧
            (st.streamsMap.stream 5).finishedWriteAndSentFin = true ∧
              ∃ r ∈ s.schedule st.streamsMap.view, r.1 = none := by
    decide +kernel
  obtain ⟨strm, t⟩ := r
  cases hnone
  obtain ⟨hleft, hweights⟩ := resetStream_left_iff
    (show Orderly (start Unit .client smallWindows true) (resetAfterFin ++ [.schedule]) by
      decide +kernel) st hst s hs 5 1 hmap (by decide) hfirst t hr
  exact ⟨st, hst, hremoved, s, hs, t, hr, hleft.mpr fun _ => hfin, hweights (by decide +kernel)⟩

/-- The peer resets stream 5, which is active. -/
def peerReset : List (SendOp Unit) :=
  [.openStream, .openStream, .openStream, .setStreamActive 5, .write 5 [0],
    .registerRemoteError 5 (), .garbageCollectStreams]

open SendRun in
/-- **A stream that the peer resets stays in the scheduler:** it has been removed and `schedule` returns
nothing, but its node is active, stands in the list of the root, and is counted as open and in the
weight of the children of the root. -/
theorem peerReset_stays :
    Orderly (start Unit .client smallWindows true) (peerReset ++ [.schedule]) ∧
    ∃ st ∈ run (start Unit .client smallWindows true) peerReset,
      5 ∉ st.streamsMap.streams ∧ ∃ s ∈ st.streamsMap.streamScheduler, s.nodeMap 5 = some 1 ∧
        ∃ r ∈ s.schedule st.streamsMap.view, r.1 = none ∧ (r.2.node 1).state = .active ∧
          (r.2.node 0).children = [1] ∧ (r.2.node 1).children = [] ∧ r.2.openStreams = 1 ∧
            (r.2.node 0).childrensWeight = 16 := by
  decide +kernel

end MultipathQuic
