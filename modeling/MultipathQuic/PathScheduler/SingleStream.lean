import MultipathQuic.PathScheduler.StreamTests
import MultipathQuic.Scheduler.Completion
import MultipathQuic.Stream.WorkConservation

/-!
# SA-ECF with a single stream

If one stream only can send, SA-ECF makes a single test, with the data of that stream and with its
flag, and ECF makes the same test with the data of all streams and with its own flag. They agree
unless the tree of the scheduler has a finished stream: `schedule` then retires that one first, and
SA-ECF selects no path at all.
-/

namespace MultipathQuic

open StreamScheduler (Tree Wired SameShape Unfinished)

namespace StreamsMap

variable {E : Type} {m : StreamsMap E} {s : StreamScheduler} {n id q : ℕ}

/-! ## The data of all streams -/

/-- One round of the loop of `getQueueSize`. -/
theorem iterateOver_cons {i : ℕ} {ids : List ℕ} :
    iterateOver (fun p i => ((p.1, add64 p.2 (p.1.stream i).lenOfDataForWriting), true, none))
        (i :: ids) (m, q) =
      if i ∈ m.streams then
        iterateOver (fun p i => ((p.1, add64 p.2 (p.1.stream i).lenOfDataForWriting), true, none))
          ids (m, add64 q (m.stream i).lenOfDataForWriting)
      else ((m, q), some .mapAccess) := by
  by_cases hi : i ∈ m.streams
  · rw [iterateOver, iterateFunc, if_pos hi, if_pos hi]
  · rw [iterateOver, iterateFunc, if_neg hi, if_neg hi]

/-- If one stream only has data, then not more than that is added up. -/
theorem iterateOver_le {ids : List ℕ} (hnodup : ids.Nodup)
    (hrest : ∀ i ∈ ids, i ≠ id → (m.stream i).lenOfDataForWriting = 0) :
    (iterateOver (fun p i => ((p.1, add64 p.2 (p.1.stream i).lenOfDataForWriting), true, none)) ids
      (m, q)).1.2 ≤ q + if id ∈ ids then (m.stream id).lenOfDataForWriting else 0 := by
  induction ids generalizing q with
  | nil => exact Nat.le_add_right _ _
  | cons i ids ih =>
    obtain ⟨hnot, hnodup⟩ := List.nodup_cons.mp hnodup
    rw [iterateOver_cons]
    split
    · refine (ih hnodup fun j hj => hrest j (List.mem_cons_of_mem _ hj)).trans ?_
      have hadd : add64 q (m.stream i).lenOfDataForWriting ≤
          q + (m.stream i).lenOfDataForWriting := add64_le _ _
      by_cases hid : i = id
      · subst hid
        rw [if_neg hnot, if_pos List.mem_cons_self]
        exact hadd
      · have hzero := hrest i List.mem_cons_self hid
        have hmem : id ∈ i :: ids ↔ id ∈ ids := by
          rw [List.mem_cons, or_iff_right fun h => hid h.symm]
        simp only [hmem]
        omega
    · exact Nat.le_add_right _ _

theorem queueSize_le (hnodup : m.openStreams.Nodup)
    (hrest : ∀ i ∈ m.openStreams, i ≠ id → (m.stream i).lenOfDataForWriting = 0) :
    m.queueSize ≤ (m.stream id).lenOfDataForWriting := by
  have hle := iterateOver_le (q := 0) hnodup hrest
  rw [Nat.zero_add] at hle
  refine hle.trans ?_
  split
  · exact le_rfl
  · exact Nat.zero_le _

/-- The data of all streams does not depend on the stream scheduler. -/
theorem queueSize_setScheduler (m : StreamsMap E) (sch : Option StreamScheduler) :
    { m with streamScheduler := sch }.queueSize = m.queueSize := by
  have hloop : ∀ ids q, (iterateOver
        (fun p i => ((p.1, add64 p.2 (p.1.stream i).lenOfDataForWriting), true, none)) ids
        ({ m with streamScheduler := sch }, q)).1.2 =
      (iterateOver (fun p i => ((p.1, add64 p.2 (p.1.stream i).lenOfDataForWriting), true, none))
        ids (m, q)).1.2 := by
    intro ids
    induction ids with
    | nil => exact fun _ => rfl
    | cons i ids ih =>
      intro q
      rw [iterateOver_cons, iterateOver_cons]
      split
      · exact ih _
      · rfl
  exact hloop m.openStreams 0

/-! ## The loop over the streams -/

/-- The node `n` is the only active one, the one of the header stream apart, and its stream is the
only one that has data; it has a window. -/
@[mk_iff]
structure LoneSender (m : StreamsMap E) (s : StreamScheduler) (n : ℕ) : Prop where
  openStreams : s.openStreams = 1
  lt : n < s.size
  active : (s.node n).state = .active
  only : ∀ x < s.size, (s.node x).id ≠ 0 → (s.node x).state = .active → x = n
  data : s.hasData m.view n
  window : s.hasWindow m.view n
  rest : ∀ x < s.size, x ≠ n → ¬ s.hasData m.view x
  nodup : m.openStreams.Nodup
  restOpen : ∀ id ∈ m.openStreams, (s.node n).stream ≠ some id →
    (m.stream id).lenOfDataForWriting = 0

instance (m : StreamsMap E) (s : StreamScheduler) (n : ℕ) : Decidable (LoneSender m s n) :=
  decidable_of_iff' _ (loneSender_iff ..)

namespace LoneSender

variable {p : PathPair}

theorem ready_iff (h : LoneSender m s n) {x : ℕ} (hx : x < s.size) :
    s.ready m.view x ↔ x = n := by
  constructor
  · rintro ⟨-, -, hcan⟩
    split at hcan
    · by_contra hne
      exact h.rest x hx hne hcan
    · next hid => exact h.only x hx hid hcan
  · rintro rfl
    refine ⟨Or.inr (Or.inl h.active), h.window, ?_⟩
    split
    · exact h.data
    · exact h.active

/-- `schedule` returns the node, wherever it stands in the tree. -/
theorem schedule (h : LoneSender m s n) (htree : Tree s) (hunfinished : Unfinished m.view s) :
    ∃ t, SameShape s t ∧ s.schedule m.view = some (some n, t) := by
  have hready : s.ready m.view n := (h.ready_iff h.lt).mpr rfl
  rcases htree.schedule_search hunfinished with ⟨hbarren, -⟩ | ⟨r, t, -, hfound, heq⟩
  · exact absurd hready (hbarren n (htree.above_root h.lt))
  · have hr : r < s.size := htree.lt_size_of_above hfound.above htree.size_pos
    cases (h.ready_iff hr).mp hfound.ready
    exact ⟨t, hfound.toSameShape, heq⟩

/-- It stays so when the selected stream is reset. -/
theorem setToSend (h : LoneSender m s n) (strm : Option ℕ) :
    LoneSender { m with streamScheduler := some { s with toSend := strm } }
      { s with toSend := strm } n :=
  ⟨h.openStreams, h.lt, h.active, h.only, h.data, h.window, h.rest, h.nodup, h.restOpen⟩

/-- The data of all streams is not more than the stream has. -/
theorem queueSize_le (h : LoneSender m s n) {id : ℕ} (hid : (s.node n).stream = some id) :
    m.queueSize ≤ (m.stream id).lenOfDataForWriting := by
  refine StreamsMap.queueSize_le h.nodup fun i hi hne => h.restOpen i hi fun hsame => hne ?_
  exact Option.some.inj (hsame.symm.trans hid)

/-- The loop makes one test, with the data of all streams and the flag of the node. -/
theorem examineStreams (h : LoneSender m s n) (htree : Tree s)
    (hunfinished : Unfinished m.view s) :
    ∃ acc, m.examineStreams p s =
        some (!(p.waitsForBest m.queueSize (s.node n).waiting).1, acc) ∧
      (acc.streamScheduler.node n).waiting =
        (p.waitsForBest m.queueSize (s.node n).waiting).2 := by
  obtain ⟨t, hshape, heq⟩ := h.schedule htree hunfinished
  obtain ⟨id, hid, -⟩ := h.data
  have hwaiting : (t.node n).waiting = (s.node n).waiting :=
    (congrArg Node.waiting (hshape.shape_eq n) : _)
  have hbytes : t.bytesUntilCompletion m.view n = some (m.stream id).lenOfDataForWriting := by
    rw [StreamScheduler.bytesUntilCompletion_eq ((hshape.stream_eq n).trans hid), if_pos]
    · rfl
    · exact Or.inr (hshape.openStreams_eq.trans h.openStreams)
  have hsize : (if m.queueSize > (m.stream id).lenOfDataForWriting then
      (m.stream id).lenOfDataForWriting else m.queueSize) = m.queueSize :=
    if_neg (not_lt.mpr (h.queueSize_le hid))
  obtain ⟨acc, hstep, hvisited, hopen, hflag⟩ : ∃ acc, m.examineStep p ⟨[], m.queueSize, s, []⟩ =
        some (if (p.waitsForBest m.queueSize (s.node n).waiting).1 then none else some true, acc) ∧
      acc.visited.length = 1 ∧ acc.streamScheduler.openStreams = 1 ∧
      (acc.streamScheduler.node n).waiting =
        (p.waitsForBest m.queueSize (s.node n).waiting).2 := by
    simp only [StreamsMap.examineStep, heq, Option.bind_eq_bind, Option.bind_some, hbytes, hsize,
      hwaiting, List.not_mem_nil, if_false]
    refine ⟨_, rfl, rfl, hshape.openStreams_eq.trans h.openStreams, ?_⟩
    rw [StreamScheduler.modify_node_self]
  refine ⟨acc, ?_, hflag⟩
  have hone : (1 : ℤ).toNat = 1 := rfl
  rw [StreamsMap.examineStreams, h.openStreams, hone, StreamsMap.examine, hstep]
  rw [if_pos ⟨by simp [h.openStreams], by simp [h.openStreams]⟩]
  -- the loop ends, since the only open stream has been visited
  cases (p.waitsForBest m.queueSize (s.node n).waiting).1 with
  | false => rfl
  | true => simp [StreamsMap.examine, hvisited, hopen]

end LoneSender

end StreamsMap

/-! ## Both selections -/

/-- The flag of a node after a selection. -/
def Selection.nodeWaiting {E : Type} (r : Selection E) (n : ℕ) : Option ℕ :=
  r.streamsMap.streamScheduler.map fun s => (s.node n).waiting

open StreamsMap (LoneSender)

namespace PathMap

variable {E : Type} (paths : PathMap) {sch : PathScheduler} {m : StreamsMap E}
  {s : StreamScheduler} {n : ℕ}

theorem decideEcf_setScheduler (sch : PathScheduler) (m : StreamsMap E)
    (streamScheduler : Option StreamScheduler) (hasRetransmission : Bool) (c : Candidates) :
    paths.decideEcf sch { m with streamScheduler := streamScheduler } hasRetransmission c =
      { paths.decideEcf sch m hasRetransmission c with
        streamsMap := { m with streamScheduler := streamScheduler } } := by
  unfold decideEcf
  rw [StreamsMap.queueSize_setScheduler]
  split
  · rfl
  · split
    · rfl
    · split <;> rfl

theorem decideSaEcf_lone (h : LoneSender m s n) (htree : Tree s)
    (hunfinished : Unfinished m.view s) (hs : m.streamScheduler = some s) (hwaiting : (s.node n).waiting = sch.waiting)
    (hasRetransmission : Bool) (c : Candidates) :
    (paths.decideSaEcf sch m s hasRetransmission c).map (fun r => (r.path, r.nodeWaiting n)) =
      some ((paths.decideEcf sch m hasRetransmission c).path,
        some (paths.decideEcf sch m hasRetransmission c).waiting) := by
  have hflag : m.streamScheduler.map (fun s => (s.node n).waiting) = some sch.waiting := by
    rw [hs, Option.map_some, hwaiting]
  unfold decideSaEcf decideEcf
  split
  · exact congrArg (fun flag => some (_, flag)) hflag
  · split
    · exact congrArg (fun flag => some (_, flag)) hflag
    · split
      · exact congrArg (fun flag => some (_, flag)) hflag
      · next best _ _ _ second _ =>
        obtain ⟨acc, heq, hnode⟩ :=
          h.examineStreams (p := paths.pathPair c best second) htree hunfinished
        rw [hwaiting] at heq hnode
        rw [heq]
        dsimp only [Option.bind_eq_bind, Option.bind_some, Option.map_some, Selection.nodeWaiting]
        rw [hnode]
        cases ((paths.pathPair c best second).waitsForBest m.queueSize sch.waiting).1 <;> rfl

end PathMap

/-- **SA-ECF and ECF select the same path and leave the same flag** if one stream only can send and no
stream of the tree is finished. Where one of them panics, so does the other one. -/
theorem saEcf_eq_ecf {E : Type} {paths : PathMap} {sch : PathScheduler} {m : StreamsMap E}
    {s : StreamScheduler} {n : ℕ} (hs : m.streamScheduler = some s) (htree : Tree s)
    (h : LoneSender m s n) (hunfinished : Unfinished m.view s) (hwaiting : (s.node n).waiting = sch.waiting)
    (hasRetransmission hasStreamRetransmission : Bool) (fromPth : Option PathID)
    (unprobedOrder order : List PathID) :
    (paths.selectPathStreamAwareEarliestCompletionFirst sch m hasRetransmission
        hasStreamRetransmission fromPth unprobedOrder order).map
          (fun r => (r.path, r.nodeWaiting n)) =
      (paths.selectPathEarliestCompletionFirst sch m hasRetransmission hasStreamRetransmission
        fromPth unprobedOrder order).map fun r => (r.path, some r.waiting) := by
  unfold PathMap.selectPathStreamAwareEarliestCompletionFirst
    PathMap.selectPathEarliestCompletionFirst
  rw [hs]
  cases paths.selectEarly sch hasRetransmission hasStreamRetransmission fromPth unprobedOrder with
  | none => rfl
  | some early =>
    cases early with
    | some pth => exact congrArg (fun flag => some (pth, some flag)) hwaiting
    | none =>
      refine (paths.decideSaEcf_lone (h.setToSend none) (htree.setToSend none) hunfinished rfl hwaiting
        hasRetransmission (paths.candidates sch.quotas order)).trans ?_
      rw [paths.decideEcf_setScheduler]
      rfl

/-- Stream 5 is the only one that can send. It depends on stream 7, which is idle. -/
def loneSender : List (SendOp Unit) :=
  [.openStream, .openStream, .openStream, .openStream, .setStreamPriority 5 15 7 false,
    .setStreamActive 5, .write 5 (List.replicate 200 0)]

open SendRun in
theorem loneSender_saEcf_eq_ecf :
    ∃ st ∈ run (start Unit .client smallWindows true) loneSender,
      (unequalPaths.selectPathStreamAwareEarliestCompletionFirst ⟨fun _ => 0, 0⟩ st.streamsMap false
          false none [0, 1, 2] [0, 1, 2]).map (fun r => (r.path, r.nodeWaiting 1)) =
        (unequalPaths.selectPathEarliestCompletionFirst ⟨fun _ => 0, 0⟩ st.streamsMap false false
          none [0, 1, 2] [0, 1, 2]).map fun r => (r.path, some r.waiting) := by
  obtain ⟨st, hst, s, hs, hlone, hunfinished, hwaiting⟩ :
      ∃ st ∈ run (start Unit .client smallWindows true) loneSender,
        ∃ s ∈ st.streamsMap.streamScheduler, LoneSender st.streamsMap s 1 ∧
          Unfinished st.streamsMap.view s ∧ (s.node 1).waiting = 0 := by
    decide +kernel
  have htree : Tree s := (kept_run (kept_start .client smallWindows true)
    (show Sound _ loneSender by decide +kernel) st hst s hs).toTree
  exact ⟨st, hst,
    saEcf_eq_ecf hs htree hlone hunfinished hwaiting false false none [0, 1, 2] [0, 1, 2]⟩

/-- The header stream has sent its FIN. Stream 5 is the only one that can send. -/
def finishedHeader : List (SendOp Unit) :=
  [.openStream, .openStream, .openStream, .write 3 [0], .close 3, .popStreamFrames 100,
    .setStreamActive 5, .write 5 (List.replicate 200 0)]

open SendRun in
/-- **A finished header stream makes them differ:** SA-ECF selects no path, and ECF the second one. -/
theorem finishedHeader_differ :
    Sound (start Unit .client smallWindows true) finishedHeader ∧
    ∃ st ∈ run (start Unit .client smallWindows true) finishedHeader,
      ∃ s ∈ st.streamsMap.streamScheduler, LoneSender st.streamsMap s 1 ∧
        ¬ s.finished st.streamsMap.view 1 ∧ (s.node 1).waiting = 0 ∧
        (unequalPaths.selectPathStreamAwareEarliestCompletionFirst ⟨fun _ => 0, 0⟩ st.streamsMap
          false false none [0, 1, 2] [0, 1, 2]).map Selection.path = some none ∧
        (unequalPaths.selectPathEarliestCompletionFirst ⟨fun _ => 0, 0⟩ st.streamsMap false false
          none [0, 1, 2] [0, 1, 2]).map Selection.path = some (some 2) := by
  decide +kernel

end MultipathQuic
