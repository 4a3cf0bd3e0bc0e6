import MultipathQuic.Scheduler.Eligible
import MultipathQuic.Stream.WorkConservation

/-!
# The FIN of a stream without data

A stream that has been closed and has no data left still has its FIN to send, which takes no credit.
The round robin sends it whatever the window of the stream is. With a stream scheduler the FIN waits
for a window: `traverse` picks no stream whose window is closed, be it only for its FIN.
-/

namespace MultipathQuic

open StreamScheduler (Tree ReadyFirst eligible)

variable {E : Type}

/-- The stream has been closed, it has no data left, and its FIN has not been sent. -/
@[mk_iff]
structure Stream.AwaitsFin (s : Stream E) : Prop where
  closed : s.finishedWriting = true
  noData : s.dataForWriting = none
  notSent : s.finSent = false

instance (s : Stream E) : Decidable s.AwaitsFin := decidable_of_iff' _ s.awaitsFin_iff

namespace Stream.AwaitsFin

variable {s : Stream E}

theorem shouldSendFin (h : s.AwaitsFin) (herr : s.err = none) : s.shouldSendFin = true := by
  simp [Stream.shouldSendFin, h.closed, h.noData, h.notSent, herr]

theorem lenOfDataForWriting (h : s.AwaitsFin) : s.lenOfDataForWriting = 0 := by
  unfold Stream.lenOfDataForWriting
  rw [h.noData]
  cases s.err <;> rfl

theorem not_finished (h : s.AwaitsFin) : s.finishedWriteAndSentFin = false := by
  rw [finishedWriteAndSentFin, h.notSent, Bool.and_false]

end Stream.AwaitsFin

/-! ## The frame -/

namespace StreamsMap

variable {m : StreamsMap E} {id : ℕ}

/-- The frame that carries only the FIN of a stream. -/
def finFrame (m : StreamsMap E) (id : ℕ) : StreamFrame := { m.emptyFrame id with finBit := true }

/-- A stream that has only its FIN to send sends it, if there is room for it. -/
theorem popFrame_finFrame (hid : id ≠ 1) (hfin : (m.stream id).AwaitsFin)
    (herr : (m.stream id).err = none) {maxBytes currentLen : ℕ}
    (hroom : currentLen + (m.emptyFrame id).minLength < maxBytes) :
    ∃ m' blocked, m.popFrame id maxBytes currentLen =
      (m', blocked, .frame (m.finFrame id) (m.emptyFrame id).minLength) := by
  have hdata : ¬ (m.stream id).lenOfDataForWriting ≠ 0 := not_not_intro hfin.lenOfDataForWriting
  unfold popFrame
  rw [if_neg hid]
  rw [if_neg (by omega)]
  simp only [if_neg hdata]
  rw [if_neg (by omega), takeData, if_neg hdata]
  have hsend := hfin.shouldSendFin herr
  unfold finishFrame
  rw [if_neg (by simp [hsend]), hsend]
  exact ⟨_, _, rfl⟩

theorem send_finFrame (hid : id ≠ 1) (hfin : (m.stream id).AwaitsFin)
    (herr : (m.stream id).err = none) {maxBytes : ℕ}
    (hroom : (m.emptyFrame id).minLength < maxBytes) :
    ∃ m' blocked, m.send id maxBytes = (m', blocked, some (m.finFrame id)) := by
  have hroom' : 0 + (m.emptyFrame id).minLength < maxBytes := by rwa [Nat.zero_add]
  obtain ⟨m', blocked, hpop⟩ := popFrame_finFrame hid hfin herr hroom'
  exact ⟨m', blocked, by rw [send, hpop]⟩

end StreamsMap

/-! ## The packet -/

namespace StreamFramer

/-- How much of `maxLen` bytes is taken after the frames to retransmit, if `currentLen` is taken
before. The last one may be split. -/
def retransmissionLen (maxLen : ℕ) : List StreamFrame → ℕ → ℕ
  | [], currentLen => currentLen
  | frame :: queue, currentLen =>
    let headerLen := { frame with dataLenPresent := true }.minLength
    if maxLen ≤ currentLen + headerLen then currentLen
    else if maxLen < currentLen + headerLen + frame.dataLen then maxLen
    else retransmissionLen maxLen queue (currentLen + headerLen + frame.dataLen)

theorem popRetransmissions_len (maxLen : ℕ) (queue : List StreamFrame) (currentLen : ℕ)
    (m : StreamsMap E) :
    (popRetransmissions maxLen queue currentLen m).2.2.1 =
      retransmissionLen maxLen queue currentLen := by
  induction queue generalizing currentLen m with
  | nil => rfl
  | cons frame queue ih =>
    rw [popRetransmissions, retransmissionLen]
    dsimp only
    set frame' : StreamFrame := { frame with dataLenPresent := true }
    have hdata : frame'.dataLen = frame.dataLen := rfl
    by_cases hroom : currentLen + frame'.minLength ≥ maxLen
    · rw [if_pos hroom, if_pos hroom]
    · rw [if_neg hroom, if_neg hroom, ← hdata]
      by_cases hsplit : maxLen < currentLen + frame'.minLength + frame'.dataLen
      · -- the frame is split, and fills the packet
        have hlen : ¬ maxLen - (currentLen + frame'.minLength) ≥ frame'.dataLen := by omega
        rw [if_pos hsplit, maybeSplitOffFrame, if_neg hlen]
        change currentLen + frame'.minLength +
          (frame'.data.take (maxLen - (currentLen + frame'.minLength))).length = maxLen
        rw [List.length_take_of_le (Nat.le_of_not_ge hlen)]
        omega
      · have hlen : maxLen - (currentLen + frame'.minLength) ≥ frame'.dataLen := by omega
        rw [if_neg hsplit, maybeSplitOffFrame, if_pos hlen]
        exact ih _ _

theorem popRetransmissions_stream (maxLen : ℕ) (queue : List StreamFrame) (currentLen : ℕ)
    (m : StreamsMap E) : (popRetransmissions maxLen queue currentLen m).1.stream = m.stream :=
  popRetransmissions_rule (P := fun m' => m'.stream = m.stream) (fun _ _ h => h) maxLen queue
    currentLen m rfl

/-- What a stream needs to send its FIN: it is not the header stream, it has no error and a window,
there is room for the frame, and it comes before the finished streams. -/
structure CanSendFin (f : StreamFramer E) (sch : StreamScheduler) (n id maxLen : ℕ) : Prop where
  notHeader : (sch.node n).id ≠ 0
  alive : (f.streamsMap.stream id).err = none
  window : 0 < (f.streamsMap.flowControlManager.sendWindowSize id).1
  room : f.retransmissionQueue ≠ [] →
    retransmissionLen maxLen f.retransmissionQueue 0 + (f.streamsMap.emptyFrame id).minLength <
      maxLen
  first : ReadyFirst f.streamsMap.view sch

variable {f : StreamFramer E} {sch : StreamScheduler} {n id maxLen : ℕ}

theorem CanSendFin.eligible (h : f.CanSendFin sch n id maxLen)
    (hactive : (sch.node n).state = .active) (hid : (sch.node n).stream = some id)
    (hfin : (f.streamsMap.stream id).AwaitsFin) : sch.eligible f.streamsMap.view n := by
  refine ⟨?_, ⟨id, hid, h.window⟩, ?_⟩
  · rintro ⟨id', hid', hdone⟩
    rw [hid] at hid'
    cases hid'
    change (f.streamsMap.stream id).finishedWriteAndSentFin = true at hdone
    rw [hfin.not_finished] at hdone
    cases hdone
  · rw [if_neg h.notHeader]
    exact hactive

theorem CanSendFin.room_of_le (h : f.CanSendFin sch n id maxLen) (hmax : 16 ≤ maxLen) :
    retransmissionLen maxLen f.retransmissionQueue 0 + (f.streamsMap.emptyFrame id).minLength <
      maxLen := by
  by_cases hqueue : f.retransmissionQueue = []
  · have hlen := (f.streamsMap.emptyFrame id).minLength_le
    rw [hqueue, retransmissionLen]
    omega
  · exact h.room hqueue

/-- The only stream that can send is the one that is scheduled, and sends its FIN. -/
theorem popScheduled_finFrame (hkept : sch.Kept) (hn : n < sch.size)
    (hactive : (sch.node n).state = .active) (hid : (sch.node n).stream = some id)
    (hfin : (f.streamsMap.stream id).AwaitsFin)
    (halone : ∀ m < sch.size, m ≠ n → m = 0 ∨ sch.attached m → ¬ sch.eligible f.streamsMap.view m)
    (helig : sch.eligible f.streamsMap.view n) (hfirst : ReadyFirst f.streamsMap.view sch)
    (herr : (f.streamsMap.stream id).err = none) {maxBytes : ℕ}
    (hroom : (f.streamsMap.emptyFrame id).minLength < maxBytes) :
    ∃ f', f.popScheduled sch maxBytes = some (f', [f.streamsMap.finFrame id]) := by
  obtain ⟨m, t, -, hfound, hunfinished, heq⟩ :=
    hkept.toTree.schedule_first hfirst hn (Or.inr (Or.inl hactive)) helig
  have hlt : m < sch.size := hkept.toTree.lt_size_of_above hfound.above hkept.toTree.size_pos
  have hm : m = n := by
    by_contra hne
    exact halone m hlt hne hfound.ready.1 ⟨hunfinished, hfound.ready.2⟩
  subst hm
  have hid' : (t.node m).stream = some id := (hfound.stream_eq m).trans hid
  have hcrypto : id ≠ 1 := by
    rintro rfl
    exact hkept.unset.2 m hid
  obtain ⟨m', blocked, hsend⟩ := StreamsMap.send_finFrame
    (m := { f.streamsMap with streamScheduler := some t }) hcrypto hfin herr hroom
  refine ⟨{ f with streamsMap := m', blockedFrameQueue := f.blockedFrameQueue ++ blocked }, ?_⟩
  unfold popScheduled
  rw [f.nextNode_eq hkept, heq]
  simp only [Option.bind_eq_bind, Option.bind_some, hid', hsend]
  rfl

/-- The callback of the round robin makes the same frame of the stream. -/
theorem popFrom_finFrame (hid : id ≠ 1) (hfin : (f.streamsMap.stream id).AwaitsFin)
    (herr : (f.streamsMap.stream id).err = none) {maxBytes : ℕ}
    (hroom : (f.streamsMap.emptyFrame id).minLength < maxBytes) (blocked : List BlockedFrame) :
    (popFrom maxBytes (f.streamsMap, ⟨blocked, [], 0⟩) id).1.2.res =
      [f.streamsMap.finFrame id] := by
  have hroom' : 0 + (f.streamsMap.emptyFrame id).minLength < maxBytes := by rwa [Nat.zero_add]
  obtain ⟨m', blocked', hpop⟩ := StreamsMap.popFrame_finFrame hid hfin herr hroom'
  simp only [popFrom, hpop, List.nil_append]

end StreamFramer

open SendRun in
/-- **The FIN of the only stream that can send is sent**, in every state of a sound run in which the
stream has a window and no error, is not the header stream, finds room after the retransmissions and
comes before the finished streams. It is the frame that the round robin makes of the stream. -/
theorem loneFin_sent {perspective : Perspective} {params : ConnectionParameters}
    {wrr : Bool} {ops : List (SendOp E)} (hsound : Sound (start E perspective params wrr) ops) :
    ∀ st ∈ run (start E perspective params wrr) ops, ∀ sch ∈ st.streamsMap.streamScheduler,
      ∀ n < sch.size, (sch.node n).state = .active → ∀ id ∈ (sch.node n).stream,
        (st.streamsMap.stream id).AwaitsFin →
        (∀ m < sch.size, m ≠ n → m = 0 ∨ sch.attached m → ¬ sch.eligible st.streamsMap.view m) →
        ∀ maxLen ≥ 16, st.framer.CanSendFin sch n id maxLen →
          (∃ framer retransmitted, st.framer.popStreamFrames maxLen =
            some (framer, retransmitted ++ [st.streamsMap.finFrame id])) ∧
          ∀ blocked, (StreamFramer.popFrom maxLen (st.streamsMap, ⟨blocked, [], 0⟩) id).1.2.res =
            [st.streamsMap.finFrame id] := by
  intro st hst sch hsch n hn hactive id hid hfin halone maxLen hmax hcan
  have hkept : sch.Kept := kept_run (kept_start perspective params wrr) hsound st hst sch hsch
  have hroom : StreamFramer.retransmissionLen maxLen st.framer.retransmissionQueue 0 +
      (st.streamsMap.emptyFrame id).minLength < maxLen := hcan.room_of_le hmax
  have helig := hcan.eligible hactive hid hfin
  have hcrypto : id ≠ 1 := by
    rintro rfl
    exact hkept.unset.2 n hid
  have hfits : (st.streamsMap.emptyFrame id).minLength < maxLen := by omega
  refine ⟨?_, StreamFramer.popFrom_finFrame hcrypto hfin hcan.alive hfits⟩
  -- the retransmissions only count bytes
  obtain ⟨hview, hsch'⟩ := StreamFramer.popRetransmissions_keeps maxLen
    st.framer.retransmissionQueue 0 st.streamsMap
  have hstream := StreamFramer.popRetransmissions_stream maxLen st.framer.retransmissionQueue 0
    st.streamsMap
  have hlen := StreamFramer.popRetransmissions_len maxLen st.framer.retransmissionQueue 0
    st.streamsMap
  rw [StreamFramer.popStreamFrames, StreamFramer.maybePopFramesForRetransmission]
  generalize StreamFramer.popRetransmissions maxLen st.framer.retransmissionQueue 0 st.streamsMap =
    popped at hview hsch' hstream hlen
  obtain ⟨m, retransmitted, currentLen, queue⟩ := popped
  dsimp only at hview hsch' hstream hlen ⊢
  have hfinFrame : m.finFrame id = st.streamsMap.finFrame id := by
    simp only [StreamsMap.finFrame, StreamsMap.emptyFrame, hstream]
  have hempty : m.emptyFrame id = st.streamsMap.emptyFrame id := by
    simp only [StreamsMap.emptyFrame, hstream]
  have hrest : (m.emptyFrame id).minLength < maxLen - currentLen := by
    rw [hempty]
    omega
  obtain ⟨f', hpop⟩ := StreamFramer.popScheduled_finFrame
    (f := { st.framer with streamsMap := m, retransmissionQueue := queue })
    hkept hn hactive hid (hstream ▸ hfin) (hview ▸ halone) (hview ▸ helig) (hview ▸ hcan.first)
    (hstream ▸ hcan.alive) hrest
  refine ⟨f', retransmitted, ?_⟩
  have hnormal : StreamFramer.maybePopNormalFrames
      { st.framer with streamsMap := m, retransmissionQueue := queue } (maxLen - currentLen) =
        some (f', [m.finFrame id]) := by
    rw [StreamFramer.maybePopNormalFrames]
    dsimp only
    rw [hsch', hsch]
    exact hpop
  rw [hnormal, hfinFrame]
  rfl

/-- Stream 5 has sent its data, and then it has been closed. Frames are to be retransmitted. -/
def closedAfterData : List (SendOp Unit) :=
  [.openStream, .openStream, .openStream, .setStreamActive 5, .write 5 [1, 2, 3],
    .popStreamFrames 100, .close 5, .addFrameForRetransmission ⟨5, false, true, 0, [1, 2, 3]⟩]

open SendRun in
theorem closedAfterData_fin :
    ∃ st ∈ run (start Unit .client smallWindows true) closedAfterData, ∃ framer retransmitted,
      st.framer.popStreamFrames 100 =
        some (framer, retransmitted ++ [⟨5, true, true, 3, []⟩]) := by
  have hsound : Sound (start Unit .client smallWindows true) closedAfterData := by decide +kernel
  obtain ⟨st, hst, sch, hsch, n, hn, hactive, hid, hfin, halone, h0, herr, hwindow, hroom, hfirst,
      hframe⟩ :
      ∃ st ∈ run (start Unit .client smallWindows true) closedAfterData,
        ∃ sch ∈ st.streamsMap.streamScheduler, ∃ n < sch.size, (sch.node n).state = .active ∧
          (sch.node n).stream = some 5 ∧ (st.streamsMap.stream 5).AwaitsFin ∧
          (∀ m < sch.size, m ≠ n → m = 0 ∨ sch.attached m →
            ¬ sch.eligible st.streamsMap.view m) ∧
          (sch.node n).id ≠ 0 ∧ (st.streamsMap.stream 5).err = none ∧
          0 < (st.streamsMap.flowControlManager.sendWindowSize 5).1 ∧
          StreamFramer.retransmissionLen 100 st.framer.retransmissionQueue 0 +
            (st.streamsMap.emptyFrame 5).minLength < 100 ∧
          ReadyFirst st.streamsMap.view sch ∧ st.streamsMap.finFrame 5 = ⟨5, true, true, 3, []⟩ := by
    decide +kernel
  obtain ⟨⟨framer, retransmitted, hpop⟩, -⟩ := loneFin_sent hsound st hst sch hsch n hn hactive 5 hid
    hfin halone 100 (by decide) ⟨h0, herr, hwindow, fun _ => hroom, hfirst⟩
  exact ⟨st, hst, framer, retransmitted, hframe ▸ hpop⟩

/-- Stream 5 has used up its window, and then it has been closed. -/
def closedWithoutWindow : List (SendOp Unit) :=
  [.openStream, .openStream, .openStream, .setStreamActive 5, .write 5 [1, 2, 3, 4, 5, 6, 7, 8],
    .popStreamFrames 100, .close 5]

open SendRun in
/-- **Without a window the FIN of stream 5 is not sent**, although nothing else is to be sent and the
round robin sends it. -/
theorem blockedFin_not_sent :
    Sound (start Unit .client smallWindows true) closedWithoutWindow ∧
    (∃ st ∈ run (start Unit .client smallWindows true) closedWithoutWindow,
      ∃ sch ∈ st.streamsMap.streamScheduler, st.framer.retransmissionQueue = [] ∧
        (sch.node 1).state = .active ∧ (sch.node 1).stream = some 5 ∧ 1 ∈ (sch.node 0).children ∧
        (st.streamsMap.stream 5).AwaitsFin ∧
        (∀ m < sch.size, m ≠ 1 → m = 0 ∨ sch.attached m →
          ¬ sch.eligible st.streamsMap.view m) ∧
        (st.streamsMap.flowControlManager.sendWindowSize 5).1 = 0 ∧
        ∃ r ∈ st.framer.popStreamFrames 100, r.2 = []) ∧
    ∃ st ∈ run (start Unit .client smallWindows false) closedWithoutWindow,
      ∃ r ∈ st.framer.popStreamFrames 100, r.2 = [⟨5, true, true, 8, []⟩] := by
  decide +kernel

end MultipathQuic
