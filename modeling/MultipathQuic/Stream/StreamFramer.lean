import MultipathQuic.Stream.StreamsMap

/-!
# Framing stream data

`stream_framer.go`, and `send` of `stream_scheduler.go`, which is a copy of the callback of
`maybePopNormalFrames`. The framer and the stream scheduler use one `streamsMap` and one flow
control manager.

## Main definitions

* `StreamFramer`, `popStreamFrames`: the framer
* `popFrame`, `send`: the next frame of a stream

## Main results

* `popFrame_cases`, `send_cases`: all they can do
* `maybePopNormalFrames_rule`: a rule for new data
-/

namespace MultipathQuic

/-- `streamFramer`. The stream scheduler is the one of the map. -/
structure StreamFramer (E : Type) where
  streamsMap : StreamsMap E
  retransmissionQueue : List StreamFrame
  blockedFrameQueue : List BlockedFrame
  addAddressFrameQueue : List AddAddressFrame
  closePathFrameQueue : List ClosePathFrame
  pathsFrame : Option PathsFrame

/-- `newStreamFramer`. -/
def newStreamFramer {E : Type} (streamsMap : StreamsMap E) : StreamFramer E where
  streamsMap := streamsMap
  retransmissionQueue := []
  blockedFrameQueue := []
  addAddressFrameQueue := []
  closePathFrameQueue := []
  pathsFrame := none

/-! ## The next frame of a stream -/

/-- What `popFrame` has made of a stream. -/
inductive PopResult
  /-- There is no room for the header. -/
  | full
  /-- The stream has nothing to send, or may not. -/
  | nothing
  /-- A frame, with the length of its header. -/
  | frame (frame : StreamFrame) (frameHeaderBytes : ℕ)
  deriving DecidableEq

namespace StreamsMap

variable {E : Type} (m : StreamsMap E)

/-- The frame of a stream before it has data. -/
def emptyFrame (id : ℕ) : StreamFrame where
  streamID := id
  finBit := false
  dataLenPresent := true
  offset := (m.stream id).writeOffset
  data := []

/-- The BLOCKED frame that is queued after a frame with these data, if any. -/
def blockedFrame (id : ℕ) (finBit : Bool) (sendWindowSize dataLen : ℕ) : List BlockedFrame :=
  if m.flowControlManager.remainingConnectionWindowSize = 0 then [⟨0⟩]
  else if !finBit && sendWindowSize - dataLen == 0 then [⟨id⟩]
  else []

/-- The data of the next frame: none without buffered data, even if `Write` is called meanwhile. -/
def takeData (id maxLen : ℕ) : Option (List UInt8) × StreamsMap E :=
  if (m.stream id).lenOfDataForWriting ≠ 0 then
    (((m.stream id).getDataForWriting maxLen).1,
      m.modifyStream id fun s => (s.getDataForWriting maxLen).2)
  else (none, m)

/-- The end of `popFrame`, where the frame has its data. -/
def finishFrame (id sendWindowSize : ℕ) (data : Option (List UInt8)) :
    StreamsMap E × List BlockedFrame × Option (Bool × List UInt8) :=
  let shouldSendFin := (m.stream id).shouldSendFin
  if data = none ∧ shouldSendFin = false then (m, [], none)
  else
    let m := if shouldSendFin then m.modifyStream id Stream.sentFin else m
    let data := data.getD []
    let m := { m with
      flowControlManager := (m.flowControlManager.addBytesSent id data.length).1 }
    (m, m.blockedFrame id shouldSendFin sendWindowSize data.length, some (shouldSendFin, data))

/-- The next frame of a stream, if `currentLen` of `maxBytes` are used already, and the BLOCKED
frames it causes. Data is only taken with the approval of flow control. -/
def popFrame (id maxBytes currentLen : ℕ) : StreamsMap E × List BlockedFrame × PopResult :=
  if id = 1 then (m, [], .nothing)
  else
    let frame := m.emptyFrame id
    let frameHeaderBytes := frame.minLength
    if currentLen + frameHeaderBytes > maxBytes then (m, [], .full)
    else
      let sendWindowSize :=
        if (m.stream id).lenOfDataForWriting ≠ 0 then (m.flowControlManager.sendWindowSize id).1
        else 0
      let maxLen :=
        if (m.stream id).lenOfDataForWriting ≠ 0 then
          min (maxBytes - currentLen - frameHeaderBytes) sendWindowSize
        else maxBytes - currentLen - frameHeaderBytes
      if maxLen = 0 then (m, [], .nothing)
      else
        let (data, m) := m.takeData id maxLen
        match m.finishFrame id sendWindowSize data with
        | (m, blocked, none) => (m, blocked, .nothing)
        | (m, blocked, some (finBit, data)) =>
          (m, blocked, .frame { frame with finBit := finBit, data := data } frameHeaderBytes)

/-- `send` of the stream scheduler. -/
def send (id maxBytes : ℕ) : StreamsMap E × List BlockedFrame × Option StreamFrame :=
  match m.popFrame id maxBytes 0 with
  | (m, blocked, .frame frame _) => (m, blocked, some frame)
  | (m, blocked, _) => (m, blocked, none)

/-- What a frame of a stream has to do with the state before, and what it changes: the sending side
of the stream and flow control. -/
structure Frames (m : StreamsMap E) (id : ℕ) (frame : StreamFrame) (m' : StreamsMap E) : Prop where
  /-- The crypto stream has packets of its own. -/
  notCrypto : id ≠ 1
  streamID : frame.streamID = id
  offset : frame.offset = (m.stream id).writeOffset
  dataLen_le : frame.dataLen ≤ (m.flowControlManager.sendWindowSize id).1
  /-- The stream has data or is closed. -/
  busy : (m.stream id).dataForWriting.isSome = true ∨ (m.stream id).finishedWriting = true
  /-- A stream with an error has no data to send. -/
  alive : frame.dataLen ≠ 0 → (m.stream id).err = none
  recv : (m'.stream id).toRecvStream = (m.stream id).toRecvStream
  stream_streamID : (m'.stream id).streamID = (m.stream id).streamID
  writeOffset : (m'.stream id).writeOffset =
    if frame.dataLen = 0 then (m.stream id).writeOffset
    else add64 (m.stream id).writeOffset frame.dataLen
  eq : ∃ s, m' = { m with
    stream := Function.update m.stream id s
    flowControlManager := (m.flowControlManager.addBytesSent id frame.dataLen).1 }

/-- The stream has a frame that fits: it has data and a window, or only its FIN is left. -/
def HasFrame (id maxBytes currentLen : ℕ) : Prop :=
  id ≠ 1 ∧ currentLen + (m.emptyFrame id).minLength < maxBytes ∧
    if (m.stream id).lenOfDataForWriting ≠ 0 then (m.flowControlManager.sendWindowSize id).1 ≠ 0
    else (m.stream id).shouldSendFin = true

variable {m} {m' : StreamsMap E} {id : ℕ}

/-- `finishFrame` has a frame unless there is neither data nor a FIN. -/
theorem finishFrame_cases (id sendWindowSize : ℕ) (data : Option (List UInt8)) :
    (data = none ∧ (m.stream id).shouldSendFin = false ∧
      m.finishFrame id sendWindowSize data = (m, [], none)) ∨
    ((data = none → (m.stream id).shouldSendFin = true) ∧
      ∃ m' blocked finBit s, m.finishFrame id sendWindowSize data =
          (m', blocked, some (finBit, data.getD [])) ∧
        (s = m.stream id ∨ s = (m.stream id).sentFin) ∧
        m' = { m with
          stream := Function.update m.stream id s
          flowControlManager :=
            (m.flowControlManager.addBytesSent id (data.getD []).length).1 }) := by
  by_cases hnothing : data = none ∧ (m.stream id).shouldSendFin = false
  · exact .inl ⟨hnothing.1, hnothing.2, if_pos hnothing⟩
  · right
    unfold finishFrame
    rw [if_neg hnothing]
    cases hfin : (m.stream id).shouldSendFin with
    | true => exact ⟨fun _ => rfl, _, _, true, (m.stream id).sentFin, rfl, Or.inr rfl, rfl⟩
    | false =>
      refine ⟨fun hnone => absurd ⟨hnone, hfin⟩ hnothing, _, _, false, m.stream id, rfl,
        Or.inl rfl, ?_⟩
      rw [Function.update_eq_self]
      rfl

/-- **Either a stream has no frame, and nothing changes, or its frame fits its window.** -/
theorem popFrame_cases (m : StreamsMap E) (id maxBytes currentLen : ℕ) :
    (¬ m.HasFrame id maxBytes currentLen ∧ ∃ res, (res = .full ∨ res = .nothing) ∧
      m.popFrame id maxBytes currentLen = (m, [], res)) ∨
    (id ≠ 1 ∧ ∃ m' blocked frame, m.popFrame id maxBytes currentLen =
        (m', blocked, .frame frame (m.emptyFrame id).minLength) ∧ Frames m id frame m') := by
  unfold popFrame
  by_cases hcrypto : id = 1
  · exact .inl ⟨fun h => h.1 hcrypto, .nothing, .inr rfl, if_pos hcrypto⟩
  rw [if_neg hcrypto]
  by_cases hfull : currentLen + (m.emptyFrame id).minLength > maxBytes
  · exact .inl ⟨fun h => Nat.lt_asymm hfull h.2.1, .full, .inl rfl, if_pos hfull⟩
  rw [if_neg hfull]
  by_cases hdata : (m.stream id).lenOfDataForWriting ≠ 0
  · -- there is data: a frame takes some of it, unless the window is closed
    simp only [if_pos hdata]
    generalize hmax : min (maxBytes - currentLen - (m.emptyFrame id).minLength)
      (m.flowControlManager.sendWindowSize id).1 = maxLen
    by_cases hzero : maxLen = 0
    · refine .inl ⟨?_, .nothing, .inr rfl, if_pos hzero⟩
      rintro ⟨-, hroom, hwindow⟩
      rw [if_pos hdata] at hwindow
      omega
    rw [if_neg hzero]
    obtain ⟨data, htake, hlen⟩ := Stream.getDataForWriting_of_lenOfDataForWriting hdata maxLen
    have htaken : m.takeData id maxLen =
        (some data, m.modifyStream id fun s => (s.getDataForWriting maxLen).2) := by
      rw [takeData, if_pos hdata, htake]
    rw [htaken]
    have hget : (m.stream id).getDataForWriting maxLen =
        (some data, ((m.stream id).getDataForWriting maxLen).2) := Prod.ext htake rfl
    obtain ⟨hrecv, hstreamID, herr, hsome⟩ := Stream.getDataForWriting_frame hget
    have hoffset := Stream.writeOffset_of_getDataForWriting hget
    rcases finishFrame_cases (m := m.modifyStream id fun s => (s.getDataForWriting maxLen).2) id
      (m.flowControlManager.sendWindowSize id).1 (some data) with
      ⟨hnone, -⟩ | ⟨-, m', blocked, finBit, s, hfinish, hs, hm'⟩
    · cases hnone
    · right
      have hstream : (m.modifyStream id fun s => (s.getDataForWriting maxLen).2).stream id =
          ((m.stream id).getDataForWriting maxLen).2 := Function.update_self ..
      rw [hstream] at hs
      have hm's : m'.stream id = s := by
        rw [hm']
        exact Function.update_self ..
      refine ⟨hcrypto, m', blocked, { m.emptyFrame id with finBit := finBit, data := data },
        by rw [hfinish]; rfl, hcrypto, rfl, rfl, ?_, Or.inl hsome, fun _ => herr, ?_, ?_, ?_, s, ?_⟩
      · change data.length ≤ _
        omega
      · rw [hm's]
        rcases hs with rfl | rfl <;> exact hrecv
      · rw [hm's]
        rcases hs with rfl | rfl <;> exact hstreamID
      · have hne : data.length ≠ 0 := by omega
        rw [hm's]
        rcases hs with rfl | rfl <;> exact hoffset.trans (if_neg hne).symm
      · rw [hm']
        simp only [modifyStream, Function.update_idem]
        rfl
  · -- there is no data: a frame only carries the FIN
    simp only [if_neg hdata]
    by_cases hzero : maxBytes - currentLen - (m.emptyFrame id).minLength = 0
    · refine .inl ⟨fun h => ?_, .nothing, .inr rfl, if_pos hzero⟩
      have hroom := h.2.1
      omega
    rw [if_neg hzero, takeData, if_neg hdata]
    rcases finishFrame_cases (m := m) id 0 none with
      ⟨-, hfin, hfinish⟩ | ⟨hfin, m', blocked, finBit, s, hfinish, hs, hm'⟩
    · refine .inl ⟨?_, .nothing, .inr rfl, by rw [hfinish]⟩
      rintro ⟨-, -, hsend⟩
      rw [if_neg hdata, hfin] at hsend
      cases hsend
    · right
      have hclosed : (m.stream id).finishedWriting = true := by
        have hshould := hfin rfl
        simp only [Stream.shouldSendFin, Bool.and_eq_true] at hshould
        exact hshould.1.1.1
      have hm's : m'.stream id = s := by
        rw [hm']
        exact Function.update_self ..
      refine ⟨hcrypto, m', blocked, { m.emptyFrame id with finBit := finBit, data := [] },
        by rw [hfinish]; rfl, hcrypto, rfl, rfl, Nat.zero_le _, Or.inr hclosed, fun h => absurd rfl h,
        ?_, ?_, ?_, s, hm'⟩
      · rw [hm's]
        rcases hs with rfl | rfl <;> rfl
      · rw [hm's]
        rcases hs with rfl | rfl <;> rfl
      · rw [hm's]
        rcases hs with rfl | rfl <;> rfl

/-- The same for `send`. -/
theorem send_cases (m : StreamsMap E) (id maxBytes : ℕ) :
    (¬ m.HasFrame id maxBytes 0 ∧ m.send id maxBytes = (m, [], none)) ∨
    (id ≠ 1 ∧ ∃ m' blocked frame, m.send id maxBytes = (m', blocked, some frame) ∧
      Frames m id frame m') := by
  unfold send
  rcases m.popFrame_cases id maxBytes 0 with
    ⟨hnot, res, hres, heq⟩ | ⟨hcrypto, m', blocked, frame, heq, hframes⟩
  · refine .inl ⟨hnot, ?_⟩
    rw [heq]
    rcases hres with rfl | rfl <;> rfl
  · exact .inr ⟨hcrypto, m', blocked, frame, by rw [heq], hframes⟩

end StreamsMap

/-- `maybeSplitOffFrame`: the first `n` bytes, and what is left of the frame. -/
def maybeSplitOffFrame (frame : StreamFrame) (n : ℕ) : Option (StreamFrame × StreamFrame) :=
  if n ≥ frame.dataLen then none
  else some ({ frame with finBit := false, data := frame.data.take n }, frame.cutHead n)

namespace StreamFramer

variable {E : Type} (f : StreamFramer E)

/-! ## Retransmissions -/

/-- `AddFrameForRetransmission`. -/
def addFrameForRetransmission (frame : StreamFrame) : StreamFramer E :=
  { f with retransmissionQueue := f.retransmissionQueue ++ [frame] }

/-- Counts a retransmitted frame. -/
def countRetrans (m : StreamsMap E) (frame : StreamFrame) : StreamsMap E :=
  { m with
    flowControlManager :=
      (m.flowControlManager.addBytesRetrans frame.streamID frame.dataLen).1 }

/-- The loop of `maybePopFramesForRetransmission`, over the queue: the frames, their length, and
what is left of the queue. -/
def popRetransmissions (maxLen : ℕ) :
    List StreamFrame → ℕ → StreamsMap E → StreamsMap E × List StreamFrame × ℕ × List StreamFrame
  | [], currentLen, m => (m, [], currentLen, [])
  | frame :: queue, currentLen, m =>
    let frame := { frame with dataLenPresent := true }
    let frameHeaderLen := frame.minLength
    if currentLen + frameHeaderLen ≥ maxLen then (m, [], currentLen, frame :: queue)
    else
      let currentLen := currentLen + frameHeaderLen
      match maybeSplitOffFrame frame (maxLen - currentLen) with
      | some (splitFrame, rest) =>
        (countRetrans m splitFrame, [splitFrame], currentLen + splitFrame.dataLen, rest :: queue)
      | none =>
        let (m, res, currentLen, queue) :=
          popRetransmissions maxLen queue (currentLen + frame.dataLen) (countRetrans m frame)
        (m, frame :: res, currentLen, queue)

/-- `maybePopFramesForRetransmission`: the frames and their length. -/
def maybePopFramesForRetransmission (maxLen : ℕ) : StreamFramer E × List StreamFrame × ℕ :=
  let (m, res, currentLen, queue) := popRetransmissions maxLen f.retransmissionQueue 0 f.streamsMap
  ({ f with streamsMap := m, retransmissionQueue := queue }, res, currentLen)

/-! ## New data -/

/-- The variables that the callback of `maybePopNormalFrames` changes. -/
structure Popped where
  blockedFrameQueue : List BlockedFrame
  res : List StreamFrame
  currentLen : ℕ

/-- The callback of `maybePopNormalFrames`. -/
def popFrom (maxBytes : ℕ) : StreamsMap.StreamLambda E Popped := fun (m, popped) id =>
  match m.popFrame id maxBytes popped.currentLen with
  | (m, _, .full) => ((m, popped), false, none)
  | (m, _, .nothing) => ((m, popped), true, none)
  | (m, blocked, .frame frame frameHeaderBytes) =>
    let currentLen := popped.currentLen + frameHeaderBytes + frame.dataLen
    ((m,
      { blockedFrameQueue := popped.blockedFrameQueue ++ blocked
        res := popped.res ++ [frame]
        currentLen := currentLen }), currentLen != maxBytes, none)

/-- `maybePopNormalFrames` without a stream scheduler. -/
def popRoundRobin (maxBytes : ℕ) : Option (StreamFramer E × List StreamFrame) := do
  let ((m, popped), _) ←
    StreamsMap.roundRobinIterate (popFrom maxBytes) (f.streamsMap, ⟨f.blockedFrameQueue, [], 0⟩)
  some ({ f with streamsMap := m, blockedFrameQueue := popped.blockedFrameQueue }, popped.res)

/-- The node that `maybePopNormalFrames` sends from. -/
def nextNode (sch : StreamScheduler) : Option (Option ℕ × StreamScheduler) :=
  match sch.toSend with
  | none => sch.schedule f.streamsMap.view
  | some n => some (some n, sch)

/-- `maybePopNormalFrames` with a stream scheduler. -/
def popScheduled (sch : StreamScheduler) (maxBytes : ℕ) :
    Option (StreamFramer E × List StreamFrame) := do
  let (strm, sch) ← f.nextNode sch
  let m := { f.streamsMap with streamScheduler := some sch }
  match strm.bind fun n => (sch.node n).stream with
  | none => some ({ f with streamsMap := m }, [])
  | some id =>
    let (m, blocked, frame) := m.send id maxBytes
    some
      ({ f with streamsMap := m, blockedFrameQueue := f.blockedFrameQueue ++ blocked },
        frame.toList)

/-- `maybePopNormalFrames`. -/
def maybePopNormalFrames (maxBytes : ℕ) : Option (StreamFramer E × List StreamFrame) :=
  match f.streamsMap.streamScheduler with
  | none => f.popRoundRobin maxBytes
  | some sch => f.popScheduled sch maxBytes

/-- `PopStreamFrames`: first the frames to retransmit, then new ones. -/
def popStreamFrames (maxLen : ℕ) : Option (StreamFramer E × List StreamFrame) := do
  let (f, fs, currentLen) := f.maybePopFramesForRetransmission maxLen
  let (f, res) ← f.maybePopNormalFrames (maxLen - currentLen)
  some (f, fs ++ res)

/-! ## Rules

What holds after new data was framed follows from what one frame preserves. -/

section Rules

variable {f} {f' : StreamFramer E} {Q : StreamsMap E → List StreamFrame → Prop}
  {maxBytes : ℕ} {l frames : List StreamFrame}

/-- Retransmissions are only counted. -/
theorem popRetransmissions_rule {P : StreamsMap E → Prop}
    (hcount : ∀ m frame, P m → P (countRetrans m frame)) (maxLen : ℕ) (queue : List StreamFrame)
    (currentLen : ℕ) (m : StreamsMap E) (hm : P m) :
    P (popRetransmissions maxLen queue currentLen m).1 := by
  induction queue generalizing currentLen m with
  | nil => exact hm
  | cons frame queue ih =>
    rw [popRetransmissions]
    dsimp only
    split
    · exact hm
    · split
      · exact hcount m _ hm
      · exact ih _ _ (hcount m _ hm)

theorem popRoundRobin_rule
    (hframes : ∀ m id frame m' l, Q m l → StreamsMap.Frames m id frame m' → Q m' (l ++ [frame]))
    (hindex : ∀ m i l, Q m l → Q { m with roundRobinIndex := i } l)
    (h : Q f.streamsMap l) (hpop : f.popRoundRobin maxBytes = some (f', frames)) :
    Q f'.streamsMap (l ++ frames) := by
  obtain ⟨⟨⟨m, popped⟩, err⟩, hiterate, hpop⟩ := Option.bind_eq_some_iff.mp hpop
  cases hpop
  refine StreamsMap.roundRobinIterate_rule
    (Q := fun p : StreamsMap E × Popped => Q p.1 (l ++ p.2.res)) ?_
    (fun p i hp => hindex p.1 i _ hp) (by rw [List.append_nil]; exact h) hiterate
  rintro ⟨m, popped⟩ id - hp
  unfold popFrom
  dsimp only
  rcases m.popFrame_cases id maxBytes popped.currentLen with
    ⟨-, res, hres, heq⟩ | ⟨-, m', blocked, frame, heq, hframe⟩
  · rw [heq]
    rcases hres with rfl | rfl <;> exact hp
  · rw [heq]
    rw [← List.append_assoc]
    exact hframes m id frame m' _ hp hframe

theorem popScheduled_rule {sch : StreamScheduler}
    (hframes : ∀ m id frame m' l, Q m l → StreamsMap.Frames m id frame m' → Q m' (l ++ [frame]))
    (hsch : ∀ strm sch', f.nextNode sch = some (strm, sch') →
      Q { f.streamsMap with streamScheduler := some sch' } l)
    (hpop : f.popScheduled sch maxBytes = some (f', frames)) :
    Q f'.streamsMap (l ++ frames) := by
  obtain ⟨⟨strm, sch'⟩, hnext, hpop⟩ := Option.bind_eq_some_iff.mp hpop
  have hm := hsch strm sch' hnext
  dsimp only at hpop
  generalize ({ f.streamsMap with streamScheduler := some sch' } : StreamsMap E) = m at hpop hm
  split at hpop
  · cases hpop
    rw [List.append_nil]
    exact hm
  · next id hid =>
    rcases m.send_cases id maxBytes with ⟨-, heq⟩ | ⟨-, m', blocked, frame, heq, hframe⟩
    · rw [heq] at hpop
      cases hpop
      show Q m (l ++ [])
      rw [List.append_nil]
      exact hm
    · rw [heq] at hpop
      cases hpop
      exact hframes m id frame m' l hm hframe

theorem maybePopNormalFrames_rule
    (hframes : ∀ m id frame m' l, Q m l → StreamsMap.Frames m id frame m' → Q m' (l ++ [frame]))
    (hindex : ∀ m i l, Q m l → Q { m with roundRobinIndex := i } l)
    (hsch : ∀ m sch l, Q m l → Q { m with streamScheduler := sch } l)
    (h : Q f.streamsMap l) (hpop : f.maybePopNormalFrames maxBytes = some (f', frames)) :
    Q f'.streamsMap (l ++ frames) := by
  unfold maybePopNormalFrames at hpop
  split at hpop
  · exact popRoundRobin_rule hframes hindex h hpop
  · exact popScheduled_rule hframes (fun _ sch' _ => hsch _ (some sch') l h) hpop

end Rules

/-! ## The crypto stream -/

/-- `HasCryptoStreamFrame`. It panics if there is no stream 1. -/
def hasCryptoStreamFrame : Option (StreamFramer E × Bool) := do
  let (m, cs) ← f.streamsMap.getOrOpenStream 1
  let cs ← cs.toOption.join
  some ({ f with streamsMap := m }, (m.stream cs).lenOfDataForWriting > 0)

/-- `PopCryptoStreamFrame`. The room for data is an unsigned difference. -/
def popCryptoStreamFrame (maxLen : ℕ) : Option (StreamFramer E × Option StreamFrame) := do
  let (f, has) ← f.hasCryptoStreamFrame
  if has = false then some (f, none)
  else
    let (m, cs) ← f.streamsMap.getOrOpenStream 1
    let cs ← cs.toOption.join
    let frame : StreamFrame :=
      { streamID := 1
        finBit := false
        dataLenPresent := false
        offset := (m.stream cs).writeOffset
        data := [] }
    let (data, s) := (m.stream cs).getDataForWriting (sub64 maxLen frame.minLength)
    some
      ({ f with streamsMap := m.modifyStream cs fun _ => s },
        some { frame with data := data.getD [] })

section Crypto

variable {f}

theorem hasCryptoStreamFrame_of_mem (h : 1 ∈ f.streamsMap.streams) :
    f.hasCryptoStreamFrame =
      some (f, decide ((f.streamsMap.stream 1).lenOfDataForWriting > 0)) := by
  unfold hasCryptoStreamFrame StreamsMap.getOrOpenStream
  rw [if_pos h]
  rfl

/-- A frame of the crypto stream, which has data. -/
theorem popCryptoStreamFrame_of_mem (h : 1 ∈ f.streamsMap.streams)
    (hdata : (f.streamsMap.stream 1).lenOfDataForWriting > 0) (maxLen : ℕ) :
    ∃ f' frame, f.popCryptoStreamFrame maxLen = some (f', some frame) ∧ frame.streamID = 1 ∧
      f'.streamsMap.streams = f.streamsMap.streams := by
  unfold popCryptoStreamFrame
  rw [hasCryptoStreamFrame_of_mem h, Option.bind_eq_bind, Option.bind_some, decide_eq_true hdata]
  dsimp only
  rw [if_neg (by decide), StreamsMap.getOrOpenStream, if_pos h]
  exact ⟨_, _, rfl, rfl, rfl⟩

end Crypto

end StreamFramer

end MultipathQuic
