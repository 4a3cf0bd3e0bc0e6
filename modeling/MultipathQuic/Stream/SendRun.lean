import MultipathQuic.FlowControl.Halves
import MultipathQuic.Stream.StreamFramer

/-!
# Runs of the sending side

The sending side of a session is the framer, with the streams, flow control and the stream scheduler
behind it. A run is a sequence of calls on it, by the application and by the session; it has no
state any more once a call has panicked or does not return. A call of `Write` is the step in which
it hands over its buffer.

The state records what the peer has granted to each stream, the connection being stream 0, and the
frames of new data so far. Retransmitted frames are not among them.

## Main definitions

* `SendState`, `SendOp`, `SendRun.run`: the runs
* `SendRun.Funded`: what was sent had been granted

## Main results

* `sender_within_credit`: the sender keeps to its credit
-/

namespace MultipathQuic

open Function

/-- The sending side, and what is recorded of its run. -/
structure SendState (E : Type) where
  framer : StreamFramer E
  granted : ℕ → ℕ
  framed : List StreamFrame

/-- The calls on the sending side. -/
inductive SendOp (E : Type)
  | openStream
  | getOrOpenStream (id : UInt32)
  | write (id : ℕ) (p : List UInt8)
  | close (id : ℕ)
  | cancel (id : ℕ) (err : E)
  | reset (id : ℕ) (err : E)
  | registerRemoteError (id : ℕ) (err : E)
  | setStreamPriority (id : ℕ) (weight : UInt8) (dependency : ℕ) (exclusive : Bool)
  | setStreamActive (id : ℕ)
  | schedule
  | skip (n : ℕ)
  | updateWindow (id : ℕ) (offset : UInt64)
  | addFrameForRetransmission (frame : StreamFrame)
  | popStreamFrames (maxLen : ℕ)
  | garbageCollectStreams

namespace StreamsMap

variable {E : Type} (m : StreamsMap E)

/-- A call on the stream scheduler, if there is one. -/
def withScheduler (call : StreamScheduler → Option StreamScheduler) : Option (StreamsMap E) :=
  match m.streamScheduler with
  | none => some m
  | some sch => (call sch).map fun sch => { m with streamScheduler := some sch }

/-- `session.SetStreamPriority` on the scheduler of the streams. -/
def setStreamPriority (id : ℕ) (weight : UInt8) (dependency : ℕ) (exclusive : Bool) :
    Option (StreamsMap E) :=
  (MultipathQuic.setStreamPriority m.streamScheduler id ⟨dependency, weight, exclusive⟩).map
    fun r => { m with streamScheduler := r.1 }

theorem setStreamPriority_eq (id : ℕ) (weight : UInt8) (dependency : ℕ) (exclusive : Bool) :
    m.setStreamPriority id weight dependency exclusive = m.withScheduler fun sch =>
      (sch.setStreamPriority id ⟨dependency, weight, exclusive⟩).map Prod.fst := by
  unfold setStreamPriority withScheduler MultipathQuic.setStreamPriority
  cases hsch : m.streamScheduler with
  | none =>
    show some { m with streamScheduler := none } = some m
    rw [← hsch]
  | some sch =>
    dsimp only
    rw [Option.map_map, Option.map_map]
    rfl

/-- `session.SetStreamActive`. -/
def setStreamActive (id : ℕ) : Option (StreamsMap E) :=
  m.withScheduler fun sch => (sch.setActive id).map Prod.fst

/-- A call of `schedule` by the path scheduler. -/
def schedule : Option (StreamsMap E) :=
  m.withScheduler fun sch => (sch.schedule m.view).map Prod.snd

/-- A call of `skip` by the path scheduler. -/
def skip (n : ℕ) : Option (StreamsMap E) := m.withScheduler fun sch => sch.skip n

end StreamsMap

namespace SendState

variable {E : Type} (st : SendState E)

/-- The streams. -/
abbrev streamsMap : StreamsMap E := st.framer.streamsMap

/-- Changes the streams. -/
def setStreamsMap (m : StreamsMap E) : SendState E :=
  { st with framer := { st.framer with streamsMap := m } }

/-- `PopStreamFrames`. The new frames come after the retransmitted ones. -/
def popStreamFrames (maxLen : ℕ) : Option (SendState E) := do
  let retransmitted := (st.framer.maybePopFramesForRetransmission maxLen).2.1
  let (framer, frames) ← st.framer.popStreamFrames maxLen
  some { st with
    framer := framer
    framed := st.framed ++ frames.drop retransmitted.length }

/-- `UpdateWindow`. -/
def updateWindow (id offset : ℕ) : SendState E :=
  let m := st.streamsMap
  let st := st.setStreamsMap { m with
    flowControlManager := (m.flowControlManager.updateWindow id offset).1 }
  { st with granted := m.flowControlManager.grant st.granted id offset }

end SendState

namespace SendOp

variable {E : Type}

/-- The sending side after a call. RST_STREAM frames are left to the packer. -/
def apply (st : SendState E) : SendOp E → Option (SendState E)
  | .openStream => some (st.setStreamsMap st.streamsMap.openStream.1)
  | .getOrOpenStream id => (st.streamsMap.getOrOpenStream id.toNat).map fun r => st.setStreamsMap r.1
  | .write id p => some (st.setStreamsMap (st.streamsMap.modifyStream id fun s => (s.write p).1))
  | .close id => some (st.setStreamsMap (st.streamsMap.modifyStream id Stream.close))
  | .cancel id err =>
    some (st.setStreamsMap (st.streamsMap.modifyStream id fun s => s.cancel err))
  | .reset id err =>
    some (st.setStreamsMap (st.streamsMap.modifyStream id fun s => (s.reset err).1))
  | .registerRemoteError id err =>
    some (st.setStreamsMap (st.streamsMap.modifyStream id fun s => (s.registerRemoteError err).1))
  | .setStreamPriority id weight dependency exclusive =>
    (st.streamsMap.setStreamPriority id weight dependency exclusive).map st.setStreamsMap
  | .setStreamActive id => (st.streamsMap.setStreamActive id).map st.setStreamsMap
  | .schedule => st.streamsMap.schedule.map st.setStreamsMap
  | .skip n => (st.streamsMap.skip n).map st.setStreamsMap
  | .updateWindow id offset => some (st.updateWindow id offset.toNat)
  | .addFrameForRetransmission frame =>
    some { st with framer := st.framer.addFrameForRetransmission frame }
  | .popStreamFrames maxLen => st.popStreamFrames maxLen
  | .garbageCollectStreams => some (st.setStreamsMap st.streamsMap.garbageCollectStreams)

end SendOp

namespace SendRun

variable {E : Type}

/-- A new session, with the weighted round robin of the stream scheduler if `wrr`. -/
def start (E : Type) (perspective : Perspective) (params : ConnectionParameters) (wrr : Bool) :
    SendState E where
  framer := newStreamFramer (newStreamsMap E perspective params
    (if wrr then some newStreamScheduler else none))
  granted := fun _ => 0
  framed := []

/-- One call, unless a call before it has not returned. -/
def step (o : Option (SendState E)) (op : SendOp E) : Option (SendState E) := o.bind op.apply

/-- The run of some calls. -/
def run (st : SendState E) (ops : List (SendOp E)) : Option (SendState E) := ops.foldl step (some st)

end SendRun

/-! ## Flow control -/

/-- The bytes of the frames on streams that contribute to the connection. -/
def bytesOnContributing (frames : List StreamFrame) : ℕ :=
  ((frames.filter fun frame => isData frame.streamID).map StreamFrame.dataLen).sum

theorem bytesOnContributing_concat (frames : List StreamFrame) (frame : StreamFrame) :
    bytesOnContributing (frames ++ [frame]) =
      bytesOnContributing frames + if isData frame.streamID then frame.dataLen else 0 := by
  unfold bytesOnContributing
  cases h : isData frame.streamID <;> simp [h]

namespace StreamsMap

variable {E : Type} {m m' : StreamsMap E} {params : ConnectionParameters} {granted : ℕ → ℕ}
  {framed : List StreamFrame}

/-- The counters are within their credit, and the connection has counted the given frames. -/
def Funded (m : StreamsMap E) (params : ConnectionParameters) (granted : ℕ → ℕ)
    (framed : List StreamFrame) : Prop :=
  m.flowControlManager.Funded params granted (bytesOnContributing framed)

theorem openRule_funded :
    OpenRule fun m : StreamsMap E => m.Funded params granted framed where
  put := by
    intro m id h
    have h' := FlowControlManager.Funded.newStream h id
    unfold putStream
    dsimp only
    split <;> exact h'
  counters := fun _ _ _ _ _ h => h

theorem Funded.garbageCollectStreams (h : m.Funded params granted framed) :
    m.garbageCollectStreams.Funded params granted framed := by
  refine garbageCollectStreams_rule (P := fun m => m.Funded params granted framed) ?_ h
  intro m id m' hm _ hremoves
  rw [hremoves.flowControlManager]
  exact FlowControlManager.Funded.removeStream hm id

/-- A frame that fits the window is counted. -/
theorem Funded.frames (h : m.Funded params granted framed) {id : ℕ} {frame : StreamFrame}
    (hframes : Frames m id frame m') : m'.Funded params granted (framed ++ [frame]) := by
  obtain ⟨s, hm'⟩ := hframes.eq
  unfold Funded
  rw [bytesOnContributing_concat, hframes.streamID, hm']
  exact FlowControlManager.Funded.addBytesSent h hframes.dataLen_le

theorem Funded.withScheduler (h : m.Funded params granted framed)
    {call : StreamScheduler → Option StreamScheduler} (hcall : m.withScheduler call = some m') :
    m'.Funded params granted framed := by
  unfold StreamsMap.withScheduler at hcall
  split at hcall
  · cases hcall
    exact h
  · obtain ⟨sch, -, rfl⟩ := Option.map_eq_some_iff.mp hcall
    exact h

end StreamsMap

namespace StreamFramer

variable {E : Type} {f f' : StreamFramer E} {params : ConnectionParameters} {granted : ℕ → ℕ}
  {framed : List StreamFrame}

/-- Retransmissions are no new data. -/
theorem funded_popRetransmissions (maxLen : ℕ) (queue : List StreamFrame) (currentLen : ℕ)
    (m : StreamsMap E) (h : m.Funded params granted framed) :
    (popRetransmissions maxLen queue currentLen m).1.Funded params granted framed :=
  popRetransmissions_rule (P := fun m => m.Funded params granted framed)
    (fun m frame hm => FlowControlManager.Funded.same hm
      (m.flowControlManager.same_sendPart_addBytesRetrans frame.streamID frame.dataLen))
    maxLen queue currentLen m h

/-- **Framing new data stays within the credit**, with and without a stream scheduler. -/
theorem funded_maybePopNormalFrames {maxBytes : ℕ} {frames : List StreamFrame}
    (h : f.streamsMap.Funded params granted framed)
    (hpop : f.maybePopNormalFrames maxBytes = some (f', frames)) :
    f'.streamsMap.Funded params granted (framed ++ frames) :=
  maybePopNormalFrames_rule (Q := fun m fs => m.Funded params granted fs)
    (fun _ _ _ _ _ hm hframes => hm.frames hframes) (fun _ _ _ hm => hm) (fun _ _ _ hm => hm)
    h hpop

end StreamFramer

namespace SendRun

variable {E : Type} {st st' : SendState E} {params : ConnectionParameters}

/-- The counters of a state are within the credit granted so far. -/
def Funded (params : ConnectionParameters) (st : SendState E) : Prop :=
  st.streamsMap.Funded params st.granted st.framed

theorem funded_popStreamFrames {maxLen : ℕ} (h : Funded params st)
    (hpop : st.popStreamFrames maxLen = some st') : Funded params st' := by
  obtain ⟨⟨framer, frames⟩, hframes, hpop⟩ := Option.bind_eq_some_iff.mp hpop
  obtain ⟨⟨framer', normal⟩, hnormal, hframes⟩ := Option.bind_eq_some_iff.mp hframes
  cases hframes
  cases hpop
  let retransmitted := (st.framer.maybePopFramesForRetransmission maxLen).2.1
  show framer.streamsMap.Funded params st.granted
    (st.framed ++ (retransmitted ++ normal).drop retransmitted.length)
  rw [List.drop_left]
  exact StreamFramer.funded_maybePopNormalFrames
    (StreamFramer.funded_popRetransmissions maxLen _ 0 st.streamsMap h) hnormal

/-- Every call keeps the counters within the credit. -/
theorem funded_apply {op : SendOp E} (h : Funded params st) (hop : op.apply st = some st') :
    Funded params st' := by
  cases op with
  | openStream =>
    cases hop
    exact StreamsMap.openRule_funded.openStream h
  | getOrOpenStream id =>
    obtain ⟨⟨m, r⟩, hopen, rfl⟩ := Option.map_eq_some_iff.mp hop
    exact StreamsMap.openRule_funded.getOrOpenStream h hopen
  | write | close | cancel | reset | registerRemoteError | addFrameForRetransmission =>
    cases hop
    exact h
  | setStreamPriority =>
    obtain ⟨m, hcall, rfl⟩ := Option.map_eq_some_iff.mp hop
    rw [StreamsMap.setStreamPriority_eq] at hcall
    exact StreamsMap.Funded.withScheduler h hcall
  | setStreamActive | schedule | skip =>
    obtain ⟨m, hcall, rfl⟩ := Option.map_eq_some_iff.mp hop
    exact StreamsMap.Funded.withScheduler h hcall
  | updateWindow id offset =>
    cases hop
    exact FlowControlManager.Funded.updateWindow h id offset.toNat_lt
  | popStreamFrames maxLen => exact funded_popStreamFrames h hop
  | garbageCollectStreams =>
    cases hop
    exact StreamsMap.Funded.garbageCollectStreams h

/-- In every run, the counters are within the credit. -/
theorem funded_run {ops : List (SendOp E)} (h : Funded params st) (hrun : run st ops = some st') :
    Funded params st' := by
  induction ops using List.reverseRecOn generalizing st' with
  | nil =>
    cases hrun
    exact h
  | append_singleton ops op ih =>
    rw [run, List.foldl_concat] at hrun
    obtain ⟨st₁, hrun₁, hop⟩ := Option.bind_eq_some_iff.mp hrun
    exact funded_apply (ih hrun₁) hop

end SendRun

open SendRun in
/-- **The sender respects flow control.** In every state of a run, the bytes sent on each stream,
and on the connection, are within the larger of the initial window and the highest offset granted,
and the connection has counted the bytes framed on contributing streams. -/
theorem sender_within_credit {E : Type} (perspective : Perspective) (params : ConnectionParameters)
    (wrr : Bool) (ops : List (SendOp E)) :
    ∀ st ∈ run (start E perspective params wrr) ops,
      (∀ id ≠ 0, ∀ c ∈ st.streamsMap.flowControlManager.streamFlowController id,
        c.bytesSent ≤ max params.sendStreamFlowControlWindow.toNat (st.granted id)) ∧
      st.streamsMap.flowControlManager.connFlowController.bytesSent ≤
        max params.sendConnectionFlowControlWindow.toNat (st.granted 0) ∧
      st.streamsMap.flowControlManager.connFlowController.bytesSent =
        bytesOnContributing st.framed := by
  intro st hst
  have hstart : Funded params (start E perspective params wrr) :=
    FlowControlManager.funded_new params
  have h : Funded params st := funded_run hstart hst
  refine ⟨?_, ?_, h.conn_sent⟩
  · intro id hid c hc
    have hstream := h.stream id c hc
    have hsent := hstream.within.bytesSent
    rwa [FlowController.initialSendWindow, hstream.streamID, if_neg hid] at hsent
  · have hsent := h.conn_within.bytesSent
    rwa [FlowController.initialSendWindow, h.conn_streamID, if_pos rfl] at hsent

/-- Streams 5 and 7 have 12 bytes each, the header stream has 4. The connection is blocked after 10
bytes of streams 5 and 7; then it is granted 5 bytes more. -/
def blockedThenGranted : List (SendOp Unit) :=
  [.openStream, .openStream, .openStream, .openStream, .setStreamActive 5, .setStreamActive 7,
    .write 3 (List.replicate 4 0), .write 5 (List.replicate 12 0), .write 7 (List.replicate 12 0),
    .popStreamFrames 100, .popStreamFrames 100, .popStreamFrames 100, .popStreamFrames 100,
    .updateWindow 0 15, .popStreamFrames 100]

open SendRun in
theorem blockedThenGranted_within_credit :
    ∃ st ∈ run (start Unit .client smallWindows true) blockedThenGranted,
      bytesOnContributing st.framed = 15 ∧ st.granted 0 = 15 ∧
      (∀ id ≠ 0, ∀ c ∈ st.streamsMap.flowControlManager.streamFlowController id,
        c.bytesSent ≤ max 8 (st.granted id)) ∧
      st.streamsMap.flowControlManager.connFlowController.bytesSent ≤ max 10 (st.granted 0) ∧
      st.streamsMap.flowControlManager.connFlowController.bytesSent =
        bytesOnContributing st.framed := by
  obtain ⟨st, hst, hframed⟩ : ∃ st ∈ run (start Unit .client smallWindows true) blockedThenGranted,
      bytesOnContributing st.framed = 15 ∧ st.granted 0 = 15 := by
    decide +kernel
  exact ⟨st, hst, hframed.1, hframed.2,
    sender_within_credit .client smallWindows true blockedThenGranted st hst⟩

end MultipathQuic
