import MultipathQuic.FlowControl.Balance
import MultipathQuic.Library.Runs
import MultipathQuic.Stream.HandleFrames
import MultipathQuic.Stream.SendRun

/-!
# The credit of finished streams

A run of the receiving side of a session: frames arrive, the application reads, streams are reset by
either side, and garbage collection removes the finished ones. What the connection has received and
not yet read is to be what its streams have received and not yet read.

Garbage collection breaks this for a stream that was reset with unread bytes, since it deletes the
controller of the stream and the bytes are never counted as read for the connection. So does a frame
that exceeds the window of its stream, which is recorded at the stream only; it closes the session.
-/

namespace MultipathQuic

open Function Runs

/-- The calls of a run. -/
inductive DataOp (E : Type)
  | streamFrame (frame : StreamFrame)
  | rstStreamFrame (frame : RstStreamFrame)
  | openStream
  | read (id len : ℕ)
  | proceed (id : ℕ) (expired : Bool) (now : ℤ)
  | write (id : ℕ) (p : List UInt8)
  | close (id : ℕ)
  | sentFin (id : ℕ)
  | cancel (id : ℕ) (err : E)
  | reset (id : ℕ) (err : E)
  | getWindowUpdates (force : Bool) (now rtt : ℤ) (remoteRTTs : List ℤ) (order : List ℕ)
  | garbageCollectStreams

namespace DataOp

variable {E : Type}

/-- A call. A stream that was reset by the peer has the error `remoteError` of the error code. The
session is not closed by an error. -/
def apply (remoteError : ℕ → E) (m : StreamsMap E) : DataOp E → Option (StreamsMap E)
  | .streamFrame frame => (m.handleStreamFrame frame).map Prod.fst
  | .rstStreamFrame frame => (m.handleRstStreamFrame remoteError frame).map Prod.fst
  | .openStream => some m.openStream.1
  | .read id len => some (m.modifyStream id fun s => s.read len)
  | .proceed id expired now =>
    let (s, fc) := (m.stream id).proceed m.flowControlManager expired now
    some { m with stream := update m.stream id s, flowControlManager := fc }
  | .write id p => some (m.modifyStream id fun s => (s.write p).1)
  | .close id => some (m.modifyStream id Stream.close)
  | .sentFin id => some (m.modifyStream id Stream.sentFin)
  | .cancel id err => some (m.modifyStream id fun s => s.cancel err)
  | .reset id err => some (m.modifyStream id fun s => (s.reset err).1)
  | .getWindowUpdates force now rtt remoteRTTs order =>
    some { m with
      flowControlManager :=
        (m.flowControlManager.getWindowUpdates force now rtt remoteRTTs order).1 }
  | .garbageCollectStreams => some m.garbageCollectStreams

/-- A frame respects the window of its stream, and garbage collection finds no finished stream with
bytes that the connection still counts as unread. -/
def Settled (m : StreamsMap E) : DataOp E → Prop
  | .streamFrame frame =>
    add64 frame.offset frame.dataLen ≤ m.flowControlManager.windowOf frame.streamID
  | .rstStreamFrame frame => frame.byteOffset ≤ m.flowControlManager.windowOf frame.streamID
  | .garbageCollectStreams =>
    ∀ id ∈ m.streams, (m.stream id).finished = true → m.flowControlManager.outstanding id = 0
  | _ => True

instance (m : StreamsMap E) : (op : DataOp E) → Decidable (op.Settled m)
  | .streamFrame _ | .rstStreamFrame _ => inferInstanceAs (Decidable (_ ≤ _))
  | .garbageCollectStreams => inferInstanceAs (Decidable (∀ _ ∈ _, _))
  | .openStream | .read .. | .proceed .. | .write .. | .close _ | .sentFin _ | .cancel ..
  | .reset .. | .getWindowUpdates .. => inferInstanceAs (Decidable True)

end DataOp

namespace StreamsMap

variable {E : Type} {m m' : StreamsMap E} {id : ℕ}

/-- The books of the connection balance, and every stream reports to its own controller. -/
structure Accounted (m : StreamsMap E) : Prop where
  balanced : m.flowControlManager.Balanced m.streams
  streamID : ∀ id, (m.stream id).streamID = id

theorem Accounted.new (perspective : Perspective) (params : ConnectionParameters)
    (sch : Option StreamScheduler) : (newStreamsMap E perspective params sch).Accounted :=
  ⟨FlowControlManager.balanced_new params, fun _ => rfl⟩

/-- A stream and the controllers change. -/
theorem Accounted.update (h : m.Accounted) {s : Stream E} {fc : FlowControlManager}
    (hs : s.streamID = id) (hfc : fc.Balanced m.streams) :
    Accounted { m with stream := update m.stream id s, flowControlManager := fc } := by
  refine ⟨hfc, fun id' => ?_⟩
  by_cases hid : id' = id
  · subst hid
    dsimp only
    rw [update_self, hs]
  · dsimp only
    rw [update_of_ne hid]
    exact h.streamID id'

theorem Accounted.modifyStream (h : m.Accounted) {f : Stream E → Stream E}
    (hf : ∀ s, (f s).streamID = s.streamID) : (m.modifyStream id f).Accounted :=
  h.update ((hf _).trans (h.streamID id)) h.balanced

theorem openRule_accounted : OpenRule fun m : StreamsMap E => m.Accounted where
  put := by
    intro m id h
    have hnew := h.balanced.newStream id (!(id == 1 || id == 3))
    unfold putStream
    dsimp only
    split
    · next hmem =>
      rw [Finset.insert_eq_of_mem hmem] at hnew
      exact ⟨hnew, h.streamID⟩
    · refine ⟨hnew, fun id' => ?_⟩
      by_cases hid : id' = id
      · subst hid
        dsimp only
        rw [update_self]
        rfl
      · dsimp only
        rw [update_of_ne hid]
        exact h.streamID id'
  counters := fun _ _ _ _ _ h => ⟨h.balanced, h.streamID⟩

/-- Flow control learns the end of the frame, whatever becomes of the frame. -/
theorem addStreamFrame_frame (s : Stream E) (fc : FlowControlManager) (frame : StreamFrame) :
    (s.addStreamFrame fc frame).1.streamID = s.streamID ∧
      (s.addStreamFrame fc frame).2.1 =
        (fc.updateHighestReceived s.streamID (add64 frame.offset frame.dataLen)).1 := by
  unfold Stream.addStreamFrame
  split
  · next heq => exact ⟨rfl, by rw [heq]⟩
  · next heq => split <;> exact ⟨rfl, by rw [heq]⟩

theorem Accounted.addStreamFrame (h : m.Accounted) {frame : StreamFrame}
    (hwindow : add64 frame.offset frame.dataLen ≤
      m.flowControlManager.windowOf frame.streamID) :
    Accounted { m with
      stream := Function.update m.stream frame.streamID
        ((m.stream frame.streamID).addStreamFrame m.flowControlManager frame).1
      flowControlManager :=
        ((m.stream frame.streamID).addStreamFrame m.flowControlManager frame).2.1 } := by
  obtain ⟨hid, hfc⟩ := addStreamFrame_frame (m.stream frame.streamID) m.flowControlManager frame
  refine h.update (hid.trans (h.streamID _)) ?_
  rw [hfc, h.streamID]
  refine h.balanced.updateHighestReceived fun c hc => ?_
  rw [FlowControlManager.windowOf, hc] at hwindow
  exact hwindow

theorem streamID_registerRemoteError (s : Stream E) (err : E) :
    (s.registerRemoteError err).1.streamID = s.streamID := by
  unfold Stream.registerRemoteError Stream.maybeSendReset
  split_ifs <;> rfl

theorem streamID_reset (s : Stream E) (err : E) : (s.reset err).1.streamID = s.streamID := by
  unfold Stream.reset Stream.maybeSendReset
  split_ifs <;> rfl

theorem streamID_write (s : Stream E) (p : List UInt8) : (s.write p).1.streamID = s.streamID := by
  unfold Stream.write
  split_ifs <;> rfl

theorem Accounted.resetStream (h : m.Accounted) (err : E) {frame : RstStreamFrame}
    (hwindow : frame.byteOffset ≤ m.flowControlManager.windowOf frame.streamID) :
    Accounted { m with
      stream := Function.update m.stream frame.streamID
        ((m.stream frame.streamID).registerRemoteError err).1
      flowControlManager :=
        (m.flowControlManager.resetStream frame.streamID frame.byteOffset).1 } := by
  refine h.update ((streamID_registerRemoteError _ err).trans (h.streamID _)) ?_
  refine h.balanced.resetStream fun c hc => ?_
  rw [FlowControlManager.windowOf, hc] at hwindow
  exact hwindow

theorem Accounted.proceed (h : m.Accounted) (id : ℕ) (expired : Bool) (now : ℤ) :
    Accounted { m with
      stream := Function.update m.stream id
        ((m.stream id).proceed m.flowControlManager expired now).1
      flowControlManager := ((m.stream id).proceed m.flowControlManager expired now).2 } := by
  refine h.update (h.streamID id) ?_
  unfold Stream.proceed
  split
  · split
    · exact h.balanced
    · exact h.balanced.addBytesRead now _ _
  · exact h.balanced

/-- Garbage collection keeps the books balanced if finished streams have been read. -/
theorem Accounted.garbageCollectStreams (h : m.Accounted)
    (hread : ∀ id ∈ m.streams, (m.stream id).finished = true →
      m.flowControlManager.outstanding id = 0) : m.garbageCollectStreams.Accounted := by
  refine (garbageCollectStreams_rule (P := fun m => m.Accounted ∧ ∀ id ∈ m.streams,
    (m.stream id).finished = true → m.flowControlManager.outstanding id = 0) ?_ ⟨h, hread⟩).1
  rintro m₁ id m₂ ⟨h₁, hread₁⟩ hfinished ⟨hmem, hstreams, hstream, hfc, -⟩
  have hbalanced := h₁.balanced.removeStream (hread₁ id hmem hfinished)
  refine ⟨⟨?_, ?_⟩, ?_⟩
  · rw [hfc, hstreams]
    exact hbalanced
  · rw [hstream]
    exact h₁.streamID
  · intro id' hid' hfinished'
    rw [hstreams, Finset.mem_erase] at hid'
    rw [hstream] at hfinished'
    rw [hfc, FlowControlManager.outstanding, FlowControlManager.removeStream]
    dsimp only
    rw [Function.update_of_ne hid'.1]
    exact hread₁ id' hid'.2 hfinished'

theorem Accounted.apply {remoteError : ℕ → E} (h : m.Accounted) {op : DataOp E}
    (hsettled : op.Settled m) (hop : op.apply remoteError m = some m') : m'.Accounted := by
  cases op with
  | streamFrame frame =>
    obtain ⟨⟨m₁, err⟩, hframe, rfl⟩ := Option.map_eq_some_iff.mp hop
    refine handleStreamFrame_rule openRule_accounted h hframe fun m₂ h₂ hwindow => ?_
    refine h₂.addStreamFrame ?_
    rw [hwindow]
    exact hsettled
  | rstStreamFrame frame =>
    obtain ⟨⟨m₁, rst, err⟩, hframe, rfl⟩ := Option.map_eq_some_iff.mp hop
    refine handleRstStreamFrame_rule openRule_accounted h hframe fun m₂ h₂ hwindow => ?_
    refine h₂.resetStream _ ?_
    rw [hwindow]
    exact hsettled
  | openStream =>
    cases hop
    exact openRule_accounted.openStream h
  | proceed id expired now =>
    cases hop
    exact h.proceed id expired now
  | read | close | sentFin | cancel =>
    cases hop
    exact h.modifyStream fun _ => rfl
  | write id p =>
    cases hop
    exact h.modifyStream fun s => streamID_write s p
  | reset id err =>
    cases hop
    exact h.modifyStream fun s => streamID_reset s err
  | getWindowUpdates force now rtt remoteRTTs order =>
    cases hop
    exact ⟨h.balanced.getWindowUpdates force now rtt remoteRTTs order, h.streamID⟩
  | garbageCollectStreams =>
    cases hop
    exact h.garbageCollectStreams hsettled

end StreamsMap

/-! ## Runs -/

namespace DataRun

variable {E : Type}

/-- One call, unless a call before it has not returned. -/
def step (remoteError : ℕ → E) (o : Option (StreamsMap E)) (op : DataOp E) :
    Option (StreamsMap E) :=
  o.bind fun m => op.apply remoteError m

/-- The condition on a call, in the state in which it is made. -/
def Settled (o : Option (StreamsMap E)) (op : DataOp E) : Prop := ∀ m ∈ o, op.Settled m

instance (o : Option (StreamsMap E)) (op : DataOp E) : Decidable (Settled o op) :=
  match o with
  | none => .isTrue fun _ h => nomatch h
  | some m => decidable_of_iff (op.Settled m) (by simp [Settled])

/-- The run of some calls on a new session. -/
def run (remoteError : ℕ → E) (m : StreamsMap E) (ops : List (DataOp E)) : Option (StreamsMap E) :=
  ops.foldl (step remoteError) (some m)

end DataRun

open DataRun in
/-- **In every run in which frames respect the window of their stream, and finished streams have
been read when they are removed, the books of the connection balance**: it has controllers for the
open streams, and what it has received and not yet read is what those of them that contribute to it
have received and not yet read. -/
theorem credit_returned {E : Type} (remoteError : ℕ → E) (perspective : Perspective)
    (params : ConnectionParameters) (sch : Option StreamScheduler) (ops : List (DataOp E))
    (h : Along (step remoteError) Settled (some (newStreamsMap E perspective params sch)) ops) :
    ∀ m ∈ run remoteError (newStreamsMap E perspective params sch) ops,
      (∀ id, (m.flowControlManager.streamFlowController id).isSome = true ↔ id ∈ m.streams) ∧
      m.flowControlManager.connFlowController.outstanding ≡
        ∑ id ∈ m.streams, m.flowControlManager.outstanding id [ZMOD 2 ^ 64] := by
  intro m hm
  have haccounted : ∀ m ∈ ops.foldl (step remoteError)
      (some (newStreamsMap E perspective params sch)), m.Accounted := by
    refine h.invariant (P := fun o => ∀ m ∈ o, m.Accounted) ?_ ?_
    · rintro m ⟨⟩
      exact .new perspective params sch
    · intro o op ho hsettled m hm
      obtain ⟨m₁, hm₁, hop⟩ := Option.bind_eq_some_iff.mp hm
      exact (ho m₁ hm₁).apply (hsettled m₁ hm₁) hop
  exact ⟨(haccounted m hm).balanced.streams, (haccounted m hm).balanced.balance⟩

/-- The peer opens stream 5 and sends three bytes on it. -/
def threeBytes : DataOp Unit := .streamFrame ⟨5, false, true, 0, [1, 2, 3]⟩

/-- The application reads stream 5. -/
def readStream5 : List (DataOp Unit) :=
  [.read 5 3, .proceed 5 false 0, .proceed 5 false 0, .proceed 5 false 0]

/-- The peer resets stream 5 at its end, and the stream is removed. -/
def resetAndRemove : List (DataOp Unit) := [.rstStreamFrame ⟨5, 0, 3⟩, .garbageCollectStreams]

open DataRun in
/-- The bytes of a stream that has been read before it is removed are returned. -/
theorem readBeforeRemoval_returned :
    ∃ m ∈ run (fun _ => ()) (newStreamsMap Unit .server smallWindows none)
        (threeBytes :: readStream5 ++ resetAndRemove),
      m.flowControlManager.connFlowController.bytesRead = 3 ∧
      m.flowControlManager.connFlowController.outstanding ≡
        ∑ id ∈ m.streams, m.flowControlManager.outstanding id [ZMOD 2 ^ 64] := by
  obtain ⟨m, hm, hread⟩ : ∃ m ∈ run (fun _ => ()) (newStreamsMap Unit .server smallWindows none)
      (threeBytes :: readStream5 ++ resetAndRemove),
        m.flowControlManager.connFlowController.bytesRead = 3 := by
    decide +kernel
  exact ⟨m, hm, hread, (credit_returned (fun _ => ()) .server smallWindows none _
    (by decide +kernel) m hm).2⟩

open DataRun in
/-- The bytes of a stream that is removed unread are not. -/
theorem removedUnread_notReturned :
    ∃ m ∈ run (fun _ => ()) (newStreamsMap Unit .server smallWindows none)
        (threeBytes :: resetAndRemove),
      m.flowControlManager.connFlowController.outstanding = 3 ∧
      ¬ m.flowControlManager.connFlowController.outstanding ≡
        ∑ id ∈ m.streams, m.flowControlManager.outstanding id [ZMOD 2 ^ 64] := by
  decide +kernel

end MultipathQuic
