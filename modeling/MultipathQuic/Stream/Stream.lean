import MultipathQuic.FlowControl.FlowController
import MultipathQuic.Stream.Read
import MultipathQuic.Wire.Frame

/-!
# Streams

`stream.go`: a stream in both directions. Its receiving side is `RecvStream`. `Write` hands its
buffer over in one step and then waits until the framer has taken all of it; the model of `Write` is
this step. While `Write` waits, only the stream's other operations change anything.
-/

namespace MultipathQuic

/-- `stream`. A `dataForWriting` of `none` is a nil slice. -/
structure Stream (E : Type) extends RecvStream E where
  streamID : ℕ
  writeOffset : ℕ
  finishedWriting : Bool
  resetRemotely : Bool
  dataForWriting : Option (List UInt8)
  finSent : Bool
  rstSent : Bool

/-- `newStream`. -/
def newStream (E : Type) (streamID : ℕ) : Stream E where
  toRecvStream := newRecvStream E
  streamID := streamID
  writeOffset := 0
  finishedWriting := false
  resetRemotely := false
  dataForWriting := none
  finSent := false
  rstSent := false

/-- The errors of `Write`. -/
inductive WriteError (E : Type)
  | closed (streamID : ℕ)
  | stream (err : E)

/-- The text of an error of `Write`. -/
def WriteError.text {E : Type} (streamText : E → String) : WriteError E → String
  | .closed streamID => "write on closed stream " ++ toString streamID
  | .stream err => streamText err

namespace Stream

variable {E : Type} (s : Stream E)

/-! ## Writing -/

/-- `Write`, up to the point where it waits; it returns before that if the second component is not
`none`. -/
def write (p : List UInt8) : Stream E × Option (ℕ × Option (WriteError E)) :=
  if s.resetLocally || s.err.isSome then (s, some (0, s.err.map .stream))
  else if s.finishedWriting then (s, some (0, some (.closed s.streamID)))
  else if p = [] then (s, some (0, none))
  else ({ s with dataForWriting := some p }, none)

/-- `lenOfDataForWriting`. -/
def lenOfDataForWriting : ℕ :=
  match s.err with
  | none => (s.dataForWriting.getD []).length
  | some _ => 0

/-- `getDataForWriting`. -/
def getDataForWriting (maxBytes : ℕ) : Option (List UInt8) × Stream E :=
  match s.err, s.dataForWriting with
  | none, some data =>
    if data.length > maxBytes then
      (some (data.take maxBytes),
        { s with
          dataForWriting := some (data.drop maxBytes)
          writeOffset := add64 s.writeOffset (data.take maxBytes).length })
    else
      (some data,
        { s with dataForWriting := none, writeOffset := add64 s.writeOffset data.length })
  | _, _ => (none, s)

/-- `Close`. -/
def close : Stream E := { s with finishedWriting := true }

/-- `finishedWriteAndSentFin`. -/
def finishedWriteAndSentFin : Bool := s.finishedWriting && s.finSent

/-- `shouldSendReset`. -/
def shouldSendReset : Bool :=
  if s.rstSent then false
  else (s.resetLocally || s.resetRemotely) && !s.finishedWriteAndSentFin

/-- `shouldSendFin`. -/
def shouldSendFin : Bool :=
  s.finishedWriting && !s.finSent && s.err.isNone && s.dataForWriting.isNone

/-- `sentFin`. -/
def sentFin : Stream E := { s with finSent := true }

/-! ## Errors -/

/-- The end of `Reset` and of `RegisterRemoteError`: the RST_STREAM frame to send, if there is one.
The frame has no error code. -/
def maybeSendReset : Stream E × Option RstStreamFrame :=
  if s.shouldSendReset then ({ s with rstSent := true }, some ⟨s.streamID, 0, s.writeOffset⟩)
  else (s, none)

/-- `Cancel`. -/
def cancel (err : E) : Stream E := { s with toRecvStream := s.toRecvStream.cancel err }

/-- `Reset`. -/
def reset (err : E) : Stream E × Option RstStreamFrame :=
  if s.resetLocally then (s, none)
  else { s with toRecvStream := s.toRecvStream.reset err }.maybeSendReset

/-- `RegisterRemoteError`. -/
def registerRemoteError (err : E) : Stream E × Option RstStreamFrame :=
  if s.resetRemotely then (s, none)
  else
    { s with
      toRecvStream := s.toRecvStream.registerRemoteError err
      resetRemotely := true }.maybeSendReset

/-- `finished`. -/
def finished : Bool :=
  s.cancelled ||
    (s.finishedReading && s.finishedWriteAndSentFin) ||
    (s.resetRemotely && s.rstSent) ||
    (s.finishedReading && s.rstSent) ||
    (s.finishedWriteAndSentFin && s.resetRemotely)

/-! ## Receiving -/

/-- The errors of `AddStreamFrame`, with their causes. -/
inductive FrameError
  | flowControl (err : FlowControlError)
  | sorter (err : SorterError)
  deriving DecidableEq

/-- `AddStreamFrame`. -/
def addStreamFrame (m : FlowControlManager) (frame : StreamFrame) :
    Stream E × FlowControlManager × Option FrameError :=
  match m.updateHighestReceived s.streamID (add64 frame.offset frame.dataLen) with
  | (m, some err) => (s, m, some (.flowControl err))
  | (m, none) =>
    match s.toRecvStream.addStreamFrame frame true with
    | (recv, some (.sorter err)) => ({ s with toRecvStream := recv }, m, some (.sorter err))
    | (recv, _) => ({ s with toRecvStream := recv }, m, none)

/-- The number of bytes that the next step of `Read` copies, if it is one that copies. -/
def copied : Option ℕ :=
  match s.phase with
  | .copying len bytesRead frame =>
    if bytesRead > len ∨ s.readPosInFrame > frame.dataLen ∨ s.readPosInFrame < 0 then none
    else some (min (len - bytesRead) (frame.dataLen - s.readPosInFrame.toNat))
  | _ => none

/-- A call of `Read`, when no other call is running. -/
def read (len : ℕ) : Stream E := { s with toRecvStream := s.toRecvStream.step (.read len) }

/-- The next step of a call of `Read`, at the time `now`. What it copies is reported to flow control,
unless the stream was reset by the peer. -/
def proceed (m : FlowControlManager) (expired : Bool) (now : ℤ) : Stream E × FlowControlManager :=
  ({ s with toRecvStream := s.toRecvStream.proceed expired },
    match s.copied with
    | some n => if s.resetRemotely then m else (m.addBytesRead now s.streamID n).1
    | none => m)

/-! ## Facts about the operations -/

/-- Data is taken from the stream iff there is some, at most as much as allowed. -/
theorem getDataForWriting_of_lenOfDataForWriting {s : Stream E} (h : s.lenOfDataForWriting ≠ 0)
    (maxBytes : ℕ) :
    ∃ data, (s.getDataForWriting maxBytes).1 = some data ∧
      data.length = min s.lenOfDataForWriting maxBytes := by
  unfold lenOfDataForWriting at h ⊢
  unfold getDataForWriting
  cases herr : s.err with
  | some err => simp [herr] at h
  | none =>
    cases hdata : s.dataForWriting with
    | none => simp [herr, hdata] at h
    | some data =>
      by_cases hlong : data.length > maxBytes
      · refine ⟨data.take maxBytes, by simp [hlong], ?_⟩
        rw [List.length_take, Nat.min_comm]
        rfl
      · refine ⟨data, by simp [hlong], ?_⟩
        simp only [Option.getD_some]
        omega

/-- No more data is taken than allowed. -/
theorem length_getDataForWriting_le {s : Stream E} {maxBytes : ℕ} {data : List UInt8}
    (h : (s.getDataForWriting maxBytes).1 = some data) : data.length ≤ maxBytes := by
  unfold getDataForWriting at h
  split at h
  · split at h
    · cases h
      exact List.length_take_le _ _
    · next hle =>
      cases h
      exact Nat.le_of_not_gt hle
  · cases h

/-- The write offset grows by what is taken. -/
theorem writeOffset_of_getDataForWriting {s s' : Stream E} {maxBytes : ℕ} {data : List UInt8}
    (h : s.getDataForWriting maxBytes = (some data, s')) :
    s'.writeOffset = add64 s.writeOffset data.length := by
  unfold getDataForWriting at h
  split at h
  · split at h <;> · cases h; rfl
  · cases h

/-- Only the sending side of a stream changes when data is taken, and only if it has no error. -/
theorem getDataForWriting_frame {s s' : Stream E} {maxBytes : ℕ} {data : List UInt8}
    (h : s.getDataForWriting maxBytes = (some data, s')) :
    s'.toRecvStream = s.toRecvStream ∧ s'.streamID = s.streamID ∧ s.err = none ∧
      s.dataForWriting.isSome = true := by
  unfold getDataForWriting at h
  split at h
  · next herr hdata => split at h <;> · cases h; exact ⟨rfl, rfl, herr, by rw [hdata]; rfl⟩
  · cases h

end Stream

end MultipathQuic
