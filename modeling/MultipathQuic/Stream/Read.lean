import MultipathQuic.Stream.FrameSorter

/-!
# Reading from a stream

The receiving side of `stream.go`. `Read` gives up the mutex while it waits and while it copies, so
frames may arrive in the middle of a call: a call is a sequence of steps, each of which takes the
mutex once, and calls of `AddStreamFrame`, `Cancel`, `Reset` and `RegisterRemoteError` may come
between any two of them. As its documentation demands, `Read` is not called concurrently with
itself.

The verdict of the flow control manager and whether the read deadline has expired are inputs of the
steps. `E` is the type of the errors a stream is cancelled or reset with, none of which is
`io.EOF`.
-/

namespace MultipathQuic

/-- The errors of `Read`. -/
inductive ReadError (E : Type)
  | eof
  | deadline
  | bytesReadTooLarge (bytesRead len : ℕ)
  | readPosInFrameTooLarge (readPosInFrame : ℤ) (dataLen : ℕ)
  | stream (err : E)
  deriving DecidableEq

/-- The text of an error of `Read`. -/
def ReadError.text {E : Type} (streamText : E → String) : ReadError E → String
  | .eof => "EOF"
  | .deadline => "deadline exceeded"
  | .bytesReadTooLarge bytesRead len =>
    s!"BUG: bytesRead ({bytesRead}) > len(p) ({len}) in stream.Read"
  | .readPosInFrameTooLarge readPosInFrame dataLen =>
    s!"BUG: readPosInFrame ({readPosInFrame}) > frame.DataLen ({dataLen}) in stream.Read"
  | .stream err => streamText err

/-- The errors of `AddStreamFrame`. -/
inductive AddError
  | flowControl
  | sorter (err : SorterError)
  deriving DecidableEq

/-- Where a call of `Read` with a buffer of length `len` is. -/
inductive ReadPhase
  /-- There is no call. -/
  | idle
  /-- At the head of the loop. -/
  | head (len bytesRead : ℕ)
  /-- In the inner loop, without a frame, until `readChan` is signalled. -/
  | waiting (len bytesRead : ℕ)
  /-- After the inner loop, with a frame and without the mutex. -/
  | copying (len bytesRead : ℕ) (frame : StreamFrame)
  /-- The frame has been read to its end and is about to be popped. -/
  | popping (len bytesRead : ℕ) (fin : Bool)
  /-- A nil frame has been used, or a slice index was out of range. -/
  | panicked
  deriving DecidableEq

/-- The receiving side of a stream. `delivered` are the bytes that all calls of `Read` have copied,
`returned` is what the last call returned. -/
structure RecvStream (E : Type) where
  frameQueue : StreamFrameSorter
  readPosInFrame : ℤ
  readOffset : ℕ
  err : Option E
  cancelled : Bool
  finishedReading : Bool
  resetLocally : Bool
  phase : ReadPhase
  delivered : List UInt8
  returned : Option (ℕ × Option (ReadError E))

/-- `newStream`. -/
def newRecvStream (E : Type) : RecvStream E where
  frameQueue := newStreamFrameSorter
  readPosInFrame := 0
  readOffset := 0
  err := none
  cancelled := false
  finishedReading := false
  resetLocally := false
  phase := .idle
  delivered := []
  returned := none

namespace RecvStream

variable {E : Type}

/-- `AddStreamFrame`. `allowed` is the verdict of the flow control manager. -/
def addStreamFrame (s : RecvStream E) (frame : StreamFrame) (allowed : Bool) :
    RecvStream E × Option AddError :=
  if allowed then
    let (frameQueue, err) := s.frameQueue.push frame
    let s := { s with frameQueue := frameQueue }
    match err with
    | none | some .duplicateStreamData => (s, none)
    | some err => (s, some (.sorter err))
  else (s, some .flowControl)

/-- Return from `Read`. -/
def ret (s : RecvStream E) (bytesRead : ℕ) (err : Option (ReadError E)) : RecvStream E :=
  { s with phase := .idle, returned := some (bytesRead, err) }

/-- The condition of the loop of `Read`. -/
def loop (s : RecvStream E) (len bytesRead : ℕ) : RecvStream E :=
  if bytesRead < len then { s with phase := .head len bytesRead } else s.ret bytesRead none

/-- `Read`, up to its loop. -/
def read (s : RecvStream E) (len : ℕ) : RecvStream E :=
  if s.cancelled || s.resetLocally then s.ret 0 (s.err.map .stream)
  else if s.finishedReading then s.ret 0 (some .eof)
  else { s with returned := none }.loop len 0

/-- A round of the inner loop of `Read`, for the frame at the head of the queue. -/
def await (s : RecvStream E) (len bytesRead : ℕ) (expired : Bool) : RecvStream E :=
  if s.resetLocally || s.cancelled then
    match s.err, s.frameQueue.head with
    | some err, _ => s.ret bytesRead (some (.stream err))
    | none, some frame => { s with phase := .copying len bytesRead frame }
    | none, none => { s with phase := .panicked }
  else if expired then s.ret bytesRead (some .deadline)
  else
    match s.frameQueue.head with
    | some frame =>
      { s with
        readPosInFrame := (s.readOffset : ℤ) - frame.offset
        phase := .copying len bytesRead frame }
    | none => { s with phase := .waiting len bytesRead }

/-- Copy what fits of the frame into the buffer. -/
def copy (s : RecvStream E) (len bytesRead : ℕ) (frame : StreamFrame) : RecvStream E :=
  if bytesRead > len then s.ret bytesRead (some (.bytesReadTooLarge bytesRead len))
  else if s.readPosInFrame > frame.dataLen then
    s.ret bytesRead (some (.readPosInFrameTooLarge s.readPosInFrame frame.dataLen))
  else if s.readPosInFrame < 0 then { s with phase := .panicked }
  else
    let m := min (len - bytesRead) (frame.dataLen - s.readPosInFrame.toNat)
    let s : RecvStream E := { s with
      delivered :=
        s.delivered ++ (frame.data.drop s.readPosInFrame.toNat).take (len - bytesRead)
      readPosInFrame := s.readPosInFrame + m
      readOffset := s.readOffset + m }
    if s.readPosInFrame ≥ frame.dataLen then
      { s with phase := .popping len (bytesRead + m) frame.finBit }
    else s.loop len (bytesRead + m)

/-- Pop the frame, and return if it had the FIN bit. -/
def popFrame (s : RecvStream E) (len bytesRead : ℕ) (fin : Bool) : RecvStream E :=
  let s := { s with frameQueue := s.frameQueue.pop.1 }
  if fin then { s with finishedReading := true }.ret bytesRead (some .eof)
  else s.loop len bytesRead

/-- The next step of a call of `Read`. -/
def proceed (s : RecvStream E) (expired : Bool) : RecvStream E :=
  match s.phase with
  | .idle | .panicked => s
  | .head len bytesRead =>
    if s.frameQueue.head.isNone ∧ bytesRead > 0 then s.ret bytesRead (s.err.map .stream)
    else s.await len bytesRead expired
  | .waiting len bytesRead => s.await len bytesRead expired
  | .copying len bytesRead frame => s.copy len bytesRead frame
  | .popping len bytesRead fin => s.popFrame len bytesRead fin

/-- `Cancel`. -/
def cancel (s : RecvStream E) (err : E) : RecvStream E :=
  { s with cancelled := true, err := s.err.or (some err) }

/-- `Reset`. -/
def reset (s : RecvStream E) (err : E) : RecvStream E :=
  if s.resetLocally then s else { s with resetLocally := true, err := s.err.or (some err) }

/-- `RegisterRemoteError`, the first time it is called. Later calls do nothing, and leave the error
as it is in any case. -/
def registerRemoteError (s : RecvStream E) (err : E) : RecvStream E :=
  { s with err := s.err.or (some err) }

end RecvStream

/-- A step of the receiving side. -/
inductive RecvOp (E : Type)
  | addStreamFrame (frame : StreamFrame) (allowed : Bool)
  | read (len : ℕ)
  | proceed (expired : Bool)
  | cancel (err : E)
  | reset (err : E)
  | registerRemoteError (err : E)

/-- One step. `Read` is only called when no other call is running. -/
def RecvStream.step {E : Type} (s : RecvStream E) : RecvOp E → RecvStream E
  | .addStreamFrame frame allowed => (s.addStreamFrame frame allowed).1
  | .read len => if s.phase = .idle then s.read len else s
  | .proceed expired => s.proceed expired
  | .cancel err => s.cancel err
  | .reset err => s.reset err
  | .registerRemoteError err => s.registerRemoteError err

end MultipathQuic
