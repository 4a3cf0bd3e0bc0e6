import MultipathQuic.Stream.HandleFrames
import MultipathQuic.Stream.Lifecycle
import MultipathQuic.Stream.SendRun

/-!
# Endpoints

An end of a connection has streams, flow control and a framer. It takes calls of its application and
of its session, and frames from its peer, whatever these are. It keeps the STREAM, RST_STREAM and
WINDOW_UPDATE frames that it has sent.

An error of a handler is recorded; the session is not closed by it. The crypto stream is not framed.
-/

namespace MultipathQuic

open Function

/-- An end of a connection, the frames it has sent and the errors of its handlers. -/
structure Endpoint (E : Type) where
  framer : StreamFramer E
  streamFrames : List StreamFrame
  rstStreamFrames : List RstStreamFrame
  windowUpdates : List WindowUpdate
  reported : List HandleError

/-- The calls on an endpoint, and the frames that reach it. -/
inductive EndpointOp (E : Type)
  | openStream
  | read (id len : ℕ)
  | proceed (id : ℕ) (expired : Bool) (now : ℤ)
  | write (id : ℕ) (p : List UInt8)
  | close (id : ℕ)
  | cancel (id : ℕ) (err : E)
  | reset (id : ℕ) (err : E)
  | setStreamPriority (id : ℕ) (weight : UInt8) (dependency : ℕ) (exclusive : Bool)
  | setStreamActive (id : ℕ)
  | schedule
  | skip (n : ℕ)
  | addFrameForRetransmission (frame : StreamFrame)
  | popStreamFrames (maxLen : ℕ)
  | getWindowUpdates (force : Bool) (now rtt : ℤ) (remoteRTTs : List ℤ) (order : List ℕ)
  | garbageCollectStreams
  | streamFrame (frame : StreamFrame)
  | rstStreamFrame (frame : RstStreamFrame)
  | windowUpdateFrame (frame : WindowUpdateFrame)

namespace Endpoint

variable {E : Type} (e : Endpoint E)

/-- The streams. -/
abbrev streamsMap : StreamsMap E := e.framer.streamsMap

/-- Changes the streams. -/
def setStreamsMap (m : StreamsMap E) : Endpoint E :=
  { e with framer := { e.framer with streamsMap := m } }

/-- The application calls a stream that it was given; the stream may have been removed since. The
RST_STREAM frame of the call is sent. -/
def callStream (id : ℕ) (call : Stream E → Stream E × Option RstStreamFrame) : Endpoint E :=
  if e.streamsMap.wasOpened id then
    let (s, rst) := call (e.streamsMap.stream id)
    { e.setStreamsMap { e.streamsMap with stream := update e.streamsMap.stream id s } with
      rstStreamFrames := e.rstStreamFrames ++ rst.toList }
  else e

/-- A step of a call of `Read`. -/
def proceed (id : ℕ) (expired : Bool) (now : ℤ) : Endpoint E :=
  if e.streamsMap.wasOpened id then
    let (s, fc) :=
      (e.streamsMap.stream id).proceed e.streamsMap.flowControlManager expired now
    e.setStreamsMap { e.streamsMap with
      stream := update e.streamsMap.stream id s
      flowControlManager := fc }
  else e

/-- `PopStreamFrames`. -/
def popStreamFrames (maxLen : ℕ) : Option (Endpoint E) := do
  let (framer, frames) ← e.framer.popStreamFrames maxLen
  some { e with framer := framer, streamFrames := e.streamFrames ++ frames }

/-- `GetWindowUpdates`. -/
def getWindowUpdates (force : Bool) (now rtt : ℤ) (remoteRTTs : List ℤ) (order : List ℕ) :
    Endpoint E :=
  let m := e.streamsMap
  let (fc, updates) := m.flowControlManager.getWindowUpdates force now rtt remoteRTTs order
  { e.setStreamsMap { m with flowControlManager := fc } with
    windowUpdates := e.windowUpdates ++ updates }

/-- `handleStreamFrame`. -/
def handleStreamFrame (frame : StreamFrame) : Option (Endpoint E) := do
  let (m, err) ← e.streamsMap.handleStreamFrame frame
  some { e.setStreamsMap m with reported := e.reported ++ err.toList }

/-- `handleRstStreamFrame`. -/
def handleRstStreamFrame (remoteError : ℕ → E) (frame : RstStreamFrame) :
    Option (Endpoint E) := do
  let (m, rst, err) ← e.streamsMap.handleRstStreamFrame remoteError frame
  some { e.setStreamsMap m with
    rstStreamFrames := e.rstStreamFrames ++ rst.toList
    reported := e.reported ++ err.toList }

/-- `handleWindowUpdateFrame`. -/
def handleWindowUpdateFrame (frame : WindowUpdateFrame) : Option (Endpoint E) := do
  let (m, err) ← e.streamsMap.handleWindowUpdateFrame frame
  some { e.setStreamsMap m with reported := e.reported ++ err.toList }

/-- A call. Only what was sent is retransmitted. -/
def apply (remoteError : ℕ → E) : EndpointOp E → Option (Endpoint E)
  | .openStream => some (e.setStreamsMap e.streamsMap.openStream.1)
  | .read id len => some (e.callStream id fun s => (s.read len, none))
  | .proceed id expired now => some (e.proceed id expired now)
  | .write id p => some (e.callStream id fun s => ((s.write p).1, none))
  | .close id => some (e.callStream id fun s => (s.close, none))
  | .cancel id err => some (e.callStream id fun s => (s.cancel err, none))
  | .reset id err => some (e.callStream id fun s => s.reset err)
  | .setStreamPriority id weight dependency exclusive =>
    (e.streamsMap.setStreamPriority id weight dependency exclusive).map e.setStreamsMap
  | .setStreamActive id => (e.streamsMap.setStreamActive id).map e.setStreamsMap
  | .schedule => e.streamsMap.schedule.map e.setStreamsMap
  | .skip n => (e.streamsMap.skip n).map e.setStreamsMap
  | .addFrameForRetransmission frame =>
    if frame ∈ e.streamFrames then
      some { e with framer := e.framer.addFrameForRetransmission frame }
    else some e
  | .popStreamFrames maxLen => e.popStreamFrames maxLen
  | .getWindowUpdates force now rtt remoteRTTs order =>
    some (e.getWindowUpdates force now rtt remoteRTTs order)
  | .garbageCollectStreams => some (e.setStreamsMap e.streamsMap.garbageCollectStreams)
  | .streamFrame frame => e.handleStreamFrame frame
  | .rstStreamFrame frame => e.handleRstStreamFrame remoteError frame
  | .windowUpdateFrame frame => e.handleWindowUpdateFrame frame

end Endpoint

/-- A new endpoint, with the weighted round robin of the stream scheduler if `wrr`. -/
def newEndpoint (E : Type) (perspective : Perspective) (params : ConnectionParameters)
    (wrr : Bool) : Endpoint E where
  framer := newStreamFramer (newStreamsMap E perspective params
    (if wrr then some newStreamScheduler else none))
  streamFrames := []
  rstStreamFrames := []
  windowUpdates := []
  reported := []

end MultipathQuic
