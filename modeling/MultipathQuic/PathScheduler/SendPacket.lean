import MultipathQuic.PathScheduler.PathScheduler
import MultipathQuic.Session.FrameHandling
import MultipathQuic.Session.Retransmission

/-!
# Sending a packet

`selectPath` and `performPacketSending` of `path_scheduler.go`, which the loop of `sendPacket` calls in
turn: a path is selected, and a packet is packed for it and sent on it.

The run loop of a path is a goroutine, which may take a request to close the path at any time. The
model lets the run loops act before a path is selected and before a packet is handed to
`sendPackedPacket`.
-/

namespace MultipathQuic

namespace PacketPacker

variable {E : Type} (p : PacketPacker E)

/-- Queues WINDOW_UPDATE frames; the path makes no difference to them. -/
def queueWindowUpdateFrames (frames : List WindowUpdateFrame) : PacketPacker E :=
  { p with controlFrames := p.controlFrames ++ frames.map .windowUpdate }

end PacketPacker

namespace Session

variable {E : Type}

/-- A retransmittable frame is added after too many packets without one. -/
def queuePing (id : PathID) : Program (Session E) PUnit :=
  modify fun s =>
    if (s.paths.path id).sentPacketHandler.shouldSendRetransmittablePacket then
      { s with packer := s.packer.queueControlFrame .ping id }
    else s

/-- The run loop of a path takes a request to close the path, if there is one. -/
def runPath (s : Session E) (id : PathID) : Session E :=
  if id ∈ s.paths.ids then
    { s with
      pathManager := { s.pathManager with
        paths := s.paths.modify id fun pth => if pth.closeChan then pth.close else pth } }
  else s

end Session

/-! ## Sending -/

/-- The session and its path scheduler. `runLoops` tells whose run loops act next. -/
structure Sender (E : Type) where
  session : Session E
  pathScheduler : PathScheduler
  selector : PathSelector
  runLoops : ℕ → List PathID

namespace Sender

variable {E : Type}

/-- A program of the session. -/
def onSession {α : Type} (x : Program (Session E) α) : Program (Sender E) α := do
  let st ← get
  let (r, s) := x.exec st.session
  set { st with session := s }
  Program.ofOption r

/-- The run loops act. -/
def runPaths : Program (Sender E) PUnit :=
  modify fun st =>
    { st with
      session := (st.runLoops 0).foldl Session.runPath st.session
      runLoops := fun n => st.runLoops (n + 1) }

/-- `sendPackedPacket`. A packet that is nil is a nil pointer. -/
def sendPackedPacket (packet : Option PackedPacket) (id : PathID) :
    Program (Sender E) (Option SessionError) := do
  runPaths
  let packet ← Program.ofOption packet
  onSession (Session.sendPackedPacket packet id)

/-- `selectPath`. The map of the paths may be iterated over twice. -/
def selectPath (hasRetransmission hasStreamRetransmission : Bool) (fromPth : Option PathID) :
    Program (Sender E) (Option PathID) := do
  runPaths
  let unprobed ← onSession Session.choose
  let c ← onSession Session.choose
  let st ← get
  let paths := st.session.paths
  let r ← Program.ofOption (paths.selectPath st.pathScheduler st.session.streamsMap st.selector
    hasRetransmission hasStreamRetransmission fromPth (unprobed.pathOrder.order paths.ids)
    (c.pathOrder.order paths.ids))
  modify fun st => { st with pathScheduler := { st.pathScheduler with waiting := r.waiting } }
  onSession (Session.setStreamsMap r.streamsMap)
  pure r.path

/-- `performPacketSending`: the packet that was sent, if there was anything to send. -/
def performPacketSending (windowUpdateFrames : List WindowUpdateFrame) (id : PathID) :
    Program (Sender E) (Except SessionError (Option Packet)) := do
  onSession (Session.queuePing id)
  match ← onSession (Session.packing id packPacket) with
  | .error err => pure (.error (.pack err))
  | .ok none => pure (.ok none)
  | .ok (some packet) =>
    match ← sendPackedPacket (some packet) id with
    | some err => pure (.error err)
    | none => do
      -- every window update is sent twice
      onSession (Session.modifyPacker fun p => p.queueWindowUpdateFrames windowUpdateFrames)
      modify fun st =>
        { st with
          pathScheduler := { st.pathScheduler with
            quotas := Function.update st.pathScheduler.quotas id
              (add64 (st.pathScheduler.quotas id) 1) } }
      pure (.ok (some (Session.sentPacketOf packet)))

/-- What a program of the session does to the sender. -/
@[simp] theorem ensures_onSession {α : Type} {x : Program (Session E) α} {st : Sender E}
    {Q : α → Sender E → Prop} {R : Sender E → Prop} :
    (onSession x).Ensures st Q R ↔
      x.Ensures st.session (fun a s => Q a { st with session := s })
        fun s => R { st with session := s } := by
  unfold onSession
  rw [Program.ensures_bind, Program.ensures_get]
  unfold Program.Ensures
  rcases x.exec st.session with ⟨_ | a, s⟩ <;> exact Iff.rfl

end Sender

end MultipathQuic
