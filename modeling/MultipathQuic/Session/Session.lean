import MultipathQuic.Session.PacketPacker
import MultipathQuic.Session.PathManager
import MultipathQuic.Stream.HandleFrames

/-!
# The session

`session.go`: the state of a session, and the programs over it. The streams, their flow control and
the framer are reached through the packer, the paths through the path manager.

What the runtime, the clock and the network decide is not computed by the session: it is drawn, one
`Choice` after the other, from a sequence that the session is given. A statement about every session
is so one about every order of a map, every time and every answer of the network.
-/

namespace MultipathQuic

/-- What one step of a session is given from outside: the order in which the paths are iterated over,
what the clock and the statistics say, a random number, and whether writing to the network fails. -/
structure Choice where
  pathOrder : MapOrder PathID
  env : SentEnv
  delay : AckFrame → ℕ
  random : Option UInt16
  smoothedRTT : ℤ
  meanDeviation : ℤ
  congestionWindow : ℕ
  writeFails : Bool

/-- Maps are iterated over in the order of insertion, no time passes, and nothing fails. -/
def Choice.quiet : Choice where
  pathOrder := .inserted PathID
  env := ⟨0, 0, 0, 0, 0, false⟩
  delay := fun _ => 0
  random := none
  smoothedRTT := 0
  meanDeviation := 0
  congestionWindow := initialCongestionWindow * defaultTCPMSS
  writeFails := false

/-- `session`. `hasPathManager` tells whether `pathManager` is not nil, `localAddrs` are the addresses
of its `pconnManager`, and `remoteError` is the error that a stream gets for an error code. -/
structure Session (E : Type) where
  pathManager : PathManager
  hasPathManager : Bool
  createPaths : Bool
  localAddrs : List UDPAddr
  closedPaths : List PathID
  remoteRTTs : List (PathID × ℤ)
  packer : PacketPacker E
  handshakeComplete : Bool
  peerBlocked : Bool
  closeOnce : Bool
  closeChan : Option ConnectionCloseFrame
  remoteError : ℕ → E
  choices : ℕ → Choice

/-- The errors of the session, with their causes. -/
inductive SessionError
  | handle (err : HandleError)
  | sent (err : SentPacketError)
  | pack (err : PackError)
  | network
  | goaway
  | unknownIPVersion
  | unknownPathID
  | expectedPing
  deriving DecidableEq

/-- The text of an error; the network has its own. -/
def SessionError.text : SessionError → String
  | .handle err => err.text
  | .sent err => err.text
  | .pack err => err.text
  | .network => ""
  | .goaway => "unimplemented: handling GOAWAY frames"
  | .unknownIPVersion => "AddAddressFrame: unknown IP version"
  | .unknownPathID => "Unknown path ID to close"
  | .expectedPing => "Session BUG: expected ping packet not to be nil"

/-- An hour, in nanoseconds. -/
def hour : ℤ := 3600000 * millisecond

namespace Session

variable {E : Type}

section State

variable (s : Session E)

/-- `paths`. -/
abbrev paths : PathMap := s.pathManager.paths

/-- `streamFramer`. -/
abbrev streamFramer : StreamFramer E := s.packer.streamFramer

/-- `streamsMap`. -/
abbrev streamsMap : StreamsMap E := s.streamFramer.streamsMap

/-- `flowControlManager`. -/
abbrev flowControlManager : FlowControlManager := s.streamsMap.flowControlManager

end State

/-- The next choice. -/
def choose : Program (Session E) Choice := do
  let s ← get
  set { s with choices := fun n => s.choices (n + 1) }
  pure (s.choices 0)

/-- Changes a path. -/
def modifyPath (id : PathID) (f : Path → Path) : Program (Session E) PUnit :=
  modify fun s =>
    { s with pathManager := { s.pathManager with paths := s.paths.modify id f } }

/-- Changes the packer. -/
def modifyPacker (f : PacketPacker E → PacketPacker E) : Program (Session E) PUnit :=
  modify fun s => { s with packer := f s.packer }

/-- Changes the framer. -/
def modifyFramer (f : StreamFramer E → StreamFramer E) : Program (Session E) PUnit :=
  modifyPacker fun p => { p with streamFramer := f p.streamFramer }

/-- The round-trip time that a PATHS frame tells about a path. -/
def announcedRTT (pth : Path) : ℤ := if pth.potentiallyFailed then hour else pth.smoothedRTT

/-- `AddPathsFrameForTransmission`, with the paths in the order of the map. -/
def addPathsFrameForTransmission (m : PathMap) (order : List PathID) (f : StreamFramer E) :
    StreamFramer E :=
  { f with
    pathsFrame := some
      { maxNumPaths := 255
        numPaths := UInt8.ofNat order.length
        pathIDs := order
        remoteRTTs := order.map fun id => announcedRTT (m.path id) } }

/-- `schedulePathsFrame`. -/
def schedulePathsFrame : Program (Session E) PUnit := do
  let c ← choose
  let s ← get
  modifyFramer (addPathsFrameForTransmission s.paths (c.pathOrder.order s.paths.ids))

/-! ## Sending -/

/-- A program of the packer, for a path. -/
def packing {α : Type} (id : PathID) (x : PackContext → Program (Packing E) α) :
    Program (Session E) α := do
  let c ← choose
  let s ← get
  let (r, p) := (x ⟨s.handshakeComplete, c.delay, c.random⟩).exec ⟨s.packer, s.paths.path id⟩
  set { s with
    packer := p.packer
    pathManager := { s.pathManager with paths := s.paths.modify id fun _ => p.path } }
  Program.ofOption r

/-- What the path keeps of a packet that is sent. -/
def sentPacketOf (packet : PackedPacket) : Packet where
  packetNumber := packet.number
  frames := packet.frames
  length := packet.raw.length
  encryptionLevel := packet.encryptionLevel
  sendTime := 0

/-- `sendPackedPacket`. -/
def sendPackedPacket (packet : PackedPacket) (id : PathID) :
    Program (Session E) (Option SessionError) := do
  let c ← choose
  let s ← get
  let (h, err) := (s.paths.path id).sentPacketHandler.sentPacket (sentPacketOf packet) c.env
  modifyPath id fun pth => { pth with sentPacketHandler := h }
  match err with
  | some err => pure (some (.sent err))
  | none => pure (if c.writeFails then some .network else none)

/-- `sendPing`. -/
def sendPing (id : PathID) : Program (Session E) (Option SessionError) := do
  match ← packing id packPing with
  | .error err => pure (some (.pack err))
  | .ok none => pure (some .expectedPing)
  | .ok (some packet) => sendPackedPacket packet id

/-! ## Rules -/

section Rules

variable {s : Session E} {Q : PUnit → Session E → Prop} {R : Session E → Prop}

@[simp] theorem ensures_choose {Q : Choice → Session E → Prop} :
    (choose : Program (Session E) Choice).Ensures s Q R ↔
      Q (s.choices 0) { s with choices := fun n => s.choices (n + 1) } :=
  Iff.rfl

@[simp] theorem ensures_modifyPath {id : PathID} {f : Path → Path} :
    (modifyPath id f).Ensures s Q R ↔
      Q ⟨⟩ { s with pathManager := { s.pathManager with paths := s.paths.modify id f } } :=
  Iff.rfl

@[simp] theorem ensures_modifyFramer {f : StreamFramer E → StreamFramer E} :
    (modifyFramer f).Ensures s Q R ↔
      Q ⟨⟩ { s with packer := { s.packer with streamFramer := f s.streamFramer } } :=
  Iff.rfl

@[simp] theorem ensures_schedulePathsFrame :
    (schedulePathsFrame : Program (Session E) PUnit).Ensures s Q R ↔
      Q ⟨⟩ { s with
        packer := { s.packer with
          streamFramer := addPathsFrameForTransmission s.paths
            ((s.choices 0).pathOrder.order s.paths.ids) s.streamFramer }
        choices := fun n => s.choices (n + 1) } := by
  unfold schedulePathsFrame
  simp

/-- The session after a program of the packer. -/
def setPacking (s : Session E) (id : PathID) (p : Packing E) : Session E :=
  { s with
    packer := p.packer
    pathManager := { s.pathManager with paths := s.paths.modify id fun _ => p.path }
    choices := fun n => s.choices (n + 1) }

/-- What the packer is given besides. -/
def packContext (s : Session E) : PackContext :=
  ⟨s.handshakeComplete, (s.choices 0).delay, (s.choices 0).random⟩

theorem ensures_packing {α : Type} {id : PathID} {x : PackContext → Program (Packing E) α}
    {Q : α → Session E → Prop} :
    (packing id x).Ensures s Q R ↔
      (x s.packContext).Ensures ⟨s.packer, s.paths.path id⟩
        (fun a p => Q a (s.setPacking id p)) fun p => R (s.setPacking id p) := by
  unfold packing
  rw [Program.ensures_bind, ensures_choose, Program.ensures_bind, Program.ensures_get]
  unfold packContext setPacking
  unfold Program.Ensures
  rcases (x ⟨s.handshakeComplete, (s.choices 0).delay, (s.choices 0).random⟩).exec
    ⟨s.packer, s.paths.path id⟩ with ⟨_ | a, p⟩ <;> rfl

end Rules

end Session

end MultipathQuic
