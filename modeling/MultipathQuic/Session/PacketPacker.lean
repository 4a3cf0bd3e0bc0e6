import MultipathQuic.Library.Program
import MultipathQuic.Session.Path
import MultipathQuic.Stream.StreamFramer
import MultipathQuic.Wire.PublicHeader

/-!
# The packet packer

`packet_packer.go`, and the sealers of the crypto setup. The packer queues control frames, and a
STOP_WAITING and an ACK frame for each path; the STREAM frames come from the framer. Packing changes
the packer and the path the packet is for. An error is a value, and what was done before it stays
done; a panic ends the program.

## Main definitions

* `PacketPacker`, `Packing`: the packer, and what packing changes
* `packPacket`, `packAckPacket`, `packPing`: the calls

## Main results

* `sealFrames_sealed`: what a sealed packet consists of
-/

namespace MultipathQuic

/-! ## Sealing -/

/-- `handshake.Sealer`. What is sealed is longer by the overhead. -/
structure Sealer where
  overhead : ℕ
  sealBytes : (packetNumber : ℕ) → (associatedData src : List UInt8) → List UInt8
  length_sealBytes : ∀ packetNumber associatedData src,
    (sealBytes packetNumber associatedData src).length = src.length + overhead

/-- A sealer that changes nothing. -/
def plainSealer : Sealer where
  overhead := 0
  sealBytes := fun _ _ src => src
  length_sealBytes := fun _ _ _ => rfl

/-- The errors of `GetSealerWithEncryptionLevel`. -/
inductive SealerError
  | noSecureAEAD
  | noForwardSecureAEAD
  | noEncryptionLevelSpecified
  deriving DecidableEq, Repr

/-- The text of an error, after the name of the crypto setup. -/
def SealerError.text : SealerError → String
  | .noSecureAEAD => "no secureAEAD"
  | .noForwardSecureAEAD => "no forwardSecureAEAD"
  | .noEncryptionLevelSpecified => "no encryption level specified"

/-- The sealers of `cryptoSetupServer` and `cryptoSetupClient`. -/
structure CryptoSetup where
  nullAEAD : Sealer
  secureAEAD : Option Sealer
  forwardSecureAEAD : Option Sealer
  diversificationNonce : List UInt8

namespace CryptoSetup

variable (h : CryptoSetup)

/-- `GetSealer`. Only a client seals packets with `secureAEAD`. -/
def getSealer (perspective : Perspective) : EncryptionLevel × Sealer :=
  match h.forwardSecureAEAD, perspective, h.secureAEAD with
  | some aead, _, _ => (.forwardSecure, aead)
  | none, .client, some aead => (.secure, aead)
  | none, _, _ => (.unencrypted, h.nullAEAD)

/-- `GetSealerForCryptoStream`. -/
def getSealerForCryptoStream (perspective : Perspective) : EncryptionLevel × Sealer :=
  match perspective, h.secureAEAD with
  | .server, some aead => (.secure, aead)
  | _, _ => (.unencrypted, h.nullAEAD)

end CryptoSetup

/-! ## The packer -/

/-- `packetPacker`. The framer is the one of the session, and of the connection parameters the
packer asks only for `TruncateConnectionID`. -/
structure PacketPacker (E : Type) where
  connectionID : UInt64
  perspective : Perspective
  version : VersionNumber
  cryptoSetup : CryptoSetup
  truncateConnectionID : Bool
  streamFramer : StreamFramer E
  controlFrames : List Frame
  stopWaiting : PathID → Option StopWaitingFrame
  ackFrame : PathID → Option AckFrame

/-- `packedPacket`. -/
structure PackedPacket where
  number : ℕ
  raw : List UInt8
  frames : List Frame
  encryptionLevel : EncryptionLevel
  deriving DecidableEq

/-- The errors of the packer. -/
inductive PackError
  | header (err : HeaderError)
  | minLength (err : LengthError)
  | wire (err : WireError)
  | sealer (err : SealerError)
  | noAckFrameQueued
  | forwardSecureHandshakePacket
  | noStopWaitingFrame
  | payloadTooLarge (payloadLength maxFrameSize : ℕ)
  | packetTooLarge
  | packetNumbersDoNotMatch
  deriving DecidableEq

/-- The text of an error. -/
def PackError.text : PackError → String
  | .header err => err.text
  | .minLength err => err.text
  | .wire err => err.text
  | .sealer err => err.text
  | .noAckFrameQueued => "packet packer BUG: no ack frame queued"
  | .forwardSecureHandshakePacket =>
    "PacketPacker BUG: forward-secure encrypted handshake packets don't need special treatment"
  | .noStopWaitingFrame =>
    "PacketPacker BUG: Handshake retransmissions must contain a StopWaitingFrame"
  | .payloadTooLarge payloadLength maxFrameSize =>
    "Packet Packer BUG: packet payload (" ++ toString payloadLength ++ ") too large (" ++
      toString maxFrameSize ++ ")"
  | .packetTooLarge => "PacketPacker BUG: packet too large"
  | .packetNumbersDoNotMatch =>
    "packetPacker BUG: Peeked and Popped packet numbers do not match"

/-- The errors of the wire code that are panics of the source. -/
def WireError.isPanic : WireError → Bool
  | .panicTooManyAckRanges | .panicTooManyAckRangesInClosePath | .panicDoesntFit24
  | .panicDoesntFit40 | .panicDoesntFit48 | .panicDoesntFit56 | .panicIndexOutOfRange => true
  | _ => false

namespace PacketPacker

variable {E : Type} (p : PacketPacker E)

/-- `QueueControlFrame`. -/
def queueControlFrame (frame : Frame) (pathID : PathID) : PacketPacker E :=
  match frame with
  | .stopWaiting f => { p with stopWaiting := Function.update p.stopWaiting pathID (some f) }
  | .ack f => { p with ackFrame := Function.update p.ackFrame pathID (some f) }
  | frame => { p with controlFrames := p.controlFrames ++ [frame] }

/-- `getPublicHeader`. -/
def getPublicHeader (handshakeComplete : Bool) (encLevel : EncryptionLevel) (pth : Path) :
    PublicHeader :=
  let multipath := handshakeComplete ∧ p.version ≥ versionMP
  let client := p.perspective = .client ∧ encLevel ≠ .forwardSecure
  { connectionID := p.connectionID
    pathID := if multipath then pth.pathID else 0
    versionFlag := client
    resetFlag := false
    truncateConnectionID := if multipath then false else p.truncateConnectionID
    multipathFlag := multipath
    packetNumberLen :=
      getPacketNumberLengthForPublicHeader pth.packetNumberGenerator.peek pth.leastUnacked
    packetNumber := pth.packetNumberGenerator.peek
    versionNumber := if client then p.version else 0
    diversificationNonce :=
      if p.perspective = .server ∧ encLevel = .secure then p.cryptoSetup.diversificationNonce
      else [] }

/-- `canSendData`. -/
def canSendData (encLevel : EncryptionLevel) : Bool :=
  if p.perspective = .client then encLevel.toNat ≥ EncryptionLevel.secure.toNat
  else encLevel = .forwardSecure

/-- Puts the packet number of a header into the STOP_WAITING frame of a path. -/
def numberStopWaiting (pathID : PathID) (ph : PublicHeader) : PacketPacker E :=
  { p with
    stopWaiting := Function.update p.stopWaiting pathID ((p.stopWaiting pathID).map fun f =>
      { f with packetNumber := ph.packetNumber, packetNumberLen := ph.packetNumberLen }) }

/-- Removes the STOP_WAITING and the ACK frame of a path. -/
def clearAcks (pathID : PathID) : PacketPacker E :=
  { p with
    stopWaiting := Function.update p.stopWaiting pathID none
    ackFrame := Function.update p.ackFrame pathID none }

/-- The STOP_WAITING and the ACK frame of a path, which go first. -/
def leadingFrames (pathID : PathID) : List Frame :=
  (p.stopWaiting pathID).toList.map .stopWaiting ++ (p.ackFrame pathID).toList.map .ack

end PacketPacker

/-! ## Composing a packet -/

/-- What packing changes: the packer, and the path the packet is for. -/
structure Packing (E : Type) where
  packer : PacketPacker E
  path : Path

/-- What packing is given besides: whether the handshake of the session is complete, the
microseconds that an ACK frame reports, and a random number for skipping packet numbers. -/
structure PackContext where
  handshakeComplete : Bool
  delay : AckFrame → ℕ
  random : Option UInt16

/-- The sum of the lengths that are reserved for frames. -/
def totalMinLength : List Frame → Except LengthError ℕ
  | [] => .ok 0
  | frame :: frames => do
    let l ← frame.minLength
    let ls ← totalMinLength frames
    .ok (l + ls)

/-- What the loop over the control frames has taken, and what is left, from the last frame on. -/
structure TakenFrames where
  payloadFrames : List Frame
  payloadLength : ℕ
  rest : List Frame
  err : Option LengthError

/-- The loop over the control frames in `composeNextPacket`, over the reversed queue. It ends with
the first frame that does not fit. -/
def takeControlFrames (maxFrameSize : ℕ) : List Frame → ℕ → TakenFrames
  | [], payloadLength => ⟨[], payloadLength, [], none⟩
  | frame :: frames, payloadLength =>
    match frame.minLength with
    | .error err => ⟨[], payloadLength, frame :: frames, some err⟩
    | .ok minLength =>
      if payloadLength + minLength > maxFrameSize then ⟨[], payloadLength, frame :: frames, none⟩
      else
        let taken := takeControlFrames maxFrameSize frames (payloadLength + minLength)
        { taken with payloadFrames := frame :: taken.payloadFrames }

/-- The last STREAM frame of a packet needs no data length. -/
def omitLastDataLen (fs : List StreamFrame) : List StreamFrame :=
  match fs.getLast? with
  | none => []
  | some f => fs.dropLast ++ [{ f with dataLenPresent := false }]

section Packing

variable {E : Type}

/-- Changes the packer. -/
def Packing.modifyPacker (f : PacketPacker E → PacketPacker E) : Program (Packing E) PUnit :=
  modify fun s => { s with packer := f s.packer }

/-- The loop over `PopBlockedFrame`: the BLOCKED frames of the framer become control frames. -/
def PacketPacker.queueBlockedFrames (p : PacketPacker E) : PacketPacker E :=
  { p with
    streamFramer := { p.streamFramer with blockedFrameQueue := [] }
    controlFrames := p.controlFrames ++ p.streamFramer.blockedFrameQueue.map .blocked }

/-- The STREAM frames of a packet, of which `payloadLength` of `maxFrameSize` bytes are used. The
data length that the last one does not need is counted by the framer. -/
def composeStreamFrames (maxFrameSize payloadLength : ℕ) :
    Program (Packing E) (List StreamFrame) := do
  let s ← get
  let (framer, fs) ←
    Program.ofOption (s.packer.streamFramer.popStreamFrames (maxFrameSize + 2 - payloadLength))
  Packing.modifyPacker fun p => { p with streamFramer := framer }.queueBlockedFrames
  pure (omitLastDataLen fs)

/-- `composeNextPacket`. -/
def composeNextPacket (maxFrameSize : ℕ) (canSendStreamFrames : Bool) :
    Program (Packing E) (Except PackError (List Frame)) := do
  let s ← get
  let leading := s.packer.leadingFrames s.path.pathID
  match totalMinLength leading with
  | .error err => pure (.error (.minLength err))
  | .ok leadingLength =>
    let taken := takeControlFrames maxFrameSize s.packer.controlFrames.reverse leadingLength
    Packing.modifyPacker fun p => { p with controlFrames := taken.rest.reverse }
    match taken.err with
    | some err => pure (.error (.minLength err))
    | none =>
      if taken.payloadLength > maxFrameSize then
        pure (.error (.payloadTooLarge taken.payloadLength maxFrameSize))
      else if canSendStreamFrames then do
        let fs ← composeStreamFrames maxFrameSize taken.payloadLength
        pure (.ok (leading ++ taken.payloadFrames ++ fs.map .stream))
      else pure (.ok (leading ++ taken.payloadFrames))

/-! ## Writing a packet -/

/-- The bytes of the frames; a panic of the wire code is one of the program. -/
def writePayload (ctx : PackContext) (payloadFrames : List Frame) :
    Program (Packing E) (Except WireError (List UInt8)) := do
  let s ← get
  match writeFrames s.packer.version ctx.delay payloadFrames with
  | .error err => if err.isPanic then Program.ofOption none else pure (.error err)
  | .ok payload => pure (.ok payload)

/-- `writeAndSealPacket`. -/
def writeAndSealPacket (ctx : PackContext) (publicHeader : PublicHeader)
    (payloadFrames : List Frame) (sealer : Sealer) :
    Program (Packing E) (Except PackError (List UInt8)) := do
  let s ← get
  match publicHeader.write s.packer.version s.packer.perspective with
  | .error err => pure (.error (.header err))
  | .ok header =>
    match ← writePayload ctx payloadFrames with
    | .error err => pure (.error (.wire err))
    | .ok payload =>
      if header.length + payload.length + sealer.overhead > maxPacketSize then
        pure (.error .packetTooLarge)
      else do
        let (generator, num) := s.path.packetNumberGenerator.pop ctx.random
        modify fun s => { s with path := { s.path with packetNumberGenerator := generator } }
        if num ≠ publicHeader.packetNumber then pure (.error .packetNumbersDoNotMatch)
        else pure (.ok (header ++ sealer.sealBytes publicHeader.packetNumber header payload))

/-- Writes and seals frames, and returns the packet. -/
def sealFrames (ctx : PackContext) (publicHeader : PublicHeader) (frames : List Frame)
    (level : EncryptionLevel) (sealer : Sealer) :
    Program (Packing E) (Except PackError PackedPacket) := do
  let raw ← writeAndSealPacket ctx publicHeader frames sealer
  pure (raw.map fun raw => ⟨publicHeader.packetNumber, raw, frames, level⟩)

/-! ## Packing -/

/-- `PackAckPacket`. -/
def packAckPacket (ctx : PackContext) : Program (Packing E) (Except PackError PackedPacket) := do
  let s ← get
  match s.packer.ackFrame s.path.pathID with
  | none => pure (.error .noAckFrameQueued)
  | some ack =>
    let (encLevel, sealer) := s.packer.cryptoSetup.getSealer s.packer.perspective
    let ph := s.packer.getPublicHeader ctx.handshakeComplete encLevel s.path
    let numbered := s.packer.numberStopWaiting s.path.pathID ph
    let frames := .ack ack :: (numbered.stopWaiting s.path.pathID).toList.map .stopWaiting
    Packing.modifyPacker fun p => p.clearAcks s.path.pathID
    sealFrames ctx ph frames encLevel sealer

/-- `HasCryptoStreamFrame` of the framer. -/
def hasCryptoStreamFrame : Program (Packing E) Bool := do
  let s ← get
  let (framer, has) ← Program.ofOption s.packer.streamFramer.hasCryptoStreamFrame
  Packing.modifyPacker fun p => { p with streamFramer := framer }
  pure has

/-- `packCryptoPacket`. The room for the frame is an unsigned difference. -/
def packCryptoPacket (ctx : PackContext) : Program (Packing E) (Except PackError PackedPacket) := do
  let s ← get
  let (encLevel, sealer) := s.packer.cryptoSetup.getSealerForCryptoStream s.packer.perspective
  let publicHeader := s.packer.getPublicHeader ctx.handshakeComplete encLevel s.path
  match publicHeader.getLength s.packer.perspective with
  | .error err => pure (.error (.header err))
  | .ok publicHeaderLength =>
    let maxLen := sub64 (sub64 (sub64 maxPacketSize sealer.overhead)
      nonForwardSecurePacketSizeReduction) publicHeaderLength
    let (framer, frame) ←
      Program.ofOption (s.packer.streamFramer.popCryptoStreamFrame maxLen)
    Packing.modifyPacker fun p => { p with streamFramer := framer }
    -- the frame is there, since the packer has asked for it
    let frame ← Program.ofOption frame
    sealFrames ctx publicHeader [.stream frame] encLevel sealer

/-- A PING frame at the head of the queue is sent on its own. -/
def takePing : Program (Packing E) (Option (List Frame)) := do
  let s ← get
  match s.packer.controlFrames with
  | .ping :: rest => do
    Packing.modifyPacker fun p => { p with controlFrames := rest }
    pure (some [.ping])
  | _ => pure none

/-- The frames that `PackPacket` puts into a packet. -/
def nextPayloadFrames (maxSize : ℕ) (canSendData : Bool) :
    Program (Packing E) (Except PackError (List Frame)) := do
  match ← takePing with
  | some frames => pure (.ok frames)
  | none => composeNextPacket maxSize canSendData

/-- `PackPacket` without data of the crypto stream; `none` is the packet `nil`. -/
def packNextPacket (ctx : PackContext) :
    Program (Packing E) (Except PackError (Option PackedPacket)) := do
  let s ← get
  let (encLevel, sealer) := s.packer.cryptoSetup.getSealer s.packer.perspective
  let publicHeader := s.packer.getPublicHeader ctx.handshakeComplete encLevel s.path
  match publicHeader.getLength s.packer.perspective with
  | .error err => pure (.error (.header err))
  | .ok publicHeaderLength =>
    Packing.modifyPacker fun p => p.numberStopWaiting s.path.pathID publicHeader
    let maxSize := sub64 (sub64 maxPacketSize sealer.overhead) publicHeaderLength
    match ← nextPayloadFrames maxSize (s.packer.canSendData encLevel) with
    | .error err => pure (.error err)
    | .ok frames =>
      let s ← get
      if frames.length = 0 then pure (.ok none)
      else if frames.length = 1 ∧ (s.packer.stopWaiting s.path.pathID).isSome then pure (.ok none)
      else do
        Packing.modifyPacker fun p => p.clearAcks s.path.pathID
        let packet ← sealFrames ctx publicHeader frames encLevel sealer
        pure (packet.map some)

/-- `PackPacket`. -/
def packPacket (ctx : PackContext) :
    Program (Packing E) (Except PackError (Option PackedPacket)) := do
  if ← hasCryptoStreamFrame then
    let packet ← packCryptoPacket ctx
    pure (packet.map some)
  else packNextPacket ctx

/-- `PackPing`. -/
def packPing (ctx : PackContext) : Program (Packing E) (Except PackError (Option PackedPacket)) := do
  modify fun s =>
    { packer := { s.packer with controlFrames := .ping :: s.packer.controlFrames }
      path := s.path.setLeastUnacked s.path.sentPacketHandler.getLeastUnacked }
  packPacket ctx

/-! ## Rules -/

section Rules

variable {s : Packing E} {ctx : PackContext}

@[simp] theorem ensures_modifyPacker {f : PacketPacker E → PacketPacker E}
    {Q : PUnit → Packing E → Prop} {R : Packing E → Prop} :
    (Packing.modifyPacker f).Ensures s Q R ↔ Q ⟨⟩ { s with packer := f s.packer } :=
  Iff.rfl

/-- Sealing takes a packet number, and nothing of the queues. It panics if writing a frame does. -/
theorem sealFrames_frame (ph : PublicHeader) (frames : List Frame) (level : EncryptionLevel)
    (sealer : Sealer) :
    (sealFrames ctx ph frames level sealer).Ensures s
      (fun res s' => (∃ generator, s' = { s with path.packetNumberGenerator := generator }) ∧
        ∀ packet, res = .ok packet → packet.frames = frames)
      fun _ => ∃ err, writeFrames s.packer.version ctx.delay frames = .error err ∧
        err.isPanic = true := by
  unfold sealFrames writeAndSealPacket writePayload
  simp only [Program.ensures_bind, Program.ensures_get]
  cases ph.write s.packer.version s.packer.perspective with
  | error err => exact ⟨⟨_, rfl⟩, fun packet h => by cases h⟩
  | ok header =>
    simp only [Program.ensures_bind, Program.ensures_get]
    cases hwrite : writeFrames s.packer.version ctx.delay frames with
    | error err =>
      dsimp only
      split
      · next hpanic => exact ⟨err, rfl, hpanic⟩
      · exact ⟨⟨_, rfl⟩, fun packet h => by cases h⟩
    | ok payload =>
      simp only [Program.ensures_pure]
      split
      · exact ⟨⟨_, rfl⟩, fun packet h => by cases h⟩
      · split
        · exact ⟨⟨_, rfl⟩, fun packet h => by cases h⟩
        · refine ⟨⟨_, rfl⟩, fun packet h => ?_⟩
          cases h
          rfl

/-- Frames that fit are sealed, under the next packet number. -/
theorem sealFrames_fits {ph : PublicHeader} {frames : List Frame} {header payload : List UInt8}
    {sealer : Sealer} (hheader : ph.write s.packer.version s.packer.perspective = .ok header)
    (hpayload : writeFrames s.packer.version ctx.delay frames = .ok payload)
    (hfits : header.length + payload.length + sealer.overhead ≤ maxPacketSize)
    (hnumber : ph.packetNumber = s.path.packetNumberGenerator.peek) (level : EncryptionLevel) :
    (sealFrames ctx ph frames level sealer).Ensures s
      (fun res s' => s'.packer = s.packer ∧ res = .ok ⟨ph.packetNumber,
        header ++ sealer.sealBytes ph.packetNumber header payload, frames, level⟩)
      fun _ => False := by
  unfold sealFrames writeAndSealPacket writePayload
  simp only [Program.ensures_bind, Program.ensures_get, hheader, hpayload, Program.ensures_pure]
  rw [if_neg (not_lt.mpr hfits)]
  have hpop : ¬ (s.path.packetNumberGenerator.pop ctx.random).2 ≠ ph.packetNumber := by
    rw [not_not, hnumber, PacketNumberGenerator.pop, PacketNumberGenerator.peek]
    split <;> rfl
  rw [if_neg hpop]
  exact ⟨rfl, rfl⟩

/-- A sealed packet consists of its header and its sealed frames, under the next packet number. -/
theorem sealFrames_sealed (ph : PublicHeader) (frames : List Frame) (level : EncryptionLevel)
    (sealer : Sealer) :
    (sealFrames ctx ph frames level sealer).Ensures s
      (fun res s' => ∀ packet, res = .ok packet → ∃ header payload,
        ph.write s.packer.version s.packer.perspective = .ok header ∧
        writeFrames s.packer.version ctx.delay frames = .ok payload ∧
        header.length + payload.length + sealer.overhead ≤ maxPacketSize ∧
        ph.packetNumber = s.path.packetNumberGenerator.peek ∧
        packet = ⟨ph.packetNumber, header ++ sealer.sealBytes ph.packetNumber header payload, frames,
          level⟩ ∧
        s' = { s with
          path.packetNumberGenerator := (s.path.packetNumberGenerator.pop ctx.random).1 })
      fun _ => True := by
  unfold sealFrames writeAndSealPacket writePayload
  simp only [Program.ensures_bind, Program.ensures_get]
  cases hheader : ph.write s.packer.version s.packer.perspective with
  | error err => exact fun packet h => by cases h
  | ok header =>
    simp only [Program.ensures_bind, Program.ensures_get]
    cases hwrite : writeFrames s.packer.version ctx.delay frames with
    | error err =>
      dsimp only
      split
      · exact trivial
      · exact fun packet h => by cases h
    | ok payload =>
      simp only [Program.ensures_pure]
      split
      · exact fun packet h => by cases h
      · next hfits =>
        split
        · exact fun packet h => by cases h
        · next hnumber =>
          intro packet h
          cases h
          refine ⟨header, payload, rfl, rfl, not_lt.mp hfits, ?_, rfl, rfl⟩
          rw [← not_not.mp hnumber, PacketNumberGenerator.pop, PacketNumberGenerator.peek]
          split <;> rfl

/-- `PackPacket` asks for data of the crypto stream first, which may open the stream. -/
theorem ensures_packPacket {Q : Except PackError (Option PackedPacket) → Packing E → Prop} :
    (packPacket ctx).Ensures s Q (fun _ => True) ↔
      (∀ framer, s.packer.streamFramer.hasCryptoStreamFrame = some (framer, true) →
        (packCryptoPacket ctx).Ensures { s with packer.streamFramer := framer }
          (fun res s' => Q (res.map some) s') fun _ => True) ∧
      ∀ framer, s.packer.streamFramer.hasCryptoStreamFrame = some (framer, false) →
        (packNextPacket ctx).Ensures { s with packer.streamFramer := framer } Q fun _ => True := by
  unfold packPacket hasCryptoStreamFrame
  simp only [Program.ensures_bind, Program.ensures_get, Program.ensures_ofOption,
    ensures_modifyPacker, Program.ensures_pure]
  constructor
  · rintro ⟨h, -⟩
    constructor
    · intro framer hhas
      have h := h _ hhas
      rw [if_pos rfl, Program.ensures_bind] at h
      exact h
    · intro framer hhas
      exact h _ hhas
  · rintro ⟨hcrypto, hnext⟩
    refine ⟨?_, fun _ => trivial⟩
    rintro ⟨framer, has⟩ hhas
    cases has with
    | true =>
      rw [if_pos rfl, Program.ensures_bind]
      exact hcrypto framer hhas
    | false => exact hnext framer hhas

end Rules

end Packing

end MultipathQuic
