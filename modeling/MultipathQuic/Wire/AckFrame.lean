import MultipathQuic.Wire.AckRanges

/-!
# ACK and CLOSE_PATH frames

`internal/wire/ack_frame.go` and `internal/wire/close_path_frame.go`: how the two frames that
acknowledge packets are written and parsed.
-/

namespace MultipathQuic

open ByteCodec

/-- `wire.AckFrame`. The time a frame is written at is an argument of `write`; `delayTime`, in
nanoseconds, is what a parsed frame carries. -/
structure AckFrame extends AckedPackets where
  pathID : PathID
  delayTime : ℕ
  deriving DecidableEq, Repr

/-- `wire.ClosePathFrame`. -/
structure ClosePathFrame extends AckedPackets where
  pathID : PathID
  deriving DecidableEq, Repr

/-! ## ACK frames -/

/-- The type byte of an ACK frame. -/
def ackTypeByte (largestAckedLen missingSequenceNumberDeltaLen : PacketNumberLen)
    (hasMissingRanges hasPathID : Bool) : UInt8 :=
  let typeByte : UInt8 := 0x40
  let typeByte := typeByte ^^^ lenField largestAckedLen <<< 2
  let typeByte := typeByte ^^^ lenField missingSequenceNumberDeltaLen
  let typeByte := if hasMissingRanges then typeByte ||| 0x20 else typeByte
  if hasPathID then typeByte ||| 0x10 else typeByte

/-- What `AckFrame.Write` does with a number before `WriteUint48`. -/
def mask48 (v : ℕ) : ℕ := v &&& (1 <<< 48 - 1)

/-- `AckFrame.Write`, with the microseconds since the largest acknowledged packet was received. -/
def AckFrame.write (f : AckFrame) (version : VersionNumber) (delay : ℕ) :
    Except WireError (List UInt8) := do
  let bo := getByteOrder version
  let largestAckedLen := getPacketNumberLength f.largestAcked
  let missingSequenceNumberDeltaLen := f.getMissingSequenceNumberDeltaLen
  let typeByte := ackTypeByte largestAckedLen missingSequenceNumberDeltaLen f.hasMissingRanges
    (f.pathID ≠ initialPathID)
  let path := if f.pathID ≠ initialPathID then [f.pathID] else []
  let largestAcked ← putPacketNumber bo mask48 largestAckedLen f.largestAcked
  let numAckBlocks ← f.writeNumAckBlocks .panicTooManyAckRanges
  let ackBlocks ← f.writeAckBlocks (putPacketNumber bo mask48 missingSequenceNumberDeltaLen)
    .inconsistentAckRangesWritten
  .ok (typeByte :: (path ++ (largestAcked ++ (bo.writeUfloat16 delay ++
    (numAckBlocks ++ (ackBlocks ++ [0]))))))

/-- The timestamps at the end of an ACK frame, which are read and dropped. -/
def skipTimestamps (bo : ByteOrder) : ℕ → WireReader Unit
  | 0 => pure ()
  | n + 1 => do
    let _ ← readByte .eof
    let _ ← bo.readUintN 2
    skipTimestamps bo n

/-- `ParseAckFrame`. -/
def parseAckFrame (version : VersionNumber) : WireReader AckFrame := do
  let bo := getByteOrder version
  let typeByte ← readByte .eof
  let hasMissingRanges : Bool := typeByte &&& 0x20 = 0x20
  let largestAckedLen := fieldLen ((typeByte &&& 0x0C) >>> 2)
  let missingSequenceNumberDeltaLen := fieldLen (typeByte &&& 0x03)
  let pathID ← readByteIf (typeByte &&& 0x10 = 0x10)
  let largestAcked ← bo.readUintN largestAckedLen
  let delay ← bo.readUfloat16
  let numAckBlocks ← readByteIf hasMissingRanges
  if hasMissingRanges ∧ numAckBlocks = 0 then
    throw .errInvalidAckRanges
  else
    let frame ← parseAckSection bo missingSequenceNumberDeltaLen hasMissingRanges
      numAckBlocks.toNat largestAcked
    let numTimestamp ← readByte .eof
    if numTimestamp > 0 then do
      let _ ← readByte .eof
      let _ ← bo.readUintN 4
      skipTimestamps bo (numTimestamp.toNat - 1)
    pure { toAckedPackets := frame, pathID := pathID, delayTime := delay * 1000 }

/-! ## CLOSE_PATH frames -/

/-- The flags byte of a CLOSE_PATH frame. -/
def closePathFlags (largestAckedLen missingSequenceNumberDeltaLen : PacketNumberLen)
    (hasMissingRanges : Bool) : UInt8 :=
  let flags := if hasMissingRanges then (0x00 ||| 0x10 : UInt8) else 0x00
  flags ^^^ lenField largestAckedLen <<< 2 ^^^ lenField missingSequenceNumberDeltaLen

/-- `ClosePathFrame.Write`. -/
def ClosePathFrame.write (f : ClosePathFrame) (version : VersionNumber) :
    Except WireError (List UInt8) := do
  let bo := getByteOrder version
  let largestAckedLen := getPacketNumberLength f.largestAcked
  let missingSequenceNumberDeltaLen := f.getMissingSequenceNumberDeltaLen
  let flags := closePathFlags largestAckedLen missingSequenceNumberDeltaLen f.hasMissingRanges
  let numAckBlocks ← f.writeNumAckBlocks .panicTooManyAckRangesInClosePath
  let largestAcked ← putPacketNumber bo id largestAckedLen f.largestAcked
  let ackBlocks ← f.writeAckBlocks (putPacketNumber bo id missingSequenceNumberDeltaLen)
    .inconsistentAckRangesWrittenInClosePath
  .ok (0x11 :: f.pathID :: flags :: (numAckBlocks ++ (largestAcked ++ ackBlocks)))

/-- `ParseClosePathFrame`. -/
def parseClosePathFrame (version : VersionNumber) : WireReader ClosePathFrame := do
  let bo := getByteOrder version
  let _ ← readByte .eof
  let pathID ← readByte .eof
  let flags ← readByte .eof
  let hasMissingRanges : Bool := flags &&& 0x10 = 0x10
  let largestAckedLen := fieldLen ((flags &&& 0x0C) >>> 2)
  let missingSequenceNumberDeltaLen := fieldLen (flags &&& 0x03)
  let numAckBlocks ← readByteIf hasMissingRanges
  if hasMissingRanges ∧ numAckBlocks = 0 then
    throw .errInvalidAckRanges
  else
    let largestAcked ← bo.readUintN largestAckedLen
    let frame ← parseAckSection bo missingSequenceNumberDeltaLen hasMissingRanges
      numAckBlocks.toNat largestAcked
    pure { toAckedPackets := frame, pathID := pathID }

end MultipathQuic
