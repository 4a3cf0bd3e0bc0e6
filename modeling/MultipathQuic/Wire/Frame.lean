import MultipathQuic.Wire.AckFrame
import MultipathQuic.Wire.StreamFrame

/-!
# Frames

The frame types of `internal/wire` as one type, with the fields the source gives them, which of them
are retransmitted, and how long they are.
-/

namespace MultipathQuic

/-- `wire.StopWaitingFrame`. -/
structure StopWaitingFrame where
  leastUnacked : ℕ
  packetNumberLen : PacketNumberLen
  packetNumber : ℕ
  deriving DecidableEq, Repr

/-- `wire.RstStreamFrame`. -/
structure RstStreamFrame where
  streamID : ℕ
  errorCode : ℕ
  byteOffset : ℕ
  deriving DecidableEq, Repr

/-- `wire.WindowUpdateFrame`. -/
structure WindowUpdateFrame where
  streamID : ℕ
  byteOffset : ℕ
  deriving DecidableEq, Repr

/-- `wire.BlockedFrame`. -/
structure BlockedFrame where
  streamID : ℕ
  deriving DecidableEq, Repr

/-- `wire.GoawayFrame`; a string is its bytes. -/
structure GoawayFrame where
  errorCode : ℕ
  lastGoodStream : ℕ
  reasonPhrase : List UInt8
  deriving DecidableEq, Repr

/-- `wire.ConnectionCloseFrame`. -/
structure ConnectionCloseFrame where
  errorCode : ℕ
  reasonPhrase : List UInt8
  deriving DecidableEq, Repr

/-- `wire.AddAddressFrame`; the address is its bytes and its port. -/
structure AddAddressFrame where
  ipVersion : UInt8
  ip : List UInt8
  port : ℕ
  deriving DecidableEq, Repr

/-- `wire.PathsFrame`; the round-trip times are in nanoseconds. -/
structure PathsFrame where
  maxNumPaths : UInt8
  numPaths : UInt8
  pathIDs : List PathID
  remoteRTTs : List ℤ
  deriving DecidableEq, Repr

/-- `wire.Frame`. -/
inductive Frame
  | stream (frame : StreamFrame)
  | ack (frame : AckFrame)
  | stopWaiting (frame : StopWaitingFrame)
  | rstStream (frame : RstStreamFrame)
  | windowUpdate (frame : WindowUpdateFrame)
  | blocked (frame : BlockedFrame)
  | ping
  | goaway (frame : GoawayFrame)
  | connectionClose (frame : ConnectionCloseFrame)
  | addAddress (frame : AddAddressFrame)
  | closePath (frame : ClosePathFrame)
  | paths (frame : PathsFrame)
  deriving DecidableEq, Repr

/-- `IsFrameRetransmittable`. -/
def Frame.isFrameRetransmittable : Frame → Bool
  | .stopWaiting _ => false
  | .ack _ => false
  | _ => true

/-- `stripNonRetransmittableFrames`. -/
def stripNonRetransmittableFrames (fs : List Frame) : List Frame :=
  fs.filter Frame.isFrameRetransmittable

/-! ## Lengths -/

/-- The errors of `MinLength`. -/
inductive LengthError
  | packetNumberLenNotSet
  | unknownIPVersion
  deriving DecidableEq, Repr

/-- The text of an error. -/
def LengthError.text : LengthError → String
  | .packetNumberLenNotSet => "StopWaitingFrame: PacketNumberLen not set"
  | .unknownIPVersion => "AddAddressFrame: unknown IP version"

/-- The part of `MinLength` that ACK and CLOSE_PATH frames share: the largest acknowledged packet
number and the blocks. -/
def AckedPackets.minLength (f : AckedPackets) : ℕ :=
  let missingSequenceNumberDeltaLen := f.getMissingSequenceNumberDeltaLen.bytes
  (getPacketNumberLength f.largestAcked).bytes +
    if f.hasMissingRanges then (1 + missingSequenceNumberDeltaLen) * f.numWritableNackRanges
    else missingSequenceNumberDeltaLen

/-- `MinLength`. The length of a PATHS frame is computed in 8 bits. -/
def Frame.minLength : Frame → Except LengthError ℕ
  | .stream frame => .ok frame.minLength
  | .ack frame =>
    .ok (1 + 2 + 1 + frame.toAckedPackets.minLength +
      if frame.pathID ≠ initialPathID then 1 else 0)
  | .stopWaiting frame =>
    if frame.packetNumberLen = .invalid then .error .packetNumberLenNotSet
    else .ok (1 + frame.packetNumberLen.bytes)
  | .rstStream _ => .ok (1 + 4 + 8 + 4)
  | .windowUpdate _ => .ok (1 + 4 + 8)
  | .blocked _ => .ok (1 + 4)
  | .ping => .ok 1
  | .goaway frame => .ok (1 + 4 + 4 + 2 + frame.reasonPhrase.length)
  | .connectionClose frame => .ok (1 + 4 + 2 + frame.reasonPhrase.length)
  | .addAddress frame =>
    if frame.ipVersion = 4 then .ok (1 + 1 + 4 + 2)
    else if frame.ipVersion = 6 then .ok (1 + 1 + 16 + 2)
    else .error .unknownIPVersion
  | .closePath frame => .ok (1 + 1 + 1 + frame.toAckedPackets.minLength)
  | .paths frame => .ok (1 + 1 + 1 + 3 * frame.numPaths).toNat

end MultipathQuic
