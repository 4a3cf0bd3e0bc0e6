import MultipathQuic.Wire.AckFrame

/-!
# Public headers

`internal/wire/public_header.go`: the fields of the header of a packet, its length, and how it is
written.
-/

namespace MultipathQuic

/-- `wire.PublicHeader`. -/
structure PublicHeader where
  connectionID : UInt64
  pathID : PathID
  versionFlag : Bool
  resetFlag : Bool
  truncateConnectionID : Bool
  multipathFlag : Bool
  packetNumberLen : PacketNumberLen
  packetNumber : ℕ
  versionNumber : VersionNumber
  diversificationNonce : List UInt8
  deriving DecidableEq

/-- The errors of `GetLength` and `Write`. -/
inductive HeaderError
  | resetAndVersionFlagSet
  | getLengthNotForVersionNegotiation
  | packetNumberLenNotSet
  | invalidDiversificationNonceLength
  | writePacketNumberLenNotSet
  /-- An error of the byte order. -/
  | wire (err : WireError)
  deriving DecidableEq, Repr

/-- The text of an error. -/
def HeaderError.text : HeaderError → String
  | .resetAndVersionFlagSet =>
    "PublicHeader: Reset Flag and Version Flag should not be set at the same time"
  | .getLengthNotForVersionNegotiation =>
    "PublicHeader: GetLength cannot be called for VersionNegotiation packets"
  | .packetNumberLenNotSet => "StopWaitingFrame: PacketNumberLen not set"
  | .invalidDiversificationNonceLength => "invalid diversification nonce length"
  | .writePacketNumberLenNotSet => "PublicHeader: PacketNumberLen not set"
  | .wire err => err.text

/-- `protocol.VersionNumberToTag`. -/
def versionNumberToTag (vn : VersionNumber) : ℕ :=
  let v := (vn % 2 ^ 32).toNat
  0x51 + (v / 100 % 10 + 0x30) <<< 8 + (v / 10 % 10 + 0x30) <<< 16 + (v % 10 + 0x30) <<< 24

namespace PublicHeader

variable (h : PublicHeader)

/-- `hasPacketNumber`. -/
def hasPacketNumber (packetSentBy : Perspective) : Bool :=
  if h.resetFlag then false
  else if h.versionFlag && packetSentBy == .server then false
  else true

/-- `GetLength`. -/
def getLength (pers : Perspective) : Except HeaderError ℕ :=
  if h.versionFlag && h.resetFlag then .error .resetAndVersionFlagSet
  else if h.versionFlag && pers == .server then .error .getLengthNotForVersionNegotiation
  else if h.hasPacketNumber pers && h.packetNumberLen == .invalid then
    .error .packetNumberLenNotSet
  else
    .ok (1 + (if h.hasPacketNumber pers then h.packetNumberLen.bytes else 0) +
      (if h.truncateConnectionID then 0 else 8) + (if h.versionFlag then 4 else 0) +
      h.diversificationNonce.length + if h.multipathFlag then 1 else 0)

/-- The public flags, the first byte of a header. -/
def publicFlagByte (pers : Perspective) : UInt8 :=
  let flags : UInt8 := if h.versionFlag then 0x01 else 0x00
  let flags := if h.resetFlag then flags ||| 0x02 else flags
  let flags := if h.truncateConnectionID then flags else flags ||| 0x08
  let flags := if h.diversificationNonce.length > 0 then flags ||| 0x04 else flags
  let flags := if h.hasPacketNumber pers then
      match h.packetNumberLen with
      | .len2 => flags ||| 0x10
      | .len4 => flags ||| 0x20
      | .len6 => flags ||| 0x30
      | _ => flags
    else flags
  if h.multipathFlag then flags ||| 0x40 else flags

/-- The packet number at the end of a header, if there is one. -/
def writePacketNumber (bo : ByteOrder) (pers : Perspective) : Except HeaderError (List UInt8) :=
  if h.hasPacketNumber pers then
    match h.packetNumberLen with
    | .len1 => .ok [.ofNat h.packetNumber]
    | .len2 => .ok (bo.writeUint16 (h.packetNumber % 2 ^ 16))
    | .len4 => .ok (bo.writeUint32 (h.packetNumber % 2 ^ 32))
    | .len6 => (bo.writeUint48 (mask48 h.packetNumber)).mapError .wire
    | .invalid => .error .writePacketNumberLenNotSet
  else .ok []

/-- `Write`. The connection ID and the version are little-endian in every version. -/
def write (version : VersionNumber) (pers : Perspective) : Except HeaderError (List UInt8) :=
  if h.versionFlag && h.resetFlag then .error .resetAndVersionFlagSet
  else if h.diversificationNonce.length > 0 ∧ h.diversificationNonce.length ≠ 32 then
    .error .invalidDiversificationNonceLength
  else do
    let connectionID := if h.truncateConnectionID then [] else
      ByteOrder.littleEndian.writeUint64 h.connectionID.toNat
    let tag := if h.versionFlag && pers == .client then
        ByteOrder.littleEndian.writeUint32 (versionNumberToTag h.versionNumber)
      else []
    let path := if h.multipathFlag then [h.pathID] else []
    let packetNumber ← h.writePacketNumber (getByteOrder version) pers
    .ok (h.publicFlagByte pers ::
      (connectionID ++ (tag ++ (h.diversificationNonce ++ (path ++ packetNumber)))))

end PublicHeader

end MultipathQuic
