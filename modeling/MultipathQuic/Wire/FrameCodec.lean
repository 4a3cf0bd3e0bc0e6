import MultipathQuic.Wire.Frame

/-!
# Writing and parsing frames

`Write` and the parsers of `internal/wire` for the frames other than ACK and CLOSE_PATH. A parser
reads the type byte, which the caller has looked at before. Strings are bytes.
-/

namespace MultipathQuic

open ByteCodec

/-! ## STREAM frames -/

/-- The type byte of a STREAM frame. -/
def streamTypeByte (finBit dataLenPresent : Bool) (offsetLength streamIDLen : ℕ) : UInt8 :=
  let typeByte : UInt8 := 0x80
  let typeByte := if finBit then typeByte ^^^ 0x40 else typeByte
  let typeByte := if dataLenPresent then typeByte ^^^ 0x20 else typeByte
  let typeByte :=
    if offsetLength > 0 then typeByte ^^^ (UInt8.ofNat offsetLength - 1) <<< 2 else typeByte
  typeByte ^^^ (UInt8.ofNat streamIDLen - 1)

/-- The stream ID of a STREAM frame on the wire. -/
def writeStreamID (bo : ByteOrder) (streamIDLen streamID : ℕ) : Except WireError (List UInt8) :=
  match streamIDLen with
  | 1 => .ok [.ofNat streamID]
  | 2 => .ok (bo.writeUint16 streamID)
  | 3 => bo.writeUint24 streamID
  | 4 => .ok (bo.writeUint32 streamID)
  | _ => .error .errInvalidStreamIDLen

/-- The offset of a STREAM frame on the wire. -/
def writeOffset (bo : ByteOrder) (offsetLength offset : ℕ) : Except WireError (List UInt8) :=
  match offsetLength with
  | 0 => .ok []
  | 2 => .ok (bo.writeUint16 offset)
  | 3 => bo.writeUint24 offset
  | 4 => .ok (bo.writeUint32 offset)
  | 5 => bo.writeUint40 offset
  | 6 => bo.writeUint48 offset
  | 7 => bo.writeUint56 offset
  | 8 => .ok (bo.writeUint64 offset)
  | _ => .error .errInvalidOffsetLen

/-- `StreamFrame.Write`. -/
def StreamFrame.write (f : StreamFrame) (version : VersionNumber) :
    Except WireError (List UInt8) := do
  let bo := getByteOrder version
  if f.data.length = 0 ∧ f.finBit = false then .error .writeEmptyStreamFrame
  else
    let offsetLength := f.getOffsetLength
    let streamIDLen := f.calculateStreamIDLength
    let typeByte := streamTypeByte f.finBit f.dataLenPresent offsetLength streamIDLen
    let streamID ← writeStreamID bo streamIDLen f.streamID
    let offset ← writeOffset bo offsetLength f.offset
    let dataLen := if f.dataLenPresent then bo.writeUint16 f.data.length else []
    .ok (typeByte :: (streamID ++ (offset ++ (dataLen ++ f.data))))

/-- The length of the offset for three bits of the type byte. -/
def offsetLenOf (bits : UInt8) : ℕ := if bits ≠ 0 then bits.toNat + 1 else 0

/-- The length of the data, if it is there. -/
def readDataLen (bo : ByteOrder) (dataLenPresent : Bool) : WireReader ℕ :=
  if dataLenPresent then bo.readUintN 2 else pure 0

/-- The data: as many bytes as the frame says, or the rest of the packet. -/
def readStreamData (dataLenPresent : Bool) (dataLen : ℕ) : WireReader (List UInt8) := do
  let rest ← remaining
  let dataLen := if dataLenPresent then dataLen else rest % 2 ^ 16
  if dataLen ≠ 0 then readFull .eof .unexpectedEOF dataLen else pure []

/-- `ParseStreamFrame`. -/
def parseStreamFrame (version : VersionNumber) : WireReader StreamFrame := do
  let bo := getByteOrder version
  let typeByte ← readByte .eof
  let finBit : Bool := typeByte &&& 0x40 > 0
  let dataLenPresent : Bool := typeByte &&& 0x20 > 0
  let sid ← bo.readUintN ((typeByte &&& 0x3).toNat + 1)
  let offset ← bo.readUintN (offsetLenOf ((typeByte &&& 0x1c) >>> 2))
  let dataLen ← readDataLen bo dataLenPresent
  if dataLen > maxPacketSize then throw .streamDataLenTooLarge
  else
    let data ← readStreamData dataLenPresent dataLen
    if add64 offset data.length < offset then throw .streamDataOverflowsMaximumOffset
    else if finBit = false ∧ data.length = 0 then throw .emptyStreamFrameNoFin
    else pure ⟨sid, finBit, dataLenPresent, offset, data⟩

/-! ## STOP_WAITING frames -/

/-- The difference of a STOP_WAITING frame on the wire. -/
def writeLeastUnackedDelta (bo : ByteOrder) (len : PacketNumberLen) (delta : ℕ) :
    Except WireError (List UInt8) :=
  match len with
  | .len1 => .ok [.ofNat delta]
  | .len2 => .ok (bo.writeUint16 delta)
  | .len4 => .ok (bo.writeUint32 delta)
  | .len6 => bo.writeUint48 (mask48 delta)
  | .invalid => .error .errPacketNumberLenNotSet

/-- `StopWaitingFrame.Write`. -/
def StopWaitingFrame.write (f : StopWaitingFrame) (version : VersionNumber) :
    Except WireError (List UInt8) := do
  if f.packetNumber = 0 then .error .errPacketNumberNotSet
  else if f.leastUnacked > f.packetNumber then .error .errLeastUnackedHigherThanPacketNumber
  else
    let delta ← writeLeastUnackedDelta (getByteOrder version) f.packetNumberLen
      (sub64 f.packetNumber f.leastUnacked)
    .ok (0x06 :: delta)

/-- `ParseStopWaitingFrame`. -/
def parseStopWaitingFrame (version : VersionNumber) (packetNumber : ℕ)
    (packetNumberLen : PacketNumberLen) : WireReader StopWaitingFrame := do
  let _ ← readByte .eof
  let leastUnackedDelta ← (getByteOrder version).readUintN packetNumberLen.bytes
  if leastUnackedDelta ≥ packetNumber then throw .invalidLeastUnackedDelta
  else pure ⟨sub64 packetNumber leastUnackedDelta, .invalid, 0⟩

/-! ## Frames of a fixed length -/

/-- `RstStreamFrame.Write`. -/
def RstStreamFrame.write (f : RstStreamFrame) (version : VersionNumber) : List UInt8 :=
  let bo := getByteOrder version
  0x01 :: (bo.writeUint32 f.streamID ++ (bo.writeUint64 f.byteOffset ++ bo.writeUint32 f.errorCode))

/-- `ParseRstStreamFrame`. -/
def parseRstStreamFrame (version : VersionNumber) : WireReader RstStreamFrame := do
  let bo := getByteOrder version
  let _ ← readByte .eof
  let sid ← bo.readUintN 4
  let byteOffset ← bo.readUintN 8
  let errorCode ← bo.readUintN 4
  pure ⟨sid, errorCode, byteOffset⟩

/-- `WindowUpdateFrame.Write`. -/
def WindowUpdateFrame.write (f : WindowUpdateFrame) (version : VersionNumber) : List UInt8 :=
  let bo := getByteOrder version
  0x04 :: (bo.writeUint32 f.streamID ++ bo.writeUint64 f.byteOffset)

/-- `ParseWindowUpdateFrame`. -/
def parseWindowUpdateFrame (version : VersionNumber) : WireReader WindowUpdateFrame := do
  let bo := getByteOrder version
  let _ ← readByte .eof
  let sid ← bo.readUintN 4
  let byteOffset ← bo.readUintN 8
  pure ⟨sid, byteOffset⟩

/-- `BlockedFrame.Write`. -/
def BlockedFrame.write (f : BlockedFrame) (version : VersionNumber) : List UInt8 :=
  0x05 :: (getByteOrder version).writeUint32 f.streamID

/-- `ParseBlockedFrame`. -/
def parseBlockedFrame (version : VersionNumber) : WireReader BlockedFrame := do
  let _ ← readByte .eof
  let sid ← (getByteOrder version).readUintN 4
  pure ⟨sid⟩

/-- `ParsePingFrame`. -/
def parsePingFrame : WireReader Unit := do
  let _ ← readByte .eof
  pure ()

/-! ## Frames with a reason phrase -/

/-- The reason phrase of a frame, after its length. -/
def readReasonPhrase (bo : ByteOrder) : WireReader (List UInt8) := do
  let reasonPhraseLen ← bo.readUintN 2
  if reasonPhraseLen > maxPacketSize then throw .reasonPhraseTooLong
  else readFull .eof .unexpectedEOF reasonPhraseLen

/-- `GoawayFrame.Write`. -/
def GoawayFrame.write (f : GoawayFrame) (version : VersionNumber) : List UInt8 :=
  let bo := getByteOrder version
  0x03 :: (bo.writeUint32 f.errorCode ++ (bo.writeUint32 f.lastGoodStream ++
    (bo.writeUint16 f.reasonPhrase.length ++ f.reasonPhrase)))

/-- `ParseGoawayFrame`. -/
def parseGoawayFrame (version : VersionNumber) : WireReader GoawayFrame := do
  let bo := getByteOrder version
  let _ ← readByte .eof
  let errorCode ← bo.readUintN 4
  let lastGoodStream ← bo.readUintN 4
  let reasonPhrase ← readReasonPhrase bo
  pure ⟨errorCode, lastGoodStream, reasonPhrase⟩

/-- `ConnectionCloseFrame.Write`. -/
def ConnectionCloseFrame.write (f : ConnectionCloseFrame) (version : VersionNumber) :
    Except WireError (List UInt8) :=
  let bo := getByteOrder version
  if f.reasonPhrase.length > 2 ^ 16 - 1 then .error .writeReasonPhraseTooLong
  else .ok (0x02 :: (bo.writeUint32 f.errorCode ++
    (bo.writeUint16 f.reasonPhrase.length ++ f.reasonPhrase)))

/-- `ParseConnectionCloseFrame`. -/
def parseConnectionCloseFrame (version : VersionNumber) : WireReader ConnectionCloseFrame := do
  let bo := getByteOrder version
  let _ ← readByte .eof
  let errorCode ← bo.readUintN 4
  let reasonPhrase ← readReasonPhrase bo
  pure ⟨errorCode, reasonPhrase⟩

/-! ## ADD_ADDRESS frames -/

/-- `net.IPv4`: an IPv4 address in the form of an IPv6 address. -/
def ipv4 (bytes : List UInt8) : List UInt8 := List.replicate 10 0 ++ [0xff, 0xff] ++ bytes

/-- `IP.To4`: the four bytes of an IPv4 address, which may be in the form of an IPv6 address. -/
def ipTo4 (ip : List UInt8) : Option (List UInt8) :=
  if ip.length = 4 then some ip
  else if ip.length = 16 ∧ ip.take 12 = List.replicate 10 0 ++ [0xff, 0xff] then some (ip.drop 12)
  else none

/-- `IP.To16`: the sixteen bytes of an IP address. -/
def ipTo16 (ip : List UInt8) : Option (List UInt8) :=
  if ip.length = 4 then some (ipv4 ip) else if ip.length = 16 then some ip else none

/-- `AddAddressFrame.Write`. -/
def AddAddressFrame.write (f : AddAddressFrame) (version : VersionNumber) :
    Except WireError (List UInt8) :=
  let port := (getByteOrder version).writeUint16 f.port
  if f.ipVersion = 4 then
    match ipTo4 f.ip with
    | none => .error .errInconsistentAddrIPVersion
    | some ip => .ok (0x10 :: f.ipVersion :: (ip ++ port))
  else if f.ipVersion = 6 then
    match ipTo16 f.ip with
    | none => .error .errInconsistentAddrIPVersion
    | some ip => .ok (0x10 :: f.ipVersion :: (ip ++ port))
  else .error .errUnknownIPVersion

/-- The address of an ADD_ADDRESS frame. -/
def readIP (ipVersion : UInt8) : WireReader (List UInt8) :=
  if ipVersion = 4 then do
    let bytes ← readBytes .eof 4
    pure (ipv4 bytes)
  else if ipVersion = 6 then readBytes .eof 16
  else throw .errUnknownIPVersion

/-- `ParseAddAddressFrame`. -/
def parseAddAddressFrame (version : VersionNumber) : WireReader AddAddressFrame := do
  let _ ← readByte .eof
  let ipVersion ← readByte .eof
  let ip ← readIP ipVersion
  let port ← (getByteOrder version).readUintN 2
  pure ⟨ipVersion, ip, port⟩

/-! ## PATHS frames -/

/-- A round-trip time in nanoseconds, as an unsigned number of microseconds. -/
def microseconds (rtt : ℤ) : ℕ := (rtt.tdiv 1000 % 2 ^ 64).toNat

/-- `PathsFrame.Write`. -/
def PathsFrame.write (f : PathsFrame) (version : VersionNumber) : Except WireError (List UInt8) :=
  if f.numPaths.toNat ≠ f.pathIDs.length then .error .errPathsNumber
  else if f.pathIDs.length ≠ f.remoteRTTs.length then .error .errMissingRTT
  else .ok (0x12 :: f.maxNumPaths :: f.numPaths ::
    (f.pathIDs.zip f.remoteRTTs).flatMap fun (pathID, rtt) =>
      pathID :: (getByteOrder version).writeUfloat16 (microseconds rtt))

/-- The paths of a PATHS frame. -/
def readPaths (bo : ByteOrder) : ℕ → WireReader (List (PathID × ℤ))
  | 0 => pure []
  | n + 1 => do
    let pathID ← readByte .eof
    let remoteRTT ← bo.readUfloat16
    let paths ← readPaths bo n
    pure ((pathID, (remoteRTT : ℤ) * 1000) :: paths)

/-- `ParsePathsFrame`. -/
def parsePathsFrame (version : VersionNumber) : WireReader PathsFrame := do
  let _ ← readByte .eof
  let maxNumPaths ← readByte .eof
  let numPaths ← readByte .eof
  if numPaths > maxNumPaths then throw .errTooManyPaths
  else
    let paths ← readPaths (getByteOrder version) numPaths.toNat
    pure ⟨maxNumPaths, numPaths, paths.map Prod.fst, paths.map Prod.snd⟩

/-! ## The payload of a packet -/

/-- `Write`. An ACK frame is written with the microseconds since its largest acknowledged packet was
received. -/
def Frame.write (version : VersionNumber) (delay : AckFrame → ℕ) :
    Frame → Except WireError (List UInt8)
  | .stream frame => frame.write version
  | .ack frame => frame.write version (delay frame)
  | .stopWaiting frame => frame.write version
  | .rstStream frame => .ok (frame.write version)
  | .windowUpdate frame => .ok (frame.write version)
  | .blocked frame => .ok (frame.write version)
  | .ping => .ok [0x07]
  | .goaway frame => .ok (frame.write version)
  | .connectionClose frame => frame.write version
  | .addAddress frame => frame.write version
  | .closePath frame => frame.write version
  | .paths frame => frame.write version

/-- The loop of `writeAndSealPacket`: writes one frame after the other. -/
def writeFrames (version : VersionNumber) (delay : AckFrame → ℕ) :
    List Frame → Except WireError (List UInt8)
  | [] => .ok []
  | frame :: frames => do
    let bytes ← frame.write version delay
    let payload ← writeFrames version delay frames
    .ok (bytes ++ payload)

end MultipathQuic
