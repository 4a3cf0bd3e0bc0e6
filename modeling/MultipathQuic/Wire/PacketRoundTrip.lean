import MultipathQuic.Wire.FrameRoundTrip
import MultipathQuic.Wire.Unpack

/-!
# The payload of a packet survives the wire

The frames of a packet are written one after the other, and `Unpack` finds them again: every type
byte leads to the parser of its frame, every parser stops where its frame ends, and a STREAM frame
without a length, which can only be the last one, takes the rest.

## Main definitions

* `Frame.Representable`, `Frame.Received`: what is written, and what is read

## Main results

* `packetPayload_roundTrip`: the frames are found again
-/

namespace MultipathQuic

open ByteCodec

/-- The fields of the frame fit the wire, and the frame is one that its parser accepts. Only the
crypto stream is sent without encryption, and a STOP_WAITING frame has the packet number of the
packet that it is sent with. -/
def Frame.Representable (hdr : PublicHeader) (level : EncryptionLevel) : Frame → Prop
  | .stream f =>
    f.streamID < 2 ^ 32 ∧ f.offset + f.dataLen < 2 ^ 64 ∧
      (f.streamID ≠ 1 → EncryptionLevel.unencrypted.toNat < level.toNat)
  | .ack f => f.Ordered ∧ f.Encodable
  | .stopWaiting f =>
    f.packetNumber = hdr.packetNumber ∧ f.packetNumberLen = hdr.packetNumberLen ∧
      f.packetNumber < 2 ^ 64 ∧ 1 ≤ f.leastUnacked ∧
      f.packetNumber - f.leastUnacked < 256 ^ f.packetNumberLen.bytes
  | .rstStream f => f.streamID < 2 ^ 32 ∧ f.byteOffset < 2 ^ 64 ∧ f.errorCode < 2 ^ 32
  | .windowUpdate f => f.streamID < 2 ^ 32 ∧ f.byteOffset < 2 ^ 64
  | .blocked f => f.streamID < 2 ^ 32
  | .ping => True
  | .goaway f => f.errorCode < 2 ^ 32 ∧ f.lastGoodStream < 2 ^ 32
  | .connectionClose f => f.errorCode < 2 ^ 32
  | .addAddress f => f.port < 2 ^ 16
  | .closePath f => f.Ordered ∧ f.Encodable
  | .paths f => f.numPaths ≤ f.maxNumPaths

/-- What is left of a frame on the other side: the ranges of ACK and CLOSE_PATH frames may be cut,
times are rounded, an IPv4 address comes in sixteen bytes, and of a STOP_WAITING frame there is the
packet number that it waits for. -/
def Frame.Received : Frame → Frame → Prop
  | .ack f, .ack f' => f'.pathID = f.pathID ∧ f.Truncation f'.toAckedPackets
  | .closePath f, .closePath f' => f'.pathID = f.pathID ∧ f.Truncation f'.toAckedPackets
  | .stopWaiting f, .stopWaiting f' => f'.leastUnacked = f.leastUnacked
  | .addAddress f, .addAddress f' =>
    f'.ipVersion = f.ipVersion ∧ some f'.ip = ipTo16 f.ip ∧ f'.port = f.port
  | .paths f, .paths f' => f' = { f with remoteRTTs := f.remoteRTTs.map roundRTT }
  | f, f' => f' = f

/-- The end of the frame can be told from its bytes. -/
def Frame.hasLength : Frame → Bool
  | .stream f => f.dataLenPresent
  | _ => true

variable {version : VersionNumber} {hdr : PublicHeader} {level : EncryptionLevel}
  {delay : AckFrame → ℕ} {bytes : List UInt8}

/-! ## One frame -/

/-- An ACK type byte is told apart from all others. -/
theorem ackTypeByte_kind (l d : PacketNumberLen) (missing path : Bool) :
    ackTypeByte l d missing path ≠ 0 ∧ ¬ ackTypeByte l d missing path &&& 0x80 = 0x80 ∧
      ackTypeByte l d missing path &&& 0xc0 = 0x40 := by
  cases l <;> cases d <;> cases missing <;> cases path <;> decide

theorem AckFrame.exists_typeByte {f : AckFrame} {n : ℕ} (h : f.write version n = .ok bytes) :
    ∃ l d missing path tail, bytes = ackTypeByte l d missing path :: tail := by
  obtain ⟨largest, -, h⟩ := exists_of_bind_eq_ok h
  obtain ⟨num, -, h⟩ := exists_of_bind_eq_ok h
  obtain ⟨blocks, -, h⟩ := exists_of_bind_eq_ok h
  cases h
  exact ⟨_, _, _, _, _, rfl⟩

theorem ClosePathFrame.exists_tail {f : ClosePathFrame} (h : f.write version = .ok bytes) :
    ∃ tail, bytes = 0x11 :: tail := by
  obtain ⟨num, -, h⟩ := exists_of_bind_eq_ok h
  obtain ⟨largest, -, h⟩ := exists_of_bind_eq_ok h
  obtain ⟨blocks, -, h⟩ := exists_of_bind_eq_ok h
  cases h
  exact ⟨_, rfl⟩

/-- The data of a STREAM frame is among its bytes. -/
theorem StreamFrame.exists_typeByte {f : StreamFrame} (h : f.write version = .ok bytes) :
    ∃ tail, bytes = streamTypeByte f.finBit f.dataLenPresent f.getOffsetLength
      f.calculateStreamIDLength :: tail ∧ f.dataLen ≤ bytes.length := by
  unfold StreamFrame.write at h
  by_cases hempty : f.data.length = 0 ∧ f.finBit = false
  · rw [if_pos hempty] at h
    cases h
  · rw [if_neg hempty] at h
    obtain ⟨id, -, h⟩ := exists_of_bind_eq_ok h
    obtain ⟨offset, -, h⟩ := exists_of_bind_eq_ok h
    cases h
    refine ⟨_, rfl, ?_⟩
    simp only [List.length_cons, List.length_append, StreamFrame.dataLen]
    omega

theorem parsed_of_run {α : Type} {r : WireReader α} {a : α} {bs rest : List UInt8}
    (h : r.run bs = .ok (a, rest)) (frame : α → Frame) (wrap : WireError → UnpackError) :
    parsed r frame wrap bs = .ok (frame a, rest) := by
  rw [parsed, h]

/-- A round of `Unpack` finds the frame with the type byte, and what it finds is what is left of the
frame. -/
structure Frame.Found (version : VersionNumber) (hdr : PublicHeader) (level : EncryptionLevel)
    (frame : Frame) (bytes rest : List UInt8) (typeByte : UInt8) (frame' : Frame) : Prop where
  head : ∃ tail, bytes = typeByte :: tail
  ne_zero : typeByte ≠ 0
  run : unpackFrame version hdr level typeByte (bytes ++ rest) = .ok (frame', rest)
  received : frame.Received frame'

theorem StreamFrame.found {f : StreamFrame} (hrep : (Frame.stream f).Representable hdr level)
    (h : f.write version = .ok bytes) (hlen : bytes.length ≤ maxPacketSize) {rest : List UInt8}
    (hrest : f.dataLenPresent = false → rest = []) :
    ∃ typeByte frame', (Frame.stream f).Found version hdr level bytes rest typeByte frame' := by
  obtain ⟨hid, hend, hlevel⟩ := hrep
  obtain ⟨tail, hbytes, hdata⟩ := StreamFrame.exists_typeByte h
  obtain ⟨-, -, -, -, hkind⟩ := streamTypeByte_fields f.finBit f.dataLenPresent
    f.getOffsetLength_mem f.calculateStreamIDLength_mem
  refine ⟨_, .stream f, ⟨tail, hbytes⟩, fun hzero => ?_, ?_, rfl⟩
  · rw [hzero] at hkind
    exact absurd hkind (by decide)
  · have hrun := StreamFrame.run_parseStreamFrame hid hend (hdata.trans hlen) h hrest
    unfold unpackFrame
    rw [if_pos hkind, unpackStreamFrame, hrun]
    dsimp only
    rw [if_neg fun hc => absurd (hlevel hc.1) (Nat.not_lt.mpr hc.2)]

/-- **One round of `Unpack` finds a frame that was written.** -/
theorem Frame.unpackFrame_write {frame : Frame} (hrep : frame.Representable hdr level)
    (h : frame.write version delay = .ok bytes) (hlen : bytes.length ≤ maxPacketSize)
    {rest : List UInt8} (hrest : frame.hasLength = false → rest = []) :
    ∃ typeByte frame', frame.Found version hdr level bytes rest typeByte frame' := by
  cases frame with
  | stream f => exact StreamFrame.found hrep h hlen hrest
  | ack f =>
    obtain ⟨l, d, missing, path, tail, hbytes⟩ := AckFrame.exists_typeByte h
    obtain ⟨hne, hnot, hkind⟩ := ackTypeByte_kind l d missing path
    obtain ⟨f', hrun, hreceived⟩ := AckFrame.run_parseAckFrame hrep.1 hrep.2 h rest
    refine ⟨_, .ack f', ⟨tail, hbytes⟩, hne, ?_, hreceived⟩
    unfold unpackFrame
    rw [if_neg hnot, if_pos hkind]
    exact parsed_of_run hrun _ _
  | stopWaiting f =>
    obtain ⟨hnum, hnumLen, hlt, hpos, hdelta⟩ := hrep
    obtain ⟨tail, hbytes, hrun⟩ := StopWaitingFrame.run_parseStopWaitingFrame hpos hlt hdelta h rest
    rw [hnum, hnumLen] at hrun
    exact ⟨0x06, _, ⟨tail, hbytes⟩, by decide, parsed_of_run hrun .stopWaiting _, rfl⟩
  | rstStream f =>
    cases h
    have hrun := RstStreamFrame.run_parseRstStreamFrame version hrep.1 hrep.2.1
      hrep.2.2 rest
    exact ⟨0x01, _, ⟨_, rfl⟩, by decide, parsed_of_run hrun .rstStream _, rfl⟩
  | windowUpdate f =>
    cases h
    have hrun := WindowUpdateFrame.run_parseWindowUpdateFrame version hrep.1 hrep.2 rest
    exact ⟨0x04, _, ⟨_, rfl⟩, by decide, parsed_of_run hrun .windowUpdate _, rfl⟩
  | blocked f =>
    cases h
    have hrun := BlockedFrame.run_parseBlockedFrame version hrep rest
    exact ⟨0x05, _, ⟨_, rfl⟩, by decide, parsed_of_run hrun .blocked _, rfl⟩
  | ping =>
    cases h
    exact ⟨0x07, .ping, ⟨_, rfl⟩, by decide, rfl, rfl⟩
  | goaway f =>
    cases h
    have hreason : f.reasonPhrase.length ≤ maxPacketSize := by
      refine le_trans ?_ hlen
      simp only [GoawayFrame.write, List.length_cons, List.length_append]
      omega
    have hrun := GoawayFrame.run_parseGoawayFrame version hrep.1 hrep.2 hreason rest
    exact ⟨0x03, _, ⟨_, rfl⟩, by decide, parsed_of_run hrun .goaway _, rfl⟩
  | connectionClose f =>
    have hreason : f.reasonPhrase.length ≤ maxPacketSize := by
      refine le_trans ?_ hlen
      unfold Frame.write ConnectionCloseFrame.write at h
      dsimp only at h
      split_ifs at h
      cases h
      simp only [List.length_cons, List.length_append]
      omega
    obtain ⟨tail, hbytes, hrun⟩ :=
      ConnectionCloseFrame.run_parseConnectionCloseFrame hrep hreason h rest
    exact ⟨0x02, _, ⟨tail, hbytes⟩, by decide, parsed_of_run hrun .connectionClose _, rfl⟩
  | addAddress f =>
    obtain ⟨tail, ip, hbytes, hip, hrun⟩ :=
      AddAddressFrame.run_parseAddAddressFrame hrep h rest
    exact ⟨0x10, _, ⟨tail, hbytes⟩, by decide, parsed_of_run hrun .addAddress _, rfl, hip.symm, rfl⟩
  | closePath f =>
    obtain ⟨tail, hbytes⟩ := ClosePathFrame.exists_tail h
    obtain ⟨f', hrun, hreceived⟩ := ClosePathFrame.run_parseClosePathFrame hrep.1 hrep.2 h rest
    exact ⟨0x11, _, ⟨tail, hbytes⟩, by decide, parsed_of_run hrun .closePath _, hreceived⟩
  | paths f =>
    obtain ⟨tail, hbytes, hrun⟩ := PathsFrame.run_parsePathsFrame hrep h rest
    exact ⟨0x12, _, ⟨tail, hbytes⟩, by decide, parsed_of_run hrun .paths _, rfl⟩

/-! ## The payload -/

theorem writeFrames_cons {frame : Frame} {frames : List Frame} {payload : List UInt8}
    (h : writeFrames version delay (frame :: frames) = .ok payload) :
    ∃ bytes tail, frame.write version delay = .ok bytes ∧
      writeFrames version delay frames = .ok tail ∧ payload = bytes ++ tail := by
  obtain ⟨bytes, hbytes, h⟩ := exists_of_bind_eq_ok h
  obtain ⟨tail, htail, h⟩ := exists_of_bind_eq_ok h
  cases h
  exact ⟨bytes, tail, hbytes, htail, rfl⟩

/-- The rest is empty after a frame without a length, because it is the last one. -/
theorem rest_eq_nil {frame : Frame} {frames : List Frame} {tail : List UInt8}
    (hlast : ∀ frame' ∈ (frame :: frames).dropLast, frame'.hasLength = true)
    (htail : writeFrames version delay frames = .ok tail) (hno : frame.hasLength = false) :
    tail = [] := by
  cases frames with
  | nil =>
    cases htail
    rfl
  | cons next frames =>
    have htrue := hlast frame List.mem_cons_self
    rw [hno] at htrue
    cases htrue

/-- The loop of `Unpack` finds the frames that were written. The rounds are as many as there are
bytes, and every frame has at least one. -/
theorem unpackFrames_writeFrames {frames : List Frame}
    (hrep : ∀ frame ∈ frames, frame.Representable hdr level)
    (hlast : ∀ frame ∈ frames.dropLast, frame.hasLength = true) {payload : List UInt8}
    (h : writeFrames version delay frames = .ok payload) (hlen : payload.length ≤ maxPacketSize)
    {rounds : ℕ} (hrounds : payload.length ≤ rounds) :
    ∃ frames', unpackFrames version hdr level rounds payload = .ok frames' ∧
      List.Forall₂ Frame.Received frames frames' := by
  induction frames generalizing payload rounds with
  | nil =>
    cases h
    cases rounds <;> exact ⟨[], rfl, .nil⟩
  | cons frame frames ih =>
    obtain ⟨bytes, tail, hbytes, htail, rfl⟩ := writeFrames_cons h
    rw [List.length_append] at hlen hrounds
    obtain ⟨typeByte, frame', hfound⟩ := Frame.unpackFrame_write (hrep frame List.mem_cons_self)
      hbytes (by omega) (rest_eq_nil hlast htail)
    obtain ⟨bs, rfl⟩ := hfound.head
    rw [List.length_cons] at hlen hrounds
    obtain ⟨n, rfl⟩ : ∃ n, rounds = n + 1 := ⟨rounds - 1, by omega⟩
    have hlast' : ∀ frame ∈ frames.dropLast, frame.hasLength = true := by
      intro f hf
      refine hlast f ?_
      rw [List.dropLast_cons_of_ne_nil (List.ne_nil_of_mem (List.dropLast_subset _ hf))]
      exact List.mem_cons_of_mem _ hf
    obtain ⟨frames', hframes', hreceived⟩ := ih
      (fun f hf => hrep f (List.mem_cons_of_mem _ hf)) hlast' htail (by omega)
      (show tail.length ≤ n by omega)
    refine ⟨frame' :: frames', ?_, .cons hfound.received hreceived⟩
    have hrun := hfound.run
    rw [List.cons_append] at hrun ⊢
    rw [unpackFrames, if_neg hfound.ne_zero, hrun]
    show (unpackFrames version hdr level n tail >>= fun frames => .ok (frame' :: frames)) = _
    rw [hframes']
    rfl

/-- `Unpack` finds the frames that were written. -/
theorem unpack_writeFrames {frames : List Frame} {payload : List UInt8} (hne : frames ≠ [])
    (hrep : ∀ frame ∈ frames, frame.Representable hdr level)
    (hlast : ∀ frame ∈ frames.dropLast, frame.hasLength = true)
    (h : writeFrames version delay frames = .ok payload)
    (hlen : payload.length ≤ maxPacketSize) :
    ∃ frames', unpack version hdr (.ok (payload, level)) = .ok ⟨level, frames'⟩ ∧
      List.Forall₂ Frame.Received frames frames' := by
  obtain ⟨frames', hframes', hreceived⟩ :=
    unpackFrames_writeFrames hrep hlast h hlen (le_refl payload.length)
  refine ⟨frames', ?_, hreceived⟩
  -- an empty payload would give no frames
  have hpayload : payload.length ≠ 0 := by
    intro hzero
    rw [List.eq_nil_of_length_eq_zero hzero] at hframes'
    cases hframes'
    cases hreceived
    exact hne rfl
  unfold unpack
  dsimp only
  rw [if_neg hpayload, hframes']
  rfl

/-- The payload of a packet survives the wire: frames that fit it, of which only the last one may be
a STREAM frame without a length, are found again by `Unpack`, in their order. `Open` gives back the
payload that was sealed. -/
theorem packetPayload_roundTrip (version : VersionNumber) (hdr : PublicHeader)
    (level : EncryptionLevel) (delay : AckFrame → ℕ) (frames : List Frame) (payload : List UInt8)
    (hne : frames ≠ []) (hrep : ∀ frame ∈ frames, frame.Representable hdr level)
    (hlast : ∀ frame ∈ frames.dropLast, frame.hasLength = true)
    (h : writeFrames version delay frames = .ok payload)
    (hlen : payload.length ≤ maxPacketSize) :
    ∃ frames', unpack version hdr (.ok (payload, level)) = .ok ⟨level, frames'⟩ ∧
      List.Forall₂ Frame.Received frames frames' :=
  unpack_writeFrames hne hrep hlast h hlen

/-- A header with a packet number of one byte. -/
def shortHeader : PublicHeader where
  connectionID := 0
  pathID := 0
  versionFlag := false
  resetFlag := false
  truncateConnectionID := true
  multipathFlag := false
  packetNumberLen := .len1
  packetNumber := 9
  versionNumber := 39
  diversificationNonce := []

/-- One frame of most kinds, the last one a STREAM frame without a length. -/
def mixedFrames : List Frame :=
  [.ack ⟨longGap, 3, 0⟩, .stopWaiting ⟨7, .len1, 9⟩, .ping, .blocked ⟨5⟩, .windowUpdate ⟨5, 70000⟩,
    .rstStream ⟨7, 0, 12⟩, .addAddress ⟨4, [10, 0, 0, 1], 443⟩, .paths ⟨255, 1, [3], [20000000]⟩,
    .closePath ⟨longGap, 3⟩, .stream ⟨5, false, false, 300, [1, 2, 3]⟩]

/-- The bytes of the frames, one after the other. -/
def mixedPayload : List UInt8 :=
  [0x74, 3, 1, 54, 0, 0, 2, 5, 255, 0, 45, 5, 0] ++
  [0x06, 2] ++ [0x07] ++ [0x05, 0, 0, 0, 5] ++
  [0x04, 0, 0, 0, 5, 0, 0, 0, 0, 0, 1, 17, 112] ++
  [0x01, 0, 0, 0, 7, 0, 0, 0, 0, 0, 0, 0, 12, 0, 0, 0, 0] ++
  [0x10, 4, 10, 0, 0, 1, 1, 187] ++ [0x12, 255, 1, 3, 33, 196] ++
  [0x11, 3, 0x14, 2, 1, 54, 5, 255, 0, 45, 5] ++ [0x84, 5, 1, 44, 1, 2, 3]

theorem mixedFrames_roundTrip :
    ∃ frames', unpack 39 shortHeader (.ok (mixedPayload, .forwardSecure)) =
      .ok ⟨.forwardSecure, frames'⟩ ∧ List.Forall₂ Frame.Received mixedFrames frames' := by
  have ho : longGap.Ordered := by
    refine ⟨⟨by decide, by decide, ?_⟩, by decide⟩
    exact List.isChain_pair.mpr (by decide)
  have he : longGap.Encodable := ⟨fun h => absurd h (by decide), by decide⟩
  refine packetPayload_roundTrip 39 shortHeader .forwardSecure (fun _ => 0) mixedFrames mixedPayload
    (by decide) ?_ (by decide) (by decide +kernel) (by decide)
  simp only [mixedFrames, List.forall_mem_cons, Frame.Representable]
  exact ⟨⟨ho, he⟩, by decide, trivial, by decide, by decide, by decide, by decide, by decide,
    ⟨ho, he⟩, by decide, nofun⟩

/-- The frame is written, and `Unpack` does not return it: it returns the error. -/
def Frame.Lost (frame : Frame) (payload : List UInt8) (err : UnpackError) : Prop :=
  writeFrames 39 (fun _ => 0) [frame] = .ok payload ∧
    unpack 39 shortHeader (.ok (payload, .forwardSecure)) = .error err

instance (frame : Frame) (payload : List UInt8) (err : UnpackError) :
    Decidable (frame.Lost payload err) :=
  inferInstanceAs (Decidable (_ ∧ _))

/-- `Write` accepts frames that no parser accepts: a PATHS frame with more paths than the maximum, a
STREAM frame that ends at the offset 2^64, a STOP_WAITING frame for packet 0, an ACK frame with one
range and one that acknowledges packet 0. A payload without frames is not unpacked, and an IPv4
address of four bytes comes back in sixteen. -/
theorem unparsedFrames_not_returned :
    (Frame.paths ⟨1, 2, [1, 3], [0, 0]⟩).Lost [0x12, 1, 2, 1, 0, 0, 3, 0, 0]
      (.unwrapped .errTooManyPaths) ∧
    (Frame.stream ⟨5, false, true, 2 ^ 64 - 1, [1]⟩).Lost
      [0xbc, 5, 255, 255, 255, 255, 255, 255, 255, 255, 0, 1, 1]
      (.invalidStreamData .streamDataOverflowsMaximumOffset) ∧
    (Frame.stopWaiting ⟨0, .len1, 9⟩).Lost [0x06, 9]
      (.invalidStopWaitingData .invalidLeastUnackedDelta) ∧
    (Frame.ack ⟨⟨5, 3, [⟨3, 5⟩]⟩, 0, 0⟩).Lost [0x60, 5, 0, 0, 0, 3, 0]
      (.invalidAckData .errInvalidAckRanges) ∧
    (Frame.ack ⟨⟨5, 0, []⟩, 0, 0⟩).Lost [0x40, 5, 0, 0, 6, 0]
      (.invalidAckData .errInvalidAckRanges) ∧
    (writeFrames 39 (fun _ => 0) [] = .ok [] ∧
      unpack 39 shortHeader (.ok ([], .forwardSecure)) = .error .missingPayload) ∧
    writeFrames 39 (fun _ => 0) [.addAddress ⟨4, [10, 0, 0, 1], 443⟩] =
      .ok [0x10, 4, 10, 0, 0, 1, 1, 187] ∧
    unpack 39 shortHeader (.ok ([0x10, 4, 10, 0, 0, 1, 1, 187], .forwardSecure)) =
      .ok ⟨.forwardSecure,
        [.addAddress ⟨4, [0, 0, 0, 0, 0, 0, 0, 0, 0, 0, 255, 255, 10, 0, 0, 1], 443⟩]⟩ := by
  refine ⟨?_, ?_, ?_, ?_, ?_, ?_, ?_, ?_⟩ <;> decide +kernel

end MultipathQuic
