import MultipathQuic.Wire.FrameCodec
import MultipathQuic.Wire.PublicHeader

/-!
# Unpacking packets

`packet_unpacker.go`: the frames of a decrypted packet, one after the other. The type byte tells the
frames apart; a zero byte is padding.

The loop of `Unpack` takes at least the type byte in every round, so that as many rounds as there are
bytes are enough.

## Main definitions

* `unpackFrame`, `unpack`: the frames of a packet
* `Frame.Accepted`: the parsers have accepted the frame

## Main results

* `unpackFrames_ne_outOfRounds`: the rounds are enough
* `accepted_of_unpack`: what is returned is accepted
-/

namespace MultipathQuic

open ByteCodec

/-- The errors of `Unpack`, with the error of the parser where there is one. -/
inductive UnpackError
  | decryptionFailure (text : String)
  | missingPayload
  | invalidStreamData (err : WireError)
  | unencryptedStreamData (streamID : ℕ)
  | invalidAckData (err : WireError)
  | congestionFeedback
  | invalidRstStreamData (err : WireError)
  | invalidConnectionCloseData (err : WireError)
  | invalidGoawayData (err : WireError)
  | invalidWindowUpdateData (err : WireError)
  | invalidBlockedData (err : WireError)
  | invalidStopWaitingData (err : WireError)
  | unwrapped (err : WireError)
  | invalidFrameData (typeByte : UInt8)
  | outOfRounds
  deriving DecidableEq, Repr

/-- The digits of a byte in a message. -/
def hexByte (b : UInt8) : String := String.ofList (Nat.toDigits 16 b.toNat)

/-- The text of an error of `Unpack`. -/
def UnpackError.text : UnpackError → String
  | .decryptionFailure text => "DecryptionFailure: " ++ text
  | .missingPayload => "MissingPayload"
  | .invalidStreamData err => "InvalidStreamData: " ++ err.text
  | .unencryptedStreamData streamID =>
    "UnencryptedStreamData: received unencrypted stream data on stream " ++ toString streamID
  | .invalidAckData err => "InvalidAckData: " ++ err.text
  | .congestionFeedback => "unimplemented: CONGESTION_FEEDBACK"
  | .invalidRstStreamData err => "InvalidRstStreamData: " ++ err.text
  | .invalidConnectionCloseData err => "InvalidConnectionCloseData: " ++ err.text
  | .invalidGoawayData err => "InvalidGoawayData: " ++ err.text
  | .invalidWindowUpdateData err => "InvalidWindowUpdateData: " ++ err.text
  | .invalidBlockedData err => "InvalidBlockedData: " ++ err.text
  | .invalidStopWaitingData err => "InvalidStopWaitingData: " ++ err.text
  | .unwrapped err => err.text
  | .invalidFrameData typeByte => "InvalidFrameData: unknown type byte 0x" ++ hexByte typeByte
  | .outOfRounds => ""

/-- Runs a parser; its error is wrapped. -/
def parsed {α : Type} (r : WireReader α) (frame : α → Frame) (wrap : WireError → UnpackError)
    (bs : List UInt8) : Except UnpackError (Frame × List UInt8) :=
  match r.run bs with
  | .ok (a, rest) => .ok (frame a, rest)
  | .error err => .error (wrap err)

/-- The parser of a STREAM frame, and the check that it is encrypted. -/
def unpackStreamFrame (version : VersionNumber) (level : EncryptionLevel) (bs : List UInt8) :
    Except UnpackError (Frame × List UInt8) :=
  match (parseStreamFrame version).run bs with
  | .error err => .error (.invalidStreamData err)
  | .ok (frame, rest) =>
    if frame.streamID ≠ 1 ∧ level.toNat ≤ EncryptionLevel.unencrypted.toNat then
      .error (.unencryptedStreamData frame.streamID)
    else .ok (.stream frame, rest)

/-- A round of the loop of `Unpack` for the type byte that the bytes start with. -/
def unpackFrame (version : VersionNumber) (hdr : PublicHeader) (level : EncryptionLevel)
    (typeByte : UInt8) (bs : List UInt8) : Except UnpackError (Frame × List UInt8) :=
  if typeByte &&& 0x80 = 0x80 then unpackStreamFrame version level bs
  else if typeByte &&& 0xc0 = 0x40 then parsed (parseAckFrame version) .ack .invalidAckData bs
  else if typeByte &&& 0xe0 = 0x20 then .error .congestionFeedback
  else
    match typeByte with
    | 0x01 => parsed (parseRstStreamFrame version) .rstStream .invalidRstStreamData bs
    | 0x02 =>
      parsed (parseConnectionCloseFrame version) .connectionClose .invalidConnectionCloseData bs
    | 0x03 => parsed (parseGoawayFrame version) .goaway .invalidGoawayData bs
    | 0x04 => parsed (parseWindowUpdateFrame version) .windowUpdate .invalidWindowUpdateData bs
    | 0x05 => parsed (parseBlockedFrame version) .blocked .invalidBlockedData bs
    | 0x06 =>
      parsed (parseStopWaitingFrame version hdr.packetNumber hdr.packetNumberLen) .stopWaiting
        .invalidStopWaitingData bs
    | 0x07 => parsed parsePingFrame (fun _ => .ping) .unwrapped bs
    | 0x10 => parsed (parseAddAddressFrame version) .addAddress .unwrapped bs
    | 0x11 => parsed (parseClosePathFrame version) .closePath .unwrapped bs
    | 0x12 => parsed (parsePathsFrame version) .paths .unwrapped bs
    | _ => .error (.invalidFrameData typeByte)

/-- The loop of `Unpack`. -/
def unpackFrames (version : VersionNumber) (hdr : PublicHeader) (level : EncryptionLevel) :
    ℕ → List UInt8 → Except UnpackError (List Frame)
  | _, [] => .ok []
  | 0, _ :: _ => .error .outOfRounds
  | rounds + 1, typeByte :: bs =>
    if typeByte = 0 then unpackFrames version hdr level rounds bs
    else do
      let (frame, rest) ← unpackFrame version hdr level typeByte (typeByte :: bs)
      let frames ← unpackFrames version hdr level rounds rest
      .ok (frame :: frames)

/-- `unpackedPacket`. -/
structure UnpackedPacket where
  encryptionLevel : EncryptionLevel
  frames : List Frame
  deriving DecidableEq

/-- `Unpack`, for what `Open` returns: the decrypted payload and its encryption level, or the text of
an error. -/
def unpack (version : VersionNumber) (hdr : PublicHeader)
    (opened : Except String (List UInt8 × EncryptionLevel)) : Except UnpackError UnpackedPacket :=
  match opened with
  | .error text => .error (.decryptionFailure text)
  | .ok (decrypted, encryptionLevel) =>
    if decrypted.length = 0 then .error .missingPayload
    else do
      let fs ← unpackFrames version hdr encryptionLevel decrypted.length decrypted
      .ok ⟨encryptionLevel, fs⟩

/-! ## Every round takes a byte -/

theorem ByteOrder.shrinks_readUintN (bo : ByteOrder) (n : ℕ) : Shrinks (bo.readUintN n) := by
  intro bs a bs' h
  obtain ⟨as, -, rfl⟩ := exists_of_run_readUintNFrom h
  rw [List.length_append]
  omega

theorem ByteOrder.shrinks_readUfloat16 (bo : ByteOrder) : Shrinks bo.readUfloat16 :=
  (bo.shrinks_readUintN 2).bind fun _ => .pure _

theorem shrinks_readByteIf (present : Bool) : Shrinks (readByteIf present) := by
  cases present
  · exact .pure _
  · exact .readByte _

theorem shrinks_parseBlocks (bo : ByteOrder) (deltaLen n : ℕ) (st : BlockState) :
    Shrinks (parseBlocks bo deltaLen n st) := by
  induction n generalizing st with
  | zero => exact .pure st
  | succ n ih => exact (Shrinks.readByte _).bind fun _ => (bo.shrinks_readUintN _).bind fun _ => ih _

theorem shrinks_parseAckSection (bo : ByteOrder) (deltaLen : ℕ) (hasMissingRanges : Bool)
    (numAckBlocks largestAcked : ℕ) :
    Shrinks (parseAckSection bo deltaLen hasMissingRanges numAckBlocks largestAcked) := by
  refine (bo.shrinks_readUintN _).bind fun _ => .ite (.throw _) (.ite (.throw _) ?_)
  have hend : ∀ frame : AckedPackets, Shrinks
      (if frame.validateAckRanges then pure frame
        else throw .errInvalidAckRanges : WireReader AckedPackets) :=
    fun _ => .ite (.pure _) (.throw _)
  refine .ite ((shrinks_parseBlocks bo _ _ _).bind fun st => ?_)
    ((Shrinks.pure _).bind fun _ => hend _)
  split
  · exact (Shrinks.throw _).bind fun _ => hend _
  · exact (Shrinks.pure _).bind fun _ => hend _

theorem shrinks_skipTimestamps (bo : ByteOrder) (n : ℕ) : Shrinks (skipTimestamps bo n) := by
  induction n with
  | zero => exact .pure ()
  | succ n ih => exact (Shrinks.readByte _).bind fun _ => (bo.shrinks_readUintN _).bind fun _ => ih

theorem length_lt_of_parseAckFrame {version : VersionNumber} {bs rest : List UInt8} {f : AckFrame}
    (h : (parseAckFrame version).run bs = .ok (f, rest)) : rest.length < bs.length := by
  refine length_lt_of_readByte_bind (fun typeByte => ?_) h
  refine (shrinks_readByteIf _).bind fun _ => ((getByteOrder version).shrinks_readUintN _).bind
    fun _ => ((getByteOrder version).shrinks_readUfloat16).bind fun _ =>
      (shrinks_readByteIf _).bind fun _ => .ite (.throw _) ?_
  refine (shrinks_parseAckSection _ _ _ _ _).bind fun _ => (Shrinks.readByte _).bind fun _ => ?_
  refine .ite ?_ (.pure _)
  exact (Shrinks.readByte _).bind fun _ => ((getByteOrder version).shrinks_readUintN _).bind
    fun _ => (shrinks_skipTimestamps _ _).bind fun _ => .pure _

theorem length_lt_of_parseClosePathFrame {version : VersionNumber} {bs rest : List UInt8}
    {f : ClosePathFrame} (h : (parseClosePathFrame version).run bs = .ok (f, rest)) :
    rest.length < bs.length := by
  refine length_lt_of_readByte_bind (fun _ => ?_) h
  refine (Shrinks.readByte _).bind fun _ => (Shrinks.readByte _).bind fun _ =>
    (shrinks_readByteIf _).bind fun _ => .ite (.throw _) ?_
  exact ((getByteOrder version).shrinks_readUintN _).bind fun _ =>
    (shrinks_parseAckSection _ _ _ _ _).bind fun _ => .pure _

theorem length_lt_of_parseStreamFrame {version : VersionNumber} {bs rest : List UInt8}
    {f : StreamFrame} (h : (parseStreamFrame version).run bs = .ok (f, rest)) :
    rest.length < bs.length := by
  refine length_lt_of_readByte_bind (fun _ => ?_) h
  refine ((getByteOrder version).shrinks_readUintN _).bind fun _ =>
    ((getByteOrder version).shrinks_readUintN _).bind fun _ => Shrinks.bind ?_ fun _ =>
      .ite (.throw _) (Shrinks.bind ?_ fun _ => .ite (.throw _) (.ite (.throw _) (.pure _)))
  · exact .ite ((getByteOrder version).shrinks_readUintN _) (.pure _)
  · exact Shrinks.remaining.bind fun _ => .ite (.readFull _ _ _) (.pure _)

theorem shrinks_readReasonPhrase (bo : ByteOrder) : Shrinks (readReasonPhrase bo) :=
  (bo.shrinks_readUintN 2).bind fun _ => .ite (.throw _) (.readFull _ _ _)

theorem shrinks_readIP (ipVersion : UInt8) : Shrinks (readIP ipVersion) :=
  .ite ((Shrinks.readBytes _ _).bind fun _ => .pure _) (.ite (.readBytes _ _) (.throw _))

theorem shrinks_readPaths (bo : ByteOrder) (n : ℕ) : Shrinks (readPaths bo n) := by
  induction n with
  | zero => exact .pure []
  | succ n ih =>
    exact (Shrinks.readByte _).bind fun _ => bo.shrinks_readUfloat16.bind fun _ => ih.bind fun _ =>
      .pure _

/-- A frame whose parser takes a byte takes a byte. -/
theorem length_lt_of_parsed {α : Type} {r : WireReader α} {frame : α → Frame}
    {wrap : WireError → UnpackError} {bs rest : List UInt8} {f : Frame}
    (hr : ∀ a rest, r.run bs = .ok (a, rest) → rest.length < bs.length)
    (h : parsed r frame wrap bs = .ok (f, rest)) : rest.length < bs.length := by
  unfold parsed at h
  split at h
  · next a _ hrun =>
    cases h
    exact hr a rest hrun
  · cases h

/-- **Every round takes a byte.** -/
theorem length_lt_of_unpackFrame {version : VersionNumber} {hdr : PublicHeader}
    {level : EncryptionLevel} {typeByte : UInt8} {bs rest : List UInt8} {f : Frame}
    (h : unpackFrame version hdr level typeByte bs = .ok (f, rest)) : rest.length < bs.length := by
  have hn := (getByteOrder version).shrinks_readUintN
  unfold unpackFrame at h
  split_ifs at h
  · unfold unpackStreamFrame at h
    split at h
    · cases h
    · next frame rest' hrun =>
      split_ifs at h
      cases h
      exact length_lt_of_parseStreamFrame hrun
  · exact length_lt_of_parsed (fun _ _ => length_lt_of_parseAckFrame) h
  · split at h
    · refine length_lt_of_parsed (fun _ _ => length_lt_of_readByte_bind fun _ => ?_) h
      exact (hn _).bind fun _ => (hn _).bind fun _ => (hn _).bind fun _ => .pure _
    · refine length_lt_of_parsed (fun _ _ => length_lt_of_readByte_bind fun _ => ?_) h
      exact (hn _).bind fun _ => (shrinks_readReasonPhrase _).bind fun _ => .pure _
    · refine length_lt_of_parsed (fun _ _ => length_lt_of_readByte_bind fun _ => ?_) h
      exact (hn _).bind fun _ => (hn _).bind fun _ => (shrinks_readReasonPhrase _).bind fun _ =>
        .pure _
    · refine length_lt_of_parsed (fun _ _ => length_lt_of_readByte_bind fun _ => ?_) h
      exact (hn _).bind fun _ => (hn _).bind fun _ => .pure _
    · refine length_lt_of_parsed (fun _ _ => length_lt_of_readByte_bind fun _ => ?_) h
      exact (hn _).bind fun _ => .pure _
    · refine length_lt_of_parsed (fun _ _ => length_lt_of_readByte_bind fun _ => ?_) h
      exact (hn _).bind fun _ => .ite (.throw _) (.pure _)
    · exact length_lt_of_parsed (fun _ _ => length_lt_of_readByte_bind fun _ => .pure _) h
    · refine length_lt_of_parsed (fun _ _ => length_lt_of_readByte_bind fun _ => ?_) h
      exact (Shrinks.readByte _).bind fun _ => (shrinks_readIP _).bind fun _ => (hn _).bind fun _ =>
        .pure _
    · exact length_lt_of_parsed (fun _ _ => length_lt_of_parseClosePathFrame) h
    · refine length_lt_of_parsed (fun _ _ => length_lt_of_readByte_bind fun _ => ?_) h
      exact (Shrinks.readByte _).bind fun _ => (Shrinks.readByte _).bind fun _ =>
        .ite (.throw _) ((shrinks_readPaths _ _).bind fun _ => .pure _)
    · cases h

theorem parsed_ne_outOfRounds {α : Type} (r : WireReader α) (frame : α → Frame)
    {wrap : WireError → UnpackError} (hwrap : ∀ err, wrap err ≠ .outOfRounds) (bs : List UInt8) :
    parsed r frame wrap bs ≠ .error .outOfRounds := by
  unfold parsed
  split
  · exact nofun
  · next err _ => exact fun h => hwrap err (Except.error.inj h)

theorem unpackFrame_ne_outOfRounds (version : VersionNumber) (hdr : PublicHeader)
    (level : EncryptionLevel) (typeByte : UInt8) (bs : List UInt8) :
    unpackFrame version hdr level typeByte bs ≠ .error .outOfRounds := by
  unfold unpackFrame
  split_ifs
  · unfold unpackStreamFrame
    split
    · exact nofun
    · split_ifs <;> exact nofun
  · refine parsed_ne_outOfRounds _ _ ?_ bs
    exact fun _ => nofun
  · exact nofun
  · split
    case h_11 => exact nofun
    all_goals
      refine parsed_ne_outOfRounds _ _ ?_ bs
      exact fun _ => nofun

/-- The rounds of `Unpack` are enough. -/
theorem unpackFrames_ne_outOfRounds (version : VersionNumber) (hdr : PublicHeader)
    (level : EncryptionLevel) {rounds : ℕ} {bs : List UInt8} (hle : bs.length ≤ rounds) :
    unpackFrames version hdr level rounds bs ≠ .error .outOfRounds := by
  induction rounds generalizing bs with
  | zero =>
    rw [List.eq_nil_of_length_eq_zero (Nat.le_zero.mp hle)]
    exact nofun
  | succ rounds ih =>
    cases bs with
    | nil => exact nofun
    | cons typeByte bs =>
      rw [List.length_cons] at hle
      rw [unpackFrames]
      split_ifs
      · exact ih (by omega)
      · cases hframe : unpackFrame version hdr level typeByte (typeByte :: bs) with
        | error err =>
          intro h
          cases h
          exact unpackFrame_ne_outOfRounds version hdr level typeByte _ hframe
        | ok p =>
          obtain ⟨frame, rest⟩ := p
          have hlt := length_lt_of_unpackFrame hframe
          rw [List.length_cons] at hlt
          intro h
          cases hrest : unpackFrames version hdr level rounds rest with
          | error err =>
            have heq : (Except.error err : Except UnpackError (List Frame)) =
                .error .outOfRounds := by
              simpa [hrest, bind, Except.bind] using h
            exact ih (by omega) (hrest.trans heq)
          | ok frames => simp [hrest, bind, Except.bind] at h

/-! ## What is accepted -/

/-- Stream IDs have 32 bits, and a PATHS frame has an ID and a round-trip time for each path. -/
def Frame.Accepted : Frame → Prop
  | .stream f => f.streamID < 2 ^ 32
  | .rstStream f => f.streamID < 2 ^ 32
  | .windowUpdate f => f.streamID < 2 ^ 32
  | .paths f => f.pathIDs.length = f.numPaths.toNat ∧ f.remoteRTTs.length = f.numPaths.toNat
  | _ => True

section Accepted

variable {version : VersionNumber} {bs rest : List UInt8}

theorem streamID_lt_of_parseStreamFrame {f : StreamFrame}
    (h : (parseStreamFrame version).run bs = .ok (f, rest)) : f.streamID < 2 ^ 32 := by
  obtain ⟨typeByte, bs₁, -, h⟩ := exists_of_run_bind h
  obtain ⟨sid, bs₂, hsid, h⟩ := exists_of_run_bind h
  obtain ⟨offset, bs₃, -, h⟩ := exists_of_run_bind h
  obtain ⟨dataLen, bs₄, -, h⟩ := exists_of_run_bind h
  have hlen : (typeByte &&& 0x3).toNat + 1 ≤ 4 := by
    have hle : (typeByte &&& 0x3).toNat ≤ 3 := by
      exact Nat.and_le_right
    omega
  have hlt : sid < 2 ^ 32 := by
    have hpow : 256 ^ ((typeByte &&& 0x3).toNat + 1) ≤ 256 ^ 4 :=
      Nat.pow_le_pow_right (by decide) hlen
    exact lt_of_lt_of_le (ByteOrder.lt_of_run_readUintN hsid) hpow
  split_ifs at h
  · cases h
  · obtain ⟨data, bs₅, -, h⟩ := exists_of_run_bind h
    split_ifs at h
    · cases h
    · cases h
    · cases h
      exact hlt

theorem streamID_lt_of_parseRstStreamFrame {f : RstStreamFrame}
    (h : (parseRstStreamFrame version).run bs = .ok (f, rest)) : f.streamID < 2 ^ 32 := by
  obtain ⟨typeByte, bs₁, -, h⟩ := exists_of_run_bind h
  obtain ⟨sid, bs₂, hsid, h⟩ := exists_of_run_bind h
  obtain ⟨byteOffset, bs₃, -, h⟩ := exists_of_run_bind h
  obtain ⟨errorCode, bs₄, -, h⟩ := exists_of_run_bind h
  cases h
  exact ByteOrder.lt_of_run_readUintN hsid

theorem streamID_lt_of_parseWindowUpdateFrame {f : WindowUpdateFrame}
    (h : (parseWindowUpdateFrame version).run bs = .ok (f, rest)) : f.streamID < 2 ^ 32 := by
  obtain ⟨typeByte, bs₁, -, h⟩ := exists_of_run_bind h
  obtain ⟨sid, bs₂, hsid, h⟩ := exists_of_run_bind h
  obtain ⟨byteOffset, bs₃, -, h⟩ := exists_of_run_bind h
  cases h
  exact ByteOrder.lt_of_run_readUintN hsid

theorem length_of_readPaths {bo : ByteOrder} {n : ℕ} {paths : List (PathID × ℤ)}
    (h : (readPaths bo n).run bs = .ok (paths, rest)) : paths.length = n := by
  induction n generalizing bs paths with
  | zero =>
    cases h
    rfl
  | succ n ih =>
    obtain ⟨pathID, bs₁, -, h⟩ := exists_of_run_bind h
    obtain ⟨remoteRTT, bs₂, -, h⟩ := exists_of_run_bind h
    obtain ⟨paths', bs₃, hpaths, h⟩ := exists_of_run_bind h
    cases h
    rw [List.length_cons, ih hpaths]

theorem length_of_parsePathsFrame {f : PathsFrame}
    (h : (parsePathsFrame version).run bs = .ok (f, rest)) :
    f.pathIDs.length = f.numPaths.toNat ∧ f.remoteRTTs.length = f.numPaths.toNat := by
  obtain ⟨typeByte, bs₁, -, h⟩ := exists_of_run_bind h
  obtain ⟨maxNumPaths, bs₂, -, h⟩ := exists_of_run_bind h
  obtain ⟨numPaths, bs₃, -, h⟩ := exists_of_run_bind h
  split_ifs at h
  · cases h
  · obtain ⟨paths, bs₄, hpaths, h⟩ := exists_of_run_bind h
    cases h
    simp [length_of_readPaths hpaths]

/-- A frame is accepted if its parser makes sure of it. -/
theorem accepted_of_parsed {α : Type} {r : WireReader α} {frame : α → Frame}
    {wrap : WireError → UnpackError} {f : Frame}
    (h : parsed r frame wrap bs = .ok (f, rest))
    (hr : ∀ a rest, r.run bs = .ok (a, rest) → (frame a).Accepted) : f.Accepted := by
  unfold parsed at h
  split at h
  · next a _ hrun =>
    cases h
    exact hr a rest hrun
  · cases h

theorem accepted_of_unpackFrame {hdr : PublicHeader} {level : EncryptionLevel} {typeByte : UInt8}
    {f : Frame} (h : unpackFrame version hdr level typeByte bs = .ok (f, rest)) : f.Accepted := by
  unfold unpackFrame at h
  split_ifs at h
  · unfold unpackStreamFrame at h
    split at h
    · cases h
    · next frame rest' hrun =>
      split_ifs at h
      cases h
      exact streamID_lt_of_parseStreamFrame hrun
  · exact accepted_of_parsed h fun _ _ _ => trivial
  · split at h
    · exact accepted_of_parsed h fun _ _ => streamID_lt_of_parseRstStreamFrame
    · exact accepted_of_parsed h fun _ _ _ => trivial
    · exact accepted_of_parsed h fun _ _ _ => trivial
    · exact accepted_of_parsed h fun _ _ => streamID_lt_of_parseWindowUpdateFrame
    · exact accepted_of_parsed h fun _ _ _ => trivial
    · exact accepted_of_parsed h fun _ _ _ => trivial
    · exact accepted_of_parsed h fun _ _ _ => trivial
    · exact accepted_of_parsed h fun _ _ _ => trivial
    · exact accepted_of_parsed h fun _ _ _ => trivial
    · exact accepted_of_parsed h fun _ _ => length_of_parsePathsFrame
    · cases h

theorem accepted_of_unpackFrames {hdr : PublicHeader} {level : EncryptionLevel} {rounds : ℕ}
    {frames : List Frame} (h : unpackFrames version hdr level rounds bs = .ok frames) :
    ∀ f ∈ frames, f.Accepted := by
  induction rounds generalizing bs frames with
  | zero =>
    cases bs with
    | nil =>
      cases h
      exact List.forall_mem_nil _
    | cons typeByte bs => cases h
  | succ rounds ih =>
    cases bs with
    | nil =>
      cases h
      exact List.forall_mem_nil _
    | cons typeByte bs =>
      rw [unpackFrames] at h
      split_ifs at h
      · exact ih h
      · obtain ⟨⟨frame, rest⟩, hframe, h⟩ := exists_of_bind_eq_ok h
        obtain ⟨frames', hframes, h⟩ := exists_of_bind_eq_ok h
        cases h
        exact List.forall_mem_cons.mpr ⟨accepted_of_unpackFrame hframe, ih hframes⟩

/-- **What `Unpack` returns has been accepted by the parsers.** -/
theorem accepted_of_unpack {hdr : PublicHeader}
    {opened : Except String (List UInt8 × EncryptionLevel)} {packet : UnpackedPacket}
    (h : unpack version hdr opened = .ok packet) : ∀ f ∈ packet.frames, f.Accepted := by
  unfold unpack at h
  split at h
  · cases h
  · split_ifs at h
    obtain ⟨frames, hframes, h⟩ := exists_of_bind_eq_ok h
    cases h
    exact accepted_of_unpackFrames hframes

end Accepted

end MultipathQuic
