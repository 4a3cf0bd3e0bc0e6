import MultipathQuic.Wire.FrameLength

/-!
# Headers survive the wire

`ParsePublicHeader` reads back the headers that `getPublicHeader` builds. Flags mean different things
when they come from a client and from a server, and the optional fields are read in another order
than they are written; a client sends no nonce and a server no version, so that it is the same one.

## Main definitions

* `parsePublicHeader`: the parser
* `PublicHeader.Regular`: the headers that are built

## Main results

* `Regular.roundTrip`: they are read back
-/

namespace MultipathQuic

open ByteCodec

/-- `protocol.VersionUnknown`. -/
def versionUnknown : VersionNumber := -2

/-- `protocol.VersionTagToNumber`. -/
def versionTagToNumber (v : ℕ) : VersionNumber :=
  add32 (add32 (sub32 (v >>> 8 &&& 0xff) 0x30 * 100 % 2 ^ 32)
    (sub32 (v >>> 16 &&& 0xff) 0x30 * 10 % 2 ^ 32)) (sub32 (v >>> 24 &&& 0xff) 0x30)

/-- The errors of `ParsePublicHeader`. -/
inductive ParseHeaderError
  | packetWithUnknownVersion
  | receivedTruncatedConnectionID
  | invalidConnectionID
  | invalidVersionNegotiationPacket
  /-- An error of a reader. -/
  | wire (err : WireError)
  deriving DecidableEq, Repr

/-- The text of an error. -/
def ParseHeaderError.text : ParseHeaderError → String
  | .packetWithUnknownVersion =>
    "PublicHeader: Received a packet without version number, that we don't know the version for"
  | .receivedTruncatedConnectionID =>
    "InvalidPacketHeader: receiving packets with truncated ConnectionID is not supported"
  | .invalidConnectionID => "InvalidPacketHeader: connection ID cannot be 0"
  | .invalidVersionNegotiationPacket => "InvalidVersionNegotiationPacket"
  | .wire err => err.text

/-- A reader of headers. -/
abbrev HeaderReader := Reader ParseHeaderError

namespace HeaderReader

/-- A reader of the wire code. -/
def wire {α : Type} (r : WireReader α) : HeaderReader α := fun bs => (r.run bs).mapError .wire

/-- Fails if the header is not acceptable. -/
def reject (err : ParseHeaderError) (bad : Bool) : HeaderReader Unit :=
  if bad then throw err else pure ()

/-- The connection ID, if it is not truncated. -/
def connectionID (truncated : Bool) : HeaderReader UInt64 :=
  if truncated then pure 0
  else do
    let connID ← wire (ByteOrder.littleEndian.readUintN 8)
    reject .invalidConnectionID (connID = 0)
    pure (.ofNat connID)

/-- The diversification nonce, if there is one. -/
def diversificationNonce (present : Bool) : HeaderReader (List UInt8) :=
  if present then readFull (.wire .eof) (.wire .unexpectedEOF) 32 else pure []

/-- The versions of a version negotiation packet. The number of bytes is a multiple of 4. -/
def supportedVersions : ℕ → HeaderReader (List VersionNumber)
  | 0 => pure []
  | n + 1 => do
    let versionTag ← wire (ByteOrder.littleEndian.readUintN 4)
    let versions ← supportedVersions n
    pure (versionTagToNumber versionTag :: versions)

/-- The version of a client, if there is one. -/
def version (present : Bool) : HeaderReader VersionNumber :=
  if present then do
    let versionTag ← wire (ByteOrder.littleEndian.readUintN 4)
    pure (versionTagToNumber versionTag)
  else pure 0

/-- The path ID, if there is one. -/
def pathID (present : Bool) : HeaderReader PathID :=
  if present then readByte (.wire .eof) else pure 0

/-- The packet number, if there is one. -/
def packetNumber (bo : ByteOrder) (present : Bool) (len : PacketNumberLen) : HeaderReader ℕ :=
  if present then wire (bo.readUintN len.bytes) else pure 0

end HeaderReader

/-- What the first byte of a header says. -/
def headerOfFlags (publicFlagByte : UInt8) (packetSentBy : Perspective) : PublicHeader :=
  let header : PublicHeader :=
    { connectionID := 0
      pathID := 0
      versionFlag := publicFlagByte &&& 0x01 > 0
      resetFlag := publicFlagByte &&& 0x02 > 0
      truncateConnectionID := publicFlagByte &&& 0x08 = 0
      multipathFlag := publicFlagByte &&& 0x40 > 0
      packetNumberLen := .invalid
      packetNumber := 0
      versionNumber := 0
      diversificationNonce := [] }
  if header.hasPacketNumber packetSentBy then
    { header with
      packetNumberLen :=
        if publicFlagByte &&& 0x30 = 0x30 then .len6
        else if publicFlagByte &&& 0x30 = 0x20 then .len4
        else if publicFlagByte &&& 0x30 = 0x10 then .len2
        else .len1 }
  else header

/-- The end of `ParsePublicHeader`, after the nonce, for a packet that negotiates the version. -/
def parseVersionNegotiation (header : PublicHeader) :
    HeaderReader (PublicHeader × List VersionNumber) := do
  let len ← remaining
  HeaderReader.reject .invalidVersionNegotiationPacket (len % 4 ≠ 0)
  let versions ← HeaderReader.supportedVersions (len / 4)
  pure (header, versions)

/-- The end of `ParsePublicHeader`, after the nonce, for any other packet. The version of a client
takes the place of the one that was expected. -/
def parseNumbers (header : PublicHeader) (packetSentBy : Perspective) (version : VersionNumber) :
    HeaderReader (PublicHeader × List VersionNumber) := do
  let hasVersion := !header.resetFlag && header.versionFlag
  let versionNumber ← HeaderReader.version hasVersion
  let pathID ← HeaderReader.pathID header.multipathFlag
  let packetNumber ← HeaderReader.packetNumber
    (getByteOrder (if hasVersion then versionNumber else version))
    (header.hasPacketNumber packetSentBy) header.packetNumberLen
  pure ({ header with versionNumber, pathID, packetNumber }, [])

/-- `ParsePublicHeader`: the header, and its `SupportedVersions`. -/
def parsePublicHeader (packetSentBy : Perspective) (version : VersionNumber) :
    HeaderReader (PublicHeader × List VersionNumber) := do
  let publicFlagByte ← readByte (.wire .eof)
  let header := headerOfFlags publicFlagByte packetSentBy
  HeaderReader.reject .packetWithUnknownVersion
    (version == versionUnknown && !(header.versionFlag || header.resetFlag))
  HeaderReader.reject .receivedTruncatedConnectionID
    (header.truncateConnectionID && packetSentBy == .client)
  let connectionID ← HeaderReader.connectionID header.truncateConnectionID
  let diversificationNonce ← HeaderReader.diversificationNonce
    (packetSentBy == .server && publicFlagByte &&& 0x04 > 0 && !header.versionFlag &&
      !header.resetFlag)
  let header := { header with connectionID, diversificationNonce }
  if !header.resetFlag && header.versionFlag && packetSentBy == .server then
    parseVersionNegotiation header
  else parseNumbers header packetSentBy version

/-! ## What is written is read back -/

namespace HeaderReader

variable {r : List UInt8}

theorem run_wire {α : Type} {reader : WireReader α} {bs : List UInt8} {a : α}
    (h : reader.run bs = .ok (a, r)) : (wire reader).run bs = .ok (a, r) :=
  congrArg (Except.mapError ParseHeaderError.wire) h

theorem run_reject (err : ParseHeaderError) {bad : Bool} (h : bad = false) (bs : List UInt8) :
    (reject err bad).run bs = .ok ((), bs) := by
  rw [h]
  rfl

theorem run_connectionID {id : UInt64} (hid : id ≠ 0) (truncated : Bool) :
    (connectionID truncated).run ((if truncated then [] else
      ByteOrder.littleEndian.writeUint64 id.toNat) ++ r) =
        .ok (if truncated then 0 else id, r) := by
  cases truncated with
  | true => rfl
  | false =>
    have hne : id.toNat ≠ 0 := fun h => hid (UInt64.toNat_inj.mp h)
    have hread := run_wire (ByteOrder.littleEndian.run_readUintN_of_lt (w := 8) id.toNat_lt r)
    rw [← ByteOrder.writeUint64_eq] at hread
    dsimp only [connectionID, Bool.false_eq_true, if_false]
    rw [if_neg Bool.false_ne_true, if_neg Bool.false_ne_true, if_neg Bool.false_ne_true,
      run_bind_ok hread, run_bind_ok (run_reject _ (decide_eq_false hne) r), UInt64.ofNat_toNat]
    rfl

end HeaderReader

/-- A version of three digits is read back from its tag. -/
theorem versionTagToNumber_versionNumberToTag {v : VersionNumber} (hv : 0 ≤ v) (hlt : v < 1000) :
    versionTagToNumber (versionNumberToTag v) = v ∧ versionNumberToTag v < 2 ^ 32 := by
  have hall : ∀ n < 1000, versionTagToNumber (versionNumberToTag (n : ℕ)) = (n : ℕ) ∧
      versionNumberToTag (n : ℕ) < 2 ^ 32 := by decide +kernel
  obtain ⟨n, rfl⟩ := Int.eq_ofNat_of_zero_le hv
  exact hall n (Int.ofNat_lt.mp hlt)

namespace PublicHeader

/-- The headers that a packer builds for packets of the version: a client sends the version until the
handshake is complete, a server its nonce, and only a server truncates the connection ID. -/
structure Regular (h : PublicHeader) (version : VersionNumber) (pers : Perspective) : Prop where
  resetFlag : h.resetFlag = false
  connectionID : h.connectionID ≠ 0
  truncate : h.truncateConnectionID = true → pers = .server
  sendsVersion : h.versionFlag = true → pers = .client ∧ h.versionNumber = version ∧ 0 ≤ version ∧
    version < 1000
  noVersion : h.versionFlag = false → h.versionNumber = 0 ∧ version ≠ versionUnknown
  nonce : h.diversificationNonce = [] ∨ h.diversificationNonce.length = 32 ∧ pers = .server
  pathID : h.multipathFlag = false → h.pathID = 0
  packetNumberLen : h.packetNumberLen ∈ [.len2, .len4, .len6]

variable {h : PublicHeader} {version : VersionNumber} {pers : Perspective}

theorem Regular.hasPacketNumber_eq (hr : h.Regular version pers) : h.hasPacketNumber pers = true := by
  unfold hasPacketNumber
  rw [hr.resetFlag]
  cases hv : h.versionFlag with
  | false => rfl
  | true =>
    rw [(hr.sendsVersion hv).1]
    rfl

/-- The parser reads off the first byte what the writer put there. -/
theorem Regular.headerOfFlags_eq (hr : h.Regular version pers) :
    headerOfFlags (h.publicFlagByte pers) pers =
        { h with
          connectionID := 0, pathID := 0, packetNumber := 0, versionNumber := 0
          diversificationNonce := [] } ∧
      decide (h.publicFlagByte pers &&& 0x04 > 0) = decide (h.diversificationNonce.length > 0) := by
  have hall : ∀ v t m : Bool, ∀ len ∈ [PacketNumberLen.len2, .len4, .len6], ∀ nonce ∈ [[], [0]],
      ∀ pers ∈ [Perspective.server, .client], (v = true → pers = .client) →
        let byte := publicFlagByte ⟨0, 0, v, false, t, m, len, 0, 0, nonce⟩ pers
        headerOfFlags byte pers = ⟨0, 0, v, false, t, m, len, 0, 0, []⟩ ∧
          decide (byte &&& 0x04 > 0) = decide (nonce.length > 0) := by decide +kernel
  have hclient : h.versionFlag = true → pers = .client := fun hv => (hr.sendsVersion hv).1
  have hlen := hr.packetNumberLen
  have hreset := hr.resetFlag
  have hpers : pers ∈ [Perspective.server, .client] := by cases pers <;> decide
  obtain ⟨id, path, v, reset, t, m, len, pn, vn, nonce⟩ := h
  subst hreset
  -- only the presence of the nonce matters
  cases nonce with
  | nil => exact hall v t m len hlen [] (by decide) pers hpers hclient
  | cons b bs => exact hall v t m len hlen [0] (by decide) pers hpers hclient

theorem Regular.exists_writePacketNumber (hr : h.Regular version pers) (bo : ByteOrder) :
    ∃ bytes, h.writePacketNumber bo pers = .ok bytes ∧
      ∀ r, (HeaderReader.packetNumber bo true h.packetNumberLen).run (bytes ++ r) =
        .ok (h.packetNumber % 2 ^ (8 * h.packetNumberLen.bytes), r) := by
  have hread : ∀ w n r, (HeaderReader.wire (bo.readUintN w)).run
      (bo.encode w (n % 2 ^ (8 * w)) ++ r) = .ok (n % 2 ^ (8 * w), r) := by
    intro w n r
    rw [two_pow_eight_mul]
    exact HeaderReader.run_wire (bo.run_readUintN_of_lt (Nat.mod_lt _ (by positivity)) r)
  have hcases : h.packetNumberLen = .len2 ∨ h.packetNumberLen = .len4 ∨
      h.packetNumberLen = .len6 := by simpa using hr.packetNumberLen
  unfold writePacketNumber HeaderReader.packetNumber
  rw [if_pos hr.hasPacketNumber_eq, if_pos rfl]
  rcases hcases with hlen | hlen | hlen <;> rw [hlen] <;> dsimp only
  · rw [bo.writeUint16_eq]
    exact ⟨_, rfl, hread 2 _⟩
  · rw [bo.writeUint32_eq]
    exact ⟨_, rfl, hread 4 _⟩
  · have hmask : mask48 h.packetNumber = h.packetNumber % 2 ^ 48 := by
      rw [mask48, Nat.shiftLeft_eq, one_mul, Nat.and_two_pow_sub_one_eq_mod]
    rw [bo.writeUint48_eq (mask48_lt _), hmask]
    exact ⟨_, rfl, hread 6 _⟩

theorem Regular.run_version (hr : h.Regular version pers) (r : List UInt8) :
    (HeaderReader.version h.versionFlag).run ((if h.versionFlag && pers == .client then
      ByteOrder.littleEndian.writeUint32 (versionNumberToTag h.versionNumber) else []) ++ r) =
        .ok (h.versionNumber, r) := by
  cases hv : h.versionFlag with
  | false =>
    rw [(hr.noVersion hv).1]
    rfl
  | true =>
    obtain ⟨hclient, hversion, hnonneg, hlt⟩ := hr.sendsVersion hv
    rw [← hversion] at hnonneg hlt
    obtain ⟨hnumber, htag⟩ := versionTagToNumber_versionNumberToTag hnonneg hlt
    rw [hclient, if_pos (by decide), ByteOrder.writeUint32_eq, HeaderReader.version, if_pos rfl,
      run_bind_ok (HeaderReader.run_wire (ByteOrder.littleEndian.run_readUintN_of_lt htag r)),
      hnumber]
    rfl

theorem Regular.run_pathID (hr : h.Regular version pers) (r : List UInt8) :
    (HeaderReader.pathID h.multipathFlag).run ((if h.multipathFlag then [h.pathID] else []) ++ r) =
      .ok (h.pathID, r) := by
  cases hm : h.multipathFlag with
  | false =>
    rw [hr.pathID hm]
    rfl
  | true => rfl

theorem Regular.run_diversificationNonce (hr : h.Regular version pers) (r : List UInt8) :
    (HeaderReader.diversificationNonce (pers == .server &&
        decide (h.diversificationNonce.length > 0) && !h.versionFlag && !h.resetFlag)).run
      (h.diversificationNonce ++ r) = .ok (h.diversificationNonce, r) := by
  unfold HeaderReader.diversificationNonce
  rcases hr.nonce with hnil | ⟨hlen, hserver⟩
  · rw [hnil]
    simp
    rfl
  · have hv : h.versionFlag = false := by
      refine Bool.eq_false_iff.mpr fun hv => ?_
      have := (hr.sendsVersion hv).1
      rw [hserver] at this
      cases this
    rw [hserver, hlen, hv, hr.resetFlag, if_pos (by decide), ← hlen]
    exact run_readFull_append _ _ _ r

/-- The parser reads back what was written, and that is as long as announced. -/
theorem Regular.parse_write (hr : h.Regular version pers) :
    ∃ bytes, h.write version pers = .ok bytes ∧ h.getLength pers = .ok bytes.length ∧
      ∀ rest, (parsePublicHeader pers version).run (bytes ++ rest) =
        .ok (({ h with
          connectionID := if h.truncateConnectionID then 0 else h.connectionID
          packetNumber := h.packetNumber % 2 ^ (8 * h.packetNumberLen.bytes) }, []), rest) := by
  obtain ⟨number, hnumber, hread⟩ := hr.exists_writePacketNumber (getByteOrder version)
  have hreset := hr.resetFlag
  have hhas := hr.hasPacketNumber_eq
  obtain ⟨hflags, hnonce⟩ := hr.headerOfFlags_eq
  have hwrite : ∃ bytes, h.write version pers = .ok bytes ∧ bytes = h.publicFlagByte pers ::
      ((if h.truncateConnectionID then [] else
        ByteOrder.littleEndian.writeUint64 h.connectionID.toNat) ++
      ((if h.versionFlag && pers == .client then
        ByteOrder.littleEndian.writeUint32 (versionNumberToTag h.versionNumber) else []) ++
      (h.diversificationNonce ++ ((if h.multipathFlag then [h.pathID] else []) ++ number)))) := by
    refine ⟨_, ?_, rfl⟩
    have hlen : h.diversificationNonce.length = 0 ∨ h.diversificationNonce.length = 32 :=
      hr.nonce.imp (fun hnil => by rw [hnil]; rfl) And.left
    unfold write
    rw [hreset, Bool.and_false, if_neg Bool.false_ne_true, if_neg (by omega), hnumber]
    rfl
  obtain ⟨bytes, hw, hbytes⟩ := hwrite
  refine ⟨bytes, hw, ?_, fun rest => ?_⟩
  · have hlen : ∃ len, h.getLength pers = .ok len := by
      have hserver : ¬ (h.versionFlag && pers == .server) = true := by
        intro hbad
        obtain ⟨hv, hs⟩ := Bool.and_eq_true_iff.mp hbad
        rw [(hr.sendsVersion hv).1] at hs
        cases hs
      have hlen : ¬ (h.hasPacketNumber pers && h.packetNumberLen == .invalid) = true := by
        intro hbad
        have hinvalid := eq_of_beq (Bool.and_eq_true_iff.mp hbad).2
        have hmem := hr.packetNumberLen
        rw [hinvalid] at hmem
        revert hmem
        decide
      unfold getLength
      rw [hreset, Bool.and_false, if_neg Bool.false_ne_true, if_neg hserver, if_neg hlen]
      exact ⟨_, rfl⟩
    obtain ⟨len, hlen⟩ := hlen
    rw [getLength_of_write hlen hw]
    exact hlen
  · have hknown : (version == versionUnknown && !(h.versionFlag || h.resetFlag)) = false := by
      cases hv : h.versionFlag with
      | false => rw [beq_false_of_ne (hr.noVersion hv).2, Bool.false_and]
      | true => rw [Bool.true_or, Bool.not_true, Bool.and_false]
    have hclient : (h.truncateConnectionID && pers == .client) = false := by
      cases ht : h.truncateConnectionID with
      | false => rfl
      | true =>
        rw [hr.truncate ht]
        rfl
    have hregular : ¬ (!h.resetFlag && h.versionFlag && pers == .server) = true := by
      intro hbad
      obtain ⟨hv, hs⟩ := Bool.and_eq_true_iff.mp hbad
      rw [(hr.sendsVersion (Bool.and_eq_true_iff.mp hv).2).1] at hs
      cases hs
    -- a nonce comes from a server and a version from a client, so that their order does not matter
    have hswap : ∀ r, (if h.versionFlag && pers == .client then
        ByteOrder.littleEndian.writeUint32 (versionNumberToTag h.versionNumber) else []) ++
          (h.diversificationNonce ++ r) = h.diversificationNonce ++
        ((if h.versionFlag && pers == .client then
          ByteOrder.littleEndian.writeUint32 (versionNumberToTag h.versionNumber) else []) ++ r) := by
      intro r
      rcases hr.nonce with hnil | ⟨-, hserver⟩
      · rw [hnil]
        rfl
      · rw [hserver, if_neg (by simp)]
        rfl
    rw [hbytes, List.cons_append, List.append_assoc, List.append_assoc, List.append_assoc,
      List.append_assoc, parsePublicHeader, run_bind_ok (run_readByte_cons _ _ _)]
    rw [hflags]
    rw [run_bind_ok (HeaderReader.run_reject _ hknown _),
      run_bind_ok (HeaderReader.run_reject _ hclient _),
      run_bind_ok (HeaderReader.run_connectionID hr.connectionID _), hnonce, hswap,
      run_bind_ok (hr.run_diversificationNonce _), if_neg hregular, parseNumbers]
    have hflag : (!h.resetFlag && h.versionFlag) = h.versionFlag := by
      rw [hreset]
      rfl
    rw [hflag, run_bind_ok (hr.run_version _), run_bind_ok (hr.run_pathID _)]
    have hversion : (if h.versionFlag = true then h.versionNumber else version) = version := by
      split
      · next hv => exact (hr.sendsVersion hv).2.1
      · rfl
    rw [hversion]
    have hlast := hread rest
    rw [← hhas] at hlast
    exact run_bind_ok hlast

/-- **A header is read back, and it is as long as announced.** The connection ID is 0 if it was
truncated, and of the packet number there is what was sent. -/
theorem Regular.roundTrip (hr : h.Regular version pers) :
    ∃ bytes, h.write version pers = .ok bytes ∧ h.getLength pers = .ok bytes.length ∧
      ∀ rest, (parsePublicHeader pers version).run (bytes ++ rest) =
        .ok (({ h with
          connectionID := if h.truncateConnectionID then 0 else h.connectionID
          packetNumber := h.packetNumber % 2 ^ (8 * h.packetNumberLen.bytes) }, []), rest) :=
  hr.parse_write

/-- The header of a client's first packets. -/
def firstHeader : PublicHeader where
  connectionID := 0x1337
  pathID := 0
  versionFlag := true
  resetFlag := false
  truncateConnectionID := false
  multipathFlag := false
  packetNumberLen := .len2
  packetNumber := 0x12345
  versionNumber := version39
  diversificationNonce := []

theorem regular_firstHeader : firstHeader.Regular version39 .client where
  resetFlag := rfl
  connectionID := by decide
  truncate := fun hfalse => absurd hfalse (by decide)
  sendsVersion := fun _ => ⟨rfl, rfl, by decide, by decide⟩
  noVersion := fun hfalse => absurd hfalse (by decide)
  nonce := Or.inl rfl
  pathID := fun _ => rfl
  packetNumberLen := by decide

theorem roundTrip_firstHeader :
    ∃ bytes, firstHeader.write version39 .client = .ok bytes ∧
      firstHeader.getLength .client = .ok bytes.length ∧
      ∀ rest, (parsePublicHeader .client version39).run (bytes ++ rest) =
        .ok (({ firstHeader with
          connectionID := if firstHeader.truncateConnectionID then 0 else firstHeader.connectionID
          packetNumber := firstHeader.packetNumber % 2 ^ (8 * firstHeader.packetNumberLen.bytes) },
          []), rest) :=
  regular_firstHeader.roundTrip

end PublicHeader

end MultipathQuic
