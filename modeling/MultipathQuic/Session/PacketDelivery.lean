import MultipathQuic.Session.PacketProtection
import MultipathQuic.Session.PacketSize
import MultipathQuic.Wire.HeaderRoundTrip
import MultipathQuic.Wire.PacketRoundTrip

/-!
# Packets on their way

What one party packs, the other one reads: the public header is parsed again, the packet number is
inferred from the bytes that were sent of it, the AEAD of the peer opens the payload, for which it needs
the whole number and the bytes of the header, and `Unpack` finds the frames.

## Main definitions

* `readPacket`: the way of a packet from the bytes that arrive to its frames
* `PacketPacker.Configured`: the fields of a packer that its headers depend on are such as they should be

## Main results

* `PacketPacker.parse_header`: the headers of a packer are read back
* `packet_delivered`: the peer reads the frames that were packed
-/

namespace MultipathQuic

open ByteCodec

/-! ## Reading a packet -/

/-- The errors of a party that reads a packet. -/
inductive ReadPacketError
  | header (err : ParseHeaderError)
  | unpack (err : UnpackError)

/-- What is done with a packet that arrives, up to its frames: `handlePacket` of the client or the server
parses the public header, and `handlePacketImpl` of the path infers the packet number and unpacks the rest.
`opened` is `Open` of the crypto setup. -/
def readPacket (packetSentBy : Perspective) (version : VersionNumber)
    (opened : (packetNumber : ℕ) → (associatedData data : List UInt8) →
      Except String (List UInt8 × EncryptionLevel))
    (largestRcvdPacketNumber : ℕ) (packet : List UInt8) :
    Except ReadPacketError (PublicHeader × UnpackedPacket) :=
  match (parsePublicHeader packetSentBy version).run packet with
  | .error err => .error (.header err)
  | .ok ((hdr, _), data) =>
    let raw := packet.take (packet.length - data.length)
    let hdr := { hdr with
      packetNumber :=
        inferPacketNumber hdr.packetNumberLen largestRcvdPacketNumber hdr.packetNumber }
    match unpack version hdr (opened hdr.packetNumber raw data) with
    | .error err => .error (.unpack err)
    | .ok packet => .ok (hdr, packet)

/-- `Open` of a crypto setup whose AEAD of this level opens the packet. -/
def AeadAESGCM12.opened (aead : AeadAESGCM12) (level : EncryptionLevel) (packetNumber : ℕ)
    (associatedData data : List UInt8) : Except String (List UInt8 × EncryptionLevel) :=
  match aead.openBytes packetNumber associatedData data with
  | none => .error "cipher: message authentication failed"
  | some payload => .ok (payload, level)

/-! ## The headers of a packer -/

variable {E : Type}

/-- The connection ID is set, only a server leaves it out, the version is a known one, and a nonce for the
diversification of the keys has its length. -/
structure PacketPacker.Configured (p : PacketPacker E) : Prop where
  connectionID : p.connectionID ≠ 0
  truncate : p.truncateConnectionID = true → p.perspective = .server
  version : 0 ≤ p.version ∧ p.version < 1000
  nonce : p.cryptoSetup.diversificationNonce = [] ∨ p.cryptoSetup.diversificationNonce.length = 32

/-- The headers of a packer are such as its peer expects them. -/
theorem PacketPacker.regular_getPublicHeader {p : PacketPacker E} (h : p.Configured)
    (handshakeComplete : Bool) (encLevel : EncryptionLevel) (pth : Path) :
    (p.getPublicHeader handshakeComplete encLevel pth).Regular p.version p.perspective where
  resetFlag := rfl
  connectionID := h.connectionID
  truncate := by
    dsimp only [PacketPacker.getPublicHeader]
    split_ifs
    · exact fun hfalse => absurd hfalse (by decide)
    · exact h.truncate
  sendsVersion := by
    intro hflag
    have hclient := of_decide_eq_true hflag
    exact ⟨hclient.1, if_pos hclient, h.version⟩
  noVersion := by
    refine fun hflag => ⟨if_neg (of_decide_eq_false hflag), fun hunknown => ?_⟩
    exact absurd (hunknown ▸ h.version.1) (by decide)
  nonce := by
    dsimp only [PacketPacker.getPublicHeader]
    split_ifs with hserver
    · exact h.nonce.imp_right fun hlen => ⟨hlen, hserver.1⟩
    · exact Or.inl rfl
  pathID := fun hflag => if_neg (of_decide_eq_false hflag)
  packetNumberLen := by
    dsimp only [PacketPacker.getPublicHeader, getPacketNumberLengthForPublicHeader]
    split_ifs <;> decide

/-- **The headers of a packer are read back.** Of the packet number there are the bytes that were sent. -/
theorem PacketPacker.parse_header {p : PacketPacker E} (h : p.Configured) {handshakeComplete : Bool}
    {encLevel : EncryptionLevel} {pth : Path} {ph : PublicHeader}
    (hph : p.getPublicHeader handshakeComplete encLevel pth = ph) {header : List UInt8}
    (hheader : ph.write p.version p.perspective = .ok header) (data : List UInt8) :
    (parsePublicHeader p.perspective p.version).run (header ++ data) =
      .ok (({ ph with
        connectionID := if ph.truncateConnectionID then 0 else ph.connectionID
        packetNumber := ph.packetNumber % 2 ^ (8 * ph.packetNumberLen.bytes) }, []), data) := by
  subst hph
  obtain ⟨bytes, hbytes, -, hparse⟩ :=
    (PacketPacker.regular_getPublicHeader h handshakeComplete encLevel pth).parse_write
  cases hheader.symm.trans hbytes
  exact hparse data

/-! ## Delivery -/

/-- The receiver of a path expects a packet number: it has received all that was acknowledged, and the packet
is late by less than 2^15 packets. -/
structure Path.Expects (pth : Path) (largestRcvdPacketNumber : ℕ) : Prop where
  number_lt : pth.packetNumberGenerator.peek < 2 ^ 62
  leastUnacked_le : pth.leastUnacked ≤ pth.packetNumberGenerator.peek
  unacked_lt : pth.packetNumberGenerator.peek - pth.leastUnacked < 2 ^ 47
  received : pth.leastUnacked ≤ largestRcvdPacketNumber + 1
  late : largestRcvdPacketNumber + 1 < pth.packetNumberGenerator.peek + 2 ^ 15

/-- **The peer reads what was packed.** Client and server derive their keys from the same material, with a
cipher whose `Open` inverts `Seal`. A packer that is configured seals frames under its next header; then the
peer, if it expects the packet number, reads the packet number and the frames. The frames must be such as
can be represented, and only the last one may be a STREAM frame without a length. -/
theorem packet_delivered {newGCM : List UInt8 → GCM} (hopens : ∀ key, (newGCM key).OpensSealed)
    (hkdf : HKDF) (m : KeyMaterial) (s : Packing E) (ctx : PackContext) (level : EncryptionLevel)
    (frames : List Frame) (largestRcvdPacketNumber : ℕ) (hpacker : s.packer.Configured)
    {ph : PublicHeader} (hph : s.packer.getPublicHeader ctx.handshakeComplete level s.path = ph)
    (hne : frames ≠ []) (hrep : ∀ frame ∈ frames, frame.Representable ph level)
    (hlast : ∀ frame ∈ frames.dropLast, frame.hasLength = true)
    (hexpects : s.path.Expects largestRcvdPacketNumber) :
    ∃ mine theirs, deriveQuicCryptoAESKeys newGCM hkdf m s.packer.perspective = .ok mine ∧
      deriveQuicCryptoAESKeys newGCM hkdf m s.packer.perspective.other = .ok theirs ∧
      ∀ packet s', (sealFrames ctx ph frames level mine.sealer).exec s = (some (.ok packet), s') →
        ∃ hdr frames', readPacket s.packer.perspective s.packer.version (theirs.opened level)
            largestRcvdPacketNumber packet.raw = .ok (hdr, ⟨level, frames'⟩) ∧
          hdr.packetNumber = packet.number ∧ hdr.pathID = ph.pathID ∧
          List.Forall₂ Frame.Received frames frames' := by
  obtain ⟨mine, theirs, hmine, htheirs, hkeys⟩ :=
    exists_matching_keys hopens hkdf m s.packer.perspective
  refine ⟨mine, theirs, hmine, htheirs, fun packet s' hexec => ?_⟩
  obtain ⟨header, payload, hheader, hpayload, hfits, hnumber, rfl, -⟩ :=
    (Program.ensures_of_exec hexec).mp (sealFrames_sealed ph frames level mine.sealer) packet rfl
  -- the number is inferred from the bytes that were sent of it
  have hinfer : inferPacketNumber ph.packetNumberLen largestRcvdPacketNumber
      (ph.packetNumber % 2 ^ (8 * ph.packetNumberLen.bytes)) = ph.packetNumber := by
    subst hph
    exact inferPacketNumber_of_length hexpects.number_lt hexpects.leastUnacked_le
      hexpects.unacked_lt hexpects.received hexpects.late
  set hdr : PublicHeader :=
    { ph with connectionID := if ph.truncateConnectionID then 0 else ph.connectionID } with hhdr
  have hrep' : ∀ frame ∈ frames, frame.Representable hdr level := by
    intro frame hframe
    have hframe := hrep frame hframe
    cases frame <;> exact hframe
  obtain ⟨frames', hframes', hreceived⟩ :=
    unpack_writeFrames hne hrep' hlast hpayload (by omega)
  refine ⟨hdr, frames', ?_, rfl, rfl, hreceived⟩
  unfold readPacket
  rw [PacketPacker.parse_header hpacker hph hheader]
  dsimp only
  rw [hinfer, List.length_append, Nat.add_sub_cancel, List.take_left', AeadAESGCM12.opened, hkeys]
  · dsimp only
    rw [hframes']
  · rfl

/-- A server is about to send packet 0x12345 on path 1; the client has acknowledged the packets before
0x12340. -/
def longNumberPacking : Packing Unit :=
  { manyRangesQueued with
    path.packetNumberGenerator.next := 0x12345
    path.leastUnacked := 0x12340 }

/-- A window update, and a STREAM frame without a length. -/
def twoFrames : List Frame := [.windowUpdate ⟨5, 70000⟩, .stream ⟨5, false, false, 300, [1, 2, 3]⟩]

/-- Keys without a secret. -/
def publicMaterial : KeyMaterial := ⟨true, [], [], 1, [], [], [], []⟩

/-- The client has received the packets up to 0x12342, and reads packet 0x12345. -/
theorem packet_delivered_longNumber :
    ∃ mine theirs packet hdr frames',
      deriveQuicCryptoAESKeys (fun _ => toyGCM) (fun _ _ _ => UInt8.ofNat) publicMaterial .server =
        .ok mine ∧
      deriveQuicCryptoAESKeys (fun _ => toyGCM) (fun _ _ _ => UInt8.ofNat) publicMaterial .client =
        .ok theirs ∧
      ((sealFrames ⟨true, fun _ => 0, none⟩ (longNumberPacking.packer.getPublicHeader true
        .forwardSecure longNumberPacking.path) twoFrames .forwardSecure mine.sealer).exec
          longNumberPacking).1 = some (.ok packet) ∧
      readPacket .server versionMP (theirs.opened .forwardSecure) 0x12342 packet.raw =
        .ok (hdr, ⟨.forwardSecure, frames'⟩) ∧
      hdr.packetNumber = 0x12345 ∧ List.Forall₂ Frame.Received twoFrames frames' := by
  have hpacker : longNumberPacking.packer.Configured :=
    ⟨by decide, (fun h => by cases h), by decide, Or.inl rfl⟩
  obtain ⟨mine, theirs, hmine, htheirs, hdelivered⟩ := packet_delivered
    (fun _ => opensSealed_toyGCM) (fun _ _ _ => UInt8.ofNat) publicMaterial longNumberPacking
    ⟨true, fun _ => 0, none⟩ .forwardSecure twoFrames 0x12342 hpacker rfl (by decide)
    (by simp [twoFrames, Frame.Representable]; decide) (by decide)
    ⟨by decide, by decide, by decide, by decide, by decide⟩
  obtain ⟨header, hheader, hlength, -⟩ := (PacketPacker.regular_getPublicHeader hpacker true
    .forwardSecure longNumberPacking.path).parse_write
  have hlength' : (longNumberPacking.packer.getPublicHeader true .forwardSecure
      longNumberPacking.path).getLength .server = .ok 12 := by
    decide +kernel
  have hlen : header.length = 12 := Except.ok.inj (hlength.symm.trans hlength')
  have hpayload : writeFrames versionMP (fun _ => 0) twoFrames =
      .ok [0x04, 0, 0, 0, 5, 0, 0, 0, 0, 0, 1, 17, 112, 0x84, 5, 1, 44, 1, 2, 3] := by
    decide +kernel
  have hfits : header.length + 20 + mine.sealer.overhead ≤ maxPacketSize := by
    rw [hlen]
    exact (by decide : 12 + 20 + 12 ≤ maxPacketSize)
  obtain ⟨_, s', hexec, -, rfl⟩ := (@sealFrames_fits Unit longNumberPacking ⟨true, fun _ => 0, none⟩
    _ _ _ _ _ hheader hpayload hfits rfl .forwardSecure).exists_exec
  obtain ⟨hdr, frames', hread, hnumber, -, hreceived⟩ := hdelivered _ s' hexec
  exact ⟨mine, theirs, _, hdr, frames', hmine, htheirs, congrArg Prod.fst hexec, hread, hnumber,
    hreceived⟩

end MultipathQuic
