import MultipathQuic.Session.PacketPacker
import MultipathQuic.Stream.PoppedLength
import MultipathQuic.Wire.HeaderRoundTrip

/-!
# Packets fit

The packer computes the size of a packet in advance, from `MinLength` of its frames. It assumes that
STOP_WAITING and ACK frames always fit, gives the framer two bytes more than there are, and takes
them back by leaving out the data length of the last STREAM frame. This module shows that the
packets which come out of this fit.

## Main definitions

* `PackedPacket.Fits`: header, frames and overhead fit

## Main results

* `composeNextPacket_fits`: the frames fit
* `packets_fit`: no packet is too large
-/

namespace MultipathQuic

open ByteCodec Program

variable {E : Type}

/-! ## The length of a payload -/

section Payload

variable {version : VersionNumber} {delay : AckFrame → ℕ} {payload : List UInt8}

theorem writeFrames_append {frames frames' : List Frame}
    (h : writeFrames version delay (frames ++ frames') = .ok payload) :
    ∃ bs bs', writeFrames version delay frames = .ok bs ∧
      writeFrames version delay frames' = .ok bs' ∧ payload = bs ++ bs' := by
  induction frames generalizing payload with
  | nil => exact ⟨[], payload, rfl, h, rfl⟩
  | cons frame frames ih =>
    obtain ⟨head, hhead, h⟩ := exists_of_bind_eq_ok h
    obtain ⟨tail, htail, h⟩ := exists_of_bind_eq_ok h
    cases h
    obtain ⟨bs, bs', hbs, hbs', rfl⟩ := ih htail
    refine ⟨head ++ bs, bs', ?_, hbs', (List.append_assoc _ _ _).symm⟩
    rw [writeFrames, hhead, hbs]
    rfl

/-- Frames other than STREAM frames take what was reserved for them. -/
theorem totalMinLength_of_writeFrames {frames : List Frame}
    (hann : ∀ frame ∈ frames, frame.Announced)
    (h : writeFrames version delay frames = .ok payload) :
    totalMinLength frames = .ok payload.length := by
  induction frames generalizing payload with
  | nil =>
    cases h
    rfl
  | cons frame frames ih =>
    obtain ⟨head, hhead, h⟩ := exists_of_bind_eq_ok h
    obtain ⟨tail, htail, h⟩ := exists_of_bind_eq_ok h
    cases h
    obtain ⟨hframe, hframes⟩ := List.forall_mem_cons.mp hann
    rw [totalMinLength, Frame.length_of_write hframe hhead, ih hframes htail, List.length_append]
    rfl

theorem length_of_writeFrames_stream {fs : List StreamFrame}
    (h : writeFrames version delay (fs.map .stream) = .ok payload) :
    payload.length = framesLen fs := by
  induction fs generalizing payload with
  | nil =>
    cases h
    rfl
  | cons f fs ih =>
    obtain ⟨head, hhead, h⟩ := exists_of_bind_eq_ok h
    obtain ⟨tail, htail, h⟩ := exists_of_bind_eq_ok h
    cases h
    rw [List.length_append, StreamFrame.length_of_write hhead, ih htail, framesLen_cons]
    rfl

/-- **The payload has the length that was counted**: what is reserved for the frames in front, and
the STREAM frames. -/
theorem length_of_writeFrames {frames : List Frame} {fs : List StreamFrame} {n : ℕ}
    (hann : ∀ frame ∈ frames, frame.Announced) (hlen : totalMinLength frames = .ok n)
    (h : writeFrames version delay (frames ++ fs.map .stream) = .ok payload) :
    payload.length = n + framesLen fs := by
  obtain ⟨bs, bs', hbs, hbs', rfl⟩ := writeFrames_append h
  have hfront := totalMinLength_of_writeFrames hann hbs
  rw [hlen] at hfront
  cases hfront
  rw [List.length_append, length_of_writeFrames_stream hbs']

theorem totalMinLength_append_iff {frames frames' : List Frame} {n : ℕ} :
    totalMinLength (frames ++ frames') = .ok n ↔
      ∃ n₁ n₂, totalMinLength frames = .ok n₁ ∧ totalMinLength frames' = .ok n₂ ∧ n = n₁ + n₂ := by
  induction frames generalizing n with
  | nil =>
    constructor
    · intro h
      exact ⟨0, n, rfl, h, (Nat.zero_add n).symm⟩
    · rintro ⟨n₁, n₂, h₁, h₂, rfl⟩
      cases h₁
      rw [List.nil_append, h₂, Nat.zero_add]
  | cons frame frames ih =>
    constructor
    · intro h
      obtain ⟨head, hhead, h⟩ := exists_of_bind_eq_ok h
      obtain ⟨tail, htail, h⟩ := exists_of_bind_eq_ok h
      cases h
      obtain ⟨n₁, n₂, h₁, h₂, rfl⟩ := ih.mp htail
      refine ⟨head + n₁, n₂, ?_, h₂, (Nat.add_assoc _ _ _).symm⟩
      rw [totalMinLength, hhead, h₁]
      rfl
    · rintro ⟨n₁, n₂, h₁, h₂, rfl⟩
      obtain ⟨head, hhead, h₁⟩ := exists_of_bind_eq_ok h₁
      obtain ⟨tail, htail, h₁⟩ := exists_of_bind_eq_ok h₁
      cases h₁
      rw [List.cons_append, totalMinLength, hhead, ih.mpr ⟨tail, n₂, htail, h₂, rfl⟩, Nat.add_assoc]
      rfl

end Payload

/-! ## Composing a packet -/

/-- What the loop over the control frames takes is counted, and does not exceed what there is. -/
theorem takeControlFrames_spec (maxFrameSize : ℕ) (frames : List Frame) (n : ℕ) :
    (takeControlFrames maxFrameSize frames n).payloadFrames ++
        (takeControlFrames maxFrameSize frames n).rest = frames ∧
      (∃ k, totalMinLength (takeControlFrames maxFrameSize frames n).payloadFrames = .ok k ∧
        (takeControlFrames maxFrameSize frames n).payloadLength = n + k) ∧
      (n ≤ maxFrameSize → (takeControlFrames maxFrameSize frames n).payloadLength ≤
        maxFrameSize) := by
  induction frames generalizing n with
  | nil => exact ⟨rfl, ⟨0, rfl, rfl⟩, fun h => h⟩
  | cons frame frames ih =>
    rw [takeControlFrames]
    cases hlen : frame.minLength with
    | error err => exact ⟨rfl, ⟨0, rfl, rfl⟩, fun h => h⟩
    | ok minLength =>
      dsimp only
      split
      · exact ⟨rfl, ⟨0, rfl, rfl⟩, fun h => h⟩
      · next hfits =>
        obtain ⟨hsplit, ⟨k, hk, hcount⟩, hle⟩ := ih (n + minLength)
        refine ⟨congrArg (frame :: ·) hsplit, ⟨minLength + k, ?_, ?_⟩, fun _ => hle (by omega)⟩
        · rw [totalMinLength, hlen, hk]
          rfl
        · rw [hcount, Nat.add_assoc]

/-- The frames fit after `payloadLength` bytes, once the last one has lost its data length. -/
theorem framesLen_omitLastDataLen_le {fs : List StreamFrame} {maxLen : ℕ}
    (h : Fit fs (maxLen + 2)) : framesLen (omitLastDataLen fs) ≤ maxLen := by
  rcases fs.eq_nil_or_concat with rfl | ⟨init, f, rfl⟩
  · exact Nat.zero_le _
  · rw [List.concat_eq_append] at h ⊢
    rw [omitLastDataLen, List.getLast?_concat, List.dropLast_concat]
    exact h.omit_last

/-- The errors about the size of a packet. -/
def PackError.tooLarge : PackError → Bool
  | .payloadTooLarge _ _ | .packetTooLarge => true
  | _ => false

/-- There is no error about the size, and the frames take at most `maxSize` bytes, if they can be
written. -/
def Composed (maxSize : ℕ) : Except PackError (List Frame) → Prop
  | .error err => err.tooLarge = false
  | .ok frames => ∀ version delay payload, writeFrames version delay frames = .ok payload →
    payload.length ≤ maxSize

/-- Composing a packet does not change how it is written. -/
def Packing.SameFormat (s s' : Packing E) : Prop :=
  s'.packer.version = s.packer.version ∧ s'.packer.perspective = s.packer.perspective

theorem composeStreamFrames_fits {s : Packing E} {maxFrameSize payloadLength : ℕ}
    (hle : payloadLength ≤ maxFrameSize) :
    (composeStreamFrames maxFrameSize payloadLength).Ensures s
      (fun fs s' => payloadLength + framesLen fs ≤ maxFrameSize ∧ s.SameFormat s')
      fun _ => True := by
  unfold composeStreamFrames
  simp only [ensures_bind, ensures_get, ensures_ofOption, ensures_modifyPacker, ensures_pure]
  refine ⟨?_, fun _ => trivial⟩
  rintro ⟨framer, fs⟩ hpop
  have hfit := StreamFramer.popStreamFrames_fit hpop
  rw [show maxFrameSize + 2 - payloadLength = maxFrameSize - payloadLength + 2 by omega] at hfit
  have hlen := framesLen_omitLastDataLen_le hfit
  exact ⟨by dsimp only; omega, rfl, rfl⟩

theorem PacketPacker.leadingFrames_announced (p : PacketPacker E) (pathID : PathID) :
    ∀ frame ∈ p.leadingFrames pathID, frame.Announced := by
  intro frame hframe
  rcases List.mem_append.mp hframe with hframe | hframe
  · obtain ⟨f, -, rfl⟩ := List.mem_map.mp hframe
    exact trivial
  · obtain ⟨f, -, rfl⟩ := List.mem_map.mp hframe
    exact trivial

/-- **The frames of a packet fit**, if the frames in front do. -/
theorem composeNextPacket_fits {s : Packing E} {maxFrameSize : ℕ}
    (hann : ∀ frame ∈ s.packer.controlFrames, frame.Announced)
    (hlead : ∀ n, totalMinLength (s.packer.leadingFrames s.path.pathID) = .ok n →
      n ≤ maxFrameSize) (canSendStreamFrames : Bool) :
    (composeNextPacket maxFrameSize canSendStreamFrames).Ensures s
      (fun res s' => Composed maxFrameSize res ∧ s.SameFormat s') fun _ => True := by
  unfold composeNextPacket
  simp only [ensures_bind, ensures_get]
  cases hleading : totalMinLength (s.packer.leadingFrames s.path.pathID) with
  | error err => exact ⟨rfl, rfl, rfl⟩
  | ok n =>
    dsimp only
    obtain ⟨hsplit, ⟨k, hk, hcount⟩, hle⟩ :=
      takeControlFrames_spec maxFrameSize s.packer.controlFrames.reverse n
    have hle := hle (hlead n hleading)
    generalize takeControlFrames maxFrameSize s.packer.controlFrames.reverse n = taken at *
    cases taken.err with
    | some err => exact ⟨rfl, rfl, rfl⟩
    | none =>
      rw [if_neg (not_lt.mpr hle)]
      -- the frames in front of the STREAM frames, and what is reserved for them
      set front := s.packer.leadingFrames s.path.pathID ++ taken.payloadFrames with hfront
      have hfrontAnn : ∀ frame ∈ front, frame.Announced := by
        intro frame hframe
        rcases List.mem_append.mp hframe with hframe | hframe
        · exact s.packer.leadingFrames_announced _ frame hframe
        · refine hann frame (List.mem_reverse.mp ?_)
          rw [← hsplit]
          exact List.mem_append_left _ hframe
      have hfrontLen : totalMinLength front = .ok taken.payloadLength := by
        rw [hcount]
        exact totalMinLength_append_iff.mpr ⟨n, k, hleading, hk, rfl⟩
      cases canSendStreamFrames with
      | false =>
        refine ⟨fun version delay payload hwrite => ?_, rfl, rfl⟩
        have hlen := totalMinLength_of_writeFrames hfrontAnn hwrite
        rw [hfrontLen] at hlen
        rw [← Except.ok.inj hlen]
        exact hle
      | true =>
        simp only [if_true, ensures_bind, ensures_pure]
        refine (composeStreamFrames_fits hle).mono ?_ fun _ h => h
        rintro fs s' ⟨hfit, hformat⟩
        refine ⟨fun version delay payload hwrite => ?_, hformat⟩
        rw [length_of_writeFrames hfrontAnn hfrontLen hwrite]
        exact hfit

/-! ## Writing a packet -/

/-- Every sealer makes what it seals longer by `n` bytes. -/
structure CryptoSetup.Overhead (h : CryptoSetup) (n : ℕ) : Prop where
  null : h.nullAEAD.overhead = n
  secure : ∀ aead ∈ h.secureAEAD, aead.overhead = n
  forwardSecure : ∀ aead ∈ h.forwardSecureAEAD, aead.overhead = n

namespace CryptoSetup

variable {h : CryptoSetup} {n : ℕ}

theorem Overhead.getSealer (ho : h.Overhead n) (perspective : Perspective) :
    (h.getSealer perspective).2.overhead = n := by
  unfold CryptoSetup.getSealer
  split
  · next aead hforward => exact ho.forwardSecure aead (by assumption)
  · next aead _ hsecure => exact ho.secure aead (by assumption)
  · exact ho.null

theorem Overhead.getSealerForCryptoStream (ho : h.Overhead n) (perspective : Perspective) :
    (h.getSealerForCryptoStream perspective).2.overhead = n := by
  unfold CryptoSetup.getSealerForCryptoStream
  split
  · next aead hsecure => exact ho.secure aead hsecure
  · exact ho.null

/-- A server does not seal packets other than handshake packets with `secureAEAD`. -/
theorem getSealer_server_ne_secure (h : CryptoSetup) : (h.getSealer .server).1 ≠ .secure := by
  unfold CryptoSetup.getSealer
  split <;> simp_all

end CryptoSetup

/-- The packet consists of a header and its frames, which are written and then sealed, and is not
too large. -/
def PackedPacket.Fits (packet : PackedPacket) (version : VersionNumber) (pers : Perspective)
    (delay : AckFrame → ℕ) (overhead : ℕ) : Prop :=
  ∃ (ph : PublicHeader) (header payload : List UInt8), ph.write version pers = .ok header ∧
    writeFrames version delay packet.frames = .ok payload ∧
    packet.raw.length = header.length + payload.length + overhead ∧
    packet.raw.length ≤ maxPacketSize

/-- There is no error about the size, and a packet fits. -/
def Sized (p : PacketPacker E) (delay : AckFrame → ℕ) (overhead : ℕ) :
    Except PackError PackedPacket → Prop
  | .error err => err.tooLarge = false
  | .ok packet => packet.Fits p.version p.perspective delay overhead

/-- Frames that fit are sealed to a packet that fits. -/
theorem sealFrames_sized {s : Packing E} {ctx : PackContext} {ph : PublicHeader}
    {frames : List Frame} {level : EncryptionLevel} {sealer : Sealer}
    (hfits : ∀ header payload, ph.write s.packer.version s.packer.perspective = .ok header →
      writeFrames s.packer.version ctx.delay frames = .ok payload →
      header.length + payload.length + sealer.overhead ≤ maxPacketSize) :
    (sealFrames ctx ph frames level sealer).Ensures s
      (fun res _ => Sized s.packer ctx.delay sealer.overhead res) fun _ => True := by
  unfold sealFrames writeAndSealPacket writePayload
  simp only [ensures_bind, ensures_get]
  cases hheader : ph.write s.packer.version s.packer.perspective with
  | error err => exact rfl
  | ok header =>
    simp only [ensures_bind, ensures_get]
    cases hpayload : writeFrames s.packer.version ctx.delay frames with
    | error err =>
      dsimp only
      split
      · exact trivial
      · exact rfl
    | ok payload =>
      have hle := hfits header payload hheader hpayload
      simp only [ensures_pure]
      rw [if_neg (not_lt.mpr hle)]
      split
      · exact rfl
      · refine ⟨ph, header, payload, hheader, hpayload, ?_, ?_⟩
        · rw [List.length_append, sealer.length_sealBytes, Nat.add_assoc]
        · change (header ++ sealer.sealBytes ph.packetNumber header payload).length ≤ _
          rw [List.length_append, sealer.length_sealBytes]
          omega

/-! ## Acknowledgements always fit -/

theorem totalMinLength_stopWaiting_le {o : Option StopWaitingFrame} {n : ℕ}
    (h : totalMinLength (o.toList.map .stopWaiting) = .ok n) : n ≤ 7 := by
  cases o with
  | none =>
    cases h
    decide
  | some f =>
    have hlen : f.packetNumberLen.bytes ≤ 6 := by cases f.packetNumberLen <;> decide
    obtain ⟨l, hl, h⟩ := exists_of_bind_eq_ok h
    cases h
    rw [Frame.minLength] at hl
    split at hl <;> cases hl
    omega

theorem totalMinLength_ack_le {o : Option AckFrame} (hack : ∀ ack ∈ o, ack.Below (2 ^ 32)) {n : ℕ}
    (h : totalMinLength (o.toList.map .ack) = .ok n) : n ≤ 1284 := by
  cases o with
  | none =>
    cases h
    decide
  | some ack =>
    cases h
    exact AckFrame.minLength_le (hack ack rfl)

/-- STOP_WAITING and ACK frames leave room in every packet. -/
theorem PacketPacker.leadingFrames_le {p : PacketPacker E} {pathID : PathID}
    (hack : ∀ ack ∈ p.ackFrame pathID, ack.Below (2 ^ 32)) {n : ℕ}
    (h : totalMinLength (p.leadingFrames pathID) = .ok n) : n ≤ 1291 := by
  obtain ⟨n₁, n₂, h₁, h₂, rfl⟩ := totalMinLength_append_iff.mp h
  have hle₁ := totalMinLength_stopWaiting_le h₁
  have hle₂ := totalMinLength_ack_le hack h₂
  omega

/-- Only handshake packets have a nonce. -/
theorem PacketPacker.getPublicHeader_nonce (p : PacketPacker E) (handshakeComplete : Bool)
    (pth : Path) : (p.getPublicHeader handshakeComplete
      (p.cryptoSetup.getSealer p.perspective).1 pth).diversificationNonce = [] := by
  refine if_neg ?_
  rintro ⟨hserver, hsecure⟩
  rw [hserver] at hsecure
  exact p.cryptoSetup.getSealer_server_ne_secure hsecure

/-! ## Packing -/

section Pack

variable {s : Packing E} {ctx : PackContext}

theorem packAckPacket_sized (hoverhead : s.packer.cryptoSetup.Overhead 12)
    (hack : ∀ ack ∈ s.packer.ackFrame s.path.pathID, ack.Below (2 ^ 32)) :
    (packAckPacket ctx).Ensures s (fun res _ => Sized s.packer ctx.delay 12 res)
      fun _ => True := by
  unfold packAckPacket
  simp only [ensures_bind, ensures_get]
  cases hqueued : s.packer.ackFrame s.path.pathID with
  | none => exact rfl
  | some ack =>
    have hsealer := hoverhead.getSealer s.packer.perspective
    have hnonce := s.packer.getPublicHeader_nonce ctx.handshakeComplete s.path
    rw [← hsealer]
    refine sealFrames_sized fun header payload hheader hpayload => ?_
    have hheader := PublicHeader.length_le_of_write hheader
    rw [hnonce] at hheader
    -- the ACK frame, and after it the STOP_WAITING frame
    generalize (s.packer.numberStopWaiting _ _).stopWaiting _ = swf at hpayload
    have hpayload : totalMinLength ([.ack ack] ++ swf.toList.map .stopWaiting) =
        .ok payload.length := totalMinLength_of_writeFrames ?_ hpayload
    · obtain ⟨n₁, n₂, h₁, h₂, hsum⟩ := totalMinLength_append_iff.mp hpayload
      have hle₁ := totalMinLength_ack_le (o := some ack) (fun a ha => hack a (hqueued.trans ha)) h₁
      have hle₂ := totalMinLength_stopWaiting_le h₂
      rw [hsealer, hsum, maxPacketSize]
      simp only [List.length_nil] at hheader
      omega
    · intro frame hframe
      rcases List.mem_cons.mp hframe with rfl | hframe
      · exact trivial
      · obtain ⟨f, -, rfl⟩ := List.mem_map.mp hframe
        exact trivial

theorem packCryptoPacket_sized (hoverhead : s.packer.cryptoSetup.Overhead 12) :
    (packCryptoPacket ctx).Ensures s (fun res _ => Sized s.packer ctx.delay 12 res)
      fun _ => True := by
  unfold packCryptoPacket
  simp only [ensures_bind, ensures_get]
  have hsealer := hoverhead.getSealerForCryptoStream s.packer.perspective
  generalize s.packer.cryptoSetup.getSealerForCryptoStream s.packer.perspective = encLevel at *
  obtain ⟨encLevel, sealer⟩ := encLevel
  generalize s.packer.getPublicHeader ctx.handshakeComplete encLevel s.path = ph
  cases hlen : ph.getLength s.packer.perspective with
  | error err => exact rfl
  | ok len =>
    simp only [ensures_bind, ensures_ofOption, ensures_modifyPacker]
    refine ⟨?_, fun _ => trivial⟩
    rintro ⟨framer, frame⟩ hpop
    refine ⟨?_, fun _ => trivial⟩
    rintro frame rfl
    rw [← hsealer]
    refine sealFrames_sized fun header payload hheader hpayload => ?_
    have hwritten := PublicHeader.getLength_of_write hlen hheader
    have hnonce := PublicHeader.length_nonce_of_write hheader
    have hle := PublicHeader.getLength_le hlen
    have hroom : sub64 (sub64 (sub64 maxPacketSize sealer.overhead)
        nonForwardSecurePacketSizeReduction) len = 1288 - len := by
      have hsub : sub64 1350 12 = 1338 := sub64_of_le (by omega) (by omega)
      rw [hsealer, maxPacketSize, nonForwardSecurePacketSizeReduction, hsub,
        sub64_sub64 (by omega) (by omega)]
    have hfit := StreamFramer.popCryptoStreamFrame_fit (by omega) (by omega) hpop
    have hpayload : payload.length = framesLen [frame] := length_of_writeFrames_stream hpayload
    rw [framesLen_cons, framesLen_nil] at hpayload
    rw [hsealer, maxPacketSize]
    omega

/-- The payload fits, be it a PING frame or composed. -/
theorem nextPayloadFrames_fits {maxSize : ℕ} (hpos : 1 ≤ maxSize)
    (hann : ∀ frame ∈ s.packer.controlFrames, frame.Announced)
    (hlead : ∀ n, totalMinLength (s.packer.leadingFrames s.path.pathID) = .ok n → n ≤ maxSize)
    (canSendData : Bool) :
    (nextPayloadFrames maxSize canSendData).Ensures s
      (fun res s' => Composed maxSize res ∧ s.SameFormat s') fun _ => True := by
  unfold nextPayloadFrames takePing
  simp only [ensures_bind, ensures_get]
  split
  · refine ⟨?_, rfl, rfl⟩
    intro version delay payload hwrite
    cases hwrite
    exact hpos
  · exact composeNextPacket_fits hann hlead canSendData

/-- What `PackPacket` returns: no packet, or one that fits. -/
def SizedOption (p : PacketPacker E) (delay : AckFrame → ℕ) (overhead : ℕ) :
    Except PackError (Option PackedPacket) → Prop
  | .error err => err.tooLarge = false
  | .ok none => True
  | .ok (some packet) => packet.Fits p.version p.perspective delay overhead

theorem Sized.some {p : PacketPacker E} {delay : AckFrame → ℕ} {overhead : ℕ}
    {res : Except PackError PackedPacket} (h : Sized p delay overhead res) :
    SizedOption p delay overhead (res.map Option.some) := by
  cases res <;> exact h

theorem packNextPacket_sized (hoverhead : s.packer.cryptoSetup.Overhead 12)
    (hann : ∀ frame ∈ s.packer.controlFrames, frame.Announced)
    (hack : ∀ ack ∈ s.packer.ackFrame s.path.pathID, ack.Below (2 ^ 32)) :
    (packNextPacket ctx).Ensures s (fun res _ => SizedOption s.packer ctx.delay 12 res)
      fun _ => True := by
  unfold packNextPacket
  simp only [ensures_bind, ensures_get]
  have hsealer := hoverhead.getSealer s.packer.perspective
  have hnonce := s.packer.getPublicHeader_nonce ctx.handshakeComplete s.path
  generalize s.packer.cryptoSetup.getSealer s.packer.perspective = encLevel at *
  obtain ⟨encLevel, sealer⟩ := encLevel
  generalize s.packer.getPublicHeader ctx.handshakeComplete encLevel s.path = ph at *
  cases hlen : ph.getLength s.packer.perspective with
  | error err => exact rfl
  | ok len =>
    have hle := PublicHeader.getLength_le hlen
    rw [hnonce, List.length_nil] at hle
    have hroom : sub64 (sub64 maxPacketSize sealer.overhead) len = 1338 - len := by
      rw [hsealer, maxPacketSize, sub64_sub64 (by omega) (by omega)]
    simp only [ensures_bind, ensures_modifyPacker]
    rw [hroom]
    set s₁ : Packing E := { s with packer := s.packer.numberStopWaiting s.path.pathID ph }
    have hlead : ∀ n, totalMinLength (s₁.packer.leadingFrames s₁.path.pathID) = .ok n →
        n ≤ 1338 - len := by
      intro n hn
      have hle' := PacketPacker.leadingFrames_le (p := s₁.packer) hack hn
      omega
    have hpos : 1 ≤ 1338 - len := by omega
    refine (nextPayloadFrames_fits (s := s₁) hpos hann hlead _).mono ?_ fun _ h => h
    rintro (err | frames) s' ⟨hcomposed, hversion, hperspective⟩
    · exact hcomposed
    · simp only [ensures_bind, ensures_get]
      split
      · exact trivial
      · split
        · exact trivial
        · simp only [ensures_bind, ensures_modifyPacker, ensures_pure]
          rw [← hsealer]
          refine (sealFrames_sized fun header payload hheader hpayload => ?_).mono ?_ fun _ h => h
          · have hwritten : header.length = len :=
              PublicHeader.getLength_of_write (hperspective ▸ hlen) hheader
            have hpayload := hcomposed _ _ _ hpayload
            rw [hsealer, maxPacketSize]
            omega
          · -- the packet is written as it was composed
            intro res _ hres
            cases res with
            | error err => exact hres
            | ok packet =>
              change packet.Fits s'.packer.version s'.packer.perspective ctx.delay
                sealer.overhead at hres
              rw [hversion, hperspective] at hres
              exact hres

end Pack

/-- **No packet is too large**: `PackPacket` and `PackAckPacket` return no error about the size, and
the header, the written frames and the overhead of a packet take at most `maxPacketSize` bytes. The
control frames are any but STREAM frames, a PATHS frame has at most 84 paths, and the ACK frame has
any number of ranges of packet numbers below `2 ^ 32`. -/
theorem packets_fit (s : Packing E) (ctx : PackContext)
    (hoverhead : s.packer.cryptoSetup.Overhead 12)
    (hann : ∀ frame ∈ s.packer.controlFrames, frame.Announced)
    (hack : ∀ ack ∈ s.packer.ackFrame s.path.pathID, ack.Below (2 ^ 32)) :
    (packPacket ctx).Ensures s
        (fun res _ => (∀ err, res = .error err → err.tooLarge = false) ∧
          ∀ packet, res = .ok (some packet) →
            packet.Fits s.packer.version s.packer.perspective ctx.delay 12)
        (fun _ => True) ∧
      (packAckPacket ctx).Ensures s
        (fun res _ => (∀ err, res = .error err → err.tooLarge = false) ∧
          ∀ packet, res = .ok packet →
            packet.Fits s.packer.version s.packer.perspective ctx.delay 12)
        fun _ => True := by
  constructor
  · have hsized : (packPacket ctx).Ensures s
        (fun res _ => SizedOption s.packer ctx.delay 12 res) fun _ => True := by
      refine ensures_packPacket.mpr ⟨fun framer _ => ?_, fun framer _ =>
        packNextPacket_sized hoverhead hann hack⟩
      have hcrypto : (packCryptoPacket ctx).Ensures { s with packer.streamFramer := framer }
          (fun res _ => Sized s.packer ctx.delay 12 res) fun _ => True :=
        packCryptoPacket_sized hoverhead
      exact hcrypto.mono (fun _ _ h => h.some) fun _ h => h
    refine hsized.mono ?_ fun _ h => h
    intro res _ hres
    constructor
    · rintro err rfl
      exact hres
    · rintro packet rfl
      exact hres
  · refine (packAckPacket_sized hoverhead hack).mono ?_ fun _ h => h
    intro res _ hres
    constructor
    · rintro err rfl
      exact hres
    · rintro packet rfl
      exact hres

/-- A sealer that appends twelve bytes. -/
def appendTag : Sealer where
  overhead := 12
  sealBytes _ _ src := src ++ List.replicate 12 0
  length_sealBytes _ _ src := by simp

/-- An ACK frame with 300 ranges of one packet each. -/
def manyRanges : AckFrame where
  largestAcked := 600
  lowestAcked := 2
  ackRanges := (List.range 300).map fun i => ⟨600 - 2 * i, 600 - 2 * i⟩
  pathID := 1
  delayTime := 0

/-- A server has queued frames of every kind for a packet on path 1, and a long frame is to be
retransmitted. -/
def manyRangesQueued : Packing Unit where
  packer :=
    { connectionID := 1
      perspective := .server
      version := versionMP
      cryptoSetup := ⟨appendTag, none, some appendTag, []⟩
      truncateConnectionID := false
      streamFramer :=
        { newStreamFramer (newStreamsMap Unit .server ⟨10, 10, 10, 10, 10, 10, 10, 10⟩ none) with
          retransmissionQueue := [⟨5, true, false, 0, List.replicate 2000 0⟩] }
      controlFrames := [.paths ⟨255, 2, [0, 1], [0, 0]⟩, .blocked ⟨5⟩]
      stopWaiting := fun id => if id = 1 then some ⟨1, .invalid, 0⟩ else none
      ackFrame := fun id => if id = 1 then some manyRanges else none }
  path := Path.setup 1 ⟨[10, 0, 0, 1], 443⟩ ⟨[10, 0, 0, 2], 443⟩ versionMP

/-- The packet is filled to its last byte. -/
theorem manyRangesQueued_fits :
    (∃ res, ((packPacket ⟨true, fun _ => 0, none⟩).exec manyRangesQueued).1 = some res ∧
      res.toOption.join.map (fun packet => packet.raw.length) = some maxPacketSize) ∧
    (packPacket ⟨true, fun _ => 0, none⟩).Ensures manyRangesQueued
      (fun res _ => (∀ err, res = .error err → err.tooLarge = false) ∧
        ∀ packet, res = .ok (some packet) →
          packet.Fits versionMP .server (fun _ => 0) 12)
      fun _ => True := by
  constructor
  · have hsome : ((packPacket ⟨true, fun _ => 0, none⟩).exec manyRangesQueued).1.isSome = true := by
      decide +kernel
    obtain ⟨res, hres⟩ := Option.isSome_iff_exists.mp hsome
    have hlen : (((packPacket ⟨true, fun _ => 0, none⟩).exec manyRangesQueued).1.bind fun res =>
        res.toOption.join.map fun packet => packet.raw.length) = some maxPacketSize := by
      decide +kernel
    rw [hres] at hlen
    exact ⟨res, hres, hlen⟩
  · exact (packets_fit manyRangesQueued ⟨true, fun _ => 0, none⟩
      ⟨rfl, fun _ h => (nomatch h), fun _ h => Option.some.inj h ▸ rfl⟩ (by decide)
      fun _ h => Option.some.inj h ▸ (by decide +kernel : manyRanges.Below (2 ^ 32))).1

end MultipathQuic
