import MultipathQuic.Session.PacketSize

/-!
# Queued frames

A frame that is queued in the packer should leave its queue with a packet. `PackPacket` treats a
PING frame at the head of the queue on its own, which goes wrong in two ways. With a STOP_WAITING
frame queued, the single PING frame is mistaken for it: the PING frame is gone, and no packet is
returned. With an ACK frame queued, the packet has only the PING frame, but the ACK frame is removed
from its queue.

## Main definitions

* `Conserved`: no queued frame is lost or duplicated
* `LosesFrame`: a PING frame goes before an acknowledgement

## Main results

* `packPacket_conserved_iff`: no frame is lost unless one does
-/

namespace MultipathQuic

open Program

variable {E : Type}

/-- The frames that are queued for a packet on a path. -/
def PacketPacker.queued (p : PacketPacker E) (pathID : PathID) : List Frame :=
  p.controlFrames ++ p.leadingFrames pathID

/-- A frame up to the packet number that a STOP_WAITING frame is given when it is packed. -/
def Frame.unnumbered : Frame → Frame
  | .stopWaiting f => .stopWaiting { f with packetNumber := 0, packetNumberLen := .invalid }
  | frame => frame

/-- BLOCKED frames that come from the framer, after STREAM frames were taken from it. -/
def NewlyBlocked (f : StreamFramer E) (blocked : List BlockedFrame) : Prop :=
  blocked = [] ∨ ∃ maxLen framer fs, f.popStreamFrames maxLen = some (framer, fs) ∧
    blocked = framer.blockedFrameQueue

/-- No queued frame is lost or duplicated. Each of them is in the packet or still queued. The other
frames of the packet are STREAM frames, and the other queued frames are BLOCKED frames of the framer.
Without a packet no control frame and no ACK frame has left its queue. -/
def Conserved (s s' : Packing E) : Except PackError (Option PackedPacket) → Prop
  | .error _ => True
  | .ok none => ∃ blocked framer has,
    s.packer.streamFramer.hasCryptoStreamFrame = some (framer, has) ∧ NewlyBlocked framer blocked ∧
      s'.packer.controlFrames = s.packer.controlFrames ++ blocked.map .blocked ∧
      s'.packer.ackFrame s.path.pathID = s.packer.ackFrame s.path.pathID
  | .ok (some packet) => ∃ (front : List Frame) (fs : List StreamFrame) (blocked : List BlockedFrame)
      (framer : StreamFramer E) (has : Bool),
    s.packer.streamFramer.hasCryptoStreamFrame = some (framer, has) ∧ NewlyBlocked framer blocked ∧
      packet.frames = front ++ fs.map .stream ∧
      ((s.packer.queued s.path.pathID ++ blocked.map Frame.blocked).map Frame.unnumbered).Perm
        ((front ++ s'.packer.queued s.path.pathID).map Frame.unnumbered)

/-! ## Composing a packet -/

/-- What a composed packet has to do with the queues. -/
structure Composes (s s' : Packing E) (frames : List Frame) : Prop where
  stopWaiting : s'.packer.stopWaiting = s.packer.stopWaiting
  ackFrame : s'.packer.ackFrame = s.packer.ackFrame
  path : s'.path = s.path
  frames : ∃ (taken rest : List Frame) (fs : List StreamFrame) (blocked : List BlockedFrame),
    frames = s.packer.leadingFrames s.path.pathID ++ taken ++ fs.map .stream ∧
      s.packer.controlFrames.Perm (taken ++ rest) ∧
      (taken = [] → rest = s.packer.controlFrames) ∧
      NewlyBlocked s.packer.streamFramer blocked ∧
      s'.packer.controlFrames = rest ++ blocked.map .blocked

/-- **A composed packet conserves the frames.** -/
theorem composeNextPacket_composes (s : Packing E) (maxFrameSize : ℕ)
    (canSendStreamFrames : Bool) :
    (composeNextPacket maxFrameSize canSendStreamFrames).Ensures s
      (fun res s' => ∀ frames, res = .ok frames → Composes s s' frames) fun _ => True := by
  unfold composeNextPacket
  simp only [ensures_bind, ensures_get]
  cases totalMinLength (s.packer.leadingFrames s.path.pathID) with
  | error err =>
    intro frames hframes
    cases hframes
  | ok n =>
    obtain ⟨hsplit, -, -⟩ := takeControlFrames_spec maxFrameSize s.packer.controlFrames.reverse n
    simp only [ensures_bind, ensures_modifyPacker]
    generalize takeControlFrames maxFrameSize s.packer.controlFrames.reverse n = taken at *
    have hperm : s.packer.controlFrames.Perm (taken.payloadFrames ++ taken.rest.reverse) := by
      refine (List.reverse_perm _).symm.trans ?_
      rw [← hsplit]
      exact List.Perm.append_left _ (List.reverse_perm _).symm
    have hnil : taken.payloadFrames = [] → taken.rest.reverse = s.packer.controlFrames := by
      intro hnil
      rw [hnil, List.nil_append] at hsplit
      rw [hsplit, List.reverse_reverse]
    cases taken.err with
    | some err =>
      intro frames hframes
      cases hframes
    | none =>
      dsimp only
      split
      · intro frames hframes
        cases hframes
      · cases canSendStreamFrames with
        | false =>
          rintro frames hframes
          cases hframes
          refine ⟨rfl, rfl, rfl, taken.payloadFrames, taken.rest.reverse, [], [], ?_, hperm, hnil,
            Or.inl rfl, ?_⟩
          · rw [List.map_nil, List.append_nil]
          · rw [List.map_nil, List.append_nil]
        | true =>
          simp only [if_true, ensures_bind, ensures_pure, composeStreamFrames, ensures_get,
            ensures_ofOption, ensures_modifyPacker]
          refine ⟨?_, fun _ => trivial⟩
          rintro ⟨framer, fs⟩ hpop frames hframes
          cases hframes
          exact ⟨rfl, rfl, rfl, taken.payloadFrames, taken.rest.reverse, omitLastDataLen fs,
            framer.blockedFrameQueue, rfl, hperm, hnil, Or.inr ⟨_, framer, fs, hpop, rfl⟩, rfl⟩

/-! ## Sealing -/

section Pack

variable {s : Packing E} {ctx : PackContext}

/-- A packet with a PING frame is sealed iff it is not too large. -/
theorem sealFrames_ping {ph : PublicHeader} {header : List UInt8}
    (hheader : ph.write s.packer.version s.packer.perspective = .ok header)
    (hnumber : ph.packetNumber = s.path.packetNumberGenerator.peek) (level : EncryptionLevel)
    (sealer : Sealer) :
    (sealFrames ctx ph [.ping] level sealer).Ensures s
      (fun res s' => s'.packer = s.packer ∧
        (header.length + 1 + sealer.overhead ≤ maxPacketSize →
          ∃ packet, res = .ok packet ∧ packet.frames = [.ping]) ∧
        (maxPacketSize < header.length + 1 + sealer.overhead → ∃ err, res = .error err))
      fun _ => False := by
  have hwrite : writeFrames s.packer.version ctx.delay [.ping] = .ok [0x07] := rfl
  by_cases hfits : header.length + 1 + sealer.overhead ≤ maxPacketSize
  · refine (sealFrames_fits hheader hwrite hfits hnumber level).mono ?_ fun _ h => h
    rintro res s' ⟨hpacker, rfl⟩
    exact ⟨hpacker, fun _ => ⟨_, rfl, rfl⟩, fun hlarge => absurd hfits (not_le.mpr hlarge)⟩
  · unfold sealFrames writeAndSealPacket writePayload
    simp only [ensures_bind, ensures_get, hheader, hwrite, ensures_pure, List.length_singleton]
    rw [if_pos (not_le.mp hfits)]
    exact ⟨rfl, fun hfits' => absurd hfits' hfits, fun _ => ⟨_, rfl⟩⟩

/-- A packet of the crypto stream has nothing to do with the queues. -/
theorem packCryptoPacket_conserved {framer : StreamFramer E}
    (hhas : s.packer.streamFramer.hasCryptoStreamFrame = some (framer, true)) :
    (packCryptoPacket ctx).Ensures { s with packer.streamFramer := framer }
      (fun res s' => Conserved s s' (res.map some)) fun _ => True := by
  unfold packCryptoPacket
  simp only [ensures_bind, ensures_get]
  split
  · exact trivial
  · simp only [ensures_bind, ensures_ofOption, ensures_modifyPacker]
    refine ⟨?_, fun _ => trivial⟩
    rintro ⟨framer', frame⟩ -
    refine ⟨?_, fun _ => trivial⟩
    rintro frame -
    refine (sealFrames_frame _ _ _ _).mono ?_ fun _ _ => trivial
    rintro res s' ⟨⟨generator, rfl⟩, hframes⟩
    cases res with
    | error err => exact trivial
    | ok packet =>
      refine ⟨[], [frame], [], framer, true, hhas, Or.inl rfl, hframes packet rfl, ?_⟩
      rw [List.map_nil, List.append_nil, List.nil_append]
      exact List.Perm.refl _

/-! ## Composed packets -/

theorem PacketPacker.length_leadingFrames_pos {p : PacketPacker E} {pathID : PathID}
    (h : (p.stopWaiting pathID).isSome = true) : 1 ≤ (p.leadingFrames pathID).length := by
  obtain ⟨f, hf⟩ := Option.isSome_iff_exists.mp h
  simp [leadingFrames, hf]

/-- What is taken goes behind the frames in front. -/
theorem perm_of_taken {control taken rest : List Frame} (h : control.Perm (taken ++ rest))
    (leading blocked : List Frame) :
    (control ++ leading ++ blocked).Perm (leading ++ taken ++ (rest ++ blocked)) := by
  have hswap : (control ++ leading).Perm (leading ++ (taken ++ rest)) :=
    List.perm_append_comm.trans (h.append_left leading)
  refine (hswap.append_right blocked).trans (List.Perm.of_eq ?_)
  simp only [List.append_assoc]

/-- A packet number does not matter for a STOP_WAITING frame. -/
theorem map_unnumbered_leadingFrames (p : PacketPacker E) (pathID : PathID) (ph : PublicHeader) :
    ((p.numberStopWaiting pathID ph).leadingFrames pathID).map Frame.unnumbered =
      (p.leadingFrames pathID).map Frame.unnumbered := by
  simp only [PacketPacker.leadingFrames, PacketPacker.numberStopWaiting, Function.update_self]
  cases p.stopWaiting pathID <;> rfl

/-- Without a PING frame in front the frames of a packet are composed, and none is lost. -/
theorem packNextPacket_conserved {framer : StreamFramer E}
    (hhas : s.packer.streamFramer.hasCryptoStreamFrame = some (framer, false))
    (hping : s.packer.controlFrames.head? ≠ some .ping) :
    (packNextPacket ctx).Ensures { s with packer.streamFramer := framer }
      (fun res s' => Conserved s s' res) fun _ => True := by
  unfold packNextPacket
  simp only [ensures_bind, ensures_get]
  split
  · exact trivial
  · simp only [ensures_bind, ensures_modifyPacker, nextPayloadFrames, takePing, ensures_get]
    generalize PacketPacker.getPublicHeader _ _ _ _ = ph
    split
    · next rest hcons =>
      change s.packer.controlFrames = .ping :: rest at hcons
      exact absurd (by rw [hcons]; rfl) hping
    · set s₁ : Packing E := ⟨{ s.packer with streamFramer := framer }.numberStopWaiting
        s.path.pathID ph, s.path⟩ with hs₁
      refine (composeNextPacket_composes s₁ _ _).mono ?_ fun _ h => h
      rintro (err | frames) s' hcomposes
      · exact trivial
      · obtain ⟨hstop, hack, hpath, taken, rest, fs, blocked, hframes, hperm, hnil, hblocked,
          hrest⟩ := hcomposes frames rfl
        have hpathID : s'.path.pathID = s.path.pathID := congrArg Path.pathID hpath
        simp only [ensures_bind, ensures_get]
        split
        · next hempty =>
          -- nothing was taken
          have hempty := List.eq_nil_of_length_eq_zero hempty
          rw [hframes, List.append_assoc, List.append_eq_nil_iff, List.append_eq_nil_iff] at hempty
          refine ⟨blocked, framer, false, hhas, hblocked, ?_, ?_⟩
          · rw [hrest, hnil hempty.2.1]
            rfl
          · rw [hack]
            rfl
        · split
          · next hone =>
            -- the only frame is the STOP_WAITING frame
            have htaken : taken = [] := by
              have hsome := hone.2
              rw [hstop, hpath] at hsome
              have hlead := PacketPacker.length_leadingFrames_pos hsome
              have hlen := hone.1
              rw [hframes, List.length_append, List.length_append] at hlen
              exact List.eq_nil_of_length_eq_zero (by omega)
            refine ⟨blocked, framer, false, hhas, hblocked, ?_, ?_⟩
            · rw [hrest, hnil htaken]
              rfl
            · rw [hack]
              rfl
          · simp only [ensures_bind, ensures_modifyPacker, ensures_pure]
            refine (sealFrames_frame _ _ _ _).mono ?_ fun _ _ => trivial
            rintro res s'' ⟨⟨generator, rfl⟩, hpacket⟩
            cases res with
            | error err => exact trivial
            | ok packet =>
              refine ⟨s₁.packer.leadingFrames s.path.pathID ++ taken, fs, blocked, framer, false,
                hhas, hblocked, (hpacket packet rfl).trans hframes, ?_⟩
              have hqueued : (s'.packer.clearAcks s'.path.pathID).queued s.path.pathID =
                  rest ++ blocked.map .blocked := by
                simp [PacketPacker.queued, PacketPacker.clearAcks,
                  PacketPacker.leadingFrames, hpathID, hrest]
              rw [hqueued, PacketPacker.queued]
              simp only [List.map_append]
              rw [hs₁, map_unnumbered_leadingFrames]
              have hmapped := hperm.map Frame.unnumbered
              rw [List.map_append] at hmapped
              exact perm_of_taken hmapped _ _

/-! ## PING packets -/

/-- The length of the header of a packet can always be told. -/
theorem PacketPacker.exists_getLength (p : PacketPacker E) (handshakeComplete : Bool)
    (level : EncryptionLevel) (pth : Path) :
    ∃ n, (p.getPublicHeader handshakeComplete level pth).getLength p.perspective = .ok n := by
  have hlen : getPacketNumberLengthForPublicHeader pth.packetNumberGenerator.peek
      pth.leastUnacked ≠ .invalid := by
    unfold getPacketNumberLengthForPublicHeader
    dsimp only
    split_ifs <;> decide
  -- only a client sets the version flag
  have hserver : ¬ ((p.getPublicHeader handshakeComplete level pth).versionFlag &&
      p.perspective == .server) = true := by
    cases hp : p.perspective <;> simp [getPublicHeader, hp]
  unfold PublicHeader.getLength
  rw [if_neg (by simp [getPublicHeader]), if_neg hserver, if_neg]
  · exact ⟨_, rfl⟩
  · simp [getPublicHeader, hlen]

/-- With a PING frame in front, only this frame is packed. -/
theorem ensures_packNextPacket_ping {rest : List Frame} {level : EncryptionLevel} {sealer : Sealer}
    {ph : PublicHeader} {n : ℕ} (hcons : s.packer.controlFrames = .ping :: rest)
    (hsealer : s.packer.cryptoSetup.getSealer s.packer.perspective = (level, sealer))
    (hph : s.packer.getPublicHeader ctx.handshakeComplete level s.path = ph)
    (hlen : ph.getLength s.packer.perspective = .ok n)
    {Q : Except PackError (Option PackedPacket) → Packing E → Prop} :
    (packNextPacket ctx).Ensures s Q (fun _ => True) ↔
      if (s.packer.stopWaiting s.path.pathID).isSome then
        Q (.ok none)
          ⟨{ s.packer.numberStopWaiting s.path.pathID ph with controlFrames := rest }, s.path⟩
      else
        (sealFrames ctx ph [.ping] level sealer).Ensures
          ⟨{ s.packer.numberStopWaiting s.path.pathID ph with controlFrames := rest }.clearAcks
            s.path.pathID, s.path⟩
          (fun res s' => Q (res.map some) s') fun _ => True := by
  have hqueued : (s.packer.numberStopWaiting s.path.pathID ph).controlFrames = .ping :: rest :=
    hcons
  have hsome : ((s.packer.numberStopWaiting s.path.pathID ph).stopWaiting s.path.pathID).isSome =
      (s.packer.stopWaiting s.path.pathID).isSome := by
    simp [PacketPacker.numberStopWaiting]
  unfold packNextPacket nextPayloadFrames takePing
  simp only [ensures_bind, ensures_get, hsealer, hph, hlen, ensures_modifyPacker, hqueued,
    ensures_pure]
  by_cases hstop : (s.packer.stopWaiting s.path.pathID).isSome = true
  · rw [if_pos hstop, if_neg (by decide), if_pos ⟨rfl, hsome.trans hstop⟩]
    rfl
  · rw [if_neg hstop, if_neg (by decide), if_neg (fun h => hstop (hsome.symm.trans h.2))]
    simp only [ensures_bind, ensures_modifyPacker, ensures_pure]

end Pack

/-- A packet with a PING frame, on a path, is not too large. -/
def PingFits (s : Packing E) (ctx : PackContext) : Prop :=
  ∃ n, (s.packer.getPublicHeader ctx.handshakeComplete
      (s.packer.cryptoSetup.getSealer s.packer.perspective).1 s.path).getLength
        s.packer.perspective = .ok n ∧
    n + 1 + (s.packer.cryptoSetup.getSealer s.packer.perspective).2.overhead ≤ maxPacketSize

theorem pingFits_iff {s : Packing E} {ctx : PackContext} {level : EncryptionLevel} {sealer : Sealer}
    {n : ℕ} (hsealer : s.packer.cryptoSetup.getSealer s.packer.perspective = (level, sealer))
    (hlen : (s.packer.getPublicHeader ctx.handshakeComplete level s.path).getLength
      s.packer.perspective = .ok n) :
    PingFits s ctx ↔ n + 1 + sealer.overhead ≤ maxPacketSize := by
  unfold PingFits
  rw [hsealer]
  refine ⟨?_, fun hle => ⟨n, hlen, hle⟩⟩
  rintro ⟨n', hn', hle⟩
  rw [hlen] at hn'
  cases hn'
  exact hle

/-- A PING frame goes before an acknowledgement: there is no data of the crypto stream, the PING
frame is the first control frame, and a STOP_WAITING frame is queued for the path, or an ACK frame
and the packet is not too large. -/
structure LosesFrame (s : Packing E) (ctx : PackContext) : Prop where
  noCryptoData : s.packer.streamFramer.hasCryptoStreamFrame.map Prod.snd = some false
  ping : s.packer.controlFrames.head? = some .ping
  queued : (s.packer.stopWaiting s.path.pathID).isSome = true ∨
    (s.packer.ackFrame s.path.pathID).isSome = true ∧ PingFits s ctx

/-- With a PING frame in front, no frame is lost iff there is no STOP_WAITING frame and no packet
drops an ACK frame. -/
theorem packNextPacket_ping_iff {s : Packing E} {ctx : PackContext} {framer : StreamFramer E}
    {rest : List Frame}
    (hhas : s.packer.streamFramer.hasCryptoStreamFrame = some (framer, false))
    (hcons : s.packer.controlFrames = .ping :: rest) :
    (packNextPacket ctx).Ensures { s with packer.streamFramer := framer }
        (fun res s' => Conserved s s' res) (fun _ => True) ↔
      ¬ ((s.packer.stopWaiting s.path.pathID).isSome = true ∨
        (s.packer.ackFrame s.path.pathID).isSome = true ∧ PingFits s ctx) := by
  have hnonce := s.packer.getPublicHeader_nonce ctx.handshakeComplete s.path
  obtain ⟨level, sealer, hsealer⟩ : ∃ level sealer,
      s.packer.cryptoSetup.getSealer s.packer.perspective = (level, sealer) := ⟨_, _, rfl⟩
  rw [hsealer] at hnonce
  obtain ⟨n, hlen⟩ := s.packer.exists_getLength ctx.handshakeComplete level s.path
  have hroom := pingFits_iff hsealer hlen
  obtain ⟨header, hheader⟩ := PublicHeader.exists_write hlen hnonce s.packer.version
  rw [← PublicHeader.getLength_of_write hlen hheader] at hroom
  have hnumber : (s.packer.getPublicHeader ctx.handshakeComplete level s.path).packetNumber =
      s.path.packetNumberGenerator.peek := rfl
  obtain ⟨ph, hph⟩ : ∃ ph, s.packer.getPublicHeader ctx.handshakeComplete level s.path = ph :=
    ⟨_, rfl⟩
  rw [hph] at hlen hheader hnumber
  rw [ensures_packNextPacket_ping (s := { s with packer.streamFramer := framer }) hcons hsealer hph
    hlen]
  by_cases hstop : (s.packer.stopWaiting s.path.pathID).isSome = true
  · -- the PING frame is taken for the STOP_WAITING frame, and lost
    rw [if_pos hstop]
    refine iff_of_false ?_ (not_not_intro (Or.inl hstop))
    rintro ⟨blocked, -, -, -, -, hcontrol, -⟩
    have hlength := congrArg List.length hcontrol
    rw [hcons, List.length_append, List.length_cons] at hlength
    dsimp only at hlength
    omega
  · rw [if_neg hstop]
    have hnone : s.packer.stopWaiting s.path.pathID = none := by
      rwa [Option.not_isSome_iff_eq_none] at hstop
    set packer := { ({ s with packer.streamFramer := framer } : Packing E).packer.numberStopWaiting
      s.path.pathID ph with controlFrames := rest }.clearAcks s.path.pathID with hpacker
    have hqueued : packer.queued s.path.pathID = rest := by
      simp [hpacker, PacketPacker.queued, PacketPacker.clearAcks, PacketPacker.leadingFrames]
    obtain ⟨res, s', hexec, hsame, hsealed, hlarge⟩ :=
      (sealFrames_ping (s := ⟨packer, s.path⟩) hheader hnumber level sealer).exists_exec
    rw [ensures_of_exec hexec]
    by_cases hle : header.length + 1 + sealer.overhead ≤ maxPacketSize
    · obtain ⟨packet, rfl, hframes⟩ := hsealed hle
      cases hack : s.packer.ackFrame s.path.pathID with
      | some ack =>
        -- the packet has only the PING frame, and the ACK frame is no longer queued
        refine iff_of_false ?_ (not_not_intro (Or.inr ⟨rfl, hroom.mpr hle⟩))
        rintro ⟨front, fs, blocked, -, -, -, -, heq, hperm⟩
        have hfront := congrArg List.length (hframes.symm.trans heq)
        have hlength := hperm.length_eq
        rw [hsame, hqueued, PacketPacker.queued, PacketPacker.leadingFrames, hcons, hack] at hlength
        simp only [List.length_map, List.length_append, List.length_cons, Option.toList_some,
          List.length_nil] at hlength hfront
        omega
      | none =>
        refine iff_of_true ⟨[.ping], [], [], framer, false, hhas, Or.inl rfl, hframes, ?_⟩ ?_
        · rw [hsame, hqueued, PacketPacker.queued, PacketPacker.leadingFrames, hcons, hack, hnone]
          simp
        · rintro (hsome | ⟨hsome, -⟩)
          · exact hstop hsome
          · cases hsome
    · obtain ⟨err, rfl⟩ := hlarge (not_le.mp hle)
      refine iff_of_true trivial ?_
      rintro (hsome | ⟨-, hping⟩)
      · exact hstop hsome
      · exact hle (hroom.mp hping)

/-- **No queued frame is lost or duplicated by `PackPacket`**, unless a PING frame goes before an
acknowledgement. Then a frame is lost. -/
theorem packPacket_conserved_iff (s : Packing E) (ctx : PackContext) :
    (packPacket ctx).Ensures s (fun res s' => Conserved s s' res) (fun _ => True) ↔
      ¬ LosesFrame s ctx := by
  rw [ensures_packPacket]
  constructor
  · rintro ⟨-, hnext⟩ ⟨hcrypto, hping, hqueued⟩
    obtain ⟨⟨framer, has⟩, hhas, rfl⟩ := Option.map_eq_some_iff.mp hcrypto
    obtain ⟨rest, hcons⟩ := List.head?_eq_some_iff.mp hping
    exact (packNextPacket_ping_iff hhas hcons).mp (hnext framer hhas) hqueued
  · intro hkeeps
    refine ⟨fun framer hhas => packCryptoPacket_conserved hhas, fun framer hhas => ?_⟩
    by_cases hping : s.packer.controlFrames.head? = some .ping
    · obtain ⟨rest, hcons⟩ := List.head?_eq_some_iff.mp hping
      refine (packNextPacket_ping_iff hhas hcons).mpr fun hqueued => hkeeps ⟨?_, hping, hqueued⟩
      rw [hhas]
      rfl
    · exact packNextPacket_conserved hhas hping

/-- A PING frame is queued, and maybe a STOP_WAITING or an ACK frame. -/
def pingQueued (stopWaiting : Option StopWaitingFrame) (ack : Option AckFrame) : Packing Unit :=
  { manyRangesQueued with
    packer.controlFrames := [.ping]
    packer.stopWaiting := fun _ => stopWaiting
    packer.ackFrame := fun _ => ack }

/-- The PING frame is lost if a STOP_WAITING frame is queued, and the ACK frame is lost without
one. -/
theorem pingQueued_losesFrames :
    (((packPacket ⟨true, fun _ => 0, none⟩).exec (pingQueued (some ⟨1, .invalid, 0⟩) none)).1 =
        some (.ok none) ∧
      ((packPacket ⟨true, fun _ => 0, none⟩).exec
        (pingQueued (some ⟨1, .invalid, 0⟩) none)).2.packer.controlFrames = [] ∧
      ¬ (packPacket ⟨true, fun _ => 0, none⟩).Ensures (pingQueued (some ⟨1, .invalid, 0⟩) none)
        (fun res s' => Conserved (pingQueued (some ⟨1, .invalid, 0⟩) none) s' res)
        fun _ => True) ∧
    ¬ (packPacket ⟨true, fun _ => 0, none⟩).Ensures (pingQueued none (some manyRanges))
      (fun res s' => Conserved (pingQueued none (some manyRanges)) s' res) fun _ => True := by
  have hcrypto : (pingQueued none none).packer.streamFramer.hasCryptoStreamFrame.map Prod.snd =
      some false := by
    decide +kernel
  obtain ⟨⟨framer, has⟩, hhas, rfl⟩ := Option.map_eq_some_iff.mp hcrypto
  refine ⟨⟨by decide +kernel, by decide +kernel, fun h => ?_⟩, fun h => ?_⟩
  · exact (packNextPacket_ping_iff (s := pingQueued (some ⟨1, .invalid, 0⟩) none) hhas rfl).mp
      ((ensures_packPacket.mp h).2 framer hhas) (Or.inl rfl)
  · refine (packNextPacket_ping_iff (s := pingQueued none (some manyRanges)) hhas rfl).mp
      ((ensures_packPacket.mp h).2 framer hhas) (Or.inr ⟨rfl, ?_⟩)
    exact ⟨12, by decide +kernel, by decide⟩

end MultipathQuic
