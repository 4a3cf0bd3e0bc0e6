import MultipathQuic.Session.FrameHandling
import MultipathQuic.Stream.StreamLimits
import MultipathQuic.Wire.PacketRoundTrip

/-!
# Frames that crash the session

A handler of a frame that names a path looks the path up first, except for that of an ACK frame. The
handler of an ADD_ADDRESS frame may create paths and send a PING on each of them, for which the packer
asks the framer for data of the crypto stream, which has to be there. Nothing else that a peer sends
makes a handler panic.

## Main definitions

* `Session.Harmless`: the handler of the frame returns

## Main results

* `returns_handleFrame_iff`: one frame
* `handleFrames_returns_iff`: the frames of a packet
-/

namespace MultipathQuic

namespace Session

variable {E : Type}

/-! ## Harmless frames -/

/-- The crypto stream is there, or can be opened. -/
def CryptoStreamThere (s : Session E) : Prop :=
  ∃ m, s.streamsMap.getOrOpenStream 1 = some (m, .ok (some 1))

/-- The handler of an ADD_ADDRESS frame creates a path: between two addresses of the same IP version
there is none. -/
def CreatesPath (s : Session E) (f : AddAddressFrame) : Prop :=
  s.hasPathManager = true ∧ s.createPaths = true ∧ s.pathManager.perspective = .client ∧
    ∃ pm ∈ s.pathManager.addRemoteAddr f,
      ∃ addrs ∈ addressPairs s.localAddrs pm.remoteAddrs4 pm.remoteAddrs6,
        s.pathManager.hasPath addrs.1 addrs.2 = false

/-- An ACK frame names a path that exists, and an ADD_ADDRESS frame that creates a path finds the
crypto stream. -/
def Harmless (s : Session E) : Frame → Prop
  | .ack frame => frame.pathID ∈ s.paths.ids
  | .addAddress frame => s.CreatesPath frame → s.CryptoStreamThere
  | _ => True

end Session

/-! ## Packing a PING -/

section PackPing

variable {E : Type} {s : Packing E} {ctx : PackContext}

theorem error_of_writeFrames_singleton {version : VersionNumber} {delay : AckFrame → ℕ}
    {frame : Frame} {err : WireError} (h : writeFrames version delay [frame] = .error err) :
    frame.write version delay = .error err := by
  rw [writeFrames] at h
  cases hframe : frame.write version delay with
  | error err' =>
    rw [hframe] at h
    exact h
  | ok bytes =>
    rw [hframe] at h
    cases h

/-- A packet with data of the crypto stream. -/
theorem packCryptoPacket_returns (hmem : 1 ∈ s.packer.streamFramer.streamsMap.streams)
    (hdata : (s.packer.streamFramer.streamsMap.stream 1).lenOfDataForWriting > 0) :
    (packCryptoPacket ctx).Ensures s
      (fun _ s' => 1 ∈ s'.packer.streamFramer.streamsMap.streams) fun _ => False := by
  unfold packCryptoPacket
  simp only [Program.ensures_bind, Program.ensures_get]
  split
  · exact hmem
  · simp only [Program.ensures_bind]
    generalize sub64 _ _ = maxLen
    obtain ⟨framer, frame, hpop, hid, hstreams⟩ :=
      StreamFramer.popCryptoStreamFrame_of_mem hmem hdata maxLen
    rw [hpop, Program.ensures_ofOption]
    refine ⟨?_, fun h => by cases h⟩
    rintro _ ⟨⟩
    simp only [ensures_modifyPacker]
    rw [Program.ensures_ofOption]
    refine ⟨?_, fun h => by cases h⟩
    rintro _ ⟨⟩
    refine (sealFrames_frame _ _ _ _).mono ?_ ?_
    · rintro res s' ⟨⟨generator, rfl⟩, -⟩
      rw [hstreams]
      exact hmem
    · rintro s' ⟨err, hwrite, hpanic⟩
      have hlt : frame.streamID < 2 ^ 32 := by
        rw [hid]
        decide
      rw [StreamFrame.error_of_write hlt (error_of_writeFrames_singleton hwrite)] at hpanic
      cases hpanic

/-- A packet with a PING frame, which is the first one in the queue. -/
theorem packNextPacket_ping_returns {rest : List Frame}
    (hcons : s.packer.controlFrames = .ping :: rest) :
    (packNextPacket ctx).Ensures s
      (fun _ s' => s'.packer.streamFramer = s.packer.streamFramer) fun _ => False := by
  unfold packNextPacket
  simp only [Program.ensures_bind, Program.ensures_get]
  split
  · exact rfl
  · next ph n hlen =>
    have hqueued : ∀ ph, (s.packer.numberStopWaiting s.path.pathID ph).controlFrames =
        .ping :: rest := fun _ => hcons
    simp only [Program.ensures_bind, ensures_modifyPacker, nextPayloadFrames, takePing,
      Program.ensures_get, hqueued, Program.ensures_pure]
    split
    · exact rfl
    · split
      · exact rfl
      · simp only [Program.ensures_bind, ensures_modifyPacker]
        refine (sealFrames_frame _ _ _ _).mono ?_ ?_
        · rintro res s' ⟨⟨generator, rfl⟩, -⟩
          exact rfl
        · rintro s' ⟨err, hwrite, -⟩
          cases hwrite

/-- `HasCryptoStreamFrame` leaves the crypto stream in the map, and panics without it. -/
theorem hasCryptoStreamFrame_cases (f : StreamFramer E) :
    (f.hasCryptoStreamFrame = none ∧
      ¬ ∃ m, f.streamsMap.getOrOpenStream 1 = some (m, .ok (some 1))) ∨
    ∃ m, f.streamsMap.getOrOpenStream 1 = some (m, .ok (some 1)) ∧ 1 ∈ m.streams ∧
      f.hasCryptoStreamFrame =
        some ({ f with streamsMap := m }, decide ((m.stream 1).lenOfDataForWriting > 0)) := by
  by_cases h : ∃ m, f.streamsMap.getOrOpenStream 1 = some (m, .ok (some 1))
  · obtain ⟨m, hget⟩ := h
    refine Or.inr ⟨m, hget, StreamsMap.mem_of_getOrOpenStream hget, ?_⟩
    unfold StreamFramer.hasCryptoStreamFrame
    rw [hget]
    rfl
  · refine Or.inl ⟨?_, h⟩
    unfold StreamFramer.hasCryptoStreamFrame
    cases hget : f.streamsMap.getOrOpenStream 1 with
    | none => rfl
    | some r =>
      obtain ⟨m, _ | _ | cs⟩ := r
      · rfl
      · rfl
      · cases StreamsMap.eq_of_getOrOpenStream hget
        exact absurd ⟨m, hget⟩ h

/-- **`PackPing` returns iff the crypto stream is there**, and then it still is. -/
theorem packPing_returns (ctx : PackContext) (s : Packing E) :
    (packPing ctx).Ensures s
      (fun _ s' => (∃ m, s.packer.streamFramer.streamsMap.getOrOpenStream 1 =
        some (m, .ok (some 1))) ∧ 1 ∈ s'.packer.streamFramer.streamsMap.streams)
      fun _ => ¬ ∃ m, s.packer.streamFramer.streamsMap.getOrOpenStream 1 =
        some (m, .ok (some 1)) := by
  unfold packPing packPacket hasCryptoStreamFrame
  simp only [Program.ensures_bind, Program.ensures_modify, Program.ensures_get,
    ensures_modifyPacker, Program.ensures_pure]
  rw [Program.ensures_ofOption]
  rcases hasCryptoStreamFrame_cases s.packer.streamFramer with
    ⟨hnone, hnot⟩ | ⟨m, hget, hmem, hhas⟩
  · rw [hnone]
    exact ⟨fun _ h => (Option.some_ne_none _ h.symm).elim, fun _ => hnot⟩
  · rw [hhas]
    refine ⟨?_, fun h => by cases h⟩
    rintro _ ⟨⟩
    by_cases hdata : (m.stream 1).lenOfDataForWriting > 0
    · rw [decide_eq_true hdata, if_pos rfl, Program.ensures_bind]
      refine (packCryptoPacket_returns ?_ ?_).mono (fun _ s' h => ⟨⟨m, hget⟩, h⟩) fun _ h => h.elim
      · exact hmem
      · exact hdata
    · rw [decide_eq_false hdata, if_neg Bool.false_ne_true]
      refine (packNextPacket_ping_returns rfl).mono (fun _ s' h => ⟨⟨m, hget⟩, ?_⟩) fun _ h => h.elim
      rw [h]
      exact hmem

end PackPing

namespace Session

variable {E : Type} {s : Session E}

/-! ## Creating paths -/

theorem cryptoStreamThere_of_mem (h : 1 ∈ s.streamsMap.streams) : s.CryptoStreamThere :=
  ⟨s.streamsMap, if_pos h⟩

theorem sendPing_returns (id : PathID) (s : Session E) :
    (sendPing id).Ensures s (fun _ s' => s.CryptoStreamThere ∧ s'.CryptoStreamThere)
      fun _ => ¬ s.CryptoStreamThere := by
  unfold sendPing
  rw [Program.ensures_bind, ensures_packing]
  refine (packPing_returns _ _).mono ?_ fun _ h => h
  rintro (err | _ | packet) p ⟨hthere, hmem⟩
  · exact ⟨hthere, cryptoStreamThere_of_mem hmem⟩
  · exact ⟨hthere, cryptoStreamThere_of_mem hmem⟩
  · unfold sendPackedPacket
    simp only [Program.ensures_bind, ensures_choose, Program.ensures_get, ensures_modifyPath]
    split <;> exact ⟨hthere, cryptoStreamThere_of_mem hmem⟩

/-- A path that exists is not created again. -/
theorem exec_createPath_of_hasPath {addrs : UDPAddr × UDPAddr}
    (h : s.pathManager.hasPath addrs.1 addrs.2 = true) :
    (createPath addrs).exec s = (some none, s) := by
  have hcreate : s.pathManager.createPath addrs.1 addrs.2 = (s.pathManager, none) := if_pos h
  unfold createPath
  rw [Program.exec_bind, Program.exec_get]
  dsimp only
  rw [hcreate]
  rfl

/-- A new path needs the crypto stream. -/
theorem createPath_returns {addrs : UDPAddr × UDPAddr}
    (h : s.pathManager.hasPath addrs.1 addrs.2 = false) :
    (createPath addrs).Ensures s (fun _ s' => s.CryptoStreamThere ∧ s'.CryptoStreamThere)
      fun _ => ¬ s.CryptoStreamThere := by
  have hcreate : s.pathManager.createPath addrs.1 addrs.2 = (_, some s.pathManager.nxtPathID) :=
    if_neg (Bool.eq_false_iff.mp h)
  unfold createPath
  rw [Program.ensures_bind, Program.ensures_get, hcreate, Program.ensures_bind, Program.ensures_set]
  exact sendPing_returns _ _

/-- The paths are created, or the crypto stream is missing. -/
theorem returns_untilSome_createPath {pairs : List (UDPAddr × UDPAddr)} {s : Session E} :
    (Program.untilSome createPath pairs).Returns s ↔
      ((∃ addrs ∈ pairs, s.pathManager.hasPath addrs.1 addrs.2 = false) → s.CryptoStreamThere) := by
  induction pairs generalizing s with
  | nil => simp [Program.untilSome, Program.Returns]
  | cons addrs pairs ih =>
    unfold Program.Returns
    rw [Program.untilSome, Program.ensures_bind]
    cases hpath : s.pathManager.hasPath addrs.1 addrs.2 with
    | true =>
      rw [Program.ensures_of_exec (exec_createPath_of_hasPath hpath)]
      rw [← Program.Returns, ih]
      simp [hpath]
    | false =>
      constructor
      · intro hreturns _
        obtain ⟨_, _, -, hthere, -⟩ := hreturns.returns.exists_exec (createPath_returns hpath)
        exact hthere
      · intro hthere
        have hthere := hthere ⟨addrs, List.mem_cons_self, hpath⟩
        refine (createPath_returns hpath).mono ?_ fun _ hnot => hnot hthere
        rintro err s' ⟨-, hthere'⟩
        cases err with
        | some err => exact trivial
        | none => exact ih.mpr fun _ => hthere'

theorem returns_createPaths_iff :
    (PathManager.createPaths : Program (Session E) (Option SessionError)).Returns s ↔
      (s.pathManager.perspective = .client ∧ (∃ addrs ∈ addressPairs s.localAddrs
        s.pathManager.remoteAddrs4 s.pathManager.remoteAddrs6,
          s.pathManager.hasPath addrs.1 addrs.2 = false) → s.CryptoStreamThere) := by
  unfold PathManager.createPaths Program.Returns
  rw [Program.ensures_bind, Program.ensures_get]
  cases s.pathManager.perspective with
  | server =>
    refine iff_of_true trivial ?_
    rintro ⟨hclient, -⟩
    cases hclient
  | client =>
    rw [← Program.Returns, Program.returns_bind_iff, returns_untilSome_createPath]
    · simp
    · rintro (_ | err) s'
      · exact trivial
      · exact trivial

/-- An address of the peer changes nothing else. -/
theorem of_addRemoteAddr {pm pm' : PathManager} {f : AddAddressFrame}
    (h : pm.addRemoteAddr f = some pm') :
    pm'.perspective = pm.perspective ∧ pm'.paths = pm.paths := by
  unfold PathManager.addRemoteAddr at h
  split_ifs at h <;>
    · cases h
      exact ⟨rfl, rfl⟩

theorem returns_handleAddAddressFrame_iff (f : AddAddressFrame) :
    (PathManager.handleAddAddressFrame f).Returns s ↔
      (s.createPaths = true ∧ s.pathManager.perspective = .client ∧
        (∃ pm ∈ s.pathManager.addRemoteAddr f,
          ∃ addrs ∈ addressPairs s.localAddrs pm.remoteAddrs4 pm.remoteAddrs6,
            s.pathManager.hasPath addrs.1 addrs.2 = false) → s.CryptoStreamThere) := by
  unfold PathManager.handleAddAddressFrame Program.Returns
  rw [Program.ensures_bind, Program.ensures_get]
  cases hadd : s.pathManager.addRemoteAddr f with
  | none => simp
  | some pm =>
    obtain ⟨hperspective, hpaths⟩ := of_addRemoteAddr hadd
    have hhas : ∀ l r, pm.hasPath l r = s.pathManager.hasPath l r := fun l r => by
      unfold PathManager.hasPath
      rw [hpaths]
    rw [Program.ensures_bind, Program.ensures_set]
    cases s.createPaths with
    | false => simp
    | true =>
      rw [if_pos rfl, ← Program.Returns, returns_createPaths_iff]
      simp only [hperspective, hhas, true_and, Option.mem_some_iff, exists_eq_left']
      rfl

/-! ## One frame -/

/-- A handler of the streams map returns if the streams map does. -/
theorem returns_ofOption_bind {α β : Type} {o : Session E → Option α}
    {k : α → Program (Session E) β} (ho : ∀ s, ∃ a, o s = some a) (hk : ∀ a s, (k a).Returns s) :
    (get >>= fun s => Program.ofOption (o s) >>= k).Returns s := by
  unfold Program.Returns
  rw [Program.ensures_bind, Program.ensures_get, Program.ensures_bind]
  obtain ⟨a, ha⟩ := ho s
  rw [ha]
  exact hk a s

theorem returns_handleStreamFrame {frame : StreamFrame} (hid : frame.streamID < 2 ^ 32) :
    (handleStreamFrame frame).Returns s := by
  refine returns_ofOption_bind (fun s => ?_) fun a s => ?_
  · obtain ⟨m, r, hget⟩ := s.streamsMap.exists_getOrOpenStream hid
    rw [StreamsMap.handleStreamFrame, hget]
    obtain err | _ | id := r <;> exact ⟨_, rfl⟩
  · exact trivial

theorem returns_handleWindowUpdateFrame {frame : WindowUpdateFrame}
    (hid : frame.streamID < 2 ^ 32) : (handleWindowUpdateFrame frame).Returns s := by
  refine returns_ofOption_bind (fun s => ?_) fun a s => ?_
  · obtain ⟨m, r, hget⟩ := s.streamsMap.exists_getOrOpenStream hid
    rw [StreamsMap.handleWindowUpdateFrame, hget]
    split
    · obtain err | _ | id := r <;> exact ⟨_, rfl⟩
    · exact ⟨_, rfl⟩
  · exact trivial

theorem returns_handleRstStreamFrame {frame : RstStreamFrame} (hid : frame.streamID < 2 ^ 32) :
    (handleRstStreamFrame frame).Returns s := by
  refine returns_ofOption_bind (fun s => ?_) fun a s => ?_
  · obtain ⟨m, r, hget⟩ := s.streamsMap.exists_getOrOpenStream hid
    rw [StreamsMap.handleRstStreamFrame, hget]
    obtain err | _ | id := r <;> exact ⟨_, rfl⟩
  · obtain ⟨m, _ | rst, err⟩ := a <;> exact trivial

theorem returns_handleAckFrame_iff (frame : AckFrame) :
    (handleAckFrame frame).Returns s ↔ frame.pathID ∈ s.paths.ids := by
  unfold handleAckFrame Program.Returns
  rw [Program.ensures_bind, ensures_choose, Program.ensures_bind, Program.ensures_get,
    Program.ensures_bind, Program.ensures_ofOption]
  unfold PathMap.lookup
  split
  · next hmem => exact iff_of_true ⟨fun a _ => trivial, fun h => by cases h⟩ hmem
  · next hnot => exact iff_of_false (fun h => h.2 rfl) hnot

/-- A path that `closePath` has found is still there. -/
theorem closePath_returns (id : PathID) (s : Session E) :
    (closePath id false).Ensures s (fun err s' => err = none → id ∈ s'.paths.ids) fun _ => False := by
  unfold closePath
  rw [Program.ensures_bind, Program.ensures_get]
  unfold PathMap.lookup
  split
  · exact fun h => by cases h
  · next pth hlookup =>
    have hmem : id ∈ s.paths.ids := by
      by_contra hnot
      rw [if_neg hnot] at hlookup
      cases hlookup
    split
    · exact fun _ => hmem
    · exact fun _ => hmem

theorem returns_handleClosePathFrame (frame : ClosePathFrame) :
    (handleClosePathFrame frame).Returns s := by
  unfold handleClosePathFrame Program.Returns
  rw [Program.ensures_bind]
  refine (closePath_returns frame.pathID s).mono ?_ fun _ h => h
  rintro (_ | err) s' hmem
  · rw [Program.ensures_bind, ensures_choose, Program.ensures_bind, Program.ensures_get,
      Program.ensures_bind, Program.ensures_ofOption]
    refine ⟨fun _ _ => trivial, fun hnone => ?_⟩
    rw [PathMap.lookup, if_pos (hmem rfl)] at hnone
    cases hnone
  · exact trivial

theorem returns_handlePaths {frame : PathsFrame} {is : List ℕ}
    (his : ∀ i ∈ is, i < frame.pathIDs.length ∧ i < frame.remoteRTTs.length) :
    (handlePaths frame is).Returns s := by
  induction is generalizing s with
  | nil => exact trivial
  | cons i is ih =>
    obtain ⟨⟨hid, hrtt⟩, his⟩ := List.forall_mem_cons.mp his
    rw [handlePaths, Program.returns_bind_iff fun _ _ => ih his]
    unfold handlePath Program.Returns
    rw [List.getElem?_eq_getElem hid, List.getElem?_eq_getElem hrtt]
    simp only [Program.ensures_bind, Program.ensures_ofOption, Program.ensures_modify,
      Program.ensures_get]
    refine ⟨fun id _ => ⟨fun rtt _ => ?_, fun h => by cases h⟩, fun h => by cases h⟩
    split <;> exact trivial

/-- **The handler of a frame returns iff the frame is harmless.** -/
theorem returns_handleFrame_iff (p : PathID) {f : Frame} (hf : f.Accepted) :
    (handleFrame p f).Returns s ↔ s.Harmless f := by
  cases f with
  | stream frame => exact iff_of_true (returns_handleStreamFrame hf) trivial
  | ack frame => exact returns_handleAckFrame_iff frame
  | stopWaiting frame => exact iff_of_true trivial trivial
  | rstStream frame => exact iff_of_true (returns_handleRstStreamFrame hf) trivial
  | windowUpdate frame => exact iff_of_true (returns_handleWindowUpdateFrame hf) trivial
  | blocked frame => exact iff_of_true trivial trivial
  | ping => exact iff_of_true trivial trivial
  | goaway frame => exact iff_of_true trivial trivial
  | connectionClose frame => exact iff_of_true trivial trivial
  | addAddress frame =>
    unfold handleFrame Program.Returns
    rw [Program.ensures_bind, Program.ensures_get]
    cases hmanager : s.hasPathManager with
    | false =>
      refine iff_of_true trivial ?_
      rintro ⟨htrue, -⟩
      cases hmanager.symm.trans htrue
    | true =>
      rw [if_pos rfl, ← Program.Returns, Program.returns_bind_iff,
        returns_handleAddAddressFrame_iff]
      · refine imp_congr_left ?_
        exact (and_iff_right hmanager).symm
      · exact fun _ _ => trivial
  | closePath frame =>
    refine iff_of_true ?_ trivial
    rw [handleFrame, Program.returns_bind_iff]
    · exact returns_handleClosePathFrame frame
    · exact fun _ _ => trivial
  | paths frame =>
    refine iff_of_true ?_ trivial
    rw [handleFrame, Program.returns_bind_iff]
    · refine returns_handlePaths fun i hi => ?_
      rw [hf.1, hf.2]
      exact ⟨List.mem_range.mp hi, List.mem_range.mp hi⟩
    · exact fun _ _ => trivial

end Session

/-- **The frames of a packet do not crash the session iff each of them is harmless when its turn has
come**, in the state that the frames before it leave. -/
theorem handleFrames_returns_iff {E : Type} {version : VersionNumber} {hdr : PublicHeader}
    {opened : Except String (List UInt8 × EncryptionLevel)} {packet : UnpackedPacket}
    (hpacket : unpack version hdr opened = .ok packet) (s : Session E) (p : PathID) :
    (∃ err s', (Session.handleFrames packet.frames p).exec s = (some err, s')) ↔
      ∀ before f after s', packet.frames = before ++ f :: after →
        (Session.handleFrames before p).exec s = (some none, s') → s'.Harmless f := by
  have haccepted := accepted_of_unpack hpacket
  rw [← Program.returns_iff_exec]
  refine Program.returns_untilSome_iff fun f hf s => ?_
  rw [← Session.returns_handleFrame_iff p (haccepted f hf)]
  exact Program.returns_bind_iff fun _ _ => trivial

/-- A client after the handshake, with a second address and the crypto stream. -/
def multipathClient : Session Unit where
  pathManager := .setup .client versionMP (localhost 0) (localhost 0)
  hasPathManager := true
  createPaths := true
  localAddrs := [localhost 1]
  closedPaths := []
  remoteRTTs := []
  packer :=
    { connectionID := 0
      perspective := .client
      version := versionMP
      cryptoSetup := ⟨plainSealer, some plainSealer, some plainSealer, []⟩
      truncateConnectionID := false
      streamFramer := newStreamFramer
        (newStreamsMap Unit .client ⟨8, 10, 8, 10, 8, 10, 4, 4⟩ none).openStream.1
      controlFrames := []
      stopWaiting := fun _ => none
      ackFrame := fun _ => none }
  handshakeComplete := true
  peerBlocked := false
  closeOnce := false
  closeChan := none
  remoteError := fun _ => ()
  choices := fun _ => .quiet

/-- A PING, an address, and a PATHS frame that says that path 7 has failed. -/
def newAddressPacket : UnpackedPacket :=
  ⟨.forwardSecure, [.ping, .addAddress ⟨4, ipv4 [127, 0, 0, 1], 443⟩,
    .paths ⟨255, 1, [7], [4396972769280000]⟩]⟩

theorem newAddressPacket_harmless :
    unpack versionMP shortHeader
        (.ok ([0x07, 0x10, 4, 127, 0, 0, 1, 1, 187, 0x12, 255, 1, 7, 255, 255], .forwardSecure)) =
      .ok newAddressPacket ∧
    ∀ before f after s', newAddressPacket.frames = before ++ f :: after →
      (Session.handleFrames before 0).exec multipathClient = (some none, s') → s'.Harmless f := by
  have hunpack : unpack versionMP shortHeader
      (.ok ([0x07, 0x10, 4, 127, 0, 0, 1, 1, 187, 0x12, 255, 1, 7, 255, 255], .forwardSecure)) =
        .ok newAddressPacket := by
    decide +kernel
  have hreturns :
      ((Session.handleFrames newAddressPacket.frames 0).exec multipathClient).1 = some none := by
    decide +kernel
  exact ⟨hunpack, (handleFrames_returns_iff hunpack multipathClient 0).mp
    ⟨none, _, Prod.ext hreturns rfl⟩⟩

/-- **An ACK frame for a path that does not exist crashes the session.** -/
theorem strayAck_crashes :
    unpack versionMP shortHeader (.ok ([0x50, 3, 2, 0, 0, 1, 0], .forwardSecure)) =
      .ok ⟨.forwardSecure, [.ack ⟨⟨2, 2, []⟩, 3, 0⟩]⟩ ∧
    ((Session.handleFrames [.ack ⟨⟨2, 2, []⟩, 3, 0⟩] 0).exec multipathClient).1 = none := by
  decide +kernel

end MultipathQuic
