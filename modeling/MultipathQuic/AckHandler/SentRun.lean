import MultipathQuic.AckHandler.Bookkeeping

/-!
# Runs of the sent packet handler

A run is a sequence of calls on a new handler. It records the packets that `SentPacket` has
accepted, those that were dequeued for retransmission, and those that an acknowledgement has
covered while they were in the history.

The session never packs more than `MaxPacketSize` bytes, and the frames it hands over have been
parsed.
-/

namespace MultipathQuic

open scoped List
open SentPacketHandler

/-- The calls on a sent packet handler. -/
inductive SentOp
  | sentPacket (packet : Packet) (env : SentEnv)
  | receivedAck (frame : AckFrame) (withPacketNumber : ℕ) (env : SentEnv)
  | receivedClosePath (frame : ClosePathFrame) (withPacketNumber : ℕ)
  | onAlarm (env : SentEnv)
  | setInflightAsLost
  | dequeuePacketForRetransmission

/-- A handler and the packets it has accepted, handed out for retransmission, and found
acknowledged. -/
structure SentRun where
  handler : SentPacketHandler
  accepted : List Packet
  dequeued : List Packet
  acked : List Packet

namespace SentRun

/-- The run of no call. -/
def init : SentRun := ⟨newSentPacketHandler, [], [], []⟩

/-- The packets covered by an acknowledgement, when it is processed without an error. -/
def coveredUnless (h : SentPacketHandler) (f : AckedPackets) : Option SentPacketError → List Packet
  | none => h.coveredPackets f
  | some _ => []

/-- One call. -/
def step (r : SentRun) : SentOp → SentRun
  | .sentPacket packet env =>
    { r with
      handler := (r.handler.sentPacket packet env).1
      accepted := r.accepted ++ r.handler.accepts packet env }
  | .receivedAck frame withPacketNumber env =>
    let (h, err) := r.handler.receivedAck frame withPacketNumber env
    { r with
      handler := h
      acked := r.acked ++ coveredUnless r.handler frame.toAckedPackets err }
  | .receivedClosePath frame withPacketNumber =>
    let (h, err) := r.handler.receivedClosePath frame withPacketNumber
    { r with
      handler := h
      acked := r.acked ++ coveredUnless r.handler frame.toAckedPackets err }
  | .onAlarm env => { r with handler := r.handler.onAlarm env }
  | .setInflightAsLost => { r with handler := r.handler.setInflightAsLost }
  | .dequeuePacketForRetransmission =>
    let (h, packet) := r.handler.dequeuePacketForRetransmission
    { r with handler := h, dequeued := r.dequeued ++ packet.toList }

/-- The run of some calls on a new handler. -/
def run (ops : List SentOp) : SentRun := ops.foldl step init

end SentRun

/-- The session only sends packets that fit into a datagram, and only hands over frames that were
parsed. -/
def SentOp.Allowed : SentOp → Prop
  | .sentPacket packet _ => packet.packetNumber < 2 ^ 64 ∧ packet.length ≤ maxPacketSize
  | .receivedAck frame _ _ => AckAccepted frame
  | .receivedClosePath frame _ => ClosePathAccepted frame
  | .onAlarm _ | .setInflightAsLost | .dequeuePacketForRetransmission => True

namespace SentRun

/-- The history is in order, and the packets accepted, whose numbers increase, are those of the
history, of the queue, those dequeued and those acknowledged. -/
structure Accounts (r : SentRun) : Prop where
  tracks : Tracks r.handler
  increasing : Increasing r.accepted
  le_lastSent : ∀ p ∈ r.accepted, p.packetNumber ≤ r.handler.lastSentPacketNumber
  perm : r.accepted ~ r.handler.packetHistory ++
    (r.handler.retransmissionQueue ++ (r.dequeued ++ r.acked))

theorem accounts_init : Accounts init :=
  ⟨tracks_new, List.Pairwise.nil, by simp [init], List.Perm.refl _⟩

variable {r : SentRun}

/-- The account after a call that takes packets out of the history. -/
theorem Accounts.settles (hr : Accounts r) {h : SentPacketHandler} {acked queued : List Packet}
    (hs : Settles r.handler h acked queued) :
    Accounts { r with handler := h, acked := r.acked ++ acked } := by
  refine ⟨hs.tracks, hr.increasing, fun p hp => ?_, ?_⟩
  · rw [hs.lastSent_eq]
    exact hr.le_lastSent p hp
  · refine hr.perm.trans ?_
    rw [hs.queue_eq]
    refine (hs.perm.append_right _).trans ?_
    rw [List.perm_iff_count]
    simp only [List.count_append]
    omega

/-- The same for a call that acknowledges nothing. -/
theorem Accounts.settles_nil (hr : Accounts r) {h : SentPacketHandler} {queued : List Packet}
    (hs : Settles r.handler h [] queued) : Accounts { r with handler := h } := by
  have := hr.settles hs
  rwa [List.append_nil] at this

theorem Accounts.sentPacket (hr : Accounts r) {packet : Packet} {env : SentEnv}
    (hop : (SentOp.sentPacket packet env).Allowed) :
    Accounts (r.step (.sentPacket packet env)) := by
  obtain ⟨ht, hhistory, hqueue, hle, hnew⟩ := hr.tracks.sentPacket hop.1 hop.2 env
  refine ⟨ht, ?_, fun p hp => ?_, ?_⟩
  · refine List.pairwise_append.mpr ⟨hr.increasing, ?_, fun p hp q hq => ?_⟩
    · unfold accepts
      split_ifs
      · exact List.pairwise_singleton _ _
      · exact List.Pairwise.nil
    · exact (hr.le_lastSent p hp).trans_lt (hnew q hq).1
  · rcases List.mem_append.mp hp with hp | hp
    · exact (hr.le_lastSent p hp).trans hle
    · exact (hnew p hp).2
  · change r.accepted ++ r.handler.accepts packet env ~ (r.handler.sentPacket packet env).1.packetHistory ++
      ((r.handler.sentPacket packet env).1.retransmissionQueue ++ (r.dequeued ++ r.acked))
    rw [hhistory, hqueue]
    refine (hr.perm.append_right _).trans ?_
    rw [List.perm_iff_count]
    simp only [List.count_append]
    omega

theorem Accounts.dequeue (hr : Accounts r) :
    Accounts (r.step .dequeuePacketForRetransmission) := by
  unfold step dequeuePacketForRetransmission
  cases hqueue : r.handler.retransmissionQueue with
  | nil => simpa using hr
  | cons p queue =>
    have hcount := hr.tracks.count_le
    rw [hqueue, List.length_cons] at hcount
    have ht := hr.tracks
    refine ⟨⟨ht.increasing, ht.pos, ht.le_lastSent, ht.lastSent_lt, ht.bytesInFlight_eq,
      ht.length_le, ?_⟩, hr.increasing, hr.le_lastSent, ?_⟩
    · change queue.length + r.handler.packetHistory.length ≤ maxTrackedSentPackets
      omega
    · refine hr.perm.trans ?_
      change _ ~ r.handler.packetHistory ++ (queue ++ ((r.dequeued ++ [p]) ++ r.acked))
      rw [hqueue, List.perm_iff_count]
      simp only [List.count_append, List.count_cons, List.count_nil]
      omega

/-- **Every call keeps the account.** -/
theorem Accounts.step (hr : Accounts r) {op : SentOp} (hop : op.Allowed) :
    Accounts (r.step op) := by
  cases op with
  | sentPacket packet env => exact hr.sentPacket hop
  | receivedAck frame withPacketNumber env =>
    obtain ⟨version, bs, rest, hparse⟩ := hop
    obtain ⟨queued, hs⟩ := hr.tracks.settles_receivedAck
      (wellFormed_of_parseAckFrame hparse) withPacketNumber env
    have := hr.settles hs
    unfold SentRun.step
    cases herr : (r.handler.receivedAck frame withPacketNumber env).2 with
    | none => simpa [coveredUnless, herr] using this
    | some err => simpa [coveredUnless, herr] using this
  | receivedClosePath frame withPacketNumber =>
    obtain ⟨version, bs, rest, hparse⟩ := hop
    unfold SentRun.step
    rcases hr.tracks.settles_receivedClosePath
        (wellFormed_of_parseClosePathFrame hparse) withPacketNumber with ⟨err, herr, hs⟩ | ⟨herr, hs⟩
    · simpa [coveredUnless, herr] using hr.settles hs
    · simpa [coveredUnless, herr] using hr.settles hs
  | onAlarm env =>
    obtain ⟨queued, hs⟩ := hr.tracks.settles_onAlarm env
    exact hr.settles_nil hs
  | setInflightAsLost => exact hr.settles_nil hr.tracks.settles_setInflightAsLost
  | dequeuePacketForRetransmission => exact hr.dequeue

/-- The account holds after any run. -/
theorem accounts {ops : List SentOp} (hops : ∀ op ∈ ops, op.Allowed) : Accounts (run ops) := by
  refine List.foldlRecOn ops SentRun.step accounts_init fun r hr op hop => ?_
  exact hr.step (hops op hop)

theorem Accounts.nodup (hr : Accounts r) : r.accepted.Nodup :=
  hr.increasing.imp fun hlt heq => hlt.ne (congrArg Packet.packetNumber heq)

theorem length_le_totalLength {p : Packet} {ps : List Packet} (hp : p ∈ ps) :
    p.length ≤ totalLength ps := by
  rw [totalLength_erase hp]
  exact Nat.le_add_right _ _

end SentRun

/-- **Every packet accepted is in exactly one place.** After any run the numbers in the history
increase up to the last one sent, the bytes in flight are those of the history, and each packet that
was accepted occurs once in the history, in the queue, among those dequeued and among those
acknowledged. -/
theorem sentPacket_bookkeeping {ops : List SentOp} (hops : ∀ op ∈ ops, op.Allowed) :
    Increasing (SentRun.run ops).handler.packetHistory ∧
    (∀ p ∈ (SentRun.run ops).handler.packetHistory,
      p.packetNumber ≤ (SentRun.run ops).handler.lastSentPacketNumber) ∧
    (SentRun.run ops).handler.bytesInFlight =
      ((SentRun.run ops).handler.packetHistory.map Packet.length).sum ∧
    (∀ p ∈ (SentRun.run ops).handler.packetHistory,
      p.length ≤ (SentRun.run ops).handler.bytesInFlight) ∧
    ∀ p ∈ (SentRun.run ops).accepted,
      (SentRun.run ops).handler.packetHistory.count p +
        (SentRun.run ops).handler.retransmissionQueue.count p +
        (SentRun.run ops).dequeued.count p + (SentRun.run ops).acked.count p = 1 := by
  have hr := SentRun.accounts hops
  refine ⟨hr.tracks.increasing, hr.tracks.le_lastSent, hr.tracks.bytesInFlight_eq, ?_, ?_⟩
  · intro p hp
    rw [hr.tracks.bytesInFlight_eq]
    exact SentRun.length_le_totalLength hp
  · intro p hp
    -- the numbers of the packets accepted increase, so that none is accepted twice
    have hone := List.count_eq_one_of_mem hr.nodup hp
    rw [hr.perm.count_eq p] at hone
    simp only [List.count_append] at hone
    omega

/-- Four packets: the first is lost, the second acknowledged, the third is sent again after a
timeout, and the fourth is in flight. -/
def lossAndTimeout : List SentOp :=
  let env (now : ℤ) : SentEnv := ⟨now, 20, 0, 0, 0, false⟩
  let packet (n : ℕ) : Packet := ⟨n, [.ping], 100, .forwardSecure, 0⟩
  [.sentPacket (packet 1) (env 0), .sentPacket (packet 2) (env 10), .sentPacket (packet 3) (env 20),
    .receivedAck ⟨⟨2, 2, []⟩, 0, 0⟩ 1 (env 30), .dequeuePacketForRetransmission, .onAlarm (env 40),
    .sentPacket (packet 4) (env 50)]

theorem lossAndTimeout_bookkeeping :
    (SentRun.run lossAndTimeout).accepted.map Packet.packetNumber = [1, 2, 3, 4] ∧
    ((SentRun.run lossAndTimeout).dequeued.map Packet.packetNumber = [1] ∧
      (SentRun.run lossAndTimeout).acked.map Packet.packetNumber = [2] ∧
      (SentRun.run lossAndTimeout).handler.retransmissionQueue.map Packet.packetNumber = [3] ∧
      (SentRun.run lossAndTimeout).handler.packetHistory.map Packet.packetNumber = [4]) ∧
    Increasing (SentRun.run lossAndTimeout).handler.packetHistory ∧
    (SentRun.run lossAndTimeout).handler.bytesInFlight = 100 ∧
    ∀ p ∈ (SentRun.run lossAndTimeout).accepted,
      (SentRun.run lossAndTimeout).handler.packetHistory.count p +
        (SentRun.run lossAndTimeout).handler.retransmissionQueue.count p +
        (SentRun.run lossAndTimeout).dequeued.count p +
        (SentRun.run lossAndTimeout).acked.count p = 1 := by
  have hops : ∀ op ∈ lossAndTimeout, op.Allowed := by
    have hack : AckAccepted ⟨⟨2, 2, []⟩, 0, 0⟩ :=
      ⟨39, [0x40, 2, 0, 0, 1, 0], [], by decide +kernel⟩
    simpa [lossAndTimeout, SentOp.Allowed, maxPacketSize] using hack
  obtain ⟨hinc, -, -, -, hone⟩ := sentPacket_bookkeeping hops
  exact ⟨by decide +kernel, by decide +kernel, hinc, by decide +kernel, hone⟩

end MultipathQuic
