import MultipathQuic.AckHandler.SentRun

/-!
# Closing a path

A path is closed by a CLOSE_PATH frame of the peer, or by this side with `SetInflightAsLost`. Both
queue for retransmission the packets up to `LargestAcked`, the largest number that an ACK frame has
reported so far; CLOSE_PATH frames do not change it. What was sent after that stays in the history
of the closed path, unless the CLOSE_PATH frame acknowledges it.
-/

namespace MultipathQuic

namespace SentPacketHandler

variable {h h' : SentPacketHandler} {acked queued : List Packet}

/-- The history of `h'` is empty, each packet of the history of `h` is acknowledged or in the queue,
and no bytes are in flight. -/
def Emptied (h h' : SentPacketHandler) (acks : ℕ → Bool) : Prop :=
  h'.packetHistory = [] ∧
    (∀ p ∈ h.packetHistory, acks p.packetNumber = true ∨ p ∈ h'.retransmissionQueue) ∧
    h'.bytesInFlight = 0

theorem Tracks.nodup (ht : Tracks h) : h.packetHistory.Nodup :=
  ht.increasing.imp fun hlt heq => hlt.ne (congrArg Packet.packetNumber heq)

/-- The history is empty iff everything was taken out. -/
theorem Settles.packetHistory_eq_nil_iff (ht : Tracks h) (hs : Settles h h' acked queued) :
    h'.packetHistory = [] ↔ ∀ p ∈ h.packetHistory, p ∈ acked ∨ p ∈ queued := by
  have hmem : ∀ p, p ∈ h.packetHistory ↔ (p ∈ acked ∨ p ∈ queued) ∨ p ∈ h'.packetHistory := by
    intro p
    rw [hs.perm.mem_iff, List.mem_append, List.mem_append]
  constructor
  · intro hnil p hp
    rcases (hmem p).mp hp with hp | hp
    · exact hp
    · rw [hnil] at hp
      cases hp
  · intro hall
    rw [List.eq_nil_iff_forall_not_mem]
    intro p hp
    -- a packet occurs once in the history, so that it is not both taken out and left
    have hdisjoint := List.disjoint_of_nodup_append (hs.perm.nodup_iff.mp ht.nodup)
    exact hdisjoint (List.mem_append.mpr (hall p ((hmem p).mpr (Or.inr hp)))) hp

/-- If the packets acknowledged are among those that `acks` tells, then closing the path is a matter
of the history. -/
theorem Settles.emptied_iff (hs : Settles h h' acked queued) (ht : Tracks h) {acks : ℕ → Bool}
    (hacks : ∀ p ∈ acked, acks p.packetNumber = true) :
    Emptied h h' acks ↔ ∀ p ∈ h.packetHistory, p ∈ acked ∨ p ∈ queued := by
  rw [← hs.packetHistory_eq_nil_iff ht]
  refine ⟨fun he => he.1, fun hnil => ⟨hnil, fun p hp => ?_, ?_⟩⟩
  · rcases (hs.packetHistory_eq_nil_iff ht).mp hnil p hp with hp | hp
    · exact Or.inl (hacks p hp)
    · rw [hs.queue_eq]
      exact Or.inr (List.mem_append_right _ hp)
  · rw [hs.tracks.bytesInFlight_eq, hnil]
    rfl

/-- The loop over the history stops at the first packet above a bound, and no packet after it is
below the bound. -/
theorem mem_takeWhile_iff {ps : List Packet} (hps : Increasing ps) (bound : ℕ) (p : Packet) :
    p ∈ ps.takeWhile (fun q => q.packetNumber ≤ bound) ↔ p ∈ ps ∧ p.packetNumber ≤ bound := by
  induction ps with
  | nil => simp
  | cons q ps ih =>
    obtain ⟨hq, htail⟩ := List.pairwise_cons.mp hps
    by_cases hle : q.packetNumber ≤ bound
    · rw [List.takeWhile_cons_of_pos (by simpa using hle), List.mem_cons, List.mem_cons, ih htail]
      constructor
      · rintro (rfl | ⟨hp, hbound⟩)
        · exact ⟨Or.inl rfl, hle⟩
        · exact ⟨Or.inr hp, hbound⟩
      · rintro ⟨rfl | hp, hbound⟩
        · exact Or.inl rfl
        · exact Or.inr ⟨hp, hbound⟩
    · rw [List.takeWhile_cons_of_neg (by simpa using hle)]
      constructor
      · intro hp
        cases hp
      · rintro ⟨hp, hbound⟩
        rcases List.mem_cons.mp hp with rfl | hp
        · exact absurd hbound hle
        · have := hq p hp
          omega

/-- `SetInflightAsLost` empties the history iff nothing was sent above `LargestAcked`. -/
theorem Tracks.setInflightAsLost_emptied_iff (ht : Tracks h) :
    Emptied h h.setInflightAsLost (fun _ => false) ↔
      ∀ p ∈ h.packetHistory, p.packetNumber ≤ h.largestAcked := by
  rw [ht.settles_setInflightAsLost.emptied_iff ht (by simp)]
  refine forall₂_congr fun p hp => ?_
  rw [mem_takeWhile_iff ht.increasing]
  simp [hp]

/-- `ReceivedClosePath` empties the history iff the frame acknowledges what was sent above
`LargestAcked`. -/
theorem Tracks.receivedClosePath_emptied_iff (ht : Tracks h) {f : ClosePathFrame}
    (hf : f.WellFormed) {withPacketNumber : ℕ}
    (hok : (h.receivedClosePath f withPacketNumber).2 = none) :
    Emptied h (h.receivedClosePath f withPacketNumber).1 f.acksPacket ↔
      ∀ p ∈ h.packetHistory, h.largestAcked < p.packetNumber →
        f.acksPacket p.packetNumber = true := by
  rcases ht.settles_receivedClosePath hf withPacketNumber with ⟨err, herr, -⟩ | ⟨-, hs⟩
  · rw [hok] at herr
    cases herr
  have hcovered : ∀ p, p ∈ h.coveredPackets f.toAckedPackets ↔
      p ∈ h.packetHistory ∧ f.acksPacket p.packetNumber = true :=
    fun p => List.mem_filter
  rw [hs.emptied_iff ht fun p hp => ((hcovered p).mp hp).2]
  refine forall₂_congr fun p hp => ?_
  rw [mem_takeWhile_iff (ht.increasing.sublist (List.diff_sublist _ _)), ht.nodup.mem_sdiff_iff,
    hcovered]
  by_cases hacks : f.acksPacket p.packetNumber = true
  · simp [hp, hacks]
  · simp [hp, hacks]

end SentPacketHandler

open SentPacketHandler

/-- **When closing a path loses nothing.** In every state reached, closing the path empties the
history iff no packet above `LargestAcked` is left to the sender. -/
theorem closePath_emptied_iff {ops : List SentOp} (hops : ∀ op ∈ ops, op.Allowed) :
    (∀ (f : ClosePathFrame) (withPacketNumber : ℕ), ClosePathAccepted f →
      ((SentRun.run ops).handler.receivedClosePath f withPacketNumber).2 = none →
      (Emptied (SentRun.run ops).handler
          ((SentRun.run ops).handler.receivedClosePath f withPacketNumber).1 f.acksPacket ↔
        ∀ p ∈ (SentRun.run ops).handler.packetHistory,
          (SentRun.run ops).handler.largestAcked < p.packetNumber →
            f.acksPacket p.packetNumber = true)) ∧
    (Emptied (SentRun.run ops).handler (SentRun.run ops).handler.setInflightAsLost
        (fun _ => false) ↔
      ∀ p ∈ (SentRun.run ops).handler.packetHistory,
        p.packetNumber ≤ (SentRun.run ops).handler.largestAcked) := by
  have ht := (SentRun.accounts hops).tracks
  refine ⟨?_, ht.setInflightAsLost_emptied_iff⟩
  rintro f withPacketNumber ⟨version, bs, rest, hparse⟩ hok
  exact ht.receivedClosePath_emptied_iff (wellFormed_of_parseClosePathFrame hparse) hok

/-- Two packets are sent, and nothing is acknowledged yet. -/
def twoSent : List SentOp :=
  [.sentPacket ⟨1, [.ping], 100, .forwardSecure, 0⟩ ⟨0, 20, 0, 0, 0, false⟩,
    .sentPacket ⟨2, [.ping], 100, .forwardSecure, 0⟩ ⟨10, 20, 0, 0, 0, false⟩]

/-- Two packets are sent, and the second is acknowledged before the first is lost. -/
def secondAcked : List SentOp :=
  twoSent ++ [.receivedAck ⟨⟨2, 2, []⟩, 0, 0⟩ 1 ⟨20, 20, 0, 0, 0, false⟩]

theorem twoSent_allowed : ∀ op ∈ twoSent, op.Allowed := by
  simp [twoSent, SentOp.Allowed, maxPacketSize]

theorem secondAcked_allowed : ∀ op ∈ secondAcked, op.Allowed := by
  have hack : AckAccepted ⟨⟨2, 2, []⟩, 0, 0⟩ := ⟨39, [0x40, 2, 0, 0, 1, 0], [], by decide +kernel⟩
  intro op hop
  rcases List.mem_append.mp hop with hop | hop
  · exact twoSent_allowed op hop
  · rw [List.mem_singleton.mp hop]
    exact hack

theorem secondAcked_emptied :
    (SentRun.run secondAcked).handler.packetHistory.map Packet.packetNumber = [1] ∧
    ClosePathAccepted ⟨⟨2, 2, []⟩, 0⟩ ∧
    Emptied (SentRun.run secondAcked).handler
      ((SentRun.run secondAcked).handler.receivedClosePath ⟨⟨2, 2, []⟩, 0⟩ 2).1
      (AckedPackets.acksPacket ⟨2, 2, []⟩) ∧
    Emptied (SentRun.run secondAcked).handler (SentRun.run secondAcked).handler.setInflightAsLost
      (fun _ => false) := by
  have hclose : ClosePathAccepted ⟨⟨2, 2, []⟩, 0⟩ := ⟨39, [0x11, 0, 0, 2, 1], [], by decide +kernel⟩
  obtain ⟨hpeer, hlocal⟩ := closePath_emptied_iff secondAcked_allowed
  exact ⟨by decide +kernel, hclose,
    (hpeer ⟨⟨2, 2, []⟩, 0⟩ 2 hclose (by decide +kernel)).mpr (by decide +kernel),
    hlocal.mpr (by decide +kernel)⟩

/-- A CLOSE_PATH frame that acknowledges the first packet leaves the second in the history of the
closed path, and closing the path from this side leaves both. -/
theorem twoSent_not_emptied :
    (∀ op ∈ twoSent, op.Allowed) ∧ ClosePathAccepted ⟨⟨1, 1, []⟩, 0⟩ ∧
    (((SentRun.run twoSent).handler.receivedClosePath ⟨⟨1, 1, []⟩, 0⟩ 1).2 = none ∧
      ((SentRun.run twoSent).handler.receivedClosePath
        ⟨⟨1, 1, []⟩, 0⟩ 1).1.packetHistory.map Packet.packetNumber = [2] ∧
      ((SentRun.run twoSent).handler.receivedClosePath
        ⟨⟨1, 1, []⟩, 0⟩ 1).1.retransmissionQueue = [] ∧
      ((SentRun.run twoSent).handler.receivedClosePath ⟨⟨1, 1, []⟩, 0⟩ 1).1.bytesInFlight = 100) ∧
    (SentRun.run twoSent).handler.setInflightAsLost.packetHistory.map Packet.packetNumber = [1, 2] ∧
      (SentRun.run twoSent).handler.setInflightAsLost.retransmissionQueue = [] ∧
      (SentRun.run twoSent).handler.setInflightAsLost.bytesInFlight = 200 :=
  ⟨twoSent_allowed, ⟨39, [0x11, 0, 0, 1, 1], [], by decide +kernel⟩, by decide +kernel,
    by decide +kernel⟩

end MultipathQuic
