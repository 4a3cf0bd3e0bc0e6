import Mathlib.Algebra.BigOperators.Group.List.Basic
import Mathlib.Data.List.Nodup
import MultipathQuic.AckHandler.NewlyAcked
import MultipathQuic.Library.Runs

/-!
# Sent-packet bookkeeping

Every call on the handler, except for `SentPacket`, takes packets out of the history: some are
acknowledged, the others are queued for retransmission. What such a call does is said once, by the
two lists of packets it takes out.

## Main definitions

* `Tracks`: the history is in order
* `Settles h h' acked queued`: what a call takes out

## Main results

* `Tracks.settles_receivedAck`, `Tracks.settles_receivedClosePath`, `Tracks.settles_onAlarm`,
  `Tracks.sentPacket`: the calls
-/

namespace MultipathQuic

open scoped List

/-- The number of bytes of the packets. -/
def totalLength (ps : List Packet) : ℕ := (ps.map Packet.length).sum

theorem totalLength_erase {p : Packet} {ps : List Packet} (hp : p ∈ ps) :
    totalLength ps = p.length + totalLength (ps.erase p) :=
  ((List.perm_cons_erase hp).map Packet.length).sum_eq

theorem totalLength_le {ps : List Packet} {n : ℕ} (h : ∀ p ∈ ps, p.length ≤ n) :
    totalLength ps ≤ ps.length * n := by
  induction ps with
  | nil => exact Nat.zero_le _
  | cons p ps ih =>
    have hp := h p List.mem_cons_self
    have hps := ih fun q hq => h q (List.mem_cons_of_mem _ hq)
    rw [totalLength, List.map_cons, List.sum_cons, List.length_cons, Nat.succ_mul, Nat.add_comm]
    exact Nat.add_le_add hps hp

namespace SentPacketHandler

variable {h h' h'' : SentPacketHandler} {p : Packet} {acked queued : List Packet}

/-- The history is in order and accounts for the bytes in flight. -/
structure Tracks (h : SentPacketHandler) : Prop where
  increasing : Increasing h.packetHistory
  pos : ∀ p ∈ h.packetHistory, 0 < p.packetNumber
  le_lastSent : ∀ p ∈ h.packetHistory, p.packetNumber ≤ h.lastSentPacketNumber
  lastSent_lt : h.lastSentPacketNumber < 2 ^ 64
  bytesInFlight_eq : h.bytesInFlight = totalLength h.packetHistory
  length_le : ∀ p ∈ h.packetHistory, p.length ≤ maxPacketSize
  count_le : h.retransmissionQueue.length + h.packetHistory.length ≤ maxTrackedSentPackets

theorem tracks_new : Tracks newSentPacketHandler :=
  ⟨List.Pairwise.nil, by simp [newSentPacketHandler], by simp [newSentPacketHandler],
    by decide, rfl, by simp [newSentPacketHandler], by decide⟩

theorem Tracks.totalLength_lt (ht : Tracks h) : totalLength h.packetHistory < 2 ^ 63 := by
  have hsum := totalLength_le ht.length_le
  have hcount : h.packetHistory.length ≤ maxTrackedSentPackets := by
    have := ht.count_le
    omega
  have hmul := Nat.mul_le_mul_right maxPacketSize hcount
  have hbound : maxTrackedSentPackets * maxPacketSize < 2 ^ 63 := by decide
  omega

/-- Taking one packet out of the history, and adding one to the queue at most. -/
theorem Tracks.erase (ht : Tracks h) (hp : p ∈ h.packetHistory)
    (hhistory : h'.packetHistory = h.packetHistory.erase p)
    (hbytes : h'.bytesInFlight = sub64 h.bytesInFlight p.length)
    (hlast : h'.lastSentPacketNumber = h.lastSentPacketNumber)
    (hqueue : h'.retransmissionQueue.length ≤ h.retransmissionQueue.length + 1) : Tracks h' := by
  have hsub : (h.packetHistory.erase p).Sublist h.packetHistory := List.erase_sublist
  have htotal := totalLength_erase hp
  have hlt := ht.totalLength_lt
  refine ⟨?_, fun q hq => ?_, fun q hq => ?_, by rw [hlast]; exact ht.lastSent_lt, ?_,
    fun q hq => ?_, ?_⟩
  · rw [hhistory]
    exact ht.increasing.sublist hsub
  · rw [hhistory] at hq
    exact ht.pos q (hsub.subset hq)
  · rw [hhistory] at hq
    rw [hlast]
    exact ht.le_lastSent q (hsub.subset hq)
  · rw [hhistory, hbytes, ht.bytesInFlight_eq, sub64_of_le (by omega) (by omega)]
    omega
  · rw [hhistory] at hq
    exact ht.length_le q (hsub.subset hq)
  · have hcount := ht.count_le
    have hlen := List.length_erase_of_mem hp
    have hpos := List.length_pos_of_mem hp
    rw [hhistory]
    omega

/-- `h'` is `h` once the packets of `acked` are acknowledged and those of `queued` are queued for
retransmission. -/
structure Settles (h h' : SentPacketHandler) (acked queued : List Packet) : Prop where
  tracks : Tracks h'
  subperm : acked ++ queued <+~ h.packetHistory
  history_eq : h'.packetHistory = h.packetHistory.diff (acked ++ queued)
  queue_eq : h'.retransmissionQueue = h.retransmissionQueue ++ queued
  lastSent_eq : h'.lastSentPacketNumber = h.lastSentPacketNumber

/-- A call that takes nothing out of the history. -/
theorem Tracks.settles_nil (ht : Tracks h) (hhistory : h'.packetHistory = h.packetHistory)
    (hbytes : h'.bytesInFlight = h.bytesInFlight)
    (hlast : h'.lastSentPacketNumber = h.lastSentPacketNumber)
    (hqueue : h'.retransmissionQueue = h.retransmissionQueue) : Settles h h' [] [] := by
  refine ⟨⟨?_, ?_, ?_, by rw [hlast]; exact ht.lastSent_lt, ?_, ?_, ?_⟩, List.nil_subperm, hhistory,
    by rw [hqueue, List.append_nil], hlast⟩
  · rw [hhistory]
    exact ht.increasing
  · rw [hhistory]
    exact ht.pos
  · rw [hhistory, hlast]
    exact ht.le_lastSent
  · rw [hhistory, hbytes]
    exact ht.bytesInFlight_eq
  · rw [hhistory]
    exact ht.length_le
  · rw [hhistory, hqueue]
    exact ht.count_le

/-- The packets taken out and those left are the packets of the history. -/
theorem Settles.perm (hs : Settles h h' acked queued) :
    h.packetHistory ~ (acked ++ queued) ++ h'.packetHistory := by
  rw [hs.history_eq]
  exact (List.subperm_append_diff_self_of_count_le (List.subperm_ext_iff.mp hs.subperm)).symm

/-- Two calls in a row. -/
theorem Settles.trans {acked' queued' : List Packet} (hs : Settles h h' acked queued)
    (hs' : Settles h' h'' acked' queued') : Settles h h'' (acked ++ acked') (queued ++ queued') := by
  have hperm : (acked ++ acked') ++ (queued ++ queued') ~ (acked ++ queued) ++ (acked' ++ queued') := by
    simp only [List.append_assoc]
    refine List.Perm.append_left _ ?_
    rw [← List.append_assoc, ← List.append_assoc]
    exact List.perm_append_comm.append_right _
  refine ⟨hs'.tracks, hperm.subperm_right.mpr ?_, ?_, ?_, hs'.lastSent_eq.trans hs.lastSent_eq⟩
  · exact ((List.subperm_append_left _).mpr hs'.subperm).trans hs.perm.symm.subperm
  · rw [hs'.history_eq, hs.history_eq, ← List.diff_append, List.Perm.diff_left _ hperm]
  · rw [hs'.queue_eq, hs.queue_eq, List.append_assoc]

/-! ## One packet -/

theorem Tracks.settles_onPacketAcked (ht : Tracks h) (hp : p ∈ h.packetHistory) :
    Settles h (h.onPacketAcked p) [p] [] :=
  ⟨ht.erase hp rfl rfl rfl (Nat.le_succ _), List.singleton_subperm_iff.mpr hp,
    by simp [onPacketAcked, List.diff_cons], (List.append_nil _).symm, rfl⟩

theorem Tracks.settles_queuePacketForRetransmission (ht : Tracks h) (hp : p ∈ h.packetHistory) :
    Settles h (h.queuePacketForRetransmission p) [] [p] :=
  ⟨ht.erase hp rfl rfl rfl (by simp [queuePacketForRetransmission]),
    List.singleton_subperm_iff.mpr hp, by simp [queuePacketForRetransmission, List.diff_cons], rfl,
    rfl⟩

/-! ## Several packets -/

theorem Tracks.settles_foldl_onPacketAcked (ht : Tracks h) (hsub : acked <+~ h.packetHistory) :
    Settles h (acked.foldl onPacketAcked h) acked [] := by
  induction acked generalizing h with
  | nil => exact ht.settles_nil rfl rfl rfl rfl
  | cons p ps ih =>
    have hstep := ht.settles_onPacketAcked (hsub.subset List.mem_cons_self)
    have hrest := hsub.erase p
    rw [List.erase_cons_head] at hrest
    exact hstep.trans (ih hstep.tracks hrest)

theorem Tracks.settles_foldl_queuePacketForRetransmission (ht : Tracks h)
    (hsub : queued <+~ h.packetHistory) :
    Settles h (queued.foldl queuePacketForRetransmission h) [] queued := by
  induction queued generalizing h with
  | nil => exact ht.settles_nil rfl rfl rfl rfl
  | cons p ps ih =>
    have hstep := ht.settles_queuePacketForRetransmission (hsub.subset List.mem_cons_self)
    have hrest := hsub.erase p
    rw [List.erase_cons_head] at hrest
    exact hstep.trans (ih hstep.tracks hrest)

/-- Nothing but the alarm changes. -/
theorem Tracks.settles_updateLossDetectionAlarm (ht : Tracks h) (env : SentEnv) :
    Settles h (h.updateLossDetectionAlarm env) [] [] := by
  unfold updateLossDetectionAlarm
  split_ifs <;> exact ht.settles_nil rfl rfl rfl rfl

theorem Tracks.settles_garbageCollectSkippedPackets (ht : Tracks h) :
    Settles h h.garbageCollectSkippedPackets [] [] :=
  ht.settles_nil rfl rfl rfl rfl

theorem lostFrom_sublist (env : SentEnv) (largestAcked : ℕ) (ps : List Packet)
    (lossTime : Option ℤ) : (lostFrom env largestAcked ps lossTime).1.Sublist ps := by
  induction ps generalizing lossTime with
  | nil => exact List.Sublist.refl _
  | cons p ps ih =>
    rw [lostFrom]
    by_cases hlarge : p.packetNumber > largestAcked
    · rw [if_pos hlarge]
      exact List.nil_sublist _
    · dsimp only
      split_ifs with hlost hnone
      · exact (ih lossTime).cons_cons p
      · exact (ih _).cons p
      · exact (ih _).cons p

theorem Tracks.settles_detectLostPackets (ht : Tracks h) (env : SentEnv) :
    ∃ queued, Settles h (h.detectLostPackets env) [] queued := by
  have hsub := lostFrom_sublist env h.largestAcked h.packetHistory none
  have hcount : Settles h { h with
      lossTime := (lostFrom env h.largestAcked h.packetHistory none).2
      losses := h.losses + (lostFrom env h.largestAcked h.packetHistory none).1.length } [] [] :=
    ht.settles_nil rfl rfl rfl rfl
  exact ⟨_, hcount.trans
    (hcount.tracks.settles_foldl_queuePacketForRetransmission hsub.subperm)⟩

theorem Tracks.settles_setInflightAsLost (ht : Tracks h) :
    Settles h h.setInflightAsLost []
      (h.packetHistory.takeWhile fun p => p.packetNumber ≤ h.largestAcked) := by
  have hsub := (List.takeWhile_sublist (fun p : Packet => p.packetNumber ≤ h.largestAcked)
    (l := h.packetHistory)).subperm
  have hcount : Settles h { h with
      losses := h.losses +
        (h.packetHistory.takeWhile fun p => p.packetNumber ≤ h.largestAcked).length } [] [] :=
    ht.settles_nil rfl rfl rfl rfl
  exact hcount.trans (hcount.tracks.settles_foldl_queuePacketForRetransmission hsub)

/-! ## The calls -/

/-- The frame comes from a packet: `ParseAckFrame` has accepted it. -/
def AckAccepted (f : AckFrame) : Prop :=
  ∃ version bs rest, (parseAckFrame version).run bs = .ok (f, rest)

/-- The frame comes from a packet: `ParseClosePathFrame` has accepted it. -/
def ClosePathAccepted (f : ClosePathFrame) : Prop :=
  ∃ version bs rest, (parseClosePathFrame version).run bs = .ok (f, rest)

/-- The packets of the history that a frame acknowledges. -/
def coveredPackets (h : SentPacketHandler) (f : AckedPackets) : List Packet :=
  h.packetHistory.filter fun p => f.acksPacket p.packetNumber

theorem coveredPackets_subperm (h : SentPacketHandler) (f : AckedPackets) :
    h.coveredPackets f <+~ h.packetHistory :=
  List.filter_sublist.subperm

/-- A frame that reports nothing new acknowledges no packet of the history. -/
theorem Tracks.coveredPackets_eq_nil (ht : Tracks h) {f : AckedPackets}
    (hle : f.largestAcked ≤ h.largestInOrderAcked) : h.coveredPackets f = [] := by
  unfold coveredPackets
  cases hhistory : h.packetHistory with
  | nil => rfl
  | cons p ps =>
    have hinc := ht.increasing
    have hpos := ht.pos p (by simp [hhistory])
    have hlast := ht.le_lastSent p (by simp [hhistory])
    have hlt := ht.lastSent_lt
    rw [hhistory] at hinc
    rw [largestInOrderAcked, hhistory] at hle
    dsimp only at hle
    rw [sub64_of_le hpos (by omega)] at hle
    exact filter_acksPacket_eq_nil hinc (by omega)

theorem Tracks.settles_processAck (ht : Tracks h) (f : AckFrame)
    (hsub : acked <+~ h.packetHistory) (env : SentEnv) :
    ∃ queued, Settles h (h.processAck f acked env) acked queued := by
  have hack := ht.settles_foldl_onPacketAcked hsub
  obtain ⟨queued, hlost⟩ := hack.tracks.settles_detectLostPackets env
  have halarm := hlost.tracks.settles_updateLossDetectionAlarm env
  have hgc := halarm.tracks.settles_garbageCollectSkippedPackets
  have hrest : Settles _ (h.processAck f acked env) [] [] :=
    hgc.tracks.settles_nil rfl rfl rfl rfl
  have hall := hack.trans (hlost.trans (halarm.trans (hgc.trans hrest)))
  simp only [List.append_nil] at hall
  exact ⟨_, hall⟩

/-- What `ReceivedAck` can do. -/
theorem receivedAck_cases (h : SentPacketHandler) (f : AckFrame) (withPacketNumber : ℕ)
    (env : SentEnv) :
    (∃ err, h.receivedAck f withPacketNumber env = (h, some err)) ∨
    (f.largestAcked ≤ h.largestInOrderAcked ∧ h.receivedAck f withPacketNumber env =
      ({ h with largestReceivedPacketWithAck := withPacketNumber }, none)) ∨
    ∃ h', h' = { h with
        largestReceivedPacketWithAck := withPacketNumber, largestAcked := f.largestAcked } ∧
      ((∃ err, h.receivedAck f withPacketNumber env = (h', some err)) ∨
        ∃ ackedPackets, h'.determineNewlyAckedPackets f.toAckedPackets = .ok ackedPackets ∧
          h.receivedAck f withPacketNumber env = (h'.processAck f ackedPackets env, none)) := by
  unfold receivedAck
  by_cases hunsent : f.largestAcked > h.lastSentPacketNumber
  · exact Or.inl ⟨_, by rw [if_pos hunsent]⟩
  by_cases hdup : withPacketNumber ≤ h.largestReceivedPacketWithAck
  · exact Or.inl ⟨_, by rw [if_neg hunsent, if_pos hdup]⟩
  rw [if_neg hunsent, if_neg hdup]
  by_cases hold : f.largestAcked ≤ h.largestInOrderAcked
  · exact Or.inr (Or.inl ⟨hold, if_pos hold⟩)
  refine Or.inr (Or.inr ⟨_, rfl, ?_⟩)
  have hold' : ¬ f.largestAcked ≤ largestInOrderAcked
      { h with largestReceivedPacketWithAck := withPacketNumber } := hold
  rw [if_neg hold']
  by_cases hskipped : h.skippedPackets.any f.acksPacket = true
  · exact Or.inl ⟨_, if_pos hskipped⟩
  rw [if_neg hskipped]
  cases hacked : determineNewlyAckedPackets { h with
      largestReceivedPacketWithAck := withPacketNumber, largestAcked := f.largestAcked }
      f.toAckedPackets with
  | error err => exact Or.inl ⟨err, rfl⟩
  | ok ackedPackets => exact Or.inr ⟨ackedPackets, rfl, rfl⟩

/-- `ReceivedAck` without an error takes out the packets that the frame acknowledges, and some
packets that are lost. With an error it takes out nothing. -/
theorem Tracks.settles_receivedAck (ht : Tracks h) {f : AckFrame} (hf : f.WellFormed)
    (withPacketNumber : ℕ) (env : SentEnv) :
    ∃ queued, Settles h (h.receivedAck f withPacketNumber env).1
      (if (h.receivedAck f withPacketNumber env).2 = none then h.coveredPackets f.toAckedPackets else [])
      queued := by
  rcases h.receivedAck_cases f withPacketNumber env with
    ⟨err, heq⟩ | ⟨hold, heq⟩ | ⟨h', rfl, ⟨err, heq⟩ | ⟨ackedPackets, hacked, heq⟩⟩
  · rw [heq]
    exact ⟨[], ht.settles_nil rfl rfl rfl rfl⟩
  · rw [heq, if_pos rfl, ht.coveredPackets_eq_nil hold]
    exact ⟨[], ht.settles_nil rfl rfl rfl rfl⟩
  · rw [heq]
    exact ⟨[], ht.settles_nil rfl rfl rfl rfl⟩
  · have hstart : Settles h { h with
        largestReceivedPacketWithAck := withPacketNumber, largestAcked := f.largestAcked } [] [] :=
      ht.settles_nil rfl rfl rfl rfl
    rw [determineNewlyAckedPackets_eq hstart.tracks.increasing hf] at hacked
    cases hacked
    obtain ⟨queued, hack⟩ := hstart.tracks.settles_processAck f (coveredPackets_subperm _ _) env
    rw [heq, if_pos rfl]
    exact ⟨_, hstart.trans hack⟩

/-- What `ReceivedClosePath` can do. -/
theorem receivedClosePath_cases (h : SentPacketHandler) (f : ClosePathFrame)
    (withPacketNumber : ℕ) :
    (∃ err, h.receivedClosePath f withPacketNumber = (h, some err)) ∨
    ∃ h', h' = { h with largestReceivedPacketWithAck := withPacketNumber } ∧
      ((∃ err, h.receivedClosePath f withPacketNumber = (h', some err)) ∨
        ∃ ackedPackets, h'.determineNewlyAckedPacketsClosePath f.toAckedPackets = .ok ackedPackets ∧
          h.receivedClosePath f withPacketNumber =
            ((ackedPackets.foldl onPacketAcked h').setInflightAsLost.garbageCollectSkippedPackets,
              none)) := by
  unfold receivedClosePath
  by_cases hunsent : f.largestAcked > h.lastSentPacketNumber
  · exact Or.inl ⟨_, by rw [if_pos hunsent]⟩
  by_cases hdup : withPacketNumber ≤ h.largestReceivedPacketWithAck
  · exact Or.inl ⟨_, by rw [if_neg hunsent, if_pos hdup]⟩
  rw [if_neg hunsent, if_neg hdup]
  refine Or.inr ⟨_, rfl, ?_⟩
  by_cases hskipped : h.skippedPackets.any f.acksPacket = true
  · exact Or.inl ⟨_, if_pos hskipped⟩
  rw [if_neg hskipped]
  cases hacked : determineNewlyAckedPacketsClosePath { h with
      largestReceivedPacketWithAck := withPacketNumber } f.toAckedPackets with
  | error err => exact Or.inl ⟨err, rfl⟩
  | ok ackedPackets => exact Or.inr ⟨ackedPackets, rfl, rfl⟩

theorem largestAcked_foldl_onPacketAcked (h : SentPacketHandler) (ps : List Packet) :
    (ps.foldl onPacketAcked h).largestAcked = h.largestAcked := by
  induction ps generalizing h with
  | nil => rfl
  | cons p ps ih => exact ih (h.onPacketAcked p)

/-- `ReceivedClosePath` without an error takes out the packets that the frame acknowledges, and of
those that are left the ones up to `LargestAcked`, which are lost. With an error it takes out
nothing. -/
theorem Tracks.settles_receivedClosePath (ht : Tracks h) {f : ClosePathFrame}
    (hf : f.WellFormed) (withPacketNumber : ℕ) :
    (∃ err, (h.receivedClosePath f withPacketNumber).2 = some err ∧
      Settles h (h.receivedClosePath f withPacketNumber).1 [] []) ∨
    (h.receivedClosePath f withPacketNumber).2 = none ∧
      Settles h (h.receivedClosePath f withPacketNumber).1 (h.coveredPackets f.toAckedPackets)
        ((h.packetHistory.diff (h.coveredPackets f.toAckedPackets)).takeWhile fun p =>
          p.packetNumber ≤ h.largestAcked) := by
  rcases h.receivedClosePath_cases f withPacketNumber with
    ⟨err, heq⟩ | ⟨h', rfl, ⟨err, heq⟩ | ⟨ackedPackets, hacked, heq⟩⟩
  · exact Or.inl ⟨err, by rw [heq], by rw [heq]; exact ht.settles_nil rfl rfl rfl rfl⟩
  · exact Or.inl ⟨err, by rw [heq], by rw [heq]; exact ht.settles_nil rfl rfl rfl rfl⟩
  · have hstart : Settles h { h with largestReceivedPacketWithAck := withPacketNumber } [] [] :=
      ht.settles_nil rfl rfl rfl rfl
    rw [determineNewlyAckedPacketsClosePath_eq hstart.tracks.increasing hf] at hacked
    cases hacked
    have hack := hstart.tracks.settles_foldl_onPacketAcked (coveredPackets_subperm _ f.toAckedPackets)
    have hlost := hack.tracks.settles_setInflightAsLost
    have hgc := hlost.tracks.settles_garbageCollectSkippedPackets
    have hall := hstart.trans (hack.trans (hlost.trans hgc))
    rw [largestAcked_foldl_onPacketAcked, hack.history_eq] at hall
    simp only [List.append_nil, List.nil_append] at hall
    rw [heq]
    exact Or.inr ⟨rfl, hall⟩

theorem Tracks.settles_retransmitOldestPacket (ht : Tracks h) :
    ∃ queued, Settles h h.retransmitOldestPacket [] queued := by
  unfold retransmitOldestPacket
  cases hhistory : h.packetHistory with
  | nil => exact ⟨[], ht.settles_nil rfl rfl rfl rfl⟩
  | cons p ps =>
    have hqueue := ht.settles_queuePacketForRetransmission (p := p) (by simp [hhistory])
    have hcount : Settles _ (h.queueRTO p) [] [] := hqueue.tracks.settles_nil rfl rfl rfl rfl
    exact ⟨_, hqueue.trans hcount⟩

theorem Tracks.settles_repeat_retransmitOldestPacket (ht : Tracks h) (n : ℕ) :
    ∃ queued, Settles h (Nat.repeat retransmitOldestPacket n h) [] queued := by
  induction n with
  | zero => exact ⟨[], ht.settles_nil rfl rfl rfl rfl⟩
  | succ n ih =>
    obtain ⟨queued, hn⟩ := ih
    obtain ⟨queued', hstep⟩ := hn.tracks.settles_retransmitOldestPacket
    exact ⟨_, hn.trans hstep⟩

theorem Tracks.settles_retransmitTLP (ht : Tracks h) :
    ∃ queued, Settles h h.retransmitTLP [] queued := by
  unfold retransmitTLP
  cases hlast : h.packetHistory.getLast? with
  | none => exact ⟨[], ht.settles_nil rfl rfl rfl rfl⟩
  | some p => exact ⟨_, ht.settles_queuePacketForRetransmission (List.mem_of_getLast? hlast)⟩

/-- `OnAlarm` only queues packets for retransmission. -/
theorem Tracks.settles_onAlarm (ht : Tracks h) (env : SentEnv) :
    ∃ queued, Settles h (h.onAlarm env) [] queued := by
  unfold onAlarm
  by_cases hnone : ¬ h.packetHistory.any Packet.isRetransmittable = true
  · rw [if_pos hnone]
    exact ⟨[], ht.settles_nil rfl rfl rfl rfl⟩
  rw [if_neg hnone]
  split_ifs with hloss htlp hfailed
  · obtain ⟨queued, hs⟩ := ht.settles_detectLostPackets env
    exact ⟨_, hs.trans (hs.tracks.settles_updateLossDetectionAlarm env)⟩
  · obtain ⟨queued, hs⟩ := ht.settles_retransmitTLP
    have hcount : Settles _ { h.retransmitTLP with tlpCount := h.tlpCount + 1 } [] [] :=
      hs.tracks.settles_nil rfl rfl rfl rfl
    exact ⟨_, hs.trans (hcount.trans (hcount.tracks.settles_updateLossDetectionAlarm env))⟩
  · obtain ⟨queued, hs⟩ := ht.settles_repeat_retransmitOldestPacket h.packetHistory.length
    have hcount : Settles _ { h.retransmitAllPackets with
        rtoCount := (h.rtoCount + 1) % 2 ^ 32 } [] [] := hs.tracks.settles_nil rfl rfl rfl rfl
    exact ⟨_, hs.trans (hcount.trans (hcount.tracks.settles_updateLossDetectionAlarm env))⟩
  · obtain ⟨queued, hs⟩ := ht.settles_repeat_retransmitOldestPacket 2
    have hcount : Settles _ { h.retransmitOldestTwoPackets with
        rtoCount := (h.rtoCount + 1) % 2 ^ 32 } [] [] := hs.tracks.settles_nil rfl rfl rfl rfl
    exact ⟨_, hs.trans (hcount.trans (hcount.tracks.settles_updateLossDetectionAlarm env))⟩

/-! ## Sending and dequeuing -/

/-- What `SentPacket` can do. The packet that is not refused gets a larger number than all packets
before, and it is tracked iff some frame of it is to be retransmitted. -/
theorem sentPacket_cases (h : SentPacketHandler) (packet : Packet) (env : SentEnv) :
    (∃ err, h.sentPacket packet env = (h, some err)) ∨
    ∃ h' : SentPacketHandler,
      h.sentPacket packet env = (h'.updateLossDetectionAlarm env, none) ∧
      h.lastSentPacketNumber < packet.packetNumber ∧
      h.retransmissionQueue.length + h.packetHistory.length + 1 ≤ maxTrackedSentPackets ∧
      h'.lastSentPacketNumber = packet.packetNumber ∧
      h'.retransmissionQueue = h.retransmissionQueue ∧
      if stripNonRetransmittableFrames packet.frames ≠ [] then
        h'.packetHistory = h.packetHistory ++ [tracked packet env] ∧
          h'.bytesInFlight = add64 h.bytesInFlight packet.length
      else h'.packetHistory = h.packetHistory ∧ h'.bytesInFlight = h.bytesInFlight := by
  unfold sentPacket
  by_cases hold : packet.packetNumber ≤ h.lastSentPacketNumber
  · exact Or.inl ⟨_, if_pos hold⟩
  by_cases hmany : h.retransmissionQueue.length + h.packetHistory.length + 1 > maxTrackedSentPackets
  · exact Or.inl ⟨_, by rw [if_neg hold, if_pos hmany]⟩
  rw [if_neg hold, if_neg hmany]
  refine Or.inr ⟨_, rfl, Nat.lt_of_not_le hold, Nat.le_of_not_lt hmany, ?_, ?_, ?_⟩
  · split_ifs <;> rfl
  · split_ifs <;> rfl
  · split_ifs with hstrip
    · exact ⟨rfl, rfl⟩
    · exact ⟨rfl, rfl⟩

/-- The history with one more packet at its end. -/
theorem Tracks.snoc (ht : Tracks h) (hnumber : h.lastSentPacketNumber < p.packetNumber)
    (hnumber_lt : p.packetNumber < 2 ^ 64) (hlength : p.length ≤ maxPacketSize)
    (hcount : h.retransmissionQueue.length + h.packetHistory.length + 1 ≤ maxTrackedSentPackets)
    (hlast : h'.lastSentPacketNumber = p.packetNumber)
    (hqueue : h'.retransmissionQueue = h.retransmissionQueue)
    (hhistory : h'.packetHistory = h.packetHistory ++ [p])
    (hbytes : h'.bytesInFlight = add64 h.bytesInFlight p.length) : Tracks h' := by
  have hmem : ∀ q ∈ h'.packetHistory, q ∈ h.packetHistory ∨ q = p := by
    intro q hq
    rw [hhistory] at hq
    simpa using hq
  refine ⟨?_, fun q hq => ?_, fun q hq => ?_, by rw [hlast]; exact hnumber_lt, ?_,
    fun q hq => ?_, ?_⟩
  · rw [hhistory]
    refine List.pairwise_append.mpr ⟨ht.increasing, List.pairwise_singleton _ _, ?_⟩
    intro q hq r hr
    rw [List.mem_singleton.mp hr]
    exact (ht.le_lastSent q hq).trans_lt hnumber
  · rcases hmem q hq with hq | rfl
    · exact ht.pos q hq
    · omega
  · rw [hlast]
    rcases hmem q hq with hq | rfl
    · exact (ht.le_lastSent q hq).trans hnumber.le
    · exact le_rfl
  · have hlt := ht.totalLength_lt
    have hsize : p.length < 2 ^ 63 := hlength.trans_lt (by decide)
    rw [hbytes, hhistory, ht.bytesInFlight_eq, add64_of_lt (by omega)]
    simp [totalLength]
  · rcases hmem q hq with hq | rfl
    · exact ht.length_le q hq
    · exact hlength
  · rw [hqueue, hhistory, List.length_append, List.length_singleton]
    omega

/-- The packet that `SentPacket` adds to the history, if any. -/
def accepts (h : SentPacketHandler) (packet : Packet) (env : SentEnv) : List Packet :=
  if (h.sentPacket packet env).2 = none ∧ stripNonRetransmittableFrames packet.frames ≠ [] then
    [tracked packet env]
  else []

/-- `SentPacket` adds the packet at the end of the history, or nothing. -/
theorem Tracks.sentPacket (ht : Tracks h) {packet : Packet}
    (hnumber : packet.packetNumber < 2 ^ 64) (hlength : packet.length ≤ maxPacketSize)
    (env : SentEnv) :
    Tracks (h.sentPacket packet env).1 ∧
      (h.sentPacket packet env).1.packetHistory = h.packetHistory ++ h.accepts packet env ∧
      (h.sentPacket packet env).1.retransmissionQueue = h.retransmissionQueue ∧
      h.lastSentPacketNumber ≤ (h.sentPacket packet env).1.lastSentPacketNumber ∧
      ∀ q ∈ h.accepts packet env, h.lastSentPacketNumber < q.packetNumber ∧
        q.packetNumber ≤ (h.sentPacket packet env).1.lastSentPacketNumber := by
  rcases h.sentPacket_cases packet env with
    ⟨err, heq⟩ | ⟨h', heq, hlt, hcount, hlast, hqueue, hif⟩
  · simp [accepts, heq, ht]
  by_cases hstrip : stripNonRetransmittableFrames packet.frames ≠ []
  · rw [if_pos hstrip] at hif
    have ht' : Tracks h' := ht.snoc (p := tracked packet env) hlt hnumber hlength hcount hlast
      hqueue hif.1 hif.2
    have halarm := ht'.settles_updateLossDetectionAlarm env
    have haccepts : h.accepts packet env = [tracked packet env] := if_pos ⟨by rw [heq], hstrip⟩
    rw [haccepts, heq]
    refine ⟨halarm.tracks, halarm.history_eq.trans hif.1, ?_, ?_, ?_⟩
    · rw [halarm.queue_eq, List.append_nil, hqueue]
    · rw [halarm.lastSent_eq, hlast]
      exact hlt.le
    · intro q hq
      rw [List.mem_singleton.mp hq, halarm.lastSent_eq, hlast]
      exact ⟨hlt, le_rfl⟩
  · rw [if_neg hstrip] at hif
    have ht' : Tracks h' := by
      refine ⟨?_, ?_, ?_, by rw [hlast]; exact hnumber, ?_, ?_, ?_⟩
      · rw [hif.1]
        exact ht.increasing
      · rw [hif.1]
        exact ht.pos
      · rw [hif.1, hlast]
        exact fun q hq => (ht.le_lastSent q hq).trans hlt.le
      · rw [hif.1, hif.2]
        exact ht.bytesInFlight_eq
      · rw [hif.1]
        exact ht.length_le
      · rw [hif.1, hqueue]
        exact ht.count_le
    have halarm := ht'.settles_updateLossDetectionAlarm env
    have haccepts : h.accepts packet env = [] := if_neg fun h => hstrip h.2
    rw [haccepts, heq]
    refine ⟨halarm.tracks, ?_, ?_, ?_, by simp⟩
    · rw [List.append_nil]
      exact halarm.history_eq.trans hif.1
    · rw [halarm.queue_eq, List.append_nil, hqueue]
    · rw [halarm.lastSent_eq, hlast]
      exact hlt.le

end SentPacketHandler

end MultipathQuic
