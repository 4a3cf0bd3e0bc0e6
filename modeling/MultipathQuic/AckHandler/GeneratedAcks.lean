import MultipathQuic.AckHandler.NewlyAcked
import MultipathQuic.AckHandler.ReceivedHistory

/-!
# The generated ACK frames are consistent

A run of a received packet handler. `handlePacketImpl` registers a packet before it handles the
frames of the packet, and a STOP_WAITING frame is only accepted with a least unacknowledged packet
of at most the number of its own packet; so a limit is always below a packet that was registered
before. Then the largest observed packet is never deleted, and what an ACK frame says about the
received packets is what the history says.

## Main definitions

* `runReceive`: a run
* `Consistent`: the invariant

## Main results

* `ackFrames_consistent`: what the frames of a run say
-/

namespace MultipathQuic

open ReceivedPacketHistory

theorem Descending.covered_le {r : PacketInterval} {rs : List PacketInterval} {x : ℕ}
    (h : Descending (r :: rs)) (hx : covered (r :: rs) x) : x ≤ r.stop := by
  rcases covered_cons.mp hx with hx | ⟨b, hb, -, hle⟩
  · exact hx.2
  · have := h.below hb
    have := (h.valid r List.mem_cons_self).start_le_stop
    omega

theorem Ascending.le_covered {r : PacketInterval} {rs : List PacketInterval} {x : ℕ}
    (h : Ascending (r :: rs)) (hx : covered (r :: rs) x) : r.start ≤ x := by
  rcases covered_cons.mp hx with hx | ⟨b, hb, hle, -⟩
  · exact hx.1
  · have := h.above hb
    have := (h.valid r List.mem_cons_self).start_le_stop
    omega

/-! ## Runs -/

/-- The calls on a handler. -/
inductive ReceiveOp
  | receivedPacket (packetNumber : UInt64) (shouldInstigateAck : Bool) (now : ℤ)
  | setLowerLimit (p : UInt64)
  | getAckFrame (now : ℤ)
  deriving DecidableEq

/-- The handler after a call. A call of `GetAckFrame` that panics is one without an effect. -/
def ReceiveOp.apply (h : ReceivedPacketHandler) : ReceiveOp → ReceivedPacketHandler
  | .receivedPacket packetNumber shouldInstigateAck now =>
    (h.receivedPacket packetNumber.toNat shouldInstigateAck now).1
  | .setLowerLimit p => h.setLowerLimit p.toNat
  | .getAckFrame now => (h.getAckFrame now).elim h Prod.fst

/-- The handler after some calls on a new one. -/
def runReceive (version : VersionNumber) (ops : List ReceiveOp) : ReceivedPacketHandler :=
  ops.foldl ReceiveOp.apply (newReceivedPacketHandler version)

/-- A call of `ReceivedPacket` returns no error. -/
def ReceiveOp.Succeeds (h : ReceivedPacketHandler) : ReceiveOp → Prop
  | .receivedPacket packetNumber shouldInstigateAck now =>
    (h.receivedPacket packetNumber.toNat shouldInstigateAck now).2 = none
  | _ => True

/-- A call of `SetLowerLimit` follows one of `ReceivedPacket` for a packet above the limit. -/
def ReceiveOp.FollowsPacket (before : List ReceiveOp) : ReceiveOp → Prop
  | .setLowerLimit p =>
    ∃ packetNumber shouldInstigateAck now,
      .receivedPacket packetNumber shouldInstigateAck now ∈ before ∧ p < packetNumber
  | _ => True

/-- No call of `ReceivedPacket` in the run returns an error. -/
def NoReceiveErrors (version : VersionNumber) (ops : List ReceiveOp) : Prop :=
  ∀ before op after, ops = before ++ op :: after → op.Succeeds (runReceive version before)

/-- Each limit follows the call for a packet with a number above it. -/
def LimitsFollowPackets (ops : List ReceiveOp) : Prop :=
  ∀ before op after, ops = before ++ op :: after → op.FollowsPacket before

variable {version : VersionNumber} {ops : List ReceiveOp}

/-- A property of each call and the calls before it, one call at a time. -/
theorem forall_split_concat {P : List ReceiveOp → ReceiveOp → Prop} {op : ReceiveOp} :
    (∀ before op' after, ops ++ [op] = before ++ op' :: after → P before op') ↔
      (∀ before op' after, ops = before ++ op' :: after → P before op') ∧ P ops op := by
  constructor
  · intro h
    refine ⟨?_, h ops op [] rfl⟩
    rintro before op' after rfl
    exact h before op' (after ++ [op]) (by simp)
  · rintro ⟨h, hop⟩ before op' after heq
    rcases List.eq_nil_or_concat after with rfl | ⟨after, last, rfl⟩
    · obtain ⟨rfl, hlast⟩ := List.append_inj' heq rfl
      obtain rfl : op = op' := by simpa using hlast
      exact hop
    · rw [List.concat_eq_append, ← List.cons_append, ← List.append_assoc] at heq
      exact h before op' after (List.append_inj' heq rfl).1

theorem noReceiveErrors_concat {op : ReceiveOp} :
    NoReceiveErrors version (ops ++ [op]) ↔
      NoReceiveErrors version ops ∧ op.Succeeds (runReceive version ops) :=
  forall_split_concat

theorem limitsFollowPackets_concat {op : ReceiveOp} :
    LimitsFollowPackets (ops ++ [op]) ↔ LimitsFollowPackets ops ∧ op.FollowsPacket ops :=
  forall_split_concat

theorem runReceive_concat (op : ReceiveOp) :
    runReceive version (ops ++ [op]) = op.apply (runReceive version ops) := by
  simp [runReceive]

/-! ## The invariant -/

namespace ReceivedPacketHandler

variable {h : ReceivedPacketHandler}

/-- The largest observed packet is the top of the history, and it lies above the limit. Nothing is
acknowledged before a packet was observed. -/
structure Consistent (h : ReceivedPacketHandler) : Prop where
  ascending : Ascending h.packetHistory.ranges
  le_largest : ∀ x, covered h.packetHistory.ranges x → x ≤ h.largestObserved
  largest : h.largestObserved ≠ 0 → covered h.packetHistory.ranges h.largestObserved
  limit : h.lowerLimit < h.largestObserved ∨ h.lowerLimit = 0
  idle : h.largestObserved = 0 → ∀ now, h.ackWanted now = false

theorem consistent_new : (newReceivedPacketHandler version).Consistent where
  ascending := ascending_nil
  le_largest x hx := absurd hx (not_covered_nil x)
  largest hne := absurd rfl hne
  limit := .inr rfl
  idle _ _ := rfl

/-- The decision about an acknowledgement is none about the packets. -/
theorem maybeQueueAck_frame (packetNumber : ℕ) (shouldInstigateAck : Bool) (now : ℤ) :
    (h.maybeQueueAck packetNumber shouldInstigateAck now).packetHistory = h.packetHistory ∧
      (h.maybeQueueAck packetNumber shouldInstigateAck now).largestObserved = h.largestObserved ∧
      (h.maybeQueueAck packetNumber shouldInstigateAck now).lowerLimit = h.lowerLimit := by
  unfold maybeQueueAck
  dsimp only
  refine ⟨?_, ?_, ?_⟩ <;> (repeat' split) <;> rfl

theorem Consistent.receivedPacket (hc : h.Consistent) {packetNumber : ℕ} {shouldInstigateAck : Bool}
    {now : ℤ} (hlt : packetNumber < 2 ^ 64)
    (hok : (h.receivedPacket packetNumber shouldInstigateAck now).2 = none) :
    (h.receivedPacket packetNumber shouldInstigateAck now).1.Consistent ∧
      (h.receivedPacket packetNumber shouldInstigateAck now).1.largestObserved =
        max h.largestObserved packetNumber := by
  unfold ReceivedPacketHandler.receivedPacket at hok ⊢
  by_cases hzero : packetNumber = 0
  · rw [if_pos hzero] at hok
    cases hok
  rw [if_neg hzero] at hok ⊢
  by_cases hlow : packetNumber ≤ h.lowerLimit
  · -- a late packet below the limit is below the largest one too
    rw [if_pos hlow]
    have hbelow : packetNumber < h.largestObserved := by
      rcases hc.limit with hlimit | hlimit <;> omega
    have hmax : max h.largestObserved packetNumber = h.largestObserved := max_eq_left hbelow.le
    refine ⟨⟨hc.ascending, ?_, ?_, ?_, ?_⟩, rfl⟩
    · rw [hmax]
      exact hc.le_largest
    · rw [hmax]
      exact hc.largest
    · rw [hmax]
      exact hc.limit
    · intro heq
      dsimp only at heq
      omega
  rw [if_neg hlow] at hok ⊢
  -- the packet is recorded
  cases hrecv : h.packetHistory.receivedPacket packetNumber with
  | error err =>
    rw [hrecv] at hok
    cases hok
  | ok packetHistory =>
    obtain ⟨hhistory, hlargest, hlimit⟩ := maybeQueueAck_frame (h := { h with
      packets := h.packets + 1
      largestObserved := max h.largestObserved packetNumber
      packetHistory := packetHistory }) packetNumber shouldInstigateAck now
    obtain ⟨hasc, hcovered⟩ := receivedPacket_spec hc.ascending (by omega) hlt hrecv
    refine ⟨⟨?_, ?_, ?_, ?_, ?_⟩, hlargest⟩
    · rw [hhistory]
      exact hasc
    · intro x hx
      rw [hhistory, hcovered] at hx
      rw [hlargest]
      rcases hx with rfl | hx
      · exact le_max_right _ _
      · exact (hc.le_largest x hx).trans (le_max_left _ _)
    · intro _
      rw [hhistory, hlargest, hcovered]
      rcases Nat.lt_or_ge h.largestObserved packetNumber with hnew | hold
      · exact .inl (max_eq_right hnew.le)
      · right
        rw [max_eq_left hold]
        exact hc.largest (by omega)
    · rw [hlimit, hlargest]
      left
      dsimp only
      omega
    · intro heq
      rw [hlargest] at heq
      dsimp only at heq
      omega

theorem Consistent.setLowerLimit (hc : h.Consistent) {p : ℕ} (hp : p < h.largestObserved) :
    (h.setLowerLimit p).Consistent := by
  obtain ⟨hasc, hcov⟩ := deleteFrom_spec hc.ascending p
  refine ⟨hasc, ?_, ?_, .inl hp, hc.idle⟩
  · intro x hx
    exact hc.le_largest x ((hcov x).mp hx).1
  · intro hne
    exact (hcov _).mpr ⟨hc.largest hne, hp⟩

/-- `GetAckFrame` only changes what decides about the next frame. -/
theorem Consistent.getAckFrame (hc : h.Consistent) {now : ℤ} {h' : ReceivedPacketHandler}
    {ack : Option AckFrame} (heq : h.getAckFrame now = some (h', ack)) :
    h'.Consistent ∧ h'.largestObserved = h.largestObserved := by
  unfold ReceivedPacketHandler.getAckFrame at heq
  split_ifs at heq
  · obtain ⟨acked, -, heq⟩ := Option.bind_eq_some_iff.mp heq
    cases heq
    exact ⟨⟨hc.ascending, hc.le_largest, hc.largest, hc.limit, fun _ _ => rfl⟩, rfl⟩
  · cases heq
    exact ⟨hc, rfl⟩

/-! ## What a frame says -/

/-- The acknowledged packets reach from the bottom of the lowest range to the top of the highest
one, and they are the packets of the history. -/
theorem Consistent.ackedPackets (hc : h.Consistent) (hne : h.largestObserved ≠ 0) :
    ∃ highest lowest acked, h.packetHistory.ranges.getLast? = some highest ∧
      h.packetHistory.ranges.head? = some lowest ∧ h.ackedPackets = some acked ∧
      acked.largestAcked = highest.stop ∧ acked.lowestAcked = lowest.start ∧
      ∀ x, acked.acksPacket x = true ↔ covered h.packetHistory.ranges x := by
  have hlargest := hc.largest hne
  -- the lowest range is the head of the list, and the highest one the head of its reverse
  obtain ⟨lowest, above, hlow⟩ : ∃ lowest above, h.packetHistory.ranges = lowest :: above := by
    cases hranges : h.packetHistory.ranges with
    | nil =>
      rw [hranges] at hlargest
      exact absurd hlargest (not_covered_nil _)
    | cons lowest above => exact ⟨lowest, above, rfl⟩
  obtain ⟨highest, below, hhigh⟩ : ∃ highest below,
      h.packetHistory.ranges.reverse = highest :: below := by
    cases hranges : h.packetHistory.ranges.reverse with
    | nil =>
      rw [List.reverse_eq_nil_iff, hlow] at hranges
      cases hranges
    | cons highest below => exact ⟨highest, below, rfl⟩
  have htop : highest.stop = h.largestObserved := by
    have hdesc := hc.ascending.reverse
    rw [hhigh] at hdesc
    apply Nat.le_antisymm
    · apply hc.le_largest
      rw [← covered_reverse, hhigh]
      exact covered_cons.mpr
        (.inl ⟨(hdesc.valid highest List.mem_cons_self).start_le_stop, le_rfl⟩)
    · apply hdesc.covered_le
      rw [← hhigh, covered_reverse]
      exact hlargest
  have hbottom : ∀ x, covered h.packetHistory.ranges x → lowest.start ≤ x := by
    intro x hx
    have hasc := hc.ascending
    rw [hlow] at hasc hx
    exact hasc.le_covered hx
  have hlast : h.packetHistory.getAckRanges.getLast? = some ⟨lowest.start, lowest.stop⟩ := by
    simp [getAckRanges, hlow]
  have hlength : h.packetHistory.getAckRanges.length = above.length + 1 := by
    simp [getAckRanges, hlow]
  refine ⟨highest, lowest, {
    largestAcked := h.largestObserved
    lowestAcked := lowest.start
    ackRanges := if h.packetHistory.getAckRanges.length > 1 then h.packetHistory.getAckRanges
      else [] }, ?_, ?_, ?_, htop.symm, rfl, ?_⟩
  · rw [← List.head?_reverse, hhigh, List.head?_cons]
  · rw [hlow, List.head?_cons]
  · unfold ReceivedPacketHandler.ackedPackets
    dsimp only
    rw [hlast]
    rfl
  · intro x
    by_cases hout : x < lowest.start ∨ h.largestObserved < x
    · rw [SentPacketHandler.not_acksPacket_of_lt hout]
      refine iff_of_false (by simp) fun hx => ?_
      have := hbottom x hx
      have := hc.le_largest x hx
      omega
    by_cases hmany : h.packetHistory.getAckRanges.length > 1
    · -- several ranges, all of which are in the frame
      rw [if_pos hmany]
      rw [SentPacketHandler.acksPacket_iff_of_ranges (List.length_pos_iff.mp (Nat.lt_of_succ_lt hmany))
        (by dsimp only; omega) (by dsimp only; omega)]
      simp [SentPacketHandler.inRanges, getAckRanges, covered]
    · -- one range, which the bounds of the frame describe
      obtain rfl : above = [] := List.length_eq_zero_iff.mp (by omega)
      have hstop : lowest.stop = h.largestObserved := by
        rw [hlow] at hhigh
        obtain ⟨rfl, -⟩ := List.cons.inj hhigh
        exact htop
      rw [if_neg hmany, hlow, covered_cons, hstop, AckedPackets.acksPacket, if_neg hout,
        if_neg (by simp [AckedPackets.hasMissingRanges])]
      simp

end ReceivedPacketHandler

/-! ## The result -/

/-- After every run that meets the conditions, the handler is consistent, and it has observed all
the packets of the run. -/
theorem runReceive_consistent (herr : NoReceiveErrors version ops)
    (hlimits : LimitsFollowPackets ops) :
    (runReceive version ops).Consistent ∧
      ∀ packetNumber shouldInstigateAck now,
        .receivedPacket packetNumber shouldInstigateAck now ∈ ops →
          packetNumber.toNat ≤ (runReceive version ops).largestObserved := by
  induction ops using List.reverseRecOn with
  | nil => exact ⟨ReceivedPacketHandler.consistent_new, by simp⟩
  | append_singleton ops op ih =>
    obtain ⟨herr, hop⟩ := noReceiveErrors_concat.mp herr
    obtain ⟨hlimits, hfollows⟩ := limitsFollowPackets_concat.mp hlimits
    obtain ⟨hc, hobserved⟩ := ih herr hlimits
    rw [runReceive_concat]
    cases op with
    | receivedPacket packetNumber shouldInstigateAck now =>
      obtain ⟨hc', hlargest⟩ := hc.receivedPacket packetNumber.toNat_lt hop
      refine ⟨hc', fun packetNumber' shouldInstigateAck' now' hmem => ?_⟩
      show packetNumber'.toNat ≤ ((runReceive version ops).receivedPacket packetNumber.toNat
        shouldInstigateAck now).1.largestObserved
      rw [hlargest]
      rcases List.mem_append.mp hmem with hmem | hmem
      · exact (hobserved _ _ _ hmem).trans (le_max_left _ _)
      · cases List.mem_singleton.mp hmem
        exact le_max_right _ _
    | setLowerLimit p =>
      -- the limit is below a packet of the run, which has been observed
      obtain ⟨packetNumber, shouldInstigateAck, now, hmem, hlt⟩ := hfollows
      have hbelow : p.toNat < (runReceive version ops).largestObserved :=
        Nat.lt_of_lt_of_le (UInt64.lt_iff_toNat_lt.mp hlt) (hobserved _ _ _ hmem)
      refine ⟨hc.setLowerLimit hbelow, fun packetNumber' shouldInstigateAck' now' hmem' => ?_⟩
      apply hobserved
      simpa using hmem'
    | getAckFrame now =>
      cases hget : (runReceive version ops).getAckFrame now with
      | none =>
        rw [ReceiveOp.apply, hget]
        refine ⟨hc, fun packetNumber shouldInstigateAck now' hmem => ?_⟩
        apply hobserved
        simpa using hmem
      | some r =>
        obtain ⟨hc', hlargest⟩ := hc.getAckFrame hget
        rw [ReceiveOp.apply, hget]
        refine ⟨hc', fun packetNumber shouldInstigateAck now' hmem => ?_⟩
        show packetNumber.toNat ≤ r.1.largestObserved
        rw [hlargest]
        apply hobserved
        simpa using hmem

/-- **Generated ACK frames are consistent**: `GetAckFrame` never indexes an empty list of ranges, and
a frame it returns reaches from the bottom of the lowest range to the top of the highest one, and
acknowledges exactly the packets in the history. -/
theorem ackFrames_consistent (version : VersionNumber) (ops : List ReceiveOp)
    (herr : NoReceiveErrors version ops) (hlimits : LimitsFollowPackets ops) (now : ℤ) :
    ∃ h' ack, (runReceive version ops).getAckFrame now = some (h', ack) ∧
      ∀ frame, ack = some frame → ∃ highest lowest,
        (runReceive version ops).packetHistory.ranges.getLast? = some highest ∧
        (runReceive version ops).packetHistory.ranges.head? = some lowest ∧
        frame.largestAcked = highest.stop ∧ frame.lowestAcked = lowest.start ∧
        ∀ x, frame.acksPacket x = true ↔
          covered (runReceive version ops).packetHistory.ranges x := by
  obtain ⟨hc, -⟩ := runReceive_consistent herr hlimits
  unfold ReceivedPacketHandler.getAckFrame
  split_ifs with hwanted
  · have hne : (runReceive version ops).largestObserved ≠ 0 := by
      intro hzero
      rw [hc.idle hzero now] at hwanted
      cases hwanted
    obtain ⟨highest, lowest, acked, hhighest, hlowest, hacked, htop, hbottom, hacks⟩ :=
      hc.ackedPackets hne
    rw [hacked]
    refine ⟨_, _, rfl, ?_⟩
    rintro frame ⟨rfl⟩
    exact ⟨highest, lowest, hhighest, hlowest, htop, hbottom, hacks⟩
  · refine ⟨_, none, rfl, ?_⟩
    rintro frame ⟨⟩

/-- Packets 1, 3 and 5 arrive, and the last of them says that nothing below 3 is outstanding. -/
def stopWaitingRun : List ReceiveOp :=
  [.receivedPacket 1 true 0, .getAckFrame 0, .receivedPacket 5 true 1, .receivedPacket 3 true 2,
    .setLowerLimit 2]

theorem stopWaitingRun_consistent :
    (runReceive versionMP stopWaitingRun).packetHistory.ranges = [⟨3, 3⟩, ⟨5, 5⟩] ∧
      ∃ h' ack, (runReceive versionMP stopWaitingRun).getAckFrame 3 = some (h', ack) ∧
        ∀ frame, ack = some frame → ∃ highest lowest,
          (runReceive versionMP stopWaitingRun).packetHistory.ranges.getLast? = some highest ∧
          (runReceive versionMP stopWaitingRun).packetHistory.ranges.head? = some lowest ∧
          frame.largestAcked = highest.stop ∧ frame.lowestAcked = lowest.start ∧
          ∀ x, frame.acksPacket x = true ↔
            covered (runReceive versionMP stopWaitingRun).packetHistory.ranges x := by
  have herr : NoReceiveErrors versionMP stopWaitingRun := by
    show NoReceiveErrors versionMP ([] ++ [_] ++ [_] ++ [_] ++ [_] ++ [_])
    simp only [noReceiveErrors_concat]
    refine ⟨⟨⟨⟨⟨?_, ?_⟩, trivial⟩, ?_⟩, ?_⟩, trivial⟩
    · rintro before op after h
      simp at h
    all_goals
      show Prod.snd _ = none
      decide +kernel
  have hlimits : LimitsFollowPackets stopWaitingRun := by
    show LimitsFollowPackets ([] ++ [_] ++ [_] ++ [_] ++ [_] ++ [_])
    simp only [limitsFollowPackets_concat]
    refine ⟨⟨⟨⟨⟨?_, trivial⟩, trivial⟩, trivial⟩, trivial⟩, 3, true, 2, by simp, by decide⟩
    rintro before op after h
    simp at h
  exact ⟨by decide +kernel, ackFrames_consistent versionMP stopWaitingRun herr hlimits 3⟩

end MultipathQuic
