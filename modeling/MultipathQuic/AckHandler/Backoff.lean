import MultipathQuic.AckHandler.SentRun

/-!
# The backoff of retransmission timeouts

`computeRTOTimeout` shifts the delay to the left once for each timeout in a row, and bounds the
result from above after that. A duration is a signed integer of 64 bits. The first shift that
exceeds it gives a negative number, whatever the delay is, and the alarm is then armed with the
shortest timeout again.
-/

namespace MultipathQuic

open SentPacketHandler

/-! ## The timeout -/

/-- What `computeRTOTimeout` shifts. -/
def rtoBase (delay : ℤ) : ℤ := max (if delay = 0 then defaultRTOTimeout else delay) minRTOTimeout

/-- The timeout after `count` timeouts in a row. -/
def rtoTimeout (delay : ℤ) (count : ℕ) : ℤ :=
  min ((rtoBase delay * 2 ^ count).bmod (2 ^ 64)) maxRTOTimeout

section Timeout

variable {delay : ℤ} {count n : ℕ}

theorem minRTOTimeout_le_rtoBase (delay : ℤ) : minRTOTimeout ≤ rtoBase delay := le_max_right _ _

theorem rtoBase_lt (hdelay : delay < maxRTOTimeout) : rtoBase delay < maxRTOTimeout := by
  refine max_lt ?_ (by decide)
  split
  · decide
  · exact hdelay

theorem rtoBase_le_shift (delay : ℤ) (count : ℕ) : rtoBase delay ≤ rtoBase delay * 2 ^ count := by
  have hpos : 0 ≤ rtoBase delay := le_trans (by decide) (minRTOTimeout_le_rtoBase delay)
  exact le_mul_of_one_le_right hpos (one_le_pow₀ one_le_two)

theorem shift_mono (delay : ℤ) (h : count ≤ n) :
    rtoBase delay * 2 ^ count ≤ rtoBase delay * 2 ^ n := by
  have hpos : 0 ≤ rtoBase delay := le_trans (by decide) (minRTOTimeout_le_rtoBase delay)
  exact mul_le_mul_of_nonneg_left (pow_le_pow_right₀ one_le_two h) hpos

/-- Without an overflow the shift multiplies. -/
theorem rtoTimeout_of_lt (h : rtoBase delay * 2 ^ count < 2 ^ 63) :
    rtoTimeout delay count = min (rtoBase delay * 2 ^ count) maxRTOTimeout := by
  have hpos : (0 : ℤ) ≤ rtoBase delay * 2 ^ count :=
    le_trans (by decide) ((minRTOTimeout_le_rtoBase delay).trans (rtoBase_le_shift delay count))
  unfold rtoTimeout
  rw [Int.bmod_eq_of_le_mul_two] <;> omega

/-- The first shift that overflows gives a negative duration. -/
theorem rtoTimeout_of_overflow (hlow : 2 ^ 63 ≤ rtoBase delay * 2 ^ count)
    (hhigh : rtoBase delay * 2 ^ count < 2 ^ 64) : rtoTimeout delay count < 0 := by
  have hmod : rtoBase delay * 2 ^ count % (2 ^ 64 : ℕ) = rtoBase delay * 2 ^ count :=
    Int.emod_eq_of_lt (by omega) hhigh
  have hneg : (rtoBase delay * 2 ^ count).bmod (2 ^ 64) < 0 := by
    rw [Int.bmod_def, hmod, if_neg] <;> omega
  exact min_lt_of_left_lt hneg

/-- As long as the shift does not overflow, the timeout is bounded. -/
theorem rtoTimeout_bounds (h : rtoBase delay * 2 ^ count < 2 ^ 63) :
    minRTOTimeout ≤ rtoTimeout delay count ∧ rtoTimeout delay count ≤ maxRTOTimeout := by
  rw [rtoTimeout_of_lt h]
  refine ⟨le_min ?_ (by decide), min_le_right _ _⟩
  exact (minRTOTimeout_le_rtoBase delay).trans (rtoBase_le_shift delay count)

/-- As long as the shift does not overflow, the timeout does not shrink. -/
theorem rtoTimeout_mono (hcount : count ≤ n) (h : rtoBase delay * 2 ^ n < 2 ^ 63) :
    rtoTimeout delay count ≤ rtoTimeout delay n := by
  rw [rtoTimeout_of_lt h, rtoTimeout_of_lt ((shift_mono delay hcount).trans_lt h)]
  exact min_le_min_right _ (shift_mono delay hcount)

/-- If all timeouts up to the `n`-th are bounded from below, the shift does not overflow. -/
theorem shift_lt_of_bounds (hdelay : delay < maxRTOTimeout)
    (hbounds : ∀ count ≤ n, minRTOTimeout ≤ rtoTimeout delay count) :
    rtoBase delay * 2 ^ n < 2 ^ 63 := by
  induction n with
  | zero =>
    rw [pow_zero, mul_one]
    exact (rtoBase_lt hdelay).trans (by decide)
  | succ n ih =>
    have hn := ih fun count hcount => hbounds count (Nat.le_succ_of_le hcount)
    by_contra hover
    have hdouble : rtoBase delay * 2 ^ (n + 1) = 2 * (rtoBase delay * 2 ^ n) := by ring
    have hneg := rtoTimeout_of_overflow (Int.not_lt.mp hover) (by omega)
    exact absurd ((hbounds (n + 1) le_rfl).trans_lt hneg) (by decide)

/-- The count is far from wrapping around. -/
theorem count_lt_of_shift_lt (h : rtoBase delay * 2 ^ count < 2 ^ 63) : count < 63 := by
  by_contra hcount
  have hbase : 1 ≤ rtoBase delay := le_trans (by decide) (minRTOTimeout_le_rtoBase delay)
  have hpow : (2 : ℤ) ^ 63 ≤ 2 ^ count := pow_le_pow_right₀ one_le_two (Nat.le_of_not_lt hcount)
  have hle : (2 : ℤ) ^ count ≤ rtoBase delay * 2 ^ count :=
    le_mul_of_one_le_left (by positivity) hbase
  omega

end Timeout

/-! ## Runs without acknowledgements -/

/-- The timeout of the alarm, if it is one for a retransmission timeout. -/
def SentPacketHandler.armedRTO (h : SentPacketHandler) (env : SentEnv) : Option ℤ :=
  if h.packetHistory.length ≠ 0 ∧ h.lossTime = none ∧
      ¬ (env.smoothedRTT ≠ 0 ∧ h.tlpCount < maxTailLossProbes) then
    h.alarm.map fun alarm => alarm - h.lastSentTime
  else none

/-- The retransmission timeout that a call arms. A packet that is not accepted arms nothing. -/
def SentPacketHandler.armedBy (h : SentPacketHandler) : SentOp → Option ℤ
  | .sentPacket packet env =>
    match h.sentPacket packet env with
    | (h, none) => h.armedRTO env
    | (_, some _) => none
  | .onAlarm env => (h.onAlarm env).armedRTO env
  | _ => none

/-- The retransmission timeouts that are armed one after the other. -/
def SentRun.armedTimeouts : SentRun → List SentOp → List ℤ
  | _, [] => []
  | r, op :: ops => (r.handler.armedBy op).toList ++ armedTimeouts (r.step op) ops

/-- A call that acknowledges nothing. The delay does not change without acknowledgements. -/
def SentOp.Unacked (delay : ℤ) : SentOp → Prop
  | .sentPacket _ env => env.retransmissionDelay = delay
  | .onAlarm env => env.retransmissionDelay = delay
  | .receivedAck _ _ _ => False
  | .receivedClosePath _ _ => False
  | .setInflightAsLost => True
  | .dequeuePacketForRetransmission => True

section RtoCount

variable {h : SentPacketHandler} {env : SentEnv}

theorem rtoCount_updateLossDetectionAlarm :
    (h.updateLossDetectionAlarm env).rtoCount = h.rtoCount := by
  unfold updateLossDetectionAlarm
  split
  · rfl
  split
  · rfl
  split <;> rfl

theorem rtoCount_foldl_queue (packets : List Packet) :
    (packets.foldl queuePacketForRetransmission h).rtoCount = h.rtoCount := by
  induction packets generalizing h with
  | nil => rfl
  | cons p packets ih => exact ih

theorem rtoCount_detectLostPackets : (h.detectLostPackets env).rtoCount = h.rtoCount :=
  rtoCount_foldl_queue _

/-- `OnAlarm` counts a timeout, or none. -/
theorem rtoCount_onAlarm :
    (h.onAlarm env).rtoCount = h.rtoCount ∨
      (h.onAlarm env).rtoCount = (h.rtoCount + 1) % 2 ^ 32 := by
  unfold onAlarm
  split
  · exact Or.inl rfl
  · rw [rtoCount_updateLossDetectionAlarm]
    split
    · exact Or.inl rtoCount_detectLostPackets
    split
    · refine Or.inl ?_
      unfold retransmitTLP
      split <;> rfl
    split
    · exact Or.inr rfl
    · exact Or.inr rfl

theorem rtoCount_sentPacket (packet : Packet) :
    (h.sentPacket packet env).1.rtoCount = h.rtoCount := by
  unfold sentPacket
  split
  · rfl
  split
  · rfl
  rw [rtoCount_updateLossDetectionAlarm]
  split <;> rfl

/-- Without acknowledgements the count is never reset. -/
theorem rtoCount_step {r : SentRun} {op : SentOp} {delay : ℤ} (hop : op.Unacked delay) :
    (r.step op).handler.rtoCount = r.handler.rtoCount ∨
      (r.step op).handler.rtoCount = (r.handler.rtoCount + 1) % 2 ^ 32 := by
  cases op with
  | sentPacket packet env => exact Or.inl (rtoCount_sentPacket packet)
  | receivedAck frame withPacketNumber env => exact hop.elim
  | receivedClosePath frame withPacketNumber => exact hop.elim
  | onAlarm env => exact rtoCount_onAlarm
  | setInflightAsLost => exact Or.inl (rtoCount_foldl_queue _)
  | dequeuePacketForRetransmission =>
    refine Or.inl ?_
    unfold SentRun.step dequeuePacketForRetransmission
    dsimp only
    split <;> rfl

/-- The alarm is armed with the timeout, or with the least timeout. -/
theorem armedRTO_updateLossDetectionAlarm {t : ℤ}
    (ht : (h.updateLossDetectionAlarm env).armedRTO env = some t) :
    t = max (rtoTimeout env.retransmissionDelay h.rtoCount) minRetransmissionTime := by
  unfold updateLossDetectionAlarm at ht
  split at ht
  · unfold armedRTO at ht
    split at ht <;> cases ht
  split at ht
  · next hloss =>
    unfold armedRTO at ht
    rw [if_neg fun hrto => hloss hrto.2.1] at ht
    cases ht
  split at ht
  · next hprobe =>
    unfold armedRTO at ht
    rw [if_neg fun hrto => hrto.2.2 hprobe] at ht
    cases ht
  · unfold armedRTO at ht
    split at ht
    · obtain ⟨alarm, halarm, rfl⟩ := Option.map_eq_some_iff.mp ht
      cases halarm
      exact add_sub_cancel_left _ _
    · cases ht

/-- What a call arms is told by the count after the call. -/
theorem armedBy_eq {r : SentRun} {op : SentOp} {delay t : ℤ} (hop : op.Unacked delay)
    (ht : r.handler.armedBy op = some t) :
    t = max (rtoTimeout delay (r.step op).handler.rtoCount) minRetransmissionTime := by
  cases op with
  | sentPacket packet env =>
    obtain rfl : env.retransmissionDelay = delay := hop
    change t = max (rtoTimeout _ (r.handler.sentPacket packet env).1.rtoCount) _
    unfold armedBy at ht
    rcases r.handler.sentPacket_cases packet env with ⟨err, heq⟩ | ⟨h', heq, -⟩
    · simp only [heq] at ht
      cases ht
    · simp only [heq] at ht ⊢
      rw [rtoCount_updateLossDetectionAlarm]
      exact armedRTO_updateLossDetectionAlarm ht
  | onAlarm env =>
    obtain rfl : env.retransmissionDelay = delay := hop
    change (r.handler.onAlarm env).armedRTO env = some t at ht
    change t = max (rtoTimeout _ (r.handler.onAlarm env).rtoCount) _
    unfold onAlarm at ht ⊢
    split at ht
    · unfold armedRTO at ht
      split at ht <;> cases ht
    · next hoff =>
      rw [if_neg hoff, rtoCount_updateLossDetectionAlarm]
      exact armedRTO_updateLossDetectionAlarm ht
  | receivedAck frame withPacketNumber env => cases ht
  | receivedClosePath frame withPacketNumber => cases ht
  | setInflightAsLost => cases ht
  | dequeuePacketForRetransmission => cases ht

end RtoCount

/-- **What is armed in a run without acknowledgements does not shrink,** as long as the shift does not
overflow for any count of the run. -/
theorem SentRun.armedTimeouts_sorted {delay : ℤ} {n : ℕ} (hn : rtoBase delay * 2 ^ n < 2 ^ 63)
    {ops : List SentOp} (hops : ∀ op ∈ ops, op.Unacked delay) {r : SentRun}
    (hcounts : ∀ before, before <+: ops → (before.foldl step r).handler.rtoCount ≤ n) :
    (r.armedTimeouts ops).Pairwise (· ≤ ·) ∧
      ∀ t ∈ r.armedTimeouts ops,
        max (rtoTimeout delay r.handler.rtoCount) minRetransmissionTime ≤ t := by
  induction ops generalizing r with
  | nil => exact ⟨List.Pairwise.nil, fun t ht => by cases ht⟩
  | cons op ops ih =>
    obtain ⟨hop, hops⟩ := List.forall_mem_cons.mp hops
    have hstart : r.handler.rtoCount ≤ n := hcounts [] (List.nil_prefix)
    have hnext : (r.step op).handler.rtoCount ≤ n :=
      hcounts [op] (List.prefix_append [op] ops)
    obtain ⟨hsorted, hlater⟩ := ih hops fun before hbefore =>
      hcounts (op :: before) (List.cons_prefix_cons.mpr ⟨rfl, hbefore⟩)
    -- the count does not wrap around
    have hcount : r.handler.rtoCount ≤ (r.step op).handler.rtoCount := by
      have hsmall := count_lt_of_shift_lt hn
      rcases rtoCount_step (r := r) hop with heq | heq
      · exact heq.ge
      · rw [heq, Nat.mod_eq_of_lt (by omega)]
        exact Nat.le_succ _
    have hgrow : rtoTimeout delay r.handler.rtoCount ≤
        rtoTimeout delay (r.step op).handler.rtoCount :=
      rtoTimeout_mono hcount ((shift_mono delay hnext).trans_lt hn)
    have hbound := max_le_max_right minRetransmissionTime hgrow
    rw [armedTimeouts]
    cases harmed : r.handler.armedBy op with
    | none => exact ⟨hsorted, fun t ht => hbound.trans (hlater t ht)⟩
    | some t₀ =>
      obtain rfl := armedBy_eq hop harmed
      refine ⟨List.pairwise_cons.mpr ⟨hlater, hsorted⟩, fun t ht => ?_⟩
      rcases List.mem_cons.mp ht with rfl | ht
      · exact hbound
      · exact hbound.trans (hlater t ht)

/-- **The timeouts up to `n` timeouts in a row are bounded and do not shrink iff the shift by `n` does
not overflow:** neither from one count to the next, nor in a run without acknowledgements. -/
theorem backoff_iff {delay : ℤ} (hdelay : delay < maxRTOTimeout) (n : ℕ) :
    ((∀ (h : SentPacketHandler) (env : SentEnv), env.retransmissionDelay = delay → h.rtoCount ≤ n →
        minRTOTimeout ≤ h.computeRTOTimeout env ∧ h.computeRTOTimeout env ≤ maxRTOTimeout) ∧
      (∀ (h : SentPacketHandler) (env : SentEnv), env.retransmissionDelay = delay → h.rtoCount < n →
        h.computeRTOTimeout env ≤
          { h with rtoCount := h.rtoCount + 1 }.computeRTOTimeout env) ∧
      ∀ (r : SentRun) (ops : List SentOp), (∀ op ∈ ops, op.Unacked delay) →
        (∀ before, before <+: ops → (before.foldl SentRun.step r).handler.rtoCount ≤ n) →
        (r.armedTimeouts ops).Pairwise (· ≤ ·)) ↔
    rtoBase delay * 2 ^ n < 2 ^ 63 := by
  constructor
  · rintro ⟨hbounds, -, -⟩
    refine shift_lt_of_bounds hdelay fun count hcount => ?_
    exact (hbounds { newSentPacketHandler with rtoCount := count } ⟨0, 0, 0, 0, delay, false⟩ rfl
      hcount).1
  · intro hn
    have hle : ∀ count ≤ n, rtoBase delay * 2 ^ count < 2 ^ 63 := fun count hcount =>
      (shift_mono delay hcount).trans_lt hn
    refine ⟨?_, ?_, ?_⟩
    · rintro h env rfl hcount
      exact rtoTimeout_bounds (hle _ hcount)
    · rintro h env rfl hcount
      exact rtoTimeout_mono (Nat.le_succ _) (hle _ hcount)
    · intro r ops hops hcounts
      exact (SentRun.armedTimeouts_sorted hn hops hcounts).1

/-- Without a round-trip time, 34 timeouts in a row do no harm. -/
theorem backoff_noRoundTripTime :
    minRTOTimeout ≤
        { newSentPacketHandler with rtoCount := 34 }.computeRTOTimeout ⟨0, 0, 0, 0, 0, false⟩ ∧
      { newSentPacketHandler with rtoCount := 34 }.computeRTOTimeout ⟨0, 0, 0, 0, 0, false⟩ ≤
        maxRTOTimeout :=
  ((backoff_iff (by decide) 34).mpr (by decide)).1 { newSentPacketHandler with rtoCount := 34 }
    ⟨0, 0, 0, 0, 0, false⟩ rfl le_rfl

/-- Packets that are sent one after the other, each of them when the alarm for the one before has gone
off. -/
def unansweredPackets (count : ℕ) : List SentOp :=
  let env : SentEnv := ⟨0, 0, 0, 0, 0, false⟩
  (List.range count).flatMap fun i =>
    [.sentPacket ⟨i + 1, [.ping], 100, .forwardSecure, 0⟩ env, .onAlarm env]

/-- **The shift overflows after 35 timeouts in a row:** the timeout is negative, and the alarm is armed
with 200 ms after it was armed with 60 s. -/
theorem backoff_overflows :
    (SentRun.run (unansweredPackets 37)).handler.rtoCount = 35 ∧
    (SentRun.run (unansweredPackets 37)).handler.computeRTOTimeout ⟨0, 0, 0, 0, 0, false⟩ < 0 ∧
    (SentRun.init.armedTimeouts (unansweredPackets 38)).drop 36 = [maxRTOTimeout, minRTOTimeout] := by
  decide +kernel

end MultipathQuic
