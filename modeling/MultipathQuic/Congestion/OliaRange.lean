import MultipathQuic.Congestion.OliaSender
import MultipathQuic.Library.Runs

/-!
# The range of the OLIA windows

A window only shrinks by a packet in congestion avoidance if another window is strictly smaller, so
that no window falls below the minimum as long as none is below it. This takes all senders at once,
and the counter of the growth, which may be negative.

## Main definitions

* `OliaSenders.InRange`: all windows are in range
* `runOlia`: a run

## Main results

* `oliaWindows_inRange`: the windows stay in range
-/

namespace MultipathQuic

open Runs

/-- The losses are in order. -/
structure Olia.Ordered (o : Olia) : Prop where
  loss1_le : o.loss1 ≤ o.loss2
  loss2_le : o.loss2 ≤ o.loss3

/-- The window of a sender is in range. -/
structure OliaSender.InRange (o : OliaSender) : Prop where
  minCongestionWindow_eq : o.minCongestionWindow = 2
  ge : 2 ≤ o.congestionWindow
  le : o.congestionWindow ≤ o.maxTCPCongestionWindow
  initial_ge : 2 ≤ o.initialCongestionWindow
  initial_le : o.initialCongestionWindow ≤ o.initialMaxCongestionWindow
  max_eq : o.maxTCPCongestionWindow = o.initialMaxCongestionWindow
  max_lt : o.maxTCPCongestionWindow < 2 ^ 64
  ordered : o.olia.Ordered
  counter : o.olia.CounterInRange

/-- All senders are in range. -/
def OliaSenders.InRange (m : OliaSenders) : Prop := ∀ id ∈ m.ids, (m.sender id).InRange

/-! ## One sender -/

namespace OliaSender

variable {o : OliaSender}

theorem inRange_newOliaSender (rttStats : RTTStats) {initialWindow maxWindow : ℕ}
    (hge : 2 ≤ initialWindow) (hle : initialWindow ≤ maxWindow) (hlt : maxWindow < 2 ^ 64) :
    (newOliaSender rttStats initialWindow maxWindow).InRange :=
  ⟨rfl, hge, hle, hge, hle, rfl, hlt, ⟨le_rfl, le_rfl⟩, Olia.counterInRange_newOlia 0⟩

/-- What matters of a sender is its window, its bounds and its losses. -/
theorem InRange.congr {o' : OliaSender} (h : o.InRange)
    (hmin : o'.minCongestionWindow = o.minCongestionWindow)
    (hmax : o'.maxTCPCongestionWindow = o.maxTCPCongestionWindow)
    (hinitial : o'.initialCongestionWindow = o.initialCongestionWindow)
    (hinitialMax : o'.initialMaxCongestionWindow = o.initialMaxCongestionWindow)
    (hge : 2 ≤ o'.congestionWindow) (hle : o'.congestionWindow ≤ o.maxTCPCongestionWindow)
    (hordered : o'.olia.Ordered) (hcounter : o'.olia.CounterInRange) : o'.InRange where
  minCongestionWindow_eq := hmin.trans h.minCongestionWindow_eq
  ge := hge
  le := hmax ▸ hle
  initial_ge := hinitial ▸ h.initial_ge
  initial_le := hinitial ▸ hinitialMax ▸ h.initial_le
  max_eq := by rw [hmax, hinitialMax, h.max_eq]
  max_lt := hmax ▸ h.max_lt
  ordered := hordered
  counter := hcounter

/-- A change to another part of a sender. -/
theorem InRange.of_eq {o' : OliaSender} (h : o.InRange)
    (hmin : o'.minCongestionWindow = o.minCongestionWindow)
    (hmax : o'.maxTCPCongestionWindow = o.maxTCPCongestionWindow)
    (hinitial : o'.initialCongestionWindow = o.initialCongestionWindow)
    (hinitialMax : o'.initialMaxCongestionWindow = o.initialMaxCongestionWindow)
    (hcwnd : o'.congestionWindow = o.congestionWindow) (holia : o'.olia = o.olia) : o'.InRange :=
  h.congr hmin hmax hinitial hinitialMax (hcwnd ▸ h.ge) (hcwnd ▸ h.le) (holia ▸ h.ordered)
    (holia ▸ h.counter)

theorem InRange.onPacketSent (h : o.InRange) (packetNumber bytes : ℕ) (isRetransmittable : Bool) :
    (o.onPacketSent packetNumber bytes isRetransmittable).InRange := by
  cases isRetransmittable
  · exact h
  · exact h.of_eq rfl rfl rfl rfl rfl rfl

theorem InRange.maybeExitSlowStart (h : o.InRange) : o.maybeExitSlowStart.InRange := by
  unfold OliaSender.maybeExitSlowStart
  split_ifs
  · dsimp only
    split_ifs <;> exact h.of_eq rfl rfl rfl rfl rfl rfl
  · exact h

/-- A window that is cut by one stays in range, as it is not cut below the minimum. -/
theorem InRange.max_sub64_one (h : o.InRange) :
    2 ≤ max (sub64 o.congestionWindow 1) o.minCongestionWindow ∧
      max (sub64 o.congestionWindow 1) o.minCongestionWindow ≤ o.maxTCPCongestionWindow := by
  have hge := h.ge
  have hle := h.le
  have hlt := h.max_lt
  rw [h.minCongestionWindow_eq, sub64_of_le (by omega) (by omega)]
  omega

theorem InRange.onPacketLostBeforeCutback (h : o.InRange) (lostBytes : ℕ) :
    (o.onPacketLostBeforeCutback lostBytes).InRange := by
  have hcut := h.max_sub64_one
  unfold OliaSender.onPacketLostBeforeCutback
  dsimp only
  split_ifs
  · exact h.congr rfl rfl rfl rfl hcut.1 hcut.2 h.ordered h.counter
  · exact h.of_eq rfl rfl rfl rfl rfl rfl
  · exact h.of_eq rfl rfl rfl rfl rfl rfl
  · exact h

theorem InRange.onPacketLost {mulRenoBeta : ℤ → ℕ → ℕ} (hbeta : ∀ n w, mulRenoBeta n w ≤ w)
    (h : o.InRange) (packetNumber lostBytes bytesInFlight : ℕ) :
    (o.onPacketLost mulRenoBeta packetNumber lostBytes bytesInFlight).InRange := by
  unfold OliaSender.onPacketLost
  split_ifs
  · exact h.onPacketLostBeforeCutback lostBytes
  · have hge := h.ge
    have hle := h.le
    have hlt := h.max_lt
    have hmin := h.minCongestionWindow_eq
    have hmul := hbeta o.numConnections o.congestionWindow
    have hsub : sub64 o.congestionWindow 1 = o.congestionWindow - 1 :=
      sub64_of_le (by omega) (by omega)
    refine h.congr rfl rfl rfl rfl ?_ ?_ ⟨h.ordered.loss2_le, le_rfl⟩ ⟨h.counter.gt, h.counter.lt⟩
    · dsimp only
      split_ifs <;> omega
    · dsimp only
      split_ifs <;> omega

theorem InRange.onRetransmissionTimeout (h : o.InRange) (packetsRetransmitted : Bool) :
    (o.onRetransmissionTimeout packetsRetransmitted).InRange := by
  unfold OliaSender.onRetransmissionTimeout
  split_ifs
  · have hmin := h.minCongestionWindow_eq
    have hge := h.ge
    have hle := h.le
    refine h.congr rfl rfl rfl rfl ?_ ?_ ⟨le_rfl, le_rfl⟩ Olia.counterInRange_reset
    · exact le_of_eq hmin.symm
    · dsimp only
      omega
  · exact h.of_eq rfl rfl rfl rfl rfl rfl

theorem InRange.onConnectionMigration (h : o.InRange) : o.onConnectionMigration.InRange where
  minCongestionWindow_eq := h.minCongestionWindow_eq
  ge := h.initial_ge
  le := h.initial_le
  initial_ge := h.initial_ge
  initial_le := h.initial_le
  max_eq := rfl
  max_lt := lt_of_le_of_lt (le_of_eq h.max_eq.symm) h.max_lt
  ordered := ⟨le_rfl, le_rfl⟩
  counter := Olia.counterInRange_reset

end OliaSender

/-! ## All senders -/

namespace OliaSenders

variable {m : OliaSenders} {id : PathID}

/-- A negative epsilon takes another sender with a smaller window. -/
theorem epsilonOf_cases (hid : id ∈ m.ids) (best : BestPath) :
    ((m.epsilonOf best (m.sender id)).1 = -1 ∧
      ∃ id' ∈ m.ids, (m.sender id').congestionWindow < (m.sender id).congestionWindow) ∨
    (((m.epsilonOf best (m.sender id)).1 = 0 ∨ (m.epsilonOf best (m.sender id)).1 = 1) ∧
      1 ≤ (m.epsilonOf best (m.sender id)).2 ∧ (m.epsilonOf best (m.sender id)).2 < 2 ^ 16) := by
  unfold epsilonOf
  dsimp only
  split_ifs with hnone hbest hmax
  · exact Or.inr ⟨Or.inl rfl, by decide, by decide⟩
  · -- the denominator is a product of two small numbers
    have hlen := m.length_ids_le
    have hpos : 0 < m.ids.length := List.length_pos_of_mem hid
    have hcount : m.countBNotM best < 2 ^ 8 := Nat.mod_lt _ (by decide)
    generalize m.countBNotM best = n at hnone hcount ⊢
    have hle : m.ids.length * n ≤ 256 * 255 := Nat.mul_le_mul hlen (by omega)
    have hge : 0 < m.ids.length * n := Nat.mul_pos hpos (by omega)
    omega
  · refine Or.inl ⟨rfl, ?_⟩
    have hcount : 0 < m.ids.countP (m.isBestNotMax best) := by
      refine Nat.pos_of_ne_zero fun hzero => hnone ?_
      rw [countBNotM, hzero, Nat.zero_mod]
    obtain ⟨id', hid', hne⟩ := List.countP_pos_iff.mp hcount
    refine ⟨id', hid', ?_⟩
    have hle := m.le_getMaxCwnd hid'
    have hne' := (isBestNotMax_iff.mp hne).1
    omega
  · exact Or.inr ⟨Or.inl rfl, by decide, by decide⟩

theorem sender_getEpsilon (hid : id ∈ m.ids) (order : MapOrder PathID) :
    (m.getEpsilon order).sender id = { m.sender id with
      olia := (m.sender id).olia.setEpsilon
        (m.epsilonOf (m.bestPath (order.order m.ids)) (m.sender id)) } := by
  unfold getEpsilon
  simp only [hid, if_true]

namespace InRange

theorem getEpsilon (h : m.InRange) (order : MapOrder PathID) : (m.getEpsilon order).InRange := by
  intro id hid
  have hmem : id ∈ m.ids := hid
  have hin := h id hmem
  rw [sender_getEpsilon hmem]
  exact hin.congr rfl rfl rfl rfl hin.ge hin.le ⟨hin.ordered.loss1_le, hin.ordered.loss2_le⟩
    ⟨hin.counter.gt, hin.counter.lt⟩

/-- A change to one sender. -/
theorem modify (h : m.InRange) {f : OliaSender → OliaSender}
    (hf : id ∈ m.ids → (f (m.sender id)).InRange) : (m.modify id f).InRange := by
  intro id' hid'
  by_cases heq : id' = id
  · subst heq
    rw [sender_modify_self]
    exact hf hid'
  · rw [sender_modify_of_ne _ _ heq]
    exact h id' hid'

theorem insert (h : m.InRange) {o : OliaSender} (ho : o.InRange) : (m.insert id o).InRange := by
  intro id' hid'
  by_cases heq : id' = id
  · subst heq
    exact (congrArg OliaSender.InRange (Function.update_self ..)).mpr ho
  · have hmem : id' ∈ m.ids := by
      unfold OliaSenders.insert at hid'
      split_ifs at hid'
      · exact hid'
      · exact (List.mem_cons.mp hid').resolve_left heq
    exact (congrArg OliaSender.InRange (Function.update_of_ne heq ..)).mpr (h id' hmem)

end InRange

/-- The product that an increase is divided by does not overflow. -/
def IncDenFits (m : OliaSenders) (id : PathID) (order : MapOrder PathID) : Prop :=
  let m := m.getEpsilon order
  let o := m.sender id
  o.olia.epsilonDen * o.congestionWindow * m.getRate o.rttStats.smoothedRTT < 2 ^ 64

/-- An ACK of a sender leads to congestion avoidance. -/
def avoids (m : OliaSenders) (id : PathID) (bytesInFlight : ℕ) : Bool :=
  let o := m.sender id
  o.isCwndLimited bytesInFlight && o.congestionWindow < o.maxTCPCongestionWindow && !o.inSlowStart

/-- An ACK in congestion avoidance does not take the window below the minimum: it only shrinks if
another window is strictly smaller. -/
theorem two_le_congestionWindowAfterAck (h : m.InRange) (hid : id ∈ m.ids)
    (hlt : (m.sender id).congestionWindow < (m.sender id).maxTCPCongestionWindow)
    (order : MapOrder PathID) (hfit : m.IncDenFits id order) :
    let m' := m.getEpsilon order
    let o := m'.sender id
    2 ≤ (o.olia.congestionWindowAfterAck o.congestionWindow
      (m'.getRate o.rttStats.smoothedRTT) (oliaScale o.congestionWindow)).2 := by
  have hin := h id hid
  have hge := hin.ge
  have hmax := hin.max_lt
  have hcases := m.epsilonOf_cases hid (m.bestPath (order.order m.ids))
  unfold IncDenFits at hfit
  dsimp only at hfit ⊢
  rw [sender_getEpsilon hid] at hfit ⊢
  dsimp only at hfit ⊢
  generalize (m.getEpsilon order).getRate (m.sender id).rttStats.smoothedRTT = rate at hfit ⊢
  generalize m.epsilonOf (m.bestPath (order.order m.ids)) (m.sender id) = epsilon at *
  rcases Olia.congestionWindowAfterAck_cases (o := (m.sender id).olia.setEpsilon epsilon) hge
    (by omega) rate (oliaScale (m.sender id).congestionWindow) with heq | heq | ⟨heq, hdown⟩
  · omega
  · omega
  · by_contra hsmall
    have htwo : (m.sender id).congestionWindow = 2 := by omega
    rcases hcases with ⟨-, id', hid', hless⟩ | ⟨hnum, hden, hden'⟩
    · have := (h id' hid').ge
      omega
    · rw [htwo] at hfit hdown
      have hcounter : ((m.sender id).olia.setEpsilon epsilon).CounterInRange :=
        ⟨hin.counter.gt, hin.counter.lt⟩
      have hle := Olia.le_increased hnum hden hden' hfit hcounter
      have hgt := hcounter.gt
      omega

namespace InRange

theorem avoidCongestion (h : m.InRange) (hid : id ∈ m.ids)
    (hlt : (m.sender id).congestionWindow < (m.sender id).maxTCPCongestionWindow)
    (order : MapOrder PathID) (hfit : m.IncDenFits id order) :
    (m.avoidCongestion id order).InRange := by
  have hwindow := two_le_congestionWindowAfterAck h hid hlt order hfit
  have hepsilon := h.getEpsilon order
  unfold OliaSenders.avoidCongestion
  dsimp only at hwindow ⊢
  refine hepsilon.modify fun hmem => ?_
  have hin := hepsilon id hmem
  have hge := hin.ge
  have hle := hin.le
  refine hin.congr rfl rfl rfl rfl ?_ (min_le_left _ _) ?_
    (Olia.sndCwndCnt_congestionWindowAfterAck _)
  · exact le_min (le_trans hge hle) hwindow
  · rw [Olia.congestionWindowAfterAck_losses]
    exact ⟨hin.ordered.loss1_le, hin.ordered.loss2_le⟩

theorem maybeIncreaseCwnd (h : m.InRange) (hid : id ∈ m.ids) (bytesInFlight : ℕ)
    (order : MapOrder PathID)
    (hfit : m.avoids id bytesInFlight = true → m.IncDenFits id order) :
    (m.maybeIncreaseCwnd id bytesInFlight order).InRange := by
  unfold OliaSenders.maybeIncreaseCwnd
  dsimp only
  split_ifs with hlimited hmax hslow
  · exact h
  · exact h
  · refine h.modify fun hmem => ?_
    have hin := h id hmem
    have hge := hin.ge
    have hlt := hin.max_lt
    have hadd : add64 (m.sender id).congestionWindow 1 = (m.sender id).congestionWindow + 1 :=
      add64_of_lt (by omega)
    refine hin.congr rfl rfl rfl rfl ?_ ?_ hin.ordered hin.counter
    · dsimp only
      omega
    · dsimp only
      omega
  · refine h.avoidCongestion hid (Nat.lt_of_not_le hmax) order (hfit ?_)
    simp only [avoids, Bool.and_eq_true, decide_eq_true_eq, Bool.not_eq_true']
    exact ⟨⟨by simpa using hlimited, Nat.lt_of_not_le hmax⟩, by simpa using hslow⟩

theorem countAcked (h : m.InRange) {ackedBytes : ℕ}
    (hfit : id ∈ m.ids → (m.sender id).olia.loss3 + ackedBytes < 2 ^ 64) :
    (m.countAcked id ackedBytes).InRange := by
  refine h.modify fun hid => ?_
  have hin := h id hid
  have hloss := hin.ordered.loss2_le
  refine hin.congr rfl rfl rfl rfl hin.ge hin.le ⟨hin.ordered.loss1_le, ?_⟩
    ⟨hin.counter.gt, hin.counter.lt⟩
  dsimp only [Olia.updateAckedSinceLastLoss]
  rw [add64_of_lt (hfit hid)]
  omega

theorem acknowledge (h : m.InRange) (ackedPacketNumber : ℕ) :
    (m.acknowledge id ackedPacketNumber).InRange :=
  h.modify fun hid => (h id hid).of_eq rfl rfl rfl rfl rfl rfl

end InRange

end OliaSenders

/-! ## Runs -/

/-- A call on a sender, the creation of one, or a new round-trip time. -/
inductive OliaOp
  | create (id : PathID) (rttStats : RTTStats) (initialWindow maxWindow : ℕ)
  | updateRTT (id : PathID) (rttStats : RTTStats)
  | onPacketSent (id : PathID) (packetNumber bytes : ℕ) (isRetransmittable : Bool)
  | onPacketAcked (id : PathID) (ackedPacketNumber ackedBytes bytesInFlight : ℕ)
      (order : MapOrder PathID)
  | onPacketLost (id : PathID) (packetNumber lostBytes bytesInFlight : ℕ)
  | onRetransmissionTimeout (id : PathID) (packetsRetransmitted : Bool)
  | maybeExitSlowStart (id : PathID)
  | setNumEmulatedConnections (id : PathID) (n : ℤ)
  | setSlowStartLargeReduction (id : PathID) (enabled : Bool)
  | onConnectionMigration (id : PathID)

/-- One call. Only senders of the map are called. -/
def OliaSenders.step (mulRenoBeta : ℤ → ℕ → ℕ) (m : OliaSenders) : OliaOp → OliaSenders
  | .create id rttStats initialWindow maxWindow =>
    m.insert id (newOliaSender rttStats initialWindow maxWindow)
  | .updateRTT id rttStats => m.modify id fun o => { o with rttStats := rttStats }
  | .onPacketSent id packetNumber bytes isRetransmittable =>
    m.modify id fun o => o.onPacketSent packetNumber bytes isRetransmittable
  | .onPacketAcked id ackedPacketNumber ackedBytes bytesInFlight order =>
    if id ∈ m.ids then m.onPacketAcked id ackedPacketNumber ackedBytes bytesInFlight order else m
  | .onPacketLost id packetNumber lostBytes bytesInFlight =>
    m.modify id fun o => o.onPacketLost mulRenoBeta packetNumber lostBytes bytesInFlight
  | .onRetransmissionTimeout id packetsRetransmitted =>
    m.modify id fun o => o.onRetransmissionTimeout packetsRetransmitted
  | .maybeExitSlowStart id => m.modify id OliaSender.maybeExitSlowStart
  | .setNumEmulatedConnections id n => m.modify id fun o => o.setNumEmulatedConnections n
  | .setSlowStartLargeReduction id enabled => m.modify id fun o => o.setSlowStartLargeReduction enabled
  | .onConnectionMigration id => m.modify id OliaSender.onConnectionMigration

/-- No senders. -/
def OliaSenders.empty : OliaSenders where
  ids := []
  nodup := List.nodup_nil
  sender _ := newOliaSender ⟨0, 0, 0⟩ 2 2

/-- A run of calls. -/
def runOlia (mulRenoBeta : ℤ → ℕ → ℕ) (ops : List OliaOp) : OliaSenders :=
  ops.foldl (OliaSenders.step mulRenoBeta) .empty

/-- A sender is created with windows in range, and the products of an ACK do not overflow. -/
def OliaOp.Sound (m : OliaSenders) : OliaOp → Prop
  | .create _ _ initialWindow maxWindow =>
    2 ≤ initialWindow ∧ initialWindow ≤ maxWindow ∧ maxWindow < 2 ^ 64
  | .onPacketAcked id ackedPacketNumber ackedBytes bytesInFlight order =>
    let m := m.acknowledge id ackedPacketNumber
    (m.sender id).inRecovery = false →
      let m := m.countAcked id ackedBytes
      m.avoids id bytesInFlight = true → m.IncDenFits id order
  | _ => True

/-- The number of acknowledged bytes does not overflow. -/
def OliaOp.SumFits (m : OliaSenders) : OliaOp → Prop
  | .onPacketAcked id ackedPacketNumber ackedBytes _ _ =>
    ((m.acknowledge id ackedPacketNumber).sender id).inRecovery = false →
      (m.sender id).olia.loss3 + ackedBytes < 2 ^ 64
  | _ => True

namespace OliaSenders.InRange

variable {m : OliaSenders} {id : PathID}

theorem onPacketAcked (h : m.InRange) (hid : id ∈ m.ids)
    {ackedPacketNumber ackedBytes bytesInFlight : ℕ} {order : MapOrder PathID}
    (hsound :
      OliaOp.Sound m (.onPacketAcked id ackedPacketNumber ackedBytes bytesInFlight order))
    (hsum : OliaOp.SumFits m (.onPacketAcked id ackedPacketNumber ackedBytes bytesInFlight order)) :
    (m.onPacketAcked id ackedPacketNumber ackedBytes bytesInFlight order).InRange := by
  have hack : (m.acknowledge id ackedPacketNumber).InRange := h.acknowledge ackedPacketNumber
  unfold OliaSenders.onPacketAcked
  dsimp only
  split_ifs with hrecovery hslow
  · exact hack.modify fun hmem => (hack id hmem).of_eq rfl rfl rfl rfl rfl rfl
  all_goals
    have hnot := eq_false_of_ne_true hrecovery
    have hcount : ((m.acknowledge id ackedPacketNumber).countAcked id ackedBytes).InRange := by
      refine hack.countAcked fun _ => ?_
      have hloss : ((m.acknowledge id ackedPacketNumber).sender id).olia = (m.sender id).olia := by
        rw [OliaSenders.acknowledge, sender_modify_self]
      rw [hloss]
      exact hsum hnot
    have hincrease := hcount.maybeIncreaseCwnd hid bytesInFlight order (hsound hnot)
  · exact hincrease.modify fun hmem => (hincrease id hmem).of_eq rfl rfl rfl rfl rfl rfl
  · exact hincrease

/-- **Every call keeps all senders in range.** -/
theorem step {mulRenoBeta : ℤ → ℕ → ℕ} (hbeta : ∀ n w, mulRenoBeta n w ≤ w) (h : m.InRange)
    (op : OliaOp) (hsound : op.Sound m) (hsum : op.SumFits m) :
    (m.step mulRenoBeta op).InRange := by
  cases op with
  | create id rttStats initialWindow maxWindow =>
    obtain ⟨hge, hle, hlt⟩ := hsound
    exact h.insert (OliaSender.inRange_newOliaSender rttStats hge hle hlt)
  | updateRTT id rttStats =>
    exact h.modify fun hid => (h id hid).of_eq rfl rfl rfl rfl rfl rfl
  | onPacketSent id packetNumber bytes isRetransmittable =>
    exact h.modify fun hid => (h id hid).onPacketSent packetNumber bytes isRetransmittable
  | onPacketAcked id ackedPacketNumber ackedBytes bytesInFlight order =>
    unfold OliaSenders.step
    dsimp only
    split_ifs with hid
    · exact h.onPacketAcked hid hsound hsum
    · exact h
  | onPacketLost id packetNumber lostBytes bytesInFlight =>
    exact h.modify fun hid =>
      (h id hid).onPacketLost hbeta packetNumber lostBytes bytesInFlight
  | onRetransmissionTimeout id packetsRetransmitted =>
    exact h.modify fun hid => (h id hid).onRetransmissionTimeout packetsRetransmitted
  | maybeExitSlowStart id => exact h.modify fun hid => (h id hid).maybeExitSlowStart
  | setNumEmulatedConnections id n =>
    exact h.modify fun hid => (h id hid).of_eq rfl rfl rfl rfl rfl rfl
  | setSlowStartLargeReduction id enabled =>
    exact h.modify fun hid => (h id hid).of_eq rfl rfl rfl rfl rfl rfl
  | onConnectionMigration id => exact h.modify fun hid => (h id hid).onConnectionMigration

end OliaSenders.InRange

/-- **The windows stay in range.** Any number of senders share a map, and calls on them interleave
in any way, with any round-trip times. If the products of the calls and the numbers of acknowledged
bytes do not overflow, and `float32` multiplication by `RenoBeta` does not grow a window, then every
window stays between the minimum of two packets and its maximum, and the losses stay in order. -/
theorem oliaWindows_inRange (mulRenoBeta : ℤ → ℕ → ℕ) (hbeta : ∀ n w, mulRenoBeta n w ≤ w)
    (ops : List OliaOp)
    (hops : Along (OliaSenders.step mulRenoBeta) (fun m op => op.Sound m ∧ op.SumFits m)
      .empty ops) :
    ∀ id ∈ (runOlia mulRenoBeta ops).ids,
      let o := (runOlia mulRenoBeta ops).sender id
      o.minCongestionWindow = 2 ∧ o.minCongestionWindow ≤ o.congestionWindow ∧
        o.congestionWindow ≤ o.maxTCPCongestionWindow ∧
        o.olia.loss1 ≤ o.olia.loss2 ∧ o.olia.loss2 ≤ o.olia.loss3 := by
  have hempty : OliaSenders.empty.InRange := fun id hid => by cases hid
  have hrun : (runOlia mulRenoBeta ops).InRange :=
    hops.invariant hempty fun m op h hok => h.step hbeta op hok.1 hok.2
  intro id hid
  have hin := hrun id hid
  have hmin := hin.minCongestionWindow_eq
  exact ⟨hmin, hmin ▸ hin.ge, hin.le, hin.ordered.loss1_le, hin.ordered.loss2_le⟩

/-! ## Examples -/

instance OliaSenders.IncDenFits.decidable (m : OliaSenders) (id : PathID)
    (order : MapOrder PathID) : Decidable (m.IncDenFits id order) :=
  Nat.decLt _ _

instance OliaOp.Sound.decidable (m : OliaSenders) :
    (op : OliaOp) → Decidable (op.Sound m)
  | .create .. => inferInstanceAs (Decidable (_ ∧ _))
  | .onPacketAcked .. => inferInstanceAs (Decidable (_ → _))
  | .updateRTT .. | .onPacketSent .. | .onPacketLost .. | .onRetransmissionTimeout ..
  | .maybeExitSlowStart .. | .setNumEmulatedConnections .. | .setSlowStartLargeReduction ..
  | .onConnectionMigration .. => .isTrue trivial

instance OliaOp.SumFits.decidable (m : OliaSenders) : (op : OliaOp) → Decidable (op.SumFits m)
  | .onPacketAcked .. => inferInstanceAs (Decidable (_ → _))
  | .create .. | .updateRTT .. | .onPacketSent .. | .onPacketLost .. | .onRetransmissionTimeout ..
  | .maybeExitSlowStart .. | .setNumEmulatedConnections .. | .setSlowStartLargeReduction ..
  | .onConnectionMigration .. => .isTrue trivial

/-- Multiplication by 0.85, which is `RenoBeta` for two connections. -/
def mulTwoConnections (_ : ℤ) (w : ℕ) : ℕ := w * 17 / 20

/-- Two paths, a loss on the first one, and ACKs in congestion avoidance. -/
def lossAndAcks : List OliaOp :=
  [.create 1 ⟨20000000, 20000000, 20000000⟩ 32 2500,
    .create 3 ⟨50000000, 50000000, 50000000⟩ 2 2500,
    .onPacketSent 1 1 1350 true, .onPacketLost 1 1 1350 1350, .onPacketSent 1 2 1350 true,
    .onPacketAcked 1 2 1350 100000 (.inserted _), .onRetransmissionTimeout 3 true,
    .onPacketAcked 3 1 1350 100000 (.inserted _)]

theorem lossAndAcks_inRange :
    ((runOlia mulTwoConnections lossAndAcks).sender 1).congestionWindow = 27 ∧
    2 ≤ ((runOlia mulTwoConnections lossAndAcks).sender 3).congestionWindow := by
  have hbeta : ∀ n w, mulTwoConnections n w ≤ w := fun _ w =>
    Nat.div_le_of_le_mul (by omega)
  have hrange := oliaWindows_inRange mulTwoConnections hbeta lossAndAcks (by decide +kernel)
  refine ⟨by decide +kernel, ?_⟩
  obtain ⟨hmin, hge, -⟩ := hrange 3 (by decide +kernel)
  omega

/-- The number of acknowledged bytes overflows. -/
def bytesOverflow : List OliaOp :=
  [.create 1 ⟨20000000, 20000000, 20000000⟩ 32 2500,
    .onPacketAcked 1 1 (2 ^ 64 - 1) 0 (.inserted _), .onPacketLost 1 1 1350 0,
    .onPacketAcked 1 2 1 0 (.inserted _)]

/-- The sum of the acknowledged bytes is no product: after an overflow the last loss comes after the
current number of bytes. -/
theorem bytesOverflow_unordered :
    Along (OliaSenders.step mulTwoConnections) (fun m op => op.Sound m) .empty bytesOverflow ∧
    ((runOlia mulTwoConnections bytesOverflow).sender 1).olia.loss2 = 2 ^ 64 - 1 ∧
    ((runOlia mulTwoConnections bytesOverflow).sender 1).olia.loss3 = 0 := by
  decide +kernel

end MultipathQuic
