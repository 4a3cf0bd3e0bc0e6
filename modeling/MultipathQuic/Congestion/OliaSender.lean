import Mathlib.Data.List.Nodup
import Mathlib.Data.List.Perm.Subperm
import Mathlib.Logic.Function.Basic
import MultipathQuic.Congestion.Olia
import MultipathQuic.Library.Program

/-!
# Senders that share the OLIA algorithm

`congestion/olia_sender.go`, with `congestion/prr_sender.go` and `congestion/hybrid_slow_start.go`:
every path has a sender, and the senders are kept in one map, since the growth of a window depends
on the windows and the round-trip times of all paths. A sender stands for the ID of its path.

The product of the congestion window and `RenoBeta` is computed in `float32`. The model has it as a
function `mulRenoBeta` of the number of emulated connections and the window.

## Main definitions

* `OliaSender`, `OliaSenders`: a sender, and all senders
* `getEpsilon`, `getRate`: what depends on all paths
* `onPacketAcked`, `OliaSender.onPacketLost`: how windows change
-/

namespace MultipathQuic

/-- `protocol.DefaultTCPMSS`. -/
def defaultTCPMSS : ℕ := 1460

/-- `maxBurstBytes`. -/
def maxBurstBytes : ℕ := 3 * defaultTCPMSS

/-- `defaultMinimumCongestionWindow`. -/
def defaultMinimumCongestionWindow : ℕ := 2

/-- `defaultNumConnections`. -/
def defaultNumConnections : ℤ := 2

/-! ## Proportional rate reduction -/

/-- `PrrSender`. -/
structure PrrSender where
  bytesSentSinceLoss : ℕ
  bytesDeliveredSinceLoss : ℕ
  ackCountSinceLoss : ℕ
  bytesInFlightBeforeLoss : ℕ
  deriving DecidableEq, Repr

namespace PrrSender

/-- The zero value of a `PrrSender`. -/
def zero : PrrSender := ⟨0, 0, 0, 0⟩

variable (p : PrrSender)

/-- `OnPacketSent`. -/
def onPacketSent (sentBytes : ℕ) : PrrSender :=
  { p with bytesSentSinceLoss := add64 p.bytesSentSinceLoss sentBytes }

/-- `OnPacketLost`. -/
def onPacketLost (bytesInFlight : ℕ) : PrrSender where
  bytesSentSinceLoss := 0
  bytesDeliveredSinceLoss := 0
  ackCountSinceLoss := 0
  bytesInFlightBeforeLoss := bytesInFlight

/-- `OnPacketAcked`. -/
def onPacketAcked (ackedBytes : ℕ) : PrrSender :=
  { p with
    bytesDeliveredSinceLoss := add64 p.bytesDeliveredSinceLoss ackedBytes
    ackCountSinceLoss := add64 p.ackCountSinceLoss 1 }

end PrrSender

/-! ## Hybrid slow start -/

/-- `HybridSlowStart`. -/
structure HybridSlowStart where
  endPacketNumber : ℕ
  lastSentPacketNumber : ℕ
  started : Bool
  currentMinRTT : ℤ
  rttSampleCount : ℕ
  hystartFound : Bool
  deriving DecidableEq, Repr

namespace HybridSlowStart

/-- The zero value of a `HybridSlowStart`. -/
def zero : HybridSlowStart := ⟨0, 0, false, 0, 0, false⟩

variable (s : HybridSlowStart)

/-- `StartReceiveRound`. -/
def startReceiveRound (lastSent : ℕ) : HybridSlowStart :=
  { s with endPacketNumber := lastSent, currentMinRTT := 0, rttSampleCount := 0, started := true }

/-- `IsEndOfRound`. -/
def isEndOfRound (ack : ℕ) : Bool := s.endPacketNumber < ack

/-- By how much the round-trip time may grow in a round, in nanoseconds. -/
def minRTTincreaseThreshold (minRTT : ℤ) : ℤ :=
  max (min (minRTT.tdiv 1000 / 2 ^ 3) 16000) 4000 * 1000

/-- `ShouldExitSlowStart`. -/
def shouldExitSlowStart (latestRTT minRTT : ℤ) (congestionWindow : ℕ) :
    HybridSlowStart × Bool :=
  let s := if s.started then s else s.startReceiveRound s.lastSentPacketNumber
  if s.hystartFound then (s, true)
  else
    let s := { s with rttSampleCount := add32 s.rttSampleCount 1 }
    let s :=
      if s.rttSampleCount ≤ 8 ∧ (s.currentMinRTT = 0 ∨ s.currentMinRTT > latestRTT) then
        { s with currentMinRTT := latestRTT }
      else s
    let s :=
      if s.rttSampleCount = 8 ∧ s.currentMinRTT > minRTT + minRTTincreaseThreshold minRTT then
        { s with hystartFound := true }
      else s
    (s, congestionWindow ≥ 16 && s.hystartFound)

/-- `OnPacketSent`. -/
def onPacketSent (packetNumber : ℕ) : HybridSlowStart :=
  { s with lastSentPacketNumber := packetNumber }

/-- `OnPacketAcked`. -/
def onPacketAcked (ackedPacketNumber : ℕ) : HybridSlowStart :=
  if s.isEndOfRound ackedPacketNumber then { s with started := false } else s

/-- `Restart`. -/
def restart : HybridSlowStart := { s with started := false, hystartFound := false }

end HybridSlowStart

/-- What a sender reads of `RTTStats`. -/
structure RTTStats where
  smoothedRTT : ℤ
  latestRTT : ℤ
  minRTT : ℤ
  deriving DecidableEq, Repr

/-- `connectionStats`. -/
structure ConnectionStats where
  slowstartPacketsLost : ℕ
  slowstartBytesLost : ℕ
  deriving DecidableEq, Repr

/-! ## One sender -/

/-- `OliaSender`. -/
structure OliaSender where
  hybridSlowStart : HybridSlowStart
  prr : PrrSender
  rttStats : RTTStats
  stats : ConnectionStats
  olia : Olia
  largestSentPacketNumber : ℕ
  largestAckedPacketNumber : ℕ
  largestSentAtLastCutback : ℕ
  congestionWindow : ℕ
  slowstartThreshold : ℕ
  lastCutbackExitedSlowstart : Bool
  slowStartLargeReduction : Bool
  minCongestionWindow : ℕ
  maxTCPCongestionWindow : ℕ
  numConnections : ℤ
  congestionWindowCount : ℕ
  initialCongestionWindow : ℕ
  initialMaxCongestionWindow : ℕ
  deriving DecidableEq, Repr

/-- `NewOliaSender`. -/
def newOliaSender (rttStats : RTTStats) (initialCongestionWindow initialMaxCongestionWindow : ℕ) :
    OliaSender where
  hybridSlowStart := .zero
  prr := .zero
  rttStats := rttStats
  stats := ⟨0, 0⟩
  olia := newOlia 0
  largestSentPacketNumber := 0
  largestAckedPacketNumber := 0
  largestSentAtLastCutback := 0
  congestionWindow := initialCongestionWindow
  slowstartThreshold := initialMaxCongestionWindow
  lastCutbackExitedSlowstart := false
  slowStartLargeReduction := false
  minCongestionWindow := defaultMinimumCongestionWindow
  maxTCPCongestionWindow := initialMaxCongestionWindow
  numConnections := defaultNumConnections
  congestionWindowCount := 0
  initialCongestionWindow := initialCongestionWindow
  initialMaxCongestionWindow := initialMaxCongestionWindow

namespace OliaSender

variable (o : OliaSender)

/-- `GetCongestionWindow`. -/
def getCongestionWindow : ℕ := mul64 o.congestionWindow defaultTCPMSS

/-- `GetSlowStartThreshold`. -/
def getSlowStartThreshold : ℕ := mul64 o.slowstartThreshold defaultTCPMSS

/-- `InRecovery`. -/
def inRecovery : Bool :=
  o.largestAckedPacketNumber ≤ o.largestSentAtLastCutback && o.largestAckedPacketNumber != 0

/-- `InSlowStart`. -/
def inSlowStart : Bool := o.getCongestionWindow < o.getSlowStartThreshold

/-- `isCwndLimited`. -/
def isCwndLimited (bytesInFlight : ℕ) : Bool :=
  let congestionWindow := o.getCongestionWindow
  if bytesInFlight ≥ congestionWindow then true
  else
    let availableBytes := sub64 congestionWindow bytesInFlight
    let slowStartLimited := o.inSlowStart && bytesInFlight > congestionWindow / 2
    slowStartLimited || availableBytes ≤ maxBurstBytes

/-- `OnPacketSent`. -/
def onPacketSent (packetNumber bytes : ℕ) (isRetransmittable : Bool) : OliaSender :=
  if isRetransmittable then
    { o with
      prr := if o.inRecovery then o.prr.onPacketSent bytes else o.prr
      largestSentPacketNumber := packetNumber
      hybridSlowStart := o.hybridSlowStart.onPacketSent packetNumber }
  else o

/-- `ExitSlowstart`. -/
def exitSlowstart : OliaSender := { o with slowstartThreshold := o.congestionWindow }

/-- `MaybeExitSlowStart`. -/
def maybeExitSlowStart : OliaSender :=
  if o.inSlowStart then
    let (h, exit) := o.hybridSlowStart.shouldExitSlowStart o.rttStats.latestRTT o.rttStats.minRTT
      (o.getCongestionWindow / defaultTCPMSS)
    let o := { o with hybridSlowStart := h }
    if exit then o.exitSlowstart else o
  else o

/-- `OnPacketLost` for a packet that was sent before the last cutback. -/
def onPacketLostBeforeCutback (lostBytes : ℕ) : OliaSender :=
  if o.lastCutbackExitedSlowstart then
    let stats : ConnectionStats :=
      ⟨add64 o.stats.slowstartPacketsLost 1, add64 o.stats.slowstartBytesLost lostBytes⟩
    let o := { o with stats := stats }
    if o.slowStartLargeReduction then
      let o :=
        if stats.slowstartPacketsLost = 1 ∨ stats.slowstartBytesLost / defaultTCPMSS >
            sub64 stats.slowstartBytesLost lostBytes / defaultTCPMSS then
          { o with congestionWindow := max (sub64 o.congestionWindow 1) o.minCongestionWindow }
        else o
      { o with slowstartThreshold := o.congestionWindow }
    else o
  else o

/-- `OnPacketLost`. -/
def onPacketLost (mulRenoBeta : ℤ → ℕ → ℕ) (packetNumber lostBytes bytesInFlight : ℕ) :
    OliaSender :=
  if packetNumber ≤ o.largestSentAtLastCutback then o.onPacketLostBeforeCutback lostBytes
  else
    let inSlowStart := o.inSlowStart
    let reduced :=
      if o.slowStartLargeReduction && inSlowStart then sub64 o.congestionWindow 1
      else mulRenoBeta o.numConnections o.congestionWindow
    let congestionWindow :=
      if reduced < o.minCongestionWindow then o.minCongestionWindow else reduced
    { o with
      lastCutbackExitedSlowstart := inSlowStart
      stats :=
        if inSlowStart then
          { o.stats with slowstartPacketsLost := add64 o.stats.slowstartPacketsLost 1 }
        else o.stats
      prr := PrrSender.onPacketLost bytesInFlight
      olia := o.olia.onPacketLost
      congestionWindow := congestionWindow
      slowstartThreshold := congestionWindow
      largestSentAtLastCutback := o.largestSentPacketNumber
      congestionWindowCount := 0 }

/-- `SetNumEmulatedConnections`. -/
def setNumEmulatedConnections (n : ℤ) : OliaSender := { o with numConnections := max n 1 }

/-- `OnRetransmissionTimeout`. -/
def onRetransmissionTimeout (packetsRetransmitted : Bool) : OliaSender :=
  let o := { o with largestSentAtLastCutback := 0 }
  if packetsRetransmitted then
    { o with
      hybridSlowStart := o.hybridSlowStart.restart
      olia := Olia.reset
      slowstartThreshold := o.congestionWindow / 2
      congestionWindow := o.minCongestionWindow }
  else o

/-- `OnConnectionMigration`. -/
def onConnectionMigration : OliaSender :=
  { o with
    hybridSlowStart := o.hybridSlowStart.restart
    prr := .zero
    largestSentPacketNumber := 0
    largestAckedPacketNumber := 0
    largestSentAtLastCutback := 0
    lastCutbackExitedSlowstart := false
    olia := Olia.reset
    congestionWindowCount := 0
    congestionWindow := o.initialCongestionWindow
    slowstartThreshold := o.initialMaxCongestionWindow
    maxTCPCongestionWindow := o.initialMaxCongestionWindow }

/-- `SetSlowStartLargeReduction`. -/
def setSlowStartLargeReduction (enabled : Bool) : OliaSender :=
  { o with slowStartLargeReduction := enabled }

end OliaSender

/-! ## All senders -/

/-- The map `oliaSenders`: the IDs of the paths, and the sender of each of them. -/
structure OliaSenders where
  ids : List PathID
  nodup : ids.Nodup
  sender : PathID → OliaSender

/-- The best path so far: the square of its round-trip time, and its bytes between losses. -/
structure BestPath where
  bestRTT : ℤ
  bestBytes : ℕ
  deriving DecidableEq

/-- The comparison of a sender with the best path. -/
def OliaSender.reaches (o : OliaSender) (best : BestPath) : Bool :=
  let tmpRTT := int64 (o.rttStats.smoothedRTT * o.rttStats.smoothedRTT)
  let tmpBytes := o.olia.smoothedBytesBetweenLosses
  int64 (int64 tmpBytes * best.bestRTT) ≥ int64 (int64 best.bestBytes * tmpRTT)

namespace OliaSenders

variable (m : OliaSenders)

/-- Changes a sender. -/
def modify (id : PathID) (f : OliaSender → OliaSender) : OliaSenders :=
  { m with sender := Function.update m.sender id (f (m.sender id)) }

/-- Stores a sender. -/
def insert (id : PathID) (o : OliaSender) : OliaSenders where
  ids := if id ∈ m.ids then m.ids else id :: m.ids
  nodup := by
    split
    · exact m.nodup
    · next hnew => exact List.nodup_cons.mpr ⟨hnew, m.nodup⟩
  sender := Function.update m.sender id o

/-- `getMaxCwnd`. -/
def getMaxCwnd : ℕ := m.ids.foldl (fun bestCwnd id => max bestCwnd (m.sender id).congestionWindow) 0

/-- What a sender contributes to the rate. -/
def rateOf (pathRTT : ℤ) (o : OliaSender) : ℕ :=
  if o.rttStats.smoothedRTT ≠ 0 then
    mul64 (oliaScale o.congestionWindow) (uint64 pathRTT) / uint64 o.rttStats.smoothedRTT
  else 0

/-- `getRate`. -/
def getRate (pathRTT : ℤ) : ℕ :=
  let rate := m.ids.foldl (fun rate id => add64 rate (rateOf pathRTT (m.sender id))) 1
  mul64 rate rate

/-- The first loop of `getEpsilon`, in the order of the iteration. -/
def bestPath (order : List PathID) : BestPath :=
  order.foldl (fun best id =>
    let o := m.sender id
    if o.reaches best then
      ⟨int64 (o.rttStats.smoothedRTT * o.rttStats.smoothedRTT), o.olia.smoothedBytesBetweenLosses⟩
    else best) ⟨0, 0⟩

/-- A path has the largest window. -/
def isMax (id : PathID) : Bool := (m.sender id).congestionWindow = m.getMaxCwnd

/-- A path is a best one without the largest window. -/
def isBestNotMax (best : BestPath) (id : PathID) : Bool :=
  !m.isMax id && (m.sender id).reaches best

/-- The number of paths with the largest window, an unsigned 8-bit counter. -/
def countM : ℕ := m.ids.countP m.isMax % 2 ^ 8

/-- The number of best paths without the largest window, an unsigned 8-bit counter. -/
def countBNotM (best : BestPath) : ℕ := m.ids.countP (m.isBestNotMax best) % 2 ^ 8

/-- The numerator and the denominator of epsilon for a sender. -/
def epsilonOf (best : BestPath) (o : OliaSender) : ℤ × ℕ :=
  let maxCwnd := m.getMaxCwnd
  let bNotM := m.countBNotM best
  if bNotM = 0 then (0, 1)
  else if o.congestionWindow < maxCwnd ∧ o.reaches best then (1, m.ids.length * bNotM % 2 ^ 32)
  else if o.congestionWindow = maxCwnd then (-1, m.ids.length * m.countM % 2 ^ 32)
  else (0, 1)

/-- `getEpsilon`. -/
def getEpsilon (order : MapOrder PathID) : OliaSenders :=
  let best := m.bestPath (order.order m.ids)
  { m with sender := fun id =>
      let o := m.sender id
      if id ∈ m.ids then { o with olia := o.olia.setEpsilon (m.epsilonOf best o) } else o }

/-- The end of `maybeIncreaseCwnd`, in congestion avoidance. -/
def avoidCongestion (id : PathID) (order : MapOrder PathID) : OliaSenders :=
  let m := m.getEpsilon order
  let o := m.sender id
  let rate := m.getRate o.rttStats.smoothedRTT
  let cwndScaled := oliaScale o.congestionWindow
  let (olia, congestionWindow) := o.olia.congestionWindowAfterAck o.congestionWindow rate cwndScaled
  m.modify id fun o =>
    { o with olia := olia, congestionWindow := min o.maxTCPCongestionWindow congestionWindow }

/-- `maybeIncreaseCwnd`. -/
def maybeIncreaseCwnd (id : PathID) (bytesInFlight : ℕ) (order : MapOrder PathID) : OliaSenders :=
  let o := m.sender id
  if !o.isCwndLimited bytesInFlight then m
  else if o.congestionWindow ≥ o.maxTCPCongestionWindow then m
  else if o.inSlowStart then
    m.modify id fun o => { o with congestionWindow := add64 o.congestionWindow 1 }
  else m.avoidCongestion id order

/-- The beginning of `OnPacketAcked`, which reports the largest acknowledged packet. -/
def acknowledge (id : PathID) (ackedPacketNumber : ℕ) : OliaSenders :=
  m.modify id fun o =>
    { o with largestAckedPacketNumber := max ackedPacketNumber o.largestAckedPacketNumber }

/-- The part of `OnPacketAcked` that counts the acknowledged bytes. -/
def countAcked (id : PathID) (ackedBytes : ℕ) : OliaSenders :=
  m.modify id fun o => { o with olia := o.olia.updateAckedSinceLastLoss ackedBytes }

/-- `OnPacketAcked`. -/
def onPacketAcked (id : PathID) (ackedPacketNumber ackedBytes bytesInFlight : ℕ)
    (order : MapOrder PathID) : OliaSenders :=
  let m := m.acknowledge id ackedPacketNumber
  if (m.sender id).inRecovery then
    m.modify id fun o => { o with prr := o.prr.onPacketAcked ackedBytes }
  else
    let m := (m.countAcked id ackedBytes).maybeIncreaseCwnd id bytesInFlight order
    if (m.sender id).inSlowStart then
      m.modify id fun o =>
        { o with hybridSlowStart := o.hybridSlowStart.onPacketAcked ackedPacketNumber }
    else m

/-! ## Facts about the map -/

@[simp] theorem sender_modify_self (id : PathID) (f : OliaSender → OliaSender) :
    (m.modify id f).sender id = f (m.sender id) :=
  Function.update_self ..

theorem sender_modify_of_ne {id id' : PathID} (f : OliaSender → OliaSender) (h : id' ≠ id) :
    (m.modify id f).sender id' = m.sender id' :=
  Function.update_of_ne h ..

/-- No window is larger than the largest one. -/
theorem le_getMaxCwnd {id : PathID} (h : id ∈ m.ids) :
    (m.sender id).congestionWindow ≤ m.getMaxCwnd := by
  have hfold : ∀ (ids : List PathID) (start : ℕ),
      start ≤ ids.foldl (fun best id => max best (m.sender id).congestionWindow) start ∧
      ∀ id ∈ ids, (m.sender id).congestionWindow ≤
        ids.foldl (fun best id => max best (m.sender id).congestionWindow) start := by
    intro ids
    induction ids with
    | nil => exact fun start => ⟨le_rfl, by simp⟩
    | cons id ids ih =>
      intro start
      obtain ⟨hstart, hids⟩ := ih (max start (m.sender id).congestionWindow)
      refine ⟨le_trans (le_max_left _ _) hstart, fun id' hid' => ?_⟩
      rcases List.mem_cons.mp hid' with rfl | hid'
      · exact le_trans (le_max_right _ _) hstart
      · exact hids id' hid'
  exact (hfold m.ids 0).2 id h

theorem isBestNotMax_iff {m : OliaSenders} {best : BestPath} {id : PathID} :
    m.isBestNotMax best id = true ↔
      (m.sender id).congestionWindow ≠ m.getMaxCwnd ∧ (m.sender id).reaches best = true := by
  simp [isBestNotMax, isMax]

/-- There are at most as many senders as path IDs. -/
theorem length_ids_le : m.ids.length ≤ 256 := by
  have hnodup : (m.ids.map UInt8.toNat).Nodup :=
    m.nodup.map fun _ _ h => UInt8.toNat_inj.mp h
  have hsub : m.ids.map UInt8.toNat ⊆ List.range 256 := by
    intro n hn
    obtain ⟨id, -, rfl⟩ := List.mem_map.mp hn
    exact List.mem_range.mpr id.toNat_lt
  have hle := (List.subperm_of_subset hnodup hsub).length_le
  rwa [List.length_map, List.length_range] at hle

end OliaSenders

end MultipathQuic
