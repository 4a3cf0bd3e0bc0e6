import MultipathQuic.Wire.Frame

/-!
# The sent packet handler

`ackhandler/sent_packet_handler.go`: the packets sent on a path that are neither acknowledged nor
queued for retransmission, and the queue of the packets to retransmit.

Clock values, and what the round-trip time statistics, the congestion controller and the callback
for retransmission timeouts answer, are inputs of the calls; what the handler tells the congestion
controller is left out. Times are in nanoseconds.

## Main definitions

* `SentPacketHandler`: the handler
* `sentPacket`, `receivedAck`, `receivedClosePath`, `onAlarm`: its calls
* `dequeuePacketForRetransmission`, `sendingAllowed`: what the session asks
-/

namespace MultipathQuic

/-- `ackhandler.Packet`. -/
structure Packet where
  packetNumber : ℕ
  frames : List Frame
  length : ℕ
  encryptionLevel : EncryptionLevel
  sendTime : ℤ
  deriving DecidableEq, Repr

/-- `GetFramesForRetransmission`. -/
def Packet.getFramesForRetransmission (p : Packet) : List Frame :=
  p.frames.filter fun
    | .ack _ => false
    | .stopWaiting _ => false
    | _ => true

/-- `IsRetransmittable`. -/
def Packet.isRetransmittable (p : Packet) : Bool :=
  p.frames.any fun
    | .stream _ | .rstStream _ | .windowUpdate _ | .blocked _ | .ping | .goaway _
    | .addAddress _ | .paths _ => true
    | _ => false

/-- `stopWaitingManager`. -/
structure StopWaitingManager where
  largestLeastUnackedSent : ℕ
  nextLeastUnacked : ℕ
  lastStopWaitingFrame : Option StopWaitingFrame
  deriving DecidableEq, Repr

/-- `stopWaitingManager.ReceivedAck`. -/
def StopWaitingManager.receivedAck (m : StopWaitingManager) (largestAcked : ℕ) :
    StopWaitingManager :=
  if largestAcked ≥ m.nextLeastUnacked then
    { m with nextLeastUnacked := add64 largestAcked 1 }
  else m

/-- `QueuedRetransmissionForPacketNumber`. -/
def StopWaitingManager.queuedRetransmissionForPacketNumber (m : StopWaitingManager) (p : ℕ) :
    StopWaitingManager :=
  if p ≥ m.nextLeastUnacked then { m with nextLeastUnacked := add64 p 1 } else m

/-- The errors of the handler. -/
inductive SentPacketError
  | packetNumberNotIncreasing
  | tooManyTrackedSentPackets
  | ackForUnsentPacket
  | duplicateOrOutOfOrderAck
  | ackForSkippedPacket
  | ackedWrongPacket (packetNumber : ℕ) (ackRange : AckRange) (closePath : Bool)
  deriving DecidableEq, Repr

/-- The text of an error; the packet numbers are printed in hexadecimal. -/
def SentPacketError.text : SentPacketError → String
  | .packetNumberNotIncreasing => "Already sent a packet with a higher packet number"
  | .tooManyTrackedSentPackets => "Too many outstanding non-acked and non-retransmitted packets"
  | .ackForUnsentPacket => "InvalidAckData: Received ACK for an unsent package"
  | .duplicateOrOutOfOrderAck => "SentPacketHandler: Duplicate or out-of-order ACK"
  | .ackForSkippedPacket => "InvalidAckData: Received an ACK for a skipped packet number"
  | .ackedWrongPacket packetNumber ackRange closePath =>
    "BUG: ackhandler would have acked wrong packet 0x" ++ hex packetNumber ++
      ", while evaluating range 0x" ++ hex ackRange.first ++ " -> 0x" ++ hex ackRange.last ++
      if closePath then " with ClosePath frame" else ""
where
  hex (n : ℕ) : String := String.ofList (Nat.toDigits 16 n)

/-- `sentPacketHandler`. A missing time is the zero time. -/
structure SentPacketHandler where
  lastSentPacketNumber : ℕ
  skippedPackets : List ℕ
  numNonRetransmittablePackets : ℕ
  largestAcked : ℕ
  largestReceivedPacketWithAck : ℕ
  packetHistory : List Packet
  stopWaitingManager : StopWaitingManager
  retransmissionQueue : List Packet
  bytesInFlight : ℕ
  rtoCount : ℕ
  tlpCount : ℕ
  lossTime : Option ℤ
  lastSentTime : ℤ
  alarm : Option ℤ
  packets : ℕ
  retransmissions : ℕ
  losses : ℕ
  deriving DecidableEq

/-- `NewSentPacketHandler`. -/
def newSentPacketHandler : SentPacketHandler where
  lastSentPacketNumber := 0
  skippedPackets := []
  numNonRetransmittablePackets := 0
  largestAcked := 0
  largestReceivedPacketWithAck := 0
  packetHistory := []
  stopWaitingManager := ⟨0, 0, none⟩
  retransmissionQueue := []
  bytesInFlight := 0
  rtoCount := 0
  tlpCount := 0
  lossTime := none
  lastSentTime := 0
  alarm := none
  packets := 0
  retransmissions := 0
  losses := 0

/-- What a call reads from the clock, the statistics, the congestion controller and the callback
for retransmission timeouts. `delayUntilLost` is computed in floating point from the round-trip
times. -/
structure SentEnv where
  now : ℤ
  delayUntilLost : ℤ
  smoothedRTT : ℤ
  congestionSmoothedRTT : ℤ
  retransmissionDelay : ℤ
  potentiallyFailed : Bool

/-! ## Constants -/

/-- A millisecond. -/
def millisecond : ℤ := 1000000

/-- `defaultRTOTimeout`. -/
def defaultRTOTimeout : ℤ := 500 * millisecond

/-- `minRTOTimeout`. -/
def minRTOTimeout : ℤ := 200 * millisecond

/-- `maxRTOTimeout`. -/
def maxRTOTimeout : ℤ := 60000 * millisecond

/-- `maxTailLossProbes`. -/
def maxTailLossProbes : ℕ := 2

/-- `minRetransmissionTime`. -/
def minRetransmissionTime : ℤ := 200 * millisecond

/-- `minTailLossProbeTimeout`. -/
def minTailLossProbeTimeout : ℤ := 10 * millisecond

/-- `protocol.MaxNonRetransmittablePackets`. -/
def maxNonRetransmittablePackets : ℕ := 19

namespace SentPacketHandler

variable (h : SentPacketHandler)

/-! ## Alarms -/

/-- `largestInOrderAcked`. -/
def largestInOrderAcked : ℕ :=
  match h.packetHistory with
  | p :: _ => sub64 p.packetNumber 1
  | [] => h.largestAcked

/-- `computeRTOTimeout`; the shift is one of signed 64-bit integers. -/
def computeRTOTimeout (env : SentEnv) : ℤ :=
  let rto := if env.retransmissionDelay = 0 then defaultRTOTimeout else env.retransmissionDelay
  let rto := max rto minRTOTimeout
  let rto := (rto * 2 ^ h.rtoCount).bmod (2 ^ 64)
  min rto maxRTOTimeout

/-- `hasMultipleOutstandingRetransmittablePackets`. -/
def hasMultipleOutstandingRetransmittablePackets : Bool := h.packetHistory.length ≥ 2

/-- `computeTLPTimeout`. -/
def computeTLPTimeout (env : SentEnv) : ℤ :=
  let rtt := env.congestionSmoothedRTT
  if h.hasMultipleOutstandingRetransmittablePackets then
    max (2 * rtt) ((rtt * 3).tdiv 2 + minRetransmissionTime.tdiv 2)
  else max (2 * rtt) minTailLossProbeTimeout

/-- `updateLossDetectionAlarm`. -/
def updateLossDetectionAlarm (env : SentEnv) : SentPacketHandler :=
  if h.packetHistory.length = 0 then { h with alarm := none }
  else if h.lossTime ≠ none then { h with alarm := h.lossTime }
  else if env.smoothedRTT ≠ 0 ∧ h.tlpCount < maxTailLossProbes then
    { h with alarm := some (h.lastSentTime + h.computeTLPTimeout env) }
  else
    { h with
      alarm := some (h.lastSentTime + max (h.computeRTOTimeout env) minRetransmissionTime) }

/-! ## Sending -/

/-- One round of the loop of `SentPacket` over the skipped packet numbers. -/
def addSkipped (skippedPackets : List ℕ) (p : ℕ) : List ℕ :=
  let skippedPackets := skippedPackets ++ [p]
  if skippedPackets.length > maxTrackedSkippedPackets then skippedPackets.drop 1
  else skippedPackets

/-- The packet that `SentPacket` keeps. -/
def tracked (packet : Packet) (env : SentEnv) : Packet :=
  { packet with frames := stripNonRetransmittableFrames packet.frames, sendTime := env.now }

/-- `SentPacket`. -/
def sentPacket (packet : Packet) (env : SentEnv) : SentPacketHandler × Option SentPacketError :=
  if packet.packetNumber ≤ h.lastSentPacketNumber then (h, some .packetNumberNotIncreasing)
  else if h.retransmissionQueue.length + h.packetHistory.length + 1 > maxTrackedSentPackets then
    (h, some .tooManyTrackedSentPackets)
  else
    let h := { h with
      skippedPackets := (List.range' (h.lastSentPacketNumber + 1)
        (packet.packetNumber - (h.lastSentPacketNumber + 1))).foldl addSkipped h.skippedPackets
      lastSentPacketNumber := packet.packetNumber
      packets := h.packets + 1
      lastSentTime := env.now }
    let isRetransmittable := stripNonRetransmittableFrames packet.frames ≠ []
    let h := if isRetransmittable then
        { h with
          bytesInFlight := add64 h.bytesInFlight packet.length
          packetHistory := h.packetHistory ++ [tracked packet env]
          numNonRetransmittablePackets := 0 }
      else
        { h with numNonRetransmittablePackets := h.numNonRetransmittablePackets + 1 }
    (h.updateLossDetectionAlarm env, none)

/-! ## Acknowledgements and losses -/

/-- `onPacketAcked`. The elements of `packetHistory` have distinct packet numbers, so that removing
an element is removing its value. -/
def onPacketAcked (p : Packet) : SentPacketHandler :=
  { h with
    bytesInFlight := sub64 h.bytesInFlight p.length
    rtoCount := 0
    tlpCount := 0
    packetHistory := h.packetHistory.erase p }

/-- `queuePacketForRetransmission`. -/
def queuePacketForRetransmission (p : Packet) : SentPacketHandler :=
  { h with
    bytesInFlight := sub64 h.bytesInFlight p.length
    retransmissionQueue := h.retransmissionQueue ++ [p]
    packetHistory := h.packetHistory.erase p
    stopWaitingManager :=
      h.stopWaitingManager.queuedRetransmissionForPacketNumber p.packetNumber }

/-- The inner loop of `determineNewlyAckedPackets`: skip the ranges below the packet, except for the
last one. The ranges that are left, the lowest first, stand for `ackRangeIndex`. -/
def skipRanges (packetNumber : ℕ) : List AckRange → List AckRange
  | ackRange :: next :: rs =>
    if packetNumber > ackRange.last then skipRanges packetNumber (next :: rs)
    else ackRange :: next :: rs
  | rs => rs

/-- The loop of `determineNewlyAckedPackets` and of `determineNewlyAckedPacketsClosePath`, which
only differ in the text of their error. -/
def newlyAckedFrom (f : AckedPackets) (closePath : Bool) :
    List AckRange → List Packet → Except SentPacketError (List Packet)
  | _, [] => .ok []
  | rs, p :: ps =>
    if p.packetNumber < f.lowestAcked then newlyAckedFrom f closePath rs ps
    else if p.packetNumber > f.largestAcked then .ok []
    else if f.hasMissingRanges then
      match skipRanges p.packetNumber rs with
      | [] => .ok []
      | ackRange :: rs =>
        if p.packetNumber ≥ ackRange.first then
          if p.packetNumber > ackRange.last then
            .error (.ackedWrongPacket p.packetNumber ackRange closePath)
          else do
            let acked ← newlyAckedFrom f closePath (ackRange :: rs) ps
            .ok (p :: acked)
        else newlyAckedFrom f closePath (ackRange :: rs) ps
    else do
      let acked ← newlyAckedFrom f closePath rs ps
      .ok (p :: acked)

/-- `determineNewlyAckedPackets`. -/
def determineNewlyAckedPackets (f : AckedPackets) : Except SentPacketError (List Packet) :=
  newlyAckedFrom f false f.ackRanges.reverse h.packetHistory

/-- `determineNewlyAckedPacketsClosePath`. -/
def determineNewlyAckedPacketsClosePath (f : AckedPackets) :
    Except SentPacketError (List Packet) :=
  newlyAckedFrom f true f.ackRanges.reverse h.packetHistory

/-- The loop of `detectLostPackets`: the lost packets and the loss time. -/
def lostFrom (env : SentEnv) (largestAcked : ℕ) :
    List Packet → Option ℤ → List Packet × Option ℤ
  | [], lossTime => ([], lossTime)
  | p :: ps, lossTime =>
    if p.packetNumber > largestAcked then ([], lossTime)
    else
      let timeSinceSent := env.now - p.sendTime
      if timeSinceSent > env.delayUntilLost then
        let (lost, lossTime) := lostFrom env largestAcked ps lossTime
        (p :: lost, lossTime)
      else
        lostFrom env largestAcked ps
          (if lossTime = none then some (env.now + (env.delayUntilLost - timeSinceSent))
          else lossTime)

/-- `detectLostPackets`. -/
def detectLostPackets (env : SentEnv) : SentPacketHandler :=
  let (lostPackets, lossTime) := lostFrom env h.largestAcked h.packetHistory none
  lostPackets.foldl queuePacketForRetransmission
    { h with lossTime := lossTime, losses := h.losses + lostPackets.length }

/-- `SetInflightAsLost`. -/
def setInflightAsLost : SentPacketHandler :=
  let lostPackets := h.packetHistory.takeWhile fun p => p.packetNumber ≤ h.largestAcked
  lostPackets.foldl queuePacketForRetransmission { h with losses := h.losses + lostPackets.length }

/-- `garbageCollectSkippedPackets`: drop everything up to the last number that is not above
`largestInOrderAcked`. -/
def garbageCollectSkippedPackets : SentPacketHandler :=
  let lioa := h.largestInOrderAcked
  let deleteIndex := h.skippedPackets.length -
    (h.skippedPackets.reverse.takeWhile fun p => ¬ p ≤ lioa).length
  { h with skippedPackets := h.skippedPackets.drop deleteIndex }

/-- The rest of `ReceivedAck`, once the newly acknowledged packets are known. -/
def processAck (f : AckFrame) (ackedPackets : List Packet) (env : SentEnv) : SentPacketHandler :=
  let h := ackedPackets.foldl onPacketAcked h
  let h := (h.detectLostPackets env).updateLossDetectionAlarm env
  let h := h.garbageCollectSkippedPackets
  { h with stopWaitingManager := h.stopWaitingManager.receivedAck f.largestAcked }

/-- `ReceivedAck`. The update of the round-trip time statistics is left out. -/
def receivedAck (f : AckFrame) (withPacketNumber : ℕ) (env : SentEnv) :
    SentPacketHandler × Option SentPacketError :=
  if f.largestAcked > h.lastSentPacketNumber then (h, some .ackForUnsentPacket)
  else if withPacketNumber ≤ h.largestReceivedPacketWithAck then
    (h, some .duplicateOrOutOfOrderAck)
  else
    let h := { h with largestReceivedPacketWithAck := withPacketNumber }
    if f.largestAcked ≤ h.largestInOrderAcked then (h, none)
    else
      let h := { h with largestAcked := f.largestAcked }
      if h.skippedPackets.any f.acksPacket then (h, some .ackForSkippedPacket)
      else
        match h.determineNewlyAckedPackets f.toAckedPackets with
        | .error err => (h, some err)
        | .ok ackedPackets => (h.processAck f ackedPackets env, none)

/-- `ReceivedClosePath`. -/
def receivedClosePath (f : ClosePathFrame) (withPacketNumber : ℕ) :
    SentPacketHandler × Option SentPacketError :=
  if f.largestAcked > h.lastSentPacketNumber then (h, some .ackForUnsentPacket)
  else if withPacketNumber ≤ h.largestReceivedPacketWithAck then
    (h, some .duplicateOrOutOfOrderAck)
  else
    let h := { h with largestReceivedPacketWithAck := withPacketNumber }
    if h.skippedPackets.any f.acksPacket then (h, some .ackForSkippedPacket)
    else
      match h.determineNewlyAckedPacketsClosePath f.toAckedPackets with
      | .error err => (h, some err)
      | .ok ackedPackets =>
        let h := ackedPackets.foldl onPacketAcked h
        (h.setInflightAsLost.garbageCollectSkippedPackets, none)

/-! ## Timeouts and retransmissions -/

/-- `queueRTO`. -/
def queueRTO (p : Packet) : SentPacketHandler :=
  let h := h.queuePacketForRetransmission p
  { h with losses := h.losses + 1 }

/-- `retransmitTLP`. -/
def retransmitTLP : SentPacketHandler :=
  match h.packetHistory.getLast? with
  | some p => h.queuePacketForRetransmission p
  | none => h

/-- `retransmitOldestPacket`. -/
def retransmitOldestPacket : SentPacketHandler :=
  match h.packetHistory with
  | p :: _ => h.queueRTO p
  | [] => h

/-- `retransmitOldestTwoPackets`. -/
def retransmitOldestTwoPackets : SentPacketHandler :=
  h.retransmitOldestPacket.retransmitOldestPacket

/-- `retransmitAllPackets`: the front of the list is queued until the list is empty. -/
def retransmitAllPackets : SentPacketHandler :=
  Nat.repeat retransmitOldestPacket h.packetHistory.length h

/-- `OnAlarm`. -/
def onAlarm (env : SentEnv) : SentPacketHandler :=
  if ¬ h.packetHistory.any Packet.isRetransmittable then { h with alarm := none }
  else
    let h :=
      if h.lossTime ≠ none then h.detectLostPackets env
      else if h.tlpCount < maxTailLossProbes then
        { h.retransmitTLP with tlpCount := h.tlpCount + 1 }
      else if env.potentiallyFailed then
        { h.retransmitAllPackets with rtoCount := (h.rtoCount + 1) % 2 ^ 32 }
      else
        { h.retransmitOldestTwoPackets with rtoCount := (h.rtoCount + 1) % 2 ^ 32 }
    h.updateLossDetectionAlarm env

/-- `DequeuePacketForRetransmission`. -/
def dequeuePacketForRetransmission : SentPacketHandler × Option Packet :=
  match h.retransmissionQueue with
  | [] => (h, none)
  | packet :: queue =>
    ({ h with retransmissionQueue := queue, retransmissions := h.retransmissions + 1 },
      some packet)

/-! ## What the session asks before it sends -/

/-- `ShouldSendRetransmittablePacket`. -/
def shouldSendRetransmittablePacket : Bool :=
  h.numNonRetransmittablePackets ≥ maxNonRetransmittablePackets

/-- `GetLeastUnacked`. -/
def getLeastUnacked : ℕ := add64 h.largestInOrderAcked 1

/-- `SendingAllowed`, with the congestion window of the congestion controller. -/
def sendingAllowed (congestionWindow : ℕ) : Bool :=
  let congestionLimited : Bool := h.bytesInFlight > congestionWindow
  let maxTrackedLimited : Bool :=
    h.retransmissionQueue.length + h.packetHistory.length ≥ maxTrackedSentPackets
  -- retransmissions are sent even if the congestion window is full
  let haveRetransmissions : Bool := h.retransmissionQueue.length > 0
  !maxTrackedLimited && (!congestionLimited || haveRetransmissions)

end SentPacketHandler

end MultipathQuic
