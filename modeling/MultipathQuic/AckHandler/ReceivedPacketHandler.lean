import MultipathQuic.Wire.Frame

/-!
# The received packet handler

`ackhandler/received_packet_handler.go` and `ackhandler/received_packet_history.go`: which packets
have been received on a path, and when they have to be acknowledged. The clock is an input of the
calls; a missing time is the zero time. The time at which the largest packet was received is left
out, since only the writer of an ACK frame reads it.
-/

namespace MultipathQuic

/-- `protocol.MaxTrackedReceivedAckRanges`. -/
def maxTrackedReceivedAckRanges : ℕ := 2500

/-- `protocol.MaxPacketsReceivedBeforeAckSend`. -/
def maxPacketsReceivedBeforeAckSend : ℕ := 20

/-- `protocol.RetransmittablePacketsBeforeAck`. -/
def retransmittablePacketsBeforeAck : ℕ := 2

/-- `protocol.AckSendDelay`, in nanoseconds. -/
def ackSendDelay : ℤ := 25 * 1000000

/-- `utils.PacketInterval`. -/
structure PacketInterval where
  start : ℕ
  stop : ℕ
  deriving DecidableEq, Repr

/-- The errors of the handler. -/
inductive ReceivedPacketError
  | invalidPacketNumber
  | tooManyOutstandingReceivedAckRanges
  deriving DecidableEq, Repr

/-- The text of an error. -/
def ReceivedPacketError.text : ReceivedPacketError → String
  | .invalidPacketNumber => "ReceivedPacketHandler: Invalid packet number"
  | .tooManyOutstandingReceivedAckRanges =>
    "TooManyOutstandingReceivedPackets: Too many outstanding received ACK ranges"

/-! ## The history -/

/-- `receivedPacketHistory`. The list of ranges starts with the lowest one. -/
structure ReceivedPacketHistory where
  ranges : List PacketInterval
  lowestInReceivedPacketNumbers : ℕ
  deriving DecidableEq, Repr

namespace ReceivedPacketHistory

variable (h : ReceivedPacketHistory)

/-- Merges a range that was extended with the one below it, if they touch. -/
def mergeDown (el : PacketInterval) : List PacketInterval → List PacketInterval
  | [] => [el]
  | prev :: below =>
    if add64 prev.stop 1 = el.start then { prev with stop := el.stop } :: below
    else el :: prev :: below

/-- The loop of `ReceivedPacket`, over the ranges from the highest one down. A packet below all of
them makes a new range. -/
def insertFrom (p : ℕ) : List PacketInterval → List PacketInterval
  | [] => [⟨p, p⟩]
  | el :: below =>
    if p ≥ el.start ∧ p ≤ el.stop then el :: below
    else if el.stop = sub64 p 1 then mergeDown { el with stop := p } below
    else if el.start = add64 p 1 then mergeDown { el with start := p } below
    else if p > el.stop then ⟨p, p⟩ :: el :: below
    else el :: insertFrom p below

/-- `receivedPacketHistory.ReceivedPacket`. -/
def receivedPacket (p : ℕ) : Except ReceivedPacketError ReceivedPacketHistory :=
  if h.ranges.length ≥ maxTrackedReceivedAckRanges then
    .error .tooManyOutstandingReceivedAckRanges
  else .ok { h with ranges := (insertFrom p h.ranges.reverse).reverse }

/-- The loop of `DeleteUpTo`. -/
def deleteFrom (p : ℕ) : List PacketInterval → List PacketInterval
  | [] => []
  | el :: above =>
    if p ≥ el.start ∧ p < el.stop then { el with start := add64 p 1 } :: deleteFrom p above
    else if el.stop ≤ p then deleteFrom p above
    else el :: above

/-- `DeleteUpTo`. -/
def deleteUpTo (p : ℕ) : ReceivedPacketHistory where
  ranges := deleteFrom p h.ranges
  lowestInReceivedPacketNumbers := max h.lowestInReceivedPacketNumbers (add64 p 1)

/-- `GetAckRanges`: the highest range first. -/
def getAckRanges : List AckRange := h.ranges.reverse.map fun el => ⟨el.start, el.stop⟩

/-- `GetHighestAckRange`. -/
def getHighestAckRange : AckRange :=
  match h.ranges.getLast? with
  | some r => ⟨r.start, r.stop⟩
  | none => ⟨0, 0⟩

end ReceivedPacketHistory

/-! ## The handler -/

/-- `receivedPacketHandler`. -/
structure ReceivedPacketHandler where
  largestObserved : ℕ
  lowerLimit : ℕ
  packetHistory : ReceivedPacketHistory
  packetsReceivedSinceLastAck : ℕ
  retransmittablePacketsReceivedSinceLastAck : ℕ
  ackQueued : Bool
  ackAlarm : Option ℤ
  lastAck : Option AckFrame
  version : VersionNumber
  packets : ℕ
  deriving DecidableEq

/-- `NewReceivedPacketHandler`. -/
def newReceivedPacketHandler (version : VersionNumber) : ReceivedPacketHandler where
  largestObserved := 0
  lowerLimit := 0
  packetHistory := ⟨[], 0⟩
  packetsReceivedSinceLastAck := 0
  retransmittablePacketsReceivedSinceLastAck := 0
  ackQueued := false
  ackAlarm := none
  lastAck := none
  version := version
  packets := 0

namespace ReceivedPacketHandler

variable (h : ReceivedPacketHandler)

/-- What `maybeQueueAck` finds to be acknowledged at once, before it looks at the number of
retransmittable packets. -/
def ackDue (packetNumber : ℕ) : Bool :=
  match h.lastAck with
  | none => true
  | some lastAck =>
    packetNumber < lastAck.largestAcked ||
      h.packetHistory.getHighestAckRange.first > lastAck.largestAcked

/-- `maybeQueueAck`. -/
def maybeQueueAck (packetNumber : ℕ) (shouldInstigateAck : Bool) (now : ℤ) :
    ReceivedPacketHandler :=
  let h := { h with
    packetsReceivedSinceLastAck := h.packetsReceivedSinceLastAck + 1
    retransmittablePacketsReceivedSinceLastAck :=
      if shouldInstigateAck then h.retransmittablePacketsReceivedSinceLastAck + 1
      else h.retransmittablePacketsReceivedSinceLastAck }
  let ackQueued : Bool := h.ackQueued || h.ackDue packetNumber ||
    (h.version < version39 && h.packetsReceivedSinceLastAck ≥ maxPacketsReceivedBeforeAckSend) ||
    (shouldInstigateAck &&
      h.retransmittablePacketsReceivedSinceLastAck ≥ retransmittablePacketsBeforeAck)
  if ackQueued then { h with ackQueued := true, ackAlarm := none }
  else if shouldInstigateAck && h.ackAlarm.isNone then
    { h with ackAlarm := some (now + ackSendDelay) }
  else h

/-- `ReceivedPacket`. -/
def receivedPacket (packetNumber : ℕ) (shouldInstigateAck : Bool) (now : ℤ) :
    ReceivedPacketHandler × Option ReceivedPacketError :=
  if packetNumber = 0 then (h, some .invalidPacketNumber)
  else
    let h := { h with
      packets := h.packets + 1
      largestObserved := max h.largestObserved packetNumber }
    if packetNumber ≤ h.lowerLimit then (h, none)
    else
      match h.packetHistory.receivedPacket packetNumber with
      | .error err => (h, some err)
      | .ok packetHistory =>
        ({ h with packetHistory := packetHistory }.maybeQueueAck packetNumber shouldInstigateAck
          now, none)

/-- `SetLowerLimit`. -/
def setLowerLimit (p : ℕ) : ReceivedPacketHandler :=
  { h with lowerLimit := p, packetHistory := h.packetHistory.deleteUpTo p }

/-- An ACK has to be sent at the time `now`. -/
def ackWanted (now : ℤ) : Bool :=
  h.ackQueued ||
    match h.ackAlarm with
    | none => false
    | some alarm => alarm ≤ now

/-- What ACK and CLOSE_PATH frames say about the received packets. It panics if there are no
ranges. -/
def ackedPackets : Option AckedPackets := do
  let ackRanges := h.packetHistory.getAckRanges
  let lowest ← ackRanges.getLast?
  some {
    largestAcked := h.largestObserved
    lowestAcked := lowest.first
    ackRanges := if ackRanges.length > 1 then ackRanges else [] }

/-- `GetAckFrame`. The path sets the path ID. -/
def getAckFrame (now : ℤ) : Option (ReceivedPacketHandler × Option AckFrame) :=
  if h.ackWanted now then do
    let acked ← h.ackedPackets
    let ack : AckFrame := { toAckedPackets := acked, pathID := 0, delayTime := 0 }
    some ({ h with
      lastAck := some ack
      ackAlarm := none
      ackQueued := false
      packetsReceivedSinceLastAck := 0
      retransmittablePacketsReceivedSinceLastAck := 0 }, some ack)
  else some (h, none)

/-- `GetClosePathFrame`. -/
def getClosePathFrame : Option ClosePathFrame :=
  h.ackedPackets.map fun acked => { toAckedPackets := acked, pathID := 0 }

end ReceivedPacketHandler

end MultipathQuic
