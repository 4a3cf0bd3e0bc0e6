import Mathlib.Data.List.Nodup
import Mathlib.Logic.Function.Basic
import MultipathQuic.AckHandler.ReceivedPacketHandler
import MultipathQuic.AckHandler.SentPacketHandler
import MultipathQuic.Congestion.OliaSender
import MultipathQuic.Wire.FrameCodec

/-!
# Paths

`path.go` and `packet_number_generator.go`: what a session keeps for each path, and the map of its
paths. A path stands for its ID. What the round-trip time statistics and the congestion controller
of a path answer are fields of the path.

The run loop of a path is a goroutine that waits for `closeChan` and then sets `open` to false. The
model keeps whether `closeChan` holds a request; the run loop takes it in a step of its own,
`Path.close`.
-/

namespace MultipathQuic

/-! ## Packet numbers -/

/-- `packetNumberGenerator`. -/
structure PacketNumberGenerator where
  averagePeriod : ℕ
  next : ℕ
  nextToSkip : ℕ
  deriving DecidableEq

/-- `newPacketNumberGenerator`. -/
def newPacketNumberGenerator (averagePeriod : ℕ) : PacketNumberGenerator where
  averagePeriod := averagePeriod
  next := 1
  nextToSkip := 0

/-- `protocol.SkipPacketAveragePeriodLength`. -/
def skipPacketAveragePeriodLength : ℕ := 500

namespace PacketNumberGenerator

variable (p : PacketNumberGenerator)

/-- `Peek`. -/
def peek : ℕ := p.next

/-- `generateNewSkip`, with the random number, if there is one. -/
def generateNewSkip (random : Option UInt16) : PacketNumberGenerator :=
  match random with
  | none => p
  | some num =>
    let skip := mul64 num.toNat (sub64 p.averagePeriod 1) / (65535 / 2)
    { p with nextToSkip := add64 (add64 p.next 2) skip }

/-- `Pop`. -/
def pop (random : Option UInt16) : PacketNumberGenerator × ℕ :=
  let next := p.next
  let p := { p with next := add64 p.next 1 }
  if p.next = p.nextToSkip then
    ({ p with next := add64 p.next 1 }.generateNewSkip random, next)
  else (p, next)

end PacketNumberGenerator

/-! ## Addresses -/

/-- `net.UDPAddr`. -/
structure UDPAddr where
  ip : List UInt8
  port : ℕ
  deriving DecidableEq

namespace UDPAddr

/-- `getIPVersion`. -/
def getIPVersion (ip : List UInt8) : UInt8 := if (ipTo4 ip).isSome then 4 else 6

/-- What `String` of two addresses is compared for: the two forms of an IPv4 address are printed
alike. -/
def sameString (a b : UDPAddr) : Bool :=
  (ipTo4 a.ip).getD a.ip = (ipTo4 b.ip).getD b.ip ∧ a.port = b.port

end UDPAddr

/-! ## Paths -/

/-- `path`. -/
structure Path where
  pathID : PathID
  localAddr : UDPAddr
  remoteAddr : UDPAddr
  smoothedRTT : ℤ
  meanDeviation : ℤ
  congestionWindow : ℕ
  sentPacketHandler : SentPacketHandler
  receivedPacketHandler : ReceivedPacketHandler
  isOpen : Bool
  closeChan : Bool
  potentiallyFailed : Bool
  packetNumberGenerator : PacketNumberGenerator
  lastRcvdPacketNumber : ℕ
  leastUnacked : ℕ
  deriving DecidableEq

/-- `protocol.InitialCongestionWindow`, in packets. -/
def initialCongestionWindow : ℕ := 32

namespace Path

/-- `setup`. -/
def setup (pathID : PathID) (localAddr remoteAddr : UDPAddr) (version : VersionNumber) : Path where
  pathID := pathID
  localAddr := localAddr
  remoteAddr := remoteAddr
  smoothedRTT := 0
  meanDeviation := 0
  congestionWindow := initialCongestionWindow * defaultTCPMSS
  sentPacketHandler := newSentPacketHandler
  receivedPacketHandler := newReceivedPacketHandler version
  isOpen := true
  closeChan := false
  potentiallyFailed := false
  packetNumberGenerator := newPacketNumberGenerator skipPacketAveragePeriodLength
  lastRcvdPacketNumber := 0
  leastUnacked := 0

variable (p : Path)

/-- `close`, by the run loop. -/
def close : Path := { p with isOpen := false, closeChan := false }

/-- `SendingAllowed`. -/
def sendingAllowed : Bool := p.isOpen && p.sentPacketHandler.sendingAllowed p.congestionWindow

/-- `SetLeastUnacked`. -/
def setLeastUnacked (leastUnacked : ℕ) : Path := { p with leastUnacked := leastUnacked }

/-- `GetClosePathFrame`. -/
def getClosePathFrame : Option ClosePathFrame :=
  p.receivedPacketHandler.getClosePathFrame.map fun frame => { frame with pathID := p.pathID }

end Path

/-! ## The paths of a session -/

/-- `session.paths`: the IDs, and the path of each of them. -/
structure PathMap where
  ids : List PathID
  nodup : ids.Nodup
  path : PathID → Path

namespace PathMap

variable (m : PathMap)

/-- The path with an ID, if there is one. -/
def lookup (id : PathID) : Option Path := if id ∈ m.ids then some (m.path id) else none

/-- Changes a path. -/
def modify (id : PathID) (f : Path → Path) : PathMap :=
  { m with path := Function.update m.path id (f (m.path id)) }

/-- Stores a path; another one with its ID is lost. -/
def insert (p : Path) : PathMap where
  ids := if p.pathID ∈ m.ids then m.ids else m.ids ++ [p.pathID]
  nodup := by
    split
    · exact m.nodup
    · next hnew => exact List.nodup_append.mpr ⟨m.nodup, List.nodup_singleton _, by grind⟩
  path := Function.update m.path p.pathID p

@[simp] theorem path_modify_self (id : PathID) (f : Path → Path) :
    (m.modify id f).path id = f (m.path id) :=
  Function.update_self ..

theorem path_modify_of_ne {id id' : PathID} (f : Path → Path) (h : id' ≠ id) :
    (m.modify id f).path id' = m.path id' :=
  Function.update_of_ne h ..

theorem modify_eq_self {id : PathID} {f : Path → Path} (h : f (m.path id) = m.path id) :
    m.modify id f = m := by
  unfold modify
  rw [h, Function.update_eq_self]

end PathMap

end MultipathQuic
