import Mathlib.Algebra.Group.Int.Defs
import Mathlib.Algebra.GroupWithZero.Nat
import Mathlib.Data.Int.Notation
import Mathlib.Tactic.Common

/-!
# Protocol types and constants

The numeric types of `internal/protocol` and the constants the modelled code reads. The unsigned
integers `PacketNumber`, `ByteCount` (64 bits) and `StreamID` (32 bits) are naturals; where the
code relies on the width of its type, the model reduces modulo that width with `add64`, `sub64`
and the like.
-/

namespace MultipathQuic

/-- `protocol.PathID`, an unsigned 8-bit integer. -/
abbrev PathID := UInt8

/-- `protocol.VersionNumber`. -/
abbrev VersionNumber := ℤ

/-! ## Unsigned arithmetic -/

/-- Addition of unsigned 64-bit integers. -/
@[irreducible] def add64 (a b : ℕ) : ℕ := (a + b) % 2 ^ 64

/-- Subtraction of unsigned 64-bit integers. -/
@[irreducible] def sub64 (a b : ℕ) : ℕ := (a + (2 ^ 64 - b % 2 ^ 64)) % 2 ^ 64

/-- Multiplication of unsigned 64-bit integers. -/
@[irreducible] def mul64 (a b : ℕ) : ℕ := a * b % 2 ^ 64

/-- Addition of unsigned 32-bit integers. -/
@[irreducible] def add32 (a b : ℕ) : ℕ := (a + b) % 2 ^ 32

/-- Subtraction of unsigned 32-bit integers. -/
@[irreducible] def sub32 (a b : ℕ) : ℕ := (a + (2 ^ 32 - b % 2 ^ 32)) % 2 ^ 32

/-- Addition of unsigned 16-bit integers. -/
@[irreducible] def add16 (a b : ℕ) : ℕ := (a + b) % 2 ^ 16

/-- Subtraction of unsigned 16-bit integers. -/
@[irreducible] def sub16 (a b : ℕ) : ℕ := (a + (2 ^ 16 - b % 2 ^ 16)) % 2 ^ 16

theorem add16_of_lt {a b : ℕ} (h : a + b < 2 ^ 16) : add16 a b = a + b := by
  unfold add16
  exact Nat.mod_eq_of_lt h

theorem sub16_lt (a b : ℕ) : sub16 a b < 2 ^ 16 := by
  unfold sub16
  exact Nat.mod_lt _ (Nat.two_pow_pos 16)

theorem sub16_of_le {a b : ℕ} (hba : b ≤ a) (ha : a < 2 ^ 16) : sub16 a b = a - b := by
  unfold sub16
  omega

theorem add32_of_lt {a b : ℕ} (h : a + b < 2 ^ 32) : add32 a b = a + b := by
  unfold add32
  exact Nat.mod_eq_of_lt h

theorem add64_of_lt {a b : ℕ} (h : a + b < 2 ^ 64) : add64 a b = a + b := by
  unfold add64
  exact Nat.mod_eq_of_lt h

theorem mul64_of_lt {a b : ℕ} (h : a * b < 2 ^ 64) : mul64 a b = a * b := by
  unfold mul64
  exact Nat.mod_eq_of_lt h

theorem sub64_of_le {a b : ℕ} (hba : b ≤ a) (ha : a < 2 ^ 64) : sub64 a b = a - b := by
  unfold sub64
  omega

theorem sub64_sub64 {a b c : ℕ} (h : b + c ≤ a) (ha : a < 2 ^ 64) :
    sub64 (sub64 a b) c = a - b - c := by
  rw [sub64_of_le (by omega : b ≤ a) ha, sub64_of_le (by omega) (by omega)]

theorem add64_le (a b : ℕ) : add64 a b ≤ a + b := by
  unfold add64
  exact Nat.mod_le _ _

theorem add64_lt (a b : ℕ) : add64 a b < 2 ^ 64 := by
  unfold add64
  exact Nat.mod_lt _ (by decide)

theorem sub64_lt (a b : ℕ) : sub64 a b < 2 ^ 64 := by
  unfold sub64
  exact Nat.mod_lt _ (by decide)

/-! ## Constants -/

/-- `protocol.InitialPathID`. -/
def initialPathID : PathID := 0

/-- `protocol.MaxByteCount`. -/
def maxByteCount : ℕ := 2 ^ 64 - 1

/-- `protocol.MaxPacketSize`. -/
def maxPacketSize : ℕ := 1350

/-- `protocol.NonForwardSecurePacketSizeReduction`. -/
def nonForwardSecurePacketSizeReduction : ℕ := 50

/-- `protocol.MaxStreamFrameSorterGaps`. -/
def maxStreamFrameSorterGaps : ℕ := 2500

/-- `protocol.MaxTrackedSentPackets`. -/
def maxTrackedSentPackets : ℕ := 2 * 2500

/-- `protocol.MaxTrackedSkippedPackets`. -/
def maxTrackedSkippedPackets : ℕ := 10

/-- `protocol.DefaultStreamWeight`. -/
def defaultStreamWeight : UInt8 := 15

/-- `protocol.Version39`. -/
def version39 : VersionNumber := 39

/-- `protocol.VersionMP`. -/
def versionMP : VersionNumber := 512

/-! ## Enumerations -/

/-- `protocol.PacketNumberLen`. -/
inductive PacketNumberLen
  | invalid
  | len1
  | len2
  | len4
  | len6
  deriving DecidableEq, Repr

/-- The number of bytes of a packet number length. -/
def PacketNumberLen.bytes : PacketNumberLen → ℕ
  | .invalid => 0
  | .len1 => 1
  | .len2 => 2
  | .len4 => 4
  | .len6 => 6

/-- `protocol.GetPacketNumberLength`: the minimum length needed to represent a packet number. -/
def getPacketNumberLength (packetNumber : ℕ) : PacketNumberLen :=
  if packetNumber < 2 ^ (1 * 8) then .len1
  else if packetNumber < 2 ^ (2 * 8) then .len2
  else if packetNumber < 2 ^ (4 * 8) then .len4
  else .len6

/-- `protocol.GetPacketNumberLengthForPublicHeader`. -/
def getPacketNumberLengthForPublicHeader (packetNumber leastUnacked : ℕ) :
    PacketNumberLen :=
  let diff := sub64 packetNumber leastUnacked
  if diff < 2 <<< (2 * 8 - 2) then .len2
  else if diff < 2 <<< (4 * 8 - 2) then .len4
  else .len6

/-- `protocol.EncryptionLevel`, in the order of the source. -/
inductive EncryptionLevel
  | unspecified
  | unencrypted
  | secure
  | forwardSecure
  deriving DecidableEq, Repr

/-- The integer value of an encryption level. -/
def EncryptionLevel.toNat : EncryptionLevel → ℕ
  | .unspecified => 0
  | .unencrypted => 1
  | .secure => 2
  | .forwardSecure => 3

/-- The stream is neither the crypto stream nor the header stream; only such streams contribute to the
flow control of the connection. -/
def isData (streamID : ℕ) : Bool := !(streamID == 1 || streamID == 3)

/-- `protocol.Perspective`. -/
inductive Perspective
  | server
  | client
  deriving DecidableEq, Repr

/-- The perspective of the peer. -/
def Perspective.other : Perspective → Perspective
  | .server => .client
  | .client => .server

end MultipathQuic
