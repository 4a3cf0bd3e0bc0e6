import MultipathQuic.Protocol
import MultipathQuic.Library.ByteCodec

/-!
# Byte orders

`internal/utils/byteorder*.go` and `float16.go`: the little- and big-endian readers and writers of
unsigned integers, and the 16-bit floating point format of delays.

## Main definitions

* `readUintN`, `encode`: integers
* `readUfloat16`, `writeUfloat16`: delays

## Main results

* `run_readUintN_encode`, `run_readUfloat16`: they are read back
-/

namespace MultipathQuic

open ByteCodec

/-- The errors and panics of the modelled wire code. -/
inductive WireError
  | eof
  | errInvalidAckRanges
  | errInvalidFirstAckRange
  | errInconsistentAckLargestAcked
  | errInconsistentAckLowestAcked
  | inconsistentAckRangesWritten
  | inconsistentAckRangesWrittenInClosePath
  | errPacketNumberLenNotSet
  | errUnknownIPVersion
  | panicTooManyAckRanges
  | panicTooManyAckRangesInClosePath
  | panicDoesntFit24
  | panicDoesntFit40
  | panicDoesntFit48
  | panicDoesntFit56
  | panicIndexOutOfRange
  | unexpectedEOF
  | streamDataLenTooLarge
  | streamDataOverflowsMaximumOffset
  | emptyStreamFrameNoFin
  | writeEmptyStreamFrame
  | errInvalidStreamIDLen
  | errInvalidOffsetLen
  | errLeastUnackedHigherThanPacketNumber
  | errPacketNumberNotSet
  | invalidLeastUnackedDelta
  | reasonPhraseTooLong
  | writeReasonPhraseTooLong
  | errInconsistentAddrIPVersion
  | errTooManyPaths
  | errPathsNumber
  | errMissingRTT
  deriving DecidableEq, Repr

/-- The text of a wire error. -/
def WireError.text : WireError → String
  | .eof => "EOF"
  | .errInvalidAckRanges => "AckFrame: ACK frame contains invalid ACK ranges"
  | .errInvalidFirstAckRange => "AckFrame: ACK frame has invalid first ACK range"
  | .errInconsistentAckLargestAcked =>
    "internal inconsistency: LargestAcked does not match ACK ranges"
  | .errInconsistentAckLowestAcked =>
    "internal inconsistency: LowestAcked does not match ACK ranges"
  | .inconsistentAckRangesWritten => "BUG: Inconsistent number of ACK ranges written"
  | .inconsistentAckRangesWrittenInClosePath =>
    "BUG: Inconsistent number of ACK ranges written in ClosePath"
  | .errPacketNumberLenNotSet => "StopWaitingFrame: PacketNumberLen not set"
  | .errUnknownIPVersion => "AddAddressFrame: unknown IP version"
  | .panicTooManyAckRanges => "AckFrame: Too many ACK ranges"
  | .panicTooManyAckRangesInClosePath => "ClosePathFrame: Too many ACK ranges"
  | .panicDoesntFit24 => "doesn't fit into 24 bits"
  | .panicDoesntFit40 => "doesn't fit into 40 bits"
  | .panicDoesntFit48 => "doesn't fit into 48 bits"
  | .panicDoesntFit56 => "doesn't fit into 56 bits"
  | .panicIndexOutOfRange => "index out of range"
  | .unexpectedEOF => "unexpected EOF"
  | .streamDataLenTooLarge => "InvalidStreamData: data len too large"
  | .streamDataOverflowsMaximumOffset => "InvalidStreamData: data overflows maximum offset"
  | .emptyStreamFrameNoFin => "EmptyStreamFrameNoFin"
  | .writeEmptyStreamFrame => "StreamFrame: attempting to write empty frame without FIN"
  | .errInvalidStreamIDLen => "StreamFrame: Invalid StreamID length"
  | .errInvalidOffsetLen => "StreamFrame: Invalid offset length"
  | .errLeastUnackedHigherThanPacketNumber =>
    "StopWaitingFrame: LeastUnacked can't be greater than the packet number"
  | .errPacketNumberNotSet => "StopWaitingFrame: PacketNumber not set"
  | .invalidLeastUnackedDelta => "InvalidStopWaitingData: invalid LeastUnackedDelta"
  | .reasonPhraseTooLong => "reason phrase too long"
  | .writeReasonPhraseTooLong => "ConnectionFrame: ReasonPhrase too long"
  | .errInconsistentAddrIPVersion =>
    "internal inconsistency: Addr does not match IP version"
  | .errTooManyPaths => "PathsFrame: more paths than the maximum enabled"
  | .errPathsNumber =>
    "PathsFrame: number of paths advertised and # of paths do not match"
  | .errMissingRTT =>
    "PathsFrame: number of paths IDs and number of remote RTTs do not match"

/-- A reader of the wire code. -/
abbrev WireReader := Reader WireError

/-- `utils.ByteOrder`. -/
inductive ByteOrder
  | littleEndian
  | bigEndian
  deriving DecidableEq, Repr

/-- `utils.GetByteOrder`: values are little-endian before QUIC 39, big-endian from then on. -/
def getByteOrder (v : VersionNumber) : ByteOrder :=
  if v < version39 then .littleEndian else .bigEndian

namespace ByteOrder

/-! ## Integers -/

/-- The loop of `ReadUintN`: `k` of `length` bytes remain, `res` holds the bytes read. -/
def readUintNFrom (bo : ByteOrder) (length : ℕ) : ℕ → ℕ → WireReader ℕ
  | 0, res => pure res
  | k + 1, res => do
    let bt ← readByte .eof
    let i := length - (k + 1)
    let shift := match bo with
      | .littleEndian => i * 8
      | .bigEndian => (length - 1 - i) * 8
    readUintNFrom bo length k (res ^^^ bt.toNat <<< shift)

/-- `ReadUintN`: reads `length` bytes. -/
def readUintN (bo : ByteOrder) (length : ℕ) : WireReader ℕ := bo.readUintNFrom length length 0

/-- `WriteUint16`. -/
def writeUint16 (bo : ByteOrder) (i : ℕ) : List UInt8 :=
  match bo with
  | .littleEndian => [.ofNat i, .ofNat (i >>> 8)]
  | .bigEndian => [.ofNat (i >>> 8), .ofNat i]

/-- `WriteUint32`. -/
def writeUint32 (bo : ByteOrder) (i : ℕ) : List UInt8 :=
  match bo with
  | .littleEndian => [.ofNat i, .ofNat (i >>> 8), .ofNat (i >>> 16), .ofNat (i >>> 24)]
  | .bigEndian => [.ofNat (i >>> 24), .ofNat (i >>> 16), .ofNat (i >>> 8), .ofNat i]

/-- `WriteUint48`, which panics on a number of more than 48 bits. -/
def writeUint48 (bo : ByteOrder) (i : ℕ) : Except WireError (List UInt8) :=
  if i ≥ 1 <<< 48 then .error .panicDoesntFit48
  else .ok <| match bo with
    | .littleEndian => [.ofNat i, .ofNat (i >>> 8), .ofNat (i >>> 16), .ofNat (i >>> 24),
        .ofNat (i >>> 32), .ofNat (i >>> 40)]
    | .bigEndian => [.ofNat (i >>> 40), .ofNat (i >>> 32), .ofNat (i >>> 24), .ofNat (i >>> 16),
        .ofNat (i >>> 8), .ofNat i]

/-- `WriteUint24`, which panics on a number of more than 24 bits. -/
def writeUint24 (bo : ByteOrder) (i : ℕ) : Except WireError (List UInt8) :=
  if i ≥ 1 <<< 24 then .error .panicDoesntFit24
  else .ok <| match bo with
    | .littleEndian => [.ofNat i, .ofNat (i >>> 8), .ofNat (i >>> 16)]
    | .bigEndian => [.ofNat (i >>> 16), .ofNat (i >>> 8), .ofNat i]

/-- `WriteUint40`, which panics on a number of more than 40 bits. -/
def writeUint40 (bo : ByteOrder) (i : ℕ) : Except WireError (List UInt8) :=
  if i ≥ 1 <<< 40 then .error .panicDoesntFit40
  else .ok <| match bo with
    | .littleEndian => [.ofNat i, .ofNat (i >>> 8), .ofNat (i >>> 16), .ofNat (i >>> 24),
        .ofNat (i >>> 32)]
    | .bigEndian => [.ofNat (i >>> 32), .ofNat (i >>> 24), .ofNat (i >>> 16), .ofNat (i >>> 8),
        .ofNat i]

/-- `WriteUint56`, which panics on a number of more than 56 bits. -/
def writeUint56 (bo : ByteOrder) (i : ℕ) : Except WireError (List UInt8) :=
  if i ≥ 1 <<< 56 then .error .panicDoesntFit56
  else .ok <| match bo with
    | .littleEndian => [.ofNat i, .ofNat (i >>> 8), .ofNat (i >>> 16), .ofNat (i >>> 24),
        .ofNat (i >>> 32), .ofNat (i >>> 40), .ofNat (i >>> 48)]
    | .bigEndian => [.ofNat (i >>> 48), .ofNat (i >>> 40), .ofNat (i >>> 32), .ofNat (i >>> 24),
        .ofNat (i >>> 16), .ofNat (i >>> 8), .ofNat i]

/-- `WriteUint64`. -/
def writeUint64 (bo : ByteOrder) (i : ℕ) : List UInt8 :=
  match bo with
  | .littleEndian => [.ofNat i, .ofNat (i >>> 8), .ofNat (i >>> 16), .ofNat (i >>> 24),
      .ofNat (i >>> 32), .ofNat (i >>> 40), .ofNat (i >>> 48), .ofNat (i >>> 56)]
  | .bigEndian => [.ofNat (i >>> 56), .ofNat (i >>> 48), .ofNat (i >>> 40), .ofNat (i >>> 32),
      .ofNat (i >>> 24), .ofNat (i >>> 16), .ofNat (i >>> 8), .ofNat i]

/-- The `w` bytes of `n` in the byte order. -/
def encode (bo : ByteOrder) (w n : ℕ) : List UInt8 :=
  match bo with
  | .littleEndian => toLE w n
  | .bigEndian => toBE w n

@[simp] theorem length_encode (bo : ByteOrder) (w n : ℕ) : (bo.encode w n).length = w := by
  cases bo <;> simp [encode]

theorem encode_one (bo : ByteOrder) (n : ℕ) : bo.encode 1 n = [.ofNat n] := by
  cases bo <;> rfl

theorem writeUint16_eq (bo : ByteOrder) (i : ℕ) : bo.writeUint16 i = bo.encode 2 i := by
  cases bo <;> simp [writeUint16, encode, toLE, toBE, Nat.shiftRight_eq_div_pow]

theorem writeUint32_eq (bo : ByteOrder) (i : ℕ) : bo.writeUint32 i = bo.encode 4 i := by
  cases bo <;>
    simp [writeUint32, encode, toLE, toBE, Nat.shiftRight_eq_div_pow, Nat.div_div_eq_div_mul]

theorem writeUint48_eq (bo : ByteOrder) {i : ℕ} (hi : i < 2 ^ 48) :
    bo.writeUint48 i = .ok (bo.encode 6 i) := by
  have h : ¬ i ≥ 1 <<< 48 := by
    omega
  unfold writeUint48
  rw [if_neg h]
  cases bo <;> simp [encode, toLE, toBE, Nat.shiftRight_eq_div_pow, Nat.div_div_eq_div_mul]

theorem writeUint24_eq (bo : ByteOrder) {i : ℕ} (hi : i < 2 ^ 24) :
    bo.writeUint24 i = .ok (bo.encode 3 i) := by
  have h : ¬ i ≥ 1 <<< 24 := by
    omega
  unfold writeUint24
  rw [if_neg h]
  cases bo <;> simp [encode, toLE, toBE, Nat.shiftRight_eq_div_pow, Nat.div_div_eq_div_mul]

theorem writeUint40_eq (bo : ByteOrder) {i : ℕ} (hi : i < 2 ^ 40) :
    bo.writeUint40 i = .ok (bo.encode 5 i) := by
  have h : ¬ i ≥ 1 <<< 40 := by
    omega
  unfold writeUint40
  rw [if_neg h]
  cases bo <;> simp [encode, toLE, toBE, Nat.shiftRight_eq_div_pow, Nat.div_div_eq_div_mul]

theorem writeUint56_eq (bo : ByteOrder) {i : ℕ} (hi : i < 2 ^ 56) :
    bo.writeUint56 i = .ok (bo.encode 7 i) := by
  have h : ¬ i ≥ 1 <<< 56 := by
    omega
  unfold writeUint56
  rw [if_neg h]
  cases bo <;> simp [encode, toLE, toBE, Nat.shiftRight_eq_div_pow, Nat.div_div_eq_div_mul]

theorem writeUint64_eq (bo : ByteOrder) (i : ℕ) : bo.writeUint64 i = bo.encode 8 i := by
  cases bo <;>
    simp [writeUint64, encode, toLE, toBE, Nat.shiftRight_eq_div_pow, Nat.div_div_eq_div_mul]

theorem run_readUintNFrom_le (length i res : ℕ) (bs r : List UInt8)
    (h : i + bs.length = length) :
    (readUintNFrom .littleEndian length bs.length res).run (bs ++ r) =
      .ok (accLE i res bs, r) := by
  induction bs generalizing i res with
  | nil => rfl
  | cons b bs ih =>
    have hi : length - (bs.length + 1) = i := by
      rw [List.length_cons] at h
      omega
    rw [List.length_cons, readUintNFrom, List.cons_append, run_bind_ok (run_readByte_cons _ _ _)]
    simp only [hi, accLE, Nat.mul_comm i 8]
    exact ih (i + 1) _ (by rw [List.length_cons] at h; omega)

theorem run_readUintNFrom_be (length res : ℕ) (bs r : List UInt8) (h : bs.length ≤ length) :
    (readUintNFrom .bigEndian length bs.length res).run (bs ++ r) = .ok (accBE res bs, r) := by
  induction bs generalizing res with
  | nil => rfl
  | cons b bs ih =>
    rw [List.length_cons] at h
    have hi : length - 1 - (length - (bs.length + 1)) = bs.length := by omega
    rw [List.length_cons, readUintNFrom, List.cons_append, run_bind_ok (run_readByte_cons _ _ _)]
    simp only [hi, accBE, Nat.mul_comm bs.length 8]
    exact ih _ (by omega)

/-- Reading `w` bytes gives back the number written, modulo `256 ^ w`. -/
theorem run_readUintN_encode (bo : ByteOrder) (w n : ℕ) (r : List UInt8) :
    (bo.readUintN w).run (bo.encode w n ++ r) = .ok (n % 256 ^ w, r) := by
  cases bo with
  | littleEndian =>
    have h := run_readUintNFrom_le w 0 0 (toLE w n) r (by simp)
    rw [length_toLE, accLE_eq (by simp), ofLE_toLE] at h
    simpa [readUintN, encode] using h
  | bigEndian =>
    have h := run_readUintNFrom_be w 0 (toBE w n) r (by simp)
    have hacc := accBE_eq 0 (toBE w n)
    rw [zero_mul] at hacc
    rw [length_toBE, hacc, toBE, List.reverse_reverse, ofLE_toLE] at h
    simpa [readUintN, encode, toBE] using h

/-- `ReadUintN` consumes the bytes it was asked for. -/
theorem exists_of_run_readUintNFrom {bo : ByteOrder} {length k res v : ℕ} {bs r : List UInt8}
    (h : (bo.readUintNFrom length k res).run bs = .ok (v, r)) :
    ∃ as, as.length = k ∧ bs = as ++ r := by
  induction k generalizing res bs with
  | zero =>
    cases h
    exact ⟨[], rfl, rfl⟩
  | succ k ih =>
    obtain ⟨b, bs₁, hb, hk⟩ := exists_of_run_bind h
    cases bs with
    | nil => cases hb
    | cons c bs =>
      cases hb
      obtain ⟨as, hlen, rfl⟩ := ih hk
      exact ⟨b :: as, by rw [List.length_cons, hlen], rfl⟩

/-- A number that was read has as many bytes as were asked for. -/
theorem lt_of_run_readUintN {bo : ByteOrder} {w v : ℕ} {bs r : List UInt8}
    (h : (bo.readUintN w).run bs = .ok (v, r)) : v < 256 ^ w := by
  obtain ⟨as, rfl, rfl⟩ := exists_of_run_readUintNFrom h
  cases bo with
  | littleEndian =>
    rw [readUintN, run_readUintNFrom_le _ 0 0 as r (Nat.zero_add _), accLE_eq (by simp)] at h
    cases h
    simpa using ofLE_lt as
  | bigEndian =>
    have hacc := accBE_eq 0 as
    rw [zero_mul] at hacc
    rw [readUintN, run_readUintNFrom_be _ 0 as r le_rfl, hacc] at h
    cases h
    simpa using ofLE_lt as.reverse

/-! ## Delays -/

/-- `uFloat16MaxValue`. -/
def uFloat16MaxValue : ℕ := (1 <<< 12 - 1) <<< 30

/-- The value that 16 bits on the wire stand for: a float with a 5-bit exponent and an 11-bit
mantissa. -/
def ufloat16Value (val : ℕ) : ℕ :=
  if val < 1 <<< 12 then val
  else
    let exponent := (val >>> 11) - 1
    (val - exponent <<< 11) <<< exponent % 2 ^ 64

/-- `readUfloat16`. -/
def readUfloat16 (bo : ByteOrder) : WireReader ℕ := do
  let val ← bo.readUintN 2
  pure (ufloat16Value val)

/-- The binary search of `writeUfloat16`: shift the highest bit of `value` down to position 11,
counting the shifts in `exponent`. -/
def normalizeUfloat16 : List ℕ → ℕ × ℕ → ℕ × ℕ
  | [], acc => acc
  | offset :: offsets, (exponent, value) =>
    if value ≥ 1 <<< (11 + offset) then
      normalizeUfloat16 offsets (exponent + offset, value >>> offset)
    else
      normalizeUfloat16 offsets (exponent, value)

/-- The 16 bits `writeUfloat16` writes for an unsigned 64-bit value. -/
def ufloat16Bits (value : ℕ) : ℕ :=
  if value < 1 <<< 12 then value
  else if value ≥ uFloat16MaxValue then 2 ^ 16 - 1
  else
    let (exponent, value) := normalizeUfloat16 [16, 8, 4, 2, 1] (0, value)
    (value % 2 ^ 16 + exponent <<< 11 % 2 ^ 16) % 2 ^ 16

/-- `writeUfloat16`. -/
def writeUfloat16 (bo : ByteOrder) (value : ℕ) : List UInt8 :=
  bo.writeUint16 (ufloat16Bits value)

/-- What the encoding leaves of a value. -/
def roundUfloat16 (value : ℕ) : ℕ := ufloat16Value (ufloat16Bits value % 256 ^ 2)

/-- Reading a delay that was written gives its rounded value and consumes its two bytes. -/
theorem run_readUfloat16_round (bo : ByteOrder) (value : ℕ) (r : List UInt8) :
    (bo.readUfloat16).run (bo.writeUfloat16 value ++ r) = .ok (roundUfloat16 value, r) := by
  unfold readUfloat16 writeUfloat16
  rw [writeUint16_eq, run_bind_ok (run_readUintN_encode bo 2 _ r)]
  rfl

/-- Reading a delay that was written succeeds and consumes its two bytes. -/
theorem run_readUfloat16 (bo : ByteOrder) (value : ℕ) (r : List UInt8) :
    ∃ delay, (bo.readUfloat16).run (bo.writeUfloat16 value ++ r) = .ok (delay, r) :=
  ⟨_, run_readUfloat16_round bo value r⟩

end ByteOrder

end MultipathQuic
