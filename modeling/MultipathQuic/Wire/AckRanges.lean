import MultipathQuic.Wire.ByteOrder

/-!
# Acknowledged packets

The part that `ack_frame.go` and `close_path_frame.go` have in common: the acknowledged packet
numbers with their ranges, how the ranges are checked and counted, and the ACK blocks they are
written as and read from. A gap of more than 255 packets is written as several blocks, all but the
last of length zero.
-/

namespace MultipathQuic

open ByteCodec

/-- `wire.AckRange`. -/
structure AckRange where
  first : ℕ
  last : ℕ
  deriving DecidableEq, Repr

/-- The acknowledged packet numbers of an ACK or CLOSE_PATH frame. The highest range goes
first. -/
structure AckedPackets where
  largestAcked : ℕ
  lowestAcked : ℕ
  ackRanges : List AckRange
  deriving DecidableEq, Repr

/-- The missing packet numbers between a range and the next lower one. -/
def AckRange.gap (prev r : AckRange) : ℕ := sub64 (sub64 prev.first r.last) 1

/-- The number of packets in a range. -/
def AckRange.len (r : AckRange) : ℕ := add64 (sub64 r.last r.first) 1

/-- The number of ACK blocks a gap is written as. -/
def numBlocks (gap : ℕ) : ℕ :=
  let num := gap / 0xFF + 1
  if gap % 0xFF = 0 then num - 1 else num

namespace AckedPackets

/-- `HasMissingRanges`. -/
def hasMissingRanges (f : AckedPackets) : Bool := f.ackRanges.length > 0

/-- The consistency check of neighbouring ranges in `validateAckRanges`. -/
def neighboursConsistent : List AckRange → Bool
  | lastAckRange :: ackRange :: rs =>
    if lastAckRange.first ≤ ackRange.first then false
    else if lastAckRange.first ≤ add64 ackRange.last 1 then false
    else neighboursConsistent (ackRange :: rs)
  | _ => true

/-- `validateAckRanges`. -/
def validateAckRanges (f : AckedPackets) : Bool :=
  match f.ackRanges with
  | [] => true
  | [_] => false
  | r :: rs =>
    if r.last ≠ f.largestAcked then false
    else if (r :: rs).any fun ackRange => ackRange.first > ackRange.last then false
    else neighboursConsistent (r :: rs)

/-- The loop of `numWritableNackRanges`: the number of blocks counted so far, and whether the loop
stopped before the last range. -/
def nackRangesLoop : ℕ → AckRange → List AckRange → ℕ × Bool
  | numRanges, _, [] => (numRanges, false)
  | numRanges, lastAckRange, ackRange :: rs =>
    let rangeLength := numBlocks (lastAckRange.gap ackRange)
    if numRanges + rangeLength < 0xFF then nackRangesLoop (numRanges + rangeLength) ackRange rs
    else (numRanges, true)

/-- `numWritableNackRanges`: the number of ACK blocks that are about to be written. -/
def numWritableNackRanges (f : AckedPackets) : ℕ :=
  match f.ackRanges with
  | [] => 0
  | r :: rs => (nackRangesLoop 0 r rs).1 + 1

/-- `numWritableNackRanges` stops before the last range. -/
def stopsEarly (f : AckedPackets) : Bool :=
  match f.ackRanges with
  | [] => false
  | r :: rs => (nackRangesLoop 0 r rs).2

/-- The longest range of `getMissingSequenceNumberDeltaLen`. -/
def maxRangeLength (f : AckedPackets) : ℕ :=
  if f.hasMissingRanges then
    f.ackRanges.foldl (fun m r => if r.len > m then r.len else m) 0
  else add64 (sub64 f.largestAcked f.lowestAcked) 1

/-- `getMissingSequenceNumberDeltaLen`. -/
def getMissingSequenceNumberDeltaLen (f : AckedPackets) : PacketNumberLen :=
  if f.maxRangeLength ≤ 0xFF then .len1
  else if f.maxRangeLength ≤ 0xFFFF then .len2
  else if f.maxRangeLength ≤ 0xFFFFFFFF then .len4
  else .len6

/-- `AcksPacket`. -/
def acksPacket (f : AckedPackets) (p : ℕ) : Bool :=
  if p < f.lowestAcked ∨ p > f.largestAcked then false
  else if f.hasMissingRanges then
    f.ackRanges.any fun ackRange => p ≥ ackRange.first ∧ p ≤ ackRange.last
  else p ≥ f.lowestAcked ∧ p ≤ f.largestAcked

/-! ## Writing -/

/-- The gaps and lengths of the ACK blocks of one range. -/
def rangeBlocks (gap length : ℕ) : List (ℕ × ℕ) :=
  let num := numBlocks gap
  if num = 1 then [(gap, length)]
  else (List.range num).map fun i =>
    if i = num - 1 then (1 + sub64 gap 1 % 255, length) else (0xFF, 0)

/-- Writes one ACK block, its length with `put`. -/
def writeBlock (put : ℕ → Except WireError (List UInt8)) (block : ℕ × ℕ) :
    Except WireError (List UInt8) := do
  let bs ← put block.2
  .ok (UInt8.ofNat block.1 :: bs)

/-- Writes a list of ACK blocks. -/
def writeBlockList (put : ℕ → Except WireError (List UInt8)) :
    List (ℕ × ℕ) → Except WireError (List UInt8)
  | [] => .ok []
  | block :: blocks => do
    let bs ← writeBlock put block
    let bs' ← writeBlockList put blocks
    .ok (bs ++ bs')

/-- The loop over `AckRanges` in `Write`: it stops once `numRanges` blocks are written. -/
def writeRanges (put : ℕ → Except WireError (List UInt8)) (numRanges : ℕ) :
    AckRange → List AckRange → ℕ → Except WireError (List UInt8 × ℕ)
  | _, [], numRangesWritten => .ok ([], numRangesWritten)
  | prev, ackRange :: rs, numRangesWritten => do
    let blocks := rangeBlocks (prev.gap ackRange) ackRange.len
    let bs ← writeBlockList put blocks
    let numRangesWritten := numRangesWritten + blocks.length
    if numRangesWritten ≥ numRanges then
      .ok (bs, numRangesWritten)
    else do
      let (bs', numRangesWritten) ← writeRanges put numRanges ackRange rs numRangesWritten
      .ok (bs ++ bs', numRangesWritten)

/-- The number of ACK blocks, as `Write` announces it; `tooMany` is the frame's panic for more than
255 of them. -/
def writeNumAckBlocks (tooMany : WireError) (f : AckedPackets) :
    Except WireError (List UInt8) :=
  if f.hasMissingRanges then
    if f.numWritableNackRanges > 0xFF then .error tooMany
    else .ok [.ofNat (f.numWritableNackRanges - 1)]
  else .ok []

/-- The first ACK block length and the ACK blocks, as `Write` writes them; `bug` is the error for
an inconsistent number of blocks. -/
def writeAckBlocks (put : ℕ → Except WireError (List UInt8)) (bug : WireError)
    (f : AckedPackets) : Except WireError (List UInt8) :=
  match f.ackRanges with
  | [] => put (add64 (sub64 f.largestAcked f.lowestAcked) 1)
  | r :: rs => do
    if f.largestAcked ≠ r.last then .error .errInconsistentAckLargestAcked
    else if f.lowestAcked ≠ ((r :: rs).getLast (by simp)).first then
      .error .errInconsistentAckLowestAcked
    else
      let bs ← put (add64 (sub64 f.largestAcked r.first) 1)
      let (bs', numRangesWritten) ← writeRanges put f.numWritableNackRanges r rs 1
      if f.numWritableNackRanges ≠ numRangesWritten then .error bug
      else .ok (bs ++ bs')

end AckedPackets

/-- Writes an integer with a packet number length; `fit` is what the frame does with a number
before `WriteUint48`. -/
def putPacketNumber (bo : ByteOrder) (fit : ℕ → ℕ) (len : PacketNumberLen) (v : ℕ) :
    Except WireError (List UInt8) :=
  match len with
  | .invalid => .ok []
  | .len1 => .ok [.ofNat v]
  | .len2 => .ok (bo.writeUint16 (v % 2 ^ 16))
  | .len4 => .ok (bo.writeUint32 (v % 2 ^ 32))
  | .len6 => bo.writeUint48 (fit v)

/-! ## Parsing -/

/-- Reads a byte that is only there under a condition, zero otherwise. -/
def readByteIf (present : Bool) : WireReader UInt8 :=
  if present then readByte .eof else pure 0

/-- The state of the loop over ACK blocks: the finished ranges, the lowest first, the range under
construction, and whether it is complete. -/
structure BlockState where
  finished : List AckRange
  current : AckRange
  inLongBlock : Bool
  lastRangeComplete : Bool
  deriving DecidableEq, Repr

/-- The effect of one ACK block of `gap` and `length` on the ranges. -/
def BlockState.block (st : BlockState) (gap length : ℕ) : BlockState :=
  if st.inLongBlock then
    { st with
      current :=
        { first := sub64 st.current.first (add64 gap length)
          last := sub64 st.current.last gap }
      lastRangeComplete := if length > 0 then true else st.lastRangeComplete
      inLongBlock := length = 0 }
  else
    let last := sub64 (sub64 st.current.first gap) 1
    { finished := st.current :: st.finished
      current := { first := add64 (sub64 last length) 1, last := last }
      lastRangeComplete := length > 0
      inLongBlock := length = 0 }

/-- Reads `numAckBlocks` ACK blocks. -/
def parseBlocks (bo : ByteOrder) (deltaLen : ℕ) : ℕ → BlockState → WireReader BlockState
  | 0, st => pure st
  | n + 1, st => do
    let gap ← readByte .eof
    let length ← bo.readUintN deltaLen
    parseBlocks bo deltaLen n (st.block gap.toNat length)

/-- The ranges after the loop over ACK blocks, the highest first; an incomplete last range is
removed. -/
def BlockState.ranges (st : BlockState) : List AckRange :=
  if st.lastRangeComplete then (st.current :: st.finished).reverse else st.finished.reverse

/-- From the first ACK block length to `validateAckRanges`, as `ParseAckFrame` and
`ParseClosePathFrame` do it. -/
def parseAckSection (bo : ByteOrder) (deltaLen : ℕ) (hasMissingRanges : Bool)
    (numAckBlocks largestAcked : ℕ) : WireReader AckedPackets := do
  let ackBlockLength ← bo.readUintN deltaLen
  if largestAcked > 0 ∧ ackBlockLength < 1 then
    throw .errInvalidFirstAckRange
  else if ackBlockLength > largestAcked then
    throw .errInvalidAckRanges
  else
    let frame ← if hasMissingRanges then do
        let st ← parseBlocks bo deltaLen numAckBlocks
          { finished := []
            current :=
              { first := add64 (sub64 largestAcked ackBlockLength) 1, last := largestAcked }
            inLongBlock := false
            lastRangeComplete := false }
        match st.ranges.getLast? with
        | none => throw .panicIndexOutOfRange
        | some lowest =>
          pure ({ largestAcked := largestAcked, lowestAcked := lowest.first,
                  ackRanges := st.ranges } : AckedPackets)
      else
        pure
          { largestAcked := largestAcked
            lowestAcked :=
              if largestAcked = 0 then 0 else sub64 (add64 largestAcked 1) ackBlockLength
            ackRanges := [] }
    if frame.validateAckRanges then pure frame else throw .errInvalidAckRanges

/-- The integer length a two-bit field of a type byte stands for. -/
def fieldLen (bits : UInt8) : ℕ :=
  if 2 * bits = 0 then 1 else (2 * bits).toNat

/-- The two-bit field for a packet number length. -/
def lenField (len : PacketNumberLen) : UInt8 :=
  if len ≠ .len1 then .ofNat (len.bytes / 2) else 0

end MultipathQuic
