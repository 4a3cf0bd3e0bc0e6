import MultipathQuic.Protocol

/-!
# STREAM frames

`internal/wire/stream_frame.go`: the data of a STREAM frame. A parsed frame never reaches past the
maximum offset, since `ParseStreamFrame` rejects one whose end overflows, so the end of a frame is
a plain sum.
-/

namespace MultipathQuic

/-- `wire.StreamFrame`. -/
structure StreamFrame where
  streamID : ℕ
  finBit : Bool
  dataLenPresent : Bool
  offset : ℕ
  data : List UInt8
  deriving DecidableEq, Repr

/-- `DataLen`. -/
def StreamFrame.dataLen (f : StreamFrame) : ℕ := f.data.length

/-- `calculateStreamIDLength`. -/
def StreamFrame.calculateStreamIDLength (f : StreamFrame) : ℕ :=
  if f.streamID < 2 ^ 8 then 1
  else if f.streamID < 2 ^ 16 then 2
  else if f.streamID < 2 ^ 24 then 3
  else 4

/-- `getOffsetLength`. -/
def StreamFrame.getOffsetLength (f : StreamFrame) : ℕ :=
  if f.offset = 0 then 0
  else if f.offset < 2 ^ 16 then 2
  else if f.offset < 2 ^ 24 then 3
  else if f.offset < 2 ^ 32 then 4
  else if f.offset < 2 ^ 40 then 5
  else if f.offset < 2 ^ 48 then 6
  else if f.offset < 2 ^ 56 then 7
  else 8

/-- `MinLength`: the length of the header. -/
def StreamFrame.minLength (f : StreamFrame) : ℕ :=
  1 + f.calculateStreamIDLength + f.getOffsetLength + if f.dataLenPresent then 2 else 0

theorem StreamFrame.calculateStreamIDLength_le (f : StreamFrame) :
    f.calculateStreamIDLength ≤ 4 := by
  unfold calculateStreamIDLength
  split_ifs <;> decide

theorem StreamFrame.getOffsetLength_le (f : StreamFrame) : f.getOffsetLength ≤ 8 := by
  unfold getOffsetLength
  split_ifs <;> decide

theorem StreamFrame.minLength_le (f : StreamFrame) : f.minLength ≤ 15 := by
  have hid := f.calculateStreamIDLength_le
  have hoffset := f.getOffsetLength_le
  unfold minLength
  split <;> omega

/-- Cuts the first `n` bytes off a frame. -/
def StreamFrame.cutHead (f : StreamFrame) (n : ℕ) : StreamFrame :=
  { f with offset := f.offset + n, data := f.data.drop n }

/-- Cuts the data of a frame to its first `n` bytes. The other fields stay, the FIN bit too. -/
def StreamFrame.cutTail (f : StreamFrame) (n : ℕ) : StreamFrame :=
  { f with data := f.data.take n }

@[simp] theorem StreamFrame.offset_cutHead (f : StreamFrame) (n : ℕ) :
    (f.cutHead n).offset = f.offset + n := rfl

@[simp] theorem StreamFrame.dataLen_cutHead (f : StreamFrame) (n : ℕ) :
    (f.cutHead n).dataLen = f.dataLen - n :=
  List.length_drop

end MultipathQuic
