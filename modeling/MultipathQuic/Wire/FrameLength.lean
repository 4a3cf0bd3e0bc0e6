import MultipathQuic.Wire.FrameRoundTrip
import MultipathQuic.Wire.PublicHeader

/-!
# How long frames are on the wire

The packer reserves `MinLength` bytes for a frame before it writes it. This module says that a frame
which can be written takes exactly these bytes, a STREAM frame its data besides, and bounds the
longest ACK frame. The length of a PATHS frame is computed in 8 bits, which is right for at most 84
paths.

## Main definitions

* `Frame.Announced`: `MinLength` is the whole length

## Main results

* `Frame.length_of_write`: a frame is as long as announced
* `Frame.minLength_add_dataLen_iff`: for which frames the length is predicted
* `AckFrame.minLength_le`: the longest ACK frame
-/

namespace MultipathQuic

open ByteCodec AckedPackets

/-! ## Integers -/

namespace ByteOrder

variable (bo : ByteOrder) {bytes : List UInt8} {i : ℕ}

@[simp] theorem length_writeUint16 (i : ℕ) : (bo.writeUint16 i).length = 2 := by
  rw [writeUint16_eq, length_encode]

@[simp] theorem length_writeUint32 (i : ℕ) : (bo.writeUint32 i).length = 4 := by
  rw [writeUint32_eq, length_encode]

@[simp] theorem length_writeUint64 (i : ℕ) : (bo.writeUint64 i).length = 8 := by
  rw [writeUint64_eq, length_encode]

@[simp] theorem length_writeUfloat16 (i : ℕ) : (bo.writeUfloat16 i).length = 2 :=
  bo.length_writeUint16 _

variable {bo}

theorem length_of_writeUint24 (h : bo.writeUint24 i = .ok bytes) : bytes.length = 3 := by
  unfold writeUint24 at h
  split at h
  · cases h
  · cases h
    cases bo <;> rfl

theorem length_of_writeUint40 (h : bo.writeUint40 i = .ok bytes) : bytes.length = 5 := by
  unfold writeUint40 at h
  split at h
  · cases h
  · cases h
    cases bo <;> rfl

theorem length_of_writeUint48 (h : bo.writeUint48 i = .ok bytes) : bytes.length = 6 := by
  unfold writeUint48 at h
  split at h
  · cases h
  · cases h
    cases bo <;> rfl

theorem length_of_writeUint56 (h : bo.writeUint56 i = .ok bytes) : bytes.length = 7 := by
  unfold writeUint56 at h
  split at h
  · cases h
  · cases h
    cases bo <;> rfl

end ByteOrder

theorem length_of_putPacketNumber {bo : ByteOrder} {fit : ℕ → ℕ} {len : PacketNumberLen} {v : ℕ}
    {bytes : List UInt8} (h : putPacketNumber bo fit len v = .ok bytes) :
    bytes.length = len.bytes := by
  cases len with
  | invalid =>
    cases h
    rfl
  | len1 =>
    cases h
    rfl
  | len2 =>
    cases h
    exact bo.length_writeUint16 _
  | len4 =>
    cases h
    exact bo.length_writeUint32 _
  | len6 => exact ByteOrder.length_of_writeUint48 h

/-! ## ACK blocks -/

section AckBlocks

variable {put : ℕ → Except WireError (List UInt8)} {w : ℕ} {bytes : List UInt8}

theorem length_of_writeBlockList (hput : ∀ {v bs}, put v = .ok bs → bs.length = w)
    {blocks : List (ℕ × ℕ)} (h : writeBlockList put blocks = .ok bytes) :
    bytes.length = (1 + w) * blocks.length := by
  induction blocks generalizing bytes with
  | nil =>
    cases h
    rfl
  | cons block blocks ih =>
    obtain ⟨head, hhead, h⟩ := exists_of_bind_eq_ok h
    obtain ⟨tail, htail, h⟩ := exists_of_bind_eq_ok h
    obtain ⟨bs, hbs, hhead⟩ := exists_of_bind_eq_ok hhead
    cases h
    cases hhead
    rw [List.length_append, List.length_cons, List.length_cons, ih htail, hput hbs]
    ring

/-- Each block counts as one that is written, and takes as many bytes as any other. -/
theorem length_of_writeRanges (hput : ∀ {v bs}, put v = .ok bs → bs.length = w) {numRanges : ℕ}
    {prev : AckRange} {rs : List AckRange} {n n' : ℕ}
    (h : writeRanges put numRanges prev rs n = .ok (bytes, n')) :
    bytes.length + (1 + w) * n = (1 + w) * n' := by
  induction rs generalizing bytes prev n with
  | nil =>
    cases h
    rw [List.length_nil, Nat.zero_add]
  | cons r rs ih =>
    obtain ⟨bs, hbs, h⟩ := exists_of_bind_eq_ok h
    have hlen := length_of_writeBlockList hput hbs
    dsimp only at h
    split at h
    · cases h
      rw [hlen]
      ring
    · obtain ⟨⟨bs', n''⟩, hrest, h⟩ := exists_of_bind_eq_ok h
      cases h
      have hrest : bs'.length + (1 + w) * (n + (rangeBlocks (prev.gap r) r.len).length) =
          (1 + w) * n'' := ih hrest
      rw [Nat.mul_add] at hrest
      dsimp only
      rw [List.length_append, hlen]
      omega

variable {f : AckedPackets}

/-- The blocks with the byte for their number are as long as `MinLength` says. -/
theorem length_of_writeAckBlocks {tooMany bug : WireError} {num : List UInt8}
    (hput : ∀ {v bs}, put v = .ok bs → bs.length = f.getMissingSequenceNumberDeltaLen.bytes)
    (hnum : f.writeNumAckBlocks tooMany = .ok num) (h : f.writeAckBlocks put bug = .ok bytes) :
    num.length + bytes.length =
      if f.hasMissingRanges then
        (1 + f.getMissingSequenceNumberDeltaLen.bytes) * f.numWritableNackRanges
      else f.getMissingSequenceNumberDeltaLen.bytes := by
  match hf : f.ackRanges with
  | [] =>
    have hmissing : ¬ f.hasMissingRanges = true := by simp [hasMissingRanges, hf]
    rw [writeNumAckBlocks, if_neg hmissing] at hnum
    cases hnum
    unfold writeAckBlocks at h
    split at h
    · rw [if_neg hmissing, hput h, List.length_nil, Nat.zero_add]
    · next hcons =>
      rw [hf] at hcons
      cases hcons
  | r :: rs =>
    have hmissing : f.hasMissingRanges = true := by simp [hasMissingRanges, hf]
    rw [writeNumAckBlocks, if_pos hmissing] at hnum
    have hone : num.length = 1 := by
      split at hnum <;> cases hnum
      rfl
    rw [if_pos hmissing, hone]
    unfold writeAckBlocks at h
    split at h
    · next hnil =>
      rw [hf] at hnil
      cases hnil
    · split at h
      · cases h
      · split at h
        · cases h
        · obtain ⟨first, hfirst, h⟩ := exists_of_bind_eq_ok h
          obtain ⟨⟨bs, n⟩, hranges, h⟩ := exists_of_bind_eq_ok h
          have hlen := length_of_writeRanges hput hranges
          dsimp only at h
          split at h
          · cases h
          · next hcount =>
            cases h
            rw [List.length_append, hput hfirst, not_not.mp hcount]
            omega

end AckBlocks

/-! ## Frames -/

section Frames

variable {version : VersionNumber} {bytes : List UInt8}

theorem StreamFrame.length_of_writeStreamID {bo : ByteOrder} {f : StreamFrame}
    (h : writeStreamID bo f.calculateStreamIDLength f.streamID = .ok bytes) :
    bytes.length = f.calculateStreamIDLength := by
  generalize f.calculateStreamIDLength = len at h ⊢
  unfold writeStreamID at h
  split at h
  · cases h
    rfl
  · cases h
    exact bo.length_writeUint16 _
  · exact ByteOrder.length_of_writeUint24 h
  · cases h
    exact bo.length_writeUint32 _
  · cases h

theorem StreamFrame.length_of_writeOffset {bo : ByteOrder} {f : StreamFrame}
    (h : writeOffset bo f.getOffsetLength f.offset = .ok bytes) :
    bytes.length = f.getOffsetLength := by
  generalize f.getOffsetLength = len at h ⊢
  unfold writeOffset at h
  split at h
  · cases h
    rfl
  · cases h
    exact bo.length_writeUint16 _
  · exact ByteOrder.length_of_writeUint24 h
  · cases h
    exact bo.length_writeUint32 _
  · exact ByteOrder.length_of_writeUint40 h
  · exact ByteOrder.length_of_writeUint48 h
  · exact ByteOrder.length_of_writeUint56 h
  · cases h
    exact bo.length_writeUint64 _
  · cases h

/-- A STREAM frame takes its header and its data. -/
theorem StreamFrame.length_of_write {f : StreamFrame} (h : f.write version = .ok bytes) :
    bytes.length = f.minLength + f.dataLen := by
  unfold StreamFrame.write at h
  split at h
  · cases h
  · obtain ⟨id, hid, h⟩ := exists_of_bind_eq_ok h
    obtain ⟨offset, hoffset, h⟩ := exists_of_bind_eq_ok h
    cases h
    have hdataLen : (if f.dataLenPresent then
        (getByteOrder version).writeUint16 f.data.length else []).length =
        if f.dataLenPresent then 2 else 0 := by
      split <;> simp
    simp only [List.length_cons, List.length_append, length_of_writeStreamID hid,
      length_of_writeOffset hoffset, hdataLen, StreamFrame.minLength, StreamFrame.dataLen]
    omega

theorem AckFrame.length_of_write {f : AckFrame} {delay : ℕ}
    (h : f.write version delay = .ok bytes) :
    bytes.length = 1 + 2 + 1 + f.toAckedPackets.minLength +
      if f.pathID ≠ initialPathID then 1 else 0 := by
  obtain ⟨largest, hlargest, h⟩ := exists_of_bind_eq_ok h
  obtain ⟨num, hnum, h⟩ := exists_of_bind_eq_ok h
  obtain ⟨blocks, hblocks, h⟩ := exists_of_bind_eq_ok h
  cases h
  have hlen := length_of_writeAckBlocks length_of_putPacketNumber hnum hblocks
  have hpath : (if f.pathID ≠ initialPathID then [f.pathID] else []).length =
      if f.pathID ≠ initialPathID then 1 else 0 := by
    split <;> rfl
  simp only [List.length_cons, List.length_append, List.length_nil, hpath,
    length_of_putPacketNumber hlargest, ByteOrder.length_writeUfloat16, AckedPackets.minLength]
  omega

theorem ClosePathFrame.length_of_write {f : ClosePathFrame} (h : f.write version = .ok bytes) :
    bytes.length = 1 + 1 + 1 + f.toAckedPackets.minLength := by
  obtain ⟨num, hnum, h⟩ := exists_of_bind_eq_ok h
  obtain ⟨largest, hlargest, h⟩ := exists_of_bind_eq_ok h
  obtain ⟨blocks, hblocks, h⟩ := exists_of_bind_eq_ok h
  cases h
  have hlen := length_of_writeAckBlocks length_of_putPacketNumber hnum hblocks
  simp only [List.length_cons, List.length_append, length_of_putPacketNumber hlargest,
    AckedPackets.minLength]
  omega

theorem length_of_writeLeastUnackedDelta {bo : ByteOrder} {len : PacketNumberLen} {delta : ℕ}
    (h : writeLeastUnackedDelta bo len delta = .ok bytes) :
    len ≠ .invalid ∧ bytes.length = len.bytes := by
  cases len with
  | invalid => cases h
  | len1 =>
    cases h
    exact ⟨by decide, rfl⟩
  | len2 =>
    cases h
    exact ⟨by decide, bo.length_writeUint16 _⟩
  | len4 =>
    cases h
    exact ⟨by decide, bo.length_writeUint32 _⟩
  | len6 => exact ⟨by decide, ByteOrder.length_of_writeUint48 h⟩

theorem StopWaitingFrame.length_of_write {f : StopWaitingFrame} (h : f.write version = .ok bytes) :
    f.packetNumberLen ≠ .invalid ∧ bytes.length = 1 + f.packetNumberLen.bytes := by
  unfold StopWaitingFrame.write at h
  split at h
  · cases h
  · split at h
    · cases h
    · obtain ⟨delta, hdelta, h⟩ := exists_of_bind_eq_ok h
      cases h
      obtain ⟨hlen, hbytes⟩ := length_of_writeLeastUnackedDelta hdelta
      refine ⟨hlen, ?_⟩
      rw [List.length_cons, hbytes, Nat.add_comm]

theorem AddAddressFrame.length_of_write {f : AddAddressFrame} (h : f.write version = .ok bytes) :
    (Frame.addAddress f).minLength = .ok bytes.length := by
  unfold AddAddressFrame.write at h
  rw [Frame.minLength]
  split at h
  · next hv4 =>
    rw [if_pos hv4]
    split at h
    · cases h
    · next ip hip =>
      cases h
      simp [(ipTo16_of_ipTo4 hip).1]
  · next hv4 =>
    rw [if_neg hv4]
    split at h
    · next hv6 =>
      rw [if_pos hv6]
      split at h
      · cases h
      · next ip hip =>
        cases h
        simp [length_of_ipTo16 hip]
    · cases h

theorem length_flatMap_const {α β : Type} {f : α → List β} {k : ℕ} (h : ∀ a, (f a).length = k)
    (l : List α) : (l.flatMap f).length = k * l.length := by
  induction l with
  | nil => rfl
  | cons a l ih =>
    rw [List.flatMap_cons, List.length_append, h, ih, List.length_cons]
    ring

/-- Three bytes for each path. -/
theorem PathsFrame.length_of_write {f : PathsFrame} (h : f.write version = .ok bytes) :
    f.numPaths.toNat = f.pathIDs.length ∧ bytes.length = 3 + 3 * f.pathIDs.length := by
  unfold PathsFrame.write at h
  split at h
  · cases h
  · next hnum =>
    split at h
    · cases h
    · next hrtts =>
      cases h
      rw [List.length_cons, List.length_cons, List.length_cons,
        length_flatMap_const (k := 3) (by rintro ⟨pathID, rtt⟩; simp), List.length_zip,
        ← not_not.mp hrtts, Nat.min_self]
      omega

/-- The length is computed in 8 bits. -/
theorem PathsFrame.minLength_eq_iff {f : PathsFrame} (h : f.write version = .ok bytes) :
    (Frame.paths f).minLength = .ok bytes.length ↔ f.pathIDs.length ≤ 84 := by
  obtain ⟨hnum, hbytes⟩ := PathsFrame.length_of_write h
  have hlen : (1 + 1 + 1 + 3 * f.numPaths).toNat = (3 + 3 * f.pathIDs.length) % 256 := by
    simp only [UInt8.toNat_add, UInt8.toNat_mul, hnum]
    simp
  rw [Frame.minLength, hlen, hbytes, Except.ok.injEq]
  omega

/-- The frames whose length is announced by `MinLength`: STREAM frames have their data besides, and
the length of a PATHS frame has 8 bits. -/
def Frame.Announced : Frame → Prop
  | .stream _ => False
  | .paths frame => frame.pathIDs.length ≤ 84
  | _ => True

instance : (frame : Frame) → Decidable frame.Announced
  | .stream _ => inferInstanceAs (Decidable False)
  | .paths _ => inferInstanceAs (Decidable (_ ≤ _))
  | .ack _ | .stopWaiting _ | .rstStream _ | .windowUpdate _ | .blocked _ | .ping | .goaway _
  | .connectionClose _ | .addAddress _ | .closePath _ => inferInstanceAs (Decidable True)

/-- **A frame that can be written is as long as announced.** -/
theorem Frame.length_of_write {frame : Frame} {delay : AckFrame → ℕ} (hann : frame.Announced)
    (h : frame.write version delay = .ok bytes) : frame.minLength = .ok bytes.length := by
  cases frame with
  | stream f => exact hann.elim
  | ack f => rw [Frame.minLength, AckFrame.length_of_write h]
  | stopWaiting f =>
    obtain ⟨hlen, hbytes⟩ := StopWaitingFrame.length_of_write h
    rw [Frame.minLength, if_neg hlen, hbytes]
  | rstStream f =>
    cases h
    simp [Frame.minLength, RstStreamFrame.write]
  | windowUpdate f =>
    cases h
    simp [Frame.minLength, WindowUpdateFrame.write]
  | blocked f =>
    cases h
    simp [Frame.minLength, BlockedFrame.write]
  | ping =>
    cases h
    rfl
  | goaway f =>
    cases h
    simp only [Frame.minLength, GoawayFrame.write, List.length_cons, List.length_append,
      ByteOrder.length_writeUint32, ByteOrder.length_writeUint16]
    congr 1
    omega
  | connectionClose f =>
    change f.write version = .ok bytes at h
    unfold ConnectionCloseFrame.write at h
    split at h <;> cases h
    simp only [Frame.minLength, List.length_cons, List.length_append,
      ByteOrder.length_writeUint32, ByteOrder.length_writeUint16]
    congr 1
    omega
  | addAddress f => exact AddAddressFrame.length_of_write h
  | closePath f => rw [Frame.minLength, ClosePathFrame.length_of_write h]
  | paths f => exact (PathsFrame.minLength_eq_iff h).mpr hann

/-- What a frame takes besides its `MinLength`: `DataLen` of a STREAM frame. -/
def Frame.dataLen : Frame → ℕ
  | .stream frame => frame.dataLen
  | _ => 0

/-- The frames whose length fits the 8 bits of `PathsFrame.MinLength`. -/
def Frame.FewPaths : Frame → Prop
  | .paths frame => frame.pathIDs.length ≤ 84
  | _ => True

/-- **The frames of predicted size.** Of the frames that can be written, those and only those with
at most 84 paths are as long as announced. -/
theorem Frame.minLength_add_dataLen_iff {frame : Frame} {delay : AckFrame → ℕ}
    (h : frame.write version delay = .ok bytes) :
    frame.minLength.map (· + frame.dataLen) = .ok bytes.length ↔ frame.FewPaths := by
  by_cases hann : frame.Announced
  · rw [Frame.length_of_write hann h]
    cases frame with
    | stream f => exact hann.elim
    | paths f => exact iff_of_true rfl hann
    | _ => exact iff_of_true rfl trivial
  · cases frame with
    | stream f => exact iff_of_true (congrArg Except.ok (StreamFrame.length_of_write h).symm) trivial
    | paths f =>
      exact PathsFrame.minLength_eq_iff h
    | _ => exact absurd trivial hann

/-- A PATHS frame of many paths. -/
def manyPathsFrame (n : ℕ) : PathsFrame where
  maxNumPaths := 255
  numPaths := UInt8.ofNat n
  pathIDs := List.replicate n 1
  remoteRTTs := List.replicate n 0

theorem Frame.minLength_manyPathsFrame :
    ∃ bytes, (Frame.paths (manyPathsFrame 84)).write version39 (fun _ => 0) = .ok bytes ∧
      (Frame.paths (manyPathsFrame 84)).minLength.map (· + (Frame.paths (manyPathsFrame 84)).dataLen)
        = .ok bytes.length := by
  obtain ⟨bytes, hwrite⟩ : ∃ bytes,
      (Frame.paths (manyPathsFrame 84)).write version39 (fun _ => 0) = .ok bytes := ⟨_, rfl⟩
  have hfew : (Frame.paths (manyPathsFrame 84)).FewPaths := (List.length_replicate ..).le
  exact ⟨bytes, hwrite, (Frame.minLength_add_dataLen_iff hwrite).mpr hfew⟩

/-- With one path more the announced length is 2. -/
theorem Frame.exists_longer_than_minLength :
    ∃ bytes, (Frame.paths (manyPathsFrame 85)).write version39 (fun _ => 0) = .ok bytes ∧
      bytes.length = 258 ∧ (Frame.paths (manyPathsFrame 85)).minLength = .ok 2 :=
  ⟨_, rfl, by decide +kernel, rfl⟩

end Frames

/-! ## ACK frames of small packet numbers -/

/-- The ranges are ranges of packet numbers, which start at 1, and all numbers are below `n`. -/
@[mk_iff]
structure AckedPackets.Below (f : AckedPackets) (n : ℕ) : Prop where
  largestAcked : f.largestAcked < n
  ranges : ∀ r ∈ f.ackRanges, 1 ≤ r.first ∧ r.first ≤ r.last ∧ r.last < n

instance (f : AckedPackets) (n : ℕ) : Decidable (f.Below n) := decidable_of_iff' _ (f.below_iff n)

/-- The length of a block takes at most 4 bytes. -/
theorem AckedPackets.Below.deltaLen_le {f : AckedPackets} (h : f.Below (2 ^ 32))
    (hmissing : f.hasMissingRanges = true) : f.getMissingSequenceNumberDeltaLen.bytes ≤ 4 := by
  have hmax : f.maxRangeLength < 2 ^ 32 := by
    rw [maxRangeLength, if_pos hmissing]
    refine foldl_max_lt (by decide) fun r hr => ?_
    obtain ⟨hpos, hle, hlt⟩ := h.ranges r hr
    rw [AckRange.len_eq hle hpos (by omega)]
    omega
  unfold getMissingSequenceNumberDeltaLen
  split_ifs <;> first | decide | omega

theorem AckedPackets.Below.minLength_le {f : AckedPackets} (h : f.Below (2 ^ 32)) :
    f.minLength ≤ 4 + 5 * 255 := by
  have hlargest : (getPacketNumberLength f.largestAcked).bytes ≤ 4 := by
    have hlt := h.largestAcked
    unfold getPacketNumberLength
    split_ifs <;> decide
  unfold AckedPackets.minLength
  dsimp only
  split
  · next hmissing =>
    have hdelta := h.deltaLen_le hmissing
    have hblocks := Nat.mul_le_mul (Nat.add_le_add_left hdelta 1) (numWritableNackRanges_le f)
    omega
  · have hdelta : f.getMissingSequenceNumberDeltaLen.bytes ≤ 6 := by
      cases f.getMissingSequenceNumberDeltaLen <;> decide
    omega

/-- **An ACK frame of packet numbers below `2 ^ 32` has at most 1284 bytes**, however many ranges it
has. -/
theorem AckFrame.minLength_le {f : AckFrame} (h : f.Below (2 ^ 32)) :
    1 + 2 + 1 + f.toAckedPackets.minLength + (if f.pathID ≠ initialPathID then 1 else 0) ≤
      1284 := by
  have hlen := h.minLength_le
  split <;> omega

/-! ## Headers -/

theorem mask48_lt (v : ℕ) : mask48 v < 2 ^ 48 := by
  rw [mask48, Nat.shiftLeft_eq, one_mul, Nat.and_two_pow_sub_one_eq_mod]
  exact Nat.mod_lt _ (Nat.two_pow_pos 48)

namespace PublicHeader

variable {h : PublicHeader} {version : VersionNumber} {pers : Perspective} {bytes : List UInt8}

theorem length_of_writePacketNumber {bo : ByteOrder}
    (hw : h.writePacketNumber bo pers = .ok bytes) :
    bytes.length = if h.hasPacketNumber pers then h.packetNumberLen.bytes else 0 := by
  unfold writePacketNumber at hw
  by_cases hhas : h.hasPacketNumber pers = true
  · rw [if_pos hhas] at hw ⊢
    cases hlen : h.packetNumberLen <;> rw [hlen] at hw
    case invalid => cases hw
    case len1 =>
      cases hw
      rfl
    case len2 =>
      cases hw
      exact bo.length_writeUint16 _
    case len4 =>
      cases hw
      exact bo.length_writeUint32 _
    case len6 =>
      cases hbytes : bo.writeUint48 (mask48 h.packetNumber) <;> rw [hbytes] at hw
      · cases hw
      · cases hw
        exact ByteOrder.length_of_writeUint48 hbytes
  · rw [if_neg hhas] at hw ⊢
    cases hw
    rfl

/-- What a written header consists of. -/
theorem length_of_write (hw : h.write version pers = .ok bytes) :
    bytes.length = 1 + (if h.hasPacketNumber pers then h.packetNumberLen.bytes else 0) +
      (if h.truncateConnectionID then 0 else 8) +
      (if h.versionFlag && pers == .client then 4 else 0) + h.diversificationNonce.length +
      if h.multipathFlag then 1 else 0 := by
  unfold write at hw
  split at hw
  · cases hw
  · split at hw
    · cases hw
    · obtain ⟨pn, hpn, hw⟩ := exists_of_bind_eq_ok hw
      cases hw
      have htag : (if h.versionFlag && pers == .client then
          ByteOrder.littleEndian.writeUint32 (versionNumberToTag h.versionNumber)
          else []).length = if h.versionFlag && pers == .client then 4 else 0 := by
        split <;> simp
      have hid : (if h.truncateConnectionID then [] else
          ByteOrder.littleEndian.writeUint64 h.connectionID.toNat).length =
          if h.truncateConnectionID then 0 else 8 := by
        split <;> simp
      have hpath : (if h.multipathFlag then [h.pathID] else []).length =
          if h.multipathFlag then 1 else 0 := by
        split <;> rfl
      simp only [List.length_cons, List.length_append, length_of_writePacketNumber hpn, htag, hid,
        hpath]
      omega

/-- A header whose length can be told is as long as that. -/
theorem getLength_of_write {len : ℕ} (hlen : h.getLength pers = .ok len)
    (hw : h.write version pers = .ok bytes) : bytes.length = len := by
  rw [length_of_write hw]
  unfold getLength at hlen
  split at hlen
  · cases hlen
  · split at hlen
    · cases hlen
    · next hserver =>
      split at hlen
      · cases hlen
      · cases hlen
        -- a server does not set the version flag
        have htag : (h.versionFlag && pers == .client) = h.versionFlag := by
          cases hv : h.versionFlag <;> cases pers <;> simp_all
        rw [htag]

/-- A header has at most 20 bytes and its nonce. -/
theorem length_le_of_write (hw : h.write version pers = .ok bytes) :
    bytes.length ≤ 20 + h.diversificationNonce.length := by
  have hpn : h.packetNumberLen.bytes ≤ 6 := by cases h.packetNumberLen <;> decide
  rw [length_of_write hw]
  split_ifs <;> omega

theorem getLength_le {len : ℕ} (hlen : h.getLength pers = .ok len) :
    len ≤ 20 + h.diversificationNonce.length := by
  have hpn : h.packetNumberLen.bytes ≤ 6 := by cases h.packetNumberLen <;> decide
  unfold getLength at hlen
  split_ifs at hlen <;> cases hlen <;> omega

/-- A header whose length can be told is written, unless its nonce is not. -/
theorem exists_write {len : ℕ} (hlen : h.getLength pers = .ok len)
    (hnonce : h.diversificationNonce = []) (version : VersionNumber) :
    ∃ bytes, h.write version pers = .ok bytes := by
  unfold getLength at hlen
  split at hlen
  · cases hlen
  · next hreset =>
    split at hlen
    · cases hlen
    · split at hlen
      · cases hlen
      · next hnumber =>
        have hpn : ∃ pn, h.writePacketNumber (getByteOrder version) pers = .ok pn := by
          unfold writePacketNumber
          by_cases hhas : h.hasPacketNumber pers = true
          · rw [if_pos hhas]
            cases hpnLen : h.packetNumberLen with
            | invalid => exact absurd (by simp [hhas, hpnLen]) hnumber
            | len1 => exact ⟨_, rfl⟩
            | len2 => exact ⟨_, rfl⟩
            | len4 => exact ⟨_, rfl⟩
            | len6 =>
              rw [ByteOrder.writeUint48_eq _ (mask48_lt _)]
              exact ⟨_, rfl⟩
          · rw [if_neg hhas]
            exact ⟨_, rfl⟩
        obtain ⟨pn, hpn⟩ := hpn
        unfold write
        rw [if_neg hreset, if_neg (by simp [hnonce]), hpn]
        exact ⟨_, rfl⟩

/-- A nonce is only written if it has 32 bytes. -/
theorem length_nonce_of_write (hw : h.write version pers = .ok bytes) :
    h.diversificationNonce.length = 0 ∨ h.diversificationNonce.length = 32 := by
  unfold write at hw
  split at hw
  · cases hw
  · split at hw
    · cases hw
    · omega

end PublicHeader

end MultipathQuic
