import Mathlib.Data.List.Chain
import MultipathQuic.Wire.AckFrame

/-!
# Accepted acknowledgements

The ranges of an ACK or CLOSE_PATH frame are computed from the blocks on the wire with unsigned
arithmetic, which may wrap around. A frame that passes `validateAckRanges` is nevertheless well
formed: no range is longer than a block length can say, so a range whose numbers have wrapped around
cannot lie below the range before it.

## Main definitions

* `AckedPackets.WellFormed`: the ranges are in order

## Main results

* `wellFormed_of_parseAckFrame`, `wellFormed_of_parseClosePathFrame`: accepted frames are
* `acceptedFrames_span`: what they span
-/

namespace MultipathQuic

open ByteCodec

/-- The acknowledged packet numbers are consistent: the ranges are nonempty, ordered from the
highest to the lowest, disjoint and not adjacent, and reach from the largest to the lowest number. -/
structure AckedPackets.WellFormed (f : AckedPackets) : Prop where
  interval : f.ackRanges = [] → f.lowestAcked ≤ f.largestAcked
  highest : ∀ {r rs}, f.ackRanges = r :: rs → r.last = f.largestAcked
  lowest : ∀ {rs r}, f.ackRanges = rs ++ [r] → r.first = f.lowestAcked
  first_le_last : ∀ r ∈ f.ackRanges, r.first ≤ r.last
  apart : f.ackRanges.IsChain fun prev r => r.last + 1 < prev.first

/-! ## The loop over the blocks -/

/-- If the range is not empty, it is not longer than a block length can say. Only the first range
can be empty, with a largest acknowledged number of 0. -/
structure AckRange.Short (r : AckRange) : Prop where
  first_lt : r.first < 2 ^ 64
  last_lt : r.last < 2 ^ 64
  sub64_lt : r.first ≤ r.last → sub64 r.last r.first < 2 ^ 48

/-- The invariant of the loop over the blocks. -/
structure BlockState.Bounded (st : BlockState) : Prop where
  finished : ∀ r ∈ st.finished, r.Short
  first_lt : st.current.first < 2 ^ 64
  last_lt : st.current.last < 2 ^ 64
  complete : st.inLongBlock = false → st.current.Short
  /-- In a long block, the current range is still empty. -/
  long : st.inLongBlock = true →
    add64 st.current.last 1 = st.current.first ∧ st.lastRangeComplete = false

theorem BlockState.Bounded.block {st : BlockState} (h : st.Bounded) (gap : ℕ) {length : ℕ}
    (hlength : length < 2 ^ 48) : (st.block gap length).Bounded := by
  cases hlong : st.inLongBlock with
  | true =>
    obtain ⟨hempty, hdone⟩ := h.long hlong
    have hdiff : ∀ n, n < 2 ^ 48 → 0 < n →
        sub64 (sub64 st.current.last gap) (sub64 st.current.first (add64 gap n)) < 2 ^ 48 := by
      unfold add64 at hempty
      unfold add64 sub64
      omega
    have hnext : add64 (sub64 st.current.last gap) 1 =
        sub64 st.current.first (add64 gap 0) := by
      unfold add64 at hempty
      unfold add64 sub64
      omega
    rw [BlockState.block, if_pos hlong]
    refine ⟨h.finished, sub64_lt _ _, sub64_lt _ _, fun hne => ⟨sub64_lt _ _, sub64_lt _ _, ?_⟩,
      fun hzero => ?_⟩
    · exact fun _ => hdiff length hlength (Nat.pos_of_ne_zero (of_decide_eq_false hne))
    · obtain rfl : length = 0 := of_decide_eq_true hzero
      exact ⟨hnext, by simp [hdone]⟩
  | false =>
    have hshort := h.complete hlong
    rw [BlockState.block, if_neg (by simp [hlong])]
    refine ⟨fun r hr => ?_, add64_lt _ _, sub64_lt _ _, fun hne => ⟨add64_lt _ _, sub64_lt _ _, ?_⟩,
      fun hzero => ?_⟩
    · rcases List.mem_cons.mp hr with rfl | hr
      · exact hshort
      · exact h.finished r hr
    · have hpos : 0 < length := Nat.pos_of_ne_zero (of_decide_eq_false hne)
      dsimp only
      unfold add64 sub64
      omega
    · obtain rfl : length = 0 := of_decide_eq_true hzero
      refine ⟨?_, rfl⟩
      dsimp only
      unfold add64 sub64
      omega

theorem BlockState.Bounded.of_run_parseBlocks {bo : ByteOrder} {deltaLen n : ℕ}
    (hdelta : deltaLen ≤ 6) {st st' : BlockState} {bs r : List UInt8} (h : st.Bounded)
    (hrun : (parseBlocks bo deltaLen n st).run bs = .ok (st', r)) : st'.Bounded := by
  induction n generalizing st bs with
  | zero =>
    cases hrun
    exact h
  | succ n ih =>
    obtain ⟨gap, bs₁, -, hrun⟩ := exists_of_run_bind hrun
    obtain ⟨length, bs₂, hlength, hrun⟩ := exists_of_run_bind hrun
    refine ih (h.block gap.toNat ?_) hrun
    calc length < 256 ^ deltaLen := ByteOrder.lt_of_run_readUintN hlength
      _ ≤ 256 ^ 6 := Nat.pow_le_pow_right (by decide) hdelta
      _ = 2 ^ 48 := by norm_num

theorem BlockState.Bounded.short_of_mem_ranges {st : BlockState} (h : st.Bounded) {r : AckRange}
    (hr : r ∈ st.ranges) : r.Short := by
  unfold BlockState.ranges at hr
  split_ifs at hr with hdone
  · rw [List.mem_reverse] at hr
    rcases List.mem_cons.mp hr with rfl | hr
    · refine h.complete ?_
      cases hlong : st.inLongBlock with
      | false => rfl
      | true =>
        rw [(h.long hlong).2] at hdone
        cases hdone
    · exact h.finished r hr
  · exact h.finished r (List.mem_reverse.mp hr)

/-! ## The checks -/

namespace AckedPackets

/-- Consistent ranges that are short do not wrap around. -/
theorem isChain_of_neighboursConsistent {r : AckRange} {rs : List AckRange}
    (h : neighboursConsistent (r :: rs) = true) (hshort : ∀ x ∈ r :: rs, x.Short)
    (hle : ∀ x ∈ r :: rs, x.first ≤ x.last) (hr : r.first ≤ 2 ^ 48) :
    (r :: rs).IsChain fun prev r => r.last + 1 < prev.first := by
  induction rs generalizing r with
  | nil => exact List.isChain_singleton r
  | cons x rs ih =>
    rw [neighboursConsistent] at h
    split_ifs at h with hfirst hlast
    have hx := hshort x (by simp)
    have hxle := hle x (by simp)
    have hxlt := hx.last_lt
    have hsub := hx.sub64_lt hxle
    rw [sub64_of_le hxle hxlt] at hsub
    rw [add64_of_lt (by omega)] at hlast
    refine List.isChain_cons_cons.mpr ⟨by omega, ih h (fun y hy => hshort y ?_) (fun y hy => hle y ?_)
      (by omega)⟩
    · exact List.mem_cons_of_mem _ hy
    · exact List.mem_cons_of_mem _ hy

theorem wellFormed_of_validateAckRanges {f : AckedPackets} (h : f.validateAckRanges = true)
    (hne : f.ackRanges ≠ []) (hshort : ∀ x ∈ f.ackRanges, x.Short)
    (hlargest : f.largestAcked < 2 ^ 48)
    (hlowest : ∀ {rs r}, f.ackRanges = rs ++ [r] → r.first = f.lowestAcked) : f.WellFormed := by
  cases hf : f.ackRanges with
  | nil => exact absurd hf hne
  | cons r rs =>
    cases rs with
    | nil =>
      rw [validateAckRanges, hf] at h
      cases h
    | cons x rs =>
      rw [hf] at hshort
      simp only [validateAckRanges, hf] at h
      split_ifs at h with hlast hany
      have hle : ∀ y ∈ r :: x :: rs, y.first ≤ y.last := by
        intro y hy
        by_contra hlt
        exact hany (List.any_eq_true.mpr ⟨y, hy, decide_eq_true (Nat.lt_of_not_le hlt)⟩)
      have hfirst := hle r List.mem_cons_self
      have hr : r.last = f.largestAcked := of_not_not hlast
      refine ⟨fun hnil => absurd hnil hne, fun {y ys} heq => ?_, hlowest, ?_, ?_⟩
      · rw [hf] at heq
        obtain ⟨rfl, -⟩ := List.cons.inj heq
        exact hr
      · rwa [hf]
      · rw [hf]
        exact isChain_of_neighboursConsistent h hshort hle (by omega)

end AckedPackets

theorem validateAckRanges_of_run {frame f : AckedPackets} {err : WireError} {bs r : List UInt8}
    (h : (if frame.validateAckRanges then pure frame else throw err : WireReader AckedPackets).run
      bs = .ok (f, r)) : frame.validateAckRanges = true ∧ frame = f := by
  split_ifs at h with hvalid
  · cases h
    exact ⟨hvalid, rfl⟩
  · cases h

/-- The loop over the blocks starts with the first range. -/
theorem bounded_first {largestAcked : ℕ} (hlargest : largestAcked < 2 ^ 48) (ackBlockLength : ℕ) :
    BlockState.Bounded
      { finished := []
        current := { first := add64 (sub64 largestAcked ackBlockLength) 1, last := largestAcked }
        inLongBlock := false
        lastRangeComplete := false } := by
  have hlast : largestAcked < 2 ^ 64 := by omega
  refine ⟨nofun, add64_lt _ _, hlast, fun _ => ⟨add64_lt _ _, hlast, fun hne => ?_⟩, nofun⟩
  dsimp only at hne ⊢
  rw [sub64_of_le hne hlast]
  omega

theorem wellFormed_interval {largestAcked lowestAcked : ℕ} (h : lowestAcked ≤ largestAcked) :
    AckedPackets.WellFormed ⟨largestAcked, lowestAcked, []⟩ :=
  ⟨fun _ => h, nofun, fun heq => by simp at heq, nofun, List.isChain_nil⟩

/-- The part of both frames that acknowledges packets has passed the checks when it is accepted, and
it is well formed. -/
theorem accepted_of_parseAckSection {bo : ByteOrder} {deltaLen : ℕ} (hdelta : deltaLen ≤ 6)
    {hasMissingRanges : Bool} {numAckBlocks largestAcked : ℕ} (hlargest : largestAcked < 2 ^ 48)
    {f : AckedPackets} {bs r : List UInt8}
    (h : (parseAckSection bo deltaLen hasMissingRanges numAckBlocks largestAcked).run bs =
      .ok (f, r)) : f.validateAckRanges = true ∧ f.WellFormed := by
  obtain ⟨ackBlockLength, bs₁, -, h⟩ := exists_of_run_bind h
  split_ifs at h with hfirst hlong hmissing
  · cases h
  · cases h
  · obtain ⟨st, bs₂, hblocks, h⟩ := exists_of_run_bind h
    have hbounded := (bounded_first hlargest ackBlockLength).of_run_parseBlocks hdelta hblocks
    split at h
    · cases h
    · next lowest hlast =>
      obtain ⟨frame, bs₃, hframe, h⟩ := exists_of_run_bind h
      obtain ⟨hvalid, rfl⟩ := validateAckRanges_of_run h
      cases hframe
      refine ⟨hvalid, AckedPackets.wellFormed_of_validateAckRanges hvalid ?_
        (fun x hx => hbounded.short_of_mem_ranges hx) hlargest fun {rs r} heq => ?_⟩
      · intro hnil
        dsimp only at hnil
        rw [hnil] at hlast
        cases hlast
      · dsimp only at heq ⊢
        rw [heq, List.getLast?_concat] at hlast
        cases hlast
        rfl
  · obtain ⟨frame, bs₂, hframe, h⟩ := exists_of_run_bind h
    obtain ⟨hvalid, rfl⟩ := validateAckRanges_of_run h
    cases hframe
    exact ⟨hvalid, wellFormed_interval (Nat.zero_le _)⟩
  · obtain ⟨frame, bs₂, hframe, h⟩ := exists_of_run_bind h
    obtain ⟨hvalid, rfl⟩ := validateAckRanges_of_run h
    cases hframe
    refine ⟨hvalid, wellFormed_interval ?_⟩
    rw [add64_of_lt (by omega), sub64_of_le (by omega) (by omega)]
    omega

/-- The length fields of a type byte stand for six bytes at most. -/
theorem fieldLen_le {bits : UInt8} (h : bits ≤ 3) : fieldLen bits ≤ 6 := by
  have hbits : bits.toNat ≤ 3 := UInt8.le_iff_toNat_le.mp h
  unfold fieldLen
  split_ifs
  · decide
  · exact (Nat.mod_le _ _).trans (Nat.mul_le_mul_left 2 hbits)

theorem lt_of_run_readUintN_fieldLen {bo : ByteOrder} {bits : UInt8} (hbits : bits ≤ 3) {v : ℕ}
    {bs r : List UInt8} (h : (bo.readUintN (fieldLen bits)).run bs = .ok (v, r)) : v < 2 ^ 48 :=
  calc v < 256 ^ fieldLen bits := ByteOrder.lt_of_run_readUintN h
    _ ≤ 256 ^ 6 := Nat.pow_le_pow_right (by decide) (fieldLen_le hbits)
    _ = 2 ^ 48 := by norm_num

theorem and_three_le (b : UInt8) : b &&& 0x03 ≤ 3 := by
  exact Nat.and_le_right

theorem and_twelve_shiftRight_le (b : UInt8) : (b &&& 0x0C) >>> 2 ≤ 3 := by
  rw [UInt8.le_iff_toNat_le, UInt8.toNat_shiftRight, UInt8.toNat_and, Nat.shiftRight_eq_div_pow]
  exact Nat.div_le_div_right Nat.and_le_right

theorem accepted_of_parseAckFrame {version : VersionNumber} {f : AckFrame} {bs r : List UInt8}
    (h : (parseAckFrame version).run bs = .ok (f, r)) :
    f.validateAckRanges = true ∧ f.WellFormed := by
  obtain ⟨typeByte, bs₁, -, h⟩ := exists_of_run_bind h
  obtain ⟨pathID, bs₂, -, h⟩ := exists_of_run_bind h
  obtain ⟨largestAcked, bs₃, hlargest, h⟩ := exists_of_run_bind h
  obtain ⟨delay, bs₄, -, h⟩ := exists_of_run_bind h
  obtain ⟨numAckBlocks, bs₅, -, h⟩ := exists_of_run_bind h
  split_ifs at h with hblocks
  · cases h
  · obtain ⟨frame, bs₆, hframe, h⟩ := exists_of_run_bind h
    have hwf := accepted_of_parseAckSection (fieldLen_le (and_three_le _))
      (lt_of_run_readUintN_fieldLen (and_twelve_shiftRight_le _) hlargest) hframe
    obtain ⟨numTimestamp, bs₇, -, h⟩ := exists_of_run_bind h
    split_ifs at h with htimes
    · obtain ⟨_, bs₈, -, h⟩ := exists_of_run_bind h
      obtain ⟨_, bs₉, -, h⟩ := exists_of_run_bind h
      obtain ⟨_, bs₁₀, -, h⟩ := exists_of_run_bind h
      cases h
      exact hwf
    · cases h
      exact hwf

theorem accepted_of_parseClosePathFrame {version : VersionNumber} {f : ClosePathFrame}
    {bs r : List UInt8} (h : (parseClosePathFrame version).run bs = .ok (f, r)) :
    f.validateAckRanges = true ∧ f.WellFormed := by
  obtain ⟨_, bs₁, -, h⟩ := exists_of_run_bind h
  obtain ⟨pathID, bs₂, -, h⟩ := exists_of_run_bind h
  obtain ⟨flags, bs₃, -, h⟩ := exists_of_run_bind h
  obtain ⟨numAckBlocks, bs₄, -, h⟩ := exists_of_run_bind h
  split_ifs at h with hblocks
  · cases h
  · obtain ⟨largestAcked, bs₅, hlargest, h⟩ := exists_of_run_bind h
    obtain ⟨frame, bs₆, hframe, h⟩ := exists_of_run_bind h
    cases h
    exact accepted_of_parseAckSection (fieldLen_le (and_three_le _))
      (lt_of_run_readUintN_fieldLen (and_twelve_shiftRight_le _) hlargest) hframe

theorem wellFormed_of_parseAckFrame {version : VersionNumber} {f : AckFrame} {bs r : List UInt8}
    (h : (parseAckFrame version).run bs = .ok (f, r)) : f.WellFormed :=
  (accepted_of_parseAckFrame h).2

theorem wellFormed_of_parseClosePathFrame {version : VersionNumber} {f : ClosePathFrame}
    {bs r : List UInt8} (h : (parseClosePathFrame version).run bs = .ok (f, r)) : f.WellFormed :=
  (accepted_of_parseClosePathFrame h).2

/-- The frame acknowledges an interval, or at least two ranges with something missing between any
two neighbours. -/
def AckedPackets.Spans (f : AckedPackets) : Prop :=
  f.ackRanges = [] ∧ f.lowestAcked ≤ f.largestAcked ∨
    2 ≤ f.ackRanges.length ∧ (∀ r ∈ f.ackRanges, r.first ≤ r.last) ∧
      f.ackRanges.IsChain (fun prev r => r.last + 1 < prev.first) ∧
      f.ackRanges.head?.map AckRange.last = some f.largestAcked ∧
      f.ackRanges.getLast?.map AckRange.first = some f.lowestAcked

theorem AckedPackets.WellFormed.spans {f : AckedPackets} (h : f.WellFormed)
    (hvalid : f.validateAckRanges = true) : f.Spans := by
  rcases List.eq_nil_or_concat f.ackRanges with hnil | ⟨rs, r, hlast⟩
  · exact Or.inl ⟨hnil, h.interval hnil⟩
  rw [List.concat_eq_append] at hlast
  refine Or.inr ⟨?_, h.first_le_last, h.apart, ?_, ?_⟩
  · -- a single range does not pass the checks
    have hsingle : f.ackRanges.length ≠ 1 := by
      intro hone
      obtain ⟨x, hx⟩ := List.length_eq_one_iff.mp hone
      rw [validateAckRanges, hx] at hvalid
      cases hvalid
    have hlen : f.ackRanges.length = rs.length + 1 := by rw [hlast, List.length_append]; rfl
    omega
  · cases hf : f.ackRanges with
    | nil =>
      rw [hf] at hlast
      simp at hlast
    | cons x xs =>
      rw [List.head?_cons, Option.map_some, h.highest hf]
  · rw [hlast, List.getLast?_concat, Option.map_some, h.lowest hlast]

/-- **Accepted acknowledgements are well formed,** whatever the bytes are. -/
theorem acceptedFrames_span (version : VersionNumber) (bs rest : List UInt8) :
    (∀ f : AckFrame, (parseAckFrame version).run bs = .ok (f, rest) → f.Spans) ∧
      ∀ f : ClosePathFrame, (parseClosePathFrame version).run bs = .ok (f, rest) → f.Spans := by
  constructor
  · intro f h
    obtain ⟨hvalid, hwf⟩ := accepted_of_parseAckFrame h
    exact hwf.spans hvalid
  · intro f h
    obtain ⟨hvalid, hwf⟩ := accepted_of_parseClosePathFrame h
    exact hwf.spans hvalid

/-- An ACK frame with a gap of 300 packets, and a CLOSE_PATH frame for the packets 3 to 5. -/
theorem acceptedFrames_span_examples :
    AckedPackets.Spans ⟨310, 1, [⟨306, 310⟩, ⟨1, 5⟩]⟩ ∧ AckedPackets.Spans ⟨5, 3, []⟩ := by
  have hack : (parseAckFrame 39).run [0x74, 3, 1, 54, 0, 0, 2, 5, 255, 0, 45, 5, 0] =
      .ok (⟨⟨310, 1, [⟨306, 310⟩, ⟨1, 5⟩]⟩, 3, 0⟩, []) := by decide +kernel
  have hclose : (parseClosePathFrame 39).run [0x11, 3, 0, 5, 3] =
      .ok (⟨⟨5, 3, []⟩, 3⟩, []) := by decide +kernel
  exact ⟨(acceptedFrames_span 39 _ []).1 _ hack, (acceptedFrames_span 39 _ []).2 _ hclose⟩

end MultipathQuic
