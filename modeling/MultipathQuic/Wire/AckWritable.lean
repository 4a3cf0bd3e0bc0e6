import MultipathQuic.Wire.AckRoundTrip

/-!
# Which acknowledgements can be written

`Write` announces the number of ACK blocks that `numWritableNackRanges` counts, and then writes
blocks until it has written as many. The count stops before the first range that does not fit a
frame; the writer only looks at the limit after it has written a range, so it always writes the
second range. The two agree unless that range does not fit, that is, unless the first gap alone
takes more than 254 blocks.
-/

namespace MultipathQuic

open ByteCodec AckedPackets

namespace AckedPackets

/-- The acknowledgements of a receiver: two or more separated ranges or a nonempty interval, with
the largest and the lowest packet number of the ranges. -/
structure Producible (f : AckedPackets) : Prop extends f.Ordered, f.Encodable where
  highest : ∀ {r rs}, f.ackRanges = r :: rs → f.largestAcked = r.last
  lowest : ∀ {rs r}, f.ackRanges = rs ++ [r] → f.lowestAcked = r.first

/-- The number of packets missing between the two highest ranges. -/
def firstGap (f : AckedPackets) : ℕ :=
  match f.ackRanges with
  | r :: x :: _ => r.first - x.last - 1
  | _ => 0

end AckedPackets

/-! ## Counting and writing -/

theorem le_nackRangesLoop (n : ℕ) (prev : AckRange) (rs : List AckRange) :
    n ≤ (nackRangesLoop n prev rs).1 := by
  induction rs generalizing n prev with
  | nil => exact le_rfl
  | cons r rs ih =>
    rw [nackRangesLoop]
    split
    · exact le_trans (Nat.le_add_right _ _) (ih _ r)
    · exact le_rfl

/-- The count goes beyond `n` only over a range that fits. -/
theorem fits_of_lt_nackRangesLoop {n : ℕ} {prev r : AckRange} {rs : List AckRange}
    (h : n < (nackRangesLoop n prev (r :: rs)).1) : n + numBlocks (prev.gap r) < 0xFF := by
  by_contra hfull
  rw [nackRangesLoop, if_neg hfull] at h
  exact absurd h (lt_irrefl n)

/-- A gap fits a frame on its own if it has at most 254 times 255 packets. -/
theorem numBlocks_lt_iff (gap : ℕ) : numBlocks gap < 0xFF ↔ gap ≤ 254 * 255 := by
  unfold numBlocks
  dsimp only
  split <;> omega

section Write

variable {put : ℕ → Except WireError (List UInt8)} {bo : ByteOrder} {w : ℕ}

/-- **The writer stops where the count stopped,** once the first of the ranges fits. -/
theorem writeRanges_counted (hput : ∀ v < 256 ^ w, put v = .ok (bo.encode w v)) {n : ℕ}
    {prev r : AckRange} {rs : List AckRange}
    (hb : ∀ b ∈ blocksOf prev (r :: rs), b.2 < 256 ^ w)
    (hfits : n + numBlocks (prev.gap r) < 0xFF) :
    ∃ bs, writeRanges put ((nackRangesLoop n prev (r :: rs)).1 + 1) prev (r :: rs) (n + 1) =
      .ok (bs, (nackRangesLoop n prev (r :: rs)).1 + 1) := by
  induction rs generalizing n prev r with
  | nil =>
    have hhead := writeBlockList_ok hput fun b h => hb b (List.mem_append_left _ h)
    have hnext : n + 1 + numBlocks (prev.gap r) = n + numBlocks (prev.gap r) + 1 := by omega
    rw [nackRangesLoop, if_pos hfits, nackRangesLoop, writeRanges_stop hhead hnext.ge, hnext]
    exact ⟨_, rfl⟩
  | cons x rs ih =>
    have hhead := writeBlockList_ok hput fun b h => hb b (List.mem_append_left _ h)
    have hnext : n + 1 + numBlocks (prev.gap r) = n + numBlocks (prev.gap r) + 1 := by omega
    have hle := le_nackRangesLoop (n + numBlocks (prev.gap r)) r (x :: rs)
    rw [nackRangesLoop, if_pos hfits]
    rcases hle.eq_or_lt with hstop | hlt
    · -- the count stopped here, and so does the writer
      rw [← hstop, writeRanges_stop hhead hnext.ge, hnext]
      exact ⟨_, rfl⟩
    · obtain ⟨bs, hrun⟩ := ih (fun b h => hb b (List.mem_append_right _ h))
        (fits_of_lt_nackRangesLoop hlt)
      rw [← hnext] at hrun
      exact ⟨_, writeRanges_next hhead (by omega) hrun⟩

/-- A second range that does not fit is written all the same, with more blocks than announced. -/
theorem writeRanges_overfull (hput : ∀ v < 256 ^ w, put v = .ok (bo.encode w v))
    {prev r : AckRange} {rs : List AckRange}
    (hb : ∀ b ∈ blocksOf prev (r :: rs), b.2 < 256 ^ w) {numRanges : ℕ} (hone : numRanges = 1) :
    writeRanges put numRanges prev (r :: rs) 1 =
      .ok (blockBytes bo w (rangeBlocks (prev.gap r) r.len), 1 + numBlocks (prev.gap r)) := by
  exact writeRanges_stop (writeBlockList_ok hput fun b h => hb b (List.mem_append_left _ h))
    (by omega) rs

variable {f : AckedPackets}

theorem firstGap_eq {r x : AckRange} {rs : List AckRange} (hf : f.ackRanges = r :: x :: rs)
    (hp : f.Producible) : r.gap x = f.firstGap := by
  have hsep : Separated (r :: x :: rs) := hf ▸ hp.separated
  have hle := hsep.first_le_last r List.mem_cons_self
  have hlt := hp.largestAcked_lt
  rw [hp.highest hf] at hlt
  rw [AckRange.gap_eq hsep.last_add_one_lt (by omega), firstGap, hf]

/-- The announced number of blocks always fits its byte. -/
theorem exists_writeNumAckBlocks (f : AckedPackets) (tooMany : WireError) :
    ∃ bs, f.writeNumAckBlocks tooMany = .ok bs := by
  rw [writeNumAckBlocks]
  split
  · rw [if_neg (not_lt.mpr (numWritableNackRanges_le f))]
    exact ⟨_, rfl⟩
  · exact ⟨_, rfl⟩

/-- `Write` compares the number of blocks it has written with the number it has announced. -/
theorem writeAckBlocks_of_written {r : AckRange} {rs : List AckRange}
    (hf : f.ackRanges = r :: rs) (hlargest : f.largestAcked = r.last)
    (hlowest : f.lowestAcked = ((r :: rs).getLast (by simp)).first) {bs bs' : List UInt8} {n : ℕ}
    (hfirst : put (add64 (sub64 f.largestAcked r.first) 1) = .ok bs)
    (hrun : writeRanges put f.numWritableNackRanges r rs 1 = .ok (bs', n)) (bug : WireError) :
    f.writeAckBlocks put bug =
      if f.numWritableNackRanges ≠ n then .error bug else .ok (bs ++ bs') := by
  obtain ⟨largest, lowest, ranges⟩ := f
  subst hf
  simp only [writeAckBlocks]
  rw [if_neg (not_not_intro hlargest), if_neg (not_not_intro hlowest), hfirst, hrun]
  rfl

/-- The blocks of a frame with two or more ranges can be written iff the first gap fits. -/
theorem writeAckBlocks_ranges_iff (hp : f.Producible)
    (hput : ∀ v < 256 ^ f.getMissingSequenceNumberDeltaLen.bytes,
      put v = .ok (bo.encode f.getMissingSequenceNumberDeltaLen.bytes v))
    {r x : AckRange} {rs : List AckRange} (hf : f.ackRanges = r :: x :: rs) (bug : WireError) :
    (∃ bs, f.writeAckBlocks put bug = .ok bs) ↔ f.firstGap ≤ 254 * 255 := by
  have hsep : Separated (r :: x :: rs) := hf ▸ hp.separated
  have hlargest := hp.highest hf
  have hlast : r.last < 2 ^ 48 := hlargest ▸ hp.largestAcked_lt
  have hlowest : f.lowestAcked = ((r :: x :: rs).getLast (by simp)).first := by
    have hsplit := List.dropLast_append_getLast (List.cons_ne_nil r (x :: rs))
    exact hp.lowest (hf.trans hsplit.symm)
  have hlens : ∀ y ∈ r :: x :: rs, y.len < 256 ^ f.getMissingSequenceNumberDeltaLen.bytes :=
    fun y hy => len_lt_pow_deltaLen hf hsep hlast hy
  have hb : ∀ b ∈ blocksOf r (x :: rs), b.2 < 256 ^ f.getMissingSequenceNumberDeltaLen.bytes :=
    fun b h => (mem_blocksOf_bounds hsep hlast
      (fun y hy => hlens y (List.mem_cons_of_mem _ hy)) h).2
  have hfirst : add64 (sub64 f.largestAcked r.first) 1 = r.len := by rw [hlargest, AckRange.len]
  have hcount := numWritableNackRanges_of_cons hf
  have hput₁ := hfirst ▸ hput _ (hlens r List.mem_cons_self)
  rw [← firstGap_eq hf hp, ← numBlocks_lt_iff]
  constructor
  · rintro ⟨bs, h⟩
    by_contra hfull
    have hone : f.numWritableNackRanges = 1 := by
      rw [hcount, nackRangesLoop, if_neg (by omega)]
    rw [writeAckBlocks_of_written hf hlargest hlowest hput₁
      (writeRanges_overfull hput hb hone), if_pos (by omega)] at h
    cases h
  · intro hfits
    obtain ⟨bs, hrun⟩ := writeRanges_counted hput hb (n := 0) (by omega)
    rw [← hcount] at hrun
    rw [writeAckBlocks_of_written hf hlargest hlowest hput₁ hrun, if_neg (not_not_intro rfl)]
    exact ⟨_, rfl⟩

/-- The blocks of a frame can be written iff the first gap fits. -/
theorem writeAckBlocks_iff (hp : f.Producible)
    (hput : ∀ v < 256 ^ f.getMissingSequenceNumberDeltaLen.bytes,
      put v = .ok (bo.encode f.getMissingSequenceNumberDeltaLen.bytes v)) (bug : WireError) :
    (∃ bs, f.writeAckBlocks put bug = .ok bs) ↔ f.firstGap ≤ 254 * 255 := by
  match hf : f.ackRanges with
  | [] =>
    obtain ⟨hpos, hle⟩ := hp.interval hf
    have hlt := hp.largestAcked_lt
    have hlen : add64 (sub64 f.largestAcked f.lowestAcked) 1 =
        f.largestAcked - f.lowestAcked + 1 := by
      rw [sub64_of_le hle (by omega), add64_of_lt (by omega)]
    have hmax : f.maxRangeLength = f.largestAcked - f.lowestAcked + 1 := by
      rw [maxRangeLength, if_neg (by simp [hasMissingRanges, hf]), hlen]
    have hzero : f.firstGap = 0 := by rw [firstGap, hf]
    have hblocks : f.writeAckBlocks put bug = put (f.largestAcked - f.lowestAcked + 1) := by
      simp only [writeAckBlocks, hf, hlen]
    rw [hzero, hblocks, hput _ (lt_pow_deltaLen (by omega) hmax.ge)]
    exact iff_of_true ⟨_, rfl⟩ (Nat.zero_le _)
  | [_] => exact absurd (by rw [hf]; rfl) hp.not_single
  | r :: x :: rs => exact writeAckBlocks_ranges_iff hp hput hf bug

end Write

/-! ## Both frames -/

theorem AckFrame.write_iff {f : AckFrame} (hp : f.Producible) (version : VersionNumber)
    (delay : ℕ) : (∃ bytes, f.write version delay = .ok bytes) ↔ f.firstGap ≤ 254 * 255 := by
  have hlargest := putPacketNumber_eq mask48_eq (getByteOrder version)
    (lt_pow_getPacketNumberLength hp.largestAcked_lt)
  obtain ⟨num, hnum⟩ := exists_writeNumAckBlocks f.toAckedPackets .panicTooManyAckRanges
  rw [← writeAckBlocks_iff hp (fun v hv => putPacketNumber_eq mask48_eq (getByteOrder version) hv)
    .inconsistentAckRangesWritten]
  unfold AckFrame.write
  dsimp only
  constructor
  · rintro ⟨bytes, h⟩
    obtain ⟨_, _, h⟩ := exists_of_bind_eq_ok h
    obtain ⟨_, _, h⟩ := exists_of_bind_eq_ok h
    obtain ⟨blocks, hblocks, -⟩ := exists_of_bind_eq_ok h
    exact ⟨blocks, hblocks⟩
  · rintro ⟨blocks, hblocks⟩
    rw [hlargest, hnum, hblocks]
    exact ⟨_, rfl⟩

theorem ClosePathFrame.write_iff {f : ClosePathFrame} (hp : f.Producible)
    (version : VersionNumber) :
    (∃ bytes, f.write version = .ok bytes) ↔ f.firstGap ≤ 254 * 255 := by
  have hfit : ∀ v < 2 ^ 48, id v = v := fun _ _ => rfl
  have hlargest := putPacketNumber_eq hfit (getByteOrder version)
    (lt_pow_getPacketNumberLength hp.largestAcked_lt)
  obtain ⟨num, hnum⟩ :=
    exists_writeNumAckBlocks f.toAckedPackets .panicTooManyAckRangesInClosePath
  rw [← writeAckBlocks_iff hp (fun v hv => putPacketNumber_eq hfit (getByteOrder version) hv)
    .inconsistentAckRangesWrittenInClosePath]
  unfold ClosePathFrame.write
  dsimp only
  constructor
  · rintro ⟨bytes, h⟩
    obtain ⟨_, _, h⟩ := exists_of_bind_eq_ok h
    obtain ⟨_, _, h⟩ := exists_of_bind_eq_ok h
    obtain ⟨blocks, hblocks, -⟩ := exists_of_bind_eq_ok h
    exact ⟨blocks, hblocks⟩
  · rintro ⟨blocks, hblocks⟩
    rw [hnum, hlargest, hblocks]
    exact ⟨_, rfl⟩

/-- **A producible acknowledgement can be written iff its first gap fits 254 blocks.** The other
gaps do not matter: the ranges from the first one on that does not fit are left out. -/
theorem ackFrames_writable_iff (version : VersionNumber) :
    (∀ (f : AckFrame) (delay : ℕ), f.Producible →
      ((∃ bytes, f.write version delay = .ok bytes) ↔ f.firstGap ≤ 254 * 255)) ∧
    ∀ f : ClosePathFrame, f.Producible →
      ((∃ bytes, f.write version = .ok bytes) ↔ f.firstGap ≤ 254 * 255) :=
  ⟨fun _ delay hp => AckFrame.write_iff hp version delay,
    fun _ hp => ClosePathFrame.write_iff hp version⟩

/-- A gap of one packet, then one of a million packets. -/
def longSecondGap : AckedPackets := ⟨1000005, 1, [⟨1000005, 1000005⟩, ⟨1000003, 1000003⟩, ⟨1, 2⟩]⟩

/-- The long gap is not the first one: the frame is written, without its last range. -/
theorem longSecondGap_writable :
    (∃ bytes, AckFrame.write ⟨longSecondGap, 1, 0⟩ 39 0 = .ok bytes) ∧
      ∃ bytes, ClosePathFrame.write ⟨longSecondGap, 1⟩ 39 = .ok bytes := by
  have hp : longSecondGap.Producible := by
    refine ⟨⟨⟨by decide, by decide, ?_⟩, by decide⟩, ⟨fun h => absurd h (by decide), by decide⟩,
      fun h => ?_, fun {rs r} h => ?_⟩
    · exact List.IsChain.cons_cons (by decide) (List.isChain_pair.mpr (by decide))
    · cases h
      rfl
    · have hlast := congrArg List.getLast? h
      rw [List.getLast?_concat] at hlast
      cases hlast
      rfl
  exact ⟨((ackFrames_writable_iff 39).1 ⟨longSecondGap, 1, 0⟩ 0 hp).mpr (by decide),
    ((ackFrames_writable_iff 39).2 ⟨longSecondGap, 1⟩ hp).mpr (by decide)⟩

/-- The peer has skipped 64771 packets. -/
def longFirstGap : AckedPackets := ⟨64774, 1, [⟨64774, 64774⟩, ⟨1, 2⟩]⟩

/-- One block is announced, but the gap is written with 255 more. -/
theorem longFirstGap_not_writable :
    longFirstGap.Producible ∧ longFirstGap.firstGap = 254 * 255 + 1 ∧
      AckFrame.write ⟨longFirstGap, 0, 0⟩ 39 0 = .error .inconsistentAckRangesWritten ∧
      ClosePathFrame.write ⟨longFirstGap, 1⟩ 39 =
        .error .inconsistentAckRangesWrittenInClosePath := by
  refine ⟨?_, rfl, ?_, ?_⟩
  · refine ⟨⟨⟨by decide, by decide, ?_⟩, by decide⟩, ⟨fun h => absurd h (by decide), by decide⟩,
      fun h => ?_, fun {rs r} h => ?_⟩
    · exact List.isChain_pair.mpr (by decide)
    · cases h
      rfl
    · have hlast := congrArg List.getLast? h
      rw [List.getLast?_concat] at hlast
      cases hlast
      rfl
  · decide +kernel
  · decide +kernel

end MultipathQuic
