import MultipathQuic.Wire.AckBlocks
import MultipathQuic.Wire.AckFrame

/-!
# ACK and CLOSE_PATH frames survive the wire

A frame that `Write` accepts is parsed back with the same path and largest acknowledged packet, and
with a prefix of its ranges: 255 ACK blocks are the most a frame carries, and the ranges that do
not fit are left out. No packet is acknowledged that the original frame does not acknowledge.

## Main definitions

* `AckedPackets.Truncation`: what a receiver learns

## Main results

* `ackFrames_roundTrip`: a frame survives up to truncation
-/

namespace MultipathQuic

open ByteCodec AckedPackets

namespace AckedPackets

/-- The ranges are separated and the packet numbers fit 48 bits. -/
structure Ordered (f : AckedPackets) : Prop where
  separated : Separated f.ackRanges
  largestAcked_lt : f.largestAcked < 2 ^ 48

/-- What both parsers insist on: at least two ranges, or none and a nonempty interval of packet
numbers from 1 on. -/
structure Encodable (f : AckedPackets) : Prop where
  interval : f.ackRanges = [] → 1 ≤ f.lowestAcked ∧ f.lowestAcked ≤ f.largestAcked
  not_single : f.ackRanges.length ≠ 1

/-- The receiver's view `f'` of a frame `f`. -/
structure Truncation (f f' : AckedPackets) : Prop where
  largestAcked_eq : f'.largestAcked = f.largestAcked
  lowestAcked_eq : f.ackRanges = [] → f'.ackRanges = [] ∧ f'.lowestAcked = f.lowestAcked
  ranges_take : f.ackRanges ≠ [] →
    ∃ k, 2 ≤ k ∧ k ≤ f.ackRanges.length ∧ f'.ackRanges = f.ackRanges.take k
  ranges_eq : f.stopsEarly = false → f'.ackRanges = f.ackRanges
  acksPacket_of : ∀ p, f'.acksPacket p = true → f.acksPacket p = true

/-! ## Counting blocks -/

theorem numWritableNackRanges_of_cons {f : AckedPackets} {r : AckRange} {rs : List AckRange}
    (hf : f.ackRanges = r :: rs) :
    f.numWritableNackRanges = (nackRangesLoop 0 r rs).1 + 1 := by
  rw [numWritableNackRanges, hf]

theorem stopsEarly_of_cons {f : AckedPackets} {r : AckRange} {rs : List AckRange}
    (hf : f.ackRanges = r :: rs) : f.stopsEarly = (nackRangesLoop 0 r rs).2 := by
  rw [stopsEarly, hf]

theorem nackRangesLoop_lt {n : ℕ} (hn : n < 0xFF) (prev : AckRange) (rs : List AckRange) :
    (nackRangesLoop n prev rs).1 < 0xFF := by
  induction rs generalizing n prev with
  | nil => exact hn
  | cons r rs ih =>
    rw [nackRangesLoop]
    split
    · next h => exact ih h r
    · exact hn

/-- The number of blocks fits its byte. -/
theorem numWritableNackRanges_le (f : AckedPackets) : f.numWritableNackRanges ≤ 0xFF := by
  cases hf : f.ackRanges with
  | nil => simp [numWritableNackRanges, hf]
  | cons r rs =>
    rw [numWritableNackRanges_of_cons hf]
    exact nackRangesLoop_lt (by decide) r rs

theorem nackRangesLoop_eq {n : ℕ} {prev : AckRange} {rs : List AckRange}
    (h : (nackRangesLoop n prev rs).2 = false) :
    (nackRangesLoop n prev rs).1 = n + (blocksOf prev rs).length := by
  induction rs generalizing n prev with
  | nil => rfl
  | cons r rs ih =>
    rw [nackRangesLoop] at h ⊢
    split at h
    · next hlt =>
      rw [if_pos hlt, ih h, blocksOf, List.length_append, length_rangeBlocks, Nat.add_assoc]
    · cases h

/-- Every range takes at least one block. -/
theorem length_blocksOf_take {prev : AckRange} {rs : List AckRange}
    (hsep : Separated (prev :: rs)) (hlast : prev.last < 2 ^ 48) (j : ℕ) :
    (blocksOf prev (rs.take j)).length + (rs.length - j) ≤ (blocksOf prev rs).length := by
  induction rs generalizing prev j with
  | nil => simp [blocksOf]
  | cons r rs ih =>
    have hle := hsep.first_le_last _ List.mem_cons_self
    have hapart := hsep.last_add_one_lt
    have hgap := AckRange.gap_eq hapart (by omega)
    have hnum := numBlocks_pos (show 1 ≤ prev.gap r by omega)
    cases j with
    | zero =>
      have := ih hsep.tail (hsep.last_lt hlast) 0
      simp only [List.take_zero, blocksOf, List.length_nil, List.length_append,
        length_rangeBlocks, List.length_cons] at this ⊢
      omega
    | succ j =>
      have := ih hsep.tail (hsep.last_lt hlast) j
      simp only [List.take_succ_cons, blocksOf, List.length_append, List.length_cons] at this ⊢
      omega

/-! ## Block lengths -/

theorem foldl_max_ge (rs : List AckRange) (m : ℕ) :
    m ≤ rs.foldl (fun m r => if r.len > m then r.len else m) m := by
  induction rs generalizing m with
  | nil => exact le_rfl
  | cons r rs ih =>
    rw [List.foldl_cons]
    refine le_trans ?_ (ih _)
    split <;> omega

theorem len_le_foldl_max {rs : List AckRange} (m : ℕ) {r : AckRange} (hr : r ∈ rs) :
    r.len ≤ rs.foldl (fun m r => if r.len > m then r.len else m) m := by
  induction rs generalizing m with
  | nil => cases hr
  | cons x rs ih =>
    rw [List.foldl_cons]
    rcases List.mem_cons.mp hr with rfl | hr
    · refine le_trans ?_ (foldl_max_ge rs _)
      split <;> omega
    · exact ih _ hr

theorem foldl_max_lt {rs : List AckRange} {m n : ℕ} (hm : m < n) (h : ∀ r ∈ rs, r.len < n) :
    rs.foldl (fun m r => if r.len > m then r.len else m) m < n := by
  induction rs generalizing m with
  | nil => exact hm
  | cons r rs ih =>
    rw [List.foldl_cons]
    refine ih ?_ fun x hx => h x (List.mem_cons_of_mem _ hx)
    have := h r List.mem_cons_self
    split <;> omega

/-- The chosen length holds every number up to the longest range. -/
theorem lt_pow_deltaLen {f : AckedPackets} (h : f.maxRangeLength < 2 ^ 48) {v : ℕ}
    (hv : v ≤ f.maxRangeLength) : v < 256 ^ f.getMissingSequenceNumberDeltaLen.bytes := by
  unfold getMissingSequenceNumberDeltaLen
  split
  · simp only [PacketNumberLen.bytes]; omega
  · split
    · simp only [PacketNumberLen.bytes]; omega
    · split
      · simp only [PacketNumberLen.bytes]; omega
      · simp only [PacketNumberLen.bytes]; omega

/-! ## Ordered ranges -/

theorem len_lt_of_separated {r x : AckRange} {rs : List AckRange} (h : Separated (r :: rs))
    (hlast : r.last < 2 ^ 48) (hx : x ∈ r :: rs) : x.len < 2 ^ 48 := by
  have hpos := h.first_pos x hx
  have hle := h.first_le_last x hx
  have hmax := h.last_le hx
  rw [AckRange.len_eq hle hpos (by omega)]
  omega

theorem len_lt_pow_deltaLen {f : AckedPackets} {r x : AckRange} {rs : List AckRange}
    (hf : f.ackRanges = r :: rs) (h : Separated (r :: rs)) (hlast : r.last < 2 ^ 48)
    (hx : x ∈ r :: rs) : x.len < 256 ^ f.getMissingSequenceNumberDeltaLen.bytes := by
  have hmax : f.maxRangeLength =
      (r :: rs).foldl (fun m r => if r.len > m then r.len else m) 0 := by
    rw [maxRangeLength, hasMissingRanges, hf]
    rfl
  apply lt_pow_deltaLen
  · rw [hmax]
    exact foldl_max_lt (by decide) fun y hy => len_lt_of_separated h hlast hy
  · rw [hmax]
    exact len_le_foldl_max 0 hx

theorem neighboursConsistent_of_separated {r : AckRange} {rs : List AckRange}
    (h : Separated (r :: rs)) (hlast : r.last < 2 ^ 48) :
    neighboursConsistent (r :: rs) = true := by
  induction rs generalizing r with
  | nil => rfl
  | cons x rs ih =>
    have hapart := h.last_add_one_lt
    have hx := h.first_le_last x (by simp)
    have hr := h.first_le_last r List.mem_cons_self
    rw [neighboursConsistent, if_neg (by omega), add64_of_lt (by omega), if_neg (by omega)]
    exact ih h.tail (h.last_lt hlast)

/-- Two or more separated ranges below the largest acknowledged packet are valid. -/
theorem validateAckRanges_of_separated {f : AckedPackets} {r : AckRange} {rs : List AckRange}
    (hf : f.ackRanges = r :: rs) (hne : rs ≠ []) (h : Separated (r :: rs))
    (hr : r.last = f.largestAcked) (hlast : f.largestAcked < 2 ^ 48) :
    f.validateAckRanges = true := by
  obtain ⟨x, rs, rfl⟩ := List.exists_cons_of_ne_nil hne
  have hany : ((r :: x :: rs).any fun ackRange => ackRange.first > ackRange.last) = false := by
    rw [List.any_eq_false]
    intro y hy
    simpa using h.first_le_last y hy
  simp only [validateAckRanges, hf]
  rw [if_neg (not_not_intro hr), hany, if_neg (by decide)]
  exact neighboursConsistent_of_separated h (by omega)

/-- A frame with ranges acknowledges only packets of its ranges. -/
theorem exists_range_of_acksPacket {f : AckedPackets} (hne : f.ackRanges ≠ []) {p : ℕ}
    (hp : f.acksPacket p = true) : ∃ r ∈ f.ackRanges, r.first ≤ p ∧ p ≤ r.last := by
  have hmissing : f.hasMissingRanges = true := by
    simpa [hasMissingRanges, List.length_pos_iff] using hne
  unfold acksPacket at hp
  split at hp
  · cases hp
  · simpa using hp

/-- A frame acknowledges the packets of its ranges. -/
theorem acksPacket_of_mem {f : AckedPackets} {r x : AckRange} {rs : List AckRange}
    (hf : f.ackRanges = r :: rs) (h : Separated (r :: rs)) (hr : f.largestAcked = r.last)
    (hlow : f.lowestAcked = ((r :: rs).getLast (by simp)).first) (hx : x ∈ r :: rs) {p : ℕ}
    (hp : x.first ≤ p ∧ p ≤ x.last) : f.acksPacket p = true := by
  have hge := h.getLast_first_le hx
  have hle := h.last_le hx
  have hmissing : f.hasMissingRanges = true := by simp [hasMissingRanges, hf]
  unfold acksPacket
  rw [if_neg (by omega), if_pos hmissing, hf]
  exact List.any_eq_true.mpr ⟨x, hx, by simpa using hp⟩

end AckedPackets

/-! ## The shared section -/

/-- Numbers that fit a packet number length are written with that many bytes. -/
theorem putPacketNumber_eq {fit : ℕ → ℕ} (hfit : ∀ v < 2 ^ 48, fit v = v) (bo : ByteOrder)
    {len : PacketNumberLen} {v : ℕ} (hv : v < 256 ^ len.bytes) :
    putPacketNumber bo fit len v = .ok (bo.encode len.bytes v) := by
  cases len with
  | invalid => cases bo <;> rfl
  | len1 => rw [putPacketNumber, PacketNumberLen.bytes, bo.encode_one]
  | len2 =>
    simp only [PacketNumberLen.bytes] at hv ⊢
    rw [putPacketNumber, Nat.mod_eq_of_lt (by omega), bo.writeUint16_eq]
  | len4 =>
    simp only [PacketNumberLen.bytes] at hv ⊢
    rw [putPacketNumber, Nat.mod_eq_of_lt (by omega), bo.writeUint32_eq]
  | len6 =>
    simp only [PacketNumberLen.bytes] at hv ⊢
    rw [putPacketNumber, hfit v (by omega), bo.writeUint48_eq (by omega)]

theorem mask48_eq (v : ℕ) (hv : v < 2 ^ 48) : mask48 v = v := by
  rw [mask48, Nat.shiftLeft_eq, one_mul, Nat.and_two_pow_sub_one_eq_mod, Nat.mod_eq_of_lt hv]

/-- The section of a frame without ranges is parsed back. -/
theorem run_parseAckSection_interval (bo : ByteOrder) {w largest lowest : ℕ} (hpos : 1 ≤ lowest)
    (hle : lowest ≤ largest) (hlt : largest < 2 ^ 48) (hw : largest - lowest + 1 < 256 ^ w)
    (n : ℕ) (rest : List UInt8) :
    (parseAckSection bo w false n largest).run (bo.encode w (largest - lowest + 1) ++ rest) =
      .ok ({ largestAcked := largest, lowestAcked := lowest, ackRanges := [] }, rest) := by
  have hlow : sub64 (add64 largest 1) (largest - lowest + 1) = lowest := by
    rw [add64_of_lt (by omega), sub64_of_le (by omega) (by omega)]
    omega
  rw [parseAckSection, run_bind_ok (bo.run_readUintN_encode w _ rest), Nat.mod_eq_of_lt hw,
    if_neg (by omega), if_neg (by omega)]
  simp only [Bool.false_eq_true, if_false, pure_bind, hlow, if_neg (show largest ≠ 0 by omega)]
  rfl

/-- The section of a frame with two or more ranges is parsed back. -/
theorem run_parseAckSection_ranges (bo : ByteOrder) {w : ℕ} {r : AckRange} {rs : List AckRange}
    (hne : rs ≠ []) (hsep : Separated (r :: rs)) (hlast : r.last < 2 ^ 48)
    (hw : ∀ y ∈ r :: rs, y.len < 256 ^ w) (rest : List UInt8) :
    (parseAckSection bo w true (blocksOf r rs).length r.last).run
        (bo.encode w r.len ++ (blockBytes bo w (blocksOf r rs) ++ rest)) =
      .ok ({ largestAcked := r.last, lowestAcked := ((r :: rs).getLast (by simp)).first,
             ackRanges := r :: rs }, rest) := by
  have hpos := hsep.first_pos r List.mem_cons_self
  have hle := hsep.first_le_last r List.mem_cons_self
  have hlen := AckRange.len_eq hle hpos hlast
  have hfirst : add64 (sub64 r.last r.len) 1 = r.first := by
    rw [sub64_of_le (by omega) (by omega), add64_of_lt (by omega)]
    omega
  have hcur : (⟨add64 (sub64 r.last r.len) 1, r.last⟩ : AckRange) = r := by rw [hfirst]
  have hbounds : ∀ b ∈ blocksOf r rs, b.1 < 256 ∧ b.2 < 256 ^ w := fun b hb =>
    mem_blocksOf_bounds hsep hlast (fun y hy => hw y (List.mem_cons_of_mem _ hy)) hb
  have hranges : (BlockState.blocks ⟨[], r, false, false⟩ (blocksOf r rs)).ranges =
      r :: rs :=
    ranges_blocks_blocksOf rfl (fun h => absurd h hne) hsep hlast
  have hvalid : validateAckRanges
      { largestAcked := r.last, lowestAcked := ((r :: rs).getLast (by simp)).first,
        ackRanges := r :: rs } = true :=
    validateAckRanges_of_separated rfl hne hsep rfl hlast
  rw [parseAckSection, run_bind_ok (bo.run_readUintN_encode w _ _),
    Nat.mod_eq_of_lt (hw r List.mem_cons_self), if_neg (by omega), if_neg (by omega), hcur]
  simp only [if_true]
  rw [run_bind_ok (run_parseBlocks bo hbounds _ rest)]
  rw [hranges, List.getLast?_eq_some_getLast (List.cons_ne_nil _ _)]
  simp only [pure_bind, hvalid, if_true]
  rfl

section Section

variable {f : AckedPackets} {put : ℕ → Except WireError (List UInt8)} {bo : ByteOrder}

/-- Frames with ranges: what `Write` has checked and written once it succeeds. -/
theorem writeAckBlocks_ranges (ho : f.Ordered)
    (hput : ∀ v < 256 ^ f.getMissingSequenceNumberDeltaLen.bytes,
      put v = .ok (bo.encode f.getMissingSequenceNumberDeltaLen.bytes v))
    {r : AckRange} {rs : List AckRange} (hf : f.ackRanges = r :: rs) {bug : WireError}
    {bs : List UInt8} (h : f.writeAckBlocks put bug = .ok bs) :
    f.largestAcked = r.last ∧ f.lowestAcked = ((r :: rs).getLast (by simp)).first ∧
      (∀ x ∈ r :: rs, x.len < 256 ^ f.getMissingSequenceNumberDeltaLen.bytes) ∧
      ∃ j ≤ rs.length, (rs ≠ [] → 1 ≤ j) ∧
        f.numWritableNackRanges = 1 + (blocksOf r (rs.take j)).length ∧
        bs = bo.encode f.getMissingSequenceNumberDeltaLen.bytes r.len ++
          blockBytes bo f.getMissingSequenceNumberDeltaLen.bytes (blocksOf r (rs.take j)) := by
  have hsep : Separated (r :: rs) := hf ▸ ho.separated
  obtain ⟨largest, lowest, ranges⟩ := f
  subst hf
  simp only [writeAckBlocks] at h
  split at h
  · cases h
  next hlargest =>
  split at h
  · cases h
  next hlowest =>
  have hlargest := not_not.mp hlargest
  have hlast : r.last < 2 ^ 48 := hlargest ▸ ho.largestAcked_lt
  have hlens : ∀ x ∈ r :: rs, x.len < 256 ^
      (getMissingSequenceNumberDeltaLen ⟨largest, lowest, r :: rs⟩).bytes := fun x hx =>
    len_lt_pow_deltaLen rfl hsep hlast hx
  have hfirst : add64 (sub64 largest r.first) 1 = r.len := by rw [hlargest, AckRange.len]
  refine ⟨hlargest, not_not.mp hlowest, hlens, ?_⟩
  obtain ⟨j, hj, hj1, hrun⟩ := writeRanges_ok hput
    (fun b hb => (mem_blocksOf_bounds hsep hlast
      (fun x hx => hlens x (List.mem_cons_of_mem _ hx)) hb).2)
    (numWritableNackRanges ⟨largest, lowest, r :: rs⟩) 1
  rw [hfirst, hput _ (hlens r List.mem_cons_self), hrun] at h
  simp only [bind, Except.bind] at h
  split at h
  · cases h
  next hnum => exact ⟨j, hj, hj1, not_not.mp hnum, (Except.ok.inj h).symm⟩

/-- A frame cut down to its first `j + 1` ranges, all of them if the count did not stop early. -/
theorem truncation_take (ho : f.Ordered) {r : AckRange} {rs : List AckRange}
    (hf : f.ackRanges = r :: rs) (hr : f.largestAcked = r.last)
    (hlow : f.lowestAcked = ((r :: rs).getLast (by simp)).first) {j : ℕ} (hj1 : 1 ≤ j)
    (hj : j ≤ rs.length)
    (hnum : f.numWritableNackRanges = 1 + (blocksOf r (rs.take j)).length) (lowest : ℕ) :
    f.Truncation ⟨f.largestAcked, lowest, r :: rs.take j⟩ where
  largestAcked_eq := rfl
  lowestAcked_eq h := by simp [hf] at h
  ranges_take _ := ⟨j + 1, by omega, by simpa [hf] using hj, by simp [hf]⟩
  ranges_eq h := by
    have hsep : Separated (r :: rs) := hf ▸ ho.separated
    rw [stopsEarly_of_cons hf] at h
    rw [numWritableNackRanges_of_cons hf, nackRangesLoop_eq h] at hnum
    have hall := length_blocksOf_take hsep (hr ▸ ho.largestAcked_lt) j
    have hjl : rs.length ≤ j := by omega
    rw [hf, List.take_of_length_le hjl]
  acksPacket_of p hp := by
    have hsep : Separated (r :: rs) := hf ▸ ho.separated
    obtain ⟨y, hy, hyp⟩ := exists_range_of_acksPacket (List.cons_ne_nil _ _) hp
    have hmem : y ∈ (r :: rs).take (j + 1) := by simpa using hy
    exact acksPacket_of_mem hf hsep hr hlow (List.mem_of_mem_take hmem) hyp

theorem truncation_refl_of_nil (hf : f.ackRanges = []) : f.Truncation f where
  largestAcked_eq := rfl
  lowestAcked_eq _ := ⟨hf, rfl⟩
  ranges_take h := absurd hf h
  ranges_eq _ := rfl
  acksPacket_of _ hp := hp

/-- **The shared section survives the wire.** Once `Write` has written the number of ACK blocks and
the blocks, the parser reads the number `n` and a truncation of the frame. -/
theorem run_parseAckSection (ho : f.Ordered) (he : f.Encodable)
    (hput : ∀ v < 256 ^ f.getMissingSequenceNumberDeltaLen.bytes,
      put v = .ok (bo.encode f.getMissingSequenceNumberDeltaLen.bytes v))
    {tooMany bug : WireError} {numAckBlocks bs : List UInt8}
    (hn : f.writeNumAckBlocks tooMany = .ok numAckBlocks)
    (hbs : f.writeAckBlocks put bug = .ok bs) (rest : List UInt8) :
    ∃ (n : UInt8) (f' : AckedPackets),
      numAckBlocks = (if f.hasMissingRanges then [n] else []) ∧
      (f.hasMissingRanges = true → n ≠ 0) ∧ (f.hasMissingRanges = false → n = 0) ∧
      (parseAckSection bo f.getMissingSequenceNumberDeltaLen.bytes f.hasMissingRanges n.toNat
        f.largestAcked).run (bs ++ rest) = .ok (f', rest) ∧ f.Truncation f' := by
  match hf : f.ackRanges with
  | [] =>
    have hmissing : f.hasMissingRanges = false := by simp [hasMissingRanges, hf]
    obtain ⟨hpos, hle⟩ := he.interval hf
    have hlt := ho.largestAcked_lt
    have hlen : add64 (sub64 f.largestAcked f.lowestAcked) 1 =
        f.largestAcked - f.lowestAcked + 1 := by
      rw [sub64_of_le hle (by omega), add64_of_lt (by omega)]
    have hmax : f.maxRangeLength = f.largestAcked - f.lowestAcked + 1 := by
      rw [maxRangeLength, if_neg (by simp [hmissing]), hlen]
    have hw := lt_pow_deltaLen (by omega) hmax.ge
    simp only [writeAckBlocks, hf, hlen, hput _ hw, Except.ok.injEq] at hbs
    simp only [writeNumAckBlocks, hmissing, Bool.false_eq_true, if_false, Except.ok.injEq] at hn
    refine ⟨0, f, ?_, by simp [hmissing], fun _ => rfl, ?_, truncation_refl_of_nil hf⟩
    · rw [← hn, if_neg (by simp [hmissing])]
    · rw [hmissing, ← hbs, run_parseAckSection_interval bo hpos hle hlt hw, ← hf]
  | r :: rs =>
    have hne : rs ≠ [] := by
      rintro rfl
      exact he.not_single (by rw [hf, List.length_singleton])
    have hmissing : f.hasMissingRanges = true := by simp [hasMissingRanges, hf]
    obtain ⟨hr, hlow, hw, j, hj, hj1, hnum, hbytes⟩ := writeAckBlocks_ranges ho hput hf hbs
    have hj1 := hj1 hne
    have hsep : Separated (r :: rs) := hf ▸ ho.separated
    have hsep' : Separated (r :: rs.take j) := by simpa using hsep.take (j + 1)
    have hlast : r.last < 2 ^ 48 := hr ▸ ho.largestAcked_lt
    have htake : (rs.take j).length = j := List.length_take_of_le hj
    have hne' : rs.take j ≠ [] := List.ne_nil_of_length_pos (by omega)
    have hle : f.numWritableNackRanges ≤ 0xFF := by
      have hcount := nackRangesLoop_lt (show 0 < 0xFF by decide) r rs
      rw [numWritableNackRanges_of_cons hf]
      omega
    have hpos : 1 ≤ (blocksOf r (rs.take j)).length := by
      have := length_blocksOf_take hsep' hlast 0
      omega
    have hbyte : (UInt8.ofNat (f.numWritableNackRanges - 1)).toNat =
        (blocksOf r (rs.take j)).length := by
      rw [UInt8.toNat_ofNat', hnum]
      omega
    rw [writeNumAckBlocks, if_pos hmissing, if_neg (by omega), Except.ok.injEq] at hn
    refine ⟨.ofNat (f.numWritableNackRanges - 1),
      ⟨f.largestAcked, ((r :: rs.take j).getLast (by simp)).first, r :: rs.take j⟩,
      ?_, fun _ h0 => ?_, by simp [hmissing], ?_,
      truncation_take ho hf hr hlow hj1 hj hnum _⟩
    · rw [← hn, if_pos hmissing]
    · rw [h0, UInt8.toNat_zero] at hbyte
      omega
    · rw [hmissing, hbyte, hbytes, List.append_assoc, hr]
      refine run_parseAckSection_ranges bo hne' hsep' hlast (fun y hy => hw y ?_) rest
      have hy' : y ∈ (r :: rs).take (j + 1) := by simpa using hy
      exact List.mem_of_mem_take hy'

end Section

/-! ## Type bytes and flags -/

theorem run_readByteIf {present : Bool} {b : UInt8} (h : present = false → b = 0)
    (rest : List UInt8) :
    (readByteIf present).run ((if present then [b] else []) ++ rest) = .ok (b, rest) := by
  cases present with
  | false => rw [h rfl]; rfl
  | true => rfl

/-- The path of an ACK frame is only written when it is not the initial one. -/
theorem run_readPathID (pathID : PathID) (rest : List UInt8) :
    (readByteIf (decide (pathID ≠ initialPathID))).run
      ((if pathID ≠ initialPathID then [pathID] else []) ++ rest) = .ok (pathID, rest) := by
  by_cases h : pathID = initialPathID
  · rw [h]
    rfl
  · rw [if_pos h, decide_eq_true h]
    rfl

theorem getPacketNumberLength_ne (v : ℕ) : getPacketNumberLength v ≠ .invalid := by
  unfold getPacketNumberLength
  split_ifs <;> decide

theorem deltaLen_ne (f : AckedPackets) : f.getMissingSequenceNumberDeltaLen ≠ .invalid := by
  unfold getMissingSequenceNumberDeltaLen
  split_ifs <;> decide

theorem lt_pow_getPacketNumberLength {v : ℕ} (hv : v < 2 ^ 48) :
    v < 256 ^ (getPacketNumberLength v).bytes := by
  unfold getPacketNumberLength
  split_ifs <;> simp only [PacketNumberLen.bytes] <;> omega

/-- The parser reads off an ACK type byte what the writer put there. -/
theorem ackTypeByte_fields {l d : PacketNumberLen} (hl : l ≠ .invalid) (hd : d ≠ .invalid)
    (missing path : Bool) :
    decide (ackTypeByte l d missing path &&& 0x20 = 0x20) = missing ∧
      decide (ackTypeByte l d missing path &&& 0x10 = 0x10) = path ∧
      fieldLen ((ackTypeByte l d missing path &&& 0x0C) >>> 2) = l.bytes ∧
      fieldLen (ackTypeByte l d missing path &&& 0x03) = d.bytes := by
  cases l <;> cases d <;> cases missing <;> cases path <;>
    first | exact absurd rfl hl | exact absurd rfl hd | decide

/-- The parser reads off CLOSE_PATH flags what the writer put there. -/
theorem closePathFlags_fields {l d : PacketNumberLen} (hl : l ≠ .invalid) (hd : d ≠ .invalid)
    (missing : Bool) :
    decide (closePathFlags l d missing &&& 0x10 = 0x10) = missing ∧
      fieldLen ((closePathFlags l d missing &&& 0x0C) >>> 2) = l.bytes ∧
      fieldLen (closePathFlags l d missing &&& 0x03) = d.bytes := by
  cases l <;> cases d <;> cases missing <;>
    first | exact absurd rfl hl | exact absurd rfl hd | decide

/-! ## Both frames -/

/-- An ACK frame that `Write` accepts is parsed back up to truncation. -/
theorem AckFrame.run_parseAckFrame {f : AckFrame} (ho : f.Ordered) (he : f.Encodable)
    {version : VersionNumber} {delay : ℕ} {bytes : List UInt8}
    (h : f.write version delay = .ok bytes) (rest : List UInt8) :
    ∃ f' : AckFrame, (parseAckFrame version).run (bytes ++ rest) = .ok (f', rest) ∧
      f'.pathID = f.pathID ∧ f.Truncation f'.toAckedPackets := by
  have hlt := lt_pow_getPacketNumberLength ho.largestAcked_lt
  obtain ⟨largest, hlargest, h⟩ := exists_of_bind_eq_ok h
  obtain ⟨num, hnum, h⟩ := exists_of_bind_eq_ok h
  obtain ⟨blocks, hblocks, h⟩ := exists_of_bind_eq_ok h
  rw [putPacketNumber_eq mask48_eq _ hlt, Except.ok.injEq] at hlargest
  obtain ⟨n, f', rfl, hne, hzero, hrun, htrunc⟩ := run_parseAckSection ho he
    (fun v hv => putPacketNumber_eq mask48_eq (getByteOrder version) hv) hnum hblocks (0 :: rest)
  obtain ⟨hmissing, hpath, hl, hd⟩ := ackTypeByte_fields (getPacketNumberLength_ne f.largestAcked)
    (deltaLen_ne f.toAckedPackets) f.hasMissingRanges (f.pathID ≠ initialPathID)
  obtain ⟨delay', hdelay⟩ := (getByteOrder version).run_readUfloat16 delay
    ((if f.hasMissingRanges then [n] else []) ++ (blocks ++ 0 :: rest))
  refine ⟨⟨f', f.pathID, delay' * 1000⟩, ?_, rfl, htrunc⟩
  rw [← Except.ok.inj h, List.cons_append, parseAckFrame]
  simp only [List.append_assoc, List.singleton_append]
  rw [run_bind_ok (run_readByte_cons _ _ _), hmissing, hpath, hl, hd,
    run_bind_ok (run_readPathID f.pathID _), ← hlargest, run_bind_ok ((getByteOrder version).run_readUintN_encode _ _ _),
    Nat.mod_eq_of_lt hlt, run_bind_ok hdelay, run_bind_ok (run_readByteIf hzero _),
    if_neg (fun hc => hne hc.1 hc.2), run_bind_ok hrun,
    run_bind_ok (run_readByte_cons _ _ _), if_neg (by decide)]
  rfl

/-- A CLOSE_PATH frame that `Write` accepts is parsed back up to truncation. -/
theorem ClosePathFrame.run_parseClosePathFrame {f : ClosePathFrame} (ho : f.Ordered)
    (he : f.Encodable) {version : VersionNumber} {bytes : List UInt8}
    (h : f.write version = .ok bytes) (rest : List UInt8) :
    ∃ f' : ClosePathFrame, (parseClosePathFrame version).run (bytes ++ rest) = .ok (f', rest) ∧
      f'.pathID = f.pathID ∧ f.Truncation f'.toAckedPackets := by
  have hlt := lt_pow_getPacketNumberLength ho.largestAcked_lt
  have hfit : ∀ v < 2 ^ 48, id v = v := fun _ _ => rfl
  obtain ⟨num, hnum, h⟩ := exists_of_bind_eq_ok h
  obtain ⟨largest, hlargest, h⟩ := exists_of_bind_eq_ok h
  obtain ⟨blocks, hblocks, h⟩ := exists_of_bind_eq_ok h
  rw [putPacketNumber_eq hfit _ hlt, Except.ok.injEq] at hlargest
  obtain ⟨n, f', rfl, hne, hzero, hrun, htrunc⟩ := run_parseAckSection ho he
    (fun v hv => putPacketNumber_eq hfit (getByteOrder version) hv) hnum hblocks rest
  obtain ⟨hmissing, hl, hd⟩ := closePathFlags_fields (getPacketNumberLength_ne f.largestAcked)
    (deltaLen_ne f.toAckedPackets) f.hasMissingRanges
  refine ⟨⟨f', f.pathID⟩, ?_, rfl, htrunc⟩
  rw [← Except.ok.inj h, parseClosePathFrame]
  simp only [List.cons_append, List.append_assoc]
  rw [run_bind_ok (run_readByte_cons _ _ _), run_bind_ok (run_readByte_cons _ _ _),
    run_bind_ok (run_readByte_cons _ _ _), hmissing, hl, hd,
    run_bind_ok (run_readByteIf hzero _), if_neg (fun hc => hne hc.1 hc.2), ← hlargest,
    run_bind_ok ((getByteOrder version).run_readUintN_encode _ _ _), Nat.mod_eq_of_lt hlt,
    run_bind_ok hrun]
  rfl

/-- **ACK and CLOSE_PATH frames survive the wire up to truncation**, in either byte order and
whatever bytes follow: parsing what `Write` wrote succeeds, consumes exactly those bytes and gives
the same path and a truncation of the acknowledged packets. -/
theorem ackFrames_roundTrip (version : VersionNumber) (rest : List UInt8) :
    (∀ (f : AckFrame) (delay : ℕ) (bytes : List UInt8), f.Ordered → f.Encodable →
      f.write version delay = .ok bytes →
      ∃ f' : AckFrame, (parseAckFrame version).run (bytes ++ rest) = .ok (f', rest) ∧
        f'.pathID = f.pathID ∧ f.Truncation f'.toAckedPackets) ∧
    (∀ (f : ClosePathFrame) (bytes : List UInt8), f.Ordered → f.Encodable →
      f.write version = .ok bytes →
      ∃ f' : ClosePathFrame, (parseClosePathFrame version).run (bytes ++ rest) = .ok (f', rest) ∧
        f'.pathID = f.pathID ∧ f.Truncation f'.toAckedPackets) :=
  ⟨fun _ _ _ ho he h => AckFrame.run_parseAckFrame ho he h rest,
    fun _ _ ho he h => ClosePathFrame.run_parseClosePathFrame ho he h rest⟩

/-- Two ranges with a gap of 300 packets, which takes two blocks. -/
def longGap : AckedPackets := ⟨310, 1, [⟨306, 310⟩, ⟨1, 5⟩]⟩

theorem longGap_roundTrip :
    (∃ f' : AckFrame, (parseAckFrame 39).run
        [0x74, 3, 1, 54, 0, 0, 2, 5, 255, 0, 45, 5, 0] = .ok (f', []) ∧
      f'.pathID = 3 ∧ longGap.Truncation f'.toAckedPackets) ∧
    ∃ f' : ClosePathFrame, (parseClosePathFrame 37).run
        [0x11, 3, 0x14, 2, 54, 1, 5, 255, 0, 45, 5] = .ok (f', []) ∧
      f'.pathID = 3 ∧ longGap.Truncation f'.toAckedPackets := by
  have ho : longGap.Ordered := by
    refine ⟨⟨by decide, by decide, ?_⟩, by decide⟩
    exact List.isChain_pair.mpr (by decide)
  have he : longGap.Encodable := ⟨fun h => absurd h (by decide), by decide⟩
  exact ⟨(ackFrames_roundTrip 39 []).1 ⟨longGap, 3, 0⟩ 0
      [0x74, 3, 1, 54, 0, 0, 2, 5, 255, 0, 45, 5, 0] ho he (by decide +kernel),
    (ackFrames_roundTrip 37 []).2 ⟨longGap, 3⟩
      [0x11, 3, 0x14, 2, 54, 1, 5, 255, 0, 45, 5] ho he (by decide +kernel)⟩

/-- `Write` accepts a frame with a single range, and one that acknowledges packet 0; neither is
parsed. -/
theorem singleRange_not_parsed :
    (AckFrame.write ⟨⟨5, 3, [⟨3, 5⟩]⟩, 0, 0⟩ 39 0 = .ok [0x60, 5, 0, 0, 0, 3, 0] ∧
      (parseAckFrame 39).run [0x60, 5, 0, 0, 0, 3, 0] = .error .errInvalidAckRanges) ∧
    (ClosePathFrame.write ⟨⟨5, 3, [⟨3, 5⟩]⟩, 1⟩ 39 = .ok [0x11, 1, 0x10, 0, 5, 3] ∧
      (parseClosePathFrame 39).run [0x11, 1, 0x10, 0, 5, 3] = .error .errInvalidAckRanges) ∧
    (AckFrame.write ⟨⟨5, 0, []⟩, 0, 0⟩ 39 0 = .ok [0x40, 5, 0, 0, 6, 0] ∧
      (parseAckFrame 39).run [0x40, 5, 0, 0, 6, 0] = .error .errInvalidAckRanges) := by
  refine ⟨⟨?_, ?_⟩, ⟨?_, ?_⟩, ?_, ?_⟩ <;> decide +kernel

end MultipathQuic
