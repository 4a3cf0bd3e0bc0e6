import Mathlib.Data.List.Chain
import MultipathQuic.Wire.AckRanges

/-!
# ACK blocks as a list

The writer of ACK blocks and their parser meet at a list of blocks: the writer emits the blocks of
a prefix of the ranges, and the parser rebuilds from the blocks of some ranges those ranges.
-/

namespace MultipathQuic

open ByteCodec AckedPackets

/-- Ranges that are nonempty, ordered from the highest to the lowest, disjoint and not adjacent. -/
structure Separated (rs : List AckRange) : Prop where
  first_pos : ∀ r ∈ rs, 1 ≤ r.first
  first_le_last : ∀ r ∈ rs, r.first ≤ r.last
  apart : rs.IsChain fun prev r => r.last + 1 < prev.first

/-- The blocks of the ranges after `prev`. -/
def blocksOf : AckRange → List AckRange → List (ℕ × ℕ)
  | _, [] => []
  | prev, r :: rs => rangeBlocks (prev.gap r) r.len ++ blocksOf r rs

/-- The bytes of a list of blocks whose lengths take `w` bytes. -/
def blockBytes (bo : ByteOrder) (w : ℕ) (blocks : List (ℕ × ℕ)) : List UInt8 :=
  blocks.flatMap fun block => UInt8.ofNat block.1 :: bo.encode w block.2

/-! ## Separated ranges -/

theorem Separated.tail {r : AckRange} {rs : List AckRange} (h : Separated (r :: rs)) :
    Separated rs where
  first_pos x hx := h.first_pos x (List.mem_cons_of_mem _ hx)
  first_le_last x hx := h.first_le_last x (List.mem_cons_of_mem _ hx)
  apart := h.apart.tail

theorem Separated.take {rs : List AckRange} (h : Separated rs) (k : ℕ) :
    Separated (rs.take k) where
  first_pos x hx := h.first_pos x (List.mem_of_mem_take hx)
  first_le_last x hx := h.first_le_last x (List.mem_of_mem_take hx)
  apart := h.apart.take k

theorem Separated.last_add_one_lt {prev r : AckRange} {rs : List AckRange}
    (h : Separated (prev :: r :: rs)) : r.last + 1 < prev.first :=
  (List.isChain_cons_cons.mp h.apart).1

theorem Separated.last_lt {prev r : AckRange} {rs : List AckRange} {n : ℕ}
    (h : Separated (prev :: r :: rs)) (hp : prev.last < n) : r.last < n := by
  have h₁ := h.last_add_one_lt
  have h₂ := h.first_le_last prev List.mem_cons_self
  omega

/-- No range reaches above the highest one. -/
theorem Separated.last_le {r x : AckRange} {rs : List AckRange} (h : Separated (r :: rs))
    (hx : x ∈ r :: rs) : x.last ≤ r.last := by
  induction rs generalizing r with
  | nil => rw [List.mem_singleton.mp hx]
  | cons y rs ih =>
    rcases List.mem_cons.mp hx with rfl | hx
    · exact le_rfl
    · have h₁ := ih h.tail hx
      have h₂ := h.last_add_one_lt
      have h₃ := h.first_le_last r List.mem_cons_self
      omega

/-- No range reaches below the lowest one. -/
theorem Separated.getLast_first_le {r x : AckRange} {rs : List AckRange}
    (h : Separated (r :: rs)) (hx : x ∈ r :: rs) :
    ((r :: rs).getLast (by simp)).first ≤ x.first := by
  induction rs generalizing r x with
  | nil => rw [List.mem_singleton.mp hx, List.getLast_singleton]
  | cons y rs ih =>
    rw [List.getLast_cons (by simp)]
    rcases List.mem_cons.mp hx with rfl | hx
    · have h₁ := ih h.tail List.mem_cons_self
      have h₂ := h.last_add_one_lt
      have h₃ := h.first_le_last y (by simp)
      omega
    · exact ih h.tail hx

theorem AckRange.len_eq {r : AckRange} (h : r.first ≤ r.last) (hpos : 1 ≤ r.first)
    (hlast : r.last < 2 ^ 48) : r.len = r.last - r.first + 1 := by
  rw [AckRange.len, sub64_of_le h (by omega), add64_of_lt (by omega)]

theorem AckRange.gap_eq {prev r : AckRange} (h : r.last + 1 < prev.first)
    (hprev : prev.first < 2 ^ 64) : prev.gap r = prev.first - r.last - 1 := by
  rw [AckRange.gap, sub64_of_le (by omega) hprev, sub64_of_le (by omega) (by omega)]

/-! ## The blocks of one range -/

theorem length_rangeBlocks (gap length : ℕ) :
    (rangeBlocks gap length).length = numBlocks gap := by
  unfold rangeBlocks
  by_cases h : numBlocks gap = 1
  · simp [h]
  · simp [h]

theorem numBlocks_pos {gap : ℕ} (h : 1 ≤ gap) : 1 ≤ numBlocks gap := by
  unfold numBlocks
  dsimp only
  split <;> omega

/-- A gap is written as full blocks of length zero and a last block for the rest of the gap. -/
theorem rangeBlocks_eq {gap : ℕ} (hpos : 1 ≤ gap) (hgap : gap < 2 ^ 64) (length : ℕ) :
    rangeBlocks gap length =
      List.replicate (numBlocks gap - 1) (0xFF, 0) ++
        [(gap - 255 * (numBlocks gap - 1), length)] := by
  have hnum : 255 * (numBlocks gap - 1) + (1 + (gap - 1) % 255) = gap := by
    unfold numBlocks
    dsimp only
    split <;> omega
  have hn := numBlocks_pos hpos
  unfold rangeBlocks
  dsimp only
  split
  · next h => simp [h]
  · obtain ⟨n, hn'⟩ : ∃ n, numBlocks gap = n + 1 := ⟨numBlocks gap - 1, by omega⟩
    rw [hn', Nat.add_sub_cancel] at hnum ⊢
    have hrest : gap - 255 * n = 1 + (gap - 1) % 255 := by omega
    rw [List.range_succ, List.map_append, List.map_singleton, if_pos rfl,
      sub64_of_le hpos hgap, hrest]
    congr 1
    rw [List.eq_replicate_iff]
    refine ⟨by simp, fun b hb => ?_⟩
    obtain ⟨i, hi, rfl⟩ := List.mem_map.mp hb
    rw [if_neg (List.mem_range.mp hi).ne]

/-- The gap of the last block fits a byte. -/
theorem lastGap_bounds {gap : ℕ} (hpos : 1 ≤ gap) :
    255 * (numBlocks gap - 1) < gap ∧ gap - 255 * (numBlocks gap - 1) ≤ 255 := by
  unfold numBlocks
  dsimp only
  split <;> omega

/-! ## Reading blocks back -/

/-- The state after a list of blocks. -/
def BlockState.blocks (st : BlockState) (blocks : List (ℕ × ℕ)) : BlockState :=
  blocks.foldl (fun st block => st.block block.1 block.2) st

theorem BlockState.blocks_append (st : BlockState) (as bs : List (ℕ × ℕ)) :
    st.blocks (as ++ bs) = (st.blocks as).blocks bs :=
  List.foldl_append

/-- Full blocks of length zero move an empty range down by 255 packets each. -/
theorem BlockState.blocks_replicate {st : BlockState} (hlong : st.inLongBlock = false) {k : ℕ}
    (hfirst : st.current.first < 2 ^ 64) (hk : 255 * (k + 1) < st.current.first) :
    st.blocks (List.replicate (k + 1) (0xFF, 0)) =
      { finished := st.current :: st.finished
        current :=
          { first := st.current.first - 255 * (k + 1)
            last := st.current.first - 255 * (k + 1) - 1 }
        inLongBlock := true
        lastRangeComplete := false } := by
  induction k with
  | zero =>
    have hlast : sub64 (sub64 st.current.first 255) 1 = st.current.first - 255 - 1 := by
      rw [sub64_of_le (by omega) hfirst, sub64_of_le (by omega) (by omega)]
    have hempty : add64 (sub64 (st.current.first - 255 - 1) 0) 1 = st.current.first - 255 := by
      rw [sub64_of_le (by omega) (by omega), add64_of_lt (by omega)]
      omega
    simp [blocks, block, hlong, hlast, hempty]
  | succ k ih =>
    rw [List.replicate_succ', blocks_append, ih (by omega)]
    have h₁ : sub64 (st.current.first - 255 * (k + 1)) (add64 255 0) =
        st.current.first - 255 * (k + 1 + 1) := by
      rw [add64_of_lt (by omega), sub64_of_le (by omega) (by omega)]
      omega
    have h₂ : sub64 (st.current.first - 255 * (k + 1) - 1) 255 =
        st.current.first - 255 * (k + 1 + 1) - 1 := by
      rw [sub64_of_le (by omega) (by omega)]
      omega
    simp [blocks, block, h₁, h₂]

/-- The blocks of a range are read back as that range. -/
theorem BlockState.blocks_rangeBlocks {st : BlockState} (hlong : st.inLongBlock = false)
    {r : AckRange} (hpos : 1 ≤ r.first) (hr : r.first ≤ r.last)
    (hapart : r.last + 1 < st.current.first) (hfirst : st.current.first < 2 ^ 48) :
    st.blocks (rangeBlocks (st.current.gap r) r.len) =
      { finished := st.current :: st.finished, current := r, inLongBlock := false
        lastRangeComplete := true } := by
  have hgap := AckRange.gap_eq hapart (by omega)
  have hlen := AckRange.len_eq hr hpos (by omega)
  have hgpos : 1 ≤ st.current.gap r := by omega
  obtain ⟨hlt, hle⟩ := lastGap_bounds hgpos
  rw [rangeBlocks_eq hgpos (by omega), blocks_append]
  generalize hk : numBlocks (st.current.gap r) - 1 = k at hlt hle ⊢
  have hnz : r.len ≠ 0 := by omega
  cases k with
  | zero =>
    have hlow : sub64 st.current.first (st.current.gap r) = r.last + 1 := by
      rw [sub64_of_le (by omega) (by omega)]
      omega
    have hlast : sub64 (sub64 st.current.first (st.current.gap r)) 1 = r.last := by
      rw [hlow, sub64_of_le (by omega) (by omega)]
      omega
    have hfst : add64 (sub64 r.last r.len) 1 = r.first := by
      rw [sub64_of_le (by omega) (by omega), add64_of_lt (by omega)]
      omega
    simp [blocks, block, hlong, hlast, hfst, hnz, Nat.pos_of_ne_zero hnz]
  | succ k =>
    rw [blocks_replicate hlong (by omega) (by omega)]
    have hlast : sub64 (st.current.first - 255 * (k + 1) - 1)
        (st.current.gap r - 255 * (k + 1)) = r.last := by
      rw [sub64_of_le (by omega) (by omega)]
      omega
    have hfst : sub64 (st.current.first - 255 * (k + 1))
        (add64 (st.current.gap r - 255 * (k + 1)) r.len) = r.first := by
      rw [add64_of_lt (by omega), sub64_of_le (by omega) (by omega)]
      omega
    simp [blocks, block, hlast, hfst, hnz, Nat.pos_of_ne_zero hnz]

/-- The blocks of separated ranges are read back as those ranges. -/
theorem ranges_blocks_blocksOf {st : BlockState} (hlong : st.inLongBlock = false)
    {rs : List AckRange} (hdone : rs = [] → st.lastRangeComplete = true)
    (hsep : Separated (st.current :: rs)) (hlast : st.current.last < 2 ^ 48) :
    (st.blocks (blocksOf st.current rs)).ranges = st.finished.reverse ++ st.current :: rs := by
  induction rs generalizing st with
  | nil => simp [blocksOf, BlockState.blocks, BlockState.ranges, hdone rfl]
  | cons r rs ih =>
    have hle := hsep.first_le_last _ List.mem_cons_self
    have hmem : r ∈ st.current :: r :: rs := by simp
    rw [blocksOf, BlockState.blocks_append, BlockState.blocks_rangeBlocks hlong
      (hsep.first_pos r hmem) (hsep.first_le_last r hmem) hsep.last_add_one_lt (by omega)]
    rw [ih rfl (fun _ => rfl) hsep.tail (hsep.last_lt hlast)]
    simp

/-- A gap of a block fits a byte, a length fits the `w` bytes the ranges' lengths fit. -/
theorem mem_blocksOf_bounds {prev : AckRange} {rs : List AckRange} {w : ℕ}
    (hsep : Separated (prev :: rs)) (hlast : prev.last < 2 ^ 48)
    (hlen : ∀ r ∈ rs, r.len < 256 ^ w) {b : ℕ × ℕ} (hb : b ∈ blocksOf prev rs) :
    b.1 < 256 ∧ b.2 < 256 ^ w := by
  induction rs generalizing prev with
  | nil => simp [blocksOf] at hb
  | cons r rs ih =>
    rw [blocksOf, List.mem_append] at hb
    rcases hb with hb | hb
    · have hle := hsep.first_le_last _ List.mem_cons_self
      have hgap := AckRange.gap_eq hsep.last_add_one_lt (by omega)
      have hapart := hsep.last_add_one_lt
      have hgpos : 1 ≤ prev.gap r := by omega
      rw [rangeBlocks_eq hgpos (by omega), List.mem_append, List.mem_singleton] at hb
      rcases hb with hb | rfl
      · rw [List.eq_of_mem_replicate hb]
        exact ⟨by decide, Nat.pow_pos (by decide)⟩
      · have hbound := (lastGap_bounds hgpos).2
        exact ⟨by dsimp only; omega, hlen r List.mem_cons_self⟩
    · exact ih hsep.tail (hsep.last_lt hlast) (fun x hx => hlen x (List.mem_cons_of_mem _ hx)) hb

/-- Parsing the bytes of blocks applies the blocks one by one. -/
theorem run_parseBlocks (bo : ByteOrder) {w : ℕ} {blocks : List (ℕ × ℕ)}
    (h : ∀ b ∈ blocks, b.1 < 256 ∧ b.2 < 256 ^ w) (st : BlockState) (rest : List UInt8) :
    (parseBlocks bo w blocks.length st).run (blockBytes bo w blocks ++ rest) =
      .ok (st.blocks blocks, rest) := by
  induction blocks generalizing st with
  | nil => rfl
  | cons b blocks ih =>
    obtain ⟨hgap, hlen⟩ := h b List.mem_cons_self
    have hbyte : (UInt8.ofNat b.1).toNat = b.1 := by
      rw [UInt8.toNat_ofNat']
      omega
    rw [List.length_cons, parseBlocks, blockBytes, List.flatMap_cons, List.cons_append,
      List.cons_append, List.append_assoc, run_bind_ok (run_readByte_cons _ _ _),
      run_bind_ok (bo.run_readUintN_encode w b.2 _), Nat.mod_eq_of_lt hlen, hbyte]
    exact ih (fun x hx => h x (List.mem_cons_of_mem _ hx)) _

/-! ## Writing blocks -/

theorem writeBlockList_ok {put : ℕ → Except WireError (List UInt8)} {bo : ByteOrder} {w : ℕ}
    (hput : ∀ v < 256 ^ w, put v = .ok (bo.encode w v)) {blocks : List (ℕ × ℕ)}
    (h : ∀ b ∈ blocks, b.2 < 256 ^ w) :
    writeBlockList put blocks = .ok (blockBytes bo w blocks) := by
  induction blocks with
  | nil => rfl
  | cons b blocks ih =>
    rw [writeBlockList, writeBlock, hput _ (h b List.mem_cons_self),
      ih fun x hx => h x (List.mem_cons_of_mem _ hx)]
    rfl

theorem blockBytes_append (bo : ByteOrder) (w : ℕ) (as bs : List (ℕ × ℕ)) :
    blockBytes bo w (as ++ bs) = blockBytes bo w as ++ blockBytes bo w bs :=
  List.flatMap_append

/-- The writer stops after a range with which the limit is reached. -/
theorem writeRanges_stop {put : ℕ → Except WireError (List UInt8)} {numRanges written : ℕ}
    {prev r : AckRange} {bs : List UInt8}
    (h : writeBlockList put (rangeBlocks (prev.gap r) r.len) = .ok bs)
    (hstop : numRanges ≤ written + numBlocks (prev.gap r)) (rs : List AckRange) :
    writeRanges put numRanges prev (r :: rs) written =
      .ok (bs, written + numBlocks (prev.gap r)) := by
  rw [writeRanges, h, length_rangeBlocks]
  exact if_pos hstop

/-- The writer goes on after a range with which the limit is not reached. -/
theorem writeRanges_next {put : ℕ → Except WireError (List UInt8)} {numRanges written n : ℕ}
    {prev r : AckRange} {rs : List AckRange} {bs bs' : List UInt8}
    (h : writeBlockList put (rangeBlocks (prev.gap r) r.len) = .ok bs)
    (hnext : written + numBlocks (prev.gap r) < numRanges)
    (hrest : writeRanges put numRanges r rs (written + numBlocks (prev.gap r)) = .ok (bs', n)) :
    writeRanges put numRanges prev (r :: rs) written = .ok (bs ++ bs', n) := by
  rw [writeRanges, h, length_rangeBlocks]
  refine (if_neg (not_le.mpr hnext)).trans ?_
  rw [hrest]
  rfl

/-- The writer emits the blocks of the first `j` ranges, at least one if there is one. -/
theorem writeRanges_ok {put : ℕ → Except WireError (List UInt8)} {bo : ByteOrder} {w : ℕ}
    (hput : ∀ v < 256 ^ w, put v = .ok (bo.encode w v)) {prev : AckRange} {rs : List AckRange}
    (hb : ∀ b ∈ blocksOf prev rs, b.2 < 256 ^ w) (numRanges written : ℕ) :
    ∃ j ≤ rs.length, (rs ≠ [] → 1 ≤ j) ∧
      writeRanges put numRanges prev rs written =
        .ok (blockBytes bo w (blocksOf prev (rs.take j)),
          written + (blocksOf prev (rs.take j)).length) := by
  induction rs generalizing prev written with
  | nil => exact ⟨0, le_rfl, fun h => absurd rfl h, rfl⟩
  | cons r rs ih =>
    simp only [blocksOf, List.mem_append] at hb
    have hhead := writeBlockList_ok hput fun b h => hb b (Or.inl h)
    by_cases hstop : numRanges ≤ written + numBlocks (prev.gap r)
    · refine ⟨1, by simp, fun _ => le_rfl, ?_⟩
      rw [writeRanges_stop hhead hstop]
      simp [blocksOf, length_rangeBlocks]
    · obtain ⟨j, hj, -, hrun⟩ := ih (fun b h => hb b (Or.inr h))
        (written + numBlocks (prev.gap r))
      refine ⟨j + 1, by simpa using hj, fun _ => by omega, ?_⟩
      rw [writeRanges_next hhead (not_le.mp hstop) hrun]
      simp [blocksOf, blockBytes_append, length_rangeBlocks, Nat.add_assoc]

end MultipathQuic
