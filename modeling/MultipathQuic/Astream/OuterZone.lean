import Mathlib.Data.Finset.Card
import Mathlib.Data.List.Sort
import Mathlib.Order.Interval.Finset.Defs
import Mathlib.Order.Interval.Finset.Basic
import Mathlib.Data.Int.Interval
import MultipathQuic.Astream.TileRows
import MultipathQuic.Library.Float64

/-!
# The zone around the visible tiles

`outer_zone_percentage` and `outer_zone_fixed` of `util.py`. A round appends the tile before each row,
which is a new one. For a row that ends before the frame does, it also appends the tile after the
first tile of the row, where the one after the row was meant; with two or more tiles in the row that
one is a tile of the input. With the first tiles of the frame, two or more, it is all that a round
appends, so `outer_zone_percentage` never reaches its coverage. Only if the tiles are the last ones of
the frame is the line not reached.

## Main definitions

* `outerZonePercentage`, `outerZoneFixed`: the two functions
* `LastTiles`: the tiles are the last ones of the frame

## Main results

* `zoneRound_closing`: a round from the last tiles of the frame
* `outer_zone_last`: the zone of the last tiles, and what happens with other ones
-/

namespace MultipathQuic.Astream

/-- `new_list` and `zone_tiles`. -/
structure Zone where
  newList : List ℤ
  zoneTiles : List ℤ
deriving DecidableEq

/-- What the loop over the rows appends for the row at `i`. Its inner loops run over the keys of
`tile_m`, which are the numbers of the rows. -/
def rowZone (lineSize total : ℤ) (rows : ℕ) (lineCount : ℤ) (i : ℕ) (row : Row) : List ℤ :=
  let keys := (List.range rows).map Int.ofNat
  (if i = 0 then (keys.filter fun tile => tile > lineSize).map fun tile => tile - lineSize
    else if i = lineCount then
      (keys.filter fun tile => tile + lineSize < total).map fun tile => tile + lineSize
    else []) ++
  (if row.first > 1 then [row.first - 1] else []) ++
  (if row.last < total then [row.first + 1] else [])

/-- The body of both outer loops. -/
def zoneRound (lineSize total : ℤ) (z : Zone) : Except PyError Zone := do
  let tileM ← getTileMatriz z.newList
  let zoneTiles := z.zoneTiles ++
    (tileM.1.mapIdx (rowZone lineSize total tileM.1.length tileM.2)).flatten
  let newList := z.newList ++ zoneTiles.filter fun tile => tile ∉ z.newList
  return ⟨newList.insertionSort (· ≤ ·), zoneTiles⟩

/-- `list(set(zone_tiles))`, sorted. -/
def sortedSet (tiles : List ℤ) : List ℤ := tiles.dedup.insertionSort (· ≤ ·)

/-- `current_coverage`. -/
def coverage (tiles : List ℤ) (total : ℤ) : ℚ := float64 (float64 (tiles.length / total) * 100)

/-- The `while` loop of `outer_zone_percentage`; `none` where it still runs. -/
def zoneWhile (lineSize total : ℤ) (zoneSize : ℚ) : ℕ → Zone → Option (Except PyError Zone)
  | 0, _ => none
  | fuel + 1, z =>
    if coverage z.newList total < zoneSize then
      match zoneRound lineSize total z with
      | .error e => some (.error e)
      | .ok z' => zoneWhile lineSize total zoneSize fuel z'
    else some (.ok z)

/-- `outer_zone_percentage`. -/
def outerZonePercentage (lineSize : ℤ) (fuel : ℕ) (tileList : List ℤ) (total : ℤ) (zoneSize : ℚ) :
    Option (Except PyError (List ℤ)) :=
  (zoneWhile lineSize total zoneSize fuel ⟨tileList, []⟩).map
    (Except.map fun z => sortedSet z.zoneTiles)

/-- The `for` loop of `outer_zone_fixed`. -/
def zoneRounds (lineSize total : ℤ) : ℕ → Zone → Except PyError Zone
  | 0, z => .ok z
  | n + 1, z => do
    let z ← zoneRound lineSize total z
    zoneRounds lineSize total n z

/-- `outer_zone_fixed`. -/
def outerZoneFixed (lineSize : ℤ) (tileList : List ℤ) (total zoneSize : ℤ) :
    Except PyError (List ℤ) :=
  (zoneRounds lineSize total zoneSize.toNat ⟨tileList, []⟩).map fun z => sortedSet z.zoneTiles

/-! ## Conditions -/

/-- Only tiles of the frame, and none of the input. -/
def SoundZone (total : ℤ) (tiles zoneTiles : List ℤ) : Prop :=
  ∀ t ∈ zoneTiles, (1 ≤ t ∧ t ≤ total) ∧ t ∉ tiles

/-- The tiles are the last ones of the frame. -/
def LastTiles (total : ℤ) (tiles : List ℤ) : Prop := ∃ a, ∀ t, t ∈ tiles ↔ a ≤ t ∧ t ≤ total

/-- What the rounds preserve: the tiles at hand are the last ones of the frame, from `a` on, and the
zone is apart from the input. -/
structure Zone.Closing (total : ℤ) (tiles : List ℤ) (a : ℤ) (z : Zone) : Prop where
  sorted : z.newList.Pairwise (· ≤ ·)
  mem_iff : ∀ t, t ∈ z.newList ↔ a ≤ t ∧ t ≤ total
  input : ∀ t ∈ tiles, a ≤ t
  zone : ∀ t ∈ z.zoneTiles, (a ≤ t ∧ t ≤ total) ∧ t ∉ tiles

/-! ## One round -/

section Round

variable {lineSize total t a : ℤ} {tiles : List ℤ} {rows : List Row} {row : Row} {z : Zone}

/-- What one pass over the rows appends. -/
def roundTiles (lineSize total : ℤ) (rows : List Row) : List ℤ :=
  (rows.mapIdx (rowZone lineSize total rows.length (rows.length - 1))).flatten

theorem mem_rowZone {n i : ℕ} {lineCount : ℤ} :
    t ∈ rowZone lineSize total n lineCount i row ↔
      (i = 0 ∧ ∃ j : ℕ, j < n ∧ lineSize < j ∧ t = j - lineSize) ∨
      (i ≠ 0 ∧ i = lineCount ∧ ∃ j : ℕ, j < n ∧ j + lineSize < total ∧ t = j + lineSize) ∨
      (1 < row.first ∧ t = row.first - 1) ∨ (row.last < total ∧ t = row.first + 1) := by
  unfold rowZone
  split_ifs with h0 h1 h2 h3 <;> simp <;> grind

theorem mem_roundTiles :
    t ∈ roundTiles lineSize total rows ↔
      (∃ j < rows.length, lineSize < j ∧ t = j - lineSize) ∨
      (2 ≤ rows.length ∧ ∃ j < rows.length, j + lineSize < total ∧ t = j + lineSize) ∨
      ∃ row ∈ rows, (1 < row.first ∧ t = row.first - 1) ∨
        (row.last < total ∧ t = row.first + 1) := by
  simp only [roundTiles, List.mem_flatten, List.mem_mapIdx]
  constructor
  · rintro ⟨_, ⟨i, hi, rfl⟩, hmem⟩
    rcases mem_rowZone.mp hmem with ⟨-, hup⟩ | ⟨hne, hline, hdown⟩ | hrow
    · exact .inl hup
    · exact .inr (.inl ⟨by omega, hdown⟩)
    · exact .inr (.inr ⟨rows[i], List.getElem_mem hi, hrow⟩)
  · rintro (⟨j, hj, hup⟩ | ⟨htwo, hdown⟩ | ⟨row, hrow, hmem⟩)
    · exact ⟨_, ⟨0, Nat.zero_lt_of_lt hj, rfl⟩, mem_rowZone.mpr (.inl ⟨rfl, j, hj, hup⟩)⟩
    · exact ⟨_, ⟨rows.length - 1, by omega, rfl⟩,
        mem_rowZone.mpr (.inr (.inl ⟨by omega, by omega, hdown⟩))⟩
    · obtain ⟨i, hi, rfl⟩ := List.getElem_of_mem hrow
      exact ⟨_, ⟨i, hi, rfl⟩, mem_rowZone.mpr (.inr (.inr hmem))⟩

/-- The last tiles of the frame are one row. -/
theorem RowsOf.eq_of_closing (h : RowsOf tiles rows) (hmem : ∀ t, t ∈ tiles ↔ a ≤ t ∧ t ≤ total)
    (hat : a ≤ total) : ∃ row, rows = [row] ∧ row.first = a ∧ row.last = total := by
  have hrow : ∀ row ∈ rows, row.first = a ∧ row.last = total := by
    intro row hrow
    have hle := (h.solid row hrow).first_le_last
    have hfirst := (hmem _).mp (h.mem_iff.mpr ⟨row, hrow, le_rfl, hle⟩)
    have hlast := (hmem _).mp (h.mem_iff.mpr ⟨row, hrow, hle, le_rfl⟩)
    have hbefore := h.first_sub_one_notMem hrow
    have hafter := h.last_add_one_notMem hrow
    rw [hmem] at hbefore hafter
    omega
  obtain ⟨row, hmem, -⟩ := h.mem_iff.mp ((hmem a).mpr ⟨le_rfl, hat⟩)
  cases rows with
  | nil => cases hmem
  | cons row rows =>
    cases rows with
    | nil => exact ⟨row, rfl, hrow row List.mem_cons_self⟩
    | cons next rows =>
      -- two rows would be apart
      have hapart := (List.pairwise_cons.mp h.apart).1 next List.mem_cons_self
      have := hrow row List.mem_cons_self
      have := hrow next (List.mem_cons_of_mem _ List.mem_cons_self)
      omega

/-- **A round from the last tiles of the frame** appends the tile before them. -/
theorem zoneRound_closing (hline : 1 ≤ lineSize) (ha : 1 ≤ a) (hat : a ≤ total)
    (hz : z.Closing total tiles a) :
    ∃ z', zoneRound lineSize total z = .ok z' ∧ z'.Closing total tiles (max 1 (a - 1)) := by
  obtain ⟨rows, heq, hrows⟩ := getTileMatriz_of_sorted hz.sorted fun t ht => by
    have := (hz.mem_iff t).mp ht
    omega
  obtain ⟨row, rfl, hfirst, hlast⟩ := hrows.eq_of_closing hz.mem_iff hat
  -- there is one row and it ends with the frame, so the tile before it is all that is appended
  have hround : ∀ t, t ∈ roundTiles lineSize total [row] ↔ 1 < a ∧ t = a - 1 := by
    intro t
    rw [mem_roundTiles]
    constructor
    · rintro (⟨j, hj, hup, -⟩ | ⟨htwo, -⟩ | ⟨next, hnext, hmem⟩)
      · rw [List.length_singleton] at hj
        omega
      · rw [List.length_singleton] at htwo
        omega
      · rw [List.mem_singleton.mp hnext] at hmem
        omega
    · rintro ⟨hone, rfl⟩
      exact .inr (.inr ⟨row, List.mem_cons_self, .inl ⟨hfirst ▸ hone, by rw [hfirst]⟩⟩)
  set zoneTiles := z.zoneTiles ++ roundTiles lineSize total [row] with hzone
  set newList := (z.newList ++ zoneTiles.filter fun tile => tile ∉ z.newList) with hnew
  have hmemZone : ∀ t, t ∈ zoneTiles ↔ t ∈ z.zoneTiles ∨ 1 < a ∧ t = a - 1 := by
    intro t
    rw [hzone, List.mem_append, hround]
  have hmem : ∀ t, t ∈ newList.insertionSort (· ≤ ·) ↔ t ∈ z.newList ∨ 1 < a ∧ t = a - 1 := by
    intro t
    have hold : t ∈ z.zoneTiles → t ∈ z.newList := fun ht => (hz.mem_iff t).mpr (hz.zone t ht).1
    rw [List.mem_insertionSort, hnew, List.mem_append, List.mem_filter, hmemZone, decide_eq_true_iff]
    by_cases ht : t ∈ z.newList <;> tauto
  refine ⟨⟨newList.insertionSort (· ≤ ·), zoneTiles⟩, ?_, List.pairwise_insertionSort _ _, ?_, ?_, ?_⟩
  · rw [zoneRound, heq]
    rfl
  · intro t
    rw [hmem, hz.mem_iff]
    omega
  · intro t ht
    have := hz.input t ht
    omega
  · intro t ht
    rcases (hmemZone t).mp ht with hold | ⟨hone, rfl⟩
    · obtain ⟨hrange, hnot⟩ := hz.zone t hold
      exact ⟨by omega, hnot⟩
    · refine ⟨by omega, fun hinput => ?_⟩
      have := hz.input _ hinput
      omega

/-- With other tiles some row ends before the frame does, and the round appends the tile after the
first one of that row. -/
theorem exists_last_lt (hne : tiles ≠ []) (hinc : tiles.Pairwise (· < ·))
    (hrange : ∀ t ∈ tiles, 1 ≤ t ∧ t ≤ total) (hother : ¬ LastTiles total tiles) :
    ∃ rows z', RowsOf tiles rows ∧ zoneRound lineSize total ⟨tiles, []⟩ = .ok z' ∧
      ∃ row ∈ rows, row.last < total ∧ row.first + 1 ∈ z'.zoneTiles := by
  obtain ⟨rows, heq, hrows⟩ := getTileMatriz_of_sorted (hinc.imp le_of_lt) fun t ht => by
    have := hrange t ht
    omega
  have hbefore : ∃ row ∈ rows, row.last < total := by
    by_contra! hall
    refine hother ?_
    obtain ⟨t, ht⟩ := List.exists_mem_of_ne_nil tiles hne
    obtain ⟨row, hrow, -⟩ := hrows.mem_iff.mp ht
    have hend := hall row hrow
    refine ⟨row.first, fun t => ⟨fun ht => ⟨?_, (hrange t ht).2⟩, fun ht => ?_⟩⟩
    · obtain ⟨next, hnext, hge, -⟩ := hrows.mem_iff.mp ht
      have hlast := (hrange _ (hrows.mem_iff.mpr
        ⟨row, hrow, (hrows.solid row hrow).first_le_last, le_rfl⟩)).2
      have hnextEnd := hall next hnext
      have hle := (hrows.solid next hnext).first_le_last
      have hnextLast := (hrange _ (hrows.mem_iff.mpr ⟨next, hnext, hle, le_rfl⟩)).2
      have hfirst := (hrows.solid row hrow).first_le_last
      rcases hrows.eq_or_apart hrow hnext with rfl | hlt | hlt <;> omega
    · exact hrows.mem_iff.mpr ⟨row, hrow, ht.1, ht.2.trans hend⟩
  obtain ⟨row, hrow, hlast⟩ := hbefore
  refine ⟨rows, _, hrows, by rw [zoneRound, heq]; rfl, row, hrow, hlast, ?_⟩
  exact mem_roundTiles.mpr (.inr (.inr ⟨row, hrow, .inr ⟨hlast, rfl⟩⟩))

end Round

/-! ## Whole computations -/

section Loops

variable {lineSize total a : ℤ} {zoneSize : ℚ} {tiles : List ℤ} {z : Zone}

/-- A full frame is covered. -/
theorem le_coverage (htotal : 1 ≤ total) (hfull : ∀ t, 1 ≤ t ∧ t ≤ total → t ∈ tiles) :
    100 ≤ coverage tiles total := by
  have hsub : Finset.Icc 1 total ⊆ tiles.toFinset := fun t ht =>
    List.mem_toFinset.mpr (hfull t (Finset.mem_Icc.mp ht))
  have hcard := (Finset.card_le_card hsub).trans (List.toFinset_card_le tiles)
  rw [Int.card_Icc, add_sub_cancel_right] at hcard
  have hratio : ((1 : ℕ) : ℚ) ≤ tiles.length / total := by
    rw [Nat.cast_one, one_le_div (by exact_mod_cast htotal)]
    exact_mod_cast (Int.toNat_le.mp hcard)
  have hround := le_float64 (by norm_num) hratio
  refine le_float64 (n := 100) (by norm_num) ?_
  push_cast at hround ⊢
  linarith

/-- The `while` loop ends: every round brings the tile before, and a full frame is covered. -/
theorem zoneWhile_of_closing (hline : 1 ≤ lineSize) (ha : 1 ≤ a) (hat : a ≤ total)
    (hsize : zoneSize ≤ 100) (hz : z.Closing total tiles a) :
    ∃ fuel zend a', zoneWhile lineSize total zoneSize fuel z = some (.ok zend) ∧ 1 ≤ a' ∧
      zend.Closing total tiles a' := by
  induction hn : a.toNat using Nat.strong_induction_on generalizing z a with
  | _ n ih =>
    by_cases hlt : coverage z.newList total < zoneSize
    · obtain ⟨z', heq, hz'⟩ := zoneRound_closing hline ha hat hz
      have hone : a ≠ 1 := by
        rintro rfl
        exact absurd (le_coverage (ha.trans hat) fun t ht => (hz.mem_iff t).mpr ht)
          (not_le.mpr (hlt.trans_le hsize))
      obtain ⟨fuel, zend, a', hend, hresult⟩ :=
        ih (max 1 (a - 1)).toNat (by omega) (le_max_left _ _) (by omega) hz' rfl
      refine ⟨fuel + 1, zend, a', ?_, hresult⟩
      rw [zoneWhile, if_pos hlt, heq]
      exact hend
    · exact ⟨1, z, a, by rw [zoneWhile, if_neg hlt], ha, hz⟩

theorem zoneRounds_of_closing (hline : 1 ≤ lineSize) (ha : 1 ≤ a) (hat : a ≤ total) (n : ℕ)
    (hz : z.Closing total tiles a) :
    ∃ zend a', zoneRounds lineSize total n z = .ok zend ∧ 1 ≤ a' ∧ zend.Closing total tiles a' := by
  induction n generalizing z a with
  | zero => exact ⟨z, a, rfl, ha, hz⟩
  | succ n ih =>
    obtain ⟨z', heq, hz'⟩ := zoneRound_closing hline ha hat hz
    obtain ⟨zend, a', hend, hresult⟩ := ih (le_max_left _ _) (by omega) hz'
    refine ⟨zend, a', ?_, hresult⟩
    rw [zoneRounds, heq]
    exact hend

/-- What is returned is the zone without duplicates. -/
theorem Zone.Closing.soundZone (hz : z.Closing total tiles a) (ha : 1 ≤ a) :
    SoundZone total tiles (sortedSet z.zoneTiles) := by
  intro t ht
  rw [sortedSet, List.mem_insertionSort, List.mem_dedup] at ht
  obtain ⟨⟨hge, hle⟩, hnot⟩ := hz.zone t ht
  exact ⟨⟨ha.trans hge, hle⟩, hnot⟩

theorem soundZone_nil (total : ℤ) (tiles : List ℤ) : SoundZone total tiles (sortedSet []) := nofun

/-- **The zone of the last tiles of the frame.** If the coverage is reached before the first round, or
the tiles are the last ones of the frame, `outer_zone_percentage` ends with tiles of the frame that are
not in the input; so does `outer_zone_fixed` without rounds or with the last tiles. With other tiles the
first round appends the tile after the first one of a row that ends before the frame does. -/
theorem outer_zone_last (hline : 1 ≤ lineSize) (hne : tiles ≠ []) (hinc : tiles.Pairwise (· < ·))
    (hrange : ∀ t ∈ tiles, 1 ≤ t ∧ t ≤ total) (hsize : zoneSize ≤ 100) :
    (zoneSize ≤ coverage tiles total ∨ LastTiles total tiles →
      ∃ fuel zoneTiles,
        outerZonePercentage lineSize fuel tiles total zoneSize = some (.ok zoneTiles) ∧
          SoundZone total tiles zoneTiles) ∧
    (∀ rounds : ℤ, rounds ≤ 0 ∨ LastTiles total tiles →
      ∃ zoneTiles, outerZoneFixed lineSize tiles total rounds = .ok zoneTiles ∧
        SoundZone total tiles zoneTiles) ∧
    (¬ LastTiles total tiles →
      ∃ rows z', RowsOf tiles rows ∧ zoneRound lineSize total ⟨tiles, []⟩ = .ok z' ∧
        ∃ row ∈ rows, row.last < total ∧ row.first + 1 ∈ z'.zoneTiles) := by
  have hlast : LastTiles total tiles → ∃ a, 1 ≤ a ∧ a ≤ total ∧
      Zone.Closing total tiles a ⟨tiles, []⟩ := by
    rintro ⟨a, ha⟩
    obtain ⟨t, ht⟩ := List.exists_mem_of_ne_nil tiles hne
    have hat := (ha t).mp ht
    have hmem : a ∈ tiles := (ha a).mpr ⟨le_rfl, hat.1.trans hat.2⟩
    exact ⟨a, (hrange a hmem).1, (hrange a hmem).2, hinc.imp le_of_lt, ha,
      fun t ht => ((ha t).mp ht).1, nofun⟩
  refine ⟨?_, fun rounds => ?_, exists_last_lt hne hinc hrange⟩
  · rintro (hcovered | htiles)
    · refine ⟨1, sortedSet [], ?_, soundZone_nil total tiles⟩
      rw [outerZonePercentage, zoneWhile, if_neg (not_lt.mpr hcovered)]
      rfl
    · obtain ⟨a, ha, hat, hz⟩ := hlast htiles
      obtain ⟨fuel, zend, a', hend, ha', hz'⟩ := zoneWhile_of_closing hline ha hat hsize hz
      refine ⟨fuel, sortedSet zend.zoneTiles, ?_, hz'.soundZone ha'⟩
      rw [outerZonePercentage, hend]
      rfl
  · rintro (hzero | htiles)
    · refine ⟨sortedSet [], ?_, soundZone_nil total tiles⟩
      rw [outerZoneFixed, Int.toNat_of_nonpos hzero]
      rfl
    · obtain ⟨a, ha, hat, hz⟩ := hlast htiles
      obtain ⟨zend, a', hend, ha', hz'⟩ := zoneRounds_of_closing hline ha hat rounds.toNat hz
      refine ⟨sortedSet zend.zoneTiles, ?_, hz'.soundZone ha'⟩
      rw [outerZoneFixed, hend]
      rfl

/-- The last two of four tiles. -/
theorem outer_zone_last_two :
    LastTiles 4 [3, 4] ∧
      (∃ fuel zoneTiles, outerZonePercentage 20 fuel [3, 4] 4 100 = some (.ok zoneTiles) ∧
        SoundZone 4 [3, 4] zoneTiles) ∧
      ∃ zoneTiles, outerZoneFixed 20 [3, 4] 4 7 = .ok zoneTiles ∧ SoundZone 4 [3, 4] zoneTiles := by
  have hlast : LastTiles 4 [3, 4] := by
    refine ⟨3, fun t => ?_⟩
    simp only [List.mem_cons, List.not_mem_nil, or_false]
    omega
  obtain ⟨hpercentage, hfixed, -⟩ := @outer_zone_last 20 4 100 [3, 4] (by decide) (by decide)
    (by decide) (by decide) le_rfl
  exact ⟨hlast, hpercentage (.inr hlast), hfixed 7 (.inr hlast)⟩

/-- A round from the first two of four tiles: the second tile is appended again. -/
theorem zoneRound_firstTwo (n : ℕ) :
    zoneRound 20 4 ⟨[1, 2], List.replicate n 2⟩ = .ok ⟨[1, 2], List.replicate (n + 1) 2⟩ := by
  have hrows : getTileMatriz [1, 2] = .ok ([⟨1, [2]⟩], 0) := by decide +kernel
  have hround : roundTiles 20 4 [⟨1, [2]⟩] = [2] := by decide +kernel
  have hzone : List.replicate n 2 ++ roundTiles 20 4 [⟨1, [2]⟩] = List.replicate (n + 1) 2 := by
    rw [hround, List.replicate_succ']
  have hnew : (List.replicate (n + 1) 2).filter (fun tile => tile ∉ ([1, 2] : List ℤ)) = [] := by
    rw [List.filter_eq_nil_iff]
    intro t ht
    simp [List.eq_of_mem_replicate ht]
  rw [zoneRound, hrows]
  change Except.ok (Zone.mk (([1, 2] ++ List.filter _ (_ ++ roundTiles 20 4 [⟨1, [2]⟩])).insertionSort _)
    (_ ++ roundTiles 20 4 [⟨1, [2]⟩])) = _
  rw [hzone, hnew]
  rfl

/-- With the first two of four tiles, `outer_zone_percentage` never ends, and `outer_zone_fixed` has a
tile of the input. -/
theorem outer_zone_first_two :
    (∀ fuel, outerZonePercentage 20 fuel [1, 2] 4 100 = none) ∧
      outerZoneFixed 20 [1, 2] 4 1 = .ok [2] := by
  have hlt : coverage [1, 2] 4 < 100 := by decide +kernel
  have hloop : ∀ fuel n, zoneWhile 20 4 100 fuel ⟨[1, 2], List.replicate n 2⟩ = none := by
    intro fuel
    induction fuel with
    | zero => exact fun _ => rfl
    | succ fuel ih =>
      intro n
      rw [zoneWhile, if_pos hlt, zoneRound_firstTwo]
      exact ih (n + 1)
  have hstart (fuel : ℕ) : zoneWhile 20 4 100 fuel ⟨[1, 2], []⟩ = none := hloop fuel 0
  refine ⟨fun fuel => ?_, by decide +kernel⟩
  rw [outerZonePercentage, hstart]
  rfl

end Loops

end MultipathQuic.Astream
