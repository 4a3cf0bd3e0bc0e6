import Mathlib.Algebra.Order.Ring.Int
import Mathlib.Data.List.ReduceOption
import Mathlib.Data.Rat.Defs
import Mathlib.Tactic.Common

/-!
# The rows of the visible tiles

`get_tile_matriz` and `linePriority` of `util.py`. A row is a run of consecutive tiles of a sorted
list. `lowP` gets the first and the last row, and `highP` every row but the first: the last row is in
both lists, and a row that is the only one is in `lowP` twice.

## Main definitions

* `getTileMatriz`, `linePriority`: the functions

## Main results

* `getTileMatriz_of_sorted`: the rows of a sorted list
* `linePriority_not_partitioned`: the tiles are never shared out
-/

namespace MultipathQuic.Astream

/-- The exceptions of the client that are modelled. -/
inductive PyError where
  | keyError
  | valueError
deriving DecidableEq, Repr

/-- A row of `tileMatriz`: the tile that opens it, and those that are appended. -/
structure Row where
  first : ℤ
  others : List ℤ
deriving DecidableEq, Repr

namespace Row

def tiles (row : Row) : List ℤ := row.first :: row.others

/-- `tile_m[i][len(tile_m[i])-1]`. -/
def last (row : Row) : ℤ := row.others.getLastD row.first

def append (row : Row) (tile : ℤ) : Row := { row with others := row.others ++ [tile] }

end Row

/-- `tileMatriz[lineCount].append(tile)`. The keys of the dictionary are the indices of its rows, and
`lineCount` is the last of them. -/
def appendToLast (tile : ℤ) : List Row → Except PyError (List Row)
  | [] => .error .keyError
  | [row] => .ok [row.append tile]
  | row :: next :: rows => (row :: ·) <$> appendToLast tile (next :: rows)

/-- The loop of `get_tile_matriz`, which `linePriority` repeats. -/
def addTiles : List ℤ → ℤ → List Row → Except PyError (List Row)
  | [], _, rows => .ok rows
  | tile :: tileList, lastTile, rows =>
    if tile - lastTile > 1 then addTiles tileList tile (rows ++ [⟨tile, []⟩])
    else do
      let rows ← appendToLast tile rows
      addTiles tileList tile rows

/-- `get_tile_matriz`, with `lineCount`. -/
def getTileMatriz (tileList : List ℤ) : Except PyError (List Row × ℤ) := do
  let tileMatriz ← addTiles tileList (-2) []
  return (tileMatriz, tileMatriz.length - 1)

/-- `tileList_original`: a list, or a column of a data frame with missing values. -/
inductive TileInput where
  | list (tiles : List ℤ)
  | series (values : List (Option ℚ))

/-- `tileList` of `linePriority`. `int` truncates. -/
def TileInput.tileList : TileInput → List ℤ
  | .list tiles => tiles
  | .series values => values.reduceOption.map fun value => value.num.tdiv value.den

/-- `linePriority`: `lowP` and `highP`. -/
def linePriority (tileListOriginal : TileInput) : Except PyError (List ℤ × List ℤ) := do
  let tileMatriz ← addTiles tileListOriginal.tileList (-2) []
  match tileMatriz with
  | [] => .error .keyError
  | row :: rows =>
    let lineRow := (row :: rows).getLast (List.cons_ne_nil row rows)
    return (row.tiles ++ lineRow.tiles, rows.flatMap Row.tiles)

/-! ## The loop -/

namespace Row

variable {row : Row} {t tile : ℤ}

/-- The row has every tile between its first and its last one. -/
def Solid (row : Row) : Prop := ∀ t, t ∈ row.tiles ↔ row.first ≤ t ∧ t ≤ row.last

theorem first_mem (row : Row) : row.first ∈ row.tiles := List.mem_cons_self

@[simp] theorem first_append : (row.append tile).first = row.first := rfl

@[simp] theorem last_append : (row.append tile).last = tile := by
  simp [last, append, List.getLastD_eq_getLast?]

@[simp] theorem tiles_append : (row.append tile).tiles = row.tiles ++ [tile] := rfl

theorem solid_singleton (tile : ℤ) : Solid ⟨tile, []⟩ := by
  intro t
  simp only [tiles, last, List.getLastD_nil, List.mem_singleton]
  omega

theorem Solid.first_le_last (h : row.Solid) : row.first ≤ row.last :=
  ((h row.first).mp row.first_mem).2

theorem Solid.append (h : row.Solid) (hle : row.last ≤ tile) (hnext : ¬tile - row.last > 1) :
    (row.append tile).Solid := by
  intro t
  have hfirst := h.first_le_last
  rw [tiles_append, List.mem_append, List.mem_singleton, h t, last_append, first_append]
  omega

end Row

/-- The rows that the loop makes of the row at hand and the tiles that follow. -/
def splitRows (row : Row) : List ℤ → List Row
  | [] => [row]
  | tile :: tiles =>
    if tile - row.last > 1 then row :: splitRows ⟨tile, []⟩ tiles
    else splitRows (row.append tile) tiles

theorem appendToLast_concat (tile : ℤ) (rows : List Row) (row : Row) :
    appendToLast tile (rows ++ [row]) = .ok (rows ++ [row.append tile]) := by
  induction rows with
  | nil => rfl
  | cons r rows ih =>
    cases rows with
    | nil => rfl
    | cons next rows =>
      rw [List.cons_append, List.cons_append, appendToLast, ← List.cons_append, ih]
      rfl

theorem addTiles_concat (tiles : List ℤ) (rows : List Row) (row : Row) :
    addTiles tiles row.last (rows ++ [row]) = .ok (rows ++ splitRows row tiles) := by
  induction tiles generalizing rows row with
  | nil => rfl
  | cons tile tiles ih =>
    rw [addTiles, splitRows]
    split_ifs with hgap
    · refine (ih (rows ++ [row]) ⟨tile, []⟩).trans ?_
      rw [List.append_assoc, List.singleton_append]
    · rw [appendToLast_concat]
      have := ih rows (row.append tile)
      rwa [Row.last_append] at this

/-- The rows are the runs of consecutive tiles, in their order. -/
structure RowsOf (tiles : List ℤ) (rows : List Row) : Prop where
  flatten : rows.flatMap Row.tiles = tiles
  solid : ∀ row ∈ rows, row.Solid
  apart : rows.Pairwise fun row next => row.last + 1 < next.first

theorem rowsOf_splitRows {row : Row} {tiles : List ℤ} (hrow : row.Solid)
    (hsorted : (row.last :: tiles).Pairwise (· ≤ ·)) :
    RowsOf (row.tiles ++ tiles) (splitRows row tiles) := by
  induction tiles generalizing row with
  | nil =>
    refine ⟨by simp [splitRows], ?_, List.pairwise_singleton _ _⟩
    exact List.forall_mem_singleton.mpr hrow
  | cons tile tiles ih =>
    obtain ⟨hle, htail⟩ := List.pairwise_cons.mp hsorted
    rw [splitRows]
    split_ifs with hgap
    · have h := ih (Row.solid_singleton tile) htail
      refine ⟨by rw [List.flatMap_cons, h.flatten]; rfl, List.forall_mem_cons.mpr ⟨hrow, h.solid⟩,
        List.pairwise_cons.mpr ⟨fun next hnext => ?_, h.apart⟩⟩
      have hmem : next.first ∈ tile :: tiles := by
        have := List.mem_flatMap.mpr ⟨next, hnext, next.first_mem⟩
        rwa [h.flatten] at this
      -- every tile that follows is at least the one that opens the next row
      have hfirst : tile ≤ next.first := by
        rcases List.mem_cons.mp hmem with heq | htiles
        · exact heq.ge
        · exact List.rel_of_pairwise_cons htail htiles
      omega
    · have hlast : row.last ≤ tile := hle tile List.mem_cons_self
      have h := ih (hrow.append hlast hgap) (by rwa [Row.last_append])
      rwa [Row.tiles_append, List.append_assoc, List.singleton_append] at h

theorem addTiles_of_sorted {tiles : List ℤ} (hsorted : tiles.Pairwise (· ≤ ·))
    (hpos : ∀ t ∈ tiles, 0 < t) : ∃ rows, addTiles tiles (-2) [] = .ok rows ∧ RowsOf tiles rows := by
  cases tiles with
  | nil => exact ⟨[], rfl, rfl, by simp, List.Pairwise.nil⟩
  | cons tile tiles =>
    have hopen : tile - -2 > 1 := by
      have := hpos tile List.mem_cons_self
      omega
    refine ⟨splitRows ⟨tile, []⟩ tiles, ?_, rowsOf_splitRows (Row.solid_singleton tile) hsorted⟩
    rw [addTiles, if_pos hopen]
    exact addTiles_concat tiles [] ⟨tile, []⟩

/-- A sorted list of tile numbers is split into its runs. -/
theorem getTileMatriz_of_sorted {tiles : List ℤ} (hsorted : tiles.Pairwise (· ≤ ·))
    (hpos : ∀ t ∈ tiles, 0 < t) :
    ∃ rows, getTileMatriz tiles = .ok (rows, rows.length - 1) ∧ RowsOf tiles rows := by
  obtain ⟨rows, heq, hrows⟩ := addTiles_of_sorted hsorted hpos
  exact ⟨rows, by rw [getTileMatriz, heq]; rfl, hrows⟩

/-! ## Rows -/

namespace RowsOf

variable {tiles : List ℤ} {rows : List Row} {row next : Row} {t : ℤ}

theorem mem_iff (h : RowsOf tiles rows) :
    t ∈ tiles ↔ ∃ row ∈ rows, row.first ≤ t ∧ t ≤ row.last := by
  rw [← h.flatten, List.mem_flatMap]
  exact exists_congr fun row => and_congr_right fun hrow => h.solid row hrow t

theorem eq_or_apart (h : RowsOf tiles rows) (hrow : row ∈ rows) (hnext : next ∈ rows) :
    row = next ∨ row.last + 1 < next.first ∨ next.last + 1 < row.first := by
  by_cases heq : row = next
  · exact .inl heq
  · refine .inr (List.Pairwise.forall_of_forall_of_flip
      (R := fun a b => a = b ∨ a.last + 1 < b.first ∨ b.last + 1 < a.first) ?_ ?_ ?_ hrow hnext
        |>.resolve_left heq)
    · exact fun _ _ => .inl rfl
    · exact h.apart.imp fun hlt => .inr (.inl hlt)
    · exact h.apart.imp fun hlt => .inr (.inr hlt)

theorem first_sub_one_notMem (h : RowsOf tiles rows) (hrow : row ∈ rows) : row.first - 1 ∉ tiles := by
  intro hmem
  obtain ⟨other, hother, hfirst, hlast⟩ := h.mem_iff.mp hmem
  have hle := (h.solid row hrow).first_le_last
  rcases h.eq_or_apart hrow hother with rfl | hlt | hlt <;> omega

theorem last_add_one_notMem (h : RowsOf tiles rows) (hrow : row ∈ rows) : row.last + 1 ∉ tiles := by
  intro hmem
  obtain ⟨other, hother, hfirst, hlast⟩ := h.mem_iff.mp hmem
  have hle := (h.solid row hrow).first_le_last
  rcases h.eq_or_apart hrow hother with rfl | hlt | hlt <;> omega

theorem head_first_le (h : RowsOf tiles (row :: rows)) : ∀ y ∈ tiles, row.first ≤ y := by
  intro y hy
  obtain ⟨next, hnext, hle, -⟩ := h.mem_iff.mp hy
  have hfirst := (h.solid row List.mem_cons_self).first_le_last
  rcases List.mem_cons.mp hnext with rfl | hmem
  · exact hle
  · have := List.rel_of_pairwise_cons h.apart hmem
    omega

theorem le_getLast_last (h : RowsOf tiles rows) (hne : rows ≠ []) :
    ∀ y ∈ tiles, y ≤ (rows.getLast hne).last := by
  intro y hy
  obtain ⟨row, hrow, -, hle⟩ := h.mem_iff.mp hy
  have hlast := (h.solid _ (List.getLast_mem hne)).first_le_last
  rw [← List.dropLast_append_getLast hne] at hrow
  have hapart := h.apart
  rw [← List.dropLast_append_getLast hne] at hapart
  rcases List.mem_append.mp hrow with hmem | hmem
  · have := (List.pairwise_append.mp hapart).2.2 row hmem _ List.mem_cons_self
    omega
  · rwa [List.mem_singleton.mp hmem] at hle

end RowsOf

/-! ## Priorities -/

/-- No tile is missing between the first tile and `t`. -/
def InFirstRow (tiles : List ℤ) (t : ℤ) : Prop :=
  t ∈ tiles ∧ ∀ x ≤ t, (∃ y ∈ tiles, y ≤ x) → x ∈ tiles

/-- No tile is missing between `t` and the last tile. -/
def InLastRow (tiles : List ℤ) (t : ℤ) : Prop :=
  t ∈ tiles ∧ ∀ x, t ≤ x → (∃ y ∈ tiles, x ≤ y) → x ∈ tiles

/-- The two lists share out the tiles, the first and the last row to `lowP` and the rest to `highP`. -/
structure PartitionedByPriority (tiles lowP highP : List ℤ) : Prop where
  nodup_low : lowP.Nodup
  nodup_high : highP.Nodup
  disjoint : lowP.Disjoint highP
  mem_iff : ∀ t, t ∈ lowP ∨ t ∈ highP ↔ t ∈ tiles
  first_low : ∀ t, InFirstRow tiles t → t ∈ lowP
  last_low : ∀ t, InLastRow tiles t → t ∈ lowP
  others_high : ∀ t ∈ tiles, ¬InFirstRow tiles t → ¬InLastRow tiles t → t ∈ highP

namespace RowsOf

variable {tiles : List ℤ} {rows : List Row} {row : Row} {t : ℤ}

/-- The first row is the one that no tile precedes. -/
theorem mem_first_iff (h : RowsOf tiles rows) (hrow : row ∈ rows) (hmin : ∀ y ∈ tiles, row.first ≤ y) :
    t ∈ row.tiles ↔ InFirstRow tiles t := by
  have hsolid := h.solid row hrow
  constructor
  · intro hmem
    refine ⟨h.flatten ▸ List.mem_flatMap.mpr ⟨row, hrow, hmem⟩, fun x hx hy => ?_⟩
    obtain ⟨y, hy, hyx⟩ := hy
    exact h.mem_iff.mpr ⟨row, hrow, (hmin y hy).trans hyx, hx.trans ((hsolid t).mp hmem).2⟩
  · rintro ⟨hmem, hall⟩
    refine (hsolid t).mpr ⟨hmin t hmem, le_of_not_gt fun hlt => ?_⟩
    -- the tile after the row would be missing
    have hlast : row.last ∈ tiles := h.mem_iff.mpr ⟨row, hrow, hsolid.first_le_last, le_rfl⟩
    exact h.last_add_one_notMem hrow (hall _ hlt ⟨_, hlast, by omega⟩)

/-- The last row is the one that no tile follows. -/
theorem mem_last_iff (h : RowsOf tiles rows) (hrow : row ∈ rows) (hmax : ∀ y ∈ tiles, y ≤ row.last) :
    t ∈ row.tiles ↔ InLastRow tiles t := by
  have hsolid := h.solid row hrow
  constructor
  · intro hmem
    refine ⟨h.flatten ▸ List.mem_flatMap.mpr ⟨row, hrow, hmem⟩, fun x hx hy => ?_⟩
    obtain ⟨y, hy, hxy⟩ := hy
    exact h.mem_iff.mpr ⟨row, hrow, ((hsolid t).mp hmem).1.trans hx, hxy.trans (hmax y hy)⟩
  · rintro ⟨hmem, hall⟩
    refine (hsolid t).mpr ⟨le_of_not_gt fun hlt => ?_, hmax t hmem⟩
    have hfirst : row.first ∈ tiles := h.mem_iff.mpr ⟨row, hrow, le_rfl, hsolid.first_le_last⟩
    exact h.first_sub_one_notMem hrow (hall _ (by omega) ⟨_, hfirst, by omega⟩)

end RowsOf

/-- **`linePriority` never shares out the tiles.** `lowP` has the tiles of the first and of the last
row and `highP` those of every row but the first; so the last row is in both, and a single row is in
`lowP` twice. -/
theorem linePriority_not_partitioned (input : TileInput) (hne : input.tileList ≠ [])
    (hinc : input.tileList.Pairwise (· < ·)) (hpos : ∀ t ∈ input.tileList, 0 < t) :
    ∃ lowP highP, linePriority input = .ok (lowP, highP) ∧
      (∀ t, t ∈ lowP ↔ InFirstRow input.tileList t ∨ InLastRow input.tileList t) ∧
      (∀ t, t ∈ highP ↔ t ∈ input.tileList ∧ ¬InFirstRow input.tileList t) ∧
      ¬PartitionedByPriority input.tileList lowP highP := by
  obtain ⟨rows, heq, h⟩ := addTiles_of_sorted (hinc.imp le_of_lt) hpos
  cases rows with
  | nil => exact absurd h.flatten.symm hne
  | cons row rows =>
    set lineRow := (row :: rows).getLast (List.cons_ne_nil row rows) with hline
    have hlineRow : lineRow ∈ row :: rows := List.getLast_mem _
    have hfirst : ∀ t, t ∈ row.tiles ↔ InFirstRow input.tileList t := fun t =>
      h.mem_first_iff List.mem_cons_self h.head_first_le
    have hlast : ∀ t, t ∈ lineRow.tiles ↔ InLastRow input.tileList t := fun t =>
      h.mem_last_iff hlineRow (h.le_getLast_last _)
    refine ⟨row.tiles ++ lineRow.tiles, rows.flatMap Row.tiles, ?_, ?_, ?_, ?_⟩
    · rw [linePriority, heq]
      rfl
    · intro t
      rw [List.mem_append, hfirst, hlast]
    · intro t
      rw [← hfirst, ← h.flatten, List.flatMap_cons]
      have hnodup : (row.tiles ++ rows.flatMap Row.tiles).Nodup := by
        rw [← List.flatMap_cons, h.flatten]
        exact hinc.imp ne_of_lt
      have hdisjoint := (List.nodup_append.mp hnodup).2.2
      grind
    · intro hpart
      cases rows with
      | nil => exact (List.nodup_append.mp hpart.nodup_low).2.2 _ row.first_mem _ row.first_mem rfl
      | cons next rows =>
        have hhigh : lineRow ∈ next :: rows := by
          rw [hline, List.getLast_cons (List.cons_ne_nil next rows)]
          exact List.getLast_mem _
        exact hpart.disjoint (List.mem_append_right _ lineRow.first_mem)
          (List.mem_flatMap.mpr ⟨lineRow, hhigh, lineRow.first_mem⟩)

theorem linePriority_two_rows :
    ∃ lowP highP, linePriority (.series [some 1, none, some 3]) = .ok (lowP, highP) ∧
      (∀ t, t ∈ lowP ↔ InFirstRow [1, 3] t ∨ InLastRow [1, 3] t) ∧
      (∀ t, t ∈ highP ↔ t ∈ [1, 3] ∧ ¬InFirstRow [1, 3] t) ∧
      ¬PartitionedByPriority [1, 3] lowP highP :=
  linePriority_not_partitioned (.series [some 1, none, some 3]) (by decide) (by decide) (by decide)

/-- The last row of `[1, 3]` is in both lists. -/
theorem linePriority_both :
    linePriority (.list [1, 3]) = .ok ([1, 3], [3]) ∧ ¬PartitionedByPriority [1, 3] [1, 3] [3] :=
  ⟨rfl, fun h => h.disjoint (a := 3) (by decide) (by decide)⟩

end MultipathQuic.Astream
