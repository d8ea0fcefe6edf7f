/-
Coverage of the image by the cells of its grid.

The cells are listed by their pixel origins, which the two loops run through
without repetition. A pixel belongs to the block of one origin, and the transform
of a cell places its local pixels where the image transform places the shifted
ones, so existence and uniqueness reduce to the division of each coordinate.
-/

import EchoProcessing.Geo.Service
import Mathlib.Data.List.ProdSigma
import Mathlib.Tactic.LinearCombination
import Mathlib.Tactic.Ring

namespace EchoProcessing.GridCoverage

open GridService StridedRange
open GeoService (toGeo)

def origins (cellSizeX cellSizeY : CellSize) (sizeX sizeY : ℤ) : List (ℤ × ℤ) :=
  stride cellSizeX.value sizeX ×ˢ stride cellSizeY.value sizeY

theorem cells_eq_map_origins (cellSizeX cellSizeY : CellSize) (sizeX sizeY : ℤ)
    (geoTransform : GeoTransform) :
    cells cellSizeX cellSizeY sizeX sizeY geoTransform =
      (origins cellSizeX cellSizeY sizeX sizeY).map (fun origin =>
        cellAt cellSizeX cellSizeY geoTransform origin.1 origin.2) := by
  change _ = List.map _ (List.product _ _)
  simp only [cells, List.product, List.map_flatMap, List.map_map]
  rfl

theorem cells_length (cellSizeX cellSizeY : CellSize) (sizeX sizeY : ℤ)
    (geoTransform : GeoTransform) :
    (cells cellSizeX cellSizeY sizeX sizeY geoTransform).length =
      ⌈(sizeX : ℚ) / cellSizeX.value⌉₊ * ⌈(sizeY : ℚ) / cellSizeY.value⌉₊ := by
  rw [cells_eq_map_origins, List.length_map, origins, List.length_product,
    stride_length cellSizeX.positive, stride_length cellSizeY.positive]

private theorem origins_nodup (cellSizeX cellSizeY : CellSize) (sizeX sizeY : ℤ) :
    (origins cellSizeX cellSizeY sizeX sizeY).Nodup :=
  List.Nodup.product (stride_nodup cellSizeX.positive) (stride_nodup cellSizeY.positive)

theorem toGeo_cellAt (cellSizeX cellSizeY : CellSize) (geoTransform : GeoTransform)
    (x y u v : ℤ) :
    toGeo u v (cellAt cellSizeX cellSizeY geoTransform x y).geoTransform =
      toGeo ((x + u : ℤ) : ℚ) ((y + v : ℤ) : ℚ) geoTransform := by
  simp only [toGeo, cellAt, Point.mk.injEq]
  push_cast
  constructor <;> ring

theorem toGeo_injective {geoTransform : GeoTransform}
    (invertible : geoTransform.resX * geoTransform.resY ≠
      geoTransform.skewX * geoTransform.skewY) {x y x' y' : ℚ}
    (same : toGeo x y geoTransform = toGeo x' y' geoTransform) : x = x' ∧ y = y' := by
  simp only [toGeo, Point.mk.injEq] at same
  obtain ⟨sameX, sameY⟩ := same
  have nonzero : geoTransform.resX * geoTransform.resY -
      geoTransform.skewX * geoTransform.skewY ≠ 0 := sub_ne_zero.mpr invertible
  -- Cramer's rule, once for each coordinate.
  constructor
  · apply mul_left_cancel₀ nonzero
    linear_combination geoTransform.resY * sameX - geoTransform.skewX * sameY
  · apply mul_left_cancel₀ nonzero
    linear_combination geoTransform.resX * sameY - geoTransform.skewY * sameX

/-- The pixel `(i, j)` of the image is the local pixel `(u, v)` of cell number `k`. -/
def Renders (grid : Grid) (geoTransform : GeoTransform) (i j : ℤ) (place : ℕ × ℤ × ℤ) : Prop :=
  ∃ cell, grid.cells[place.1]? = some cell ∧
    0 ≤ place.2.1 ∧ place.2.1 < cell.sizeX ∧ 0 ≤ place.2.2 ∧ place.2.2 < cell.sizeY ∧
    toGeo place.2.1 place.2.2 cell.geoTransform = toGeo i j geoTransform

variable {cellSizeX cellSizeY : CellSize} {sizeX sizeY : ℤ} {geoTransform : GeoTransform}
  {grid : Grid}

private theorem renders_iff
    (accepted : split cellSizeX cellSizeY sizeX sizeY geoTransform = .ok grid)
    (i j u v : ℤ) (k : ℕ) :
    Renders grid geoTransform i j (k, u, v) ↔
      ∃ origin, (origins cellSizeX cellSizeY sizeX sizeY)[k]? = some origin ∧
        0 ≤ u ∧ u < cellSizeX.value ∧ 0 ≤ v ∧ v < cellSizeY.value ∧
        toGeo ((origin.1 + u : ℤ) : ℚ) ((origin.2 + v : ℤ) : ℚ) geoTransform =
          toGeo i j geoTransform := by
  obtain ⟨cellsEq, _⟩ := (split_ok_iff _ _ _ _ _ _).mp accepted
  unfold Renders
  rw [cellsEq, cells_eq_map_origins, List.getElem?_map]
  constructor
  · rintro ⟨cell, found, bounds⟩
    obtain ⟨origin, atOrigin, rfl⟩ := Option.map_eq_some_iff.mp found
    rw [toGeo_cellAt] at bounds
    exact ⟨origin, atOrigin, bounds⟩
  · rintro ⟨origin, atOrigin, bounds⟩
    refine ⟨_, Option.map_eq_some_iff.mpr ⟨origin, atOrigin, rfl⟩, ?_⟩
    rw [toGeo_cellAt]
    exact bounds

def blockOrigin (cellSizeX cellSizeY : CellSize) (i j : ℤ) : ℤ × ℤ :=
  (i - i % cellSizeX.value, j - j % cellSizeY.value)

theorem mem_origins_iff (cellSizeX cellSizeY : CellSize) (sizeX sizeY : ℤ) (origin : ℤ × ℤ) :
    origin ∈ origins cellSizeX cellSizeY sizeX sizeY ↔
      origin.1 ∈ stride cellSizeX.value sizeX ∧ origin.2 ∈ stride cellSizeY.value sizeY :=
  List.mem_product

private theorem blockOrigin_mem (cellSizeX cellSizeY : CellSize) {sizeX sizeY i j : ℤ}
    (iLower : 0 ≤ i) (iUpper : i < sizeX) (jLower : 0 ≤ j) (jUpper : j < sizeY) :
    blockOrigin cellSizeX cellSizeY i j ∈ origins cellSizeX cellSizeY sizeX sizeY :=
  (mem_origins_iff _ _ _ _ _).mpr
    ⟨((block_iff cellSizeX.positive iLower iUpper _).mpr rfl).1,
      ((block_iff cellSizeY.positive jLower jUpper _).mpr rfl).1⟩

theorem exists_renders
    (accepted : split cellSizeX cellSizeY sizeX sizeY geoTransform = .ok grid) {i j : ℤ}
    (iLower : 0 ≤ i) (iUpper : i < sizeX) (jLower : 0 ≤ j) (jUpper : j < sizeY) :
    ∃ place, Renders grid geoTransform i j place := by
  obtain ⟨k, bound, atK⟩ := List.mem_iff_getElem.mp
    (blockOrigin_mem cellSizeX cellSizeY iLower iUpper jLower jUpper)
  refine ⟨(k, i % cellSizeX.value, j % cellSizeY.value),
    (renders_iff accepted i j _ _ k).mpr
      ⟨blockOrigin cellSizeX cellSizeY i j, by rw [← atK]; exact List.getElem?_eq_getElem bound,
        ?_, ?_, ?_, ?_, ?_⟩⟩
  · exact Int.emod_nonneg i (by have := cellSizeX.positive; omega)
  · exact Int.emod_lt_of_pos i (by have := cellSizeX.positive; omega)
  · exact Int.emod_nonneg j (by have := cellSizeY.positive; omega)
  · exact Int.emod_lt_of_pos j (by have := cellSizeY.positive; omega)
  · simp only [blockOrigin, Int.sub_add_cancel]

private theorem renders_place
    (accepted : split cellSizeX cellSizeY sizeX sizeY geoTransform = .ok grid)
    (invertible : geoTransform.resX * geoTransform.resY ≠
      geoTransform.skewX * geoTransform.skewY) {i j u v : ℤ} {k : ℕ}
    (iLower : 0 ≤ i) (iUpper : i < sizeX) (jLower : 0 ≤ j) (jUpper : j < sizeY)
    (renders : Renders grid geoTransform i j (k, u, v)) :
    (origins cellSizeX cellSizeY sizeX sizeY)[k]? = some (blockOrigin cellSizeX cellSizeY i j) ∧
      u = i % cellSizeX.value ∧ v = j % cellSizeY.value := by
  obtain ⟨origin, atOrigin, uLower, uUpper, vLower, vUpper, same⟩ :=
    (renders_iff accepted i j u v k).mp renders
  obtain ⟨sameX, sameY⟩ := toGeo_injective invertible same
  have pixelX : origin.1 + u = i := by exact_mod_cast sameX
  have pixelY : origin.2 + v = j := by exact_mod_cast sameY
  have member := (mem_origins_iff _ _ _ _ _).mp (List.mem_of_getElem? atOrigin)
  have originX : origin.1 = i - i % cellSizeX.value :=
    (block_iff cellSizeX.positive iLower iUpper _).mp ⟨member.1, by omega, by omega⟩
  have originY : origin.2 = j - j % cellSizeY.value :=
    (block_iff cellSizeY.positive jLower jUpper _).mp ⟨member.2, by omega, by omega⟩
  have originEq : origin = blockOrigin cellSizeX cellSizeY i j := Prod.ext originX originY
  exact ⟨originEq ▸ atOrigin, by omega, by omega⟩

theorem renders_unique
    (accepted : split cellSizeX cellSizeY sizeX sizeY geoTransform = .ok grid)
    (invertible : geoTransform.resX * geoTransform.resY ≠
      geoTransform.skewX * geoTransform.skewY) {i j : ℤ} {left right : ℕ × ℤ × ℤ}
    (iLower : 0 ≤ i) (iUpper : i < sizeX) (jLower : 0 ≤ j) (jUpper : j < sizeY)
    (first : Renders grid geoTransform i j left)
    (second : Renders grid geoTransform i j right) : left = right := by
  obtain ⟨k, u, v⟩ := left
  obtain ⟨k', u', v'⟩ := right
  obtain ⟨atK, uEq, vEq⟩ :=
    renders_place accepted invertible iLower iUpper jLower jUpper first
  obtain ⟨atK', uEq', vEq'⟩ :=
    renders_place accepted invertible iLower iUpper jLower jUpper second
  have bound : k < (origins cellSizeX cellSizeY sizeX sizeY).length :=
    (List.getElem?_eq_some_iff.mp atK).1
  have sameIndex : k = k' :=
    (List.getElem?_inj bound (origins_nodup cellSizeX cellSizeY sizeX sizeY)).mp
      (atK.trans atK'.symm)
  rw [sameIndex, uEq, vEq, uEq', vEq']

theorem split_ok_of_positive (cellSizeX cellSizeY : CellSize) {sizeX sizeY : ℤ}
    (geoTransform : GeoTransform) (positiveX : 1 ≤ sizeX) (positiveY : 1 ≤ sizeY) :
    split cellSizeX cellSizeY sizeX sizeY geoTransform =
      .ok { cells := cells cellSizeX cellSizeY sizeX sizeY geoTransform } := by
  refine (split_ok_iff _ _ _ _ _ _).mpr ⟨rfl, ?_⟩
  have member := blockOrigin_mem cellSizeX cellSizeY
    (le_refl (0 : ℤ)) (by omega : 0 < sizeX) (le_refl (0 : ℤ)) (by omega : 0 < sizeY)
  rw [cells_eq_map_origins]
  exact List.ne_nil_of_mem (List.mem_map_of_mem member)

theorem split_error_of_nonpositive (cellSizeX cellSizeY : CellSize) {sizeX sizeY : ℤ}
    (geoTransform : GeoTransform) (nonpositive : sizeX ≤ 0 ∨ sizeY ≤ 0) :
    split cellSizeX cellSizeY sizeX sizeY geoTransform =
      .error (.illegalState (some "Empty grid")) := by
  have empty : cells cellSizeX cellSizeY sizeX sizeY geoTransform = [] := by
    unfold cells
    rcases nonpositive with noColumn | noRow
    · rw [stride_eq_nil cellSizeX.positive noColumn, List.flatMap_nil]
    · rw [stride_eq_nil cellSizeY.positive noRow]
      simp
  rw [split, empty]
  rfl

/-- Every image pixel is rendered by exactly one tile, at the right place. -/
theorem split_covers_every_pixel_once (cellSizeX cellSizeY : CellSize) (sizeX sizeY : ℤ)
    (geoTransform : GeoTransform) :
    (1 ≤ sizeX → 1 ≤ sizeY →
      ∃ grid, split cellSizeX cellSizeY sizeX sizeY geoTransform = .ok grid ∧
        grid.cells.length =
          ⌈(sizeX : ℚ) / cellSizeX.value⌉₊ * ⌈(sizeY : ℚ) / cellSizeY.value⌉₊ ∧
        ∀ i j : ℤ, 0 ≤ i → i < sizeX → 0 ≤ j → j < sizeY →
          (∃ place, Renders grid geoTransform i j place) ∧
          (geoTransform.resX * geoTransform.resY ≠ geoTransform.skewX * geoTransform.skewY →
            ∃! place, Renders grid geoTransform i j place)) ∧
    (sizeX ≤ 0 ∨ sizeY ≤ 0 →
      split cellSizeX cellSizeY sizeX sizeY geoTransform =
        .error (.illegalState (some "Empty grid"))) := by
  refine ⟨?_, split_error_of_nonpositive cellSizeX cellSizeY geoTransform⟩
  intro positiveX positiveY
  have accepted := split_ok_of_positive cellSizeX cellSizeY geoTransform positiveX positiveY
  refine ⟨_, accepted, cells_length cellSizeX cellSizeY sizeX sizeY geoTransform, ?_⟩
  intro i j iLower iUpper jLower jUpper
  obtain ⟨place, renders⟩ := exists_renders accepted iLower iUpper jLower jUpper
  refine ⟨⟨place, renders⟩, ?_⟩
  intro invertible
  refine ⟨place, renders, ?_⟩
  intro other otherRenders
  exact renders_unique accepted invertible iLower iUpper jLower jUpper otherRenders renders

/-- A sheared image whose width leaves a remainder: two columns of cells, one row. -/
def shearedTransform : GeoTransform :=
  { crs := .epsg32613, oriX := 10, oriY := 20, resX := 2, resY := -3, skewX := 1, skewY := 0 }

theorem split_covers_every_pixel_once_sheared :
    ∃ grid, split { value := 2, positive := by decide } { value := 2, positive := by decide }
        3 2 shearedTransform = .ok grid ∧
      grid.cells.length = 2 ∧ ∃! place, Renders grid shearedTransform 2 1 place := by
  obtain ⟨grid, accepted, count, pixels⟩ :=
    (split_covers_every_pixel_once { value := 2, positive := by decide }
      { value := 2, positive := by decide } 3 2 shearedTransform).1 (by decide) (by decide)
  refine ⟨grid, accepted, ?_, ?_⟩
  · have columns : ⌈(3 : ℚ) / 2⌉₊ = 2 := by
      rw [Nat.ceil_eq_iff (by decide)]
      norm_num
    rw [count]
    norm_num [columns]
  · apply (pixels 2 1 (by decide) (by decide) (by decide) (by decide)).2
    unfold shearedTransform
    norm_num

end EchoProcessing.GridCoverage
