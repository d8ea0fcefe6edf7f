/-
The extent of the tiles against the extent of the image.

Every cell has the full cell size, the ones of the last column and row included, so the
tiles reach to the end of the last block of the grid loops. That is the end of the image
where the cell size divides the image size, and beyond it everywhere else.
-/

import EchoProcessing.Geo.GridCoverage
import EchoProcessing.Library.BoundingBox

namespace EchoProcessing.GridCoverage

open GridService StridedRange
open GeoService (toGeo)

def pointBox (point : Point) : Box ℚ :=
  Box.point point.x point.y

/-- The bounding box of the four corners of an image. -/
def extent (sizeX sizeY : ℚ) (geoTransform : GeoTransform) : Box ℚ :=
  pointBox (toGeo 0 0 geoTransform) ⊔ pointBox (toGeo sizeX 0 geoTransform) ⊔
    (pointBox (toGeo 0 sizeY geoTransform) ⊔ pointBox (toGeo sizeX sizeY geoTransform))

def cellExtent (cell : Cell) : Box ℚ :=
  extent cell.sizeX cell.sizeY cell.geoTransform

/-- The extent of the mosaic of the tiles, which is the smallest box around theirs. -/
def mosaicExtent (grid : Grid) : Option (Box ℚ) :=
  Box.hull? (grid.cells.map cellExtent)

/-- Every local pixel of every tile lies where the image has a pixel. -/
def TilesInside (grid : Grid) (sizeX sizeY : ℤ) (geoTransform : GeoTransform) : Prop :=
  ∀ cell ∈ grid.cells, ∀ u v : ℤ, 0 ≤ u → u < cell.sizeX → 0 ≤ v → v < cell.sizeY →
    ∃ i j : ℤ, (0 ≤ i ∧ i < sizeX ∧ 0 ≤ j ∧ j < sizeY) ∧
      toGeo u v cell.geoTransform = toGeo i j geoTransform

theorem extent_eq_parallelogram (sizeX sizeY : ℚ) (geoTransform : GeoTransform) :
    extent sizeX sizeY geoTransform =
      Box.parallelogram geoTransform.oriX geoTransform.oriY
        (sizeX * geoTransform.resX) (sizeX * geoTransform.skewY)
        (sizeY * geoTransform.skewX) (sizeY * geoTransform.resY) := by
  simp only [extent, pointBox, toGeo, Box.parallelogram, zero_mul, add_zero]

theorem box_toGeo_le_extent {x y sizeX sizeY : ℚ} (geoTransform : GeoTransform) (xLower : 0 ≤ x)
    (xUpper : x ≤ sizeX) (yLower : 0 ≤ y) (yUpper : y ≤ sizeY) :
    pointBox (toGeo x y geoTransform) ≤ extent sizeX sizeY geoTransform := by
  rw [extent_eq_parallelogram]
  exact Box.point_le_parallelogram xLower xUpper yLower yUpper

private theorem extent_le_iff (sizeX sizeY : ℚ) (geoTransform : GeoTransform) (bound : Box ℚ) :
    extent sizeX sizeY geoTransform ≤ bound ↔
      (pointBox (toGeo 0 0 geoTransform) ≤ bound ∧
          pointBox (toGeo sizeX 0 geoTransform) ≤ bound) ∧
        pointBox (toGeo 0 sizeY geoTransform) ≤ bound ∧
          pointBox (toGeo sizeX sizeY geoTransform) ≤ bound := by
  simp only [extent, sup_le_iff]

section Mosaic

variable {cellSizeX cellSizeY : CellSize} {sizeX sizeY : ℤ} {geoTransform : GeoTransform}
  {grid : Grid}

theorem cellExtent_cellAt_le_iff (x y : ℤ) (bound : Box ℚ) :
    cellExtent (cellAt cellSizeX cellSizeY geoTransform x y) ≤ bound ↔
      (pointBox (toGeo x y geoTransform) ≤ bound ∧
          pointBox (toGeo (x + cellSizeX.value : ℤ) y geoTransform) ≤ bound) ∧
        pointBox (toGeo x (y + cellSizeY.value : ℤ) geoTransform) ≤ bound ∧
          pointBox (toGeo (x + cellSizeX.value : ℤ) (y + cellSizeY.value : ℤ) geoTransform) ≤
            bound := by
  have corner : ∀ u v : ℤ,
      toGeo u v (cellAt cellSizeX cellSizeY geoTransform x y).geoTransform =
        toGeo ((x + u : ℤ) : ℚ) ((y + v : ℤ) : ℚ) geoTransform :=
    toGeo_cellAt cellSizeX cellSizeY geoTransform x y
  have first := corner 0 0
  have second := corner cellSizeX.value 0
  have third := corner 0 cellSizeY.value
  rw [Int.cast_zero, add_zero, add_zero] at first
  rw [Int.cast_zero, add_zero] at second third
  rw [cellExtent, extent_le_iff, first]
  change (_ ∧ pointBox (toGeo (cellSizeX.value : ℚ) 0 _) ≤ bound) ∧
    pointBox (toGeo 0 (cellSizeY.value : ℚ) _) ≤ bound ∧
      pointBox (toGeo (cellSizeX.value : ℚ) (cellSizeY.value : ℚ) _) ≤ bound ↔ _
  rw [second, third, corner cellSizeX.value cellSizeY.value]

theorem mem_cells_iff (accepted : split cellSizeX cellSizeY sizeX sizeY geoTransform = .ok grid)
    (cell : Cell) :
    cell ∈ grid.cells ↔ ∃ x ∈ stride cellSizeX.value sizeX, ∃ y ∈ stride cellSizeY.value sizeY,
      cell = cellAt cellSizeX cellSizeY geoTransform x y := by
  obtain ⟨cellsEq, _⟩ := (split_ok_iff _ _ _ _ _ _).mp accepted
  rw [cellsEq, cells_eq_map_origins, List.mem_map]
  constructor
  · rintro ⟨origin, member, rfl⟩
    obtain ⟨memberX, memberY⟩ := (mem_origins_iff _ _ _ _ _).mp member
    exact ⟨origin.1, memberX, origin.2, memberY, rfl⟩
  · rintro ⟨x, memberX, y, memberY, rfl⟩
    exact ⟨(x, y), (mem_origins_iff _ _ _ _ _).mpr ⟨memberX, memberY⟩, rfl⟩

theorem mosaicExtent_eq (positiveX : 1 ≤ sizeX) (positiveY : 1 ≤ sizeY)
    (accepted : split cellSizeX cellSizeY sizeX sizeY geoTransform = .ok grid) :
    mosaicExtent grid = some (extent (strideEnd cellSizeX.value sizeX)
      (strideEnd cellSizeY.value sizeY) geoTransform) := by
  have stepX := cellSizeX.positive
  have stepY := cellSizeY.positive
  rw [mosaicExtent, Box.hull?_eq_some_iff]
  constructor
  · rw [ne_eq, List.map_eq_nil_iff]
    exact ((split_ok_iff _ _ _ _ _ _).mp accepted).2
  intro bound
  constructor
  · intro inside box listed
    obtain ⟨cell, member, rfl⟩ := List.mem_map.mp listed
    obtain ⟨x, memberX, y, memberY, rfl⟩ := (mem_cells_iff accepted cell).mp member
    obtain ⟨xLower, xUpper⟩ := bounds_of_mem_stride stepX memberX
    obtain ⟨yLower, yUpper⟩ := bounds_of_mem_stride stepY memberY
    have place : ∀ i j : ℤ, 0 ≤ i → i ≤ strideEnd cellSizeX.value sizeX → 0 ≤ j →
        j ≤ strideEnd cellSizeY.value sizeY → pointBox (toGeo i j geoTransform) ≤ bound := by
      intro i j iLower iUpper jLower jUpper
      refine (box_toGeo_le_extent geoTransform ?_ ?_ ?_ ?_).trans inside <;> exact_mod_cast ‹_›
    rw [cellExtent_cellAt_le_iff]
    exact ⟨⟨place x y xLower (by omega) yLower (by omega),
        place (x + cellSizeX.value) y (by omega) xUpper yLower (by omega)⟩,
      place x (y + cellSizeY.value) xLower (by omega) (by omega) yUpper,
      place (x + cellSizeX.value) (y + cellSizeY.value) (by omega) xUpper (by omega) yUpper⟩
  · intro inside
    have corners : ∀ x ∈ stride cellSizeX.value sizeX, ∀ y ∈ stride cellSizeY.value sizeY,
        cellExtent (cellAt cellSizeX cellSizeY geoTransform x y) ≤ bound := by
      intro x memberX y memberY
      apply inside
      exact List.mem_map_of_mem ((mem_cells_iff accepted _).mpr ⟨x, memberX, y, memberY, rfl⟩)
    have firstX := zero_mem_stride stepX positiveX
    have firstY := zero_mem_stride stepY positiveY
    have lastX := last_mem_stride stepX positiveX
    have lastY := last_mem_stride stepY positiveY
    have northWest := ((cellExtent_cellAt_le_iff _ _ _).mp (corners _ firstX _ firstY)).1.1
    have northEast := ((cellExtent_cellAt_le_iff _ _ _).mp (corners _ lastX _ firstY)).1.2
    have southWest := ((cellExtent_cellAt_le_iff _ _ _).mp (corners _ firstX _ lastY)).2.1
    have southEast := ((cellExtent_cellAt_le_iff _ _ _).mp (corners _ lastX _ lastY)).2.2
    rw [Int.cast_zero] at northWest northEast southWest
    rw [sub_add_cancel] at northEast southWest southEast
    rw [sub_add_cancel] at southEast
    exact (extent_le_iff _ _ _ _).mpr ⟨⟨northWest, northEast⟩, southWest, southEast⟩

private theorem mosaicExtent_eq_extent_iff (positiveX : 1 ≤ sizeX) (positiveY : 1 ≤ sizeY)
    (invertible : geoTransform.resX * geoTransform.resY ≠
      geoTransform.skewX * geoTransform.skewY)
    (accepted : split cellSizeX cellSizeY sizeX sizeY geoTransform = .ok grid) :
    mosaicExtent grid = some (extent sizeX sizeY geoTransform) ↔
      cellSizeX.value ∣ sizeX ∧ cellSizeY.value ∣ sizeY := by
  rw [mosaicExtent_eq positiveX positiveY accepted, Option.some.injEq,
    ← strideEnd_eq_iff cellSizeX.positive, ← strideEnd_eq_iff cellSizeY.positive]
  constructor
  · intro same
    have inside := le_of_eq same
    rw [extent_eq_parallelogram, extent_eq_parallelogram] at inside
    obtain ⟨sameX, sameY⟩ := Box.sides_eq_of_le invertible
      (by exact_mod_cast (by omega : 0 ≤ sizeX)) (by exact_mod_cast (by omega : 0 ≤ sizeY))
      (by exact_mod_cast le_strideEnd cellSizeX.positive)
      (by exact_mod_cast le_strideEnd cellSizeY.positive) inside
    exact ⟨by exact_mod_cast sameX, by exact_mod_cast sameY⟩
  · rintro ⟨sameX, sameY⟩
    rw [sameX, sameY]

private theorem tilesInside_iff (positiveX : 1 ≤ sizeX) (positiveY : 1 ≤ sizeY)
    (invertible : geoTransform.resX * geoTransform.resY ≠
      geoTransform.skewX * geoTransform.skewY)
    (accepted : split cellSizeX cellSizeY sizeX sizeY geoTransform = .ok grid) :
    TilesInside grid sizeX sizeY geoTransform ↔
      cellSizeX.value ∣ sizeX ∧ cellSizeY.value ∣ sizeY := by
  have stepX := cellSizeX.positive
  have stepY := cellSizeY.positive
  rw [← strideEnd_eq_iff stepX, ← strideEnd_eq_iff stepY]
  constructor
  · -- The last local pixel of the last tile is the last one of both loops.
    intro inside
    have member := (mem_cells_iff accepted _).mpr
      ⟨_, last_mem_stride stepX positiveX, _, last_mem_stride stepY positiveY, rfl⟩
    obtain ⟨i, j, bounds, same⟩ := inside _ member (cellSizeX.value - 1) (cellSizeY.value - 1)
      (by omega) (Int.sub_one_lt_of_le le_rfl) (by omega) (Int.sub_one_lt_of_le le_rfl)
    rw [toGeo_cellAt] at same
    obtain ⟨sameX, sameY⟩ := toGeo_injective invertible same
    have pixelX :
        strideEnd cellSizeX.value sizeX - cellSizeX.value + (cellSizeX.value - 1) = i := by
      exact_mod_cast sameX
    have pixelY :
        strideEnd cellSizeY.value sizeY - cellSizeY.value + (cellSizeY.value - 1) = j := by
      exact_mod_cast sameY
    have reachX : sizeX ≤ strideEnd cellSizeX.value sizeX := le_strideEnd stepX
    have reachY : sizeY ≤ strideEnd cellSizeY.value sizeY := le_strideEnd stepY
    omega
  · rintro ⟨endX, endY⟩ cell member u v uLower uUpper vLower vUpper
    obtain ⟨x, memberX, y, memberY, rfl⟩ := (mem_cells_iff accepted cell).mp member
    obtain ⟨xLower, xUpper⟩ := bounds_of_mem_stride stepX memberX
    obtain ⟨yLower, yUpper⟩ := bounds_of_mem_stride stepY memberY
    change u < cellSizeX.value at uUpper
    change v < cellSizeY.value at vUpper
    exact ⟨x + u, y + v, by omega, toGeo_cellAt _ _ _ _ _ _ _⟩

/-- The tiles stay inside the image, and their mosaic has its extent, exactly when the cell
divides the image in both directions: the last column and row are not cut. -/
theorem tiles_stay_inside_iff (cellSizeX cellSizeY : CellSize) {sizeX sizeY : ℤ}
    (positiveX : 1 ≤ sizeX) (positiveY : 1 ≤ sizeY) {geoTransform : GeoTransform}
    (invertible : geoTransform.resX * geoTransform.resY ≠
      geoTransform.skewX * geoTransform.skewY) :
    ∃ grid, split cellSizeX cellSizeY sizeX sizeY geoTransform = .ok grid ∧
      (TilesInside grid sizeX sizeY geoTransform ↔
        cellSizeX.value ∣ sizeX ∧ cellSizeY.value ∣ sizeY) ∧
      (mosaicExtent grid = some (extent sizeX sizeY geoTransform) ↔
        cellSizeX.value ∣ sizeX ∧ cellSizeY.value ∣ sizeY) := by
  have accepted := split_ok_of_positive cellSizeX cellSizeY geoTransform positiveX positiveY
  exact ⟨_, accepted, tilesInside_iff positiveX positiveY invertible accepted,
    mosaicExtent_eq_extent_iff positiveX positiveY invertible accepted⟩

end Mosaic

theorem tiles_stay_inside_iff_exact_cells :
    ∃ grid, split { value := 2, positive := by decide } { value := 2, positive := by decide } 4 2
        shearedTransform = .ok grid ∧
      TilesInside grid 4 2 shearedTransform ∧
      mosaicExtent grid = some (extent 4 2 shearedTransform) := by
  have invertible : shearedTransform.resX * shearedTransform.resY ≠
      shearedTransform.skewX * shearedTransform.skewY := by decide +kernel
  obtain ⟨grid, accepted, inside, same⟩ := tiles_stay_inside_iff
    { value := 2, positive := by decide } { value := 2, positive := by decide }
    (by decide : (1 : ℤ) ≤ 4) (by decide : (1 : ℤ) ≤ 2) invertible
  exact ⟨grid, accepted, inside.mpr (by decide), same.mpr (by decide)⟩

def northUpTransform : GeoTransform :=
  { crs := .epsg32613
    oriX := 472000
    oriY := 4436000
    resX := 1 / 4
    resY := -1 / 4
    skewX := 0
    skewY := 0 }

/-- An image of 3000 by 2000 pixels in cells of 2000 by 2000: the mosaic is wider. -/
theorem tiles_leave_the_image :
    ∃ grid, split { value := 2000, positive := by decide } { value := 2000, positive := by decide }
        3000 2000 northUpTransform = .ok grid ∧
      ¬TilesInside grid 3000 2000 northUpTransform ∧
      mosaicExtent grid = some (extent 4000 2000 northUpTransform) ∧
      mosaicExtent grid ≠ some (extent 3000 2000 northUpTransform) := by
  have positiveX : (1 : ℤ) ≤ 3000 := by decide
  have positiveY : (1 : ℤ) ≤ 2000 := by decide
  have invertible : northUpTransform.resX * northUpTransform.resY ≠
      northUpTransform.skewX * northUpTransform.skewY := by decide +kernel
  have undivided : ¬((2000 : ℤ) ∣ 3000 ∧ (2000 : ℤ) ∣ 2000) := by decide
  have accepted := split_ok_of_positive { value := 2000, positive := by decide }
    { value := 2000, positive := by decide } northUpTransform positiveX positiveY
  refine ⟨_, accepted, ?_, ?_, ?_⟩
  · exact fun inside =>
      undivided ((tilesInside_iff positiveX positiveY invertible accepted).mp inside)
  · rw [mosaicExtent_eq positiveX positiveY accepted]
    rfl
  · exact fun same =>
      undivided ((mosaicExtent_eq_extent_iff positiveX positiveY invertible accepted).mp same)

end EchoProcessing.GridCoverage
