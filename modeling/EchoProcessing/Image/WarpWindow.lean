/-
The target window of the warp against the tile.

The four values are the origin of the tile and its opposite corner, in this order. That
is how a window is given in projected coordinates from the upper left; the target extent
is read from the lower left, so for an image whose lines run south it is upside down.
-/

import EchoProcessing.Geo.Corners
import EchoProcessing.Geo.TileExtent
import EchoProcessing.Image.Rendering

namespace EchoProcessing.Image

open Orchestrator GridCoverage

/-- The values after `-te` as they are read: least x, least y, greatest x, greatest y. -/
def targetWindow : List ℚ → Option (Box ℚ)
  | [xmin, ymin, xmax, ymax] => some { left := xmin, bottom := ymin, right := xmax, top := ymax }
  | _ => none

/-- The message is the one of a worker that was made for the cell. -/
structure ForCell (message : EchoWorkerMessage) (cell : Cell) : Prop where
  tileSizeX : message.tileSizeX = cell.sizeX
  tileSizeY : message.tileSizeY = cell.sizeY
  geoTransform : message.geoTransform = cell.geoTransform

/-- The window is one, and it is the bounding box of the corners of the tile. -/
def IsTileWindow (window : Box ℚ) (cell : Cell) : Prop :=
  window.left < window.right ∧ window.bottom < window.top ∧ window = cellExtent cell

/-- The area lies with its upper side to the north and its left side to the west. -/
structure NorthUp (aoi : Aoi) : Prop where
  corners : ∃ upperLeft upperRight lowerLeft, aoi.upperLeft = some upperLeft ∧
    aoi.upperRight = some upperRight ∧ aoi.lowerLeft = some lowerLeft ∧
    upperLeft.x < upperRight.x ∧ lowerLeft.y < upperLeft.y

theorem warp_mem_calls_iff (dataLocal : Bool) (message : EchoWorkerMessage)
    (source targetSrs : String) (values : List ℚ) :
    GdalCall.warp source targetSrs values ∈ (tileProgram dataLocal message).calls ↔
      source = getGdalURL dataLocal message.imageURL true ∧
        targetSrs = message.geoTransform.crs.code ∧
        values =
          [message.geoTransform.oriX, message.geoTransform.oriY,
            (GeoService.toGeo message.tileSizeX message.tileSizeY message.geoTransform).x,
            (GeoService.toGeo message.tileSizeX message.tileSizeY message.geoTransform).y] := by
  simp [SkipIfExists.Program.calls, tileProgram, tileExtent]

/-- The coefficients of the tile are handed over in the order in which they are read. -/
theorem setGeoTransform_mem_calls_iff (dataLocal : Bool) (message : EchoWorkerMessage)
    (values : List ℚ) :
    GdalCall.setGeoTransform values ∈ (tileProgram dataLocal message).calls ↔
      values = List.ofFn (toGdalGeoTransform message.geoTransform) := by
  simp [SkipIfExists.Program.calls, tileProgram, toGdalGeoTransform]

/-- Without skew, with columns to the east and lines to the south. -/
structure RunsSouthEast (geoTransform : GeoTransform) : Prop where
  east : 0 < geoTransform.resX
  south : geoTransform.resY < 0
  skewX : geoTransform.skewX = 0
  skewY : geoTransform.skewY = 0

private theorem RunsSouthEast.of_northUp {aoi : Aoi} (northUp : NorthUp aoi) {sizeX sizeY : ℤ}
    (positiveX : 0 < sizeX) (positiveY : 0 < sizeY) {geoTransform : GeoTransform}
    (built : GeoService.getGeoTransform sizeX sizeY aoi = .ok geoTransform) :
    RunsSouthEast geoTransform := by
  obtain ⟨upperLeft, upperRight, lowerLeft, leftEq, rightEq, lowerEq, west, north⟩ :=
    northUp.corners
  rw [GeoService.getGeoTransform, leftEq, rightEq, lowerEq, Except.ok.injEq] at built
  subst built
  have columns : (0 : ℚ) < sizeX := by exact_mod_cast positiveX
  have lines : (0 : ℚ) < sizeY := by exact_mod_cast positiveY
  exact
    { east := div_pos (sub_pos.mpr west) columns
      south := div_neg_of_neg_of_pos (sub_neg.mpr north) lines
      skewX := rfl
      skewY := rfl }

private theorem extent_of_runsSouthEast {geoTransform : GeoTransform}
    (runs : RunsSouthEast geoTransform) {sizeX sizeY : ℚ} (positiveX : 0 < sizeX)
    (positiveY : 0 < sizeY) :
    extent sizeX sizeY geoTransform =
      { left := geoTransform.oriX
        bottom := geoTransform.oriY + sizeY * geoTransform.resY
        right := geoTransform.oriX + sizeX * geoTransform.resX
        top := geoTransform.oriY } := by
  have across : 0 < sizeX * geoTransform.resX := mul_pos positiveX runs.east
  have down : sizeY * geoTransform.resY < 0 := mul_neg_of_pos_of_neg positiveY runs.south
  rw [extent_eq_parallelogram, runs.skewX, runs.skewY, mul_zero, mul_zero]
  apply Box.ext
  · rw [Box.left_parallelogram, min_eq_left across.le, min_self, add_zero, add_zero]
  · rw [Box.bottom_parallelogram, min_self, min_eq_right down.le, add_zero]
  · rw [Box.right_parallelogram, max_eq_right across.le, max_self, add_zero]
  · rw [Box.top_parallelogram, max_self, max_eq_left down.le, add_zero, add_zero]

/-- The window of every tile of an area to the north is upside down: its least y is the
greatest one of the tile. -/
theorem warp_window_is_never_the_tile {aoi : Aoi} (northUp : NorthUp aoi) {sizeX sizeY : ℤ}
    (positiveX : 0 < sizeX) (positiveY : 0 < sizeY) {geoTransform : GeoTransform}
    (built : GeoService.getGeoTransform sizeX sizeY aoi = .ok geoTransform)
    {cellSizeX cellSizeY : CellSize} {grid : Grid}
    (accepted : GridService.split cellSizeX cellSizeY sizeX sizeY geoTransform = .ok grid)
    {cell : Cell} (member : cell ∈ grid.cells) {message : EchoWorkerMessage}
    (forCell : ForCell message cell) {dataLocal : Bool} {source targetSrs : String}
    {values : List ℚ}
    (called : GdalCall.warp source targetSrs values ∈ (tileProgram dataLocal message).calls) :
    ∃ window, targetWindow values = some window ∧ ¬IsTileWindow window cell ∧
      window.top < window.bottom ∧
      cellExtent cell =
        { left := window.left
          bottom := window.top
          right := window.right
          top := window.bottom } := by
  obtain ⟨x, _, y, _, rfl⟩ := (mem_cells_iff accepted cell).mp member
  obtain ⟨_, _, rfl⟩ := (warp_mem_calls_iff _ _ _ _ _).mp called
  have image := RunsSouthEast.of_northUp northUp positiveX positiveY built
  have runs : RunsSouthEast message.geoTransform := by
    rw [forCell.geoTransform]
    exact { image with }
  have columns : (0 : ℚ) < message.tileSizeX := by
    rw [forCell.tileSizeX]
    exact_mod_cast cellSizeX.positive
  have lines : (0 : ℚ) < message.tileSizeY := by
    rw [forCell.tileSizeY]
    exact_mod_cast cellSizeY.positive
  have tile := extent_of_runsSouthEast runs columns lines
  have upsideDown : (GeoService.toGeo message.tileSizeX message.tileSizeY
      message.geoTransform).y < message.geoTransform.oriY := by
    have down : message.tileSizeY * message.geoTransform.resY < 0 :=
      mul_neg_of_pos_of_neg lines runs.south
    simp only [GeoService.toGeo, runs.skewY, mul_zero, add_zero]
    linarith
  refine ⟨_, rfl, ?_, upsideDown, ?_⟩
  · exact fun isWindow => lt_asymm isWindow.2.1 upsideDown
  · rw [cellExtent, ← forCell.tileSizeX, ← forCell.tileSizeY, ← forCell.geoTransform, tile]
    simp only [GeoService.toGeo, runs.skewX, runs.skewY, mul_zero, add_zero]

namespace Sample

private theorem one_le_tileSize : (1 : ℤ) ≤ 2000 := by decide

def tileSize : CellSize :=
  { value := 2000, positive := one_le_tileSize }

def firstCell : Cell :=
  GridService.cellAt tileSize tileSize northUpTransform 0 0

def firstMessage : EchoWorkerMessage :=
  { processingId := "p"
    workerId := "w"
    imageURL := "/in.tif"
    tileSizeX := firstCell.sizeX
    tileSizeY := firstCell.sizeY
    geoTransform := firstCell.geoTransform
    trackerTotalWorkers := 32 }

def firstValues : List ℚ :=
  [472000, 4436000, 472500, 4435500]

end Sample

theorem warp_window_is_never_the_tile_documented_area :
    ∃ window, targetWindow Sample.firstValues = some window ∧
      ¬IsTileWindow window Sample.firstCell := by
  have northUp : NorthUp (EchoProcessing.Sample.area.toAoi .epsg32613) := by
    refine ⟨_, _, _, rfl, rfl, rfl, ?_, ?_⟩
    · decide +kernel
    · decide +kernel
  have built : GeoService.getGeoTransform (16000 : ℤ) (8000 : ℤ)
      (EchoProcessing.Sample.area.toAoi .epsg32613) = .ok northUpTransform := by
    decide +kernel
  have accepted := split_ok_of_positive Sample.tileSize Sample.tileSize northUpTransform
    (by decide : (1 : ℤ) ≤ 16000) (by decide : (1 : ℤ) ≤ 8000)
  have member := (mem_cells_iff accepted Sample.firstCell).mpr
    ⟨0, StridedRange.zero_mem_stride (by decide) (by decide), 0,
      StridedRange.zero_mem_stride (by decide) (by decide), rfl⟩
  have called : GdalCall.warp (getGdalURL true "/in.tif" true) "epsg:32613" Sample.firstValues ∈
      (tileProgram true Sample.firstMessage).calls := by
    refine (warp_mem_calls_iff _ _ _ _ _).mpr ⟨rfl, rfl, ?_⟩
    decide +kernel
  obtain ⟨window, read, notTile, _⟩ := warp_window_is_never_the_tile northUp (by decide)
    (by decide) built accepted member ⟨rfl, rfl, rfl⟩ called
  exact ⟨window, read, notTile⟩

/-- Of the first tile, whose y goes from 4435500 to 4436000. -/
theorem first_window_is_upside_down :
    (∃ source, GdalCall.warp source "epsg:32613" Sample.firstValues ∈
      (tileProgram true Sample.firstMessage).calls) ∧
      targetWindow Sample.firstValues =
        some { left := 472000, bottom := 4436000, right := 472500, top := 4435500 } ∧
      cellExtent Sample.firstCell =
        { left := 472000, bottom := 4435500, right := 472500, top := 4436000 } ∧
      ∀ window, targetWindow Sample.firstValues = some window →
        ¬IsTileWindow window Sample.firstCell := by
  refine ⟨⟨_, (warp_mem_calls_iff _ _ _ _ _).mpr ⟨rfl, rfl, ?_⟩⟩, rfl, ?_, ?_⟩
  · decide +kernel
  · decide +kernel
  · rintro window read ⟨_, upright, _⟩
    cases read
    norm_num at upright

end EchoProcessing.Image
