/-
Areas of interest, geo transforms and grids.

Numbers of the source's type `double` are exact rationals here. A grid cell keeps
its size and its transform; its place in the image is encoded in the transform.
-/

import EchoProcessing.Failure
import EchoProcessing.Library.StridedRange

namespace EchoProcessing

inductive Crs where
  | epsg32613
  | epsg4326
  | epsg6326
deriving DecidableEq, Repr

def Crs.code : Crs → String
  | .epsg32613 => "epsg:32613"
  | .epsg4326 => "epsg:4326"
  | .epsg6326 => "epsg:6326"

structure Point where
  x : ℚ
  y : ℚ
deriving DecidableEq, Repr

/-- A corner is `none` where the message leaves it out. -/
structure Aoi where
  crs : Crs
  upperLeft : Option Point
  upperRight : Option Point
  lowerLeft : Option Point
  lowerRight : Option Point
deriving DecidableEq, Repr

structure GeoTransform where
  crs : Crs
  oriX : ℚ
  oriY : ℚ
  resX : ℚ
  resY : ℚ
  skewX : ℚ
  skewY : ℚ
deriving DecidableEq, Repr

structure Cell where
  sizeX : ℤ
  sizeY : ℤ
  geoTransform : GeoTransform
deriving DecidableEq, Repr

structure Grid where
  cells : List Cell
deriving DecidableEq, Repr

/-- The step of the grid loops. With a smaller one the loops would not end. -/
structure CellSize where
  value : ℤ
  positive : 1 ≤ value

namespace CrsService

/-- A `switch` on null throws. -/
def toCrs : Option String → Except Failure Crs
  | none => .error .nullPointer
  | some code =>
      if code = "epsg:32613" then .ok .epsg32613
      else if code = "epsg:4326" then .ok .epsg4326
      else if code = "epsg:6326" then .ok .epsg6326
      else .error (.illegalArgument ("Can't convert code " ++ code ++ " to CRS"))

/-- Exactly the codes of the enumeration are converted, each to its own system. -/
theorem toCrs_eq_ok_iff (code : Option String) (crs : Crs) :
    toCrs code = .ok crs ↔ code = some crs.code := by
  constructor
  · intro converted
    cases code with
    | none => cases converted
    | some text =>
        simp only [toCrs] at converted
        split_ifs at converted with first second third
        · cases converted
          exact congrArg some first
        · cases converted
          exact congrArg some second
        · cases converted
          exact congrArg some third
  · rintro rfl
    cases crs <;> rfl

end CrsService

namespace GeoService

/-- The lower right corner is never read. -/
def getGeoTransform (sizeX sizeY : ℚ) (aoi : Aoi) : Except Failure GeoTransform :=
  match aoi.upperRight, aoi.upperLeft, aoi.lowerLeft with
  | some upperRight, some upperLeft, some lowerLeft =>
      .ok
        { crs := aoi.crs
          oriX := upperLeft.x
          oriY := upperLeft.y
          resX := (upperRight.x - upperLeft.x) / sizeX
          resY := (lowerLeft.y - upperLeft.y) / sizeY
          skewX := 0
          skewY := 0 }
  | _, _, _ => .error .nullPointer

def toGeo (x y : ℚ) (transform : GeoTransform) : Point :=
  { x := transform.oriX + x * transform.resX + y * transform.skewX
    y := transform.oriY + x * transform.skewY + y * transform.resY }

end GeoService

namespace GridService

open StridedRange (stride)

/-- The cell of one turn of the inner loop of `split`. -/
def cellAt (cellSizeX cellSizeY : CellSize) (geoTransform : GeoTransform) (x y : ℤ) : Cell :=
  let geoPoint := GeoService.toGeo x y geoTransform
  { sizeX := cellSizeX.value
    sizeY := cellSizeY.value
    geoTransform :=
      { crs := geoTransform.crs
        oriX := geoPoint.x
        oriY := geoPoint.y
        resX := geoTransform.resX
        resY := geoTransform.resY
        skewX := geoTransform.skewX
        skewY := geoTransform.skewY } }

/-- The two loops. Their variables only take whole values, so they are integers here. -/
def cells (cellSizeX cellSizeY : CellSize) (sizeX sizeY : ℤ) (geoTransform : GeoTransform) :
    List Cell :=
  (stride cellSizeX.value sizeX).flatMap (fun x =>
    (stride cellSizeY.value sizeY).map (fun y => cellAt cellSizeX cellSizeY geoTransform x y))

def split (cellSizeX cellSizeY : CellSize) (sizeX sizeY : ℤ) (geoTransform : GeoTransform) :
    Except Failure Grid :=
  if (cells cellSizeX cellSizeY sizeX sizeY geoTransform).isEmpty then
    .error (.illegalState (some "Empty grid"))
  else .ok { cells := cells cellSizeX cellSizeY sizeX sizeY geoTransform }

theorem split_ok_iff (cellSizeX cellSizeY : CellSize) (sizeX sizeY : ℤ)
    (geoTransform : GeoTransform) (grid : Grid) :
    split cellSizeX cellSizeY sizeX sizeY geoTransform = .ok grid ↔
      grid.cells = cells cellSizeX cellSizeY sizeX sizeY geoTransform ∧ grid.cells ≠ [] := by
  unfold split
  cases grid with
  | mk gridCells =>
      by_cases empty : (cells cellSizeX cellSizeY sizeX sizeY geoTransform) = []
      · simp only [empty, List.isEmpty_nil, if_true, reduceCtorEq, false_iff]
        rintro ⟨same, nonempty⟩
        exact nonempty same
      · simp only [List.isEmpty_iff, if_neg empty, Except.ok.injEq, Grid.mk.injEq]
        constructor
        · rintro rfl
          exact ⟨rfl, empty⟩
        · rintro ⟨rfl, _⟩
          rfl

end GridService

end EchoProcessing
