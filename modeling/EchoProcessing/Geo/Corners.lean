/-
Corners of an area, the transform built from them and the corners read back from it.

Reading back is faithful to every transform, skewed ones included. What is lost is lost
when the transform is built: it takes one coordinate from two of the corners and sets the
skew to zero, so only an area whose sides follow the axes survives.
-/

import EchoProcessing.Geo.Service
import Mathlib.Data.Fin.VecNotation
import Mathlib.Tactic.NormNum
import Mathlib.Tactic.Ring

namespace EchoProcessing

structure Corners where
  upperLeft : Point
  upperRight : Point
  lowerLeft : Point
  lowerRight : Point
deriving DecidableEq, Repr

namespace Corners

/-- The only shape that an affine transform can hit. -/
def IsParallelogram (corners : Corners) : Prop :=
  corners.lowerRight.x = corners.upperRight.x + corners.lowerLeft.x - corners.upperLeft.x ∧
    corners.lowerRight.y = corners.upperRight.y + corners.lowerLeft.y - corners.upperLeft.y

/-- The upper corners are level and the left ones are plumb. -/
def FollowsAxes (corners : Corners) : Prop :=
  corners.upperRight.y = corners.upperLeft.y ∧ corners.lowerLeft.x = corners.upperLeft.x

def toAoi (corners : Corners) (crs : Crs) : Aoi :=
  { crs := crs
    upperLeft := some corners.upperLeft
    upperRight := some corners.upperRight
    lowerLeft := some corners.lowerLeft
    lowerRight := some corners.lowerRight }

def ofImage (sizeX sizeY : ℚ) (geoTransform : GeoTransform) : Corners :=
  { upperLeft := GeoService.toGeo 0 0 geoTransform
    upperRight := GeoService.toGeo sizeX 0 geoTransform
    lowerLeft := GeoService.toGeo 0 sizeY geoTransform
    lowerRight := GeoService.toGeo sizeX sizeY geoTransform }

end Corners

def toGdalGeoTransform (geoTransform : GeoTransform) : Fin 6 → ℚ :=
  ![geoTransform.oriX, geoTransform.resX, geoTransform.skewX,
    geoTransform.oriY, geoTransform.skewY, geoTransform.resY]

/-- The corners of a dataset of `cols` by `rows` pixels with these coefficients. -/
def spatialExtent (cols rows : ℚ) (geoTransform : Fin 6 → ℚ) : Corners :=
  let upx := geoTransform 0
  let xres := geoTransform 1
  let xskew := geoTransform 2
  let upy := geoTransform 3
  let yskew := geoTransform 4
  let yres := geoTransform 5
  { upperLeft := { x := upx + 0 * xres + 0 * xskew, y := upy + 0 * yskew + 0 * yres }
    lowerLeft := { x := upx + 0 * xres + rows * xskew, y := upy + 0 * yskew + rows * yres }
    upperRight := { x := upx + cols * xres + 0 * xskew, y := upy + cols * yskew + 0 * yres }
    lowerRight :=
      { x := upx + cols * xres + rows * xskew, y := upy + cols * yskew + rows * yres } }

/-- The coefficients carry the whole transform: the corners read back are its own. -/
theorem spatialExtent_toGdalGeoTransform (sizeX sizeY : ℚ) (geoTransform : GeoTransform) :
    spatialExtent sizeX sizeY (toGdalGeoTransform geoTransform) =
      Corners.ofImage sizeX sizeY geoTransform := rfl

private theorem getGeoTransform_toAoi (sizeX sizeY : ℚ) (corners : Corners) (crs : Crs) :
    GeoService.getGeoTransform sizeX sizeY (corners.toAoi crs) =
      .ok
        { crs := crs
          oriX := corners.upperLeft.x
          oriY := corners.upperLeft.y
          resX := (corners.upperRight.x - corners.upperLeft.x) / sizeX
          resY := (corners.lowerLeft.y - corners.upperLeft.y) / sizeY
          skewX := 0
          skewY := 0 } := rfl

/-- The rectangle along the axes that the transform describes in place of the area. -/
def Corners.straightened (corners : Corners) : Corners :=
  { upperLeft := corners.upperLeft
    upperRight := { x := corners.upperRight.x, y := corners.upperLeft.y }
    lowerLeft := { x := corners.upperLeft.x, y := corners.lowerLeft.y }
    lowerRight := { x := corners.upperRight.x, y := corners.lowerLeft.y } }

private theorem ofImage_getGeoTransform {sizeX sizeY : ℚ} (positiveX : 0 < sizeX)
    (positiveY : 0 < sizeY) (corners : Corners) {crs : Crs} {geoTransform : GeoTransform}
    (built : GeoService.getGeoTransform sizeX sizeY (corners.toAoi crs) = .ok geoTransform) :
    Corners.ofImage sizeX sizeY geoTransform = corners.straightened := by
  rw [getGeoTransform_toAoi, Except.ok.injEq] at built
  subst built
  have across := mul_div_cancel₀ (corners.upperRight.x - corners.upperLeft.x) positiveX.ne'
  have down := mul_div_cancel₀ (corners.lowerLeft.y - corners.upperLeft.y) positiveY.ne'
  simp [Corners.ofImage, Corners.straightened, GeoService.toGeo, across, down]

private theorem straightened_eq_iff {corners : Corners} (parallelogram : corners.IsParallelogram) :
    corners.straightened = corners ↔ corners.FollowsAxes := by
  obtain ⟨⟨ulx, uly⟩, ⟨urx, ury⟩, ⟨llx, lly⟩, ⟨lrx, lry⟩⟩ := corners
  obtain ⟨sameX, sameY⟩ := parallelogram
  simp only [Corners.straightened, Corners.FollowsAxes, Corners.mk.injEq, Point.mk.injEq,
    true_and, and_true] at sameX sameY ⊢
  constructor
  · rintro ⟨level, plumb, _⟩
    exact ⟨level.symm, plumb.symm⟩
  · rintro ⟨level, plumb⟩
    refine ⟨level.symm, plumb.symm, ?_, ?_⟩
    · rw [sameX, plumb]
      ring
    · rw [sameY, level]
      ring

/-- The transform of an area maps the pixel corners to those of the area, and the area is
read back from its coefficients, exactly when the sides of the area follow the axes. -/
theorem geo_transform_reproduces_iff {sizeX sizeY : ℚ} (positiveX : 0 < sizeX)
    (positiveY : 0 < sizeY) {corners : Corners} (parallelogram : corners.IsParallelogram)
    (crs : Crs) :
    ∃ geoTransform,
      GeoService.getGeoTransform sizeX sizeY (corners.toAoi crs) = .ok geoTransform ∧
        (Corners.ofImage sizeX sizeY geoTransform = corners ↔ corners.FollowsAxes) ∧
        (spatialExtent sizeX sizeY (toGdalGeoTransform geoTransform) = corners ↔
          corners.FollowsAxes) := by
  have built := getGeoTransform_toAoi sizeX sizeY corners crs
  refine ⟨_, built, ?_⟩
  rw [spatialExtent_toGdalGeoTransform, ofImage_getGeoTransform positiveX positiveY corners built,
    straightened_eq_iff parallelogram]
  exact ⟨Iff.rfl, Iff.rfl⟩

namespace Sample

/-- The documented area. -/
def area : Corners :=
  { upperLeft := { x := 472000, y := 4436000 }
    upperRight := { x := 476000, y := 4436000 }
    lowerLeft := { x := 472000, y := 4434000 }
    lowerRight := { x := 476000, y := 4434000 } }

def rotatedArea : Corners :=
  { upperLeft := { x := 0, y := 2 }
    upperRight := { x := 2, y := 3 }
    lowerLeft := { x := 1, y := 0 }
    lowerRight := { x := 3, y := 1 } }

end Sample

theorem geo_transform_reproduces_iff_documented_area :
    ∃ geoTransform,
      GeoService.getGeoTransform 16000 8000 (Sample.area.toAoi .epsg32613) = .ok geoTransform ∧
        Corners.ofImage 16000 8000 geoTransform = Sample.area := by
  have parallelogram : Sample.area.IsParallelogram := by
    unfold Corners.IsParallelogram
    decide +kernel
  obtain ⟨geoTransform, built, mapped, _⟩ := geo_transform_reproduces_iff
    (by norm_num : (0 : ℚ) < 16000) (by norm_num : (0 : ℚ) < 8000) parallelogram .epsg32613
  exact ⟨geoTransform, built, mapped.mpr ⟨rfl, rfl⟩⟩

/-- The upper right corner of a rotated area is a unit too low. -/
theorem rotated_area_is_straightened :
    Sample.rotatedArea.IsParallelogram ∧
      ∃ geoTransform,
        GeoService.getGeoTransform 1 1 (Sample.rotatedArea.toAoi .epsg32613) = .ok geoTransform ∧
          GeoService.toGeo 1 0 geoTransform ≠ Sample.rotatedArea.upperRight ∧
          spatialExtent 1 1 (toGdalGeoTransform geoTransform) ≠ Sample.rotatedArea := by
  refine ⟨?_, _, rfl, ?_, ?_⟩
  · unfold Corners.IsParallelogram
    decide +kernel
  · decide +kernel
  · decide +kernel

end EchoProcessing
