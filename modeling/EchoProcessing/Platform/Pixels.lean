/-
The image that a request ends with.

Each pixel of the image of an accepted request lies in a tile of its result, at the place
that the area of the request gives it. Where this area has an extent in both directions,
the pixel lies in no other tile and nowhere else in this one.
-/

import EchoProcessing.Geo.GridCoverage
import EchoProcessing.Image.WarpWindow
import EchoProcessing.Platform.Results
import Mathlib.Data.List.OfFn

namespace EchoProcessing.Site

open Orchestrator Image EchoWorkerRepository GridCoverage

open SkipIfExists (Finished)

variable {dataLocal : Bool} {site : Site}

/-- The file has a pixel `(u, v)`, and its coefficients put it at the place. -/
def PlacesPixel (dataLocal : Bool) (calls : List GdalCall) (url : String) (place : Point)
    (u v : ℤ) : Prop :=
  ∃ sizeX sizeY source coefficients,
    GdalCall.create (getGdalURL dataLocal url false) sizeX sizeY source ∈ calls ∧
      GdalCall.setGeoTransform (List.ofFn coefficients) ∈ calls ∧
      0 ≤ u ∧ u < sizeX ∧ 0 ≤ v ∧ v < sizeY ∧ (spatialExtent u v coefficients).lowerRight = place

private theorem create_mem_calls_iff (dataLocal : Bool) (message : EchoWorkerMessage) (url : String)
    (sizeX sizeY : ℤ) (source : String) :
    GdalCall.create url sizeX sizeY source ∈ (tileProgram dataLocal message).calls ↔
      url = getGdalURL dataLocal (tileURL message.processingId message.workerId) false ∧
        sizeX = message.tileSizeX ∧ sizeY = message.tileSizeY ∧
        source = getGdalURL dataLocal message.imageURL true := by
  simp [SkipIfExists.Program.calls, tileProgram]

theorem placesPixel_iff (message : EchoWorkerMessage) (place : Point) (u v : ℤ) :
    PlacesPixel dataLocal (tileProgram dataLocal message).calls
        (tileURL message.processingId message.workerId) place u v ↔
      0 ≤ u ∧ u < message.tileSizeX ∧ 0 ≤ v ∧ v < message.tileSizeY ∧
        GeoService.toGeo u v message.geoTransform = place := by
  constructor
  · rintro ⟨sizeX, sizeY, source, coefficients, created, handed, lowerU, upperU, lowerV, upperV,
      rfl⟩
    obtain ⟨_, rfl, rfl, _⟩ := (create_mem_calls_iff _ _ _ _ _ _).mp created
    obtain rfl := List.ofFn_inj.mp ((setGeoTransform_mem_calls_iff _ _ _).mp handed)
    exact ⟨lowerU, upperU, lowerV, upperV, rfl⟩
  · rintro ⟨lowerU, upperU, lowerV, upperV, rfl⟩
    exact ⟨_, _, _, _, (create_mem_calls_iff _ _ _ _ _ _).mpr ⟨rfl, rfl, rfl, rfl⟩,
      (setGeoTransform_mem_calls_iff _ _ _).mpr rfl, lowerU, upperU, lowerV, upperV, rfl⟩

def Lists (dataLocal : Bool) (site : Site) (processingId workerId : String) : Prop :=
  Finished (site.mergers.history (resultURL processingId)) ∧
    ∃ execution tiles, GdalCall.buildVRT (getGdalURL dataLocal (resultURL processingId) false)
      tiles ∈ site.mergers.performed execution ∧
        getGdalURL dataLocal (tileURL processingId workerId) true ∈ tiles

/-- The result of the request shows the place at a pixel of the tile of a row. -/
structure Shows (dataLocal : Bool) (site : Site) (message : EchoStartMessage) (place : Point)
    (pixel : EchoWorker × ℤ × ℤ) : Prop where
  own : pixel.1 ∈ ofProcessing site.deployment.db message.processingId
  listed : Lists dataLocal site message.processingId pixel.1.workerId
  finished : Finished (site.workers.history (tileURL message.processingId pixel.1.workerId))
  placed : ∃ execution source, Carries source pixel.1 ∧ source.imageURL = message.imageURL ∧
    site.workers.performed execution = (tileProgram dataLocal source).calls ∧
    PlacesPixel dataLocal (site.workers.performed execution)
      (tileURL message.processingId pixel.1.workerId) place pixel.2.1 pixel.2.2

theorem ResultFinished.lists {processingId : String}
    (result : ResultFinished dataLocal site processingId) {row : EchoWorker}
    (member : row ∈ ofProcessing site.deployment.db processingId) :
    Lists dataLocal site processingId row.workerId := by
  obtain ⟨execution, merge, ⟨rfl, tiles⟩, _, performed⟩ := result.made
  refine ⟨result.finished, execution, merge.tileURLs.map (openedTile dataLocal), ?_, ?_⟩
  · rw [performed]
    simp [SkipIfExists.Program.calls, resultProgram]
  · have listed := tiles.mem_iff.mpr (List.mem_map_of_mem member)
    exact List.mem_map_of_mem listed

section

variable {message : EchoStartMessage} {geoTransform : GeoTransform} {grid : Grid}
  (rows : (ofProcessing site.deployment.db message.processingId).map EchoWorker.cell = grid.cells)

include rows

theorem Shows.renders {i j : ℤ} {row : EchoWorker} {u v : ℤ}
    (shows : Shows dataLocal site message (GeoService.toGeo i j geoTransform) (row, u, v))
    {k : ℕ} (found : (ofProcessing site.deployment.db message.processingId)[k]? = some row) :
    Renders grid geoTransform i j (k, u, v) := by
  obtain ⟨execution, source, ⟨processing, worker, _, cell⟩, _, performed, places⟩ := shows.placed
  have own := ((mem_ofProcessing _ _ _).mp shows.own).2
  rw [performed, ← own, ← processing, ← worker, placesPixel_iff] at places
  refine ⟨row.cell, ?_, ?_⟩
  · rw [← rows, List.getElem?_map, found, Option.map_some]
  · rw [← cell]
    exact places

theorem Rendered.shows (rendered : Rendered dataLocal site message) {i j : ℤ} {k : ℕ} {u v : ℤ}
    (renders : Renders grid geoTransform i j (k, u, v)) :
    ∃ row, Shows dataLocal site message (GeoService.toGeo i j geoTransform) (row, u, v) := by
  obtain ⟨cell, atK, places⟩ := renders
  rw [← rows, List.getElem?_map] at atK
  obtain ⟨row, found, rfl⟩ := Option.map_eq_some_iff.mp atK
  have member := List.mem_of_getElem? found
  obtain ⟨finished, execution, source, carries, image, performed⟩ := rendered.tiles row member
  refine ⟨row, member, rendered.result.lists member, finished, execution, source, carries, image,
    performed, ?_⟩
  obtain ⟨processing, worker, _, cell⟩ := carries
  have own := ((mem_ofProcessing _ _ _).mp member).2
  rw [performed, ← own, ← processing, ← worker, placesPixel_iff]
  rw [← cell] at places
  exact places

end

/-- The result of the request shows each pixel of the image, and where the transform can be
inverted it shows the pixel once. -/
def ShowsOnce (dataLocal : Bool) (site : Site) (message : EchoStartMessage)
    (geoTransform : GeoTransform) (i j : ℤ) : Prop :=
  (∃ pixel, Shows dataLocal site message (GeoService.toGeo i j geoTransform) pixel) ∧
    (geoTransform.resX * geoTransform.resY ≠ geoTransform.skewX * geoTransform.skewY →
      ∀ left right, Shows dataLocal site message (GeoService.toGeo i j geoTransform) left →
        Shows dataLocal site message (GeoService.toGeo i j geoTransform) right → left = right)

theorem Rendered.showsOnce {message : EchoStartMessage}
    (rendered : Rendered dataLocal site message) :
    ∃ geoTransform, EchoService.geoTransformOf message = .ok geoTransform ∧
      ∀ i j : ℤ, 0 ≤ i → i < message.imageSizeX → 0 ≤ j → j < message.imageSizeY →
        ShowsOnce dataLocal site message geoTransform i j := by
  obtain ⟨grid, ⟨geoTransform, transform, accepted⟩, rows⟩ := rendered.grid
  refine ⟨geoTransform, transform, ?_⟩
  intro i j iLower iUpper jLower jUpper
  constructor
  · obtain ⟨⟨k, u, v⟩, renders⟩ := exists_renders accepted iLower iUpper jLower jUpper
    obtain ⟨row, shows⟩ := rendered.shows rows renders
    exact ⟨_, shows⟩
  · rintro invertible ⟨left, u, v⟩ ⟨right, s, t⟩ first second
    obtain ⟨k, atK⟩ := List.mem_iff_getElem?.mp first.own
    obtain ⟨l, atL⟩ := List.mem_iff_getElem?.mp second.own
    have same := renders_unique accepted invertible iLower iUpper jLower jUpper
      (first.renders rows atK) (second.renders rows atL)
    obtain ⟨rfl, rfl, rfl⟩ : k = l ∧ u = s ∧ v = t := by simpa using same
    obtain rfl := Option.some.inj (atK.symm.trans atL)
    rfl

theorem every_pixel_is_shown_once {events : List Event} {site : Site}
    (uuids : DrawsUuids (deployed events))
    (every : (machine dataLocal).EveryStep (Deployed Deployment.RequestsWhenConnected) initial
      events)
    (intact : (machine dataLocal).EveryStep (Intact dataLocal) initial events)
    (reached : (machine dataLocal).Runs initial events site)
    (quiescent : site.deployment.Quiescent) :
    ∀ message, Deployment.AcceptedIn (deployed events) message →
      ∃ geoTransform, EchoService.geoTransformOf message = .ok geoTransform ∧
        ∀ i j : ℤ, 0 ≤ i → i < message.imageSizeX → 0 ≤ j → j < message.imageSizeY →
          ShowsOnce dataLocal site message geoTransform i j := by
  intro message member
  obtain ⟨platform, accounted, filed⟩ := accounted_of_runs every intact reached
  have requested := (accounted.accepted message).mpr member
  exact (filed.rendered accounted uuids quiescent requested).showsOnce

theorem every_pixel_is_shown_once_restarted :
    ∃ site, (machine true).Runs initial Sample.restarted site ∧
      ∃ geoTransform, ShowsOnce true site Sample.startMessage geoTransform 1999 0 := by
  obtain ⟨site, reached, quiescent⟩ := Sample.runs_restarted
  obtain ⟨geoTransform, _, pixels⟩ := every_pixel_is_shown_once Sample.uuids_restarted
    Sample.connected_restarted Sample.intact_restarted reached quiescent _
    Sample.acceptedIn_restarted
  exact ⟨site, reached, geoTransform,
    pixels 1999 0 (by decide) (by decide) (by decide) (by decide)⟩

end EchoProcessing.Site
