/-
What the tracker answers about one processing.

A processing has a full bar from the merge callback on. Nothing lowers it again: a late
report adds a share, and a start message that is delivered again is refused.
-/

import EchoProcessing.Tracking.Estimate
import EchoProcessing.Tracking.Redelivery

namespace EchoProcessing.Tracking

structure TrackerResponse where
  processingId : String
  progress : ℤ
  lastRefresh : Instant
  creationDate : Instant
deriving DecidableEq, Repr

inductive ResponseEntity (α : Type) where
  | ok (body : α)
  | notFound
deriving DecidableEq, Repr

namespace TrackerController

open TrackerService (getProgressPercent)

def toResponse (tracker : Tracker) (estimated : Bool) (currentDate : Instant) :
    TrackerResponse :=
  { processingId := tracker.processingId
    progress := getProgressPercent tracker estimated currentDate
    lastRefresh := tracker.lastRefresh
    creationDate := tracker.creationDate }

/-- `now` is what `ZonedDateTime.now` returns. -/
def get (trackers : Trackers) (processingId : String) (estimated : Bool) (now : Instant) :
    ResponseEntity TrackerResponse :=
  match TrackerRepository.findByProcessingId trackers processingId with
  | some tracker => .ok (toResponse tracker estimated now)
  | none => .notFound

/-- The content of a page, whose rows the repository has selected. Each row is shown at a
date of its own. -/
def getAll (page : List Tracker) (estimated : Bool) (now : Tracker → Instant) :
    List TrackerResponse :=
  page.map (fun tracker => toResponse tracker estimated (now tracker))

variable {trackers : Trackers} {processingId : String} {estimated : Bool} {now : Instant}

theorem get_of_found {row : Tracker} (found : trackers.find? processingId = some row) :
    get trackers processingId estimated now = .ok (toResponse row estimated now) := by
  simp only [get, TrackerRepository.findByProcessingId, found]

theorem get_eq_ok_iff (response : TrackerResponse) :
    get trackers processingId estimated now = .ok response ↔
      ∃ row, trackers.find? processingId = some row ∧ response = toResponse row estimated now := by
  cases found : trackers.find? processingId with
  | none => simp [get, TrackerRepository.findByProcessingId, found]
  | some row =>
      rw [get_of_found found]
      simp [eq_comm]

end TrackerController

def Full (trackers : Trackers) (processingId : String) : Prop :=
  ∃ row, trackers.find? processingId = some row ∧ 10000 ≤ row.progress

private theorem progress_of_settle {delivery : Delivery} (positive : PositiveTotals delivery)
    {old : Tracker} (full : 10000 ≤ old.progress) :
    ∃ row, delivery.settle (some old) = some row ∧ 10000 ≤ row.progress := by
  obtain ⟨row, settled⟩ := settle_some delivery old
  refine ⟨row, settled, ?_⟩
  rcases settle_cases settled with same | ⟨payload, start, _⟩ |
    ⟨payload, totalWorkers, before, report, total, _, same, rfl⟩ | ⟨payload, before, _, _, rfl⟩
  · cases same
    exact full
  · -- A start message leaves the row that is there.
    have kept : delivery.settle (some old) = some old := by
      simp only [Delivery.settle, Delivery.effect, start]
    cases kept.symm.trans settled
    exact full
  · cases same
    have whole : (0 : ℤ) ≤ 9000 := by decide
    have share := Int.tdiv_nonneg whole (positive payload report totalWorkers total).le
    exact le_add_of_le_of_nonneg full share
  · exact le_refl 10000

theorem Full.handle {trackers : Trackers} {delivery : Delivery} {processingId : String}
    (full : Full trackers processingId) (positive : PositiveTotals delivery) :
    Full (Tracking.handle trackers delivery) processingId := by
  obtain ⟨row, found, reached⟩ := full
  unfold Full
  rw [find?_handle, found]
  by_cases own : delivery.message.processingId = processingId
  · rw [if_pos own]
    exact progress_of_settle positive reached
  · rw [if_neg own]
    exact ⟨row, rfl, reached⟩

theorem full_finishProcessing {trackers : Trackers} {processingId : String} (now : Instant)
    (present : trackers.find? processingId ≠ none) :
    Full (TrackerService.finishProcessing trackers processingId now) processingId := by
  obtain ⟨row, found⟩ := Option.ne_none_iff_exists'.mp present
  refine ⟨TrackerRepository.updated 10000 now 10000 0 row, ?_, le_refl 10000⟩
  unfold TrackerService.finishProcessing TrackerRepository.updateProgressByProcessingId
  rw [find?_updateAt_of_key, if_pos rfl, found, Option.map_some]

theorem full_iff_percent (row : Tracker) (now : Instant) :
    10000 ≤ row.progress ↔ 100 ≤ (TrackerController.toResponse row false now).progress := by
  change 10000 ≤ row.progress ↔ 100 ≤ TrackerService.getProgressPercent row false now
  rw [getProgressPercent_plain]
  have bounds := tdiv_hundred_bounds row.progress
  omega

theorem full_iff_get (trackers : Trackers) (processingId : String) (now : Instant) :
    Full trackers processingId ↔
      ∃ response, TrackerController.get trackers processingId false now = .ok response ∧
        100 ≤ response.progress := by
  constructor
  · rintro ⟨row, found, reached⟩
    exact ⟨_, TrackerController.get_of_found found, (full_iff_percent row now).mp reached⟩
  · rintro ⟨response, answered, finished⟩
    obtain ⟨row, found, rfl⟩ := (TrackerController.get_eq_ok_iff _).mp answered
    exact ⟨row, found, (full_iff_percent row now).mpr finished⟩

end EchoProcessing.Tracking
