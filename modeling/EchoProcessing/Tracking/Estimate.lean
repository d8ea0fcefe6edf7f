/-
The percentage that the tracker shows between two reports.

The source takes the milliseconds out of a signed duration, whose nanosecond part is
counted back from the date of the row and starts again every second, and it multiplies
them in 32 bits. So the bar follows its velocity only where there is nothing to see:
without a velocity, or at the cap.
-/

import EchoProcessing.Tracking.Rows
import EchoProcessing.Library.WrappingInt
import Mathlib.Tactic.Linarith

namespace EchoProcessing.Tracking

open TrackerRepository (incremented updated)
open TrackerService (newTracker)
open WrappingInt (wrap Fits)

/-- Signed, in nanoseconds. -/
abbrev Duration := ℤ

def nanosOfMilli : ℤ := 1000000

namespace Duration

def between (startInclusive endExclusive : Instant) : Duration :=
  endExclusive - startInclusive

/-- The seconds are rounded down, so that this part is never negative. -/
def getNano (duration : Duration) : ℤ :=
  duration % nanosOfSecond

end Duration

namespace TrackerService

/-- The sum and the product are those of the source's `int`. -/
def getProgressPercent (tracker : Tracker) (estimated : Bool) (currentDate : Instant) : ℤ :=
  if estimated then
    let nano := Duration.getNano (Duration.between currentDate tracker.lastRefresh)
    let progressEstimated :=
      wrap 32 (tracker.progress + wrap 32 (nano.tdiv nanosOfMilli * tracker.velocity))
    min (progressEstimated.tdiv 100) (tracker.maxProgress.tdiv 100)
  else tracker.progress.tdiv 100

end TrackerService

open TrackerService (getProgressPercent)

/-- The three columns hold an `Integer`, and no velocity points backwards. -/
structure FitsColumns (row : Tracker) : Prop where
  progress : Fits 32 row.progress
  maxProgress : Fits 32 row.maxProgress
  velocity : Fits 32 row.velocity
  forward : 0 ≤ row.velocity

/-- The rows reachable by the three methods, whatever velocity an update stored. -/
inductive Written : Tracker → Prop
  | start (processingId : String) (currentDate : Instant) :
      Written (newTracker processingId currentDate)
  | update {row : Tracker} (totalWorkers : ℤ) (currentDate : Instant) (velocity : ℤ)
      (written : Written row) (divides : totalWorkers ≠ 0)
      (fits : FitsColumns
        { incremented (Int.tdiv 9000 totalWorkers) (Int.tdiv (2 * 9000) totalWorkers)
            currentDate row with velocity := velocity }) :
      Written
        { incremented (Int.tdiv 9000 totalWorkers) (Int.tdiv (2 * 9000) totalWorkers)
            currentDate row with velocity := velocity }
  | finish {row : Tracker} (currentDate : Instant) (written : Written row) :
      Written (updated 10000 currentDate 10000 0 row)

private theorem Written.fitsColumns {row : Tracker} (written : Written row) : FitsColumns row := by
  have empty : Fits 32 0 := by decide
  have full : Fits 32 10000 := by decide
  cases written with
  | start processingId currentDate => exact ⟨empty, empty, empty, le_refl 0⟩
  | update totalWorkers currentDate velocity written divides fits => exact fits
  | finish currentDate written => exact ⟨full, full, empty, le_refl 0⟩

/-- The database stores what the listener wrote, and the dates do not go back. -/
def Stored (before : Trackers) (delivery : Delivery) : Prop :=
  ∀ row, (handle before delivery).find? delivery.message.processingId = some row →
    FitsColumns row

private theorem written_of_settle {delivery : Delivery} {before : Option Tracker} {row : Tracker}
    (written : ∀ old, before = some old → Written old) (settled : delivery.settle before = some row)
    (fits : FitsColumns row) : Written row := by
  rcases settle_cases settled with same | ⟨payload, _, rfl⟩ |
    ⟨payload, totalWorkers, old, _, _, divides, found, rfl⟩ | ⟨payload, old, _, found, rfl⟩
  · exact written row same
  · exact Written.start payload.processingId delivery.now
  · exact (written old found).update totalWorkers delivery.now _ divides fits
  · exact (written old found).finish delivery.now

theorem written_of_runs {deliveries : List Delivery} {trackers : Trackers}
    {processingId : String} {row : Tracker}
    (stored : tracker.EveryStep Stored KeyedTable.empty deliveries)
    (reached : tracker.Runs KeyedTable.empty deliveries trackers)
    (found : trackers.find? processingId = some row) : Written row := by
  refine rows_of_runs ?_ stored reached found
  intro state delivery row stored written settled
  have fits := stored row
  rw [find?_handle, if_pos rfl] at fits
  exact written_of_settle written settled (fits settled)

def PositiveTotals (delivery : Delivery) : Prop :=
  ∀ payload, delivery.message = .workerCallback payload →
    ∀ totalWorkers, payload.trackerTotalWorkers = some totalWorkers → 0 < totalWorkers

def Tracker.Ordered (row : Tracker) : Prop :=
  0 ≤ row.progress ∧ row.progress ≤ row.maxProgress

theorem ordered_of_settle {delivery : Delivery} {before : Option Tracker} {row : Tracker}
    (positive : PositiveTotals delivery) (ordered : ∀ old, before = some old → old.Ordered)
    (settled : delivery.settle before = some row) : row.Ordered := by
  rcases settle_cases settled with same | ⟨payload, _, rfl⟩ |
    ⟨payload, totalWorkers, old, reported, total, _, found, rfl⟩ | ⟨payload, old, _, found, rfl⟩
  · exact ordered row same
  · exact ⟨le_refl 0, le_refl 0⟩
  · have divisor := positive payload reported totalWorkers total
    have nonneg := (ordered old found).1
    have share : 0 ≤ Int.tdiv 9000 totalWorkers := Int.tdiv_nonneg (by decide) divisor.le
    have shares : Int.tdiv 9000 totalWorkers ≤ Int.tdiv (2 * 9000) totalWorkers :=
      Int.tdiv_le_tdiv divisor (by decide)
    exact ⟨Int.add_nonneg nonneg share, Int.add_le_add_left shares old.progress⟩
  · have full : (0 : ℤ) ≤ 10000 := by decide
    exact ⟨full, le_refl 10000⟩

/-- From `progress` on by `velocity` a millisecond, up to the cap. -/
def definedPercent (row : Tracker) (currentDate : Instant) : ℤ :=
  min ((row.progress +
      row.velocity * (currentDate - row.lastRefresh).tdiv nanosOfMilli).tdiv 100)
    (row.maxProgress.tdiv 100)

structure EstimatedAsDefined (row : Tracker) : Prop where
  exact : ∀ currentDate, row.lastRefresh ≤ currentDate →
    getProgressPercent row true currentDate = definedPercent row currentDate
  notBelow : ∀ currentDate, row.lastRefresh ≤ currentDate →
    getProgressPercent row false currentDate ≤ getProgressPercent row true currentDate
  nonneg : ∀ currentDate, row.lastRefresh ≤ currentDate →
    0 ≤ getProgressPercent row true currentDate
  grows : ∀ earlier later, row.lastRefresh ≤ earlier → earlier ≤ later →
    getProgressPercent row true earlier ≤ getProgressPercent row true later

theorem tdiv_hundred_bounds (value : ℤ) :
    (0 ≤ value → 0 ≤ value.tdiv 100 ∧ 100 * value.tdiv 100 ≤ value ∧
      value < 100 * value.tdiv 100 + 100) ∧
    (value ≤ 0 → value.tdiv 100 ≤ 0 ∧ value ≤ 100 * value.tdiv 100 ∧
      100 * value.tdiv 100 - 100 < value) := by
  constructor
  · intro nonneg
    rw [Int.tdiv_eq_ediv_of_nonneg nonneg]
    omega
  · intro nonpos
    have opposite := Int.neg_tdiv (a := -value) (b := 100)
    rw [neg_neg, Int.tdiv_eq_ediv_of_nonneg (by omega : 0 ≤ -value)] at opposite
    rw [opposite]
    omega

theorem tdiv_hundred_mono {left right : ℤ} (ordered : left ≤ right) :
    left.tdiv 100 ≤ right.tdiv 100 := by
  have leftBounds := tdiv_hundred_bounds left
  have rightBounds := tdiv_hundred_bounds right
  omega

def countedMillis (row : Tracker) (currentDate : Instant) : ℤ :=
  (Duration.getNano (Duration.between currentDate row.lastRefresh)).tdiv nanosOfMilli

private theorem countedMillis_range (row : Tracker) (currentDate : Instant) :
    0 ≤ countedMillis row currentDate ∧ countedMillis row currentDate ≤ 999 := by
  unfold countedMillis Duration.getNano nanosOfMilli nanosOfSecond
  rw [Int.tdiv_eq_ediv_of_nonneg (Int.emod_nonneg _ (by decide))]
  omega

def dateOfMillis (row : Tracker) (millis : ℤ) : Instant :=
  row.lastRefresh + (1000 - millis) * nanosOfMilli

private theorem lastRefresh_le_dateOfMillis (row : Tracker) {millis : ℤ} (below : millis ≤ 999) :
    row.lastRefresh ≤ dateOfMillis row millis := by
  have later : 0 ≤ (1000 - millis) * nanosOfMilli :=
    mul_nonneg (by omega) (by decide)
  unfold dateOfMillis
  linarith

private theorem countedMillis_dateOfMillis (row : Tracker) {millis : ℤ} (nonneg : 0 ≤ millis)
    (below : millis ≤ 999) : countedMillis row (dateOfMillis row millis) = millis := by
  have signed : Duration.between (dateOfMillis row millis) row.lastRefresh =
      millis * nanosOfMilli + (-1) * nanosOfSecond := by
    unfold Duration.between dateOfMillis nanosOfMilli nanosOfSecond
    ring
  have part : 0 ≤ millis * nanosOfMilli ∧ millis * nanosOfMilli < nanosOfSecond := by
    unfold nanosOfMilli nanosOfSecond
    omega
  unfold countedMillis Duration.getNano
  rw [signed, Int.add_mul_emod_self_right, Int.emod_eq_of_lt part.1 part.2,
    Int.mul_tdiv_cancel _ (by decide)]

private theorem definedPercent_dateOfMillis (row : Tracker) (millis : ℤ) :
    definedPercent row (dateOfMillis row millis) =
      min ((row.progress + row.velocity * (1000 - millis)).tdiv 100)
        (row.maxProgress.tdiv 100) := by
  have elapsed : dateOfMillis row millis - row.lastRefresh = (1000 - millis) * nanosOfMilli := by
    unfold dateOfMillis
    ring
  unfold definedPercent
  rw [elapsed, Int.mul_tdiv_cancel _ (by decide)]

theorem getProgressPercent_estimated (row : Tracker) (currentDate : Instant) :
    getProgressPercent row true currentDate =
      min ((wrap 32 (row.progress + countedMillis row currentDate * row.velocity)).tdiv 100)
        (row.maxProgress.tdiv 100) := by
  change min (Int.tdiv (wrap 32 (row.progress + wrap 32 (_ * _))) 100) _ = _
  rw [WrappingInt.wrap_add_wrap]
  rfl

theorem getProgressPercent_plain (row : Tracker) (currentDate : Instant) :
    getProgressPercent row false currentDate = row.progress.tdiv 100 := rfl

/-- There is no velocity, or the bar stands at its cap and the product fits. -/
def Resting (row : Tracker) : Prop :=
  0 ≤ row.progress.tdiv 100 ∧ row.progress.tdiv 100 ≤ row.maxProgress.tdiv 100 ∧
    (row.velocity = 0 ∨
      (row.progress.tdiv 100 = row.maxProgress.tdiv 100 ∧
        row.progress + 999 * row.velocity ≤ 2147483647))

instance (row : Tracker) : Decidable (Resting row) :=
  inferInstanceAs (Decidable (_ ∧ _ ∧ (_ ∨ _ ∧ _)))

private theorem Resting.getProgressPercent_eq {row : Tracker} (resting : Resting row)
    (fits : FitsColumns row) (currentDate : Instant) :
    getProgressPercent row true currentDate = row.progress.tdiv 100 := by
  obtain ⟨_, below, still⟩ := resting
  rw [getProgressPercent_estimated]
  rcases still with none | ⟨atCap, room⟩
  · rw [none, mul_zero, add_zero, WrappingInt.wrap_of_fits fits.progress, min_eq_left below]
  · obtain ⟨nonneg, most⟩ := countedMillis_range row currentDate
    have added := mul_nonneg nonneg fits.forward
    have bounded := mul_le_mul_of_nonneg_right most fits.forward
    have low := fits.progress.1
    have inside : Fits 32 (row.progress + countedMillis row currentDate * row.velocity) := by
      constructor <;> linarith
    rw [WrappingInt.wrap_of_fits inside, ← atCap, min_eq_right]
    exact tdiv_hundred_mono (by linarith)

private theorem Resting.definedPercent_eq {row : Tracker} (resting : Resting row)
    (forward : 0 ≤ row.velocity) {currentDate : Instant} (after : row.lastRefresh ≤ currentDate) :
    definedPercent row currentDate = row.progress.tdiv 100 := by
  obtain ⟨_, below, still⟩ := resting
  unfold definedPercent
  rcases still with none | ⟨atCap, _⟩
  · rw [none, zero_mul, add_zero, min_eq_left below]
  · have elapsed : 0 ≤ (currentDate - row.lastRefresh).tdiv nanosOfMilli :=
      Int.tdiv_nonneg (by linarith) (by decide)
    have added := mul_nonneg forward elapsed
    rw [← atCap, min_eq_right]
    exact tdiv_hundred_mono (by linarith)

private theorem Resting.estimatedAsDefined {row : Tracker} (resting : Resting row)
    (fits : FitsColumns row) : EstimatedAsDefined row where
  exact currentDate after := by
    rw [resting.getProgressPercent_eq fits, resting.definedPercent_eq fits.forward after]
  notBelow currentDate _ := by
    rw [resting.getProgressPercent_eq fits, getProgressPercent_plain]
  nonneg currentDate _ := by
    rw [resting.getProgressPercent_eq fits]
    exact resting.1
  grows earlier later _ _ := by
    rw [resting.getProgressPercent_eq fits, resting.getProgressPercent_eq fits]

namespace EstimatedAsDefined

variable {row : Tracker} (asDefined : EstimatedAsDefined row)

include asDefined

theorem within_second {millis : ℤ} (nonneg : 0 ≤ millis) (below : millis ≤ 999) :
    min ((wrap 32 (row.progress + millis * row.velocity)).tdiv 100) (row.maxProgress.tdiv 100) =
      min ((row.progress + row.velocity * (1000 - millis)).tdiv 100)
        (row.maxProgress.tdiv 100) := by
  have same := asDefined.exact _ (lastRefresh_le_dateOfMillis row below)
  rwa [getProgressPercent_estimated, countedMillis_dateOfMillis row nonneg below,
    definedPercent_dateOfMillis] at same

theorem ordered (fits : FitsColumns row) :
    0 ≤ row.progress.tdiv 100 ∧ row.progress.tdiv 100 ≤ row.maxProgress.tdiv 100 := by
  have atZero := lastRefresh_le_dateOfMillis row (by omega : (0 : ℤ) ≤ 999)
  have shown : getProgressPercent row true (dateOfMillis row 0) =
      min (row.progress.tdiv 100) (row.maxProgress.tdiv 100) := by
    rw [getProgressPercent_estimated, countedMillis_dateOfMillis row (le_refl 0) (by omega),
      zero_mul, add_zero, WrappingInt.wrap_of_fits fits.progress]
  have nonneg := asDefined.nonneg _ atZero
  have notBelow := asDefined.notBelow _ atZero
  rw [shown] at nonneg
  rw [shown, getProgressPercent_plain] at notBelow
  exact ⟨(le_min_iff.mp nonneg).1, (le_min_iff.mp notBelow).2⟩

theorem atCap (fits : FitsColumns row) (moving : 0 < row.velocity) :
    row.progress.tdiv 100 = row.maxProgress.tdiv 100 := by
  have whole := asDefined.within_second (le_refl 0) (by omega)
  rw [zero_mul, add_zero, WrappingInt.wrap_of_fits fits.progress] at whole
  have ordered := asDefined.ordered fits
  have before := tdiv_hundred_bounds row.progress
  have after := tdiv_hundred_bounds (row.progress + row.velocity * (1000 - 0))
  omega

private theorem cap_le (fits : FitsColumns row) (moving : 0 < row.velocity) {millis : ℤ}
    (nonneg : 0 ≤ millis) (below : millis ≤ 999) :
    row.maxProgress.tdiv 100 ≤
      (wrap 32 (row.progress + millis * row.velocity)).tdiv 100 := by
  have added : 0 ≤ row.velocity * (1000 - millis) :=
    mul_nonneg fits.forward (by omega)
  have reached := tdiv_hundred_mono (by linarith :
    row.progress ≤ row.progress + row.velocity * (1000 - millis))
  have same := asDefined.within_second nonneg below
  rw [asDefined.atCap fits moving] at reached
  rw [min_eq_right reached] at same
  exact min_eq_right_iff.mp same

/-- A product that reads as a negative number is less than one percent below zero, so
the bar is empty and the velocity close to the greatest one. -/
theorem two_of_first_above (fits : FitsColumns row) (moving : 0 < row.velocity) {last : ℕ}
    (bound : last + 1 ≤ 999) (inside : (row.progress + last * row.velocity) * 2 < 2 ^ 32)
    (wrapped : wrap 32 (row.progress + (last + 1) * row.velocity) =
      row.progress + (last + 1) * row.velocity - 2 ^ 32) :
    last = 1 ∧ -100 < row.progress + 2 * row.velocity - 2 ^ 32 ∧ row.progress < 100 ∧
      row.maxProgress.tdiv 100 = 0 := by
  have capped := asDefined.cap_le fits moving (by omega : (0 : ℤ) ≤ last + 1) (by omega)
  have next : (last + 1) * row.velocity = last * row.velocity + row.velocity := by ring
  have negative := tdiv_hundred_bounds
    (row.progress + (last * row.velocity + row.velocity) - 2 ^ 32)
  have bar := tdiv_hundred_bounds row.progress
  have atCap := asDefined.atCap fits moving
  have ordered := asDefined.ordered fits
  have greatest := fits.velocity.2
  rw [wrapped, next] at capped
  have first : last = 1 := by
    rcases last with _ | _ | more
    · rw [Nat.cast_zero, zero_mul] at capped negative
      omega
    · rfl
    · have doubled : 2 * row.velocity ≤ ((more + 1 + 1 : ℕ) : ℤ) * row.velocity :=
        mul_le_mul_of_nonneg_right (by omega) fits.forward
      omega
  rw [first, Nat.cast_one, one_mul] at capped negative inside
  refine ⟨first, ?_, ?_, ?_⟩ <;> omega

/-- The first product that does not fit reads as a negative number; where that shows as
zero percent, the one of 998 milliseconds does not. -/
theorem room (fits : FitsColumns row) (moving : 0 < row.velocity) :
    row.progress + 999 * row.velocity ≤ 2147483647 := by
  by_contra above
  obtain ⟨last, bound, inside, _, wrapped⟩ :=
    WrappingInt.exists_first_above fits.progress fits.velocity 999 (by push_cast; omega)
  obtain ⟨_, close, empty, cap⟩ :=
    asDefined.two_of_first_above fits moving bound inside wrapped
  have greatest := fits.velocity.2
  have bar := tdiv_hundred_bounds row.progress
  have ordered := asDefined.ordered fits
  have turned : wrap 32 (row.progress + 998 * row.velocity) =
      row.progress + 998 * row.velocity - 499 * 2 ^ 32 := by
    apply WrappingInt.wrap_of_fits_sub
    constructor <;> omega
  have capped := asDefined.cap_le fits moving (by omega : (0 : ℤ) ≤ 998) (by omega)
  have negative := tdiv_hundred_bounds (row.progress + 998 * row.velocity - 499 * 2 ^ 32)
  rw [turned] at capped
  omega

private theorem resting (fits : FitsColumns row) : Resting row := by
  obtain ⟨nonneg, below⟩ := asDefined.ordered fits
  refine ⟨nonneg, below, ?_⟩
  rcases fits.forward.eq_or_lt with none | moving
  · exact Or.inl none.symm
  · exact Or.inr ⟨asDefined.atCap fits moving, asDefined.room fits moving⟩

end EstimatedAsDefined

namespace Sample

def halfway : Tracker :=
  { processingId := "p"
    progress := 4500
    creationDate := 0
    lastRefresh := 10 * nanosOfSecond
    velocity := 20000
    maxProgress := 9000 }

private theorem halfway_written : Written halfway := by
  have created := Written.start "p" 0
  exact created.update 2 (10 * nanosOfSecond) 20000 (by decide)
    ⟨by decide, by decide, by decide, by decide⟩

end Sample

/-- The estimate is the one of the data model exactly where it has nothing to add. -/
theorem estimated_as_defined_iff {row : Tracker} (written : Written row) :
    EstimatedAsDefined row ↔ Resting row :=
  ⟨fun asDefined => asDefined.resting written.fitsColumns,
    fun resting => resting.estimatedAsDefined written.fitsColumns⟩

theorem estimated_as_defined_iff_finished :
    EstimatedAsDefined (updated 10000 (20 * nanosOfSecond) 10000 0 Sample.halfway) :=
  (estimated_as_defined_iff (Sample.halfway_written.finish (20 * nanosOfSecond))).mpr
    (by decide)

/-- A millisecond after the report the bar shows its cap, a second after the report it
shows the report again. -/
theorem estimate_goes_back :
    Written Sample.halfway ∧
      getProgressPercent Sample.halfway true (10 * nanosOfSecond + nanosOfMilli) = 90 ∧
      getProgressPercent Sample.halfway true (11 * nanosOfSecond) = 45 ∧
      definedPercent Sample.halfway (11 * nanosOfSecond) = 90 ∧
      ¬EstimatedAsDefined Sample.halfway := by
  have early : getProgressPercent Sample.halfway true (10 * nanosOfSecond + nanosOfMilli) = 90 :=
    by decide
  have late : getProgressPercent Sample.halfway true (11 * nanosOfSecond) = 45 := by decide
  refine ⟨Sample.halfway_written, early, late, by decide, ?_⟩
  intro asDefined
  have grown := asDefined.grows (10 * nanosOfSecond + nanosOfMilli) (11 * nanosOfSecond)
    (by decide) (by decide)
  rw [early, late] at grown
  exact absurd grown (by decide)

end EchoProcessing.Tracking
