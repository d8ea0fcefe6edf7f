/-
The velocity that the query stores against the progress per millisecond.

The query assembles the elapsed time from its date parts and divides nothing by it. The
bracketing leaves the whole minutes as seconds, and the part named milliseconds counts the
seconds again.
-/

import EchoProcessing.Tracking.Estimate

namespace EchoProcessing.Tracking

open TrackerRepository (incremented incrementProgressByProcessingId velocity)
open TrackerService (newTracker)
open WrappingInt (Fits)

def elapsedMillis (lastRefresh oldLastRefresh : Instant) : ℚ :=
  ((lastRefresh - oldLastRefresh : ℤ) : ℚ) / nanosOfMilli

/-- The sum of the query, before it goes into an integer column. -/
def assembledMillis (lastRefresh oldLastRefresh : Instant) : ℚ :=
  let interval := Interval.between lastRefresh oldLastRefresh
  ((interval.day * 24 + interval.hour) * 60 + interval.minute) * 60 +
    interval.second * 1000 + interval.milliseconds

private theorem velocity_eq (lastRefresh oldLastRefresh : Instant) :
    velocity lastRefresh oldLastRefresh =
      toIntegerColumn (assembledMillis lastRefresh oldLastRefresh) := rfl

private theorem toIntegerColumn_intCast (value : ℤ) : toIntegerColumn value = value := by
  have floored : (value : ℚ).floor = value := Rat.floor_intCast value
  have rest : (value : ℚ) - ((value : ℚ).floor : ℚ) < 1 / 2 := by
    rw [floored, sub_self]
    norm_num
  exact (if_pos rest).trans floored

private theorem toIntegerColumn_le {value : ℚ} {bound : ℤ} (below : value ≤ bound) :
    toIntegerColumn value ≤ bound := by
  have floored : value.floor ≤ bound := by
    have least := Rat.floor_le value
    exact_mod_cast least.trans below
  unfold toIntegerColumn
  by_cases whole : value.floor = bound
  · have rest : value - (value.floor : ℚ) < 1 / 2 := by
      rw [whole]
      linarith
    rw [if_pos rest]
    exact floored
  · have room : value.floor + 1 ≤ bound := by omega
    dsimp only
    split_ifs <;> omega

private theorem whole_minutes {elapsed : ℤ} (nonneg : 0 ≤ elapsed) :
    (elapsed.tdiv nanosOfDay * 24 + (elapsed.tmod nanosOfDay).tdiv nanosOfHour) * 60 +
      (elapsed.tmod nanosOfHour).tdiv nanosOfMinute = elapsed / nanosOfMinute := by
  rw [Int.tmod_eq_emod_of_nonneg nonneg, Int.tmod_eq_emod_of_nonneg nonneg,
    Int.tdiv_eq_ediv_of_nonneg nonneg,
    Int.tdiv_eq_ediv_of_nonneg (Int.emod_nonneg _ (by decide)),
    Int.tdiv_eq_ediv_of_nonneg (Int.emod_nonneg _ (by decide))]
  unfold nanosOfDay nanosOfHour nanosOfMinute nanosOfSecond
  omega

theorem assembledMillis_eq {lastRefresh oldLastRefresh : Instant}
    (after : oldLastRefresh ≤ lastRefresh) :
    assembledMillis lastRefresh oldLastRefresh =
      60 * ((lastRefresh - oldLastRefresh) / nanosOfMinute : ℤ) +
        2 * (((lastRefresh - oldLastRefresh) % nanosOfMinute : ℤ) / nanosOfMilli) := by
  have nonneg : 0 ≤ lastRefresh - oldLastRefresh := by linarith
  have minutes : (((lastRefresh - oldLastRefresh).tdiv nanosOfDay : ℚ) * 24 +
      ((lastRefresh - oldLastRefresh).tmod nanosOfDay).tdiv nanosOfHour) * 60 +
        ((lastRefresh - oldLastRefresh).tmod nanosOfHour).tdiv nanosOfMinute =
          ((lastRefresh - oldLastRefresh) / nanosOfMinute : ℤ) := by
    exact_mod_cast whole_minutes nonneg
  have rest : (lastRefresh - oldLastRefresh).tmod nanosOfMinute =
      (lastRefresh - oldLastRefresh) % nanosOfMinute := Int.tmod_eq_emod_of_nonneg nonneg
  unfold assembledMillis Interval.milliseconds Interval.between
  dsimp only
  rw [minutes, rest]
  unfold nanosOfSecond nanosOfMilli
  push_cast
  ring

theorem assembledMillis_eq_elapsedMillis_iff_nanos {lastRefresh oldLastRefresh : Instant}
    (after : oldLastRefresh ≤ lastRefresh) :
    assembledMillis lastRefresh oldLastRefresh = elapsedMillis lastRefresh oldLastRefresh ↔
      60 * nanosOfMilli * ((lastRefresh - oldLastRefresh) / nanosOfMinute) +
        2 * ((lastRefresh - oldLastRefresh) % nanosOfMinute) = lastRefresh - oldLastRefresh := by
  have milli : (nanosOfMilli : ℚ) ≠ 0 := by norm_num [nanosOfMilli]
  rw [assembledMillis_eq after, elapsedMillis, eq_div_iff milli, ← Int.cast_inj (α := ℚ)]
  push_cast
  constructor
  · intro same
    rw [← same]
    field_simp
  · intro same
    rw [← same]
    field_simp

private theorem elapsedMillis_eq_iff {lastRefresh oldLastRefresh : Instant} (millis : ℤ) :
    elapsedMillis lastRefresh oldLastRefresh = millis ↔
      lastRefresh - oldLastRefresh = millis * nanosOfMilli := by
  have milli : (nanosOfMilli : ℚ) ≠ 0 := by norm_num [nanosOfMilli]
  rw [elapsedMillis, div_eq_iff milli]
  exact_mod_cast Iff.rfl

private theorem nanos_of_assembled {nanos : ℤ} (positive : 0 < nanos) :
    60 * nanosOfMilli * (nanos / nanosOfMinute) + 2 * (nanos % nanosOfMinute) = nanos ↔
      nanos = 119940 * nanosOfMilli := by
  unfold nanosOfMilli nanosOfMinute nanosOfSecond
  omega

theorem assembledMillis_eq_elapsedMillis_iff {lastRefresh oldLastRefresh : Instant}
    (after : oldLastRefresh < lastRefresh) :
    assembledMillis lastRefresh oldLastRefresh = elapsedMillis lastRefresh oldLastRefresh ↔
      elapsedMillis lastRefresh oldLastRefresh = (119940 : ℤ) := by
  rw [assembledMillis_eq_elapsedMillis_iff_nanos after.le, elapsedMillis_eq_iff]
  exact nanos_of_assembled (by linarith)

private theorem lt_of_elapsedMillis {lastRefresh oldLastRefresh : Instant}
    (elapsed : 1 ≤ elapsedMillis lastRefresh oldLastRefresh) : oldLastRefresh < lastRefresh := by
  have milli : (0 : ℚ) < nanosOfMilli := by norm_num [nanosOfMilli]
  rw [elapsedMillis, le_div_iff₀ milli, one_mul] at elapsed
  have nanos : nanosOfMilli ≤ lastRefresh - oldLastRefresh := by exact_mod_cast elapsed
  unfold nanosOfMilli at nanos
  linarith

theorem find?_incrementProgress {trackers : Trackers} {processingId : String} {row : Tracker}
    (found : trackers.find? processingId = some row) (deltaProgress deltaMaxProgress : ℤ)
    (lastRefresh : Instant) :
    (incrementProgressByProcessingId trackers processingId deltaProgress deltaMaxProgress
      lastRefresh).find? processingId =
        some (incremented deltaProgress deltaMaxProgress lastRefresh row) := by
  unfold incrementProgressByProcessingId
  rw [find?_updateAt_of_key, if_pos rfl, found]
  rfl

/-- No update stores the progress it gained for each millisecond, and the time that it
assembles is the elapsed time for one length only. -/
theorem velocity_is_never_as_defined {trackers : Trackers} {processingId : String}
    {row : Tracker} (found : trackers.find? processingId = some row)
    {deltaProgress : ℤ} (fits : Fits 32 deltaProgress) (deltaMaxProgress : ℤ)
    {lastRefresh : Instant}
    (elapsed : 1 ≤ elapsedMillis lastRefresh row.lastRefresh) :
    ∃ stored, (incrementProgressByProcessingId trackers processingId deltaProgress
        deltaMaxProgress lastRefresh).find? processingId = some stored ∧
      (assembledMillis lastRefresh row.lastRefresh =
          elapsedMillis lastRefresh row.lastRefresh ↔
        elapsedMillis lastRefresh row.lastRefresh = (119940 : ℤ)) ∧
      ¬(stored.velocity =
            toIntegerColumn (deltaProgress / elapsedMillis lastRefresh row.lastRefresh) ∧
          assembledMillis lastRefresh row.lastRefresh =
            elapsedMillis lastRefresh row.lastRefresh) := by
  have iff := assembledMillis_eq_elapsedMillis_iff (lt_of_elapsedMillis elapsed)
  refine ⟨_, find?_incrementProgress found deltaProgress deltaMaxProgress lastRefresh, iff, ?_⟩
  rintro ⟨same, assembled⟩
  have length := iff.mp assembled
  change velocity lastRefresh row.lastRefresh = _ at same
  rw [velocity_eq, assembled, length, toIntegerColumn_intCast] at same
  have greatest : deltaProgress ≤ 2147483647 := by
    have high := fits.2
    omega
  have small : (deltaProgress : ℚ) / ((119940 : ℤ) : ℚ) ≤ ((17905 : ℤ) : ℚ) := by
    rw [div_le_iff₀ (by norm_num)]
    exact_mod_cast greatest.trans (by norm_num)
  have rounded := toIntegerColumn_le small
  omega

namespace Sample

def created : Trackers :=
  handle KeyedTable.empty { message := .start start, now := 0 }

private theorem created_find? : created.find? "p" = some (newTracker "p" 0) := rfl

private theorem elapsedMillis_ten_seconds : elapsedMillis (10 * nanosOfSecond) 0 = 10000 := by
  norm_num [elapsedMillis, nanosOfSecond, nanosOfMilli]

end Sample

theorem velocity_is_never_as_defined_ten_seconds :
    ∃ stored, (incrementProgressByProcessingId Sample.created "p" 10 20
        (10 * nanosOfSecond)).find? "p" = some stored ∧
      ¬(stored.velocity =
            toIntegerColumn ((10 : ℤ) / elapsedMillis (10 * nanosOfSecond) 0) ∧
          assembledMillis (10 * nanosOfSecond) 0 = elapsedMillis (10 * nanosOfSecond) 0) := by
  have elapsed : 1 ≤ elapsedMillis (10 * nanosOfSecond) 0 := by
    rw [Sample.elapsedMillis_ten_seconds]
    norm_num
  obtain ⟨stored, found, _, never⟩ :=
    velocity_is_never_as_defined Sample.created_find? (by decide : Fits 32 10) 20 elapsed
  exact ⟨stored, found, never⟩

/-- Ten on ten thousand in ten seconds are a thousandth a millisecond, which rounds to
zero; twenty thousand is stored. -/
theorem seconds_are_counted_twice :
    ∃ stored, (incrementProgressByProcessingId Sample.created "p" 10 20
        (10 * nanosOfSecond)).find? "p" = some stored ∧
      stored.velocity = 20000 ∧
      toIntegerColumn ((10 : ℤ) / elapsedMillis (10 * nanosOfSecond) 0) = 0 ∧
      assembledMillis (10 * nanosOfSecond) 0 = 20000 ∧
      elapsedMillis (10 * nanosOfSecond) 0 = 10000 := by
  refine ⟨_, find?_incrementProgress Sample.created_find? 10 20 _, ?_, ?_, ?_,
    Sample.elapsedMillis_ten_seconds⟩
  · decide +kernel
  · rw [Sample.elapsedMillis_ten_seconds]
    decide +kernel
  · decide +kernel

end EchoProcessing.Tracking
