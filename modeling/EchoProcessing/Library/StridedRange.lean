/-
The values taken by a counting loop whose step need not divide its limit.

`strideFrom` is the loop `for (x = start; x < limit; x += step)`. The fuel is
the distance to the limit, which every positive step exhausts; `strideFrom_eq`
is the loop equation without it.
-/

import Mathlib.Data.List.Nodup
import Mathlib.Data.List.Range
import Mathlib.Data.Int.Basic
import Mathlib.Tactic.Linarith
import Mathlib.Tactic.Ring
import Mathlib.Algebra.Order.Floor.Semiring
import Mathlib.Data.Rat.Floor

namespace EchoProcessing.StridedRange

def strideLoop (step limit : ℤ) : ℕ → ℤ → List ℤ
  | 0, _ => []
  | fuel + 1, value =>
      if value < limit then value :: strideLoop step limit fuel (value + step) else []

def strideFrom (step limit start : ℤ) : List ℤ :=
  strideLoop step limit (limit - start).toNat start

def stride (step limit : ℤ) : List ℤ :=
  strideFrom step limit 0

def strideCount (step limit start : ℤ) : ℕ :=
  ((limit - start + (step - 1)) / step).toNat

private theorem strideCount_stop {step limit start : ℤ} (positive : 1 ≤ step)
    (stop : limit ≤ start) : strideCount step limit start = 0 := by
  unfold strideCount
  apply Int.toNat_eq_zero.mpr
  have below : limit - start + (step - 1) < 1 * step := by omega
  have quotient := Int.ediv_lt_of_lt_mul (by omega : 0 < step) below
  omega

private theorem strideCount_next {step limit start : ℤ} (positive : 1 ≤ step)
    (more : start < limit) :
    strideCount step limit start = strideCount step limit (start + step) + 1 := by
  unfold strideCount
  have shifted : limit - start + (step - 1) =
      (limit - (start + step) + (step - 1)) + step * 1 := by ring
  rw [shifted, Int.add_mul_ediv_left _ _ (by omega : step ≠ 0)]
  have nonnegative : 0 ≤ (limit - (start + step) + (step - 1)) / step :=
    Int.ediv_nonneg (by omega) (by omega)
  omega

private theorem strideLoop_eq_map {step limit : ℤ} (positive : 1 ≤ step) :
    ∀ (fuel : ℕ) (start : ℤ), limit - start ≤ fuel →
      strideLoop step limit fuel start =
        (List.range (strideCount step limit start)).map (fun turn : ℕ => start + turn * step) := by
  intro fuel
  induction fuel with
  | zero =>
      intro start enough
      rw [strideCount_stop positive (by omega)]
      rfl
  | succ fuel ih =>
      intro start enough
      by_cases more : start < limit
      · rw [strideLoop, if_pos more, ih (start + step) (by omega),
          strideCount_next positive more, List.range_succ_eq_map, List.map_cons, List.map_map]
        congr 1
        · simp
        · apply List.map_congr_left
          intro turn _
          simp only [Function.comp_apply, Nat.cast_succ]
          ring
      · rw [strideLoop, if_neg more, strideCount_stop positive (by omega)]
        rfl

theorem strideFrom_eq_map {step : ℤ} (positive : 1 ≤ step) (limit start : ℤ) :
    strideFrom step limit start =
      (List.range (strideCount step limit start)).map (fun turn : ℕ => start + turn * step) :=
  strideLoop_eq_map positive _ start (Int.self_le_toNat _)

/-- The loop equation: the fuel of `strideFrom` never runs out. -/
theorem strideFrom_eq {step : ℤ} (positive : 1 ≤ step) (limit start : ℤ) :
    strideFrom step limit start =
      if start < limit then start :: strideFrom step limit (start + step) else [] := by
  by_cases more : start < limit
  · rw [if_pos more, strideFrom_eq_map positive limit (start + step)]
    have enough : limit - start ≤ ((limit - start).toNat : ℤ) := Int.self_le_toNat _
    obtain ⟨fuel, fuelEq⟩ : ∃ fuel, (limit - start).toNat = fuel + 1 :=
      ⟨(limit - start).toNat - 1, by omega⟩
    rw [strideFrom, fuelEq, strideLoop, if_pos more,
      strideLoop_eq_map positive fuel (start + step) (by omega)]
  · rw [if_neg more, strideFrom_eq_map positive, strideCount_stop positive (by omega)]
    rfl

theorem stride_eq_nil {step limit : ℤ} (positive : 1 ≤ step) (stop : limit ≤ 0) :
    stride step limit = [] := by
  rw [stride, strideFrom_eq positive, if_neg (by omega)]

theorem stride_length {step limit : ℤ} (positive : 1 ≤ step) :
    (stride step limit).length = ⌈(limit : ℚ) / step⌉₊ := by
  rw [stride, strideFrom_eq_map positive, List.length_map, List.length_range, strideCount,
    sub_zero]
  have ceiling : ⌈(limit : ℚ) / step⌉ = (limit + (step - 1)) / step := by
    have stepPositive : (0 : ℚ) < step := by exact_mod_cast (by omega : 0 < step)
    rw [Int.ceil_eq_iff, lt_div_iff₀ stepPositive, div_le_iff₀ stepPositive]
    have division := Int.mul_ediv_add_emod (limit + (step - 1)) step
    have lower := Int.emod_nonneg (limit + (step - 1)) (by omega : step ≠ 0)
    have upper := Int.emod_lt_of_pos (limit + (step - 1)) (by omega : 0 < step)
    constructor
    · have strict : ((limit + (step - 1)) / step - 1) * step < limit := by nlinarith
      exact_mod_cast strict
    · have weak : limit ≤ (limit + (step - 1)) / step * step := by nlinarith
      exact_mod_cast weak
  rw [← ceiling, Int.ceil_toNat]

theorem stride_nodup {step limit : ℤ} (positive : 1 ≤ step) : (stride step limit).Nodup := by
  rw [stride, strideFrom_eq_map positive]
  apply List.Nodup.map _ List.nodup_range
  intro left right same
  have scaled : (left : ℤ) * step = right * step := by simpa using same
  exact_mod_cast Int.eq_of_mul_eq_mul_right (by omega : step ≠ 0) scaled

theorem mem_stride_iff {step limit : ℤ} (positive : 1 ≤ step) (value : ℤ) :
    value ∈ stride step limit ↔ ∃ turn : ℕ, value = turn * step ∧ value < limit := by
  rw [stride, strideFrom_eq_map positive, List.mem_map]
  have division := Int.mul_ediv_add_emod (limit - 0 + (step - 1)) step
  have lower := Int.emod_nonneg (limit - 0 + (step - 1)) (by omega : step ≠ 0)
  have upper := Int.emod_lt_of_pos (limit - 0 + (step - 1)) (by omega : 0 < step)
  constructor
  · rintro ⟨turn, member, same⟩
    refine ⟨turn, by omega, ?_⟩
    have bound : (turn : ℤ) + 1 ≤ (limit - 0 + (step - 1)) / step := by
      have := List.mem_range.mp member
      unfold strideCount at this
      omega
    have scaled := Int.mul_le_mul_of_nonneg_left bound (by omega : 0 ≤ step)
    nlinarith
  · rintro ⟨turn, same, below⟩
    refine ⟨turn, List.mem_range.mpr ?_, by omega⟩
    by_contra tooLate
    have bound : (limit - 0 + (step - 1)) / step ≤ turn := by
      unfold strideCount at tooLate
      omega
    have scaled := Int.mul_le_mul_of_nonneg_left bound (by omega : 0 ≤ step)
    nlinarith

/-- Every position below the limit lies in the block of exactly one loop value. -/
theorem block_iff {step limit position : ℤ} (positive : 1 ≤ step) (lower : 0 ≤ position)
    (upper : position < limit) (value : ℤ) :
    (value ∈ stride step limit ∧ value ≤ position ∧ position < value + step) ↔
      value = position - position % step := by
  have remainderLower := Int.emod_nonneg position (by omega : step ≠ 0)
  have remainderUpper := Int.emod_lt_of_pos position (by omega : 0 < step)
  rw [mem_stride_iff positive]
  constructor
  · rintro ⟨⟨turn, rfl, _⟩, below, above⟩
    have split : position = (position - turn * step) + step * turn := by ring
    have remainder : position % step = position - turn * step := by
      conv_lhs => rw [split, Int.add_mul_emod_self_left]
      exact Int.emod_eq_of_lt (by omega) (by omega)
    omega
  · intro same
    have division := Int.mul_ediv_add_emod position step
    have quotient : 0 ≤ position / step := Int.ediv_nonneg lower (by omega)
    refine ⟨⟨(position / step).toNat, ?_, by omega⟩, by omega, by omega⟩
    rw [Int.toNat_of_nonneg quotient, same, Int.mul_comm]
    omega

def strideEnd (step limit : ℤ) : ℤ :=
  limit - 1 - (limit - 1) % step + step

section End

variable {step limit : ℤ}

theorem le_strideEnd (positive : 1 ≤ step) : limit ≤ strideEnd step limit := by
  have remainder := Int.emod_lt_of_pos (limit - 1) (by omega : 0 < step)
  unfold strideEnd
  omega

theorem strideEnd_eq_iff (positive : 1 ≤ step) : strideEnd step limit = limit ↔ step ∣ limit := by
  have division := Int.mul_ediv_add_emod (limit - 1) step
  have multiple : strideEnd step limit = step * ((limit - 1) / step + 1) := by
    unfold strideEnd
    linarith
  constructor
  · intro same
    rw [← same, multiple]
    exact dvd_mul_right step _
  · intro divides
    have lower : limit ≤ strideEnd step limit := le_strideEnd positive
    have upper : strideEnd step limit - limit < step := by
      have nonnegative := Int.emod_nonneg (limit - 1) (by omega : step ≠ 0)
      unfold strideEnd
      omega
    have rest : step ∣ strideEnd step limit - limit :=
      dvd_sub (multiple ▸ dvd_mul_right step _) divides
    have none := Int.eq_zero_of_dvd_of_nonneg_of_lt (by omega) upper rest
    omega

theorem zero_mem_stride (positive : 1 ≤ step) (nonempty : 1 ≤ limit) : 0 ∈ stride step limit :=
  (mem_stride_iff positive 0).mpr ⟨0, by simp, by omega⟩

theorem last_mem_stride (positive : 1 ≤ step) (nonempty : 1 ≤ limit) :
    strideEnd step limit - step ∈ stride step limit := by
  have last := (block_iff positive (by omega : 0 ≤ limit - 1) (by omega : limit - 1 < limit)
    (limit - 1 - (limit - 1) % step)).mpr rfl
  have same : strideEnd step limit - step = limit - 1 - (limit - 1) % step := by
    unfold strideEnd
    omega
  exact same ▸ last.1

theorem bounds_of_mem_stride (positive : 1 ≤ step) {value : ℤ}
    (member : value ∈ stride step limit) :
    0 ≤ value ∧ value + step ≤ strideEnd step limit := by
  obtain ⟨turn, rfl, below⟩ := (mem_stride_iff positive value).mp member
  have nonnegative : 0 ≤ (turn : ℤ) * step := Int.mul_nonneg (Int.natCast_nonneg turn) (by omega)
  refine ⟨nonnegative, ?_⟩
  have division := Int.mul_ediv_add_emod (limit - 1) step
  have quotient : (turn : ℤ) ≤ (limit - 1) / step :=
    (Int.le_ediv_iff_mul_le (by omega)).mpr (by omega)
  have scaled := Int.mul_le_mul_of_nonneg_left quotient (by omega : 0 ≤ step)
  unfold strideEnd
  nlinarith

end End

end EchoProcessing.StridedRange
