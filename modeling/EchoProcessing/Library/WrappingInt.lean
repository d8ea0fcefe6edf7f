/-
Signed machine integers: a sum or a product is taken modulo the number of values and
read back with its sign.

A count that starts at a representable value and goes up by a representable stride
reads as a negative number when it first leaves the range.
-/

import Mathlib.Data.Int.Basic
import Mathlib.Algebra.Order.Ring.Int
import Mathlib.Tactic.Linarith
import Mathlib.Tactic.Ring

namespace EchoProcessing.WrappingInt

variable {bits : ℕ}

def wrap (bits : ℕ) (value : ℤ) : ℤ := value.bmod (2 ^ bits)

def Fits (bits : ℕ) (value : ℤ) : Prop := -(2 ^ bits) ≤ value * 2 ∧ value * 2 < 2 ^ bits

instance (bits : ℕ) (value : ℤ) : Decidable (Fits bits value) :=
  inferInstanceAs (Decidable (_ ∧ _))

theorem wrap_of_fits {value : ℤ} (fits : Fits bits value) : wrap bits value = value := by
  obtain ⟨low, high⟩ := fits
  apply Int.bmod_eq_of_le_mul_two
  · push_cast
    exact low
  · push_cast
    exact high

@[simp]
theorem wrap_add_wrap (left right : ℤ) :
    wrap bits (left + wrap bits right) = wrap bits (left + right) :=
  Int.add_bmod_bmod

theorem wrap_of_fits_sub {value : ℤ} (turns : ℤ) (fits : Fits bits (value - turns * 2 ^ bits)) :
    wrap bits value = value - turns * 2 ^ bits := by
  have period : wrap bits (value - turns * 2 ^ bits) = wrap bits value := by
    have dropped := Int.sub_mul_bmod_self_right value turns (2 ^ bits)
    rwa [Nat.cast_pow, Nat.cast_ofNat] at dropped
  rw [← period, wrap_of_fits fits]

/-- Where a count leaves the range for the first time. -/
theorem exists_first_above {start stride : ℤ} (startFits : Fits bits start)
    (strideFits : Fits bits stride) (count : ℕ)
    (above : 2 ^ bits ≤ (start + count * stride) * 2) :
    ∃ last : ℕ, last + 1 ≤ count ∧ (start + last * stride) * 2 < 2 ^ bits ∧
      2 ^ bits ≤ (start + (last + 1) * stride) * 2 ∧
      wrap bits (start + (last + 1) * stride) = start + (last + 1) * stride - 2 ^ bits := by
  induction count with
  | zero =>
      have fits := startFits.2
      simp only [Nat.cast_zero, zero_mul, add_zero] at above
      exact absurd above (not_le.mpr fits)
  | succ count ih =>
      by_cases before : 2 ^ bits ≤ (start + count * stride) * 2
      · obtain ⟨last, bound, rest⟩ := ih before
        exact ⟨last, by omega, rest⟩
      · push_cast at above
        have inside := not_le.mp before
        have strideBelow := strideFits.2
        have next : (start + (count + 1) * stride) * 2 =
            (start + count * stride) * 2 + stride * 2 := by ring
        refine ⟨count, le_refl _, inside, above, ?_⟩
        have inside : Fits bits (start + (count + 1) * stride - 1 * 2 ^ bits) := by
          constructor <;> linarith
        rw [wrap_of_fits_sub 1 inside, one_mul]

end EchoProcessing.WrappingInt
