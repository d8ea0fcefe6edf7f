/-
Bounding boxes in the plane.

Boxes are ordered by inclusion and joined by the smallest box around both. The box of a
parallelogram is as wide as the two shadows of its sides together, so one parallelogram
that holds another with the same corner and no shorter sides is the same.
-/

import Mathlib.Algebra.Order.Ring.Abs
import Mathlib.Order.Lattice
import Mathlib.Tactic.Linarith
import Mathlib.Tactic.Ring

namespace EchoProcessing

universe u

@[ext]
structure Box (K : Type u) where
  left : K
  bottom : K
  right : K
  top : K
deriving DecidableEq, Repr

namespace Box

section Order

variable {K : Type u} [LinearOrder K]

instance : PartialOrder (Box K) where
  le inner outer := outer.left ≤ inner.left ∧ outer.bottom ≤ inner.bottom ∧
    inner.right ≤ outer.right ∧ inner.top ≤ outer.top
  le_refl _ := ⟨le_rfl, le_rfl, le_rfl, le_rfl⟩
  le_trans _ _ _ first second :=
    ⟨second.1.trans first.1, second.2.1.trans first.2.1, first.2.2.1.trans second.2.2.1,
      first.2.2.2.trans second.2.2.2⟩
  le_antisymm _ _ first second :=
    Box.ext (second.1.antisymm first.1) (second.2.1.antisymm first.2.1)
      (first.2.2.1.antisymm second.2.2.1) (first.2.2.2.antisymm second.2.2.2)

theorem le_def (inner outer : Box K) :
    inner ≤ outer ↔ outer.left ≤ inner.left ∧ outer.bottom ≤ inner.bottom ∧
      inner.right ≤ outer.right ∧ inner.top ≤ outer.top := Iff.rfl

instance : SemilatticeSup (Box K) where
  sup first second :=
    { left := min first.left second.left
      bottom := min first.bottom second.bottom
      right := max first.right second.right
      top := max first.top second.top }
  le_sup_left _ _ := ⟨min_le_left _ _, min_le_left _ _, le_max_left _ _, le_max_left _ _⟩
  le_sup_right _ _ := ⟨min_le_right _ _, min_le_right _ _, le_max_right _ _, le_max_right _ _⟩
  sup_le _ _ _ first second :=
    ⟨le_min first.1 second.1, le_min first.2.1 second.2.1, max_le first.2.2.1 second.2.2.1,
      max_le first.2.2.2 second.2.2.2⟩

def point (x y : K) : Box K :=
  { left := x, bottom := y, right := x, top := y }

/-- The smallest box around all of them; there is none around nothing. -/
def hull? : List (Box K) → Option (Box K)
  | [] => none
  | first :: rest => some (rest.foldl (fun hull box => hull ⊔ box) first)

theorem foldl_sup_le_iff (first : Box K) (rest : List (Box K)) (bound : Box K) :
    rest.foldl (fun hull box => hull ⊔ box) first ≤ bound ↔
      first ≤ bound ∧ ∀ box ∈ rest, box ≤ bound := by
  induction rest generalizing first with
  | nil => simp
  | cons box rest ih =>
      rw [List.foldl_cons, ih, sup_le_iff, List.forall_mem_cons, and_assoc]

theorem hull?_eq_some_iff (boxes : List (Box K)) (hull : Box K) :
    hull? boxes = some hull ↔
      boxes ≠ [] ∧ ∀ bound, hull ≤ bound ↔ ∀ box ∈ boxes, box ≤ bound := by
  cases boxes with
  | nil => simp [hull?]
  | cons first rest =>
      simp only [hull?, Option.some.injEq, ne_eq, reduceCtorEq, not_false_eq_true, true_and]
      constructor
      · rintro rfl bound
        rw [foldl_sup_le_iff, List.forall_mem_cons]
      · intro least
        apply le_antisymm
        · exact (foldl_sup_le_iff first rest hull).mpr
            (List.forall_mem_cons.mp ((least hull).mp le_rfl))
        · exact (least _).mpr
            (List.forall_mem_cons.mpr ((foldl_sup_le_iff first rest _).mp le_rfl))

end Order

section Parallelogram

variable {K : Type u} [Field K] [LinearOrder K] [IsStrictOrderedRing K]

/-- The box of the parallelogram with a corner at `(x, y)` and the given sides. -/
def parallelogram (x y acrossX acrossY downX downY : K) : Box K :=
  point x y ⊔ point (x + acrossX) (y + acrossY) ⊔
    (point (x + downX) (y + downY) ⊔ point (x + acrossX + downX) (y + acrossY + downY))

private theorem max_step (x side : K) : max x (x + side) = x + max 0 side := by
  rw [← max_add_add_left, add_zero]

private theorem min_step (x side : K) : min x (x + side) = x + min 0 side := by
  rw [← min_add_add_left, add_zero]

variable {x y acrossX acrossY downX downY : K}

theorem right_parallelogram :
    (parallelogram x y acrossX acrossY downX downY).right = x + max 0 acrossX + max 0 downX := by
  change max (max x (x + acrossX)) (max (x + downX) (x + acrossX + downX)) = _
  rw [add_right_comm x acrossX, max_step, max_step, add_right_comm x downX, max_step]

theorem left_parallelogram :
    (parallelogram x y acrossX acrossY downX downY).left = x + min 0 acrossX + min 0 downX := by
  change min (min x (x + acrossX)) (min (x + downX) (x + acrossX + downX)) = _
  rw [add_right_comm x acrossX, min_step, min_step, add_right_comm x downX, min_step]

theorem top_parallelogram :
    (parallelogram x y acrossX acrossY downX downY).top = y + max 0 acrossY + max 0 downY := by
  change max (max y (y + acrossY)) (max (y + downY) (y + acrossY + downY)) = _
  rw [add_right_comm y acrossY, max_step, max_step, add_right_comm y downY, max_step]

theorem bottom_parallelogram :
    (parallelogram x y acrossX acrossY downX downY).bottom = y + min 0 acrossY + min 0 downY := by
  change min (min y (y + acrossY)) (min (y + downY) (y + acrossY + downY)) = _
  rw [add_right_comm y acrossY, min_step, min_step, add_right_comm y downY, min_step]

theorem width_parallelogram :
    (parallelogram x y acrossX acrossY downX downY).right -
      (parallelogram x y acrossX acrossY downX downY).left = |acrossX| + |downX| := by
  have across := max_sub_min_eq_abs 0 acrossX
  have down := max_sub_min_eq_abs 0 downX
  rw [sub_zero] at across down
  rw [right_parallelogram, left_parallelogram, ← across, ← down]
  ring

theorem height_parallelogram :
    (parallelogram x y acrossX acrossY downX downY).top -
      (parallelogram x y acrossX acrossY downX downY).bottom = |acrossY| + |downY| := by
  have across := max_sub_min_eq_abs 0 acrossY
  have down := max_sub_min_eq_abs 0 downY
  rw [sub_zero] at across down
  rw [top_parallelogram, bottom_parallelogram, ← across, ← down]
  ring

private theorem part_mem_shadow {part whole : K} (side : K) (lower : 0 ≤ part)
    (upper : part ≤ whole) :
    min 0 (whole * side) ≤ part * side ∧ part * side ≤ max 0 (whole * side) := by
  rcases le_total 0 side with forward | back
  · exact ⟨(min_le_left _ _).trans (mul_nonneg lower forward),
      (mul_le_mul_of_nonneg_right upper forward).trans (le_max_right _ _)⟩
  · exact ⟨(min_le_right _ _).trans (mul_le_mul_of_nonpos_right upper back),
      (mul_nonpos_of_nonneg_of_nonpos lower back).trans (le_max_left _ _)⟩

variable {width height partX partY unitX unitY stepX stepY : K}

theorem point_le_parallelogram (lowerX : 0 ≤ partX) (upperX : partX ≤ width) (lowerY : 0 ≤ partY)
    (upperY : partY ≤ height) :
    point (x + partX * unitX + partY * stepX) (y + partX * unitY + partY * stepY) ≤
      parallelogram x y (width * unitX) (width * unitY) (height * stepX) (height * stepY) := by
  obtain ⟨acrossXLower, acrossXUpper⟩ := part_mem_shadow unitX lowerX upperX
  obtain ⟨acrossYLower, acrossYUpper⟩ := part_mem_shadow unitY lowerX upperX
  obtain ⟨downXLower, downXUpper⟩ := part_mem_shadow stepX lowerY upperY
  obtain ⟨downYLower, downYUpper⟩ := part_mem_shadow stepY lowerY upperY
  rw [le_def, left_parallelogram, bottom_parallelogram, right_parallelogram, top_parallelogram]
  simp only [point]
  refine ⟨?_, ?_, ?_, ?_⟩ <;> linarith

variable {width' height' : K}

private theorem shadow_eq {unit step : K} (positive : 0 ≤ width) (positive' : 0 ≤ height)
    (wider : width ≤ width') (higher : height ≤ height')
    (inside : |width' * unit| + |height' * step| ≤ |width * unit| + |height * step|) :
    (width' - width) * |unit| = 0 ∧ (height' - height) * |step| = 0 := by
  rw [abs_mul, abs_mul, abs_mul, abs_mul, abs_of_nonneg positive, abs_of_nonneg positive',
    abs_of_nonneg (positive.trans wider), abs_of_nonneg (positive'.trans higher)] at inside
  have across : 0 ≤ (width' - width) * |unit| :=
    mul_nonneg (sub_nonneg.mpr wider) (abs_nonneg unit)
  have down : 0 ≤ (height' - height) * |step| :=
    mul_nonneg (sub_nonneg.mpr higher) (abs_nonneg step)
  constructor <;> linarith

/-- With independent directions, no longer side fits into the box. -/
theorem sides_eq_of_le (independent : unitX * stepY ≠ stepX * unitY) (positive : 0 ≤ width)
    (positive' : 0 ≤ height) (wider : width ≤ width') (higher : height ≤ height')
    (inside : parallelogram x y (width' * unitX) (width' * unitY) (height' * stepX)
        (height' * stepY) ≤
      parallelogram x y (width * unitX) (width * unitY) (height * stepX) (height * stepY)) :
    width' = width ∧ height' = height := by
  obtain ⟨leftLe, bottomLe, rightLe, topLe⟩ := (le_def _ _).mp inside
  have widths := sub_le_sub rightLe leftLe
  have heights := sub_le_sub topLe bottomLe
  rw [width_parallelogram, width_parallelogram] at widths
  rw [height_parallelogram, height_parallelogram] at heights
  obtain ⟨unitXEq, stepXEq⟩ := shadow_eq positive positive' wider higher widths
  obtain ⟨unitYEq, stepYEq⟩ := shadow_eq positive positive' wider higher heights
  rw [mul_eq_zero, sub_eq_zero, abs_eq_zero] at unitXEq stepXEq unitYEq stepYEq
  constructor
  · by_contra different
    apply independent
    rw [unitXEq.resolve_left different, unitYEq.resolve_left different, zero_mul, mul_zero]
  · by_contra different
    apply independent
    rw [stepXEq.resolve_left different, stepYEq.resolve_left different, mul_zero, zero_mul]

end Parallelogram

end Box

end EchoProcessing
