/-
Rounding to the nearest multiple of a step.

A multiple is nearest if no multiple is nearer; of two that are equally near it
is the even one.  This says the same as a distance of at most half a step, with
an even multiple where it is half a step exactly.  From here it follows that
rounding keeps the order of numbers, so there is one nearest multiple only.  The
quotient that is rounded to the nearest whole number is nearest in this sense.
-/

import LatencyBench.Decimal.Fixed
import Mathlib.Algebra.Order.Field.Basic
import Mathlib.Algebra.Ring.Int.Parity
import Mathlib.Data.Rat.Floor
import Mathlib.Tactic.Linarith
import Mathlib.Tactic.NormNum
import Mathlib.Tactic.Positivity
import Mathlib.Tactic.Ring

namespace LatencyBench.Decimal

/-- A multiple of a step that no other one is nearer to a number than.  It is
even if another one is as near. -/
structure IsNearest (step : ℚ) (multiple : ℤ) (number : ℚ) : Prop where
  closest : ∀ other : ℤ,
    |multiple * step - number| ≤ |other * step - number|
  even : ∀ other : ℤ, other ≠ multiple →
    |multiple * step - number| = |other * step - number| → Even multiple

namespace IsNearest

variable {step number : ℚ} {multiple : ℤ}

/-! ### Half a step -/

theorem within (nearest : IsNearest step multiple number)
    (positive : 0 < step) : |multiple * step - number| ≤ step / 2 := by
  have below : ⌊number / step⌋ * step ≤ number :=
    (le_div_iff₀ positive).mp (Int.floor_le _)
  have above : number < (⌊number / step⌋ + 1) * step :=
    (div_lt_iff₀ positive).mp (Int.lt_floor_add_one _)
  have down := nearest.closest ⌊number / step⌋
  have up := nearest.closest (⌊number / step⌋ + 1)
  push_cast at up
  rw [abs_of_nonpos (sub_nonpos.mpr below)] at down
  rw [abs_of_pos (sub_pos.mpr above)] at up
  linarith

theorem even_of_half (nearest : IsNearest step multiple number)
    (positive : 0 < step) (half : |multiple * step - number| = step / 2) :
    Even multiple := by
  have nonneg : 0 ≤ step / 2 := (half_pos positive).le
  -- The other multiple that is half a step away lies beyond the number.
  rcases (abs_eq nonneg).mp half with beyond | short
  · refine nearest.even (multiple - 1) (by omega) ?_
    rw [half, eq_comm, abs_eq nonneg]
    right
    push_cast
    linarith
  · refine nearest.even (multiple + 1) (by omega) ?_
    rw [half, eq_comm, abs_eq nonneg]
    left
    push_cast
    linarith

theorem step_le_abs {other : ℤ} (positive : 0 < step)
    (differ : other ≠ multiple) : step ≤ |other * step - multiple * step| := by
  have apart : (1 : ℚ) ≤ |(other : ℚ) - multiple| := by
    exact_mod_cast Int.one_le_abs (sub_ne_zero.mpr differ)
  calc step = 1 * step := (one_mul step).symm
    _ ≤ |(other : ℚ) - multiple| * step :=
        mul_le_mul_of_nonneg_right apart positive.le
    _ = |other * step - multiple * step| := by
        rw [← sub_mul, abs_mul, abs_of_pos positive]

theorem of_within (positive : 0 < step)
    (near : |multiple * step - number| ≤ step / 2)
    (even : |multiple * step - number| = step / 2 → Even multiple) :
    IsNearest step multiple number := by
  have far : ∀ other : ℤ, other ≠ multiple →
      step ≤ |other * step - number| + |multiple * step - number| := by
    intro other differ
    calc step ≤ |other * step - multiple * step| := step_le_abs positive differ
      _ ≤ |other * step - number| + |number - multiple * step| :=
          abs_sub_le _ _ _
      _ = |other * step - number| + |multiple * step - number| := by
          rw [abs_sub_comm number]
  refine ⟨fun other => ?_, fun other differ same => even ?_⟩
  · by_cases differ : other = multiple
    · rw [differ]
    · have apart := far other differ
      linarith
  · have apart := far other differ
    linarith

/-! ### Order -/

/-- Rounding keeps the order of numbers.  Multiples in the other order could
only be neighbours, with one number half a step from both, and then both of them
would be even. -/
theorem mono {number' : ℚ} {multiple' : ℤ} (positive : 0 < step)
    (nearest : IsNearest step multiple number)
    (nearest' : IsNearest step multiple' number') (le : number ≤ number') :
    multiple ≤ multiple' := by
  by_contra less
  have next : multiple' + 1 ≤ multiple := by omega
  have apart : ((multiple' : ℚ) + 1) * step ≤ multiple * step := by
    refine mul_le_mul_of_nonneg_right ?_ positive.le
    exact_mod_cast next
  have upper := (abs_le.mp (nearest.within positive)).2
  have lower := (abs_le.mp (nearest'.within positive)).1
  have half : |multiple * step - number| = step / 2 := by
    rw [abs_of_nonneg] <;> linarith
  have half' : |multiple' * step - number'| = step / 2 := by
    rw [abs_of_nonpos] <;> linarith
  have neighbours : (multiple : ℚ) * step = (multiple' + 1) * step := by
    linarith
  have successor : multiple = multiple' + 1 := by
    exact_mod_cast mul_right_cancel₀ positive.ne' neighbours
  have even := nearest.even_of_half positive half
  rw [successor, Int.even_add_one] at even
  exact even (nearest'.even_of_half positive half')

theorem unique {other : ℤ} (positive : 0 < step)
    (nearest : IsNearest step multiple number)
    (nearest' : IsNearest step other number) : multiple = other :=
  le_antisymm (nearest.mono positive nearest' le_rfl)
    (nearest'.mono positive nearest le_rfl)

/-! ### Scale and sign -/

theorem scale (nearest : IsNearest step multiple number) {factor : ℚ}
    (positive : 0 < factor) :
    IsNearest (step * factor) multiple (number * factor) := by
  have stretch : ∀ other : ℤ, |other * (step * factor) - number * factor| =
      |other * step - number| * factor := by
    intro other
    rw [← mul_assoc, ← sub_mul, abs_mul, abs_of_pos positive]
  refine ⟨fun other => ?_, fun other differ same => ?_⟩
  · rw [stretch, stretch]
    exact mul_le_mul_of_nonneg_right (nearest.closest other) positive.le
  · rw [stretch, stretch] at same
    exact nearest.even other differ (mul_right_cancel₀ positive.ne' same)

theorem neg (nearest : IsNearest step multiple number) :
    IsNearest step (-multiple) (-number) := by
  have mirror : ∀ other : ℤ, |((-other : ℤ) : ℚ) * step - -number| =
      |other * step - number| := by
    intro other
    rw [← abs_neg]
    push_cast
    ring_nf
  have mirrored : ∀ other : ℤ, |other * step - -number| =
      |((-other : ℤ) : ℚ) * step - number| := by
    intro other
    rw [← mirror, neg_neg]
  refine ⟨fun other => ?_, fun other differ same => ?_⟩
  · rw [mirror, mirrored]
    exact nearest.closest (-other)
  · rw [mirror, mirrored] at same
    exact (nearest.even (-other) (by omega) same).neg

end IsNearest

/-! ### Quotients -/

theorem roundHalfEven_cases (numerator denominator : ℕ) :
    (roundHalfEven numerator denominator = numerator / denominator ∧
      2 * (numerator % denominator) < denominator) ∨
    (roundHalfEven numerator denominator = numerator / denominator + 1 ∧
      denominator < 2 * (numerator % denominator)) ∨
    ((roundHalfEven numerator denominator = numerator / denominator ∨
        roundHalfEven numerator denominator = numerator / denominator + 1) ∧
      2 * (numerator % denominator) = denominator ∧
      Even (roundHalfEven numerator denominator)) := by
  simp only [roundHalfEven, Nat.even_iff]
  split
  case isTrue below => exact .inl ⟨rfl, below⟩
  case isFalse =>
    split
    case isTrue above => exact .inr (.inl ⟨rfl, above⟩)
    case isFalse =>
      right
      right
      split <;> omega

theorem cast_div_add_rest (numerator : ℕ) {denominator : ℕ}
    (positive : 0 < denominator) :
    (numerator : ℚ) / denominator =
      (numerator / denominator : ℕ) +
        (numerator % denominator : ℕ) / denominator := by
  have nonzero : (denominator : ℚ) ≠ 0 := Nat.cast_ne_zero.mpr positive.ne'
  rw [div_eq_iff nonzero, add_mul, div_mul_cancel₀ _ nonzero]
  exact_mod_cast (Nat.div_add_mod' numerator denominator).symm

theorem roundHalfEven_isNearest (numerator : ℕ) {denominator : ℕ}
    (positive : 0 < denominator) :
    IsNearest 1 (roundHalfEven numerator denominator)
      (numerator / denominator) := by
  have divisor : (0 : ℚ) < denominator := Nat.cast_pos.mpr positive
  rw [cast_div_add_rest numerator positive]
  generalize rest_eq :
    ((numerator % denominator : ℕ) : ℚ) / denominator = rest
  rcases roundHalfEven_cases numerator denominator with
    ⟨down, below⟩ | ⟨up, above⟩ | ⟨either, middle, even⟩
  · have rest_nonneg : 0 ≤ rest := by
      rw [← rest_eq]
      positivity
    have rest_lt : rest < 1 / 2 := by
      rw [← rest_eq, div_lt_div_iff₀ divisor two_pos, mul_comm, one_mul]
      exact_mod_cast below
    rw [down]
    apply IsNearest.of_within one_pos <;>
      rw [Int.cast_natCast, mul_one, sub_add_cancel_left, abs_neg,
        abs_of_nonneg rest_nonneg]
    · exact rest_lt.le
    · exact fun half => absurd half rest_lt.ne
  · have rest_le : rest ≤ 1 := by
      rw [← rest_eq, div_le_one divisor]
      exact_mod_cast (Nat.mod_lt numerator positive).le
    have lt_rest : 1 / 2 < rest := by
      rw [← rest_eq, div_lt_div_iff₀ two_pos divisor, one_mul, mul_comm]
      exact_mod_cast above
    rw [up]
    apply IsNearest.of_within one_pos <;>
      rw [Int.cast_natCast, mul_one, Nat.cast_add_one, add_sub_add_left_eq_sub,
        abs_of_nonneg (sub_nonneg.mpr rest_le)]
    · linarith
    · intro half
      linarith
  · -- Both neighbours are half a step away, and the even one is taken.
    have half : rest = 1 / 2 := by
      rw [← rest_eq, div_eq_div_iff divisor.ne' two_ne_zero, one_mul, mul_comm]
      exact_mod_cast middle
    refine IsNearest.of_within one_pos (le_of_eq ?_)
      fun _ => (Int.even_coe_nat _).mpr even
    rw [half, Int.cast_natCast, mul_one]
    rcases either with down | up
    · rw [down, sub_add_cancel_left, abs_neg, abs_of_pos one_half_pos]
    · rw [up, Nat.cast_add_one, add_sub_add_left_eq_sub]
      norm_num

end LatencyBench.Decimal
