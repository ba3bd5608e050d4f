import Mathlib.Algebra.Order.Field.Rat
import Mathlib.Tactic.Positivity

/-!
# Estimating survival from a cumulative histogram

Of a list of observed durations, `survivors D t` outlast `t`. A histogram only
keeps that number at some thresholds, so a reader estimates the share of the
durations past `t` that also outlast `u` by a quotient of two buckets. Rounding
the denominator up and the numerator down makes the estimate a lower bound.

- `survivors_anti`: fewer durations outlast a later time.
- `percentage`: the quotient, in percent and at most 100; `percentage_mono`.
- `percentage_mul_le`: it overstates no share that it rounds in that way.
-/

namespace Survival

/-- How many of the durations outlast `t`. -/
def survivors (D : List Nat) (t : Nat) : Nat := D.countP fun d => t < d

@[simp] theorem survivors_nil (t : Nat) : survivors [] t = 0 := rfl

theorem survivors_cons (d : Nat) (D : List Nat) (t : Nat) :
    survivors (d :: D) t = survivors D t + if t < d then 1 else 0 := by
  simp [survivors, List.countP_cons]

theorem survivors_le_length (D : List Nat) (t : Nat) : survivors D t ≤ D.length :=
  List.countP_le_length

theorem survivors_anti (D : List Nat) {t u : Nat} (h : t ≤ u) :
    survivors D u ≤ survivors D t := by
  refine List.countP_mono_left fun d _ hd => ?_
  simp only [decide_eq_true_eq] at hd ⊢
  exact Nat.lt_of_le_of_lt h hd

/-- With the later durations not left out, no fewer outlast a time. -/
theorem survivors_le_of_suffix {D E : List Nat} (h : D <:+ E) (t : Nat) :
    survivors D t ≤ survivors E t := h.sublist.countP_le

/-- No duration outlasts a bound on all of them. -/
theorem survivors_eq_zero {D : List Nat} {t : Nat} (h : ∀ d ∈ D, d ≤ t) :
    survivors D t = 0 := by
  refine List.countP_eq_zero.mpr fun d hd => ?_
  simp only [decide_eq_true_eq, Nat.not_lt]
  exact h d hd

/-- `numerator` out of `denominator` in percent: none of nothing, and at most all. -/
def percentage (numerator denominator : Nat) : ℚ :=
  if denominator = 0 then 0
  else if 100 ≤ (100 * numerator / denominator : ℚ) then 100
  else 100 * numerator / denominator

/-- A percentage is at most one hundred. -/
theorem percentage_le (numerator denominator : Nat) : percentage numerator denominator ≤ 100 := by
  unfold percentage
  split
  · norm_num
  · split
    · exact le_refl _
    next h => exact (not_le.mp h).le

theorem percentage_nonneg (numerator denominator : Nat) :
    0 ≤ percentage numerator denominator := by
  unfold percentage
  split
  · exact le_refl _
  · split
    · norm_num
    · positivity

/-- The percentage is cut off, never rounded up. -/
theorem percentage_mul_denominator_le (numerator denominator : Nat) :
    percentage numerator denominator * denominator ≤ 100 * numerator := by
  unfold percentage
  split
  next => rw [zero_mul]; positivity
  next hne =>
    have hpos : (0 : ℚ) < denominator := by exact_mod_cast Nat.pos_of_ne_zero hne
    split
    next h =>
      rwa [le_div_iff₀ hpos] at h
    next =>
      rw [div_mul_cancel₀ _ hpos.ne']

/-- More of the same total is no smaller a percentage. -/
theorem percentage_mono {n m : Nat} (h : n ≤ m) (denominator : Nat) :
    percentage n denominator ≤ percentage m denominator := by
  unfold percentage
  split
  · exact le_refl _
  · have hquotient : (100 * n / denominator : ℚ) ≤ 100 * m / denominator := by gcongr
    split
    next hn => rw [if_pos (hn.trans hquotient)]
    next hn =>
      split
      · exact (not_le.mp hn).le
      · exact hquotient

/-- Rounded up below the line and down above it, the percentage is at most the
share of the `n` that are among the `m`. -/
theorem percentage_mul_le {numerator denominator n m : Nat} (hn : n ≤ denominator)
    (hm : numerator ≤ m) : percentage numerator denominator * n ≤ 100 * m := by
  calc percentage numerator denominator * n
      ≤ percentage numerator denominator * denominator := by
        have := percentage_nonneg numerator denominator
        gcongr
    _ ≤ 100 * numerator := percentage_mul_denominator_le numerator denominator
    _ ≤ 100 * m := by gcongr

end Survival
