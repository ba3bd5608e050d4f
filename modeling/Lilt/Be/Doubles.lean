import Lilt.Be.Monotone
import Lilt.Lib.Binary64
import Mathlib.Algebra.Order.Floor.Semifield

/-!
# The budgets and the estimate in `double` (`be_intercept.c`)

`BeFloat` leaves open what the code computes in `double`. Here are these
computations in the format binary64, operation by operation.

- `doubles`: the computations.
- `effective_budgets_shrink`: the budgets are between one and the configured ones,
  and do not grow while the HP process stays idle.
- `survivalAdmission_exact`: the survival policy decides as it would in exact
  arithmetic, whatever the HP process did before.
-/

namespace Lilt.Be

open Lilt.Activity Lilt.Config Binary64 Survival

/-- `(double)n` -/
def ofUInt64 (n : UInt64) : Double := Double.ofInt n.toNat

/-- `(uint64_t)x`; `undefined` is what comes out for a value out of the range. -/
def toUInt64 (undefined : UInt64) (x : Double) : UInt64 :=
  match x.toInt 0 (2 ^ 64) with
  | some n => UInt64.ofNat n.toNat
  | none => undefined

/-- `(double)percent / 100.0` -/
def ofPercent (percent : Nat) : Double := Double.ofInt percent / Double.ofInt 100

/-- The computations of `event_be_effective_block_budget_locked`,
`event_be_effective_time_budget_locked` and `event_be_survival_probability_pct`. -/
def doubles (undefined : UInt64) : BeFloat where
  gapBlocks blockBudget remaining ewma fraction :=
    toUInt64 undefined
      (ofUInt64 blockBudget * (ofUInt64 remaining / ofUInt64 ewma * ofPercent fraction))
  gapTime remaining fraction := toUInt64 undefined (ofUInt64 remaining * ofPercent fraction)
  percentage numerator denominator :=
    let probability := Double.ofInt 100 * ofUInt64 numerator / ofUInt64 denominator
    if Double.ofInt 100 ≤ probability then 100
    else (probability.toInt 0 (2 ^ 32)).elim undefined.toNat Int.toNat

/-! ## The block budget of the policy `gap` -/

section gap

variable {undefined blockBudget remaining ewma : UInt64} {fraction : Nat}

/-- What is small enough is in the range. -/
theorem in_range {q : ℚ} (h : q ≤ 2 ^ (64 : ℤ)) : q < 2 ^ (1023 : ℤ) :=
  lt_of_le_of_lt h (zpow_lt_zpow_right₀ (by norm_num) (by omega))

/-- A `uint64_t` is below 2^64. -/
theorem toNat_lt_zpow (n : UInt64) : (n.toNat : ℚ) < 2 ^ (64 : ℤ) := by
  have h : (n.toNat : ℚ) < ((2 ^ 64 : ℕ) : ℚ) := by exact_mod_cast n.toNat_lt
  exact lt_of_lt_of_eq h (by norm_cast)

/-- `(double)n` is the nearest `double`. -/
theorem ofUInt64_is (n : UInt64) : (ofUInt64 n).Is (nearest n.toNat) := by
  unfold ofUInt64 Double.ofInt
  rw [Int.cast_natCast]
  exact Double.ofRat_is (Nat.cast_nonneg _) (in_range (toNat_lt_zpow n).le)

/-- No `uint64_t` becomes negative. -/
theorem nearest_toNat_nonneg (n : UInt64) : 0 ≤ nearest n.toNat :=
  nearest_nonneg (Nat.cast_nonneg _)

/-- A `uint64_t` may be rounded up, to 2^64 at most. -/
theorem nearest_toNat_le (n : UInt64) : nearest n.toNat ≤ 2 ^ (64 : ℤ) := by
  rcases Nat.eq_zero_or_pos n.toNat with hzero | hpos
  · rw [hzero, Nat.cast_zero, nearest_zero]
    exact (two_zpow_pos _).le
  · exact nearest_le_zpow (by exact_mod_cast hpos) (toNat_lt_zpow n) (by omega)

/-- No `uint64_t` but zero becomes zero. -/
theorem nearest_toNat_pos {n : UInt64} (h : 0 < n) : 0 < nearest n.toNat := by
  have hone : ((1 : ℤ) : ℚ) ≤ nearest n.toNat := by
    refine intCast_le_nearest (by omega) ?_ (by norm_num)
    exact_mod_cast UInt64.lt_iff_toNat_lt.mp h
  exact lt_of_lt_of_le (by norm_num) hone

/-- A product or quotient of at most one is rounded to at most one. -/
theorem nearest_le_one {q : ℚ} (h0 : 0 ≤ q) (h : q ≤ 1) : nearest q ≤ 1 := by
  exact_mod_cast nearest_le_intCast (n := 1) h0 (by exact_mod_cast h) (by norm_num)

/-- A ratio is far inside the range of `uint64_t`. -/
theorem le_two_zpow {q : ℚ} (h : q ≤ 1) : q ≤ 2 ^ (64 : ℤ) :=
  le_trans h (one_le_zpow₀ (by norm_num) (by norm_num))

/-- `(double)percent / 100.0` is the nearest `double` to the quotient. -/
theorem ofPercent_is (h : fraction ≤ 100) :
    (ofPercent fraction).Is (nearest (fraction / 100)) := by
  have hle : (fraction / 100 : ℚ) ≤ 1 := by
    rw [div_le_one (by norm_num)]
    exact_mod_cast h
  have hfraction : (Double.ofInt fraction).Is fraction := by
    have := Double.ofInt_is (n := fraction) (by omega) (by omega)
    rwa [Int.cast_natCast] at this
  exact hfraction.div (Double.ofInt_is (n := 100) (by omega) (by omega)) (by norm_num)
    (by positivity) (in_range (le_two_zpow hle))

/-- The part of the configured budget, in the format. -/
def gapRatio (remaining ewma : UInt64) (fraction : Nat) : ℚ :=
  nearest (nearest (nearest remaining.toNat / nearest ewma.toNat) * nearest (fraction / 100))

/-- The remaining part of an idle period is between none and all of it. -/
theorem quotient_mem (hle : remaining ≤ ewma) (hpos : 0 < ewma) :
    0 ≤ nearest remaining.toNat / nearest ewma.toNat ∧
      nearest remaining.toNat / nearest ewma.toNat ≤ 1 := by
  have hewma := nearest_toNat_pos hpos
  refine ⟨div_nonneg (nearest_toNat_nonneg _) hewma.le, (div_le_one hewma).mpr ?_⟩
  refine nearest_mono (Nat.cast_nonneg _) ?_
  exact_mod_cast UInt64.le_iff_toNat_le.mp hle

/-- A percentage is between 0 and 1, also when it is rounded. -/
theorem fraction_mem (h : fraction ≤ 100) :
    0 ≤ nearest (fraction / 100 : ℚ) ∧ nearest (fraction / 100 : ℚ) ≤ 1 := by
  have h0 : (0 : ℚ) ≤ fraction / 100 := by positivity
  refine ⟨nearest_nonneg h0, nearest_le_one h0 ?_⟩
  rw [div_le_one (by norm_num)]
  exact_mod_cast h

/-- The part of the budget that the policy uses is between 0 and 1. -/
theorem gapRatio_mem (hle : remaining ≤ ewma) (hpos : 0 < ewma) (h : fraction ≤ 100) :
    0 ≤ gapRatio remaining ewma fraction ∧ gapRatio remaining ewma fraction ≤ 1 := by
  obtain ⟨hq0, hq1⟩ := quotient_mem hle hpos
  obtain ⟨hf0, hf1⟩ := fraction_mem h
  have hprod := mul_nonneg (nearest_nonneg hq0) hf0
  exact ⟨nearest_nonneg hprod, nearest_le_one hprod
    (mul_le_one₀ (nearest_le_one hq0 hq1) hf0 hf1)⟩

/-- With more of the idle period remaining, the part is not smaller. -/
theorem gapRatio_mono {remaining' : UInt64} (hle : remaining ≤ remaining')
    (hpos : 0 < ewma) : gapRatio remaining ewma fraction ≤ gapRatio remaining' ewma fraction := by
  have hewma := nearest_toNat_pos hpos
  have hf0 : 0 ≤ nearest (fraction / 100 : ℚ) := nearest_nonneg (by positivity)
  have hround : nearest remaining.toNat ≤ nearest remaining'.toNat := by
    refine nearest_mono (Nat.cast_nonneg _) ?_
    exact_mod_cast UInt64.le_iff_toNat_le.mp hle
  have hq0 : 0 ≤ nearest remaining.toNat / nearest ewma.toNat :=
    div_nonneg (nearest_toNat_nonneg _) hewma.le
  refine nearest_mono (mul_nonneg (nearest_nonneg hq0) hf0) ?_
  exact mul_le_mul_of_nonneg_right
    (nearest_mono hq0 (div_le_div_of_nonneg_right hround hewma.le)) hf0

/-- What is converted back: the budget times its part. -/
def gapProduct (blockBudget remaining ewma : UInt64) (fraction : Nat) : ℚ :=
  nearest (nearest blockBudget.toNat * gapRatio remaining ewma fraction)

/-- A budget below 2^53 is a `double`, so that the product is rounded to it at most. -/
theorem gapProduct_le (hle : remaining ≤ ewma) (hpos : 0 < ewma) (h : fraction ≤ 100)
    (hbudget : blockBudget.toNat < 2 ^ 53) :
    0 ≤ gapProduct blockBudget remaining ewma fraction ∧
      gapProduct blockBudget remaining ewma fraction ≤ blockBudget.toNat := by
  obtain ⟨hr0, hr1⟩ := gapRatio_mem hle hpos h
  have hprod := mul_nonneg (nearest_toNat_nonneg blockBudget) hr0
  refine ⟨nearest_nonneg hprod, ?_⟩
  have hexact : nearest blockBudget.toNat = blockBudget.toNat := nearest_natCast hbudget
  have hprodle : nearest blockBudget.toNat * gapRatio remaining ewma fraction ≤
      ((blockBudget.toNat : ℤ) : ℚ) := by
    rw [hexact, Int.cast_natCast]
    exact mul_le_of_le_one_right (Nat.cast_nonneg _) hr1
  exact_mod_cast nearest_le_intCast hprod hprodle (by omega)

/-- `(uint64_t)x` cuts off the fraction where the value is in the range. -/
theorem toUInt64_is {x : Double} {q : ℚ} (hx : x.Is q) (h0 : 0 ≤ q) {n : Nat} (h : q ≤ n)
    (hn : n < 2 ^ 64) : (toUInt64 undefined x).toNat = ⌊q⌋₊ := by
  have hfloor : ⌊q⌋₊ ≤ n := by
    have := Nat.floor_le_floor h
    rwa [Nat.floor_natCast] at this
  have hcast : ⌊q⌋ = (⌊q⌋₊ : ℤ) := (Int.natCast_floor_eq_floor h0).symm
  unfold toUInt64
  rw [hx.toInt h0 (by omega) (by omega), hcast]
  show (UInt64.ofNat ⌊q⌋₊).toNat = _
  rw [UInt64.toNat_ofNat_of_lt' (lt_of_le_of_lt hfloor hn)]

/-- The computation in `double`s leaves the range nowhere. -/
theorem gapBlocks_toNat (hle : remaining ≤ ewma) (hpos : 0 < ewma) (h : fraction ≤ 100)
    (hbudget : blockBudget.toNat < 2 ^ 53) :
    ((doubles undefined).gapBlocks blockBudget remaining ewma fraction).toNat =
      ⌊gapProduct blockBudget remaining ewma fraction⌋₊ := by
  obtain ⟨hq0, hq1⟩ := quotient_mem hle hpos
  obtain ⟨hf0, hf1⟩ := fraction_mem h
  obtain ⟨hr0, hr1⟩ := gapRatio_mem hle hpos h
  obtain ⟨hp0, hple⟩ := gapProduct_le hle hpos h hbudget
  have hprod := mul_le_one₀ (nearest_le_one hq0 hq1) hf0 hf1
  have hexact : nearest blockBudget.toNat = blockBudget.toNat := nearest_natCast hbudget
  have hmul : nearest blockBudget.toNat * gapRatio remaining ewma fraction ≤ 2 ^ (64 : ℤ) :=
    le_trans (mul_le_of_le_one_right (nearest_toNat_nonneg _) hr1) (nearest_toNat_le _)
  have hquotient := (ofUInt64_is remaining).div (ofUInt64_is ewma) (nearest_toNat_pos hpos).ne'
    hq0 (in_range (le_two_zpow hq1))
  have hratio := hquotient.mul (ofPercent_is h) (mul_nonneg (nearest_nonneg hq0) hf0)
    (in_range (le_two_zpow hprod))
  have hproduct := (ofUInt64_is blockBudget).mul hratio
    (mul_nonneg (nearest_toNat_nonneg _) hr0) (in_range hmul)
  exact toUInt64_is hproduct hp0 hple blockBudget.toNat_lt

/-- More time left does not make the budget smaller. -/
theorem gapBlocks_mono {remaining' : UInt64} (hle : remaining ≤ remaining')
    (hle' : remaining' ≤ ewma) (hpos : 0 < ewma) (h : fraction ≤ 100)
    (hbudget : blockBudget.toNat < 2 ^ 53) :
    (doubles undefined).gapBlocks blockBudget remaining ewma fraction ≤
      (doubles undefined).gapBlocks blockBudget remaining' ewma fraction := by
  rw [UInt64.le_iff_toNat_le, gapBlocks_toNat (UInt64.le_trans hle hle') hpos h hbudget,
    gapBlocks_toNat hle' hpos h hbudget]
  have hr0 := (gapRatio_mem (UInt64.le_trans hle hle') hpos h).1
  exact Nat.floor_le_floor (nearest_mono (mul_nonneg (nearest_toNat_nonneg _) hr0)
    (mul_le_mul_of_nonneg_left (gapRatio_mono hle hpos) (nearest_toNat_nonneg _)))

/-- The block budget is at most the configured one. -/
theorem gapBlocks_le (hle : remaining ≤ ewma) (hpos : 0 < ewma) (h : fraction ≤ 100)
    (hbudget : blockBudget.toNat < 2 ^ 53) :
    (doubles undefined).gapBlocks blockBudget remaining ewma fraction ≤ blockBudget := by
  rw [UInt64.le_iff_toNat_le, gapBlocks_toNat hle hpos h hbudget]
  have hfloor := Nat.floor_le_floor (gapProduct_le hle hpos h hbudget).2
  rwa [Nat.floor_natCast] at hfloor

/-! ## The time budget of the policy `gap` -/

/-- The time that is left, less the fraction. -/
def gapTimeProduct (remaining : UInt64) (fraction : Nat) : ℚ :=
  nearest (nearest remaining.toNat * nearest (fraction / 100))

/-- A part of less than 2^63 nanoseconds is in the range. -/
theorem gapTimeProduct_lt (h : fraction ≤ 100) (hremaining : remaining.toNat < 2 ^ 63) :
    0 ≤ gapTimeProduct remaining fraction ∧
      gapTimeProduct remaining fraction ≤ (2 ^ 63 : ℕ) := by
  obtain ⟨hf0, hf1⟩ := fraction_mem h
  have hr0 := nearest_toNat_nonneg remaining
  have hprod := mul_nonneg hr0 hf0
  have hpow : nearest (2 ^ (63 : ℤ)) = 2 ^ (63 : ℤ) := by
    have := nearest_eq_self (m := 1) (e := 63) (by norm_num) (by omega)
    rwa [Int.cast_one, one_mul] at this
  have hlt : (remaining.toNat : ℚ) ≤ 2 ^ (63 : ℤ) := by
    have hcast : (remaining.toNat : ℚ) ≤ ((2 ^ 63 : ℕ) : ℚ) := by exact_mod_cast hremaining.le
    exact le_of_le_of_eq hcast (by norm_cast)
  have hround : nearest remaining.toNat ≤ 2 ^ (63 : ℤ) :=
    le_of_le_of_eq (nearest_mono (Nat.cast_nonneg _) hlt) hpow
  refine ⟨nearest_nonneg hprod, ?_⟩
  calc
    gapTimeProduct remaining fraction ≤ nearest (2 ^ (63 : ℤ)) :=
      nearest_mono hprod (le_trans (mul_le_of_le_one_right hr0 hf1) hround)
    _ = (2 ^ 63 : ℕ) := hpow.trans (by norm_cast)

/-- The computation of the time budget leaves the range nowhere. -/
theorem gapTime_toNat (h : fraction ≤ 100) (hremaining : remaining.toNat < 2 ^ 63) :
    ((doubles undefined).gapTime remaining fraction).toNat =
      ⌊gapTimeProduct remaining fraction⌋₊ := by
  obtain ⟨hf0, hf1⟩ := fraction_mem h
  obtain ⟨hp0, hple⟩ := gapTimeProduct_lt h hremaining
  have hprod := mul_nonneg (nearest_toNat_nonneg remaining) hf0
  have hproduct := (ofUInt64_is remaining).mul (ofPercent_is h) hprod (in_range
    (le_trans (mul_le_of_le_one_right (nearest_toNat_nonneg _) hf1) (nearest_toNat_le _)))
  exact toUInt64_is hproduct hp0 hple (by norm_num)

/-- With more of the idle period remaining, the time budget is not smaller. -/
theorem gapTime_mono {remaining' : UInt64} (hle : remaining ≤ remaining') (h : fraction ≤ 100)
    (hremaining : remaining'.toNat < 2 ^ 63) :
    (doubles undefined).gapTime remaining fraction ≤
      (doubles undefined).gapTime remaining' fraction := by
  have hnat := UInt64.le_iff_toNat_le.mp hle
  rw [UInt64.le_iff_toNat_le, gapTime_toNat h (lt_of_le_of_lt hnat hremaining),
    gapTime_toNat h hremaining]
  have hf0 := (fraction_mem h).1
  have hround : nearest remaining.toNat ≤ nearest remaining'.toNat :=
    nearest_mono (Nat.cast_nonneg _) (by exact_mod_cast hnat)
  exact Nat.floor_le_floor (nearest_mono (mul_nonneg (nearest_toNat_nonneg _) hf0)
    (mul_le_mul_of_nonneg_right hround hf0))

end gap

section idle

variable {cfg : BeConfig} {timing : HpTiming} {now now' : UInt64}

/-! ## The budgets while the HP process stays idle -/

/-- The HP process has been idle for longer at a later reading of the clock. -/
theorem elapsedIdle_mono (timing : HpTiming) (h : now ≤ now') :
    elapsedIdle timing now ≤ elapsedIdle timing now' := by
  have hnat := UInt64.le_iff_toNat_le.mp h
  rw [UInt64.le_iff_toNat_le]
  unfold elapsedIdle
  split
  next hlt =>
    have hlast := UInt64.lt_iff_toNat_lt.mp hlt
    rw [if_pos (UInt64.lt_iff_toNat_lt.mpr (by omega)),
      UInt64.toNat_sub_of_le _ _ (UInt64.le_of_lt hlt),
      UInt64.toNat_sub_of_le _ _ (UInt64.le_iff_toNat_le.mpr (by omega))]
    omega
  next => exact Nat.zero_le _

/-- While the HP process is idle, less and less time is left. -/
theorem remainingIdle_anti (h : now ≤ now') :
    remainingIdle cfg timing now' ≤ remainingIdle cfg timing now := by
  have hconsumed := addSaturating_mono (elapsedIdle_mono timing h)
    (UInt64.le_refl cfg.gapGuardNs)
  rw [UInt64.le_iff_toNat_le] at hconsumed ⊢
  unfold remainingIdle
  dsimp only
  split
  next hlt =>
    have hewma := UInt64.lt_iff_toNat_lt.mp hlt
    rw [if_pos (UInt64.lt_iff_toNat_lt.mpr (by omega)),
      UInt64.toNat_sub_of_le _ _ (UInt64.le_of_lt hlt),
      UInt64.toNat_sub_of_le _ _ (UInt64.le_iff_toNat_le.mpr (by omega))]
    omega
  next => exact Nat.zero_le _

/-- No more than the mean idle period remains. -/
theorem remainingIdle_le : remainingIdle cfg timing now ≤ timing.idleEwmaNs := by
  rw [UInt64.le_iff_toNat_le]
  unfold remainingIdle
  dsimp only
  split
  next hlt =>
    rw [UInt64.toNat_sub_of_le _ _ (UInt64.le_of_lt hlt)]
    omega
  next => exact Nat.zero_le _

/-- Raising a budget of zero to one keeps the order. -/
theorem raise_zero_mono {a b : UInt64} (h : a ≤ b) :
    (if a = 0 then 1 else a) ≤ if b = 0 then 1 else b := by
  have hzero : (0 : UInt64).toNat = 0 := rfl
  have hone : (1 : UInt64).toNat = 1 := rfl
  rw [UInt64.le_iff_toNat_le] at h ⊢
  split <;> split <;> simp only [← UInt64.toNat_inj] at * <;> omega

/-- A budget of zero is raised to one. -/
theorem one_le_raise_zero (a : UInt64) : 1 ≤ if a = 0 then 1 else a := by
  have hzero : (0 : UInt64).toNat = 0 := rfl
  have hone : (1 : UInt64).toNat = 1 := rfl
  rw [UInt64.le_iff_toNat_le]
  split <;> simp only [← UInt64.toNat_inj] at * <;> omega

/-- The setting is a percentage. -/
theorem gapFraction_le (getenv : Env) : (eventBeInitializeWindow getenv).gapFraction ≤ 100 :=
  UInt64.le_iff_toNat_le.mp (eventBeParseU64_mem getenv _ (by decide) (by decide)).2

/-- The policy divides by the mean idle period only when that is not zero. -/
theorem gapReady_ewma_pos (h : gapReady timing = true) : 0 < timing.idleEwmaNs := by
  simp only [gapReady, Bool.and_eq_true, decide_eq_true_eq] at h
  exact h.1.2

/-- A positive `uint64_t` is at least one. -/
theorem one_le_of_pos {a : UInt64} (h : 0 < a) : 1 ≤ a :=
  UInt64.le_iff_toNat_le.mpr (UInt64.lt_iff_toNat_lt.mp h)

/-- The block budget is at least one, at most the configured one, and does not grow as
the clock runs on. -/
theorem effectiveBlockBudget_shrinks (undefined : UInt64) (timing : Option HpTiming)
    (hnow : now ≤ now') (hfraction : cfg.gapFraction ≤ 100)
    (hbudget : cfg.blockBudget.toNat < 2 ^ 53) :
    1 ≤ eventBeEffectiveBlockBudgetLocked cfg (doubles undefined) timing now' ∧
      eventBeEffectiveBlockBudgetLocked cfg (doubles undefined) timing now' ≤
        eventBeEffectiveBlockBudgetLocked cfg (doubles undefined) timing now ∧
      eventBeEffectiveBlockBudgetLocked cfg (doubles undefined) timing now ≤
        cfg.blockBudget := by
  have hfixed := And.intro (one_le_of_pos cfg.blockBudget_pos)
    (And.intro (UInt64.le_refl cfg.blockBudget) (UInt64.le_refl cfg.blockBudget))
  unfold eventBeEffectiveBlockBudgetLocked
  split
  · exact hfixed
  · cases timing with
    | none => exact hfixed
    | some timing =>
      dsimp only
      split
      next hready =>
        have hewma := gapReady_ewma_pos hready
        refine ⟨one_le_raise_zero _, raise_zero_mono ?_, raise_zero_le cfg.blockBudget_pos ?_⟩
        · exact gapBlocks_mono (remainingIdle_anti hnow) remainingIdle_le hewma hfraction hbudget
        · exact gapBlocks_le remainingIdle_le hewma hfraction hbudget
      next => exact hfixed

/-- A limit keeps the order of two budgets. -/
theorem min_limit_mono {a b limit : UInt64} (h : a ≤ b) :
    (if a < limit then a else limit) ≤ if b < limit then b else limit := by
  rw [UInt64.le_iff_toNat_le] at h ⊢
  split <;> split <;> rename_i ha hb <;>
    simp only [UInt64.lt_iff_toNat_lt, not_lt] at ha hb <;> omega

/-- The time budget as well. -/
theorem effectiveTimeBudget_shrinks (undefined : UInt64) {timing : Option HpTiming}
    (hnow : now ≤ now') (hfraction : cfg.gapFraction ≤ 100)
    (hewma : ∀ t ∈ timing, t.idleEwmaNs.toNat < 2 ^ 63) :
    1 ≤ eventBeEffectiveTimeBudgetLocked cfg (doubles undefined) timing now' ∧
      eventBeEffectiveTimeBudgetLocked cfg (doubles undefined) timing now' ≤
        eventBeEffectiveTimeBudgetLocked cfg (doubles undefined) timing now ∧
      eventBeEffectiveTimeBudgetLocked cfg (doubles undefined) timing now ≤
        cfg.timeBudgetNs := by
  have hle := effectiveTimeBudget_le cfg (doubles undefined) timing now
  have hfixed := And.intro (one_le_of_pos cfg.timeBudget_pos)
    (And.intro (UInt64.le_refl cfg.timeBudgetNs) (UInt64.le_refl cfg.timeBudgetNs))
  unfold eventBeEffectiveTimeBudgetLocked at hle ⊢
  split
  · exact hfixed
  next hpolicy =>
    rw [if_neg hpolicy] at hle
    cases timing with
    | none => exact hfixed
    | some timing =>
      dsimp only at hle ⊢
      split
      next hready =>
        rw [if_pos hready] at hle
        have hremaining : (remainingIdle cfg timing now).toNat < 2 ^ 63 :=
          lt_of_le_of_lt (UInt64.le_iff_toNat_le.mp remainingIdle_le) (hewma _ rfl)
        exact ⟨one_le_raise_zero _, raise_zero_mono (min_limit_mono
          (gapTime_mono (remainingIdle_anti hnow) hfraction hremaining)), hle⟩
      next => exact hfixed

/-- Under the settings of any environment, what may be in flight behind a launch does
not grow while the HP process stays idle, and stays between one and the configured
budget. -/
theorem effective_budgets_shrink (getenv : Env) (undefined : UInt64) {timing : Option HpTiming}
    {now now' : UInt64} (hnow : now ≤ now')
    (hbudget : (eventBeInitializeWindow getenv).blockBudget.toNat < 2 ^ 53)
    (hewma : ∀ t ∈ timing, t.idleEwmaNs.toNat < 2 ^ 63) :
    let cfg := eventBeInitializeWindow getenv
    let blocks := eventBeEffectiveBlockBudgetLocked cfg (doubles undefined) timing
    let time := eventBeEffectiveTimeBudgetLocked cfg (doubles undefined) timing
    (1 ≤ blocks now' ∧ blocks now' ≤ blocks now ∧ blocks now ≤ cfg.blockBudget) ∧
      (1 ≤ time now' ∧ time now' ≤ time now ∧ time now ≤ cfg.timeBudgetNs) :=
  ⟨effectiveBlockBudget_shrinks undefined timing hnow (gapFraction_le getenv) hbudget,
    effectiveTimeBudget_shrinks undefined hnow (gapFraction_le getenv) hewma⟩

/-- With no settings, a tenth of a millisecond later. -/
theorem effective_budgets_shrink_default :
    let cfg := eventBeInitializeWindow fun _ => none
    let blocks := eventBeEffectiveBlockBudgetLocked cfg (doubles 0) (some longIdleTiming)
    let time := eventBeEffectiveTimeBudgetLocked cfg (doubles 0) (some longIdleTiming)
    (1 ≤ blocks 401000 ∧ blocks 401000 ≤ blocks 301000 ∧ blocks 301000 ≤ cfg.blockBudget) ∧
      (1 ≤ time 401000 ∧ time 401000 ≤ time 301000 ∧ time 301000 ≤ cfg.timeBudgetNs) :=
  effective_budgets_shrink (fun _ => none) 0 (by decide) (by decide) fun t ht => by
    obtain rfl := Option.some.inj ht
    decide

end idle

/-! ## The estimate of the survival policy -/

section percentage

variable {undefined numerator denominator : UInt64}

/-- 100 is a `double`. -/
theorem hundred_is : (Double.ofInt 100).Is 100 := Double.ofInt_is (n := 100) (by omega) (by omega)

/-- `100.0 * (double)numerator / (double)denominator`, for small counts. -/
theorem percentage_quotient_is (hn : numerator.toNat < 2 ^ 46)
    (hd : denominator.toNat < 2 ^ 46) (hpos : 0 < denominator.toNat) :
    (Double.ofInt 100 * ofUInt64 numerator / ofUInt64 denominator).Is
      (nearest (((100 * numerator.toNat : ℕ) : ℚ) / denominator.toNat)) := by
  have hposq : (0 : ℚ) < denominator.toNat := by exact_mod_cast hpos
  have hsmall : ((100 * numerator.toNat : ℕ) : ℚ) ≤ 2 ^ (64 : ℤ) := by
    have hnat : ((100 * numerator.toNat : ℕ) : ℚ) ≤ ((2 ^ 64 : ℕ) : ℚ) := by
      exact_mod_cast (show 100 * numerator.toNat ≤ 2 ^ 64 by omega)
    exact le_of_le_of_eq hnat (by norm_cast)
  have hquot : ((100 * numerator.toNat : ℕ) : ℚ) / denominator.toNat ≤ 2 ^ (64 : ℤ) :=
    le_trans (div_le_self (Nat.cast_nonneg _) (by exact_mod_cast hpos)) hsmall
  have hnumerator := ofUInt64_is numerator
  have hdenominator := ofUInt64_is denominator
  rw [nearest_natCast (by omega)] at hnumerator hdenominator
  have hproduct := hundred_is.mul hnumerator (by positivity)
    (in_range (le_of_eq_of_le (by push_cast; rfl) hsmall))
  have hexact : nearest (100 * numerator.toNat) = ((100 * numerator.toNat : ℕ) : ℚ) := by
    rw [← nearest_natCast (n := 100 * numerator.toNat) (by omega)]
    push_cast
    rfl
  rw [hexact] at hproduct
  exact hproduct.div hdenominator hposq.ne' (by positivity) (in_range hquot)

/-- The integer part of the exact quotient. -/
theorem floor_percentage (hpos : 0 < denominator.toNat) :
    ⌊percentage numerator.toNat denominator.toNat⌋₊ =
      min 100 (100 * numerator.toNat / denominator.toNat) := by
  have hposq : (0 : ℚ) < denominator.toNat := by exact_mod_cast hpos
  have hquot : ⌊(100 * numerator.toNat / denominator.toNat : ℚ)⌋₊ =
      100 * numerator.toNat / denominator.toNat := by
    have := Nat.floor_div_eq_div (K := ℚ) (100 * numerator.toNat) denominator.toNat
    push_cast at this
    exact this
  unfold percentage
  rw [if_neg hpos.ne']
  split
  next hfull =>
    have hle := Nat.floor_le_floor hfull
    rw [hquot, Nat.floor_ofNat] at hle
    rw [Nat.floor_ofNat]
    omega
  next hpart =>
    have hlt : (100 * numerator.toNat / denominator.toNat : ℚ) < (100 : ℕ) := by
      rw [Nat.cast_ofNat]
      exact not_le.mp hpart
    have := (Nat.floor_lt (by positivity)).mpr hlt
    rw [hquot] at this ⊢
    omega

/-- Below 2^46 the percentage in `double`s is the exact one, rounded down. -/
theorem percentage_exact (hn : numerator.toNat < 2 ^ 46) (hd : denominator.toNat < 2 ^ 46)
    (hpos : 0 < denominator.toNat) :
    (doubles undefined).percentage numerator denominator =
      ⌊percentage numerator.toNat denominator.toNat⌋₊ := by
  have hposq : (0 : ℚ) < denominator.toNat := by exact_mod_cast hpos
  have hquotient := percentage_quotient_is hn hd hpos
  have h0 : (0 : ℚ) ≤ ((100 * numerator.toNat : ℕ) : ℚ) / denominator.toNat := by positivity
  rw [floor_percentage hpos]
  show (if _ then _ else _) = _
  by_cases hfull : 100 ≤ 100 * numerator.toNat / denominator.toNat
  · -- the quotient is at least 100, so it is rounded to at least 100
    have hquot : ((100 : ℤ) : ℚ) ≤ ((100 * numerator.toNat : ℕ) : ℚ) / denominator.toNat := by
      rw [le_div_iff₀ hposq]
      exact_mod_cast (Nat.le_div_iff_mul_le hpos).mp hfull
    have hround := intCast_le_nearest (by omega) hquot (by norm_num)
    rw [if_pos ((hundred_is.le_iff hquotient).mpr (by exact_mod_cast hround))]
    omega
  · have hquot : ((100 * numerator.toNat : ℕ) : ℚ) / denominator.toNat < 2 ^ (7 : ℤ) := by
      rw [div_lt_iff₀ hposq]
      have hnat : 100 * numerator.toNat < 128 * denominator.toNat := by
        have := (Nat.div_lt_iff_lt_mul hpos).mp (not_le.mp hfull)
        omega
      calc
        ((100 * numerator.toNat : ℕ) : ℚ) < ((128 * denominator.toNat : ℕ) : ℚ) := by
          exact_mod_cast hnat
        _ = 2 ^ (7 : ℤ) * denominator.toNat := by
          push_cast
          norm_num
    have hsmall : (denominator.toNat : ℚ) * 2 ^ ((7 : ℤ) - 54) < 1 := by
      have hlt : (denominator.toNat : ℚ) < 2 ^ (47 : ℕ) := by exact_mod_cast (by omega)
      calc
        (denominator.toNat : ℚ) * 2 ^ ((7 : ℤ) - 54) < 2 ^ (47 : ℕ) * 2 ^ ((7 : ℤ) - 54) :=
          mul_lt_mul_of_pos_right hlt (two_zpow_pos _)
        _ = 1 := by norm_num
    have hfloor := floor_nearest_div hpos hquot (by omega) (by omega) hsmall
    have hlt : nearest (((100 * numerator.toNat : ℕ) : ℚ) / denominator.toNat) < 100 := by
      have := Int.floor_lt.mp (show ⌊nearest (((100 * numerator.toNat : ℕ) : ℚ) /
        denominator.toNat)⌋ < 100 by omega)
      exact_mod_cast this
    rw [if_neg fun hle => absurd ((hundred_is.le_iff hquotient).mp hle) (not_le.mpr hlt),
      hquotient.toInt (nearest_nonneg h0) (by omega) (by omega), hfloor]
    exact (min_eq_right (not_le.mp hfull).le).symm

end percentage

section history

variable {calls : List HpTimingCall}
  (hlen : (historyOf calls).counted.length < 2 ^ 32)

include hlen

/-- With fewer than 2^32 counted idle periods no bucket is larger. -/
theorem bucket_lt {j : Nat} (hj : j < idleSurvivalBuckets) :
    ((liltEventHpTimingSnapshot (sharedAfter calls)).idleSurvivalCounts j).toNat < 2 ^ 32 := by
  rw [bucket_eq_survivors hlen hj]
  exact lt_of_le_of_lt (survivors_le_length _ _) hlen

/-- The denominator is a bucket or the number of idle periods. -/
theorem denominator_lt (elapsedNs : UInt64) :
    (eventBeSurvivalDenominator (liltEventHpTimingSnapshot (sharedAfter calls))
      elapsedNs).toNat < 2 ^ 32 := by
  rcases survivalDenominator_spec (liltEventHpTimingSnapshot (sharedAfter calls)) elapsedNs with
    heq | ⟨j, hj, -, heq⟩
  · rw [heq, UInt32.toNat_toUInt64]
    exact UInt32.toNat_lt _
  · rw [heq]
    exact bucket_lt hlen hj

/-- The numerator is a bucket or zero. -/
theorem numerator_lt (targetNs : UInt64) :
    (eventBeSurvivalNumerator (liltEventHpTimingSnapshot (sharedAfter calls))
      targetNs).toNat < 2 ^ 32 := by
  rcases survivalNumerator_spec (liltEventHpTimingSnapshot (sharedAfter calls)) targetNs with
    heq | ⟨j, hj, -, heq⟩
  · rw [heq]
    exact Nat.two_pow_pos 32
  · rw [heq]
    exact bucket_lt hlen hj

/-- The percentage that the policy compares is the exact one, rounded down. -/
theorem survivalProbabilityPct_exact (undefined elapsedNs additionalNs : UInt64) :
    eventBeSurvivalProbabilityPct (doubles undefined)
        (liltEventHpTimingSnapshot (sharedAfter calls)) elapsedNs additionalNs =
      eventBeSurvivalProbabilityPct exactFloat
        (liltEventHpTimingSnapshot (sharedAfter calls)) elapsedNs additionalNs := by
  have hd := denominator_lt hlen elapsedNs
  have hn := numerator_lt hlen (eventBeAddSaturating elapsedNs additionalNs)
  unfold eventBeSurvivalProbabilityPct
  dsimp only
  split
  · rfl
  next hne =>
    have hpos : 0 < (eventBeSurvivalDenominator
        (liltEventHpTimingSnapshot (sharedAfter calls)) elapsedNs).toNat :=
      Nat.pos_of_ne_zero fun hzero => hne (UInt64.toNat_inj.mp hzero)
    exact percentage_exact (lt_trans hn (by norm_num)) (lt_trans hd (by norm_num)) hpos

end history

/-- After every history with fewer than 2^32 counted idle periods, the survival policy
admits, promotes and grants on `double`s what it would in exact arithmetic. -/
theorem survivalAdmission_exact (cfg : BeConfig) (undefined : UInt64)
    (calls : List HpTimingCall) (hlen : (historyOf calls).counted.length < 2 ^ 32)
    (w : BeWindow) (now incomingNs : UInt64) :
    eventBeSurvivalAdmissionLocked cfg (doubles undefined) w
        (some (liltEventHpTimingSnapshot (sharedAfter calls))) now incomingNs =
      eventBeSurvivalAdmissionLocked cfg exactFloat w
        (some (liltEventHpTimingSnapshot (sharedAfter calls))) now incomingNs := by
  unfold eventBeSurvivalAdmissionLocked survivalDecision
  simp only [survivalProbabilityPct_exact hlen]

/-- Of forty idle periods ten lasted 100 microseconds and thirty 900; the HP process is idle
again. -/
def fortyIdlePeriods : List HpTimingCall :=
  let periods := (List.range 40).flatMap fun i =>
    let start := UInt64.ofNat (1000000 * (i + 1))
    [.markIdle start, .markActive (start + if i % 4 = 0 then 100000 else 900000)]
  .register 7 1000 :: (periods ++ [.markIdle 50000000])

/-- After 30 microseconds a launch of 5 is admitted, as three of four periods outlast it, and
not promoted. -/
theorem survivalAdmission_exact_forty :
    (eventBeSurvivalAdmissionLocked survivalConfig (doubles 0) .initial
      (some (liltEventHpTimingSnapshot (sharedAfter fortyIdlePeriods))) 50030000 5000).2 =
      some (survivalConfig.survivalInternalWindow, survivalConfig.survivalInternalBudgetNs) := by
  rw [survivalAdmission_exact survivalConfig 0 fortyIdlePeriods (by decide +kernel) .initial
    50030000 5000]
  decide +kernel

end Lilt.Be
