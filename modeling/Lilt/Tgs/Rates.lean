import Lilt.Lib.Binary64

/-!
# The allowance of the BE process (`be_intercept.c`, `hp_intercept.c`)

Without the event policy the HP process reports its rate of thread blocks every five
seconds, and the BE process derives from the reports how many blocks it may launch in
50 ms. The statistics of the reports are the same code on both sides.

- `shiftWindow`, `relativeDelta`: the last five rates, and the rate they suggest.
- `shiftWindow_window`, `shiftWindow_rate`: what the loop of `shift_window` leaves.
- `updateRateLimit`: one step of the allowance, by slow start and congestion avoidance.
- `updateRateLimit_mem`: the allowance stays between 0 and `UPPER_LIMIT`.
- `updateRateLimit_backs_off`: a report off by more than the threshold lowers it.
-/

namespace Lilt.Tgs

open Binary64

/-! ## Numbers -/

/-- The value of a result of type `long long`, which wraps around. -/
def longLong (n : ℤ) : ℤ := n.bmod (2 ^ 64)

/-- `(long long)x`; `undefined` is what comes out for a value out of the range. -/
def toLongLong (undefined : ℤ) (x : Double) : ℤ :=
  (x.toInt (-2 ^ 63) (2 ^ 63)).getD undefined

/-- `0.` -/
def zero : Double := .ofInt 0

/-- `1.` -/
def one : Double := .ofInt 1

/-! ## The statistics of the reports -/

/-- `WINDOW_SIZE` -/
def windowSize : Nat := 5

/-- `rate_window` -/
abbrev Window := Nat → Double

/-- `memset(rate_window, 0, sizeof(rate_window))` -/
def Window.cleared : Window := fun _ => zero

/-- The larger rate, as the code compares them. -/
def larger (x y : Double) : Double := if y < x then x else y

/-- The loop of `shift_window` from the index `i` down to 1. -/
def shiftFrom : (i : Nat) → Window → (maxWindowRate : Double) → Window × Double
  | 0, window, maxWindowRate => (window, maxWindowRate)
  | i + 1, window, maxWindowRate =>
    let meanRate := (window (i + 1) + window i) / .ofInt 2
    shiftFrom i (Function.update window (i + 1) (window i)) (larger maxWindowRate meanRate)

/-- `shift_window` -/
def shiftWindow (window : Window) (size : Nat) (recvRate : Double) : Window × Double :=
  let shifted := shiftFrom (size - 1) window zero
  (Function.update shifted.1 0 recvRate, shifted.2)

/-- `fabs(x) < 1e-12` -/
def negligible (x : Double) : Bool := x.abs < .ofRat (1 / 10 ^ 12)

/-- `relative_delta` -/
def relativeDelta (value baseline : Double) : Double :=
  if negligible baseline then
    if negligible value then zero
    else if zero < value then .infinite false else .infinite true
  else (value - baseline) / baseline

/-- The mean of two successive rates. -/
def meanRate (window : Window) (i : Nat) : Double := (window (i + 1) + window i) / .ofInt 2

/-- The largest of the first `n` means and `maxWindowRate`, from the last one on. -/
def largestMean (window : Window) : (n : Nat) → (maxWindowRate : Double) → Double
  | 0, maxWindowRate => maxWindowRate
  | n + 1, maxWindowRate => largestMean window n (larger maxWindowRate (meanRate window n))

theorem largestMean_congr {window window' : Window} {n : Nat}
    (h : ∀ i ≤ n, window i = window' i) (maxWindowRate : Double) :
    largestMean window n maxWindowRate = largestMean window' n maxWindowRate := by
  induction n generalizing maxWindowRate with
  | zero => rfl
  | succ n ih =>
    have hmean : meanRate window n = meanRate window' n := by
      rw [meanRate, meanRate, h n (by omega), h (n + 1) (by omega)]
    rw [largestMean, largestMean, hmean]
    exact ih (fun i hi => h i (by omega)) _

/-- The loop moves each rate up by one and reads every rate before it is overwritten. -/
theorem shiftFrom_eq (n : Nat) (window : Window) (maxWindowRate : Double) :
    shiftFrom n window maxWindowRate =
      (fun i => if 0 < i ∧ i ≤ n then window (i - 1) else window i,
        largestMean window n maxWindowRate) := by
  induction n generalizing window maxWindowRate with
  | zero =>
    have hnone : ∀ i, ¬ (0 < i ∧ i ≤ 0) := by omega
    simp only [hnone, if_false]
    rfl
  | succ n ih =>
    have hbelow : ∀ i ≤ n, Function.update window (n + 1) (window n) i = window i :=
      fun i hi => Function.update_of_ne (by omega) _ _
    show shiftFrom n (Function.update window (n + 1) (window n)) _ = _
    rw [ih, largestMean_congr hbelow]
    refine Prod.ext (funext fun i => ?_) rfl
    dsimp only
    by_cases hi : 0 < i ∧ i ≤ n
    · rw [if_pos hi, if_pos ⟨hi.1, by omega⟩, hbelow _ (by omega)]
    · rw [if_neg hi]
      by_cases hlast : i = n + 1
      · subst hlast
        rw [Function.update_self, if_pos ⟨by omega, le_refl _⟩]
        rfl
      · rw [Function.update_of_ne hlast, if_neg (by omega)]

/-- The new rate comes first, the others move up by one. -/
theorem shiftWindow_window (window : Window) (size : Nat) (recvRate : Double) (i : Nat) :
    (shiftWindow window size recvRate).1 i =
      if i = 0 then recvRate else if i < size then window (i - 1) else window i := by
  unfold shiftWindow
  rw [shiftFrom_eq]
  dsimp only
  by_cases hi : i = 0
  · rw [hi, Function.update_self, if_pos rfl]
  · rw [Function.update_of_ne hi, if_neg hi]
    by_cases hsize : i < size
    · rw [if_pos hsize, if_pos ⟨by omega, by omega⟩]
    · rw [if_neg hsize, if_neg (by omega)]

/-- The rate is taken from the window before the new one is put in. -/
theorem shiftWindow_rate (window : Window) (size : Nat) (recvRate : Double) :
    (shiftWindow window size recvRate).2 = largestMean window (size - 1) zero := by
  unfold shiftWindow
  rw [shiftFrom_eq]

/-! ## The allowance -/

/-- `UPPER_LIMIT` -/
def upperLimit : ℤ := 100000000000000

/-- `RATE_MIN` -/
def rateMin : ℤ := 1000

/-- The state of the controller; `unset` is the -1 it starts with. -/
inductive TgsState where
  | unset
  | slowStart
  | congestionAvoidance
  deriving DecidableEq

/-- The variables that `update_rate_limit` keeps from call to call. -/
structure Kept where
  sign : ℤ
  maxDiffCounter : Nat
  deriving DecidableEq

/-- Where a step of the allowance stands. -/
structure Allowance where
  rateLimit : ℤ
  state : TgsState
  kept : Kept
  /-- `*p_max_rate` -/
  maxRate : Double

/-- `fabs(recv_rate - max_rate) / denominator` -/
def rateDelta (recvRate maxRate : Double) : Double :=
  (recvRate - maxRate).abs / if negligible maxRate then one else maxRate.abs

/-- `min(UPPER_LIMIT, max(3 * g_current_rate[device], floor))` -/
def rateCeiling (currentRate floor : ℤ) : ℤ :=
  min upperLimit (max (longLong (3 * currentRate)) floor)

section update

variable (undefined : ℤ)

/-- The case `TGS_SLOW_START`. -/
def slowStart (currentRate : ℤ) (delta threshold : Double) (a : Allowance) : Allowance :=
  if delta ≤ threshold then
    { a with
      rateLimit := min
        (toLongLong undefined (.ofInt a.rateLimit * .ofRat (3 / 2) + one))
        (rateCeiling currentRate (2 ^ 40)) }
  else
    { a with
      rateLimit := toLongLong undefined (.ofInt a.rateLimit / .ofRat (3 / 2))
      kept := { a.kept with sign := -1 }
      state := .congestionAvoidance }

/-- What congestion avoidance adds. -/
def rateIncrease (maxRate : Double) : ℤ :=
  max (toLongLong undefined (maxRate * .ofRat (25 / 100000))) rateMin

/-- What congestion avoidance takes away. -/
def rateDecrease (rateLimit : ℤ) : ℤ :=
  max (toLongLong undefined (.ofInt rateLimit * .ofRat (8 / 100))) rateMin

/-- The case `TGS_CONGESTION_AVOIDANCE`. -/
def congestionAvoidance (currentRate : ℤ) (delta maxRate threshold : Double) (a : Allowance) :
    Allowance :=
  let a :=
    if a.kept.sign = -1 ∧ delta ≤ threshold ∨ a.kept.sign = 1 ∧ delta < threshold then
      { a with
        rateLimit := min (longLong (a.rateLimit + rateIncrease undefined maxRate))
          (rateCeiling currentRate (65536 * 65536))
        kept := { a.kept with sign := 1 } }
    else
      { a with
        rateLimit := min (longLong (a.rateLimit - rateDecrease undefined a.rateLimit))
          (rateCeiling currentRate (65536 * 65536))
        kept := { a.kept with sign := -1 } }
  if .ofInt 3 * threshold ≤ delta then
    { a with state := .slowStart, rateLimit := a.rateLimit.tdiv 10 }
  else a

/-- The part about `max_diff_counter`. -/
def largeDelta (delta threshold : Double) (a : Allowance) : Allowance :=
  if .ofInt 4 * threshold ≤ delta then
    if 20 ≤ a.kept.maxDiffCounter + 1 then
      { rateLimit := a.rateLimit.tdiv 2
        state := .slowStart
        kept := { a.kept with maxDiffCounter := 0 }
        maxRate := a.maxRate * .ofRat (8 / 10) }
    else { a with kept := { a.kept with maxDiffCounter := a.kept.maxDiffCounter + 1 } }
  else { a with kept := { a.kept with maxDiffCounter := 0 } }

/-- `update_rate_limit`; `a.rateLimit` is `g_rate_limit[device]`, and `a.maxRate` is both
`max_rate` and `*p_max_rate`. -/
def updateRateLimit (currentRate : ℤ) (recvRate threshold : Double) (a : Allowance) : Allowance :=
  let delta := rateDelta recvRate a.maxRate
  let adjusted :=
    match a.state with
    | .unset => a
    | .slowStart => slowStart undefined currentRate delta threshold a
    | .congestionAvoidance =>
      congestionAvoidance undefined currentRate delta a.maxRate threshold a
  let adjusted := largeDelta delta threshold adjusted
  { adjusted with rateLimit := if adjusted.rateLimit ≤ 0 then 0 else adjusted.rateLimit }

end update

/-! ## The allowance stays in its range -/

theorem rateCeiling_le (currentRate floor : ℤ) : rateCeiling currentRate floor ≤ upperLimit :=
  min_le_left _ _

theorem longLong_eq {n : ℤ} (h : -2 ^ 63 ≤ n ∧ n < 2 ^ 63) : longLong n = n := by
  unfold longLong
  exact Int.bmod_eq_of_le (by omega) (by omega)

theorem three_halves_is : (Double.ofRat (3 / 2)).Is (3 / 2) := by
  have hexact := nearest_eq_self (m := 3) (e := -1) (by norm_num) (by norm_num)
  have hvalue : ((3 : ℤ) : ℚ) * 2 ^ (-1 : ℤ) = 3 / 2 := by norm_num
  have h := Double.ofRat_is (q := 3 / 2) (by norm_num)
    (lt_of_lt_of_le (by norm_num : (3 / 2 : ℚ) < 2 ^ (1 : ℤ)) (two_zpow_mono (by norm_num)))
  rwa [← hvalue, hexact, hvalue] at h

section range

variable {undefined currentRate : ℤ} {delta threshold maxRate : Double} {a : Allowance} {r : Nat}

/-- The quotient by 1.5 is that of integer arithmetic. -/
theorem toLongLong_div (h : r ≤ upperLimit) :
    toLongLong undefined (.ofInt r / .ofRat (3 / 2)) = (2 * r / 3 : Nat) := by
  have hr : (Double.ofInt r).Is r := by
    have := Double.ofInt_is (n := r) (by omega) (by unfold upperLimit at h; omega)
    rwa [Int.cast_natCast] at this
  have hquot : (r : ℚ) / (3 / 2) = ((2 * r : ℕ) : ℚ) / (3 : ℕ) := by
    push_cast
    ring
  have hsize : ((2 * r : ℕ) : ℚ) / (3 : ℕ) < 2 ^ (47 : ℤ) := by
    have hnat : ((2 * r : ℕ) : ℚ) < (3 * 2 ^ 47 : ℕ) := by
      exact_mod_cast (show 2 * r < 3 * 2 ^ 47 by unfold upperLimit at h; omega)
    rw [div_lt_iff₀ (by norm_num)]
    push_cast at hnat ⊢
    norm_num at hnat ⊢
    linarith
  have his := hr.div three_halves_is (by norm_num) (by positivity)
    (by rw [hquot]; exact lt_of_lt_of_le hsize (two_zpow_mono (by norm_num)))
  rw [hquot] at his
  have hfloor := floor_nearest_div (by norm_num) hsize (by norm_num) (by norm_num)
    (by norm_num)
  unfold toLongLong
  rw [his.toInt (nearest_nonneg (by positivity)) (by norm_num)
    (by rw [hfloor]; unfold upperLimit at h; omega), hfloor]
  rfl

/-- The constant 0.08 is rounded up. -/
theorem eight_percent_is : ∃ c : ℚ, (Double.ofRat (8 / 100)).Is c ∧ 8 / 100 ≤ c ∧ c ≤ 1 := by
  have hdigits : nearest (8 / 100) = (5764607523034235 : ℤ) * 2 ^ ((-4 : ℤ) - 52) :=
    nearest_eq (by norm_num) (by norm_num) (by norm_num) (by norm_num [abs_lt])
  refine ⟨_, Double.ofRat_is (q := 8 / 100) (by norm_num) ?_, ?_, ?_⟩
  · exact lt_of_lt_of_le (by norm_num : (8 / 100 : ℚ) < 2 ^ (1 : ℤ)) (two_zpow_mono (by norm_num))
  · rw [hdigits]
    norm_num
  · rw [hdigits]
    norm_num

/-- What congestion avoidance takes away is about a twelfth, and at least `RATE_MIN`. -/
theorem rateDecrease_mem (undefined : ℤ) (h : r ≤ upperLimit) :
    (2 * r / 25 : Nat) ≤ rateDecrease undefined r ∧ rateMin ≤ rateDecrease undefined r ∧
      rateDecrease undefined r ≤ max (r : ℤ) rateMin := by
  obtain ⟨c, hc, hlow, hhigh⟩ := eight_percent_is
  have hsmall : (r : ℤ) < 2 ^ 53 := by
    unfold upperLimit at h
    omega
  have hr : (Double.ofInt r).Is r := by
    have := Double.ofInt_is (n := r) (by omega) hsmall
    rwa [Int.cast_natCast] at this
  have hprod : 0 ≤ r * c := by positivity
  have hle : (r * c : ℚ) ≤ ((r : ℤ) : ℚ) := by
    rw [Int.cast_natCast]
    exact mul_le_of_le_one_right (Nat.cast_nonneg _) hhigh
  have hge : (((2 * r / 25 : ℕ) : ℤ) : ℚ) ≤ r * c := by
    calc
      (((2 * r / 25 : ℕ) : ℤ) : ℚ) ≤ ((2 * r : ℕ) : ℚ) / (25 : ℕ) := by
        rw [Int.cast_natCast]
        exact Nat.cast_div_le
      _ = r * (8 / 100) := by
        push_cast
        ring
      _ ≤ r * c := mul_le_mul_of_nonneg_left hlow (Nat.cast_nonneg _)
  have hsize : (r * c : ℚ) < 2 ^ (1023 : ℤ) := by
    have h53 : ((r : ℤ) : ℚ) < 2 ^ (53 : ℤ) := by exact_mod_cast hsmall
    exact lt_of_le_of_lt hle (lt_of_lt_of_le h53 (two_zpow_mono (by norm_num)))
  have his := hr.mul hc hprod hsize
  have hbelow := nearest_le_intCast hprod hle hsmall
  have habove := intCast_le_nearest (Int.natCast_nonneg _) hge (by omega)
  have hfloor : ⌊nearest (r * c)⌋ ≤ r := by exact_mod_cast Int.floor_mono hbelow
  have hfloor' : ((2 * r / 25 : ℕ) : ℤ) ≤ ⌊nearest (r * c)⌋ := Int.le_floor.mpr habove
  have hvalue : toLongLong undefined (.ofInt r * .ofRat (8 / 100)) = ⌊nearest (r * c)⌋ := by
    unfold toLongLong
    rw [his.toInt (nearest_nonneg hprod) (by norm_num) (by omega)]
    rfl
  unfold rateDecrease
  rw [hvalue]
  exact ⟨le_trans hfloor' (le_max_left _ _), le_max_right _ _, max_le_max_right _ hfloor⟩

theorem slowStart_le (h0 : 0 ≤ a.rateLimit) (h : a.rateLimit ≤ upperLimit) :
    (slowStart undefined currentRate delta threshold a).rateLimit ≤ upperLimit := by
  obtain ⟨r, hr⟩ := Int.eq_ofNat_of_zero_le h0
  unfold slowStart
  split
  · exact le_trans (min_le_right _ _) (rateCeiling_le _ _)
  · show toLongLong undefined (.ofInt a.rateLimit / .ofRat (3 / 2)) ≤ upperLimit
    rw [hr] at h ⊢
    rw [toLongLong_div h]
    omega

/-- A bound that is not negative is kept by a division. -/
theorem tdiv_le_of_le {n d b : ℤ} (hd : 0 < d) (hb : 0 ≤ b) (h : n ≤ b) : n.tdiv d ≤ b := by
  calc
    n.tdiv d ≤ b.tdiv d := Int.tdiv_le_tdiv hd h
    _ ≤ b := Int.tdiv_le_self _ hb

theorem upperLimit_nonneg : 0 ≤ upperLimit := by decide

theorem congestionAvoidance_le :
    (congestionAvoidance undefined currentRate delta maxRate threshold a).rateLimit ≤
      upperLimit := by
  have hmin : ∀ n, min n (rateCeiling currentRate (65536 * 65536)) ≤ upperLimit :=
    fun n => le_trans (min_le_right _ _) (rateCeiling_le _ _)
  unfold congestionAvoidance
  dsimp only
  split <;> split
  · exact tdiv_le_of_le (by norm_num) upperLimit_nonneg (hmin _)
  · exact tdiv_le_of_le (by norm_num) upperLimit_nonneg (hmin _)
  · exact hmin _
  · exact hmin _

theorem largeDelta_le (delta threshold : Double) {b : ℤ} (hb : 0 ≤ b) (h : a.rateLimit ≤ b) :
    (largeDelta delta threshold a).rateLimit ≤ b := by
  unfold largeDelta
  split
  · split
    · exact tdiv_le_of_le (by norm_num) hb h
    · exact h
  · exact h

/-- A bound on the adjusted allowance is one on the result. -/
theorem updateRateLimit_le {recvRate : Double} {b : ℤ} (hb : 0 ≤ b)
    (hunset : a.state = .unset → a.rateLimit ≤ b)
    (hslow : a.state = .slowStart →
      (slowStart undefined currentRate (rateDelta recvRate a.maxRate) threshold a).rateLimit ≤ b)
    (havoid : a.state = .congestionAvoidance → (congestionAvoidance undefined currentRate
      (rateDelta recvRate a.maxRate) a.maxRate threshold a).rateLimit ≤ b) :
    0 ≤ (updateRateLimit undefined currentRate recvRate threshold a).rateLimit ∧
      (updateRateLimit undefined currentRate recvRate threshold a).rateLimit ≤ b := by
  have hclamp : ∀ c : Allowance, c.rateLimit ≤ b →
      0 ≤ (if (largeDelta (rateDelta recvRate a.maxRate) threshold c).rateLimit ≤ 0 then 0
        else (largeDelta (rateDelta recvRate a.maxRate) threshold c).rateLimit) ∧
      (if (largeDelta (rateDelta recvRate a.maxRate) threshold c).rateLimit ≤ 0 then 0
        else (largeDelta (rateDelta recvRate a.maxRate) threshold c).rateLimit) ≤ b := by
    intro c hc
    have hlarge := largeDelta_le (rateDelta recvRate a.maxRate) threshold hb hc
    split
    · exact ⟨le_refl _, hb⟩
    · exact ⟨by omega, hlarge⟩
  unfold updateRateLimit
  dsimp only
  split
  next hstate => exact hclamp _ (hunset hstate)
  next hstate => exact hclamp _ (hslow hstate)
  next hstate => exact hclamp _ (havoid hstate)

/-- Whatever is reported, the allowance stays between 0 and `UPPER_LIMIT`. -/
theorem updateRateLimit_mem {recvRate : Double} (h0 : 0 ≤ a.rateLimit)
    (h : a.rateLimit ≤ upperLimit) :
    0 ≤ (updateRateLimit undefined currentRate recvRate threshold a).rateLimit ∧
      (updateRateLimit undefined currentRate recvRate threshold a).rateLimit ≤ upperLimit :=
  updateRateLimit_le upperLimit_nonneg (fun _ => h) (fun _ => slowStart_le h0 h)
    fun _ => congestionAvoidance_le

/-- A controller that has started goes on. -/
theorem updateRateLimit_state {recvRate : Double} (h : a.state ≠ .unset) :
    (updateRateLimit undefined currentRate recvRate threshold a).state ≠ .unset := by
  have hlarge : ∀ c : Allowance, c.state ≠ .unset →
      (largeDelta (rateDelta recvRate a.maxRate) threshold c).state ≠ .unset := by
    intro c hc
    unfold largeDelta
    split
    · split
      · exact TgsState.noConfusion
      · exact hc
    · exact hc
  unfold updateRateLimit
  refine hlarge _ ?_
  split
  · exact h
  next hstate =>
    unfold slowStart
    split
    · exact h
    · exact TgsState.noConfusion
  next hstate =>
    have hsame : ∀ b : Allowance, b.state = a.state → (if Double.ofInt 3 * threshold ≤
        rateDelta recvRate a.maxRate then
          { b with state := .slowStart, rateLimit := b.rateLimit.tdiv 10 }
        else b).state ≠ .unset := by
      intro b hb
      split
      · exact TgsState.noConfusion
      · exact hb ▸ h
    unfold congestionAvoidance
    refine hsame _ ?_
    split <;> rfl

/-! ## A report that is off lowers the allowance -/

/-- What is left at most of an allowance of `r` after such a report: two thirds of it, or
what congestion avoidance leaves. -/
def backedOff (r : Nat) : Nat := max (2 * r / 3) (r - max (2 * r / 25) 1000)

theorem slowStart_backs_off (h : r ≤ upperLimit) (hr : a.rateLimit = r)
    (hdelta : ¬ delta ≤ threshold) :
    (slowStart undefined currentRate delta threshold a).rateLimit ≤ backedOff r := by
  unfold slowStart
  rw [if_neg hdelta]
  show toLongLong undefined (.ofInt a.rateLimit / .ofRat (3 / 2)) ≤ backedOff r
  rw [hr, toLongLong_div h]
  exact_mod_cast le_max_left _ _

theorem congestionAvoidance_backs_off (h : r ≤ upperLimit) (hr : a.rateLimit = r)
    (hdelta : ¬ delta ≤ threshold) :
    (congestionAvoidance undefined currentRate delta maxRate threshold a).rateLimit ≤
      backedOff r := by
  have hbacked : (0 : ℤ) ≤ backedOff r := Int.natCast_nonneg _
  obtain ⟨hlow, hmin, hhigh⟩ := rateDecrease_mem undefined h
  have hdecrease : longLong (r - rateDecrease undefined r) = r - rateDecrease undefined r := by
    refine longLong_eq ?_
    unfold upperLimit at h
    unfold rateMin at hmin hhigh
    omega
  have hmain : min (longLong (a.rateLimit - rateDecrease undefined a.rateLimit))
      (rateCeiling currentRate (65536 * 65536)) ≤ backedOff r := by
    refine le_trans (min_le_left _ _) ?_
    rw [hr, hdecrease]
    unfold backedOff
    unfold rateMin at hmin
    omega
  have hoff : ¬ (a.kept.sign = -1 ∧ delta ≤ threshold ∨ a.kept.sign = 1 ∧ delta < threshold) := by
    rintro (⟨-, hle⟩ | ⟨-, hlt⟩)
    · exact hdelta hle
    · exact hdelta (Double.le_of_lt hlt)
  unfold congestionAvoidance
  dsimp only
  rw [if_neg hoff]
  split
  · exact tdiv_le_of_le (by norm_num) hbacked hmain
  · exact hmain

theorem updateRateLimit_backs_off {recvRate : Double} (h : r ≤ upperLimit)
    (hr : a.rateLimit = r) (hstate : a.state ≠ .unset)
    (hdelta : ¬ rateDelta recvRate a.maxRate ≤ threshold) :
    (updateRateLimit undefined currentRate recvRate threshold a).rateLimit ≤ backedOff r :=
  (updateRateLimit_le (Int.natCast_nonneg _) (fun hunset => absurd hunset hstate)
    (fun _ => slowStart_backs_off h hr hdelta)
    fun _ => congestionAvoidance_backs_off h hr hdelta).2

theorem backedOff_mono {r s : Nat} (h : r ≤ s) : backedOff r ≤ backedOff s := by
  unfold backedOff
  omega

end range

end Lilt.Tgs
