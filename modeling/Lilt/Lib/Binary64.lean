import Mathlib.Data.Int.Log
import Mathlib.Data.Nat.Cast.Order.Field
import Mathlib.Data.Rat.Floor
import Mathlib.Tactic.Linarith
import Mathlib.Tactic.Positivity
import Mathlib.Tactic.NormNum

/-!
# The numbers of the format binary64

A finite value is a rational number `m * 2 ^ e` with 53 bits for `m`; the result
of an operation is the exact one, rounded to the nearest such number and, between
two of them, to the one whose last bit is even. Results out of the range become
infinite. The sign of a zero is not kept.

- `nearestEven`, `nearest`: rounding to an integer and to 53 bits.
- `nearest_mono`, `nearest_eq_self`, `abs_sub_nearest_le`: rounding keeps the order and
  the numbers of the format, and moves a number by half a unit in the last place.
- `floor_nearest_div`: the integer part of a rounded quotient is that of the exact
  one, as long as the divisor is small against the precision.
- `Double`: the values with the infinities and with the undefined result, and
  their operations; `Double.toInt` is the conversion to an integer type.
- `Double.Nonneg`: the values that are not below zero, closed under the operations.
-/

namespace Binary64

/-! ## Rounding to an integer -/

/-- The integer nearest to `q`; in the middle of two, the even one. -/
def nearestEven (q : ℚ) : ℤ :=
  if q - ⌊q⌋ < 1 / 2 ∨ q - ⌊q⌋ = 1 / 2 ∧ ⌊q⌋ % 2 = 0 then ⌊q⌋ else ⌊q⌋ + 1

theorem floor_le_nearestEven (q : ℚ) : ⌊q⌋ ≤ nearestEven q := by
  unfold nearestEven
  split <;> omega

theorem nearestEven_le_floor_add_one (q : ℚ) : nearestEven q ≤ ⌊q⌋ + 1 := by
  unfold nearestEven
  split <;> omega

@[simp] theorem nearestEven_intCast (n : ℤ) : nearestEven n = n := by
  simp [nearestEven]

theorem abs_sub_nearestEven_le (q : ℚ) : |q - nearestEven q| ≤ 1 / 2 := by
  have hlow := Int.floor_le q
  have hhigh := Int.lt_floor_add_one q
  unfold nearestEven
  split
  next h =>
    have hdown : q - ⌊q⌋ ≤ 1 / 2 := h.elim le_of_lt fun h => le_of_eq h.1
    rw [abs_le]
    constructor <;> linarith
  next h =>
    have hup : 1 / 2 ≤ q - ⌊q⌋ := not_lt.mp fun hlt => h (.inl hlt)
    push_cast
    rw [abs_le]
    constructor <;> linarith

theorem nearestEven_mono {a b : ℚ} (h : a ≤ b) : nearestEven a ≤ nearestEven b := by
  rcases lt_or_eq_of_le (Int.floor_mono h) with hlt | heq
  · calc
      nearestEven a ≤ ⌊a⌋ + 1 := nearestEven_le_floor_add_one a
      _ ≤ ⌊b⌋ := hlt
      _ ≤ nearestEven b := floor_le_nearestEven b
  · -- between the same two integers, what rounds `b` down rounds `a` down
    unfold nearestEven
    rw [heq]
    split
    next => split <;> omega
    next ha =>
      rw [if_neg]
      rintro (hb | ⟨hb, heven⟩)
      · exact ha (.inl (by linarith))
      · rcases lt_or_eq_of_le (show a - ⌊b⌋ ≤ 1 / 2 by linarith) with hlt | hmid
        · exact ha (.inl hlt)
        · exact ha (.inr ⟨hmid, heven⟩)

/-- What is nearer than half is the nearest. -/
theorem nearestEven_eq {q : ℚ} {m : ℤ} (h : |q - m| < 1 / 2) : nearestEven q = m := by
  have hnear := abs_le.mp (abs_sub_nearestEven_le q)
  have hm := abs_lt.mp h
  have hlow : (nearestEven q : ℚ) < (m + 1 : ℤ) := by
    push_cast
    linarith
  have hhigh : (m : ℚ) < (nearestEven q + 1 : ℤ) := by
    push_cast
    linarith
  have hlow' : nearestEven q < m + 1 := by exact_mod_cast hlow
  have hhigh' : m < nearestEven q + 1 := by exact_mod_cast hhigh
  omega

/-! ## Rounding to 53 bits -/

/-- The exponent of the last of the 53 bits of `q`. -/
def lastPlace (q : ℚ) : ℤ := max (Int.log 2 |q| - 52) (-1074)

/-- The number of the format that is nearest to `q`. -/
def nearest (q : ℚ) : ℚ := nearestEven (q / 2 ^ lastPlace q) * 2 ^ lastPlace q

theorem two_zpow_pos (e : ℤ) : (0 : ℚ) < 2 ^ e := zpow_pos (by norm_num) e

theorem two_zpow_mono {d e : ℤ} (h : d ≤ e) : (2 : ℚ) ^ d ≤ 2 ^ e :=
  zpow_le_zpow_right₀ (by norm_num) h

/-- A power of two with a larger exponent is a multiple. -/
theorem two_zpow_div {d e : ℤ} (h : d ≤ e) :
    ((2 ^ (e - d).toNat : ℤ) : ℚ) = 2 ^ e / 2 ^ d := by
  rw [← zpow_sub₀ (by norm_num : (2 : ℚ) ≠ 0)]
  push_cast
  rw [← zpow_natCast, Int.toNat_of_nonneg (by omega)]

@[simp] theorem nearest_zero : nearest 0 = 0 := by
  have h : nearestEven 0 = 0 := nearestEven_intCast 0
  rw [nearest, zero_div, h, Int.cast_zero, zero_mul]

/-- The last place of a number below `2 ^ k`. -/
theorem lastPlace_le {q : ℚ} {k : ℤ} (hne : q ≠ 0) (hq : |q| < 2 ^ k) (hk : -1021 ≤ k) :
    lastPlace q ≤ k - 53 := by
  have hlog := (Int.lt_zpow_iff_log_lt (b := 2) (by decide) (abs_pos.mpr hne)).mp
    (by exact_mod_cast hq)
  unfold lastPlace
  omega

theorem lastPlace_eq {q : ℚ} {k : ℤ} (hlow : 2 ^ k ≤ q) (hhigh : q < 2 ^ (k + 1))
    (hk : -1022 ≤ k) : lastPlace q = k - 52 := by
  have hpos : 0 < q := lt_of_lt_of_le (two_zpow_pos k) hlow
  have hlog := (Int.zpow_le_iff_le_log (b := 2) (by decide) hpos).mp (by exact_mod_cast hlow)
  have hlog' := (Int.lt_zpow_iff_log_lt (b := 2) (by decide) hpos).mp (by exact_mod_cast hhigh)
  unfold lastPlace
  rw [abs_of_pos hpos]
  omega

/-- Rounding a given number: `m` are its digits. -/
theorem nearest_eq {q : ℚ} {k m : ℤ} (hlow : 2 ^ k ≤ q) (hhigh : q < 2 ^ (k + 1))
    (hk : -1022 ≤ k) (h : |q / 2 ^ (k - 52) - m| < 1 / 2) : nearest q = m * 2 ^ (k - 52) := by
  rw [nearest, lastPlace_eq hlow hhigh hk, nearestEven_eq h]

/-- What comes out is as far away as half a unit in the last place. -/
theorem abs_sub_nearest_le_lastPlace (q : ℚ) : |q - nearest q| ≤ 2 ^ lastPlace q / 2 := by
  have hpos := two_zpow_pos (lastPlace q)
  have hscaled := mul_le_mul_of_nonneg_right (abs_sub_nearestEven_le (q / 2 ^ lastPlace q)) hpos.le
  rw [← abs_of_pos hpos, ← abs_mul, abs_of_pos hpos, sub_mul, div_mul_cancel₀ _ hpos.ne'] at hscaled
  calc
    |q - nearest q| ≤ 1 / 2 * 2 ^ lastPlace q := hscaled
    _ = 2 ^ lastPlace q / 2 := by ring

/-- The error of rounding a number below `2 ^ k`. -/
theorem abs_sub_nearest_le {q : ℚ} {k : ℤ} (hq : |q| < 2 ^ k) (hk : -1021 ≤ k) :
    |q - nearest q| ≤ 2 ^ (k - 54) := by
  rcases eq_or_ne q 0 with rfl | hne
  · rw [nearest_zero, sub_zero, abs_zero]
    exact (two_zpow_pos _).le
  · have hstep : (2 : ℚ) ^ (k - 53) / 2 = 2 ^ (k - 54) := by
      rw [show k - 53 = k - 54 + 1 by omega, zpow_add_one₀ (by norm_num)]
      exact mul_div_cancel_right₀ _ (by norm_num)
    calc
      |q - nearest q| ≤ 2 ^ lastPlace q / 2 := abs_sub_nearest_le_lastPlace q
      _ ≤ 2 ^ (k - 53) / 2 := by
        have := two_zpow_mono (lastPlace_le hne hq hk)
        linarith
      _ = 2 ^ (k - 54) := hstep

/-- A multiple of the last place is left as it is. -/
theorem nearest_eq_of_multiple {q : ℚ} {m : ℤ} (h : q = m * 2 ^ lastPlace q) : nearest q = q := by
  have hne := (two_zpow_pos (lastPlace q)).ne'
  have hdiv : q / 2 ^ lastPlace q = m := by
    rw [div_eq_iff hne]
    exact h
  rw [nearest, hdiv, nearestEven_intCast]
  exact h.symm

/-- The numbers of the format are left as they are. -/
theorem nearest_eq_self {m e : ℤ} (hm : |m| < 2 ^ 53) (he : -1074 ≤ e) :
    nearest (m * 2 ^ e : ℚ) = m * 2 ^ e := by
  rcases eq_or_ne m 0 with rfl | hne
  · simp
  · have hpos := two_zpow_pos e
    have hq : (m * 2 ^ e : ℚ) ≠ 0 := mul_ne_zero (by exact_mod_cast hne) hpos.ne'
    have hlt : |(m * 2 ^ e : ℚ)| < 2 ^ (53 + e) := by
      rw [abs_mul, abs_of_pos hpos, zpow_add₀ (by norm_num)]
      refine mul_lt_mul_of_pos_right ?_ hpos
      exact_mod_cast hm
    have hplace : lastPlace (m * 2 ^ e : ℚ) ≤ e := by
      have := lastPlace_le hq hlt (by omega)
      omega
    refine nearest_eq_of_multiple (m := m * 2 ^ (e - lastPlace (m * 2 ^ e : ℚ)).toNat) ?_
    rw [Int.cast_mul, two_zpow_div hplace, mul_assoc, div_mul_cancel₀ _ (two_zpow_pos _).ne']

theorem nearest_intCast {n : ℤ} (h : |n| < 2 ^ 53) : nearest n = n := by
  have := nearest_eq_self h (e := 0) (by omega)
  rwa [zpow_zero, mul_one] at this

theorem nearest_natCast {n : ℕ} (h : n < 2 ^ 53) : nearest n = n := by
  have := nearest_intCast (n := n) (by rw [Nat.abs_cast]; omega)
  exact_mod_cast this

theorem nearest_nonneg {q : ℚ} (h : 0 ≤ q) : 0 ≤ nearest q := by
  have hpos := two_zpow_pos (lastPlace q)
  have hfloor : 0 ≤ ⌊q / 2 ^ lastPlace q⌋ := Int.floor_nonneg.mpr (by positivity)
  have hnear : (0 : ℚ) ≤ nearestEven (q / 2 ^ lastPlace q) := by
    exact_mod_cast le_trans hfloor (floor_le_nearestEven _)
  exact mul_nonneg hnear hpos.le

theorem lastPlace_mono {a b : ℚ} (ha : 0 < a) (h : a ≤ b) : lastPlace a ≤ lastPlace b := by
  have hlog := Int.log_mono_right (b := 2) ha h
  unfold lastPlace
  rw [abs_of_pos ha, abs_of_pos (lt_of_lt_of_le ha h)]
  omega

/-- A power of two between two numbers is also between what they are rounded to. -/
theorem nearest_le_zpow {a : ℚ} (ha : 0 < a) {k : ℤ} (h : a < 2 ^ k) (hk : -1021 ≤ k) :
    nearest a ≤ 2 ^ k := by
  have hpos := two_zpow_pos (lastPlace a)
  have hplace : lastPlace a ≤ k :=
    le_trans (lastPlace_le ha.ne' (by rwa [abs_of_pos ha]) hk) (by omega)
  have hfloor : ⌊a / 2 ^ lastPlace a⌋ < 2 ^ (k - lastPlace a).toNat := by
    rw [Int.floor_lt, two_zpow_div hplace]
    exact div_lt_div_of_pos_right h hpos
  have hnear : nearestEven (a / 2 ^ lastPlace a) ≤ 2 ^ (k - lastPlace a).toNat :=
    le_trans (nearestEven_le_floor_add_one _) hfloor
  calc
    nearest a ≤ ((2 ^ (k - lastPlace a).toNat : ℤ) : ℚ) * 2 ^ lastPlace a :=
      mul_le_mul_of_nonneg_right (by exact_mod_cast hnear) hpos.le
    _ = 2 ^ k := by rw [two_zpow_div hplace, div_mul_cancel₀ _ hpos.ne']

theorem zpow_le_nearest {b : ℚ} {k : ℤ} (hk : -1074 ≤ k) (h : 2 ^ k ≤ b)
    (hb : b < 2 ^ (k + 53)) : 2 ^ k ≤ nearest b := by
  have hbpos : 0 < b := lt_of_lt_of_le (two_zpow_pos k) h
  have hpos := two_zpow_pos (lastPlace b)
  have hplace : lastPlace b ≤ k := by
    have := lastPlace_le hbpos.ne' (by rwa [abs_of_pos hbpos]) (show -1021 ≤ k + 53 by omega)
    omega
  have hfloor : (2 ^ (k - lastPlace b).toNat : ℤ) ≤ ⌊b / 2 ^ lastPlace b⌋ := by
    rw [Int.le_floor, two_zpow_div hplace]
    exact div_le_div_of_nonneg_right h hpos.le
  have hnear := le_trans hfloor (floor_le_nearestEven _)
  calc
    (2 : ℚ) ^ k = ((2 ^ (k - lastPlace b).toNat : ℤ) : ℚ) * 2 ^ lastPlace b := by
      rw [two_zpow_div hplace, div_mul_cancel₀ _ hpos.ne']
    _ ≤ nearest b := mul_le_mul_of_nonneg_right (by exact_mod_cast hnear) hpos.le

/-- Rounding keeps the order. -/
theorem nearest_mono {a b : ℚ} (ha : 0 ≤ a) (h : a ≤ b) : nearest a ≤ nearest b := by
  rcases eq_or_lt_of_le ha with rfl | ha
  · rw [nearest_zero]
    exact nearest_nonneg h
  · have hb : 0 < b := lt_of_lt_of_le ha h
    have hpos := two_zpow_pos (lastPlace b)
    rcases lt_or_eq_of_le (lastPlace_mono ha h) with hlt | heq
    · -- a power of two is between them, the first one with the last place of `b`
      have hlow : (2 : ℚ) ^ Int.log 2 b ≤ b := by
        exact_mod_cast Int.zpow_log_le_self (b := 2) (by decide) hb
      have hhigh : b < 2 ^ (Int.log 2 b + 1) := by
        exact_mod_cast Int.lt_zpow_succ_log_self (b := 2) (by decide) b
      have hexp : lastPlace a < Int.log 2 b - 52 ∧ -1074 < Int.log 2 b - 52 := by
        unfold lastPlace at hlt ⊢
        rw [abs_of_pos ha, abs_of_pos hb] at *
        omega
      have halog : a < 2 ^ Int.log 2 b := by
        have hlog : Int.log 2 a < Int.log 2 b := by
          unfold lastPlace at hexp
          rw [abs_of_pos ha] at hexp
          omega
        exact_mod_cast (Int.lt_zpow_iff_log_lt (b := 2) (by decide) ha).mpr hlog
      calc
        nearest a ≤ 2 ^ Int.log 2 b := nearest_le_zpow ha halog (by omega)
        _ ≤ nearest b := zpow_le_nearest (by omega) hlow
          (lt_of_lt_of_le hhigh (two_zpow_mono (by omega)))
    · unfold nearest
      rw [heq]
      refine mul_le_mul_of_nonneg_right ?_ hpos.le
      exact_mod_cast nearestEven_mono (div_le_div_of_nonneg_right h hpos.le)

/-- An integer of 53 bits that bounds a number bounds what it is rounded to. -/
theorem nearest_le_intCast {q : ℚ} {n : ℤ} (h0 : 0 ≤ q) (h : q ≤ n) (hn : n < 2 ^ 53) :
    nearest q ≤ n := by
  have hn0 : 0 ≤ n := by exact_mod_cast le_trans h0 h
  calc
    nearest q ≤ nearest n := nearest_mono h0 h
    _ = n := nearest_intCast (by rw [abs_of_nonneg hn0]; exact hn)

theorem intCast_le_nearest {q : ℚ} {n : ℤ} (h0 : 0 ≤ n) (h : (n : ℚ) ≤ q) (hn : n < 2 ^ 53) :
    (n : ℚ) ≤ nearest q := by
  calc
    (n : ℚ) = nearest n := (nearest_intCast (by rw [abs_of_nonneg h0]; exact hn)).symm
    _ ≤ nearest q := nearest_mono (by exact_mod_cast h0) h

/-- Rounding a quotient does not change its integer part, as long as the divisor
is small against the precision that is left at the size of the quotient. -/
theorem floor_nearest_div {a b : ℕ} {k : ℤ} (hb : 0 < b) (hq : (a / b : ℚ) < 2 ^ k)
    (hk : -1021 ≤ k) (hk53 : k ≤ 53) (hsmall : (b : ℚ) * 2 ^ (k - 54) < 1) :
    ⌊nearest (a / b)⌋ = ((a / b : ℕ) : ℤ) := by
  have hbq : (0 : ℚ) < b := by exact_mod_cast hb
  have hq0 : (0 : ℚ) ≤ a / b := by positivity
  have hlow : ((a / b : ℕ) : ℚ) ≤ a / b := Nat.cast_div_le
  have hdiv : a / b < 2 ^ 53 := by
    have hlt : ((a / b : ℕ) : ℚ) < 2 ^ (53 : ℤ) :=
      lt_of_le_of_lt hlow (lt_of_lt_of_le hq (two_zpow_mono hk53))
    exact_mod_cast hlt
  rw [Int.floor_eq_iff, Int.cast_natCast]
  constructor
  · exact_mod_cast intCast_le_nearest (n := ((a / b : ℕ) : ℤ)) (Int.natCast_nonneg _)
      (by rwa [Int.cast_natCast]) (by exact_mod_cast hdiv)
  · -- below the next integer there is a gap of `1 / b`, the error does not fill it
    have hrest : (a : ℚ) + 1 ≤ ((a / b : ℕ) + 1) * b := by
      have hnat : a + 1 ≤ (a / b + 1) * b := by
        have := Nat.lt_div_mul_add (a := a) hb
        rw [Nat.add_mul, Nat.one_mul]
        omega
      exact_mod_cast hnat
    have hgap : (a / b : ℚ) + 1 / b ≤ (a / b : ℕ) + 1 := by
      rw [← add_div, div_le_iff₀ hbq]
      exact hrest
    have herror : (2 : ℚ) ^ (k - 54) < 1 / b := by
      rw [lt_div_iff₀ hbq, mul_comm]
      exact hsmall
    have habs := abs_sub_nearest_le (by rwa [abs_of_nonneg hq0]) hk
    have hround := (abs_le.mp habs).1
    linarith

/-! ## The numbers of the format -/

/-- `q` has a finite encoding. -/
def Representable (q : ℚ) : Prop :=
  ∃ m e : ℤ, |m| < 2 ^ 53 ∧ -1074 ≤ e ∧ e ≤ 971 ∧ q = m * 2 ^ e

theorem Representable.nearest_eq {q : ℚ} (h : Representable q) : nearest q = q := by
  obtain ⟨m, e, hm, he, -, rfl⟩ := h
  exact nearest_eq_self hm he

theorem Representable.neg {q : ℚ} (h : Representable q) : Representable (-q) := by
  obtain ⟨m, e, hm, he, he', rfl⟩ := h
  refine ⟨-m, e, by rwa [abs_neg], he, he', ?_⟩
  rw [Int.cast_neg, neg_mul]

theorem Representable.abs {q : ℚ} (h : Representable q) : Representable |q| := by
  rcases abs_choice q with habs | habs <;> rw [habs]
  · exact h
  · exact h.neg

theorem representable_zero : Representable 0 := ⟨0, 0, by norm_num, by omega, by omega, by norm_num⟩

/-- The digits of what comes out of the rounding. -/
theorem abs_digits_le (q : ℚ) : |nearestEven (q / 2 ^ lastPlace q)| ≤ 2 ^ 53 := by
  rcases eq_or_ne q 0 with rfl | hne
  · have h : nearestEven 0 = 0 := nearestEven_intCast 0
    rw [zero_div, h]
    norm_num
  · have hpos := two_zpow_pos (lastPlace q)
    have hlog : |q| < 2 ^ (Int.log 2 |q| + 1) := by
      exact_mod_cast Int.lt_zpow_succ_log_self (b := 2) (by decide) |q|
    have hplace : Int.log 2 |q| + 1 ≤ lastPlace q + 53 := by
      unfold lastPlace
      omega
    have hscaled : |q / 2 ^ lastPlace q| < 2 ^ (53 : ℤ) := by
      rw [abs_div, abs_of_pos hpos, div_lt_iff₀ hpos, ← zpow_add₀ (by norm_num)]
      exact lt_of_lt_of_le hlog (two_zpow_mono (by omega))
    have hbounds := abs_lt.mp hscaled
    have hfloor : ⌊q / 2 ^ lastPlace q⌋ < 2 ^ 53 := by
      rw [Int.floor_lt]
      exact_mod_cast hbounds.2
    have hfloor' : -2 ^ 53 ≤ ⌊q / 2 ^ lastPlace q⌋ := by
      rw [Int.le_floor]
      exact_mod_cast hbounds.1.le
    have hlow := floor_le_nearestEven (q / 2 ^ lastPlace q)
    have hhigh := nearestEven_le_floor_add_one (q / 2 ^ lastPlace q)
    rw [abs_le]
    omega

/-- What the rounding gives is a number of the format, unless it is too large. -/
theorem representable_nearest {q : ℚ} (h : |nearest q| < 2 ^ (1024 : ℤ)) :
    Representable (nearest q) := by
  have hdigits := abs_digits_le q
  have hplace : -1074 ≤ lastPlace q := le_max_right _ _
  have hpos := two_zpow_pos (lastPlace q)
  rcases le_or_gt 971 (lastPlace q) with hge | hlt
  · -- the digits are moved to the largest place
    have hvalue : nearest q =
        ((nearestEven (q / 2 ^ lastPlace q) * 2 ^ (lastPlace q - 971).toNat : ℤ) : ℚ) *
          2 ^ (971 : ℤ) := by
      rw [Int.cast_mul, two_zpow_div hge, mul_assoc, div_mul_cancel₀ _ (two_zpow_pos _).ne']
      rfl
    refine ⟨_, 971, ?_, by omega, le_refl _, hvalue⟩
    rw [hvalue, abs_mul, abs_of_pos (two_zpow_pos _), ← lt_div_iff₀ (two_zpow_pos _),
      ← zpow_sub₀ (by norm_num), show (1024 : ℤ) - 971 = (53 : ℕ) by norm_num,
      zpow_natCast] at h
    exact_mod_cast h
  · rcases lt_or_eq_of_le hdigits with hdigits | hdigits
    · exact ⟨_, _, hdigits, hplace, hlt.le, rfl⟩
    · -- one digit too many: the last one is a zero
      obtain ⟨half, hhalf⟩ : ∃ n, nearestEven (q / 2 ^ lastPlace q) = n * 2 := by
        refine ⟨nearestEven (q / 2 ^ lastPlace q) / 2, ?_⟩
        rcases abs_choice (nearestEven (q / 2 ^ lastPlace q)) with habs | habs <;> omega
      refine ⟨half, lastPlace q + 1, ?_, by omega, by omega, ?_⟩
      · rw [hhalf, abs_mul] at hdigits
        norm_num at hdigits ⊢
        omega
      · rw [nearest, hhalf, zpow_add_one₀ (by norm_num)]
        push_cast
        ring

theorem Representable.abs_lt {q : ℚ} (h : Representable q) : |q| < 2 ^ (1024 : ℤ) := by
  obtain ⟨m, e, hm, -, he, rfl⟩ := h
  have hpos := two_zpow_pos e
  have hdigits : |(m : ℚ)| < 2 ^ (53 : ℤ) := by exact_mod_cast hm
  calc
    |(m * 2 ^ e : ℚ)| = |(m : ℚ)| * 2 ^ e := by rw [abs_mul, abs_of_pos hpos]
    _ < 2 ^ (53 : ℤ) * 2 ^ e := mul_lt_mul_of_pos_right hdigits hpos
    _ = 2 ^ (53 + e) := (zpow_add₀ (by norm_num) _ _).symm
    _ ≤ 2 ^ (1024 : ℤ) := two_zpow_mono (by omega)

theorem representable_zpow {e : ℤ} (he : -1074 ≤ e) (he' : e ≤ 971) : Representable (2 ^ e) :=
  ⟨1, e, by norm_num, he, he', by rw [Int.cast_one, one_mul]⟩

/-! ## Values and operations -/

/-- A value of the format: undefined, an infinity with its sign, or a number. -/
inductive Double where
  | nan
  | infinite (negative : Bool)
  | finite (value : ℚ) (representable : Representable value)
  deriving DecidableEq

namespace Double

/-- A result, rounded; out of the range it is infinite. -/
def ofRat (q : ℚ) : Double :=
  if h : |nearest q| < 2 ^ (1024 : ℤ) then .finite (nearest q) (representable_nearest h)
  else .infinite (decide (q < 0))

/-- An integer converted to the format. -/
def ofInt (n : ℤ) : Double := ofRat n

def neg : Double → Double
  | .nan => .nan
  | .infinite s => .infinite (!s)
  | .finite q h => .finite (-q) h.neg

def abs : Double → Double
  | .nan => .nan
  | .infinite _ => .infinite false
  | .finite q h => .finite |q| h.abs

def add : Double → Double → Double
  | .finite a _, .finite b _ => ofRat (a + b)
  | .infinite s, .finite _ _ | .finite _ _, .infinite s => .infinite s
  | .infinite s, .infinite t => if s = t then .infinite s else .nan
  | _, _ => .nan

def sub (x y : Double) : Double := add x (neg y)

/-- The product of an infinity and a number, or the quotient by zero. -/
def infiniteTimes (s : Bool) (q : ℚ) : Double :=
  if q = 0 then .nan else .infinite (s ^^ decide (q < 0))

def mul : Double → Double → Double
  | .finite a _, .finite b _ => ofRat (a * b)
  | .infinite s, .finite q _ | .finite q _, .infinite s => infiniteTimes s q
  | .infinite s, .infinite t => .infinite (s ^^ t)
  | _, _ => .nan

def div : Double → Double → Double
  | .finite a _, .finite b _ => if b = 0 then infiniteTimes false a else ofRat (a / b)
  | .infinite s, .finite q _ => .infinite (s ^^ decide (q < 0))
  | .finite _ _, .infinite _ => .finite 0 representable_zero
  | _, _ => .nan

/-- The comparison `<`; it fails when a side is undefined. -/
def less : Double → Double → Bool
  | .finite a _, .finite b _ => decide (a < b)
  | .infinite s, .infinite t => s && !t
  | .infinite s, .finite _ _ => s
  | .finite _ _, .infinite t => !t
  | _, _ => false

/-- The comparison `<=`; it fails when a side is undefined. -/
def lessEq : Double → Double → Bool
  | .finite a _, .finite b _ => decide (a ≤ b)
  | .infinite s, .infinite t => s || !t
  | .infinite s, .finite _ _ => s
  | .finite _ _, .infinite t => !t
  | _, _ => false

instance instAdd : Add Double := ⟨add⟩
instance instSub : Sub Double := ⟨sub⟩
instance instMul : Mul Double := ⟨mul⟩
instance instDiv : Div Double := ⟨div⟩
instance instNeg : Neg Double := ⟨neg⟩
instance instLT : LT Double := ⟨fun x y => less x y = true⟩
instance instLE : LE Double := ⟨fun x y => lessEq x y = true⟩
instance decidableLt : DecidableLT Double := fun x y =>
  inferInstanceAs (Decidable (less x y = true))
instance decidableLe : DecidableLE Double := fun x y =>
  inferInstanceAs (Decidable (lessEq x y = true))

/-- The integer that is left when the fraction is dropped. -/
def truncate (q : ℚ) : ℤ := if 0 ≤ q then ⌊q⌋ else ⌈q⌉

/-- Conversion to an integer type with the values from `lower` to below `upper`;
without a value where the integer is not one of them. -/
def toInt (lower upper : ℤ) : Double → Option ℤ
  | .finite q _ =>
    if lower ≤ truncate q ∧ truncate q < upper then some (truncate q) else none
  | _ => none

/-! ## Operations on numbers -/

/-- `x` is the number `q`. -/
def Is (x : Double) (q : ℚ) : Prop := ∃ h, x = .finite q h

variable {x y : Double} {a b q : ℚ}

theorem Is.unique (hx : x.Is q) (hy : y.Is q) : x = y := by
  obtain ⟨_, rfl⟩ := hx
  obtain ⟨_, rfl⟩ := hy
  rfl

theorem Is.neg (hx : x.Is q) : (-x).Is (-q) := by
  obtain ⟨h, rfl⟩ := hx
  exact ⟨h.neg, rfl⟩

theorem Is.abs (hx : x.Is q) : x.abs.Is |q| := by
  obtain ⟨h, rfl⟩ := hx
  exact ⟨h.abs, rfl⟩

theorem Is.representable (h : x.Is q) : Representable q := h.1

theorem Is.le_iff (hx : x.Is a) (hy : y.Is b) : x ≤ y ↔ a ≤ b := by
  obtain ⟨_, rfl⟩ := hx
  obtain ⟨_, rfl⟩ := hy
  exact decide_eq_true_iff

theorem Is.lt_iff (hx : x.Is a) (hy : y.Is b) : x < y ↔ a < b := by
  obtain ⟨_, rfl⟩ := hx
  obtain ⟨_, rfl⟩ := hy
  exact decide_eq_true_iff

theorem not_le_nan (x : Double) : ¬ x ≤ .nan := by
  cases x <;> exact Bool.false_ne_true

theorem not_lt_nan (x : Double) : ¬ x < .nan := by
  cases x <;> exact Bool.false_ne_true

theorem not_nan_lt (x : Double) : ¬ Double.nan < x := Bool.false_ne_true

/-- A strict comparison that holds holds weakly. -/
theorem le_of_lt (h : x < y) : x ≤ y := by
  cases x with
  | nan => exact absurd h Bool.false_ne_true
  | infinite s =>
    cases y with
    | nan => exact absurd h Bool.false_ne_true
    | infinite t => exact Bool.or_eq_true_iff.mpr (.inl (Bool.and_eq_true_iff.mp h).1)
    | finite b hb => exact h
  | finite a ha =>
    cases y with
    | nan => exact absurd h Bool.false_ne_true
    | infinite t => exact h
    | finite b hb => exact decide_eq_true (decide_eq_true_iff.mp h).le

/-- A result in the range is a number. -/
theorem ofRat_is (h0 : 0 ≤ q) (h : q < 2 ^ (1023 : ℤ)) : (ofRat q).Is (nearest q) := by
  refine ⟨_, dif_pos ?_⟩
  rw [abs_of_nonneg (nearest_nonneg h0)]
  rcases eq_or_lt_of_le h0 with rfl | hpos
  · rw [nearest_zero]
    exact two_zpow_pos 1024
  · calc
      nearest q ≤ 2 ^ (1023 : ℤ) := nearest_le_zpow hpos h (by omega)
      _ < 2 ^ (1024 : ℤ) := zpow_lt_zpow_right₀ (by norm_num) (by omega)

/-- A number of the format is the result as it is. -/
theorem ofRat_exact (h : Representable q) : (ofRat q).Is q := by
  have hexact := h.nearest_eq
  have his : (ofRat q).Is (nearest q) := ⟨_, dif_pos (by rw [hexact]; exact h.abs_lt)⟩
  rwa [hexact] at his

/-- Numbers of the format that bound a result bound it after rounding. -/
theorem ofRat_between {l u : ℚ} (hl : Representable l) (hu : Representable u) (h0 : 0 ≤ l)
    (hlq : l ≤ q) (hqu : q ≤ u) : ∃ c, (ofRat q).Is c ∧ l ≤ c ∧ c ≤ u := by
  have hq0 := le_trans h0 hlq
  have hle : nearest q ≤ u := by
    calc
      nearest q ≤ nearest u := nearest_mono hq0 hqu
      _ = u := hu.nearest_eq
  have hlarge : |nearest q| < 2 ^ (1024 : ℤ) := by
    rw [abs_of_nonneg (nearest_nonneg hq0)]
    exact lt_of_le_of_lt (le_trans hle (le_abs_self u)) hu.abs_lt
  refine ⟨nearest q, ⟨_, dif_pos hlarge⟩, ?_, hle⟩
  calc
    l = nearest l := hl.nearest_eq.symm
    _ ≤ nearest q := nearest_mono h0 hlq

theorem Is.add_exact (hx : x.Is a) (hy : y.Is b) (h : Representable (a + b)) :
    (x + y).Is (a + b) := by
  obtain ⟨_, rfl⟩ := hx
  obtain ⟨_, rfl⟩ := hy
  exact ofRat_exact h

theorem Is.mul_eq (hx : x.Is a) (hy : y.Is b) : x * y = ofRat (a * b) := by
  obtain ⟨_, rfl⟩ := hx
  obtain ⟨_, rfl⟩ := hy
  rfl

theorem Is.mul_exact (hx : x.Is a) (hy : y.Is b) (h : Representable (a * b)) :
    (x * y).Is (a * b) := by
  rw [hx.mul_eq hy]
  exact ofRat_exact h

theorem Is.div_exact (hx : x.Is a) (hy : y.Is b) (hb : b ≠ 0) (h : Representable (a / b)) :
    (x / y).Is (a / b) := by
  obtain ⟨_, rfl⟩ := hx
  obtain ⟨_, rfl⟩ := hy
  show (if b = 0 then _ else ofRat (a / b)).Is _
  rw [if_neg hb]
  exact ofRat_exact h

theorem Is.mul (hx : x.Is a) (hy : y.Is b) (h0 : 0 ≤ a * b) (h : a * b < 2 ^ (1023 : ℤ)) :
    (x * y).Is (nearest (a * b)) := by
  rw [hx.mul_eq hy]
  exact ofRat_is h0 h

theorem Is.div (hx : x.Is a) (hy : y.Is b) (hb : b ≠ 0) (h0 : 0 ≤ a / b)
    (h : a / b < 2 ^ (1023 : ℤ)) : (x / y).Is (nearest (a / b)) := by
  obtain ⟨_, rfl⟩ := hx
  obtain ⟨_, rfl⟩ := hy
  show (if b = 0 then _ else ofRat (a / b)).Is _
  rw [if_neg hb]
  exact ofRat_is h0 h

/-- An integer of 53 bits is converted exactly. -/
theorem ofInt_is {n : ℤ} (h0 : 0 ≤ n) (h : n < 2 ^ 53) : (ofInt n).Is n := by
  have hlt : (n : ℚ) < 2 ^ (1023 : ℤ) := by
    have h53 : (n : ℚ) < 2 ^ (53 : ℤ) := by exact_mod_cast h
    exact lt_of_lt_of_le h53 (two_zpow_mono (by omega))
  have := ofRat_is (q := n) (by exact_mod_cast h0) hlt
  rwa [nearest_intCast (by rwa [abs_of_nonneg h0])] at this

theorem Is.toInt {lower upper : ℤ} (hx : x.Is q) (h0 : 0 ≤ q) (hlow : lower ≤ 0)
    (h : ⌊q⌋ < upper) : toInt lower upper x = some ⌊q⌋ := by
  obtain ⟨_, rfl⟩ := hx
  have htrunc : truncate q = ⌊q⌋ := if_pos h0
  have hfloor : 0 ≤ ⌊q⌋ := Int.floor_nonneg.mpr h0
  show (if _ then _ else _) = _
  rw [htrunc, if_pos ⟨by omega, h⟩]

/-! ## Values that are not below zero -/

/-- `x` is a number from zero on or positive infinity. -/
def Nonneg (x : Double) : Prop := x = .infinite false ∨ ∃ q, x.Is q ∧ 0 ≤ q

theorem Is.nonneg (hx : x.Is q) (h : 0 ≤ q) : Nonneg x := .inr ⟨q, hx, h⟩

theorem ofRat_nonneg (h : 0 ≤ q) : Nonneg (ofRat q) := by
  unfold ofRat
  split
  next hlt => exact .inr ⟨nearest q, ⟨_, rfl⟩, nearest_nonneg h⟩
  next =>
    rw [decide_eq_false (not_lt.mpr h)]
    exact .inl rfl

theorem ofInt_nonneg {n : ℤ} (h : 0 ≤ n) : Nonneg (ofInt n) := ofRat_nonneg (by exact_mod_cast h)

theorem Nonneg.add (hx : Nonneg x) (hy : Nonneg y) : Nonneg (x + y) := by
  rcases hx with rfl | ⟨a, ⟨_, rfl⟩, ha⟩
  · rcases hy with rfl | ⟨b, ⟨_, rfl⟩, -⟩ <;> exact .inl rfl
  · rcases hy with rfl | ⟨b, ⟨_, rfl⟩, hb⟩
    · exact .inl rfl
    · exact ofRat_nonneg (add_nonneg ha hb)

theorem Nonneg.mul_is (hx : Nonneg x) (hy : y.Is b) (hb : 0 < b) : Nonneg (x * y) := by
  obtain ⟨_, rfl⟩ := hy
  rcases hx with rfl | ⟨a, ⟨_, rfl⟩, ha⟩
  · refine .inl ?_
    show infiniteTimes false b = _
    rw [infiniteTimes, if_neg hb.ne', decide_eq_false (not_lt.mpr hb.le)]
    rfl
  · exact ofRat_nonneg (mul_nonneg ha hb.le)

theorem Nonneg.div_is (hx : Nonneg x) (hy : y.Is b) (hb : 0 < b) : Nonneg (x / y) := by
  obtain ⟨_, rfl⟩ := hy
  rcases hx with rfl | ⟨a, ⟨_, rfl⟩, ha⟩
  · refine .inl ?_
    show infinite (false ^^ decide (b < 0)) = _
    rw [decide_eq_false (not_lt.mpr hb.le)]
    rfl
  · show Nonneg (ite _ _ _)
    rw [if_neg hb.ne']
    exact ofRat_nonneg (div_nonneg ha hb.le)

end Double

end Binary64
