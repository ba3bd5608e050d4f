import Lilt.Tgs.Manager

/-!
# How the limit manager responds to what it is told (`be_intercept.c`)

The reads of a connection, one after the other, each with the rate of the BE process at
that time.

- `serve`, `serveAll`: what reads do to the thread and the cells.
- `profile_forgets_announcement`: the rate that the HP process announces first has no
  effect on anything from the second report on.
- `interference_stops_be`: 302 reports that are off, one after the other, leave no
  allowance.
-/

namespace Lilt.Tgs

open Binary64

/-- One read, where `x.1` is `g_current_rate[device]`. -/
def serve (cfg : TgsSettings) (undefined : ℤ) (transfer : Bool) (s : Manager × Control)
    (x : ℤ × Option Double) : Manager × Control :=
  let response := s.1.received cfg undefined transfer s.2.rateLimit x.1 x.2
  (response.1, execAll response.2 s.2)

/-- A list of reads. -/
def serveAll (cfg : TgsSettings) (undefined : ℤ) (transfer : Bool) (s : Manager × Control)
    (xs : List (ℤ × Option Double)) : Manager × Control :=
  xs.foldl (serve cfg undefined transfer) s

/-! ## What the profile keeps of the announced rate -/

theorem zero_is : zero.Is 0 := by
  have := Double.ofInt_is (n := 0) (by norm_num) (by norm_num)
  rwa [Int.cast_zero] at this

theorem one_is : one.Is 1 := by
  have := Double.ofInt_is (n := 1) (by norm_num) (by norm_num)
  rwa [Int.cast_one] at this

theorem two_is : (Double.ofInt 2).Is 2 := Double.ofInt_is (n := 2) (by norm_num) (by norm_num)

/-- The constant 1e-12, up to a factor of two. -/
theorem tiny_is : ∃ c, (Double.ofRat (1 / 10 ^ 12)).Is c ∧ 0 < c ∧ c < 1 / 8 := by
  obtain ⟨c, hc, hlow, hhigh⟩ := Double.ofRat_between (q := 1 / 10 ^ 12)
    (representable_zpow (e := -40) (by norm_num) (by norm_num))
    (representable_zpow (e := -39) (by norm_num) (by norm_num)) (two_zpow_pos _).le
    (by norm_num) (by norm_num)
  exact ⟨c, hc, lt_of_lt_of_le (two_zpow_pos _) hlow, lt_of_le_of_lt hhigh (by norm_num)⟩

/-- The constant 0.05. -/
theorem five_percent_is : ∃ c, (Double.ofRat (5 / 100)).Is c ∧ 0 < c ∧ c < 1 := by
  obtain ⟨c, hc, hlow, hhigh⟩ := Double.ofRat_between (q := 5 / 100)
    (representable_zpow (e := -5) (by norm_num) (by norm_num))
    (representable_zpow (e := -4) (by norm_num) (by norm_num)) (two_zpow_pos _).le
    (by norm_num) (by norm_num)
  exact ⟨c, hc, lt_of_lt_of_le (two_zpow_pos _) hlow, lt_of_le_of_lt hhigh (by norm_num)⟩

theorem negligible_of_zero {x : Double} (h : x.Is 0) : negligible x = true := by
  obtain ⟨c, hc, hpos, -⟩ := tiny_is
  refine decide_eq_true ((h.abs.lt_iff hc).mpr ?_)
  rwa [abs_zero]

theorem negligible_lt {x : Double} {q : ℚ} (hx : x.Is q) (h : negligible x = true) :
    q < 1 / 8 := by
  obtain ⟨c, hc, -, hlt⟩ := tiny_is
  have hsmall := (hx.abs.lt_iff hc).mp (of_decide_eq_true h)
  exact lt_of_le_of_lt (le_abs_self q) (lt_trans hsmall hlt)

theorem negligible_nan : negligible .nan = false := rfl

theorem not_infinite_lt {x : Double} {q : ℚ} (h : x.Is q) : ¬ Double.infinite false < x := by
  obtain ⟨_, rfl⟩ := h
  exact Bool.false_ne_true

theorem infinite_lt {x : Double} {q : ℚ} (h : x.Is q) : Double.infinite true < x := by
  obtain ⟨_, rfl⟩ := h
  exact rfl

theorem negligible_infinite (s : Bool) : negligible (.infinite s) = false := by
  obtain ⟨c, hc, -⟩ := tiny_is
  exact decide_eq_false (not_infinite_lt hc)

/-- The announced rate of a HP process: any value that is not below zero. -/
def Announced (x : Double) : Prop := ¬ x < zero

/-- What is left of an announced rate after the first report: almost nothing. -/
def Faint (x : Double) : Prop := negligible x = true ∧ ∃ q, x.Is q ∧ 0 ≤ q

theorem faint_zero {x : Double} (h : x.Is 0) : Faint x :=
  ⟨negligible_of_zero h, 0, h, le_refl _⟩

/-- The first report of a profile finds an empty window, and takes the announced rate to
be far off. -/
theorem profileRate_zero {x : Double} (h : Announced x) : Faint (profileRate x zero) := by
  obtain ⟨b, hb, hbpos, hblt⟩ := five_percent_is
  have hnothing : (zero * .ofRat (1025 / 1000)).Is 0 := by
    obtain ⟨c, hc, -⟩ := Double.ofRat_between (q := 1025 / 1000)
      (representable_zpow (e := 0) (by norm_num) (by norm_num))
      (representable_zpow (e := 1) (by norm_num) (by norm_num)) (two_zpow_pos _).le
      (by norm_num) (by norm_num)
    have hprod := zero_is.mul_exact hc (by rw [zero_mul]; exact representable_zero)
    rwa [zero_mul] at hprod
  -- a difference that compares with nothing, or is below, makes it the smaller rate
  have hsmaller : (¬ within (.ofRat (5 / 100)) (relativeDelta zero x)) →
      (¬ Double.ofRat (5 / 100) < relativeDelta zero x) → (¬ x < zero * .ofRat (1025 / 1000)) →
      Faint (profileRate x zero) := by
    intro hwithin hless hx
    unfold profileRate smaller
    dsimp only
    rw [if_neg hwithin, if_neg hless, if_neg hx]
    exact faint_zero hnothing
  -- no number is comparable with the undefined one
  have hnan : relativeDelta zero x = .nan → ¬ x < zero * .ofRat (1025 / 1000) →
      Faint (profileRate x zero) := by
    intro hdelta
    refine hsmaller ?_ ?_ <;> rw [hdelta]
    · exact fun hw => Double.not_le_nan _ hw.1
    · exact Double.not_lt_nan _
  cases x with
  | nan =>
    refine hnan ?_ (Double.not_nan_lt _)
    show (if negligible .nan then _ else (zero - .nan) / .nan) = Double.nan
    obtain ⟨_, hzero⟩ := zero_is
    rw [negligible_nan, hzero]
    rfl
  | infinite s =>
    cases s with
    | true => exact absurd (infinite_lt zero_is) h
    | false =>
      refine hnan ?_ (not_infinite_lt hnothing)
      show (if negligible (.infinite false) then _
        else (zero - .infinite false) / .infinite false) =
        Double.nan
      obtain ⟨_, hzero⟩ := zero_is
      rw [negligible_infinite, hzero]
      rfl
  | finite q hq =>
    have hx : (Double.finite q hq).Is q := ⟨hq, rfl⟩
    have hq0 : 0 ≤ q := not_lt.mp fun hlt => h ((hx.lt_iff zero_is).mpr hlt)
    by_cases hfaint : negligible (.finite q hq) = true
    · have hdelta : relativeDelta zero (.finite q hq) = zero := by
        unfold relativeDelta
        rw [if_pos hfaint, if_pos (negligible_of_zero zero_is)]
      have hwithin : within (.ofRat (5 / 100)) zero :=
        ⟨(hb.neg.le_iff zero_is).mpr (by linarith), (zero_is.le_iff hb).mpr hbpos.le⟩
      unfold profileRate larger
      dsimp only
      rw [hdelta, if_pos hwithin]
      split
      · exact ⟨hfaint, q, hx, hq0⟩
      · exact faint_zero zero_is
    · have hne : q ≠ 0 := by
        rintro rfl
        exact hfaint (negligible_of_zero hx)
      have hdelta : (relativeDelta zero (.finite q hq)).Is (-1) := by
        unfold relativeDelta
        rw [if_neg hfaint]
        have hdiff : (zero - .finite q hq).Is (0 + -q) :=
          zero_is.add_exact hx.neg (by rw [zero_add]; exact hq.neg)
        rw [zero_add] at hdiff
        have hone : -q / q = -1 := by
          rw [neg_div, div_self hne]
        have hquot := hdiff.div_exact hx hne (by rw [hone]; exact one_is.representable.neg)
        rwa [hone] at hquot
      refine hsmaller ?_ ?_ ?_
      · rintro ⟨hlow, -⟩
        have := (hb.neg.le_iff hdelta).mp hlow
        linarith
      · intro hlt
        have := (hb.lt_iff hdelta).mp hlt
        linarith
      · intro hlt
        have := (hx.lt_iff hnothing).mp hlt
        linarith

/-- A rate that was raised to at least one: a number, or infinite. -/
def Positive (x : Double) : Prop := x = .infinite false ∨ ∃ q, x.Is q ∧ 1 ≤ q

theorem atLeastOne_positive (x : Double) : Positive (atLeastOne x) := by
  unfold atLeastOne
  split
  next h =>
    obtain ⟨hone, hvalue⟩ := one_is
    cases x with
    | nan => exact absurd h (Double.not_le_nan _)
    | infinite s =>
      cases s with
      | true =>
        rw [hvalue] at h
        exact absurd h Bool.false_ne_true
      | false => exact .inl rfl
    | finite q hq =>
      have hx : (Double.finite q hq).Is q := ⟨hq, rfl⟩
      exact .inr ⟨q, hx, (one_is.le_iff hx).mp h⟩
  next => exact .inr ⟨1, one_is, le_refl _⟩

/-- With `alpha = 0.0` the first report is taken as it is. -/
theorem mixRate_one {x : Double} (h : Positive x) : mixRate one x = x := by
  have hold : (zero * one).Is 0 := by
    have := zero_is.mul_exact one_is (by rw [zero_mul]; exact representable_zero)
    rwa [zero_mul] at this
  have hnew : (one - zero).Is 1 := by
    have hneg := zero_is.neg
    rw [neg_zero] at hneg
    have := one_is.add_exact hneg (by rw [add_zero]; exact one_is.representable)
    rwa [add_zero] at this
  unfold mixRate
  rcases h with rfl | ⟨q, hx, hq⟩
  · obtain ⟨_, hold⟩ := hold
    obtain ⟨_, hnew⟩ := hnew
    rw [hold, hnew]
    show Double.finite 0 _ + Double.infiniteTimes false 1 = Double.infinite false
    rw [Double.infiniteTimes, if_neg one_ne_zero, decide_eq_false (by norm_num)]
    rfl
  · have hprod := hnew.mul_exact hx (by rw [one_mul]; exact hx.representable)
    rw [one_mul] at hprod
    have hsum := hold.add_exact hprod (by rw [zero_add]; exact hx.representable)
    rw [zero_add] at hsum
    exact hsum.unique hx

/-- The mean of nothing. -/
theorem meanRate_zero {window : Window} {i : Nat} (h : window i = zero)
    (h' : window (i + 1) = zero) : meanRate window i = zero := by
  have hsum := zero_is.add_exact zero_is (by rw [add_zero]; exact representable_zero)
  rw [add_zero] at hsum
  have hmean := hsum.div_exact two_is (by norm_num) (by rw [zero_div]; exact representable_zero)
  rw [zero_div] at hmean
  rw [meanRate, h, h']
  exact hmean.unique zero_is

theorem larger_zero : larger zero zero = zero := by
  unfold larger
  split <;> rfl

/-- The window of a new profile suggests no rate. -/
theorem largestMean_cleared (n : Nat) : largestMean .cleared n zero = zero := by
  induction n with
  | zero => rfl
  | succ n ih =>
    rw [largestMean, meanRate_zero rfl rfl, larger_zero]
    exact ih

/-- After one report `x`, half of it is suggested. -/
theorem largestMean_first (x : Double) (n : Nat) :
    largestMean (shiftWindow .cleared windowSize x).1 (n + 1) zero =
      larger zero ((zero + x) / .ofInt 2) := by
  have hwindow : ∀ i, (shiftWindow .cleared windowSize x).1 (i + 1) = zero := by
    intro i
    rw [shiftWindow_window, if_neg (Nat.succ_ne_zero i)]
    split <;> rfl
  have hfirst : (shiftWindow .cleared windowSize x).1 0 = x := by
    rw [shiftWindow_window, if_pos rfl]
  induction n with
  | zero =>
    show larger zero (meanRate _ 0) = _
    rw [meanRate, hwindow 0, hfirst]
  | succ n ih =>
    rw [largestMean, meanRate_zero (hwindow n) (hwindow (n + 1)), larger_zero]
    exact ih

/-- Half of a report is a number of at least one half, or infinite. -/
theorem half_report {x : Double} (h : Positive x) :
    (zero + x) / .ofInt 2 = .infinite false ∨
      ∃ q, ((zero + x) / Double.ofInt 2).Is q ∧ 1 / 2 ≤ q := by
  rcases h with rfl | ⟨q, hx, hq⟩
  · left
    obtain ⟨_, hzero⟩ := zero_is
    obtain ⟨_, htwo⟩ := two_is
    rw [hzero, htwo]
    show Double.infinite (false ^^ decide ((2 : ℚ) < 0)) = _
    rw [decide_eq_false (by norm_num)]
    rfl
  · right
    have hsum := zero_is.add_exact hx (by rw [zero_add]; exact hx.representable)
    rw [zero_add] at hsum
    have hlarge : q / 2 < 2 ^ (1023 : ℤ) := by
      have habs := lt_of_le_of_lt (le_abs_self q) hx.representable.abs_lt
      rw [show (1024 : ℤ) = 1023 + 1 by norm_num, zpow_add_one₀ (by norm_num)] at habs
      rwa [div_lt_iff₀ (by norm_num)]
    have hhalf : (2 : ℚ) ^ (-1 : ℤ) ≤ q / 2 := by
      norm_num
      linarith
    refine ⟨_, hsum.div two_is (by norm_num) (by linarith) hlarge, ?_⟩
    calc
      (1 / 2 : ℚ) = nearest (2 ^ (-1 : ℤ)) := by
        rw [(representable_zpow (e := -1) (by norm_num) (by norm_num)).nearest_eq]
        norm_num
      _ ≤ nearest (q / 2) := nearest_mono (two_zpow_pos _).le hhalf

/-- The constant 0.975. -/
theorem most_is : ∃ c, (Double.ofRat (975 / 1000)).Is c ∧ 1 / 2 ≤ c ∧ c ≤ 1 := by
  obtain ⟨c, hc, hlow, hhigh⟩ := Double.ofRat_between (q := 975 / 1000)
    (representable_zpow (e := -1) (by norm_num) (by norm_num))
    (representable_zpow (e := 0) (by norm_num) (by norm_num)) (two_zpow_pos _).le
    (by norm_num) (by norm_num)
  exact ⟨c, hc, le_trans (by norm_num) hlow, le_trans hhigh (by norm_num)⟩

/-- A rate that compares with almost nothing is taken as it is, but for the factor. -/
theorem profileRate_faint {x w : Double} (h : Faint x)
    (hw : w = .infinite false ∨ ∃ q, w.Is q ∧ 1 / 2 ≤ q) :
    profileRate x w = w * .ofRat (975 / 1000) := by
  obtain ⟨hfaint, q, hx, hq0⟩ := h
  obtain ⟨b, hb, hbpos, hblt⟩ := five_percent_is
  obtain ⟨c, hc, hclow, hchigh⟩ := most_is
  have hq := negligible_lt hx hfaint
  have hdelta : relativeDelta w x = .infinite false := by
    unfold relativeDelta
    rw [if_pos hfaint]
    rcases hw with rfl | ⟨p, hp, hhalf⟩
    · rw [if_neg (by rw [negligible_infinite]; exact Bool.false_ne_true)]
      obtain ⟨_, hzero⟩ := zero_is
      rw [hzero]
      rfl
    · rw [if_neg fun hn => by have := negligible_lt hp hn; linarith,
        if_pos ((zero_is.lt_iff hp).mpr (by linarith))]
  have hwithin : ¬ within (.ofRat (5 / 100)) (.infinite false) := by
    rintro ⟨-, hle⟩
    obtain ⟨_, hvalue⟩ := hb
    rw [hvalue] at hle
    exact Bool.false_ne_true hle
  have hless : Double.ofRat (5 / 100) < .infinite false := by
    obtain ⟨_, hvalue⟩ := hb
    rw [hvalue]
    exact rfl
  -- the product is not below what was announced
  have hproduct : ¬ w * .ofRat (975 / 1000) < x := by
    rcases hw with rfl | ⟨p, hp, hhalf⟩
    · obtain ⟨_, hvalue⟩ := hc
      rw [hvalue]
      show ¬ Double.infiniteTimes false c < x
      rw [Double.infiniteTimes, if_neg (by linarith), decide_eq_false (by linarith)]
      exact not_infinite_lt hx
    · have hlow : (2 : ℚ) ^ (-2 : ℤ) ≤ p * c := by
        calc
          (2 : ℚ) ^ (-2 : ℤ) = 1 / 2 * (1 / 2) := by norm_num
          _ ≤ p * c := mul_le_mul hhalf hclow (by norm_num) (by linarith)
      obtain ⟨d, hd, hdlow, -⟩ := Double.ofRat_between
        (representable_zpow (e := -2) (by norm_num) (by norm_num)) hp.representable
        (two_zpow_pos _).le hlow (mul_le_of_le_one_right (by linarith) hchigh)
      rw [hp.mul_eq hc, hd.lt_iff hx, not_lt]
      exact le_trans (by linarith) (le_trans (by norm_num : (1 / 8 : ℚ) ≤ 2 ^ (-2 : ℤ)) hdlow)
  unfold profileRate larger
  dsimp only
  rw [hdelta, if_neg hwithin, if_pos hless, if_neg hproduct]

section serve

variable {cfg : TgsSettings} {undefined : ℤ} {transfer : Bool} {m : Manager} {c : Control}

/-- The thread and the cells after the announced rate `x` and the first report `y`. -/
theorem serve_announced (hphase : m.phase = .announcing) (r₁ r₂ : ℤ) (x y : Double) :
    serveAll cfg undefined transfer (m, c) [(r₁, some x), (r₂, some y)] =
      ({ m with
          phase := .profiling 2
          maxRate := profileRate x zero
          recvRate := atLeastOne y
          cnt := 0
          state := .unset
          window := (shiftWindow .cleared windowSize (atLeastOne y)).1
          profileRound := 1 },
        { rateLimit := 0, flag := 1 }) := by
  have hmean : (shiftWindow .cleared windowSize (atLeastOne y)).2 = zero := by
    rw [shiftWindow_rate]
    exact largestMean_cleared _
  have hmix : mixRate one (atLeastOne y) = atLeastOne y := mixRate_one (atLeastOne_positive y)
  have hfirst : serve cfg undefined transfer (m, c) (r₁, some x) =
      ({ m with
          phase := .profiling 1
          maxRate := x
          recvRate := one
          cnt := 0
          state := .unset
          window := .cleared
          profileRound := 1 },
        { rateLimit := 0, flag := 1 }) := by
    unfold serve Manager.received
    dsimp only
    rw [hphase]
    rfl
  show serve cfg undefined transfer (serve cfg undefined transfer (m, c) (r₁, some x)) _ = _
  rw [hfirst]
  unfold serve Manager.received Manager.profileSample Manager.report
  dsimp only
  rw [hmix, hmean]
  rfl

/-- Whatever rate the HP process announces, if it is not below zero: from the second
report on the thread and the cells are the same, and so are all later allowances. -/
theorem profile_forgets_announcement (hphase : m.phase = .announcing) {x x' : Double}
    (hx : ¬ x < zero) (hx' : ¬ x' < zero) (r₁ r₂ r₃ : ℤ) (y z : Double)
    (rest : List (ℤ × Option Double)) :
    serveAll cfg undefined transfer (m, c)
        ((r₁, some x) :: (r₂, some y) :: (r₃, some z) :: rest) =
      serveAll cfg undefined transfer (m, c)
        ((r₁, some x') :: (r₂, some y) :: (r₃, some z) :: rest) := by
  have hhalf := half_report (atLeastOne_positive y)
  have hlarger : larger zero ((zero + atLeastOne y) / .ofInt 2) =
      (zero + atLeastOne y) / .ofInt 2 := by
    refine if_neg ?_
    rcases hhalf with hinf | ⟨q, hq, hge⟩
    · rw [hinf]
      exact not_infinite_lt zero_is
    · intro hlt
      have := (hq.lt_iff zero_is).mp hlt
      linarith
  -- the second report outweighs what is left of the announced rate
  have hsecond : ∀ u : Double, ¬ u < zero →
      profileRate (profileRate u zero)
          (shiftWindow (shiftWindow .cleared windowSize (atLeastOne y)).1 windowSize
            (mixRate (atLeastOne y) (atLeastOne z))).2 =
        (zero + atLeastOne y) / .ofInt 2 * .ofRat (975 / 1000) := by
    intro u hu
    have hmean := shiftWindow_rate (shiftWindow .cleared windowSize (atLeastOne y)).1 windowSize
      (mixRate (atLeastOne y) (atLeastOne z))
    rw [hmean, show windowSize - 1 = 3 + 1 from rfl, largestMean_first, hlarger]
    exact profileRate_faint (profileRate_zero hu) hhalf
  have hthird : ∀ u : Double, ¬ u < zero →
      serveAll cfg undefined transfer (m, c) ((r₁, some u) :: (r₂, some y) :: [(r₃, some z)]) =
        ({ m with
            phase := .profiling 3
            maxRate := (zero + atLeastOne y) / .ofInt 2 * .ofRat (975 / 1000)
            recvRate := mixRate (atLeastOne y) (atLeastOne z)
            cnt := 0
            state := .unset
            window := (shiftWindow (shiftWindow .cleared windowSize (atLeastOne y)).1 windowSize
              (mixRate (atLeastOne y) (atLeastOne z))).1
            profileRound := 1 },
          { rateLimit := 0, flag := 1 }) := by
    intro u hu
    show serve cfg undefined transfer (serveAll cfg undefined transfer (m, c)
      [(r₁, some u), (r₂, some y)]) (r₃, some z) = _
    rw [serve_announced hphase, ← hsecond u hu]
    rfl
  show serveAll cfg undefined transfer (serveAll cfg undefined transfer (m, c)
      ((r₁, some x) :: (r₂, some y) :: [(r₃, some z)])) rest =
    serveAll cfg undefined transfer (serveAll cfg undefined transfer (m, c)
      ((r₁, some x') :: (r₂, some y) :: [(r₃, some z)])) rest
  rw [hthird x hx, hthird x' hx']

/-- An announcement of a hundred blocks and one of none. -/
theorem profile_forgets_announcement_hundred :
    serveAll (tgsSettings fun _ => none) 0 true
        ({ Manager.initial with phase := .announcing }, .initial)
        [(0, some (.ofInt 100)), (0, some one), (0, some one)] =
      serveAll (tgsSettings fun _ => none) 0 true
        ({ Manager.initial with phase := .announcing }, .initial)
        [(0, some zero), (0, some one), (0, some one)] := by
  have hhundred : ¬ Double.ofInt 100 < zero := by
    rw [(Double.ofInt_is (n := 100) (by norm_num) (by norm_num)).lt_iff zero_is]
    norm_num
  have hzero : ¬ zero < zero := by
    rw [zero_is.lt_iff zero_is]
    exact lt_irrefl _
  exact profile_forgets_announcement rfl hhundred hzero 0 0 0 one one []

end serve

/-! ## Reports that are off -/

section interference

variable (cfg : TgsSettings) (undefined : ℤ) (transfer : Bool)

/-- The rate that a report of the loop is compared with. -/
def comparedRate (m : Manager) (recvCounter : Double) : Double :=
  let maxWindowRate := (m.report recvCounter).2
  if within (.ofRat (1 / 10)) (relativeDelta maxWindowRate m.maxRate) then
    larger m.maxRate maxWindowRate
  else m.maxRate

/-- The read is a report that moves the allowance through `update_rate_limit`, and differs
from the rate of the HP process by more than the threshold. -/
def Interfering (m : Manager) (value : Option Double) : Prop :=
  match value with
  | none => False
  | some recvCounter =>
    let reported := m.report recvCounter
    let maxDelta := relativeDelta reported.2 m.maxRate
    let zeros := numZero reported.1.window
    m.phase = .controlling ∧ m.cnt ≠ 0 ∧
      (within (.ofRat (1 / 10)) maxDelta ∨
        ¬ (cfg.reprofileThreshold < maxDelta ∨ maxDelta < -cfg.reprofileThreshold)) ∧
      (zeros ≤ windowSize / 5 * 2 ∨ m.cnt + 1 < 15) ∧ ¬ (zeros = 2 ∧ 15 < m.cnt + 1) ∧
      ¬ rateDelta reported.1.recvRate (comparedRate m recvCounter) ≤ cfg.rateThreshold

instance instDecidableInterfering (m : Manager) (value : Option Double) :
    Decidable (Interfering cfg m value) :=
  match value with
  | none => inferInstanceAs (Decidable False)
  | some _ => inferInstanceAs (Decidable (_ ∧ _))

/-- How many of the last reads were such reports, one after the other, if there were `n`
before. -/
def streak (s : Manager × Control) : List (ℤ × Option Double) → (n : Nat) → Nat
  | [], n => n
  | x :: xs, n =>
    streak (serve cfg undefined transfer s x) xs (if Interfering cfg s.1 x.2 then n + 1 else 0)

variable {cfg undefined transfer} {m : Manager} {c : Control}

theorem adjust_backs_off {currentRate : ℤ} {r : Nat}
    (hr : (r : ℤ) ≤ upperLimit) (hstate : m.state ≠ .unset) (hcnt : m.cnt ≠ 0)
    (hzeros : numZero m.window ≤ windowSize / 5 * 2 ∨ m.cnt + 1 < 15)
    (hinit : ¬ (numZero m.window = 2 ∧ 15 < m.cnt + 1))
    (hdelta : ¬ rateDelta m.recvRate m.maxRate ≤ cfg.rateThreshold) :
    (execAll (m.adjust cfg undefined r currentRate).2 c).rateLimit ≤ backedOff r := by
  unfold Manager.adjust
  dsimp only
  rw [if_neg (by omega), if_pos hzeros, if_neg hinit]
  exact updateRateLimit_backs_off hr rfl hstate hdelta

/-- Such a report takes its part of the allowance away. -/
theorem serve_interfering (hc : Settled m c) {r : Nat} (hr : c.rateLimit = r)
    {x : ℤ × Option Double} (h : Interfering cfg m x.2) :
    (serve cfg undefined transfer (m, c) x).2.rateLimit ≤ backedOff r := by
  obtain ⟨currentRate, value⟩ := x
  cases value with
  | none => exact h.elim
  | some recvCounter =>
    obtain ⟨hphase, hcnt, hkeep, hzeros, hinit, hdelta⟩ := h
    have hconnected : m.phase.connected = true := by rw [hphase]; rfl
    have hstate : m.state ≠ .unset := fun h => hcnt ((hc.unset hconnected).mp h)
    have hupper : (r : ℤ) ≤ upperLimit := hr ▸ hc.range.2
    unfold comparedRate at hdelta
    unfold serve Manager.received
    dsimp only
    rw [hphase]
    unfold Manager.controlSample
    dsimp only
    rw [hr]
    by_cases hwithin : within (.ofRat (1 / 10)) (relativeDelta (m.report recvCounter).2 m.maxRate)
    · rw [if_pos hwithin] at hdelta ⊢
      exact adjust_backs_off hupper hstate hcnt hzeros hinit hdelta
    · rw [if_neg hwithin] at hdelta ⊢
      rw [if_neg (hkeep.resolve_left hwithin)]
      exact adjust_backs_off hupper hstate hcnt hzeros hinit hdelta

/-- A bound on the allowance after `n` such reports in a row. -/
def backedOffBy (n : Nat) : Nat := backedOff^[n] upperLimit.toNat

theorem backedOffBy_succ (n : Nat) : backedOffBy (n + 1) = backedOff (backedOffBy n) :=
  Function.iterate_succ_apply' _ _ _

theorem backedOffBy_eq_zero {n : Nat} (h : 302 ≤ n) : backedOffBy n = 0 := by
  induction n, h using Nat.le_induction with
  | base => decide +kernel
  | succ n _ ih =>
    rw [backedOffBy_succ, ih]
    rfl

theorem serve_settled (hc : Settled m c) (x : ℤ × Option Double) :
    Settled (serve cfg undefined transfer (m, c) x).1 (serve cfg undefined transfer (m, c) x).2 :=
  (received_settled cfg undefined hc transfer x.1 x.2).1

/-- One read keeps the bound that belongs to the streak. -/
theorem serve_bounded (hc : Settled m c) {n : Nat} (hn : c.rateLimit ≤ backedOffBy n)
    (x : ℤ × Option Double) :
    (serve cfg undefined transfer (m, c) x).2.rateLimit ≤
      backedOffBy (if Interfering cfg m x.2 then n + 1 else 0) := by
  obtain ⟨r, hr⟩ := Int.eq_ofNat_of_zero_le hc.range.1
  split
  next h =>
    have hle : r ≤ backedOffBy n := by omega
    rw [backedOffBy_succ]
    calc
      (serve cfg undefined transfer (m, c) x).2.rateLimit ≤ backedOff r :=
        serve_interfering hc hr h
      _ ≤ backedOff (backedOffBy n) := Int.ofNat_le.mpr (backedOff_mono hle)
  next => exact (serve_settled hc x).range.2

/-- After all reads of all connections: if the last `n` were reports that were off by more
than the threshold, the allowance went down `n` times, and after 302 it is zero. -/
theorem interference_stops_be (xs : List (ℤ × Option Double)) :
    let c := (serveAll cfg undefined transfer (.initial, .initial) xs).2
    let n := streak cfg undefined transfer (.initial, .initial) xs 0
    c.rateLimit ≤ backedOffBy n ∧ (302 ≤ n → c.rateLimit = 0) := by
  have hrun : ∀ (xs : List (ℤ × Option Double)) (m : Manager) (c : Control) (n : Nat),
      Settled m c → c.rateLimit ≤ backedOffBy n →
      Settled (serveAll cfg undefined transfer (m, c) xs).1
          (serveAll cfg undefined transfer (m, c) xs).2 ∧
        (serveAll cfg undefined transfer (m, c) xs).2.rateLimit ≤
          backedOffBy (streak cfg undefined transfer (m, c) xs n) := by
    intro xs
    induction xs with
    | nil => exact fun m c n hc hn => ⟨hc, hn⟩
    | cons x xs ih => exact fun m c n hc hn => ih _ _ _ (serve_settled hc x) (serve_bounded hc hn x)
  obtain ⟨hsettled, hbound⟩ := hrun xs .initial .initial 0 settled_initial upperLimit_nonneg
  refine ⟨hbound, fun h => ?_⟩
  rw [backedOffBy_eq_zero h] at hbound
  exact le_antisymm hbound hsettled.range.1

end interference

end Lilt.Tgs
