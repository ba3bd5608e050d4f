import Lilt.Activity.Shared
import Lilt.Be.Window

/-!
# Admission budgets of the BE proxy (`be_intercept.c`)

How much work may be in flight behind the next launch. The budgets depend on a
snapshot of the HP process's timing statistics, which may fail, and on the clock.
The code computes some of them in floating point; `BeFloat` stands for those
computations and nothing is assumed of them.

- `eventBeEffectiveBlockBudgetLocked`, `eventBeEffectiveTimeBudgetLocked`: the
  budget of one launch.
- `effectiveTimeBudget_le`: it never exceeds the configured one.
- `eventBeSurvivalAdmissionLocked`: the decision of the survival policy.
- `survivalAdmission_le`: what it grants is within the configured limits.
-/

namespace Lilt.Be

open Lilt.Activity

/-- `lilt_event_hp_timing_t` -/
structure HpTiming where
  hpState : HpState
  idleSamples : UInt32
  lastIdleNs : UInt64
  idleEwmaNs : UInt64
  idleSurvivalCounts : Nat → UInt64

/-- The computations in `double`. -/
structure BeFloat where
  /-- `(uint64_t)((double)block_budget * ((double)remaining / (double)ewma) *
  ((double)fraction / 100.0))` -/
  gapBlocks : (blockBudget remaining ewma : UInt64) → (fraction : Nat) → UInt64
  /-- `(uint64_t)((double)remaining * ((double)fraction / 100.0))` -/
  gapTime : (remaining : UInt64) → (fraction : Nat) → UInt64
  /-- `(unsigned int)(100.0 * (double)numerator / (double)denominator)`, at most
  100. -/
  percentage : (numerator denominator : UInt64) → Nat

/-- `EVENT_BE_GAP_MIN_SAMPLES` -/
def eventBeGapMinSamples : UInt32 := 4

/-- The snapshot lets the budget follow the HP gap. -/
def gapReady (timing : HpTiming) : Bool :=
  timing.hpState = .idle && eventBeGapMinSamples ≤ timing.idleSamples &&
    0 < timing.idleEwmaNs && 0 < timing.lastIdleNs

/-- The time since `last_idle_ns`. -/
def elapsedIdle (timing : HpTiming) (now : UInt64) : UInt64 :=
  if timing.lastIdleNs < now then now - timing.lastIdleNs else 0

/-- What is left of the expected idle period, less the guard. -/
def remainingIdle (cfg : BeConfig) (timing : HpTiming) (now : UInt64) : UInt64 :=
  let consumed := eventBeAddSaturating (elapsedIdle timing now) cfg.gapGuardNs
  if consumed < timing.idleEwmaNs then timing.idleEwmaNs - consumed else 0

/-- `event_be_effective_block_budget_locked` -/
def eventBeEffectiveBlockBudgetLocked (cfg : BeConfig) (fp : BeFloat)
    (timing : Option HpTiming) (now : UInt64) : UInt64 :=
  if cfg.policy ≠ .gap then cfg.blockBudget
  else
    match timing with
    | none => cfg.blockBudget
    | some timing =>
      if gapReady timing then
        let budget := fp.gapBlocks cfg.blockBudget (remainingIdle cfg timing now)
          timing.idleEwmaNs cfg.gapFraction
        if budget = 0 then 1 else budget
      else cfg.blockBudget

/-- `event_be_effective_time_budget_locked` -/
def eventBeEffectiveTimeBudgetLocked (cfg : BeConfig) (fp : BeFloat)
    (timing : Option HpTiming) (now : UInt64) : UInt64 :=
  if cfg.policy = .timeSum then cfg.timeBudgetNs
  else
    match timing with
    | none => cfg.timeBudgetNs
    | some timing =>
      if gapReady timing then
        let safeRemaining := fp.gapTime (remainingIdle cfg timing now) cfg.gapFraction
        let budget := if safeRemaining < cfg.timeBudgetNs then safeRemaining else cfg.timeBudgetNs
        if budget = 0 then 1 else budget
      else cfg.timeBudgetNs

/-- Raising a budget of zero to one keeps it below a positive limit. -/
theorem raise_zero_le {budget limit : UInt64} (hpos : 0 < limit) (h : budget ≤ limit) :
    (if budget = 0 then 1 else budget) ≤ limit := by
  split
  · rw [UInt64.lt_iff_toNat_lt] at hpos
    exact UInt64.le_iff_toNat_le.mpr hpos
  · exact h

/-- A limit bounds. -/
theorem min_le_limit (budget limit : UInt64) :
    (if budget < limit then budget else limit) ≤ limit := by
  split
  next h => exact UInt64.le_of_lt h
  next => exact UInt64.le_refl _

/-- The time budget is at most the configured one, whatever the arithmetic gives. -/
theorem effectiveTimeBudget_le (cfg : BeConfig) (fp : BeFloat) (timing : Option HpTiming)
    (now : UInt64) : eventBeEffectiveTimeBudgetLocked cfg fp timing now ≤ cfg.timeBudgetNs := by
  unfold eventBeEffectiveTimeBudgetLocked
  split
  · exact UInt64.le_refl _
  · split
    · exact UInt64.le_refl _
    · split
      · exact raise_zero_le cfg.timeBudget_pos (min_le_limit _ _)
      · exact UInt64.le_refl _

/-- `event_be_blocks_exceed_budget` -/
def eventBeBlocksExceedBudget (w : BeWindow) (incoming budget : UInt64) : Bool :=
  budget < incoming || budget - incoming < w.outstandingBlocks

/-- `event_be_time_exceeds_budget` -/
def eventBeTimeExceedsBudget (w : BeWindow) (incoming budget : UInt64) : Bool :=
  budget < incoming || budget - incoming < w.outstandingPredictedNs

/-- A launch that does not exceed the budget fits into it, without wrapping. -/
theorem time_within_budget {w : BeWindow} {incoming budget : UInt64}
    (h : eventBeTimeExceedsBudget w incoming budget = false) :
    w.outstandingPredictedNs.toNat + incoming.toNat ≤ budget.toNat := by
  simp only [eventBeTimeExceedsBudget, Bool.or_eq_false_iff, decide_eq_false_iff_not,
    UInt64.not_lt] at h
  obtain ⟨hin, hout⟩ := h
  -- the first test makes the subtraction of the second exact
  have hsub := UInt64.toNat_sub_of_le _ _ hin
  rw [UInt64.le_iff_toNat_le] at hin hout
  omega

/-! ## The survival policy -/

/-- `lilt_event_idle_survival_threshold_ns` -/
def idleSurvivalThresholdNs (index : Nat) : UInt64 :=
  gIdleSurvivalThresholdsNs.getD index 0

/-- The loop of `event_be_survival_denominator` from the bucket `i` on. -/
def survivalDenominatorFrom (timing : HpTiming) (elapsedNs : UInt64) (i : Nat) :
    (left : Nat) → (denominator : UInt64) → UInt64
  | 0, denominator => denominator
  | left + 1, denominator =>
    let threshold := idleSurvivalThresholdNs i
    if threshold = 0 ∨ elapsedNs < threshold then denominator
    else survivalDenominatorFrom timing elapsedNs (i + 1) left (timing.idleSurvivalCounts i)

/-- `event_be_survival_denominator` -/
def eventBeSurvivalDenominator (timing : HpTiming) (elapsedNs : UInt64) : UInt64 :=
  survivalDenominatorFrom timing elapsedNs 0 idleSurvivalBuckets timing.idleSamples.toUInt64

/-- The loop of `event_be_survival_numerator` from the bucket `i` on. -/
def survivalNumeratorFrom (timing : HpTiming) (targetNs : UInt64) (i : Nat) :
    (left : Nat) → UInt64
  | 0 => 0
  | left + 1 =>
    if targetNs ≤ idleSurvivalThresholdNs i then timing.idleSurvivalCounts i
    else survivalNumeratorFrom timing targetNs (i + 1) left

/-- `event_be_survival_numerator` -/
def eventBeSurvivalNumerator (timing : HpTiming) (targetNs : UInt64) : UInt64 :=
  survivalNumeratorFrom timing targetNs 0 idleSurvivalBuckets

/-- `event_be_survival_probability_pct` -/
def eventBeSurvivalProbabilityPct (fp : BeFloat) (timing : HpTiming)
    (elapsedNs additionalNs : UInt64) : Nat :=
  let denominator := eventBeSurvivalDenominator timing elapsedNs
  let target := eventBeAddSaturating elapsedNs additionalNs
  let numerator := eventBeSurvivalNumerator timing target
  if denominator = 0 then 0 else fp.percentage numerator denominator

/-- The part of `event_be_survival_admission_locked` that starts a new episode
when the HP process was idle again. -/
def survivalEpisode (w : BeWindow) (timing : HpTiming) : BeWindow :=
  if timing.lastIdleNs ≠ w.survivalEpisodeLastIdleNs then
    { w with survivalEpisodeLastIdleNs := timing.lastIdleNs, survivalEpisodeLaunches := 0 }
  else w

/-- The context time of the first launch of an episode. -/
def survivalContext (cfg : BeConfig) (w : BeWindow) : UInt64 :=
  if w.survivalEpisodeLaunches = 0 then cfg.survivalContextNs else 0

/-- The rest of `event_be_survival_admission_locked`: the window and the budget
granted, if the launch is admitted. -/
def survivalDecision (cfg : BeConfig) (fp : BeFloat) (w : BeWindow) (timing : HpTiming)
    (now incomingNs : UInt64) : Option (Nat × UInt64) :=
  let elapsedNs := elapsedIdle timing now
  let contextNs := survivalContext cfg w
  let additionalNs := eventBeAddSaturating
    (eventBeAddSaturating contextNs (eventBeAddSaturating w.outstandingPredictedNs incomingNs))
    cfg.gapGuardNs
  let probability := eventBeSurvivalProbabilityPct fp timing elapsedNs additionalNs
  let denominator := eventBeSurvivalDenominator timing elapsedNs
  let globalHistogramReady := cfg.survivalMinSamples ≤ timing.idleSamples.toNat
  let histogramReady := globalHistogramReady ∧ cfg.survivalMinSamples ≤ denominator.toNat
  let longestThreshold := idleSurvivalThresholdNs (idleSurvivalBuckets - 1)
  let veryLongObservation := 0 < longestThreshold ∧ longestThreshold ≤ elapsedNs
  let coldAdmission := ¬ globalHistogramReady ∧ cfg.survivalColdStartNs ≤ elapsedNs
  let sparseTailAdmission :=
    globalHistogramReady ∧ ¬ histogramReady ∧ cfg.survivalColdStartNs ≤ elapsedNs
  if ¬ veryLongObservation ∧ ¬ coldAdmission ∧ ¬ sparseTailAdmission ∧
      (¬ histogramReady ∨ probability < cfg.survivalConfidence) then
    none
  else
    let promotedProbability := eventBeSurvivalProbabilityPct fp timing elapsedNs
      (eventBeAddSaturating contextNs
        (eventBeAddSaturating w.outstandingPredictedNs cfg.survivalPromotedBudgetNs))
    let promoted := veryLongObservation ∨
      histogramReady ∧ cfg.survivalPromoteConfidence ≤ promotedProbability
    let selectedWindow :=
      if promoted then cfg.survivalPromotedWindow else cfg.survivalInternalWindow
    some
      (if cfg.window < selectedWindow then cfg.window else selectedWindow,
        if promoted then cfg.survivalPromotedBudgetNs else cfg.survivalInternalBudgetNs)

/-- `event_be_survival_admission_locked` -/
def eventBeSurvivalAdmissionLocked (cfg : BeConfig) (fp : BeFloat) (w : BeWindow)
    (timing : Option HpTiming) (now incomingNs : UInt64) : BeWindow × Option (Nat × UInt64) :=
  match timing with
  | none => (w, none)
  | some timing =>
    if timing.hpState ≠ .idle ∨ timing.lastIdleNs = 0 then (w, none)
    else
      let w := survivalEpisode w timing
      (w, survivalDecision cfg fp w timing now incomingNs)

/-- The larger of the survival budgets. -/
def BeConfig.survivalBudgetNs (cfg : BeConfig) : UInt64 :=
  if cfg.survivalInternalBudgetNs ≤ cfg.survivalPromotedBudgetNs then
    cfg.survivalPromotedBudgetNs
  else cfg.survivalInternalBudgetNs

/-- The window of the settings bounds the one that was selected. -/
theorem capped_le (limit selected : Nat) :
    (if limit < selected then limit else selected) ≤ limit := by
  split
  · exact Nat.le_refl _
  next h => exact Nat.le_of_not_lt h

/-- Whatever is granted is within the settings. -/
theorem survivalDecision_le {cfg : BeConfig} {fp : BeFloat} {w : BeWindow} {timing : HpTiming}
    {now incomingNs : UInt64} {window : Nat} {budget : UInt64}
    (h : survivalDecision cfg fp w timing now incomingNs = some (window, budget)) :
    window ≤ cfg.window ∧ budget ≤ cfg.survivalBudgetNs := by
  unfold survivalDecision at h
  dsimp only at h
  split at h
  next => cases h
  next =>
    obtain ⟨rfl, rfl⟩ := Prod.mk.inj (Option.some.inj h)
    constructor
    · exact capped_le _ _
    · unfold BeConfig.survivalBudgetNs
      split
      · split
        · exact UInt64.le_refl _
        next hle => exact UInt64.le_of_lt (UInt64.not_le.mp hle)
      · split
        next hle => exact hle
        next => exact UInt64.le_refl _

/-- A grant of the survival policy is within the hard window and the larger
budget. -/
theorem survivalAdmission_le {cfg : BeConfig} {fp : BeFloat} {w w' : BeWindow}
    {timing : Option HpTiming} {now incomingNs : UInt64} {window : Nat} {budget : UInt64}
    (h : eventBeSurvivalAdmissionLocked cfg fp w timing now incomingNs =
      (w', some (window, budget))) :
    window ≤ cfg.window ∧ budget ≤ cfg.survivalBudgetNs := by
  unfold eventBeSurvivalAdmissionLocked at h
  split at h
  · cases h
  · split at h
    · cases h
    · exact survivalDecision_le (Prod.mk.inj h).2

/-- The admission changes the episode only. -/
theorem survivalAdmission_window (cfg : BeConfig) (fp : BeFloat) (w : BeWindow)
    (timing : Option HpTiming) (now incomingNs : UInt64) :
    ∃ lastIdleNs launches,
      (eventBeSurvivalAdmissionLocked cfg fp w timing now incomingNs).1 =
        { w with
          survivalEpisodeLastIdleNs := lastIdleNs
          survivalEpisodeLaunches := launches } := by
  unfold eventBeSurvivalAdmissionLocked
  split
  · exact ⟨_, _, rfl⟩
  · split
    · exact ⟨_, _, rfl⟩
    · unfold survivalEpisode
      dsimp only
      split <;> exact ⟨_, _, rfl⟩

end Lilt.Be
