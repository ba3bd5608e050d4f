import Lilt.Be.Survival

/-!
# Less load keeps a survival admission (`event_be_survival_admission_locked`)

A launch that the survival policy refuses waits until older work is retired, and asks
again. Here is what it relies on: with less work outstanding, or for a shorter launch, a
yes stays a yes and a promotion stays a promotion.

- `addSaturating_mono`, `survivalNumerator_anti`, `survivalProbabilityPct_anti`: how each
  part of the estimate follows the load.
- `survivalAccepts`, `survivalPromoted`: the two decisions of the function.
- `survivalDecision_eq_some`: the grant follows from them.
- `survivalAdmission_monotone`: both decisions are monotone in the load.
-/

namespace Lilt.Be

open Lilt.Activity Survival

/-! ## The parts of the estimate -/

/-- The sum that stops at 2^64 - 1 keeps the order. -/
theorem addSaturating_mono {left left' right right' : UInt64} (hleft : left ≤ left')
    (hright : right ≤ right') :
    eventBeAddSaturating left right ≤ eventBeAddSaturating left' right' := by
  rw [UInt64.le_iff_toNat_le] at hleft hright ⊢
  rw [addSaturating_toNat, addSaturating_toNat]
  omega

/-- Every bucket counts at most as many periods as the one before it. -/
def HpTiming.CountsFall (timing : HpTiming) : Prop :=
  ∀ i, i + 1 < idleSurvivalBuckets →
    timing.idleSurvivalCounts (i + 1) ≤ timing.idleSurvivalCounts i

section estimate

variable {timing : HpTiming} (hfall : timing.CountsFall)

include hfall

/-- From a bucket on, no count is above that of the bucket before it. -/
theorem survivalNumeratorFrom_le (targetNs : UInt64) {i left : Nat}
    (hi : i + 1 + left = idleSurvivalBuckets) :
    survivalNumeratorFrom timing targetNs (i + 1) left ≤ timing.idleSurvivalCounts i := by
  induction left generalizing i with
  | zero => exact UInt64.zero_le
  | succ left ih =>
    have hnext := hfall i (by omega)
    unfold survivalNumeratorFrom
    split
    · exact hnext
    · exact UInt64.le_trans (ih (by omega)) hnext

/-- From any bucket on, the search for a later time ends at a later bucket. -/
theorem survivalNumeratorFrom_anti {t u : UInt64} (htu : t ≤ u) {i left : Nat}
    (hi : i + left = idleSurvivalBuckets) :
    survivalNumeratorFrom timing u i left ≤ survivalNumeratorFrom timing t i left := by
  induction left generalizing i with
  | zero => exact UInt64.le_refl _
  | succ left ih =>
    unfold survivalNumeratorFrom
    by_cases hu : u ≤ idleSurvivalThresholdNs i
    · rw [if_pos hu, if_pos (UInt64.le_trans htu hu)]
      exact UInt64.le_refl _
    · rw [if_neg hu]
      split
      -- the earlier target stops here, the later one somewhere behind
      · exact survivalNumeratorFrom_le hfall u (by omega)
      · exact ih (by omega)

/-- Fewer idle periods last until a later time. -/
theorem survivalNumerator_anti {t u : UInt64} (htu : t ≤ u) :
    eventBeSurvivalNumerator timing u ≤ eventBeSurvivalNumerator timing t :=
  survivalNumeratorFrom_anti hfall htu (Nat.zero_add _)

/-- Before truncation: more work is less likely to fit. -/
theorem survivalProbability_anti (elapsedNs : UInt64) {additional additional' : UInt64}
    (h : additional ≤ additional') :
    survivalProbability timing elapsedNs additional' ≤
      survivalProbability timing elapsedNs additional := by
  have htarget := addSaturating_mono (UInt64.le_refl elapsedNs) h
  exact percentage_mono (UInt64.le_iff_toNat_le.mp (survivalNumerator_anti hfall htarget)) _

/-- More work is not more likely to be done in time. -/
theorem survivalProbabilityPct_anti {fp : BeFloat}
    (hexact : ∀ numerator denominator : UInt64, denominator ≠ 0 →
      fp.percentage numerator denominator = ⌊percentage numerator.toNat denominator.toNat⌋₊)
    (elapsedNs : UInt64) {additional additional' : UInt64} (h : additional ≤ additional') :
    eventBeSurvivalProbabilityPct fp timing elapsedNs additional' ≤
      eventBeSurvivalProbabilityPct fp timing elapsedNs additional := by
  rw [survivalProbabilityPct_eq_floor hexact, survivalProbabilityPct_eq_floor hexact]
  exact Nat.floor_le_floor (survivalProbability_anti hfall elapsedNs h)

end estimate

/-! ## The two decisions -/

section decisions

variable (cfg : BeConfig) (fp : BeFloat) (w : BeWindow) (timing : HpTiming) (now : UInt64)

/-- There are enough samples, and enough of them outlast the present idle period. -/
def histogramReady : Prop :=
  cfg.survivalMinSamples ≤ timing.idleSamples.toNat ∧
    cfg.survivalMinSamples ≤ (eventBeSurvivalDenominator timing (elapsedIdle timing now)).toNat

/-- The present idle period outlasts the longest threshold. -/
def veryLongObservation : Prop :=
  0 < idleSurvivalThresholdNs (idleSurvivalBuckets - 1) ∧
    idleSurvivalThresholdNs (idleSurvivalBuckets - 1) ≤ elapsedIdle timing now

/-- The work that the decision on a launch is about. -/
def admissionWork (incomingNs : UInt64) : UInt64 :=
  eventBeAddSaturating
    (eventBeAddSaturating (survivalContext cfg w)
      (eventBeAddSaturating w.outstandingPredictedNs incomingNs))
    cfg.gapGuardNs

/-- The work that the decision on a promotion is about. -/
def promotionWork : UInt64 :=
  eventBeAddSaturating (survivalContext cfg w)
    (eventBeAddSaturating w.outstandingPredictedNs cfg.survivalPromotedBudgetNs)

/-- The launch is admitted: after a very long idle period, for want of samples, or because
the estimate is good enough. -/
def survivalAccepts (incomingNs : UInt64) : Prop :=
  veryLongObservation timing now ∨
    ¬ histogramReady cfg timing now ∧ cfg.survivalColdStartNs ≤ elapsedIdle timing now ∨
    histogramReady cfg timing now ∧
      cfg.survivalConfidence ≤ eventBeSurvivalProbabilityPct fp timing (elapsedIdle timing now)
        (admissionWork cfg w incomingNs)

/-- The episode is promoted. -/
def survivalPromoted : Prop :=
  veryLongObservation timing now ∨
    histogramReady cfg timing now ∧
      cfg.survivalPromoteConfidence ≤ eventBeSurvivalProbabilityPct fp timing
        (elapsedIdle timing now) (promotionWork cfg w)

/-- The window and the budget of a promoted episode. -/
def promotedGrant : Nat × UInt64 :=
  (if cfg.window < cfg.survivalPromotedWindow then cfg.window else cfg.survivalPromotedWindow,
    cfg.survivalPromotedBudgetNs)

/-- The window and the budget of an episode that is not promoted. -/
def internalGrant : Nat × UInt64 :=
  (if cfg.window < cfg.survivalInternalWindow then cfg.window else cfg.survivalInternalWindow,
    cfg.survivalInternalBudgetNs)

/-- What is granted to an accepted launch. -/
theorem survivalDecision_eq_some (incomingNs : UInt64) (grant : Nat × UInt64) :
    survivalDecision cfg fp w timing now incomingNs = some grant ↔
      survivalAccepts cfg fp w timing now incomingNs ∧
        (survivalPromoted cfg fp w timing now ∧ grant = promotedGrant cfg ∨
          ¬ survivalPromoted cfg fp w timing now ∧ grant = internalGrant cfg) := by
  have hrefuse : (¬ veryLongObservation timing now ∧
      ¬ (¬ cfg.survivalMinSamples ≤ timing.idleSamples.toNat ∧
        cfg.survivalColdStartNs ≤ elapsedIdle timing now) ∧
      ¬ (cfg.survivalMinSamples ≤ timing.idleSamples.toNat ∧ ¬ histogramReady cfg timing now ∧
        cfg.survivalColdStartNs ≤ elapsedIdle timing now) ∧
      (¬ histogramReady cfg timing now ∨
        eventBeSurvivalProbabilityPct fp timing (elapsedIdle timing now)
          (admissionWork cfg w incomingNs) < cfg.survivalConfidence)) ↔
      ¬ survivalAccepts cfg fp w timing now incomingNs := by
    unfold survivalAccepts
    have hready : histogramReady cfg timing now →
        cfg.survivalMinSamples ≤ timing.idleSamples.toNat := And.left
    rw [← Nat.not_le]
    tauto
  unfold survivalDecision
  dsimp only
  split
  next h =>
    exact iff_of_false (Option.some_ne_none _).symm fun haccept => hrefuse.mp h haccept.1
  next h =>
    have haccept := not_not.mp fun hnot => h (hrefuse.mpr hnot)
    rw [and_iff_right haccept]
    by_cases hp : survivalPromoted cfg fp w timing now
    · have hgrant := hp
      unfold survivalPromoted veryLongObservation histogramReady promotionWork at hgrant
      rw [if_pos hgrant, if_pos hgrant, Option.some_inj]
      constructor
      · exact fun heq => .inl ⟨hp, heq.symm⟩
      · rintro (⟨-, heq⟩ | ⟨hnot, -⟩)
        · exact heq.symm
        · exact absurd hp hnot
    · have hgrant := hp
      unfold survivalPromoted veryLongObservation histogramReady promotionWork at hgrant
      rw [if_neg hgrant, if_neg hgrant, Option.some_inj]
      constructor
      · exact fun heq => .inr ⟨hp, heq.symm⟩
      · rintro (⟨hyes, -⟩ | ⟨-, heq⟩)
        · exact absurd hyes hp
        · exact heq.symm

end decisions

/-! ## Less load -/

section load

variable (cfg : BeConfig) {fp : BeFloat} (w : BeWindow) {timing : HpTiming}
  (hexact : ∀ numerator denominator : UInt64, denominator ≠ 0 →
    fp.percentage numerator denominator = ⌊percentage numerator.toNat denominator.toNat⌋₊)
  (hfall : timing.CountsFall) (now : UInt64) {o o' x y : UInt64} (ho : o' ≤ o)

include hexact hfall ho

/-- A launch is accepted behind less work if it is behind more. -/
theorem survivalAccepts_anti (hx : y ≤ x)
    (h : survivalAccepts cfg fp { w with outstandingPredictedNs := o } timing now x) :
    survivalAccepts cfg fp { w with outstandingPredictedNs := o' } timing now y := by
  rcases h with hlong | hcold | ⟨hready, hprobable⟩
  · exact .inl hlong
  · exact .inr (.inl hcold)
  · have hwork : admissionWork cfg { w with outstandingPredictedNs := o' } y ≤
        admissionWork cfg { w with outstandingPredictedNs := o } x :=
      addSaturating_mono
        (addSaturating_mono (UInt64.le_refl _) (addSaturating_mono ho hx)) (UInt64.le_refl _)
    have hmore := survivalProbabilityPct_anti hfall hexact (elapsedIdle timing now) hwork
    exact .inr (.inr ⟨hready, hprobable.trans hmore⟩)

/-- It is promoted behind less work if it is behind more. -/
theorem survivalPromoted_anti
    (h : survivalPromoted cfg fp { w with outstandingPredictedNs := o } timing now) :
    survivalPromoted cfg fp { w with outstandingPredictedNs := o' } timing now := by
  rcases h with hlong | ⟨hready, hprobable⟩
  · exact .inl hlong
  · have hwork : promotionWork cfg { w with outstandingPredictedNs := o' } ≤
        promotionWork cfg { w with outstandingPredictedNs := o } :=
      addSaturating_mono (UInt64.le_refl _) (addSaturating_mono ho (UInt64.le_refl _))
    have hmore := survivalProbabilityPct_anti hfall hexact (elapsedIdle timing now) hwork
    exact .inr ⟨hready, hprobable.trans hmore⟩

end load

/-- The work outstanding is no part of the episode. -/
theorem survivalEpisode_outstanding (w : BeWindow) (timing : HpTiming) (o : UInt64) :
    survivalEpisode { w with outstandingPredictedNs := o } timing =
      { survivalEpisode w timing with outstandingPredictedNs := o } := by
  unfold survivalEpisode
  split <;> rfl

/-- The admission is the decision in the episode of an idle period that began. -/
theorem survivalAdmission_eq_some {cfg : BeConfig} {fp : BeFloat} {w : BeWindow}
    {timing : HpTiming} {now incomingNs : UInt64} {grant : Nat × UInt64} :
    (eventBeSurvivalAdmissionLocked cfg fp w (some timing) now incomingNs).2 = some grant ↔
      (timing.hpState = .idle ∧ timing.lastIdleNs ≠ 0) ∧
        survivalDecision cfg fp (survivalEpisode w timing) timing now incomingNs =
          some grant := by
  unfold eventBeSurvivalAdmissionLocked
  dsimp only
  split
  next hno =>
    refine iff_of_false (Option.some_ne_none _).symm fun h => ?_
    exact hno.elim (absurd h.1.1) h.1.2
  next hyes =>
    obtain ⟨hidle, hbegan⟩ := not_or.mp hyes
    exact (and_iff_right ⟨not_not.mp hidle, hbegan⟩).symm

/-- For every configuration, snapshot with falling counts, clock value and episode, and
with the estimate computed exactly before it is truncated: a launch that is admitted when
`o` is outstanding is admitted when at most `o` is, and so is every launch that is no
longer; the episode stays promoted if it was, in its window and budget as well. -/
theorem survivalAdmission_monotone (cfg : BeConfig) {fp : BeFloat}
    (hexact : ∀ numerator denominator : UInt64, denominator ≠ 0 →
      fp.percentage numerator denominator = ⌊percentage numerator.toNat denominator.toNat⌋₊)
    (w : BeWindow) {timing : HpTiming} (hfall : timing.CountsFall) (now : UInt64)
    {o o' x y : UInt64} (ho : o' ≤ o) (hx : y ≤ x) {grant : Nat × UInt64}
    (hadmitted : (eventBeSurvivalAdmissionLocked cfg fp { w with outstandingPredictedNs := o }
      (some timing) now x).2 = some grant) :
    ∃ grant', (eventBeSurvivalAdmissionLocked cfg fp { w with outstandingPredictedNs := o' }
        (some timing) now y).2 = some grant' ∧
      (grant = promotedGrant cfg → grant' = promotedGrant cfg) ∧
      (survivalPromoted cfg fp { survivalEpisode w timing with outstandingPredictedNs := o }
          timing now →
        survivalPromoted cfg fp { survivalEpisode w timing with outstandingPredictedNs := o' }
          timing now) := by
  obtain ⟨hidle, hdecision⟩ := survivalAdmission_eq_some.mp hadmitted
  rw [survivalEpisode_outstanding, survivalDecision_eq_some] at hdecision
  obtain ⟨haccepts, hgrant⟩ := hdecision
  have haccepts' := survivalAccepts_anti cfg _ hexact hfall now ho hx haccepts
  have hpromoted := survivalPromoted_anti cfg (survivalEpisode w timing) hexact hfall now ho
  have hadmit : ∀ grant', (survivalPromoted cfg fp
        { survivalEpisode w timing with outstandingPredictedNs := o' } timing now ∧
          grant' = promotedGrant cfg ∨
        ¬ survivalPromoted cfg fp
          { survivalEpisode w timing with outstandingPredictedNs := o' } timing now ∧
          grant' = internalGrant cfg) →
      (eventBeSurvivalAdmissionLocked cfg fp { w with outstandingPredictedNs := o' }
        (some timing) now y).2 = some grant' := by
    intro grant' hgrant'
    refine survivalAdmission_eq_some.mpr ⟨hidle, ?_⟩
    rw [survivalEpisode_outstanding, survivalDecision_eq_some]
    exact ⟨haccepts', hgrant'⟩
  by_cases hp : survivalPromoted cfg fp
      { survivalEpisode w timing with outstandingPredictedNs := o' } timing now
  · exact ⟨_, hadmit _ (.inl ⟨hp, rfl⟩), fun _ => rfl, hpromoted⟩
  · refine ⟨_, hadmit _ (.inr ⟨hp, rfl⟩), fun hgrant' => ?_, hpromoted⟩
    -- the first grant is the internal one as well
    rcases hgrant with ⟨hyes, -⟩ | ⟨-, hinternal⟩
    · exact absurd (hpromoted hyes) hp
    · rw [← hinternal, hgrant']

/-- The quotient in exact arithmetic. -/
def exactFloat : BeFloat where
  gapBlocks blockBudget _ _ _ := blockBudget
  gapTime remaining _ := remaining
  percentage numerator denominator := ⌊percentage numerator.toNat denominator.toNat⌋₊

/-- The values that `event_be_initialize_window` falls back to, with the policy
`survival` and a window of eight. -/
def survivalConfig : BeConfig where
  policy := .survival
  window := 8
  blockBudget := 20000
  gapFraction := 90
  gapGuardNs := 50000
  timeBudgetNs := 100000
  unknownKernelNs := 20000
  survivalMinSamples := 32
  survivalConfidence := 50
  survivalPromoteConfidence := 90
  survivalColdStartNs := 500000
  survivalContextNs := 141000
  survivalInternalWindow := 2
  survivalPromotedWindow := 8
  survivalInternalBudgetNs := 40000
  survivalPromotedBudgetNs := 100000
  window_pos := by decide
  window_le := by decide
  blockBudget_pos := by decide
  timeBudget_pos := by decide
  internalWindow_pos := by decide
  promotedWindow_pos := by decide

/-- Of 64 idle periods, 60 lasted longer than 1 ms and 8 longer than 1.5 ms. -/
def longIdleTiming : HpTiming where
  hpState := .idle
  idleSamples := 64
  lastIdleNs := 1000
  idleEwmaNs := 500000
  idleSurvivalCounts i := if i ≤ 14 then 60 else 8

/-- No longer idle period is more frequent. -/
theorem longIdleTiming_falls : longIdleTiming.CountsFall := by
  intro i hi
  unfold longIdleTiming
  dsimp only
  split <;> split
  · exact UInt64.le_refl _
  · omega
  · decide
  · exact UInt64.le_refl _

/-- A launch of 20 us is admitted behind 50 us of work, so one of 5 us behind 20 us is. -/
theorem survivalAdmission_monotone_retired : ∃ grant',
    (eventBeSurvivalAdmissionLocked survivalConfig exactFloat
        { BeWindow.initial with outstandingPredictedNs := 20000 } (some longIdleTiming) 301000
          5000).2 = some grant' ∧
      grant' = promotedGrant survivalConfig := by
  have hadmitted : (eventBeSurvivalAdmissionLocked survivalConfig exactFloat
      { BeWindow.initial with outstandingPredictedNs := 50000 } (some longIdleTiming) 301000
        20000).2 = some (promotedGrant survivalConfig) := by decide +kernel
  obtain ⟨grant', hgrant', hpromoted, -⟩ := survivalAdmission_monotone survivalConfig
    (fun _ _ _ => rfl) .initial longIdleTiming_falls 301000
    (by decide : (20000 : UInt64) ≤ 50000) (by decide : (5000 : UInt64) ≤ 20000) hadmitted
  exact ⟨grant', hgrant', hpromoted rfl⟩

end Lilt.Be
