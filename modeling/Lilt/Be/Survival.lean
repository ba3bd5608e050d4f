import Lilt.Be.Admission
import Lilt.Lib.Survival
import Mathlib.Data.Rat.Floor

/-!
# The survival estimate against the idle periods that were counted

The HP process counts how long its idle periods last; a BE process reads the
buckets and estimates how likely the present idle period outlasts the work it
wants to launch. Here both sides meet: a history of the calls of
`activity_tracker.c` that write the buckets, and
`event_be_survival_probability_pct` on a snapshot of what they leave.

- `IdleHistory`: what the history is about, in plain numbers: the owner, the last
  idle time and the idle durations counted since the owner changed.
- `Counts`: the words of the segment say the same as the history.
- `survivalProbability_sound`: the estimate never overstates the share of the
  counted durations that survive.
-/

namespace Lilt.Be

open Lilt.Activity Survival

/-- A call of the HP side, with the clock it reads. -/
inductive HpTimingCall where
  | register (self : Pid) (now : UInt64)
  | markActive (now : UInt64)
  | markIdle (now : UInt64)

/-- What the call does to the segment. -/
def HpTimingCall.exec (m : EventShared) : HpTimingCall → EventShared
  | .register self now => liltEventHpRegister m self now
  | .markActive now => liltEventHpMarkActive m now
  | .markIdle now => liltEventHpMarkIdle m now

/-- The segment after a history of calls, on a fresh one. -/
def sharedAfter (calls : List HpTimingCall) : EventShared :=
  calls.foldl HpTimingCall.exec (eventSharedInitialize .zeroed)

/-- `lilt_event_hp_timing_snapshot`, between two calls. -/
def liltEventHpTimingSnapshot (m : EventShared) : HpTiming where
  hpState := m.hpState
  idleSamples := m.hpIdleSamples
  lastIdleNs := m.hpLastIdleNs
  idleEwmaNs := m.hpIdleEwmaNs
  idleSurvivalCounts := m.hpIdleSurvivalCounts

/-- The history of the HP side. -/
structure IdleHistory where
  owner : Pid
  /-- When the HP process became idle last; 0 if never. -/
  lastIdle : Nat
  /-- The idle durations counted since the owner changed, the latest first. -/
  counted : List Nat

/-- An idle period is counted when it ends at a later time than it began. -/
def IdleHistory.call (h : IdleHistory) : HpTimingCall → IdleHistory
  | .register self now =>
    if h.owner = self then h else { owner := self, lastIdle := now.toNat, counted := [] }
  | .markActive now =>
    if h.lastIdle ≠ 0 ∧ h.lastIdle < now.toNat then
      { h with counted := (now.toNat - h.lastIdle) :: h.counted }
    else h
  | .markIdle now => { h with lastIdle := now.toNat }

/-- The history that a list of calls makes. -/
def historyOf (calls : List HpTimingCall) : IdleHistory :=
  calls.foldl IdleHistory.call ⟨0, 0, []⟩

/-! ## The segment follows the history -/

/-- The segment is what the history says, with counters of 32 and 64 bits. -/
structure Counts (m : EventShared) (h : IdleHistory) : Prop where
  owner : m.hpOwnerPid = h.owner
  lastIdle : m.hpLastIdleNs.toNat = h.lastIdle
  samples : m.hpIdleSamples.toNat = h.counted.length % 2 ^ 32
  buckets : ∀ i threshold, gIdleSurvivalThresholdsNs[i]? = some threshold →
    (m.hpIdleSurvivalCounts i).toNat = survivors h.counted threshold.toNat % 2 ^ 64

theorem counts_initial : Counts (eventSharedInitialize .zeroed) ⟨0, 0, []⟩ :=
  { owner := rfl, lastIdle := rfl, samples := rfl, buckets := fun _ _ _ => rfl }

theorem threshold_lt {i : Nat} {threshold : UInt64}
    (h : gIdleSurvivalThresholdsNs[i]? = some threshold) : i < idleSurvivalBuckets :=
  (List.getElem?_eq_some_iff.mp h).1

/-- A registration is counted in the history as in the segment. -/
theorem Counts.register {m : EventShared} {h : IdleHistory} (hc : Counts m h) (self : Pid)
    (now : UInt64) :
    Counts (liltEventHpRegister m self now) (h.call (.register self now)) := by
  unfold liltEventHpRegister IdleHistory.call
  dsimp only
  by_cases howner : h.owner = self
  · rw [if_pos (hc.owner.trans howner), if_pos howner]
    exact { owner := hc.owner, lastIdle := hc.lastIdle, samples := hc.samples
            buckets := hc.buckets }
  · -- the owner changes and every bucket is reset
    rw [if_neg (hc.owner ▸ howner), if_neg howner]
    refine { owner := rfl, lastIdle := rfl, samples := rfl, buckets := ?_ }
    intro i threshold hi
    simp [threshold_lt hi]

/-- Raising a 64-bit counter. -/
theorem toNat_succ {c : UInt64} {n : Nat} (h : c.toNat = n % 2 ^ 64) :
    (c + 1).toNat = (n + 1) % 2 ^ 64 := by
  rw [UInt64.toNat_add, h]
  simp

/-- Both sides agree whether an idle period is counted that ends at `now`. -/
theorem Counts.counted_iff {m : EventShared} {h : IdleHistory} (hc : Counts m h)
    (now : UInt64) :
    (m.hpLastIdleNs ≠ 0 ∧ m.hpLastIdleNs < now) ↔
      (h.lastIdle ≠ 0 ∧ h.lastIdle < now.toNat) := by
  rw [← hc.lastIdle, UInt64.lt_iff_toNat_lt, Ne, ← UInt64.toNat_inj]
  rfl

/-- How long the period lasted. -/
theorem Counts.duration_toNat {m : EventShared} {h : IdleHistory} (hc : Counts m h)
    {now : UInt64} (hlt : m.hpLastIdleNs < now) :
    (now - m.hpLastIdleNs).toNat = now.toNat - h.lastIdle := by
  rw [UInt64.toNat_sub_of_le _ _ (UInt64.le_of_lt hlt), hc.lastIdle]

/-- An end of an idle period is counted in the history as in the segment. -/
theorem Counts.markActive {m : EventShared} {h : IdleHistory} (hc : Counts m h)
    (now : UInt64) :
    Counts (liltEventHpMarkActive m now) (h.call (.markActive now)) := by
  have hcond := hc.counted_iff now
  unfold liltEventHpMarkActive countIdlePeriod IdleHistory.call
  dsimp only
  by_cases hcounted : h.lastIdle ≠ 0 ∧ h.lastIdle < now.toNat
  · rw [if_pos (hcond.mpr hcounted), if_pos hcounted]
    have hduration := hc.duration_toNat (hcond.mpr hcounted).2
    refine { owner := hc.owner, lastIdle := hc.lastIdle, samples := ?_, buckets := ?_ }
    · show (m.hpIdleSamples + 1).toNat = _
      rw [UInt32.toNat_add, hc.samples]
      simp
    · intro i threshold hi
      have hbefore := hc.buckets i threshold hi
      simp only [hi]
      rw [survivors_cons, ← hduration]
      by_cases hlong : threshold < now - m.hpLastIdleNs
      · rw [if_pos hlong, if_pos (UInt64.lt_iff_toNat_lt.mp hlong)]
        exact toNat_succ hbefore
      · rw [if_neg hlong, if_neg fun hlt => hlong (UInt64.lt_iff_toNat_lt.mpr hlt)]
        exact hbefore
  · rw [if_neg fun hm => hcounted (hcond.mp hm), if_neg hcounted]
    exact { owner := hc.owner, lastIdle := hc.lastIdle, samples := hc.samples
            buckets := hc.buckets }

/-- A begin of an idle period is counted in the history as in the segment. -/
theorem Counts.markIdle {m : EventShared} {h : IdleHistory} (hc : Counts m h) (now : UInt64) :
    Counts (liltEventHpMarkIdle m now) (h.call (.markIdle now)) := by
  unfold liltEventHpMarkIdle countActivePeriod
  split <;>
    exact { owner := hc.owner, lastIdle := rfl, samples := hc.samples, buckets := hc.buckets }

/-- After every history of calls the segment is what the history says. -/
theorem counts_sharedAfter (calls : List HpTimingCall) :
    Counts (sharedAfter calls) (historyOf calls) := by
  have hfold : ∀ (calls : List HpTimingCall) (m : EventShared) (h : IdleHistory),
      Counts m h → Counts (calls.foldl HpTimingCall.exec m) (calls.foldl IdleHistory.call h) := by
    intro calls
    induction calls with
    | nil => exact fun _ _ hc => hc
    | cons call rest ih =>
      intro m h hc
      refine ih _ _ ?_
      cases call with
      | register self now => exact hc.register self now
      | markActive now => exact hc.markActive now
      | markIdle now => exact hc.markIdle now
  exact hfold calls _ _ counts_initial

/-! ## The two searches -/

/-- `event_be_survival_probability_pct` in exact arithmetic, before it truncates. -/
def survivalProbability (timing : HpTiming) (elapsedNs additionalNs : UInt64) : ℚ :=
  percentage
    (eventBeSurvivalNumerator timing (eventBeAddSaturating elapsedNs additionalNs)).toNat
    (eventBeSurvivalDenominator timing elapsedNs).toNat

/-- Where the floating-point quotient is exact, the function returns the integer
part. -/
theorem survivalProbabilityPct_eq_floor {fp : BeFloat}
    (hexact : ∀ numerator denominator : UInt64, denominator ≠ 0 →
      fp.percentage numerator denominator = ⌊percentage numerator.toNat denominator.toNat⌋₊)
    (timing : HpTiming) (elapsedNs additionalNs : UInt64) :
    eventBeSurvivalProbabilityPct fp timing elapsedNs additionalNs =
      ⌊survivalProbability timing elapsedNs additionalNs⌋₊ := by
  unfold eventBeSurvivalProbabilityPct survivalProbability
  dsimp only
  split
  next hzero => simp [hzero, percentage]
  next hne => exact hexact _ _ hne

/-- The denominator is what it was, or the count of a bucket whose threshold is not past the age.
-/
theorem survivalDenominatorFrom_spec (timing : HpTiming) (elapsedNs : UInt64) {i left : Nat}
    (denominator : UInt64) (hi : i + left = idleSurvivalBuckets) :
    survivalDenominatorFrom timing elapsedNs i left denominator = denominator ∨
      ∃ j < idleSurvivalBuckets, idleSurvivalThresholdNs j ≤ elapsedNs ∧
        survivalDenominatorFrom timing elapsedNs i left denominator =
          timing.idleSurvivalCounts j := by
  induction left generalizing i denominator with
  | zero => exact .inl rfl
  | succ left ih =>
    unfold survivalDenominatorFrom
    dsimp only
    split
    · exact .inl rfl
    next hgo =>
      have hle : idleSurvivalThresholdNs i ≤ elapsedNs :=
        UInt64.not_lt.mp fun hlt => hgo (.inr hlt)
      right
      rcases ih (timing.idleSurvivalCounts i) (i := i + 1) (by omega) with heq | hlater
      · exact ⟨i, by omega, hle, heq⟩
      · exact hlater

/-- The denominator is the number of samples, or the bucket of a threshold that
has passed. -/
theorem survivalDenominator_spec (timing : HpTiming) (elapsedNs : UInt64) :
    eventBeSurvivalDenominator timing elapsedNs = timing.idleSamples.toUInt64 ∨
      ∃ j < idleSurvivalBuckets, idleSurvivalThresholdNs j ≤ elapsedNs ∧
        eventBeSurvivalDenominator timing elapsedNs = timing.idleSurvivalCounts j :=
  survivalDenominatorFrom_spec timing elapsedNs _ (Nat.zero_add _)

/-- The numerator is zero, or the count of a bucket whose threshold reaches the target. -/
theorem survivalNumeratorFrom_spec (timing : HpTiming) (targetNs : UInt64) {i left : Nat}
    (hi : i + left = idleSurvivalBuckets) :
    survivalNumeratorFrom timing targetNs i left = 0 ∨
      ∃ j < idleSurvivalBuckets, targetNs ≤ idleSurvivalThresholdNs j ∧
        survivalNumeratorFrom timing targetNs i left = timing.idleSurvivalCounts j := by
  induction left generalizing i with
  | zero => exact .inl rfl
  | succ left ih =>
    unfold survivalNumeratorFrom
    split
    next hle => exact .inr ⟨i, by omega, hle, rfl⟩
    next => exact ih (by omega)

/-- The numerator is zero, or the bucket of a threshold at the target or later. -/
theorem survivalNumerator_spec (timing : HpTiming) (targetNs : UInt64) :
    eventBeSurvivalNumerator timing targetNs = 0 ∨
      ∃ j < idleSurvivalBuckets, targetNs ≤ idleSurvivalThresholdNs j ∧
        eventBeSurvivalNumerator timing targetNs = timing.idleSurvivalCounts j :=
  survivalNumeratorFrom_spec timing targetNs (Nat.zero_add _)

/-! ## The estimate never overstates survival -/

/-- A clock of 64 bits counts durations of 64 bits. -/
theorem counted_lt (calls : List HpTimingCall) : ∀ d ∈ (historyOf calls).counted, d < 2 ^ 64 := by
  have hfold : ∀ (calls : List HpTimingCall) (h : IdleHistory), (∀ d ∈ h.counted, d < 2 ^ 64) →
      ∀ d ∈ (calls.foldl IdleHistory.call h).counted, d < 2 ^ 64 := by
    intro calls
    induction calls with
    | nil => exact fun _ hh => hh
    | cons call rest ih =>
      intro h hh
      refine ih _ ?_
      cases call with
      | register self now =>
        show ∀ d ∈ (if h.owner = self then h else _).counted, d < 2 ^ 64
        split
        · exact hh
        · exact fun d hd => absurd hd List.not_mem_nil
      | markActive now =>
        show ∀ d ∈ (if h.lastIdle ≠ 0 ∧ h.lastIdle < now.toNat then _ else h).counted, d < 2 ^ 64
        split
        · intro d hd
          rcases List.mem_cons.mp hd with rfl | hd
          · have := now.toNat_lt
            omega
          · exact hh d hd
        · exact hh
      | markIdle now => exact hh
  exact hfold calls _ fun d hd => absurd hd List.not_mem_nil

theorem getElem?_threshold {j : Nat} (hj : j < idleSurvivalBuckets) :
    gIdleSurvivalThresholdsNs[j]? = some (idleSurvivalThresholdNs j) := by
  have hlen : j < gIdleSurvivalThresholdsNs.length := hj
  rw [idleSurvivalThresholdNs, List.getD_eq_getElem?_getD, List.getElem?_eq_getElem hlen,
    Option.getD_some]

/-- The saturating sum is the sum, cut at the greatest value. -/
theorem addSaturating_toNat (left right : UInt64) :
    (eventBeAddSaturating left right).toNat = min (left.toNat + right.toNat) (2 ^ 64 - 1) := by
  have hleft := left.toNat_lt
  have hroom : (UInt64.ofNat (2 ^ 64 - 1) - left).toNat = 2 ^ 64 - 1 - left.toNat :=
    UInt64.toNat_sub_of_le _ _ (UInt64.le_iff_toNat_le.mpr (Nat.le_sub_one_of_lt hleft))
  unfold eventBeAddSaturating
  split
  next hover =>
    rw [UInt64.lt_iff_toNat_lt, hroom] at hover
    have hle : 2 ^ 64 - 1 ≤ left.toNat + right.toNat := by omega
    exact (Nat.min_eq_right hle).symm
  next hfits =>
    rw [UInt64.lt_iff_toNat_lt, hroom] at hfits
    rw [UInt64.toNat_add]
    omega

/-- A saturating sum is the sum, or the largest value. -/
theorem addSaturating_cases (left right : UInt64) :
    (eventBeAddSaturating left right).toNat = left.toNat + right.toNat ∨
      (eventBeAddSaturating left right).toNat = 2 ^ 64 - 1 := by
  rw [addSaturating_toNat]
  omega

section estimate

variable {calls : List HpTimingCall}
  (hlen : (historyOf calls).counted.length < 2 ^ 32)

include hlen

/-- A bucket of the snapshot is the number of durations past its threshold. -/
theorem bucket_eq_survivors {j : Nat} (hj : j < idleSurvivalBuckets) :
    ((liltEventHpTimingSnapshot (sharedAfter calls)).idleSurvivalCounts j).toNat =
      survivors (historyOf calls).counted (idleSurvivalThresholdNs j).toNat := by
  have hbucket := (counts_sharedAfter calls).buckets j _ (getElem?_threshold hj)
  refine hbucket.trans (Nat.mod_eq_of_lt ?_)
  have := survivors_le_length (historyOf calls).counted (idleSurvivalThresholdNs j).toNat
  omega

/-- The denominator counts at least the periods that outlast `elapsedNs`. -/
theorem survivors_le_denominator (elapsedNs : UInt64) :
    survivors (historyOf calls).counted elapsedNs.toNat ≤
      (eventBeSurvivalDenominator (liltEventHpTimingSnapshot (sharedAfter calls))
        elapsedNs).toNat := by
  rcases survivalDenominator_spec (liltEventHpTimingSnapshot (sharedAfter calls)) elapsedNs with
    heq | ⟨j, hj, hle, heq⟩
  · rw [heq, UInt32.toNat_toUInt64]
    show _ ≤ (sharedAfter calls).hpIdleSamples.toNat
    rw [(counts_sharedAfter calls).samples, Nat.mod_eq_of_lt hlen]
    exact survivors_le_length _ _
  · rw [heq, bucket_eq_survivors hlen hj]
    exact survivors_anti _ (UInt64.le_iff_toNat_le.mp hle)

/-- The numerator counts at most the periods that outlast the target, which is
exact where it does not saturate, and which none outlast where it does. -/
theorem numerator_le_survivors (elapsedNs additionalNs : UInt64) :
    (eventBeSurvivalNumerator (liltEventHpTimingSnapshot (sharedAfter calls))
        (eventBeAddSaturating elapsedNs additionalNs)).toNat ≤
      survivors (historyOf calls).counted (elapsedNs.toNat + additionalNs.toNat) := by
  have htarget : survivors (historyOf calls).counted
      (eventBeAddSaturating elapsedNs additionalNs).toNat ≤
      survivors (historyOf calls).counted (elapsedNs.toNat + additionalNs.toNat) := by
    rcases addSaturating_cases elapsedNs additionalNs with heq | hsat
    · rw [heq]
    · have hnone : survivors (historyOf calls).counted (2 ^ 64 - 1) = 0 :=
        survivors_eq_zero fun d hd => Nat.le_sub_one_of_lt (counted_lt calls d hd)
      rw [hsat, hnone]
      exact Nat.zero_le _
  rcases survivalNumerator_spec (liltEventHpTimingSnapshot (sharedAfter calls))
    (eventBeAddSaturating elapsedNs additionalNs) with heq | ⟨j, hj, hle, heq⟩
  · rw [heq]
    exact Nat.zero_le _
  · rw [heq, bucket_eq_survivors hlen hj]
    exact (survivors_anti _ (UInt64.le_iff_toNat_le.mp hle)).trans htarget

end estimate

/-- After every history with fewer than 2^32 counted idle periods, the estimate
for work of `additionalNs` when the process has been idle for `elapsedNs` is at
most 100 percent and at most the share of the counted durations longer than
`elapsedNs` that are longer than both together. -/
theorem survivalProbability_sound (calls : List HpTimingCall)
    (hlen : (historyOf calls).counted.length < 2 ^ 32) (elapsedNs additionalNs : UInt64) :
    let p := survivalProbability (liltEventHpTimingSnapshot (sharedAfter calls))
      elapsedNs additionalNs
    let survivors := survivors (historyOf calls).counted
    p ≤ 100 ∧
      p * survivors elapsedNs.toNat ≤ 100 * survivors (elapsedNs.toNat + additionalNs.toNat) :=
  ⟨percentage_le _ _, percentage_mul_le (survivors_le_denominator hlen elapsedNs)
    (numerator_le_survivors hlen elapsedNs additionalNs)⟩

/-- An HP process that was idle for 30 and for 60 microseconds. -/
def twoIdlePeriods : List HpTimingCall :=
  [.register 7 1000, .markActive 31000, .markIdle 40000, .markActive 100000, .markIdle 200000]

theorem survivalProbability_sound_two :
    let p := survivalProbability (liltEventHpTimingSnapshot (sharedAfter twoIdlePeriods))
      20000 25000
    let survivors := survivors (historyOf twoIdlePeriods).counted
    p ≤ 100 ∧ p * survivors (UInt64.toNat 20000) ≤
      100 * survivors (UInt64.toNat 20000 + UInt64.toNat 25000) :=
  survivalProbability_sound twoIdlePeriods (by decide) 20000 25000

/-- Both outlast 20 microseconds and one of them 45, as the bucket of 50 says. -/
example : survivalProbability (liltEventHpTimingSnapshot (sharedAfter twoIdlePeriods))
    20000 25000 = 50 := by
  have hnum : (eventBeSurvivalNumerator (liltEventHpTimingSnapshot (sharedAfter twoIdlePeriods))
      (eventBeAddSaturating 20000 25000)).toNat = 1 := by decide
  have hden : (eventBeSurvivalDenominator
      (liltEventHpTimingSnapshot (sharedAfter twoIdlePeriods)) 20000).toNat = 2 := by decide
  rw [survivalProbability, hnum, hden]
  norm_num [percentage]

end Lilt.Be
