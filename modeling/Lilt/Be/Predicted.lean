import Lilt.Be.InFlight
import Mathlib.Algebra.Order.Group.Nat

/-!
# The predicted work in flight is bounded

Under the duration-aware policies a launch is admitted only when the window is
empty, or when its prediction is known and fits with those in flight into a budget
that never exceeds the configured one. So the 64-bit sum of the predictions does
not wrap, and only a launch that is alone in the window can exceed the limit.

- `BeConfig.limitNs`: the limit of the policy.
- `PredictedInv`, `AdmittedFits`: the sum over the window, and what admission
  leaves for the launch in progress.
- `be_predicted_work_bounded`: the bound, over the active slots.
-/

namespace Lilt.Be

open Lilt.Driver Gpu Transition

/-- The policies that predict durations. -/
def BePolicy.DurationAware (p : BePolicy) : Prop := p = .time ∨ p = .timeSum ∨ p = .survival

instance (p : BePolicy) : Decidable p.DurationAware := inferInstanceAs (Decidable (_ ∨ _))

/-- The most predicted work that two or more launches may have in flight. -/
def BeConfig.limitNs (cfg : BeConfig) : UInt64 :=
  if cfg.policy = .survival then cfg.survivalBudgetNs else cfg.timeBudgetNs

/-- The predicted work of a queue of launches. -/
def predictedSum (es : List BeEntry) : Nat := (es.map fun e => e.predictedNs.toNat).sum

@[simp] theorem predictedSum_nil : predictedSum [] = 0 := rfl

@[simp] theorem predictedSum_cons (e : BeEntry) (es : List BeEntry) :
    predictedSum (e :: es) = e.predictedNs.toNat + predictedSum es := rfl

@[simp] theorem predictedSum_snoc (es : List BeEntry) (e : BeEntry) :
    predictedSum (es ++ [e]) = predictedSum es + e.predictedNs.toNat := by
  simp [predictedSum]

/-- The launch in progress has the window for itself, or is known to fit into
it. -/
def AdmittedFits (cfg : BeConfig) (s : BeProcess) : Prop :=
  s.inFlight = [] ∨ s.window.currentPredictionUnknown = false ∧
    s.window.outstandingPredictedNs.toNat + s.window.currentPredictedNs.toNat ≤ cfg.limitNs.toNat

structure PredictedInv (cfg : BeConfig) (s : BeProcess) : Prop where
  sum_eq : s.window.outstandingPredictedNs.toNat = predictedSum s.inFlight
  bound : 2 ≤ s.inFlight.length → predictedSum s.inFlight ≤ cfg.limitNs.toNat
  unknown : ∀ j e, s.inFlight[j]? = some e → e.unknown = true → j = 0
  asserts : .retirePredicted ∉ s.window.failedAsserts

/-- What is known of the budgets at the loops, and of the launch behind them. -/
def BudgetFacts (cfg : BeConfig) (s : BeProcess) : Prop :=
  match s.pc with
  | .survivalIdle _ | .survivalAdmit _ => cfg.policy = .survival
  | .timeLoop _ budget => budget ≤ cfg.limitNs
  | .blockLoop _ _ => False
  | .launching _ | .launched _ _ => s.owner = true → AdmittedFits cfg s
  | _ => True

section

variable {cfg : BeConfig} {fp : BeFloat} {s t : BeProcess}

/-! ## The invariant over the effects -/

namespace PredictedInv

/-- At the start nothing is predicted. -/
theorem initial (h : s.Starts) : PredictedInv cfg s := by
  have hflight := h.inFlight_nil
  refine { sum_eq := ?_, bound := ?_, unknown := ?_, asserts := ?_ }
  · rw [h.window, hflight]
    rfl
  · rw [hflight]
    intro hlen
    exact absurd hlen (by decide)
  · rw [hflight]
    intro j e hj
    cases hj
  · rw [h.window]
    exact nofun

/-- The oldest launch leaves, and its prediction with it. -/
theorem retired (hP : PredictedInv cfg s) {e : BeEntry} {rest : List BeEntry}
    (hhead : s.inFlight = e :: rest) (hflight : t.inFlight = rest)
    (hsum : t.window.outstandingPredictedNs = s.window.outstandingPredictedNs - e.predictedNs)
    (hasserts : ∀ a ∈ t.window.failedAsserts, a ∈ s.window.failedAsserts ∨
      a = .retireBlocks ∨
      a = .retirePredicted ∧ ¬ e.predictedNs ≤ s.window.outstandingPredictedNs) :
    PredictedInv cfg t := by
  have htotal := hP.sum_eq
  rw [hhead, predictedSum_cons] at htotal
  have hle : e.predictedNs ≤ s.window.outstandingPredictedNs := by
    rw [UInt64.le_iff_toNat_le]
    omega
  refine { sum_eq := ?_, bound := fun hlen => ?_, unknown := fun j e' hj hunknown => ?_
           asserts := fun ha => ?_ }
  · rw [hsum, hflight, UInt64.toNat_sub_of_le _ _ hle]
    omega
  · rw [hflight] at hlen ⊢
    have hbound := hP.bound
    rw [hhead, List.length_cons, predictedSum_cons] at hbound
    have := hbound (by omega)
    omega
  · -- behind the oldest launch all predictions are known
    rw [hflight] at hj
    have hj' : s.inFlight[j + 1]? = some e' := by
      rw [hhead]
      exact hj
    exact absurd (hP.unknown _ _ hj' hunknown) (Nat.succ_ne_zero j)
  · rcases hasserts _ ha with ha | ha | ⟨-, ha⟩
    · exact hP.asserts ha
    · cases ha
    · exact ha hle

/-- A launch that fits enters. -/
theorem entered (hP : PredictedInv cfg s) (hfits : AdmittedFits cfg s) {e : BeEntry}
    (hflight : t.inFlight = s.inFlight ++ [e])
    (hpredicted : e.predictedNs = s.window.currentPredictedNs)
    (hunknown : e.unknown = s.window.currentPredictionUnknown)
    (hsum : t.window.outstandingPredictedNs = s.window.outstandingPredictedNs + e.predictedNs)
    (hasserts : t.window.failedAsserts = s.window.failedAsserts) : PredictedInv cfg t := by
  have htotal := hP.sum_eq
  have hmax : cfg.limitNs.toNat < 2 ^ 64 := cfg.limitNs.toNat_lt
  have hnew : e.predictedNs.toNat < 2 ^ 64 := e.predictedNs.toNat_lt
  refine { sum_eq := ?_, bound := fun hlen => ?_, unknown := fun j e' hj hu => ?_
           asserts := ?_ }
  · -- the sum stays below the limit or is the new prediction alone, so it does not wrap
    rw [hsum, hflight, predictedSum_snoc, UInt64.toNat_add]
    rcases hfits with hempty | ⟨-, hle⟩
    · rw [hempty, predictedSum_nil] at htotal
      rw [hempty, predictedSum_nil, htotal, Nat.zero_add, Nat.mod_eq_of_lt hnew]
    · rw [← hpredicted] at hle
      rw [Nat.mod_eq_of_lt (Nat.lt_of_le_of_lt hle hmax), htotal]
  · rw [hflight] at hlen ⊢
    rw [List.length_append, List.length_singleton] at hlen
    rcases hfits with hempty | ⟨-, hle⟩
    · rw [hempty] at hlen
      exact absurd hlen (by decide)
    · rw [predictedSum_snoc, hpredicted, ← htotal]
      exact hle
  · rw [hflight] at hj
    by_cases hlt : j < s.inFlight.length
    · rw [List.getElem?_append_left hlt] at hj
      exact hP.unknown j e' hj hu
    · have hlen := (List.getElem?_eq_some_iff.mp hj).1
      rw [List.length_append, List.length_singleton] at hlen
      obtain rfl : j = s.inFlight.length := by omega
      rw [List.getElem?_append_right (Nat.le_refl _), Nat.sub_self] at hj
      obtain rfl : e = e' := by simpa using hj
      -- an unknown launch was admitted to an empty window
      rcases hfits with hempty | ⟨hknown, -⟩
      · rw [hempty]
        rfl
      · rw [hunknown, hknown] at hu
        cases hu
  · rw [hasserts]
    exact hP.asserts

/-- The sum depends on the launches in flight only. -/
theorem same (hP : PredictedInv cfg s) (h : SameQueue s t) : PredictedInv cfg t := by
  refine { sum_eq := ?_, bound := ?_, unknown := ?_, asserts := ?_ }
  · rw [h.predicted, h.inFlight]
    exact hP.sum_eq
  · rw [h.inFlight]
    exact hP.bound
  · rw [h.inFlight]
    exact hP.unknown
  · rw [h.asserts]
    exact hP.asserts

/-- Each effect keeps the invariant, if admission left what it should. -/
theorem effect (hP : PredictedInv cfg s) (hI : WindowInv cfg s) (hB : BudgetFacts cfg s)
    (h : WindowEffect cfg s t) : PredictedInv cfg t := by
  cases h with
  | kept hq => exact hP.same hq
  | wrote slot hq => exact hP.same hq
  | retired e rest hhead hwindow hasserts _ hentered hretired =>
    obtain ⟨-, -, -, -, hsum⟩ := hwindow
    have hflight := (WindowInv.inFlight_retired hhead hentered hretired).1
    exact hP.retired hhead hflight hsum hasserts
  | entered e slot d hlaunched _ _ _ hwindow hcurrent _ _ _ hentered hretired =>
    obtain ⟨-, -, -, -, hsum, hasserts⟩ := hwindow
    obtain ⟨howner, c, work, hpc⟩ := hlaunched
    rw [BudgetFacts, hpc] at hB
    have hflight := hI.inFlight_entered hentered hretired
    exact hP.entered (hB howner) hflight hcurrent.1 hcurrent.2 hsum hasserts

end PredictedInv

/-! ## What admission leaves for the launch -/

/-- The fit of the launch depends on the launches in flight and its own prediction. -/
theorem AdmittedFits.same (h : AdmittedFits cfg s) (hq : SameQueue s t)
    (hpredicted : t.window.currentPredictedNs = s.window.currentPredictedNs)
    (hunknown : t.window.currentPredictionUnknown = s.window.currentPredictionUnknown) :
    AdmittedFits cfg t := by
  unfold AdmittedFits
  rw [hq.inFlight, hq.predicted, hpredicted, hunknown]
  exact h

/-- The loop of the time policies ends with the window empty or the prediction
known and within the budget. -/
theorem timeLoop_fits (hI : WindowInv cfg s) {budget : UInt64} (hbudget : budget ≤ cfg.limitNs)
    (h : timeLoopWaits cfg s.window budget = false) : AdmittedFits cfg s := by
  rcases Bool.and_eq_false_iff.mp h with hempty | hpass
  · exact .inl (hI.inFlight_nil (Nat.eq_zero_of_not_pos (of_decide_eq_false hempty)))
  · simp only [Bool.or_eq_false_iff] at hpass
    obtain ⟨⟨hknown, -⟩, hfits⟩ := hpass
    have hle := time_within_budget hfits
    exact .inr ⟨hknown, Nat.le_trans hle (UInt64.le_iff_toNat_le.mp hbudget)⟩

/-- So does the loop of the survival policy: a launch with an unknown prediction
has a window of one. -/
theorem survival_fits (hI : WindowInv cfg s) (hpolicy : cfg.policy = .survival)
    {timing : Option HpTiming} {now : UInt64} {w : BeWindow} {window : Nat} {budget : UInt64}
    (hw : eventBeSurvivalAdmissionLocked cfg fp s.window timing now
      s.window.currentPredictedNs = (w, some (window, budget)))
    (h : survivalWaits w (some (window, budget)) = false) : AdmittedFits cfg s := by
  have hbudget : budget ≤ cfg.limitNs := by
    rw [BeConfig.limitNs, if_pos hpolicy]
    exact (survivalAdmission_le hw).2
  obtain ⟨lastIdleNs, launches, rfl⟩ := survival_keeps hw
  rcases Bool.and_eq_false_iff.mp h with hempty | hpass
  · exact .inl (hI.inFlight_nil (Nat.eq_zero_of_not_pos (of_decide_eq_false hempty)))
  · obtain ⟨hroom, hfits⟩ := Bool.or_eq_false_iff.mp hpass
    have hroom := of_decide_eq_false hroom
    cases hunknown : s.window.currentPredictionUnknown with
    | true =>
      -- less than one launch in flight
      rw [show ({ s.window with
        survivalEpisodeLastIdleNs := lastIdleNs
        survivalEpisodeLaunches := launches } : BeWindow).currentPredictionUnknown = true
        from hunknown, if_pos rfl] at hroom
      have hout : s.window.outstandingLaunches < 1 := Nat.lt_of_not_le hroom
      exact .inl (hI.inFlight_nil (Nat.lt_one_iff.mp hout))
    | false =>
      have hle := time_within_budget hfits
      exact .inr ⟨hunknown, Nat.le_trans hle (UInt64.le_iff_toNat_le.mp hbudget)⟩

/-- The policy's loop has the policy's budget. -/
theorem choosePolicy_budget (hpolicy : cfg.policy.DurationAware) (timing : Option HpTiming)
    (now : UInt64) (c : BeCall) : BudgetFacts cfg (s.choosePolicy cfg fp c timing now) := by
  unfold BeProcess.choosePolicy BudgetFacts
  cases hp : cfg.policy with
  | survival => rfl
  | time | timeSum =>
    show eventBeEffectiveTimeBudgetLocked cfg fp timing now ≤ cfg.limitNs
    rw [BeConfig.limitNs, if_neg (by rw [hp]; decide)]
    exact effectiveTimeBudget_le cfg fp timing now
  | fixed | blocks | gap =>
    rw [hp] at hpolicy
    exact absurd hpolicy (by decide)

/-- Every step leaves what the budgets demand. -/
theorem budgetFacts_step (hpolicy : cfg.policy.DurationAware) (hI : WindowInv cfg s)
    (hpc : PcFacts cfg s) (hB : BudgetFacts cfg s) {a : BeAction} (h : BeStep cfg fp s a t) :
    BudgetFacts cfg t := by
  cases h with
  | before c h =>
    cases hdone : s.window.startupWaitDone <;> simp [BudgetFacts]
  | ownerCheck c registered h => cases registered <;> trivial
  | retire thread o h ho =>
    have hsame : (s.retireFrom cfg s.window o s.pc).pc = s.pc := rfl
    unfold BudgetFacts at hB ⊢
    rw [hsame]
    cases hp : s.pc with
    | launching c | launched c work =>
      rw [hp] at h
      cases h
    | _ =>
      rw [hp] at hB
      exact hB
  | bypassed c h hempty =>
    rw [PcFacts, h] at hpc
    intro howner
    rw [show s.owner = true from howner] at hpc
    exact absurd hpc.2.symm Bool.false_ne_true
  | idle c timing now h => exact choosePolicy_budget hpolicy timing now c
  | survivalIdle c h =>
    rw [BudgetFacts, h] at hB
    exact hB
  | survivalRetire c timing now w grant o h hw hwait ho =>
    rw [BudgetFacts, h] at hB
    exact hB
  | survivalSleep c timing now w h hw hwait =>
    rw [BudgetFacts, h] at hB
    exact hB
  | survivalAdmit c timing now w window budget o h hw hwait =>
    rw [BudgetFacts, h] at hB
    rw [PcFacts, h] at hpc
    obtain ⟨-, -, hpredicted, hunknown, hq⟩ := admittedSampling_effect hI (survival_keeps hw)
      (survival_room hw hwait) hpc.2 hpc.1 c o
    intro _
    exact (survival_fits hI hB hw hwait).same hq hpredicted hunknown
  | timeAdmit c budget o h hwait =>
    rw [BudgetFacts, h] at hB
    rw [PcFacts, h] at hpc
    obtain ⟨-, -, hpredicted, hunknown, hq⟩ := admittedSampling_effect hI (.refl _)
      (timeLoop_room hwait) hpc.2 hpc.1 c o
    intro _
    exact (timeLoop_fits hI hB hwait).same hq hpredicted hunknown
  | blockAdmit c budget o h hwait =>
    rw [BudgetFacts, h] at hB
    exact absurd hB id
  | launch c h =>
    rw [BudgetFacts, h] at hB
    exact hB
  | launchFails c h =>
    rw [BudgetFacts, h] at hB
    exact hB
  | complete stream => exact hB
  | startupAgain c h => exact hB
  | startupPoll c registered expired h hend => trivial
  | after c work o h hsync => trivial
  | boundary thread h => trivial
  | drained thread h hempty => trivial

/-- The invariant holds in every run of a duration-aware policy. -/
theorem predictedInv_reachable (hpolicy : cfg.policy.DurationAware)
    (h : (beSystem cfg fp).Reachable s) : PredictedInv cfg s ∧ BudgetFacts cfg s := by
  have hind : (beSystem cfg fp).Inductive fun s => PredictedInv cfg s ∧ BudgetFacts cfg s := by
    refine { init := fun s hs => ⟨.initial hs, ?_⟩, step := fun s a t hs hP hstep => ?_ }
    · rw [BudgetFacts, hs.pc]
      trivial
    · obtain ⟨hI, hpc⟩ := windowInv_reachable hs
      exact ⟨hP.1.effect hI hP.2 (step_effect hI hpc hstep),
        budgetFacts_step hpolicy hI hpc hP.2 hstep⟩
  exact hind.reachable h

/-! ## The bound -/

/-- The sum of `predicted_ns` over the active slots. -/
def BeWindow.activePredictedNs (w : BeWindow) : Nat :=
  ∑ i ∈ Finset.range eventBeWindowMax with (w.slots i).active = true, (w.slots i).predictedNs.toNat

/-- The sum over the slots is the sum over the launches in flight. -/
theorem activePredictedNs_eq (hI : WindowInv cfg s) :
    s.window.activePredictedNs = predictedSum s.inFlight := by
  unfold BeWindow.activePredictedNs predictedSum
  refine hI.ring.sum_used cfg.window_le (f := fun slot => slot.predictedNs.toNat) ?_
  intro i slot e hheld
  rw [hheld.predictedNs]

/-- A launch in flight that is predicted above the limit is in flight alone. -/
theorem PredictedInv.alone (hP : PredictedInv cfg s) {e : BeEntry} (he : e ∈ s.inFlight)
    (hlong : cfg.limitNs < e.predictedNs) : s.inFlight = [e] := by
  have hle : e.predictedNs.toNat ≤ predictedSum s.inFlight :=
    List.le_sum_of_mem (List.mem_map.mpr ⟨e, he, rfl⟩)
  have hlong := UInt64.lt_iff_toNat_lt.mp hlong
  have hfew : ¬ 2 ≤ s.inFlight.length := by
    intro hlen
    have := hP.bound hlen
    omega
  match hflight : s.inFlight with
  | [] =>
    rw [hflight] at he
    cases he
  | [a] =>
    rw [hflight] at he
    rw [List.mem_singleton.mp he]
  | a :: b :: rest =>
    rw [hflight] at hfew
    exact absurd (Nat.le_add_left 2 rest.length) hfew

end

/-- Under the duration-aware policies, in every run: the counter is the sum over
the active slots and the assertion about it holds; with two or more launches in
flight the sum is within the limit, so a longer launch is alone; and only the
oldest launch in flight can have an unknown prediction. -/
theorem be_predicted_work_bounded (cfg : BeConfig) (fp : BeFloat)
    (hpolicy : cfg.policy.DurationAware) {s : BeProcess}
    (h : (beSystem cfg fp).Reachable s) :
    s.window.outstandingPredictedNs.toNat = s.window.activePredictedNs ∧
      .retirePredicted ∉ s.window.failedAsserts ∧
      (2 ≤ s.window.outstandingLaunches → s.window.activePredictedNs ≤ cfg.limitNs.toNat) ∧
      (∀ e ∈ s.inFlight, cfg.limitNs < e.predictedNs → s.inFlight = [e]) ∧
      ∀ j e, s.inFlight[j]? = some e → e.unknown = true → j = 0 := by
  obtain ⟨hI, -⟩ := windowInv_reachable h
  obtain ⟨hP, -⟩ := predictedInv_reachable hpolicy h
  rw [activePredictedNs_eq hI, hI.outstanding]
  exact ⟨hP.sum_eq, hP.asserts, hP.bound, fun e => hP.alone, hP.unknown⟩

/-! ## Launches with the policy `time-sum` -/

/-- The settings of one of two processes that share a window of 64. -/
def timeSumConfig : BeConfig :=
  eventBeInitializeWindow fun name =>
    if name = "LILT_EVENT_BE_POLICY".toList then some "time-sum".toList
    else if name = "LILT_EVENT_BE_WINDOW".toList then some "64".toList
    else if name = "LILT_EVENT_BE_COUNT".toList then some "2".toList
    else none

theorem timeSumConfig_aware : timeSumConfig.policy.DurationAware := .inr (.inl (by decide))

/-- A launch that the profiles can be looked up for. -/
def sampledCall : BeCall := { oneCall with function := 4096 }

/-- The first launch of a kernel is over, in 5 microseconds. -/
def learnedProcess : BeProcess :=
  let p := startProcess.pass timeSumConfig plainFloat sampledCall
  { p with device := p.device.complete .legacy }.retireFrom timeSumConfig p.window
    ⟨true, true, some 5000⟩ .unlocked

theorem learnedProcess_reachable :
    (beSystem timeSumConfig plainFloat).Reachable learnedProcess := by
  have h₀ : (beSystem timeSumConfig plainFloat).Reachable startProcess :=
    .init startProcess_starts
  have h₁ := h₀.leadsTo (leadsTo_pass (c := sampledCall) rfl (.inl ⟨_, rfl, rfl⟩))
  have h₂ := h₁.step (.complete _ .legacy)
  exact h₂.leadsTo (leadsTo_retired rfl 1 (by decide)
    ⟨fun _ => by decide, by rintro ⟨⟩⟩ rfl)

/-- Two more launches of it are in flight. -/
def twoPredicted : BeProcess :=
  (learnedProcess.pass timeSumConfig plainFloat sampledCall).pass
    timeSumConfig plainFloat sampledCall

theorem twoPredicted_reachable : (beSystem timeSumConfig plainFloat).Reachable twoPredicted := by
  have h₁ := learnedProcess_reachable.leadsTo
    (leadsTo_pass (c := sampledCall) rfl (.inl ⟨_, rfl, rfl⟩))
  exact h₁.leadsTo (leadsTo_pass (c := sampledCall) rfl (.inl ⟨_, rfl, rfl⟩))

/-- Two launches of 6250 nanoseconds are in flight, as the first one was measured. -/
theorem be_predicted_work_bounded_two :
    twoPredicted.inFlight.map BeEntry.predictedNs = [6250, 6250] ∧
      twoPredicted.retired.length = 1 ∧
      twoPredicted.window.outstandingPredictedNs.toNat = twoPredicted.window.activePredictedNs ∧
      twoPredicted.window.activePredictedNs ≤ timeSumConfig.limitNs.toNat := by
  obtain ⟨hsum, -, hbound, -⟩ := be_predicted_work_bounded timeSumConfig plainFloat
    timeSumConfig_aware twoPredicted_reachable
  exact ⟨rfl, rfl, hsum, hbound (by decide)⟩

end Lilt.Be
