import Lilt.Lib.Meter
import Lilt.Tgs.Service

/-!
# The rates that are measured (`be_intercept.c`, `hp_intercept.c`)

Both processes add the blocks of every launch to a counter, and a thread reads the counter
off and sets it back: every 50 ms in the BE process, where it is set back first and stored
then, and every five seconds in the HP process, where it is stored first.

- `TgsDevice.meter`, `HpDevice.meter`: the counters of the two processes as meters.
- `be_rates_counted_once`, `hp_rates_counted_once`: the rates that are stored over any
  time add up to no more than was launched, whatever the launches do between the accesses
  of the thread.
- `HpDevice.step`: the launching threads and the thread `rate_monitor`.

No launch has less than no blocks. The counters may wrap: then what is stored is less still.
-/

namespace Lilt.Tgs

open Transition

/-- What the steps of a run come to together. -/
def total {α : Type} (f : α → ℤ) (tr : List α) : ℤ := (tr.map f).sum

theorem total_concat {α : Type} (f : α → ℤ) (tr : List α) (x : α) :
    total f (tr ++ [x]) = total f tr + f x := by
  unfold total
  rw [List.map_append, List.sum_append, List.map_singleton, List.sum_singleton]

/-! ## The BE process -/

section be

variable {ι : Type}

/-- The blocks that a step adds to the counter. -/
def launchedBlocks (x : TgsDevice ι × TgsAction ι) : ℤ :=
  match x.2 with
  | .launch i .add => (x.1.threads i).kernelSize
  | _ => 0

/-- What a step stores in `g_current_rate`. -/
def storedRate (x : TgsDevice ι × TgsAction ι) : ℤ :=
  match x.2, x.1.watcher with
  | .watch, .cleared currentRate => currentRate
  | _, _ => 0

/-- Where the watcher is. -/
def RateWatcher.phase : RateWatcher → Meter.Phase ℤ
  | .starting | .sleeping => .resting
  | .loaded currentRate => .read currentRate
  | .cleared currentRate => .cleared currentRate

/-- The counter of the device after the steps `tr`. -/
def TgsDevice.meter (s : TgsDevice ι) (tr : List (TgsDevice ι × TgsAction ι)) :
    Meter.State ℤ where
  counter := s.rateCounter
  phase := s.watcher.phase
  added := total launchedBlocks tr
  stored := total storedRate tr

/-- No launch has less than no blocks. -/
def Sized (_ : TgsDevice ι) (a : TgsAction ι) : Prop :=
  ∀ i kernelSize, a = .launch i (.call kernelSize) → 0 ≤ kernelSize

/-- The counter is a `long long`. -/
theorem le_longLong (n : ℤ) : -2 ^ 63 ≤ longLong n := Int.le_bmod (by decide)

theorem zero_range : (-2 ^ 63 : ℤ) ≤ 0 := by decide

/-- What wraps is less than it should be. -/
theorem longLong_le {n : ℤ} (h : -2 ^ 63 ≤ n) : longLong n ≤ n := by
  unfold longLong
  rw [Int.bmod_def]
  split <;> omega

variable {cfg : TgsSettings} {undefined : ℤ} {transfer : Bool} {s t : TgsDevice ι}
  {tr : List (TgsDevice ι × TgsAction ι)}

variable [DecidableEq ι]

/-- The threads have no launch of less than no blocks in hand. -/
theorem kernelSize_nonneg_step (h : ∀ i, 0 ≤ (s.threads i).kernelSize) {a : TgsAction ι}
    (ha : Sized s a) (hstep : s.step cfg undefined transfer a = some t) (i : ι) :
    0 ≤ (t.threads i).kernelSize := by
  cases TgsDevice.step_cases hstep with
  | @launch j op thread rateCounter hexec =>
    have hsize : 0 ≤ thread.kernelSize := by
      rcases Launching.exec_kernelSize hexec with hsame | hcall | ⟨-, hidle⟩
      · rw [hsame]
        exact h j
      · exact ha j _ (congrArg _ hcall)
      · rw [hidle]
        exact le_refl 0
    exact (Function.forall_update_iff s.threads fun _ th => 0 ≤ th.kernelSize).mpr
      ⟨hsize, fun k _ => h k⟩ i
  | watch =>
    have hsame : s.watch.threads = s.threads := by
      unfold TgsDevice.watch
      split <;> rfl
    rw [hsame]
    exact h i
  | respond => exact h i
  | access => exact h i

theorem Launching.exec_counter {rateCounter rateCounter' : ℤ} {c : Control}
    {thread thread' : Launching} {op : LaunchOp}
    (h : thread.exec rateCounter c op = some (thread', rateCounter')) :
    op = .add ∧ rateCounter' = longLong (rateCounter + thread.kernelSize) ∨
      op ≠ .add ∧ rateCounter' = rateCounter := by
  unfold Launching.exec at h
  split at h <;> cases h
  case h_8 => exact .inl ⟨rfl, rfl⟩
  all_goals exact .inr ⟨LaunchOp.noConfusion, rfl⟩

omit [DecidableEq ι] in
theorem TgsDevice.meter_concat (t : TgsDevice ι) (x : TgsDevice ι × TgsAction ι) :
    t.meter (tr ++ [x]) =
      { t.meter tr with added := total launchedBlocks tr + launchedBlocks x
                        stored := total storedRate tr + storedRate x } := by
  unfold TgsDevice.meter
  rw [total_concat, total_concat]

omit [DecidableEq ι] in
/-- The watcher's next statement is a step of a meter. -/
theorem TgsDevice.meter_watch (s : TgsDevice ι) :
    Meter.Step (s.meter tr) (s.watch.meter (tr ++ [(s, .watch)])) := by
  have hlaunched : launchedBlocks (s, TgsAction.watch) = 0 := rfl
  rw [TgsDevice.meter_concat, hlaunched, add_zero]
  unfold TgsDevice.meter TgsDevice.watch storedRate
  cases hwatcher : s.watcher with
  | starting =>
    dsimp only
    rw [add_zero]
    exact .reset _ rfl
  | sleeping =>
    dsimp only
    rw [add_zero]
    exact .read _ rfl
  | loaded currentRate =>
    dsimp only
    rw [add_zero]
    exact .clear _ rfl
  | cleared currentRate => exact .storeCleared _ rfl

/-- What the threads do to the counter are steps of a meter. -/
theorem TgsDevice.meter_step (hthreads : ∀ i, 0 ≤ (s.threads i).kernelSize)
    (hcounter : -2 ^ 63 ≤ s.rateCounter) {a : TgsAction ι}
    (hstep : s.step cfg undefined transfer a = some t) :
    Meter.Step (s.meter tr) (t.meter (tr ++ [(s, a)])) := by
  cases TgsDevice.step_cases hstep with
  | @launch i op thread rateCounter hexec =>
    have hstored : storedRate (s, TgsAction.launch i op) = 0 := rfl
    rw [TgsDevice.meter_concat, hstored, add_zero]
    rcases Launching.exec_counter hexec with ⟨rfl, rfl⟩ | ⟨hop, rfl⟩
    · have hsize := hthreads i
      have hlaunched : launchedBlocks (s, TgsAction.launch i .add) =
          (s.threads i).kernelSize := rfl
      rw [hlaunched]
      have hsum : -2 ^ 63 ≤ s.rateCounter + (s.threads i).kernelSize := by omega
      exact .add _ hsize (longLong_le hsum)
    · have hlaunched : launchedBlocks (s, TgsAction.launch i op) = 0 := by
        cases op with
        | add => exact absurd rfl hop
        | _ => rfl
      rw [hlaunched, add_zero]
      exact .stay _
  | watch => exact s.meter_watch
  | @respond value htodo =>
    have hnone : launchedBlocks (s, TgsAction.respond value) = 0 := rfl
    have hstored : storedRate (s, TgsAction.respond value) = 0 := rfl
    rw [TgsDevice.meter_concat, hnone, hstored, add_zero, add_zero]
    exact .stay _
  | access =>
    have hnone : launchedBlocks (s, TgsAction.access) = 0 := rfl
    have hstored : storedRate (s, TgsAction.access) = 0 := rfl
    rw [TgsDevice.meter_concat, hnone, hstored, add_zero, add_zero]
    exact .stay _

/-- The runs of the BE process from its first launch on. -/
abbrev beCounting (ι : Type) [DecidableEq ι] (cfg : TgsSettings) (undefined : ℤ)
    (transfer : Bool) : System (TgsDevice ι) (TgsAction ι) :=
  ((tgsSystem ι cfg undefined transfer).resume fun s => s = TgsDevice.unused ι).restrict Sized

theorem be_threads_nonneg (h : (beCounting ι cfg undefined transfer).Reachable s) (i : ι) :
    0 ≤ (s.threads i).kernelSize := by
  induction h generalizing i with
  | init h =>
    obtain rfl := h
    exact le_refl 0
  | step _ hstep ih => exact kernelSize_nonneg_step ih hstep.1 hstep.2 i

/-- The counter may be below zero, where it has wrapped. -/
theorem be_counter_range (h : (beCounting ι cfg undefined transfer).Reachable s) :
    -2 ^ 63 ≤ s.rateCounter := by
  induction h with
  | init h =>
    obtain rfl := h
    exact zero_range
  | @step s t a _ hstep ih =>
    cases TgsDevice.step_cases hstep.2 with
    | launch hexec =>
      rcases Launching.exec_counter hexec with ⟨-, rfl⟩ | ⟨-, rfl⟩
      · exact le_longLong _
      · exact ih
    | watch =>
      unfold TgsDevice.watch
      split
      · exact zero_range
      · exact ih
      · exact zero_range
      · exact ih
    | respond => exact ih
    | access => exact ih

theorem be_meter_fair (h : (beCounting ι cfg undefined transfer).Run tr s) :
    Meter.Fair (s.meter tr) := by
  induction h with
  | init h =>
    obtain rfl := h
    exact ⟨le_refl 0, le_refl 0⟩
  | step hrun hstep ih =>
    have hthreads := be_threads_nonneg hrun.reachable
    exact (TgsDevice.meter_step hthreads (be_counter_range hrun.reachable) hstep.2).fair ih

/-- The rates that the watcher of the BE process stores, and the limit manager takes for
the rate of the BE process, add up to no more than all that was launched. -/
theorem be_rates_counted_once (h : (beCounting ι cfg undefined transfer).Run tr s) :
    total storedRate tr ≤ total launchedBlocks tr := (be_meter_fair h).stored_le

theorem be_next (h : (beCounting ι cfg undefined transfer).Run tr s) (a : TgsAction ι)
    (ha : Sized s a) (hstep : s.step cfg undefined transfer a = some t) :
    (beCounting ι cfg undefined transfer).Run (tr ++ [(s, a)]) t := .step h ⟨ha, hstep⟩

/-- One launch of five blocks. -/
theorem be_rates_counted_once_five :
    ∃ tr : List (TgsDevice Unit × TgsAction Unit), total storedRate tr = 5 ∧
      total storedRate tr ≤ total launchedBlocks tr := by
  have hstart : (beCounting Unit (tgsSettings fun _ => none) 0 true).Run [] (.unused Unit) :=
    .init rfl
  have hreset := be_next hstart .watch (fun _ _ h => by cases h) rfl
  have hcall := be_next hreset (.launch () (.call 5))
    (fun i n h => LaunchOp.call.inj (TgsAction.launch.inj h).2 ▸ Int.natCast_nonneg 5) rfl
  have hflag := be_next hcall (.launch () .loadFlag)
    (fun i n h => LaunchOp.noConfusion (TgsAction.launch.inj h).2) rfl
  have hadd := be_next hflag (.launch () .add)
    (fun i n h => LaunchOp.noConfusion (TgsAction.launch.inj h).2) rfl
  have hload := be_next hadd .watch (fun _ _ h => by cases h) rfl
  have hclear := be_next hload .watch (fun _ _ h => by cases h) rfl
  have hstore := be_next hclear .watch (fun _ _ h => by cases h) rfl
  exact ⟨_, rfl, be_rates_counted_once hstore⟩

end be

/-! ## The HP process -/

/-- The thread of `rate_monitor`. -/
inductive RateMonitor where
  | starting
  /-- in `nanosleep` -/
  | sleeping
  /-- `g_rate_counter` has been read -/
  | loaded (rateCounter : ℤ)
  /-- `g_current_rate` has been written -/
  | stored
  deriving DecidableEq

/-- The cells of one device and the threads that use them. -/
structure HpDevice (ι : Type) where
  rateCounter : ℤ
  currentRate : ℤ
  /-- the launch that a thread has in hand -/
  threads : ι → Option ℤ
  monitor : RateMonitor

/-- Whose step it is. -/
inductive HpAction (ι : Type) where
  /-- `rate_estimator` is called. -/
  | call (i : ι) (kernelSize : ℤ)
  /-- `__sync_add_and_fetch_8` -/
  | add (i : ι)
  | monitor

section hp

variable {ι : Type}

/-- The next access of the monitor. -/
def HpDevice.measure (s : HpDevice ι) : HpDevice ι :=
  match s.monitor with
  | .starting => { s with rateCounter := 0, monitor := .sleeping }
  | .sleeping => { s with monitor := .loaded s.rateCounter }
  | .loaded rateCounter => { s with currentRate := rateCounter, monitor := .stored }
  | .stored => { s with rateCounter := 0, monitor := .sleeping }

/-- The device after a step, if the step is possible. -/
def HpDevice.step [DecidableEq ι] (s : HpDevice ι) : HpAction ι → Option (HpDevice ι)
  | .call i kernelSize =>
    match s.threads i with
    | none => some { s with threads := Function.update s.threads i (some kernelSize) }
    | some _ => none
  | .add i =>
    match s.threads i with
    | none => none
    | some kernelSize =>
      some { s with
        rateCounter := longLong (s.rateCounter + kernelSize)
        threads := Function.update s.threads i none }
  | .monitor => some s.measure

/-- The device before its first launch. -/
def HpDevice.unused (ι : Type) : HpDevice ι where
  rateCounter := 0
  currentRate := 0
  threads _ := none
  monitor := .starting

/-- All interleavings of the launching threads with the monitor. -/
def hpCounting (ι : Type) [DecidableEq ι] : System (HpDevice ι) (HpAction ι) where
  Init s := s = .unused ι
  Step s a t :=
    (∀ i kernelSize, a = .call i kernelSize → 0 ≤ kernelSize) ∧ s.step a = some t

/-- The blocks that a step adds to the counter. -/
def estimatedBlocks (x : HpDevice ι × HpAction ι) : ℤ :=
  match x.2 with
  | .add i => (x.1.threads i).getD 0
  | .call _ _ | .monitor => 0

/-- What a step stores in `g_current_rate`. -/
def measuredRate (x : HpDevice ι × HpAction ι) : ℤ :=
  match x.2, x.1.monitor with
  | .monitor, .loaded rateCounter => rateCounter
  | _, _ => 0

/-- The counter of the device after the steps `tr`. -/
def HpDevice.meter (s : HpDevice ι) (tr : List (HpDevice ι × HpAction ι)) : Meter.State ℤ where
  counter := s.rateCounter
  phase :=
    match s.monitor with
    | .starting | .sleeping => .resting
    | .loaded rateCounter => .read rateCounter
    | .stored => .stored s.currentRate
  added := total estimatedBlocks tr
  stored := total measuredRate tr

variable {s t : HpDevice ι} {tr : List (HpDevice ι × HpAction ι)}

variable [DecidableEq ι]

theorem hp_threads_nonneg (h : (hpCounting ι).Reachable s) (i : ι) :
    0 ≤ (s.threads i).getD 0 := by
  induction h generalizing i with
  | init h =>
    obtain rfl := h
    exact le_refl 0
  | @step s t a _ hstep ih =>
    obtain ⟨hsize, hstep⟩ := hstep
    cases a with
    | call j kernelSize =>
      simp only [HpDevice.step] at hstep
      split at hstep
      next =>
        cases hstep
        have hcalled : 0 ≤ (some kernelSize).getD 0 := hsize j kernelSize rfl
        exact (Function.forall_update_iff s.threads fun _ th => 0 ≤ th.getD 0).mpr
          ⟨hcalled, fun k _ => ih k⟩ i
      next => cases hstep
    | add j =>
      simp only [HpDevice.step] at hstep
      split at hstep
      next => cases hstep
      next =>
        cases hstep
        exact (Function.forall_update_iff s.threads fun _ th => 0 ≤ th.getD 0).mpr
          ⟨le_refl 0, fun k _ => ih k⟩ i
    | monitor =>
      cases hstep
      have hsame : s.measure.threads = s.threads := by
        unfold HpDevice.measure
        split <;> rfl
      rw [hsame]
      exact ih i

omit [DecidableEq ι] in
theorem HpDevice.meter_concat (t : HpDevice ι) (x : HpDevice ι × HpAction ι) :
    t.meter (tr ++ [x]) =
      { t.meter tr with added := total estimatedBlocks tr + estimatedBlocks x
                        stored := total measuredRate tr + measuredRate x } := by
  unfold HpDevice.meter
  rw [total_concat, total_concat]

omit [DecidableEq ι] in
/-- The monitor's next statement is a step of a meter. -/
theorem HpDevice.meter_monitor (s : HpDevice ι) :
    Meter.Step (s.meter tr) (s.measure.meter (tr ++ [(s, .monitor)])) := by
  have hnone : estimatedBlocks (s, HpAction.monitor) = 0 := rfl
  rw [HpDevice.meter_concat, hnone, add_zero]
  unfold HpDevice.meter HpDevice.measure measuredRate
  cases hmonitor : s.monitor with
  | starting =>
    dsimp only
    rw [add_zero]
    exact .reset _ rfl
  | sleeping =>
    dsimp only
    rw [add_zero]
    exact .read _ rfl
  | loaded rateCounter => exact .store _ rfl
  | stored =>
    dsimp only
    rw [add_zero]
    exact .clearStored _ rfl

/-- What the threads do to the counter are steps of a meter. -/
theorem HpDevice.meter_step (hthreads : ∀ i, 0 ≤ (s.threads i).getD 0)
    (hcounter : -2 ^ 63 ≤ s.rateCounter) {a : HpAction ι} (hstep : s.step a = some t) :
    Meter.Step (s.meter tr) (t.meter (tr ++ [(s, a)])) := by
  cases a with
  | call i kernelSize =>
    have hnone : estimatedBlocks (s, HpAction.call i kernelSize) = 0 := rfl
    have hstored : measuredRate (s, HpAction.call i kernelSize) = 0 := rfl
    rw [HpDevice.meter_concat, hnone, hstored, add_zero, add_zero]
    simp only [HpDevice.step] at hstep
    split at hstep
    · cases hstep
      exact .stay _
    · cases hstep
  | add i =>
    have hstored : measuredRate (s, HpAction.add i) = 0 := rfl
    rw [HpDevice.meter_concat, hstored, add_zero]
    simp only [HpDevice.step] at hstep
    split at hstep
    next => cases hstep
    next kernelSize hthread =>
      cases hstep
      have hsize := hthreads i
      have hestimated : estimatedBlocks (s, HpAction.add i) = kernelSize := by
        show (s.threads i).getD 0 = kernelSize
        rw [hthread]
        rfl
      rw [hthread] at hsize
      replace hsize : 0 ≤ kernelSize := hsize
      rw [hestimated]
      have hsum : -2 ^ 63 ≤ s.rateCounter + kernelSize := by omega
      exact .add _ hsize (longLong_le hsum)
  | monitor =>
    cases hstep
    exact s.meter_monitor

/-- This counter may be below zero as well. -/
theorem hp_counter_range (h : (hpCounting ι).Reachable s) : -2 ^ 63 ≤ s.rateCounter := by
  induction h with
  | init h =>
    obtain rfl := h
    exact zero_range
  | @step s t a _ hstep ih =>
    obtain ⟨-, hstep⟩ := hstep
    cases a with
    | call j kernelSize =>
      simp only [HpDevice.step] at hstep
      split at hstep
      next =>
        cases hstep
        exact ih
      next => cases hstep
    | add j =>
      simp only [HpDevice.step] at hstep
      split at hstep
      next => cases hstep
      next =>
        cases hstep
        exact le_longLong _
    | monitor =>
      cases hstep
      unfold HpDevice.measure
      split
      · exact zero_range
      · exact ih
      · exact ih
      · exact zero_range

theorem hp_meter_fair (h : (hpCounting ι).Run tr s) : Meter.Fair (s.meter tr) := by
  induction h with
  | init h =>
    obtain rfl := h
    exact ⟨le_refl 0, le_refl 0⟩
  | step hrun hstep ih =>
    have hthreads := hp_threads_nonneg hrun.reachable
    exact (HpDevice.meter_step hthreads (hp_counter_range hrun.reachable) hstep.2).fair ih

/-- The rates that the monitor of the HP process stores, which the rate watcher reports,
add up to no more than all that was launched. -/
theorem hp_rates_counted_once (h : (hpCounting ι).Run tr s) :
    total measuredRate tr ≤ total estimatedBlocks tr := (hp_meter_fair h).stored_le

theorem hp_next (h : (hpCounting ι).Run tr s) (a : HpAction ι)
    (ha : ∀ i kernelSize, a = .call i kernelSize → 0 ≤ kernelSize)
    (hstep : s.step a = some t) : (hpCounting ι).Run (tr ++ [(s, a)]) t := .step h ⟨ha, hstep⟩

/-- One launch of five blocks. -/
theorem hp_rates_counted_once_five :
    ∃ tr : List (HpDevice Unit × HpAction Unit), total measuredRate tr = 5 ∧
      total measuredRate tr ≤ total estimatedBlocks tr := by
  have hstart : (hpCounting Unit).Run [] (.unused Unit) := .init rfl
  have hreset := hp_next hstart .monitor (fun _ _ h => by cases h) rfl
  have hcall := hp_next hreset (.call () 5)
    (fun i n h => (HpAction.call.inj h).2 ▸ Int.natCast_nonneg 5) rfl
  have hadd := hp_next hcall (.add ()) (fun _ _ h => by cases h) rfl
  have hload := hp_next hadd .monitor (fun _ _ h => by cases h) rfl
  have hstore := hp_next hload .monitor (fun _ _ h => by cases h) rfl
  exact ⟨_, rfl, hp_rates_counted_once hstore⟩

end hp

end Lilt.Tgs
