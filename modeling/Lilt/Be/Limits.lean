import Lilt.Be.Predicted
import Lilt.Config.Launcher
import Mathlib.Algebra.Order.BigOperators.Group.Finset
import Mathlib.Data.Fintype.Card

/-!
# The launcher's limits hold for all BE processes together

The launcher's window and time budget are limits for the whole group. Each BE
process reads them from its environment and takes its share, so the bounds of the
single windows add up to the bounds of the group, also when a budget beyond the
proxy's range makes it fall back to its default.

- `partitionWindow_mul_le`, `partitionBudget_mul_le`: the shares add up to no more
  than the whole, if the whole is at least one for each.
- `launched_config`: the settings of a process that the launcher starts.
- `group_limits_hold`: the limits over the group.
-/

namespace Lilt.Be

open Lilt.Config Lilt.Driver Transition

/-! ## Shares -/

/-- All shares of a window together are within it, if there is one for each. -/
theorem partitionWindow_mul_le {total lpCount : Nat} (h : lpCount ≤ total) :
    lpCount * eventBePartitionWindow total lpCount ≤ total := by
  unfold eventBePartitionWindow
  dsimp only
  split
  · omega
  · exact Nat.mul_div_le _ _

/-- So are those of a budget. -/
theorem partitionBudget_mul_le {total : UInt64} {lpCount : Nat} (hcount : lpCount < 2 ^ 64)
    (h : lpCount ≤ total.toNat) :
    lpCount * (eventBePartitionBudget total lpCount).toNat ≤ total.toNat := by
  unfold eventBePartitionBudget
  dsimp only
  split
  · rw [UInt64.toNat_one, Nat.mul_one]
    exact h
  · rw [UInt64.toNat_div, UInt64.toNat_ofNat_of_lt' hcount]
    exact Nat.mul_div_le _ _

/-! ## The settings of a launched process -/

/-- The time budget the proxy reads: the launcher's, or the default when that is
beyond the range. -/
def readTimeBudget (timeBudgetNs : Nat) : UInt64 :=
  if timeBudgetNs ≤ secondNs.toNat then UInt64.ofNat timeBudgetNs else 100 * 1000

/-- What the proxy reads has a share for each process and is at most what the launcher was given.
-/
theorem readTimeBudget_bounds {lpCount timeBudgetNs : Nat} (hcount : lpCount ≤ 64)
    (h : lpCount ≤ timeBudgetNs) :
    lpCount ≤ (readTimeBudget timeBudgetNs).toNat ∧
      (readTimeBudget timeBudgetNs).toNat ≤ timeBudgetNs := by
  have hsecond : secondNs.toNat = 1000000000 := by decide
  have hsize : UInt64.size = 2 ^ 64 := rfl
  unfold readTimeBudget
  split
  next hrange =>
    rw [UInt64.toNat_ofNat_of_lt' (by omega)]
    exact ⟨h, Nat.le_refl _⟩
  next hrange =>
    have hdefault : (100 * 1000 : UInt64).toNat = 100000 := by decide
    omega

/-- A process that the launcher starts has its shares of the launcher's limits. -/
theorem launched_config {host : Host} {args : LauncherArgs} {base env : Env}
    (h : prepareEnvironment host args base = .ok env) :
    (eventBeInitializeWindow env).policy = .timeSum ∧
      (eventBeInitializeWindow env).window =
        eventBePartitionWindow args.window.toNat args.beCount.toNat ∧
      (eventBeInitializeWindow env).timeBudgetNs =
        eventBePartitionBudget (readTimeBudget args.timeBudgetNs.toNat) args.beCount.toNat := by
  obtain ⟨⟨hcount, hcount64⟩, ⟨hwindow, hwindow64⟩, hbudget, driver, -, henv⟩ :=
    prepareEnvironment_ok h
  have hpolicy : liltGetenv env "LILT_EVENT_BE_POLICY".toList = some "time-sum".toList :=
    prepareEnvironment_setting henv rfl (by decide) (by decide)
  have hcountSet : liltGetenv env "LILT_EVENT_BE_COUNT".toList =
      some (Nat.toDigits 10 args.beCount.toNat) :=
    prepareEnvironment_number henv rfl hcount (by decide) (by decide)
  have hwindowSet : liltGetenv env "LILT_EVENT_BE_WINDOW".toList =
      some (Nat.toDigits 10 args.window.toNat) :=
    prepareEnvironment_number henv rfl (by omega) (by decide) (by decide)
  have hbudgetSet : liltGetenv env "LILT_EVENT_BE_TIME_BUDGET_NS".toList =
      some (Nat.toDigits 10 args.timeBudgetNs.toNat) :=
    prepareEnvironment_number henv rfl (by omega) (by decide) (by decide)
  -- count and window are in the proxy's range whenever the launcher accepts them
  have hsize : UInt64.size = 2 ^ 64 := rfl
  have hmax : (UInt64.ofNat 64).toNat = 64 := by decide
  have hone : (1 : UInt64).toNat = 1 := by decide
  have hcountRead : eventBeCount env = args.beCount.toNat := by
    unfold eventBeCount eventBeCountMax
    rw [eventBeParseU64_decimal hcountSet, if_pos (by omega),
      UInt64.toNat_ofNat_of_lt' (by omega)]
  have hwindowRead : parseWindow env "LILT_EVENT_BE_WINDOW".toList 1 = args.window.toNat := by
    unfold parseWindow eventBeWindowMax
    rw [eventBeParseU64_decimal hwindowSet, if_pos (by omega),
      UInt64.toNat_ofNat_of_lt' (by omega)]
  have hbudgetRead : eventBeParseU64 env "LILT_EVENT_BE_TIME_BUDGET_NS".toList (100 * 1000) 1
      secondNs = readTimeBudget args.timeBudgetNs.toNat := by
    rw [eventBeParseU64_decimal hbudgetSet, readTimeBudget]
    by_cases hrange : args.timeBudgetNs.toNat ≤ secondNs.toNat
    · rw [if_pos ⟨by omega, hrange⟩, if_pos hrange]
    · rw [if_neg fun h => hrange h.2, if_neg hrange]
  refine ⟨?_, ?_, ?_⟩
  · show policyOfName (liltGetenv env "LILT_EVENT_BE_POLICY".toList) = .timeSum
    rw [hpolicy]
    decide
  · show eventBePartitionWindow (parseWindow env _ 1) (eventBeCount env) = _
    rw [hwindowRead, hcountRead]
  · show eventBePartitionBudget (eventBeParseU64 env _ _ _ _) (eventBeCount env) = _
    rw [hbudgetRead, hcountRead]

/-! ## The group -/

/-- `n` terms of at most `bound` each. -/
theorem sum_le_mul {n bound : Nat} {f : Fin n → Nat} (t : Finset (Fin n))
    (h : ∀ i ∈ t, f i ≤ bound) : ∑ i ∈ t, f i ≤ n * bound := by
  have hcard : t.card ≤ n := by
    have := Finset.card_le_univ t
    rwa [Fintype.card_fin] at this
  calc ∑ i ∈ t, f i ≤ t.card * bound := Finset.sum_le_card_nsmul t f bound h
    _ ≤ n * bound := Nat.mul_le_mul_right bound hcard

/-- For any arguments the launcher accepts, the launches in flight over all BE
processes are within its window, and the predicted work in flight over those with
two or more launches is within its time budget. -/
theorem group_limits_hold {host : Host} {args : LauncherArgs} {base env : Env}
    (h : prepareEnvironment host args base = .ok env) (fp : BeFloat)
    {procs : Fin args.beCount.toNat → BeProcess}
    (hprocs : ∀ i, (beSystem (eventBeInitializeWindow env) fp).Reachable (procs i)) :
    ((∑ i, (procs i).window.outstandingLaunches : Nat) : Int) ≤ args.window ∧
      ((∑ i with 2 ≤ (procs i).window.outstandingLaunches,
        (procs i).window.outstandingPredictedNs.toNat : Nat) : Int) ≤ args.timeBudgetNs := by
  obtain ⟨⟨hcount, hcount64⟩, ⟨hwindow, hwindow64⟩, hbudget, -⟩ := prepareEnvironment_ok h
  obtain ⟨hpolicy, hwindowShare, hbudgetShare⟩ := launched_config h
  constructor
  · have hsum : ∑ i, (procs i).window.outstandingLaunches ≤
        args.beCount.toNat * (eventBeInitializeWindow env).window :=
      sum_le_mul _ fun i _ => (windowInv_reachable (hprocs i)).1.queue.bounded
    have hshare : args.beCount.toNat *
        eventBePartitionWindow args.window.toNat args.beCount.toNat ≤ args.window.toNat :=
      partitionWindow_mul_le (by omega)
    rw [hwindowShare] at hsum
    omega
  · have hread : args.beCount.toNat ≤ (readTimeBudget args.timeBudgetNs.toNat).toNat ∧
        (readTimeBudget args.timeBudgetNs.toNat).toNat ≤ args.timeBudgetNs.toNat :=
      readTimeBudget_bounds (by omega) (by omega)
    have hshare := partitionBudget_mul_le (by omega) hread.1
    have haware : (eventBeInitializeWindow env).policy.DurationAware := .inr (.inl hpolicy)
    have hlimit : (eventBeInitializeWindow env).limitNs =
        (eventBeInitializeWindow env).timeBudgetNs := by
      rw [BeConfig.limitNs, if_neg (by rw [hpolicy]; decide)]
    have hsum : ∑ i with 2 ≤ (procs i).window.outstandingLaunches,
        (procs i).window.outstandingPredictedNs.toNat ≤
        args.beCount.toNat * (eventBeInitializeWindow env).timeBudgetNs.toNat := by
      refine sum_le_mul _ fun i hi => ?_
      obtain ⟨hI, -⟩ := windowInv_reachable (hprocs i)
      obtain ⟨hP, -⟩ := predictedInv_reachable haware (hprocs i)
      have htwo := (Finset.mem_filter.mp hi).2
      rw [hI.outstanding] at htwo
      rw [hP.sum_eq, ← hlimit]
      exact hP.bound htwo
    rw [hbudgetShare] at hsum
    omega

/-! ## Two BE processes with a budget beyond the proxy's range -/

/-- A host on which every path names a file. -/
def plainHost : Host where
  root := "/lilt".toList
  uid := 0
  isFile _ := true
  resolve path := path
  ldconfig := none

def twoProcessArgs : LauncherArgs where
  role := .be
  session := "run".toList
  gpu := "0".toList
  beCount := 2
  window := 64
  timeBudgetNs := 2000000000
  quietNs := 20000
  unknownKernelNs := 20000
  graphMode := "whole".toList
  graphletNodes := 8
  keepLibraryPath := false

def driverEnv : Env := fun name =>
  if name = "LILT_REAL_LIBCUDA".toList then some "/usr/lib/libcuda.so.1".toList else none

/-- What the launcher hands to each of them. -/
theorem launched_timeSum : ∃ env, prepareEnvironment plainHost twoProcessArgs driverEnv = .ok env ∧
    eventBeInitializeWindow env = timeSumConfig := ⟨_, rfl, rfl⟩

/-- Both processes have two launches in flight, of 12500 nanoseconds together. -/
theorem group_limits_hold_two : ∃ env, prepareEnvironment plainHost twoProcessArgs driverEnv =
    .ok env ∧ ∃ procs : Fin twoProcessArgs.beCount.toNat → BeProcess,
      (∀ i, (beSystem (eventBeInitializeWindow env) plainFloat).Reachable (procs i) ∧
        (procs i).window.outstandingLaunches = 2 ∧
        (procs i).window.outstandingPredictedNs = 12500) ∧
      ((∑ i, (procs i).window.outstandingLaunches : Nat) : Int) ≤ 64 ∧
      ((∑ i with 2 ≤ (procs i).window.outstandingLaunches,
        (procs i).window.outstandingPredictedNs.toNat : Nat) : Int) ≤ 2000000000 := by
  obtain ⟨env, henv, hconfig⟩ := launched_timeSum
  have hprocs : ∀ _ : Fin twoProcessArgs.beCount.toNat,
      (beSystem (eventBeInitializeWindow env) plainFloat).Reachable twoPredicted := by
    intro _
    rw [hconfig]
    exact twoPredicted_reachable
  exact ⟨env, henv, fun _ => twoPredicted, fun i => ⟨hprocs i, rfl, rfl⟩,
    group_limits_hold henv plainFloat hprocs⟩

end Lilt.Be
