import Lilt.Config.Settings

/-!
# The configuration of the BE proxy (`be_intercept.c`)

`event_be_initialize_window` reads the settings once and divides the limits among
the BE processes. A `BeConfig` is what it can produce: the facts that the window
code relies on are fields.

- `eventBePartitionBudget`, `eventBePartitionWindow`: one process's share of a
  limit, never zero.
- `BeConfig`: the settings after partitioning.
- `eventBeInitializeWindow`: the settings of an environment.
-/

namespace Lilt.Be

open Lilt.Config

/-! ## Policies -/

/-- `event_be_policy_t` -/
inductive BePolicy where
  | fixed
  | blocks
  | gap
  | time
  | survival
  | timeSum
  deriving DecidableEq

/-- `EVENT_BE_WINDOW_MAX` -/
def eventBeWindowMax : Nat := 64

/-- `EVENT_BE_COUNT_MAX` -/
def eventBeCountMax : Nat := 64

/-- The largest setting in nanoseconds: one second. -/
def secondNs : UInt64 := 1000 * 1000 * 1000

/-! ## Shares -/

/-- `event_be_partition_budget` -/
def eventBePartitionBudget (total : UInt64) (lpCount : Nat) : UInt64 :=
  let partition := total / UInt64.ofNat lpCount
  if partition = 0 then 1 else partition

/-- `event_be_partition_window` -/
def eventBePartitionWindow (total lpCount : Nat) : Nat :=
  let partition := total / lpCount
  if partition = 0 then 1 else partition

/-- Every process has some of the budget. -/
theorem partitionBudget_pos (total : UInt64) (lpCount : Nat) :
    0 < eventBePartitionBudget total lpCount := by
  unfold eventBePartitionBudget
  dsimp only
  split
  · decide
  next h => exact UInt64.pos_iff_ne_zero.mpr h

/-- Every process may have a launch in flight. -/
theorem partitionWindow_pos (total lpCount : Nat) :
    0 < eventBePartitionWindow total lpCount := by
  unfold eventBePartitionWindow
  dsimp only
  split
  · exact Nat.one_pos
  next h => exact Nat.pos_of_ne_zero h

/-- No share is larger than the whole. -/
theorem partitionWindow_le {total : Nat} (lpCount : Nat) (h : 0 < total) :
    eventBePartitionWindow total lpCount ≤ total := by
  unfold eventBePartitionWindow
  dsimp only
  split
  · exact h
  · exact Nat.div_le_self _ _

/-! ## The settings -/

/-- The `g_be_*` settings. -/
structure BeConfig where
  policy : BePolicy
  window : Nat
  blockBudget : UInt64
  gapFraction : Nat
  gapGuardNs : UInt64
  timeBudgetNs : UInt64
  unknownKernelNs : UInt64
  survivalMinSamples : Nat
  survivalConfidence : Nat
  survivalPromoteConfidence : Nat
  survivalColdStartNs : UInt64
  survivalContextNs : UInt64
  survivalInternalWindow : Nat
  survivalPromotedWindow : Nat
  survivalInternalBudgetNs : UInt64
  survivalPromotedBudgetNs : UInt64
  window_pos : 0 < window
  window_le : window ≤ eventBeWindowMax
  blockBudget_pos : 0 < blockBudget
  timeBudget_pos : 0 < timeBudgetNs
  internalWindow_pos : 0 < survivalInternalWindow
  promotedWindow_pos : 0 < survivalPromotedWindow

/-- A window setting: between one and `EVENT_BE_WINDOW_MAX`. -/
def parseWindow (getenv : Env) (name : CString) (fallback : UInt64) : Nat :=
  (eventBeParseU64 getenv name fallback 1 (UInt64.ofNat eventBeWindowMax)).toNat

/-- A window is what the ring can hold, whatever the environment says. -/
theorem parseWindow_mem (getenv : Env) (name : CString) {fallback : UInt64}
    (hmin : 1 ≤ fallback) (hmax : fallback ≤ UInt64.ofNat eventBeWindowMax) :
    0 < parseWindow getenv name fallback ∧
      parseWindow getenv name fallback ≤ eventBeWindowMax := by
  obtain ⟨h1, h2⟩ := eventBeParseU64_mem getenv name hmin hmax
  exact ⟨UInt64.le_iff_toNat_le.mp h1, UInt64.le_iff_toNat_le.mp h2⟩

/-- The choice of the policy by its name; an unknown one is `fixed`. -/
def policyOfName : Option CString → BePolicy
  | none => .fixed
  | some name =>
    if name = "blocks".toList then .blocks
    else if name = "gap".toList then .gap
    else if name = "time".toList then .time
    else if name = "time-sum".toList then .timeSum
    else if name = "survival".toList then .survival
    else .fixed

/-- `g_be_count` -/
def eventBeCount (getenv : Env) : Nat :=
  (eventBeParseU64 getenv "LILT_EVENT_BE_COUNT".toList 1 1
    (UInt64.ofNat eventBeCountMax)).toNat

/-- `event_be_initialize_window` -/
def eventBeInitializeWindow (getenv : Env) : BeConfig :=
  let parse := eventBeParseU64 getenv
  let lpCount := eventBeCount getenv
  let window := parseWindow getenv "LILT_EVENT_BE_WINDOW".toList 1
  have hwindow : 0 < window ∧ window ≤ eventBeWindowMax :=
    parseWindow_mem getenv _ (by decide) (by decide)
  { policy := policyOfName (liltGetenv getenv "LILT_EVENT_BE_POLICY".toList)
    window := eventBePartitionWindow window lpCount
    blockBudget := eventBePartitionBudget
      (parse "LILT_EVENT_BE_BLOCK_BUDGET".toList 20000 1 (UInt64.ofNat ullongMax)) lpCount
    gapFraction := (parse "LILT_EVENT_BE_GAP_FRACTION_PCT".toList 90 1 100).toNat
    gapGuardNs := parse "LILT_EVENT_BE_GAP_GUARD_NS".toList (50 * 1000) 0 secondNs
    timeBudgetNs := eventBePartitionBudget
      (parse "LILT_EVENT_BE_TIME_BUDGET_NS".toList (100 * 1000) 1 secondNs) lpCount
    unknownKernelNs := parse "LILT_EVENT_BE_UNKNOWN_KERNEL_NS".toList (20 * 1000) 1 secondNs
    survivalMinSamples :=
      (parse "LILT_EVENT_BE_SURVIVAL_MIN_SAMPLES".toList 32 1 0xffffffff).toNat
    survivalConfidence := (parse "LILT_EVENT_BE_SURVIVAL_CONFIDENCE_PCT".toList 50 1 100).toNat
    survivalPromoteConfidence :=
      (parse "LILT_EVENT_BE_SURVIVAL_PROMOTE_CONFIDENCE_PCT".toList 90 1 100).toNat
    survivalColdStartNs :=
      parse "LILT_EVENT_BE_SURVIVAL_COLD_START_NS".toList (500 * 1000) 1 secondNs
    survivalContextNs :=
      parse "LILT_EVENT_BE_SURVIVAL_CONTEXT_NS".toList (141 * 1000) 0 secondNs
    survivalInternalWindow := eventBePartitionWindow
      (parseWindow getenv "LILT_EVENT_BE_SURVIVAL_INTERNAL_WINDOW".toList 2) lpCount
    survivalPromotedWindow := eventBePartitionWindow
      (parseWindow getenv "LILT_EVENT_BE_SURVIVAL_PROMOTED_WINDOW".toList 8) lpCount
    survivalInternalBudgetNs := eventBePartitionBudget
      (parse "LILT_EVENT_BE_SURVIVAL_INTERNAL_BUDGET_NS".toList (40 * 1000) 1 secondNs) lpCount
    survivalPromotedBudgetNs := eventBePartitionBudget
      (parse "LILT_EVENT_BE_SURVIVAL_PROMOTED_BUDGET_NS".toList (100 * 1000) 1 secondNs) lpCount
    window_pos := partitionWindow_pos _ _
    window_le := Nat.le_trans (partitionWindow_le _ hwindow.1) hwindow.2
    blockBudget_pos := partitionBudget_pos _ _
    timeBudget_pos := partitionBudget_pos _ _
    internalWindow_pos := partitionWindow_pos _ _
    promotedWindow_pos := partitionWindow_pos _ _ }

end Lilt.Be
