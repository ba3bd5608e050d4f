import Lilt.Driver.Launches
import Lilt.Hp.Watcher

/-!
# The launch hooks and entry points of the HP proxy

Every intercepted launch calls a hook before and one after the driver. A launch on a
stream that is being captured must not reach the scheduler; the hook that looks at
the stream notes in a variable of the thread that the hook behind the launch has
nothing to do. `cuLaunchKernel` and `cuLaunchCooperativeKernel` call the other hook,
which does not look.

- `liltBeforeKernelLaunch`, `liltBeforeKernelLaunchEx`, `liltAfterKernelLaunch`: the
  hooks.
- `hpLaunch`: what a launch has the scheduler do.
- `HpLeaves`: the scheduler is left alone.
- `hpLaunch_leaves_iff`: it is, for launches on a capturing stream, only behind the
  hook that looks.
-/

namespace Lilt.Hp

open Lilt.Driver Gpu

/-- What the hooks call. -/
inductive HpHookCall where
  | eventHpBeforeLaunch
  | eventHpAfterLaunch (stream : CUstream) (perThreadDefaultStream : Bool) (result : CUresult)
  | rateEstimator (blocks : UInt64)
  deriving DecidableEq

/-! ## The hooks -/

section hooks

variable (cfg : HookConfig)

/-- `lilt_before_kernel_launch` -/
def liltBeforeKernelLaunch (blocks : UInt64) : List HpHookCall :=
  if cfg.passthrough then []
  else if cfg.eventPolicy then [.eventHpBeforeLaunch]
  else [.rateEstimator blocks]

/-- `lilt_before_kernel_launch_ex`, with the `g_tgs_capture_bypass_after` it leaves. -/
def liltBeforeKernelLaunchEx (blocks : UInt64) (capture : CaptureAnswer) :
    Bool × List HpHookCall :=
  if cfg.passthrough then (false, [])
  else if cfg.eventPolicy && liltStreamIsCapturing capture then (true, [])
  else if cfg.eventPolicy then (false, [.eventHpBeforeLaunch])
  else (false, [.rateEstimator blocks])

/-- `lilt_after_kernel_launch`, with the `g_tgs_capture_bypass_after` it leaves. -/
def liltAfterKernelLaunch (bypassAfter : Bool) (stream : CUstream)
    (perThreadDefaultStream : Bool) (result : CUresult) : Bool × List HpHookCall :=
  if bypassAfter then (false, [])
  else if cfg.eventPolicy && !cfg.passthrough then
    (bypassAfter, [.eventHpAfterLaunch stream perThreadDefaultStream result])
  else (bypassAfter, [])

/-! ## The entry points -/

/-- A launch between `lilt_before_kernel_launch` and `lilt_after_kernel_launch`. -/
def hookedLaunch (bypassAfter : Bool) (blocks : UInt64) (stream : CUstream)
    (perThreadDefaultStream : Bool) (result : CUresult) : Bool × List HpHookCall :=
  let before := liltBeforeKernelLaunch cfg blocks
  let (bypassAfter, after) :=
    liltAfterKernelLaunch cfg bypassAfter stream perThreadDefaultStream result
  (bypassAfter, before ++ after)

/-- A launch between `lilt_before_kernel_launch_ex` and `lilt_after_kernel_launch`. -/
def hookedLaunchEx (blocks : UInt64) (capture : CaptureAnswers) (stream : CUstream)
    (perThreadDefaultStream : Bool) (result : CUresult) : Bool × List HpHookCall :=
  let (bypassAfter, before) :=
    liltBeforeKernelLaunchEx cfg blocks (capture stream perThreadDefaultStream)
  let (bypassAfter, after) :=
    liltAfterKernelLaunch cfg bypassAfter stream perThreadDefaultStream result
  (bypassAfter, before ++ after)

/-- `cuLaunchKernel` and `cuLaunchKernel_ptsz` -/
def cuLaunchKernel (bypassAfter : Bool) (grid : Grid) (stream : CUstream)
    (perThreadDefaultStream : Bool) (result : CUresult) : Bool × List HpHookCall :=
  hookedLaunch cfg bypassAfter grid.blocks stream perThreadDefaultStream result

/-- `cuLaunchCooperativeKernel` and `cuLaunchCooperativeKernel_ptsz` -/
def cuLaunchCooperativeKernel (bypassAfter : Bool) (grid : Grid) (stream : CUstream)
    (perThreadDefaultStream : Bool) (result : CUresult) : Bool × List HpHookCall :=
  hookedLaunch cfg bypassAfter grid.blocks stream perThreadDefaultStream result

/-- `launch_kernel_ex`, for `cuLaunchKernelEx` and `cuLaunchKernelEx_ptsz`; `present`
says whether the driver has the entry point. -/
def launchKernelEx (present bypassAfter : Bool) (capture : CaptureAnswers)
    (config : Option CUlaunchConfig) (perThreadDefaultStream : Bool) (result : CUresult) :
    Bool × List HpHookCall :=
  if !present then (bypassAfter, [])
  else
    match config with
    | none => (bypassAfter, [])
    | some config =>
      hookedLaunchEx cfg config.grid.blocks capture config.hStream perThreadDefaultStream result

/-- `lilt_graph_launch`, as compiled into the HP proxy; `nodeCount` is that of the entry
`graph_find_locked` found. -/
def liltGraphLaunch (present bypassAfter : Bool) (capture : CaptureAnswers)
    (nodeCount : Option Nat) (stream : CUstream) (perThreadDefaultStream : Bool)
    (result : CUresult) : Bool × List HpHookCall :=
  if !present then (bypassAfter, [])
  else
    let nodeCount :=
      match nodeCount with
      | some count => if count ≠ 0 then count else 1
      | none => 1
    hookedLaunchEx cfg (.ofNat nodeCount) capture stream perThreadDefaultStream result

/-- An intercepted launch: what it has the scheduler do, in this order, and the
`g_tgs_capture_bypass_after` of the thread behind it. -/
def hpLaunch (present bypassAfter : Bool) (capture : CaptureAnswers) (nodeCount : Option Nat)
    (call : LaunchCall) (result : CUresult) : Bool × List HpHookCall :=
  match call.entry with
  | .cuLaunchKernel _ grid =>
    cuLaunchKernel cfg bypassAfter grid call.stream call.perThreadDefaultStream result
  | .cuLaunchCooperativeKernel _ grid =>
    cuLaunchCooperativeKernel cfg bypassAfter grid call.stream call.perThreadDefaultStream result
  | .cuLaunchKernelEx _ grid =>
    launchKernelEx cfg present bypassAfter capture (some ⟨grid, call.stream⟩)
      call.perThreadDefaultStream result
  | .cuGraphLaunch _ =>
    liltGraphLaunch cfg present bypassAfter capture nodeCount call.stream
      call.perThreadDefaultStream result

end hooks

/-! ## What a hook does to the scheduler -/

/-- The step of the process that the hook's call is, when `thread` makes it. -/
def HpHookCall.IsStep (thread : Thread) : HpHookCall → HpAction → Prop
  | .eventHpBeforeLaunch, .before thread' _ _ _ => thread' = thread
  | .eventHpAfterLaunch stream perThreadDefaultStream result, .after c _ =>
    c.thread = thread ∧ c.stream = stream ∧ c.perThreadDefaultStream = perThreadDefaultStream ∧
      (result = cudaSuccess ↔ ∃ k, c.phase = .accepted k)
  | _, _ => False

/-- The step makes no record and no wait, and leaves none to the watcher. -/
def HpAction.Silent : HpAction → Prop
  | .after c _ => ∀ k, c.phase ≠ .accepted k
  | _ => True

/-- The tracker has the same slots, launches in progress and published state. -/
structure SameScheduler (t t' : HpTracker) : Prop where
  slots : t'.slots = t.slots
  launchesInProgress : t'.launchesInProgress = t.launchesInProgress
  published : t'.published = t.published

/-- The hook's call, made in the state `s`, leaves the scheduler unchanged and makes no
record and no wait. -/
def HpLeaves (cfg : HpConfig) (thread : Thread) (s : HpProcess) (call : HpHookCall) : Prop :=
  ∀ a t, call.IsStep thread a → HpStep cfg s a t → SameScheduler s.tracker t.tracker ∧ a.Silent

/-- The entry point calls the hook that asks whether the stream is being captured. -/
def asksCapture : LaunchEntry → Bool
  | .cuLaunchKernel .. | .cuLaunchCooperativeKernel .. => false
  | .cuLaunchKernelEx .. | .cuGraphLaunch _ => true

/-! ## Launches on a capturing stream -/

section capturing

variable {cfg : HookConfig} {capture : CaptureAnswers} {call : LaunchCall}

theorem afterKernelLaunch_bypassAfter (cfg : HookConfig) (b : Bool) (stream : CUstream) (p : Bool)
    (result : CUresult) : (liltAfterKernelLaunch cfg b stream p result).1 = false := by
  unfold liltAfterKernelLaunch
  cases b
  · rw [if_neg Bool.false_ne_true]
    split <;> rfl
  · rfl

/-- A thread that is not in a launch has its `g_tgs_capture_bypass_after` clear. -/
theorem hpLaunch_bypassAfter (cfg : HookConfig) (present : Bool) (capture : CaptureAnswers)
    (nodeCount : Option Nat) (call : LaunchCall) (result : CUresult) :
    (hpLaunch cfg present false capture nodeCount call result).1 = false := by
  have hafter := fun b => afterKernelLaunch_bypassAfter cfg b call.stream
    call.perThreadDefaultStream result
  unfold hpLaunch
  cases call.entry with
  | cuLaunchKernel | cuLaunchCooperativeKernel => exact hafter false
  | cuLaunchKernelEx | cuGraphLaunch =>
    cases present
    · rfl
    · exact hafter _

/-- Behind the hook that asks, nothing reaches the scheduler. -/
theorem hookedLaunchEx_capturing {stream : CUstream} {p : Bool} (hpolicy : cfg.eventPolicy = true)
    (hcapture : (capture stream p).ReportsCapture) (blocks : UInt64) (result : CUresult) :
    hookedLaunchEx cfg blocks capture stream p result = (false, []) := by
  have hcapturing := (liltStreamIsCapturing_iff _).mpr hcapture
  unfold hookedLaunchEx liltBeforeKernelLaunchEx liltAfterKernelLaunch
  cases hpass : cfg.passthrough <;> simp [hpolicy, hcapturing]

/-- Behind the other hook the launch is tracked like any other. -/
theorem hookedLaunch_tracked (hpolicy : cfg.eventPolicy = true) (hpass : cfg.passthrough = false)
    (blocks : UInt64) (stream : CUstream) (p : Bool) (result : CUresult) :
    hookedLaunch cfg false blocks stream p result =
      (false, [.eventHpBeforeLaunch, .eventHpAfterLaunch stream p result]) := by
  simp [hookedLaunch, liltBeforeKernelLaunch, liltAfterKernelLaunch, hpolicy, hpass]

theorem hookedLaunch_passthrough (hpass : cfg.passthrough = true) (blocks : UInt64)
    (stream : CUstream) (p : Bool) (result : CUresult) :
    hookedLaunch cfg false blocks stream p result = (false, []) := by
  simp [hookedLaunch, liltBeforeKernelLaunch, liltAfterKernelLaunch, hpass]

/-- What a launch on a capturing stream has the scheduler do. -/
theorem hpLaunch_capturing (hpolicy : cfg.eventPolicy = true)
    (hcapture : (capture call.stream call.perThreadDefaultStream).ReportsCapture)
    (present : Bool) (nodeCount : Option Nat) (result : CUresult) :
    (hpLaunch cfg present false capture nodeCount call result).2 =
      if cfg.passthrough || asksCapture call.entry then []
      else
        [.eventHpBeforeLaunch,
          .eventHpAfterLaunch call.stream call.perThreadDefaultStream result] := by
  unfold hpLaunch
  cases hentry : call.entry with
  | cuLaunchKernel _ grid | cuLaunchCooperativeKernel _ grid =>
    simp only [cuLaunchKernel, cuLaunchCooperativeKernel, asksCapture, Bool.or_false]
    cases hpass : cfg.passthrough
    · rw [hookedLaunch_tracked hpolicy hpass]
      rfl
    · rw [hookedLaunch_passthrough hpass]
      rfl
  | cuLaunchKernelEx | cuGraphLaunch =>
    simp only [launchKernelEx, liltGraphLaunch, asksCapture, Bool.or_true, if_true]
    cases present
    · rfl
    · simp [hookedLaunchEx_capturing hpolicy hcapture]

/-- No state of the scheduler is left alone by `event_hp_before_launch`. -/
theorem not_hpLeaves_before (cfg : HpConfig) {thread : Thread} (ht : thread ≠ watcherThread)
    (s : HpProcess) : ¬ HpLeaves cfg thread s .eventHpBeforeLaunch := by
  intro h
  have hsame := (h (.before thread 0 false false) _ rfl (.before s thread 0 false false ht)).1
  have hcount := hsame.launchesInProgress
  rw [beforeLaunch_launchesInProgress] at hcount
  omega

/-- A launch on a capturing stream, whose hooks find the scheduler in any states,
leaves it alone exactly in passthrough mode and behind the hook that asks. -/
theorem hpLaunch_leaves_iff (hpolicy : cfg.eventPolicy = true)
    (hcapture : (capture call.stream call.perThreadDefaultStream).ReportsCapture)
    (config : HpConfig) {thread : Thread} (ht : thread ≠ watcherThread) (present : Bool)
    (nodeCount : Option Nat) (result : CUresult) {found : List (HpHookCall × HpProcess)}
    (hfound : found.map Prod.fst =
      (hpLaunch cfg present false capture nodeCount call result).2) :
    (∀ x ∈ found, HpLeaves config thread x.2 x.1) ↔
      cfg.passthrough = true ∨ asksCapture call.entry = true := by
  rw [hpLaunch_capturing hpolicy hcapture] at hfound
  rw [← Bool.or_eq_true]
  split at hfound
  next hb =>
    rw [List.map_eq_nil_iff] at hfound
    subst hfound
    exact ⟨fun _ => hb, fun _ x hx => absurd hx List.not_mem_nil⟩
  next hb =>
    refine ⟨fun hall => ?_, fun h => absurd h hb⟩
    obtain ⟨x, rest, rfl, hx, -⟩ := List.map_eq_cons_iff.mp hfound
    have hleaves := hall x List.mem_cons_self
    rw [hx] at hleaves
    exact absurd hleaves (not_hpLeaves_before config ht x.2)

end capturing

end Lilt.Hp
