import Lilt.Be.Process
import Lilt.Driver.Launches
import Lilt.Graph.Launch

/-!
# The launch hooks and entry points of the BE proxy

Every intercepted launch calls a hook before and one after the driver, and a launch
of a graph drains the window behind the graph or each of its graphlets. The hooks
leave a launch on a capturing stream alone; the boundary does not ask.

- `liltBeforeKernelLaunchEx`, `liltAfterKernelLaunch`, `liltGraphletBoundary`: the
  hooks.
- `beLaunch`: what a launch has the scheduler do.
- `BeLeaves`: the scheduler is left alone.
- `beLaunch_leaves_iff`: for launches on a capturing stream it is, unless the window is
  not empty at a boundary.
-/

namespace Lilt.Be

open Lilt.Driver Lilt.Graph Gpu

/-- What the hooks call. -/
inductive BeHookCall where
  | eventBeBeforeLaunch (function : CUfunction) (blocks : UInt64) (stream : CUstream)
      (perThreadDefaultStream : Bool)
  | eventBeAfterLaunch (stream : CUstream) (perThreadDefaultStream : Bool) (result : CUresult)
  | eventBeDrainWindow
  | rateLimiter (blocks : UInt64)
  deriving DecidableEq

/-! ## The hooks -/

section hooks

variable (cfg : HookConfig)

/-- `lilt_before_kernel_launch_ex`, with the `g_tgs_capture_bypass_after` it leaves. -/
def liltBeforeKernelLaunchEx (function : CUfunction) (blocks : UInt64) (capture : CaptureAnswers)
    (stream : CUstream) (perThreadDefaultStream : Bool) : Bool × List BeHookCall :=
  if cfg.passthrough then (false, [])
  else if cfg.eventPolicy && liltStreamIsCapturing (capture stream perThreadDefaultStream) then
    (true, [])
  else if cfg.eventPolicy then
    (false, [.eventBeBeforeLaunch function blocks stream perThreadDefaultStream])
  else (false, [.rateLimiter blocks])

/-- `lilt_after_kernel_launch`, with the `g_tgs_capture_bypass_after` it leaves. -/
def liltAfterKernelLaunch (bypassAfter : Bool) (stream : CUstream)
    (perThreadDefaultStream : Bool) (result : CUresult) : Bool × List BeHookCall :=
  if bypassAfter then (false, [])
  else if cfg.eventPolicy && !cfg.passthrough then
    (bypassAfter, [.eventBeAfterLaunch stream perThreadDefaultStream result])
  else (bypassAfter, [])

/-- `lilt_graphlet_boundary` -/
def liltGraphletBoundary : List BeHookCall :=
  if !cfg.eventPolicy || cfg.passthrough then [] else [.eventBeDrainWindow]

/-! ## The entry points -/

/-- A launch between `lilt_before_kernel_launch_ex` and `lilt_after_kernel_launch`. -/
def hookedLaunch (function : CUfunction) (blocks : UInt64) (capture : CaptureAnswers)
    (stream : CUstream) (perThreadDefaultStream : Bool) (result : CUresult) :
    Bool × List BeHookCall :=
  let (bypassAfter, before) :=
    liltBeforeKernelLaunchEx cfg function blocks capture stream perThreadDefaultStream
  let (bypassAfter, after) :=
    liltAfterKernelLaunch cfg bypassAfter stream perThreadDefaultStream result
  (bypassAfter, before ++ after)

/-- `cuLaunchKernel` and `cuLaunchKernel_ptsz` -/
def cuLaunchKernel (function : CUfunction) (grid : Grid) (capture : CaptureAnswers)
    (stream : CUstream) (perThreadDefaultStream : Bool) (result : CUresult) :
    Bool × List BeHookCall :=
  hookedLaunch cfg function grid.blocks capture stream perThreadDefaultStream result

/-- `cuLaunchCooperativeKernel` and `cuLaunchCooperativeKernel_ptsz` -/
def cuLaunchCooperativeKernel (function : CUfunction) (grid : Grid) (capture : CaptureAnswers)
    (stream : CUstream) (perThreadDefaultStream : Bool) (result : CUresult) :
    Bool × List BeHookCall :=
  hookedLaunch cfg function grid.blocks capture stream perThreadDefaultStream result

/-- `launch_kernel_ex`, for `cuLaunchKernelEx` and `cuLaunchKernelEx_ptsz`; `present`
says whether the driver has the entry point. -/
def launchKernelEx (present bypassAfter : Bool) (function : CUfunction)
    (capture : CaptureAnswers) (config : Option CUlaunchConfig) (perThreadDefaultStream : Bool)
    (result : CUresult) : Bool × List BeHookCall :=
  if !present then (bypassAfter, [])
  else
    match config with
    | none => (bypassAfter, [])
    | some config =>
      hookedLaunch cfg function config.grid.blocks capture config.hStream perThreadDefaultStream
        result

/-- A call of `lilt_graph_launch`. -/
def graphHook (capture : CaptureAnswers) (bypassAfter : Bool) : GraphCall → Bool × List BeHookCall
  | .beforeKernelLaunch function blocks stream perThreadDefaultStream =>
    liltBeforeKernelLaunchEx cfg (.ofNat function) (.ofNat blocks) capture stream
      perThreadDefaultStream
  | .realLaunch _ _ => (bypassAfter, [])
  | .afterKernelLaunch stream perThreadDefaultStream result =>
    liltAfterKernelLaunch cfg bypassAfter stream perThreadDefaultStream result
  | .graphletBoundary => (bypassAfter, liltGraphletBoundary cfg)

/-- The calls of `lilt_graph_launch`, one after the other. -/
def graphHooks (capture : CaptureAnswers) (bypassAfter : Bool) :
    List GraphCall → Bool × List BeHookCall
  | [] => (bypassAfter, [])
  | call :: calls =>
    let (bypassAfter, first) := graphHook cfg capture bypassAfter call
    let (bypassAfter, rest) := graphHooks capture bypassAfter calls
    (bypassAfter, first ++ rest)

end hooks

/-- The settings that the hooks read. -/
def hookConfig (cfg : GraphConfig) : HookConfig := ⟨cfg.eventPolicy, cfg.passthrough⟩

/-- An intercepted launch: what it has the scheduler do, in this order, and the
`g_tgs_capture_bypass_after` of the thread behind it. `launch i` is the result of the
driver's launch `i`. -/
def beLaunch {ν : Type} (cfg : GraphConfig) (present bypassAfter : Bool)
    (capture : CaptureAnswers) (metadata : Option (GraphMetadata ν)) (call : LaunchCall)
    (launch : Nat → CUresult) : Bool × List BeHookCall :=
  match call.entry with
  | .cuLaunchKernel function grid =>
    cuLaunchKernel (hookConfig cfg) function grid capture call.stream
      call.perThreadDefaultStream (launch 0)
  | .cuLaunchCooperativeKernel function grid =>
    cuLaunchCooperativeKernel (hookConfig cfg) function grid capture call.stream
      call.perThreadDefaultStream (launch 0)
  | .cuLaunchKernelEx function grid =>
    launchKernelEx (hookConfig cfg) present bypassAfter function capture
      (some ⟨grid, call.stream⟩) call.perThreadDefaultStream (launch 0)
  | .cuGraphLaunch exec =>
    graphHooks (hookConfig cfg) capture bypassAfter
      (liltGraphLaunch cfg present launch metadata exec call.stream
        call.perThreadDefaultStream).1

/-! ## The variable of the thread -/

section bypass

variable {ν : Type}

/-- The hook after a launch takes the variable back. -/
theorem afterKernelLaunch_bypassAfter (cfg : HookConfig) (b : Bool) (stream : CUstream) (p : Bool)
    (result : CUresult) : (liltAfterKernelLaunch cfg b stream p result).1 = false := by
  unfold liltAfterKernelLaunch
  cases b
  · rw [if_neg Bool.false_ne_true]
    split <;> rfl
  · rfl

/-- Behind a split launch the variable is not set. -/
theorem splitLaunch_bypassAfter (cfg : HookConfig) (capture : CaptureAnswers) (stream : CUstream)
    (p : Bool) (launch : Nat → CUresult) (i : Nat) (result : CUresult)
    (graphlets : List (Graphlet ν)) :
    (graphHooks cfg capture false (splitLaunch stream p launch i result graphlets).1).1 =
      false := by
  induction graphlets generalizing i result with
  | nil => rfl
  | cons graphlet graphlets ih =>
    unfold splitLaunch
    dsimp only
    split
    · simp only [graphHooks, graphHook, afterKernelLaunch_bypassAfter]
    · simp only [graphHooks, graphHook, List.cons_append, List.nil_append,
        afterKernelLaunch_bypassAfter]
      exact ih ..

/-- A thread that is not in a launch has its `g_tgs_capture_bypass_after` clear. -/
theorem beLaunch_bypassAfter (cfg : GraphConfig) (present : Bool) (capture : CaptureAnswers)
    (metadata : Option (GraphMetadata ν)) (call : LaunchCall) (launch : Nat → CUresult) :
    (beLaunch cfg present false capture metadata call launch).1 = false := by
  unfold beLaunch
  cases call.entry with
  | cuLaunchKernel function grid | cuLaunchCooperativeKernel function grid =>
    exact afterKernelLaunch_bypassAfter (hookConfig cfg) _ call.stream
      call.perThreadDefaultStream (launch 0)
  | cuLaunchKernelEx function grid =>
    cases present
    · rfl
    · exact afterKernelLaunch_bypassAfter (hookConfig cfg) _ call.stream
        call.perThreadDefaultStream (launch 0)
  | cuGraphLaunch exec =>
    dsimp only
    unfold liltGraphLaunch
    split
    · rfl
    · split
      · rfl
      · split
        · exact splitLaunch_bypassAfter ..
        · simp only [wholeLaunch, List.cons_append, List.nil_append, graphHooks, graphHook,
            afterKernelLaunch_bypassAfter]
          by_cases hb : (cfg.eventPolicy && !cfg.passthrough) = true
          · rw [if_pos hb]
            rfl
          · rw [if_neg hb]
            rfl

end bypass

/-! ## What a hook does to the scheduler -/

/-- The step that begins the hook's call, when `thread` makes it. -/
def BeHookCall.Begins (thread : Thread) : BeHookCall → BeAction → Prop
  | .eventBeBeforeLaunch function blocks stream perThreadDefaultStream, .before c =>
    c = ⟨thread, function, blocks, stream, perThreadDefaultStream⟩
  | .eventBeAfterLaunch .., .after _ => True
  | .eventBeDrainWindow, .boundary thread' => thread' = thread
  | _, _ => False

/-- The hook's call finds the process so: `g_be_event_lock` is free for it, or held
since the hook before the launch. -/
def BeHookCall.Finds (s : BeProcess) : BeHookCall → Prop
  | .eventBeBeforeLaunch .. | .eventBeDrainWindow => s.pc = .unlocked
  | .eventBeAfterLaunch .. => ∃ c work, s.pc = .launched c work
  | .rateLimiter _ => True

/-- The step makes no record and no wait. -/
def BeAction.silent : BeAction → Bool
  | .retire _ | .survivalRetire .. | .survivalAdmit .. | .admission _ | .after _ => false
  | _ => true

/-- The steps of the process while the lock is held. -/
inductive WhileLocked (cfg : BeConfig) (fp : BeFloat) :
    BeProcess → List BeAction → BeProcess → Prop where
  | here (s : BeProcess) : WhileLocked cfg fp s [] s
  | step {s t u : BeProcess} {a : BeAction} {as : List BeAction} (hlocked : s.pc ≠ .unlocked)
      (h : BeStep cfg fp s a t) (hrest : WhileLocked cfg fp t as u) :
      WhileLocked cfg fp s (a :: as) u

/-- As far as the hook's call gets that is made in the state `s`, it leaves the window
unchanged and makes no record and no wait. -/
def BeLeaves (cfg : BeConfig) (fp : BeFloat) (thread : Thread) (s : BeProcess)
    (call : BeHookCall) : Prop :=
  ∀ a t, call.Begins thread a → BeStep cfg fp s a t → a.silent = true ∧
    ∀ as u, WhileLocked cfg fp t as u → u.window = s.window ∧ ∀ b ∈ as, b.silent = true

/-- The entry point launches a graph. -/
def isGraphLaunch : LaunchEntry → Bool
  | .cuGraphLaunch _ => true
  | _ => false

/-! ## Launches on a capturing stream -/

section drain

variable {cfg : BeConfig} {fp : BeFloat} {thread : Thread} {s : BeProcess}

/-- Draining an empty window does nothing. -/
theorem drain_empty {t u : BeProcess} {as : List BeAction} (h : WhileLocked cfg fp t as u)
    (hpc : t.pc = .draining thread ∨ t.pc = .unlocked)
    (hempty : t.window.outstandingLaunches = 0) :
    u.window = t.window ∧ ∀ b ∈ as, b.silent = true := by
  induction h with
  | here => exact ⟨rfl, fun _ hb => absurd hb List.not_mem_nil⟩
  | @step t v u a as hlocked hstep _ ih =>
    have hpc := hpc.resolve_right hlocked
    have hnext : v.window = t.window ∧ (v.pc = .draining thread ∨ v.pc = .unlocked) ∧
        a.silent = true := by
      cases hstep with
      | drained => exact ⟨rfl, .inr rfl, rfl⟩
      | complete stream => exact ⟨rfl, .inl hpc, rfl⟩
      | retire _ _ hretires =>
        -- the loop's condition does not hold
        simp [hpc, BePc.retires, hempty] at hretires
      | before _ h | startupPoll _ _ _ h | startupAgain _ h | ownerCheck _ _ h
      | bypassed _ h | idle _ _ _ h | survivalIdle _ h | survivalRetire _ _ _ _ _ _ h
      | survivalSleep _ _ _ _ h | survivalAdmit _ _ _ _ _ _ _ h | timeAdmit _ _ _ h
      | blockAdmit _ _ _ h | launch _ h | launchFails _ h | after _ _ _ h | boundary _ h =>
        cases hpc.symm.trans h
    obtain ⟨hw, hs⟩ := ih hnext.2.1 (hnext.1 ▸ hempty)
    refine ⟨hw.trans hnext.1, fun b hb => ?_⟩
    rcases List.mem_cons.mp hb with rfl | hb
    · exact hnext.2.2
    · exact hs b hb

/-- A boundary waits for the launches in the window, if there are any. -/
theorem beLeaves_drain_iff (hpc : s.pc = .unlocked) :
    BeLeaves cfg fp thread s .eventBeDrainWindow ↔ s.window.outstandingLaunches = 0 := by
  constructor
  · intro h
    by_contra hne
    have hpos := Nat.pos_of_ne_zero hne
    let t : BeProcess := { s with pc := .draining thread }
    let o : RetireAnswers := ⟨false, false, none⟩
    have hretire : BeStep cfg fp t (.retire o) _ :=
      .retire t thread o (if_pos hpos)
        { event := by rintro ⟨⟩, stream := by rintro - ⟨⟩ }
    have hsilent := ((h (.boundary thread) t rfl (.boundary s thread hpc)).2 _ _
      (.step (by rintro ⟨⟩) hretire (.here _))).2 _ List.mem_cons_self
    cases hsilent
  · rintro hempty a t hbegins hstep
    cases hstep with
    | boundary thread' _ =>
      refine ⟨rfl, fun as u hrun => ?_⟩
      have hdrained := drain_empty hrun (.inl rfl) hempty
      exact hdrained
    | _ => exact absurd hbegins id

end drain

section capturing

variable {ν : Type} {cfg : HookConfig} {capture : CaptureAnswers} {stream : CUstream} {p : Bool}

/-- The hook before a launch on a capturing stream only tells the hook behind it. -/
theorem beforeKernelLaunch_capturing (hpolicy : cfg.eventPolicy = true)
    (hcapture : (capture stream p).ReportsCapture) (function : CUfunction) (blocks : UInt64) :
    liltBeforeKernelLaunchEx cfg function blocks capture stream p = (!cfg.passthrough, []) := by
  have hcapturing := (liltStreamIsCapturing_iff _).mpr hcapture
  unfold liltBeforeKernelLaunchEx
  cases cfg.passthrough <;> simp [hpolicy, hcapturing]

/-- The scheduler is not told of a launch that went around it. -/
theorem afterKernelLaunch_told (cfg : HookConfig) (stream : CUstream) (p : Bool)
    (result : CUresult) :
    liltAfterKernelLaunch cfg (!cfg.passthrough) stream p result = (false, []) := by
  unfold liltAfterKernelLaunch
  cases cfg.passthrough <;> simp

/-- The hooks around a launch on a capturing stream do nothing. -/
theorem hookedLaunch_capturing (hpolicy : cfg.eventPolicy = true)
    (hcapture : (capture stream p).ReportsCapture) (function : CUfunction) (blocks : UInt64)
    (result : CUresult) :
    hookedLaunch cfg function blocks capture stream p result = (false, []) := by
  simp only [hookedLaunch, beforeKernelLaunch_capturing hpolicy hcapture, afterKernelLaunch_told,
    List.append_nil]

/-- The same for a launch that `lilt_graph_launch` makes. -/
theorem graphHooks_capturing (hpolicy : cfg.eventPolicy = true)
    (hcapture : (capture stream p).ReportsCapture) (exec blocks : Nat) (result : CUresult)
    (calls : List GraphCall) :
    graphHooks cfg capture false
        (.beforeKernelLaunch exec blocks stream p :: .realLaunch exec stream ::
          .afterKernelLaunch stream p result :: calls) =
      graphHooks cfg capture false calls := by
  simp only [graphHooks, graphHook, beforeKernelLaunch_capturing hpolicy hcapture,
    afterKernelLaunch_told, List.nil_append]

/-- A graph launched graphlet by graphlet: only the boundaries are left. -/
theorem splitLaunch_capturing (hpolicy : cfg.eventPolicy = true)
    (hcapture : (capture stream p).ReportsCapture) {launch : Nat → CUresult} {i : Nat}
    {result : CUresult} {graphlets : List (Graphlet ν)} :
    ∀ c ∈ (graphHooks cfg capture false
      (splitLaunch stream p launch i result graphlets).1).2, c = .eventBeDrainWindow := by
  induction graphlets generalizing i result with
  | nil => exact fun c hc => absurd hc List.not_mem_nil
  | cons graphlet graphlets ih =>
    unfold splitLaunch
    dsimp only
    split
    · rw [graphHooks_capturing hpolicy hcapture]
      exact fun c hc => absurd hc List.not_mem_nil
    · simp only [List.cons_append, List.nil_append]
      rw [graphHooks_capturing hpolicy hcapture]
      intro c hc
      simp only [graphHooks, graphHook, liltGraphletBoundary, List.mem_append] at hc
      rcases hc with hc | hc
      · split at hc
        · exact absurd hc List.not_mem_nil
        · exact List.mem_singleton.mp hc
      · exact ih c hc

end capturing

section launch

variable {ν : Type} {cfg : GraphConfig} {capture : CaptureAnswers} {call : LaunchCall}

/-- What a launch on a capturing stream has the scheduler do: drain the window, at most. -/
theorem beLaunch_capturing (hpolicy : cfg.eventPolicy = true)
    (hcapture : (capture call.stream call.perThreadDefaultStream).ReportsCapture)
    (present : Bool) (metadata : Option (GraphMetadata ν)) (launch : Nat → CUresult) :
    ∀ c ∈ (beLaunch cfg present false capture metadata call launch).2,
      c = .eventBeDrainWindow := by
  have hpolicy' : (hookConfig cfg).eventPolicy = true := hpolicy
  have hnil : ∀ c ∈ ([] : List BeHookCall), c = .eventBeDrainWindow :=
    fun c hc => absurd hc List.not_mem_nil
  unfold beLaunch
  cases call.entry with
  | cuLaunchKernel function grid | cuLaunchCooperativeKernel function grid =>
    simp only [cuLaunchKernel, cuLaunchCooperativeKernel,
      hookedLaunch_capturing hpolicy' hcapture]
    exact hnil
  | cuLaunchKernelEx function grid =>
    simp only [launchKernelEx]
    cases present
    · exact hnil
    · simp only [hookedLaunch_capturing hpolicy' hcapture]
      exact hnil
  | cuGraphLaunch exec =>
    dsimp only
    unfold liltGraphLaunch
    split
    · exact hnil
    · split
      · exact hnil
      · split
        · exact splitLaunch_capturing hpolicy' hcapture
        · simp only [wholeLaunch, List.cons_append, List.nil_append]
          rw [graphHooks_capturing hpolicy' hcapture]
          split
          · intro c hc
            simp only [graphHooks, graphHook, liltGraphletBoundary, List.append_nil] at hc
            split at hc
            · exact hnil c hc
            · exact List.mem_singleton.mp hc
          · exact hnil

/-- The launches that do not even do that. -/
theorem beLaunch_silent (hpolicy : cfg.eventPolicy = true)
    (hcapture : (capture call.stream call.perThreadDefaultStream).ReportsCapture)
    (present : Bool) (metadata : Option (GraphMetadata ν)) (launch : Nat → CUresult)
    (h : cfg.passthrough = true ∨ cfg.mode = .off ∨ isGraphLaunch call.entry = false) :
    (beLaunch cfg present false capture metadata call launch).2 = [] := by
  have hpolicy' : (hookConfig cfg).eventPolicy = true := hpolicy
  unfold beLaunch
  cases hentry : call.entry with
  | cuLaunchKernel function grid | cuLaunchCooperativeKernel function grid =>
    simp only [cuLaunchKernel, cuLaunchCooperativeKernel,
      hookedLaunch_capturing hpolicy' hcapture]
  | cuLaunchKernelEx function grid =>
    simp only [launchKernelEx]
    cases present
    · rfl
    · simp only [hookedLaunch_capturing hpolicy' hcapture]
      rfl
  | cuGraphLaunch exec =>
    dsimp only
    unfold liltGraphLaunch
    split
    · rfl
    · split
      · rfl
      next hmode =>
        simp only [hpolicy, Bool.true_and, decide_eq_true_eq] at hmode
        have hpass : cfg.passthrough = true := by
          rcases h with h | h | h
          · exact h
          · exact absurd h hmode
          · rw [hentry] at h
            cases h
        have hsplit : splitTaken cfg metadata = false := by
          simp [splitTaken, GraphConfig.splits, hpass]
        rw [if_neg (by simp [hsplit])]
        simp only [wholeLaunch, hpass, List.cons_append, List.nil_append]
        rw [graphHooks_capturing hpolicy' hcapture]
        simp [graphHooks]

/-- A launch on a capturing stream, whose hooks find the scheduler in any states,
leaves it alone exactly if no boundary finds launches in the window. -/
theorem beLaunch_leaves_iff (hpolicy : cfg.eventPolicy = true)
    (hcapture : (capture call.stream call.perThreadDefaultStream).ReportsCapture)
    (config : BeConfig) (fp : BeFloat) (thread : Thread) (present : Bool)
    (metadata : Option (GraphMetadata ν)) (launch : Nat → CUresult)
    {found : List (BeHookCall × BeProcess)}
    (hfound : found.map Prod.fst = (beLaunch cfg present false capture metadata call launch).2)
    (hfinds : ∀ x ∈ found, x.1.Finds x.2) :
    (∀ x ∈ found, BeLeaves config fp thread x.2 x.1) ↔
      cfg.passthrough = true ∨ cfg.mode = .off ∨ isGraphLaunch call.entry = false ∨
        ∀ x ∈ found, x.2.window.outstandingLaunches = 0 := by
  have hdrain : ∀ x ∈ found, (BeLeaves config fp thread x.2 x.1 ↔
      x.2.window.outstandingLaunches = 0) := by
    intro x hx
    have hcall : x.1 = .eventBeDrainWindow :=
      beLaunch_capturing hpolicy hcapture present metadata launch _
        (hfound ▸ List.mem_map_of_mem hx)
    have hpc := hfinds x hx
    rw [hcall] at hpc ⊢
    exact beLeaves_drain_iff hpc
  constructor
  · exact fun hall => .inr (.inr (.inr fun x hx => (hdrain x hx).mp (hall x hx)))
  · intro h x hx
    rw [← or_assoc, ← or_assoc, or_assoc (b := cfg.mode = .off)] at h
    rcases h with h | h
    · have hnil := beLaunch_silent hpolicy hcapture present metadata launch h
      rw [hnil, List.map_eq_nil_iff] at hfound
      rw [hfound] at hx
      exact absurd hx List.not_mem_nil
    · exact (hdrain x hx).mpr (h x hx)

end launch

end Lilt.Be
