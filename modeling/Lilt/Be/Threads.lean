import Lilt.Be.Group
import Lilt.Be.Hooks
import Lilt.Be.InFlight

/-!
# The threads of a BE process

Any number of threads launch kernels and graphs. A launch goes through its hooks, which hold
`g_be_event_lock` between them; a graph is followed by a boundary, graphlet by graphlet if it
is split, and then the launch holds `g_graph_lock` as well. Between the launch and its
boundary the window is anybody's. An HP process is alive and registered all along.

- `callOps`: what a thread does for a call, `Performs` where streams are being captured;
  `callOps_hooks` finds the calls of the hooks in it.
- `BeThreads`, `ThreadStep`: the threads around the process of `Lilt.Be.Process`.
- `thread_step_process`, `process_reachable`: they are what a run of the process is.
- `owned_reachable`: every launch uses the window.
- `leadsTo_threads_pass`: a launch that nothing holds back, as a part of a run.

A graph launched with the mode `off` goes around the hooks and is not considered.
-/

namespace Lilt.Be

open Lilt.Activity Lilt.Driver Lilt.Graph Gpu Transition

/-! ## What a thread does -/

/-- What is launched between the hooks. -/
inductive LaunchRole where
  | kernel
  /-- A graph that is not split. -/
  | whole
  | graphlet
  deriving DecidableEq

/-- What the hook before a launch gets. -/
structure LaunchArgs where
  function : CUfunction
  blocks : UInt64
  stream : CUstream
  perThreadDefaultStream : Bool

def BeCall.args (c : BeCall) : LaunchArgs :=
  ⟨c.function, c.blocks, c.stream, c.perThreadDefaultStream⟩

/-- A part of a launch. -/
inductive LaunchOp where
  /-- The driver's launch and the hooks around it. -/
  | launch (role : LaunchRole) (args : LaunchArgs)
  /-- `lilt_graphlet_boundary` -/
  | boundary

section ops

variable {ν : Type}

/-- The loop of `lilt_graph_launch` over the graphlets. -/
def splitOps (stream : CUstream) (ptds : Bool) : List (Graphlet ν) → List LaunchOp
  | [] => []
  | graphlet :: graphlets =>
    .launch .graphlet ⟨.ofNat graphlet.exec, .ofNat graphlet.nodeCount, stream, ptds⟩ ::
      .boundary :: splitOps stream ptds graphlets

/-- `node_count` of the whole path of `lilt_graph_launch`. -/
def wholeNodeCount (metadata : Option (GraphMetadata ν)) : Nat :=
  match metadata with
  | some metadata => if metadata.nodeCount ≠ 0 then metadata.nodeCount else 1
  | none => 1

/-- The whole path of `lilt_graph_launch`. -/
def wholeOps (metadata : Option (GraphMetadata ν)) (exec : CUgraphExec) (stream : CUstream)
    (ptds : Bool) : List LaunchOp :=
  [.launch .whole ⟨.ofNat exec, .ofNat (wholeNodeCount metadata), stream, ptds⟩, .boundary]

/-- What a thread does for an intercepted launch. -/
def callOps (cfg : GraphConfig) (metadata : Option (GraphMetadata ν)) (call : LaunchCall) :
    List LaunchOp :=
  match call.entry with
  | .cuLaunchKernel function grid | .cuLaunchCooperativeKernel function grid
  | .cuLaunchKernelEx function grid =>
    [.launch .kernel ⟨function, grid.blocks, call.stream, call.perThreadDefaultStream⟩]
  | .cuGraphLaunch exec =>
    if splitTaken cfg metadata then
      splitOps call.stream call.perThreadDefaultStream
        ((metadata.map GraphMetadata.graphlets).getD [])
    else wholeOps metadata exec call.stream call.perThreadDefaultStream

/-- The calls of the hooks; a graphlet that the driver refuses is the last one. `launch i` is
the result of the launch `i`. -/
def opHooks (launch : Nat → CUresult) : (i : Nat) → List LaunchOp → List BeHookCall
  | _, [] => []
  | i, .boundary :: ops => .eventBeDrainWindow :: opHooks launch i ops
  | i, .launch role args :: ops =>
    .eventBeBeforeLaunch args.function args.blocks args.stream args.perThreadDefaultStream ::
      .eventBeAfterLaunch args.stream args.perThreadDefaultStream (launch i) ::
        if role = .graphlet ∧ launch i ≠ cudaSuccess then [] else opHooks launch (i + 1) ops

/-! ## The hooks make these calls -/

section hooks

variable {cfg : HookConfig} {capture : CaptureAnswers} {stream : CUstream} {p : Bool}
  (hpolicy : cfg.eventPolicy = true) (hpass : cfg.passthrough = false)
  (hcapture : liltStreamIsCapturing (capture stream p) = false)

include hpolicy hpass hcapture

/-- A launch that is not captured goes through both hooks. -/
theorem hookedLaunch_scheduled (function : CUfunction) (blocks : UInt64) (result : CUresult) :
    hookedLaunch cfg function blocks capture stream p result =
      (false, [.eventBeBeforeLaunch function blocks stream p,
        .eventBeAfterLaunch stream p result]) := by
  simp [hookedLaunch, liltBeforeKernelLaunchEx, liltAfterKernelLaunch, hpolicy, hpass, hcapture]

/-- A launch of a graphlet goes through both hooks. -/
theorem graphHooks_scheduled (exec blocks : Nat) (result : CUresult) (calls : List GraphCall) :
    graphHooks cfg capture false
        (.beforeKernelLaunch exec blocks stream p :: .realLaunch exec stream ::
          .afterKernelLaunch stream p result :: calls) =
      ((graphHooks cfg capture false calls).1,
        .eventBeBeforeLaunch (.ofNat exec) (.ofNat blocks) stream p ::
          .eventBeAfterLaunch stream p result :: (graphHooks cfg capture false calls).2) := by
  simp [graphHooks, graphHook, liltBeforeKernelLaunchEx, liltAfterKernelLaunch, hpolicy, hpass,
    hcapture]

/-- The graphlets of a split launch make the calls their launches stand for. -/
theorem splitOps_hooks {launch : Nat → CUresult} {i : Nat} {result : CUresult}
    {graphlets : List (Graphlet ν)} :
    (graphHooks cfg capture false (splitLaunch stream p launch i result graphlets).1).2 =
      opHooks launch i (splitOps stream p graphlets) := by
  induction graphlets generalizing i result with
  | nil => rfl
  | cons graphlet graphlets ih =>
    unfold splitLaunch splitOps opHooks
    dsimp only
    split
    next hfail =>
      rw [graphHooks_scheduled hpolicy hpass hcapture, if_pos ⟨rfl, hfail⟩]
      rfl
    next hok =>
      rw [if_neg fun h => hok h.2]
      simp only [List.cons_append, List.nil_append]
      rw [graphHooks_scheduled hpolicy hpass hcapture]
      simp only [graphHooks, graphHook, liltGraphletBoundary, hpolicy, hpass, opHooks, ih]
      rfl

end hooks

/-- The hooks of a launch on a stream that is not being captured make the calls that the
thread's operations stand for. -/
theorem callOps_hooks {cfg : GraphConfig} (hpolicy : cfg.eventPolicy = true)
    (hpass : cfg.passthrough = false) {call : LaunchCall}
    (hmode : isGraphLaunch call.entry = true → cfg.mode ≠ .off) {capture : CaptureAnswers}
    (hcapture : liltStreamIsCapturing (capture call.stream call.perThreadDefaultStream) = false)
    (metadata : Option (GraphMetadata ν)) (launch : Nat → CUresult) :
    (beLaunch cfg true false capture metadata call launch).2 =
      opHooks launch 0 (callOps cfg metadata call) := by
  have hpolicy' : (hookConfig cfg).eventPolicy = true := hpolicy
  have hpass' : (hookConfig cfg).passthrough = false := hpass
  unfold beLaunch callOps
  cases hentry : call.entry with
  | cuLaunchKernel function grid | cuLaunchCooperativeKernel function grid =>
    simp only [cuLaunchKernel, cuLaunchCooperativeKernel,
      hookedLaunch_scheduled hpolicy' hpass' hcapture]
    rfl
  | cuLaunchKernelEx function grid =>
    simp only [launchKernelEx, hookedLaunch_scheduled hpolicy' hpass' hcapture]
    rfl
  | cuGraphLaunch exec =>
    have hmode : cfg.mode ≠ .off := hmode (by rw [hentry]; rfl)
    have hoff : (cfg.eventPolicy && decide (cfg.mode = .off)) = false := by simp [hmode]
    dsimp only
    unfold liltGraphLaunch
    rw [hoff]
    by_cases hsplit : splitTaken cfg metadata = true
    · rw [hsplit]
      exact splitOps_hooks hpolicy' hpass' hcapture
    · rw [Bool.eq_false_iff.mpr hsplit]
      simp only [Bool.not_true, Bool.false_eq_true, if_false]
      unfold wholeLaunch
      simp only [List.cons_append, List.nil_append]
      rw [graphHooks_scheduled hpolicy' hpass' hcapture]
      cases metadata <;> simp [hpolicy, hpass, wholeOps, opHooks, graphHooks, graphHook,
        liltGraphletBoundary, hpolicy', hpass', wholeNodeCount]

/-- What a thread does of some operations: a launch on a stream that is being captured queues
nothing and has no hooks, and a graphlet that is refused there is the last one. -/
inductive Performs : List LaunchOp → List LaunchOp → Prop
  | nil : Performs [] []
  | scheduled (op : LaunchOp) {ops left : List LaunchOp} (h : Performs ops left) :
      Performs (op :: ops) (op :: left)
  | captured (role : LaunchRole) (args : LaunchArgs) {ops left : List LaunchOp}
      (h : Performs ops left) : Performs (.launch role args :: ops) left
  | refused (args : LaunchArgs) (ops : List LaunchOp) :
      Performs (.launch .graphlet args :: ops) []

/-- No stream is being captured. -/
theorem Performs.all (ops : List LaunchOp) : Performs ops ops := by
  induction ops with
  | nil => exact .nil
  | cons op ops ih => exact .scheduled op ih

/-- A graphlet is followed by a boundary. -/
def Bounded : List LaunchOp → Prop
  | [] => True
  | .boundary :: ops => Bounded ops
  | .launch role _ :: ops => (role = .graphlet → ∃ rest, ops = .boundary :: rest) ∧ Bounded ops

/-- No launch of a graphlet is longer than the driver can say. -/
theorem splitOps_bounded (stream : CUstream) (ptds : Bool) (graphlets : List (Graphlet ν)) :
    Bounded (splitOps stream ptds graphlets) := by
  induction graphlets with
  | nil => trivial
  | cons graphlet graphlets ih => exact ⟨fun _ => ⟨_, rfl⟩, ih⟩

/-- Nor is any launch of a call. -/
theorem callOps_bounded (cfg : GraphConfig) (metadata : Option (GraphMetadata ν))
    (call : LaunchCall) : Bounded (callOps cfg metadata call) := by
  unfold callOps
  cases call.entry with
  | cuGraphLaunch exec =>
    dsimp only
    split
    · exact splitOps_bounded ..
    · exact ⟨by rintro ⟨⟩, trivial⟩
  | _ => exact ⟨by rintro ⟨⟩, trivial⟩

/-- What is left of the launches is bounded as well. -/
theorem Performs.bounded {ops left : List LaunchOp} (h : Performs ops left)
    (hops : Bounded ops) : Bounded left := by
  induction h with
  | nil => trivial
  | @scheduled op ops left h ih =>
    cases op with
    | boundary => exact ih hops
    | launch role args =>
      refine ⟨fun hrole => ?_, ih hops.2⟩
      -- a boundary is not captured
      obtain ⟨rest, rfl⟩ := hops.1 hrole
      cases h with
      | scheduled op h => exact ⟨_, rfl⟩
  | captured role args h ih => exact ih hops.2
  | refused args ops => trivial

end ops

/-! ## The threads -/

/-- The threads of a BE process and the segment it shares with the HP process. -/
structure BeThreads where
  shared : EventShared
  process : BeProcess
  /-- What is left of the launch a thread is in. -/
  todo : Thread → List LaunchOp
  /-- The thread that holds `g_graph_lock`, if it does so for a whole launch. -/
  graphLock : Option Thread
  /-- The work that was queued for graphs that are not split. -/
  wholes : List (Ticket GpuStream)
  /-- The work that was queued for the graphlets of the launch a thread is in, newest
  first. -/
  done : Thread → List (Ticket GpuStream)

namespace BeThreads

/-- The driver was called to launch; `k` is the work it queues. -/
def launched (s : BeThreads) (role : LaunchRole) (thread : Thread) (k : Ticket GpuStream)
    (ok : Bool) : BeThreads :=
  { s with
    wholes := if ok && role = .whole then k :: s.wholes else s.wholes
    done :=
      if ok && role = .graphlet then Function.update s.done thread (k :: s.done thread)
      else s.done }

/-- The thread goes on with `ops`; a split launch that is over releases `g_graph_lock`. -/
def goesOn (s : BeThreads) (thread : Thread) (ops : List LaunchOp) : BeThreads :=
  { s with
    todo := Function.update s.todo thread ops
    graphLock := if ops.isEmpty && s.graphLock = some thread then none else s.graphLock }

end BeThreads

/-- What follows a launch: nothing after a graphlet that the driver refused. -/
def opsAfter (role : LaunchRole) (work : Option (Ticket GpuStream)) (ops : List LaunchOp) :
    List LaunchOp :=
  if role = .graphlet ∧ work = none then [] else ops

inductive ThreadAction where
  | markActive (now : UInt64)
  | markIdle (now : UInt64)
  | begins (thread : Thread)
  | be (a : BeAction)

/-- The action is no part of a thread's own order: the lock is held, or the device works. -/
def BeAction.WithinHook : BeAction → Prop
  | .before _ | .boundary _ | .launch _ | .after _ | .drained => False
  | _ => True

inductive ThreadStep (ν : Type) (cfg : BeConfig) (fp : BeFloat) (gcfg : GraphConfig)
    (alive : Pid → Bool) : BeThreads → ThreadAction → BeThreads → Prop where
  | markActive (s : BeThreads) (now : UInt64) :
      ThreadStep ν cfg fp gcfg alive s (.markActive now)
        { s with shared := liltEventHpMarkActive s.shared now }
  | markIdle (s : BeThreads) (now : UInt64) :
      ThreadStep ν cfg fp gcfg alive s (.markIdle now)
        { s with shared := liltEventHpMarkIdle s.shared now }
  /-- A graph is looked up under `g_graph_lock`, which a split launch keeps. -/
  | begins (s : BeThreads) (thread : Thread) (call : LaunchCall)
      (metadata : Option (GraphMetadata ν)) (ops : List LaunchOp) (hidle : s.todo thread = [])
      (hmode : isGraphLaunch call.entry = true → gcfg.mode ≠ .off)
      (hlock : isGraphLaunch call.entry = true → s.graphLock = none)
      (hops : Performs (callOps gcfg metadata call) ops) :
      ThreadStep ν cfg fp gcfg alive s (.begins thread)
        { s with
          todo := Function.update s.todo thread ops
          done := Function.update s.done thread []
          graphLock :=
            if isGraphLaunch call.entry && splitTaken gcfg metadata && !ops.isEmpty then
              some thread
            else s.graphLock }
  | before (s : BeThreads) (c : BeCall) (role : LaunchRole) (rest : List LaunchOp)
      (p : BeProcess) (htodo : s.todo c.thread = .launch role c.args :: rest)
      (hstep : BeStep cfg fp s.process (.before c) p) :
      ThreadStep ν cfg fp gcfg alive s (.be (.before c)) { s with process := p }
  | within (s : BeThreads) (a : BeAction) (p : BeProcess) (m : EventShared)
      (ha : a.WithinHook) (hstep : BeStep cfg fp s.process a p)
      (hsees : Sees alive s.shared a m) :
      ThreadStep ν cfg fp gcfg alive s (.be a) { s with process := p, shared := m }
  | launch (s : BeThreads) (c : BeCall) (role : LaunchRole) (rest : List LaunchOp) (ok : Bool)
      (p : BeProcess) (hpc : s.process.pc = .launching c)
      (htodo : s.todo c.thread = .launch role c.args :: rest)
      (hstep : BeStep cfg fp s.process (.launch ok) p) :
      ThreadStep ν cfg fp gcfg alive s (.be (.launch ok))
        { s.launched role c.thread (s.process.device.frontier c.gpuStream) ok with process := p }
  | after (s : BeThreads) (c : BeCall) (work : Option (Ticket GpuStream)) (role : LaunchRole)
      (rest : List LaunchOp) (o : AfterAnswers) (p : BeProcess)
      (hpc : s.process.pc = .launched c work)
      (htodo : s.todo c.thread = .launch role c.args :: rest)
      (hstep : BeStep cfg fp s.process (.after o) p) :
      ThreadStep ν cfg fp gcfg alive s (.be (.after o))
        { s.goesOn c.thread (opsAfter role work rest) with process := p }
  | boundary (s : BeThreads) (thread : Thread) (rest : List LaunchOp) (p : BeProcess)
      (htodo : s.todo thread = .boundary :: rest)
      (hstep : BeStep cfg fp s.process (.boundary thread) p) :
      ThreadStep ν cfg fp gcfg alive s (.be (.boundary thread)) { s with process := p }
  | drained (s : BeThreads) (thread : Thread) (rest : List LaunchOp) (p : BeProcess)
      (hpc : s.process.pc = .draining thread) (htodo : s.todo thread = .boundary :: rest)
      (hstep : BeStep cfg fp s.process .drained p) :
      ThreadStep ν cfg fp gcfg alive s (.be .drained)
        { s.goesOn thread rest with process := p }

/-- The HP process is registered, and no thread has launched yet. -/
structure BeThreads.Starts (alive : Pid → Bool) (s : BeThreads) : Prop where
  registered : ownerIsAlive alive s.shared.hpOwnerPid = true
  process : s.process.Starts
  todo : ∀ thread, s.todo thread = []
  graphLock : s.graphLock = none
  wholes : s.wholes = []
  done : ∀ thread, s.done thread = []

/-- All runs of the threads of a BE process, with graphs over `ν`. -/
def threadSystem (ν : Type) (cfg : BeConfig) (fp : BeFloat) (gcfg : GraphConfig)
    (alive : Pid → Bool) : System BeThreads ThreadAction where
  Init := BeThreads.Starts alive
  Step := ThreadStep ν cfg fp gcfg alive

/-! ## What the threads do to the process -/

section

variable {ν : Type} {cfg : BeConfig} {fp : BeFloat} {gcfg : GraphConfig} {alive : Pid → Bool}
  {s t : BeThreads}

/-- A step of the threads is a step of the process, whose checks find the HP process
registered and pass only while it is not active, or leaves the process alone. -/
theorem thread_step_process {x : ThreadAction}
    (hregistered : ownerIsAlive alive s.shared.hpOwnerPid = true)
    (h : ThreadStep ν cfg fp gcfg alive s x t) :
    ownerIsAlive alive t.shared.hpOwnerPid = true ∧
      ((∃ a, x = .be a ∧ BeStep cfg fp s.process a t.process ∧ a ≠ .ownerCheck false ∧
          (a.Passes → s.shared.hpState ≠ .active)) ∨
        (∀ a, x ≠ .be a) ∧ t.process = s.process) := by
  cases h with
  | markActive now =>
    refine ⟨?_, .inr ⟨by rintro _ ⟨⟩, rfl⟩⟩
    rw [markActive_hpOwnerPid]
    exact hregistered
  | markIdle now =>
    refine ⟨?_, .inr ⟨by rintro _ ⟨⟩, rfl⟩⟩
    rw [markIdle_hpOwnerPid]
    exact hregistered
  | begins thread call metadata ops hidle hmode hlock hops =>
    exact ⟨hregistered, .inr ⟨by rintro _ ⟨⟩, rfl⟩⟩
  | within a p m ha hstep hsees =>
    obtain ⟨rfl, hfound, hpasses⟩ := hsees.of_alive hregistered
    exact ⟨hregistered, .inl ⟨a, rfl, hstep, hfound, hpasses⟩⟩
  | before c role rest p htodo hstep =>
    exact ⟨hregistered, .inl ⟨_, rfl, hstep, by rintro ⟨⟩, False.elim⟩⟩
  | launch c role rest ok p hpc htodo hstep =>
    exact ⟨hregistered, .inl ⟨_, rfl, hstep, by rintro ⟨⟩, False.elim⟩⟩
  | after c work role rest o p hpc htodo hstep =>
    exact ⟨hregistered, .inl ⟨_, rfl, hstep, by rintro ⟨⟩, False.elim⟩⟩
  | boundary thread rest p htodo hstep =>
    exact ⟨hregistered, .inl ⟨_, rfl, hstep, by rintro ⟨⟩, False.elim⟩⟩
  | drained thread rest p hpc htodo hstep =>
    exact ⟨hregistered, .inl ⟨_, rfl, hstep, by rintro ⟨⟩, False.elim⟩⟩

/-- What every step of the process keeps is kept. -/
theorem thread_step_keeps {P : BeProcess → Prop} {x : ThreadAction}
    (hregistered : ownerIsAlive alive s.shared.hpOwnerPid = true)
    (h : ThreadStep ν cfg fp gcfg alive s x t) (hP : P s.process)
    (hkeep : ∀ a, BeStep cfg fp s.process a t.process → P t.process) : P t.process := by
  obtain ⟨-, ⟨a, -, hbe, -⟩ | ⟨-, hsame⟩⟩ := thread_step_process hregistered h
  · exact hkeep a hbe
  · rw [hsame]
    exact hP

/-- The process under the threads runs as it does alone, and the owner is alive while it is
registered. -/
theorem registered_process_reachable (h : (threadSystem ν cfg fp gcfg alive).Reachable s) :
    ownerIsAlive alive s.shared.hpOwnerPid = true ∧ (beSystem cfg fp).Reachable s.process := by
  induction h with
  | init h => exact ⟨h.registered, .init h.process⟩
  | step _ hstep ih =>
    obtain ⟨hregistered, ⟨a, -, hbe, -⟩ | ⟨-, hsame⟩⟩ := thread_step_process ih.1 hstep
    · exact ⟨hregistered, ih.2.step hbe⟩
    · rw [hsame]
      exact ⟨hregistered, ih.2⟩

/-- The process of the threads is one of `Lilt.Be.Process`. -/
theorem process_reachable (h : (threadSystem ν cfg fp gcfg alive).Reachable s) :
    (beSystem cfg fp).Reachable s.process := (registered_process_reachable h).2

/-- A launch that passed admission was found to need it. -/
def Owned (p : BeProcess) : Prop :=
  match p.pc with
  | .launching _ | .launched _ _ => p.owner = true
  | _ => True

/-- A step outside the ways around the scheduler keeps the launch with its owner. -/
theorem owned_step {p p' : BeProcess} {a : BeAction} (hpc : PcFacts cfg p)
    (hbypass : ¬ p.pc.Bypasses) (howned : Owned p) (h : BeStep cfg fp p a p') : Owned p' := by
  cases h with
  | before c h => cases hdone : p.window.startupWaitDone <;> trivial
  | ownerCheck c registered h => cases registered <;> trivial
  | startupAgain c h => exact howned
  | retire thread o h ho =>
    have hsame : (p.retireFrom cfg p.window o p.pc).pc = p.pc := rfl
    unfold Owned at howned ⊢
    rw [hsame]
    exact howned
  | bypassed c h hempty =>
    rw [h] at hbypass
    exact absurd trivial hbypass
  | idle c timing now h =>
    obtain ⟨w, pc, hchosen, rfl | ⟨budget, rfl⟩ | ⟨budget, rfl⟩⟩ :=
      choosePolicy_spec cfg fp p c timing now <;> rw [hchosen] <;> trivial
  | survivalAdmit c timing now w window budget o h hw hwait =>
    rw [PcFacts, h] at hpc
    exact hpc.2
  | timeAdmit c budget o h hwait =>
    rw [PcFacts, h] at hpc
    exact hpc.2
  | blockAdmit c budget o h hwait =>
    rw [PcFacts, h] at hpc
    exact hpc.2
  | launch c h =>
    rw [Owned, h] at howned
    exact howned
  | launchFails c h =>
    rw [Owned, h] at howned
    exact howned
  | complete stream => exact howned
  | _ => trivial

/-- No launch goes around the window. -/
theorem owned_reachable (h : (threadSystem ν cfg fp gcfg alive).Reachable s) :
    ¬ s.process.pc.Bypasses ∧ Owned s.process := by
  have hind : (threadSystem ν cfg fp gcfg alive).Inductive fun s =>
      ¬ s.process.pc.Bypasses ∧ Owned s.process := by
    refine { init := fun s hs => ⟨?_, ?_⟩, step := fun s x t hs hI hstep => ?_ }
    · rw [hs.process.pc]
      exact id
    · rw [Owned, hs.process.pc]
      trivial
    · obtain ⟨hregistered, hprocess⟩ := registered_process_reachable hs
      obtain ⟨-, ⟨a, -, hbe, hfound, -⟩ | ⟨-, hsame⟩⟩ := thread_step_process hregistered hstep
      · exact ⟨bypass_step hI.1 hfound hbe,
          owned_step (windowInv_reachable hprocess).2 hI.1 hI.2 hbe⟩
      · rw [hsame]
        exact hI
  exact hind.reachable h

/-- The thread that launches owns the launch. -/
theorem owner_of_launching (h : (threadSystem ν cfg fp gcfg alive).Reachable s) {c : BeCall}
    (hpc : s.process.pc = .launching c) : s.process.owner = true := by
  obtain ⟨-, howned⟩ := owned_reachable h
  rw [Owned, hpc] at howned
  exact howned

/-- So does the thread behind the driver's call. -/
theorem owner_of_launched (h : (threadSystem ν cfg fp gcfg alive).Reachable s) {c : BeCall}
    {work : Option (Ticket GpuStream)} (hpc : s.process.pc = .launched c work) :
    s.process.owner = true := by
  obtain ⟨-, howned⟩ := owned_reachable h
  rw [Owned, hpc] at howned
  exact howned

end

/-! ## A launch that nothing holds back -/

/-- The steps of such a launch. -/
def BeAction.OfPass : BeAction → Prop
  | .before _ => True
  | .launch ok => ok = true
  | .after o => o = .ok
  | a => a.Unhindered

theorem BeAction.Unhindered.ofPass {a : BeAction} (h : a.Unhindered) :
    a.OfPass ∧ a.WithinHook := by
  cases a <;> first | exact absurd h id | exact ⟨h, trivial⟩

/-- The thread of the call got the driver's answer. -/
def BeThreads.accepted (cfg : BeConfig) (fp : BeFloat) (s : BeThreads) (c : BeCall)
    (role : LaunchRole) : BeThreads :=
  let p := s.process.submits cfg fp c
  { s.launched role c.thread (p.device.frontier c.gpuStream) true with process := p.accepted c }

/-- The launch is over, and the thread goes on with `rest`. -/
def BeThreads.pass (cfg : BeConfig) (fp : BeFloat) (s : BeThreads) (c : BeCall)
    (role : LaunchRole) (rest : List LaunchOp) : BeThreads :=
  { (s.accepted cfg fp c role).goesOn c.thread rest with process := s.process.pass cfg fp c }

section

variable {ν : Type} {cfg : BeConfig} {fp : BeFloat} {gcfg : GraphConfig} {alive : Pid → Bool}
  {C : BeThreads → ThreadAction → Prop} {s : BeThreads} {c : BeCall} {role : LaunchRole}
  {rest : List LaunchOp} (hC : ∀ u a, a.OfPass → C u (.be a))
  (hregistered : ownerIsAlive alive s.shared.hpOwnerPid = true)
  (hidle : s.shared.hpState ≠ .active)

include hC hregistered hidle

/-- Steps of a pass that nothing holds back are steps of the threads. -/
theorem leadsTo_within {p : BeProcess} (h : (unhinderedSystem cfg fp).LeadsTo s.process p) :
    ((threadSystem ν cfg fp gcfg alive).restrict C).LeadsTo s { s with process := p } := by
  refine System.LeadsTo.lift (S := unhinderedSystem cfg fp)
    (f := fun p => { s with process := p }) (fun p a p' hstep => ?_) h
  obtain ⟨hpass, hwithin⟩ := hstep.1.ofPass
  have hthread : ThreadStep ν cfg fp gcfg alive { s with process := p } (.be a)
      { s with process := p' } :=
    .within _ a p' s.shared hwithin hstep.2 (.of_idle hregistered hidle hstep.1)
  exact .step ⟨hC _ a hpass, hthread⟩ (.refl _)

/-- Up to the driver's call. -/
theorem leadsTo_threads_submits (hpc : s.process.pc = .unlocked)
    (htodo : s.todo c.thread = .launch role c.args :: rest)
    (hadmits : (s.process.checked cfg fp c).Admits cfg c) :
    ((threadSystem ν cfg fp gcfg alive).restrict C).LeadsTo s
      { s with process := s.process.submits cfg fp c } := by
  have hbefore : ThreadStep ν cfg fp gcfg alive s (.be (.before c))
      { s with process := s.process.begun c } :=
    .before s c role rest _ htodo (.before _ c hpc)
  exact .step ⟨hC _ (.before c) trivial, hbefore⟩
    (leadsTo_within (s := { s with process := s.process.begun c }) hC hregistered hidle
      (leadsTo_submits hadmits))

/-- The whole launch. -/
theorem leadsTo_threads_pass (hpc : s.process.pc = .unlocked)
    (htodo : s.todo c.thread = .launch role c.args :: rest)
    (hadmits : (s.process.checked cfg fp c).Admits cfg c) :
    ((threadSystem ν cfg fp gcfg alive).restrict C).LeadsTo s (s.pass cfg fp c role rest) := by
  have hlaunching : (s.process.submits cfg fp c).pc = .launching c := passed_pc _ c
  have hlaunch : ThreadStep ν cfg fp gcfg alive { s with process := s.process.submits cfg fp c }
      (.be (.launch true)) (s.accepted cfg fp c role) :=
    .launch _ c role rest true _ hlaunching htodo (step_accepted hlaunching)
  have hafter : ThreadStep ν cfg fp gcfg alive (s.accepted cfg fp c role) (.be (.after .ok))
      (s.pass cfg fp c role rest) := by
    have hrest : opsAfter role
        (some ((s.process.submits cfg fp c).device.frontier c.gpuStream)) rest = rest :=
      if_neg (by rintro ⟨-, ⟨⟩⟩)
    have hstep : ThreadStep ν cfg fp gcfg alive (s.accepted cfg fp c role) (.be (.after .ok)) _ :=
      .after _ c _ role rest .ok _ rfl htodo (step_finished rfl)
    rwa [hrest] at hstep
  exact (leadsTo_threads_submits hC hregistered hidle hpc htodo hadmits).trans
    (.step ⟨hC _ (.launch true) rfl, hlaunch⟩ (.step ⟨hC _ (.after .ok) rfl, hafter⟩ (.refl _)))

end

/-! ## Before a first launch -/

/-- Threads that have not launched yet, with the HP process 10 registered. -/
def startThreads : BeThreads where
  shared := registeredShared
  process := startProcess
  todo _ := []
  graphLock := none
  wholes := []
  done _ := []

def onlyTen (pid : Pid) : Bool := pid = 10

theorem startThreads_starts : startThreads.Starts onlyTen where
  registered := by decide
  process := startProcess_starts
  todo _ := rfl
  graphLock := rfl
  wholes := rfl
  done _ := rfl

end Lilt.Be
