import Lilt.Be.Admission
import Lilt.Lib.Transition

/-!
# A BE process

The launches and graphlet boundaries of one BE process, step by step. A launch
holds `g_be_event_lock` from `event_be_before_launch` to `event_be_after_launch`,
so at most one is in progress; what its loops do between two tests of their
conditions is one step, and so is each inspection of the HP process's state.

- `BePc`: where the thread that holds the lock is.
- `BeStep`: the steps, for any answers of the driver, the clock and the HP
  process.
- `beSystem`: all runs.
- `BeProcess.pass`, `leadsTo_pass`: a launch that nothing holds back, as a part of a run.

The process keeps a log of the launches that took a slot and of the retirements,
which the code does not have.
-/

namespace Lilt.Be

open Lilt.Driver Gpu Transition

/-- The arguments of a launch: what `lilt_before_kernel_launch_ex` gets. -/
structure BeCall where
  thread : Thread
  function : CUfunction
  blocks : UInt64
  stream : CUstream
  perThreadDefaultStream : Bool

/-- The stream the call's work is queued on. -/
def BeCall.gpuStream (c : BeCall) : GpuStream :=
  resolve c.stream c.perThreadDefaultStream c.thread

/-- Where the holder of the lock is. -/
inductive BePc where
  | unlocked
  /-- In `event_be_wait_for_hp_registration_locked`. -/
  | startupWait (call : BeCall)
  /-- Before `lilt_event_hp_owner`. -/
  | ownerCheck (call : BeCall)
  /-- Draining the window, since no HP process is registered. -/
  | bypass (call : BeCall)
  /-- In the first `lilt_event_be_wait_until_idle`. -/
  | idleCheck (call : BeCall)
  /-- In `lilt_event_be_wait_until_idle` of the survival loop. -/
  | survivalIdle (call : BeCall)
  /-- Behind it. -/
  | survivalAdmit (call : BeCall)
  /-- At the loop of the time policies. -/
  | timeLoop (call : BeCall) (effectiveBudget : UInt64)
  /-- At the loop of the other policies. -/
  | blockLoop (call : BeCall) (effectiveBudget : UInt64)
  /-- `event_be_before_launch` returned. -/
  | launching (call : BeCall)
  /-- The driver returned, with the work it queued if it accepted the launch. -/
  | launched (call : BeCall) (work : Option (Ticket GpuStream))
  /-- In `lilt_graphlet_boundary`. -/
  | draining (thread : Thread)

/-- A launch that took a slot. -/
structure BeEntry where
  slot : Nat
  work : Ticket GpuStream
  /-- The event that was recorded for it. -/
  event : CUevent
  blocks : UInt64
  predictedNs : UInt64
  /-- It was admitted without a prediction of its own. -/
  unknown : Bool

/-- A BE process and its device. -/
structure BeProcess where
  window : BeWindow
  device : Device GpuStream
  pc : BePc
  /-- The local variable `owner` of `event_be_before_launch`: an HP process was
  registered when the launch began. -/
  owner : Bool
  /-- All work the process queued. -/
  submitted : List (Ticket GpuStream)
  /-- All launches that took a slot, oldest first. -/
  entered : List BeEntry
  /-- All retirements, oldest first: the slot and the event waited for. -/
  retired : List (Nat × CUevent)

/-- The launches in the window, oldest first. -/
def BeProcess.inFlight (s : BeProcess) : List BeEntry := s.entered.drop s.retired.length

inductive BeAction where
  | before (call : BeCall)
  | startupPoll (registered expired : Bool)
  | ownerCheck (registered : Bool)
  | retire (answers : RetireAnswers)
  | bypassed
  | idle (timing : Option HpTiming) (now : UInt64)
  | survivalIdle
  | survivalRetire (timing : Option HpTiming) (now : UInt64) (answers : RetireAnswers)
  | survivalSleep (timing : Option HpTiming) (now : UInt64)
  | survivalAdmit (timing : Option HpTiming) (now : UInt64) (answers : PrepareAnswers)
  | admission (answers : PrepareAnswers)
  | launch (ok : Bool)
  | after (answers : AfterAnswers)
  | boundary (thread : Thread)
  | drained
  | complete (stream : GpuStream)

/-! ## The parts of a launch -/

/-- The variables `event_be_before_launch` sets first. -/
def BeWindow.resetCurrent (w : BeWindow) (blocks : UInt64) : BeWindow :=
  { w with
    currentLaunchBlocks := blocks
    currentPredictedNs := 0
    currentProfileIndex := none
    currentPredictionUnknown := false
    currentTimingSample := false }

/-- The condition of the loop of the time policies. -/
def timeLoopWaits (cfg : BeConfig) (w : BeWindow) (effectiveBudget : UInt64) : Bool :=
  0 < w.outstandingLaunches &&
    (w.currentPredictionUnknown || cfg.window ≤ w.outstandingLaunches ||
      eventBeTimeExceedsBudget w w.currentPredictedNs effectiveBudget)

/-- The condition of the loop of the other policies. -/
def blockLoopWaits (cfg : BeConfig) (w : BeWindow) (blocks effectiveBudget : UInt64) : Bool :=
  0 < w.outstandingLaunches &&
    (cfg.window ≤ w.outstandingLaunches ||
      cfg.policy ≠ .fixed && eventBeBlocksExceedBudget w blocks effectiveBudget)

/-- The survival loop retires a launch behind this grant. -/
def survivalWaits (w : BeWindow) (grant : Option (Nat × UInt64)) : Bool :=
  match grant with
  | none => 0 < w.outstandingLaunches
  | some (window, budget) =>
    -- a launch with an unknown duration does not share the window
    let window := if w.currentPredictionUnknown then 1 else window
    0 < w.outstandingLaunches &&
      (window ≤ w.outstandingLaunches ||
        eventBeTimeExceedsBudget w w.currentPredictedNs budget)

/-- Where the first idle check leads to. -/
def BeProcess.choosePolicy (cfg : BeConfig) (fp : BeFloat) (s : BeProcess) (c : BeCall)
    (timing : Option HpTiming) (now : UInt64) : BeProcess :=
  match cfg.policy with
  | .survival =>
    { s with
      window := eventBePredictKernelNsLocked cfg s.window c.function c.blocks
      pc := .survivalIdle c }
  | .time | .timeSum =>
    { s with
      window := eventBePredictKernelNsLocked cfg s.window c.function c.blocks
      pc := .timeLoop c (eventBeEffectiveTimeBudgetLocked cfg fp timing now) }
  | .fixed | .blocks | .gap =>
    { s with pc := .blockLoop c (eventBeEffectiveBlockBudgetLocked cfg fp timing now) }

/-- The launch is admitted and uses the window. -/
def BeProcess.admitted (s : BeProcess) (w : BeWindow) (d : Device GpuStream) (c : BeCall) :
    BeProcess :=
  { s with
    window := { w with currentLaunchUsesWindow := true }
    device := d
    pc := .launching c }

/-- The launch is admitted with a timing sample, if one is due. -/
def BeProcess.admittedSampling (s : BeProcess) (w : BeWindow) (c : BeCall)
    (o : PrepareAnswers) : BeProcess :=
  let r := eventBeSampleTiming w s.device c.thread c.stream c.perThreadDefaultStream o
  s.admitted r.1 r.2 c

/-- `event_be_retire_oldest_locked` on a window `w` that is not empty. -/
def BeProcess.retireFrom (cfg : BeConfig) (s : BeProcess) (w : BeWindow) (o : RetireAnswers)
    (pc : BePc) : BeProcess :=
  { s with
    window := eventBeRetireOldestLocked cfg w o
    pc := pc
    retired := s.retired ++ [(w.head, (w.slots w.head).completionEvent)] }

/-- The answers to the wait of `event_be_retire_oldest_locked` by `thread`: a
wait for an event, and the synchronisation of a stream, succeed only when the
work they wait for is complete. -/
structure RetireAllowed (s : BeProcess) (thread : Thread) (o : RetireAnswers) : Prop where
  event : o.synchronizeOk = true →
    s.device.EventDone (s.window.slots s.window.head).completionEvent
  stream : o.synchronizeOk = false → o.streamSynchronizeOk = true → ∀ k ∈ s.submitted,
    k.stream = resolve (s.window.slots s.window.head).stream
      (s.window.slots s.window.head).perThreadDefaultStream thread → s.device.Finished k

/-- `event_be_after_launch` for the call. -/
def BeProcess.afterResult (cfg : BeConfig) (s : BeProcess) (c : BeCall)
    (work : Option (Ticket GpuStream)) (o : AfterAnswers) : AfterResult :=
  eventBeAfterLaunch cfg s.window s.device c.thread c.stream c.perThreadDefaultStream
    work.isSome o

/-- The launch that took the slot at the tail. -/
def BeProcess.entry (s : BeProcess) (r : AfterResult) (k : Ticket GpuStream) : BeEntry where
  slot := s.window.tail
  work := k
  event := (r.window.slots s.window.tail).completionEvent
  blocks := s.window.currentLaunchBlocks
  predictedNs := s.window.currentPredictedNs
  unknown := s.window.currentPredictionUnknown

/-- The process after `event_be_after_launch`. -/
def BeProcess.afterLaunch (s : BeProcess) (work : Option (Ticket GpuStream)) (r : AfterResult) :
    BeProcess :=
  { s with
    window := r.window
    device := r.device
    pc := .unlocked
    entered :=
      match work with
      | some k => if r.enters then s.entered ++ [s.entry r k] else s.entered
      | none => s.entered }

/-! ## The steps -/

/-- The thread that is at a loop that retires launches, while the loop's condition
holds. -/
def BePc.retires (cfg : BeConfig) (w : BeWindow) : BePc → Option Thread
  | .bypass c => if 0 < w.outstandingLaunches then some c.thread else none
  | .timeLoop c budget => if timeLoopWaits cfg w budget then some c.thread else none
  | .blockLoop c budget => if blockLoopWaits cfg w c.blocks budget then some c.thread else none
  | .draining thread => if 0 < w.outstandingLaunches then some thread else none
  | _ => none

inductive BeStep (cfg : BeConfig) (fp : BeFloat) : BeProcess → BeAction → BeProcess → Prop where
  | before (s : BeProcess) (c : BeCall) (h : s.pc = .unlocked) :
      BeStep cfg fp s (.before c)
        { s with
          window := s.window.resetCurrent c.blocks
          pc := if s.window.startupWaitDone then .ownerCheck c else .startupWait c }
  | startupPoll (s : BeProcess) (c : BeCall) (registered expired : Bool)
      (h : s.pc = .startupWait c) (hend : registered = true ∨ expired = true) :
      BeStep cfg fp s (.startupPoll registered expired)
        { s with window := { s.window with startupWaitDone := true }, pc := .ownerCheck c }
  | startupAgain (s : BeProcess) (c : BeCall) (h : s.pc = .startupWait c) :
      BeStep cfg fp s (.startupPoll false false) s
  | ownerCheck (s : BeProcess) (c : BeCall) (registered : Bool) (h : s.pc = .ownerCheck c) :
      BeStep cfg fp s (.ownerCheck registered)
        { s with owner := registered, pc := if registered then .idleCheck c else .bypass c }
  /-- One turn of a loop that retires launches. -/
  | retire (s : BeProcess) (thread : Thread) (o : RetireAnswers)
      (h : s.pc.retires cfg s.window = some thread) (ho : RetireAllowed s thread o) :
      BeStep cfg fp s (.retire o) (s.retireFrom cfg s.window o s.pc)
  | bypassed (s : BeProcess) (c : BeCall) (h : s.pc = .bypass c)
      (hempty : s.window.outstandingLaunches = 0) :
      BeStep cfg fp s .bypassed
        { s with
          window := { s.window with currentLaunchUsesWindow := false }
          pc := .launching c }
  /-- The HP process is found idle, or its wait is cut short. -/
  | idle (s : BeProcess) (c : BeCall) (timing : Option HpTiming) (now : UInt64)
      (h : s.pc = .idleCheck c) :
      BeStep cfg fp s (.idle timing now) (s.choosePolicy cfg fp c timing now)
  | survivalIdle (s : BeProcess) (c : BeCall) (h : s.pc = .survivalIdle c) :
      BeStep cfg fp s .survivalIdle { s with pc := .survivalAdmit c }
  | survivalRetire (s : BeProcess) (c : BeCall) (timing : Option HpTiming) (now : UInt64)
      (w : BeWindow) (grant : Option (Nat × UInt64)) (o : RetireAnswers)
      (h : s.pc = .survivalAdmit c)
      (hw : eventBeSurvivalAdmissionLocked cfg fp s.window timing now
        s.window.currentPredictedNs = (w, grant))
      (hwait : survivalWaits w grant = true) (ho : RetireAllowed s c.thread o) :
      BeStep cfg fp s (.survivalRetire timing now o)
        (s.retireFrom cfg w o (.survivalIdle c))
  | survivalSleep (s : BeProcess) (c : BeCall) (timing : Option HpTiming) (now : UInt64)
      (w : BeWindow) (h : s.pc = .survivalAdmit c)
      (hw : eventBeSurvivalAdmissionLocked cfg fp s.window timing now
        s.window.currentPredictedNs = (w, none))
      (hwait : survivalWaits w none = false) :
      BeStep cfg fp s (.survivalSleep timing now) { s with window := w, pc := .survivalIdle c }
  | survivalAdmit (s : BeProcess) (c : BeCall) (timing : Option HpTiming) (now : UInt64)
      (w : BeWindow) (window : Nat) (budget : UInt64) (o : PrepareAnswers)
      (h : s.pc = .survivalAdmit c)
      (hw : eventBeSurvivalAdmissionLocked cfg fp s.window timing now
        s.window.currentPredictedNs = (w, some (window, budget)))
      (hwait : survivalWaits w (some (window, budget)) = false) :
      BeStep cfg fp s (.survivalAdmit timing now o) (s.admittedSampling w c o)
  | timeAdmit (s : BeProcess) (c : BeCall) (budget : UInt64) (o : PrepareAnswers)
      (h : s.pc = .timeLoop c budget) (hwait : timeLoopWaits cfg s.window budget = false) :
      BeStep cfg fp s (.admission o) (s.admittedSampling s.window c o)
  | blockAdmit (s : BeProcess) (c : BeCall) (budget : UInt64) (o : PrepareAnswers)
      (h : s.pc = .blockLoop c budget)
      (hwait : blockLoopWaits cfg s.window c.blocks budget = false) :
      BeStep cfg fp s (.admission o) (s.admitted s.window s.device c)
  | launch (s : BeProcess) (c : BeCall) (h : s.pc = .launching c) :
      BeStep cfg fp s (.launch true)
        { s with
          device := s.device.submit c.gpuStream
          pc := .launched c (some (s.device.frontier c.gpuStream))
          submitted := s.device.frontier c.gpuStream :: s.submitted }
  | launchFails (s : BeProcess) (c : BeCall) (h : s.pc = .launching c) :
      BeStep cfg fp s (.launch false) { s with pc := .launched c none }
  /-- A fallback synchronisation that succeeds returns after the launch's work is
  complete. -/
  | after (s : BeProcess) (c : BeCall) (work : Option (Ticket GpuStream)) (o : AfterAnswers)
      (h : s.pc = .launched c work)
      (hsync : (s.afterResult cfg c work o).synchronizes = true → o.synchronizeOk = true →
        ∀ k ∈ work, s.device.Finished k) :
      BeStep cfg fp s (.after o) (s.afterLaunch work (s.afterResult cfg c work o))
  | boundary (s : BeProcess) (thread : Thread) (h : s.pc = .unlocked) :
      BeStep cfg fp s (.boundary thread) { s with pc := .draining thread }
  | drained (s : BeProcess) (thread : Thread) (h : s.pc = .draining thread)
      (hempty : s.window.outstandingLaunches = 0) :
      BeStep cfg fp s .drained { s with pc := .unlocked }
  | complete (s : BeProcess) (stream : GpuStream) :
      BeStep cfg fp s (.complete stream) { s with device := s.device.complete stream }

/-- A process that has not launched yet. -/
structure BeProcess.Starts (s : BeProcess) : Prop where
  window : s.window = .initial
  pc : s.pc = .unlocked
  submitted : s.submitted = []
  entered : s.entered = []
  retired : s.retired = []

/-- All runs of a BE process. -/
def beSystem (cfg : BeConfig) (fp : BeFloat) : System BeProcess BeAction where
  Init := BeProcess.Starts
  Step := BeStep cfg fp

/-- The idle check leads to the loop of a policy, with a prediction at most. -/
theorem choosePolicy_spec (cfg : BeConfig) (fp : BeFloat) (s : BeProcess) (c : BeCall)
    (timing : Option HpTiming) (now : UInt64) :
    ∃ w pc, s.choosePolicy cfg fp c timing now = { s with window := w, pc := pc } ∧
      (pc = .survivalIdle c ∨ (∃ budget, pc = .timeLoop c budget) ∨
        ∃ budget, pc = .blockLoop c budget) := by
  unfold BeProcess.choosePolicy
  cases cfg.policy with
  | survival => exact ⟨_, _, rfl, .inl rfl⟩
  | time | timeSum => exact ⟨_, _, rfl, .inr (.inl ⟨_, rfl⟩)⟩
  | fixed | blocks | gap => exact ⟨_, _, rfl, .inr (.inr ⟨_, rfl⟩)⟩

/-! ## A launch that nothing holds back -/

/-- No failure of the driver. -/
def PrepareAnswers.ok : PrepareAnswers := ⟨true, true, true⟩

def AfterAnswers.ok : AfterAnswers := ⟨true, true, true⟩

/-- What a launch does between its first step and the driver's call when it finds the HP
process registered and idle and its loop does not wait. -/
def BeAction.Unhindered : BeAction → Prop
  | .startupPoll registered _ | .ownerCheck registered => registered = true
  | .idle _ _ | .admission _ => True
  | _ => False

/-- The runs that consist of such steps. -/
def unhinderedSystem (cfg : BeConfig) (fp : BeFloat) : System BeProcess BeAction :=
  (beSystem cfg fp).restrict fun _ a => a.Unhindered

/-- The launch holds the lock. -/
def BeProcess.begun (s : BeProcess) (c : BeCall) : BeProcess :=
  { s with
    window := s.window.resetCurrent c.blocks
    pc := if s.window.startupWaitDone then .ownerCheck c else .startupWait c }

/-- It is at the loop of its policy, and found the HP process idle. -/
def BeProcess.checked (cfg : BeConfig) (fp : BeFloat) (s : BeProcess) (c : BeCall) : BeProcess :=
  { s with
    window := { s.window.resetCurrent c.blocks with startupWaitDone := true }
    owner := true
    pc := .idleCheck c }.choosePolicy cfg fp c none 0

/-- It is past the loop. -/
def BeProcess.passed (s : BeProcess) (c : BeCall) : BeProcess :=
  match s.pc with
  | .timeLoop _ _ => s.admittedSampling s.window c .ok
  | _ => s.admitted s.window s.device c

/-- The driver accepted it. -/
def BeProcess.accepted (s : BeProcess) (c : BeCall) : BeProcess :=
  { s with
    device := s.device.submit c.gpuStream
    pc := .launched c (some (s.device.frontier c.gpuStream))
    submitted := s.device.frontier c.gpuStream :: s.submitted }

/-- It is over; `k` is its work. -/
def BeProcess.finished (cfg : BeConfig) (s : BeProcess) (c : BeCall) (k : Ticket GpuStream) :
    BeProcess :=
  s.afterLaunch (some k) (s.afterResult cfg c (some k) .ok)

/-- The driver's call of a launch that nothing holds back. -/
def BeProcess.submits (cfg : BeConfig) (fp : BeFloat) (s : BeProcess) (c : BeCall) : BeProcess :=
  (s.checked cfg fp c).passed c

/-- The whole launch. -/
def BeProcess.pass (cfg : BeConfig) (fp : BeFloat) (s : BeProcess) (c : BeCall) : BeProcess :=
  ((s.submits cfg fp c).accepted c).finished cfg c
    ((s.submits cfg fp c).device.frontier c.gpuStream)

/-- The loop that the process is at does not hold the launch back. -/
def BeProcess.Admits (cfg : BeConfig) (s : BeProcess) (c : BeCall) : Prop :=
  (∃ budget, s.pc = .timeLoop c budget ∧ timeLoopWaits cfg s.window budget = false) ∨
    ∃ budget, s.pc = .blockLoop c budget ∧ blockLoopWaits cfg s.window c.blocks budget = false

/-- With an event for it, the launch needs no synchronisation. -/
theorem afterResult_ok (cfg : BeConfig) (s : BeProcess) (c : BeCall)
    (work : Option (Ticket GpuStream)) :
    (s.afterResult cfg c work .ok).synchronizes = false := by
  unfold BeProcess.afterResult eventBeAfterLaunch
  dsimp only
  split
  · unfold enterWindow
    dsimp only
    split
    · rfl
    next hfails =>
      -- an event is created where there is none
      refine absurd ?_ hfails
      unfold createSlotEvent
      dsimp only
      split
      · simp [BeWindow.enteringSlot, BeWindow.setSlot, AfterAnswers.ok]
      next hcreated =>
        unfold AfterAnswers.ok at hcreated
        simp only [Bool.and_true, Bool.and_eq_true, Bool.not_eq_true', not_and,
          Bool.not_eq_false] at hcreated
        cases hsample : (s.window.assertThat .afterSlotFree
            (!(s.window.slots s.window.tail).active)).currentTimingSample with
        | true => simp [AfterAnswers.ok]
        | false => simp [hcreated hsample, BeWindow.enteringSlot, AfterAnswers.ok]
  · rfl

section

variable {cfg : BeConfig} {fp : BeFloat} {s : BeProcess} {c : BeCall}

/-- One more step that nothing holds back. -/
theorem leadsTo_unhindered {t u : BeProcess} {a : BeAction} (hstep : BeStep cfg fp s a t)
    (ha : a.Unhindered) (h : (unhinderedSystem cfg fp).LeadsTo t u) :
    (unhinderedSystem cfg fp).LeadsTo s u := .step ⟨ha, hstep⟩ h

/-- From the first step of a launch to its loop. -/
theorem leadsTo_checked (s : BeProcess) (c : BeCall) :
    (unhinderedSystem cfg fp).LeadsTo (s.begun c) (s.checked cfg fp c) := by
  -- behind the wait at startup, whether or not it is over already
  have hbehind : (unhinderedSystem cfg fp).LeadsTo
      { s with
        window := { s.window.resetCurrent c.blocks with startupWaitDone := true }
        pc := .ownerCheck c } (s.checked cfg fp c) :=
    leadsTo_unhindered (.ownerCheck _ c true rfl) rfl
      (leadsTo_unhindered (.idle _ c none 0 rfl) trivial (.refl _))
  unfold BeProcess.begun
  cases hdone : s.window.startupWaitDone with
  | true =>
    have hwindow : s.window.resetCurrent c.blocks =
        { s.window.resetCurrent c.blocks with startupWaitDone := true } := by
      simp [BeWindow.resetCurrent, hdone]
    rw [hwindow]
    exact hbehind
  | false =>
    -- the poll finds an owner, which ends the wait
    exact leadsTo_unhindered (.startupPoll _ c true false rfl (.inl rfl)) rfl hbehind

/-- The loop is passed at once. -/
theorem step_passed (h : s.Admits cfg c) : BeStep cfg fp s (.admission .ok) (s.passed c) := by
  rcases h with ⟨budget, hpc, hwait⟩ | ⟨budget, hpc, hwait⟩ <;> unfold BeProcess.passed <;>
    rw [hpc]
  · exact .timeAdmit s c budget .ok hpc hwait
  · exact .blockAdmit s c budget .ok hpc hwait

theorem passed_pc (s : BeProcess) (c : BeCall) : (s.passed c).pc = .launching c := by
  unfold BeProcess.passed
  split <;> rfl

/-- From the first step of a launch to the driver's call. -/
theorem leadsTo_submits (hadmits : (s.checked cfg fp c).Admits cfg c) :
    (unhinderedSystem cfg fp).LeadsTo (s.begun c) (s.submits cfg fp c) :=
  (leadsTo_checked s c).trans (leadsTo_unhindered (step_passed hadmits) trivial (.refl _))

/-- The driver accepts the launch. -/
theorem step_accepted (h : s.pc = .launching c) :
    BeStep cfg fp s (.launch true) (s.accepted c) := .launch s c h

/-- The hook after an accepted launch succeeds in every driver call. -/
theorem step_finished {k : Ticket GpuStream} (h : s.pc = .launched c (some k)) :
    BeStep cfg fp s (.after .ok) (s.finished cfg c k) := by
  refine .after s c (some k) .ok h fun hsync => ?_
  rw [afterResult_ok] at hsync
  cases hsync

/-- A launch that nothing holds back, as a part of a run. -/
theorem leadsTo_pass (h : s.pc = .unlocked) (hadmits : (s.checked cfg fp c).Admits cfg c) :
    (beSystem cfg fp).LeadsTo s (s.pass cfg fp c) := by
  have hbefore : BeStep cfg fp s (.before c) (s.begun c) := .before s c h
  have hbehind : (beSystem cfg fp).LeadsTo (s.submits cfg fp c) (s.pass cfg fp c) :=
    .step (step_accepted (passed_pc _ c)) (.step (step_finished rfl) (.refl _))
  exact .step hbefore ((leadsTo_submits hadmits).of_restrict.trans hbehind)

/-- A boundary that retires the only launch in flight. -/
theorem leadsTo_retired (h : s.pc = .unlocked) (thread : Thread) {o : RetireAnswers}
    (hflight : 0 < s.window.outstandingLaunches) (ho : RetireAllowed s thread o)
    (hempty : (eventBeRetireOldestLocked cfg s.window o).outstandingLaunches = 0) :
    (beSystem cfg fp).LeadsTo s (s.retireFrom cfg s.window o .unlocked) := by
  have hretires : ({ s with pc := .draining thread } : BeProcess).pc.retires cfg s.window =
      some thread := if_pos hflight
  have hretire : BeStep cfg fp { s with pc := .draining thread } (.retire o) _ :=
    .retire _ thread o hretires ⟨ho.event, ho.stream⟩
  exact .step (BeStep.boundary s thread h)
    (.step hretire (.step (BeStep.drained _ thread rfl hempty) (.refl _)))

end

/-! ## First launches -/

/-- A process before its first launch. -/
def startProcess : BeProcess where
  window := .initial
  device := .empty
  pc := .unlocked
  owner := false
  submitted := []
  entered := []
  retired := []

/-- The process whose counters are all zero is a possible start. -/
theorem startProcess_starts : startProcess.Starts := ⟨rfl, rfl, rfl, rfl, rfl⟩

/-- The settings of an empty environment: the policy `fixed`, a window of one. -/
def defaultConfig : BeConfig := eventBeInitializeWindow fun _ => none

/-- The settings of an environment that sets a window of two only. -/
def twoConfig : BeConfig :=
  eventBeInitializeWindow fun name =>
    if name = "LILT_EVENT_BE_WINDOW".toList then some "2".toList else none

/-- No launch of these runs depends on it. -/
def plainFloat : BeFloat := ⟨fun b _ _ _ => b, fun b _ => b, fun _ _ => 0⟩

def oneCall : BeCall where
  thread := 1
  function := 0
  blocks := 8
  stream := 0
  perThreadDefaultStream := false

end Lilt.Be
