import Lilt.Hp.Slots
import Lilt.Lib.Transition

/-!
# The HP process: launching threads, device and watcher thread

All interleavings of the launch hooks, the launches between them, the device's
completions and the watcher thread. A lock section is one step; between its lock
sections the watcher loads the record generation, records events and waits, each
a step of its own. A wait has a call and a return, since work can be queued and
events recorded again between the two.

- `WatcherPc`: where the watcher thread is.
- `WatcherStep`: the three watcher loops.
- `hpSystem`: the whole process.

A driver call that reports success is bound by what it reports: an event is done
or a stream synchronised only when the work it stands for is complete. A call may
always fail instead.
-/

namespace Lilt.Hp

open Lilt.Activity Lilt.Driver Gpu Transition

/-- The watcher thread; no launch is made by it. -/
def watcherThread : Thread := 0

/-- A launch between the two hooks, as far as the driver got with it. -/
inductive CallPhase where
  /-- `event_hp_before_launch` returned. -/
  | entered
  /-- The driver accepted the launch as this item of work. -/
  | accepted (work : Ticket GpuStream)
  /-- The driver returned an error. -/
  | rejected
  deriving DecidableEq

structure HpCall where
  thread : Thread
  stream : CUstream
  perThreadDefaultStream : Bool
  phase : CallPhase
  deriving DecidableEq

/-- The stream that a call of `thread` for this snapshot works on. -/
def HpEventWaitSnapshot.gpuStream (x : HpEventWaitSnapshot) (thread : Thread) : GpuStream :=
  resolve x.stream x.perThreadDefaultStream thread

/-- The watcher's wait for the snapshot at hand. -/
inductive WaitPhase where
  /-- Before the record, if one is due. -/
  | arriving
  /-- Before `cuEventSynchronize`. -/
  | recorded
  /-- In `cuEventSynchronize`; where the event was recorded when it was called. -/
  | synchronizing (target : Option (Ticket GpuStream))
  /-- Before the fallback `cuStreamSynchronize`. -/
  | failed
  /-- In `cuStreamSynchronize`; the end of the stream when it was called. -/
  | streamSynchronizing (target : Ticket GpuStream)

/-- Where the watcher thread is. -/
inductive WatcherPc where
  | notStarted
  /-- Before the lock section at the top of the loop. -/
  | top
  /-- In `pthread_cond_wait`; whether it was signalled since. -/
  | blocked (signalled : Bool)
  /-- In `hp_wait_for_stable_frontier`, before its first load. -/
  | observing
  /-- At its loop head, with the generation loaded last. -/
  | settling (observed : Nat)
  /-- After its sleep. -/
  | slept (observed : Nat)
  /-- Before the lock section that takes the snapshots. -/
  | settled (stable : Nat)
  /-- Waiting: the snapshots dealt with, with their results, and those to come. -/
  | visiting (visited : List (HpEventWaitSnapshot × Bool)) (todo : List HpEventWaitSnapshot)
      (phase : WaitPhase)
  | exited

/-- The HP process and the device. -/
structure HpProcess where
  tracker : HpTracker
  device : Device GpuStream
  /-- The launches that are between the hooks. -/
  calls : List HpCall
  watcher : WatcherPc
  /-- The launches that succeeded and left the hooks, with the slot that tracks
  them, if any. -/
  returned : List (Ticket GpuStream × Option SlotIndex)

/-- What the watcher thread does next, with what the driver answers. -/
inductive WatcherAction where
  | check
  | queryPass (done : SlotIndex → Bool)
  | wake
  | observe
  | settle
  | load
  | snapshot
  | record (ok : Bool)
  | synchronize
  | synchronized (ok : Bool)
  | fallBack
  | streamSynchronized (ok : Bool)
  | validate

/-- A step of the process. -/
inductive HpAction where
  | before (thread : Thread) (stream : CUstream) (perThreadDefaultStream startOk : Bool)
  | launch (call : HpCall) (ok : Bool)
  | after (call : HpCall) (answers : AfterAnswers)
  | complete (stream : GpuStream)
  | shutdown
  | watcher (action : WatcherAction)

/-- `pthread_cond_signal` -/
def WatcherPc.signal : WatcherPc → WatcherPc
  | .blocked _ => .blocked true
  | pc => pc

/-- The watcher is at the next snapshot, having found the result of this one. -/
def WatcherPc.visit (visited : List (HpEventWaitSnapshot × Bool)) (x : HpEventWaitSnapshot)
    (todo : List HpEventWaitSnapshot) (ok : Bool) : WatcherPc :=
  .visiting (visited ++ [(x, ok)]) todo .arriving

/-- Whether the watcher records the event of this snapshot itself. -/
def recordsDeferred (cfg : HpConfig) (x : HpEventWaitSnapshot) : Bool :=
  cfg.completionMode = .deferred && x.deferredRecordPending

/-- The steps of the watcher thread: `hp_event_query_watcher_loop` in query mode,
else `hp_event_blocking_watcher_loop`. -/
inductive WatcherStep (cfg : HpConfig) : HpProcess → WatcherAction → HpProcess → Prop where
  /-- The top of the loop finds the stop flag. -/
  | checkStop (s : HpProcess) (h : s.watcher = .top) (hs : s.tracker.stop = true) :
      WatcherStep cfg s .check { s with watcher := .exited }
  /-- No slot is active. -/
  | checkBlock (s : HpProcess) (h : s.watcher = .top) (hs : s.tracker.stop = false)
      (ha : hpAnyActiveEventLocked s.tracker = false) :
      WatcherStep cfg s .check { s with watcher := .blocked false }
  | checkGo (s : HpProcess) (h : s.watcher = .top) (hs : s.tracker.stop = false)
      (ha : hpAnyActiveEventLocked s.tracker = true) (hm : cfg.completionMode ≠ .query) :
      WatcherStep cfg s .check { s with watcher := .observing }
  /-- In query mode the same lock section goes on to query every active slot. -/
  | queryPass (s : HpProcess) (done : SlotIndex → Bool) (h : s.watcher = .top)
      (hs : s.tracker.stop = false) (ha : hpAnyActiveEventLocked s.tracker = true)
      (hm : cfg.completionMode = .query)
      (hdone : ∀ i, (s.tracker.slots i).active = true → done i = true →
        s.device.EventDone (s.tracker.slots i).event) :
      WatcherStep cfg s (.queryPass done)
        { s with tracker := queryActiveEvents s.tracker done }
  /-- `pthread_cond_wait` returns, signalled or spuriously. -/
  | wake (s : HpProcess) (signalled : Bool) (h : s.watcher = .blocked signalled) :
      WatcherStep cfg s .wake { s with watcher := .top }
  | observe (s : HpProcess) (h : s.watcher = .observing) :
      WatcherStep cfg s .observe
        { s with
          watcher :=
            if cfg.blockingQuietNs = 0 then .settled s.tracker.recordGeneration
            else .settling s.tracker.recordGeneration }
  | settle (s : HpProcess) (observed : Nat) (h : s.watcher = .settling observed) :
      WatcherStep cfg s .settle
        { s with watcher := if s.tracker.stop then .exited else .slept observed }
  | load (s : HpProcess) (observed : Nat) (h : s.watcher = .slept observed) :
      WatcherStep cfg s .load
        { s with
          watcher :=
            if s.tracker.recordGeneration = observed then .settled observed
            else .settling s.tracker.recordGeneration }
  | snapshotStop (s : HpProcess) (stable : Nat) (h : s.watcher = .settled stable)
      (hs : s.tracker.stop = true) :
      WatcherStep cfg s .snapshot { s with watcher := .exited }
  /-- Something was launched meanwhile, or is being launched. -/
  | snapshotRetry (s : HpProcess) (stable : Nat) (h : s.watcher = .settled stable)
      (hs : s.tracker.stop = false)
      (hr : s.tracker.recordGeneration ≠ stable ∨ s.tracker.launchesInProgress ≠ 0) :
      WatcherStep cfg s .snapshot { s with watcher := .top }
  | snapshot (s : HpProcess) (stable : Nat) (h : s.watcher = .settled stable)
      (hs : s.tracker.stop = false)
      (hr : s.tracker.recordGeneration = stable ∧ s.tracker.launchesInProgress = 0) :
      WatcherStep cfg s .snapshot
        { s with
          watcher := .visiting [] (hpSnapshotActiveEventsLocked s.tracker) .arriving }
  | recordNot (s : HpProcess) (visited : List (HpEventWaitSnapshot × Bool))
      (x : HpEventWaitSnapshot) (todo : List HpEventWaitSnapshot)
      (h : s.watcher = .visiting visited (x :: todo) .arriving)
      (hx : recordsDeferred cfg x = false) :
      WatcherStep cfg s (.record true)
        { s with watcher := .visiting visited (x :: todo) .recorded }
  | record (s : HpProcess) (visited : List (HpEventWaitSnapshot × Bool))
      (x : HpEventWaitSnapshot) (todo : List HpEventWaitSnapshot)
      (h : s.watcher = .visiting visited (x :: todo) .arriving)
      (hx : recordsDeferred cfg x = true) :
      WatcherStep cfg s (.record true)
        { s with
          device := s.device.record x.event (x.gpuStream watcherThread)
          watcher := .visiting visited (x :: todo) .recorded }
  | recordFails (s : HpProcess) (visited : List (HpEventWaitSnapshot × Bool))
      (x : HpEventWaitSnapshot) (todo : List HpEventWaitSnapshot)
      (h : s.watcher = .visiting visited (x :: todo) .arriving)
      (hx : recordsDeferred cfg x = true) :
      WatcherStep cfg s (.record false)
        { s with watcher := .visiting visited (x :: todo) .failed }
  | synchronize (s : HpProcess) (visited : List (HpEventWaitSnapshot × Bool))
      (x : HpEventWaitSnapshot) (todo : List HpEventWaitSnapshot)
      (h : s.watcher = .visiting visited (x :: todo) .recorded) :
      WatcherStep cfg s .synchronize
        { s with
          watcher :=
            .visiting visited (x :: todo) (.synchronizing (s.device.recorded x.event)) }
  | synchronized (s : HpProcess) (visited : List (HpEventWaitSnapshot × Bool))
      (x : HpEventWaitSnapshot) (todo : List HpEventWaitSnapshot)
      (target : Option (Ticket GpuStream))
      (h : s.watcher = .visiting visited (x :: todo) (.synchronizing target))
      (hd : ∀ r ∈ target, s.device.Passed r) :
      WatcherStep cfg s (.synchronized true)
        { s with watcher := .visit visited x todo true }
  | synchronizeFails (s : HpProcess) (visited : List (HpEventWaitSnapshot × Bool))
      (x : HpEventWaitSnapshot) (todo : List HpEventWaitSnapshot)
      (target : Option (Ticket GpuStream))
      (h : s.watcher = .visiting visited (x :: todo) (.synchronizing target)) :
      WatcherStep cfg s (.synchronized false)
        { s with watcher := .visiting visited (x :: todo) .failed }
  | fallBack (s : HpProcess) (visited : List (HpEventWaitSnapshot × Bool))
      (x : HpEventWaitSnapshot) (todo : List HpEventWaitSnapshot)
      (h : s.watcher = .visiting visited (x :: todo) .failed) :
      WatcherStep cfg s .fallBack
        { s with
          watcher := .visiting visited (x :: todo)
            (.streamSynchronizing (s.device.frontier (x.gpuStream watcherThread))) }
  | streamSynchronized (s : HpProcess) (visited : List (HpEventWaitSnapshot × Bool))
      (x : HpEventWaitSnapshot) (todo : List HpEventWaitSnapshot)
      (target : Ticket GpuStream) (ok : Bool)
      (h : s.watcher = .visiting visited (x :: todo) (.streamSynchronizing target))
      (hd : ok = true → s.device.Passed target) :
      WatcherStep cfg s (.streamSynchronized ok)
        { s with watcher := .visit visited x todo ok }
  | validate (s : HpProcess) (visited : List (HpEventWaitSnapshot × Bool))
      (phase : WaitPhase) (h : s.watcher = .visiting visited [] phase) :
      WatcherStep cfg s .validate
        { s with tracker := validateSnapshots s.tracker visited, watcher := .top }

/-- A launch leaves the hooks. -/
def HpProcess.afterLaunch (s : HpProcess) (c : HpCall) (r : AfterResult) : HpProcess :=
  { tracker := r.tracker
    device := r.device
    calls := s.calls.erase c
    watcher := if r.signals then s.watcher.signal else s.watcher
    returned :=
      match c.phase with
      | .accepted k => (k, r.slot) :: s.returned
      | _ => s.returned }

/-- The steps of the process. -/
inductive HpStep (cfg : HpConfig) : HpProcess → HpAction → HpProcess → Prop where
  | before (s : HpProcess) (thread : Thread) (stream : CUstream)
      (perThreadDefaultStream startOk : Bool) (ht : thread ≠ watcherThread) :
      HpStep cfg s (.before thread stream perThreadDefaultStream startOk)
        { s with
          tracker := eventHpBeforeLaunch s.tracker startOk
          calls := ⟨thread, stream, perThreadDefaultStream, .entered⟩ :: s.calls
          watcher := if !s.tracker.threadStarted && startOk then .top else s.watcher }
  | launch (s : HpProcess) (c : HpCall) (hc : c ∈ s.calls) (hp : c.phase = .entered) :
      HpStep cfg s (.launch c true)
        { s with
          device := s.device.submit (resolve c.stream c.perThreadDefaultStream c.thread)
          calls :=
            { c with
              phase := .accepted
                (s.device.frontier (resolve c.stream c.perThreadDefaultStream c.thread)) } ::
              s.calls.erase c }
  | launchFails (s : HpProcess) (c : HpCall) (hc : c ∈ s.calls) (hp : c.phase = .entered) :
      HpStep cfg s (.launch c false)
        { s with calls := { c with phase := .rejected } :: s.calls.erase c }
  /-- A fallback synchronisation that succeeds returns after the launch's work,
  and with it everything queued on the stream before, is complete. -/
  | after (s : HpProcess) (c : HpCall) (k : Ticket GpuStream) (o : AfterAnswers)
      (hc : c ∈ s.calls) (hp : c.phase = .accepted k)
      (hsync : (eventHpAfterLaunch cfg s.tracker s.device c.thread c.stream
          c.perThreadDefaultStream true o).synchronizes = true →
        o.synchronizeOk = true → s.device.Finished k) :
      HpStep cfg s (.after c o)
        (s.afterLaunch c (eventHpAfterLaunch cfg s.tracker s.device c.thread c.stream
          c.perThreadDefaultStream true o))
  | afterFailed (s : HpProcess) (c : HpCall) (o : AfterAnswers)
      (hc : c ∈ s.calls) (hp : c.phase = .rejected) :
      HpStep cfg s (.after c o)
        (s.afterLaunch c (eventHpAfterLaunch cfg s.tracker s.device c.thread c.stream
          c.perThreadDefaultStream false o))
  | complete (s : HpProcess) (stream : GpuStream) :
      HpStep cfg s (.complete stream) { s with device := s.device.complete stream }
  /-- The lock section of the destructor. -/
  | shutdown (s : HpProcess) :
      HpStep cfg s .shutdown
        { s with tracker := { s.tracker with stop := true }, watcher := s.watcher.signal }
  | watcher {s t : HpProcess} {a : WatcherAction} (h : WatcherStep cfg s a t) :
      HpStep cfg s (.watcher a) t

/-- A process that has just registered, on any device state in which it created
no event yet. -/
def HpProcess.Starts (s : HpProcess) : Prop :=
  s.tracker = .initial ∧ s.calls = [] ∧ s.watcher = .notStarted ∧ s.returned = []

/-- All runs of an HP process. -/
def hpSystem (cfg : HpConfig) : System HpProcess HpAction where
  Init := HpProcess.Starts
  Step := HpStep cfg

end Lilt.Hp
