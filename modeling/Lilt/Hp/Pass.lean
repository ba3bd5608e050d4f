import Lilt.Hp.Wakeup

/-!
# One pass of the watcher over a process at rest

Streams are created and destroyed while the process runs; the interposed
`cuStreamDestroy` and `cuStreamDestroy_v2` only forward the call, so a slot keeps
the handle of a stream that is gone. A call that names such a handle fails.

- `HpWorld`: the process and the handles of the streams it destroyed.
- `Consistent`: what holds of the tracker in every run, whatever failed in it.
- `WatcherPass`: the watcher from the top of its loop to the top of its loop, with
  nobody else taking a step.
- `InPass`: where such a pass can be, and what it found out so far.
- `watcherPass_clears_iff`: the pass clears every slot unless one is stranded, its
  record being due on a stream that was destroyed.
-/

namespace Lilt.Hp

open Lilt.Activity Lilt.Driver Gpu Transition

/-! ## Streams that come and go -/

/-- The calls of the watcher in this step that name a stream, with their answers. -/
def watcherAnswers (cfg : HpConfig) (s : HpProcess) (a : WatcherAction) :
    List (CUstream × Bool) :=
  match s.watcher, a with
  | .visiting _ (x :: _) .arriving, .record ok =>
    if recordsDeferred cfg x then [(x.stream, ok)] else []
  | .visiting _ (x :: _) (.streamSynchronizing _), .streamSynchronized ok => [(x.stream, ok)]
  | _, _ => []

/-- The calls of a step that name a stream, with their answers. -/
def streamAnswers (cfg : HpConfig) (s : HpProcess) : HpAction → List (CUstream × Bool)
  | .launch c ok => [(c.stream, ok)]
  | .after c o => [(c.stream, o.recordOk), (c.stream, o.synchronizeOk)]
  | .watcher a => watcherAnswers cfg s a
  | _ => []

/-- An HP process and the handles of the streams that are destroyed. -/
structure HpWorld where
  process : HpProcess
  destroyed : List CUstream

inductive HpWorldAction where
  | process (a : HpAction)
  | create (h : CUstream)
  | destroy (h : CUstream)

/-- The process takes a step other than shutting down, where no call that names a
destroyed stream succeeds, or a stream is created or destroyed. Any other call may
succeed or fail. -/
inductive HpWorldStep (cfg : HpConfig) : HpWorld → HpWorldAction → HpWorld → Prop where
  | process (w : HpWorld) (a : HpAction) (t : HpProcess) (h : HpStep cfg w.process a t)
      (ha : a ≠ .shutdown)
      (hfails : ∀ x ∈ streamAnswers cfg w.process a, x.1 ∈ w.destroyed → x.2 = false) :
      HpWorldStep cfg w (.process a) { w with process := t }
  /-- The driver gives out the handle, maybe one that it gave out before. -/
  | create (w : HpWorld) (h : CUstream) (hh : 2 < h) :
      HpWorldStep cfg w (.create h) { w with destroyed := w.destroyed.filter (· ≠ h) }
  | destroy (w : HpWorld) (h : CUstream) (hh : 2 < h) (hlive : h ∉ w.destroyed) :
      HpWorldStep cfg w (.destroy h) { w with destroyed := h :: w.destroyed }

/-- All runs of an HP process that creates and destroys streams. -/
def hpWorldSystem (cfg : HpConfig) : System HpWorld HpWorldAction where
  Init w := w.process.Starts ∧ w.destroyed = []
  Step := HpWorldStep cfg

/-! ## What holds of the tracker in every run -/

/-- A slot waits for something only if it is active; with no record due, it waits
for a point that its stream has reached or will reach. -/
structure SlotsRecorded (cfg : HpConfig) (slots : SlotIndex → HpEventSlot)
    (d : Device GpuStream) : Prop where
  allocated : ∀ i, (slots i).active = true → (slots i).event ≠ 0
  pending : ∀ i, (slots i).deferredRecordPending = true → cfg.completionMode = .deferred
  recorded : ∀ i, (slots i).active = true → (slots i).deferredRecordPending = false →
    ∀ r ∈ d.recorded (slots i).event, r.pos ≤ d.queued r.stream

/-- The tracker between two steps. -/
structure Consistent (cfg : HpConfig) (s : HpProcess) : Prop where
  publishes : Publishes s.tracker
  inProgress : s.tracker.launchesInProgress = s.calls.length
  running : s.tracker.stop = false
  slots : SlotsRecorded cfg s.tracker.slots s.device

section slots

variable {cfg : HpConfig} {slots slots' : SlotIndex → HpEventSlot} {d d' : Device GpuStream}

theorem SlotsRecorded.usable (h : SlotsRecorded cfg slots d) : SlotsUsable cfg slots :=
  ⟨h.allocated, h.pending⟩

theorem SlotsRecorded.mono (h : SlotsRecorded cfg slots d) (hle : d.Le d')
    (hrec : d'.recorded = d.recorded) : SlotsRecorded cfg slots d' := by
  refine { h with recorded := fun i ha hp r hr => ?_ }
  rw [hrec] at hr
  exact Nat.le_trans (h.recorded i ha hp r hr) (hle.1 r.stream)

/-- An event is recorded at the end of a stream, whichever event and stream. -/
theorem SlotsRecorded.record (h : SlotsRecorded cfg slots d) (e : CUevent) (s : GpuStream) :
    SlotsRecorded cfg slots (d.record e s) := by
  refine { h with recorded := fun i ha hp r hr => ?_ }
  by_cases he : (slots i).event = e
  · subst he
    rw [Device.recorded_record_self] at hr
    cases hr
    exact Nat.le_refl _
  · rw [Device.recorded_record_other _ _ he] at hr
    exact h.recorded i ha hp r hr

theorem SlotsRecorded.deactivate (h : SlotsRecorded cfg slots d)
    (hslots : ∀ i, slots' i = slots i ∨ (slots' i).active = false ∧
      ((slots' i).deferredRecordPending = true → (slots i).deferredRecordPending = true)) :
    SlotsRecorded cfg slots' d := by
  have husable := h.usable.deactivate hslots
  refine { allocated := husable.allocated, pending := husable.pending
           recorded := fun i hi hp => ?_ }
  rcases hslots i with heq | ⟨hinactive, -⟩
  · rw [heq] at hi hp ⊢
    exact h.recorded i hi hp
  · rw [hinactive] at hi
    cases hi

theorem SlotsRecorded.slotGot {t t' : HpTracker} {stream : CUstream} {i : SlotIndex}
    (h : SlotsRecorded cfg t.slots d) (hgot : SlotGot t d stream i t' d') :
    SlotsRecorded cfg t'.slots d' := by
  have husable := h.usable.slotGot hgot
  obtain ⟨hle, hrec⟩ := hgot.device
  refine { allocated := husable.allocated, pending := husable.pending
           recorded := fun j hj hp r hr => ?_ }
  rw [(hgot.flags j).1] at hj
  rw [h.usable.slots_eq hgot hj] at hp hr
  rw [hrec] at hr
  exact Nat.le_trans (h.recorded j hj hp r hr) (hle.1 r.stream)

/-- A slot joined by a launch has its record due, or was just recorded. -/
theorem SlotsRecorded.activate (h : SlotsRecorded cfg slots d) {i : SlotIndex}
    (halloc : (slots i).event ≠ 0) (stream : CUstream) (p : Bool)
    (hrec : (slotTracking cfg (slots i) stream p).deferredRecordPending = false →
      ∀ r ∈ d.recorded (slots i).event, r.pos ≤ d.queued r.stream) :
    SlotsRecorded cfg (Function.update slots i (slotTracking cfg (slots i) stream p)) d := by
  have husable := h.usable.activate halloc stream p
  refine { allocated := husable.allocated, pending := husable.pending
           recorded := fun j hj hp => ?_ }
  by_cases hji : j = i
  · rw [hji, Function.update_self] at hp ⊢
    exact hrec hp
  · rw [Function.update_of_ne hji] at hj hp ⊢
    exact h.recorded j hj hp

end slots

section steps

variable {cfg : HpConfig} {s : HpProcess}

theorem consistent_starts (h : s.Starts) : Consistent cfg s := by
  obtain ⟨ht, hc, -, -⟩ := h
  constructor
  · exact ht ▸ publishes_initial
  · rw [ht, hc]; rfl
  · rw [ht]; rfl
  · rw [ht]
    constructor
    · rintro i ⟨⟩
    · rintro i ⟨⟩
    · rintro i ⟨⟩

/-- A launch that succeeded is tracked: the slots stay recorded. -/
theorem slotsRecorded_trackLaunch {t : HpTracker} {d : Device GpuStream}
    (h : SlotsRecorded cfg t.slots d) (thread : Thread) (stream : CUstream) (p : Bool)
    (o : AfterAnswers) :
    let r := trackLaunch cfg t d thread stream p o
    SlotsRecorded cfg r.tracker.slots r.device ∧ r.tracker.stop = t.stop := by
  rcases trackLaunch_cases cfg t d thread stream p o with
    ⟨i, t₁, d₁, hgot, hr⟩ | ⟨t₁, d₁, hgot, hr⟩
  · rw [hr]
    refine ⟨?_, hgot.stop⟩
    have h₁ := h.slotGot hgot
    dsimp only
    split
    next hnow =>
      refine (h₁.record _ _).activate hgot.allocated stream p fun _ r hr => ?_
      rw [Device.recorded_record_self] at hr
      cases hr
      exact Nat.le_refl _
    next hlater =>
      -- the record is left to the watcher
      refine h₁.activate hgot.allocated stream p fun hp => absurd hlater ?_
      simp only [slotTracking] at hp
      cases hm : cfg.completionMode <;> simp_all
  · rw [hr]
    rcases hgot with ⟨rfl, rfl⟩ | ⟨i, hgot⟩
    · exact ⟨h, rfl⟩
    · exact ⟨h.slotGot hgot, hgot.stop⟩

/-- A launch leaves the hooks. -/
theorem consistent_after (h : Consistent cfg s) {c : HpCall} (hc : c ∈ s.calls)
    (succeeded : Bool) (o : AfterAnswers) :
    Consistent cfg (s.afterLaunch c (eventHpAfterLaunch cfg s.tracker s.device c.thread c.stream
      c.perThreadDefaultStream succeeded o)) := by
  have hlaunch : s.tracker.launchesInProgress ≠ 0 := by
    rw [h.inProgress]
    exact Nat.ne_of_gt (List.length_pos_of_mem hc)
  obtain ⟨hpub, hcount⟩ := publishes_afterLaunch cfg h.publishes hlaunch s.device c.thread
    c.stream c.perThreadDefaultStream succeeded o
  have hslots : SlotsRecorded cfg (eventHpAfterLaunch cfg s.tracker s.device c.thread c.stream
        c.perThreadDefaultStream succeeded o).tracker.slots
      (eventHpAfterLaunch cfg s.tracker s.device c.thread c.stream
        c.perThreadDefaultStream succeeded o).device ∧
      (eventHpAfterLaunch cfg s.tracker s.device c.thread c.stream
        c.perThreadDefaultStream succeeded o).tracker.stop = false := by
    cases succeeded with
    | false => simpa [eventHpAfterLaunch] using ⟨h.slots, h.running⟩
    | true =>
      obtain ⟨hs, hstop⟩ := slotsRecorded_trackLaunch h.slots c.thread c.stream
        c.perThreadDefaultStream o
      simpa [eventHpAfterLaunch] using ⟨hs, hstop.trans h.running⟩
  refine { publishes := hpub, inProgress := ?_, running := hslots.2, slots := hslots.1 }
  show _ = (s.calls.erase c).length
  rw [List.length_erase_of_mem hc, ← h.inProgress]
  exact hcount

theorem slotsRecorded_validateSnapshots {t : HpTracker} {d : Device GpuStream}
    (h : SlotsRecorded cfg t.slots d) (snapshots : List (HpEventWaitSnapshot × Bool)) :
    SlotsRecorded cfg (snapshots.foldl validateSnapshot t).slots d := by
  refine h.deactivate fun i => ?_
  rcases foldl_validateSnapshot_slots t snapshots i with hi | hi
  · exact .inl hi
  · rw [hi]
    exact .inr ⟨rfl, fun hp => by cases hp⟩

theorem validateSnapshots_stop (t : HpTracker) (snapshots : List (HpEventWaitSnapshot × Bool)) :
    (validateSnapshots t snapshots).stop = t.stop := by
  unfold validateSnapshots
  rw [hpPublishIdleLocked_stop]
  induction snapshots generalizing t with
  | nil => rfl
  | cons x rest ih =>
    rw [List.foldl_cons, ih]
    unfold validateSnapshot
    dsimp only
    split <;> rfl

theorem consistent_watcher {t : HpProcess} {a : WatcherAction} (h : Consistent cfg s)
    (hstep : WatcherStep cfg s a t) : Consistent cfg t := by
  -- most steps change nothing but the watcher's own position
  have hmove : ∀ pc, Consistent cfg { s with watcher := pc } := fun pc =>
    { publishes := h.publishes, inProgress := h.inProgress, running := h.running
      slots := h.slots }
  cases hstep with
  | queryPass done _ _ _ _ _ =>
    obtain ⟨hpub, hcount⟩ := publishes_queryActiveEvents h.publishes done
    refine { publishes := hpub, inProgress := hcount.trans h.inProgress, running := ?_
             slots := ?_ }
    · show (queryActiveEvents s.tracker done).stop = false
      unfold queryActiveEvents
      dsimp only
      split
      · exact h.running
      · rw [hpPublishIdleLocked_stop]
        exact h.running
    · refine h.slots.deactivate fun i => ?_
      rw [queryActiveEvents_slots]
      dsimp only
      split
      · exact .inr ⟨rfl, id⟩
      · exact .inl rfl
  | record visited x todo _ _ =>
    exact { publishes := h.publishes, inProgress := h.inProgress, running := h.running
            slots := h.slots.record x.event (x.gpuStream watcherThread) }
  | validate visited phase _ =>
    obtain ⟨hpub, hcount⟩ := publishes_validateSnapshots h.publishes visited
    refine { publishes := hpub, inProgress := hcount.trans h.inProgress
             running := (validateSnapshots_stop ..).trans h.running, slots := ?_ }
    show SlotsRecorded cfg (validateSnapshots s.tracker visited).slots s.device
    unfold validateSnapshots
    rw [hpPublishIdleLocked_slots]
    exact slotsRecorded_validateSnapshots h.slots visited
  | _ => exact hmove _

theorem consistent_step {t : HpProcess} {a : HpAction} (h : Consistent cfg s)
    (hstep : HpStep cfg s a t) (ha : a ≠ .shutdown) : Consistent cfg t := by
  -- the device works, a launch between the hooks is answered
  have hcall : ∀ (c c' : HpCall), c ∈ s.calls → ∀ d', s.device.Le d' →
      d'.recorded = s.device.recorded →
      Consistent cfg { s with device := d', calls := c' :: s.calls.erase c } := by
    intro c c' hc d' hle hrec
    refine { publishes := h.publishes, inProgress := ?_, running := h.running
             slots := h.slots.mono hle hrec }
    show s.tracker.launchesInProgress = (s.calls.erase c).length + 1
    have := List.length_pos_of_mem hc
    rw [List.length_erase_of_mem hc, h.inProgress]
    omega
  cases hstep with
  | before thread stream p startOk ht =>
    refine { publishes := publishes_beforeLaunch h.publishes startOk, inProgress := ?_
             running := ?_, slots := ?_ }
    · rw [beforeLaunch_launchesInProgress, h.inProgress]
      rfl
    · exact (beforeLaunch_stop ..).trans h.running
    · rw [beforeLaunch_slots]
      exact h.slots
  | launch c hc hp => exact hcall c _ hc _ (Device.le_submit ..) rfl
  | launchFails c hc hp => exact hcall c _ hc _ (Device.Le.refl _) rfl
  | after c k o hc hp hsync => exact consistent_after h hc true o
  | afterFailed c o hc hp => exact consistent_after h hc false o
  | complete stream =>
    exact { publishes := h.publishes, inProgress := h.inProgress, running := h.running
            slots := h.slots.mono (Device.le_complete ..) rfl }
  | shutdown => exact absurd rfl ha
  | watcher hw => exact consistent_watcher h hw

end steps

theorem consistent_reachable {cfg : HpConfig} {w : HpWorld}
    (h : (hpWorldSystem cfg).Reachable w) : Consistent cfg w.process := by
  have hind : (hpWorldSystem cfg).Inductive fun w => Consistent cfg w.process := by
    constructor
    · exact fun w hw => consistent_starts hw.1
    · intro w a w' _ hw hstep
      cases hstep with
      | process a t hstep ha _ => exact consistent_step hw hstep ha
      | create h hh => exact hw
      | destroy h hh hlive => exact hw
  exact hind.reachable h

/-! ## A pass -/

/-- The calls of the watcher that name an event only succeed. -/
def EventCallsSucceed (s : HpProcess) : WatcherAction → Prop
  | .queryPass done =>
    ∀ i, (s.tracker.slots i).active = true → s.device.EventDone (s.tracker.slots i).event →
      done i = true
  | .synchronized ok => ok = true
  | _ => True

/-- The driver does what it is asked to, unless a destroyed stream is named. -/
structure Reliable (cfg : HpConfig) (destroyed : List CUstream) (s : HpProcess)
    (a : WatcherAction) : Prop where
  streams : ∀ x ∈ watcherAnswers cfg s a, x.2 = true ↔ x.1 ∉ destroyed
  events : EventCallsSucceed s a

/-- The watcher alone takes steps, up to the next time it is at the top of its
loop. -/
inductive WatcherPass (cfg : HpConfig) (destroyed : List CUstream) :
    HpProcess → HpProcess → Prop where
  | last {s t : HpProcess} {a : WatcherAction} (hr : Reliable cfg destroyed s a)
      (h : WatcherStep cfg s a t) (ht : t.watcher = .top) : WatcherPass cfg destroyed s t
  | more {s t u : HpProcess} {a : WatcherAction} (hr : Reliable cfg destroyed s a)
      (h : WatcherStep cfg s a t) (ht : t.watcher ≠ .top) (hrest : WatcherPass cfg destroyed t u) :
      WatcherPass cfg destroyed s u

/-- No launch is in the hooks and the device has nothing left to do, but the
watcher, at the top of its loop, has a slot to clear. -/
structure HpProcess.AtRest (s : HpProcess) : Prop where
  calls : s.calls = []
  finished : ∀ stream, s.device.queued stream ≤ s.device.completed stream
  active : ∃ i, (s.tracker.slots i).active = true
  top : s.watcher = .top

/-- A pass comes to an end, and every pass leaves no slot active and publishes
IDLE. -/
def HpWorld.ClearsInOnePass (cfg : HpConfig) (w : HpWorld) : Prop :=
  (∃ t, WatcherPass cfg w.destroyed w.process t) ∧
    ∀ t, WatcherPass cfg w.destroyed w.process t →
      (∀ i, (t.tracker.slots i).active = false) ∧ t.tracker.published = .idle

/-- No active slot waits for the watcher to record its event on a stream that is
destroyed. -/
def HpWorld.NoneStranded (w : HpWorld) : Prop :=
  ∀ i, (w.process.tracker.slots i).active = true →
    (w.process.tracker.slots i).deferredRecordPending = true →
    (w.process.tracker.slots i).stream ∉ w.destroyed

/-- What a pass finds out about a snapshot. -/
def clears (cfg : HpConfig) (destroyed : List CUstream) (x : HpEventWaitSnapshot) : Bool :=
  !(recordsDeferred cfg x && decide (x.stream ∈ destroyed))

/-- The snapshots with what the pass finds out about them. -/
def withResults (cfg : HpConfig) (destroyed : List CUstream) (xs : List HpEventWaitSnapshot) :
    List (HpEventWaitSnapshot × Bool) :=
  xs.map fun x => (x, clears cfg destroyed x)

/-- How far the wait for a snapshot is, when every event is done. -/
def PhasePos (cfg : HpConfig) (destroyed : List CUstream) (d : Device GpuStream)
    (x : HpEventWaitSnapshot) : WaitPhase → Prop
  | .arriving => True
  | .recorded => clears cfg destroyed x = true ∧ d.EventDone x.event
  | .synchronizing target => clears cfg destroyed x = true ∧ ∀ r ∈ target, d.Passed r
  | .failed => clears cfg destroyed x = false
  | .streamSynchronizing _ => clears cfg destroyed x = false

/-- Where the watcher can be in a pass over the tracker `t`. -/
def PassPos (cfg : HpConfig) (destroyed : List CUstream) (t : HpTracker)
    (d : Device GpuStream) : WatcherPc → Prop
  | .observing => True
  | .settling g | .slept g | .settled g => g = t.recordGeneration
  | .visiting visited todo phase =>
    ∃ before, before ++ todo = hpSnapshotActiveEventsLocked t ∧
      visited = withResults cfg destroyed before ∧
      ∀ x ∈ todo.head?, PhasePos cfg destroyed d x phase
  | _ => False

/-- `u` is a state between two steps of a pass over the tracker `t`. -/
structure InPass (cfg : HpConfig) (destroyed : List CUstream) (t : HpTracker) (u : HpProcess) :
    Prop where
  tracker : u.tracker = t
  finished : ∀ stream, u.device.queued stream ≤ u.device.completed stream
  done : ∀ x ∈ hpSnapshotActiveEventsLocked t, recordsDeferred cfg x = false →
    u.device.EventDone x.event
  position : PassPos cfg destroyed t u.device u.watcher

/-- The whole pass ended in a state with this tracker. -/
def passResult (cfg : HpConfig) (destroyed : List CUstream) (t : HpTracker) : HpTracker :=
  validateSnapshots t (withResults cfg destroyed (hpSnapshotActiveEventsLocked t))

section pass

variable {cfg : HpConfig} {destroyed : List CUstream} {t : HpTracker} {u v : HpProcess}
  {a : WatcherAction}

theorem clears_eq_false_iff {x : HpEventWaitSnapshot} :
    clears cfg destroyed x = false ↔ recordsDeferred cfg x = true ∧ x.stream ∈ destroyed := by
  simp [clears]

theorem clears_of_not_deferred {x : HpEventWaitSnapshot} (hx : recordsDeferred cfg x = false) :
    clears cfg destroyed x = true := by
  simp [clears, hx]

/-- An event recorded while nothing is left to do is done. -/
theorem eventDone_record {d : Device GpuStream}
    (h : ∀ stream, d.queued stream ≤ d.completed stream) (e : CUevent) (s : GpuStream) :
    (d.record e s).EventDone e := by
  intro r hr
  rw [Device.recorded_record_self] at hr
  cases hr
  exact h s

theorem EventDone.record {d : Device GpuStream} {e : CUevent} (he : d.EventDone e)
    (h : ∀ stream, d.queued stream ≤ d.completed stream) (e' : CUevent) (s : GpuStream) :
    (d.record e' s).EventDone e := by
  by_cases hee : e = e'
  · subst hee
    exact eventDone_record h e s
  · intro r hr
    rw [Device.recorded_record_other _ _ hee] at hr
    exact he r hr

/-- The watcher moves, and nothing else happens. -/
theorem InPass.move (h : InPass cfg destroyed t u) (pc : WatcherPc)
    (hpc : PassPos cfg destroyed t u.device pc) :
    InPass cfg destroyed t { u with watcher := pc } :=
  { tracker := h.tracker, finished := h.finished, done := h.done, position := hpc }

/-- A step of a pass goes on with the pass, or ends it with its result. -/
theorem InPass.step (h : InPass cfg destroyed t u) (hstop : t.stop = false)
    (hcalls : t.launchesInProgress = 0) (hr : Reliable cfg destroyed u a)
    (hstep : WatcherStep cfg u a v) :
    (v.watcher ≠ .top ∧ InPass cfg destroyed t v) ∨
      (v.watcher = .top ∧ v.tracker = passResult cfg destroyed t) := by
  obtain rfl := h.tracker
  have hpos := h.position
  cases hstep with
  | checkStop hpc | checkBlock hpc | checkGo hpc | queryPass _ hpc | wake _ hpc =>
    rw [hpc] at hpos
    exact hpos.elim
  | observe hpc =>
    left
    dsimp only
    split
    · exact ⟨by simp, h.move (.settled _) rfl⟩
    · exact ⟨by simp, h.move (.settling _) rfl⟩
  | settle g hpc =>
    rw [hpc] at hpos
    left
    dsimp only
    rw [hstop]
    exact ⟨by simp, h.move (.slept g) hpos⟩
  | load g hpc =>
    rw [hpc] at hpos
    left
    dsimp only
    have hsame : u.tracker.recordGeneration = g := Eq.symm hpos
    rw [if_pos hsame]
    exact ⟨by simp, h.move (.settled g) hpos⟩
  | snapshotStop g hpc hs =>
    rw [hstop] at hs
    cases hs
  | snapshotRetry g hpc hs hretry =>
    -- nothing was launched since the first load
    rw [hpc] at hpos
    rcases hretry with hgen | hl
    · exact absurd hpos.symm hgen
    · exact absurd hcalls hl
  | snapshot g hpc hs hstable =>
    exact .inl ⟨by simp, h.move (.visiting [] _ .arriving) ⟨[], rfl, rfl, fun _ _ => trivial⟩⟩
  | recordNot visited x todo hpc hx =>
    rw [hpc] at hpos
    obtain ⟨before, hall, hv, -⟩ := hpos
    refine .inl ⟨by simp, h.move _ ⟨before, hall, hv, ?_⟩⟩
    rintro y ⟨⟩
    have hmem : x ∈ hpSnapshotActiveEventsLocked u.tracker := by rw [← hall]; simp
    exact ⟨clears_of_not_deferred hx, h.done x hmem hx⟩
  | record visited x todo hpc hx =>
    have hlive : x.stream ∉ destroyed := by
      refine (hr.streams (x.stream, true) ?_).mp rfl
      simp [watcherAnswers, hpc, hx]
    rw [hpc] at hpos
    obtain ⟨before, hall, hv, -⟩ := hpos
    refine .inl ⟨by simp, { tracker := h.tracker, finished := h.finished, done := ?_
                            position := ⟨before, hall, hv, ?_⟩ }⟩
    · intro y hy hny
      exact EventDone.record (h.done y hy hny) h.finished _ _
    · rintro y ⟨⟩
      exact ⟨by simp [clears, hlive], eventDone_record h.finished _ _⟩
  | recordFails visited x todo hpc hx =>
    have hgone : x.stream ∈ destroyed := by
      have := hr.streams (x.stream, false) (by simp [watcherAnswers, hpc, hx])
      simpa using this
    rw [hpc] at hpos
    obtain ⟨before, hall, hv, -⟩ := hpos
    refine .inl ⟨by simp, h.move _ ⟨before, hall, hv, ?_⟩⟩
    rintro y ⟨⟩
    exact clears_eq_false_iff.mpr ⟨hx, hgone⟩
  | synchronize visited x todo hpc =>
    rw [hpc] at hpos
    obtain ⟨before, hall, hv, hphase⟩ := hpos
    refine .inl ⟨by simp, h.move _ ⟨before, hall, hv, ?_⟩⟩
    rintro y ⟨⟩
    exact hphase x rfl
  | synchronized visited x todo target hpc hd =>
    rw [hpc] at hpos
    obtain ⟨before, hall, hv, hphase⟩ := hpos
    refine .inl ⟨by simp [WatcherPc.visit], h.move _ ⟨before ++ [x], ?_, ?_, fun _ _ => trivial⟩⟩
    · rw [← hall, List.append_assoc]
      rfl
    · rw [hv]
      simp [withResults, (hphase x rfl).1]
  | synchronizeFails visited x todo target hpc =>
    exact absurd hr.events (by simp [EventCallsSucceed])
  | fallBack visited x todo hpc =>
    rw [hpc] at hpos
    obtain ⟨before, hall, hv, hphase⟩ := hpos
    refine .inl ⟨by simp, h.move _ ⟨before, hall, hv, ?_⟩⟩
    rintro y ⟨⟩
    exact hphase x rfl
  | streamSynchronized visited x todo target ok hpc hd =>
    have hok := hr.streams (x.stream, ok) (by simp [watcherAnswers, hpc])
    rw [hpc] at hpos
    obtain ⟨before, hall, hv, hphase⟩ := hpos
    have hgone := clears_eq_false_iff.mp (hphase x rfl)
    have hno : ok = false := Bool.eq_false_iff.mpr fun ho => hok.mp ho hgone.2
    refine .inl ⟨by simp [WatcherPc.visit], h.move _ ⟨before ++ [x], ?_, ?_, fun _ _ => trivial⟩⟩
    · rw [← hall, List.append_assoc]
      rfl
    · have hx : clears cfg destroyed x = false := hphase x rfl
      rw [hv, hno]
      simp [withResults, hx]
  | validate visited phase hpc =>
    rw [hpc] at hpos
    obtain ⟨before, hall, hv, -⟩ := hpos
    rw [List.append_nil] at hall
    refine .inr ⟨rfl, ?_⟩
    show validateSnapshots u.tracker visited = _
    rw [hv, hall]
    rfl

/-- However a pass goes, it ends with its result. -/
theorem InPass.result (h : InPass cfg destroyed t u) (hstop : t.stop = false)
    (hcalls : t.launchesInProgress = 0) (hp : WatcherPass cfg destroyed u v) :
    v.tracker = passResult cfg destroyed t := by
  induction hp with
  | last hr hstep htop =>
    rcases h.step hstop hcalls hr hstep with ⟨hne, -⟩ | ⟨-, hres⟩
    · exact absurd htop hne
    · exact hres
  | more hr hstep hne _ ih =>
    rcases h.step hstop hcalls hr hstep with ⟨-, hin⟩ | ⟨htop, -⟩
    · exact ih hin
    · exact absurd htop hne

/-! ## A pass comes to an end -/

/-- A step that makes no call. -/
theorem Reliable.silent (ha : watcherAnswers cfg u a = []) (he : EventCallsSucceed u a) :
    Reliable cfg destroyed u a :=
  { streams := fun x hx => absurd hx (by simp [ha]), events := he }

/-- A pass can be entered one step earlier. -/
theorem InPass.pass_step (h : InPass cfg destroyed t u) (hstop : t.stop = false)
    (hcalls : t.launchesInProgress = 0) (hstep : WatcherStep cfg u a v)
    (hr : Reliable cfg destroyed u a)
    (hnext : InPass cfg destroyed t v → ∃ w, WatcherPass cfg destroyed v w) :
    ∃ w, WatcherPass cfg destroyed u w := by
  rcases h.step hstop hcalls hr hstep with ⟨hne, hin⟩ | ⟨htop, -⟩
  · obtain ⟨w, hw⟩ := hnext hin
    exact ⟨w, .more hr hstep hne hw⟩
  · exact ⟨v, .last hr hstep htop⟩

/-- The wait for an event that is done returns. -/
theorem InPass.pass_recorded (h : InPass cfg destroyed t u) (hstop : t.stop = false)
    (hcalls : t.launchesInProgress = 0) {visited : List (HpEventWaitSnapshot × Bool)}
    {x : HpEventWaitSnapshot} {todo : List HpEventWaitSnapshot}
    (hpc : u.watcher = .visiting visited (x :: todo) .recorded)
    (hnext : ∀ v, v.watcher = .visit visited x todo true → InPass cfg destroyed t v →
      ∃ w, WatcherPass cfg destroyed v w) :
    ∃ w, WatcherPass cfg destroyed u w := by
  refine h.pass_step hstop hcalls (.synchronize u visited x todo hpc)
    (.silent (by simp [watcherAnswers, hpc]) trivial) fun h₁ => ?_
  have hpassed : ∀ r ∈ u.device.recorded x.event, u.device.Passed r := by
    obtain ⟨before, -, -, hphase⟩ := h₁.position
    exact (hphase x rfl).2
  exact h₁.pass_step hstop hcalls (.synchronized _ visited x todo _ rfl hpassed)
    (.silent (by simp [watcherAnswers]) rfl) (hnext _ rfl)

/-- Neither the record nor the fallback works on a destroyed stream. -/
theorem InPass.pass_stranded (h : InPass cfg destroyed t u) (hstop : t.stop = false)
    (hcalls : t.launchesInProgress = 0) {visited : List (HpEventWaitSnapshot × Bool)}
    {x : HpEventWaitSnapshot} {todo : List HpEventWaitSnapshot}
    (hpc : u.watcher = .visiting visited (x :: todo) .arriving)
    (hx : recordsDeferred cfg x = true) (hgone : x.stream ∈ destroyed)
    (hnext : ∀ v, v.watcher = .visit visited x todo false → InPass cfg destroyed t v →
      ∃ w, WatcherPass cfg destroyed v w) :
    ∃ w, WatcherPass cfg destroyed u w := by
  have hno : ∀ y ∈ [(x.stream, false)], y.2 = true ↔ y.1 ∉ destroyed := by
    intro y hy
    rw [List.mem_singleton.mp hy]
    simpa using hgone
  refine h.pass_step hstop hcalls (.recordFails u visited x todo hpc hx)
    { streams := ?_, events := trivial } fun h₁ => ?_
  · simpa [watcherAnswers, hpc, hx] using hno
  refine h₁.pass_step hstop hcalls (.fallBack _ visited x todo rfl)
    (.silent (by simp [watcherAnswers]) trivial) fun h₂ => ?_
  exact h₂.pass_step hstop hcalls
    (.streamSynchronized _ visited x todo _ false rfl (by rintro ⟨⟩))
    { streams := hno, events := trivial } (hnext _ rfl)

/-- From the next snapshot on, by induction on those to come. -/
theorem InPass.pass_visiting (h : InPass cfg destroyed t u) (hstop : t.stop = false)
    (hcalls : t.launchesInProgress = 0) {visited : List (HpEventWaitSnapshot × Bool)}
    {todo : List HpEventWaitSnapshot} (hpc : u.watcher = .visiting visited todo .arriving) :
    ∃ w, WatcherPass cfg destroyed u w := by
  induction todo generalizing u visited with
  | nil =>
    have hr : Reliable cfg destroyed u .validate :=
      .silent (by simp [watcherAnswers, hpc]) trivial
    exact ⟨_, .last hr (.validate u visited .arriving hpc) rfl⟩
  | cons x todo ih =>
    cases hx : recordsDeferred cfg x with
    | false =>
      refine h.pass_step hstop hcalls (.recordNot u visited x todo hpc hx)
        (.silent (by simp [watcherAnswers, hpc, hx]) trivial) fun h₁ => ?_
      exact h₁.pass_recorded hstop hcalls rfl fun v hv hin => ih hin hv
    | true =>
      by_cases hgone : x.stream ∈ destroyed
      · exact h.pass_stranded hstop hcalls hpc hx hgone fun v hv hin => ih hin hv
      · refine h.pass_step hstop hcalls (.record u visited x todo hpc hx)
          { streams := ?_, events := trivial } fun h₁ => ?_
        · simpa [watcherAnswers, hpc, hx] using hgone
        · exact h₁.pass_recorded hstop hcalls rfl fun v hv hin => ih hin hv

/-- From the settled frontier on. -/
theorem InPass.pass_settled (h : InPass cfg destroyed t u) (hstop : t.stop = false)
    (hcalls : t.launchesInProgress = 0) (hpc : u.watcher = .settled u.tracker.recordGeneration) :
    ∃ w, WatcherPass cfg destroyed u w := by
  obtain rfl := h.tracker
  exact h.pass_step hstop hcalls (.snapshot u _ hpc hstop ⟨rfl, hcalls⟩)
    (.silent (by simp [watcherAnswers, hpc]) trivial) fun h₁ => h₁.pass_visiting hstop hcalls rfl

theorem InPass.pass_observing (h : InPass cfg destroyed t u) (hstop : t.stop = false)
    (hcalls : t.launchesInProgress = 0) (hpc : u.watcher = .observing) :
    ∃ w, WatcherPass cfg destroyed u w := by
  obtain rfl := h.tracker
  refine h.pass_step hstop hcalls (.observe u hpc)
    (.silent (by simp [watcherAnswers, hpc]) trivial) fun h₁ => ?_
  by_cases hquiet : cfg.blockingQuietNs = 0
  · exact h₁.pass_settled hstop hcalls (if_pos hquiet)
  · -- one sleep later the generation is still the one observed
    refine h₁.pass_step hstop hcalls (.settle _ u.tracker.recordGeneration (if_neg hquiet))
      (.silent (by simp [watcherAnswers, hquiet]) trivial) fun h₂ => ?_
    refine h₂.pass_step hstop hcalls (.load _ u.tracker.recordGeneration (by simp [hstop]))
      (.silent (by simp [watcherAnswers, hstop]) trivial) fun h₃ => ?_
    exact h₃.pass_settled hstop hcalls (if_pos rfl)

end pass

/-! ## The result of a pass -/

section result

variable {cfg : HpConfig} {destroyed : List CUstream} {t : HpTracker}

/-- Validation deactivates the slots whose snapshots cleared, if no launch joined
them since. -/
theorem foldl_validateSnapshot_active {xs : List (HpEventWaitSnapshot × Bool)}
    (hxs : ∀ x ∈ xs, (t.slots x.1.slotIndex).event = x.1.event ∧
      (t.slots x.1.slotIndex).generation = x.1.generation) (i : SlotIndex) :
    ((xs.foldl validateSnapshot t).slots i).active = true ↔
      (t.slots i).active = true ∧ ∀ x ∈ xs, x.1.slotIndex = i → x.2 = false := by
  induction xs generalizing t with
  | nil => simp
  | cons x rest ih =>
    have hkeeps : ∀ j, ((validateSnapshot t x).slots j).event = (t.slots j).event ∧
        ((validateSnapshot t x).slots j).generation = (t.slots j).generation := by
      intro j
      unfold validateSnapshot
      dsimp only
      split
      · by_cases hj : j = x.1.slotIndex
        · subst hj
          rw [HpTracker.setSlot_self]
          exact ⟨rfl, rfl⟩
        · rw [HpTracker.setSlot_other _ _ hj]
          exact ⟨rfl, rfl⟩
      · exact ⟨rfl, rfl⟩
    have hactive : ((validateSnapshot t x).slots i).active = true ↔
        (t.slots i).active = true ∧ (x.1.slotIndex = i → x.2 = false) := by
      obtain ⟨he, hg⟩ := hxs x List.mem_cons_self
      unfold validateSnapshot
      by_cases hi : x.1.slotIndex = i
      · subst hi
        cases hok : x.2 <;> cases hact : (t.slots x.1.slotIndex).active <;>
          simp [hact, he, hg]
      · simp only [hi, false_imp_iff, and_true]
        split
        · rw [HpTracker.setSlot_other _ _ (Ne.symm hi)]
        · rfl
    rw [List.foldl_cons, ih fun y hy => ?_, hactive, List.forall_mem_cons, and_assoc]
    obtain ⟨he, hg⟩ := hxs y (List.mem_cons_of_mem _ hy)
    exact ⟨(hkeeps _).1.trans he, (hkeeps _).2.trans hg⟩

/-- The slots that a pass leaves active are the stranded ones. -/
theorem passResult_active (i : SlotIndex) :
    ((passResult cfg destroyed t).slots i).active = true ↔
      (t.slots i).active = true ∧ cfg.completionMode = .deferred ∧
        (t.slots i).deferredRecordPending = true ∧ (t.slots i).stream ∈ destroyed := by
  unfold passResult validateSnapshots
  rw [hpPublishIdleLocked_slots, foldl_validateSnapshot_active]
  · refine and_congr_right fun hi => ?_
    simp only [withResults, List.forall_mem_map, mem_hpSnapshotActiveEventsLocked]
    constructor
    · intro h
      have hx := h _ ⟨i, hi, rfl⟩ rfl
      rw [clears_eq_false_iff] at hx
      simpa [recordsDeferred, and_assoc] using hx
    · rintro h _ ⟨j, -, rfl⟩ rfl
      rw [clears_eq_false_iff]
      simpa [recordsDeferred, and_assoc] using h
  · intro x hx
    obtain ⟨y, hy, rfl⟩ := List.mem_map.mp hx
    obtain ⟨j, -, rfl⟩ := mem_hpSnapshotActiveEventsLocked.mp hy
    exact ⟨rfl, rfl⟩

/-- With no launch in the hooks and no slot active, IDLE is published. -/
theorem Publishes.idle (h : Publishes t) (hcalls : t.launchesInProgress = 0)
    (hidle : ∀ i, (t.slots i).active = false) : (hpPublishIdleLocked t).published = .idle := by
  have hany := (not_hpAnyActiveEventLocked_iff t).mpr hidle
  unfold hpPublishIdleLocked
  split
  · rfl
  next hn =>
    simp only [hcalls, hany, decide_true, Bool.and_true, Bool.not_false] at hn
    rw [h.published, if_neg hn]

theorem queryActiveEvents_idle (h : Publishes t) (hcalls : t.launchesInProgress = 0)
    {done : SlotIndex → Bool}
    (hidle : ∀ i, ((queryActiveEvents t done).slots i).active = false) :
    (queryActiveEvents t done).published = .idle := by
  rw [queryActiveEvents_slots] at hidle
  unfold queryActiveEvents
  dsimp only
  split
  next hany =>
    obtain ⟨i, hi⟩ := (hpAnyActiveEventLocked_iff _).mp hany
    cases (hidle i).symm.trans hi
  next => exact (h.queried done).idle hcalls hidle

end result

section world

variable {cfg : HpConfig} {s : HpProcess}

/-- At rest, the event of an active slot with no record due is done. -/
theorem Consistent.eventDone (h : Consistent cfg s) (hr : s.AtRest) {i : SlotIndex}
    (ha : (s.tracker.slots i).active = true)
    (hp : (s.tracker.slots i).deferredRecordPending = false) :
    s.device.EventDone (s.tracker.slots i).event := by
  intro r hrec
  exact Nat.le_trans (h.slots.recorded i ha hp r hrec) (hr.finished r.stream)

theorem Consistent.launchesInProgress (h : Consistent cfg s) (hr : s.AtRest) :
    s.tracker.launchesInProgress = 0 := by
  rw [h.inProgress, hr.calls]
  rfl

/-- Past its first lock section the watcher is in a pass. -/
theorem Consistent.inPass (h : Consistent cfg s) (hr : s.AtRest) (destroyed : List CUstream) :
    InPass cfg destroyed s.tracker { s with watcher := .observing } := by
  refine { tracker := rfl, finished := hr.finished, done := ?_, position := trivial }
  intro x hx hrec
  obtain ⟨i, hi, rfl⟩ := mem_hpSnapshotActiveEventsLocked.mp hx
  refine h.eventDone hr hi (Bool.eq_false_iff.mpr fun hp => ?_)
  have hm := h.slots.pending i hp
  simp [recordsDeferred, hm, hp] at hrec

/-- The first lock section of a pass over a process at rest finds work to do. -/
theorem Consistent.first_step (h : Consistent cfg s) (hr : s.AtRest) {a : WatcherAction}
    {v : HpProcess} (hstep : WatcherStep cfg s a v) :
    (cfg.completionMode ≠ .query ∧ v = { s with watcher := .observing }) ∨
      ∃ done, a = .queryPass done ∧ cfg.completionMode = .query ∧
        v = { s with tracker := queryActiveEvents s.tracker done } := by
  have htop := hr.top
  cases hstep with
  | checkStop _ hs => cases hs.symm.trans h.running
  | checkBlock _ _ ha =>
    rw [(hpAnyActiveEventLocked_iff s.tracker).mpr hr.active] at ha
    cases ha
  | checkGo _ _ _ hm => exact .inl ⟨hm, rfl⟩
  | queryPass done _ _ _ hm _ => exact .inr ⟨done, rfl, hm, rfl⟩
  | wake _ hpc | observe hpc | settle _ hpc | load _ hpc | snapshotStop _ hpc
  | snapshotRetry _ hpc | snapshot _ hpc | recordNot _ _ _ hpc | record _ _ _ hpc
  | recordFails _ _ _ hpc | synchronize _ _ _ hpc | synchronized _ _ _ _ hpc
  | synchronizeFails _ _ _ _ hpc | fallBack _ _ _ hpc | streamSynchronized _ _ _ _ _ hpc
  | validate _ _ hpc => cases htop.symm.trans hpc

/-- A process at rest, in query mode: the one lock section is the pass. -/
theorem Consistent.query_clears (h : Consistent cfg s) (hr : s.AtRest)
    (hm : cfg.completionMode = .query) (destroyed : List CUstream) :
    (∃ t, WatcherPass cfg destroyed s t) ∧ ∀ t, WatcherPass cfg destroyed s t →
      (∀ i, (t.tracker.slots i).active = false) ∧ t.tracker.published = .idle := by
  have hdone : ∀ i, (s.tracker.slots i).active = true →
      s.device.EventDone (s.tracker.slots i).event := by
    intro i hi
    refine h.eventDone hr hi (Bool.eq_false_iff.mpr fun hp => ?_)
    rw [h.slots.pending i hp] at hm
    cases hm
  constructor
  · have hstep := WatcherStep.queryPass s (fun _ => true) hr.top h.running
      ((hpAnyActiveEventLocked_iff s.tracker).mpr hr.active) hm fun i hi _ => hdone i hi
    have hrel : Reliable cfg destroyed s (.queryPass fun _ => true) :=
      .silent (by simp [watcherAnswers, hr.top]) fun _ _ _ => rfl
    exact ⟨_, .last hrel hstep hr.top⟩
  · -- every query of a pass succeeds
    have hresult : ∀ done, Reliable cfg destroyed s (.queryPass done) →
        (∀ i, ((queryActiveEvents s.tracker done).slots i).active = false) ∧
          (queryActiveEvents s.tracker done).published = .idle := by
      intro done hrel
      have hidle : ∀ i, ((queryActiveEvents s.tracker done).slots i).active = false := by
        intro i
        rw [queryActiveEvents_slots]
        dsimp only
        split
        · rfl
        next hn =>
          refine Bool.eq_false_iff.mpr fun hi => hn ?_
          rw [hi, hrel.events i hi (hdone i hi)]
          rfl
      exact ⟨hidle, queryActiveEvents_idle h.publishes (h.launchesInProgress hr) hidle⟩
    intro t hp
    cases hp with
    | last hrel hstep =>
      rcases h.first_step hr hstep with ⟨hn, -⟩ | ⟨done, rfl, -, rfl⟩
      · exact absurd hm hn
      · exact hresult done hrel
    | more _ hstep hne =>
      rcases h.first_step hr hstep with ⟨hn, -⟩ | ⟨done, -, -, rfl⟩
      · exact absurd hm hn
      · exact absurd hr.top hne

/-- A process at rest, in the other modes: a pass goes past the first lock section,
comes to an end and has its result. -/
theorem Consistent.blocking_result (h : Consistent cfg s) (hr : s.AtRest)
    (hm : cfg.completionMode ≠ .query) (destroyed : List CUstream) :
    (∃ t, WatcherPass cfg destroyed s t) ∧ ∀ t, WatcherPass cfg destroyed s t →
      t.tracker = passResult cfg destroyed s.tracker := by
  have hin := h.inPass hr destroyed
  have hcalls := h.launchesInProgress hr
  constructor
  · obtain ⟨t, ht⟩ := hin.pass_observing h.running hcalls rfl
    have hstep := WatcherStep.checkGo s hr.top h.running
      ((hpAnyActiveEventLocked_iff s.tracker).mpr hr.active) hm
    have hrel : Reliable cfg destroyed s .check :=
      .silent (by simp [watcherAnswers, hr.top]) trivial
    exact ⟨t, .more hrel hstep (by simp) ht⟩
  · intro t hp
    cases hp with
    | last _ hstep htop =>
      rcases h.first_step hr hstep with ⟨-, rfl⟩ | ⟨_, -, hq, -⟩
      · cases htop
      · exact absurd hq hm
    | more _ hstep _ hrest =>
      rcases h.first_step hr hstep with ⟨-, rfl⟩ | ⟨_, -, hq, -⟩
      · exact hin.result h.running hcalls hrest
      · exact absurd hq hm

end world

/-- At rest, a pass clears everything exactly if no slot is stranded. -/
theorem clearsInOnePass_iff {cfg : HpConfig} {w : HpWorld}
    (h : Consistent cfg w.process) (hr : w.process.AtRest) :
    w.ClearsInOnePass cfg ↔ w.NoneStranded := by
  by_cases hm : cfg.completionMode = .query
  · -- no record is ever due in query mode
    refine ⟨fun _ i _ hp => ?_, fun _ => h.query_clears hr hm w.destroyed⟩
    have hd := h.slots.pending i hp
    rw [hm] at hd
    cases hd
  · obtain ⟨⟨t, ht⟩, hall⟩ := h.blocking_result hr hm w.destroyed
    constructor
    · rintro ⟨-, hclears⟩ i ha hp hgone
      have hactive : ((passResult cfg w.destroyed w.process.tracker).slots i).active = true :=
        (passResult_active i).mpr ⟨ha, h.slots.pending i hp, hp, hgone⟩
      have hidle := (hclears t ht).1 i
      rw [hall t ht, hactive] at hidle
      cases hidle
    · intro hnone
      refine ⟨⟨t, ht⟩, fun u hu => ?_⟩
      have hidle (i : SlotIndex) :
          ((passResult cfg w.destroyed w.process.tracker).slots i).active = false := by
        refine Bool.eq_false_iff.mpr fun hi => ?_
        obtain ⟨ha, -, hp, hgone⟩ := passResult_active i |>.mp hi
        exact hnone i ha hp hgone
      obtain ⟨hpub, hcount⟩ := publishes_foldl_validateSnapshot h.publishes
        (withResults cfg w.destroyed (hpSnapshotActiveEventsLocked w.process.tracker))
      rw [hall u hu]
      refine ⟨hidle, hpub.idle (hcount.trans (h.launchesInProgress hr)) ?_⟩
      simpa [passResult, validateSnapshots] using hidle

/-! ## Runs -/

/-- The step strands no slot: in deferred mode no stream is destroyed that an active
slot has a record due on, and no launch leaves the hooks after its stream. -/
def KeepsStreams (cfg : HpConfig) (w : HpWorld) : HpWorldAction → Prop
  | .destroy h =>
    ∀ i, (w.process.tracker.slots i).active = true →
      (w.process.tracker.slots i).deferredRecordPending = true →
      (w.process.tracker.slots i).stream ≠ h
  | .process (.after c _) =>
    cfg.completionMode = .deferred → (∃ k, c.phase = .accepted k) → c.stream ∉ w.destroyed
  | _ => True

/-- A slot with a record due. -/
structure Due (slot : HpEventSlot) : Prop where
  active : slot.active = true
  pending : slot.deferredRecordPending = true

section runs

variable {cfg : HpConfig}

/-- Whatever the watcher does, it makes no record due. -/
theorem due_watcher {s t : HpProcess} {a : WatcherAction} (hstep : WatcherStep cfg s a t)
    {i : SlotIndex} (hi : Due (t.tracker.slots i)) : t.tracker.slots i = s.tracker.slots i := by
  cases hstep with
  | queryPass done =>
    have ha := hi.active
    simp only [queryActiveEvents_slots] at ha ⊢
    split at ha
    · cases ha
    next hn => exact if_neg hn
  | validate visited =>
    have ha := hi.active
    simp only [validateSnapshots, hpPublishIdleLocked_slots] at ha ⊢
    refine (foldl_validateSnapshot_slots s.tracker visited i).resolve_right fun hi => ?_
    rw [hi] at ha
    cases ha
  | _ => rfl

/-- A slot has a record due as before, or for the launch that just left the hooks. -/
theorem due_step {s t : HpProcess} {a : HpAction} (h : Consistent cfg s)
    (hstep : HpStep cfg s a t) {i : SlotIndex} (hi : Due (t.tracker.slots i)) :
    (Due (s.tracker.slots i) ∧ (t.tracker.slots i).stream = (s.tracker.slots i).stream) ∨
      ∃ c o, a = .after c o ∧ (∃ k, c.phase = .accepted k) ∧
        (t.tracker.slots i).stream = c.stream := by
  have hsame : t.tracker.slots i = s.tracker.slots i →
      Due (s.tracker.slots i) ∧ (t.tracker.slots i).stream = (s.tracker.slots i).stream :=
    fun heq => ⟨heq ▸ hi, by rw [heq]⟩
  -- getting a slot activates none
  have hgot : ∀ {t₁ : HpTracker} {d₁ : Device GpuStream} {stream : CUstream} {j : SlotIndex},
      SlotGot s.tracker s.device stream j t₁ d₁ → (t₁.slots i).active = true →
      t₁.slots i = s.tracker.slots i := by
    intro t₁ d₁ stream j hgot ha
    rcases hgot.fresh with ⟨rfl, -⟩ | ⟨hfree, -, rfl⟩
    · rfl
    · refine HpTracker.setSlot_other _ _ fun hij => ?_
      subst hij
      rw [HpTracker.setSlot_self] at ha
      exact h.slots.allocated i ha hfree
  cases hstep with
  | before thread stream p startOk ht => exact .inl (hsame (by rw [beforeLaunch_slots]))
  | launch c hc hp => exact .inl (hsame rfl)
  | launchFails c hc hp => exact .inl (hsame rfl)
  | after c k o hc hp hsync =>
    have hslots : (s.afterLaunch c (eventHpAfterLaunch cfg s.tracker s.device c.thread c.stream
        c.perThreadDefaultStream true o)).tracker.slots =
        (trackLaunch cfg s.tracker s.device c.thread c.stream c.perThreadDefaultStream
          o).tracker.slots := by
      simp [HpProcess.afterLaunch, eventHpAfterLaunch]
    rw [hslots] at hi hsame ⊢
    rcases trackLaunch_cases cfg s.tracker s.device c.thread c.stream c.perThreadDefaultStream o
      with ⟨j, t₁, d₁, hj, hr⟩ | ⟨t₁, d₁, hj, hr⟩
    · rw [hr] at hi hsame ⊢
      by_cases hij : i = j
      · subst hij
        refine .inr ⟨c, o, rfl, ⟨k, hp⟩, ?_⟩
        show ((t₁.setSlot i _).slots i).stream = c.stream
        rw [HpTracker.setSlot_self]
        exact hj.ofStream
      · have hother : (t₁.setSlot j (slotTracking cfg (t₁.slots j) c.stream
            c.perThreadDefaultStream)).slots i = t₁.slots i := HpTracker.setSlot_other _ _ hij
        exact .inl (hsame (hother.trans (hgot hj (hother ▸ hi.active))))
    · rw [hr] at hi hsame ⊢
      rcases hj with ⟨rfl, -⟩ | ⟨j, hj⟩
      · exact .inl (hsame rfl)
      · exact .inl (hsame (hgot hj hi.active))
  | afterFailed c o hc hp =>
    exact .inl (hsame (by simp [HpProcess.afterLaunch, eventHpAfterLaunch]))
  | complete stream => exact .inl (hsame rfl)
  | shutdown => exact .inl (hsame rfl)
  | watcher hw => exact .inl (hsame (due_watcher hw hi))

/-- Steps that strand no slot leave none stranded. -/
theorem noneStranded_step {w v : HpWorld} {a : HpWorldAction} (h : Consistent cfg w.process)
    (hnone : w.NoneStranded) (ha : KeepsStreams cfg w a) (hstep : HpWorldStep cfg w a v) :
    v.NoneStranded := by
  intro i hact hp hgone
  cases hstep with
  | process a t hst hshut =>
    rcases due_step h hst ⟨hact, hp⟩ with ⟨hdue, hs⟩ | ⟨c, o, rfl, hc, hs⟩
    · exact hnone i hdue.active hdue.pending (hs ▸ hgone)
    · have hm := (consistent_step h hst hshut).slots.pending i hp
      exact ha hm hc (hs ▸ hgone)
  | create h hh => exact hnone i hact hp (List.mem_filter.mp hgone).1
  | destroy h hh hlive =>
    rcases List.mem_cons.mp hgone with hgone | hgone
    · exact ha i hact hp hgone
    · exact hnone i hact hp hgone

theorem noneStranded_reachable {w : HpWorld}
    (h : ((hpWorldSystem cfg).restrict (KeepsStreams cfg)).Reachable w) : w.NoneStranded := by
  have hind : ((hpWorldSystem cfg).restrict (KeepsStreams cfg)).Inductive
      HpWorld.NoneStranded := by
    constructor
    · rintro w ⟨-, hd⟩ i - -
      rw [hd]
      exact List.not_mem_nil
    · rintro w a v hw hnone ⟨ha, hstep⟩
      exact noneStranded_step (consistent_reachable hw.of_restrict) hnone ha hstep
  exact hind.reachable h

end runs

/-- In every run, a pass over the process at rest clears it exactly if no slot is
stranded; if no step of the run strands one, it always does. -/
theorem watcherPass_clears_iff (cfg : HpConfig) {tr : List (HpWorld × HpWorldAction)}
    {w : HpWorld} (h : (hpWorldSystem cfg).Run tr w) :
    System.Throughout
        (fun u => u.process.AtRest → (u.ClearsInOnePass cfg ↔ u.NoneStranded)) tr w ∧
      (System.Meets (KeepsStreams cfg) tr →
        System.Throughout (fun u => u.process.AtRest → u.ClearsInOnePass cfg) tr w) := by
  have hiff : ∀ u, (hpWorldSystem cfg).Reachable u → u.process.AtRest →
      (u.ClearsInOnePass cfg ↔ u.NoneStranded) :=
    fun u hu hr => clearsInOnePass_iff (consistent_reachable hu) hr
  refine ⟨h.throughout_of_reachable hiff, fun hC => ?_⟩
  exact (h.restrict hC).throughout_of_reachable fun u hu hr =>
    (hiff u hu.of_restrict hr).mpr (noneStranded_reachable hu)

/-! ## A launch whose stream is destroyed before the watcher gets to it -/

/-- The deferred mode with its default quiet period. -/
def deferredConfig : HpConfig := ⟨.deferred, 20000⟩

/-- The first launch, on the created stream 16, left the hooks and its work is
complete; the watcher has not run yet. -/
def restingWorld : HpWorld where
  process :=
    { tracker :=
        (eventHpAfterLaunch deferredConfig (eventHpBeforeLaunch .initial true)
          ((Device.empty : Device GpuStream).submit (.created 16)) 1 16 false true
          ⟨true, true, true⟩).tracker
      device :=
        (((Device.empty : Device GpuStream).submit (.created 16)).createEvent).complete
          (.created 16)
      calls := []
      watcher := .top
      returned := [(⟨.created 16, 0⟩, some ⟨0, eventMaxStreams_pos⟩)] }
  destroyed := []

theorem restingWorld_atRest : restingWorld.process.AtRest := by
  refine { calls := rfl, finished := fun stream => ?_, active := ⟨0, rfl⟩, top := rfl }
  by_cases hs : stream = .created 16
  · subst hs
    exact Nat.le_refl 1
  · simp [restingWorld, Device.submit, Device.complete, Device.createEvent, Device.empty, hs]

/-- Every call of the run succeeds and no step strands a slot. -/
theorem restingWorld_run : ∃ tr, (hpWorldSystem deferredConfig).Run tr restingWorld ∧
    System.Meets (KeepsStreams deferredConfig) tr := by
  let s₀ : HpProcess := ⟨.initial, .empty, [], .notStarted, []⟩
  let t := eventHpBeforeLaunch .initial true
  let d := (Device.empty : Device GpuStream).submit (.created 16)
  let c₀ : HpCall := ⟨1, 16, false, .entered⟩
  let c : HpCall := ⟨1, 16, false, .accepted ⟨.created 16, 0⟩⟩
  let s₁ : HpProcess := ⟨t, .empty, [c₀], .top, []⟩
  let s₂ : HpProcess := ⟨t, d, [c], .top, []⟩
  let s₃ := s₂.afterLaunch c
    (eventHpAfterLaunch deferredConfig t d 1 16 false true ⟨true, true, true⟩)
  have hnone : ∀ {xs : List (CUstream × Bool)}, ∀ x ∈ xs, x.1 ∈ ([] : List CUstream) →
      x.2 = false := fun _ _ hx => absurd hx List.not_mem_nil
  have h₀ : HpWorldStep deferredConfig ⟨s₀, []⟩ (.create 16) ⟨s₀, []⟩ := .create _ 16 (by decide)
  have h₁ : HpWorldStep deferredConfig ⟨s₀, []⟩ (.process (.before 1 16 false true)) ⟨s₁, []⟩ :=
    .process _ _ s₁ (.before s₀ 1 16 false true (by decide)) (by rintro ⟨⟩) hnone
  have h₂ : HpWorldStep deferredConfig ⟨s₁, []⟩ (.process (.launch c₀ true)) ⟨s₂, []⟩ :=
    .process _ _ s₂ (.launch s₁ c₀ List.mem_cons_self rfl) (by rintro ⟨⟩) hnone
  have h₃ : HpWorldStep deferredConfig ⟨s₂, []⟩ (.process (.after c ⟨true, true, true⟩))
      ⟨s₃, []⟩ :=
    .process _ _ s₃ (.after s₂ c _ _ List.mem_cons_self rfl (by rintro ⟨⟩)) (by rintro ⟨⟩) hnone
  have h₄ : HpWorldStep deferredConfig ⟨s₃, []⟩ (.process (.complete (.created 16)))
      restingWorld :=
    .process _ _ _ (.complete s₃ (.created 16)) (by rintro ⟨⟩) hnone
  refine ⟨_, .step (.step (.step (.step (.step (.init ⟨⟨rfl, rfl, rfl, rfl⟩, rfl⟩) h₀) h₁) h₂)
    h₃) h₄, ?_⟩
  have hkeeps : KeepsStreams deferredConfig ⟨s₂, []⟩ (.process (.after c ⟨true, true, true⟩)) :=
    fun _ _ => List.not_mem_nil
  have hnil : System.Meets (KeepsStreams deferredConfig) [] :=
    fun _ hx => absurd hx List.not_mem_nil
  simp only [System.meets_snoc]
  exact ⟨⟨⟨⟨⟨hnil, trivial⟩, trivial⟩, trivial⟩, hkeeps⟩, trivial⟩

/-- The launch is cleared. -/
theorem watcherPass_clears_resting : restingWorld.ClearsInOnePass deferredConfig := by
  obtain ⟨tr, hrun, hkeeps⟩ := restingWorld_run
  exact ((watcherPass_clears_iff deferredConfig hrun).2 hkeeps).2 restingWorld_atRest

/-- If the application destroys the stream first, the watcher is stuck with the
slot: it records no event on the stream and cannot wait for it either. -/
theorem watcherPass_stuck : ∃ w, (hpWorldSystem deferredConfig).Reachable w ∧
    w.process.AtRest ∧ ¬ w.ClearsInOnePass deferredConfig := by
  obtain ⟨tr, hrun, -⟩ := restingWorld_run
  have hreach := System.Reachable.step hrun.reachable
    (HpWorldStep.destroy restingWorld 16 (by decide) List.not_mem_nil)
  refine ⟨_, hreach, restingWorld_atRest, fun hclears => ?_⟩
  have hnone := (clearsInOnePass_iff (consistent_reachable hreach) restingWorld_atRest).mp hclears
  exact hnone 0 rfl rfl List.mem_cons_self

end Lilt.Hp
