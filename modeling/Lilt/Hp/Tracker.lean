import Lilt.Activity.Shared
import Lilt.Driver.Handles
import Lilt.Lib.Device
import Mathlib.Data.List.FinRange

/-!
# The launch tracker of the HP proxy (`hp_intercept.c`)

The state under `g_hp_event_lock` and the functions that run with it held. Every
stream that the process launches on gets a slot with an event of its own; a slot
is active while work it tracks may be incomplete. The process publishes ACTIVE
when a launch enters the hooks and IDLE when no launch is in the hooks and no
slot is active.

- `eventHpBeforeLaunch`, `eventHpAfterLaunch`: the two launch hooks.
- `hpSnapshotActiveEventsLocked`, `validateSnapshots`, `queryActiveEvents`: what
  the watcher thread does with the lock held.

What the driver answers (whether an event was created, recorded, reported done)
is an argument. Statistics counters are left out.
-/

namespace Lilt.Hp

open Lilt.Activity Lilt.Driver Gpu

/-- `event_completion_mode_t` -/
inductive CompletionMode where
  | blocking
  | query
  | deferred
  deriving DecidableEq

/-- What `event_hp_process_start` reads from the environment. -/
structure HpConfig where
  completionMode : CompletionMode
  /-- `g_hp_event_blocking_quiet_ns` -/
  blockingQuietNs : Nat

/-- `EVENT_MAX_STREAMS` -/
abbrev eventMaxStreams : Nat := 64

/-- There is at least one slot. -/
theorem eventMaxStreams_pos : 0 < eventMaxStreams := Nat.zero_lt_succ 63

/-- An index into `g_hp_event_slots`. -/
abbrev SlotIndex := Fin eventMaxStreams

/-- `hp_event_slot_t` -/
structure HpEventSlot where
  stream : CUstream
  event : CUevent
  active : Bool
  perThreadDefaultStream : Bool
  deferredRecordPending : Bool
  /-- A `uint64_t` that each launch in the slot adds one to: no run is long enough for it to
  wrap. -/
  generation : Nat

/-- `hp_event_wait_snapshot_t`, without its result. -/
structure HpEventWaitSnapshot where
  slotIndex : SlotIndex
  stream : CUstream
  event : CUevent
  perThreadDefaultStream : Bool
  deferredRecordPending : Bool
  generation : Nat

/-- What `g_hp_event_lock` protects. -/
structure HpTracker where
  slots : SlotIndex → HpEventSlot
  threadStarted : Bool
  stop : Bool
  stateActive : Bool
  /-- An `unsigned int`, at most one for each thread. -/
  launchesInProgress : Nat
  /-- A `uint64_t`, one for each launch that gets tracked. -/
  recordGeneration : Nat
  /-- The state published last; registering publishes IDLE. -/
  published : HpState

namespace HpTracker

/-- The static data of a process that has registered. -/
def initial : HpTracker where
  slots _ :=
    { stream := 0
      event := 0
      active := false
      perThreadDefaultStream := false
      deferredRecordPending := false
      generation := 0 }
  threadStarted := false
  stop := false
  stateActive := false
  launchesInProgress := 0
  recordGeneration := 0
  published := .idle

def setSlot (t : HpTracker) (i : SlotIndex) (slot : HpEventSlot) : HpTracker :=
  { t with slots := Function.update t.slots i slot }

@[simp] theorem setSlot_self (t : HpTracker) (i : SlotIndex) (slot : HpEventSlot) :
    (t.setSlot i slot).slots i = slot := by simp [setSlot]

/-- The other slots stay as they are. -/
theorem setSlot_other (t : HpTracker) {i j : SlotIndex} (slot : HpEventSlot) (h : j ≠ i) :
    (t.setSlot i slot).slots j = t.slots j := by simp [setSlot, h]

end HpTracker

/-- The first index for which a loop over `g_hp_event_slots` stops. -/
def firstSlot (p : SlotIndex → Bool) : Option SlotIndex :=
  (List.finRange eventMaxStreams).find? p

/-- `hp_any_active_event_locked` -/
def hpAnyActiveEventLocked (t : HpTracker) : Bool :=
  (List.finRange eventMaxStreams).any fun i => (t.slots i).active

/-- `hp_event_slot_locked`: the slot of `stream`, a free one being given to it
if it has none. `createOk`: whether `cuEventCreate` succeeds. -/
def hpEventSlotLocked (t : HpTracker) (d : Device GpuStream) (stream : CUstream)
    (createOk : Bool) : Option SlotIndex × HpTracker × Device GpuStream :=
  match firstSlot fun i => (t.slots i).event ≠ 0 && (t.slots i).stream = stream with
  | some i => (some i, t, d)
  | none =>
    match firstSlot fun i => (t.slots i).event = 0 with
    | none => (none, t, d)
    | some i =>
      if createOk then
        (some i, t.setSlot i { t.slots i with event := d.newEvent, stream := stream },
          d.createEvent)
      else (none, t, d)

/-- `hp_publish_idle_locked` -/
def hpPublishIdleLocked (t : HpTracker) : HpTracker :=
  if t.stateActive && t.launchesInProgress = 0 && !hpAnyActiveEventLocked t then
    { t with published := .idle, stateActive := false }
  else t

/-- `hp_snapshot_active_events_locked` -/
def hpSnapshotActiveEventsLocked (t : HpTracker) : List HpEventWaitSnapshot :=
  (List.finRange eventMaxStreams).filterMap fun i =>
    let slot := t.slots i
    if slot.active then
      some
        { slotIndex := i
          stream := slot.stream
          event := slot.event
          perThreadDefaultStream := slot.perThreadDefaultStream
          deferredRecordPending := slot.deferredRecordPending
          generation := slot.generation }
    else none

/-- `event_hp_start_watcher_locked`; `startOk`: a current context is found and
the thread is created. -/
def eventHpStartWatcherLocked (t : HpTracker) (startOk : Bool) : HpTracker :=
  if t.threadStarted then t else { t with threadStarted := startOk }

/-- `event_hp_before_launch` -/
def eventHpBeforeLaunch (t : HpTracker) (startOk : Bool) : HpTracker :=
  let t := eventHpStartWatcherLocked t startOk
  let t := { t with launchesInProgress := t.launchesInProgress + 1 }
  if t.stateActive then t else { t with published := .active, stateActive := true }

/-- What the driver answers during `event_hp_after_launch`. -/
structure AfterAnswers where
  createOk : Bool
  recordOk : Bool
  synchronizeOk : Bool

/-- What `event_hp_after_launch` did. -/
structure AfterResult where
  tracker : HpTracker
  device : Device GpuStream
  /-- The slot that tracks the launch. -/
  slot : Option SlotIndex
  /-- Whether the stream was synchronised instead. -/
  synchronizes : Bool
  signals : Bool

/-- `per_thread_special_stream` -/
def isPerThreadSpecialStream (stream : CUstream) (perThreadDefaultStream : Bool) : Bool :=
  perThreadDefaultStream && (stream = 0 || stream = 2)

/-- The part of `event_hp_after_launch` for a launch that succeeded: by thread
`thread` on `stream`. -/
def trackLaunch (cfg : HpConfig) (t : HpTracker) (d : Device GpuStream) (thread : Thread)
    (stream : CUstream) (perThreadDefaultStream : Bool) (o : AfterAnswers) : AfterResult :=
  let hadActiveEvent := hpAnyActiveEventLocked t
  match if t.threadStarted then hpEventSlotLocked t d stream o.createOk else (none, t, d) with
  | (some i, t, d) =>
    let slot := t.slots i
    let special := isPerThreadSpecialStream stream perThreadDefaultStream
    let recordsNow := cfg.completionMode ≠ .deferred || special
    if recordsNow && !o.recordOk then
      { tracker := t, device := d, slot := none, synchronizes := true, signals := false }
    else
      { tracker :=
          { t.setSlot i
              { slot with
                active := true
                perThreadDefaultStream := perThreadDefaultStream
                deferredRecordPending := cfg.completionMode = .deferred && !special
                generation := slot.generation + 1 } with
            recordGeneration := t.recordGeneration + 1 }
        device :=
          if recordsNow then d.record slot.event (resolve stream perThreadDefaultStream thread)
          else d
        slot := some i
        synchronizes := false
        signals := !hadActiveEvent }
  | (none, t, d) =>
    { tracker := t, device := d, slot := none, synchronizes := true, signals := false }

/-- `event_hp_after_launch` -/
def eventHpAfterLaunch (cfg : HpConfig) (t : HpTracker) (d : Device GpuStream)
    (thread : Thread) (stream : CUstream) (perThreadDefaultStream : Bool)
    (launchSucceeded : Bool) (o : AfterAnswers) : AfterResult :=
  let r :=
    if launchSucceeded then trackLaunch cfg t d thread stream perThreadDefaultStream o
    else { tracker := t, device := d, slot := none, synchronizes := false, signals := false }
  { r with
    tracker := hpPublishIdleLocked
      { r.tracker with
        launchesInProgress :=
          if 0 < r.tracker.launchesInProgress then r.tracker.launchesInProgress - 1
          else r.tracker.launchesInProgress } }

/-- One snapshot's turn in the validation loop of
`hp_event_blocking_watcher_loop`, with the result of its waits. -/
def validateSnapshot (t : HpTracker) (x : HpEventWaitSnapshot × Bool) : HpTracker :=
  let slot := t.slots x.1.slotIndex
  if x.2 && slot.active && slot.event = x.1.event && slot.generation = x.1.generation then
    t.setSlot x.1.slotIndex { slot with active := false, deferredRecordPending := false }
  else t

/-- The last lock section of `hp_event_blocking_watcher_loop`. -/
def validateSnapshots (t : HpTracker) (snapshots : List (HpEventWaitSnapshot × Bool)) :
    HpTracker :=
  hpPublishIdleLocked (snapshots.foldl validateSnapshot t)

/-- The pass of `hp_event_query_watcher_loop` over the slots; `done i`: the query
of the slot's event, or the wait after a failed query, succeeds. -/
def queryActiveEvents (t : HpTracker) (done : SlotIndex → Bool) : HpTracker :=
  let t :=
    { t with
      slots := fun i =>
        if (t.slots i).active && done i then { t.slots i with active := false }
        else t.slots i }
  if hpAnyActiveEventLocked t then t else hpPublishIdleLocked t

/-! ## What the lock sections change -/

/-- The loop finds an active slot if there is one. -/
theorem hpAnyActiveEventLocked_iff (t : HpTracker) :
    hpAnyActiveEventLocked t = true ↔ ∃ i, (t.slots i).active = true := by
  simp [hpAnyActiveEventLocked]

/-- The watcher takes a snapshot of every active slot, and of no other. -/
theorem mem_hpSnapshotActiveEventsLocked {t : HpTracker} {x : HpEventWaitSnapshot} :
    x ∈ hpSnapshotActiveEventsLocked t ↔ ∃ i, (t.slots i).active = true ∧
      x =
        { slotIndex := i
          stream := (t.slots i).stream
          event := (t.slots i).event
          perThreadDefaultStream := (t.slots i).perThreadDefaultStream
          deferredRecordPending := (t.slots i).deferredRecordPending
          generation := (t.slots i).generation } := by
  unfold hpSnapshotActiveEventsLocked
  rw [List.mem_filterMap]
  constructor
  · rintro ⟨i, -, hi⟩
    dsimp only at hi
    split at hi
    next ha =>
      cases hi
      exact ⟨i, ha, rfl⟩
    next => cases hi
  · rintro ⟨i, ha, rfl⟩
    exact ⟨i, List.mem_finRange i, by simp [ha]⟩

/-- A slot that is found has the property. -/
theorem firstSlot_some {p : SlotIndex → Bool} {i : SlotIndex} (h : firstSlot p = some i) :
    p i = true := List.find?_some h

/-- If none is found, no slot has it. -/
theorem firstSlot_none {p : SlotIndex → Bool} (h : firstSlot p = none) (i : SlotIndex) :
    p i = false :=
  Bool.eq_false_iff.mpr (List.find?_eq_none.mp h i (List.mem_finRange i))

/-- Publishing IDLE changes no slot. -/
@[simp] theorem hpPublishIdleLocked_slots (t : HpTracker) :
    (hpPublishIdleLocked t).slots = t.slots := by
  unfold hpPublishIdleLocked; split <;> rfl

/-- Publishing IDLE does not count a launch out. -/
@[simp] theorem hpPublishIdleLocked_launchesInProgress (t : HpTracker) :
    (hpPublishIdleLocked t).launchesInProgress = t.launchesInProgress := by
  unfold hpPublishIdleLocked; split <;> rfl

/-- `hp_event_slot_locked` returned the slot `i`: it is the stream's, with an
event, and at most its stream and event are new. -/
structure SlotGot (t : HpTracker) (d : Device GpuStream) (stream : CUstream) (i : SlotIndex)
    (t' : HpTracker) (d' : Device GpuStream) : Prop where
  ofStream : (t'.slots i).stream = stream
  allocated : (t'.slots i).event ≠ 0
  /-- Either the slot was the stream's before, or it was free. -/
  fresh : t' = t ∧ d' = d ∨
    (t.slots i).event = 0 ∧ d' = d.createEvent ∧
      t' = t.setSlot i { t.slots i with event := d.newEvent, stream := stream }
  /-- A free slot is taken only if no slot was the stream's. -/
  unkeyed : (t.slots i).event = 0 → ∀ j, (t.slots j).event ≠ 0 → (t.slots j).stream ≠ stream

/-- A slot that was got had an event for the stream, or was free and has a new one. -/
theorem hpEventSlotLocked_some {t t' : HpTracker} {d d' : Device GpuStream}
    {stream : CUstream} {createOk : Bool} {i : SlotIndex}
    (h : hpEventSlotLocked t d stream createOk = (some i, t', d')) :
    SlotGot t d stream i t' d' := by
  unfold hpEventSlotLocked at h
  split at h
  next j hj =>
    cases h
    have := firstSlot_some hj
    simp only [Bool.and_eq_true, decide_eq_true_eq] at this
    exact { ofStream := this.2, allocated := this.1, fresh := .inl ⟨rfl, rfl⟩
            unkeyed := fun hfree => absurd hfree this.1 }
  next hnone =>
    split at h
    next => cases h
    next j hj =>
      cases createOk
      · cases h
      · cases h
        have := firstSlot_some hj
        simp only [decide_eq_true_eq] at this
        exact { ofStream := by simp
                allocated := by simp [Device.newEvent]
                fresh := .inr ⟨this, rfl, rfl⟩
                unkeyed := fun _ l hl hs => by simpa [hl, hs] using firstSlot_none hnone l }

/-- If no slot was got, nothing has changed. -/
theorem hpEventSlotLocked_none {t t' : HpTracker} {d d' : Device GpuStream}
    {stream : CUstream} {createOk : Bool}
    (h : hpEventSlotLocked t d stream createOk = (none, t', d')) : t' = t ∧ d' = d := by
  unfold hpEventSlotLocked at h
  split at h
  next => cases h
  next =>
    split at h
    next => cases h; exact ⟨rfl, rfl⟩
    next =>
      cases createOk
      · cases h; exact ⟨rfl, rfl⟩
      · cases h

/-- The slots after `trackLaunch` made the slot `i` track the launch. -/
def slotTracking (cfg : HpConfig) (slot : HpEventSlot) (stream : CUstream)
    (perThreadDefaultStream : Bool) : HpEventSlot :=
  { slot with
    active := true
    perThreadDefaultStream := perThreadDefaultStream
    deferredRecordPending :=
      cfg.completionMode = .deferred && !isPerThreadSpecialStream stream perThreadDefaultStream
    generation := slot.generation + 1 }

/-- Everything `trackLaunch` can do: a slot was got and tracks the launch, or the
stream is synchronised. -/
theorem trackLaunch_cases (cfg : HpConfig) (t : HpTracker) (d : Device GpuStream)
    (thread : Thread) (stream : CUstream) (perThreadDefaultStream : Bool) (o : AfterAnswers) :
    (∃ i t₁ d₁, SlotGot t d stream i t₁ d₁ ∧
      trackLaunch cfg t d thread stream perThreadDefaultStream o =
        { tracker :=
            { t₁.setSlot i (slotTracking cfg (t₁.slots i) stream perThreadDefaultStream) with
              recordGeneration := t₁.recordGeneration + 1 }
          device :=
            if cfg.completionMode ≠ .deferred ||
                isPerThreadSpecialStream stream perThreadDefaultStream then
              d₁.record (t₁.slots i).event (resolve stream perThreadDefaultStream thread)
            else d₁
          slot := some i
          synchronizes := false
          signals := !hpAnyActiveEventLocked t }) ∨
    ∃ t₁ d₁, ((t₁ = t ∧ d₁ = d) ∨ ∃ i, SlotGot t d stream i t₁ d₁) ∧
      trackLaunch cfg t d thread stream perThreadDefaultStream o =
        { tracker := t₁, device := d₁, slot := none, synchronizes := true, signals := false } := by
  unfold trackLaunch
  dsimp only
  split
  next i t₁ d₁ hgot =>
    have hslot : SlotGot t d stream i t₁ d₁ := by
      split at hgot
      · exact hpEventSlotLocked_some hgot
      · cases hgot
    split
    · -- the record failed
      exact .inr ⟨t₁, d₁, .inr ⟨i, hslot⟩, rfl⟩
    · exact .inl ⟨i, t₁, d₁, hslot, rfl⟩
  next t₁ d₁ hgot =>
    have hsame : t₁ = t ∧ d₁ = d := by
      split at hgot
      · exact hpEventSlotLocked_none hgot
      · cases hgot
        exact ⟨rfl, rfl⟩
    exact .inr ⟨t₁, d₁, .inl hsame, rfl⟩

/-! ## What is published -/

/-- The published state is `g_hp_state_active`, and that is set while a launch is
in the hooks or a slot is active. -/
structure Publishes (t : HpTracker) : Prop where
  launches : t.launchesInProgress ≠ 0 → t.stateActive = true
  slots : ∀ i, (t.slots i).active = true → t.stateActive = true
  published : t.published = if t.stateActive then .active else .idle

/-- Nothing is tracked at the start, and IDLE is published. -/
theorem publishes_initial : Publishes .initial :=
  { launches := fun h => absurd rfl h
    slots := fun _ h => by cases h
    published := rfl }

/-- IDLE is only published when nothing stands against it. -/
theorem Publishes.publishIdle {t : HpTracker} (h : Publishes t) :
    Publishes (hpPublishIdleLocked t) := by
  unfold hpPublishIdleLocked
  split
  next hidle =>
    simp only [Bool.and_eq_true, decide_eq_true_eq, Bool.not_eq_true',
      Bool.eq_false_iff] at hidle
    refine { launches := fun hl => absurd hidle.1.2 hl, slots := fun i hi => ?_
             published := rfl }
    exact absurd ((hpAnyActiveEventLocked_iff t).mpr ⟨i, hi⟩) hidle.2
  next => exact h

/-- Deactivating slots stands against nothing. -/
theorem Publishes.of_slots {t t' : HpTracker} (h : Publishes t)
    (hslots : ∀ i, (t'.slots i).active = true → (t.slots i).active = true)
    (hlaunches : t'.launchesInProgress = t.launchesInProgress)
    (hstate : t'.stateActive = t.stateActive) (hpublished : t'.published = t.published) :
    Publishes t' :=
  { launches := fun hl => hstate ▸ h.launches (hlaunches ▸ hl)
    slots := fun i hi => hstate ▸ h.slots i (hslots i hi)
    published := by rw [hpublished, hstate]; exact h.published }

/-- A launch that enters the hooks publishes ACTIVE. -/
theorem publishes_beforeLaunch {t : HpTracker} (h : Publishes t) (startOk : Bool) :
    Publishes (eventHpBeforeLaunch t startOk) := by
  have hstart : (eventHpStartWatcherLocked t startOk).stateActive = t.stateActive ∧
      (eventHpStartWatcherLocked t startOk).published = t.published := by
    unfold eventHpStartWatcherLocked
    split <;> exact ⟨rfl, rfl⟩
  unfold eventHpBeforeLaunch
  dsimp only
  split
  next ha =>
    refine { launches := fun _ => ha, slots := fun _ _ => ha, published := ?_ }
    show (eventHpStartWatcherLocked t startOk).published = _
    rw [if_pos ha, hstart.2, h.published, ← hstart.1]
    exact if_pos ha
  next =>
    exact { launches := fun _ => rfl, slots := fun _ _ => rfl, published := rfl }

/-- The hook before a launch changes no slot. -/
@[simp] theorem beforeLaunch_slots (t : HpTracker) (startOk : Bool) :
    (eventHpBeforeLaunch t startOk).slots = t.slots := by
  unfold eventHpBeforeLaunch eventHpStartWatcherLocked
  split <;> dsimp only <;> split <;> rfl

/-- The hook before a launch counts it. -/
@[simp] theorem beforeLaunch_launchesInProgress (t : HpTracker) (startOk : Bool) :
    (eventHpBeforeLaunch t startOk).launchesInProgress = t.launchesInProgress + 1 := by
  unfold eventHpBeforeLaunch eventHpStartWatcherLocked
  split <;> dsimp only <;> split <;> rfl

/-- The hook before a launch does not stop the watcher. -/
@[simp] theorem beforeLaunch_stop (t : HpTracker) (startOk : Bool) :
    (eventHpBeforeLaunch t startOk).stop = t.stop := by
  unfold eventHpBeforeLaunch eventHpStartWatcherLocked
  split <;> dsimp only <;> split <;> rfl

/-- A slot that was got is not active for that. -/
theorem SlotGot.keeps {t t' : HpTracker} {d d' : Device GpuStream} {stream : CUstream}
    {i : SlotIndex} (h : SlotGot t d stream i t' d') :
    (∀ j, (t'.slots j).active = (t.slots j).active) ∧
      t'.launchesInProgress = t.launchesInProgress ∧ t'.stateActive = t.stateActive ∧
      t'.published = t.published := by
  rcases h.fresh with ⟨rfl, -⟩ | ⟨-, -, rfl⟩
  · exact ⟨fun _ => rfl, rfl, rfl, rfl⟩
  · refine ⟨fun j => ?_, rfl, rfl, rfl⟩
    by_cases hj : j = i
    · subst hj; simp
    · rw [HpTracker.setSlot_other _ _ hj]

/-- A launch that is in the hooks may activate a slot. -/
theorem publishes_trackLaunch (cfg : HpConfig) {t : HpTracker} (h : Publishes t)
    (hlaunch : t.launchesInProgress ≠ 0) (d : Device GpuStream) (thread : Thread)
    (stream : CUstream) (perThreadDefaultStream : Bool) (o : AfterAnswers) :
    let r := trackLaunch cfg t d thread stream perThreadDefaultStream o
    Publishes r.tracker ∧ r.tracker.launchesInProgress = t.launchesInProgress ∧
      r.tracker.stateActive = true := by
  have hactive := h.launches hlaunch
  rcases trackLaunch_cases cfg t d thread stream perThreadDefaultStream o with
    ⟨i, t₁, d₁, hgot, hr⟩ | ⟨t₁, d₁, hgot, hr⟩
  · obtain ⟨-, hl, hs, hp⟩ := hgot.keeps
    rw [hr]
    refine ⟨{ launches := fun _ => hs.trans hactive, slots := fun _ _ => hs.trans hactive
              published := ?_ }, hl, hs.trans hactive⟩
    show t₁.published = if t₁.stateActive then .active else .idle
    rw [hp, hs]
    exact h.published
  · rw [hr]
    rcases hgot with ⟨rfl, -⟩ | ⟨i, hgot⟩
    · exact ⟨h, rfl, hactive⟩
    · obtain ⟨ha, hl, hs, hp⟩ := hgot.keeps
      exact ⟨h.of_slots (fun j hj => ha j ▸ hj) hl hs hp, hl, hs.trans hactive⟩

/-- Leaving the hooks: the count goes down and IDLE is published if due. -/
theorem publishes_afterLaunch (cfg : HpConfig) {t : HpTracker} (h : Publishes t)
    (hlaunch : t.launchesInProgress ≠ 0) (d : Device GpuStream) (thread : Thread)
    (stream : CUstream) (perThreadDefaultStream succeeded : Bool) (o : AfterAnswers) :
    let r := eventHpAfterLaunch cfg t d thread stream perThreadDefaultStream succeeded o
    Publishes r.tracker ∧ r.tracker.launchesInProgress = t.launchesInProgress - 1 := by
  intro r
  have hr : ∃ t₁, Publishes t₁ ∧ t₁.launchesInProgress = t.launchesInProgress ∧
      t₁.stateActive = true ∧ r.tracker =
        hpPublishIdleLocked { t₁ with launchesInProgress := t.launchesInProgress - 1 } := by
    -- the launch is tracked while it still counts as in the hooks
    have hpos : 0 < t.launchesInProgress := Nat.pos_of_ne_zero hlaunch
    cases succeeded
    · refine ⟨t, h, rfl, h.launches hlaunch, ?_⟩
      simp [r, eventHpAfterLaunch, hpos]
    · obtain ⟨h₁, hl, hs⟩ :=
        publishes_trackLaunch cfg h hlaunch d thread stream perThreadDefaultStream o
      refine ⟨_, h₁, hl, hs, ?_⟩
      simp [r, eventHpAfterLaunch, hl, hpos]
  obtain ⟨t₁, h₁, hl, hs, hr⟩ := hr
  rw [hr]
  refine ⟨Publishes.publishIdle { launches := fun _ => hs, slots := h₁.slots
                                  published := h₁.published }, by simp⟩

/-! ## What the watcher's passes publish -/

/-- The loop of the validation only frees slots. -/
theorem validateSnapshot_keeps (t : HpTracker) (x : HpEventWaitSnapshot × Bool) :
    (∀ i, ((validateSnapshot t x).slots i).active = true → (t.slots i).active = true) ∧
      (validateSnapshot t x).launchesInProgress = t.launchesInProgress ∧
      (validateSnapshot t x).stateActive = t.stateActive ∧
      (validateSnapshot t x).published = t.published := by
  unfold validateSnapshot
  dsimp only
  split
  · refine ⟨fun i hi => ?_, rfl, rfl, rfl⟩
    by_cases hx : i = x.1.slotIndex
    · subst hx; simp at hi
    · rwa [HpTracker.setSlot_other _ _ hx] at hi
  · exact ⟨fun _ hi => hi, rfl, rfl, rfl⟩

/-- Behind the loop the published state is still right, as freed slots need no ACTIVE. -/
theorem publishes_foldl_validateSnapshot {t : HpTracker} (h : Publishes t)
    (snapshots : List (HpEventWaitSnapshot × Bool)) :
    Publishes (snapshots.foldl validateSnapshot t) ∧
      (snapshots.foldl validateSnapshot t).launchesInProgress = t.launchesInProgress := by
  induction snapshots generalizing t with
  | nil => exact ⟨h, rfl⟩
  | cons x rest ih =>
    obtain ⟨ha, hl, hs, hp⟩ := validateSnapshot_keeps t x
    obtain ⟨h', hl'⟩ := ih (h.of_slots ha hl hs hp)
    exact ⟨h', hl'.trans hl⟩

/-- Behind the validation IDLE is published if nothing is left. -/
theorem publishes_validateSnapshots {t : HpTracker} (h : Publishes t)
    (snapshots : List (HpEventWaitSnapshot × Bool)) :
    Publishes (validateSnapshots t snapshots) ∧
      (validateSnapshots t snapshots).launchesInProgress = t.launchesInProgress := by
  obtain ⟨hpub, hcount⟩ := publishes_foldl_validateSnapshot h snapshots
  exact ⟨hpub.publishIdle, by simp [validateSnapshots, hcount]⟩

/-- Validation deactivates a slot or leaves it alone. -/
theorem foldl_validateSnapshot_slots (t : HpTracker)
    (snapshots : List (HpEventWaitSnapshot × Bool)) (i : SlotIndex) :
    (snapshots.foldl validateSnapshot t).slots i = t.slots i ∨
      (snapshots.foldl validateSnapshot t).slots i =
        { t.slots i with active := false, deferredRecordPending := false } := by
  induction snapshots generalizing t with
  | nil => exact .inl rfl
  | cons x rest ih =>
    have hx : (validateSnapshot t x).slots i = t.slots i ∨ (validateSnapshot t x).slots i =
        { t.slots i with active := false, deferredRecordPending := false } := by
      unfold validateSnapshot
      dsimp only
      split
      · by_cases hi : i = x.1.slotIndex
        · subst hi
          exact .inr (HpTracker.setSlot_self ..)
        · exact .inl (HpTracker.setSlot_other _ _ hi)
      · exact .inl rfl
    rw [List.foldl_cons]
    rcases ih (validateSnapshot t x) with hrest | hrest <;> rw [hrest]
    · exact hx
    · rcases hx with hx | hx <;> rw [hx] <;> exact .inr rfl

/-- The query pass frees the active slots whose event is done. -/
theorem queryActiveEvents_slots (t : HpTracker) (done : SlotIndex → Bool) :
    (queryActiveEvents t done).slots = fun i =>
      if (t.slots i).active && done i then { t.slots i with active := false }
      else t.slots i := by
  unfold queryActiveEvents
  dsimp only
  split
  · rfl
  · rw [hpPublishIdleLocked_slots]

/-- The slots that it frees need no ACTIVE. -/
theorem Publishes.queried {t : HpTracker} (h : Publishes t) (done : SlotIndex → Bool) :
    Publishes
      { t with
        slots := fun i =>
          if (t.slots i).active && done i then { t.slots i with active := false }
          else t.slots i } := by
  refine h.of_slots (fun i hi => ?_) rfl rfl rfl
  dsimp only at hi
  split at hi
  · cases hi
  · exact hi

/-- Behind the query pass IDLE is published if nothing is left. -/
theorem publishes_queryActiveEvents {t : HpTracker} (h : Publishes t)
    (done : SlotIndex → Bool) :
    Publishes (queryActiveEvents t done) ∧
      (queryActiveEvents t done).launchesInProgress = t.launchesInProgress := by
  unfold queryActiveEvents
  dsimp only
  split
  · exact ⟨h.queried done, rfl⟩
  · exact ⟨(h.queried done).publishIdle, by simp⟩

end Lilt.Hp
