import Lilt.Be.Config
import Lilt.Driver.Handles
import Lilt.Lib.Device

/-!
# The in-flight window of the BE proxy (`be_intercept.c`)

The state under `g_be_event_lock` and the functions that run with it held. The
launches that may be incomplete occupy a ring of slots, oldest at the head, each
with an event recorded behind it. A kernel whose duration is being learnt is
enclosed by a pair of timing events instead.

- `eventBePredictKernelNsLocked`: the prediction for a kernel, by its profile.
- `eventBePrepareTimingSampleLocked`: the timing pair of the next slot.
- `eventBeRetireOldestLocked`: wait for the oldest launch and free its slot.
- `eventBeAfterLaunch`: the launch that just returned takes the next slot.

What the driver answers is an argument. An `assert` that fails is noted in
`failedAsserts`, whether or not the build compiles it in; statistics are left
out.
-/

namespace Lilt.Be

open Lilt.Driver Gpu

/-- `EVENT_BE_PROFILE_TABLE_SIZE` -/
def eventBeProfileTableSize : Nat := 2048

/-- `EVENT_BE_PROFILE_SAMPLES` -/
def eventBeProfileSamples : Nat := 3

/-- `lp_kernel_profile_t` -/
structure KernelProfile where
  function : CUfunction
  blocks : UInt64
  durationEwmaNs : UInt64
  samples : Nat
  pendingSamples : Nat
  occupied : Bool

/-- `lp_event_slot_t` -/
structure BeEventSlot where
  event : CUevent
  timingStart : CUevent
  timingStop : CUevent
  stream : CUstream
  blocks : UInt64
  predictedNs : UInt64
  profileIndex : Nat
  perThreadDefaultStream : Bool
  eventCreated : Bool
  timingCreated : Bool
  timingSample : Bool
  active : Bool

/-- The event whose completion retires the slot. -/
def BeEventSlot.completionEvent (slot : BeEventSlot) : CUevent :=
  if slot.timingSample then slot.timingStop else slot.event

/-- The assertions of the window code. -/
inductive BeAssert where
  /-- `!slot->active` in `event_be_prepare_timing_sample_locked` -/
  | prepareSlotFree
  /-- `!slot->active` in `event_be_after_launch` -/
  | afterSlotFree
  /-- `slot->active` in `event_be_retire_oldest_locked` -/
  | retireSlotActive
  /-- `g_be_outstanding_blocks >= slot->blocks` -/
  | retireBlocks
  /-- `g_be_outstanding_predicted_ns >= slot->predicted_ns` -/
  | retirePredicted
  deriving DecidableEq

/-- The `g_be_*` variables that launches change. -/
structure BeWindow where
  slots : Nat → BeEventSlot
  profiles : Nat → KernelProfile
  head : Nat
  tail : Nat
  outstandingLaunches : Nat
  outstandingBlocks : UInt64
  outstandingPredictedNs : UInt64
  currentLaunchBlocks : UInt64
  currentPredictedNs : UInt64
  currentProfileIndex : Option Nat
  currentPredictionUnknown : Bool
  currentTimingSample : Bool
  currentLaunchUsesWindow : Bool
  startupWaitDone : Bool
  survivalEpisodeLastIdleNs : UInt64
  survivalEpisodeLaunches : UInt32
  failedAsserts : List BeAssert

namespace BeWindow

/-- The static data of a process that has not launched yet. -/
def initial : BeWindow where
  slots _ :=
    { event := 0, timingStart := 0, timingStop := 0, stream := 0, blocks := 0
      predictedNs := 0, profileIndex := 0, perThreadDefaultStream := false
      eventCreated := false, timingCreated := false, timingSample := false, active := false }
  profiles _ :=
    { function := 0, blocks := 0, durationEwmaNs := 0, samples := 0, pendingSamples := 0
      occupied := false }
  head := 0
  tail := 0
  outstandingLaunches := 0
  outstandingBlocks := 0
  outstandingPredictedNs := 0
  currentLaunchBlocks := 0
  currentPredictedNs := 0
  currentProfileIndex := none
  currentPredictionUnknown := false
  currentTimingSample := false
  currentLaunchUsesWindow := false
  startupWaitDone := false
  survivalEpisodeLastIdleNs := 0
  survivalEpisodeLaunches := 0
  failedAsserts := []

def setSlot (w : BeWindow) (i : Nat) (slot : BeEventSlot) : BeWindow :=
  { w with slots := Function.update w.slots i slot }

def setProfile (w : BeWindow) (i : Nat) (profile : KernelProfile) : BeWindow :=
  { w with profiles := Function.update w.profiles i profile }

/-- `assert` -/
def assertThat (w : BeWindow) (site : BeAssert) (holds : Bool) : BeWindow :=
  if holds then w else { w with failedAsserts := site :: w.failedAsserts }

end BeWindow

/-! ## Kernel profiles -/

/-- `event_be_profile_hash` -/
def eventBeProfileHash (function : CUfunction) (blocks : UInt64) : Nat :=
  let value := (function >>> 4) ^^^ blocks
  let value := value ^^^ (value >>> 33)
  let value := value * 0xff51afd7ed558ccd
  let value := value ^^^ (value >>> 33)
  value.toUInt32.toNat % eventBeProfileTableSize

/-- The probing loop of `event_be_profile_lookup_locked`, with `left` cells still
to probe. -/
def profileProbe (profiles : Nat → KernelProfile) (function : CUfunction) (blocks : UInt64)
    (create : Bool) (start : Nat) : Nat → Option Nat × (Nat → KernelProfile)
  | 0 => (none, profiles)
  | left + 1 =>
    let index := (start + (eventBeProfileTableSize - (left + 1))) % eventBeProfileTableSize
    let profile := profiles index
    if profile.occupied then
      if profile.function = function ∧ profile.blocks = blocks then (some index, profiles)
      else profileProbe profiles function blocks create start left
    else if create then
      (some index, Function.update profiles index
        { profile with function := function, blocks := blocks, occupied := true })
    else (none, profiles)

/-- `event_be_profile_lookup_locked` -/
def eventBeProfileLookupLocked (profiles : Nat → KernelProfile) (function : CUfunction)
    (blocks : UInt64) (create : Bool) : Option Nat × (Nat → KernelProfile) :=
  if function = 0 then (none, profiles)
  else
    profileProbe profiles function blocks create (eventBeProfileHash function blocks)
      eventBeProfileTableSize

/-- `event_be_add_saturating` -/
def eventBeAddSaturating (left right : UInt64) : UInt64 :=
  if UInt64.ofNat (2 ^ 64 - 1) - left < right then UInt64.ofNat (2 ^ 64 - 1) else left + right

/-- `event_be_predict_kernel_ns_locked`; the callers store the prediction in
`g_be_current_predicted_ns`. -/
def eventBePredictKernelNsLocked (cfg : BeConfig) (w : BeWindow) (function : CUfunction)
    (blocks : UInt64) : BeWindow :=
  let (index, profiles) := eventBeProfileLookupLocked w.profiles function blocks true
  let w := { w with profiles := profiles, currentProfileIndex := index }
  match index with
  | none => { w with currentPredictionUnknown := true, currentPredictedNs := cfg.unknownKernelNs }
  | some i =>
    if (profiles i).samples = 0 then
      { w with currentPredictionUnknown := true, currentPredictedNs := cfg.unknownKernelNs }
    else
      let learned := (profiles i).durationEwmaNs
      { w with
        currentPredictionUnknown := false
        currentPredictedNs := eventBeAddSaturating learned (learned / 4) }

/-- `event_be_update_profile_locked` -/
def eventBeUpdateProfileLocked (w : BeWindow) (index : Nat) (durationNs : UInt64) : BeWindow :=
  if eventBeProfileTableSize ≤ index ∨ durationNs = 0 then w
  else
    let profile := w.profiles index
    if profile.occupied then
      let ewma :=
        if profile.samples = 0 then durationNs
        else if profile.durationEwmaNs ≤ durationNs then
          profile.durationEwmaNs + (durationNs - profile.durationEwmaNs) / 4
        else profile.durationEwmaNs - (profile.durationEwmaNs - durationNs) / 4
      w.setProfile index
        { profile with durationEwmaNs := ewma, samples := (profile.samples + 1) % 2 ^ 32 }
    else w

/-- `if (pending_samples > 0) --pending_samples` -/
def releasePending (w : BeWindow) (index : Nat) : BeWindow :=
  if 0 < (w.profiles index).pendingSamples then
    w.setProfile index
      { w.profiles index with pendingSamples := (w.profiles index).pendingSamples - 1 }
  else w

/-! ## Timing samples -/

/-- What the driver answers during `event_be_prepare_timing_sample_locked`. -/
structure PrepareAnswers where
  startCreateOk : Bool
  stopCreateOk : Bool
  recordOk : Bool

/-- The first part of `event_be_prepare_timing_sample_locked`: the tail slot has
its pair of timing events, if the result says so. -/
def createTimingPair (w : BeWindow) (d : Device GpuStream) (o : PrepareAnswers) :
    Bool × BeWindow × Device GpuStream :=
  let slot := w.slots w.tail
  if slot.timingCreated then (true, w, d)
  else if o.startCreateOk then
    let start := d.newEvent
    let d := d.createEvent
    if o.stopCreateOk then
      (true,
        w.setSlot w.tail
          { slot with timingStart := start, timingStop := d.newEvent, timingCreated := true },
        d.createEvent)
    else (false, w.setSlot w.tail { slot with timingStart := start }, d)
  else (false, w, d)

/-- `event_be_prepare_timing_sample_locked` by the thread `thread`; the callers
store its result in `g_be_current_timing_sample`. -/
def eventBePrepareTimingSampleLocked (w : BeWindow) (d : Device GpuStream) (thread : Thread)
    (stream : CUstream) (perThreadDefaultStream : Bool) (profileIndex : Nat)
    (o : PrepareAnswers) : BeWindow × Device GpuStream :=
  let w := w.assertThat .prepareSlotFree (!(w.slots w.tail).active)
  let (created, w, d) := createTimingPair w d o
  if created && o.recordOk then
    let slot := w.slots w.tail
    let profile := w.profiles profileIndex
    let w := w.setProfile profileIndex
      { profile with pendingSamples := profile.pendingSamples + 1 }
    ({ w.setSlot w.tail { slot with profileIndex := profileIndex } with
        currentTimingSample := true },
      d.record slot.timingStart (resolve stream perThreadDefaultStream thread))
  else ({ w with currentTimingSample := false }, d)

/-- The condition under which the duration-aware policies take a timing sample,
and the sample. -/
def eventBeSampleTiming (w : BeWindow) (d : Device GpuStream) (thread : Thread)
    (stream : CUstream) (perThreadDefaultStream : Bool) (o : PrepareAnswers) :
    BeWindow × Device GpuStream :=
  match w.currentProfileIndex with
  | none => (w, d)
  | some index =>
    if (w.profiles index).samples + (w.profiles index).pendingSamples < eventBeProfileSamples then
      eventBePrepareTimingSampleLocked w d thread stream perThreadDefaultStream index o
    else (w, d)

/-! ## Retiring -/

/-- What the driver answers during `event_be_retire_oldest_locked`. -/
structure RetireAnswers where
  synchronizeOk : Bool
  streamSynchronizeOk : Bool
  /-- The duration `cuEventElapsedTime` gives, if it succeeds and is positive,
  in nanoseconds. -/
  elapsedNs : Option UInt64

/-- The part of `event_be_retire_oldest_locked` that learns from a timing
sample. -/
def retireSample (w : BeWindow) (slot : BeEventSlot) (o : RetireAnswers) : BeWindow :=
  if slot.timingSample then
    let w := releasePending w slot.profileIndex
    match o.synchronizeOk, o.elapsedNs with
    | true, some durationNs => eventBeUpdateProfileLocked w slot.profileIndex durationNs
    | _, _ => w
  else w

/-- `event_be_retire_oldest_locked` -/
def eventBeRetireOldestLocked (cfg : BeConfig) (w : BeWindow) (o : RetireAnswers) : BeWindow :=
  if w.outstandingLaunches = 0 then w
  else
    let slot := w.slots w.head
    let w := w.assertThat .retireSlotActive slot.active
    let w := retireSample w slot o
    let w := w.assertThat .retireBlocks (slot.blocks ≤ w.outstandingBlocks)
    let w := w.assertThat .retirePredicted (slot.predictedNs ≤ w.outstandingPredictedNs)
    { w.setSlot w.head
        { slot with blocks := 0, predictedNs := 0, timingSample := false, active := false } with
      outstandingBlocks := w.outstandingBlocks - slot.blocks
      outstandingPredictedNs := w.outstandingPredictedNs - slot.predictedNs
      head := (w.head + 1) % cfg.window
      outstandingLaunches := w.outstandingLaunches - 1 }

/-! ## After the launch -/

/-- What the driver answers during `event_be_after_launch`. -/
structure AfterAnswers where
  createOk : Bool
  recordOk : Bool
  synchronizeOk : Bool

/-- What `event_be_after_launch` did. -/
structure AfterResult where
  window : BeWindow
  device : Device GpuStream
  /-- The launch took the slot at the tail. -/
  enters : Bool
  /-- The stream was synchronised instead. -/
  synchronizes : Bool

/-- The event of the tail slot, created if needed. -/
def createSlotEvent (w : BeWindow) (d : Device GpuStream) (createOk : Bool) :
    BeWindow × Device GpuStream :=
  let slot := w.slots w.tail
  if !w.currentTimingSample && !slot.eventCreated && createOk then
    (w.setSlot w.tail { slot with event := d.newEvent, eventCreated := true }, d.createEvent)
  else (w, d)

/-- The slot of the launch that just returned. -/
def BeWindow.enteringSlot (w : BeWindow) (stream : CUstream) (perThreadDefaultStream : Bool) :
    BeEventSlot :=
  { w.slots w.tail with
    stream := stream
    blocks := w.currentLaunchBlocks
    predictedNs := w.currentPredictedNs
    profileIndex := w.currentProfileIndex.getD 0
    perThreadDefaultStream := perThreadDefaultStream
    timingSample := w.currentTimingSample
    active := true }

/-- The part of `event_be_after_launch` for an accepted launch that uses the
window. -/
def enterWindow (cfg : BeConfig) (w : BeWindow) (d : Device GpuStream) (thread : Thread)
    (stream : CUstream) (perThreadDefaultStream : Bool) (o : AfterAnswers) : AfterResult :=
  let w := w.assertThat .afterSlotFree (!(w.slots w.tail).active)
  let (w, d) := createSlotEvent w d o.createOk
  let slot := w.enteringSlot stream perThreadDefaultStream
  let r : AfterResult :=
    if (w.currentTimingSample || slot.eventCreated) && o.recordOk then
      { window :=
          { w.setSlot w.tail slot with
            tail := (w.tail + 1) % cfg.window
            outstandingLaunches := w.outstandingLaunches + 1
            outstandingBlocks := w.outstandingBlocks + slot.blocks
            outstandingPredictedNs := w.outstandingPredictedNs + slot.predictedNs }
        device := d.record slot.completionEvent (resolve stream perThreadDefaultStream thread)
        enters := true
        synchronizes := false }
    else
      { window :=
          match w.currentTimingSample, w.currentProfileIndex with
          | true, some index => releasePending w index
          | _, _ => w
        device := d
        enters := false
        synchronizes := true }
  { r with
    window :=
      if cfg.policy = .survival then
        { r.window with survivalEpisodeLaunches := r.window.survivalEpisodeLaunches + 1 }
      else r.window }

/-- The `g_be_current_*` variables outside a launch. -/
def BeWindow.clearCurrent (w : BeWindow) : BeWindow :=
  { w with
    currentLaunchUsesWindow := false
    currentLaunchBlocks := 0
    currentPredictedNs := 0
    currentProfileIndex := none
    currentPredictionUnknown := false
    currentTimingSample := false }

/-- `event_be_after_launch` -/
def eventBeAfterLaunch (cfg : BeConfig) (w : BeWindow) (d : Device GpuStream) (thread : Thread)
    (stream : CUstream) (perThreadDefaultStream launchSucceeded : Bool) (o : AfterAnswers) :
    AfterResult :=
  let r : AfterResult :=
    if launchSucceeded && w.currentLaunchUsesWindow then
      enterWindow cfg w d thread stream perThreadDefaultStream o
    else { window := w, device := d, enters := false, synchronizes := false }
  let w :=
    match launchSucceeded, r.window.currentTimingSample, r.window.currentProfileIndex with
    | false, true, some index => releasePending r.window index
    | _, _, _ => r.window
  { r with window := w.clearCurrent }

/-! ## What the functions change -/

/-- A check that holds changes nothing. -/
theorem assertThat_true (w : BeWindow) (site : BeAssert) {holds : Bool} (h : holds = true) :
    w.assertThat site holds = w := by rw [BeWindow.assertThat, if_pos h]

/-- A prediction changes the profiles and the current launch only. -/
theorem predict_keeps (cfg : BeConfig) (w : BeWindow) (function : CUfunction)
    (blocks : UInt64) :
    ∃ profiles index unknown predictedNs,
      eventBePredictKernelNsLocked cfg w function blocks =
        { w with
          profiles := profiles
          currentProfileIndex := index
          currentPredictionUnknown := unknown
          currentPredictedNs := predictedNs } := by
  unfold eventBePredictKernelNsLocked
  dsimp only
  split
  · exact ⟨_, _, _, _, rfl⟩
  · split
    · exact ⟨_, _, _, _, rfl⟩
    · exact ⟨_, _, _, _, rfl⟩

/-- Releasing a sample changes the profiles only. -/
theorem releasePending_keeps (w : BeWindow) (index : Nat) :
    ∃ profiles, releasePending w index = { w with profiles := profiles } := by
  unfold releasePending
  split
  · exact ⟨_, rfl⟩
  · exact ⟨_, rfl⟩

/-- Learning a sample changes the profiles only. -/
theorem updateProfile_keeps (w : BeWindow) (index : Nat) (durationNs : UInt64) :
    ∃ profiles, eventBeUpdateProfileLocked w index durationNs =
      { w with profiles := profiles } := by
  unfold eventBeUpdateProfileLocked
  split
  · exact ⟨_, rfl⟩
  · dsimp only
    split
    · exact ⟨_, rfl⟩
    · exact ⟨_, rfl⟩

/-- Retiring a sample changes the profiles only. -/
theorem retireSample_keeps (w : BeWindow) (slot : BeEventSlot) (o : RetireAnswers) :
    ∃ profiles, retireSample w slot o = { w with profiles := profiles } := by
  unfold retireSample
  split
  · obtain ⟨profiles, h⟩ := releasePending_keeps w slot.profileIndex
    dsimp only
    split
    · obtain ⟨profiles', h'⟩ :=
        updateProfile_keeps (releasePending w slot.profileIndex) slot.profileIndex _
      exact ⟨profiles', by rw [h', h]⟩
    · exact ⟨profiles, h⟩
  · exact ⟨_, rfl⟩

/-- The slot as it is left by `event_be_retire_oldest_locked`. -/
def BeEventSlot.retired (slot : BeEventSlot) : BeEventSlot :=
  { slot with blocks := 0, predictedNs := 0, timingSample := false, active := false }

/-- Retiring an active oldest slot frees it and takes its launch out of the
counters; only the assertions about the counters may fail. -/
theorem retire_spec (cfg : BeConfig) {w : BeWindow} (o : RetireAnswers)
    (hout : w.outstandingLaunches ≠ 0) (hactive : (w.slots w.head).active = true) :
    ∃ profiles asserts,
      eventBeRetireOldestLocked cfg w o =
        { w with
          profiles := profiles
          failedAsserts := asserts
          slots := Function.update w.slots w.head (w.slots w.head).retired
          outstandingBlocks := w.outstandingBlocks - (w.slots w.head).blocks
          outstandingPredictedNs := w.outstandingPredictedNs - (w.slots w.head).predictedNs
          head := (w.head + 1) % cfg.window
          outstandingLaunches := w.outstandingLaunches - 1 } ∧
      ∀ a ∈ asserts, a ∈ w.failedAsserts ∨
        a = .retireBlocks ∧ ¬ (w.slots w.head).blocks ≤ w.outstandingBlocks ∨
        a = .retirePredicted ∧ ¬ (w.slots w.head).predictedNs ≤ w.outstandingPredictedNs := by
  unfold eventBeRetireOldestLocked
  rw [if_neg hout]
  dsimp only
  rw [assertThat_true w .retireSlotActive hactive]
  obtain ⟨profiles, hp⟩ := retireSample_keeps w (w.slots w.head) o
  rw [hp]
  unfold BeWindow.assertThat
  by_cases hb : (w.slots w.head).blocks ≤ w.outstandingBlocks <;>
    by_cases hn : (w.slots w.head).predictedNs ≤ w.outstandingPredictedNs <;>
    simp only [hb, hn, decide_true, decide_false, if_true, Bool.false_eq_true, if_false]
  · exact ⟨_, _, rfl, fun a ha => .inl ha⟩
  · -- only the assertion about the predictions fails
    refine ⟨_, _, rfl, fun a ha => ?_⟩
    rcases List.mem_cons.mp ha with rfl | ha
    · exact .inr (.inr ⟨rfl, id⟩)
    · exact .inl ha
  · -- only the one about the blocks
    refine ⟨_, _, rfl, fun a ha => ?_⟩
    rcases List.mem_cons.mp ha with rfl | ha
    · exact .inr (.inl ⟨rfl, id⟩)
    · exact .inl ha
  · refine ⟨_, _, rfl, fun a ha => ?_⟩
    rcases List.mem_cons.mp ha with rfl | ha
    · exact .inr (.inr ⟨rfl, id⟩)
    · rcases List.mem_cons.mp ha with rfl | ha
      · exact .inr (.inl ⟨rfl, id⟩)
      · exact .inl ha

/-! ## The events of a slot -/

/-- The event is one that the slot had created. -/
def BeEventSlot.Owns (slot : BeEventSlot) (e : CUevent) : Prop :=
  slot.eventCreated = true ∧ e = slot.event ∨
    slot.timingCreated = true ∧ (e = slot.timingStart ∨ e = slot.timingStop)

/-- A slot was given events and its events were recorded, no others. -/
structure EventsGrow (slot : BeEventSlot) (d : Device GpuStream) (slot' : BeEventSlot)
    (d' : Device GpuStream) : Prop where
  le : d.Le d'
  created : d.created ≤ d'.created
  owns : ∀ e, slot'.Owns e → slot.Owns e ∨ d.created < e ∧ e ≤ d'.created
  recorded : ∀ e, ¬ slot'.Owns e → d'.recorded e = d.recorded e

namespace EventsGrow

variable {slot slot' slot'' : BeEventSlot} {d d' d'' : Device GpuStream}

theorem refl (slot : BeEventSlot) (d : Device GpuStream) : EventsGrow slot d slot d :=
  { le := Device.Le.refl d
    created := Nat.le_refl _
    owns := fun _ he => .inl he
    recorded := fun _ _ => rfl }

/-- Recording an event of the slot. -/
theorem record (h : EventsGrow slot d slot' d') {e : CUevent} (he : slot'.Owns e)
    (s : GpuStream) : EventsGrow slot d slot' (d'.record e s) := by
  refine { le := h.le.trans (Device.le_record ..), created := h.created, owns := h.owns
           recorded := fun e' he' => ?_ }
  have hne : e' ≠ e := by
    rintro rfl
    exact he' he
  rw [Device.recorded_record_other _ _ hne]
  exact h.recorded e' he'

/-- What else changes in the slot does not matter. -/
theorem of_owns (h : EventsGrow slot d slot' d') (howns : ∀ e, slot''.Owns e ↔ slot'.Owns e) :
    EventsGrow slot d slot'' d' :=
  { le := h.le
    created := h.created
    owns := fun e he => h.owns e ((howns e).mp he)
    recorded := fun e he => h.recorded e fun he' => he ((howns e).mpr he') }

end EventsGrow

/-- The slot gets its completion event if it needs one. -/
theorem createSlotEvent_spec (w : BeWindow) (d : Device GpuStream) (createOk : Bool) :
    ∃ slot d', createSlotEvent w d createOk = (w.setSlot w.tail slot, d') ∧
      slot.active = (w.slots w.tail).active ∧
      slot.timingCreated = (w.slots w.tail).timingCreated ∧
      EventsGrow (w.slots w.tail) d slot d' := by
  unfold createSlotEvent
  dsimp only
  split
  next h =>
    refine ⟨_, _, rfl, rfl, rfl, ?_⟩
    simp only [Bool.and_eq_true, Bool.not_eq_true'] at h
    refine { le := Device.le_createEvent d, created := Nat.le_succ _, owns := fun e he => ?_
             recorded := fun _ _ => rfl }
    rcases he with ⟨-, rfl⟩ | he
    · exact .inr ⟨Nat.lt_succ_self _, Nat.le_refl _⟩
    · exact .inl (.inr he)
  next =>
    refine ⟨w.slots w.tail, d, ?_, rfl, rfl, .refl _ _⟩
    simp [BeWindow.setSlot]

/-- What creating the two timing events of the slot at the tail does. -/
theorem createTimingPair_spec (w : BeWindow) (d : Device GpuStream) (o : PrepareAnswers) :
    ∃ slot d' ok, createTimingPair w d o = (ok, w.setSlot w.tail slot, d') ∧
      slot.active = (w.slots w.tail).active ∧ (ok = true → slot.timingCreated = true) ∧
      EventsGrow (w.slots w.tail) d slot d' := by
  unfold createTimingPair
  dsimp only
  split
  next h =>
    refine ⟨w.slots w.tail, d, true, ?_, rfl, fun _ => h, .refl _ _⟩
    simp [BeWindow.setSlot]
  next h =>
    split
    · split
      · refine ⟨_, _, true, rfl, rfl, fun _ => rfl, ?_⟩
        refine { le := Device.Le.refl d, created := Nat.le_add_right _ 2, owns := fun e he => ?_
                 recorded := fun _ _ => rfl }
        rcases he with he | ⟨-, rfl | rfl⟩
        · exact .inl (.inl he)
        · exact .inr ⟨Nat.lt_succ_self _, Nat.le_succ _⟩
        · exact .inr ⟨Nat.lt_succ_of_lt (Nat.lt_succ_self _), Nat.le_refl _⟩
      · -- the start event alone: the slot does not own it
        refine ⟨_, _, false, rfl, rfl, nofun, ?_⟩
        refine { le := Device.Le.refl d, created := Nat.le_succ _, owns := fun e he => ?_
                 recorded := fun _ _ => rfl }
        rcases he with he | ⟨hc, -⟩
        · exact .inl (.inl he)
        · exact absurd hc h
    · refine ⟨w.slots w.tail, d, false, ?_, rfl, nofun, .refl _ _⟩
      simp [BeWindow.setSlot]

/-- Preparing a sample at a free tail slot writes that slot's timing pair. -/
theorem prepareTimingSample_spec {w : BeWindow} (hfree : (w.slots w.tail).active = false)
    (d : Device GpuStream) (thread : Thread) (stream : CUstream) (perThreadDefaultStream : Bool)
    (profileIndex : Nat) (o : PrepareAnswers) :
    ∃ slot d' profiles sampled,
      eventBePrepareTimingSampleLocked w d thread stream perThreadDefaultStream profileIndex o =
        ({ w with
            slots := Function.update w.slots w.tail slot
            profiles := profiles
            currentTimingSample := sampled }, d') ∧
      slot.active = false ∧ (sampled = true → slot.timingCreated = true) ∧
      EventsGrow (w.slots w.tail) d slot d' := by
  obtain ⟨slot, d', ok, hpair, hactive, hcreated, hgrow⟩ := createTimingPair_spec w d o
  unfold eventBePrepareTimingSampleLocked
  dsimp only
  rw [assertThat_true w .prepareSlotFree (by simp [hfree]), hpair]
  dsimp only
  split
  next h =>
    obtain ⟨hok, -⟩ := Bool.and_eq_true_iff.mp h
    have htiming := hcreated hok
    let profile := w.profiles profileIndex
    refine ⟨{ slot with profileIndex := profileIndex }, d'.record slot.timingStart
      (resolve stream perThreadDefaultStream thread),
      Function.update w.profiles profileIndex
        { profile with pendingSamples := profile.pendingSamples + 1 },
      true, ?_, hactive.trans hfree, fun _ => htiming, ?_⟩
    · simp [BeWindow.setSlot, BeWindow.setProfile, profile]
    · exact (hgrow.record (.inr ⟨htiming, .inl rfl⟩) _).of_owns fun _ => Iff.rfl
  next =>
    exact ⟨slot, d', w.profiles, false, rfl, hactive.trans hfree, nofun, hgrow⟩

/-- The sampling of the duration-aware policies, at a free tail slot. -/
theorem sampleTiming_spec {w : BeWindow} (hfree : (w.slots w.tail).active = false)
    (hnone : w.currentTimingSample = false) (d : Device GpuStream) (thread : Thread)
    (stream : CUstream) (perThreadDefaultStream : Bool) (o : PrepareAnswers) :
    ∃ slot d' profiles sampled,
      eventBeSampleTiming w d thread stream perThreadDefaultStream o =
        ({ w with
            slots := Function.update w.slots w.tail slot
            profiles := profiles
            currentTimingSample := sampled }, d') ∧
      slot.active = false ∧ (sampled = true → slot.timingCreated = true) ∧
      EventsGrow (w.slots w.tail) d slot d' := by
  have hsame : ∃ slot d' profiles sampled,
      (w, d) =
        ({ w with
            slots := Function.update w.slots w.tail slot
            profiles := profiles
            currentTimingSample := sampled }, d') ∧
      slot.active = false ∧ (sampled = true → slot.timingCreated = true) ∧
      EventsGrow (w.slots w.tail) d slot d' := by
    refine ⟨w.slots w.tail, d, w.profiles, w.currentTimingSample, by simp, hfree, ?_, .refl _ _⟩
    rw [hnone]
    exact nofun
  unfold eventBeSampleTiming
  split
  · exact hsame
  · split
    · exact prepareTimingSample_spec hfree d thread stream perThreadDefaultStream _ o
    · exact hsame

/-- What `enterWindow` does to a window whose tail slot is free: the launch takes
the slot and its event is recorded, or the slot stays free and the stream is
synchronised. -/
theorem enterWindow_cases (cfg : BeConfig) {w : BeWindow}
    (hfree : (w.slots w.tail).active = false)
    (htiming : w.currentTimingSample = true → (w.slots w.tail).timingCreated = true)
    (d : Device GpuStream) (thread : Thread) (stream : CUstream)
    (perThreadDefaultStream : Bool) (o : AfterAnswers) :
    let r := enterWindow cfg w d thread stream perThreadDefaultStream o
    (∃ slot d' launches,
      r.window =
        { w with
          slots := Function.update w.slots w.tail slot
          tail := (w.tail + 1) % cfg.window
          outstandingLaunches := w.outstandingLaunches + 1
          outstandingBlocks := w.outstandingBlocks + w.currentLaunchBlocks
          outstandingPredictedNs := w.outstandingPredictedNs + w.currentPredictedNs
          survivalEpisodeLaunches := launches } ∧
      r.device = d'.record slot.completionEvent (resolve stream perThreadDefaultStream thread) ∧
      r.enters = true ∧ r.synchronizes = false ∧ slot.active = true ∧
      slot.blocks = w.currentLaunchBlocks ∧ slot.predictedNs = w.currentPredictedNs ∧
      slot.Owns slot.completionEvent ∧ EventsGrow (w.slots w.tail) d slot d') ∨
    ∃ slot profiles launches,
      r.window =
        { w with
          slots := Function.update w.slots w.tail slot
          profiles := profiles
          survivalEpisodeLaunches := launches } ∧
      r.enters = false ∧ r.synchronizes = true ∧ slot.active = false ∧
      EventsGrow (w.slots w.tail) d slot r.device := by
  intro r
  obtain ⟨slot, d', hcreate, hactive, hcreated, hgrow⟩ := createSlotEvent_spec w d o.createOk
  have hr : r = enterWindow cfg w d thread stream perThreadDefaultStream o := rfl
  unfold enterWindow at hr
  dsimp only at hr
  rw [assertThat_true w .afterSlotFree (by simp [hfree]), hcreate] at hr
  dsimp only at hr
  let entering := (w.setSlot w.tail slot).enteringSlot stream perThreadDefaultStream
  by_cases hok : ((w.setSlot w.tail slot).currentTimingSample || entering.eventCreated) &&
      o.recordOk
  · rw [if_pos hok] at hr
    -- a sampled launch is enclosed by the pair, any other has the slot's own event
    have howns : entering.Owns entering.completionEvent := by
      unfold BeEventSlot.completionEvent
      by_cases hs : w.currentTimingSample = true
      · have hsample : entering.timingSample = true := hs
        rw [if_pos hsample]
        refine .inr ⟨?_, .inr rfl⟩
        show ((w.setSlot w.tail slot).slots w.tail).timingCreated = true
        simp [BeWindow.setSlot, hcreated, htiming hs]
      · have hsample : ¬ entering.timingSample = true := hs
        rw [if_neg hsample]
        refine .inl ⟨?_, rfl⟩
        have := (Bool.and_eq_true_iff.mp hok).1
        rcases Bool.or_eq_true_iff.mp this with h | h
        · exact absurd h hs
        · exact h
    refine .inl ⟨entering, d', if cfg.policy = .survival then w.survivalEpisodeLaunches + 1
      else w.survivalEpisodeLaunches, ?_, ?_, ?_, ?_, rfl, rfl, rfl, howns, ?_⟩
    · rw [hr]
      by_cases hp : cfg.policy = .survival <;> simp [hp, BeWindow.setSlot, entering,
        BeWindow.enteringSlot]
    · rw [hr]
    · rw [hr]
    · rw [hr]
    · refine hgrow.of_owns fun e => ?_
      have hslot : (w.setSlot w.tail slot).slots w.tail = slot := by simp [BeWindow.setSlot]
      show BeEventSlot.Owns ((w.setSlot w.tail slot).slots w.tail) e ↔ _
      rw [hslot]
  · rw [if_neg hok] at hr
    -- a sample that was started is given up
    obtain ⟨profiles, hp⟩ : ∃ profiles,
        (match (w.setSlot w.tail slot).currentTimingSample,
            (w.setSlot w.tail slot).currentProfileIndex with
          | true, some index => releasePending (w.setSlot w.tail slot) index
          | _, _ => w.setSlot w.tail slot) =
          { w.setSlot w.tail slot with profiles := profiles } := by
      split
      · exact releasePending_keeps _ _
      · exact ⟨_, rfl⟩
    rw [hp] at hr
    refine .inr ⟨slot, profiles, if cfg.policy = .survival then w.survivalEpisodeLaunches + 1
      else w.survivalEpisodeLaunches, ?_, ?_, ?_, hactive.trans hfree, ?_⟩
    · rw [hr]
      by_cases hp : cfg.policy = .survival <;> simp [hp, BeWindow.setSlot]
    · rw [hr]
    · rw [hr]
    · rw [hr]
      exact hgrow

/-- What `event_be_after_launch` can do: nothing beyond the profiles for a launch
that failed or is outside the window, take the tail slot, or synchronise. -/
inductive AfterEffect (cfg : BeConfig) (w : BeWindow) (d : Device GpuStream) (thread : Thread)
    (stream : CUstream) (perThreadDefaultStream launchSucceeded : Bool) : AfterResult → Prop
  | outside (profiles : Nat → KernelProfile)
      (h : launchSucceeded = true → w.currentLaunchUsesWindow = false) :
      AfterEffect cfg w d thread stream perThreadDefaultStream launchSucceeded
        { window := { w with profiles := profiles }.clearCurrent
          device := d
          enters := false
          synchronizes := false }
  | enters (slot : BeEventSlot) (d' : Device GpuStream) (launches : UInt32)
      (hok : launchSucceeded = true) (huses : w.currentLaunchUsesWindow = true)
      (hactive : slot.active = true) (hblocks : slot.blocks = w.currentLaunchBlocks)
      (hpredicted : slot.predictedNs = w.currentPredictedNs)
      (howns : slot.Owns slot.completionEvent)
      (hgrow : EventsGrow (w.slots w.tail) d slot d') :
      AfterEffect cfg w d thread stream perThreadDefaultStream launchSucceeded
        { window :=
            { w with
              slots := Function.update w.slots w.tail slot
              tail := (w.tail + 1) % cfg.window
              outstandingLaunches := w.outstandingLaunches + 1
              outstandingBlocks := w.outstandingBlocks + w.currentLaunchBlocks
              outstandingPredictedNs := w.outstandingPredictedNs + w.currentPredictedNs
              survivalEpisodeLaunches := launches }.clearCurrent
          device := d'.record slot.completionEvent
            (resolve stream perThreadDefaultStream thread)
          enters := true
          synchronizes := false }
  | synchronizes (slot : BeEventSlot) (d' : Device GpuStream)
      (profiles : Nat → KernelProfile) (launches : UInt32)
      (hok : launchSucceeded = true) (huses : w.currentLaunchUsesWindow = true)
      (hinactive : slot.active = false) (hgrow : EventsGrow (w.slots w.tail) d slot d') :
      AfterEffect cfg w d thread stream perThreadDefaultStream launchSucceeded
        { window :=
            { w with
              slots := Function.update w.slots w.tail slot
              profiles := profiles
              survivalEpisodeLaunches := launches }.clearCurrent
          device := d'
          enters := false
          synchronizes := true }

/-- The hook after a launch has one of the listed effects on the window. -/
theorem afterLaunch_effect (cfg : BeConfig) {w : BeWindow}
    (hfree : w.currentLaunchUsesWindow = true → (w.slots w.tail).active = false)
    (htiming : w.currentLaunchUsesWindow = true → w.currentTimingSample = true →
      (w.slots w.tail).timingCreated = true)
    (d : Device GpuStream) (thread : Thread) (stream : CUstream)
    (perThreadDefaultStream launchSucceeded : Bool) (o : AfterAnswers) :
    AfterEffect cfg w d thread stream perThreadDefaultStream launchSucceeded
      (eventBeAfterLaunch cfg w d thread stream perThreadDefaultStream launchSucceeded o) := by
  unfold eventBeAfterLaunch
  cases launchSucceeded with
  | false =>
    simp only [Bool.false_and, Bool.false_eq_true, if_false]
    split
    next index _ _ _ =>
      obtain ⟨profiles, hp⟩ := releasePending_keeps w index
      rw [hp]
      exact .outside profiles nofun
    next => exact .outside w.profiles nofun
  | true =>
    by_cases huses : w.currentLaunchUsesWindow = true
    · simp only [Bool.true_and, if_pos huses]
      rcases enterWindow_cases cfg (hfree huses) (htiming huses) d thread stream
          perThreadDefaultStream o with
        ⟨slot, d', launches, hw, hd, he, hs, hactive, hblocks, hpredicted, howns, hgrow⟩ |
        ⟨slot, profiles, launches, hw, he, hs, hinactive, hgrow⟩
      · rw [hw, hd, he, hs]
        exact .enters slot d' launches rfl huses hactive hblocks hpredicted howns hgrow
      · rw [hw, he, hs]
        exact .synchronizes slot _ profiles launches rfl huses hinactive hgrow
    · have huses : w.currentLaunchUsesWindow = false := Bool.eq_false_iff.mpr huses
      simp only [Bool.true_and, huses, Bool.false_eq_true, if_false]
      exact .outside w.profiles fun _ => huses

/-! ## When a launch takes a slot -/

/-- The completion event of the launch that returned is created and recorded. -/
def BeWindow.records (w : BeWindow) (o : AfterAnswers) : Bool :=
  (w.currentTimingSample || (w.slots w.tail).eventCreated || o.createOk) && o.recordOk

/-- A check changes the failed checks only. -/
theorem assertThat_keeps (w : BeWindow) (site : BeAssert) (holds : Bool) :
    ∃ asserts, w.assertThat site holds = { w with failedAsserts := asserts } := by
  unfold BeWindow.assertThat
  split
  · exact ⟨_, rfl⟩
  · exact ⟨_, rfl⟩

/-- A launch that goes on to record its event takes a slot if the record succeeds. -/
theorem enterWindow_enters_eq (cfg : BeConfig) (w : BeWindow) (d : Device GpuStream)
    (thread : Thread) (stream : CUstream) (perThreadDefaultStream : Bool) (o : AfterAnswers) :
    (enterWindow cfg w d thread stream perThreadDefaultStream o).enters = w.records o := by
  obtain ⟨asserts, hassert⟩ :=
    assertThat_keeps w .afterSlotFree (!(w.slots w.tail).active)
  unfold enterWindow createSlotEvent BeWindow.enteringSlot BeWindow.records
  rw [hassert]
  dsimp only
  cases w.currentTimingSample <;> cases hcreated : (w.slots w.tail).eventCreated <;>
    cases o.createOk <;> cases o.recordOk <;> simp [BeWindow.setSlot, hcreated]

/-- A launch that uses the window takes a slot exactly if its completion event is
recorded. -/
theorem afterLaunch_enters_eq (cfg : BeConfig) (w : BeWindow) (d : Device GpuStream)
    (thread : Thread) (stream : CUstream) (perThreadDefaultStream : Bool) (o : AfterAnswers) :
    (eventBeAfterLaunch cfg w d thread stream perThreadDefaultStream true o).enters =
      (w.currentLaunchUsesWindow && w.records o) := by
  unfold eventBeAfterLaunch
  cases huses : w.currentLaunchUsesWindow with
  | false => rfl
  | true => exact enterWindow_enters_eq cfg w d thread stream perThreadDefaultStream o

/-- The slot that a launch takes has the launch's stream. -/
theorem enterWindow_stream (cfg : BeConfig) (w : BeWindow) (d : Device GpuStream)
    (thread : Thread) (stream : CUstream) (perThreadDefaultStream : Bool) (o : AfterAnswers)
    (henters : (enterWindow cfg w d thread stream perThreadDefaultStream o).enters = true) :
    ((enterWindow cfg w d thread stream perThreadDefaultStream o).window.slots w.tail).stream =
        stream ∧
      ((enterWindow cfg w d thread stream perThreadDefaultStream o).window.slots
        w.tail).perThreadDefaultStream = perThreadDefaultStream := by
  obtain ⟨asserts, hassert⟩ :=
    assertThat_keeps w .afterSlotFree (!(w.slots w.tail).active)
  unfold enterWindow at henters ⊢
  rw [hassert] at henters ⊢
  obtain ⟨slot, d', hcreate, -⟩ :=
    createSlotEvent_spec { w with failedAsserts := asserts } d o.createOk
  dsimp only at hcreate henters ⊢
  rw [hcreate] at henters ⊢
  dsimp only at henters ⊢
  split at henters
  next hok =>
    rw [if_pos hok]
    by_cases hp : cfg.policy = .survival <;> simp [hp, BeWindow.setSlot, BeWindow.enteringSlot]
  next => cases henters

/-- A launch that takes a slot leaves its stream there. -/
theorem afterLaunch_stream (cfg : BeConfig) (w : BeWindow) (d : Device GpuStream)
    (thread : Thread) (stream : CUstream) (perThreadDefaultStream : Bool) (o : AfterAnswers)
    (henters : (eventBeAfterLaunch cfg w d thread stream perThreadDefaultStream true o).enters =
      true) :
    ((eventBeAfterLaunch cfg w d thread stream perThreadDefaultStream true o).window.slots
        w.tail).stream = stream ∧
      ((eventBeAfterLaunch cfg w d thread stream perThreadDefaultStream true o).window.slots
        w.tail).perThreadDefaultStream = perThreadDefaultStream := by
  unfold eventBeAfterLaunch at henters ⊢
  dsimp only [BeWindow.clearCurrent] at henters ⊢
  cases huses : w.currentLaunchUsesWindow with
  | false =>
    rw [huses] at henters
    cases henters
  | true =>
    rw [huses] at henters
    exact enterWindow_stream cfg w d thread stream perThreadDefaultStream o henters

end Lilt.Be
