import Mathlib.Logic.Function.Basic

/-!
# The shared activity segment (`activity_tracker.c`)

One `EventShared` is the content of one shared-memory segment. The functions
here are the calls of `activity_tracker.c` as one uninterrupted step each; the
clock readings and the operating system's answer to `kill(pid, 0)` are inputs.
The single loads, stores and compare-exchanges that these calls consist of are
the subject of `Activity/Recovery.lean`.

Process ids are natural numbers, `0` meaning that nobody is registered. The
futex wake-ups change no word and are left out.
-/

namespace Lilt.Activity

abbrev Pid := Nat

/-- `LILT_EVENT_HP_IDLE` and `LILT_EVENT_HP_ACTIVE`. -/
inductive HpState where
  | idle
  | active
  deriving DecidableEq, Repr

/-- `LILT_EVENT_IDLE_SURVIVAL_BUCKETS` -/
def idleSurvivalBuckets : Nat := 20

/-- `g_idle_survival_thresholds_ns` -/
def gIdleSurvivalThresholdsNs : List UInt64 :=
  [20 * 1000, 50 * 1000, 75 * 1000, 100 * 1000, 125 * 1000, 141 * 1000, 161 * 1000,
   180 * 1000, 200 * 1000, 250 * 1000, 300 * 1000, 400 * 1000, 500 * 1000, 750 * 1000,
   1000 * 1000, 1500 * 1000, 2500 * 1000, 5000 * 1000, 10000 * 1000, 20000 * 1000]

/-! ## The segment -/

/-- `lilt_event_shared_state_t` -/
structure EventShared where
  magic : UInt32
  version : UInt32
  hpState : HpState
  hpOwnerPid : Pid
  /-- A `uint32_t`, but it counts the loaded copies of the proxy in one process, and so does
  not wrap. -/
  hpRegistrationCount : Nat
  hpIdleSamples : UInt32
  hpActiveSamples : UInt32
  hpGeneration : UInt64
  hpLastActiveNs : UInt64
  hpLastIdleNs : UInt64
  hpIdleEwmaNs : UInt64
  hpActiveEwmaNs : UInt64
  hpIdleSurvivalCounts : Nat → UInt64

/-- `LILT_EVENT_MAGIC` -/
def eventMagic : UInt32 := 0x54475345

/-- `LILT_EVENT_VERSION` -/
def eventVersion : UInt32 := 4

/-- A segment as `ftruncate` leaves a new one: all zero. -/
def EventShared.zeroed : EventShared where
  magic := 0
  version := 0
  hpState := .idle
  hpOwnerPid := 0
  hpRegistrationCount := 0
  hpIdleSamples := 0
  hpActiveSamples := 0
  hpGeneration := 0
  hpLastActiveNs := 0
  hpLastIdleNs := 0
  hpIdleEwmaNs := 0
  hpActiveEwmaNs := 0
  hpIdleSurvivalCounts _ := 0

/-- What `event_shared_get` does to a segment it maps, under the file lock: a
segment of another layout is cleared. -/
def eventSharedInitialize (m : EventShared) : EventShared :=
  if m.magic ≠ eventMagic ∨ m.version ≠ eventVersion then
    { EventShared.zeroed with version := eventVersion, magic := eventMagic }
  else m

/-- `update_ewma_ns`: a moving average of weight 1/8; zero means no sample yet. -/
def updateEwmaNs (previous sampleNs : UInt64) : UInt64 :=
  if previous = 0 then sampleNs
  else if previous ≤ sampleNs then previous + (sampleNs - previous) / 8
  else previous - (previous - sampleNs) / 8

/-- `owner_is_alive`, with the answer of `kill(owner, 0)` as a parameter. -/
def ownerIsAlive (alive : Pid → Bool) (owner : Pid) : Bool :=
  0 < owner && alive owner

/-! ## The calls -/

/-- `lilt_event_hp_register` by the process `self`. -/
def liltEventHpRegister (m : EventShared) (self : Pid) (now : UInt64) : EventShared :=
  if m.hpOwnerPid = self then
    { m with hpRegistrationCount := m.hpRegistrationCount + 1 }
  else
    { m with
      hpRegistrationCount := 1
      hpOwnerPid := self
      hpGeneration := m.hpGeneration + 1
      hpIdleSamples := 0
      hpActiveSamples := 0
      hpLastActiveNs := 0
      hpLastIdleNs := now
      hpIdleEwmaNs := 0
      hpActiveEwmaNs := 0
      hpIdleSurvivalCounts := fun i =>
        if i < idleSurvivalBuckets then 0 else m.hpIdleSurvivalCounts i
      hpState := .idle }

/-- Whether `lilt_event_hp_unregister` by `self` is the one that gives the
ownership up (and then unlinks the segment's name). -/
def unregistersLast (m : EventShared) (self : Pid) : Bool :=
  m.hpOwnerPid = self && m.hpRegistrationCount ≤ 1

/-- `lilt_event_hp_unregister` by the process `self`. -/
def liltEventHpUnregister (m : EventShared) (self : Pid) : EventShared :=
  if m.hpOwnerPid ≠ self then m
  else if 1 < m.hpRegistrationCount then
    { m with hpRegistrationCount := m.hpRegistrationCount - 1 }
  else { m with hpRegistrationCount := 0, hpState := .idle, hpOwnerPid := 0 }

/-- The part of `lilt_event_hp_mark_active` that counts the idle period that
ends at `now`. -/
def countIdlePeriod (m : EventShared) (now : UInt64) : EventShared :=
  if m.hpLastIdleNs ≠ 0 ∧ m.hpLastIdleNs < now then
    let idleDurationNs := now - m.hpLastIdleNs
    { m with
      hpIdleEwmaNs := updateEwmaNs m.hpIdleEwmaNs idleDurationNs
      hpIdleSurvivalCounts := fun i =>
        match gIdleSurvivalThresholdsNs[i]? with
        | some threshold =>
          if threshold < idleDurationNs then m.hpIdleSurvivalCounts i + 1
          else m.hpIdleSurvivalCounts i
        | none => m.hpIdleSurvivalCounts i
      hpIdleSamples := m.hpIdleSamples + 1 }
  else m

/-- `lilt_event_hp_mark_active` -/
def liltEventHpMarkActive (m : EventShared) (now : UInt64) : EventShared :=
  let counted := countIdlePeriod m now
  { counted with
    hpLastActiveNs := now
    hpGeneration := counted.hpGeneration + 1
    hpState := .active }

/-- The part of `lilt_event_hp_mark_idle` that counts the active period that
ends at `now`. -/
def countActivePeriod (m : EventShared) (now : UInt64) : EventShared :=
  if m.hpLastActiveNs ≠ 0 ∧ m.hpLastActiveNs < now then
    { m with
      hpActiveEwmaNs := updateEwmaNs m.hpActiveEwmaNs (now - m.hpLastActiveNs)
      hpActiveSamples := m.hpActiveSamples + 1 }
  else m

/-- `lilt_event_hp_mark_idle` -/
def liltEventHpMarkIdle (m : EventShared) (now : UInt64) : EventShared :=
  { countActivePeriod m now with hpLastIdleNs := now, hpState := .idle }

/-- `lilt_event_hp_owner`: the owner it returns and the segment it leaves. An
owner that is not alive is cleared. -/
def liltEventHpOwner (m : EventShared) (alive : Pid → Bool) : Pid × EventShared :=
  let owner := m.hpOwnerPid
  if owner ≠ 0 ∧ ¬ ownerIsAlive alive owner then
    (0, { m with hpOwnerPid := 0, hpRegistrationCount := 0, hpState := .idle })
  else (owner, m)

/-! ## What each call does to the words other processes decide by -/

/-- Statistics about idle periods have nothing to do with the owner. -/
@[simp] theorem countIdlePeriod_hpOwnerPid (m : EventShared) (now : UInt64) :
    (countIdlePeriod m now).hpOwnerPid = m.hpOwnerPid := by
  unfold countIdlePeriod; split <;> rfl

@[simp] theorem countIdlePeriod_hpRegistrationCount (m : EventShared) (now : UInt64) :
    (countIdlePeriod m now).hpRegistrationCount = m.hpRegistrationCount := by
  unfold countIdlePeriod; split <;> rfl

/-- Nor have those about active ones. -/
@[simp] theorem countActivePeriod_hpOwnerPid (m : EventShared) (now : UInt64) :
    (countActivePeriod m now).hpOwnerPid = m.hpOwnerPid := by
  unfold countActivePeriod; split <;> rfl

@[simp] theorem countActivePeriod_hpRegistrationCount (m : EventShared) (now : UInt64) :
    (countActivePeriod m now).hpRegistrationCount = m.hpRegistrationCount := by
  unfold countActivePeriod; split <;> rfl

/-- ACTIVE is what `lilt_event_hp_mark_active` leaves, whatever there was. -/
@[simp] theorem markActive_hpState (m : EventShared) (now : UInt64) :
    (liltEventHpMarkActive m now).hpState = .active := rfl

/-- It does not look at the owner. -/
@[simp] theorem markActive_hpOwnerPid (m : EventShared) (now : UInt64) :
    (liltEventHpMarkActive m now).hpOwnerPid = m.hpOwnerPid := by
  simp [liltEventHpMarkActive]

@[simp] theorem markActive_hpRegistrationCount (m : EventShared) (now : UInt64) :
    (liltEventHpMarkActive m now).hpRegistrationCount = m.hpRegistrationCount := by
  simp [liltEventHpMarkActive]

/-- IDLE is what `lilt_event_hp_mark_idle` leaves. -/
@[simp] theorem markIdle_hpState (m : EventShared) (now : UInt64) :
    (liltEventHpMarkIdle m now).hpState = .idle := rfl

/-- It does not look at the owner either. -/
@[simp] theorem markIdle_hpOwnerPid (m : EventShared) (now : UInt64) :
    (liltEventHpMarkIdle m now).hpOwnerPid = m.hpOwnerPid := by
  simp [liltEventHpMarkIdle]

@[simp] theorem markIdle_hpRegistrationCount (m : EventShared) (now : UInt64) :
    (liltEventHpMarkIdle m now).hpRegistrationCount = m.hpRegistrationCount := by
  simp [liltEventHpMarkIdle]

/-- A process that registers is the owner, whoever was. -/
@[simp] theorem register_hpOwnerPid (m : EventShared) (self : Pid) (now : UInt64) :
    (liltEventHpRegister m self now).hpOwnerPid = self := by
  unfold liltEventHpRegister
  split
  · assumption
  · rfl

/-- An owner that is alive is returned and nothing is written. -/
theorem hpOwner_of_alive {m : EventShared} {alive : Pid → Bool}
    (h : m.hpOwnerPid ≠ 0 → ownerIsAlive alive m.hpOwnerPid = true) :
    liltEventHpOwner m alive = (m.hpOwnerPid, m) := by
  unfold liltEventHpOwner
  by_cases h0 : m.hpOwnerPid = 0
  · simp [h0]
  · simp [h0, h h0]

end Lilt.Activity
