import Lilt.Hp.Watcher

/-!
# The watcher is woken whenever there is something to do

`event_hp_after_launch` signals the watcher only if no slot was active before the
launch. That is enough: a watcher nobody signalled went to sleep over an idle
tracker, and whatever ends that signals it.

- `Quiescent`: the condition under which the watcher goes to sleep.
- `WakeupSafe`: an unsignalled sleeper sleeps over a quiescent tracker.
- `watcher_blocked_quiescent`: so it is in every run.
-/

namespace Lilt.Hp

open Lilt.Activity Lilt.Driver Gpu Transition

/-- No slot is active and the process is not shutting down. -/
structure Quiescent (t : HpTracker) : Prop where
  idle : ∀ i, (t.slots i).active = false
  running : t.stop = false

/-- The watcher sleeps with no signal pending only over a quiescent tracker. -/
def WakeupSafe (s : HpProcess) : Prop := s.watcher = .blocked false → Quiescent s.tracker

theorem not_hpAnyActiveEventLocked_iff (t : HpTracker) :
    hpAnyActiveEventLocked t = false ↔ ∀ i, (t.slots i).active = false := by
  rw [Bool.eq_false_iff, Ne, hpAnyActiveEventLocked_iff]
  simp

/-- `pthread_cond_signal` leaves no sleeper unsignalled. -/
theorem signal_ne_blocked (pc : WatcherPc) : pc.signal ≠ .blocked false := by
  cases pc <;> simp [WatcherPc.signal]

section hooks

variable {t : HpTracker}

@[simp] theorem hpPublishIdleLocked_stop (t : HpTracker) :
    (hpPublishIdleLocked t).stop = t.stop := by
  unfold hpPublishIdleLocked; split <;> rfl

theorem Quiescent.of_slots {t' : HpTracker} (h : Quiescent t)
    (hslots : ∀ i, (t'.slots i).active = (t.slots i).active) (hstop : t'.stop = t.stop) :
    Quiescent t' :=
  { idle := fun i => (hslots i).trans (h.idle i)
    running := hstop.trans h.running }

theorem Quiescent.beforeLaunch (h : Quiescent t) (startOk : Bool) :
    Quiescent (eventHpBeforeLaunch t startOk) :=
  h.of_slots (fun i => by rw [beforeLaunch_slots]) (beforeLaunch_stop t startOk)

theorem SlotGot.stop {t' : HpTracker} {d d' : Device GpuStream} {stream : CUstream}
    {i : SlotIndex} (h : SlotGot t d stream i t' d') : t'.stop = t.stop := by
  rcases h.fresh with ⟨rfl, -⟩ | ⟨-, -, rfl⟩ <;> rfl

/-- A launch that leaves the hooks without a signal activates no slot, if none
was active. -/
theorem Quiescent.afterLaunch (h : Quiescent t) (cfg : HpConfig) (d : Device GpuStream)
    (thread : Thread) (stream : CUstream) (perThreadDefaultStream succeeded : Bool)
    (o : AfterAnswers)
    (hsignals : (eventHpAfterLaunch cfg t d thread stream perThreadDefaultStream succeeded
      o).signals = false) :
    Quiescent (eventHpAfterLaunch cfg t d thread stream perThreadDefaultStream succeeded
      o).tracker := by
  cases succeeded with
  | false => exact h.of_slots (fun i => by simp [eventHpAfterLaunch]) (by simp [eventHpAfterLaunch])
  | true =>
    have hidle := (not_hpAnyActiveEventLocked_iff t).mpr h.idle
    rcases trackLaunch_cases cfg t d thread stream perThreadDefaultStream o with
      ⟨i, t₁, d₁, -, hr⟩ | ⟨t₁, d₁, hgot, hr⟩
    · -- a slot was activated, the first one: the watcher is signalled
      simp [eventHpAfterLaunch, hr, hidle] at hsignals
    · have hkept : (∀ i, (t₁.slots i).active = (t.slots i).active) ∧ t₁.stop = t.stop := by
        rcases hgot with ⟨rfl, -⟩ | ⟨i, hgot⟩
        · exact ⟨fun _ => rfl, rfl⟩
        · exact ⟨hgot.keeps.1, hgot.stop⟩
      exact h.of_slots (fun i => by simp [eventHpAfterLaunch, hr, hkept.1 i])
        (by simp [eventHpAfterLaunch, hr, hkept.2])

end hooks

/-- A step of the watcher puts it to sleep only from the top of its loop. -/
theorem wakeupSafe_watcher {cfg : HpConfig} {s t : HpProcess} {a : WatcherAction}
    (hstep : WatcherStep cfg s a t) : WakeupSafe t := by
  intro hb
  cases hstep with
  | checkBlock h hs ha =>
    exact { idle := (not_hpAnyActiveEventLocked_iff _).mp ha, running := hs }
  | queryPass done h => exact absurd (h.symm.trans hb) (by simp)
  | observe h => dsimp only at hb; split at hb <;> cases hb
  | settle n h => dsimp only at hb; split at hb <;> cases hb
  | load n h => dsimp only at hb; split at hb <;> cases hb
  | _ => cases hb

/-- Every step keeps an unsignalled sleeper over a quiescent tracker. -/
theorem wakeupSafe_inductive (cfg : HpConfig) : (hpSystem cfg).Inductive WakeupSafe := by
  constructor
  · rintro s ⟨-, -, hw, -⟩ hb
    rw [hw] at hb
    cases hb
  · intro s a t _ hs hstep
    cases hstep with
    | before thread stream p startOk =>
      intro hb
      dsimp only at hb
      split at hb
      · cases hb
      · exact (hs hb).beforeLaunch startOk
    | launch c => exact fun hb => hs hb
    | launchFails c => exact fun hb => hs hb
    | after c k o =>
      intro hb
      dsimp only [HpProcess.afterLaunch] at hb
      split at hb
      next => exact absurd hb (signal_ne_blocked _)
      next hn => exact (hs hb).afterLaunch cfg _ _ _ _ _ o (by simpa using hn)
    | afterFailed c o =>
      intro hb
      dsimp only [HpProcess.afterLaunch] at hb
      split at hb
      next => exact absurd hb (signal_ne_blocked _)
      next hn => exact (hs hb).afterLaunch cfg _ _ _ _ _ o (by simpa using hn)
    | complete stream => exact fun hb => hs hb
    | shutdown => exact fun hb => absurd hb (signal_ne_blocked _)
    | watcher h => exact wakeupSafe_watcher h

/-- In every reachable state in which the watcher is in `pthread_cond_wait` with
no signal pending, no slot is active and the stop flag is clear. -/
theorem watcher_blocked_quiescent (cfg : HpConfig) {s : HpProcess}
    (h : (hpSystem cfg).Reachable s) (hb : s.watcher = .blocked false) :
    (∀ i, (s.tracker.slots i).active = false) ∧ s.tracker.stop = false := by
  have hq := (wakeupSafe_inductive cfg).reachable h hb
  exact ⟨hq.idle, hq.running⟩

/-- A watcher started by the first launch, asleep before that launch is tracked. -/
def sleepingProcess : HpProcess where
  tracker := eventHpBeforeLaunch .initial true
  device := .empty
  calls := [⟨1, 0, false, .entered⟩]
  watcher := .blocked false
  returned := []

theorem sleepingProcess_reachable (cfg : HpConfig) :
    (hpSystem cfg).Reachable sleepingProcess := by
  have hstart : (hpSystem cfg).Init
      { tracker := .initial, device := .empty, calls := [], watcher := .notStarted
        returned := [] } := ⟨rfl, rfl, rfl, rfl⟩
  have hentered := System.Reachable.step (.init hstart)
    (HpStep.before _ 1 0 false true (Nat.succ_ne_zero 0))
  exact .step hentered (.watcher (WatcherStep.checkBlock _ rfl rfl rfl))

theorem watcher_blocked_quiescent_sleeping :
    (∀ i, (sleepingProcess.tracker.slots i).active = false) ∧
      sleepingProcess.tracker.stop = false :=
  watcher_blocked_quiescent ⟨.deferred, 0⟩ (sleepingProcess_reachable _) rfl

end Lilt.Hp
