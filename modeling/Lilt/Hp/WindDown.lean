import Lilt.Hp.Pass

/-!
# The HP process comes to rest

Whatever the HP process is in the middle of: if it begins no further launch and the driver
does what it is asked to, there is a way on to IDLE. Nobody is left behind on it: the watcher
was started if a slot is active, it is awake or signalled, and what it waits for is reached.

- `Lively`: what holds of the process in every run without its destructor.
- `Winds`: the steps of a process that winds down.
- `leadsTo_calls`, `leadsTo_top`, `leadsTo_cleared`: the launches leave the hooks, the
  watcher gets to the top of its loop, and one more pass clears the slots.
- `leadsTo_idle`: the way to IDLE, from every state.
-/

namespace Lilt.Hp

open Lilt.Activity Lilt.Driver Gpu Transition

/-! ## What holds in every run -/

/-- `g_hp_state_active` is left set only while something is to come that clears it. -/
def Shown (t : HpTracker) : Prop :=
  t.stateActive = true → t.launchesInProgress ≠ 0 ∨ ∃ i, (t.slots i).active = true

/-- The watcher was started, or no launch was tracked. -/
structure Started (s : HpProcess) : Prop where
  thread : s.watcher = .notStarted ↔ s.tracker.threadStarted = false
  slots : s.tracker.threadStarted = false → ∀ i, (s.tracker.slots i).active = false

/-- What the watcher waits for is queued. -/
def Awaits (d : Device GpuStream) : WatcherPc → Prop
  | .visiting _ _ (.synchronizing target) => ∀ r ∈ target, r.pos ≤ d.queued r.stream
  | .visiting _ _ (.streamSynchronizing target) => target.pos ≤ d.queued target.stream
  | _ => True

/-- The work of the launches in the hooks is queued. -/
def CallsIssued (s : HpProcess) : Prop :=
  ∀ c ∈ s.calls, ∀ k, c.phase = .accepted k → s.device.Issued k

/-- What holds of a process that has not come to its destructor. -/
structure Lively (cfg : HpConfig) (s : HpProcess) : Prop where
  reachable : (hpSystem cfg).Reachable s
  consistent : Consistent cfg s
  device : s.device.Sound
  issued : CallsIssued s
  shown : Shown s.tracker
  started : Started s
  running : s.watcher ≠ .exited
  awaits : Awaits s.device s.watcher

section hooks

variable {cfg : HpConfig} {t : HpTracker} {d : Device GpuStream} {thread : Thread}
  {stream : CUstream} {p : Bool} {o : AfterAnswers}

/-- IDLE is published as soon as nothing stands against it. -/
theorem shown_publishIdle (t : HpTracker) : Shown (hpPublishIdleLocked t) := by
  unfold hpPublishIdleLocked
  split
  next => exact nofun
  next hnot =>
    intro hactive
    by_contra hnone
    obtain ⟨hcalls, hslots⟩ := not_or.mp hnone
    refine hnot ?_
    rw [hactive, not_not.mp hcalls, (not_hpAnyActiveEventLocked_iff t).mpr fun i =>
      Bool.eq_false_iff.mpr fun hi => hslots ⟨i, hi⟩]
    rfl

/-- The hook after a launch moves the device on. -/
theorem trackLaunch_device (cfg : HpConfig) (t : HpTracker) (d : Device GpuStream)
    (thread : Thread) (stream : CUstream) (p : Bool) (o : AfterAnswers) :
    d.Le (trackLaunch cfg t d thread stream p o).device ∧
      (d.Sound → (trackLaunch cfg t d thread stream p o).device.Sound) := by
  rcases trackLaunch_cases cfg t d thread stream p o with
    ⟨i, t₁, d₁, hgot, hr⟩ | ⟨t₁, d₁, hgot, hr⟩
  · obtain ⟨hle, hrec⟩ := hgot.device
    rw [hr]
    dsimp only
    split
    · exact ⟨hle.trans (Device.le_record ..), fun h => (h.mono hle hrec).record _ _⟩
    · exact ⟨hle, fun h => h.mono hle hrec⟩
  · rw [hr]
    rcases hgot with ⟨rfl, rfl⟩ | ⟨i, hgot⟩
    · exact ⟨.refl _, id⟩
    · exact ⟨hgot.device.1, fun h => h.mono hgot.device.1 hgot.device.2⟩

/-- Without a watcher nothing is tracked. -/
theorem trackLaunch_not_started (h : t.threadStarted = false) :
    (trackLaunch cfg t d thread stream p o).tracker = t := by
  simp [trackLaunch, h]

/-- The hook after a launch leaves the watcher's flags. -/
theorem trackLaunch_flags (cfg : HpConfig) (t : HpTracker) (d : Device GpuStream)
    (thread : Thread) (stream : CUstream) (p : Bool) (o : AfterAnswers) :
    (trackLaunch cfg t d thread stream p o).tracker.threadStarted = t.threadStarted ∧
      (trackLaunch cfg t d thread stream p o).tracker.stop = t.stop := by
  have hgot {i t₁ d₁} (hgot : SlotGot t d stream i t₁ d₁) :
      t₁.threadStarted = t.threadStarted ∧ t₁.stop = t.stop := by
    rcases hgot.fresh with ⟨rfl, -⟩ | ⟨-, -, rfl⟩ <;> exact ⟨rfl, rfl⟩
  rcases trackLaunch_cases cfg t d thread stream p o with
    ⟨i, t₁, d₁, h, hr⟩ | ⟨t₁, d₁, h, hr⟩ <;> rw [hr]
  · show t₁.threadStarted = t.threadStarted ∧ t₁.stop = t.stop
    exact hgot h
  · rcases h with ⟨rfl, -⟩ | ⟨i, h⟩
    · exact ⟨rfl, rfl⟩
    · exact hgot h

@[simp] theorem hpPublishIdleLocked_threadStarted (t : HpTracker) :
    (hpPublishIdleLocked t).threadStarted = t.threadStarted := by
  unfold hpPublishIdleLocked; split <;> rfl

/-- The hook before a launch starts the watcher if it can. -/
theorem beforeLaunch_threadStarted (t : HpTracker) (startOk : Bool) :
    (eventHpBeforeLaunch t startOk).threadStarted = (t.threadStarted || startOk) := by
  have hstart : (eventHpBeforeLaunch t startOk).threadStarted =
      (eventHpStartWatcherLocked t startOk).threadStarted := by
    unfold eventHpBeforeLaunch
    dsimp only
    split <;> rfl
  rw [hstart]
  unfold eventHpStartWatcherLocked
  cases h : t.threadStarted <;> simp [h]

/-- A pass of queries leaves the watcher's flags. -/
theorem queryActiveEvents_flags (t : HpTracker) (done : SlotIndex → Bool) :
    (queryActiveEvents t done).threadStarted = t.threadStarted ∧
      (queryActiveEvents t done).stop = t.stop := by
  unfold queryActiveEvents
  dsimp only
  split
  · exact ⟨rfl, rfl⟩
  · rw [hpPublishIdleLocked_threadStarted, hpPublishIdleLocked_stop]
    exact ⟨rfl, rfl⟩

/-- A validation leaves the watcher started. -/
theorem validateSnapshots_threadStarted (t : HpTracker)
    (snapshots : List (HpEventWaitSnapshot × Bool)) :
    (validateSnapshots t snapshots).threadStarted = t.threadStarted := by
  unfold validateSnapshots
  rw [hpPublishIdleLocked_threadStarted]
  induction snapshots generalizing t with
  | nil => rfl
  | cons x rest ih =>
    rw [List.foldl_cons, ih]
    unfold validateSnapshot
    dsimp only
    split <;> rfl

end hooks

section steps

variable {cfg : HpConfig} {s t : HpProcess} {a : HpAction}

/-- What a launch that leaves the hooks does to the device and the watcher. -/
theorem afterLaunch_device (cfg : HpConfig) (h : s.device.Sound) (c : HpCall)
    (succeeded : Bool) (o : AfterAnswers) :
    let r := eventHpAfterLaunch cfg s.tracker s.device c.thread c.stream
      c.perThreadDefaultStream succeeded o
    s.device.Le r.device ∧ r.device.Sound := by
  cases succeeded with
  | false => exact ⟨.refl _, h⟩
  | true =>
    obtain ⟨hle, hsound⟩ := trackLaunch_device cfg s.tracker s.device c.thread c.stream
      c.perThreadDefaultStream o
    exact ⟨hle, hsound h⟩

/-- The device goes on, and its events stay recorded at points that are reached. -/
theorem sound_step (h : s.device.Sound) (hstep : HpStep cfg s a t) :
    s.device.Le t.device ∧ t.device.Sound := by
  cases hstep with
  | before | launchFails | shutdown => exact ⟨.refl _, h⟩
  | launch c hc hp => exact ⟨Device.le_submit .., h.mono (Device.le_submit ..) rfl⟩
  | after c k o hc hp hsync => exact afterLaunch_device cfg h c true o
  | afterFailed c o hc hp => exact afterLaunch_device cfg h c false o
  | complete stream => exact ⟨Device.le_complete .., h.mono (Device.le_complete ..) rfl⟩
  | watcher hw =>
    cases hw with
    | record => exact ⟨Device.le_record .., h.record _ _⟩
    | _ => exact ⟨.refl _, h⟩

/-- Every step keeps the work of the calls issued. -/
theorem issued_step (h : CallsIssued s) (hle : s.device.Le t.device)
    (hstep : HpStep cfg s a t) : CallsIssued t := by
  cases hstep with
  | before thread stream p startOk ht =>
    intro c hc k hk
    rcases List.mem_cons.mp hc with rfl | hc
    · cases hk
    · exact h c hc k hk
  | launch c hc hp =>
    intro c' hc' k hk
    rcases List.mem_cons.mp hc' with rfl | hc'
    · cases hk
      exact Device.issued_submit ..
    · exact (h c' (List.mem_of_mem_erase hc') k hk).mono hle
  | launchFails c hc hp =>
    intro c' hc' k hk
    rcases List.mem_cons.mp hc' with rfl | hc'
    · cases hk
    · exact h c' (List.mem_of_mem_erase hc') k hk
  | after c k o hc hp hsync =>
    exact fun c' hc' k' hk => (h c' (List.mem_of_mem_erase hc') k' hk).mono hle
  | afterFailed c o hc hp =>
    exact fun c' hc' k' hk => (h c' (List.mem_of_mem_erase hc') k' hk).mono hle
  | complete stream => exact fun c hc k hk => (h c hc k hk).mono hle
  | shutdown => exact h
  | watcher hw => cases hw <;> exact fun c hc k hk => (h c hc k hk).mono hle

/-- A step leaves the flag set only with something to come that clears it. -/
theorem shown_step (h : Shown s.tracker) (hstep : HpStep cfg s a t) : Shown t.tracker := by
  cases hstep with
  | before thread stream p startOk ht =>
    intro _
    rw [beforeLaunch_launchesInProgress]
    exact .inl (Nat.succ_ne_zero _)
  | after c k o hc hp hsync => exact shown_publishIdle _
  | afterFailed c o hc hp => exact shown_publishIdle _
  | launch | launchFails | complete | shutdown => exact h
  | watcher hw =>
    cases hw with
    | queryPass done =>
      show Shown (queryActiveEvents s.tracker done)
      unfold queryActiveEvents
      dsimp only
      split
      next hany => exact fun _ => .inr ((hpAnyActiveEventLocked_iff _).mp hany)
      next => exact shown_publishIdle _
    | validate => exact shown_publishIdle _
    | _ => exact h

/-- Leaving the hooks starts no watcher, and without one it tracks nothing. -/
theorem started_afterLaunch (h : Started s) (c : HpCall) (succeeded : Bool) (o : AfterAnswers) :
    Started (s.afterLaunch c (eventHpAfterLaunch cfg s.tracker s.device c.thread c.stream
      c.perThreadDefaultStream succeeded o)) := by
  have htracker : ∃ u, (s.afterLaunch c (eventHpAfterLaunch cfg s.tracker s.device c.thread
      c.stream c.perThreadDefaultStream succeeded o)).tracker = hpPublishIdleLocked u ∧
      u.threadStarted = s.tracker.threadStarted ∧
      (s.tracker.threadStarted = false → u.slots = s.tracker.slots) := by
    cases succeeded with
    | false => exact ⟨_, rfl, rfl, fun _ => rfl⟩
    | true =>
      refine ⟨_, rfl, (trackLaunch_flags ..).1, fun hnot => ?_⟩
      show (trackLaunch cfg s.tracker s.device c.thread c.stream c.perThreadDefaultStream
        o).tracker.slots = s.tracker.slots
      rw [trackLaunch_not_started hnot]
  obtain ⟨u, hu, hthread, hslots⟩ := htracker
  constructor
  · rw [hu, hpPublishIdleLocked_threadStarted, hthread, ← h.thread]
    show (if _ then s.watcher.signal else s.watcher) = .notStarted ↔ _
    split
    · cases s.watcher <;> simp [WatcherPc.signal]
    · exact Iff.rfl
  · rw [hu, hpPublishIdleLocked_threadStarted, hthread, hpPublishIdleLocked_slots]
    intro hnot
    rw [hslots hnot]
    exact h.slots hnot

/-- Steps of the watcher are taken by a watcher that was started. -/
theorem watcherStep_started {a : WatcherAction} (hstep : WatcherStep cfg s a t) :
    s.watcher ≠ .notStarted ∧ t.watcher ≠ .notStarted ∧
      t.tracker.threadStarted = s.tracker.threadStarted := by
  have hne {pc : WatcherPc} (hpc : s.watcher = pc) (hpc' : pc ≠ .notStarted) :
      s.watcher ≠ .notStarted := hpc ▸ hpc'
  cases hstep with
  | queryPass done h => exact ⟨hne h nofun, hne h nofun, (queryActiveEvents_flags ..).1⟩
  | validate visited phase h => exact ⟨hne h nofun, nofun, validateSnapshots_threadStarted ..⟩
  | observe h => exact ⟨hne h nofun, by dsimp only; split <;> exact nofun, rfl⟩
  | settle observed h => exact ⟨hne h nofun, by dsimp only; split <;> exact nofun, rfl⟩
  | load observed h => exact ⟨hne h nofun, by dsimp only; split <;> exact nofun, rfl⟩
  | checkStop h | checkBlock h | checkGo h => exact ⟨hne h nofun, nofun, rfl⟩
  | wake signalled h | snapshotStop stable h | snapshotRetry stable h | snapshot stable h =>
    exact ⟨hne h nofun, nofun, rfl⟩
  | recordNot visited x todo h | record visited x todo h | recordFails visited x todo h
  | synchronize visited x todo h | fallBack visited x todo h =>
    exact ⟨hne h nofun, nofun, rfl⟩
  | synchronized visited x todo target h | synchronizeFails visited x todo target h
  | streamSynchronized visited x todo target ok h => exact ⟨hne h nofun, nofun, rfl⟩

/-- A step tracks no launch without a watcher. -/
theorem started_step (h : Started s) (hstep : HpStep cfg s a t) : Started t := by
  have hstarted : s.watcher ≠ .notStarted → s.tracker.threadStarted = true := fun hne =>
    Bool.eq_true_of_not_eq_false fun hnot => hne (h.thread.mpr hnot)
  cases hstep with
  | before thread stream p startOk ht =>
    constructor
    · show (if _ then WatcherPc.top else s.watcher) = .notStarted ↔ _
      rw [beforeLaunch_threadStarted]
      cases hnot : s.tracker.threadStarted with
      | false => cases startOk <;> simp [h.thread, hnot]
      | true => simp [h.thread, hnot]
    · rw [beforeLaunch_threadStarted, beforeLaunch_slots]
      exact fun hnot => h.slots (Bool.or_eq_false_iff.mp hnot).1
  | launch | launchFails | complete => exact ⟨h.thread, h.slots⟩
  | after c k o hc hp hsync => exact started_afterLaunch h c true o
  | afterFailed c o hc hp => exact started_afterLaunch h c false o
  | shutdown =>
    refine ⟨?_, h.slots⟩
    rw [← h.thread]
    cases s.watcher <;> simp [WatcherPc.signal]
  | @watcher t a hw =>
    obtain ⟨hs, ht, hthread⟩ := watcherStep_started hw
    have hyes : t.tracker.threadStarted ≠ false := by
      rw [hthread, hstarted hs]
      decide
    exact ⟨iff_of_false ht hyes, fun hnot => absurd hnot hyes⟩

/-- The watcher exits at a shutdown only. -/
theorem running_step (hstop : s.tracker.stop = false) (h : s.watcher ≠ .exited)
    (ha : a ≠ .shutdown) (hstep : HpStep cfg s a t) : t.watcher ≠ .exited := by
  have hsignal (signals : Bool) :
      (if signals then s.watcher.signal else s.watcher) ≠ .exited := by
    split
    · cases hw : s.watcher <;> simp_all [WatcherPc.signal]
    · exact h
  cases hstep with
  | before thread stream p startOk ht =>
    dsimp only
    split
    · rintro ⟨⟩
    · exact h
  | after c k o hc hp hsync => exact hsignal _
  | afterFailed | launch | launchFails | complete => exact h
  | shutdown => exact absurd rfl ha
  | watcher hw =>
    cases hw with
    | checkStop _ hs | snapshotStop _ _ hs => exact absurd (hstop.symm.trans hs) (by decide)
    | queryPass => exact h
    | settle observed hpc =>
      dsimp only
      rw [hstop]
      rintro ⟨⟩
    | observe | load => dsimp only; split <;> rintro ⟨⟩
    | _ => rintro ⟨⟩

/-- What the watcher waits for stays issued. -/
theorem Awaits.mono {d d' : Device GpuStream} {pc : WatcherPc} (h : Awaits d pc)
    (hle : d.Le d') : Awaits d' pc := by
  unfold Awaits at h ⊢
  split
  next => exact fun r hr => Nat.le_trans (h r hr) (hle.1 r.stream)
  next => exact Nat.le_trans h (hle.1 _)
  next => trivial

/-- A signal leaves what the watcher waits for. -/
theorem Awaits.signal {d : Device GpuStream} {pc : WatcherPc} (h : Awaits d pc) :
    Awaits d pc.signal := by
  cases pc <;> exact h

/-- Every step keeps the watcher waiting for issued work. -/
theorem awaits_step (h : Awaits s.device s.watcher) (hsound : s.device.Sound)
    (hle : s.device.Le t.device) (hstep : HpStep cfg s a t) : Awaits t.device t.watcher := by
  have hsignal (signals : Bool) {d : Device GpuStream} (hd : s.device.Le d) :
      Awaits d (if signals then s.watcher.signal else s.watcher) := by
    split
    · exact (h.mono hd).signal
    · exact h.mono hd
  cases hstep with
  | before thread stream p startOk ht =>
    dsimp only
    split
    · trivial
    · exact h
  | after c k o hc hp hsync => exact hsignal _ hle
  | afterFailed | launch | launchFails | complete => exact h.mono hle
  | shutdown => exact h.signal
  | watcher hw =>
    cases hw with
    | queryPass => exact h
    | observe | settle | load => dsimp only; split <;> trivial
    | synchronize visited x todo hpc => exact hsound x.event
    | fallBack visited x todo hpc => exact Nat.le_refl _
    | _ => trivial

/-- The stop flag is set by the destructor only, and for good. -/
theorem stop_step (hstep : HpStep cfg s a t) (hstop : t.tracker.stop = false) :
    s.tracker.stop = false ∧ a ≠ .shutdown := by
  cases hstep with
  | before thread stream p startOk ht =>
    rw [beforeLaunch_stop] at hstop
    exact ⟨hstop, by rintro ⟨⟩⟩
  | after c k o hc hp hsync =>
    change (hpPublishIdleLocked _).stop = false at hstop
    rw [hpPublishIdleLocked_stop] at hstop
    exact ⟨(trackLaunch_flags ..).2.symm.trans hstop, by rintro ⟨⟩⟩
  | afterFailed c o hc hp =>
    change (hpPublishIdleLocked _).stop = false at hstop
    rw [hpPublishIdleLocked_stop] at hstop
    exact ⟨hstop, by rintro ⟨⟩⟩
  | launch | launchFails | complete => exact ⟨hstop, by rintro ⟨⟩⟩
  | shutdown => cases hstop
  | watcher hw =>
    refine ⟨?_, by rintro ⟨⟩⟩
    cases hw with
    | queryPass done => exact (queryActiveEvents_flags ..).2.symm.trans hstop
    | validate visited phase => exact (validateSnapshots_stop ..).symm.trans hstop
    | _ => exact hstop

/-- Every step but a shutdown keeps the process lively. -/
theorem lively_step (h : Lively cfg s) (ha : a ≠ .shutdown) (hstep : HpStep cfg s a t) :
    Lively cfg t := by
  obtain ⟨hle, hsound⟩ := sound_step h.device hstep
  exact { reachable := .step h.reachable hstep
          consistent := consistent_step h.consistent hstep ha
          device := hsound
          issued := issued_step h.issued hle hstep
          shown := shown_step h.shown hstep
          started := started_step h.started hstep
          running := running_step h.consistent.running h.running ha hstep
          awaits := awaits_step h.awaits h.device hle hstep }

/-- A process that starts is lively. -/
theorem lively_starts (h : s.Starts) (hsound : s.device.Sound) : Lively cfg s := by
  have hcopy := h
  obtain ⟨ht, hc, hw, -⟩ := h
  refine { reachable := .init hcopy, consistent := consistent_starts hcopy, device := hsound
           issued := ?_, shown := ?_, started := ?_, running := ?_, awaits := ?_ }
  · intro c hmem
    rw [hc] at hmem
    cases hmem
  · rw [ht]
    exact nofun
  · constructor
    · rw [hw, ht]
      exact iff_of_true rfl rfl
    · rw [ht]
      exact fun _ _ => rfl
  · rw [hw]
    exact nofun
  · rw [hw]
    trivial

end steps

/-! ## Winding down -/

/-- The steps of a process that begins no further launch and does not end, on a driver that
does what it is asked to. The watcher wakes up only if it was signalled. -/
def Winds (s : HpProcess) : HpAction → Prop
  | .before _ _ _ _ | .shutdown => False
  | .launch _ ok => ok = true
  | .after _ o => o = ⟨true, true, true⟩
  | .complete _ => True
  | .watcher (.record ok) | .watcher (.synchronized ok) | .watcher (.streamSynchronized ok) =>
    ok = true
  | .watcher .wake => s.watcher = .blocked true
  | .watcher _ => True

/-- The process while it winds down. -/
def windingSystem (cfg : HpConfig) : System HpProcess HpAction :=
  (hpSystem cfg).restrict Winds

section winding

variable {cfg : HpConfig} {s t : HpProcess} {a : HpAction}

/-- One more step that winds down. -/
theorem leadsTo_step {u : HpProcess} (hstep : HpStep cfg s a t) (ha : Winds s a)
    (htu : (windingSystem cfg).LeadsTo t u) : (windingSystem cfg).LeadsTo s u :=
  .step ⟨ha, hstep⟩ htu

/-- A process that winds down stays lively. -/
theorem Lively.winds (h : Lively cfg s) (hst : (windingSystem cfg).LeadsTo s t) :
    Lively cfg t := by
  refine System.LeadsTo.keeps (S := windingSystem cfg) (I := Lively cfg) ?_ hst h
  rintro s a t hs ⟨ha, hstep⟩
  refine lively_step hs ?_ hstep
  rintro rfl
  exact ha

/-- A watcher's step keeps the process lively. -/
theorem Lively.watcher {b : WatcherAction} (h : Lively cfg s) (hstep : WatcherStep cfg s b t) :
    Lively cfg t := lively_step h (by rintro ⟨⟩) (.watcher hstep)

/-! ### The device -/

/-- The process waits while the device works. -/
structure Waits (s t : HpProcess) : Prop where
  process : t = { s with device := t.device }
  le : s.device.Le t.device
  queued : t.device.queued = s.device.queued
  recorded : t.device.recorded = s.device.recorded

theorem Waits.refl (s : HpProcess) : Waits s s := ⟨rfl, .refl _, rfl, rfl⟩

/-- Waiting goes on. -/
theorem Waits.trans {u : HpProcess} (hst : Waits s t) (htu : Waits t u) : Waits s u := by
  refine ⟨?_, hst.le.trans htu.le, htu.queued.trans hst.queued,
    htu.recorded.trans hst.recorded⟩
  rw [htu.process, hst.process]

/-- A point that is reached is passed some time. -/
theorem leadsTo_passed (cfg : HpConfig) (s : HpProcess) {r : Ticket GpuStream}
    (hr : r.pos ≤ s.device.queued r.stream) :
    ∃ t, (windingSystem cfg).LeadsTo s t ∧ Waits s t ∧ t.device.Passed r := by
  generalize hn : r.pos - s.device.completed r.stream = n
  induction n generalizing s with
  | zero => exact ⟨s, .refl s, .refl s, Nat.sub_eq_zero_iff_le.mp hn⟩
  | succ n ih =>
    let u : HpProcess := { s with device := s.device.complete r.stream }
    have hcompleted := Device.completed_complete (d := s.device) (s := r.stream) (by omega)
    obtain ⟨t, hut, hwaits, hpassed⟩ := ih u hr (by
      show r.pos - (s.device.complete r.stream).completed r.stream = n
      omega)
    have hsu : Waits s u := ⟨rfl, Device.le_complete .., rfl, rfl⟩
    exact ⟨t, leadsTo_step (.complete s r.stream) trivial hut, hsu.trans hwaits, hpassed⟩

/-- So are several. -/
theorem leadsTo_all_passed (cfg : HpConfig) (s : HpProcess) (rs : List (Ticket GpuStream))
    (hrs : ∀ r ∈ rs, r.pos ≤ s.device.queued r.stream) :
    ∃ t, (windingSystem cfg).LeadsTo s t ∧ Waits s t ∧ ∀ r ∈ rs, t.device.Passed r := by
  induction rs generalizing s with
  | nil => exact ⟨s, .refl s, .refl s, fun _ hr => nomatch hr⟩
  | cons r rs ih =>
    obtain ⟨u, hsu, hwaits, hpassed⟩ := leadsTo_passed cfg s (hrs r List.mem_cons_self)
    obtain ⟨t, hut, hwaits', hall⟩ := ih u fun r' hr' => by
      rw [hwaits.queued]
      exact hrs r' (List.mem_cons_of_mem _ hr')
    refine ⟨t, hsu.trans hut, hwaits.trans hwaits', fun r' hr' => ?_⟩
    rcases List.mem_cons.mp hr' with rfl | hr'
    · exact Nat.le_trans hpassed (hwaits'.le.2 _)
    · exact hall r' hr'

/-! ### The launches in the hooks -/

/-- A launch that the driver accepted leaves the hooks when its work is complete. -/
theorem leadsTo_accepted (h : Lively cfg s) {c : HpCall} (hc : c ∈ s.calls)
    {k : Ticket GpuStream} (hk : c.phase = .accepted k) :
    ∃ t, (windingSystem cfg).LeadsTo s t ∧ t.calls.length + 1 = s.calls.length := by
  obtain ⟨u, hsu, hwaits, hpassed⟩ :=
    leadsTo_passed cfg s (r := ⟨k.stream, k.pos + 1⟩) (h.issued c hc k hk)
  have hcalls : u.calls = s.calls := by rw [hwaits.process]
  rw [← hcalls] at hc ⊢
  have hstep : HpStep cfg u (.after c ⟨true, true, true⟩) _ :=
    .after u c k ⟨true, true, true⟩ hc hk fun _ _ => hpassed
  refine ⟨_, hsu.trans (leadsTo_step hstep rfl (.refl _)), ?_⟩
  show (u.calls.erase c).length + 1 = u.calls.length
  have hpos := List.length_pos_of_mem hc
  rw [List.length_erase_of_mem hc]
  omega

/-- A launch in the hooks can leave them. -/
theorem leadsTo_fewer (h : Lively cfg s) {c : HpCall} (hc : c ∈ s.calls) :
    ∃ t, (windingSystem cfg).LeadsTo s t ∧ t.calls.length + 1 = s.calls.length := by
  have hpos := List.length_pos_of_mem hc
  cases hk : c.phase with
  | accepted k => exact leadsTo_accepted h hc hk
  | rejected =>
    have hstep : HpStep cfg s (.after c ⟨true, true, true⟩) _ :=
      .afterFailed s c ⟨true, true, true⟩ hc hk
    refine ⟨_, leadsTo_step hstep rfl (.refl _), ?_⟩
    show (s.calls.erase c).length + 1 = s.calls.length
    rw [List.length_erase_of_mem hc]
    omega
  | entered =>
    -- the driver accepts it first
    have hstep : HpStep cfg s (.launch c true) _ := .launch s c hc hk
    have hlively := lively_step h (by rintro ⟨⟩) hstep
    obtain ⟨t, hut, hcalls⟩ := leadsTo_accepted hlively List.mem_cons_self rfl
    refine ⟨t, leadsTo_step hstep rfl hut, hcalls.trans ?_⟩
    show (s.calls.erase c).length + 1 = s.calls.length
    rw [List.length_erase_of_mem hc]
    omega

/-- All launches leave the hooks. -/
theorem leadsTo_calls (h : Lively cfg s) :
    ∃ t, (windingSystem cfg).LeadsTo s t ∧ t.calls = [] := by
  generalize hn : s.calls.length = n
  induction n generalizing s with
  | zero => exact ⟨s, .refl s, List.length_eq_zero_iff.mp hn⟩
  | succ n ih =>
    obtain ⟨c, hc⟩ := List.exists_mem_of_length_pos (l := s.calls) (by omega)
    obtain ⟨u, hsu, hu⟩ := leadsTo_fewer h hc
    obtain ⟨t, hut, ht⟩ := ih (h.winds hsu) (by omega)
    exact ⟨t, hsu.trans hut, ht⟩

/-! ### The watcher -/

/-- The watcher gets to `pc`, and nothing happens to the tracker and the launches. -/
def GetsTo (cfg : HpConfig) (s : HpProcess) (pc : WatcherPc) : Prop :=
  ∃ t, (windingSystem cfg).LeadsTo s t ∧ t.watcher = pc ∧ t.tracker = s.tracker ∧
    t.calls = s.calls

theorem GetsTo.refl {pc : WatcherPc} (hpc : s.watcher = pc) : GetsTo cfg s pc :=
  ⟨s, .refl s, hpc, rfl, rfl⟩

/-- One more step of the watcher. -/
theorem GetsTo.step {b : WatcherAction} {pc : WatcherPc} (hstep : WatcherStep cfg s b t)
    (hb : Winds s (.watcher b)) (htracker : t.tracker = s.tracker) (hcalls : t.calls = s.calls)
    (h : GetsTo cfg t pc) : GetsTo cfg s pc := by
  obtain ⟨u, htu, hpc, htracker', hcalls'⟩ := h
  exact ⟨u, leadsTo_step (.watcher hstep) hb htu, hpc, htracker'.trans htracker,
    hcalls'.trans hcalls⟩

/-- The watcher goes on behind a wait. -/
theorem GetsTo.waits {pc : WatcherPc} (hst : (windingSystem cfg).LeadsTo s t)
    (hwaits : Waits s t) (h : GetsTo cfg t pc) : GetsTo cfg s pc := by
  obtain ⟨u, htu, hpc, htracker, hcalls⟩ := h
  rw [hwaits.process] at htracker hcalls
  exact ⟨u, hst.trans htu, hpc, htracker, hcalls⟩

/-- The watcher gets from place to place. -/
theorem GetsTo.trans {pc pc' : WatcherPc} (h : Lively cfg s) (hpc : GetsTo cfg s pc)
    (hnext : ∀ t, Lively cfg t → t.watcher = pc → t.tracker = s.tracker → GetsTo cfg t pc') :
    GetsTo cfg s pc' := by
  obtain ⟨t, hst, ht, htracker, hcalls⟩ := hpc
  obtain ⟨u, htu, hu, htracker', hcalls'⟩ := hnext t (h.winds hst) ht htracker
  exact ⟨u, hst.trans htu, hu, htracker'.trans htracker, hcalls'.trans hcalls⟩

section visiting

variable {visited : List (HpEventWaitSnapshot × Bool)} {x : HpEventWaitSnapshot}
  {todo : List HpEventWaitSnapshot}

/-- The watcher gets past an event. -/
theorem getsTo_synchronized (h : Lively cfg s) {target : Option (Ticket GpuStream)}
    (hpc : s.watcher = .visiting visited (x :: todo) (.synchronizing target)) :
    GetsTo cfg s (.visit visited x todo true) := by
  have hawaits := h.awaits
  rw [hpc] at hawaits
  obtain ⟨t, hst, hwaits, hpassed⟩ := leadsTo_all_passed cfg s target.toList fun r hr =>
    hawaits r (Option.mem_toList.mp hr)
  have hpc' : t.watcher = .visiting visited (x :: todo) (.synchronizing target) := by
    rw [hwaits.process]
    exact hpc
  have hstep : WatcherStep cfg t (.synchronized true) _ :=
    .synchronized t visited x todo target hpc' fun r hr => hpassed r (Option.mem_toList.mpr hr)
  exact .waits hst hwaits (.step hstep rfl rfl rfl (.refl rfl))

/-- The watcher gets past a stream. -/
theorem getsTo_streamSynchronized (h : Lively cfg s) {target : Ticket GpuStream}
    (hpc : s.watcher = .visiting visited (x :: todo) (.streamSynchronizing target)) :
    GetsTo cfg s (.visit visited x todo true) := by
  have hawaits := h.awaits
  rw [hpc] at hawaits
  obtain ⟨t, hst, hwaits, hpassed⟩ := leadsTo_passed cfg s hawaits
  have hpc' : t.watcher = .visiting visited (x :: todo) (.streamSynchronizing target) := by
    rw [hwaits.process]
    exact hpc
  have hstep : WatcherStep cfg t (.streamSynchronized true) _ :=
    .streamSynchronized t visited x todo target true hpc' fun _ => hpassed
  exact .waits hst hwaits (.step hstep rfl rfl rfl (.refl rfl))

/-- The watcher gets past an event that it recorded. -/
theorem getsTo_recorded (h : Lively cfg s)
    (hpc : s.watcher = .visiting visited (x :: todo) .recorded) :
    GetsTo cfg s (.visit visited x todo true) := by
  have hstep : WatcherStep cfg s .synchronize _ := .synchronize s visited x todo hpc
  have hlively := h.watcher hstep
  exact .step hstep trivial rfl rfl (getsTo_synchronized hlively rfl)

/-- The watcher gets done with the snapshot at hand, wherever it is with it. -/
theorem getsTo_visit (h : Lively cfg s) {phase : WaitPhase}
    (hpc : s.watcher = .visiting visited (x :: todo) phase) :
    GetsTo cfg s (.visit visited x todo true) := by
  cases phase with
  | arriving =>
    cases hx : recordsDeferred cfg x with
    | false =>
      have hstep : WatcherStep cfg s (.record true) _ := .recordNot s visited x todo hpc hx
      have hlively := h.watcher hstep
      exact .step hstep rfl rfl rfl (getsTo_recorded hlively rfl)
    | true =>
      have hstep : WatcherStep cfg s (.record true) _ := .record s visited x todo hpc hx
      have hlively := h.watcher hstep
      exact .step hstep rfl rfl rfl (getsTo_recorded hlively rfl)
  | recorded => exact getsTo_recorded h hpc
  | synchronizing target => exact getsTo_synchronized h hpc
  | failed =>
    have hstep : WatcherStep cfg s .fallBack _ := .fallBack s visited x todo hpc
    have hlively := h.watcher hstep
    exact .step hstep trivial rfl rfl (getsTo_streamSynchronized hlively rfl)
  | streamSynchronizing target => exact getsTo_streamSynchronized h hpc

/-- And with those to come, by induction on them. -/
theorem getsTo_visited (h : Lively cfg s) (hpc : s.watcher = .visiting visited todo .arriving) :
    GetsTo cfg s (.visiting (visited ++ todo.map fun x => (x, true)) [] .arriving) := by
  induction todo generalizing s visited with
  | nil => exact .refl (by rw [hpc, List.map_nil, List.append_nil])
  | cons x todo ih =>
    refine (getsTo_visit h hpc).trans h fun t ht hpc' _ => ?_
    have hrest := ih ht hpc'
    rw [List.append_assoc] at hrest
    exact hrest

/-- From wherever it is with the snapshots, the watcher gets to the validation. -/
theorem getsTo_validation (h : Lively cfg s) {phase : WaitPhase}
    (hpc : s.watcher = .visiting visited todo phase) :
    ∃ results phase', GetsTo cfg s (.visiting results [] phase') := by
  cases todo with
  | nil => exact ⟨visited, phase, .refl hpc⟩
  | cons x todo =>
    exact ⟨_, _, (getsTo_visit h hpc).trans h fun t ht hpc' _ => getsTo_visited ht hpc'⟩

end visiting

/-- The validation ends the pass. -/
theorem leadsTo_validated {results : List (HpEventWaitSnapshot × Bool)} {phase : WaitPhase}
    (h : GetsTo cfg s (.visiting results [] phase)) :
    ∃ t, (windingSystem cfg).LeadsTo s t ∧ t.watcher = .top ∧
      t.tracker = validateSnapshots s.tracker results ∧ t.calls = s.calls := by
  obtain ⟨t, hst, hpc, htracker, hcalls⟩ := h
  have hstep : WatcherStep cfg t .validate _ := .validate t results phase hpc
  refine ⟨_, hst.trans (leadsTo_step (.watcher hstep) trivial (.refl _)), rfl, ?_, hcalls⟩
  show validateSnapshots t.tracker results = _
  rw [htracker]

/-! ### To the top of the loop -/

/-- The watcher gets past its sleep. -/
theorem getsTo_slept (h : Lively cfg s) {observed : Nat}
    (hpc : s.watcher = .settling observed) : GetsTo cfg s (.slept observed) := by
  refine .step (.settle s observed hpc) trivial rfl rfl (.refl ?_)
  show (if s.tracker.stop then WatcherPc.exited else .slept observed) = .slept observed
  rw [h.consistent.running]
  rfl

/-- The watcher reads the generation and compares it. -/
theorem getsTo_loaded {observed : Nat} (hpc : s.watcher = .slept observed) :
    GetsTo cfg s (if s.tracker.recordGeneration = observed then .settled observed
      else .settling s.tracker.recordGeneration) :=
  .step (.load s observed hpc) trivial rfl rfl (.refl rfl)

/-- With nothing launched any more, one sleep settles the frontier. -/
theorem getsTo_settled_of_settling (h : Lively cfg s)
    (hpc : s.watcher = .settling s.tracker.recordGeneration) :
    GetsTo cfg s (.settled s.tracker.recordGeneration) := by
  refine (getsTo_slept h hpc).trans h fun t ht hslept htracker => ?_
  have hloaded : GetsTo cfg t _ := getsTo_loaded hslept
  rwa [htracker, if_pos rfl] at hloaded

/-- The generation stands still, so the watcher settles. -/
theorem getsTo_settled_of_slept (h : Lively cfg s) {observed : Nat}
    (hpc : s.watcher = .slept observed) : GetsTo cfg s (.settled s.tracker.recordGeneration) := by
  have hloaded : GetsTo cfg s _ := getsTo_loaded hpc
  split at hloaded
  next hsame => exact hsame ▸ hloaded
  next =>
    -- something was launched meanwhile: it sleeps once more
    refine hloaded.trans h fun t ht hsettling htracker => ?_
    rw [← htracker] at hsettling ⊢
    exact getsTo_settled_of_settling ht hsettling

/-- The watcher settles from the top of the loop. -/
theorem getsTo_settled_of_observing (h : Lively cfg s) (hpc : s.watcher = .observing) :
    GetsTo cfg s (.settled s.tracker.recordGeneration) := by
  have hobserved : GetsTo cfg s (if cfg.blockingQuietNs = 0
      then .settled s.tracker.recordGeneration else .settling s.tracker.recordGeneration) :=
    .step (.observe s hpc) trivial rfl rfl (.refl rfl)
  split at hobserved
  next => exact hobserved
  next =>
    refine hobserved.trans h fun t ht hsettling htracker => ?_
    rw [← htracker] at hsettling ⊢
    exact getsTo_settled_of_settling ht hsettling

/-- From a settled frontier the pass takes its course. -/
theorem leadsTo_passResult (h : Lively cfg s) (hcalls : s.calls = [])
    (hsettled : GetsTo cfg s (.settled s.tracker.recordGeneration)) :
    ∃ t, (windingSystem cfg).LeadsTo s t ∧ t.watcher = .top ∧
      t.tracker = passResult cfg [] s.tracker ∧ t.calls = [] := by
  have hvisited : GetsTo cfg s (.visiting
      (withResults cfg [] (hpSnapshotActiveEventsLocked s.tracker)) [] .arriving) := by
    obtain ⟨u, hsu, hpc, htracker, hu⟩ := hsettled
    have hlively := h.winds hsu
    have hzero : u.tracker.launchesInProgress = 0 := by
      rw [hlively.consistent.inProgress, hu, hcalls]
      rfl
    rw [← htracker] at hpc
    have hstep : WatcherStep cfg u .snapshot _ :=
      .snapshot u _ hpc hlively.consistent.running ⟨rfl, hzero⟩
    have hvisited := getsTo_visited (hlively.watcher hstep) rfl
    have hresults (xs : List HpEventWaitSnapshot) :
        withResults cfg [] xs = [] ++ xs.map fun x => (x, true) := by
      simp [withResults, clears]
    rw [hresults, ← htracker]
    obtain ⟨t, hut, ht⟩ := GetsTo.step hstep trivial rfl rfl hvisited
    exact ⟨t, hsu.trans hut, ht.1, ht.2.1.trans htracker, ht.2.2.trans hu⟩
  obtain ⟨t, hst, htop, htracker, ht⟩ := leadsTo_validated hvisited
  exact ⟨t, hst, htop, htracker, ht.trans hcalls⟩

/-- A watcher with a slot to clear gets to the top of its loop, wherever it is. -/
theorem leadsTo_top (h : Lively cfg s) (hcalls : s.calls = [])
    (hactive : ∃ i, (s.tracker.slots i).active = true) :
    ∃ t, (windingSystem cfg).LeadsTo s t ∧ t.watcher = .top ∧ t.calls = [] := by
  obtain ⟨i, hi⟩ := hactive
  have hpass (hsettled : GetsTo cfg s (.settled s.tracker.recordGeneration)) :
      ∃ t, (windingSystem cfg).LeadsTo s t ∧ t.watcher = .top ∧ t.calls = [] := by
    obtain ⟨t, hst, htop, -, ht⟩ := leadsTo_passResult h hcalls hsettled
    exact ⟨t, hst, htop, ht⟩
  cases hpc : s.watcher with
  | notStarted =>
    rw [h.started.slots (h.started.thread.mp hpc) i] at hi
    cases hi
  | top => exact ⟨s, .refl s, hpc, hcalls⟩
  | blocked signalled =>
    cases signalled with
    | false =>
      -- nobody sleeps over an active slot
      rw [((wakeupSafe_inductive cfg).reachable h.reachable hpc).idle i] at hi
      cases hi
    | true =>
      have hstep : WatcherStep cfg s .wake _ := .wake s true hpc
      exact ⟨_, leadsTo_step (.watcher hstep) hpc (.refl _), rfl, hcalls⟩
  | observing => exact hpass (getsTo_settled_of_observing h hpc)
  | settling observed =>
    refine hpass ((getsTo_slept h hpc).trans h fun t ht hslept htracker => ?_)
    rw [← htracker]
    exact getsTo_settled_of_slept ht hslept
  | slept observed => exact hpass (getsTo_settled_of_slept h hpc)
  | settled stable =>
    by_cases hstable : s.tracker.recordGeneration = stable
    · exact hpass (.refl (hstable ▸ hpc))
    · have hstep : WatcherStep cfg s .snapshot _ :=
        .snapshotRetry s stable hpc h.consistent.running (.inl hstable)
      exact ⟨_, leadsTo_step (.watcher hstep) trivial (.refl _), rfl, hcalls⟩
  | visiting visited todo phase =>
    obtain ⟨results, phase', hvalidation⟩ := getsTo_validation h hpc
    obtain ⟨t, hst, htop, -, ht⟩ := leadsTo_validated hvalidation
    exact ⟨t, hst, htop, ht.trans hcalls⟩
  | exited => exact absurd hpc h.running

/-! ### One more pass -/

/-- In query mode the device works until every event is done, and one query of each slot
clears it. -/
theorem leadsTo_queried (h : Lively cfg s) (hcalls : s.calls = []) (htop : s.watcher = .top)
    (hactive : ∃ i, (s.tracker.slots i).active = true) (hm : cfg.completionMode = .query) :
    ∃ t, (windingSystem cfg).LeadsTo s t ∧ t.calls = [] ∧
      ∀ i, (t.tracker.slots i).active = false := by
  let targets := (List.finRange eventMaxStreams).filterMap fun i =>
    s.device.recorded (s.tracker.slots i).event
  have hreached : ∀ r ∈ targets, r.pos ≤ s.device.queued r.stream := by
    intro r hr
    obtain ⟨i, -, hi⟩ := List.mem_filterMap.mp hr
    exact h.device _ r hi
  obtain ⟨t, hst, hwaits, hpassed⟩ := leadsTo_all_passed cfg s targets hreached
  have hlively := h.winds hst
  have htracker : t.tracker = s.tracker := by rw [hwaits.process]
  have hwatcher : t.watcher = .top := by rw [hwaits.process, htop]
  have hdone : ∀ i, t.device.EventDone (t.tracker.slots i).event := by
    intro i r hr
    rw [hwaits.recorded, htracker] at hr
    exact hpassed r (List.mem_filterMap.mpr ⟨i, List.mem_finRange i, hr⟩)
  have hstep : WatcherStep cfg t (.queryPass fun _ => true) _ :=
    .queryPass t (fun _ => true) hwatcher hlively.consistent.running
      ((hpAnyActiveEventLocked_iff _).mpr (htracker ▸ hactive)) hm fun i _ _ => hdone i
  refine ⟨_, hst.trans (leadsTo_step (.watcher hstep) trivial (.refl _)), ?_, fun i => ?_⟩
  · show t.calls = []
    rw [hwaits.process, hcalls]
  · show ((queryActiveEvents t.tracker fun _ => true).slots i).active = false
    rw [queryActiveEvents_slots]
    dsimp only
    split
    next => rfl
    next hnot => simpa using hnot

/-- From the top of the loop, with nothing launched any more, a pass clears the slots. -/
theorem leadsTo_cleared (h : Lively cfg s) (hcalls : s.calls = []) (htop : s.watcher = .top)
    (hactive : ∃ i, (s.tracker.slots i).active = true) :
    ∃ t, (windingSystem cfg).LeadsTo s t ∧ t.calls = [] ∧
      ∀ i, (t.tracker.slots i).active = false := by
  by_cases hm : cfg.completionMode = .query
  · exact leadsTo_queried h hcalls htop hactive hm
  · have hstep : WatcherStep cfg s .check _ :=
      .checkGo s htop h.consistent.running ((hpAnyActiveEventLocked_iff _).mpr hactive) hm
    have hlively := h.watcher hstep
    obtain ⟨t, hut, -, htracker, ht⟩ :=
      leadsTo_passResult hlively hcalls (getsTo_settled_of_observing hlively rfl)
    refine ⟨t, leadsTo_step (.watcher hstep) trivial hut, ht, fun i => ?_⟩
    -- no stream is destroyed, so none is stranded
    rw [htracker]
    refine Bool.eq_false_iff.mpr fun hi => ?_
    obtain ⟨-, -, -, hgone⟩ := (passResult_active i).mp hi
    exact List.not_mem_nil hgone

/-- From every state there is a way to IDLE: the launches leave the hooks, the watcher gets
to the top of its loop and clears the slots. -/
theorem leadsTo_idle (h : Lively cfg s) :
    ∃ t, (windingSystem cfg).LeadsTo s t ∧ t.calls = [] ∧ t.tracker.stateActive = false := by
  -- nothing in the hooks and no slot active: nothing keeps `g_hp_state_active` set
  have hidle {t : HpProcess} (ht : Lively cfg t) (hcalls : t.calls = [])
      (hslots : ∀ i, (t.tracker.slots i).active = false) : t.tracker.stateActive = false := by
    by_contra hactive
    rcases ht.shown (eq_true_of_ne_false hactive) with hlaunches | ⟨i, hi⟩
    · rw [ht.consistent.inProgress, hcalls] at hlaunches
      exact hlaunches rfl
    · rw [hslots i] at hi
      cases hi
  obtain ⟨t, hst, ht⟩ := leadsTo_calls h
  have hlively := h.winds hst
  by_cases hactive : ∃ i, (t.tracker.slots i).active = true
  · obtain ⟨u, htu, htop, hu⟩ := leadsTo_top hlively ht hactive
    have hlively' := hlively.winds htu
    by_cases hleft : ∃ i, (u.tracker.slots i).active = true
    · obtain ⟨v, huv, hv, hslots⟩ := leadsTo_cleared hlively' hu htop hleft
      exact ⟨v, hst.trans (htu.trans huv), hv, hidle (hlively'.winds huv) hv hslots⟩
    · exact ⟨u, hst.trans htu, hu, hidle hlively' hu fun i =>
        Bool.eq_false_iff.mpr fun hi => hleft ⟨i, hi⟩⟩
  · exact ⟨t, hst, ht, hidle hlively ht fun i =>
      Bool.eq_false_iff.mpr fun hi => hactive ⟨i, hi⟩⟩

end winding

end Lilt.Hp
