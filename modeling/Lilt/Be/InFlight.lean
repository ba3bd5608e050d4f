import Lilt.Be.Process
import Lilt.Lib.Ring

/-!
# The in-flight window is a bounded queue

The ring of slots holds the launches in flight, oldest first, and each of them is
retired by a wait for the event that was recorded behind it.

- `WindowInv`: the ring, the events of its slots, and the log.
- `PcFacts`: what the holder of the lock may rely on at each place.
- `WindowEffect`: what a step can do to the ring; `step_effect` finds it for every
  step, `WindowInv.effect` carries the invariant over each.
- `windowInv_reachable`: both hold in every run.
- `be_window_bounded_fifo`: the queue as a user of the window sees it.
-/

namespace Lilt.Be

open Lilt.Driver Gpu Transition

/-- The slot of the index `i` holds the launch `e`. -/
structure EntryHeld (i : Nat) (slot : BeEventSlot) (e : BeEntry) : Prop where
  slot_eq : e.slot = i
  event : slot.completionEvent = e.event
  owns : slot.Owns e.event
  predictedNs : slot.predictedNs = e.predictedNs

structure WindowInv (cfg : BeConfig) (s : BeProcess) : Prop where
  ring : Ring.Represents (fun slot : BeEventSlot => slot.active = true) EntryHeld
    s.window.slots cfg.window s.window.head s.window.tail s.inFlight
  outstanding : s.window.outstandingLaunches = s.inFlight.length
  retired : s.retired = (s.entered.take s.retired.length).map fun e => (e.slot, e.event)
  created : ∀ i e, (s.window.slots i).Owns e → e ≤ s.device.created
  apart : ∀ i j e, (s.window.slots i).Owns e → (s.window.slots j).Owns e → i = j
  /-- The event of a launch in flight was recorded behind its work. -/
  recorded : ∀ e ∈ s.inFlight, ∃ r, s.device.recorded e.event = some r ∧ r.Covers e.work
  asserts : ∀ a ∈ s.window.failedAsserts, a = .retireBlocks ∨ a = .retirePredicted

/-- What holds from the admission of a launch until `event_be_after_launch`. -/
structure Admitted (cfg : BeConfig) (s : BeProcess) : Prop where
  owner : s.window.currentLaunchUsesWindow = s.owner
  room : s.owner = true → s.window.outstandingLaunches < cfg.window
  timing : s.window.currentTimingSample = true →
    (s.window.slots s.window.tail).timingCreated = true

def PcFacts (cfg : BeConfig) (s : BeProcess) : Prop :=
  match s.pc with
  | .unlocked | .startupWait _ | .ownerCheck _ | .draining _ =>
    s.window.currentTimingSample = false
  | .bypass _ => s.window.currentTimingSample = false ∧ s.owner = false
  | .idleCheck _ | .survivalIdle _ | .survivalAdmit _ | .timeLoop _ _ | .blockLoop _ _ =>
    s.window.currentTimingSample = false ∧ s.owner = true
  | .launching _ => Admitted cfg s
  | .launched c work =>
    Admitted cfg s ∧ ∀ k ∈ work, k.stream = c.gpuStream ∧ s.device.Issued k

/-! ## What a step does to the ring -/

/-- The queue is as before. -/
structure SameQueue (s t : BeProcess) : Prop where
  head : t.window.head = s.window.head
  tail : t.window.tail = s.window.tail
  outstanding : t.window.outstandingLaunches = s.window.outstandingLaunches
  predicted : t.window.outstandingPredictedNs = s.window.outstandingPredictedNs
  asserts : t.window.failedAsserts = s.window.failedAsserts
  entered : t.entered = s.entered
  retired : t.retired = s.retired

/-- Nothing is in flight at the start. -/
theorem BeProcess.Starts.inFlight_nil {s : BeProcess} (h : s.Starts) : s.inFlight = [] := by
  show s.entered.drop s.retired.length = []
  rw [h.entered, List.drop_nil]

/-- The same launches are in flight. -/
theorem SameQueue.inFlight {s t : BeProcess} (h : SameQueue s t) : t.inFlight = s.inFlight := by
  unfold BeProcess.inFlight
  rw [h.entered, h.retired]

inductive WindowEffect (cfg : BeConfig) (s t : BeProcess) : Prop where
  | kept (h : SameQueue s t) (hslots : t.window.slots = s.window.slots)
      (hrecorded : t.device.recorded = s.device.recorded)
      (hcreated : t.device.created = s.device.created)
  | wrote (slot : BeEventSlot) (h : SameQueue s t)
      (hslots : t.window.slots = Function.update s.window.slots s.window.tail slot)
      (hbefore : (s.window.slots s.window.tail).active = false) (hslot : slot.active = false)
      (hgrow : EventsGrow (s.window.slots s.window.tail) s.device slot t.device)
  | retired (e : BeEntry) (rest : List BeEntry) (hhead : s.inFlight = e :: rest)
      (hwindow : t.window.slots = Function.update s.window.slots s.window.head
          (s.window.slots s.window.head).retired ∧
        t.window.head = (s.window.head + 1) % cfg.window ∧
        t.window.tail = s.window.tail ∧
        t.window.outstandingLaunches = s.window.outstandingLaunches - 1 ∧
        t.window.outstandingPredictedNs = s.window.outstandingPredictedNs - e.predictedNs)
      (hasserts : ∀ a ∈ t.window.failedAsserts, a ∈ s.window.failedAsserts ∨
        a = .retireBlocks ∨
        a = .retirePredicted ∧ ¬ e.predictedNs ≤ s.window.outstandingPredictedNs)
      (hdevice : t.device = s.device) (hentered : t.entered = s.entered)
      (hretired : t.retired = s.retired ++ [(e.slot, e.event)])
  | entered (e : BeEntry) (slot : BeEventSlot) (d : Device GpuStream)
      (hlaunched : s.owner = true ∧ ∃ c work, s.pc = .launched c work)
      (hroom : s.inFlight.length < cfg.window)
      (hheld : EntryHeld s.window.tail slot e) (hactive : slot.active = true)
      (hwindow : t.window.slots = Function.update s.window.slots s.window.tail slot ∧
        t.window.head = s.window.head ∧
        t.window.tail = (s.window.tail + 1) % cfg.window ∧
        t.window.outstandingLaunches = s.window.outstandingLaunches + 1 ∧
        t.window.outstandingPredictedNs = s.window.outstandingPredictedNs + e.predictedNs ∧
        t.window.failedAsserts = s.window.failedAsserts)
      (hcurrent : e.predictedNs = s.window.currentPredictedNs ∧
        e.unknown = s.window.currentPredictionUnknown)
      (hgrow : EventsGrow (s.window.slots s.window.tail) s.device slot d)
      (hissued : d.Issued e.work) (hdevice : t.device = d.record e.event e.work.stream)
      (hentered : t.entered = s.entered ++ [e]) (hretired : t.retired = s.retired)

/-! ## The effects keep the invariant -/

namespace WindowInv

variable {cfg : BeConfig} {s t : BeProcess}

/-- No launch is retired that did not take a slot. -/
theorem retired_le (hI : WindowInv cfg s) : s.retired.length ≤ s.entered.length := by
  have h := congrArg List.length hI.retired
  rw [List.length_map, List.length_take] at h
  omega

/-- There is room for the launches in flight. -/
theorem length_le (hI : WindowInv cfg s) : s.inFlight.length ≤ cfg.window := hI.ring.length_le

/-- With the counter at zero nothing is in flight. -/
theorem inFlight_nil (hI : WindowInv cfg s) (h : s.window.outstandingLaunches = 0) :
    s.inFlight = [] := by
  rw [hI.outstanding] at h
  exact List.length_eq_zero_iff.mp h

theorem initial (h : s.Starts) : WindowInv cfg s := by
  have hflight := h.inFlight_nil
  refine { ring := ?_, outstanding := ?_, retired := ?_, created := ?_, apart := ?_
           recorded := ?_, asserts := ?_ }
  · rw [h.window, hflight]
    exact Ring.represents_nil cfg.window_pos fun _ => nofun
  · rw [h.window, hflight]
    rfl
  · rw [h.retired, h.entered]
    rfl
  · rw [h.window]
    rintro i e (⟨hc, -⟩ | ⟨hc, -⟩)
    · cases hc
    · cases hc
  · rw [h.window]
    rintro i j e (⟨hc, -⟩ | ⟨hc, -⟩)
    · cases hc
    · cases hc
  · rw [hflight]
    exact fun _ he => nomatch he
  · rw [h.window]
    exact fun _ ha => nomatch ha

/-- The tail of a window with room is free. -/
theorem tail_free (hI : WindowInv cfg s) (hroom : s.inFlight.length < cfg.window) :
    (s.window.slots s.window.tail).active = false :=
  Bool.eq_false_iff.mpr (hI.ring.tail_unused hroom)

/-- Behind a slot that is given events, the slots still own their own events
only. -/
theorem created_update (hI : WindowInv cfg s) {i : Nat} {slot : BeEventSlot}
    {d : Device GpuStream} (hgrow : EventsGrow (s.window.slots i) s.device slot d) (j : Nat)
    (e : CUevent) (he : (Function.update s.window.slots i slot j).Owns e) : e ≤ d.created := by
  by_cases hj : j = i
  · subst hj
    rw [Function.update_self] at he
    rcases hgrow.owns e he with he | he
    · exact Nat.le_trans (hI.created _ e he) hgrow.created
    · exact he.2
  · rw [Function.update_of_ne hj] at he
    exact Nat.le_trans (hI.created _ e he) hgrow.created

/-- An event that is created is no other slot's. -/
theorem apart_of_grow (hI : WindowInv cfg s) {i j : Nat} {slot : BeEventSlot}
    {d : Device GpuStream} (hgrow : EventsGrow (s.window.slots i) s.device slot d) {e : CUevent}
    (hslot : slot.Owns e) (hother : (s.window.slots j).Owns e) : i = j := by
  rcases hgrow.owns e hslot with h | ⟨hlt, -⟩
  · exact hI.apart i j e h hother
  · have hle := hI.created j e hother
    exact absurd hlt (Nat.not_lt.mpr hle)

/-- The slots keep their events apart when one of them gets events. -/
theorem apart_update (hI : WindowInv cfg s) {i : Nat} {slot : BeEventSlot}
    {d : Device GpuStream} (hgrow : EventsGrow (s.window.slots i) s.device slot d) (j k : Nat)
    (e : CUevent) (hj : (Function.update s.window.slots i slot j).Owns e)
    (hk : (Function.update s.window.slots i slot k).Owns e) : j = k := by
  by_cases hji : j = i <;> by_cases hki : k = i
  · rw [hji, hki]
  · subst hji
    rw [Function.update_self] at hj
    rw [Function.update_of_ne hki] at hk
    exact hI.apart_of_grow hgrow hj hk
  · subst hki
    rw [Function.update_of_ne hji] at hj
    rw [Function.update_self] at hk
    exact (hI.apart_of_grow hgrow hk hj).symm
  · rw [Function.update_of_ne hji] at hj
    rw [Function.update_of_ne hki] at hk
    exact hI.apart j k e hj hk

/-- The events of the launches in flight are not those of a free slot. -/
theorem recorded_of_grow (hI : WindowInv cfg s)
    (hfree : (s.window.slots s.window.tail).active = false) {slot : BeEventSlot}
    {d : Device GpuStream} (hgrow : EventsGrow (s.window.slots s.window.tail) s.device slot d)
    {e : BeEntry} (he : e ∈ s.inFlight) :
    ¬ slot.Owns e.event ∧ d.recorded e.event = s.device.recorded e.event := by
  obtain ⟨j, hj, hget⟩ := List.mem_iff_getElem.mp he
  have hsome : s.inFlight[j]? = some e := List.getElem?_eq_some_iff.mpr ⟨hj, hget⟩
  have hactive := (hI.ring.used_iff _).mpr ⟨j, hj, rfl⟩
  have hheld := hI.ring.holds j e hsome
  -- `e` is held by an active slot, which is not the tail
  have hnot : ¬ slot.Owns e.event := by
    intro hslot
    have htail := hI.apart_of_grow hgrow hslot hheld.owns
    rw [← htail, hfree] at hactive
    cases hactive
  exact ⟨hnot, hgrow.recorded _ hnot⟩

/-- A step that leaves slots and queue alone. -/
theorem effect_kept (hI : WindowInv cfg s) (h : SameQueue s t)
    (hslots : t.window.slots = s.window.slots)
    (hrecorded : t.device.recorded = s.device.recorded)
    (hcreated : t.device.created = s.device.created) : WindowInv cfg t := by
  refine { ring := ?_, outstanding := ?_, retired := ?_, created := ?_, apart := ?_
           recorded := ?_, asserts := ?_ }
  · rw [hslots, h.head, h.tail, h.inFlight]
    exact hI.ring
  · rw [h.outstanding, h.inFlight]
    exact hI.outstanding
  · rw [h.retired, h.entered]
    exact hI.retired
  · rw [hslots, hcreated]
    exact hI.created
  · rw [hslots]
    exact hI.apart
  · rw [h.inFlight, hrecorded]
    exact hI.recorded
  · rw [h.asserts]
    exact hI.asserts

/-- A step that creates events for the free slot at the tail. -/
theorem effect_wrote (hI : WindowInv cfg s) {slot : BeEventSlot} (h : SameQueue s t)
    (hslots : t.window.slots = Function.update s.window.slots s.window.tail slot)
    (hbefore : (s.window.slots s.window.tail).active = false) (hslot : slot.active = false)
    (hgrow : EventsGrow (s.window.slots s.window.tail) s.device slot t.device) :
    WindowInv cfg t := by
  refine { ring := ?_, outstanding := ?_, retired := ?_, created := ?_, apart := ?_
           recorded := ?_, asserts := ?_ }
  · rw [hslots, h.head, h.tail, h.inFlight]
    exact hI.ring.writeUnused (Bool.eq_false_iff.mp hbefore) (Bool.eq_false_iff.mp hslot)
  · rw [h.outstanding, h.inFlight]
    exact hI.outstanding
  · rw [h.retired, h.entered]
    exact hI.retired
  · rw [hslots]
    exact hI.created_update hgrow
  · rw [hslots]
    exact hI.apart_update hgrow
  · rw [h.inFlight]
    intro e he
    rw [(hI.recorded_of_grow hbefore hgrow he).2]
    exact hI.recorded e he
  · rw [h.asserts]
    exact hI.asserts

/-- The oldest launch leaves the queue. -/
theorem inFlight_retired {e : BeEntry} {rest : List BeEntry} (hhead : s.inFlight = e :: rest)
    (hentered : t.entered = s.entered) (hretired : t.retired = s.retired ++ [(e.slot, e.event)]) :
    t.inFlight = rest ∧
      t.entered.take t.retired.length = s.entered.take s.retired.length ++ [e] := by
  unfold BeProcess.inFlight at hhead ⊢
  have hlen : t.retired.length = s.retired.length + 1 := by
    rw [hretired, List.length_append, List.length_singleton]
  have hget : s.entered[s.retired.length]? = some e := by
    rw [← List.head?_drop, hhead]
    rfl
  rw [hentered, hlen]
  constructor
  · rw [← List.tail_drop, hhead]
    rfl
  · rw [List.take_add_one, hget]
    rfl

/-- A step that retires the launch at the head. -/
theorem effect_retired (hI : WindowInv cfg s) {e : BeEntry} {rest : List BeEntry}
    (hhead : s.inFlight = e :: rest)
    (hslots : t.window.slots = Function.update s.window.slots s.window.head
      (s.window.slots s.window.head).retired)
    (hheadNext : t.window.head = (s.window.head + 1) % cfg.window)
    (htail : t.window.tail = s.window.tail)
    (hout : t.window.outstandingLaunches = s.window.outstandingLaunches - 1)
    (hasserts : ∀ a ∈ t.window.failedAsserts, a ∈ s.window.failedAsserts ∨
      a = .retireBlocks ∨
      a = .retirePredicted ∧ ¬ e.predictedNs ≤ s.window.outstandingPredictedNs)
    (hdevice : t.device = s.device) (hentered : t.entered = s.entered)
    (hretired : t.retired = s.retired ++ [(e.slot, e.event)]) : WindowInv cfg t := by
  obtain ⟨hflight, htake⟩ := inFlight_retired hhead hentered hretired
  -- a retired slot keeps its events for the next launch
  have howns : ∀ i e', (t.window.slots i).Owns e' ↔ (s.window.slots i).Owns e' := by
    intro i e'
    rw [hslots]
    by_cases hi : i = s.window.head
    · subst hi
      rw [Function.update_self]
      exact Iff.rfl
    · rw [Function.update_of_ne hi]
  refine { ring := ?_, outstanding := ?_, retired := ?_, created := fun i e' he' => ?_
           apart := fun i j e' hi hj => ?_, recorded := fun e' he' => ?_
           asserts := fun a ha => ?_ }
  · have hring := hI.ring
    rw [hhead] at hring
    rw [hslots, hheadNext, htail, hflight]
    exact hring.pop nofun
  · rw [hout, hflight, hI.outstanding, hhead]
    rfl
  · rw [htake, List.map_append, ← hI.retired]
    exact hretired
  · rw [hdevice]
    exact hI.created i e' ((howns i e').mp he')
  · exact hI.apart i j e' ((howns i e').mp hi) ((howns j e').mp hj)
  · rw [hdevice]
    refine hI.recorded e' ?_
    rw [hhead]
    rw [hflight] at he'
    exact List.mem_cons_of_mem _ he'
  · rcases hasserts a ha with ha | ha | ⟨ha, -⟩
    · exact hI.asserts a ha
    · exact .inl ha
    · exact .inr ha

/-- A launch that takes a slot is the newest. -/
theorem inFlight_entered (hI : WindowInv cfg s) {e : BeEntry}
    (hentered : t.entered = s.entered ++ [e]) (hretired : t.retired = s.retired) :
    t.inFlight = s.inFlight ++ [e] := by
  unfold BeProcess.inFlight
  rw [hentered, hretired, List.drop_append_of_le_length hI.retired_le]

/-- A step in which a launch takes the slot at the tail. -/
theorem effect_entered (hI : WindowInv cfg s) {e : BeEntry} {slot : BeEventSlot}
    {d : Device GpuStream} (hroom : s.inFlight.length < cfg.window)
    (hheld : EntryHeld s.window.tail slot e) (hactive : slot.active = true)
    (hslots : t.window.slots = Function.update s.window.slots s.window.tail slot)
    (hhead : t.window.head = s.window.head)
    (htail : t.window.tail = (s.window.tail + 1) % cfg.window)
    (hout : t.window.outstandingLaunches = s.window.outstandingLaunches + 1)
    (hasserts : t.window.failedAsserts = s.window.failedAsserts)
    (hgrow : EventsGrow (s.window.slots s.window.tail) s.device slot d)
    (hissued : d.Issued e.work) (hdevice : t.device = d.record e.event e.work.stream)
    (hentered : t.entered = s.entered ++ [e]) (hretired : t.retired = s.retired) :
    WindowInv cfg t := by
  have hflight := hI.inFlight_entered hentered hretired
  have hfree := hI.tail_free hroom
  refine { ring := ?_, outstanding := ?_, retired := ?_, created := ?_, apart := ?_
           recorded := ?_, asserts := ?_ }
  · rw [hslots, hhead, htail, hflight]
    exact hI.ring.push hroom hactive hheld
  · rw [hout, hflight, hI.outstanding, List.length_append]
    rfl
  · rw [hretired, hentered, List.take_append_of_le_length hI.retired_le]
    exact hI.retired
  · rw [hslots, hdevice]
    exact fun i e' he' => hI.created_update hgrow i e' he'
  · rw [hslots]
    exact hI.apart_update hgrow
  · rw [hflight, hdevice]
    intro e' he'
    rcases List.mem_append.mp he' with he' | he'
    · -- the events of the older launches are not the one just recorded
      obtain ⟨hnot, hsame⟩ := hI.recorded_of_grow hfree hgrow he'
      have hne : e'.event ≠ e.event := by
        intro heq
        rw [heq] at hnot
        exact hnot hheld.owns
      rw [Device.recorded_record_other _ _ hne, hsame]
      exact hI.recorded e' he'
    · rw [List.mem_singleton.mp he']
      exact ⟨_, Device.recorded_record_self .., hissued.covered⟩
  · rw [hasserts]
    exact hI.asserts

/-- Each effect keeps the invariant. -/
theorem effect (hI : WindowInv cfg s) (h : WindowEffect cfg s t) : WindowInv cfg t := by
  cases h with
  | kept h hslots hrecorded hcreated => exact hI.effect_kept h hslots hrecorded hcreated
  | wrote slot h hslots hbefore hslot hgrow => exact hI.effect_wrote h hslots hbefore hslot hgrow
  | retired e rest hhead hwindow hasserts hdevice hentered hretired =>
    obtain ⟨hslots, hheadNext, htail, hout, -⟩ := hwindow
    exact hI.effect_retired hhead hslots hheadNext htail hout hasserts hdevice hentered hretired
  | entered e slot d _ hroom hheld hactive hwindow _ hgrow hissued hdevice hentered hretired =>
    obtain ⟨hslots, hhead, htail, hout, -, hasserts⟩ := hwindow
    exact hI.effect_entered hroom hheld hactive hslots hhead htail hout hasserts hgrow hissued
      hdevice hentered hretired

end WindowInv

/-! ## Every step has one of the effects -/

section

variable {cfg : BeConfig} {fp : BeFloat} {s t : BeProcess}

/-- A launch at the head is in flight, and its slot is active. -/
theorem WindowInv.head_held (hI : WindowInv cfg s) (hout : s.window.outstandingLaunches ≠ 0) :
    ∃ e rest, s.inFlight = e :: rest ∧ (s.window.slots s.window.head).active = true ∧
      EntryHeld s.window.head (s.window.slots s.window.head) e := by
  cases hflight : s.inFlight with
  | nil =>
    rw [hI.outstanding, hflight] at hout
    exact absurd rfl hout
  | cons e rest =>
    have hring := hI.ring
    rw [hflight] at hring
    exact ⟨e, rest, rfl, hring.head_used⟩

/-- At most a new episode of the survival policy was noted in `w'`. -/
def BeWindow.EpisodeOnly (w w' : BeWindow) : Prop :=
  ∃ lastIdleNs launches,
    w' = { w with survivalEpisodeLastIdleNs := lastIdleNs, survivalEpisodeLaunches := launches }

theorem BeWindow.EpisodeOnly.refl (w : BeWindow) : w.EpisodeOnly w := ⟨_, _, rfl⟩

/-- What retiring the oldest launch changes. -/
theorem retireFrom_effect (hI : WindowInv cfg s) {w : BeWindow} (hw : s.window.EpisodeOnly w)
    (hout : s.window.outstandingLaunches ≠ 0) (o : RetireAnswers) (pc : BePc) :
    WindowEffect cfg s (s.retireFrom cfg w o pc) ∧
      (s.retireFrom cfg w o pc).window.currentTimingSample = s.window.currentTimingSample := by
  obtain ⟨lastIdleNs, launches, rfl⟩ := hw
  obtain ⟨e, rest, hhead, hactive, hheld⟩ := hI.head_held hout
  obtain ⟨profiles, asserts, hspec, hasserts⟩ := retire_spec cfg (w := { s.window with
    survivalEpisodeLastIdleNs := lastIdleNs, survivalEpisodeLaunches := launches })
    o hout hactive
  unfold BeProcess.retireFrom
  rw [hspec]
  refine ⟨.retired e rest hhead ⟨rfl, rfl, rfl, rfl, ?_⟩ ?_ rfl rfl ?_, rfl⟩
  · show s.window.outstandingPredictedNs - (s.window.slots s.window.head).predictedNs = _
    rw [hheld.predictedNs]
  · intro a ha
    rw [← hheld.predictedNs]
    rcases hasserts a ha with hold | ⟨hblocks, -⟩ | hpredicted
    · exact .inl hold
    · exact .inr (.inl hblocks)
    · exact .inr (.inr hpredicted)
  · show s.retired ++ [(s.window.head, (s.window.slots s.window.head).completionEvent)] = _
    rw [hheld.event, hheld.slot_eq]

theorem WindowInv.outstanding_lt (hI : WindowInv cfg s)
    (h : s.window.outstandingLaunches < cfg.window) : s.inFlight.length < cfg.window := by
  rw [← hI.outstanding]
  exact h

/-- Admitting a launch, with a timing sample if one is due. -/
theorem admittedSampling_effect (hI : WindowInv cfg s) {w : BeWindow}
    (hw : s.window.EpisodeOnly w)
    (hroom : s.window.outstandingLaunches < cfg.window) (howner : s.owner = true)
    (hnone : s.window.currentTimingSample = false) (c : BeCall) (o : PrepareAnswers) :
    WindowEffect cfg s (s.admittedSampling w c o) ∧
      Admitted cfg (s.admittedSampling w c o) ∧
      (s.admittedSampling w c o).window.currentPredictedNs = s.window.currentPredictedNs ∧
      (s.admittedSampling w c o).window.currentPredictionUnknown =
        s.window.currentPredictionUnknown ∧
      SameQueue s (s.admittedSampling w c o) := by
  obtain ⟨lastIdleNs, launches, rfl⟩ := hw
  have hfree := hI.tail_free (hI.outstanding_lt hroom)
  obtain ⟨slot, d, profiles, sampled, hspec, hslot, hcreated, hgrow⟩ := sampleTiming_spec
    (w := { s.window with
      survivalEpisodeLastIdleNs := lastIdleNs, survivalEpisodeLaunches := launches })
    hfree hnone s.device c.thread c.stream c.perThreadDefaultStream o
  unfold BeProcess.admittedSampling BeProcess.admitted
  dsimp only
  rw [hspec]
  refine ⟨.wrote slot ⟨rfl, rfl, rfl, rfl, rfl, rfl, rfl⟩ rfl hfree hslot hgrow, ?_, rfl, rfl,
    ⟨rfl, rfl, rfl, rfl, rfl, rfl, rfl⟩⟩
  · refine { owner := howner.symm, room := fun _ => hroom, timing := fun hsampled => ?_ }
    show (Function.update s.window.slots s.window.tail slot s.window.tail).timingCreated = true
    rw [Function.update_self]
    exact hcreated hsampled

/-- The loops let a launch pass only when there is room for it. -/
theorem timeLoop_room {budget : UInt64} (h : timeLoopWaits cfg s.window budget = false) :
    s.window.outstandingLaunches < cfg.window := by
  have hpos := cfg.window_pos
  simp only [timeLoopWaits, Bool.and_eq_false_iff, Bool.or_eq_false_iff,
    decide_eq_false_iff_not] at h
  omega

/-- Behind the loop there is room for the launch. -/
theorem blockLoop_room {blocks budget : UInt64}
    (h : blockLoopWaits cfg s.window blocks budget = false) :
    s.window.outstandingLaunches < cfg.window := by
  have hpos := cfg.window_pos
  simp only [blockLoopWaits, Bool.and_eq_false_iff, Bool.or_eq_false_iff,
    decide_eq_false_iff_not] at h
  omega

/-- The window that `event_be_survival_admission_locked` leaves. -/
theorem survival_keeps {timing : Option HpTiming} {now : UInt64} {w : BeWindow}
    {grant : Option (Nat × UInt64)}
    (hw : eventBeSurvivalAdmissionLocked cfg fp s.window timing now
      s.window.currentPredictedNs = (w, grant)) : s.window.EpisodeOnly w := by
  obtain ⟨lastIdleNs, launches, hkeep⟩ :=
    survivalAdmission_window cfg fp s.window timing now s.window.currentPredictedNs
  rw [hw] at hkeep
  exact ⟨lastIdleNs, launches, hkeep⟩

/-- A launch that the survival policy lets through has room. -/
theorem survival_room {timing : Option HpTiming} {now : UInt64} {w : BeWindow} {window : Nat}
    {budget : UInt64}
    (hw : eventBeSurvivalAdmissionLocked cfg fp s.window timing now
      s.window.currentPredictedNs = (w, some (window, budget)))
    (h : survivalWaits w (some (window, budget)) = false) :
    s.window.outstandingLaunches < cfg.window := by
  have hpos := cfg.window_pos
  have hle := (survivalAdmission_le hw).1
  obtain ⟨lastIdleNs, launches, rfl⟩ := survival_keeps hw
  simp only [survivalWaits, Bool.and_eq_false_iff, Bool.or_eq_false_iff,
    decide_eq_false_iff_not] at h
  split at h <;> omega

/-- The launch that takes the tail slot is queued in it. -/
theorem afterLaunch_enters (hroom : s.inFlight.length < cfg.window) {c : BeCall}
    {k : Ticket GpuStream} (hlaunched : s.owner = true ∧ ∃ c work, s.pc = .launched c work)
    (hstream : k.stream = c.gpuStream)
    (hissued : s.device.Issued k) {slot : BeEventSlot} {d : Device GpuStream}
    (hactive : slot.active = true) (hpredicted : slot.predictedNs = s.window.currentPredictedNs)
    (howns : slot.Owns slot.completionEvent)
    (hgrow : EventsGrow (s.window.slots s.window.tail) s.device slot d) {r : AfterResult}
    (hslots : r.window.slots = Function.update s.window.slots s.window.tail slot)
    (hhead : r.window.head = s.window.head)
    (htail : r.window.tail = (s.window.tail + 1) % cfg.window)
    (hout : r.window.outstandingLaunches = s.window.outstandingLaunches + 1)
    (hsum : r.window.outstandingPredictedNs =
      s.window.outstandingPredictedNs + s.window.currentPredictedNs)
    (hasserts : r.window.failedAsserts = s.window.failedAsserts)
    (hdevice : r.device = d.record slot.completionEvent c.gpuStream) (henters : r.enters = true) :
    WindowEffect cfg s (s.afterLaunch (some k) r) := by
  have hevent : (s.entry r k).event = slot.completionEvent := by
    show (r.window.slots s.window.tail).completionEvent = _
    rw [hslots, Function.update_self]
  refine .entered (s.entry r k) slot d hlaunched hroom ?_ hactive
    ⟨hslots, hhead, htail, hout, hsum, hasserts⟩ ⟨rfl, rfl⟩ hgrow (hissued.mono hgrow.le) ?_ ?_ rfl
  · refine { slot_eq := rfl, event := hevent.symm, owns := ?_, predictedNs := hpredicted }
    rw [hevent]
    exact howns
  · show r.device = d.record (s.entry r k).event k.stream
    rw [hevent, hstream]
    exact hdevice
  · show (if r.enters = true then s.entered ++ [s.entry r k] else s.entered) = _
    rw [if_pos henters]

/-- A launch that takes no slot is not entered. -/
theorem afterLaunch_stays {r : AfterResult} (henters : r.enters = false)
    (work : Option (Ticket GpuStream)) : (s.afterLaunch work r).entered = s.entered := by
  unfold BeProcess.afterLaunch
  dsimp only
  rw [henters]
  cases work <;> rfl

/-- A launch that uses the window finds room for it. -/
theorem Admitted.room_of_uses (hadmitted : Admitted cfg s) (hI : WindowInv cfg s)
    (huses : s.window.currentLaunchUsesWindow = true) : s.inFlight.length < cfg.window := by
  rw [hadmitted.owner] at huses
  exact hI.outstanding_lt (hadmitted.room huses)

/-- The hook after a launch that was admitted has one of its effects. -/
theorem Admitted.afterEffect (hadmitted : Admitted cfg s) (hI : WindowInv cfg s) (c : BeCall)
    (work : Option (Ticket GpuStream)) (o : AfterAnswers) :
    AfterEffect cfg s.window s.device c.thread c.stream c.perThreadDefaultStream work.isSome
      (s.afterResult cfg c work o) :=
  afterLaunch_effect cfg (fun huses => hI.tail_free (hadmitted.room_of_uses hI huses))
    (fun _ => hadmitted.timing) s.device c.thread c.stream c.perThreadDefaultStream work.isSome o

/-- The hook after a launch has one of the effects on the window. -/
theorem after_effect (hI : WindowInv cfg s) (hadmitted : Admitted cfg s) {c : BeCall}
    {work : Option (Ticket GpuStream)} (hpc : s.pc = .launched c work)
    (hwork : ∀ k ∈ work, k.stream = c.gpuStream ∧ s.device.Issued k) (o : AfterAnswers) :
    WindowEffect cfg s (s.afterLaunch work (s.afterResult cfg c work o)) ∧
      (s.afterResult cfg c work o).window.currentTimingSample = false := by
  have hroom := hadmitted.room_of_uses hI
  have heffect := hadmitted.afterEffect hI c work o
  generalize s.afterResult cfg c work o = r at heffect
  cases heffect with
  | outside profiles =>
    exact ⟨.kept ⟨rfl, rfl, rfl, rfl, rfl, afterLaunch_stays rfl work, rfl⟩ rfl rfl rfl, rfl⟩
  | enters slot d launches hok huses hactive _ hpredicted howns hgrow =>
    obtain ⟨k, rfl⟩ := Option.isSome_iff_exists.mp hok
    obtain ⟨hstream, hissued⟩ := hwork k rfl
    have howner : s.owner = true := hadmitted.owner.symm.trans huses
    exact ⟨afterLaunch_enters (hroom huses) ⟨howner, c, some k, hpc⟩ hstream hissued hactive
      hpredicted howns hgrow rfl rfl rfl rfl rfl rfl rfl rfl, rfl⟩
  | synchronizes slot d profiles launches hok huses hinactive hgrow =>
    exact ⟨.wrote slot ⟨rfl, rfl, rfl, rfl, rfl, afterLaunch_stays rfl work, rfl⟩ rfl
      (hI.tail_free (hroom huses)) hinactive hgrow, rfl⟩

/-- A launch takes a slot if the driver accepted it, it uses the window and its event is
recorded. -/
theorem afterResult_enters_iff (hadmitted : Admitted cfg s) (c : BeCall)
    (work : Option (Ticket GpuStream)) (o : AfterAnswers) :
    (s.afterResult cfg c work o).enters = true ↔
      (∃ k, work = some k) ∧ s.owner = true ∧ s.window.records o = true := by
  unfold BeProcess.afterResult
  cases work with
  | none =>
    refine iff_of_false Bool.false_ne_true ?_
    rintro ⟨⟨k, hk⟩, -⟩
    cases hk
  | some k =>
    rw [Option.isSome_some, afterLaunch_enters_eq, hadmitted.owner, Bool.and_eq_true_iff]
    exact (and_iff_right ⟨k, rfl⟩).symm

/-- The loops that retire launches find one to retire. -/
theorem retires_outstanding {pc : BePc} {w : BeWindow} {thread : Thread}
    (h : pc.retires cfg w = some thread) : w.outstandingLaunches ≠ 0 := by
  refine Nat.pos_iff_ne_zero.mp ?_
  cases pc with
  | bypass c | draining thread =>
    by_contra hout
    simp [BePc.retires, hout] at h
  | timeLoop c budget =>
    by_contra hout
    simp [BePc.retires, timeLoopWaits, hout] at h
  | blockLoop c budget =>
    by_contra hout
    simp [BePc.retires, blockLoopWaits, hout] at h
  | _ => cases h

/-- The survival loop retires only what is in flight. -/
theorem survivalWaits_outstanding {timing : Option HpTiming} {now : UInt64} {w : BeWindow}
    {grant : Option (Nat × UInt64)}
    (hw : eventBeSurvivalAdmissionLocked cfg fp s.window timing now
      s.window.currentPredictedNs = (w, grant))
    (h : survivalWaits w grant = true) : s.window.outstandingLaunches ≠ 0 := by
  obtain ⟨lastIdleNs, launches, rfl⟩ := survival_keeps hw
  refine Nat.pos_iff_ne_zero.mp ?_
  cases grant with
  | none => exact of_decide_eq_true h
  | some grant => exact of_decide_eq_true (Bool.and_eq_true_iff.mp h).1

/-- The idle check leads to the loop of the policy, with a prediction at most. -/
theorem choosePolicy_effect (timing : Option HpTiming) (now : UInt64) (c : BeCall) :
    WindowEffect cfg s (s.choosePolicy cfg fp c timing now) ∧
      (s.choosePolicy cfg fp c timing now).window.currentTimingSample =
        s.window.currentTimingSample ∧
      (s.choosePolicy cfg fp c timing now).owner = s.owner := by
  unfold BeProcess.choosePolicy
  obtain ⟨profiles, index, unknown, predictedNs, hpredict⟩ :=
    predict_keeps cfg s.window c.function c.blocks
  rw [hpredict]
  cases cfg.policy <;>
    exact ⟨.kept ⟨rfl, rfl, rfl, rfl, rfl, rfl, rfl⟩ rfl rfl rfl, rfl, rfl⟩

/-- Every step has one of the effects. -/
theorem step_effect (hI : WindowInv cfg s) (hpc : PcFacts cfg s) {a : BeAction}
    (h : BeStep cfg fp s a t) : WindowEffect cfg s t := by
  cases h with
  | retire thread o h ho =>
    exact (retireFrom_effect hI (.refl _) (retires_outstanding h) o s.pc).1
  | idle c timing now h => exact (choosePolicy_effect timing now c).1
  | survivalRetire c timing now w grant o h hw hwait ho =>
    exact (retireFrom_effect hI (survival_keeps hw) (survivalWaits_outstanding hw hwait) o _).1
  | survivalSleep c timing now w h hw hwait =>
    obtain ⟨lastIdleNs, launches, rfl⟩ := survival_keeps hw
    exact .kept ⟨rfl, rfl, rfl, rfl, rfl, rfl, rfl⟩ rfl rfl rfl
  | survivalAdmit c timing now w window budget o h hw hwait =>
    rw [PcFacts, h] at hpc
    exact (admittedSampling_effect hI (survival_keeps hw) (survival_room hw hwait)
      hpc.2 hpc.1 c o).1
  | timeAdmit c budget o h hwait =>
    rw [PcFacts, h] at hpc
    exact (admittedSampling_effect hI (.refl _) (timeLoop_room hwait) hpc.2 hpc.1 c o).1
  | after c work o h hsync =>
    rw [PcFacts, h] at hpc
    exact (after_effect hI hpc.1 h hpc.2 o).1
  | _ => exact .kept ⟨rfl, rfl, rfl, rfl, rfl, rfl, rfl⟩ rfl rfl rfl

/-- Retiring in a loop keeps what holds at the loop. -/
theorem PcFacts.retired (hpc : PcFacts cfg s) {thread : Thread}
    (h : s.pc.retires cfg s.window = some thread) (hsame : t.pc = s.pc)
    (howner : t.owner = s.owner)
    (htiming : t.window.currentTimingSample = s.window.currentTimingSample) :
    PcFacts cfg t := by
  unfold PcFacts at hpc ⊢
  rw [hsame, howner, htiming]
  cases hp : s.pc with
  | bypass c | timeLoop c budget | blockLoop c budget | draining thread =>
    rw [hp] at hpc
    exact hpc
  | _ =>
    rw [hp] at h
    cases h

/-- Every step keeps what is known where it leads to. -/
theorem pcFacts_step (hI : WindowInv cfg s) (hpc : PcFacts cfg s) {a : BeAction}
    (h : BeStep cfg fp s a t) : PcFacts cfg t := by
  cases h with
  | before c h =>
    cases hdone : s.window.startupWaitDone <;> simp [PcFacts, hdone, BeWindow.resetCurrent]
  | startupPoll c registered expired h hend =>
    rw [PcFacts, h] at hpc
    exact hpc
  | startupAgain c h => exact hpc
  | ownerCheck c registered h =>
    rw [PcFacts, h] at hpc
    cases registered <;> exact ⟨hpc, rfl⟩
  | retire thread o h ho =>
    obtain ⟨-, htiming⟩ := retireFrom_effect hI (.refl _) (retires_outstanding h) o s.pc
    exact hpc.retired h rfl rfl htiming
  | bypassed c h hempty =>
    -- without an HP process the launch does not use the window
    rw [PcFacts, h] at hpc
    refine { owner := hpc.2.symm, room := fun howner => ?_, timing := fun hsampled => ?_ }
    · rw [show s.owner = true from howner] at hpc
      exact Bool.noConfusion hpc.2
    · rw [show s.window.currentTimingSample = true from hsampled] at hpc
      exact Bool.noConfusion hpc.1
  | idle c timing now h =>
    rw [PcFacts, h] at hpc
    obtain ⟨-, htiming, howner⟩ :=
      @choosePolicy_effect cfg fp s timing now c
    have hfacts : (s.choosePolicy cfg fp c timing now).window.currentTimingSample = false ∧
        (s.choosePolicy cfg fp c timing now).owner = true :=
      ⟨htiming.trans hpc.1, howner.trans hpc.2⟩
    unfold PcFacts
    unfold BeProcess.choosePolicy at hfacts ⊢
    cases hp : cfg.policy <;> rw [hp] at hfacts <;> exact hfacts
  | survivalIdle c h =>
    rw [PcFacts, h] at hpc
    exact hpc
  | survivalRetire c timing now w grant o h hw hwait ho =>
    obtain ⟨-, htiming⟩ := retireFrom_effect hI (survival_keeps hw)
      (survivalWaits_outstanding hw hwait) o (.survivalIdle c)
    rw [PcFacts, h] at hpc
    exact ⟨htiming.trans hpc.1, hpc.2⟩
  | survivalSleep c timing now w h hw hwait =>
    obtain ⟨lastIdleNs, launches, rfl⟩ := survival_keeps hw
    rw [PcFacts, h] at hpc
    exact hpc
  | survivalAdmit c timing now w window budget o h hw hwait =>
    rw [PcFacts, h] at hpc
    exact (admittedSampling_effect hI (survival_keeps hw) (survival_room hw hwait)
      hpc.2 hpc.1 c o).2.1
  | timeAdmit c budget o h hwait =>
    rw [PcFacts, h] at hpc
    exact (admittedSampling_effect hI (.refl _) (timeLoop_room hwait) hpc.2 hpc.1 c o).2.1
  | blockAdmit c budget o h hwait =>
    rw [PcFacts, h] at hpc
    refine { owner := hpc.2.symm, room := fun _ => blockLoop_room hwait
             timing := fun hsampled => ?_ }
    rw [show s.window.currentTimingSample = true from hsampled] at hpc
    exact Bool.noConfusion hpc.1
  | launch c h =>
    rw [PcFacts, h] at hpc
    refine ⟨⟨hpc.owner, hpc.room, hpc.timing⟩, fun k hk => ?_⟩
    obtain rfl := Option.mem_some_iff.mp hk
    exact ⟨rfl, Device.issued_submit ..⟩
  | launchFails c h =>
    rw [PcFacts, h] at hpc
    exact ⟨⟨hpc.owner, hpc.room, hpc.timing⟩, fun k hk => absurd hk (Option.not_mem_none k)⟩
  | after c work o h hsync =>
    rw [PcFacts, h] at hpc
    exact (after_effect hI hpc.1 h hpc.2 o).2
  | boundary thread h =>
    rw [PcFacts, h] at hpc
    exact hpc
  | drained thread h hempty =>
    rw [PcFacts, h] at hpc
    exact hpc
  | complete stream =>
    unfold PcFacts at hpc ⊢
    cases hp : s.pc with
    | launched c work =>
      rw [hp] at hpc
      obtain ⟨hadmitted, hwork⟩ := hpc
      refine ⟨⟨hadmitted.owner, hadmitted.room, hadmitted.timing⟩, fun k hk => ?_⟩
      exact ⟨(hwork k hk).1, (hwork k hk).2.mono (Device.le_complete ..)⟩
    | launching c =>
      rw [hp] at hpc
      exact ⟨hpc.owner, hpc.room, hpc.timing⟩
    | _ =>
      rw [hp] at hpc
      exact hpc

/-- The invariant holds in every run, and what is known of each place. -/
theorem windowInv_reachable (h : (beSystem cfg fp).Reachable s) :
    WindowInv cfg s ∧ PcFacts cfg s := by
  have hind : (beSystem cfg fp).Inductive fun s => WindowInv cfg s ∧ PcFacts cfg s := by
    refine { init := fun s hs => ⟨.initial hs, ?_⟩, step := fun s a t _ hI hstep => ?_ }
    · rw [PcFacts, hs.pc, hs.window]
      rfl
    · exact ⟨hI.1.effect (step_effect hI.1 hI.2 hstep), pcFacts_step hI.1 hI.2 hstep⟩
  exact hind.reachable h

end

/-! ## The window as a queue -/

/-- The window holds the launches in flight as a queue of at most `g_be_window`
entries, and what left it left in launch order. -/
structure WindowQueue (cfg : BeConfig) (s : BeProcess) : Prop where
  bounded : s.window.outstandingLaunches ≤ cfg.window
  tail_eq : s.window.tail = (s.window.head + s.window.outstandingLaunches) % cfg.window
  active_iff : ∀ i, (s.window.slots i).active = true ↔
    ∃ j < s.window.outstandingLaunches, i = (s.window.head + j) % cfg.window
  asserts : .prepareSlotFree ∉ s.window.failedAsserts ∧
    .afterSlotFree ∉ s.window.failedAsserts ∧ .retireSlotActive ∉ s.window.failedAsserts
  entered_length : s.entered.length = s.retired.length + s.window.outstandingLaunches
  retired_eq : s.retired = (s.entered.take s.retired.length).map fun e => (e.slot, e.event)
  /-- The completion event of a launch in flight was recorded behind its work. -/
  in_flight : ∀ j e, s.inFlight[j]? = some e → e.slot = (s.window.head + j) % cfg.window ∧
    (s.window.slots e.slot).completionEvent = e.event ∧
    ∃ r, s.device.recorded e.event = some r ∧ r.Covers e.work

/-- The answers of the driver, if the action retires a launch. -/
def BeAction.retireAnswers : BeAction → Option RetireAnswers
  | .retire o => some o
  | .survivalRetire _ _ o => some o
  | _ => none

section

variable {cfg : BeConfig} {fp : BeFloat} {s t : BeProcess}

/-- The invariant says that the ring is the queue of the launches in flight. -/
theorem WindowInv.queue (hI : WindowInv cfg s) : WindowQueue cfg s := by
  refine { bounded := ?_, tail_eq := ?_, active_iff := fun i => ?_, asserts := ?_
           entered_length := ?_, retired_eq := hI.retired, in_flight := fun j e hj => ?_ }
  · rw [hI.outstanding]
    exact hI.length_le
  · rw [hI.outstanding]
    exact hI.ring.tail_eq
  · rw [hI.outstanding]
    exact hI.ring.used_iff i
  · refine ⟨fun ha => ?_, fun ha => ?_, fun ha => ?_⟩ <;>
      rcases hI.asserts _ ha with h | h <;> cases h
  · have hlen : s.inFlight.length = s.entered.length - s.retired.length := List.length_drop
    have hle := hI.retired_le
    have hout := hI.outstanding
    omega
  · have hheld := hI.ring.holds j e hj
    refine ⟨hheld.slot_eq, ?_, hI.recorded e (List.mem_of_getElem? hj)⟩
    rw [hheld.slot_eq]
    exact hheld.event

/-- An accepted launch of the window is the newest one in flight, or its stream was
synchronised. -/
theorem after_newest_or_finished (hI : WindowInv cfg s) (hpc : PcFacts cfg s) {c : BeCall}
    {k : Ticket GpuStream} {o : AfterAnswers} (hlaunched : s.pc = .launched c (some k))
    (howner : s.owner = true) (hok : o.synchronizeOk = true)
    (h : BeStep cfg fp s (.after o) t) :
    (∃ e, t.inFlight = s.inFlight ++ [e] ∧ e.work = k ∧ e.slot = s.window.tail ∧
      (t.window.slots e.slot).active = true) ∨ t.device.Finished k := by
  cases h with
  | after c' work o h hsync =>
    obtain ⟨rfl, rfl⟩ := BePc.launched.inj (h.symm.trans hlaunched)
    rw [PcFacts, h] at hpc
    obtain ⟨hadmitted, hwork⟩ := hpc
    have huses : s.window.currentLaunchUsesWindow = true := hadmitted.owner.trans howner
    have heffect := hadmitted.afterEffect hI c' (some k) o
    generalize s.afterResult cfg c' (some k) o = r at heffect hsync
    cases heffect with
    | outside profiles hout =>
      rw [hout rfl] at huses
      cases huses
    | enters slot d launches _ _ hactive _ _ _ hgrow =>
      refine .inl ⟨_, hI.inFlight_entered rfl rfl, rfl, rfl, ?_⟩
      show (Function.update s.window.slots s.window.tail slot s.window.tail).active = true
      rw [Function.update_self]
      exact hactive
    | synchronizes slot d profiles launches _ _ _ hgrow =>
      -- no record: the fallback waited for the work
      exact .inr ((hsync rfl hok k rfl).mono hgrow.le)

/-- A step retires nothing, or the oldest launch, whose work is complete when the
wait for its event succeeded. -/
theorem step_retires_oldest (hI : WindowInv cfg s) (hpc : PcFacts cfg s) {a : BeAction}
    (h : BeStep cfg fp s a t) :
    t.retired = s.retired ∨
      ∃ e, s.inFlight.head? = some e ∧ t.retired = s.retired ++ [(e.slot, e.event)] ∧
        ∀ o ∈ a.retireAnswers, o.synchronizeOk = true → s.device.Finished e.work := by
  cases step_effect hI hpc h with
  | kept hq => exact .inl hq.retired
  | wrote slot hq => exact .inl hq.retired
  | entered e slot d _ _ _ _ _ _ _ _ _ _ hretired => exact .inl hretired
  | retired e rest hhead _ _ _ _ hretired =>
    refine .inr ⟨e, ?_, hretired, fun o ho hok => ?_⟩
    · rw [hhead]
      rfl
    · have hmem : e ∈ s.inFlight := by
        rw [hhead]
        exact List.mem_cons_self
      have hring := hI.ring
      rw [hhead] at hring
      have hevent := hring.head_used.2.event
      obtain ⟨r, hrecorded, hcovers⟩ := hI.recorded e hmem
      -- a successful wait for the event means that the device got past its record
      have hwaited : s.device.EventDone e.event := by
        rw [← hevent]
        cases h with
        | retire thread o' _ hallowed =>
          obtain rfl := Option.mem_some_iff.mp ho
          exact hallowed.event hok
        | survivalRetire c timing now w grant o' _ _ _ hallowed =>
          obtain rfl := Option.mem_some_iff.mp ho
          exact hallowed.event hok
        | _ => cases ho
      exact (hwaited r hrecorded).finished hcovers

/-- What a launch adds to those in flight. -/
theorem afterLaunch_inFlight (hI : WindowInv cfg s) (work : Option (Ticket GpuStream))
    (r : AfterResult) :
    (s.afterLaunch work r).inFlight = s.inFlight ++
      match work with
      | some k => if r.enters then [s.entry r k] else []
      | none => [] := by
  cases work with
  | none => exact (List.append_nil _).symm
  | some k =>
    dsimp only
    split
    next henters =>
      refine hI.inFlight_entered ?_ rfl
      show (if r.enters = true then s.entered ++ [s.entry r k] else s.entered) = _
      rw [if_pos henters]
    next hout =>
      rw [List.append_nil]
      show (if r.enters = true then _ else s.entered).drop s.retired.length = _
      rw [if_neg hout]
      rfl

/-- Slots are taken after a launch only. -/
theorem entered_of_ne_after {a : BeAction} (h : BeStep cfg fp s a t) (ha : ∀ o, a ≠ .after o) :
    t.entered = s.entered := by
  cases h with
  | after c work o h hsync => exact absurd rfl (ha o)
  | idle c timing now h =>
    obtain ⟨w, pc, hchosen, -⟩ := choosePolicy_spec cfg fp s c timing now
    rw [hchosen]
  | _ => rfl

/-- Between two launches that return, only the oldest launch may leave. -/
theorem inFlight_step (hI : WindowInv cfg s) (hpc : PcFacts cfg s) {a : BeAction}
    (h : BeStep cfg fp s a t) (ha : ∀ o, a ≠ .after o) :
    t.inFlight = s.inFlight ∨ ∃ e, s.inFlight = e :: t.inFlight := by
  have hentered := entered_of_ne_after h ha
  rcases step_retires_oldest hI hpc h with hsame | ⟨e, hhead, hretired, -⟩
  · left
    unfold BeProcess.inFlight
    rw [hentered, hsame]
  · obtain ⟨rest, hflight⟩ := List.head?_eq_some_iff.mp hhead
    rw [hflight, (WindowInv.inFlight_retired hflight hentered hretired).1]
    exact .inr ⟨e, rfl⟩

/-- A launch in flight was in flight before the step, or it takes its slot in it. -/
theorem inFlight_cases (hI : WindowInv cfg s) (hpc : PcFacts cfg s) {a : BeAction}
    (h : BeStep cfg fp s a t) {e : BeEntry} (he : e ∈ t.inFlight) :
    e ∈ s.inFlight ∨ ∃ c k o, s.pc = .launched c (some k) ∧
      (s.afterResult cfg c (some k) o).enters = true ∧
      t = s.afterLaunch (some k) (s.afterResult cfg c (some k) o) ∧
      e = s.entry (s.afterResult cfg c (some k) o) k := by
  by_cases hafter : ∀ o, a ≠ .after o
  · rcases inFlight_step hI hpc h hafter with hsame | ⟨oldest, hleft⟩
    · rw [hsame] at he
      exact .inl he
    · rw [hleft]
      exact .inl (List.mem_cons_of_mem _ he)
  · cases h with
    | after c work o h hsync =>
      rw [afterLaunch_inFlight hI] at he
      rcases List.mem_append.mp he with he | he
      · exact .inl he
      · cases work with
        | none => exact absurd he List.not_mem_nil
        | some k =>
          dsimp only at he
          split at he
          next henters =>
            exact .inr ⟨c, k, o, h, henters, rfl, List.mem_singleton.mp he⟩
          next => exact absurd he List.not_mem_nil
    | _ => exact absurd (by rintro _ ⟨⟩) hafter

/-- A timing sample is work on the device. -/
theorem sampleTiming_le (w : BeWindow) (d : Device GpuStream) (thread : Thread)
    (stream : CUstream) (perThreadDefaultStream : Bool) (o : PrepareAnswers) :
    d.Le (eventBeSampleTiming w d thread stream perThreadDefaultStream o).2 := by
  unfold eventBeSampleTiming
  split
  · exact Device.Le.refl d
  · split
    · unfold eventBePrepareTimingSampleLocked
      dsimp only
      obtain ⟨slot, d', ok, hpair, -, -, hgrow⟩ := createTimingPair_spec
        (w.assertThat .prepareSlotFree (!(w.slots w.tail).active)) d o
      rw [hpair]
      dsimp only
      split
      · exact hgrow.le.trans (Device.le_record ..)
      · exact hgrow.le
    · exact Device.Le.refl d

/-- Every step is an evolution of the device. -/
theorem step_device_le (hI : WindowInv cfg s) (hpc : PcFacts cfg s) {a : BeAction}
    (h : BeStep cfg fp s a t) : s.device.Le t.device := by
  cases h with
  | idle c timing now h =>
    obtain ⟨w, pc, hchosen, -⟩ := choosePolicy_spec cfg fp s c timing now
    rw [hchosen]
    exact Device.Le.refl _
  | survivalAdmit c timing now w window budget o h hw hwait => exact sampleTiming_le ..
  | timeAdmit c budget o h hwait => exact sampleTiming_le ..
  | launch c h => exact Device.le_submit ..
  | complete stream => exact Device.le_complete ..
  | after c work o h hsync =>
    rw [PcFacts, h] at hpc
    have heffect := hpc.1.afterEffect hI c work o
    show s.device.Le (s.afterResult cfg c work o).device
    generalize s.afterResult cfg c work o = r at heffect
    cases heffect with
    | outside profiles => exact Device.Le.refl _
    | enters slot d launches hok huses hactive hslot hpredicted howns hgrow =>
      exact hgrow.le.trans (Device.le_record ..)
    | synchronizes slot d profiles launches hok huses hinactive hgrow => exact hgrow.le
  | _ => exact Device.Le.refl _

end

/-- In every run the window is a bounded queue of the launches in flight. A launch
that the driver accepted while an HP process was registered enters it as the
newest one, or is complete, if the fallback synchronisation succeeds; what leaves
it is the oldest one. -/
theorem be_window_bounded_fifo (cfg : BeConfig) (fp : BeFloat) {s : BeProcess}
    (h : (beSystem cfg fp).Reachable s) :
    WindowQueue cfg s ∧
      (∀ c k o t, s.pc = .launched c (some k) → s.owner = true → o.synchronizeOk = true →
        BeStep cfg fp s (.after o) t →
        (∃ e, t.inFlight = s.inFlight ++ [e] ∧ e.work = k ∧ e.slot = s.window.tail ∧
          (t.window.slots e.slot).active = true) ∨ t.device.Finished k) ∧
      ∀ a t, BeStep cfg fp s a t → t.retired = s.retired ∨
        ∃ e, s.inFlight.head? = some e ∧ t.retired = s.retired ++ [(e.slot, e.event)] ∧
          ∀ o ∈ a.retireAnswers, o.synchronizeOk = true → s.device.Finished e.work := by
  obtain ⟨hI, hpc⟩ := windowInv_reachable h
  refine ⟨hI.queue, fun c k o t hlaunched howner hok hstep => ?_, fun a t hstep => ?_⟩
  · exact after_newest_or_finished hI hpc hlaunched howner hok hstep
  · exact step_retires_oldest hI hpc hstep

/-! ## Two launches and a retirement -/

/-- A launch with an HP process registered and no failure of the driver. -/
theorem oneLaunch_reachable (fp : BeFloat) : ∃ s, (beSystem defaultConfig fp).Reachable s ∧
    s.inFlight.length = 1 ∧ s.pc = .unlocked := by
  have h₀ : (beSystem defaultConfig fp).Reachable startProcess := .init startProcess_starts
  have h₁ := h₀.leadsTo (leadsTo_pass rfl (.inr ⟨_, rfl, rfl⟩) :
    (beSystem defaultConfig fp).LeadsTo startProcess (startProcess.pass defaultConfig fp oneCall))
  exact ⟨_, h₁, rfl, rfl⟩

/-- Two launches are in flight, and the device has finished the first. -/
def twoLaunched : BeProcess :=
  let p := (startProcess.pass twoConfig plainFloat oneCall).pass twoConfig plainFloat oneCall
  { p with device := p.device.complete .legacy }

theorem twoLaunched_reachable : (beSystem twoConfig plainFloat).Reachable twoLaunched := by
  have h₀ : (beSystem twoConfig plainFloat).Reachable startProcess := .init startProcess_starts
  have h₁ := h₀.leadsTo (leadsTo_pass (c := oneCall) rfl (.inr ⟨_, rfl, rfl⟩))
  have h₂ := h₁.leadsTo (leadsTo_pass (c := oneCall) rfl (.inr ⟨_, rfl, rfl⟩))
  exact h₂.step (.complete _ .legacy)

/-- A boundary retires the first of them. -/
theorem be_window_bounded_fifo_two : ∃ s t e,
    WindowQueue twoConfig s ∧ s.inFlight.length = 2 ∧ s.inFlight.head? = some e ∧
      s.device.Finished e.work ∧ BeStep twoConfig plainFloat s (.retire ⟨true, false, none⟩) t ∧
      t.retired = s.retired ++ [(e.slot, e.event)] ∧ t.inFlight.length = 1 := by
  have hs := twoLaunched_reachable.step (BeStep.boundary _ 1 rfl)
  have hretire : BeStep twoConfig plainFloat { twoLaunched with pc := .draining 1 }
      (.retire ⟨true, false, none⟩) _ :=
    .retire _ 1 _ rfl ⟨fun _ => by decide, by rintro _ ⟨⟩⟩
  obtain ⟨hqueue, -, hretires⟩ := be_window_bounded_fifo twoConfig plainFloat hs
  rcases hretires _ _ hretire with hsame | ⟨e, hhead, hretired, hfinished⟩
  · exact absurd (congrArg List.length hsame) (by decide)
  · exact ⟨_, _, e, hqueue, rfl, hhead, hfinished _ rfl rfl, hretire, hretired, rfl⟩

end Lilt.Be
