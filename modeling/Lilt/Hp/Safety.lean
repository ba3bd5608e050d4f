import Lilt.Hp.Watcher

/-!
# Incomplete work is never published as IDLE

While a launch is in the hooks or its work is incomplete, the HP process has
ACTIVE published. The argument follows a launch's work through the tracker:

- `Tracked`: work that left the hooks is complete or held by an active slot; a
  slot with no record due has its event recorded behind all work it holds.
- `WatcherSafe`: what the watcher found out about a snapshot. It only speaks of
  the slot's work while the slot's generation is the snapshot's: a launch that
  joins the slot later raises the generation.
- `Evolves`: what everybody else does to the slots meanwhile, which both survive.
- `hp_tracking_safe`: the result, for launches on shared streams.
-/

namespace Lilt.Hp

open Lilt.Activity Lilt.Driver Gpu Transition

/-- The launches that left the hooks. -/
abbrev Returned := List (Ticket GpuStream × Option SlotIndex)

/-! ## Work held by slots -/

/-- The slot holds the incomplete work `k`: it is active, `k` is on its stream,
and if no record is due its event was recorded behind `k`. -/
structure Held (slot : HpEventSlot) (d : Device GpuStream) (k : Ticket GpuStream) : Prop where
  active : slot.active = true
  onStream : ∀ p t, IsShared slot.stream p → k.stream = resolve slot.stream p t
  issued : d.Issued k
  covered : slot.deferredRecordPending = false → ∃ r, d.recorded slot.event = some r ∧ r.Covers k

/-- The slots track the work of the launches that left the hooks. -/
structure Tracked (cfg : HpConfig) (slots : SlotIndex → HpEventSlot) (d : Device GpuStream)
    (returned : Returned) : Prop where
  created : ∀ i, (slots i).event ≤ d.created
  own : ∀ i j, (slots i).event ≠ 0 → (slots i).event = (slots j).event → i = j
  allocated : ∀ i, (slots i).active = true → (slots i).event ≠ 0
  shared : ∀ i, (slots i).active = true →
    IsShared (slots i).stream (slots i).perThreadDefaultStream
  pending : ∀ i, (slots i).deferredRecordPending = true → cfg.completionMode = .deferred
  held : ∀ k i, (k, some i) ∈ returned → d.Finished k ∨ Held (slots i) d k
  synchronized : ∀ k, (k, none) ∈ returned → d.Finished k

/-- At the start nothing is tracked. -/
theorem tracked_initial (cfg : HpConfig) (d : Device GpuStream) :
    Tracked cfg HpTracker.initial.slots d [] :=
  { created := fun _ => Nat.zero_le _
    own := fun _ _ h => absurd rfl h
    allocated := fun _ h => by cases h
    shared := fun _ h => by cases h
    pending := fun _ h => by cases h
    held := fun _ _ h => by cases h
    synchronized := fun _ h => by cases h }

/-- A shared stream is no per-thread stream. -/
theorem not_perThreadSpecial_of_shared {stream : CUstream} {p : Bool}
    (h : IsShared stream p) : isPerThreadSpecialStream stream p = false := by
  obtain ⟨h2, h0⟩ := h
  unfold isPerThreadSpecialStream
  cases p
  · rfl
  · simp only [Bool.true_and, Bool.or_eq_false_iff, decide_eq_false_iff_not]
    exact ⟨fun hz => by simpa using h0 hz, h2⟩

section tracked

variable {cfg : HpConfig} {slots : SlotIndex → HpEventSlot} {d d' : Device GpuStream}
  {returned : Returned}

theorem Tracked.usable (h : Tracked cfg slots d returned) : SlotsUsable cfg slots :=
  ⟨h.allocated, h.pending⟩

theorem Tracked.events (h : Tracked cfg slots d returned) : EventsOwned slots d :=
  ⟨h.created, h.own⟩

/-- A launch stays held until the next record. -/
theorem Held.mono {slot : HpEventSlot} {k : Ticket GpuStream} (h : Held slot d k)
    (hle : d.Le d') (hrec : d'.recorded slot.event = d.recorded slot.event) :
    Held slot d' k :=
  { h with issued := h.issued.mono hle, covered := fun hp => hrec ▸ h.covered hp }

/-- Queueing and completing work. -/
theorem Tracked.mono (h : Tracked cfg slots d returned) (hle : d.Le d')
    (hrec : d'.recorded = d.recorded) (hcreated : d'.created = d.created) :
    Tracked cfg slots d' returned :=
  { h with
    created := fun i => hcreated ▸ h.created i
    held := fun k i hk => (h.held k i hk).imp (·.mono hle) (·.mono hle (hrec ▸ rfl))
    synchronized := fun k hk => (h.synchronized k hk).mono hle }

/-- Work that is complete needs no slot. -/
theorem Tracked.returned_finished (h : Tracked cfg slots d returned)
    {k : Ticket GpuStream} (hk : d.Finished k) :
    Tracked cfg slots d ((k, none) :: returned) := by
  refine { h with held := fun k' i hk' => ?_, synchronized := fun k' hk' => ?_ }
  · rcases List.mem_cons.mp hk' with hk' | hk'
    · cases hk'
    · exact h.held k' i hk'
  · rcases List.mem_cons.mp hk' with hk' | hk'
    · cases hk'
      exact hk
    · exact h.synchronized k' hk'

/-- A slot with no work left may be deactivated. -/
theorem Tracked.deactivate (h : Tracked cfg slots d returned) {slots' : SlotIndex → HpEventSlot}
    (hslots : ∀ i, slots' i = slots i ∨
      (slots' i).event = (slots i).event ∧ (slots' i).active = false ∧
      ((slots' i).deferredRecordPending = true → (slots i).deferredRecordPending = true) ∧
      ∀ k, (k, some i) ∈ returned → d.Finished k) :
    Tracked cfg slots' d returned := by
  have hevents : EventsOwned slots' d := h.events.congr fun i =>
    (hslots i).elim (fun heq => by rw [heq]) (·.1)
  have husable : SlotsUsable cfg slots' :=
    h.usable.deactivate fun i => (hslots i).imp id fun hi => ⟨hi.2.1, hi.2.2.1⟩
  refine { created := hevents.created, own := hevents.own, allocated := husable.allocated
           shared := fun i hi => ?_, pending := husable.pending, held := fun k i hk => ?_
           synchronized := h.synchronized }
  · rcases hslots i with heq | ⟨-, hinactive, -⟩
    · rw [heq] at hi ⊢
      exact h.shared i hi
    · rw [hinactive] at hi
      cases hi
  · rcases hslots i with heq | ⟨-, -, -, hf⟩
    · rw [heq]
      exact h.held k i hk
    · exact .inl (hf k hk)

/-- The watcher, or a hook, records the event of the slot `i` on its stream. -/
theorem Tracked.record (h : Tracked cfg slots d returned) {i : SlotIndex}
    (halloc : (slots i).event ≠ 0) {p : Bool} (t : Thread)
    (hshared : IsShared (slots i).stream p) :
    Tracked cfg slots (d.record (slots i).event (resolve (slots i).stream p t)) returned := by
  refine { h with held := fun k j hk => ?_, synchronized := h.synchronized }
  refine (h.held k j hk).imp id fun hheld => ?_
  by_cases hj : j = i
  · -- everything the slot holds was queued before the record
    subst hj
    refine { hheld with issued := hheld.issued, covered := fun _ => ?_ }
    refine ⟨_, Device.recorded_record_self .., ?_⟩
    rw [← hheld.onStream p t hshared]
    exact hheld.issued.covered
  · -- the other slots have events of their own
    have hne : (slots j).event ≠ (slots i).event :=
      fun heq => hj (h.own i j halloc heq.symm).symm
    exact hheld.mono (Device.le_record ..) (Device.recorded_record_other _ _ hne)

/-- `hp_event_slot_locked` allocates a slot. -/
theorem Tracked.slotGot {t t' : HpTracker} {stream : CUstream} {i : SlotIndex}
    (h : Tracked cfg t.slots d returned) (hgot : SlotGot t d stream i t' d') :
    Tracked cfg t'.slots d' returned := by
  have hevents := h.events.slotGot hgot
  have husable := h.usable.slotGot hgot
  obtain ⟨hle, hrec⟩ := hgot.device
  refine { created := hevents.created, own := hevents.own, allocated := husable.allocated
           shared := fun j hj => ?_, pending := husable.pending, held := fun k j hk => ?_
           synchronized := fun k hk => (h.synchronized k hk).mono hle }
  · rw [(hgot.flags j).1] at hj
    rw [h.usable.slots_eq hgot hj]
    exact h.shared j hj
  · refine (h.held k j hk).imp (·.mono hle) fun hheld => ?_
    rw [h.usable.slots_eq hgot hheld.active]
    exact hheld.mono hle (by rw [hrec])

/-- The slot `i` of the stream is activated for one more launch `k`; a record is
due, or its event was just recorded behind `k`. -/
theorem Tracked.activate (h : Tracked cfg slots d returned) {i : SlotIndex}
    (halloc : (slots i).event ≠ 0) {stream : CUstream} {p : Bool} {t : Thread}
    (hstream : (slots i).stream = stream) (hshared : IsShared stream p)
    {k : Ticket GpuStream} (hk : d.Issued k) (hks : k.stream = resolve stream p t)
    (hrec : cfg.completionMode ≠ .deferred →
      d.recorded (slots i).event = some (d.frontier (resolve stream p t))) :
    Tracked cfg (Function.update slots i (slotTracking cfg (slots i) stream p)) d
      ((k, some i) :: returned) := by
  have hspecial := not_perThreadSpecial_of_shared hshared
  have hself : Function.update slots i (slotTracking cfg (slots i) stream p) i =
      slotTracking cfg (slots i) stream p := Function.update_self ..
  have hother : ∀ j, j ≠ i →
      Function.update slots i (slotTracking cfg (slots i) stream p) j = slots j :=
    fun j hj => Function.update_of_ne hj ..
  have hevents : EventsOwned (Function.update slots i (slotTracking cfg (slots i) stream p)) d :=
    h.events.activate i stream p
  have husable := h.usable.activate halloc stream p
  -- every launch on the stream's shared default or created stream lies before the record
  have hcovers : ∀ k', d.Issued k' → k'.stream = resolve stream p t →
      (slotTracking cfg (slots i) stream p).deferredRecordPending = false →
      ∃ r, d.recorded (slots i).event = some r ∧ r.Covers k' := by
    intro k' hk' hs hp
    simp only [slotTracking, hspecial, Bool.not_false, Bool.and_true, decide_eq_false_iff_not] at hp
    refine ⟨_, hrec hp, ?_⟩
    rw [← hs]
    exact hk'.covered
  have hnew : ∀ k', d.Issued k' → k'.stream = resolve stream p t →
      Held (slotTracking cfg (slots i) stream p) d k' := fun k' hk' hs =>
    { active := rfl
      onStream := fun q u hq => by
        show k'.stream = resolve (slots i).stream q u
        rw [hs, hstream]
        exact resolve_shared t u hshared (hstream ▸ hq)
      issued := hk'
      covered := hcovers k' hk' hs }
  refine { created := hevents.created, own := hevents.own, allocated := husable.allocated
           shared := ?_, pending := husable.pending, held := ?_, synchronized := ?_ }
  · intro j hj
    by_cases hji : j = i
    · subst hji
      rw [hself]
      show IsShared (slots j).stream p
      rw [hstream]
      exact hshared
    · rw [hother j hji] at hj ⊢
      exact h.shared j hj
  · intro k' j hk'
    rcases List.mem_cons.mp hk' with hk' | hk'
    · cases hk'
      rw [hself]
      exact .inr (hnew k hk hks)
    · refine (h.held k' j hk').imp id fun hheld => ?_
      by_cases hji : j = i
      · subst hji
        rw [hself]
        have hs := hheld.onStream p t (hstream ▸ hshared)
        rw [hstream] at hs
        exact hnew k' hheld.issued hs
      · rw [hother j hji]
        exact hheld
  · intro k' hk'
    rcases List.mem_cons.mp hk' with hk' | hk'
    · cases hk'
    · exact h.synchronized k' hk'

end tracked

/-! ## What the watcher knows -/

/-- The snapshot was taken of its slot, maybe some launches of it ago. -/
structure Taken (slots : SlotIndex → HpEventSlot) (x : HpEventWaitSnapshot) : Prop where
  allocated : x.event ≠ 0
  event : (slots x.slotIndex).event = x.event
  stream : (slots x.slotIndex).stream = x.stream
  shared : IsShared x.stream x.perThreadDefaultStream
  generation : x.generation ≤ (slots x.slotIndex).generation
  pending : (slots x.slotIndex).generation = x.generation →
    (slots x.slotIndex).deferredRecordPending = true → x.deferredRecordPending = true

/-- If no launch joined the slot since the snapshot, all work the slot tracks is
complete or satisfies `Q`. -/
def Settles (slots : SlotIndex → HpEventSlot) (d : Device GpuStream) (returned : Returned)
    (x : HpEventWaitSnapshot) (Q : Ticket GpuStream → Prop) : Prop :=
  (slots x.slotIndex).generation = x.generation →
    ∀ k, (k, some x.slotIndex) ∈ returned → d.Finished k ∨ Q k

/-- What the phase of the wait says about the snapshot at hand. -/
def PhaseSafe (slots : SlotIndex → HpEventSlot) (d : Device GpuStream) (returned : Returned)
    (x : HpEventWaitSnapshot) : WaitPhase → Prop
  | .arriving => True
  | .recorded => Settles slots d returned x fun k => ∃ r ∈ d.recorded x.event, r.Covers k
  | .synchronizing target => Settles slots d returned x fun k => ∃ r ∈ target, r.Covers k
  | .failed => True
  | .streamSynchronizing target => Settles slots d returned x target.Covers

/-- What the watcher knows about the snapshots it took. -/
def WatcherSafe (slots : SlotIndex → HpEventSlot) (d : Device GpuStream)
    (returned : Returned) : WatcherPc → Prop
  | .visiting visited todo phase =>
    (∀ x ∈ visited, Taken slots x.1 ∧
      (x.2 = true → Settles slots d returned x.1 fun _ => False)) ∧
    (∀ x ∈ todo, Taken slots x) ∧
    ∀ x ∈ todo.head?, PhaseSafe slots d returned x phase
  | _ => True

/-- What the hooks, the launches and the device do to allocated slots: a slot
keeps its event and stream, and either a launch joins it or nothing does. -/
structure Evolves (slots : SlotIndex → HpEventSlot) (d : Device GpuStream)
    (returned : Returned) (slots' : SlotIndex → HpEventSlot) (d' : Device GpuStream)
    (returned' : Returned) : Prop where
  le : d.Le d'
  event : ∀ i, (slots i).event ≠ 0 → (slots' i).event = (slots i).event
  stream : ∀ i, (slots i).event ≠ 0 → (slots' i).stream = (slots i).stream
  generation : ∀ i, (slots i).event ≠ 0 →
    (slots i).generation < (slots' i).generation ∨
      (slots' i).generation = (slots i).generation ∧
      ((slots' i).deferredRecordPending = true → (slots i).deferredRecordPending = true) ∧
      d'.recorded (slots i).event = d.recorded (slots i).event ∧
      ∀ k, (k, some i) ∈ returned' → (k, some i) ∈ returned

section watcher

variable {slots slots' : SlotIndex → HpEventSlot} {d d' : Device GpuStream}
  {returned returned' : Returned} {x : HpEventWaitSnapshot}

/-- A snapshot stays one when the slots evolve. -/
theorem Taken.evolves (h : Taken slots x)
    (he : Evolves slots d returned slots' d' returned') : Taken slots' x := by
  have halloc : (slots x.slotIndex).event ≠ 0 := h.event ▸ h.allocated
  refine { h with event := (he.event _ halloc).trans h.event
                  stream := (he.stream _ halloc).trans h.stream
                  generation := ?_, pending := ?_ }
  · rcases he.generation _ halloc with hlt | ⟨heq, -⟩
    · exact Nat.le_of_lt (Nat.lt_of_le_of_lt h.generation hlt)
    · exact heq ▸ h.generation
  · intro hg hp
    rcases he.generation _ halloc with hlt | ⟨heq, hpend, -⟩
    · -- a launch joined, so the generation is not the snapshot's any more
      exact absurd h.generation (by omega)
    · exact h.pending (heq ▸ hg) (hpend hp)

/-- What a wait settles stays settled when the slots evolve. -/
theorem Settles.evolves {Q Q' : Ticket GpuStream → Prop} (h : Settles slots d returned x Q)
    (ht : Taken slots x) (he : Evolves slots d returned slots' d' returned')
    (hQ : d'.recorded x.event = d.recorded x.event → ∀ k, Q k → Q' k) :
    Settles slots' d' returned' x Q' := by
  intro hg k hk
  have halloc : (slots x.slotIndex).event ≠ 0 := ht.event ▸ ht.allocated
  rcases he.generation _ halloc with hlt | ⟨heq, -, hrec, hret⟩
  · exact absurd ht.generation (by omega)
  · rw [ht.event] at hrec
    exact (h (heq ▸ hg) k (hret k hk)).imp (·.mono he.le) (hQ hrec k)

/-- Every phase of a wait stays safe when the slots evolve. -/
theorem PhaseSafe.evolves {phase : WaitPhase} (h : PhaseSafe slots d returned x phase)
    (ht : Taken slots x) (he : Evolves slots d returned slots' d' returned') :
    PhaseSafe slots' d' returned' x phase := by
  cases phase with
  | arriving => trivial
  | recorded =>
    refine Settles.evolves h ht he fun hrec k ⟨r, hr, hc⟩ => ⟨r, ?_, hc⟩
    rw [hrec]
    exact hr
  | synchronizing target => exact Settles.evolves h ht he fun _ _ hk => hk
  | failed => trivial
  | streamSynchronizing target => exact Settles.evolves h ht he fun _ _ hk => hk

/-- The watcher stays safe when the slots evolve. -/
theorem WatcherSafe.evolves {pc : WatcherPc} (h : WatcherSafe slots d returned pc)
    (he : Evolves slots d returned slots' d' returned') :
    WatcherSafe slots' d' returned' pc := by
  cases pc with
  | visiting visited todo phase =>
    obtain ⟨hv, ht, hp⟩ := h
    refine ⟨fun x hx => ⟨(hv x hx).1.evolves he, fun ho => ?_⟩,
      fun x hx => (ht x hx).evolves he, fun x hx => ?_⟩
    · exact ((hv x hx).2 ho).evolves (hv x hx).1 he fun _ _ hk => hk
    · exact (hp x hx).evolves (ht x (List.mem_of_mem_head? hx)) he
  | _ => trivial

/-- The slots evolve from step to step. -/
theorem Evolves.trans {slots'' : SlotIndex → HpEventSlot} {d'' : Device GpuStream}
    {returned'' : Returned} (h : Evolves slots d returned slots' d' returned')
    (h' : Evolves slots' d' returned' slots'' d'' returned'') :
    Evolves slots d returned slots'' d'' returned'' := by
  have halloc : ∀ i, (slots i).event ≠ 0 → (slots' i).event ≠ 0 := fun i hi =>
    (h.event i hi).symm ▸ hi
  refine { le := h.le.trans h'.le
           event := fun i hi => (h'.event i (halloc i hi)).trans (h.event i hi)
           stream := fun i hi => (h'.stream i (halloc i hi)).trans (h.stream i hi)
           generation := fun i hi => ?_ }
  -- a launch joined in the first part, in the second, or in neither
  rcases h.generation i hi with hlt | ⟨heq, hp, hrec, hret⟩ <;>
    rcases h'.generation i (halloc i hi) with hlt' | ⟨heq', hp', hrec', hret'⟩
  · exact .inl (Nat.lt_trans hlt hlt')
  · exact .inl (heq' ▸ hlt)
  · exact .inl (heq ▸ hlt')
  · refine .inr ⟨heq'.trans heq, fun hx => hp (hp' hx), ?_, fun k hk => hret k (hret' k hk)⟩
    rw [h.event i hi] at hrec'
    exact hrec'.trans hrec

/-- The device goes on. -/
theorem evolves_device (hle : d.Le d') (hrec : d'.recorded = d.recorded) :
    Evolves slots d returned slots d' returned :=
  { le := hle
    event := fun _ _ => rfl
    stream := fun _ _ => rfl
    generation := fun _ _ => .inr ⟨rfl, id, by rw [hrec], fun _ => id⟩ }

/-- A launch leaves the hooks with its work complete. -/
theorem evolves_finished (k : Ticket GpuStream) :
    Evolves slots d returned slots d ((k, none) :: returned) := by
  refine { le := Device.Le.refl d, event := fun _ _ => rfl, stream := fun _ _ => rfl
           generation := fun _ _ => .inr ⟨rfl, id, rfl, fun k' hk' => ?_⟩ }
  rcases List.mem_cons.mp hk' with hk' | hk'
  · cases hk'
  · exact hk'

/-- Getting a slot lets the slots evolve. -/
theorem evolves_slotGot {t t' : HpTracker} {stream : CUstream} {i : SlotIndex}
    (hgot : SlotGot t d stream i t' d') : Evolves t.slots d returned t'.slots d' returned := by
  obtain ⟨hle, hrec⟩ := hgot.device
  refine { le := hle, event := fun j hj => by rw [hgot.of_allocated hj]
           stream := fun j hj => by rw [hgot.of_allocated hj], generation := fun j hj => .inr ?_ }
  rw [hgot.of_allocated hj, hrec]
  exact ⟨rfl, id, rfl, fun _ => id⟩

/-- A launch joins the slot `i`; at most the event of that slot is recorded. -/
theorem evolves_activate {i : SlotIndex} (slot : HpEventSlot) (hle : d.Le d')
    (hrec : ∀ j, j ≠ i → (slots j).event ≠ 0 →
      d'.recorded (slots j).event = d.recorded (slots j).event)
    (hevent : slot.event = (slots i).event) (hstream : slot.stream = (slots i).stream)
    (hgen : slot.generation = (slots i).generation + 1) (k : Ticket GpuStream) :
    Evolves slots d returned (Function.update slots i slot) d' ((k, some i) :: returned) := by
  refine { le := hle, event := fun j _ => ?_, stream := fun j _ => ?_
           generation := fun j hj => ?_ }
  · by_cases hji : j = i
    · subst hji; rw [Function.update_self, hevent]
    · rw [Function.update_of_ne hji]
  · by_cases hji : j = i
    · subst hji; rw [Function.update_self, hstream]
    · rw [Function.update_of_ne hji]
  · by_cases hji : j = i
    · subst hji
      rw [Function.update_self, hgen]
      exact .inl (Nat.lt_succ_self _)
    · rw [Function.update_of_ne hji]
      refine .inr ⟨rfl, id, hrec j hji hj, fun k' hk' => ?_⟩
      rcases List.mem_cons.mp hk' with hk' | hk'
      · cases hk'
        exact absurd rfl hji
      · exact hk'

/-- A signal leaves the watcher safe. -/
theorem WatcherSafe.signal {pc : WatcherPc} (h : WatcherSafe slots d returned pc) :
    WatcherSafe slots d returned pc.signal := by
  cases pc <;> exact h

end watcher

/-! ## The invariant -/

/-- The assumption on a run: launches use shared streams only, and a fallback
synchronisation of a stream succeeds. -/
def SharedStreams (_ : HpProcess) : HpAction → Prop
  | .before _ stream perThreadDefaultStream _ => IsShared stream perThreadDefaultStream
  | .after _ answers => answers.synchronizeOk = true
  | _ => True

/-- A launch between the hooks is on a shared stream, and its work, once the
driver accepted it, is queued there. -/
def CallOk (d : Device GpuStream) (c : HpCall) : Prop :=
  IsShared c.stream c.perThreadDefaultStream ∧ ∀ k, c.phase = .accepted k →
    d.Issued k ∧ k.stream = resolve c.stream c.perThreadDefaultStream c.thread

/-- A call stays sound when the device moves on. -/
theorem CallOk.mono {d d' : Device GpuStream} {c : HpCall} (h : CallOk d c) (hle : d.Le d') :
    CallOk d' c := ⟨h.1, fun k hk => ⟨(h.2 k hk).1.mono hle, (h.2 k hk).2⟩⟩

structure HpInv (cfg : HpConfig) (s : HpProcess) : Prop where
  publishes : Publishes s.tracker
  inProgress : s.tracker.launchesInProgress = s.calls.length
  calls : ∀ c ∈ s.calls, CallOk s.device c
  tracked : Tracked cfg s.tracker.slots s.device s.returned
  watcher : WatcherSafe s.tracker.slots s.device s.returned s.watcher

section steps

variable {cfg : HpConfig} {s : HpProcess}

/-- The invariant holds at the start. -/
theorem hpInv_starts (h : s.Starts) : HpInv cfg s := by
  obtain ⟨ht, hc, hw, hr⟩ := h
  refine { publishes := ht ▸ publishes_initial, inProgress := by rw [ht, hc]; rfl
           calls := fun c hcs => by simp [hc] at hcs
           tracked := by rw [ht, hr]; exact tracked_initial cfg s.device
           watcher := by rw [hw]; trivial }

/-- What `trackLaunch` does to the slots for a launch on a shared stream. -/
theorem tracked_trackLaunch {t : HpTracker} {d : Device GpuStream} {returned : Returned}
    (h : Tracked cfg t.slots d returned) {thread : Thread} {stream : CUstream} {p : Bool}
    (hshared : IsShared stream p) {k : Ticket GpuStream} (hk : d.Issued k)
    (hks : k.stream = resolve stream p thread) (o : AfterAnswers)
    (hsync : (trackLaunch cfg t d thread stream p o).synchronizes = true → d.Finished k) :
    let r := trackLaunch cfg t d thread stream p o
    Tracked cfg r.tracker.slots r.device ((k, r.slot) :: returned) ∧
      Evolves t.slots d returned r.tracker.slots r.device ((k, r.slot) :: returned) := by
  intro r
  have hspecial := not_perThreadSpecial_of_shared hshared
  rcases trackLaunch_cases cfg t d thread stream p o with
    ⟨i, t₁, d₁, hgot, hr⟩ | ⟨t₁, d₁, hgot, hr⟩
  · have h₁ := h.slotGot hgot
    have hev : Evolves t.slots d returned t₁.slots d₁ returned := evolves_slotGot hgot
    have hk₁ : d₁.Issued k := hk.mono hev.le
    have hstream : IsShared (t₁.slots i).stream p := hgot.ofStream.symm ▸ hshared
    let slot := slotTracking cfg (t₁.slots i) stream p
    simp only [r, hr]
    by_cases hm : cfg.completionMode = .deferred
    · -- the record is left to the watcher
      simp only [hm, hspecial, ne_eq, not_true_eq_false, decide_false, Bool.or_self,
        Bool.false_eq_true, if_false]
      exact ⟨h₁.activate hgot.allocated hgot.ofStream hshared hk₁ hks (absurd hm),
        hev.trans (evolves_activate slot (Device.Le.refl d₁) (fun _ _ _ => rfl) rfl rfl rfl k)⟩
    · simp only [hm, ne_eq, not_false_eq_true, decide_true, Bool.true_or, if_true]
      have hrecord := h₁.record hgot.allocated thread hstream
      rw [hgot.ofStream] at hrecord
      refine ⟨hrecord.activate hgot.allocated hgot.ofStream hshared
          (hk₁.mono (Device.le_record ..)) hks fun _ => Device.recorded_record_self ..,
        hev.trans (evolves_activate slot (Device.le_record ..) (fun j hj hne => ?_) rfl rfl rfl k)⟩
      exact Device.recorded_record_other _ _ fun heq => hj (h₁.own j i hne heq)
  · -- no slot, or no record: the stream was synchronised instead
    have hfin : d.Finished k := hsync (by rw [hr])
    simp only [r, hr]
    rcases hgot with ⟨rfl, rfl⟩ | ⟨i, hgot⟩
    · exact ⟨h.returned_finished hfin, evolves_finished k⟩
    · have hev : Evolves t.slots d returned t₁.slots d₁ returned := evolves_slotGot hgot
      exact ⟨(h.slotGot hgot).returned_finished (hfin.mono hev.le),
        hev.trans (evolves_finished k)⟩

/-- A launch that succeeded leaves the hooks. -/
theorem hpInv_after (h : HpInv cfg s) {c : HpCall} {k : Ticket GpuStream} {o : AfterAnswers}
    (hc : c ∈ s.calls) (hp : c.phase = .accepted k)
    (hsync : (eventHpAfterLaunch cfg s.tracker s.device c.thread c.stream
      c.perThreadDefaultStream true o).synchronizes = true → s.device.Finished k) :
    HpInv cfg (s.afterLaunch c (eventHpAfterLaunch cfg s.tracker s.device c.thread c.stream
      c.perThreadDefaultStream true o)) := by
  have hlen : s.tracker.launchesInProgress ≠ 0 := by
    rw [h.inProgress]
    exact Nat.ne_of_gt (List.length_pos_of_mem hc)
  obtain ⟨hshared, hk⟩ := h.calls c hc
  obtain ⟨hissued, hks⟩ := hk k hp
  obtain ⟨hpub, hcount⟩ := publishes_afterLaunch cfg h.publishes hlen s.device
    c.thread c.stream c.perThreadDefaultStream true o
  obtain ⟨htracked, hev⟩ := tracked_trackLaunch h.tracked hshared hissued hks o hsync
  have hslots : (eventHpAfterLaunch cfg s.tracker s.device c.thread c.stream
      c.perThreadDefaultStream true o).tracker.slots =
      (trackLaunch cfg s.tracker s.device c.thread c.stream
        c.perThreadDefaultStream o).tracker.slots := hpPublishIdleLocked_slots _
  refine { publishes := hpub, inProgress := ?_, calls := fun c' hc' => ?_, tracked := ?_
           watcher := ?_ }
  · show _ = (s.calls.erase c).length
    rw [List.length_erase_of_mem hc, ← h.inProgress]
    exact hcount
  · exact (h.calls c' (List.mem_of_mem_erase hc')).mono hev.le
  · simp only [HpProcess.afterLaunch, hp, hslots]
    exact htracked
  · have hw := h.watcher.evolves hev
    simp only [HpProcess.afterLaunch, hp, hslots]
    split
    · exact hw.signal
    · exact hw

/-- A launch that failed leaves the hooks. -/
theorem hpInv_afterFailed (h : HpInv cfg s) {c : HpCall} (o : AfterAnswers)
    (hc : c ∈ s.calls) (hp : c.phase = .rejected) :
    HpInv cfg (s.afterLaunch c (eventHpAfterLaunch cfg s.tracker s.device c.thread c.stream
      c.perThreadDefaultStream false o)) := by
  have hlen : s.tracker.launchesInProgress ≠ 0 := by
    rw [h.inProgress]
    exact Nat.ne_of_gt (List.length_pos_of_mem hc)
  obtain ⟨hpub, hcount⟩ := publishes_afterLaunch cfg h.publishes hlen s.device
    c.thread c.stream c.perThreadDefaultStream false o
  have hslots : (eventHpAfterLaunch cfg s.tracker s.device c.thread c.stream
      c.perThreadDefaultStream false o).tracker.slots = s.tracker.slots :=
    hpPublishIdleLocked_slots _
  refine { publishes := hpub, inProgress := ?_
           calls := fun c' hc' => h.calls c' (List.mem_of_mem_erase hc'), tracked := ?_
           watcher := ?_ }
  · show _ = (s.calls.erase c).length
    rw [List.length_erase_of_mem hc, ← h.inProgress]
    exact hcount
  · simp only [HpProcess.afterLaunch, hp, hslots]
    exact h.tracked
  · simp only [HpProcess.afterLaunch, hp, hslots]
    exact h.watcher

/-! ### The watcher's steps -/

variable {slots : SlotIndex → HpEventSlot} {d d' : Device GpuStream} {returned : Returned}
  {x : HpEventWaitSnapshot}

/-- A wait settles what it says of the work, and what follows from it. -/
theorem Settles.imp {Q Q' : Ticket GpuStream → Prop} (h : Settles slots d returned x Q)
    (hle : d.Le d') (hQ : ∀ k, Q k → d'.Finished k ∨ Q' k) :
    Settles slots d' returned x Q' := by
  intro hg k hk
  rcases h hg k hk with hf | hq
  · exact .inl (hf.mono hle)
  · exact hQ k hq

/-- Everything the slot holds lies before the end of its stream, which the
watcher's calls for the snapshot work on. -/
theorem settles_frontier (h : Tracked cfg slots d returned) (ht : Taken slots x) :
    Settles slots d returned x (d.frontier (x.gpuStream watcherThread)).Covers := by
  intro _ k hk
  refine (h.held k _ hk).imp id fun hheld => ?_
  have hs := hheld.onStream x.perThreadDefaultStream watcherThread (ht.stream ▸ ht.shared)
  rw [ht.stream] at hs
  rw [HpEventWaitSnapshot.gpuStream, ← hs]
  exact hheld.issued.covered

/-- When no record is due, the event was recorded by the hooks. -/
theorem settles_recorded (h : Tracked cfg slots d returned) (ht : Taken slots x)
    (hx : recordsDeferred cfg x = false) :
    Settles slots d returned x fun k => ∃ r ∈ d.recorded x.event, r.Covers k := by
  intro hg k hk
  refine (h.held k _ hk).imp id fun hheld => ?_
  have hpend : (slots x.slotIndex).deferredRecordPending = false := by
    cases hp : (slots x.slotIndex).deferredRecordPending
    · rfl
    · simp [recordsDeferred, h.pending _ hp, ht.pending hg hp] at hx
  rw [← ht.event]
  exact hheld.covered hpend

/-- The slots of a snapshot are taken. -/
theorem taken_snapshot {t : HpTracker} (h : Tracked cfg t.slots d returned)
    (hx : x ∈ hpSnapshotActiveEventsLocked t) : Taken t.slots x := by
  obtain ⟨i, ha, rfl⟩ := mem_hpSnapshotActiveEventsLocked.mp hx
  exact { allocated := h.allocated i ha, event := rfl, stream := rfl, shared := h.shared i ha
          generation := Nat.le_refl _, pending := fun _ hp => hp }

/-- Validation deactivates slots whose work is complete. -/
theorem tracked_validateSnapshots {t : HpTracker} (h : Tracked cfg t.slots d returned)
    (visited : List (HpEventWaitSnapshot × Bool))
    (hv : ∀ x ∈ visited, x.2 = true → Settles t.slots d returned x.1 fun _ => False) :
    Tracked cfg (validateSnapshots t visited).slots d returned := by
  rw [validateSnapshots, hpPublishIdleLocked_slots]
  induction visited generalizing t with
  | nil => exact h
  | cons x rest ih =>
    have hgen : ∀ j, ((validateSnapshot t x).slots j).generation = (t.slots j).generation := by
      intro j
      unfold validateSnapshot
      dsimp only
      split
      · by_cases hj : j = x.1.slotIndex
        · subst hj; simp
        · rw [HpTracker.setSlot_other _ _ hj]
      · rfl
    -- validation leaves all generations as they are, so `hv` still speaks of the rest
    refine ih ?_ fun y hy hyo hg k hk => hv y (List.mem_cons_of_mem _ hy) hyo (hgen _ ▸ hg) k hk
    refine h.deactivate fun i => ?_
    unfold validateSnapshot
    dsimp only
    split
    next hvalid =>
      simp only [Bool.and_eq_true, decide_eq_true_eq] at hvalid
      by_cases hi : i = x.1.slotIndex
      · subst hi
        rw [HpTracker.setSlot_self]
        refine .inr ⟨rfl, rfl, fun hf => absurd hf Bool.false_ne_true, fun k hk => ?_⟩
        exact (hv x List.mem_cons_self hvalid.1.1.1 hvalid.2 k hk).resolve_right id
      · exact .inl (HpTracker.setSlot_other _ _ hi)
    next => exact .inl rfl

/-- The query pass deactivates slots whose event is done. -/
theorem tracked_queryActiveEvents {t : HpTracker} (h : Tracked cfg t.slots d returned)
    (hm : cfg.completionMode = .query) (done : SlotIndex → Bool)
    (hdone : ∀ i, (t.slots i).active = true → done i = true → d.EventDone (t.slots i).event) :
    Tracked cfg (queryActiveEvents t done).slots d returned := by
  rw [queryActiveEvents_slots]
  refine h.deactivate fun i => ?_
  dsimp only
  split
  next hi =>
    obtain ⟨ha, hd⟩ := Bool.and_eq_true_iff.mp hi
    refine .inr ⟨rfl, rfl, id, fun k hk => (h.held k i hk).elim id fun hheld => ?_⟩
    -- in query mode the hooks recorded the event
    have hpend : (t.slots i).deferredRecordPending = false := by
      cases hp : (t.slots i).deferredRecordPending
      · rfl
      · have := h.pending i hp
        simp [hm] at this
    obtain ⟨r, hr, hc⟩ := hheld.covered hpend
    exact (hdone i ha hd r hr).finished hc
  next => exact .inl rfl

/-- The wait for a snapshot is over, with what was found out. -/
theorem WatcherSafe.visit {visited : List (HpEventWaitSnapshot × Bool)}
    {todo : List HpEventWaitSnapshot} {phase : WaitPhase}
    (h : WatcherSafe slots d returned (.visiting visited (x :: todo) phase)) (ok : Bool)
    (hok : ok = true → Settles slots d returned x fun _ => False) :
    WatcherSafe slots d returned (WatcherPc.visit visited x todo ok) := by
  refine ⟨fun y hy => ?_, fun y hy => h.2.1 y (List.mem_cons_of_mem _ hy), fun _ _ => trivial⟩
  rcases List.mem_append.mp hy with hy | hy
  · exact h.1 y hy
  · rw [List.mem_singleton.mp hy]
    exact ⟨h.2.1 x List.mem_cons_self, hok⟩

/-- Every step of the watcher keeps the invariant. -/
theorem hpInv_watcherStep {t : HpProcess} {a : WatcherAction} (h : HpInv cfg s)
    (hstep : WatcherStep cfg s a t) : HpInv cfg t := by
  obtain ⟨hpub, hcount, hcalls, htracked, hw⟩ := h
  -- most steps change nothing but the watcher's own position
  have hmove : ∀ pc, WatcherSafe s.tracker.slots s.device s.returned pc →
      HpInv cfg { s with watcher := pc } := fun pc hpc =>
    { publishes := hpub, inProgress := hcount, calls := hcalls, tracked := htracked
      watcher := hpc }
  cases hstep with
  | checkStop hpc hs => exact hmove _ trivial
  | checkBlock hpc hs ha => exact hmove _ trivial
  | checkGo hpc hs ha hm => exact hmove _ trivial
  | queryPass done hpc hs ha hm hdone =>
    obtain ⟨hpub', hcount'⟩ := publishes_queryActiveEvents hpub done
    exact { publishes := hpub', inProgress := hcount'.trans hcount, calls := hcalls
            tracked := tracked_queryActiveEvents htracked hm done hdone
            watcher := by rw [hpc]; trivial }
  | wake signalled hpc => exact hmove _ trivial
  | observe hpc => exact hmove _ (by split <;> trivial)
  | settle observed hpc => exact hmove _ (by split <;> trivial)
  | load observed hpc => exact hmove _ (by split <;> trivial)
  | snapshotStop stable hpc hs => exact hmove _ trivial
  | snapshotRetry stable hpc hs hr => exact hmove _ trivial
  | snapshot stable hpc hs hr =>
    exact hmove _ ⟨nofun, fun _ hx => taken_snapshot htracked hx,
      fun _ _ => trivial⟩
  | recordNot visited x todo hpc hx =>
    rw [hpc] at hw
    refine hmove _ ⟨hw.1, hw.2.1, fun y hy => ?_⟩
    cases hy
    exact settles_recorded htracked (hw.2.1 x List.mem_cons_self) hx
  | record visited x todo hpc hx =>
    rw [hpc] at hw
    have htaken := hw.2.1 x List.mem_cons_self
    have hle := Device.le_record s.device x.event (x.gpuStream watcherThread)
    refine { publishes := hpub, inProgress := hcount
             calls := fun c hc => (hcalls c hc).mono hle, tracked := ?_
             watcher := ⟨fun y hy => ⟨(hw.1 y hy).1, fun ho => ?_⟩, hw.2.1, fun y hy => ?_⟩ }
    · have halloc : (s.tracker.slots x.slotIndex).event ≠ 0 :=
        htaken.event.symm ▸ htaken.allocated
      have hshared : IsShared (s.tracker.slots x.slotIndex).stream x.perThreadDefaultStream :=
        htaken.stream.symm ▸ htaken.shared
      have hrecord := htracked.record halloc watcherThread hshared
      rw [htaken.event, htaken.stream] at hrecord
      exact hrecord
    · exact ((hw.1 y hy).2 ho).imp hle fun _ hk => .inr hk
    · -- the record lies behind all the slot holds
      cases hy
      exact (settles_frontier htracked htaken).imp hle fun k hk =>
        .inr ⟨_, Device.recorded_record_self .., hk⟩
  | recordFails visited x todo hpc hx =>
    rw [hpc] at hw
    exact hmove _ ⟨hw.1, hw.2.1, fun _ hy => by cases hy; trivial⟩
  | synchronize visited x todo hpc =>
    rw [hpc] at hw
    refine hmove _ ⟨hw.1, hw.2.1, fun y hy => ?_⟩
    cases hy
    exact hw.2.2 x rfl
  | synchronized visited x todo target hpc hd =>
    rw [hpc] at hw
    have hsettles : Settles _ _ _ x _ := hw.2.2 x rfl
    refine hmove _ (hw.visit true fun _ => ?_)
    exact hsettles.imp (Device.Le.refl _) fun k ⟨r, hr, hc⟩ => .inl ((hd r hr).finished hc)
  | synchronizeFails visited x todo target hpc =>
    rw [hpc] at hw
    exact hmove _ ⟨hw.1, hw.2.1, fun _ hy => by cases hy; trivial⟩
  | fallBack visited x todo hpc =>
    rw [hpc] at hw
    refine hmove _ ⟨hw.1, hw.2.1, fun y hy => ?_⟩
    cases hy
    exact settles_frontier htracked (hw.2.1 x List.mem_cons_self)
  | streamSynchronized visited x todo target ok hpc hd =>
    rw [hpc] at hw
    have hsettles : Settles _ _ _ x _ := hw.2.2 x rfl
    refine hmove _ (hw.visit ok fun ho => ?_)
    exact hsettles.imp (Device.Le.refl _) fun k hc => .inl ((hd ho).finished hc)
  | validate visited phase hpc =>
    rw [hpc] at hw
    obtain ⟨hpub', hcount'⟩ := publishes_validateSnapshots hpub visited
    exact { publishes := hpub', inProgress := hcount'.trans hcount, calls := hcalls
            tracked := tracked_validateSnapshots htracked visited fun x hx => (hw.1 x hx).2
            watcher := trivial }

/-- A launch enters the hooks. -/
theorem hpInv_before (h : HpInv cfg s) {thread : Thread} {stream : CUstream} {p startOk : Bool}
    (hshared : IsShared stream p) :
    HpInv cfg
      { s with
        tracker := eventHpBeforeLaunch s.tracker startOk
        calls := ⟨thread, stream, p, .entered⟩ :: s.calls
        watcher := if !s.tracker.threadStarted && startOk then .top else s.watcher } := by
  refine { publishes := publishes_beforeLaunch h.publishes startOk, inProgress := ?_
           calls := fun c hc => ?_, tracked := ?_, watcher := ?_ }
  · rw [beforeLaunch_launchesInProgress, h.inProgress]
    rfl
  · rcases List.mem_cons.mp hc with rfl | hc
    · exact ⟨hshared, fun k hk => by cases hk⟩
    · exact h.calls c hc
  · rw [beforeLaunch_slots]
    exact h.tracked
  · rw [beforeLaunch_slots]
    split
    · trivial
    · exact h.watcher

/-- A launch between the hooks gets its answer from the driver. -/
theorem hpInv_answered (h : HpInv cfg s) {c c' : HpCall} (hc : c ∈ s.calls)
    {d' : Device GpuStream} (hle : s.device.Le d') (hrec : d'.recorded = s.device.recorded)
    (hcreated : d'.created = s.device.created) (hc' : CallOk d' c') :
    HpInv cfg { s with device := d', calls := c' :: s.calls.erase c } := by
  refine { publishes := h.publishes, inProgress := ?_, calls := fun e he => ?_
           tracked := h.tracked.mono hle hrec hcreated
           watcher := h.watcher.evolves (evolves_device hle hrec) }
  · show s.tracker.launchesInProgress = (s.calls.erase c).length + 1
    have := List.length_pos_of_mem hc
    rw [List.length_erase_of_mem hc, h.inProgress]
    omega
  · rcases List.mem_cons.mp he with rfl | he
    · exact hc'
    · exact (h.calls e (List.mem_of_mem_erase he)).mono hle

/-- Every step keeps the invariant. -/
theorem hpInv_step {t : HpProcess} {a : HpAction} (h : HpInv cfg s) (ha : SharedStreams s a)
    (hstep : HpStep cfg s a t) : HpInv cfg t := by
  cases hstep with
  | before thread stream p startOk ht => exact hpInv_before h ha
  | launch c hc hp =>
    refine hpInv_answered h hc (Device.le_submit ..) rfl rfl ⟨(h.calls c hc).1, fun k hk => ?_⟩
    cases hk
    exact ⟨Device.issued_submit .., rfl⟩
  | launchFails c hc hp =>
    exact hpInv_answered h hc (Device.Le.refl _) rfl rfl
      ⟨(h.calls c hc).1, fun k hk => by cases hk⟩
  | after c k o hc hp hsync => exact hpInv_after h hc hp fun hs => hsync hs ha
  | afterFailed c o hc hp => exact hpInv_afterFailed h o hc hp
  | complete stream =>
    have hle := Device.le_complete s.device stream
    exact { publishes := h.publishes, inProgress := h.inProgress
            calls := fun c hc => (h.calls c hc).mono hle
            tracked := h.tracked.mono hle rfl rfl
            watcher := h.watcher.evolves (evolves_device hle rfl) }
  | shutdown =>
    exact { publishes := { launches := h.publishes.launches, slots := h.publishes.slots
                           published := h.publishes.published }
            inProgress := h.inProgress, calls := h.calls, tracked := h.tracked
            watcher := h.watcher.signal }
  | watcher hw => exact hpInv_watcherStep h hw

end steps

/-- The invariant holds in every run on shared streams. -/
theorem hp_reachable_inv {cfg : HpConfig} {s : HpProcess}
    (h : ((hpSystem cfg).restrict SharedStreams).Reachable s) : HpInv cfg s := by
  have hind : ((hpSystem cfg).restrict SharedStreams).Inductive (HpInv cfg) :=
    { init := fun _ hs => hpInv_starts hs
      step := fun _ _ _ _ hi hs => hpInv_step hi hs.1 hs.2 }
  exact hind.reachable h

/-- Some launch that entered the driver through the hooks has not finished: it is
between the hooks, or it succeeded and its work is not complete. -/
def HpProcess.Unfinished (s : HpProcess) : Prop :=
  s.calls ≠ [] ∨ ∃ k slot, (k, slot) ∈ s.returned ∧ ¬ s.device.Finished k

/-- **Completion tracking is safe**: in every state that launches on shared
streams lead to, ACTIVE is published while a launch has not finished. -/
theorem hp_tracking_safe (cfg : HpConfig) {s : HpProcess}
    (h : ((hpSystem cfg).restrict SharedStreams).Reachable s) (hu : s.Unfinished) :
    s.tracker.published = .active := by
  have hinv := hp_reachable_inv h
  have hactive : s.tracker.stateActive = true := by
    rcases hu with hcalls | ⟨k, slot, hk, hunfinished⟩
    · refine hinv.publishes.launches ?_
      rw [hinv.inProgress]
      exact Nat.ne_of_gt (List.length_pos_iff.mpr hcalls)
    · cases slot with
      | none => exact absurd (hinv.tracked.synchronized k hk) hunfinished
      | some i =>
        have hheld := (hinv.tracked.held k i hk).resolve_left hunfinished
        exact hinv.publishes.slots i hheld.active
  rw [hinv.publishes.published, if_pos hactive]

/-- In deferred mode thread 1 launched on the created stream 16, left the hooks,
and its work is not complete. -/
theorem hp_tracking_safe_one :
    let cfg : HpConfig := ⟨.deferred, 20000⟩
    let k : Ticket GpuStream := ⟨.created 16, 0⟩
    let t := eventHpBeforeLaunch .initial true
    let d := (Device.empty : Device GpuStream).submit (.created 16)
    (eventHpAfterLaunch cfg t d 1 16 false true ⟨true, true, true⟩).tracker.published = .active ∧
      ¬ d.Finished k := by
  intro cfg k t d
  let s₀ : HpProcess := ⟨.initial, .empty, [], .notStarted, []⟩
  let s₁ : HpProcess := ⟨t, .empty, [⟨1, 16, false, .entered⟩], .top, []⟩
  let c : HpCall := ⟨1, 16, false, .accepted k⟩
  let s₂ : HpProcess := ⟨t, d, [c], .top, []⟩
  let r := eventHpAfterLaunch cfg t d 1 16 false true ⟨true, true, true⟩
  have h₁ : HpStep cfg s₀ (.before 1 16 false true) s₁ := .before s₀ 1 16 false true (by decide)
  have h₂ : HpStep cfg s₁ (.launch ⟨1, 16, false, .entered⟩ true) s₂ :=
    .launch s₁ ⟨1, 16, false, .entered⟩ (by simp [s₁]) rfl
  have h₃ : HpStep cfg s₂ (.after c ⟨true, true, true⟩) (s₂.afterLaunch c r) :=
    .after s₂ c k ⟨true, true, true⟩ (by simp [s₂]) rfl fun hs => by cases hs
  have ha₁ : SharedStreams s₀ (.before 1 16 false true) := ⟨by decide, nofun⟩
  have ha₂ : SharedStreams s₁ (.launch ⟨1, 16, false, .entered⟩ true) := trivial
  have ha₃ : SharedStreams s₂ (.after c ⟨true, true, true⟩) := rfl
  have hreach : ((hpSystem cfg).restrict SharedStreams).Reachable (s₂.afterLaunch c r) :=
    .step (.step (.step (.init ⟨rfl, rfl, rfl, rfl⟩) ⟨ha₁, h₁⟩) ⟨ha₂, h₂⟩) ⟨ha₃, h₃⟩
  have hk : ¬ d.Finished k := Nat.not_lt_zero 0
  exact ⟨hp_tracking_safe cfg hreach (.inr ⟨k, r.slot, List.mem_singleton.mpr rfl, hk⟩), hk⟩

end Lilt.Hp
