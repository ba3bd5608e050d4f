import Lilt.Hp.Watcher

/-!
# Which streams share a slot

A slot belongs to a raw stream handle, but which stream a handle denotes depends on
the entry point and on the calling thread. So launches of different streams can meet
in one slot, and a record that is left to the watcher is made from another thread.

- `HpAudit`: the process with the launches that joined each slot since it was
  cleared last, and the event waits that succeeded in the watcher's pass.
- `NoSharing`, `ClearedBehind`: no slot is shared between streams, and an event that
  clears a slot was recorded behind all launches in it.
- `RecordedBehind`: the slot's event is, or will be, recorded behind the launch.
- `JoinsOwnStream`: the condition on a launch under which all of this is kept.
- `slots_follow_streams_iff`: the result, for launches on any handle by any thread.
-/

namespace Lilt.Hp

open Lilt.Activity Lilt.Driver Gpu Transition

/-! ## The audited process -/

/-- The process, and what happened to its slots. -/
structure HpAudit where
  process : HpProcess
  /-- The launches that joined the slot since it was cleared last. -/
  joined : SlotIndex → List (Ticket GpuStream)
  /-- The snapshots whose event wait succeeded in this pass of the watcher, with where
  the event had been recorded. -/
  found : List (HpEventWaitSnapshot × Option (Ticket GpuStream))

/-- The launch joins the slot that tracks it, if any. -/
def joinSlot (joined : SlotIndex → List (Ticket GpuStream)) (k : Ticket GpuStream) :
    Option SlotIndex → SlotIndex → List (Ticket GpuStream)
  | some i => Function.update joined i (k :: joined i)
  | none => joined

/-- A launch that is tracked joins its slot; a slot that the watcher clears is left by
all of its launches. -/
def HpAudit.joinedAfter (cfg : HpConfig) (s : HpAudit) (a : HpAction) (t : HpProcess) :
    SlotIndex → List (Ticket GpuStream) :=
  match a with
  | .after c o =>
    match c.phase with
    | .accepted k =>
      joinSlot s.joined k (eventHpAfterLaunch cfg s.process.tracker s.process.device c.thread
        c.stream c.perThreadDefaultStream true o).slot
    | _ => s.joined
  | .watcher _ => fun i => if (t.tracker.slots i).active then s.joined i else []
  | _ => s.joined

/-- The event waits of a pass begin with its snapshots. -/
def HpAudit.foundAfter (s : HpAudit) (a : HpAction) :
    List (HpEventWaitSnapshot × Option (Ticket GpuStream)) :=
  match a, s.process.watcher with
  | .watcher .snapshot, _ => []
  | .watcher (.synchronized true), .visiting _ (x :: _) (.synchronizing target) =>
    s.found ++ [(x, target)]
  | _, _ => s.found

/-- All runs of an HP process, audited. -/
def hpAuditSystem (cfg : HpConfig) : System HpAudit HpAction where
  Init s := s.process.Starts ∧ (∀ i, s.joined i = []) ∧ s.found = []
  Step s a t :=
    HpStep cfg s.process a t.process ∧ t.joined = s.joinedAfter cfg a t.process ∧
      t.found = s.foundAfter a

/-- Two launches of different streams are in one slot only when both are complete. -/
def NoSharing (s : HpAudit) : Prop :=
  ∀ i, ∀ k ∈ s.joined i, ∀ k' ∈ s.joined i, k.stream ≠ k'.stream →
    s.process.device.Finished k ∧ s.process.device.Finished k'

/-- The event whose completion clears a slot in this step was recorded behind every
launch in the slot, on the launch's stream: in query mode the event queried, else the
event that a snapshot of the slot, as it is now, was waited for. -/
def ClearedBehind (s : HpAudit) : HpAction → Prop
  | .watcher (.queryPass done) =>
    ∀ i, (s.process.tracker.slots i).active = true → done i = true → ∀ k ∈ s.joined i,
      ∃ r, s.process.device.recorded (s.process.tracker.slots i).event = some r ∧ r.Covers k
  | .watcher .validate =>
    ∀ x target, (x, target) ∈ s.found → (s.process.tracker.slots x.slotIndex).active = true →
      (s.process.tracker.slots x.slotIndex).event = x.event →
      (s.process.tracker.slots x.slotIndex).generation = x.generation →
      ∀ k ∈ s.joined x.slotIndex, ∃ r, target = some r ∧ r.Covers k
  | _ => True

/-- The event of the slot is recorded behind the launch; or a record is due, and made
from the watcher's thread it will be on the launch's stream. -/
def RecordedBehind (slot : HpEventSlot) (d : Device GpuStream) (k : Ticket GpuStream) : Prop :=
  if slot.deferredRecordPending then
    resolve slot.stream slot.perThreadDefaultStream watcherThread = k.stream
  else ∃ r, d.recorded slot.event = some r ∧ r.Covers k

/-- Every launch in a slot is followed by the slot's event. -/
def FollowStreams (s : HpAudit) : Prop :=
  ∀ i, ∀ k ∈ s.joined i, RecordedBehind (s.process.tracker.slots i) s.process.device k

/-- The launch gets a slot: the watcher runs, the handle has a slot or a new one can be
made, and the event is recorded if that is not left to the watcher. -/
structure GetsTracked (cfg : HpConfig) (t : HpTracker) (stream : CUstream)
    (perThreadDefaultStream : Bool) (o : AfterAnswers) : Prop where
  started : t.threadStarted = true
  slot : (∃ i, (t.slots i).event ≠ 0 ∧ (t.slots i).stream = stream) ∨
    (∃ i, (t.slots i).event = 0) ∧ o.createOk = true
  recorded : cfg.completionMode ≠ .deferred ∨
      isPerThreadSpecialStream stream perThreadDefaultStream = true → o.recordOk = true

/-- A launch that gets tracked meets only launches of its own stream under its handle,
and in deferred mode it does not name the per-thread stream through a legacy entry
point. -/
def JoinsOwnStream (cfg : HpConfig) (s : HpAudit) : HpAction → Prop
  | .after c o =>
    ∀ k, c.phase = .accepted k →
      GetsTracked cfg s.process.tracker c.stream c.perThreadDefaultStream o →
      (∀ i, (s.process.tracker.slots i).event ≠ 0 →
        (s.process.tracker.slots i).stream = c.stream → ∀ k' ∈ s.joined i, k'.stream = k.stream) ∧
      (cfg.completionMode = .deferred → c.stream = 2 → c.perThreadDefaultStream = true)
  | _ => True

/-! ## The slots -/

/-- The slots and the launches in them: each handle has one slot, each slot an event of
its own, and the event follows every launch in the slot. -/
structure Follows (cfg : HpConfig) (slots : SlotIndex → HpEventSlot) (d : Device GpuStream)
    (joined : SlotIndex → List (Ticket GpuStream)) : Prop where
  created : ∀ i, (slots i).event ≤ d.created
  own : ∀ i j, (slots i).event ≠ 0 → (slots i).event = (slots j).event → i = j
  keyed : ∀ i j, (slots i).event ≠ 0 → (slots j).event ≠ 0 →
    (slots i).stream = (slots j).stream → i = j
  allocated : ∀ i, (slots i).active = true → (slots i).event ≠ 0
  pending : ∀ i, (slots i).deferredRecordPending = true → cfg.completionMode = .deferred
  busy : ∀ i, (slots i).active = true ↔ joined i ≠ []
  issued : ∀ i, ∀ k ∈ joined i, d.Issued k
  behind : ∀ i, ∀ k ∈ joined i, RecordedBehind (slots i) d k

section slots

variable {cfg : HpConfig} {slots slots' : SlotIndex → HpEventSlot} {d d' : Device GpuStream}
  {joined joined' : SlotIndex → List (Ticket GpuStream)}

/-- At the start no slot has an event. -/
theorem follows_initial (cfg : HpConfig) (d : Device GpuStream) :
    Follows cfg HpTracker.initial.slots d fun _ => [] := by
  constructor
  · exact fun _ => Nat.zero_le _
  · exact fun _ _ h => absurd rfl h
  · exact fun _ _ h => absurd rfl h
  · rintro i ⟨⟩
  · rintro i ⟨⟩
  · exact fun _ => ⟨by rintro ⟨⟩, fun h => absurd rfl h⟩
  · exact fun _ _ hk => absurd hk List.not_mem_nil
  · exact fun _ _ hk => absurd hk List.not_mem_nil

/-- Slots that follow their streams can be used. -/
theorem Follows.usable (h : Follows cfg slots d joined) : SlotsUsable cfg slots :=
  ⟨h.allocated, h.pending⟩

/-- Slots that follow their streams own their events. -/
theorem Follows.events (h : Follows cfg slots d joined) : EventsOwned slots d :=
  ⟨h.created, h.own⟩

/-- A launch stays behind the recorded event until the next record. -/
theorem RecordedBehind.mono {slot : HpEventSlot} {k : Ticket GpuStream}
    (h : RecordedBehind slot d k) (hrec : d'.recorded slot.event = d.recorded slot.event) :
    RecordedBehind slot d' k := by
  unfold RecordedBehind at h ⊢
  rwa [hrec]

/-- Launches that one event follows are on one stream. -/
theorem RecordedBehind.stream_eq {slot : HpEventSlot} {k k' : Ticket GpuStream}
    (h : RecordedBehind slot d k) (h' : RecordedBehind slot d k') : k.stream = k'.stream := by
  unfold RecordedBehind at h h'
  split at h
  next hp =>
    rw [if_pos hp] at h'
    exact h.symm.trans h'
  next hp =>
    rw [if_neg hp] at h'
    obtain ⟨r, hr, hc⟩ := h
    obtain ⟨r', hr', hc'⟩ := h'
    obtain rfl := Option.some.inj (hr.symm.trans hr')
    exact hc.1.trans hc'.1.symm

/-- The slots follow their streams when the device moves on. -/
theorem Follows.mono (h : Follows cfg slots d joined) (hle : d.Le d')
    (hrec : d'.recorded = d.recorded) (hcreated : d'.created = d.created) :
    Follows cfg slots d' joined :=
  { h with
    created := fun i => hcreated ▸ h.created i
    issued := fun i k hk => (h.issued i k hk).mono hle
    behind := fun i k hk => (h.behind i k hk).mono (hrec ▸ rfl) }

/-- The event of the slot `i` is recorded on the stream of the launches in the slot. -/
theorem Follows.record (h : Follows cfg slots d joined) {i : SlotIndex}
    (halloc : (slots i).event ≠ 0) {stream : GpuStream}
    (hstream : ∀ k ∈ joined i, k.stream = stream) :
    Follows cfg slots (d.record (slots i).event stream) joined := by
  refine { h with issued := h.issued, behind := fun j k hk => ?_ }
  by_cases hj : j = i
  · subst hj
    have hbehind := h.behind j k hk
    unfold RecordedBehind at hbehind ⊢
    split at hbehind
    next hp =>
      rw [if_pos hp]
      exact hbehind
    next hp =>
      rw [if_neg hp]
      refine ⟨_, Device.recorded_record_self .., ?_⟩
      rw [← hstream k hk]
      exact (h.issued j k hk).covered
  · have hne : (slots j).event ≠ (slots i).event :=
      fun heq => hj (h.own i j halloc heq.symm).symm
    exact (h.behind j k hk).mono (Device.recorded_record_other _ _ hne)

/-- A slot without an event is free of launches. -/
theorem Follows.free (h : Follows cfg slots d joined) {i : SlotIndex}
    (hi : (slots i).event = 0) : (slots i).active = false ∧ joined i = [] := by
  have hinactive : (slots i).active ≠ true := fun ha => h.allocated i ha hi
  refine ⟨Bool.eq_false_iff.mpr hinactive, ?_⟩
  by_contra hne
  exact hinactive ((h.busy i).mpr hne)

/-- Getting a slot keeps the slots following their streams. -/
theorem Follows.slotGot {t t' : HpTracker} {stream : CUstream} {i : SlotIndex}
    (h : Follows cfg t.slots d joined) (hgot : SlotGot t d stream i t' d') :
    Follows cfg t'.slots d' joined := by
  have hevents := h.events.slotGot hgot
  have husable := h.usable.slotGot hgot
  obtain ⟨hle, hrec⟩ := hgot.device
  refine { created := hevents.created, own := hevents.own, keyed := ?_
           allocated := husable.allocated, pending := husable.pending, busy := fun j => ?_
           issued := fun j k hk => (h.issued j k hk).mono hle, behind := fun j k hk => ?_ }
  · rcases hgot.fresh with ⟨rfl, -⟩ | ⟨hfree, -, rfl⟩
    · exact h.keyed
    · have hself : ((t.setSlot i { t.slots i with event := d.newEvent, stream := stream }).slots
          i).stream = stream := by rw [HpTracker.setSlot_self]
      have hother : ∀ j, j ≠ i → (t.setSlot i
          { t.slots i with event := d.newEvent, stream := stream }).slots j = t.slots j :=
        fun j hj => HpTracker.setSlot_other _ _ hj
      intro j l hjne hlne hs
      by_cases hj : j = i <;> by_cases hl : l = i
      · rw [hj, hl]
      · rw [hother l hl] at hlne
        rw [hj, hself, hother l hl] at hs
        exact absurd hs.symm (hgot.unkeyed hfree l hlne)
      · rw [hother j hj] at hjne
        rw [hl, hself, hother j hj] at hs
        exact absurd hs (hgot.unkeyed hfree j hjne)
      · rw [hother j hj] at hjne hs
        rw [hother l hl] at hlne hs
        exact h.keyed j l hjne hlne hs
  · rw [(hgot.flags j).1]
    exact h.busy j
  · have hactive : (t.slots j).active = true := (h.busy j).mpr (List.ne_nil_of_mem hk)
    rw [h.usable.slots_eq hgot hactive]
    exact (h.behind j k hk).mono (by rw [hrec])

/-- A launch joins the slot `i`, where all launches are on its stream. -/
theorem Follows.activate (h : Follows cfg slots d joined) {i : SlotIndex}
    (halloc : (slots i).event ≠ 0) {stream : CUstream} {p : Bool} {k : Ticket GpuStream}
    (hk : d.Issued k) (hjoined : ∀ k' ∈ joined i, k'.stream = k.stream)
    (hbehind : ∀ k', d.Issued k' → k'.stream = k.stream →
      RecordedBehind (slotTracking cfg (slots i) stream p) d k') :
    Follows cfg (Function.update slots i (slotTracking cfg (slots i) stream p)) d
      (Function.update joined i (k :: joined i)) := by
  have hself : Function.update slots i (slotTracking cfg (slots i) stream p) i =
      slotTracking cfg (slots i) stream p := Function.update_self ..
  have hother : ∀ j, j ≠ i →
      Function.update slots i (slotTracking cfg (slots i) stream p) j = slots j :=
    fun j hj => Function.update_of_ne hj ..
  have hstream := fun j => (update_slotTracking cfg slots i stream p j).2
  have hevents : EventsOwned (Function.update slots i (slotTracking cfg (slots i) stream p)) d :=
    h.events.activate i stream p
  have husable := h.usable.activate halloc stream p
  have hjself : Function.update joined i (k :: joined i) i = k :: joined i :=
    Function.update_self ..
  have hjother : ∀ j, j ≠ i → Function.update joined i (k :: joined i) j = joined j :=
    fun j hj => Function.update_of_ne hj ..
  refine { created := hevents.created, own := hevents.own, keyed := ?_
           allocated := husable.allocated, pending := husable.pending, busy := ?_
           issued := ?_, behind := ?_ }
  · intro j l hjne hlne hs
    rw [(update_slotTracking cfg slots i stream p j).1] at hjne
    rw [(update_slotTracking cfg slots i stream p l).1] at hlne
    rw [hstream j, hstream l] at hs
    exact h.keyed j l hjne hlne hs
  · intro j
    by_cases hji : j = i
    · rw [hji, hself, hjself]
      exact ⟨fun _ => List.cons_ne_nil _ _, fun _ => rfl⟩
    · rw [hother j hji, hjother j hji]
      exact h.busy j
  · intro j k' hk'
    by_cases hji : j = i
    · rw [hji, hjself] at hk'
      rcases List.mem_cons.mp hk' with rfl | hk'
      · exact hk
      · exact h.issued i k' hk'
    · rw [hjother j hji] at hk'
      exact h.issued j k' hk'
  · intro j k' hk'
    by_cases hji : j = i
    · rw [hji, hjself] at hk'
      rw [hji, hself]
      rcases List.mem_cons.mp hk' with rfl | hk'
      · exact hbehind k' hk rfl
      · exact hbehind k' (h.issued i k' hk') (hjoined k' hk')
    · rw [hjother j hji] at hk'
      rw [hother j hji]
      exact h.behind j k' hk'

/-- Slots are cleared, and their launches leave them. -/
theorem Follows.clear (h : Follows cfg slots d joined)
    (hslots : ∀ i, slots' i = slots i ∨ (slots' i).event = (slots i).event ∧
      (slots' i).stream = (slots i).stream ∧ (slots' i).active = false ∧
      ((slots' i).deferredRecordPending = true → (slots i).deferredRecordPending = true)) :
    Follows cfg slots' d fun i => if (slots' i).active then joined i else [] := by
  have hslot : ∀ i, (slots' i).event = (slots i).event ∧ (slots' i).stream = (slots i).stream :=
    fun i => (hslots i).elim (fun heq => by rw [heq]; exact ⟨rfl, rfl⟩) fun hc => ⟨hc.1, hc.2.1⟩
  have hevents : EventsOwned slots' d := h.events.congr fun i => (hslot i).1
  have husable : SlotsUsable cfg slots' :=
    h.usable.deactivate fun i => (hslots i).imp id fun hi => hi.2.2
  have hsame : ∀ i, (slots' i).active = true → slots' i = slots i := fun i hi =>
    (hslots i).resolve_right fun hn => by simp [hn.2.2.1] at hi
  have hmem : ∀ i, ∀ k ∈ (if (slots' i).active then joined i else []),
      slots' i = slots i ∧ k ∈ joined i := by
    intro i k hk
    split at hk
    next ha => exact ⟨hsame i ha, hk⟩
    next => exact absurd hk List.not_mem_nil
  refine { created := hevents.created, own := hevents.own, keyed := ?_
           allocated := husable.allocated, pending := husable.pending, busy := ?_
           issued := ?_, behind := ?_ }
  · intro i j hine hjne hs
    rw [(hslot i).1] at hine
    rw [(hslot j).1] at hjne
    rw [(hslot i).2, (hslot j).2] at hs
    exact h.keyed i j hine hjne hs
  · intro i
    split
    next ha => exact ⟨fun _ => (h.busy i).mp (hsame i ha ▸ ha), fun _ => ha⟩
    next ha => exact ⟨fun hi => absurd hi ha, fun hn => absurd rfl hn⟩
  · exact fun i k hk => h.issued i k (hmem i k hk).2
  · intro i k hk
    obtain ⟨heq, hk⟩ := hmem i k hk
    rw [heq]
    exact h.behind i k hk

/-- Nothing leaves a slot that stays as it is. -/
theorem Follows.keep (h : Follows cfg slots d joined) :
    (fun i => if (slots i).active then joined i else []) = joined := by
  funext i
  split
  next => rfl
  next ha =>
    by_contra hne
    exact ha ((h.busy i).mpr fun he => hne he.symm)

end slots

/-! ## The watcher's pass -/

/-- The snapshot was taken of its slot, which was not cleared since; a record due on
it is for the stream of all launches in the slot. -/
structure Watched (cfg : HpConfig) (slots : SlotIndex → HpEventSlot)
    (joined : SlotIndex → List (Ticket GpuStream)) (x : HpEventWaitSnapshot) : Prop where
  allocated : x.event ≠ 0
  event : (slots x.slotIndex).event = x.event
  generation : x.generation ≤ (slots x.slotIndex).generation
  pending : (slots x.slotIndex).generation = x.generation →
    (slots x.slotIndex).deferredRecordPending = x.deferredRecordPending
  busy : joined x.slotIndex ≠ []
  due : recordsDeferred cfg x = true →
    ∀ k ∈ joined x.slotIndex, k.stream = x.gpuStream watcherThread

/-- If no launch joined the slot since the snapshot, the point covers all launches in
the slot. -/
def CoversUnjoined (slots : SlotIndex → HpEventSlot)
    (joined : SlotIndex → List (Ticket GpuStream)) (x : HpEventWaitSnapshot)
    (point : Option (Ticket GpuStream)) : Prop :=
  (slots x.slotIndex).generation = x.generation →
    ∀ k ∈ joined x.slotIndex, ∃ r, point = some r ∧ r.Covers k

/-- What the phase of the wait says about the snapshot at hand. -/
def PhaseBehind (slots : SlotIndex → HpEventSlot) (d : Device GpuStream)
    (joined : SlotIndex → List (Ticket GpuStream)) (x : HpEventWaitSnapshot) :
    WaitPhase → Prop
  | .recorded => CoversUnjoined slots joined x (d.recorded x.event)
  | .synchronizing target => CoversUnjoined slots joined x target
  | _ => True

/-- What holds in a pass of the watcher. -/
def WatcherBehind (cfg : HpConfig) (slots : SlotIndex → HpEventSlot) (d : Device GpuStream)
    (joined : SlotIndex → List (Ticket GpuStream))
    (found : List (HpEventWaitSnapshot × Option (Ticket GpuStream))) : WatcherPc → Prop
  | .visiting _ todo phase =>
    (∀ x ∈ todo, Watched cfg slots joined x) ∧
    (∀ e ∈ found, Watched cfg slots joined e.1 ∧ CoversUnjoined slots joined e.1 e.2) ∧
    ∀ x ∈ todo.head?, PhaseBehind slots d joined x phase
  | _ => True

/-- What everybody but the watcher does to the slots in use: a launch of the slot's
stream joins a slot, or the slot stays as it is. -/
structure SlotsGrow (slots : SlotIndex → HpEventSlot) (d : Device GpuStream)
    (joined : SlotIndex → List (Ticket GpuStream)) (slots' : SlotIndex → HpEventSlot)
    (d' : Device GpuStream) (joined' : SlotIndex → List (Ticket GpuStream)) : Prop where
  event : ∀ i, (slots i).event ≠ 0 → (slots' i).event = (slots i).event
  streams : ∀ i, joined i ≠ [] →
    joined' i ≠ [] ∧ ∀ k ∈ joined' i, ∃ k' ∈ joined i, k.stream = k'.stream
  generation : ∀ i, (slots i).event ≠ 0 →
    (slots i).generation < (slots' i).generation ∨
      slots' i = slots i ∧ d'.recorded (slots i).event = d.recorded (slots i).event ∧
        joined' i = joined i

section watcher

variable {cfg : HpConfig} {slots slots' : SlotIndex → HpEventSlot} {d d' : Device GpuStream}
  {joined joined' : SlotIndex → List (Ticket GpuStream)} {x : HpEventWaitSnapshot}

/-- The device goes on. -/
theorem slotsGrow_device (hrec : d'.recorded = d.recorded) :
    SlotsGrow slots d joined slots d' joined :=
  { event := fun _ _ => rfl
    streams := fun _ hne => ⟨hne, fun k hk => ⟨k, hk, rfl⟩⟩
    generation := fun _ _ => .inr ⟨rfl, by rw [hrec], rfl⟩ }

/-- The watcher's snapshot stays a snapshot when the slots grow. -/
theorem Watched.grow (h : Watched cfg slots joined x)
    (hg : SlotsGrow slots d joined slots' d' joined') : Watched cfg slots' joined' x := by
  have halloc : (slots x.slotIndex).event ≠ 0 := h.event ▸ h.allocated
  obtain ⟨hbusy, hstreams⟩ := hg.streams _ h.busy
  refine { allocated := h.allocated, event := (hg.event _ halloc).trans h.event
           generation := ?_, pending := ?_, busy := hbusy, due := ?_ }
  · rcases hg.generation _ halloc with hlt | ⟨heq, -⟩
    · exact Nat.le_of_lt (Nat.lt_of_le_of_lt h.generation hlt)
    · exact heq ▸ h.generation
  · intro hgen
    rcases hg.generation _ halloc with hlt | ⟨heq, -⟩
    · -- a launch joined, so the generation is not the snapshot's any more
      exact absurd h.generation (by omega)
    · rw [heq] at hgen ⊢
      exact h.pending hgen
  · intro hx k hk
    obtain ⟨k', hk', hs⟩ := hstreams k hk
    exact hs.trans (h.due hx k' hk')

/-- What a snapshot covers stays covered when the slots grow. -/
theorem CoversUnjoined.grow {point : Option (Ticket GpuStream)}
    (h : CoversUnjoined slots joined x point) (hx : Watched cfg slots joined x)
    (hg : SlotsGrow slots d joined slots' d' joined') : CoversUnjoined slots' joined' x point := by
  intro hgen k hk
  have halloc : (slots x.slotIndex).event ≠ 0 := hx.event ▸ hx.allocated
  rcases hg.generation _ halloc with hlt | ⟨heq, -, hjoined⟩
  · exact absurd hx.generation (by omega)
  · exact h (heq ▸ hgen) k (hjoined ▸ hk)

/-- The watcher stays behind the slots when they grow. -/
theorem WatcherBehind.grow {found : List (HpEventWaitSnapshot × Option (Ticket GpuStream))}
    {pc : WatcherPc} (h : WatcherBehind cfg slots d joined found pc)
    (hg : SlotsGrow slots d joined slots' d' joined') :
    WatcherBehind cfg slots' d' joined' found pc := by
  cases pc with
  | visiting visited todo phase =>
    obtain ⟨htodo, hfound, hphase⟩ := h
    refine ⟨fun x hx => (htodo x hx).grow hg,
      fun e he => ⟨(hfound e he).1.grow hg, (hfound e he).2.grow (hfound e he).1 hg⟩,
      fun x hx => ?_⟩
    have hw := htodo x (List.mem_of_mem_head? hx)
    cases phase with
    | recorded =>
      have hp : CoversUnjoined slots joined x (d.recorded x.event) := hphase x hx
      intro hgen k hk
      have halloc : (slots x.slotIndex).event ≠ 0 := hw.event ▸ hw.allocated
      rcases hg.generation _ halloc with hlt | ⟨-, hrec, -⟩
      · exact absurd hw.generation (by omega)
      · rw [hw.event] at hrec
        rw [hrec]
        exact hp.grow hw hg hgen k hk
    | synchronizing target => exact CoversUnjoined.grow (hphase x hx) hw hg
    | _ => trivial
  | _ => trivial

/-- A signal leaves the watcher where it is. -/
theorem WatcherBehind.signal {found : List (HpEventWaitSnapshot × Option (Ticket GpuStream))}
    {pc : WatcherPc} (h : WatcherBehind cfg slots d joined found pc) :
    WatcherBehind cfg slots d joined found pc.signal := by
  cases pc <;> exact h

/-- The slots of a snapshot are watched. -/
theorem watched_snapshot {t : HpTracker} (h : Follows cfg t.slots d joined)
    (hx : x ∈ hpSnapshotActiveEventsLocked t) : Watched cfg t.slots joined x := by
  obtain ⟨i, ha, rfl⟩ := mem_hpSnapshotActiveEventsLocked.mp hx
  refine { allocated := h.allocated i ha, event := rfl, generation := Nat.le_refl _
           pending := fun _ => rfl, busy := (h.busy i).mp ha, due := fun hdue k hk => ?_ }
  have hbehind := h.behind i k hk
  simp only [recordsDeferred, Bool.and_eq_true] at hdue
  unfold RecordedBehind at hbehind
  rw [if_pos hdue.2] at hbehind
  exact hbehind.symm

/-- With no record due on the snapshot, the event is recorded behind the slot. -/
theorem coversUnjoined_recorded (h : Follows cfg slots d joined)
    (hw : Watched cfg slots joined x) (hx : recordsDeferred cfg x = false) :
    CoversUnjoined slots joined x (d.recorded x.event) := by
  intro hgen k hk
  have hpend : (slots x.slotIndex).deferredRecordPending = false := by
    refine Bool.eq_false_iff.mpr fun hp => ?_
    have hxp := (hw.pending hgen).symm.trans hp
    simp [recordsDeferred, hxp, h.pending _ hp] at hx
  have hbehind := h.behind x.slotIndex k hk
  unfold RecordedBehind at hbehind
  rwa [if_neg (by simp [hpend]), hw.event] at hbehind

end watcher

/-! ## A launch that leaves the hooks -/

section launch

variable {cfg : HpConfig} {t : HpTracker} {d : Device GpuStream}
  {joined : SlotIndex → List (Ticket GpuStream)} {thread : Thread} {stream : CUstream}
  {p : Bool} {o : AfterAnswers}

/-- A stream has a slot if it had one, or one is free and its event is created. -/
theorem hpEventSlotLocked_isSome_iff {createOk : Bool} :
    (hpEventSlotLocked t d stream createOk).1.isSome = true ↔
      (∃ i, (t.slots i).event ≠ 0 ∧ (t.slots i).stream = stream) ∨
        (∃ i, (t.slots i).event = 0) ∧ createOk = true := by
  unfold hpEventSlotLocked
  split
  next i hi =>
    have hkey := firstSlot_some hi
    simp only [Bool.and_eq_true, decide_eq_true_eq] at hkey
    exact ⟨fun _ => .inl ⟨i, hkey⟩, fun _ => rfl⟩
  next hnone =>
    have hno : ¬ ∃ i, (t.slots i).event ≠ 0 ∧ (t.slots i).stream = stream := by
      rintro ⟨i, hi, hs⟩
      simpa [hi, hs] using firstSlot_none hnone i
    rw [or_iff_right hno]
    split
    next hfull =>
      have hno' : ¬ ∃ i, (t.slots i).event = 0 := by
        rintro ⟨i, hi⟩
        simpa [hi] using firstSlot_none hfull i
      exact ⟨by rintro ⟨⟩, fun h => absurd h.1 hno'⟩
    next i hi =>
      have hfree := firstSlot_some hi
      simp only [decide_eq_true_eq] at hfree
      cases createOk
      · exact ⟨by rintro ⟨⟩, by rintro ⟨-, ⟨⟩⟩⟩
      · exact ⟨fun _ => ⟨⟨i, hfree⟩, rfl⟩, fun _ => rfl⟩

/-- `GetsTracked` says when a launch gets a slot. -/
theorem trackLaunch_slot_iff :
    (∃ i, (trackLaunch cfg t d thread stream p o).slot = some i) ↔
      GetsTracked cfg t stream p o := by
  have hgot : (hpEventSlotLocked t d stream o.createOk).1.isSome = true ↔ _ :=
    hpEventSlotLocked_isSome_iff
  have hslot : (trackLaunch cfg t d thread stream p o).slot =
      if t.threadStarted then
        match (hpEventSlotLocked t d stream o.createOk).1 with
        | some i =>
          if (cfg.completionMode ≠ .deferred || isPerThreadSpecialStream stream p) && !o.recordOk
          then none else some i
        | none => none
      else none := by
    unfold trackLaunch
    dsimp only
    cases t.threadStarted
    · rfl
    · simp only [if_true]
      rcases hpEventSlotLocked t d stream o.createOk with ⟨_ | i, t₁, d₁⟩
      · rfl
      · dsimp only
        split <;> rfl
  rw [hslot]
  constructor
  · rintro ⟨i, hi⟩
    split at hi
    next hstarted =>
      split at hi
      next j hj =>
        refine { started := hstarted, slot := hgot.mp (by rw [hj]; rfl)
                 recorded := fun hnow => ?_ }
        split at hi
        · cases hi
        next hrec =>
          by_contra hfail
          rcases hnow with hm | hs
          · simp [hm, hfail] at hrec
          · simp [hs, hfail] at hrec
      next => cases hi
    next => cases hi
  · rintro ⟨hstarted, havail, hrec⟩
    obtain ⟨i, hi⟩ := Option.isSome_iff_exists.mp (hgot.mpr havail)
    refine ⟨i, ?_⟩
    rw [if_pos hstarted, hi]
    refine if_neg fun hfail => ?_
    simp only [Bool.and_eq_true, Bool.or_eq_true, decide_eq_true_eq, Bool.not_eq_true'] at hfail
    rw [hrec hfail.1] at hfail
    cases hfail.2

/-- The event of a slot that a launch joins is recorded behind all launches of its
stream, unless the record is left to the watcher, from whose thread the handle denotes
another stream. -/
theorem recordedBehind_tracking {slot : HpEventSlot} {k' : Ticket GpuStream}
    (hs : slot.stream = stream) (hk : d.Issued k') (hks : k'.stream = resolve stream p thread)
    (hdue : cfg.completionMode = .deferred → stream = 2 → p = true) :
    RecordedBehind (slotTracking cfg slot stream p)
      (if cfg.completionMode ≠ .deferred || isPerThreadSpecialStream stream p then
        d.record slot.event (resolve stream p thread)
      else d) k' := by
  by_cases hnow : (cfg.completionMode ≠ .deferred || isPerThreadSpecialStream stream p) = true
  · have hp : (slotTracking cfg slot stream p).deferredRecordPending = false := by
      simp only [slotTracking]
      cases hm : cfg.completionMode <;> simp_all
    unfold RecordedBehind
    rw [if_neg (by simp [hp]), if_pos hnow]
    refine ⟨_, Device.recorded_record_self .., ?_⟩
    rw [← hks]
    exact hk.covered
  · simp only [Bool.or_eq_true, decide_eq_true_eq, not_or, Bool.not_eq_true, ne_eq,
      Decidable.not_not] at hnow
    obtain ⟨hm, hspecial⟩ := hnow
    have hp : (slotTracking cfg slot stream p).deferredRecordPending = true := by
      simp [slotTracking, hm, hspecial]
    unfold RecordedBehind
    rw [if_pos hp, hks]
    show resolve slot.stream p watcherThread = _
    rw [hs]
    -- the handle is none that denotes a per-thread stream
    have hshared : IsShared stream p := by
      unfold isPerThreadSpecialStream at hspecial
      constructor
      · intro h2
        simp [h2, hdue hm h2] at hspecial
      · intro h0
        simpa [h0] using hspecial
    exact resolve_shared _ _ hshared hshared

/-- A launch joins the slot of its handle: at most its event is recorded. -/
theorem slotsGrow_activate {t₁ : HpTracker} {d₁ d₂ : Device GpuStream} {i : SlotIndex}
    (h : Follows cfg t.slots d joined) (hgot : SlotGot t d stream i t₁ d₁)
    {k : Ticket GpuStream} (hjoined : ∀ k' ∈ joined i, k'.stream = k.stream)
    (hrec : ∀ e, e ≠ (t₁.slots i).event → d₂.recorded e = d₁.recorded e) :
    SlotsGrow t.slots d joined
      (Function.update t₁.slots i (slotTracking cfg (t₁.slots i) stream p)) d₂
      (joinSlot joined k (some i)) := by
  constructor
  · intro j hj
    by_cases hji : j = i
    · subst hji
      rw [Function.update_self, ← hgot.of_allocated hj]
      rfl
    · rw [Function.update_of_ne hji, hgot.of_allocated hj]
  · intro j hne
    by_cases hji : j = i
    · subst hji
      simp only [joinSlot, Function.update_self]
      refine ⟨List.cons_ne_nil _ _, fun k' hk' => ?_⟩
      rcases List.mem_cons.mp hk' with rfl | hk'
      · obtain ⟨k₀, hk₀⟩ := List.exists_mem_of_ne_nil _ hne
        exact ⟨k₀, hk₀, (hjoined k₀ hk₀).symm⟩
      · exact ⟨k', hk', rfl⟩
    · simp only [joinSlot, Function.update_of_ne hji]
      exact ⟨hne, fun k' hk' => ⟨k', hk', rfl⟩⟩
  · intro j hj
    by_cases hji : j = i
    · subst hji
      rw [Function.update_self, hgot.of_allocated hj]
      exact .inl (Nat.lt_succ_self _)
    · right
      rw [Function.update_of_ne hji, hgot.of_allocated hj]
      refine ⟨rfl, ?_, Function.update_of_ne hji ..⟩
      rw [← hgot.device.2]
      refine hrec _ fun heq => hji ?_
      -- the other slots have events of their own
      exact (h.slotGot hgot).own j i (hgot.of_allocated hj ▸ hj) (hgot.of_allocated hj ▸ heq)

/-- What a launch that succeeded does to the slots, if it joins launches of its own
stream only. -/
theorem follows_trackLaunch (h : Follows cfg t.slots d joined) {k : Ticket GpuStream}
    (hk : d.Issued k) (hks : k.stream = resolve stream p thread)
    (hC : GetsTracked cfg t stream p o →
      (∀ i, (t.slots i).event ≠ 0 → (t.slots i).stream = stream →
        ∀ k' ∈ joined i, k'.stream = k.stream) ∧
      (cfg.completionMode = .deferred → stream = 2 → p = true)) :
    let r := trackLaunch cfg t d thread stream p o
    Follows cfg r.tracker.slots r.device (joinSlot joined k r.slot) ∧
      SlotsGrow t.slots d joined r.tracker.slots r.device (joinSlot joined k r.slot) ∧
      d.Le r.device := by
  intro r
  rcases trackLaunch_cases cfg t d thread stream p o with
    ⟨i, t₁, d₁, hgot, hr⟩ | ⟨t₁, d₁, hgot, hr⟩
  · have hslot : r.slot = some i := by simp only [r, hr]
    obtain ⟨hown, hdue⟩ := hC (trackLaunch_slot_iff.mp ⟨i, hslot⟩)
    have h₁ := h.slotGot hgot
    obtain ⟨hle, hrec⟩ := hgot.device
    have hjoined : ∀ k' ∈ joined i, k'.stream = k.stream := by
      by_cases hi : (t.slots i).event = 0
      · rw [(h.free hi).2]
        exact fun _ hk' => absurd hk' List.not_mem_nil
      · exact hown i hi (hgot.of_allocated hi ▸ hgot.ofStream)
    have hbehind := fun (k' : Ticket GpuStream) hk' (hs : k'.stream = k.stream) =>
      recordedBehind_tracking (d := d₁) hgot.ofStream hk' (hs.trans hks) hdue
    simp only [r, hr]
    split
    next hnow =>
      have h₂ := h₁.record hgot.allocated fun k' hk' => (hjoined k' hk').trans hks
      refine ⟨h₂.activate hgot.allocated (hk.mono hle) hjoined fun k' hk' hs => ?_,
        slotsGrow_activate h hgot hjoined fun e he => Device.recorded_record_other _ _ he, hle⟩
      have hb := hbehind k' hk' hs
      rwa [if_pos hnow] at hb
    next hlater =>
      refine ⟨h₁.activate hgot.allocated (hk.mono hle) hjoined fun k' hk' hs => ?_,
        slotsGrow_activate h hgot hjoined fun e _ => rfl, hle⟩
      have hb := hbehind k' hk' hs
      rwa [if_neg hlater] at hb
  · simp only [r, hr]
    rcases hgot with ⟨rfl, rfl⟩ | ⟨i, hgot⟩
    · exact ⟨h, slotsGrow_device rfl, Device.Le.refl _⟩
    · obtain ⟨hle, hrec⟩ := hgot.device
      refine ⟨h.slotGot hgot, ?_, hle⟩
      refine { event := fun j hj => by rw [hgot.of_allocated hj]
               streams := fun _ hne => ⟨hne, fun k' hk' => ⟨k', hk', rfl⟩⟩
               generation := fun j hj => .inr ⟨hgot.of_allocated hj, by rw [hrec], rfl⟩ }

/-- Conversely, if the event of the slot follows all launches in it afterwards. -/
theorem joinsOwnStream_trackLaunch (h : Follows cfg t.slots d joined) {k : Ticket GpuStream}
    (hks : k.stream = resolve stream p thread) (ht : thread ≠ watcherThread)
    (hbehind : ∀ i, ∀ k' ∈ joinSlot joined k (trackLaunch cfg t d thread stream p o).slot i,
      RecordedBehind ((trackLaunch cfg t d thread stream p o).tracker.slots i)
        (trackLaunch cfg t d thread stream p o).device k')
    (htracked : GetsTracked cfg t stream p o) :
    (∀ i, (t.slots i).event ≠ 0 → (t.slots i).stream = stream →
        ∀ k' ∈ joined i, k'.stream = k.stream) ∧
      (cfg.completionMode = .deferred → stream = 2 → p = true) := by
  obtain ⟨j, hj⟩ : ∃ j, (trackLaunch cfg t d thread stream p o).slot = some j :=
    trackLaunch_slot_iff.mpr htracked
  rcases trackLaunch_cases cfg t d thread stream p o with
    ⟨i, t₁, d₁, hgot, hr⟩ | ⟨t₁, d₁, -, hr⟩
  · rw [hr] at hbehind
    have hat := hbehind i
    simp only [joinSlot, HpTracker.setSlot, Function.update_self, List.forall_mem_cons] at hat
    constructor
    · intro l hl hs k' hk'
      have hli : l = i := by
        by_cases hi : (t.slots i).event = 0
        · exact absurd hs (hgot.unkeyed hi l hl)
        · refine h.keyed l i hl hi (hs.trans ?_)
          exact (hgot.of_allocated hi ▸ hgot.ofStream).symm
      exact (hat.2 k' (hli ▸ hk')).stream_eq hat.1
    · intro hm h2
      by_contra hp
      simp only [Bool.not_eq_true] at hp
      subst h2 hp
      have hpend : (slotTracking cfg (t₁.slots i) 2 false).deferredRecordPending = true := by
        simp [slotTracking, hm, isPerThreadSpecialStream]
      have hk := hat.1
      unfold RecordedBehind at hk
      rw [if_pos hpend, hks] at hk
      -- handle 2 denotes another stream in the watcher's thread
      have hw : resolve (t₁.slots i).stream false watcherThread = resolve 2 false thread := hk
      rw [hgot.ofStream] at hw
      exact ht (GpuStream.perThread.inj hw).symm
  · rw [hr] at hj
    cases hj

end launch

/-! ## Every step -/

/-- The work of a launch between the hooks, once the driver accepted it, is queued on
the stream that its handle denotes in its own thread. -/
def CallQueued (d : Device GpuStream) (c : HpCall) : Prop :=
  c.thread ≠ watcherThread ∧ ∀ k, c.phase = .accepted k →
    d.Issued k ∧ k.stream = resolve c.stream c.perThreadDefaultStream c.thread

/-- Work that is queued stays queued. -/
theorem CallQueued.mono {d d' : Device GpuStream} {c : HpCall} (h : CallQueued d c)
    (hle : d.Le d') : CallQueued d' c := ⟨h.1, fun k hk => ⟨(h.2 k hk).1.mono hle, (h.2 k hk).2⟩⟩

structure AuditInv (cfg : HpConfig) (s : HpAudit) : Prop where
  calls : ∀ c ∈ s.process.calls, CallQueued s.process.device c
  follows : Follows cfg s.process.tracker.slots s.process.device s.joined
  watcher : WatcherBehind cfg s.process.tracker.slots s.process.device s.joined s.found
    s.process.watcher

section steps

variable {cfg : HpConfig} {s t : HpAudit} {a : HpAction}

/-- The invariant holds at the start. -/
theorem auditInv_init (h : (hpAuditSystem cfg).Init s) : AuditInv cfg s := by
  obtain ⟨⟨ht, hc, hw, -⟩, hj, -⟩ := h
  refine { calls := fun c hcs => ?_, follows := ?_, watcher := ?_ }
  · rw [hc] at hcs
    exact absurd hcs List.not_mem_nil
  · rw [ht, funext hj]
    exact follows_initial cfg s.process.device
  · rw [hw]
    trivial

/-- A launch that joins launches of its own stream leaves the hooks. -/
theorem auditInv_after (h : AuditInv cfg s) {c : HpCall} {k : Ticket GpuStream}
    {o : AfterAnswers} (hc : c ∈ s.process.calls) (hp : c.phase = .accepted k)
    (hC : JoinsOwnStream cfg s (.after c o))
    (hprocess : t.process = s.process.afterLaunch c (eventHpAfterLaunch cfg s.process.tracker
      s.process.device c.thread c.stream c.perThreadDefaultStream true o))
    (hjoined : t.joined = s.joinedAfter cfg (.after c o) t.process)
    (hfound : t.found = s.foundAfter (.after c o)) : AuditInv cfg t := by
  obtain ⟨hk, hks⟩ := (h.calls c hc).2 k hp
  obtain ⟨hfollows, hgrow, hle⟩ := follows_trackLaunch h.follows hk hks (hC k hp)
  have hslots : t.process.tracker.slots = (trackLaunch cfg s.process.tracker s.process.device
      c.thread c.stream c.perThreadDefaultStream o).tracker.slots := by
    simp [hprocess, HpProcess.afterLaunch, eventHpAfterLaunch]
  have hdevice : t.process.device = (trackLaunch cfg s.process.tracker s.process.device c.thread
      c.stream c.perThreadDefaultStream o).device := by
    simp [hprocess, HpProcess.afterLaunch, eventHpAfterLaunch]
  have hj : t.joined = joinSlot s.joined k (trackLaunch cfg s.process.tracker s.process.device
      c.thread c.stream c.perThreadDefaultStream o).slot := by
    simp [hjoined, HpAudit.joinedAfter, hp, eventHpAfterLaunch]
  have hf : t.found = s.found := hfound
  refine { calls := fun e he => ?_, follows := ?_, watcher := ?_ }
  · rw [hdevice]
    rw [hprocess] at he
    exact (h.calls e (List.mem_of_mem_erase he)).mono hle
  · rw [hslots, hdevice, hj]
    exact hfollows
  · rw [hslots, hdevice, hj, hf]
    have hw := h.watcher.grow hgrow
    rw [hprocess]
    simp only [HpProcess.afterLaunch]
    split
    · exact hw.signal
    · exact hw

/-- The steps that leave the slots alone. -/
theorem auditInv_others (h : AuditInv cfg s)
    (hslots : t.process.tracker.slots = s.process.tracker.slots)
    (hle : s.process.device.Le t.process.device)
    (hrec : t.process.device.recorded = s.process.device.recorded)
    (hcreated : t.process.device.created = s.process.device.created)
    (hcalls : ∀ c ∈ t.process.calls, CallQueued t.process.device c)
    (hjoined : t.joined = s.joined)
    (hwatcher : WatcherBehind cfg s.process.tracker.slots s.process.device s.joined s.found
      s.process.watcher → WatcherBehind cfg s.process.tracker.slots s.process.device s.joined
        t.found t.process.watcher) : AuditInv cfg t := by
  refine { calls := hcalls, follows := ?_, watcher := ?_ }
  · rw [hslots, hjoined]
    exact h.follows.mono hle hrec hcreated
  · rw [hslots, hjoined]
    exact (hwatcher h.watcher).grow (slotsGrow_device hrec)

/-- The watcher takes a step. -/
theorem auditInv_watcher (h : AuditInv cfg s) {a : WatcherAction}
    (hstep : WatcherStep cfg s.process a t.process)
    (hjoined : t.joined = s.joinedAfter cfg (.watcher a) t.process)
    (hfound : t.found = s.foundAfter (.watcher a)) : AuditInv cfg t := by
  obtain ⟨process, joined, found⟩ := t
  obtain ⟨hcalls, hfollows, hw⟩ := h
  -- most steps change nothing but the watcher's own position
  have hmove : ∀ {pc}, joined = (fun i => if (s.process.tracker.slots i).active then s.joined i
      else []) → WatcherBehind cfg s.process.tracker.slots s.process.device s.joined found pc →
      AuditInv cfg ⟨{ s.process with watcher := pc }, joined, found⟩ := by
    intro pc hj hpc
    obtain rfl := hj.trans hfollows.keep
    exact { calls := hcalls, follows := hfollows, watcher := hpc }
  cases hstep with
  | checkStop | checkBlock | checkGo | wake | snapshotStop | snapshotRetry =>
    exact hmove hjoined trivial
  | observe | settle | load => exact hmove hjoined (by split <;> trivial)
  | queryPass done hpc =>
    refine { calls := hcalls, follows := ?_, watcher := by rw [hpc]; trivial }
    show Follows cfg (queryActiveEvents s.process.tracker done).slots _ joined
    rw [show joined = _ from hjoined]
    refine hfollows.clear fun i => ?_
    rw [queryActiveEvents_slots]
    dsimp only
    split
    · exact .inr ⟨rfl, rfl, rfl, id⟩
    · exact .inl rfl
  | snapshot stable hpc =>
    have hf : found = [] := hfound
    refine hmove hjoined ⟨fun x hx => watched_snapshot hfollows hx, fun e he => ?_,
      fun _ _ => trivial⟩
    rw [hf] at he
    exact absurd he List.not_mem_nil
  | recordNot visited x todo hpc hx =>
    obtain rfl : found = s.found := hfound
    rw [hpc] at hw
    refine hmove hjoined ⟨hw.1, hw.2.1, ?_⟩
    rintro y ⟨⟩
    exact coversUnjoined_recorded hfollows (hw.1 x List.mem_cons_self) hx
  | record visited x todo hpc hx =>
    obtain rfl : found = s.found := hfound
    obtain rfl : joined = s.joined := hjoined.trans hfollows.keep
    rw [hpc] at hw
    have hwatched := hw.1 x List.mem_cons_self
    have hdue := hwatched.due hx
    have halloc : (s.process.tracker.slots x.slotIndex).event ≠ 0 :=
      hwatched.event.symm ▸ hwatched.allocated
    have hrecord := hfollows.record halloc hdue
    rw [hwatched.event] at hrecord
    refine { calls := fun c hc => (hcalls c hc).mono (Device.le_record ..), follows := hrecord
             watcher := ⟨hw.1, hw.2.1, ?_⟩ }
    -- the record lies behind all launches in the slot
    rintro y ⟨⟩ - k hk
    refine ⟨_, Device.recorded_record_self .., ?_⟩
    rw [← hdue k hk]
    exact (hfollows.issued _ k hk).covered
  | synchronize visited x todo hpc =>
    obtain rfl : found = s.found := hfound
    rw [hpc] at hw
    refine hmove hjoined ⟨hw.1, hw.2.1, ?_⟩
    rintro y ⟨⟩
    exact hw.2.2 x rfl
  | synchronized visited x todo target hpc hd =>
    have hf : found = s.found ++ [(x, target)] := by
      rw [show found = _ from hfound]
      simp only [HpAudit.foundAfter, hpc]
    rw [hpc] at hw
    refine hmove hjoined ⟨fun y hy => hw.1 y (List.mem_cons_of_mem _ hy), fun e he => ?_,
      fun _ _ => trivial⟩
    rw [hf] at he
    rcases List.mem_append.mp he with he | he
    · exact hw.2.1 e he
    · rw [List.mem_singleton.mp he]
      exact ⟨hw.1 x List.mem_cons_self, hw.2.2 x rfl⟩
  | recordFails visited x todo hpc | synchronizeFails visited x todo _ hpc
  | fallBack visited x todo hpc =>
    obtain rfl : found = s.found := hfound
    rw [hpc] at hw
    exact hmove hjoined ⟨hw.1, hw.2.1, fun _ _ => trivial⟩
  | streamSynchronized visited x todo target ok hpc hd =>
    obtain rfl : found = s.found := hfound
    rw [hpc] at hw
    exact hmove hjoined ⟨fun y hy => hw.1 y (List.mem_cons_of_mem _ hy), hw.2.1,
      fun _ _ => trivial⟩
  | validate visited phase hpc =>
    refine { calls := hcalls, follows := ?_, watcher := trivial }
    show Follows cfg (validateSnapshots s.process.tracker visited).slots _ joined
    rw [show joined = _ from hjoined]
    refine hfollows.clear fun i => ?_
    simp only [validateSnapshots, hpPublishIdleLocked_slots]
    rcases foldl_validateSnapshot_slots s.process.tracker visited i with hi | hi
    · exact .inl hi
    · rw [hi]
      exact .inr ⟨rfl, rfl, rfl, by rintro ⟨⟩⟩

/-- A launch gets its answer from the driver. -/
theorem auditInv_answered (h : AuditInv cfg s) {c c' : HpCall} {d' : Device GpuStream}
    (hle : s.process.device.Le d') (hrec : d'.recorded = s.process.device.recorded)
    (hcreated : d'.created = s.process.device.created) (hc' : CallQueued d' c') :
    AuditInv cfg
      ⟨{ s.process with device := d', calls := c' :: s.process.calls.erase c }, s.joined,
        s.found⟩ := by
  refine auditInv_others h rfl hle hrec hcreated (fun e he => ?_) rfl id
  rcases List.mem_cons.mp he with rfl | he
  · exact hc'
  · exact (h.calls e (List.mem_of_mem_erase he)).mono hle

/-- Every step keeps the invariant. -/
theorem auditInv_step (h : AuditInv cfg s) (hC : JoinsOwnStream cfg s a)
    (hstep : (hpAuditSystem cfg).Step s a t) : AuditInv cfg t := by
  obtain ⟨hstep, hjoined, hfound⟩ := hstep
  obtain ⟨process, joined, found⟩ := t
  cases hstep with
  | before thread stream p startOk ht =>
    obtain rfl : joined = s.joined := hjoined
    obtain rfl : found = s.found := hfound
    refine auditInv_others h (beforeLaunch_slots ..) (Device.Le.refl _) rfl rfl (fun c hc => ?_)
      rfl fun hw => ?_
    · rcases List.mem_cons.mp hc with rfl | hc
      · exact ⟨ht, by rintro k ⟨⟩⟩
      · exact h.calls c hc
    · dsimp only
      split
      · trivial
      · exact hw
  | launch c hc hp =>
    obtain rfl : joined = s.joined := hjoined
    obtain rfl : found = s.found := hfound
    refine auditInv_answered h (Device.le_submit ..) rfl rfl ⟨(h.calls c hc).1, ?_⟩
    rintro k ⟨⟩
    exact ⟨Device.issued_submit .., rfl⟩
  | launchFails c hc hp =>
    obtain rfl : joined = s.joined := hjoined
    obtain rfl : found = s.found := hfound
    exact auditInv_answered h (Device.Le.refl _) rfl rfl ⟨(h.calls c hc).1, by rintro k ⟨⟩⟩
  | after c k o hc hp hsync => exact auditInv_after h hc hp hC rfl hjoined hfound
  | afterFailed c o hc hp =>
    obtain rfl : joined = s.joined := by
      rw [show joined = _ from hjoined]
      simp only [HpAudit.joinedAfter, hp]
    obtain rfl : found = s.found := hfound
    refine auditInv_others h ?_ (Device.Le.refl _) rfl rfl
      (fun e he => h.calls e (List.mem_of_mem_erase he)) rfl ?_
    · simp [eventHpAfterLaunch]
    · exact id
  | complete stream =>
    obtain rfl : joined = s.joined := hjoined
    obtain rfl : found = s.found := hfound
    have hle := Device.le_complete s.process.device stream
    exact auditInv_others h rfl hle rfl rfl (fun c hc => (h.calls c hc).mono hle) rfl id
  | shutdown =>
    obtain rfl : joined = s.joined := hjoined
    obtain rfl : found = s.found := hfound
    exact auditInv_others h rfl (Device.Le.refl _) rfl rfl h.calls rfl WatcherBehind.signal
  | watcher hw => exact auditInv_watcher h hw hjoined hfound

end steps

/-! ## Runs -/

section runs

variable {cfg : HpConfig} {s t : HpAudit} {a : HpAction}

/-- The invariant holds in every run that meets the condition. -/
theorem auditInv_reachable (h : ((hpAuditSystem cfg).restrict (JoinsOwnStream cfg)).Reachable s) :
    AuditInv cfg s := by
  have hind : ((hpAuditSystem cfg).restrict (JoinsOwnStream cfg)).Inductive (AuditInv cfg) :=
    { init := fun _ hs => auditInv_init hs
      step := fun _ _ _ _ hi hs => auditInv_step hi hs.1 hs.2 }
  exact hind.reachable h

/-- Launches that one event follows are on one stream, so no stream shares their slot. -/
theorem FollowStreams.noSharing (h : FollowStreams s) : NoSharing s :=
  fun i k hk k' hk' hne => absurd ((h i k hk).stream_eq (h i k' hk')) hne

/-- A pass that clears a slot has waited for its launches. -/
theorem AuditInv.clearedBehind (h : AuditInv cfg s) {process : HpProcess}
    (hstep : HpStep cfg s.process a process) : ClearedBehind s a := by
  cases a with
  | watcher a =>
    cases hstep with | watcher hstep =>
    cases a with
    | queryPass done =>
      cases hstep with | queryPass _ _ _ _ hm _ =>
      intro i _ _ k hk
      have hbehind := h.follows.behind i k hk
      unfold RecordedBehind at hbehind
      split at hbehind
      next hp =>
        -- no record is ever due in query mode
        rw [h.follows.pending i hp] at hm
        cases hm
      next => exact hbehind
    | validate =>
      cases hstep with | validate visited phase hpc =>
      intro x target hx _ _ hgen
      have hw := h.watcher
      rw [hpc] at hw
      exact (hw.2.1 (x, target) hx).2 hgen
    | _ => trivial
  | _ => trivial

/-- A step is as it should be exactly if the launch that leaves the hooks in it, if
any, joins launches of its own stream. -/
theorem followStreams_step_iff (h : AuditInv cfg s) (hstep : (hpAuditSystem cfg).Step s a t) :
    FollowStreams t ↔ JoinsOwnStream cfg s a := by
  constructor
  · intro hfollow
    obtain ⟨hstep, hjoined, -⟩ := hstep
    cases a with
    | after c o =>
      intro k hp htracked
      generalize hprocess : t.process = process at hstep
      cases hstep with
      | afterFailed _ _ _ hp' => cases hp.symm.trans hp'
      | after _ k' _ hc _ _ =>
        obtain ⟨hthread, hqueued⟩ := h.calls c hc
        refine joinsOwnStream_trackLaunch h.follows (hqueued k hp).2 hthread (fun i k' hk' => ?_)
          htracked
        have hb := hfollow i k' (by
          rw [hjoined]
          simpa [HpAudit.joinedAfter, hp, eventHpAfterLaunch] using hk')
        rw [hprocess] at hb
        simpa [HpProcess.afterLaunch, eventHpAfterLaunch] using hb
    | _ => trivial
  · exact fun hC => (auditInv_step h hC hstep).follows.behind

end runs

/-- In a run of launches on any handles by any threads, slots are not shared between
streams and events are recorded behind the launches they clear exactly if every launch
that gets tracked joins launches of its own stream only and, in deferred mode, none
names the per-thread stream through a legacy entry point. -/
theorem slots_follow_streams_iff (cfg : HpConfig) {tr : List (HpAudit × HpAction)}
    {s : HpAudit} (h : (hpAuditSystem cfg).Run tr s) :
    System.Throughout (fun u => NoSharing u ∧ FollowStreams u) tr s ∧
        System.Meets ClearedBehind tr ↔
      System.Meets (JoinsOwnStream cfg) tr := by
  refine h.throughout_meets_iff (fun u hu => ?_) fun u a v hu _ hstep => ?_
  · have hfollow : FollowStreams u := (auditInv_init hu).follows.behind
    exact ⟨hfollow.noSharing, hfollow⟩
  · have hinv := auditInv_reachable hu
    rw [← followStreams_step_iff hinv hstep]
    constructor
    · exact fun hall => hall.1.2
    · exact fun hfollow => ⟨⟨hfollow.noSharing, hfollow⟩, hinv.clearedBehind hstep.1⟩

/-! ## Two streams under one handle -/

/-- Threads 1 and 2 launch with the handle `NULL`, the first through the legacy entry
point, the second through `cuLaunchKernel_ptsz`; every driver call succeeds. -/
def queryConfig : HpConfig := ⟨.query, 0⟩

def legacyCall : HpCall := ⟨1, 0, false, .accepted ⟨.legacy, 0⟩⟩

def perThreadCall : HpCall := ⟨2, 0, true, .accepted ⟨.perThread 2, 0⟩⟩

/-- The first launch left the hooks. -/
def legacyAudit : HpAudit :=
  let t := eventHpBeforeLaunch .initial true
  let d := (Device.empty : Device GpuStream).submit .legacy
  { process :=
      HpProcess.afterLaunch ⟨t, d, [legacyCall], .top, []⟩ legacyCall
        (eventHpAfterLaunch queryConfig t d 1 0 false true ⟨true, true, true⟩)
    joined := Function.update (fun _ => []) 0 [⟨.legacy, 0⟩]
    found := [] }

/-- The second launch left the hooks too, and completed. -/
def sharedProcess : HpProcess :=
  let t := eventHpBeforeLaunch legacyAudit.process.tracker true
  let d := legacyAudit.process.device.submit (.perThread 2)
  let s := HpProcess.afterLaunch ⟨t, d, [perThreadCall], .top, legacyAudit.process.returned⟩
    perThreadCall (eventHpAfterLaunch queryConfig t d 2 0 true true ⟨true, true, true⟩)
  { s with device := s.device.complete (.perThread 2) }

/-- With its only event done, the process publishes that it is idle. -/
theorem sharedProcess_idle :
    (queryActiveEvents sharedProcess.tracker fun _ => true).published = .idle := by
  decide +kernel

/-- A run of an audited process goes one step on. -/
theorem audit_step {cfg : HpConfig} {tr : List (HpAudit × HpAction)} {s : HpAudit}
    (h : (hpAuditSystem cfg).Run tr s) {a : HpAction} {process : HpProcess}
    (hstep : HpStep cfg s.process a process) :
    (hpAuditSystem cfg).Run (tr ++ [(s, a)])
      ⟨process, s.joinedAfter cfg a process, s.foundAfter a⟩ :=
  .step h ⟨hstep, rfl, rfl⟩

/-- A run in which two streams share a slot. -/
theorem legacyAudit_run : ∃ tr, (hpAuditSystem queryConfig).Run tr legacyAudit ∧
    System.Meets (JoinsOwnStream queryConfig) tr := by
  let s₀ : HpProcess := ⟨.initial, .empty, [], .notStarted, []⟩
  let t := eventHpBeforeLaunch .initial true
  let c₀ : HpCall := ⟨1, 0, false, .entered⟩
  let s₁ : HpProcess := ⟨t, .empty, [c₀], .top, []⟩
  let d := (Device.empty : Device GpuStream).submit .legacy
  let s₂ : HpProcess := ⟨t, d, [legacyCall], .top, []⟩
  have h₀ : (hpAuditSystem queryConfig).Run [] ⟨s₀, fun _ => [], []⟩ :=
    .init ⟨⟨rfl, rfl, rfl, rfl⟩, fun _ => rfl, rfl⟩
  have h₁ := audit_step h₀ (HpStep.before s₀ 1 0 false true (by decide))
  have h₂ := audit_step h₁ (HpStep.launch s₁ c₀ List.mem_cons_self rfl)
  have h₃ := audit_step h₂ (HpStep.after s₂ legacyCall _ ⟨true, true, true⟩ List.mem_cons_self rfl
    (by rintro ⟨⟩))
  refine ⟨_, h₃, ?_⟩
  have hnil : System.Meets (JoinsOwnStream queryConfig) [] :=
    fun _ hx => absurd hx List.not_mem_nil
  simp only [System.meets_snoc]
  refine ⟨⟨⟨hnil, trivial⟩, trivial⟩, ?_⟩
  rintro k - -
  exact ⟨fun _ _ _ _ hk => absurd hk List.not_mem_nil, by rintro ⟨⟩⟩

/-- Thread 2 launches on a stream it created instead. -/
def createdCall : HpCall := ⟨2, 16, false, .accepted ⟨.created 16, 0⟩⟩

/-- The second launch gets a slot of its own, and its event clears it alone. -/
theorem slots_follow_streams_two : ∃ tr s, (hpAuditSystem queryConfig).Run tr s ∧
    s.joined 0 = [⟨.legacy, 0⟩] ∧ (∃ u ∈ tr, u.1.joined 1 = [⟨.created 16, 0⟩]) ∧
    s.joined 1 = [] ∧ System.Throughout (fun u => NoSharing u ∧ FollowStreams u) tr s ∧
    System.Meets ClearedBehind tr := by
  obtain ⟨tr, h₃, hjoins⟩ := legacyAudit_run
  let s₃ := legacyAudit.process
  let c₀ : HpCall := ⟨2, 16, false, .entered⟩
  let t := eventHpBeforeLaunch s₃.tracker true
  let s₄ : HpProcess := ⟨t, s₃.device, [c₀], .top, s₃.returned⟩
  let s₅ : HpProcess := ⟨t, s₃.device.submit (.created 16), [createdCall], .top, s₃.returned⟩
  let s₆ := s₅.afterLaunch createdCall (eventHpAfterLaunch queryConfig t s₅.device 2 16 false true
    ⟨true, true, true⟩)
  let s₇ : HpProcess := { s₆ with device := s₆.device.complete (.created 16) }
  have h₄ := audit_step h₃ (HpStep.before s₃ 2 16 false true (by decide))
  have h₅ := audit_step h₄ (HpStep.launch s₄ c₀ List.mem_cons_self rfl)
  have h₆ := audit_step h₅ (HpStep.after s₅ createdCall _ ⟨true, true, true⟩ List.mem_cons_self
    rfl (by rintro ⟨⟩))
  have h₇ := audit_step h₆ (HpStep.complete s₆ (.created 16))
  have hdone : ∀ i, (s₇.tracker.slots i).active = true → decide (i = 1) = true →
      s₇.device.EventDone (s₇.tracker.slots i).event := by
    intro i _ hi
    rw [of_decide_eq_true hi]
    rintro r ⟨⟩
    exact Nat.le_refl 1
  have h₈ := audit_step h₇ (HpStep.watcher (WatcherStep.queryPass s₇ (fun i => i = 1) rfl rfl rfl
    rfl hdone))
  refine ⟨_, _, h₈, rfl, ⟨_, List.mem_append_right _ List.mem_cons_self, rfl⟩, rfl,
    (slots_follow_streams_iff queryConfig h₈).mpr ?_⟩
  simp only [System.meets_snoc]
  refine ⟨⟨⟨⟨⟨hjoins, trivial⟩, trivial⟩, ?_⟩, trivial⟩, trivial⟩
  rintro k - -
  refine ⟨fun i _ hstream k' hk' => ?_, by rintro ⟨⟩⟩
  by_cases hi : i = 0
  · -- the slot 0 is for the handle of the first launch
    subst hi
    cases hstream
  · have hmem : k' ∈ Function.update (fun _ : SlotIndex => []) 0 [⟨.legacy, 0⟩] i := hk'
    rw [Function.update_of_ne hi] at hmem
    cases hmem

/-- The second launch joins the first one's slot and the slot's event is recorded on
the second one's stream. When that completes, the slot is cleared and IDLE published,
with the first launch incomplete. -/
theorem slots_shared : ∃ tr s, (hpAuditSystem queryConfig).Run tr s ∧
    ¬ System.Throughout NoSharing tr s ∧ ¬ System.Meets ClearedBehind tr ∧
    s.process.tracker.published = .idle ∧ ¬ s.process.device.Finished ⟨.legacy, 0⟩ := by
  obtain ⟨tr, h₃, -⟩ := legacyAudit_run
  let s₃ := legacyAudit.process
  let c₀ : HpCall := ⟨2, 0, true, .entered⟩
  let t := eventHpBeforeLaunch s₃.tracker true
  let s₄ : HpProcess := ⟨t, s₃.device, [c₀], .top, s₃.returned⟩
  let s₅ : HpProcess := ⟨t, s₃.device.submit (.perThread 2), [perThreadCall], .top, s₃.returned⟩
  let s₆ := s₅.afterLaunch perThreadCall (eventHpAfterLaunch queryConfig t s₅.device 2 0 true true
    ⟨true, true, true⟩)
  let s₇ : HpProcess := { s₆ with device := s₆.device.complete (.perThread 2) }
  have h₄ := audit_step h₃ (HpStep.before s₃ 2 0 true true (by decide))
  have h₅ := audit_step h₄ (HpStep.launch s₄ c₀ List.mem_cons_self rfl)
  have h₆ := audit_step h₅ (HpStep.after s₅ perThreadCall _ ⟨true, true, true⟩ List.mem_cons_self
    rfl (by rintro ⟨⟩))
  have h₇ := audit_step h₆ (HpStep.complete s₆ (.perThread 2))
  have hdone : ∀ i, (s₇.tracker.slots i).active = true → true = true →
      s₇.device.EventDone (s₇.tracker.slots i).event := by
    intro i hi _
    have hi0 : i = 0 := by
      by_contra hne
      -- the slot 0 was made, tracked the first launch and then the second
      have hfree : s₇.tracker.slots i = HpTracker.initial.slots i :=
        (Function.update_of_ne hne ..).trans
          ((Function.update_of_ne hne ..).trans (Function.update_of_ne hne ..))
      rw [hfree] at hi
      cases hi
    subst hi0
    rintro r ⟨⟩
    exact Nat.le_refl 1
  have h₈ := audit_step h₇ (HpStep.watcher (WatcherStep.queryPass s₇ (fun _ => true) rfl rfl rfl
    rfl hdone))
  refine ⟨_, _, h₈, fun hall => ?_, fun hall => ?_, sharedProcess_idle, Nat.not_lt_zero 0⟩
  · -- after the second launch both are in the slot 0
    have hsharing := (hall.1 _ (List.mem_append_right _ List.mem_cons_self)) 0 ⟨.legacy, 0⟩
      (List.mem_cons_of_mem _ List.mem_cons_self) ⟨.perThread 2, 0⟩ List.mem_cons_self
      (by rintro ⟨⟩)
    exact Nat.not_lt_zero 0 hsharing.1
  · have hcleared := (hall _ (List.mem_append_right _ List.mem_cons_self)) 0 rfl rfl ⟨.legacy, 0⟩
      (List.mem_cons_of_mem _ List.mem_cons_self)
    obtain ⟨r, ⟨⟩, hc⟩ := hcleared
    cases hc.1

end Lilt.Hp
