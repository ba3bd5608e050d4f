import Lilt.Hp.Tracker

/-!
# Slots and their events

What is so of the slots whichever streams the launches use: the other developments of
the tracker build on it.

- `SlotGot.of_allocated`, `SlotGot.flags`, `SlotGot.device`: what getting a slot
  changes.
- `SlotsUsable`: active slots have an event, records are due in deferred mode only.
- `EventsOwned`: each slot has an event of its own.
- `SlotsUsable.slotGot`, `SlotsUsable.activate`, `SlotsUsable.deactivate`,
  `EventsOwned.slotGot`, `EventsOwned.activate`: the tracker keeps both.
-/

namespace Lilt.Hp

open Lilt.Driver Gpu

section got

variable {t t' : HpTracker} {d d' : Device GpuStream} {stream : CUstream} {i j : SlotIndex}

/-- Getting a slot changes no slot in use. -/
theorem SlotGot.of_allocated (hgot : SlotGot t d stream i t' d') (hj : (t.slots j).event ≠ 0) :
    t'.slots j = t.slots j := by
  rcases hgot.fresh with ⟨rfl, -⟩ | ⟨hfree, -, rfl⟩
  · rfl
  · refine HpTracker.setSlot_other _ _ ?_
    rintro rfl
    exact hj hfree

/-- What is not the stream or the event of a slot stays the same. -/
theorem SlotGot.flags (hgot : SlotGot t d stream i t' d') (j : SlotIndex) :
    (t'.slots j).active = (t.slots j).active ∧
      (t'.slots j).deferredRecordPending = (t.slots j).deferredRecordPending := by
  rcases hgot.fresh with ⟨rfl, -⟩ | ⟨-, -, rfl⟩
  · exact ⟨rfl, rfl⟩
  · by_cases hj : j = i
    · rw [hj, HpTracker.setSlot_self]
      exact ⟨rfl, rfl⟩
    · rw [HpTracker.setSlot_other _ _ hj]
      exact ⟨rfl, rfl⟩

theorem SlotGot.device (hgot : SlotGot t d stream i t' d') :
    d.Le d' ∧ d'.recorded = d.recorded := by
  rcases hgot.fresh with ⟨-, rfl⟩ | ⟨-, rfl, -⟩
  · exact ⟨Device.Le.refl _, rfl⟩
  · exact ⟨Device.le_createEvent d, rfl⟩

end got

section slots

variable {cfg : HpConfig} {slots slots' : SlotIndex → HpEventSlot} {d d' : Device GpuStream}
  {t t' : HpTracker} {stream : CUstream} {i : SlotIndex}

/-- A launch that joins a slot leaves its event and its stream as they are. -/
theorem update_slotTracking (cfg : HpConfig) (slots : SlotIndex → HpEventSlot) (i : SlotIndex)
    (stream : CUstream) (p : Bool) (j : SlotIndex) :
    let slots' := Function.update slots i (slotTracking cfg (slots i) stream p)
    (slots' j).event = (slots j).event ∧ (slots' j).stream = (slots j).stream := by
  dsimp only
  by_cases hj : j = i
  · rw [hj, Function.update_self]
    exact ⟨rfl, rfl⟩
  · rw [Function.update_of_ne hj]
    exact ⟨rfl, rfl⟩

/-! ## The flags -/

/-- An active slot has an event, and records are left to the watcher only in deferred
mode. -/
structure SlotsUsable (cfg : HpConfig) (slots : SlotIndex → HpEventSlot) : Prop where
  allocated : ∀ i, (slots i).active = true → (slots i).event ≠ 0
  pending : ∀ i, (slots i).deferredRecordPending = true → cfg.completionMode = .deferred

namespace SlotsUsable

theorem slotGot (h : SlotsUsable cfg t.slots) (hgot : SlotGot t d stream i t' d') :
    SlotsUsable cfg t'.slots := by
  constructor
  · intro j hj
    rw [(hgot.flags j).1] at hj
    rw [hgot.of_allocated (h.allocated j hj)]
    exact h.allocated j hj
  · intro j hj
    rw [(hgot.flags j).2] at hj
    exact h.pending j hj

/-- A slot that is active was not touched. -/
theorem slots_eq (h : SlotsUsable cfg t.slots) (hgot : SlotGot t d stream i t' d')
    {j : SlotIndex} (hj : (t.slots j).active = true) : t'.slots j = t.slots j :=
  hgot.of_allocated (h.allocated j hj)

theorem activate (h : SlotsUsable cfg slots) (halloc : (slots i).event ≠ 0) (stream : CUstream)
    (p : Bool) :
    SlotsUsable cfg (Function.update slots i (slotTracking cfg (slots i) stream p)) := by
  constructor
  · intro j hj
    rw [(update_slotTracking cfg slots i stream p j).1]
    by_cases hji : j = i
    · exact hji ▸ halloc
    · rw [Function.update_of_ne hji] at hj
      exact h.allocated j hj
  · intro j hj
    by_cases hji : j = i
    · rw [hji, Function.update_self] at hj
      simp only [slotTracking, Bool.and_eq_true, decide_eq_true_eq] at hj
      exact hj.1
    · rw [Function.update_of_ne hji] at hj
      exact h.pending j hj

/-- Slots stay as they are or are deactivated. -/
theorem deactivate (h : SlotsUsable cfg slots)
    (hslots : ∀ i, slots' i = slots i ∨ (slots' i).active = false ∧
      ((slots' i).deferredRecordPending = true → (slots i).deferredRecordPending = true)) :
    SlotsUsable cfg slots' := by
  constructor
  · intro j hj
    rcases hslots j with heq | ⟨hinactive, -⟩
    · rw [heq] at hj ⊢
      exact h.allocated j hj
    · rw [hinactive] at hj
      cases hj
  · intro j hj
    rcases hslots j with heq | ⟨-, hpending⟩
    · exact h.pending j (heq ▸ hj)
    · exact h.pending j (hpending hj)

end SlotsUsable

/-! ## The events -/

/-- The events in use were created, and no two slots have one event. -/
structure EventsOwned (slots : SlotIndex → HpEventSlot) (d : Device GpuStream) : Prop where
  created : ∀ i, (slots i).event ≤ d.created
  own : ∀ i j, (slots i).event ≠ 0 → (slots i).event = (slots j).event → i = j

namespace EventsOwned

/-- No slot gets or loses an event. -/
theorem congr (h : EventsOwned slots d) (hevent : ∀ i, (slots' i).event = (slots i).event) :
    EventsOwned slots' d := by
  constructor
  · intro j
    rw [hevent j]
    exact h.created j
  · intro j l hne heq
    rw [hevent j] at hne
    rw [hevent j, hevent l] at heq
    exact h.own j l hne heq

theorem slotGot (h : EventsOwned t.slots d) (hgot : SlotGot t d stream i t' d') :
    EventsOwned t'.slots d' := by
  rcases hgot.fresh with ⟨rfl, rfl⟩ | ⟨-, rfl, rfl⟩
  · exact h
  · have hself : ((t.setSlot i { t.slots i with event := d.newEvent, stream := stream }).slots
        i).event = d.newEvent := by rw [HpTracker.setSlot_self]
    have hother : ∀ j, j ≠ i → ((t.setSlot i
        { t.slots i with event := d.newEvent, stream := stream }).slots j).event =
          (t.slots j).event := by
      intro j hj
      rw [HpTracker.setSlot_other _ _ hj]
    -- a new handle is larger than every handle in use
    have hnew : ∀ j, (t.slots j).event ≠ d.newEvent := fun j heq =>
      Nat.not_succ_le_self _ (heq ▸ h.created j)
    constructor
    · intro j
      by_cases hj : j = i
      · rw [hj, hself]
        exact Nat.le_refl _
      · rw [hother j hj]
        exact Nat.le_succ_of_le (h.created j)
    · intro j l hne heq
      by_cases hj : j = i <;> by_cases hl : l = i
      · rw [hj, hl]
      · rw [hj, hself, hother l hl] at heq
        exact absurd heq.symm (hnew l)
      · rw [hl, hself, hother j hj] at heq
        exact absurd heq (hnew j)
      · rw [hother j hj] at hne heq
        rw [hother l hl] at heq
        exact h.own j l hne heq

theorem activate (h : EventsOwned slots d) (i : SlotIndex) (stream : CUstream) (p : Bool) :
    EventsOwned (Function.update slots i (slotTracking cfg (slots i) stream p)) d :=
  h.congr fun j => (update_slotTracking cfg slots i stream p j).1

end EventsOwned

end slots

end Lilt.Hp
