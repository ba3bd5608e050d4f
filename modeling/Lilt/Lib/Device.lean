import Mathlib.Logic.Function.Basic

/-!
# In-order streams and events of an accelerator

A `Device` is a family of in-order work queues (streams) and a set of events.
Work on one stream completes in the order it was queued, so a stream is two
counters: how many items were ever queued and how many of them completed.
Nothing relates the progress of different streams.

- A `Ticket` names one item of work, or the point of a stream just before it.
- `Device.frontier d s` is the point behind everything queued on `s` so far:
  the next item gets this ticket, and an event recorded now remembers it.
- `Device.Passed d r`: the stream got as far as the point `r`. This is what a
  successful query of, or wait for, an event recorded at `r` reports.
- `Device.Sound`: no event was recorded at a point that no work leads up to.
- `Device.Le`: the device evolved. `Finished`, `Passed` and `Issued` are
  monotone in it, and every operation here is an evolution.

Event handles are positive numbers given out in increasing order, so a new
handle differs from all earlier ones and `0` is never a handle.
-/

namespace Gpu

universe u

/-- An item of work, by its stream and its position in the stream's order. -/
structure Ticket (S : Type u) where
  stream : S
  pos : Nat
  deriving DecidableEq

/-- The point `r` of a stream lies behind the item `k`. -/
def Ticket.Covers {S : Type u} (r k : Ticket S) : Prop :=
  k.stream = r.stream ∧ k.pos < r.pos

/-- In-order streams over `S` and numbered events. -/
structure Device (S : Type u) where
  /-- How many items were ever queued on a stream. -/
  queued : S → Nat
  /-- How many of them completed; always the oldest ones. -/
  completed : S → Nat
  /-- Where an event was recorded last, if ever. -/
  recorded : Nat → Option (Ticket S)
  /-- How many events were created. -/
  created : Nat

namespace Device

variable {S : Type u}

/-- A device nothing was queued on. -/
def empty : Device S where
  queued _ := 0
  completed _ := 0
  recorded _ := none
  created := 0

/-- The point behind everything queued on `s` so far. -/
def frontier (d : Device S) (s : S) : Ticket S := ⟨s, d.queued s⟩

/-- The item `k` was queued. -/
def Issued (d : Device S) (k : Ticket S) : Prop := k.pos < d.queued k.stream

/-- The item `k` completed. -/
def Finished (d : Device S) (k : Ticket S) : Prop := k.pos < d.completed k.stream

/-- Everything before the point `r` completed. -/
def Passed (d : Device S) (r : Ticket S) : Prop := r.pos ≤ d.completed r.stream

/-- The event `e` was never recorded, or the point it was last recorded at is
passed. -/
def EventDone (d : Device S) (e : Nat) : Prop := ∀ r ∈ d.recorded e, d.Passed r

instance (d : Device S) (k : Ticket S) : Decidable (d.Finished k) :=
  inferInstanceAs (Decidable (_ < _))

instance (d : Device S) (r : Ticket S) : Decidable (d.Passed r) :=
  inferInstanceAs (Decidable (_ ≤ _))

instance (d : Device S) (e : Nat) : Decidable (d.EventDone e) :=
  inferInstanceAs (Decidable (∀ r ∈ d.recorded e, d.Passed r))

/-- Record the event `e` on `s`: it remembers the frontier of `s`. -/
def record (d : Device S) (e : Nat) (s : S) : Device S :=
  { d with recorded := Function.update d.recorded e (some (d.frontier s)) }

/-- The handle the next created event gets. -/
def newEvent (d : Device S) : Nat := d.created + 1

/-- Create the event `newEvent d`. -/
def createEvent (d : Device S) : Device S :=
  { d with created := d.created + 1 }

/-! ## What passing a point says about the work before it -/

/-- Work before a passed point is complete. -/
theorem Passed.finished {d : Device S} {r k : Ticket S} (h : d.Passed r)
    (hc : r.Covers k) : d.Finished k := by
  obtain ⟨hs, hp⟩ := hc
  show k.pos < d.completed k.stream
  rw [hs]
  exact Nat.lt_of_lt_of_le hp h

/-- The frontier of a stream covers everything queued on it. -/
theorem Issued.covered {d : Device S} {k : Ticket S} (h : d.Issued k) :
    (d.frontier k.stream).Covers k := ⟨rfl, h⟩

/-! ## Evolution -/

/-- `d'` is `d` some time later: more work queued, more work completed. -/
def Le (d d' : Device S) : Prop :=
  (∀ s, d.queued s ≤ d'.queued s) ∧ ∀ s, d.completed s ≤ d'.completed s

/-- A device is at its own point. -/
theorem Le.refl (d : Device S) : d.Le d :=
  ⟨fun _ => Nat.le_refl _, fun _ => Nat.le_refl _⟩

/-- Later points of a device are reached from each other. -/
theorem Le.trans {d₁ d₂ d₃ : Device S} (h : d₁.Le d₂) (h' : d₂.Le d₃) : d₁.Le d₃ :=
  ⟨fun s => Nat.le_trans (h.1 s) (h'.1 s), fun s => Nat.le_trans (h.2 s) (h'.2 s)⟩

/-- Recording an event moves nothing back. -/
theorem le_record (d : Device S) (e : Nat) (s : S) : d.Le (d.record e s) := Le.refl d

/-- Creating an event moves nothing back. -/
theorem le_createEvent (d : Device S) : d.Le d.createEvent := Le.refl d

/-- Work that is issued stays issued. -/
theorem Issued.mono {d d' : Device S} {k : Ticket S} (h : d.Issued k) (hle : d.Le d') :
    d'.Issued k := Nat.lt_of_lt_of_le h (hle.1 _)

/-- Work that is finished stays finished. -/
theorem Finished.mono {d d' : Device S} {k : Ticket S} (h : d.Finished k)
    (hle : d.Le d') : d'.Finished k := Nat.lt_of_lt_of_le h (hle.2 _)

/-! ## Records -/

/-- The event that is recorded stands at the end of the stream's work. -/
@[simp] theorem recorded_record_self (d : Device S) (e : Nat) (s : S) :
    (d.record e s).recorded e = some (d.frontier s) := by simp [record]

/-- The other events stay where they are. -/
theorem recorded_record_other (d : Device S) {e e' : Nat} (s : S) (h : e' ≠ e) :
    (d.record e s).recorded e' = d.recorded e' := by simp [record, h]

@[simp] theorem created_record (d : Device S) (e : Nat) (s : S) :
    (d.record e s).created = d.created := rfl

@[simp] theorem recorded_createEvent (d : Device S) :
    d.createEvent.recorded = d.recorded := rfl

/-! ## Points that are reached -/

/-- Every event was recorded at a point that its stream reached or will reach. -/
def Sound (d : Device S) : Prop := ∀ e, ∀ r ∈ d.recorded e, r.pos ≤ d.queued r.stream

/-- Completing or queueing work keeps the recorded points among the work issued. -/
theorem Sound.mono {d d' : Device S} (h : d.Sound) (hle : d.Le d')
    (hrec : d'.recorded = d.recorded) : d'.Sound := by
  intro e r hr
  rw [hrec] at hr
  exact Nat.le_trans (h e r hr) (hle.1 r.stream)

/-- Recording an event keeps the recorded points among the work issued. -/
theorem Sound.record {d : Device S} (h : d.Sound) (e : Nat) (s : S) : (d.record e s).Sound := by
  intro e' r hr
  by_cases he : e' = e
  · subst he
    rw [recorded_record_self] at hr
    cases hr
    exact Nat.le_refl _
  · rw [recorded_record_other _ _ he] at hr
    exact h e' r hr

/-! ## Queueing and completing work -/

variable [DecidableEq S]

/-- Queue one more item on `s`; its ticket is the frontier before the call. -/
def submit (d : Device S) (s : S) : Device S :=
  { d with queued := Function.update d.queued s (d.queued s + 1) }

/-- The oldest incomplete item of `s` completes, if there is one. -/
def complete (d : Device S) (s : S) : Device S :=
  { d with
    completed := Function.update d.completed s
      (if d.completed s < d.queued s then d.completed s + 1 else d.completed s) }

/-- Queueing work moves nothing back. -/
theorem le_submit (d : Device S) (s : S) : d.Le (d.submit s) := by
  refine ⟨fun r => ?_, fun _ => Nat.le_refl _⟩
  by_cases h : r = s
  · subst h; simp [submit]
  · simp [submit, h]

/-- Completing work moves nothing back. -/
theorem le_complete (d : Device S) (s : S) : d.Le (d.complete s) := by
  refine ⟨fun _ => Nat.le_refl _, fun r => ?_⟩
  by_cases h : r = s
  · subst h
    simp only [complete, Function.update_self]
    split <;> omega
  · simp [complete, h]

/-- While something is queued, one more item completes. -/
theorem completed_complete {d : Device S} {s : S} (h : d.completed s < d.queued s) :
    (d.complete s).completed s = d.completed s + 1 := by
  simp [complete, h]

/-- The work that is queued is issued. -/
theorem issued_submit (d : Device S) (s : S) : (d.submit s).Issued (d.frontier s) := by
  simp [Issued, frontier, submit]

@[simp] theorem recorded_submit (d : Device S) (s : S) :
    (d.submit s).recorded = d.recorded := rfl

@[simp] theorem recorded_complete (d : Device S) (s : S) :
    (d.complete s).recorded = d.recorded := rfl

@[simp] theorem created_submit (d : Device S) (s : S) :
    (d.submit s).created = d.created := rfl

@[simp] theorem created_complete (d : Device S) (s : S) :
    (d.complete s).created = d.created := rfl

end Device

end Gpu
