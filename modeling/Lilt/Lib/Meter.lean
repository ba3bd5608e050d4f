import Mathlib.Algebra.Order.Group.Defs

/-!
# A counter that is read off and set back

Many clients add to a counter. One observer reads it, stores what it read where others
find it, and sets the counter back, in three steps of its own; it may set it back before
or after it stores. What is added between its reading and its setting back is lost, and so
is what a counter of fixed width loses when it wraps, but nothing is counted twice.

- `Meter.Step`: the steps of the clients and the observer.
- `Meter.Fair`: all that was stored together is at most what was added, and so it stays
  with what is about to be stored; `Meter.Step.fair`: every step keeps it.
-/

namespace Meter

/-- Where the observer is. -/
inductive Phase (G : Type*) where
  | resting
  /-- The counter was read. -/
  | read (x : G)
  /-- What was read is stored, the counter still to be set back. -/
  | stored (x : G)
  /-- The counter was set back, what was read still to be stored. -/
  | cleared (x : G)

/-- The counter and the observer, with the totals so far. -/
structure State (G : Type*) where
  counter : G
  phase : Phase G
  /-- all that was added -/
  added : G
  /-- all that was stored -/
  stored : G

variable {G : Type*} [AddCommGroup G] [LinearOrder G]

inductive Step : State G → State G → Prop where
  | stay (s : State G) : Step s s
  /-- The counter may have wrapped: then it holds less than it should. -/
  | add (s : State G) {x c : G} : 0 ≤ x → c ≤ s.counter + x →
      Step s { s with counter := c, added := s.added + x }
  | reset (s : State G) : s.phase = .resting → Step s { s with counter := 0 }
  | read (s : State G) : s.phase = .resting → Step s { s with phase := .read s.counter }
  | store (s : State G) {x : G} : s.phase = .read x →
      Step s { s with phase := .stored x, stored := s.stored + x }
  | clear (s : State G) {x : G} : s.phase = .read x →
      Step s { s with phase := .cleared x, counter := 0 }
  | clearStored (s : State G) {x : G} : s.phase = .stored x →
      Step s { s with phase := .resting, counter := 0 }
  | storeCleared (s : State G) {x : G} : s.phase = .cleared x →
      Step s { s with phase := .resting, stored := s.stored + x }

/-- What was stored was added, each amount once, and so was what may be stored next. -/
structure Fair (s : State G) : Prop where
  stored_le : s.stored ≤ s.added
  due : match s.phase with
    | .resting => s.stored + s.counter ≤ s.added
    | .read x => s.stored + x ≤ s.added ∧ s.stored + s.counter ≤ s.added
    -- what the counter holds now was stored before
    | .stored _ => True
    | .cleared x => s.stored + x ≤ s.added ∧ s.stored + x + s.counter ≤ s.added

variable [IsOrderedAddMonoid G] {s t : State G}

/-- What may be stored next was added before, whatever is added now. -/
theorem add_le_added {base counter added x c : G} (h : base + counter ≤ added)
    (hc : c ≤ counter + x) : base + c ≤ added + x := by
  calc base + c ≤ base + (counter + x) := by gcongr
    _ = base + counter + x := (add_assoc _ _ _).symm
    _ ≤ added + x := by gcongr

theorem Step.fair (h : Fair s) (hstep : Step s t) : Fair t := by
  have hstored := h.stored_le
  have hdue := h.due
  cases hstep with
  | stay => exact h
  | @add x c hx hc =>
    have hgrown : s.added ≤ s.added + x := le_add_of_nonneg_right hx
    refine ⟨le_trans hstored hgrown, ?_⟩
    dsimp only
    cases hphase : s.phase with
    | resting =>
      rw [hphase] at hdue
      exact add_le_added hdue hc
    | read y =>
      rw [hphase] at hdue
      exact ⟨le_trans hdue.1 hgrown, add_le_added hdue.2 hc⟩
    | stored y => trivial
    | cleared y =>
      rw [hphase] at hdue
      exact ⟨le_trans hdue.1 hgrown, add_le_added hdue.2 hc⟩
  | reset hphase =>
    refine ⟨hstored, ?_⟩
    dsimp only
    rw [hphase]
    dsimp only
    rw [add_zero]
    exact hstored
  | read hphase =>
    rw [hphase] at hdue
    exact ⟨hstored, hdue, hdue⟩
  | store hphase =>
    rw [hphase] at hdue
    exact ⟨hdue.1, trivial⟩
  | @clear x hphase =>
    rw [hphase] at hdue
    refine ⟨hstored, hdue.1, ?_⟩
    dsimp only
    rw [add_zero]
    exact hdue.1
  | clearStored hphase =>
    refine ⟨hstored, ?_⟩
    dsimp only
    rw [add_zero]
    exact hstored
  | storeCleared hphase =>
    rw [hphase] at hdue
    exact ⟨hdue.1, hdue.2⟩

end Meter
