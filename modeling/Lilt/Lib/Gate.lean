import Mathlib.Algebra.BigOperators.Group.Finset.Piecewise
import Mathlib.Algebra.Order.BigOperators.Group.Finset
import Mathlib.Tactic.Abel

/-!
# A gate that is tested first and counted later

Clients look at a counter, and when it is not above a bound each of them may go through
and add an amount of its own to the counter afterwards. Between the look and the addition
other clients look as well, so the counter passes the bound. It passes it by at most one
amount for each client, however the clients interleave and however often somebody else
sets the counter back to zero.

- `Gate.Step`: the steps, where `pending` is what a client may still add.
- `Gate.Bounded`: the invariant.
- `Gate.Step.bounded`: every step keeps it.
-/

namespace Gate

variable {ι G : Type*}

/-- The counter, and for each client what it may add without another look. -/
structure State (ι G : Type*) where
  counter : G
  pending : ι → G

section step

variable [DecidableEq ι] [AddCommGroup G] [LinearOrder G]

/-- The steps of the clients, where `size` bounds the amount of each one, and of whoever
clears the counter. -/
inductive Step (bound : G) (size : ι → G) : State ι G → State ι G → Prop where
  | stay (s : State ι G) : Step bound size s s
  | enter (s : State ι G) (i : ι) {x : G} : s.counter ≤ bound → 0 ≤ x → x ≤ size i →
      Step bound size s { s with pending := Function.update s.pending i x }
  | withdraw (s : State ι G) (i : ι) :
      Step bound size s { s with pending := Function.update s.pending i 0 }
  | add (s : State ι G) (i : ι) :
      Step bound size s
        { counter := s.counter + s.pending i, pending := Function.update s.pending i 0 }
  | clear (s : State ι G) : Step bound size s { s with counter := 0 }

end step

section bounded

variable [Fintype ι] [AddCommGroup G] [LinearOrder G]

/-- Together with everything that is pending the counter is at most one amount for each
client above the bound. -/
structure Bounded (bound : G) (size : ι → G) (s : State ι G) : Prop where
  nonneg : ∀ i, 0 ≤ s.pending i
  le : ∀ i, s.pending i ≤ size i
  total : s.counter + ∑ i, s.pending i ≤ bound + ∑ i, size i

variable [IsOrderedAddMonoid G] {bound : G} {size : ι → G} {s t : State ι G}

/-- Below the bound it does not matter who is pending. -/
theorem Bounded.of_counter_le (hnonneg : ∀ i, 0 ≤ s.pending i)
    (hle : ∀ i, s.pending i ≤ size i) (h : s.counter ≤ bound) : Bounded bound size s where
  nonneg := hnonneg
  le := hle
  total := add_le_add h (Finset.sum_le_sum fun i _ => hle i)

theorem Bounded.counter_le (h : Bounded bound size s) : s.counter ≤ bound + ∑ i, size i :=
  le_trans (le_add_of_nonneg_right (Finset.sum_nonneg fun i _ => h.nonneg i)) h.total

/-- The counter stays below that bound when a client goes through. -/
theorem Bounded.counter_add_le (h : Bounded bound size s) (i : ι) :
    s.counter + s.pending i ≤ bound + ∑ i, size i := by
  have hsingle : s.pending i ≤ ∑ j, s.pending j :=
    Finset.single_le_sum (fun j _ => h.nonneg j) (Finset.mem_univ i)
  exact le_trans (add_le_add_right hsingle s.counter) h.total

variable [DecidableEq ι]

omit [LinearOrder G] [IsOrderedAddMonoid G] in
/-- The total with one amount replaced. -/
theorem sum_update_add (f : ι → G) (i : ι) (x : G) :
    (∑ j, Function.update f i x j) + f i = (∑ j, f j) + x := by
  rw [Finset.sum_update_of_mem (Finset.mem_univ i),
    ← Finset.add_sum_erase Finset.univ f (Finset.mem_univ i), Finset.sdiff_singleton_eq_erase]
  abel

omit [Fintype ι] [IsOrderedAddMonoid G] in
theorem nonneg_update {f : ι → G} (hf : ∀ j, 0 ≤ f j) {i : ι} {x : G} (hx : 0 ≤ x) (j : ι) :
    0 ≤ Function.update f i x j :=
  (Function.forall_update_iff f fun _ y => 0 ≤ y).mpr ⟨hx, fun k _ => hf k⟩ j

omit [Fintype ι] [AddCommGroup G] [IsOrderedAddMonoid G] in
theorem update_le {f : ι → G} (hf : ∀ j, f j ≤ size j) {i : ι} {x : G} (hx : x ≤ size i)
    (j : ι) : Function.update f i x j ≤ size j :=
  (Function.forall_update_iff f fun k y => y ≤ size k).mpr ⟨hx, fun k _ => hf k⟩ j

theorem Step.bounded (hbound : 0 ≤ bound) (h : Bounded bound size s)
    (hstep : Step bound size s t) : Bounded bound size t := by
  have hsize : ∀ i, 0 ≤ size i := fun i => le_trans (h.nonneg i) (h.le i)
  cases hstep with
  | stay => exact h
  | enter i hcounter hx hxle =>
    exact .of_counter_le (nonneg_update h.nonneg hx) (update_le h.le hxle) hcounter
  | withdraw i =>
    have hsum := sum_update_add s.pending i 0
    refine ⟨nonneg_update h.nonneg (le_refl 0), update_le h.le (hsize i), ?_⟩
    refine le_trans (add_le_add_right ?_ s.counter) h.total
    rw [add_zero] at hsum
    exact hsum ▸ le_add_of_nonneg_right (h.nonneg i)
  | add i =>
    have hsum := sum_update_add s.pending i 0
    refine ⟨nonneg_update h.nonneg (le_refl 0), update_le h.le (hsize i), ?_⟩
    rw [add_zero] at hsum
    show s.counter + s.pending i + ∑ j, Function.update s.pending i 0 j ≤ _
    rw [add_assoc, add_comm (s.pending i), hsum]
    exact h.total
  | clear => exact .of_counter_le h.nonneg h.le hbound

end bounded

end Gate
