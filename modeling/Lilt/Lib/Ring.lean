import Mathlib.Logic.Function.Basic
import Mathlib.Data.Nat.ModEq
import Mathlib.Algebra.BigOperators.Group.Finset.Piecewise
import Mathlib.Algebra.Order.BigOperators.Group.List

/-!
# Ring buffers as queues

A ring of `window` cells in a larger array holds a queue: its oldest entry is in
the cell `head`, the others follow modulo `window`, and new entries go to `tail`.
A predicate on cells says which of them are in use, and a relation what it means
that the cell of an index holds an entry.

- `Ring.Represents`: the cells hold the queue, oldest entry first.
- `Represents.push`, `Represents.pop`: what enqueueing and dequeueing do to the
  queue.
- `Represents.tail_unused`, `Represents.head_used`: which cell they find.
- `Represents.writeUnused`: a cell out of use may be written.
- `Represents.mono`: the cells may hold the entries in a weaker sense.
- `Represents.sum_used`: a sum over the cells in use is one over the queue.
- `sum_used_update`: what writing one cell does to such a sum.
-/

namespace Ring

universe u v

variable {σ : Type u} {α : Type v}

/-- The cell that is `j` places behind the head. -/
def cell (window head j : Nat) : Nat := (head + j) % window

/-- `cells` hold the queue `items`. -/
structure Represents (Used : σ → Prop) (Holds : Nat → σ → α → Prop) (cells : Nat → σ)
    (window head tail : Nat) (items : List α) : Prop where
  head_lt : head < window
  length_le : items.length ≤ window
  tail_eq : tail = (head + items.length) % window
  holds : ∀ j a, items[j]? = some a →
    Holds (cell window head j) (cells (cell window head j)) a
  used_iff : ∀ i, Used (cells i) ↔ ∃ j < items.length, i = cell window head j

theorem cell_inj {window head j k : Nat} (hj : j < window) (hk : k < window)
    (h : cell window head j = cell window head k) : j = k := by
  have hmod : j ≡ k [MOD window] := Nat.ModEq.add_left_cancel' head h
  exact Nat.ModEq.eq_of_lt_of_lt hmod hj hk

/-- Behind the next head, places move up by one. -/
theorem cell_next (window head j : Nat) :
    cell window ((head + 1) % window) j = cell window head (j + 1) := by
  unfold cell
  rw [Nat.mod_add_mod, Nat.add_assoc, Nat.add_comm 1 j]

/-- A sum along a list, by its indices. -/
theorem sum_range_eq {F : Nat → Nat} {g : α → Nat} (items : List α)
    (h : ∀ j a, items[j]? = some a → F j = g a) :
    ∑ j ∈ Finset.range items.length, F j = (items.map g).sum := by
  induction items generalizing F with
  | nil => rfl
  | cons a rest ih =>
    rw [List.length_cons, Finset.sum_range_succ', List.map_cons, List.sum_cons, Nat.add_comm,
      h 0 a rfl, ih fun j b hj => h (j + 1) b hj]

/-- Writing a cell takes the old one out of a sum over the cells in use and puts the new one
in. -/
theorem sum_used_update {Used : σ → Prop} [DecidablePred Used] {size i : Nat} (hi : i < size)
    (cells : Nat → σ) (s : σ) (f : σ → Nat) :
    (∑ k ∈ Finset.range size with Used (Function.update cells i s k),
        f (Function.update cells i s k)) + (if Used (cells i) then f (cells i) else 0) =
      (∑ k ∈ Finset.range size with Used (cells k), f (cells k)) + if Used s then f s else 0 := by
  let g : σ → Nat := fun x => if Used x then f x else 0
  have hupdate : (fun k => g (Function.update cells i s k)) =
      Function.update (fun k => g (cells k)) i (g s) := Function.comp_update g cells i s
  have hmem : i ∈ Finset.range size := Finset.mem_range.mpr hi
  rw [Finset.sum_filter, Finset.sum_filter]
  show (∑ k ∈ Finset.range size, g (Function.update cells i s k)) + g (cells i) =
    (∑ k ∈ Finset.range size, g (cells k)) + g s
  rw [hupdate, Finset.sum_update_of_mem hmem,
    Finset.sum_eq_add_sum_sdiff_singleton_of_mem hmem fun k => g (cells k)]
  omega

section

variable {Used : σ → Prop} {Holds : Nat → σ → α → Prop} {cells : Nat → σ}
  {window head tail : Nat} {items : List α}

/-- An empty ring. -/
theorem represents_nil (hw : 0 < window) (h : ∀ i, ¬ Used (cells i)) :
    Represents Used Holds cells window 0 0 [] :=
  { head_lt := hw
    length_le := Nat.zero_le _
    tail_eq := (Nat.zero_mod _).symm
    holds := fun _ _ hj => by cases hj
    used_iff := fun i => iff_of_false (h i) fun ⟨_, hj, _⟩ => absurd hj (Nat.not_lt_zero _) }

namespace Represents

/-- The tail of a ring that is not full is not in use. -/
theorem tail_unused (h : Represents Used Holds cells window head tail items)
    (hroom : items.length < window) : ¬ Used (cells tail) := by
  intro hu
  obtain ⟨j, hj, heq⟩ := (h.used_iff tail).mp hu
  rw [h.tail_eq] at heq
  have := cell_inj hroom (Nat.lt_trans hj hroom) heq
  omega

/-- The head of a ring that is not empty holds the oldest entry. -/
theorem head_used {a : α} {rest : List α}
    (h : Represents Used Holds cells window head tail (a :: rest)) :
    Used (cells head) ∧ Holds head (cells head) a := by
  have hcell : cell window head 0 = head := Nat.mod_eq_of_lt h.head_lt
  constructor
  · exact (h.used_iff head).mpr ⟨0, Nat.succ_pos _, hcell.symm⟩
  · have := h.holds 0 a rfl
    rwa [hcell] at this

/-- Writing a cell that is not in use, and is not afterwards. -/
theorem writeUnused (h : Represents Used Holds cells window head tail items) {i : Nat} {s : σ}
    (hi : ¬ Used (cells i)) (hs : ¬ Used s) :
    Represents Used Holds (Function.update cells i s) window head tail items := by
  have hne : ∀ j < items.length, cell window head j ≠ i := by
    rintro j hj rfl
    exact hi ((h.used_iff _).mpr ⟨j, hj, rfl⟩)
  refine { h with holds := fun j a hj => ?_, used_iff := fun k => ?_ }
  · have hlt : j < items.length := (List.getElem?_eq_some_iff.mp hj).1
    rw [Function.update_of_ne (hne j hlt)]
    exact h.holds j a hj
  · by_cases hk : k = i
    · subst hk
      rw [Function.update_self]
      exact iff_of_false hs fun ⟨j, hj, heq⟩ => hne j hj heq.symm
    · rw [Function.update_of_ne hk]
      exact h.used_iff k

theorem mono {Holds' : Nat → σ → α → Prop}
    (h : Represents Used Holds cells window head tail items)
    (hholds : ∀ i a, a ∈ items → Holds i (cells i) a → Holds' i (cells i) a) :
    Represents Used Holds' cells window head tail items :=
  { h with holds := fun j a hj => hholds _ a (List.mem_of_getElem? hj) (h.holds j a hj) }

/-- Enqueueing an entry at the tail. -/
theorem push (h : Represents Used Holds cells window head tail items)
    (hroom : items.length < window) {s : σ} {a : α} (hs : Used s) (hold : Holds tail s a) :
    Represents Used Holds (Function.update cells tail s) window head
      ((tail + 1) % window) (items ++ [a]) := by
  have htail : tail = cell window head items.length := h.tail_eq
  have hne : ∀ j < items.length, cell window head j ≠ tail := by
    rintro j hj heq
    rw [htail] at heq
    have := cell_inj (Nat.lt_trans hj hroom) hroom heq
    omega
  refine { head_lt := h.head_lt, length_le := ?_, tail_eq := ?_, holds := fun j b hj => ?_
           used_iff := fun k => ?_ }
  · rw [List.length_append]
    exact hroom
  · rw [List.length_append, h.tail_eq, Nat.mod_add_mod, Nat.add_assoc]
    rfl
  · by_cases hlt : j < items.length
    · rw [List.getElem?_append_left hlt] at hj
      rw [Function.update_of_ne (hne j hlt)]
      exact h.holds j b hj
    · -- the last place is that of the new entry
      have hb := (List.getElem?_eq_some_iff.mp hj).1
      rw [List.length_append, List.length_singleton] at hb
      obtain rfl : j = items.length := by omega
      rw [List.getElem?_append_right (Nat.le_refl _), Nat.sub_self] at hj
      obtain rfl : a = b := by simpa using hj
      rw [← htail, Function.update_self]
      exact hold
  · by_cases hk : k = tail
    · subst hk
      rw [Function.update_self]
      refine iff_of_true hs ⟨items.length, ?_, htail⟩
      rw [List.length_append]
      exact Nat.lt_succ_self _
    · rw [Function.update_of_ne hk, h.used_iff k, List.length_append, List.length_singleton]
      constructor
      · rintro ⟨j, hj, heq⟩
        exact ⟨j, Nat.lt_succ_of_lt hj, heq⟩
      · rintro ⟨j, hj, heq⟩
        refine ⟨j, ?_, heq⟩
        rcases Nat.lt_succ_iff_lt_or_eq.mp hj with hlt | rfl
        · exact hlt
        · exact absurd (heq.trans htail.symm) hk

/-- Dequeueing the oldest entry: its cell goes out of use and the head moves on. -/
theorem pop {a : α} {rest : List α}
    (h : Represents Used Holds cells window head tail (a :: rest)) {s : σ} (hs : ¬ Used s) :
    Represents Used Holds (Function.update cells head s) window ((head + 1) % window)
      tail rest := by
  have hw : 0 < window := Nat.lt_of_le_of_lt (Nat.zero_le _) h.head_lt
  have hcell : cell window head 0 = head := Nat.mod_eq_of_lt h.head_lt
  have hlen : rest.length + 1 ≤ window := h.length_le
  have hne : ∀ j < rest.length, cell window head (j + 1) ≠ head := by
    intro j hj heq
    have := cell_inj (Nat.lt_of_lt_of_le (Nat.succ_lt_succ hj) hlen) hw (heq.trans hcell.symm)
    omega
  -- the place `j` behind the new head is the place `j + 1` behind the old one
  refine { head_lt := Nat.mod_lt _ hw, length_le := Nat.le_of_succ_le hlen, tail_eq := ?_
           holds := fun j b hj => ?_, used_iff := fun k => ?_ }
  · rw [h.tail_eq, Nat.mod_add_mod, List.length_cons, Nat.add_assoc, Nat.add_comm 1]
  · have hlt : j < rest.length := (List.getElem?_eq_some_iff.mp hj).1
    rw [cell_next, Function.update_of_ne (hne j hlt)]
    exact h.holds (j + 1) b hj
  · by_cases hk : k = head
    · subst hk
      rw [Function.update_self]
      refine iff_of_false hs ?_
      rintro ⟨j, hj, heq⟩
      rw [cell_next] at heq
      exact hne j hj heq.symm
    · rw [Function.update_of_ne hk, h.used_iff k]
      constructor
      · rintro ⟨j, hj, heq⟩
        cases j with
        | zero => exact absurd (heq.trans hcell) hk
        | succ j => exact ⟨j, Nat.lt_of_succ_lt_succ hj, heq.trans (cell_next ..).symm⟩
      · rintro ⟨j, hj, heq⟩
        exact ⟨j + 1, Nat.succ_lt_succ hj, heq.trans (cell_next ..)⟩

/-- A sum over the cells in use is the sum over the queue. -/
theorem sum_used [DecidablePred fun i => Used (cells i)]
    (h : Represents Used Holds cells window head tail items) {size : Nat} (hsize : window ≤ size)
    {f : σ → Nat} {g : α → Nat} (hfg : ∀ i s a, Holds i s a → f s = g a) :
    ∑ i ∈ Finset.range size with Used (cells i), f (cells i) = (items.map g).sum := by
  have hw : 0 < window := Nat.lt_of_le_of_lt (Nat.zero_le _) h.head_lt
  -- the cells in use are the places of the queue, each place in a cell of its own
  have hset : (Finset.range size).filter (fun i => Used (cells i)) =
      (Finset.range items.length).image (cell window head) := by
    ext i
    rw [Finset.mem_filter, Finset.mem_range, Finset.mem_image, h.used_iff i]
    constructor
    · rintro ⟨-, j, hj, rfl⟩
      exact ⟨j, Finset.mem_range.mpr hj, rfl⟩
    · rintro ⟨j, hj, rfl⟩
      exact ⟨Nat.lt_of_lt_of_le (Nat.mod_lt _ hw) hsize, j, Finset.mem_range.mp hj, rfl⟩
  have hinj : Set.InjOn (cell window head) (Finset.range items.length) := by
    intro j hj k hk heq
    have hj := Finset.mem_range.mp (Finset.mem_coe.mp hj)
    have hk := Finset.mem_range.mp (Finset.mem_coe.mp hk)
    exact cell_inj (Nat.lt_of_lt_of_le hj h.length_le) (Nat.lt_of_lt_of_le hk h.length_le) heq
  rw [hset, Finset.sum_image hinj]
  exact sum_range_eq items fun j a hj => hfg _ _ a (h.holds j a hj)

end Represents

end

end Ring
