import Mathlib.Order.Interval.Set.OrdConnected
import Mathlib.Order.Interval.Set.UnorderedInterval
import Mathlib.Order.Lattice.Nat

/-!
# Estimates that track a sequence of samples

The first sample is the estimate. A later one moves the estimate towards itself and not
past, by however much. Such an estimate never leaves what the samples span.

- `Tracks`: the estimates that a sequence of samples can lead to.
- `Tracks.mem`: they are in every convex set that has all the samples.
- `Tracks.between`: they lie between the least sample and the greatest.
- `average`: the sample counts for one part in `weight`, in numbers without a bound.
- `averageWord`: the same in words of 64 bits; `toNat_averageWord` says nothing wraps.
- `Approaches`: how the estimate, the sample and the next estimate lie.
-/

namespace Tracking

section order

variable {α : Type} [LinearOrder α]

/-- The samples, in the order they came in, can leave this estimate. -/
inductive Tracks : List α → α → Prop where
  | first (y : α) : Tracks [y] y
  | next {ys : List α} {x y z : α} (h : Tracks ys x) (hz : z ∈ Set.uIcc x y) :
      Tracks (ys ++ [y]) z

variable {ys : List α} {x : α}

/-- The latest sample may be all that the estimate remembers. -/
theorem Tracks.last (h : Tracks ys x) (y : α) : Tracks (ys ++ [y]) y :=
  h.next Set.right_mem_uIcc

/-- An estimate stays in a convex set that no sample is outside of. -/
theorem Tracks.mem {s : Set α} (hs : s.OrdConnected) (h : Tracks ys x)
    (hys : ∀ y ∈ ys, y ∈ s) : x ∈ s := by
  induction h with
  | first y => exact hys y (List.mem_singleton_self y)
  | @next ys x y z _ hz ih =>
    have hx : x ∈ s := ih fun y' hy' => hys y' (List.mem_append_left _ hy')
    have hy : y ∈ s := hys y (List.mem_append_right _ (List.mem_singleton_self y))
    exact hs.uIcc_subset hx hy hz

end order

/-! ## The truncating average -/

/-- The estimate `x` moved towards the sample `y` by one part in `weight` of the way. -/
def average (weight x y : Nat) : Nat :=
  if x ≤ y then x + (y - x) / weight else x - (x - y) / weight

theorem average_mem (weight x y : Nat) : average weight x y ∈ Set.uIcc x y := by
  rw [Set.mem_uIcc]
  unfold average
  split
  next hup =>
    have hpart : (y - x) / weight ≤ y - x := Nat.div_le_self _ _
    exact .inl ⟨Nat.le_add_right _ _, by omega⟩
  next hdown =>
    have hpart : (x - y) / weight ≤ x - y := Nat.div_le_self _ _
    exact .inr ⟨by omega, Nat.sub_le _ _⟩

/-- Up and down alike, the way is divided and truncated. -/
theorem average_eq_tdiv (weight x y : Nat) :
    (average weight x y : Int) = x + ((y : Int) - x).tdiv weight := by
  unfold average
  split
  next hup =>
    have hway : (y : Int) - x = ((y - x : Nat) : Int) := by omega
    rw [hway, ← Int.ofNat_tdiv, Int.natCast_add]
  next hdown =>
    have hway : (y : Int) - x = -((x - y : Nat) : Int) := by omega
    have hpart : (x - y) / weight ≤ x := (Nat.div_le_self _ _).trans (Nat.sub_le _ _)
    rw [hway, Int.neg_tdiv, ← Int.ofNat_tdiv, Int.ofNat_sub hpart, Int.sub_eq_add_neg]

/-! ## In words -/

/-- `average` as a program computes it. -/
def averageWord (weight x y : UInt64) : UInt64 :=
  if x ≤ y then x + (y - x) / weight else x - (x - y) / weight

/-- No sum or difference wraps. -/
theorem toNat_averageWord (weight x y : UInt64) :
    (averageWord weight x y).toNat = average weight.toNat x.toNat y.toNat := by
  have hy : y.toNat < 2 ^ 64 := y.toNat_lt
  unfold averageWord average
  by_cases hup : x ≤ y
  · have hle : x.toNat ≤ y.toNat := UInt64.le_iff_toNat_le.mp hup
    have hpart : (y.toNat - x.toNat) / weight.toNat ≤ y.toNat - x.toNat := Nat.div_le_self _ _
    rw [if_pos hup, if_pos hle, UInt64.toNat_add, UInt64.toNat_div,
      UInt64.toNat_sub_of_le _ _ hup]
    exact Nat.mod_eq_of_lt (by omega)
  · have hlt : y < x := UInt64.not_le.mp hup
    have hpart : (x - y) / weight ≤ x := by
      rw [UInt64.le_iff_toNat_le, UInt64.toNat_div,
        UInt64.toNat_sub_of_le _ _ (UInt64.le_of_lt hlt)]
      exact (Nat.div_le_self _ _).trans (Nat.sub_le _ _)
    rw [if_neg hup, if_neg fun hle => hup (UInt64.le_iff_toNat_le.mpr hle),
      UInt64.toNat_sub_of_le _ _ hpart, UInt64.toNat_div,
      UInt64.toNat_sub_of_le _ _ (UInt64.le_of_lt hlt)]

/-- The greater word is the first of two that are equal. -/
instance lawfulMax : Std.LawfulOrderLeftLeaningMax UInt64 :=
  .of_eq fun x y => by
    show (if x ≤ y then y else x) = _
    by_cases hxy : x ≤ y
    · by_cases hyx : y ≤ x
      · rw [if_pos hxy, if_pos hyx, UInt64.le_antisymm hxy hyx]
      · rw [if_pos hxy, if_neg hyx]
    · have hyx : y ≤ x := UInt64.le_of_lt (UInt64.not_le.mp hxy)
      rw [if_neg hxy, if_pos hyx]

/-- A word that tracks words lies between the least and the greatest of them. -/
theorem Tracks.between {ys : List UInt64} {x : UInt64}
    (h : Tracks (ys.map UInt64.toNat) x.toNat) (hne : ys ≠ []) :
    ys.min hne ≤ x ∧ x ≤ ys.max hne := by
  have hmem : x.toNat ∈ Set.Icc (ys.min hne).toNat (ys.max hne).toNat := by
    refine h.mem Set.ordConnected_Icc fun n hn => ?_
    obtain ⟨y, hy, rfl⟩ := List.mem_map.mp hn
    exact ⟨UInt64.le_iff_toNat_le.mp (List.min_le_of_mem hy),
      UInt64.le_iff_toNat_le.mp (List.le_max_of_mem hy)⟩
  exact ⟨UInt64.le_iff_toNat_le.mpr hmem.1, UInt64.le_iff_toNat_le.mpr hmem.2⟩

/-- `z` is one part in `weight` of the way from `x` to `y`, in integers, and lies between
both. -/
structure Approaches (weight : Nat) (x y z : UInt64) : Prop where
  exact : (z.toNat : Int) = x.toNat + ((y.toNat : Int) - x.toNat).tdiv weight
  up : x ≤ y → x ≤ z ∧ z ≤ y
  down : y ≤ x → y ≤ z ∧ z ≤ x

theorem averageWord_approaches (weight x y : UInt64) :
    Approaches weight.toNat x y (averageWord weight x y) := by
  have hmem := average_mem weight.toNat x.toNat y.toNat
  rw [← toNat_averageWord, Set.mem_uIcc] at hmem
  refine { exact := ?_, up := fun hup => ?_, down := fun hdown => ?_ }
  · rw [toNat_averageWord, average_eq_tdiv]
  · rw [UInt64.le_iff_toNat_le] at hup
    rw [UInt64.le_iff_toNat_le, UInt64.le_iff_toNat_le]
    omega
  · rw [UInt64.le_iff_toNat_le] at hdown
    rw [UInt64.le_iff_toNat_le, UInt64.le_iff_toNat_le]
    omega

namespace Approaches

variable {weight : Nat} {x y z : UInt64}

theorem mem_uIcc (h : Approaches weight x y z) : z.toNat ∈ Set.uIcc x.toNat y.toNat := by
  rw [Set.mem_uIcc]
  rcases UInt64.le_total x y with hxy | hyx
  · obtain ⟨hlow, hhigh⟩ := h.up hxy
    exact .inl ⟨UInt64.le_iff_toNat_le.mp hlow, UInt64.le_iff_toNat_le.mp hhigh⟩
  · obtain ⟨hlow, hhigh⟩ := h.down hyx
    exact .inr ⟨UInt64.le_iff_toNat_le.mp hlow, UInt64.le_iff_toNat_le.mp hhigh⟩

end Approaches

end Tracking
