import Lilt.Lib.Stages

/-!
# Greedy tilings

A tiling whose ranges cannot be made longer has as few ranges as any other one, where
the parts of a range that is allowed are allowed.

- `Tiles.HoldsOfParts`: a property of ranges that passes to their parts.
- `Tiles.Longest`: no range of a tiling can be made longer.
- `Tiles.length_le_of_longest`: such a tiling is a shortest one.
-/

namespace Tiles

variable {Allowed : Nat → Nat → Prop} {a b : Nat} {ranges : List (Nat × Nat)}

theorem le (h : Tiles a ranges b) : a ≤ b := by
  induction h with
  | nil => exact Nat.le_refl _
  | cons hle _ ih => omega

/-- With a range its parts are allowed. -/
def HoldsOfParts (Allowed : Nat → Nat → Prop) : Prop :=
  ∀ a b a' b', Allowed a b → a ≤ a' → a' ≤ b' → b' ≤ b → Allowed a' b'

/-- No range that ends before the last number below `b` is allowed to end later. -/
def Longest (Allowed : Nat → Nat → Prop) (ranges : List (Nat × Nat)) (b : Nat) : Prop :=
  ∀ r ∈ ranges, r.2 + 1 < b → ¬ Allowed r.1 (r.2 + 1)

/-- A tiling with the longest ranges stays ahead of every other one that is allowed,
so it needs no more ranges, even if it begins later. -/
theorem length_le_of_longest (hparts : HoldsOfParts Allowed) (h : Tiles a ranges b)
    (hlongest : Longest Allowed ranges b) {a' : Nat} {others : List (Nat × Nat)}
    (hothers : Tiles a' others b) (hallowed : ∀ r ∈ others, Allowed r.1 r.2)
    (hahead : a' ≤ a) : ranges.length ≤ others.length := by
  induction h generalizing a' others with
  | nil => exact Nat.zero_le _
  | @cons first last b rest hle htiles ih =>
    have hlast := htiles.le
    cases hothers with
    | nil => omega
    | @cons _ last' _ rest' hle' htiles' =>
      have hlast' := htiles'.le
      have hrest : last' + 1 ≤ last + 1 := by
        by_contra hbehind
        -- the other range contains this one made longer by one number
        have hwhole : Allowed a' last' := hallowed _ List.mem_cons_self
        have hlonger : Allowed first (last + 1) :=
          hparts _ _ _ _ hwhole hahead (by omega) (by omega)
        exact hlongest _ List.mem_cons_self (by show last + 1 < b; omega) hlonger
      have hlength := ih (fun r hr => hlongest r (List.mem_cons_of_mem _ hr)) htiles'
        (fun r hr => hallowed r (List.mem_cons_of_mem _ hr)) hrest
      rw [List.length_cons, List.length_cons]
      exact Nat.succ_le_succ hlength

end Tiles
