import Mathlib.Logic.Relation
import Mathlib.Data.List.Nodup
import Mathlib.Data.List.Perm.Basic

/-!
# Running a relation in stages

Elements are divided into numbered stages such that the relation never leads to an
earlier stage. Then a path between two elements of one stage stays in it, and
running the stages one after the other, each in an order its own part of the
relation allows, is an order the whole relation allows.

- `Tiles`: ranges of numbers that follow one another without a gap.
- `tileOf`, `Tiles.mem_iff`: the range a number lies in.
- `Stages.Forward`, `Stages.Within`: the relation and its part in one stage.
- `Stages.Forward.transGen_within`: no path between two elements of a stage leaves it.
- `Stages.Allowed`: an order in which nothing comes behind what it leads to.
- `Stages.allowed_flatten`, `Stages.perm_flatten`: the orders of the stages, put
  together.
-/

/-! ## Tilings -/

/-- The ranges `[first, last]` follow one another from `a` up to `b`, exclusively. -/
inductive Tiles : Nat → List (Nat × Nat) → Nat → Prop where
  | nil (a : Nat) : Tiles a [] a
  | cons {first last b : Nat} {rest : List (Nat × Nat)} :
      first ≤ last → Tiles (last + 1) rest b → Tiles first ((first, last) :: rest) b

/-- How many ranges end before `x`. -/
def tileOf (ranges : List (Nat × Nat)) (x : Nat) : Nat := ranges.countP fun r => r.2 < x

theorem tileOf_mono (ranges : List (Nat × Nat)) {x y : Nat} (h : x ≤ y) :
    tileOf ranges x ≤ tileOf ranges y := by
  refine List.countP_mono_left fun r _ hr => ?_
  have hlt : r.2 < x := of_decide_eq_true hr
  exact decide_eq_true (Nat.lt_of_lt_of_le hlt h)

theorem tileOf_cons_of_lt {first last x : Nat} (rest : List (Nat × Nat)) (h : last < x) :
    tileOf ((first, last) :: rest) x = tileOf rest x + 1 :=
  List.countP_cons_of_pos (decide_eq_true h)

theorem tileOf_cons_of_le {first last x : Nat} (rest : List (Nat × Nat)) (h : x ≤ last) :
    tileOf ((first, last) :: rest) x = tileOf rest x := by
  refine List.countP_cons_of_neg ?_
  rw [decide_eq_true_eq]
  exact Nat.not_lt.mpr h

namespace Tiles

variable {a b : Nat} {ranges : List (Nat × Nat)}

theorem start_le (h : Tiles a ranges b) {k first last : Nat}
    (hk : ranges[k]? = some (first, last)) : a ≤ first := by
  induction h generalizing k with
  | nil => cases hk
  | cons hle htiles ih =>
    cases k with
    | zero =>
      obtain ⟨rfl, -⟩ := Prod.mk.inj (Option.some.inj hk)
      exact Nat.le_refl _
    | succ k =>
      have := ih hk
      omega

/-- No range of a tiling ends before its beginning. -/
theorem tileOf_start (h : Tiles a ranges b) {x : Nat} (hx : x ≤ a) : tileOf ranges x = 0 := by
  induction h with
  | nil => rfl
  | cons hle _ ih =>
    rw [tileOf_cons_of_le _ (Nat.le_trans hx hle)]
    exact ih (by omega)

/-- Each number of the tiled part lies in the range `tileOf` says, and in no
other. -/
theorem mem_iff (h : Tiles a ranges b) {x : Nat} (ha : a ≤ x) {k first last : Nat}
    (hk : ranges[k]? = some (first, last)) :
    first ≤ x ∧ x ≤ last ↔ tileOf ranges x = k := by
  induction h generalizing k with
  | nil => cases hk
  | @cons first' last' b rest hle htiles ih =>
    by_cases hx : x ≤ last'
    · -- `x` is in the first range, the others begin behind it
      rw [tileOf_cons_of_le _ hx, htiles.tileOf_start (Nat.le_succ_of_le hx)]
      cases k with
      | zero =>
        obtain ⟨rfl, rfl⟩ := Prod.mk.inj (Option.some.inj hk)
        exact iff_of_true ⟨ha, hx⟩ rfl
      | succ k =>
        have := htiles.start_le hk
        omega
    · have hx := Nat.lt_of_not_le hx
      rw [tileOf_cons_of_lt _ hx]
      cases k with
      | zero =>
        obtain ⟨rfl, rfl⟩ := Prod.mk.inj (Option.some.inj hk)
        omega
      | succ k =>
        rw [ih hx hk]
        omega

theorem tileOf_lt (h : Tiles a ranges b) {x : Nat} (hx : x < b) (ha : a ≤ x) :
    tileOf ranges x < ranges.length := by
  induction h with
  | nil => omega
  | @cons first last b rest hle htiles ih =>
    by_cases hlast : x ≤ last
    · rw [tileOf_cons_of_le _ hlast, htiles.tileOf_start (Nat.le_succ_of_le hlast)]
      exact Nat.succ_pos _
    · have hlast := Nat.lt_of_not_le hlast
      rw [tileOf_cons_of_lt _ hlast]
      exact Nat.succ_lt_succ (ih hx hlast)

end Tiles

/-! ## Stages of a relation -/

namespace Stages

open Relation

universe u

variable {α : Type u} {R : α → α → Prop} {stage : α → Nat}

/-- The relation never leads to an earlier stage. -/
def Forward (R : α → α → Prop) (stage : α → Nat) : Prop := ∀ a b, R a b → stage a ≤ stage b

/-- The part of the relation within the stage `k`. -/
def Within (R : α → α → Prop) (stage : α → Nat) (k : Nat) (a b : α) : Prop :=
  R a b ∧ stage a = k ∧ stage b = k

theorem Forward.transGen (h : Forward R stage) {a b : α} (hab : TransGen R a b) :
    stage a ≤ stage b := by
  induction hab with
  | single hab => exact h _ _ hab
  | tail _ hbc ih => exact Nat.le_trans ih (h _ _ hbc)

theorem transGen_of_within {k : Nat} {a b : α} (h : TransGen (Within R stage k) a b) :
    TransGen R a b := h.lift id fun _ _ hab => hab.1

/-- A path between two elements of a stage does not leave it: what it passes is
neither in an earlier stage than its start nor in a later one than its end. -/
theorem Forward.transGen_within (h : Forward R stage) {k : Nat} {a b : α}
    (hab : TransGen R a b) (ha : stage a = k) (hb : stage b = k) :
    TransGen (Within R stage k) a b := by
  induction hab with
  | single hab => exact .single ⟨hab, ha, hb⟩
  | @tail b c hab hbc ih =>
    -- `b` lies between `a` and `c`, both of the stage `k`
    have hle := h.transGen hab
    have hle' := h _ _ hbc
    have hmid : stage b = k := by omega
    exact (ih hmid).tail ⟨hbc, hmid, hb⟩

/-! ## Orders -/

/-- Nothing comes behind an element it leads to. -/
def Allowed (R : α → α → Prop) (order : List α) : Prop :=
  order.Pairwise fun a b => ¬ TransGen R b a

/-- Orders of the stages from `k` on, put together, are allowed. -/
theorem Forward.allowed_flatten (h : Forward R stage) {k : Nat} {orders : List (List α)}
    (hstage : ∀ j order, orders[j]? = some order → ∀ a ∈ order, stage a = k + j)
    (hallowed : ∀ j order, orders[j]? = some order → Allowed (Within R stage (k + j)) order) :
    Allowed R orders.flatten := by
  induction orders generalizing k with
  | nil => exact .nil
  | cons order rest ih =>
    have hrest : ∀ j order, rest[j]? = some order → ∀ a ∈ order, stage a = k + 1 + j := by
      intro j order hj a ha
      rw [Nat.add_assoc, Nat.add_comm 1 j]
      exact hstage (j + 1) order hj a ha
    refine List.pairwise_append.mpr ⟨?_, ih hrest fun j order hj => ?_, fun a ha b hb hba => ?_⟩
    · -- within the first stage
      refine (hallowed 0 order rfl).imp_of_mem fun {a b} ha hb hnot hba => hnot ?_
      exact h.transGen_within hba (hstage 0 order rfl b hb) (hstage 0 order rfl a ha)
    · rw [Nat.add_assoc, Nat.add_comm 1 j]
      exact hallowed (j + 1) order hj
    · -- between the first stage and a later one
      obtain ⟨order', horder', hb⟩ := List.mem_flatten.mp hb
      obtain ⟨j, hj⟩ := List.mem_iff_getElem?.mp horder'
      have hlate := hrest j order' hj b hb
      have hearly := hstage 0 order rfl a ha
      have hle := h.transGen hba
      omega

/-- Orders of the stages from `k` on, put together, hold each element once. -/
theorem perm_flatten {elements : List α} {k : Nat} {orders : List (List α)}
    (horders : ∀ j (order : List α), orders[j]? = some order →
      order.Perm (elements.filter fun a => stage a = k + j))
    (hlast : ∀ a ∈ elements, stage a < k + orders.length) :
    orders.flatten.Perm (elements.filter fun a => k ≤ stage a) := by
  induction orders generalizing k with
  | nil =>
    rw [List.filter_eq_nil_iff.mpr]
    · exact .nil
    · intro a ha
      have := hlast a ha
      rw [List.length_nil] at this
      rw [decide_eq_true_eq]
      omega
  | cons order rest ih =>
    have hfirst := horders 0 order rfl
    have hrest : rest.flatten.Perm (elements.filter fun a => k + 1 ≤ stage a) := by
      refine ih (fun j order hj => ?_) fun a ha => ?_
      · rw [Nat.add_assoc, Nat.add_comm 1 j]
        exact horders (j + 1) order hj
      · have := hlast a ha
        rw [List.length_cons] at this
        omega
    -- the elements from `k` on are those of the stage `k` and those from `k + 1` on
    have hsplit := List.filter_append_perm (fun a => decide (stage a = k))
      (elements.filter fun a => decide (k ≤ stage a))
    rw [List.filter_filter, List.filter_filter] at hsplit
    rw [List.flatten_cons]
    refine ((hfirst.append hrest).trans ?_).trans hsplit
    refine .of_eq (congrArg₂ _ ?_ ?_)
    · refine List.filter_congr fun a _ => ?_
      rw [← Bool.decide_and]
      exact decide_eq_decide.mpr (by omega)
    · refine List.filter_congr fun a _ => ?_
      rw [← decide_not, ← Bool.decide_and]
      exact decide_eq_decide.mpr (by omega)

end Stages
