import Mathlib.Data.Set.Finite.Basic
import Mathlib.Logic.Relation
import Mathlib.Order.Bounds.Basic
import Mathlib.Order.WellFoundedSet

/-!
# Walks along a relation and the longest of them

A rank that ascends along every step bounds the length of the walks that end at an
element, and leaves no cycle. If in addition every element of positive rank has a
predecessor one below, the rank is the length of a longest walk.

- `Walk`: so many steps from one element to another.
- `isGreatest_rank`: an ascending rank without gaps measures the longest walk.
- `not_cycle_of_ascends`, `wellFounded_of_acyclic`: ranks exclude cycles, and
  without a cycle a relation with finitely many sources is well-founded.
-/

namespace Walks

open Relation

universe u

variable {α : Type u}

/-- `Walk R k a b`: `k` steps of `R` lead from `a` to `b`. -/
inductive Walk (R : α → α → Prop) : Nat → α → α → Prop where
  | nil (a : α) : Walk R 0 a a
  | snoc {k : Nat} {a b c : α} : Walk R k a b → R b c → Walk R (k + 1) a c

/-- The rank grows along every step. -/
def Ascends (R : α → α → Prop) (rank : α → Nat) : Prop := ∀ a b, R a b → rank a < rank b

/-- Every element of positive rank has a predecessor whose rank is one less. -/
def Tight (R : α → α → Prop) (rank : α → Nat) (s : Set α) : Prop :=
  ∀ b ∈ s, rank b ≠ 0 → ∃ a ∈ s, R a b ∧ rank a + 1 = rank b

variable {R : α → α → Prop} {rank : α → Nat}

/-- Each step of a walk gains at least one rank. -/
theorem Walk.le_rank (h : Ascends R rank) {k : Nat} {a b : α} (hw : Walk R k a b) :
    rank a + k ≤ rank b := by
  induction hw with
  | nil => exact Nat.le_refl _
  | snoc hw hstep ih =>
    have hlt := h _ _ hstep
    omega

/-- Going back along the predecessors gives a walk as long as the rank. -/
theorem Tight.exists_walk {s : Set α} (h : Tight R rank s) {b : α} (hb : b ∈ s) :
    ∃ a, Walk R (rank b) a b := by
  generalize hk : rank b = k
  induction k generalizing b with
  | zero => exact ⟨b, .nil b⟩
  | succ k ih =>
    obtain ⟨c, hc, hstep, hrank⟩ := h b hb (by omega)
    obtain ⟨a, hw⟩ := ih hc (by omega)
    exact ⟨a, hw.snoc hstep⟩

theorem isGreatest_rank {s : Set α} (hascends : Ascends R rank) (htight : Tight R rank s) {b : α}
    (hb : b ∈ s) : IsGreatest { k | ∃ a, Walk R k a b } (rank b) := by
  constructor
  · exact htight.exists_walk hb
  · rintro k ⟨a, hw⟩
    have hle := hw.le_rank hascends
    omega

theorem not_cycle_of_ascends (h : Ascends R rank) (a : α) : ¬ TransGen R a a := by
  have hlt : ∀ b, TransGen R a b → rank a < rank b := by
    intro b hab
    induction hab with
    | single hab => exact h _ _ hab
    | tail _ hbc ih => exact Nat.lt_trans ih (h _ _ hbc)
  exact fun ha => Nat.lt_irrefl _ (hlt a ha)

/-- A relation with finitely many sources and no cycle is well-founded. -/
theorem wellFounded_of_acyclic {s : Set α} (hs : s.Finite) (hsource : ∀ a b, R a b → a ∈ s)
    (hacyclic : ∀ a, ¬ TransGen R a a) : WellFounded R := by
  have : IsStrictOrder α (TransGen R) :=
    { irrefl := hacyclic, trans := fun _ _ _ => TransGen.trans }
  have hwf : s.WellFoundedOn (TransGen R) := hs.wellFoundedOn
  have hacc : ∀ a ∈ s, Acc R a := fun a ha =>
    hwf.induction ha fun b _ ih => .intro b fun c hcb => ih c (hsource c b hcb) (.single hcb)
  exact ⟨fun b => .intro b fun a hab => hacc a (hsource a b hab)⟩

end Walks
