import Mathlib.Data.List.Infix

/-!
# The leftmost longest match

Where a pattern matches a text in several places, the match taken is the one that
begins first, and of those the longest. Here a pattern is just what it accepts.

- `longest`, `search`: the longest accepted prefix, and the match.
- `longest_eq_some_iff`, `search_eq_some`: what they are.
- `search_skip`: text in which no match begins may be left out in front.
-/

namespace Leftmost

universe u

variable {α : Type u} {accepts : List α → Bool}

/-- The longest prefix that is accepted. -/
def longest (accepts : List α → Bool) : List α → Option (List α)
  | [] => if accepts [] then some [] else none
  | a :: s =>
    match longest (fun m => accepts (a :: m)) s with
    | some m => some (a :: m)
    | none => if accepts [] then some [] else none

theorem longest_eq_none_iff {s : List α} :
    longest accepts s = none ↔ ∀ m, m <+: s → accepts m = false := by
  induction s generalizing accepts with
  | nil =>
    unfold longest
    constructor
    · intro h m hm
      obtain rfl := List.prefix_nil.mp hm
      simpa using h
    · intro h
      simpa using h [] (List.prefix_refl _)
  | cons a s ih =>
    unfold longest
    constructor
    · intro h m hm
      split at h
      next => cases h
      next hnone =>
        rcases m with _ | ⟨b, m⟩
        · simpa using h
        · obtain ⟨rfl, htail⟩ := List.cons_prefix_cons.mp hm
          exact ih.mp hnone m htail
    · intro h
      rw [ih.mpr fun m hm => h (a :: m) (List.cons_prefix_cons.mpr ⟨rfl, hm⟩)]
      simpa using h [] (List.nil_prefix)

theorem longest_spec {s m : List α} (h : longest accepts s = some m) :
    m <+: s ∧ accepts m = true ∧ ∀ m', m' <+: s → accepts m' = true → m'.length ≤ m.length := by
  induction s generalizing accepts m with
  | nil =>
    unfold longest at h
    split at h
    next hempty =>
      obtain rfl := Option.some.inj h
      exact ⟨List.prefix_refl _, hempty, fun m' hm' _ => hm'.length_le⟩
    next => cases h
  | cons a s ih =>
    unfold longest at h
    split at h
    next m₁ hsome =>
      obtain rfl := Option.some.inj h
      obtain ⟨hpre, haccepts, hlongest⟩ := ih hsome
      refine ⟨List.cons_prefix_cons.mpr ⟨rfl, hpre⟩, haccepts, fun m' hm' hacc => ?_⟩
      rcases m' with _ | ⟨b, m'⟩
      · exact Nat.zero_le _
      · obtain ⟨rfl, htail⟩ := List.cons_prefix_cons.mp hm'
        exact Nat.succ_le_succ (hlongest m' htail hacc)
    next hnone =>
      split at h
      next hempty =>
        obtain rfl := Option.some.inj h
        refine ⟨List.nil_prefix, hempty, fun m' hm' hacc => ?_⟩
        rcases m' with _ | ⟨b, m'⟩
        · exact Nat.le_refl _
        · -- nothing that begins with the first letter is accepted
          obtain ⟨rfl, htail⟩ := List.cons_prefix_cons.mp hm'
          rw [longest_eq_none_iff.mp hnone m' htail] at hacc
          cases hacc
      next => cases h

theorem longest_eq_some_iff {s m : List α} :
    longest accepts s = some m ↔
      m <+: s ∧ accepts m = true ∧ ∀ m', m' <+: s → accepts m' = true → m'.length ≤ m.length := by
  refine ⟨longest_spec, fun ⟨hpre, haccepts, hlongest⟩ => ?_⟩
  cases hfound : longest accepts s with
  | none =>
    rw [longest_eq_none_iff.mp hfound m hpre] at haccepts
    cases haccepts
  | some m' =>
    -- two prefixes of one length are equal
    obtain ⟨hpre', haccepts', hlongest'⟩ := longest_spec hfound
    have hlength := Nat.le_antisymm (hlongest m' hpre' haccepts') (hlongest' m hpre haccepts)
    rw [(List.prefix_of_prefix_length_le hpre' hpre hlength.le).eq_of_length hlength]

/-- The leftmost longest match. -/
def search (accepts : List α → Bool) : List α → Option (List α)
  | [] => longest accepts []
  | a :: s =>
    match longest accepts (a :: s) with
    | some m => some m
    | none => search accepts s

theorem search_of_longest {s m : List α} (h : longest accepts s = some m) :
    search accepts s = some m := by
  cases s with
  | nil => exact h
  | cons a s =>
    unfold search
    rw [h]

theorem search_cons_of_none {a : α} {s : List α} (h : longest accepts (a :: s) = none) :
    search accepts (a :: s) = search accepts s := by
  rw [search, h]

/-- Text in which no match begins may be left out in front. -/
theorem search_skip {before rest : List α}
    (h : ∀ tail, tail <:+ before → tail ≠ [] → ∀ m, m <+: tail ++ rest → accepts m = false) :
    search accepts (before ++ rest) = search accepts rest := by
  induction before with
  | nil => rfl
  | cons a before ih =>
    have hnone : longest accepts (a :: (before ++ rest)) = none :=
      longest_eq_none_iff.mpr (h _ (List.suffix_refl _) (List.cons_ne_nil _ _))
    rw [List.cons_append, search_cons_of_none hnone]
    exact ih fun tail htail => h tail (htail.trans (List.suffix_cons a before))

end Leftmost
