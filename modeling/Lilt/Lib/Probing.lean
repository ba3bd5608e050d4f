import Lilt.Lib.Ring

/-!
# Tables with linear probing

A new entry goes to the first free cell from the one its key hashes to, and no entry
is ever removed. A search that walks from the same cell and stops at a free one then
misses no entry, and no key has two.

- `Probing.Passed`: the cells a search for a key has walked over.
- `Probing.Placed`: every entry is where a search for its key finds it.
- `Placed.unique`: a key has one entry at most.
- `Placed.absent_of_free`, `Passed.everywhere`: a search that meets a free cell is right,
  and so is one that has walked over all cells.
- `Placed.insert`: the new entry is placed, and so are the others still.
-/

namespace Probing

universe u v

variable {σ : Type u} {κ : Type v} {Used : σ → Prop} {key : σ → κ} {size : Nat}
  {hash : κ → Nat} {cells cells' : Nat → σ} {k : κ}

/-- The first `n` cells from the one that `k` hashes to have entries of other keys. -/
def Passed (Used : σ → Prop) (key : σ → κ) (size : Nat) (hash : κ → Nat) (cells : Nat → σ)
    (k : κ) (n : Nat) : Prop :=
  ∀ o < n, Used (cells (Ring.cell size (hash k) o)) ∧ key (cells (Ring.cell size (hash k) o)) ≠ k

theorem passed_zero : Passed Used key size hash cells k 0 :=
  fun _ ho => absurd ho (Nat.not_lt_zero _)

theorem Passed.succ {n : Nat} (h : Passed Used key size hash cells k n)
    (hused : Used (cells (Ring.cell size (hash k) n)))
    (hkey : key (cells (Ring.cell size (hash k) n)) ≠ k) :
    Passed Used key size hash cells k (n + 1) := by
  intro o ho
  rcases Nat.lt_succ_iff_lt_or_eq.mp ho with hlt | rfl
  · exact h o hlt
  · exact ⟨hused, hkey⟩

/-- A walk over as many cells as there are has been to each of them. -/
theorem Passed.everywhere (h : Passed Used key size hash cells k size) {i : Nat} (hi : i < size) :
    Used (cells i) ∧ key (cells i) ≠ k := by
  have hlt : hash k % size < size := Nat.mod_lt _ (Nat.zero_lt_of_lt hi)
  have hcell : Ring.cell size (hash k) ((i + (size - hash k % size)) % size) = i := by
    unfold Ring.cell
    have hsum : hash k + (i + (size - hash k % size)) = i + size * (hash k / size + 1) := by
      have hdiv := Nat.div_add_mod (hash k) size
      rw [Nat.mul_add, Nat.mul_one]
      omega
    rw [Nat.add_mod_mod, hsum, Nat.add_mul_mod_self_left, Nat.mod_eq_of_lt hi]
  have hpassed := h _ (Nat.mod_lt (i + (size - hash k % size)) (Nat.zero_lt_of_lt hi))
  rwa [hcell] at hpassed

/-- Every entry is where a search for its key finds it. -/
def Placed (Used : σ → Prop) (key : σ → κ) (size : Nat) (hash : κ → Nat) (cells : Nat → σ) :
    Prop :=
  ∀ i, Used (cells i) → ∃ n < size, i = Ring.cell size (hash (key (cells i))) n ∧
    Passed Used key size hash cells (key (cells i)) n

namespace Placed

theorem empty (h : ∀ i, ¬ Used (cells i)) : Placed Used key size hash cells :=
  fun i hi => absurd hi (h i)

theorem lt (h : Placed Used key size hash cells) {i : Nat} (hi : Used (cells i)) : i < size := by
  obtain ⟨n, hn, hin, -⟩ := h i hi
  rw [hin]
  exact Nat.mod_lt _ (Nat.zero_lt_of_lt hn)

theorem unique (h : Placed Used key size hash cells) {i j : Nat} (hi : Used (cells i))
    (hj : Used (cells j)) (hkey : key (cells i) = key (cells j)) : i = j := by
  obtain ⟨n, -, hin, hpi⟩ := h i hi
  obtain ⟨m, -, hjm, hpj⟩ := h j hj
  rw [hkey] at hin hpi
  -- the walk to the later of the two would have stopped at the earlier one
  rcases Nat.lt_trichotomy n m with hlt | rfl | hlt
  · have hne := (hpj n hlt).2
    rw [← hin] at hne
    exact absurd hkey hne
  · exact hin.trans hjm.symm
  · have hne := (hpi m hlt).2
    rw [← hjm] at hne
    exact absurd rfl hne

/-- A search that meets a free cell behind `n` entries of other keys. -/
theorem absent_of_free (h : Placed Used key size hash cells) {n : Nat}
    (hp : Passed Used key size hash cells k n)
    (hfree : ¬ Used (cells (Ring.cell size (hash k) n))) :
    ∀ i, Used (cells i) → key (cells i) ≠ k := by
  rintro i hi rfl
  obtain ⟨m, -, him, hpi⟩ := h i hi
  rcases Nat.lt_trichotomy n m with hlt | rfl | hlt
  · exact hfree (hpi n hlt).1
  · rw [← him] at hfree
    exact hfree hi
  · have hne := (hp m hlt).2
    rw [← him] at hne
    exact hne rfl

/-- An entry of `k` takes the free cell that the search for `k` met. -/
theorem insert (h : Placed Used key size hash cells) {n : Nat} (hn : n < size)
    (hp : Passed Used key size hash cells k n)
    (hfree : ¬ Used (cells (Ring.cell size (hash k) n))) {s : σ} (hs : key s = k) :
    Placed Used key size hash (Function.update cells (Ring.cell size (hash k) n) s) := by
  -- the entries that a search has walked over are not in the cell that was free
  have hkeep : ∀ {k' : κ} {m : Nat}, Passed Used key size hash cells k' m →
      Passed Used key size hash (Function.update cells (Ring.cell size (hash k) n) s) k' m := by
    intro k' m hp' o ho
    have hne : Ring.cell size (hash k') o ≠ Ring.cell size (hash k) n := by
      intro heq
      have hused := (hp' o ho).1
      rw [heq] at hused
      exact hfree hused
    rw [Function.update_of_ne hne]
    exact hp' o ho
  intro i hi
  by_cases hin : i = Ring.cell size (hash k) n
  · subst hin
    rw [Function.update_self, hs]
    exact ⟨n, hn, rfl, hkeep hp⟩
  · rw [Function.update_of_ne hin] at hi ⊢
    obtain ⟨m, hm, him, hpi⟩ := h i hi
    exact ⟨m, hm, him, hkeep hpi⟩

/-- Nothing but the places and the keys of the entries matters. -/
theorem of_same (h : Placed Used key size hash cells)
    (hused : ∀ i, Used (cells' i) ↔ Used (cells i)) (hkey : ∀ i, key (cells' i) = key (cells i)) :
    Placed Used key size hash cells' := by
  intro i hi
  obtain ⟨n, hn, hin, hpi⟩ := h i ((hused i).mp hi)
  rw [hkey i]
  refine ⟨n, hn, hin, fun o ho => ?_⟩
  rw [hused, hkey]
  exact hpi o ho

end Placed

end Probing
