/-!
# Programs of atomic accesses

A program is the list of accesses to a shared memory that a call has still to
make. One access runs at a time; what it reads may put further accesses in front
of the remaining ones. Several such programs over one memory interleave access
by access.

- `Solo`: a program that no other program interrupts, from its first access to
  its last.
- `Solo.append`, `solo_straight`: solo runs compose, and a program without
  branches is the fold of its accesses.
-/

namespace Atomic

universe u v

variable {μ : Type u} {ω : Type v}

/-- What an access does to the memory and which accesses it calls for next. -/
abbrev Exec (μ : Type u) (ω : Type v) := ω → μ → μ × List ω

/-- `Solo exec p m m'`: run without interruption from `m`, the program `p` ends
in `m'`. -/
inductive Solo (exec : Exec μ ω) : List ω → μ → μ → Prop where
  | nil (m : μ) : Solo exec [] m m
  | cons {o : ω} {rest : List ω} {m m' : μ} :
      Solo exec ((exec o m).2 ++ rest) (exec o m).1 m' → Solo exec (o :: rest) m m'

variable {exec : Exec μ ω}

/-- What is left behind the first access. -/
theorem Solo.rest {o : ω} {p : List ω} {m m' : μ} (h : Solo exec (o :: p) m m') :
    Solo exec ((exec o m).2 ++ p) (exec o m).1 m' := by
  cases h with
  | cons h => exact h

theorem Solo.append {p q : List ω} {m m₁ m₂ : μ} (h₁ : Solo exec p m m₁)
    (h₂ : Solo exec q m₁ m₂) : Solo exec (p ++ q) m m₂ := by
  induction h₁ with
  | nil m => exact h₂
  | @cons o rest m m' _ ih =>
    refine .cons ?_
    show Solo exec ((exec o m).2 ++ (rest ++ q)) _ _
    rw [← List.append_assoc]
    exact ih h₂

/-- A program none of whose accesses calls for another one. -/
theorem solo_straight {p : List ω} (h : ∀ o ∈ p, ∀ m, (exec o m).2 = []) (m : μ) :
    Solo exec p m (p.foldl (fun m o => (exec o m).1) m) := by
  induction p generalizing m with
  | nil => exact .nil m
  | cons o rest ih =>
    refine .cons ?_
    rw [h o List.mem_cons_self]
    exact ih (fun o' ho' => h o' (List.mem_cons_of_mem _ ho')) _

end Atomic
