import Mathlib.Algebra.Ring.Int.Defs
import Mathlib.Data.Int.Order.Basic

/-!
# The C type `int`

A `CInt` is a value of 32 bits with a sign. A sum or difference that is out of the range
has no defined value; division truncates towards zero.

- `CInt.ofInt`: the value of a result, if it is in the range.
- `CInt.add`, `CInt.sub`: checked arithmetic; `CInt.ofInt_eq_some`, `CInt.ofInt_eq_none`.
- `CInt.half`: division by two; `CInt.half_val` says which way it rounds.
-/

/-- A value of type `int`. -/
@[ext] structure CInt where
  val : Int
  lower : -2 ^ 31 ≤ val
  upper : val < 2 ^ 31
  deriving DecidableEq

namespace CInt

/-- A result in the range of the type. -/
def ofInt (n : Int) : Option CInt :=
  if h : -2 ^ 31 ≤ n ∧ n < 2 ^ 31 then some ⟨n, h.1, h.2⟩ else none

/-- `a + b` -/
def add (a b : CInt) : Option CInt := ofInt (a.val + b.val)

/-- `a - b` -/
def sub (a b : CInt) : Option CInt := ofInt (a.val - b.val)

/-- Division by two rounds a positive number down and a negative one up. -/
theorem half_val (n : Int) : n.tdiv 2 = if 0 ≤ n then n / 2 else -(-n / 2) := by
  split
  next h => exact Int.tdiv_eq_ediv_of_nonneg h
  next h =>
    have hneg : (-n).tdiv 2 = -n / 2 := Int.tdiv_eq_ediv_of_nonneg (by omega)
    rw [Int.neg_tdiv] at hneg
    omega

/-- `a / 2` -/
def half (a : CInt) : CInt where
  val := a.val.tdiv 2
  lower := by
    have := a.lower
    rw [half_val]
    split <;> omega
  upper := by
    have := a.upper
    rw [half_val]
    split <;> omega

/-- `1` -/
def one : CInt := ⟨1, by decide, by decide⟩

variable {a b c : CInt} {n : Int}

theorem ofInt_eq_some : ofInt n = some c ↔ c.val = n := by
  unfold ofInt
  constructor
  · intro h
    split at h
    · rw [← Option.some.inj h]
    · cases h
  · rintro rfl
    rw [dif_pos ⟨c.lower, c.upper⟩]

theorem ofInt_eq_none : ofInt n = none ↔ ¬ (-2 ^ 31 ≤ n ∧ n < 2 ^ 31) := by
  unfold ofInt
  split
  next h => exact iff_of_false (Option.some_ne_none _) (not_not_intro h)
  next h => exact iff_of_true rfl h

end CInt
