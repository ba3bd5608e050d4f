import Mathlib.Logic.Basic

/-!
# Chains of checks

A function that checks one thing after the other and stops at the first that fails
is a chain of binds in `Except`. A chain that succeeds is taken apart link by link.

- `require`, `demand`: a condition that has to hold, an answer that has to come.
- `bind_ok`, `require_bind`, `demand_bind`: what a link of a successful chain says.
-/

namespace Checks

universe u v w

variable {ε : Type u} {α : Type v} {β : Type w}

/-- Stop with the error unless the condition holds. -/
def require (holds : Bool) (error : ε) : Except ε Unit :=
  if holds then .ok () else .error error

/-- The answer, or the error where there is none. -/
def demand (answer : Option α) (error : ε) : Except ε α :=
  match answer with
  | some a => .ok a
  | none => .error error

@[simp] theorem require_true (error : ε) : require true error = .ok () := rfl

@[simp] theorem demand_some (a : α) (error : ε) : demand (some a) error = .ok a := rfl

@[simp] theorem ok_bind (a : α) (f : α → Except ε β) : (Except.ok a).bind f = f a := rfl

theorem bind_ok {x : Except ε α} {f : α → Except ε β} {r : β} (h : x.bind f = .ok r) :
    ∃ a, x = .ok a ∧ f a = .ok r := by
  cases x with
  | ok a => exact ⟨a, rfl, h⟩
  | error e => cases h

theorem require_bind {holds : Bool} {error : ε} {f : Unit → Except ε β} {r : β}
    (h : (require holds error).bind f = .ok r) : holds = true ∧ f () = .ok r := by
  cases holds with
  | true => exact ⟨rfl, h⟩
  | false => cases h

theorem demand_bind {answer : Option α} {error : ε} {f : α → Except ε β} {r : β}
    (h : (demand answer error).bind f = .ok r) : ∃ a, answer = some a ∧ f a = .ok r := by
  cases answer with
  | some a => exact ⟨a, rfl, h⟩
  | none => cases h

end Checks
