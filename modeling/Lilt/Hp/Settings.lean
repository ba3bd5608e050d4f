import Lilt.Config.Settings
import Lilt.Hp.Tracker

/-!
# The settings of the HP proxy (`hp_intercept.c`)

What `event_hp_process_start` reads from the environment. An interval is a number
of nanoseconds up to one second; anything else is the default.

- `eventIntervalNs`: an interval setting.
- `eventIntervalNs_decimal`: what is read back of a number in decimal.
- `eventHpProcessStart`: the settings of an environment.
-/

namespace Lilt.Hp

open Lilt.Config

/-- `EVENT_INTERVAL_NS_MAX` -/
def eventIntervalNsMax : Int := 1000 * 1000 * 1000

/-- The body that `event_query_interval_ns` and `event_blocking_quiet_ns` share. -/
def eventIntervalNs (getenv : Env) (name : CString) (fallback : Int) : Int :=
  match liltGetenv getenv name with
  | none => fallback
  | some [] => fallback
  | some configured =>
    let parsed := strtoll configured
    if parsed.rangeError ∨ ¬ parsed.converted ∨ parsed.rest ≠ [] ∨ parsed.value < 0 ∨
        eventIntervalNsMax < parsed.value then
      fallback
    else parsed.value

/-- `event_query_interval_ns` -/
def eventQueryIntervalNs (getenv : Env) : Int :=
  eventIntervalNs getenv "LILT_EVENT_QUERY_INTERVAL_NS".toList (20 * 1000)

/-- `event_blocking_quiet_ns` -/
def eventBlockingQuietNs (getenv : Env) : Int :=
  eventIntervalNs getenv "LILT_EVENT_BLOCKING_QUIET_NS".toList (20 * 1000)

/-- `event_completion_mode` -/
def eventCompletionMode (getenv : Env) : CompletionMode :=
  match liltGetenv getenv "LILT_EVENT_COMPLETION_MODE".toList with
  | none => .deferred
  | some configured =>
    if configured = "blocking".toList then .blocking
    else if configured = "query".toList then .query
    else .deferred

/-- The settings that `event_hp_process_start` reads for the watcher. -/
def eventHpProcessStart (getenv : Env) : HpConfig where
  completionMode := eventCompletionMode getenv
  blockingQuietNs := (eventBlockingQuietNs getenv).toNat

/-- With a fallback in the range, an interval is in the range. -/
theorem eventIntervalNs_mem (getenv : Env) (name : CString) {fallback : Int}
    (hmin : 0 ≤ fallback) (hmax : fallback ≤ eventIntervalNsMax) :
    0 ≤ eventIntervalNs getenv name fallback ∧
      eventIntervalNs getenv name fallback ≤ eventIntervalNsMax := by
  unfold eventIntervalNs
  split
  · exact ⟨hmin, hmax⟩
  · exact ⟨hmin, hmax⟩
  · dsimp only
    split
    next => exact ⟨hmin, hmax⟩
    next h =>
      simp only [not_or, Int.not_lt] at h
      exact ⟨h.2.2.2.1, h.2.2.2.2⟩

/-- A number written out in decimal is read back if it is at most one second, and
is the fallback if not. -/
theorem eventIntervalNs_decimal {getenv : Env} {name : CString} {fallback : Int} {n : Nat}
    (h : liltGetenv getenv name = some (Nat.toDigits 10 n)) :
    eventIntervalNs getenv name fallback =
      if (n : Int) ≤ eventIntervalNsMax then (n : Int) else fallback := by
  obtain ⟨c, cs, hcs⟩ := List.exists_cons_of_ne_nil (Nat.toDigits_ne_nil (n := n) (b := 10))
  have hsecond : eventIntervalNsMax = 1000000000 := rfl
  have hlong : (llongMax : Int) = 9223372036854775807 := rfl
  unfold eventIntervalNs
  rw [h, hcs]
  dsimp only
  rw [← hcs, strtoll_decimal]
  by_cases hrange : (n : Int) ≤ eventIntervalNsMax
  · have hfits : ¬ llongMax < n := by omega
    simp only [hfits, if_false]
    rw [if_neg, if_pos hrange]
    simp only [decide_false, Bool.false_eq_true, not_true_eq_false, ne_eq, false_or, not_or]
    omega
  · rw [if_neg hrange, if_pos]
    simp only [decide_eq_true_eq]
    by_cases hbig : llongMax < n
    · exact .inl hbig
    · rw [if_neg hbig]
      omega

/-- With a fallback in the range, a number in decimal is read back just if it is in
the range. -/
theorem eventIntervalNs_eq_iff {getenv : Env} {name : CString} {fallback : Int} {n : Nat}
    (h : liltGetenv getenv name = some (Nat.toDigits 10 n))
    (hfallback : fallback ≤ eventIntervalNsMax) :
    eventIntervalNs getenv name fallback = n ↔ (n : Int) ≤ eventIntervalNsMax := by
  rw [eventIntervalNs_decimal h]
  constructor
  · intro heq
    split at heq
    next hrange => exact hrange
    next => omega
  · exact fun hmax => if_pos hmax

end Lilt.Hp
