import Lilt.Config.Settings
import Lilt.Graph.Launch

/-!
# The settings of the graph scheduler (`graph_scheduler.c`)

`graph_initialize_config` reads the graph mode and the size of a graphlet. The
mode is a setting of the BE proxy; the HP proxy launches graphs whole. The audit
switch only prints.

- `graphParseU64`: a number in a range. Unlike the window's parser it does not
  look at `errno`: a number too large for the type is the largest one.
- `graphInitializeConfig`: the settings of an environment.
-/

namespace Lilt.Graph

open Lilt.Config

/-- `graph_parse_u64` -/
def graphParseU64 (getenv : Env) (name : CString) (fallback minimum maximum : UInt64) :
    UInt64 :=
  match liltGetenv getenv name with
  | none => fallback
  | some [] => fallback
  | some value =>
    let parsed := strtoull value
    if ¬ parsed.converted ∨ parsed.rest ≠ [] ∨ parsed.value < minimum ∨
        maximum < parsed.value then
      fallback
    else parsed.value

/-- `graph_mode_name` -/
def graphModeName : GraphMode → CString
  | .off => "off".toList
  | .graphlet => "graphlet".toList
  | .whole => "whole".toList

/-- The mode by its name; an unknown one is `whole`. -/
def graphModeOfName : Option CString → GraphMode
  | none => .whole
  | some mode =>
    if mode = "off".toList then .off
    else if mode = "graphlet".toList then .graphlet
    else .whole

/-- The mode is read back from its name. -/
theorem graphModeOfName_name (mode : GraphMode) :
    graphModeOfName (some (graphModeName mode)) = mode := by
  cases mode <;> decide

/-- `LILT_GRAPHLET_MAX_NODES_LIMIT` -/
def graphletMaxNodesLimit : UInt64 := 4096

/-- `g_graphlet_max_nodes` -/
def graphletMaxNodes (getenv : Env) : Nat :=
  (graphParseU64 getenv "LILT_EVENT_BE_GRAPHLET_MAX_NODES".toList 8 1
    graphletMaxNodesLimit).toNat

/-- `graph_initialize_config`, with the switches that the launch function asks
for; `proxyBe`: whether it is compiled for the BE proxy. -/
def graphInitializeConfig (proxyBe : Bool) (getenv : Env) : GraphConfig where
  eventPolicy := liltEventPolicyEnabled getenv
  passthrough := liltEventPassthroughEnabled getenv
  mode :=
    if proxyBe then graphModeOfName (liltGetenv getenv "LILT_EVENT_BE_GRAPH_MODE".toList)
    else .whole
  graphletMaxNodes := graphletMaxNodes getenv

/-- With a fallback in the range, a setting is in the range. -/
theorem graphParseU64_mem (getenv : Env) (name : CString) {fallback minimum maximum : UInt64}
    (hmin : minimum ≤ fallback) (hmax : fallback ≤ maximum) :
    minimum ≤ graphParseU64 getenv name fallback minimum maximum ∧
      graphParseU64 getenv name fallback minimum maximum ≤ maximum := by
  unfold graphParseU64
  split
  · exact ⟨hmin, hmax⟩
  · exact ⟨hmin, hmax⟩
  · dsimp only
    split
    next => exact ⟨hmin, hmax⟩
    next h =>
      simp only [not_or, UInt64.not_lt] at h
      exact ⟨h.2.2.1, h.2.2.2⟩

/-- Where the largest value of the type is out of the range, leaving `errno` alone
makes no difference. -/
theorem graphParseU64_eq (getenv : Env) (name : CString) {fallback minimum maximum : UInt64}
    (hmax : maximum < UInt64.ofNat ullongMax) :
    graphParseU64 getenv name fallback minimum maximum =
      eventBeParseU64 getenv name fallback minimum maximum := by
  have hrange : ∀ s, (strtoull s).rangeError = true →
      (strtoull s).value = UInt64.ofNat ullongMax := by
    intro s
    unfold strtoull
    dsimp only
    split
    · exact fun h => absurd h Bool.false_ne_true
    · split
      · exact fun _ => rfl
      · exact fun h => absurd h Bool.false_ne_true
  rcases hvalue : liltGetenv getenv name with _ | (_ | ⟨c, cs⟩)
  · simp only [graphParseU64, eventBeParseU64, hvalue]
  · simp only [graphParseU64, eventBeParseU64, hvalue]
  · simp only [graphParseU64, eventBeParseU64, hvalue]
    by_cases herr : (strtoull (c :: cs)).rangeError = true
    · -- the clamped value is beyond the maximum
      have hbeyond : maximum < (strtoull (c :: cs)).value := by
        rw [hrange _ herr]
        exact hmax
      rw [if_pos (.inr (.inr (.inr hbeyond))), if_pos (.inl herr)]
    · simp only [herr, Bool.false_eq_true, false_or]

end Lilt.Graph
