import Lilt.Be.Hooks
import Lilt.Be.InFlight
import Lilt.Hp.Hooks

/-!
# Launches on a stream that is being captured

Such a launch runs no kernel, so it is none of the scheduler's business: it should
reach neither the tracker of the HP proxy nor the window of the BE proxy, and a
record or a wait made for it would end in the application's capture.

- `captured_launch_leaves_iff`: when both proxies leave the scheduler alone, for every
  intercepted launch and whatever state its hooks find the scheduler in.
- `captured_launch_scheduled`: a launch of each proxy for which they do not.
-/

namespace Lilt.Driver

open Lilt.Graph Lilt.Hp Lilt.Be Transition

/-- With the event policy on, an intercepted launch on a stream for which the driver
reports an ongoing capture leaves the scheduler alone

- in the HP proxy, exactly in passthrough mode and through the entry points whose hook
  asks about captures;
- in the BE proxy, exactly unless a graph is launched and the window is not empty at one
  of its boundaries. -/
theorem captured_launch_leaves_iff {ν : Type} {cfg : GraphConfig}
    (hpolicy : cfg.eventPolicy = true) {call : LaunchCall} {capture : CaptureAnswers}
    (hcapture : (capture call.stream call.perThreadDefaultStream).ReportsCapture)
    {thread : Thread} (hthread : thread ≠ watcherThread) (present : Bool)
    (metadata : Option (GraphMetadata ν)) (launch : Nat → CUresult) :
    (∀ (config : HpConfig) (found : List (HpHookCall × HpProcess)),
      found.map Prod.fst = (hpLaunch (hookConfig cfg) present false capture
        (metadata.map GraphMetadata.nodeCount) call (launch 0)).2 →
      (∀ x ∈ found, (hpSystem config).Reachable x.2) →
      ((∀ x ∈ found, HpLeaves config thread x.2 x.1) ↔
        cfg.passthrough = true ∨ asksCapture call.entry = true)) ∧
    ∀ (config : BeConfig) (fp : BeFloat) (found : List (BeHookCall × BeProcess)),
      found.map Prod.fst = (beLaunch cfg present false capture metadata call launch).2 →
      (∀ x ∈ found, (beSystem config fp).Reachable x.2 ∧ x.1.Finds x.2) →
      ((∀ x ∈ found, BeLeaves config fp thread x.2 x.1) ↔
        cfg.passthrough = true ∨ cfg.mode = .off ∨ isGraphLaunch call.entry = false ∨
          ∀ x ∈ found, x.2.window.outstandingLaunches = 0) := by
  constructor
  · intro config found hfound _
    exact hpLaunch_leaves_iff hpolicy hcapture config hthread present _ _ hfound
  · intro config fp found hfound hstates
    exact beLaunch_leaves_iff hpolicy hcapture config fp thread present metadata launch hfound
      fun x hx => (hstates x hx).2

/-! ## Launches on the capturing stream 16 -/

/-- The settings of an event policy with no others. -/
def policyConfig : GraphConfig := ⟨true, false, .whole, 8⟩

/-- A capture is active on every stream. -/
def allCapturing : CaptureAnswers := fun _ _ => ⟨true, cudaSuccess, .active⟩

theorem allCapturing_reports (stream : CUstream) (p : Bool) :
    (allCapturing stream p).ReportsCapture := ⟨rfl, rfl, by rintro ⟨⟩⟩

/-- `cuLaunchKernel` of one block. -/
def capturedKernel : LaunchCall := ⟨.cuLaunchKernel 4096 ⟨1, 1, 1⟩, 16, false⟩

/-- `cuGraphLaunch` of a graph that is not registered. -/
def capturedGraph : LaunchCall := ⟨.cuGraphLaunch 5, 16, false⟩

/-- The graph leaves an empty window alone. -/
theorem captured_launch_leaves_graph :
    BeLeaves defaultConfig plainFloat 1 startProcess .eventBeDrainWindow := by
  have hthread : (1 : Thread) ≠ watcherThread := by decide
  have hpolicy : policyConfig.eventPolicy = true := rfl
  have hcapture := allCapturing_reports capturedGraph.stream capturedGraph.perThreadDefaultStream
  let metadata : Option (GraphMetadata Unit) := none
  obtain ⟨-, hbe⟩ := captured_launch_leaves_iff hpolicy hcapture hthread true metadata
    fun _ => cudaSuccess
  have hfound : ∀ x ∈ [(BeHookCall.eventBeDrainWindow, startProcess)],
      (beSystem defaultConfig plainFloat).Reachable x.2 ∧ x.1.Finds x.2 := by
    intro x hx
    rw [List.mem_singleton.mp hx]
    exact ⟨.init startProcess_starts, rfl⟩
  have hempty : ∀ x ∈ [(BeHookCall.eventBeDrainWindow, startProcess)],
      x.2.window.outstandingLaunches = 0 := by
    intro x hx
    rw [List.mem_singleton.mp hx]
    rfl
  have hleaves := (hbe defaultConfig plainFloat _ rfl hfound).mpr (.inr (.inr (.inr hempty)))
  exact hleaves _ List.mem_cons_self

/-- The HP proxy tracks a captured kernel like any other; the BE proxy waits for the
launch in its window behind a captured graph. -/
theorem captured_launch_scheduled :
    (∃ found : List (HpHookCall × HpProcess),
      found.map Prod.fst = (hpLaunch (hookConfig policyConfig) true false allCapturing none
        capturedKernel cudaSuccess).2 ∧
      (∀ x ∈ found, (hpSystem ⟨.blocking, 20000⟩).Reachable x.2) ∧
      ¬ ∀ x ∈ found, HpLeaves ⟨.blocking, 20000⟩ 1 x.2 x.1) ∧
    ∃ found : List (BeHookCall × BeProcess),
      found.map Prod.fst = (beLaunch (ν := Unit) policyConfig true false allCapturing none
        capturedGraph fun _ => cudaSuccess).2 ∧
      (∀ x ∈ found, (beSystem defaultConfig plainFloat).Reachable x.2 ∧ x.1.Finds x.2) ∧
      ¬ ∀ x ∈ found, BeLeaves defaultConfig plainFloat 1 x.2 x.1 := by
  constructor
  · let s₀ : HpProcess := ⟨.initial, .empty, [], .notStarted, []⟩
    have h₀ : (hpSystem ⟨.blocking, 20000⟩).Reachable s₀ := .init ⟨rfl, rfl, rfl, rfl⟩
    have h₁ := h₀.step (HpStep.before s₀ 1 16 false true (by decide))
    have hlaunched : ∃ s₂, (hpSystem ⟨.blocking, 20000⟩).Reachable s₂ :=
      ⟨_, h₁.step (HpStep.launch _ ⟨1, 16, false, .entered⟩ List.mem_cons_self rfl)⟩
    obtain ⟨s₂, h₂⟩ := hlaunched
    refine ⟨[(.eventHpBeforeLaunch, s₀), (.eventHpAfterLaunch 16 false cudaSuccess, s₂)], rfl,
      fun x hx => ?_, fun hall => ?_⟩
    · rcases List.mem_cons.mp hx with rfl | hx
      · exact h₀
      · rw [List.mem_singleton.mp hx]
        exact h₂
    · exact not_hpLeaves_before _ (by decide) s₀ (hall _ List.mem_cons_self)
  · obtain ⟨s, hs, hflight, hpc⟩ := oneLaunch_reachable plainFloat
    refine ⟨[(.eventBeDrainWindow, s)], rfl, fun x hx => ?_, fun hall => ?_⟩
    · rw [List.mem_singleton.mp hx]
      exact ⟨hs, hpc⟩
    · have hempty := (beLeaves_drain_iff hpc).mp (hall _ List.mem_cons_self)
      have hone := (windowInv_reachable hs).1.outstanding
      omega

end Lilt.Driver
