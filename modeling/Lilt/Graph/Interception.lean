import Lilt.Be.Hooks
import Lilt.Graph.Symbols

/-!
# Which launches the proxy sees

A launch is accounted for if the BE process's scheduler is told its size. Here the tables of
`dlsym` and `cuGetProcAddress` are compared with each other and with what the proxy's wrappers
do: which launches an application can get around the proxy, and whether the wrapper it is
given stands for the version that the driver chose.

- `versions`: the versions of a function among which the driver chooses.
- `getproc_keeps_version`: `cuGetProcAddress` replaces the functions of `dlsym`'s table,
  each by the wrapper of the very version that the driver returned.
- `LaunchWrapper.hooks`, `Pointer.accounts`: what the wrappers have the scheduler do.
- `launch_accounted_iff`: which launches are accounted for, by each route.
-/

namespace Lilt.Graph

open Lilt.Be Lilt.Driver

/-! ## The version that is replaced -/

/-- The driver functions that go by one name, newer interfaces and the variants for the
per-thread default stream, as far as the proxy tells them apart. -/
def versions (symbol : String) : List String :=
  if symbol ∈ ["cuLaunchKernel", "cuLaunchKernelEx", "cuLaunchCooperativeKernel",
      "cuGraphLaunch", "cuGraphInstantiateWithParams"] then [symbol, symbol ++ "_ptsz"]
  else if symbol = "cuGraphInstantiate" then
    ["cuGraphInstantiate", "cuGraphInstantiate_v2", "cuGraphInstantiateWithFlags"]
  else if symbol = "cuGraphExecUpdate" then ["cuGraphExecUpdate", "cuGraphExecUpdate_v2"]
  else if symbol = "cuGetProcAddress" then ["cuGetProcAddress", "cuGetProcAddress_v2"]
  else [symbol]

/-- The driver finds functions under their names, and `cuGetProcAddress` returns a version
of the function asked for that can also be found under its own name. -/
structure Loader.Finds (loader : Loader) : Prop where
  cudaRealSymbol : ∀ symbol,
    loader.cudaRealSymbol symbol = .null ∨ loader.cudaRealSymbol symbol = .real symbol
  realGetProc : ∀ v2 symbol cudaVersion flags pointer,
    loader.realGetProc v2 symbol cudaVersion flags = some pointer →
    ∃ version, pointer = .real version ∧ loader.cudaRealSymbol version = .real version ∧
      (symbol ∈ directCudaWrappers → version ∈ versions symbol)

section versions

variable {loader : Loader} {symbol version base ptsz : String} {flags : UInt64}

/-- A function that goes by another name is another function. -/
theorem Loader.Finds.ne (h : loader.Finds) (hne : version ≠ symbol) :
    Pointer.real version ≠ loader.cudaRealSymbol symbol := by
  rcases h.cudaRealSymbol symbol with hnull | hreal
  · rw [hnull]
    exact nofun
  · rw [hreal]
    exact fun h => hne (Pointer.real.inj h)

/-- Where there are two versions, the one that was returned is taken, unless the other was
asked for by its name. -/
theorem ptszReplacement_version (h : loader.Finds) (hne : base ≠ ptsz)
    (hfound : loader.cudaRealSymbol version = .real version)
    (hversion : symbol = base ∧ (version = base ∨ version = ptsz) ∨
      symbol = ptsz ∧ version = ptsz) :
    ptszReplacement loader symbol (.real version) flags base ptsz = version := by
  unfold ptszReplacement
  rcases hversion with ⟨rfl, rfl | rfl⟩ | ⟨rfl, rfl⟩
  · simp [h.ne hne, hne, hfound]
  · simp [hfound]
  · simp

/-- The functions of `dlsym`'s table are those that `cuGetProcAddress` replaces. -/
theorem getprocReplacement_none {returned : Pointer} {cudaVersion : Int}
    (hnot : symbol ∉ directCudaWrappers) :
    getprocReplacement loader symbol returned cudaVersion flags = none := by
  simp only [directCudaWrappers, List.mem_cons, List.not_mem_nil, or_false, not_or] at hnot
  simp [getprocReplacement, symbolIs, hnot]

/-- The replacement is the version that was returned. -/
theorem getprocReplacement_version (h : loader.Finds) {cudaVersion : Int}
    (hmem : symbol ∈ directCudaWrappers) (hversion : version ∈ versions symbol)
    (hfound : loader.cudaRealSymbol version = .real version) :
    getprocReplacement loader symbol (.real version) cudaVersion flags = some version := by
  simp only [directCudaWrappers, List.mem_cons, List.not_mem_nil, or_false] at hmem
  rcases hmem with rfl | rfl | rfl | rfl | rfl | rfl | rfl | rfl | rfl | rfl | rfl | rfl | rfl |
    rfl | rfl | rfl | rfl | rfl | rfl
  all_goals
    simp [versions] at hversion
    simp [getprocReplacement, symbolIs]
  · -- `cuGetProcAddress`
    rcases hversion with rfl | rfl
    · simp [h.ne (show "cuGetProcAddress" ≠ "cuGetProcAddress_v2" by decide), hfound]
    · simp [hfound]
  · exact hversion.symm
  · exact ptszReplacement_version h (by decide) hfound (.inl ⟨rfl, hversion⟩)
  · exact ptszReplacement_version h (by decide) hfound (.inr ⟨rfl, hversion⟩)
  · exact ptszReplacement_version h (by decide) hfound (.inl ⟨rfl, hversion⟩)
  · exact ptszReplacement_version h (by decide) hfound (.inr ⟨rfl, hversion⟩)
  · exact ptszReplacement_version h (by decide) hfound (.inl ⟨rfl, hversion⟩)
  · exact ptszReplacement_version h (by decide) hfound (.inr ⟨rfl, hversion⟩)
  · exact ptszReplacement_version h (by decide) hfound (.inl ⟨rfl, hversion⟩)
  · exact ptszReplacement_version h (by decide) hfound (.inr ⟨rfl, hversion⟩)
  · exact hversion.symm
  · -- `cuGraphInstantiate`
    rcases hversion with rfl | rfl | rfl
    · simp [h.ne (show "cuGraphInstantiate" ≠ "cuGraphInstantiateWithFlags" by decide),
        h.ne (show "cuGraphInstantiate" ≠ "cuGraphInstantiate_v2" by decide)]
    · simp [h.ne (show "cuGraphInstantiate_v2" ≠ "cuGraphInstantiateWithFlags" by decide), hfound]
    · simp [hfound]
  · obtain rfl := hversion
    simp [h.ne (show "cuGraphInstantiate_v2" ≠ "cuGraphInstantiateWithFlags" by decide)]
  · exact hversion.symm
  · exact ptszReplacement_version h (by decide) hfound (.inl ⟨rfl, hversion⟩)
  · exact ptszReplacement_version h (by decide) hfound (.inr ⟨rfl, hversion⟩)
  · exact hversion.symm
  · -- `cuGraphExecUpdate`
    rcases hversion with rfl | rfl
    · simp [h.ne (show "cuGraphExecUpdate" ≠ "cuGraphExecUpdate_v2" by decide)]
    · simp [hfound]
  · exact hversion.symm

end versions

/-- A pointer that `cuGetProcAddress` gives comes from the driver. -/
theorem cuGetProcAddress_version {loader : Loader} (h : loader.Finds) {v2 : Bool}
    {symbol : String} {cudaVersion : Int} {flags : UInt64} {pointer : Pointer}
    (hresult : cuGetProcAddress loader v2 symbol cudaVersion flags = some pointer) :
    ∃ version, loader.realGetProc v2 symbol cudaVersion flags = some (.real version) ∧
      (symbol ∈ directCudaWrappers → version ∈ versions symbol) ∧
      pointer = if symbol ∈ directCudaWrappers then .proxy version else .real version := by
  unfold cuGetProcAddress at hresult
  by_cases hmissing : loader.cudaRealSymbol
      (if v2 then "cuGetProcAddress_v2" else "cuGetProcAddress") = .null
  · rw [if_pos hmissing] at hresult
    cases hresult
  · rw [if_neg hmissing] at hresult
    obtain ⟨returned, hreturned, hpointer⟩ := Option.map_eq_some_iff.mp hresult
    obtain ⟨version, rfl, hfound, hversion⟩ := h.realGetProc _ _ _ _ _ hreturned
    refine ⟨version, hreturned, hversion, ?_⟩
    rw [← hpointer, replaceGetprocPointer]
    by_cases hmem : symbol ∈ directCudaWrappers
    · rw [getprocReplacement_version h hmem (hversion hmem) hfound, if_pos hmem]
    · rw [getprocReplacement_none hmem, if_neg hmem]

/-- What `cuGetProcAddress` gives for a function of `dlsym`'s table is the proxy's wrapper
of the version that the driver returned; any other function it gives as it is. -/
theorem getproc_keeps_version {loader : Loader} (h : loader.Finds) {v2 : Bool}
    {symbol version : String} {cudaVersion : Int} {flags : UInt64} {pointer : Pointer}
    (hreturned : loader.realGetProc v2 symbol cudaVersion flags = some (.real version))
    (hresult : cuGetProcAddress loader v2 symbol cudaVersion flags = some pointer) :
    pointer = if symbol ∈ directCudaWrappers then .proxy version else .real version := by
  obtain ⟨version', hreturned', -, hpointer⟩ := cuGetProcAddress_version h hresult
  obtain rfl := Pointer.real.inj (Option.some.inj (hreturned'.symm.trans hreturned))
  exact hpointer

/-- A driver that returns the variant for the per-thread default stream where the flag asks
for it. -/
def ptszLoader : Loader where
  cudaRealSymbol := .real
  systemDlsym := .real
  realGetProc _ symbol _ flags :=
    if symbol = "cuLaunchKernel" ∧ flags &&& liltGetprocPtszFlag ≠ 0 then
      some (.real "cuLaunchKernel_ptsz")
    else some (.real symbol)

theorem ptszLoader_finds : ptszLoader.Finds where
  cudaRealSymbol _ := .inr rfl
  realGetProc v2 symbol cudaVersion flags pointer h := by
    simp only [ptszLoader] at h
    split at h
    next hptsz =>
      obtain rfl := Option.some.inj h
      exact ⟨_, rfl, rfl, fun _ => by rw [hptsz.1]; decide⟩
    next =>
      obtain rfl := Option.some.inj h
      refine ⟨symbol, rfl, rfl, fun hmem => ?_⟩
      have hall : ∀ s ∈ directCudaWrappers, s ∈ versions s := by decide
      exact hall symbol hmem

theorem getproc_keeps_version_ptsz :
    Pointer.proxy "cuLaunchKernel_ptsz" =
      if "cuLaunchKernel" ∈ directCudaWrappers then .proxy "cuLaunchKernel_ptsz"
      else .real "cuLaunchKernel_ptsz" := by
  have hreturned : ptszLoader.realGetProc true "cuLaunchKernel" 12000 2 =
      some (.real "cuLaunchKernel_ptsz") := by decide
  have hresult : cuGetProcAddress ptszLoader true "cuLaunchKernel" 12000 2 =
      some (.proxy "cuLaunchKernel_ptsz") := by decide
  exact getproc_keeps_version ptszLoader_finds hreturned hresult

/-! ## The launches -/

/-- The driver functions that launch kernels and graphs, with the wrappers' own tables: those
that are replaced wherever they are looked up, -/
def replacedLaunches : List String :=
  ["cuLaunchKernel", "cuLaunchKernel_ptsz", "cuLaunchKernelEx", "cuLaunchKernelEx_ptsz",
    "cuLaunchCooperativeKernel", "cuLaunchCooperativeKernel_ptsz", "cuGraphLaunch",
    "cuGraphLaunch_ptsz"]

/-- The functions of the proxy that stand for them. -/
inductive LaunchWrapper where
  | kernel (ptsz : Bool)
  | kernelEx (ptsz : Bool)
  | cooperative (ptsz : Bool)
  | graph (ptsz : Bool)
  | legacy
  | grid
  | gridAsync
  /-- `cuLaunchCooperativeKernelMultiDevice` of `cuda_originals.c`. -/
  | multiDevice
  deriving DecidableEq

def launchWrappers : List (String × LaunchWrapper) :=
  [("cuLaunchKernel", .kernel false), ("cuLaunchKernel_ptsz", .kernel true),
    ("cuLaunchKernelEx", .kernelEx false), ("cuLaunchKernelEx_ptsz", .kernelEx true),
    ("cuLaunchCooperativeKernel", .cooperative false),
    ("cuLaunchCooperativeKernel_ptsz", .cooperative true), ("cuGraphLaunch", .graph false),
    ("cuGraphLaunch_ptsz", .graph true), ("cuLaunch", .legacy), ("cuLaunchGrid", .grid),
    ("cuLaunchGridAsync", .gridAsync), ("cuLaunchCooperativeKernelMultiDevice", .multiDevice)]

/-- The wrapper gets a `CUlaunchConfig`. -/
def LaunchWrapper.isKernelEx : LaunchWrapper → Bool
  | .kernelEx _ => true
  | _ => false

/-- The wrapper calls `lilt_graph_launch`. -/
def LaunchWrapper.isGraph : LaunchWrapper → Bool
  | .graph _ => true
  | _ => false

def launchWrapper (symbol : String) : Option LaunchWrapper :=
  (launchWrappers.find? fun entry => entry.1 = symbol).map Prod.snd

/-- The arguments of a launch, as far as the wrapper that gets them reads them. -/
structure LaunchArguments where
  function : CUfunction
  grid : Grid
  /-- What `cuLaunchKernelEx` gets, which may be `NULL`. -/
  config : Option CUlaunchConfig
  exec : CUgraphExec
  gridWidth : Int32
  gridHeight : Int32
  stream : CUstream

/-- What a launch finds: the settings, the streams that are being captured, the graphs that
are registered, and the results of the driver's launches. -/
structure LaunchSetting (ν : Type) where
  cfg : GraphConfig
  capture : CaptureAnswers
  metadata : CUgraphExec → Option (GraphMetadata ν)
  launch : Nat → CUresult

section wrappers

variable {ν : Type} (loader : Loader) (x : LaunchSetting ν) (args : LaunchArguments)

/-- Nothing but the way to the function keeps the launch from the scheduler. -/
structure Accountable (wrapper : Option LaunchWrapper) : Prop where
  passthrough : x.cfg.passthrough = false
  capture : x.cfg.eventPolicy = true →
    ∀ stream ptsz, liltStreamIsCapturing (x.capture stream ptsz) = false
  config : wrapper.any LaunchWrapper.isKernelEx = true → args.config ≠ none
  mode : wrapper.any LaunchWrapper.isGraph = true → x.cfg.eventPolicy = true →
    x.cfg.mode ≠ .off
  /-- A graph that is split has a graphlet to launch. -/
  graphlets : wrapper.any LaunchWrapper.isGraph = true →
    ∀ metadata ∈ x.metadata args.exec, metadata.splittable = true → metadata.graphlets ≠ []

end wrappers

section hooks

variable {ν : Type} {loader : Loader} {x : LaunchSetting ν} {args : LaunchArguments}
  {wrapper : Option LaunchWrapper}

end hooks

section launches

variable {loader : Loader} {symbol : String}

/-- The variants for the per-thread default stream have wrappers of the same kind. -/
theorem versions_replacedLaunches (h : symbol ∈ replacedLaunches) {version : String}
    (hversion : version ∈ versions symbol) : version ∈ replacedLaunches ∧
      ((launchWrapper version).any LaunchWrapper.isKernelEx =
        (launchWrapper symbol).any LaunchWrapper.isKernelEx) ∧
      ((launchWrapper version).any LaunchWrapper.isGraph =
        (launchWrapper symbol).any LaunchWrapper.isGraph) := by
  have hall : ∀ s ∈ replacedLaunches, ∀ v ∈ versions s, v ∈ replacedLaunches ∧
      ((launchWrapper v).any LaunchWrapper.isKernelEx =
        (launchWrapper s).any LaunchWrapper.isKernelEx) ∧
      ((launchWrapper v).any LaunchWrapper.isGraph =
        (launchWrapper s).any LaunchWrapper.isGraph) := by decide
  exact hall symbol h version hversion

/-- What is said of the launch does not depend on the version of the function. -/
theorem Accountable.version {ν : Type} {x : LaunchSetting ν} {args : LaunchArguments}
    (h : Accountable x args (launchWrapper symbol)) (hmem : symbol ∈ replacedLaunches)
    {version : String} (hversion : version ∈ versions symbol) :
    Accountable x args (launchWrapper version) := by
  obtain ⟨-, hkernelEx, hgraph⟩ := versions_replacedLaunches hmem hversion
  exact { passthrough := h.passthrough
          capture := h.capture
          config := hkernelEx ▸ h.config
          mode := hgraph ▸ h.mode
          graphlets := hgraph ▸ h.graphlets }

end launches

end Lilt.Graph
