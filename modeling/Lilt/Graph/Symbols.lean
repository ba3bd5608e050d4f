import Mathlib.Data.List.Basic

/-!
# How an application obtains an entry point (`driver_proxy_compat.c`)

The proxy exports wrappers of driver functions. An application gets at a function
by linking to it, by `dlsym`, or by `cuGetProcAddress`, and each way has its own
table of the functions that are replaced. What the dynamic linker and the driver
answer is a parameter.

- `directCudaWrapper`, `dlsym`, `replaceGetprocPointer`, `cuGetProcAddress`: the
  tables and the functions that consult them.
- `resolve`: the function an application calls that asked for a symbol.
- `Loader.Documented`: the driver and the linker find the function asked for.
- `resolve_real`: which of the driver's own graph functions an application gets.
-/

namespace Lilt.Graph

/-- What a function pointer points to. -/
inductive Pointer where
  | null
  | proxy (symbol : String)
  | real (symbol : String)
  deriving DecidableEq

/-- The nodes whose parameters can be set in an executable graph. -/
inductive NodeKind where
  | kernel
  | memcpy
  | memset
  deriving DecidableEq

/-- What a driver function does to executable graphs. -/
inductive GraphEntry where
  | instantiate
  | nodeParams (kind : NodeKind)
  | nodeEnabled
  | execUpdate
  | destroy
  | launch
  deriving DecidableEq

/-- The driver functions that concern executable graphs. -/
def graphEntries : List (String × GraphEntry) :=
  [("cuGraphInstantiate", .instantiate), ("cuGraphInstantiate_v2", .instantiate),
    ("cuGraphInstantiateWithFlags", .instantiate),
    ("cuGraphInstantiateWithParams", .instantiate),
    ("cuGraphInstantiateWithParams_ptsz", .instantiate),
    ("cuGraphExecKernelNodeSetParams", .nodeParams .kernel),
    ("cuGraphExecKernelNodeSetParams_v2", .nodeParams .kernel),
    ("cuGraphExecMemcpyNodeSetParams", .nodeParams .memcpy),
    ("cuGraphExecMemsetNodeSetParams", .nodeParams .memset),
    ("cuGraphNodeSetEnabled", .nodeEnabled), ("cuGraphExecUpdate", .execUpdate),
    ("cuGraphExecUpdate_v2", .execUpdate), ("cuGraphExecDestroy", .destroy),
    ("cuGraphLaunch", .launch), ("cuGraphLaunch_ptsz", .launch)]

def graphEntry (symbol : String) : Option GraphEntry :=
  (graphEntries.find? fun entry => entry.1 = symbol).map Prod.snd

/-- The functions among them that the proxy defines, in `cuda_originals.c` and
`graph_scheduler.c`. -/
def exportedGraphSymbols : List String :=
  ["cuGraphExecDestroy", "cuGraphInstantiate", "cuGraphLaunch", "cuGraphLaunch_ptsz",
    "cuGraphExecKernelNodeSetParams", "cuGraphExecMemcpyNodeSetParams",
    "cuGraphExecMemsetNodeSetParams", "cuGraphExecUpdate", "cuGraphInstantiate_v2",
    "cuGraphInstantiateWithFlags", "cuGraphInstantiateWithParams",
    "cuGraphInstantiateWithParams_ptsz", "cuGraphNodeSetEnabled", "cuGraphExecUpdate_v2"]

/-- What the function does that a pointer points to. -/
def Pointer.entry : Pointer → Option GraphEntry
  | .null => none
  | .proxy symbol => if symbol ∈ exportedGraphSymbols then graphEntry symbol else none
  | .real symbol => graphEntry symbol

/-- The symbols `direct_cuda_wrapper` compares with. -/
def directCudaWrappers : List String :=
  ["cuGetProcAddress", "cuGetProcAddress_v2", "cuLaunchKernel", "cuLaunchKernel_ptsz",
    "cuLaunchKernelEx", "cuLaunchKernelEx_ptsz", "cuLaunchCooperativeKernel",
    "cuLaunchCooperativeKernel_ptsz", "cuGraphLaunch", "cuGraphLaunch_ptsz",
    "cuGraphExecDestroy", "cuGraphInstantiate", "cuGraphInstantiate_v2",
    "cuGraphInstantiateWithFlags", "cuGraphInstantiateWithParams",
    "cuGraphInstantiateWithParams_ptsz", "cuGraphNodeSetEnabled", "cuGraphExecUpdate",
    "cuGraphExecUpdate_v2"]

/-- `direct_cuda_wrapper` -/
def directCudaWrapper (symbol : String) : Option Pointer :=
  if symbol ∈ directCudaWrappers then some (.proxy symbol) else none

/-- `is_cuda_driver_symbol` -/
def isCudaDriverSymbol (symbol : String) : Bool :=
  match symbol.toList with
  | 'c' :: 'u' :: letter :: _ => 'A' ≤ letter && letter ≤ 'Z'
  | _ => false

/-- What the dynamic linker and the driver answer. -/
structure Loader where
  cudaRealSymbol : String → Pointer
  /-- `lilt_system_dlsym`, and the search for a symbol that is linked to. -/
  systemDlsym : String → Pointer
  /-- The driver's `cuGetProcAddress` or, if `v2`, `cuGetProcAddress_v2`; a call
  that fails or returns no pointer gives nothing. -/
  realGetProc : (v2 : Bool) → String → (cudaVersion : Int) → (flags : UInt64) → Option Pointer

/-- `dlsym`; `next` says whether the handle is `RTLD_NEXT`. -/
def dlsym (loader : Loader) (next : Bool) (symbol : String) : Pointer :=
  if next then loader.systemDlsym symbol
  else
    match directCudaWrapper symbol with
    | some wrapper => wrapper
    | none =>
      if isCudaDriverSymbol symbol && loader.cudaRealSymbol symbol ≠ .null then
        loader.cudaRealSymbol symbol
      else loader.systemDlsym symbol

/-- `LILT_GETPROC_PTSZ_FLAG` -/
def liltGetprocPtszFlag : UInt64 := 2

/-- `symbol_is` -/
def symbolIs (symbol base ptsz : String) : Bool := symbol = base || symbol = ptsz

/-- The replacement of a function that has a `_ptsz` variant. -/
def ptszReplacement (loader : Loader) (symbol : String) (returned : Pointer) (flags : UInt64)
    (base ptsz : String) : String :=
  if returned = loader.cudaRealSymbol ptsz || symbol = ptsz ||
      (returned ≠ loader.cudaRealSymbol base && flags &&& liltGetprocPtszFlag ≠ 0) then ptsz
  else base

/-- `replacement` in `replace_getproc_pointer` -/
def getprocReplacement (loader : Loader) (symbol : String) (returned : Pointer)
    (cudaVersion : Int) (flags : UInt64) : Option String :=
  if symbolIs symbol "cuLaunchKernel" "cuLaunchKernel_ptsz" then
    some (ptszReplacement loader symbol returned flags "cuLaunchKernel" "cuLaunchKernel_ptsz")
  else if symbolIs symbol "cuLaunchKernelEx" "cuLaunchKernelEx_ptsz" then
    some (ptszReplacement loader symbol returned flags "cuLaunchKernelEx" "cuLaunchKernelEx_ptsz")
  else if symbolIs symbol "cuLaunchCooperativeKernel" "cuLaunchCooperativeKernel_ptsz" then
    some (ptszReplacement loader symbol returned flags "cuLaunchCooperativeKernel"
      "cuLaunchCooperativeKernel_ptsz")
  else if symbolIs symbol "cuGraphLaunch" "cuGraphLaunch_ptsz" then
    some (ptszReplacement loader symbol returned flags "cuGraphLaunch" "cuGraphLaunch_ptsz")
  else if symbol = "cuGraphInstantiateWithFlags" then some "cuGraphInstantiateWithFlags"
  else if symbolIs symbol "cuGraphInstantiateWithParams" "cuGraphInstantiateWithParams_ptsz" then
    some (ptszReplacement loader symbol returned flags "cuGraphInstantiateWithParams"
      "cuGraphInstantiateWithParams_ptsz")
  else if symbol = "cuGraphInstantiate" || symbol = "cuGraphInstantiate_v2" then
    if returned = loader.cudaRealSymbol "cuGraphInstantiateWithFlags" then
      some "cuGraphInstantiateWithFlags"
    else if returned = loader.cudaRealSymbol "cuGraphInstantiate_v2" ||
        symbol = "cuGraphInstantiate_v2" then
      some "cuGraphInstantiate_v2"
    else some "cuGraphInstantiate"
  else if symbol = "cuGraphExecDestroy" then some "cuGraphExecDestroy"
  else if symbol = "cuGraphNodeSetEnabled" then some "cuGraphNodeSetEnabled"
  else if symbol = "cuGraphExecUpdate_v2" then some "cuGraphExecUpdate_v2"
  else if symbol = "cuGraphExecUpdate" then
    if returned = loader.cudaRealSymbol "cuGraphExecUpdate_v2" then some "cuGraphExecUpdate_v2"
    else some "cuGraphExecUpdate"
  else if symbol = "cuGetProcAddress_v2" then some "cuGetProcAddress_v2"
  else if symbol = "cuGetProcAddress" then
    if returned = loader.cudaRealSymbol "cuGetProcAddress_v2" ||
        (returned ≠ loader.cudaRealSymbol "cuGetProcAddress" && 12000 ≤ cudaVersion) then
      some "cuGetProcAddress_v2"
    else some "cuGetProcAddress"
  else none

/-- `replace_getproc_pointer`: what `*pfn` is afterwards. -/
def replaceGetprocPointer (loader : Loader) (symbol : String) (returned : Pointer)
    (cudaVersion : Int) (flags : UInt64) : Pointer :=
  match getprocReplacement loader symbol returned cudaVersion flags with
  | some replacement => .proxy replacement
  | none => returned

/-- `cuGetProcAddress` and, if `v2`, `cuGetProcAddress_v2`. -/
def cuGetProcAddress (loader : Loader) (v2 : Bool) (symbol : String) (cudaVersion : Int)
    (flags : UInt64) : Option Pointer :=
  if loader.cudaRealSymbol (if v2 then "cuGetProcAddress_v2" else "cuGetProcAddress") = .null then
    none
  else
    (loader.realGetProc v2 symbol cudaVersion flags).map fun returned =>
      replaceGetprocPointer loader symbol returned cudaVersion flags

/-- The ways of an application to a function. -/
inductive Route where
  | linked
  /-- `dlsym` on a handle or `RTLD_DEFAULT`. -/
  | dlsym
  | getProcAddress (v2 : Bool) (cudaVersion : Int) (flags : UInt64)
  deriving DecidableEq

/-- The function an application gets that asks for `symbol`. -/
def resolve (loader : Loader) (route : Route) (symbol : String) : Pointer :=
  match route with
  | .linked =>
    if symbol ∈ exportedGraphSymbols then .proxy symbol else loader.systemDlsym symbol
  | .dlsym => dlsym loader false symbol
  | .getProcAddress v2 cudaVersion flags =>
    (cuGetProcAddress loader v2 symbol cudaVersion flags).getD .null

/-! ## Which functions are replaced -/

/-- The driver and the linker find the function that was asked for, the driver's
`cuGetProcAddress` perhaps another version of it. -/
structure Loader.Documented (loader : Loader) : Prop where
  cudaRealSymbol : ∀ symbol,
    loader.cudaRealSymbol symbol = .null ∨ loader.cudaRealSymbol symbol = .real symbol
  systemDlsym : ∀ symbol, loader.systemDlsym symbol = .null ∨
    loader.systemDlsym symbol = .proxy symbol ∨ loader.systemDlsym symbol = .real symbol
  realGetProc : ∀ v2 symbol cudaVersion flags pointer,
    loader.realGetProc v2 symbol cudaVersion flags = some pointer →
    ∃ version, pointer = .real version ∧ graphEntry version = graphEntry symbol

/-- The function sets the parameters of a node. -/
def GraphEntry.setsParams : GraphEntry → Bool
  | .nodeParams _ => true
  | _ => false

theorem mem_graphEntries {symbol : String} {entry : GraphEntry}
    (h : graphEntry symbol = some entry) : (symbol, entry) ∈ graphEntries := by
  obtain ⟨pair, hfind, rfl⟩ := Option.map_eq_some_iff.mp h
  have hsymbol := List.find?_some hfind
  rw [decide_eq_true_iff] at hsymbol
  subst hsymbol
  exact List.mem_of_find?_eq_some hfind

/-- All graph functions but those that set the parameters of a node are wrapped for
applications that link to them or use `dlsym`. -/
theorem wrapped_of_entry {symbol : String} {entry : GraphEntry}
    (h : graphEntry symbol = some entry) (hparams : entry.setsParams = false) :
    symbol ∈ exportedGraphSymbols ∧ symbol ∈ directCudaWrappers := by
  have htables : ∀ pair ∈ graphEntries, pair.2.setsParams = false →
      pair.1 ∈ exportedGraphSymbols ∧ pair.1 ∈ directCudaWrappers := by decide
  exact htables _ (mem_graphEntries h) hparams

/-- They are replaced for those that use `cuGetProcAddress`. -/
theorem replaced_of_entry {symbol : String} {entry : GraphEntry}
    (h : graphEntry symbol = some entry) (hparams : entry.setsParams = false) (loader : Loader)
    (returned : Pointer) (cudaVersion : Int) (flags : UInt64) :
    ∃ replacement, replaceGetprocPointer loader symbol returned cudaVersion flags =
      .proxy replacement := by
  have hsome : (getprocReplacement loader symbol returned cudaVersion flags).isSome := by
    have hmem := mem_graphEntries h
    simp only [graphEntries, List.mem_cons, Prod.mk.injEq, List.not_mem_nil, or_false] at hmem
    -- each function has its branch in the chain of comparisons
    rcases hmem with ⟨rfl, rfl⟩ | ⟨rfl, rfl⟩ | ⟨rfl, rfl⟩ | ⟨rfl, rfl⟩ | ⟨rfl, rfl⟩ | ⟨rfl, rfl⟩ |
      ⟨rfl, rfl⟩ | ⟨rfl, rfl⟩ | ⟨rfl, rfl⟩ | ⟨rfl, rfl⟩ | ⟨rfl, rfl⟩ | ⟨rfl, rfl⟩ | ⟨rfl, rfl⟩ |
      ⟨rfl, rfl⟩ | ⟨rfl, rfl⟩
    all_goals first
      | exact absurd hparams (by decide)
      | simp [getprocReplacement, symbolIs, apply_ite Option.isSome]
  obtain ⟨replacement, hreplacement⟩ := Option.isSome_iff_exists.mp hsome
  refine ⟨replacement, ?_⟩
  unfold replaceGetprocPointer
  rw [hreplacement]

/-- A driver function that `dlsym` returns is the one asked for, and not wrapped. -/
theorem dlsym_real {loader : Loader} (hdoc : loader.Documented) {symbol target : String}
    (h : dlsym loader false symbol = .real target) :
    symbol = target ∧ symbol ∉ directCudaWrappers := by
  unfold dlsym directCudaWrapper at h
  rw [if_neg Bool.false_ne_true] at h
  by_cases hmem : symbol ∈ directCudaWrappers
  · rw [if_pos hmem] at h
    cases h
  · rw [if_neg hmem] at h
    refine ⟨?_, hmem⟩
    dsimp only at h
    split at h
    · rcases hdoc.cudaRealSymbol symbol with hnull | hreal
      · rw [hnull] at h
        cases h
      · exact Pointer.real.inj (hreal.symm.trans h)
    · rcases hdoc.systemDlsym symbol with hnull | hproxy | hreal
      · rw [hnull] at h
        cases h
      · rw [hproxy] at h
        cases h
      · exact Pointer.real.inj (hreal.symm.trans h)

/-- A driver function that `cuGetProcAddress` returns is a version of the one asked
for, and not replaced. -/
theorem cuGetProcAddress_real {loader : Loader} (hdoc : loader.Documented) {v2 : Bool}
    {symbol target : String} {cudaVersion : Int} {flags : UInt64}
    (h : cuGetProcAddress loader v2 symbol cudaVersion flags = some (.real target)) :
    graphEntry target = graphEntry symbol ∧ ∃ returned,
      replaceGetprocPointer loader symbol returned cudaVersion flags = .real target := by
  unfold cuGetProcAddress at h
  by_cases hmissing : loader.cudaRealSymbol
      (if v2 then "cuGetProcAddress_v2" else "cuGetProcAddress") = .null
  · rw [if_pos hmissing] at h
    cases h
  · rw [if_neg hmissing] at h
    obtain ⟨returned, hreturned, hpointer⟩ := Option.map_eq_some_iff.mp h
    refine ⟨?_, returned, hpointer⟩
    obtain ⟨version, rfl, hversion⟩ := hdoc.realGetProc _ _ _ _ _ hreturned
    unfold replaceGetprocPointer at hpointer
    split at hpointer
    · cases hpointer
    · obtain rfl := Pointer.real.inj hpointer
      exact hversion

/-- Of the driver's own graph functions an application gets only those that set the
parameters of a node. -/
theorem resolve_real {loader : Loader} (hdoc : loader.Documented) {route : Route}
    {symbol target : String} {entry : GraphEntry}
    (h : resolve loader route symbol = .real target) (hentry : graphEntry target = some entry) :
    entry.setsParams = true := by
  by_contra hparams
  rw [Bool.not_eq_true] at hparams
  cases route with
  | linked =>
    have hexported := (wrapped_of_entry hentry hparams).1
    unfold resolve at h
    dsimp only at h
    split at h
    · cases h
    next hnot =>
      rcases hdoc.systemDlsym symbol with hnull | hproxy | hreal
      · rw [hnull] at h
        cases h
      · rw [hproxy] at h
        cases h
      · obtain rfl := Pointer.real.inj (hreal.symm.trans h)
        exact hnot hexported
  | dlsym =>
    obtain ⟨rfl, hnot⟩ := dlsym_real hdoc h
    exact hnot (wrapped_of_entry hentry hparams).2
  | getProcAddress v2 cudaVersion flags =>
    have hpointer : cuGetProcAddress loader v2 symbol cudaVersion flags = some (.real target) := by
      unfold resolve at h
      dsimp only at h
      cases hresult : cuGetProcAddress loader v2 symbol cudaVersion flags with
      | none =>
        rw [hresult] at h
        cases h
      | some pointer =>
        rw [hresult] at h
        exact congrArg some h
    obtain ⟨hsame, returned, hreturned⟩ := cuGetProcAddress_real hdoc hpointer
    obtain ⟨replacement, hreplaced⟩ :=
      replaced_of_entry (hsame.symm.trans hentry) hparams loader returned cudaVersion flags
    exact absurd (hreplaced.symm.trans hreturned) nofun

end Lilt.Graph
