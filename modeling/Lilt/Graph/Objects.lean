import Lilt.Lib.Ledger
import Lilt.Lib.Transition
import Lilt.Graph.Registry

/-!
# The driver objects of the recorded graphs

The graphs are cloned and instantiated one graphlet after the other, in an array of
handles that starts out as `NULL`, and the array is given up as a whole: when a
graphlet cannot be made, when the graph is updated, recorded again or destroyed. Here
the handles of the clones are kept as well, and every call that creates or destroys an
object of the driver is logged. A call that fails creates nothing.

- `makeGraphlet`, `makeGraphlets`: the loop over the graphlets, with what it leaves
  behind where it fails.
- `OwnedRegistry.liltGraphRecord`, `OwnedRegistry.liltGraphInvalidate`,
  `OwnedRegistry.liltGraphForget`: the functions that change the list.
- `ownedSystem`: all sequences of these calls, whatever the driver and the allocator
  answer.
- `Tracks`: the lists of `Registry` are these without the clones; `perform_tracks`.
-/

namespace Lilt.Graph

open Checks Keyed Ledger Transition

/-- A `CUgraph` value; `0` is `NULL`. -/
abbrev CUgraph := Nat

/-- The objects that are made for graphlets. -/
inductive GraphObject where
  | graph (h : CUgraph)
  | exec (h : CUgraphExec)
  deriving DecidableEq

def GraphObject.handle : GraphObject → Nat
  | .graph h => h
  | .exec h => h

/-- `graph` and `exec` of `lilt_graphlet_t`. -/
structure GraphletHandles where
  graph : CUgraph
  exec : CUgraphExec

/-- A cell of the array as `calloc` returns it. -/
def GraphletHandles.null : GraphletHandles := ⟨0, 0⟩

/-- What a cell holds, in the order it is destroyed in. -/
def GraphletHandles.objects (g : GraphletHandles) : List GraphObject :=
  (if g.exec ≠ 0 then [.exec g.exec] else []) ++ if g.graph ≠ 0 then [.graph g.graph] else []

/-- `graph_destroy_graphlets` -/
def graphDestroyGraphlets (graphlets : List GraphletHandles) : List (Event GraphObject) :=
  (graphlets.flatMap GraphletHandles.objects).map .destroy

section

variable {ν : Type} [DecidableEq ν]

/-- `graph_build_graphlets` up to the loop over the graphlets: the nodes, their layers
and the ranges of the graphlets. -/
def planGraphlets (limit : Nat) (flags : UInt64) (api : GraphApi ν) :
    Except FallbackReason (List ν × (Nat → Nat) × List LayerRange) := do
  require api.present .missingDriverApi
  let nodeCount ← demand api.nodeCount .emptyOrUnreadable
  require (nodeCount ≠ 0) .emptyOrUnreadable
  require (flags &&& instantiateFlagDeviceLaunch = 0) .deviceLaunch
  require api.nodeArraysAllocated .allocationFailure
  let nodes ← demand api.nodes .nodeQueryFailure
  require (nodes.length = nodeCount) .nodeQueryFailure
  require (nodes.all fun node => (api.nodeType node).any graphNodeSupported) .unsupportedNode
  let edges ← queryEdges api
  let (layers, layerCount) ← graphLayers nodes edges
  require api.graphletsAllocated .allocationFailure
  return (nodes, layers, groupLayers limit (layerNodes nodes.length layers) layerCount)

/-- The calls that make an executable graphlet of a clone. -/
def instantiateGraphlet (api : CloneApi ν) (flags : UInt64) (nodes : List ν) (layers : Nat → Nat)
    (range : LayerRange) (clone : CudaGraph ν) : Except FallbackReason CUgraphExec := do
  require api.allocated .allocationFailure
  let clonedNodes ← findClones api nodes
  let _ ← pruneClone api range layers 0 clonedNodes clone
  demand (graphInstantiateClone api flags) .graphletInstantiateFailure

/-- What a turn or all turns of the loop over the graphlets leave behind. -/
structure MadeGraphlets (α : Type) where
  graphlets : α
  events : List (Event GraphObject)
  failure : Option FallbackReason

/-- One turn; `clone` is the handle that `cuGraphClone` gives if it succeeds. -/
def makeGraphlet (api : CloneApi ν) (clone : CUgraph) (flags : UInt64) (nodes : List ν)
    (layers : Nat → Nat) (range : LayerRange) : MadeGraphlets GraphletHandles :=
  match api.cloneGraph with
  | none => ⟨.null, [], some .cloneFailure⟩
  | some graph =>
    match instantiateGraphlet api flags nodes layers range graph with
    | .ok exec => ⟨⟨clone, exec⟩, [.create (.graph clone), .create (.exec exec)], none⟩
    | .error reason => ⟨⟨clone, 0⟩, [.create (.graph clone)], some reason⟩

/-- The loop over the graphlets, from `group` on. -/
def makeGraphlets (api : GraphApi ν) (clones : Nat → CUgraph) (flags : UInt64) (nodes : List ν)
    (layers : Nat → Nat) : (group : Nat) → List LayerRange → MadeGraphlets (List GraphletHandles)
  | _, [] => ⟨[], [], none⟩
  | group, range :: ranges =>
    let made := makeGraphlet (api.clones group) (clones group) flags nodes layers range
    match made.failure with
    | some reason =>
      -- the cells behind it are as they were allocated
      ⟨made.graphlets :: ranges.map fun _ => .null, made.events, some reason⟩
    | none =>
      let rest := makeGraphlets api clones flags nodes layers (group + 1) ranges
      ⟨made.graphlets :: rest.graphlets, made.events ++ rest.events, rest.failure⟩

end

/-- The fields of `lilt_graph_metadata_t` that the objects depend on. -/
structure OwnedMetadata where
  originalExec : CUgraphExec
  splittable : Bool
  fallbackReason : String
  graphlets : List GraphletHandles

/-- What an entry holds. -/
def OwnedMetadata.objects (m : OwnedMetadata) : List GraphObject :=
  m.graphlets.flatMap GraphletHandles.objects

/-- The entry behind `graph_destroy_graphlets` and `graph_set_fallback`. -/
def OwnedMetadata.fallback (m : OwnedMetadata) (reason : String) : OwnedMetadata :=
  { m with graphlets := [], splittable := false, fallbackReason := reason }

/-- The answers to the calls that `lilt_graph_record` makes. -/
structure RecordAnswers (ν : Type) where
  api : GraphApi ν
  /-- The handles of the clones. -/
  clones : Nat → CUgraph

/-- The entry that `lilt_graph_record` makes, and the calls for its graphlets. -/
def madeMetadata {ν : Type} [DecidableEq ν] (cfg : GraphConfig) (exec : CUgraphExec)
    (flags : UInt64) (o : RecordAnswers ν) : OwnedMetadata × List (Event GraphObject) :=
  let whole (reason : String) : OwnedMetadata :=
    { originalExec := exec, splittable := false, fallbackReason := reason, graphlets := [] }
  if cfg.splits then
    match planGraphlets cfg.graphletMaxNodes flags o.api with
    | .error reason => (whole reason.text, [])
    | .ok (nodes, layers, ranges) =>
      let made := makeGraphlets o.api o.clones flags nodes layers 0 ranges
      match made.failure with
      | some reason => (whole reason.text, made.events ++ graphDestroyGraphlets made.graphlets)
      | none =>
        ({ originalExec := exec, splittable := true, fallbackReason := ""
           graphlets := made.graphlets }, made.events)
  else (whole "whole_mode", [])

/-- `g_graph_metadata`, and the calls that created and destroyed objects. -/
structure OwnedRegistry where
  entries : List OwnedMetadata
  log : List (Event GraphObject)

namespace OwnedRegistry

/-- What the entries hold. -/
def objects (s : OwnedRegistry) : List GraphObject := s.entries.flatMap OwnedMetadata.objects

/-- `graph_find_locked` -/
def find (s : OwnedRegistry) (exec : CUgraphExec) : Option OwnedMetadata :=
  Keyed.find OwnedMetadata.originalExec exec s.entries

/-- Unlinking the entry of `exec`, if there is one, and destroying its graphlets. -/
def unlink (s : OwnedRegistry) (exec : CUgraphExec) : OwnedRegistry where
  entries := erase OwnedMetadata.originalExec exec s.entries
  log := s.log ++ ((s.find exec).map fun m => graphDestroyGraphlets m.graphlets).getD []

/-- `lilt_graph_record`, if the entry can be allocated. -/
def liltGraphRecord {ν : Type} [DecidableEq ν] (cfg : GraphConfig) (s : OwnedRegistry)
    (exec : CUgraphExec) (graph : CUgraph) (flags : UInt64) (o : RecordAnswers ν) :
    OwnedRegistry :=
  if exec = 0 ∨ graph = 0 then s
  else
    let (metadata, events) := madeMetadata cfg exec flags o
    let s := { s with log := s.log ++ events }.unlink exec
    { s with entries := metadata :: s.entries }

/-- `lilt_graph_invalidate` -/
def liltGraphInvalidate (s : OwnedRegistry) (exec : CUgraphExec) (reason : Option String) :
    OwnedRegistry :=
  if exec = 0 then s
  else
    match s.find exec with
    | some metadata =>
      if metadata.splittable then
        { entries := update OwnedMetadata.originalExec exec (·.fallback (reason.getD "updated"))
            s.entries
          log := s.log ++ graphDestroyGraphlets metadata.graphlets }
      else s
    | none => s

/-- `lilt_graph_forget` -/
def liltGraphForget (s : OwnedRegistry) (exec : CUgraphExec) : OwnedRegistry :=
  if exec = 0 then s else s.unlink exec

end OwnedRegistry

/-- The calls that change the list. -/
inductive RegistryAction (ν : Type) where
  | record (exec : CUgraphExec) (graph : CUgraph) (flags : UInt64) (answers : RecordAnswers ν)
  | invalidate (exec : CUgraphExec) (reason : Option String)
  | forget (exec : CUgraphExec)

def RegistryAction.exec {ν : Type} : RegistryAction ν → CUgraphExec
  | .record exec _ _ _ => exec
  | .invalidate exec _ => exec
  | .forget exec => exec

section

variable {ν : Type} [DecidableEq ν]

def OwnedRegistry.perform (cfg : GraphConfig) (s : OwnedRegistry) :
    RegistryAction ν → OwnedRegistry
  | .record exec graph flags answers => s.liltGraphRecord cfg exec graph flags answers
  | .invalidate exec reason => s.liltGraphInvalidate exec reason
  | .forget exec => s.liltGraphForget exec

/-- The driver gives a new object a handle that is not `NULL` and that no object has. -/
structure DriverNames (log : List (Event GraphObject)) : Prop where
  fresh : Fresh log
  notNull : ∀ k, .create k ∈ log → k.handle ≠ 0

/-- All sequences of the calls. -/
def ownedSystem (cfg : GraphConfig) : System OwnedRegistry (RegistryAction ν) where
  Init s := s = ⟨[], []⟩
  Step s a t := t = s.perform cfg a ∧ DriverNames t.log

/-! ## The lists without the clones -/

theorem graphBuildGraphlets_plan (limit : Nat) (flags : UInt64) (api : GraphApi ν) :
    graphBuildGraphlets limit flags api =
      planGraphlets limit flags api >>= fun plan =>
        buildGraphlets api flags plan.1 plan.2.1 0 plan.2.2 := by
  unfold graphBuildGraphlets planGraphlets
  simp only [bind_assoc]
  iterate 9 refine bind_congr fun _ => ?_
  refine bind_congr fun layering => ?_
  obtain ⟨layers, layerCount⟩ := layering
  simp only [pure_bind]

/-- The result of a build is a failure, or graphlets with the handles `execs`. -/
def SameOutcome (outcome : Except FallbackReason (List CUgraphExec))
    (failure : Option FallbackReason) (execs : List CUgraphExec) : Prop :=
  match outcome with
  | .ok built => failure = none ∧ execs = built
  | .error reason => failure = some reason

/-- A turn of the loop makes the graphlet that `buildGraphlet` makes. -/
theorem makeGraphlet_outcome (api : CloneApi ν) (clone : CUgraph) (flags : UInt64)
    (nodes : List ν) (layers : Nat → Nat) (range : LayerRange) :
    let made := makeGraphlet api clone flags nodes layers range
    SameOutcome ((buildGraphlet api flags nodes layers range).map fun g => [g.exec]) made.failure
      [made.graphlets.exec] := by
  unfold makeGraphlet buildGraphlet instantiateGraphlet
  cases api.cloneGraph with
  | none => rfl
  | some graph =>
    cases api.allocated with
    | false => rfl
    | true =>
      cases hfind : findClones api nodes with
      | error reason => rfl
      | ok clonedNodes =>
        cases hprune : pruneClone api range layers 0 clonedNodes graph with
        | error reason => simp [SameOutcome, hprune, bind, Except.bind, Except.map]
        | ok pruned =>
          cases graphInstantiateClone api flags with
          | none => simp [SameOutcome, hprune, demand, bind, Except.bind, Except.map]
          | some exec =>
            simp [SameOutcome, hprune, bind, Except.bind, Except.map, pure, Except.pure]

theorem makeGraphlets_outcome (api : GraphApi ν) (clones : Nat → CUgraph) (flags : UInt64)
    (nodes : List ν) (layers : Nat → Nat) (group : Nat) (ranges : List LayerRange) :
    let made := makeGraphlets api clones flags nodes layers group ranges
    SameOutcome ((buildGraphlets api flags nodes layers group ranges).map
      (List.map Graphlet.exec)) made.failure (made.graphlets.map GraphletHandles.exec) := by
  induction ranges generalizing group with
  | nil => exact ⟨rfl, rfl⟩
  | cons range ranges ih =>
    have hone := makeGraphlet_outcome (api.clones group) (clones group) flags nodes layers range
    have hrest := ih (group + 1)
    unfold makeGraphlets buildGraphlets
    dsimp only at hone hrest ⊢
    cases hbuilt : buildGraphlet (api.clones group) flags nodes layers range with
    | error reason =>
      rw [hbuilt] at hone
      rw [show (makeGraphlet _ _ _ _ _ _).failure = some reason from hone]
      rfl
    | ok graphlet =>
      rw [hbuilt] at hone
      obtain ⟨hfailure, hexec⟩ := hone
      rw [hfailure]
      cases hbuilt' : buildGraphlets api flags nodes layers (group + 1) ranges with
      | error reason =>
        rw [hbuilt'] at hrest
        exact hrest
      | ok graphlets =>
        rw [hbuilt'] at hrest
        obtain ⟨hfailure', hexecs⟩ := hrest
        refine ⟨hfailure', ?_⟩
        rw [List.map_cons, hexecs, List.singleton_inj.mp hexec]
        rfl

/-- The entry `o` is the entry `m` with the handles of its clones. -/
structure Tracks (m : GraphMetadata ν) (o : OwnedMetadata) : Prop where
  originalExec : o.originalExec = m.originalExec
  splittable : o.splittable = m.splittable
  fallbackReason : o.fallbackReason = m.fallbackReason
  handles : o.graphlets.map GraphletHandles.exec = m.handles

/-- Both models of `lilt_graph_record` make the same entry. -/
theorem madeMetadata_tracks (cfg : GraphConfig) (exec : CUgraphExec) (flags : UInt64)
    (o : RecordAnswers ν) :
    Tracks (newMetadata cfg exec flags o.api) (madeMetadata cfg exec flags o).1 := by
  unfold newMetadata madeMetadata
  dsimp only
  split
  next hsplits =>
    rw [graphBuildGraphlets_plan]
    cases planGraphlets cfg.graphletMaxNodes flags o.api with
    | error reason => exact ⟨rfl, rfl, rfl, rfl⟩
    | ok plan =>
      obtain ⟨nodes, layers, ranges⟩ := plan
      have houtcome := makeGraphlets_outcome o.api o.clones flags nodes layers 0 ranges
      dsimp only [bind, Except.bind] at houtcome ⊢
      cases hbuilt : buildGraphlets o.api flags nodes layers 0 ranges with
      | error reason =>
        rw [hbuilt] at houtcome
        rw [show (makeGraphlets _ _ _ _ _ _ _).failure = some reason from houtcome]
        exact ⟨rfl, rfl, rfl, rfl⟩
      | ok graphlets =>
        rw [hbuilt] at houtcome
        obtain ⟨hfailure, hexecs⟩ := houtcome
        rw [hfailure]
        exact ⟨rfl, rfl, rfl, hexecs⟩
  next => exact ⟨rfl, rfl, rfl, rfl⟩

/-- The call as `Registry` has it. -/
def RegistryAction.onRegistry (cfg : GraphConfig) (registry : List (GraphMetadata ν)) :
    RegistryAction ν → List (GraphMetadata ν)
  | .record exec graph flags answers =>
    if exec = 0 ∨ graph = 0 then registry
    else (Graph.liltGraphRecord registry (newMetadata cfg exec flags answers.api)).1
  | .invalidate exec reason => (Graph.liltGraphInvalidate registry exec reason).1
  | .forget exec => (Graph.liltGraphForget registry exec).1

/-- The lists stay the same but for the clones. -/
theorem perform_tracks (cfg : GraphConfig) {registry : List (GraphMetadata ν)}
    {s : OwnedRegistry} (h : List.Forall₂ Tracks registry s.entries) (a : RegistryAction ν) :
    List.Forall₂ Tracks (a.onRegistry cfg registry) (s.perform cfg a).entries := by
  have hkey : ∀ (m : GraphMetadata ν) o, Tracks m o → o.originalExec = m.originalExec :=
    fun _ _ ht => ht.originalExec
  cases a with
  | record exec graph flags answers =>
    unfold RegistryAction.onRegistry OwnedRegistry.perform OwnedRegistry.liltGraphRecord
    dsimp only
    split
    · exact h
    · have hmade := madeMetadata_tracks cfg exec flags answers
      have hexec : (newMetadata cfg exec flags answers.api).originalExec = exec := by
        unfold newMetadata
        dsimp only
        split
        · split <;> rfl
        · rfl
      refine .cons hmade ?_
      rw [hexec]
      exact forall₂_erase hkey h
  | invalidate exec reason =>
    have hfind := forall₂_find (k := exec) hkey h
    unfold RegistryAction.onRegistry OwnedRegistry.perform Graph.liltGraphInvalidate
      OwnedRegistry.liltGraphInvalidate
    dsimp only
    split
    · exact h
    · change Option.Rel Tracks (graphFindLocked registry exec) (s.find exec) at hfind
      generalize graphFindLocked registry exec = found at hfind ⊢
      generalize s.find exec = found' at hfind ⊢
      cases hfind with
      | none => exact h
      | @some m o ht =>
        rw [Option.any_some]
        dsimp only
        rw [ht.splittable]
        split
        · exact forall₂_update hkey (fun _ _ ht => ⟨ht.originalExec, rfl, rfl, rfl⟩) h
        · exact h
  | forget exec =>
    unfold RegistryAction.onRegistry OwnedRegistry.perform Graph.liltGraphForget
      OwnedRegistry.liltGraphForget
    dsimp only
    split
    · exact h
    · exact forall₂_erase hkey h

end

end Lilt.Graph
