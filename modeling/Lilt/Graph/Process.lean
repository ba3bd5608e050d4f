import Lilt.Lib.Transition
import Lilt.Graph.Symbols
import Lilt.Graph.Registry

/-!
# Executable graphs of a BE process

The application instantiates, updates, destroys and launches executable graphs
through the functions it got hold of. Some of them are the proxy's wrappers, which
keep the list of graphs up to date, others the driver's own.

- `ExecObject`: what the driver knows of an executable graph.
- `ExecChange`: the updates of one.
- `GraphRequest`, `GraphAction`: the calls of the application.
- `GraphWorld.perform`: what a call does, by the function it goes to.
- `graphSystem`: the process as a transition system.
-/

namespace Lilt.Graph

open Transition

/-- What an executable graph runs a node with. -/
structure NodeSettings (ρ : Type) where
  params : ρ
  enabled : Bool

/-- An executable graph in the driver. -/
structure ExecObject (ν ρ : Type) where
  /-- The settings of the nodes of the graph it was instantiated from. -/
  settings : ν → Option (NodeSettings ρ)
  /-- It is a graphlet, whose handle the application does not know. -/
  internal : Bool
  /-- The nodes of the graphlets made for it: `clones k u` stands for `u`. -/
  clones : Nat → ν → ν

/-- An update of an executable graph. -/
inductive ExecChange (ν ρ : Type) where
  | nodeParams (kind : NodeKind) (node : ν) (params : ρ)
  | nodeEnabled (node : ν) (enabled : Bool)
  | execUpdate (settings : ν → NodeSettings ρ)

/-- The calls that concern executable graphs, with the handle the driver answers. -/
inductive GraphRequest (ν ρ : Type) where
  | instantiate (graph : CudaGraph ν) (params : ν → ρ) (flags : UInt64) (exec : CUgraphExec)
      (allocated : Bool) (api : GraphApi ν) (clones : Nat → ν → ν)
  | update (exec : CUgraphExec) (change : ExecChange ν ρ)
  | destroy (exec : CUgraphExec)
  | launch (exec : CUgraphExec)

def ExecChange.entry {ν ρ : Type} : ExecChange ν ρ → GraphEntry
  | .nodeParams kind _ _ => .nodeParams kind
  | .nodeEnabled _ _ => .nodeEnabled
  | .execUpdate _ => .execUpdate

/-- What the function has to be that serves the call. -/
def GraphRequest.entry {ν ρ : Type} : GraphRequest ν ρ → GraphEntry
  | .instantiate .. => .instantiate
  | .update _ change => change.entry
  | .destroy _ => .destroy
  | .launch _ => .launch

/-- The application calls the function it got for `symbol`. -/
structure GraphAction (ν ρ : Type) where
  route : Route
  symbol : String
  request : GraphRequest ν ρ
  /-- The driver reports success. -/
  ok : Bool

/-- The list of the proxy and the executable graphs of the driver. -/
structure GraphWorld (ν ρ : Type) where
  registry : List (GraphMetadata ν)
  execs : CUgraphExec → Option (ExecObject ν ρ)

/-- What the wrappers of the updates give as a reason. -/
def updateReasons : List (String × String) :=
  [("cuGraphExecKernelNodeSetParams", "kernel_params_update"),
    ("cuGraphExecMemcpyNodeSetParams", "memcpy_params_update"),
    ("cuGraphExecMemsetNodeSetParams", "memset_params_update"),
    ("cuGraphExecUpdate", "graph_exec_update"), ("cuGraphNodeSetEnabled", "node_enable_update"),
    ("cuGraphExecUpdate_v2", "graph_exec_update_v2")]

def updateReason (symbol : String) : Option String := updateReasons.lookup symbol

variable {ν ρ : Type} [DecidableEq ν]

/-- The driver's part of an update. -/
def ExecChange.apply (x : ExecObject ν ρ) : ExecChange ν ρ → ExecObject ν ρ
  | .nodeParams _ node params =>
    { x with settings := fun u =>
        if u = node then (x.settings u).map fun old => { old with params := params }
        else x.settings u }
  | .nodeEnabled node enabled =>
    { x with settings := fun u =>
        if u = node then (x.settings u).map fun old => { old with enabled := enabled }
        else x.settings u }
  | .execUpdate settings => { x with settings := fun u => (x.settings u).map fun _ => settings u }

@[simp] theorem ExecChange.apply_internal (x : ExecObject ν ρ) (change : ExecChange ν ρ) :
    (change.apply x).internal = x.internal := by cases change <;> rfl

@[simp] theorem ExecChange.apply_clones (x : ExecObject ν ρ) (change : ExecChange ν ρ) :
    (change.apply x).clones = x.clones := by cases change <;> rfl

/-- A new executable graph: all nodes are enabled and have the graph's parameters. -/
def newObject (graph : CudaGraph ν) (params : ν → ρ) (clones : Nat → ν → ν) :
    ExecObject ν ρ where
  settings := fun u => if u ∈ graph.nodes then some ⟨params u, true⟩ else none
  internal := false
  clones := clones

/-- A new executable graphlet: a node has the parameters of the node it stands for. -/
def graphletObject (graph : CudaGraph ν) (params : ν → ρ) (find : ν → ν)
    (graphlet : Graphlet ν) : ExecObject ν ρ where
  settings := fun w =>
    if w ∈ graphlet.graph.nodes then
      (graph.nodes.find? fun u => find u = w).map fun u => ⟨params u, true⟩
    else none
  internal := true
  clones := fun _ => id

/-- The graphlets from number `k` on are there. -/
def addGraphlets (graph : CudaGraph ν) (params : ν → ρ) (clones : Nat → ν → ν) :
    (k : Nat) → List (Graphlet ν) → (CUgraphExec → Option (ExecObject ν ρ)) →
    CUgraphExec → Option (ExecObject ν ρ)
  | _, [], execs => execs
  | k, graphlet :: graphlets, execs =>
    addGraphlets graph params clones (k + 1) graphlets
      (Function.update execs graphlet.exec
        (some (graphletObject graph params (clones k) graphlet)))

namespace GraphWorld

/-- The list has changed and graphlets are destroyed. -/
def bookkeep (s : GraphWorld ν ρ) (result : List (GraphMetadata ν) × List CUgraphExec) :
    GraphWorld ν ρ where
  registry := result.1
  execs := fun h => if h ∈ result.2 then none else s.execs h

/-- `lilt_graph_record` -/
def record (s : GraphWorld ν ρ) (cfg : GraphConfig) (graph : CudaGraph ν) (params : ν → ρ)
    (flags : UInt64) (exec : CUgraphExec) (allocated : Bool) (api : GraphApi ν)
    (clones : Nat → ν → ν) : GraphWorld ν ρ :=
  if exec = 0 || !allocated then s
  else
    let metadata := newMetadata cfg exec flags api
    bookkeep { s with execs := addGraphlets graph params clones 0 metadata.graphlets s.execs }
      (liltGraphRecord s.registry metadata)

/-- What the function `pointer` does for a call, if the driver reports `ok`. -/
def perform (s : GraphWorld ν ρ) (cfg : GraphConfig) (pointer : Pointer) (ok : Bool) :
    GraphRequest ν ρ → GraphWorld ν ρ
  | .instantiate graph params flags exec allocated api clones =>
    if ok then
      let s :=
        { s with execs := Function.update s.execs exec (some (newObject graph params clones)) }
      match pointer with
      | .proxy _ => s.record cfg graph params flags exec allocated api clones
      | _ => s
    else s
  | .update exec change =>
    if ok then
      let s := { s with execs := Function.update s.execs exec ((s.execs exec).map change.apply) }
      match pointer with
      | .proxy symbol =>
        s.bookkeep (liltGraphInvalidate s.registry exec (updateReason symbol))
      | _ => s
    else s
  | .destroy exec =>
    let s :=
      match pointer with
      | .proxy _ => s.bookkeep (liltGraphForget s.registry exec)
      | _ => s
    if ok then { s with execs := Function.update s.execs exec none } else s
  | .launch _ => s

/-- The handle is one of an executable graph that the application made. -/
def Owned (s : GraphWorld ν ρ) (exec : CUgraphExec) : Prop :=
  ∃ x, s.execs exec = some x ∧ x.internal = false

/-- The driver reports success only for what is there, and it answers handles that
are not in use. -/
def Allowed (cfg : GraphConfig) (s : GraphWorld ν ρ) : GraphRequest ν ρ → Prop
  | .instantiate graph _ flags exec _ api clones =>
    exec ≠ 0 ∧ s.execs exec = none ∧ api.Describes graph clones ∧
      ∀ graphlets, graphBuildGraphlets cfg.graphletMaxNodes flags api = .ok graphlets →
        (exec :: graphlets.map Graphlet.exec).Nodup ∧
          ∀ graphlet ∈ graphlets, graphlet.exec ≠ 0 ∧ s.execs graphlet.exec = none
  | .update exec change =>
    ∃ x, s.execs exec = some x ∧ x.internal = false ∧
      match change with
      | .nodeParams _ node _ => (x.settings node).isSome
      | .nodeEnabled node _ => (x.settings node).isSome
      | .execUpdate _ => True
  | .destroy exec => s.Owned exec
  | .launch exec => s.Owned exec

end GraphWorld

/-- A call of the application to the function it got. -/
inductive GraphStep (cfg : GraphConfig) (loader : Loader) :
    GraphWorld ν ρ → GraphAction ν ρ → GraphWorld ν ρ → Prop where
  | call {s : GraphWorld ν ρ} {a : GraphAction ν ρ} :
      (resolve loader a.route a.symbol).entry = some a.request.entry →
      (a.ok = true → s.Allowed cfg a.request) →
      GraphStep cfg loader s a (s.perform cfg (resolve loader a.route a.symbol) a.ok a.request)

/-- A process that has no executable graphs yet. -/
def noGraphs (ν ρ : Type) : GraphWorld ν ρ where
  registry := []
  execs := fun _ => none

/-- A process that starts without executable graphs. -/
def graphSystem (cfg : GraphConfig) (loader : Loader) :
    System (GraphWorld ν ρ) (GraphAction ν ρ) where
  Init s := s = noGraphs ν ρ
  Step := GraphStep cfg loader

end Lilt.Graph
