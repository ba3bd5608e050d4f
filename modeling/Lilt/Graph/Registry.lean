import Lilt.Lib.Keyed
import Lilt.Graph.Launch

/-!
# The recorded graphs (`g_graph_metadata`)

Each executable graph of the application has an entry in a list. The functions that
change the list also destroy graphlets; the handles they destroy are their second
result.

- `newMetadata`, `liltGraphRecord`: the entry of a new executable graph.
- `liltGraphInvalidate`: the graph is not split any more.
- `liltGraphForget`: the graph is destroyed.
-/

namespace Lilt.Graph

open Keyed

variable {ν : Type}

/-- `graph_find_locked` -/
def graphFindLocked (registry : List (GraphMetadata ν)) (exec : CUgraphExec) :
    Option (GraphMetadata ν) :=
  find GraphMetadata.originalExec exec registry

/-- The executable graphlets of an entry. -/
def GraphMetadata.handles (metadata : GraphMetadata ν) : List CUgraphExec :=
  metadata.graphlets.map Graphlet.exec

/-- `graph_destroy_graphlets`, and `graph_set_fallback` behind it. -/
def GraphMetadata.destroyGraphlets (metadata : GraphMetadata ν) (reason : String) :
    GraphMetadata ν :=
  { metadata with graphlets := [], splittable := false, fallbackReason := reason }

/-- The graphlets that are destroyed with the entry of `exec`. -/
def graphHandles (registry : List (GraphMetadata ν)) (exec : CUgraphExec) : List CUgraphExec :=
  match graphFindLocked registry exec with
  | some metadata => metadata.handles
  | none => []

section

variable [DecidableEq ν]

/-- The entry that `lilt_graph_record` makes. -/
def newMetadata (cfg : GraphConfig) (exec : CUgraphExec) (flags : UInt64) (api : GraphApi ν) :
    GraphMetadata ν :=
  if cfg.splits then
    let nodeCount := if api.present then api.nodeCount.getD 0 else 0
    match graphBuildGraphlets cfg.graphletMaxNodes flags api with
    | .ok graphlets =>
      { originalExec := exec, nodeCount := nodeCount, instantiateFlags := flags
        splittable := true, fallbackReason := "", graphlets := graphlets }
    | .error reason =>
      { originalExec := exec, nodeCount := nodeCount, instantiateFlags := flags
        splittable := false, fallbackReason := reason.text, graphlets := [] }
  else
    { originalExec := exec, nodeCount := api.nodeCount.getD 0, instantiateFlags := flags
      splittable := false, fallbackReason := "whole_mode", graphlets := [] }

end

/-- What `lilt_graph_record` does with the new entry. -/
def liltGraphRecord (registry : List (GraphMetadata ν)) (metadata : GraphMetadata ν) :
    List (GraphMetadata ν) × List CUgraphExec :=
  (metadata :: erase GraphMetadata.originalExec metadata.originalExec registry,
    graphHandles registry metadata.originalExec)

/-- `lilt_graph_invalidate`; `reason` may be `NULL`. -/
def liltGraphInvalidate (registry : List (GraphMetadata ν)) (exec : CUgraphExec)
    (reason : Option String) : List (GraphMetadata ν) × List CUgraphExec :=
  if exec = 0 then (registry, [])
  else if (graphFindLocked registry exec).any GraphMetadata.splittable then
    (update GraphMetadata.originalExec exec (·.destroyGraphlets (reason.getD "updated")) registry,
      graphHandles registry exec)
  else (registry, [])

/-- `lilt_graph_forget` -/
def liltGraphForget (registry : List (GraphMetadata ν)) (exec : CUgraphExec) :
    List (GraphMetadata ν) × List CUgraphExec :=
  if exec = 0 then (registry, [])
  else (erase GraphMetadata.originalExec exec registry, graphHandles registry exec)

end Lilt.Graph
