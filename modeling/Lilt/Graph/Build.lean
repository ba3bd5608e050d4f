import Lilt.Lib.Checks
import Lilt.Graph.CudaGraph
import Lilt.Graph.Layering
import Lilt.Graph.Grouping

/-!
# Building the graphlets of a graph (`graph_build_graphlets`)

Every graphlet is a clone of the whole graph from which the nodes of the other
layers are destroyed. What the driver and the allocator answer is a parameter; an
answer that is not there is a call that failed.

- `GraphApi`, `CloneApi`: the answers.
- `pruneClone`, `buildGraphlet`, `buildGraphlets`: the loops over the clones.
- `graphBuildGraphlets`: the whole function, with its reasons to fall back.
- `GraphApi.Describes`: the answers are about the graph, and its clones are copies.
- `graphBuildGraphlets_ok`: the graphlets are the parts that the ranges leave.
- `graphBuildGraphlets_stages`: where nothing wraps they are stages of the graph.
-/

namespace Lilt.Graph

open Relation Stages Checks

/-- `CUgraphNodeType` -/
inductive CUgraphNodeType where
  | kernel
  | memcpy
  | memset
  | host
  | graph
  | empty
  | count
  deriving DecidableEq

/-- `graph_node_supported` -/
def graphNodeSupported (type : CUgraphNodeType) : Bool :=
  type = .kernel || type = .memcpy || type = .memset || type = .empty

/-- A `CUgraphExec` value; `0` is `NULL`. -/
abbrev CUgraphExec := Nat

/-- `LILT_GRAPH_INSTANTIATE_FLAG_UPLOAD` -/
def instantiateFlagUpload : UInt64 := 2

/-- `LILT_GRAPH_INSTANTIATE_FLAG_DEVICE_LAUNCH` -/
def instantiateFlagDeviceLaunch : UInt64 := 4

/-- `lilt_graphlet_t` -/
structure Graphlet (ν : Type) extends LayerRange where
  graph : CudaGraph ν
  exec : CUgraphExec

/-- The answers to the calls that make one graphlet. -/
structure CloneApi (ν : Type) where
  cloneGraph : Option (CudaGraph ν)
  allocated : Bool
  findClone : ν → Option ν
  destroyNode : ν → Bool
  /-- `cuGraphInstantiateWithFlags`, if the driver has it. -/
  instantiateWithFlags : Option (UInt64 → Option CUgraphExec)
  /-- `cuGraphInstantiate_v2`, if the driver has it. -/
  instantiateLegacy : Option (Option CUgraphExec)

/-- The answers to the calls of `graph_build_graphlets`. -/
structure GraphApi (ν : Type) where
  /-- The driver has all the entry points. -/
  present : Bool
  nodeCount : Option Nat
  nodeArraysAllocated : Bool
  nodes : Option (List ν)
  nodeType : ν → Option CUgraphNodeType
  edgeCount : Option Nat
  edgeArraysAllocated : Bool
  edges : Option (List (ν × ν))
  graphletsAllocated : Bool
  clones : Nat → CloneApi ν

/-- `graph_instantiate_clone` -/
def graphInstantiateClone {ν : Type} (api : CloneApi ν) (flags : UInt64) : Option CUgraphExec :=
  match api.instantiateWithFlags with
  | some instantiate => instantiate (flags &&& ~~~instantiateFlagUpload)
  | none => if flags = 0 then api.instantiateLegacy.join else none

variable {ν : Type} [DecidableEq ν]

/-- The loop that maps the nodes into the clone. -/
def findClones (api : CloneApi ν) : List ν → Except FallbackReason (List ν)
  | [] => .ok []
  | node :: nodes => do
    let clonedNode ← demand (api.findClone node) .cloneMappingFailure
    let clonedNodes ← findClones api nodes
    return clonedNode :: clonedNodes

/-- The node at index `i` is of another graphlet. -/
def LayerRange.excludes (range : LayerRange) (layers : Nat → Nat) (i : Nat) : Bool :=
  layers i < range.firstLayer || range.lastLayer < layers i

/-- The loop that destroys the nodes of the other layers, from index `i` on. -/
def pruneClone (api : CloneApi ν) (range : LayerRange) (layers : Nat → Nat) (i : Nat) :
    List ν → CudaGraph ν → Except FallbackReason (CudaGraph ν)
  | [], clone => .ok clone
  | clonedNode :: clonedNodes, clone =>
    if range.excludes layers i then do
      require (api.destroyNode clonedNode) .clonePruneFailure
      pruneClone api range layers (i + 1) clonedNodes (clone.destroyNode clonedNode)
    else pruneClone api range layers (i + 1) clonedNodes clone

/-- One turn of the loop over the graphlets. -/
def buildGraphlet (api : CloneApi ν) (flags : UInt64) (nodes : List ν) (layers : Nat → Nat)
    (range : LayerRange) : Except FallbackReason (Graphlet ν) := do
  let clone ← demand api.cloneGraph .cloneFailure
  require api.allocated .allocationFailure
  let clonedNodes ← findClones api nodes
  let graph ← pruneClone api range layers 0 clonedNodes clone
  let exec ← demand (graphInstantiateClone api flags) .graphletInstantiateFailure
  return { range with graph := graph, exec := exec }

/-- The loop over the graphlets, from `group` on. -/
def buildGraphlets (api : GraphApi ν) (flags : UInt64) (nodes : List ν) (layers : Nat → Nat) :
    (group : Nat) → List LayerRange → Except FallbackReason (List (Graphlet ν))
  | _, [] => .ok []
  | group, range :: ranges => do
    let graphlet ← buildGraphlet (api.clones group) flags nodes layers range
    let graphlets ← buildGraphlets api flags nodes layers (group + 1) ranges
    return graphlet :: graphlets

/-- `layer_nodes` of a layer. -/
def layerNodes (nodeCount : Nat) (layers : Nat → Nat) (layer : Nat) : Nat :=
  (List.range nodeCount).countP fun i => layers i = layer

/-- The edge arrays; there is no second query when there is no edge. -/
def queryEdges (api : GraphApi ν) : Except FallbackReason (List (ν × ν)) := do
  let edgeCount ← demand api.edgeCount .edgeQueryFailure
  if edgeCount = 0 then return []
  else
    require api.edgeArraysAllocated .allocationFailure
    let edges ← demand api.edges .edgeQueryFailure
    require (edges.length = edgeCount) .edgeQueryFailure
    return edges

/-- `graph_build_graphlets`; `limit` is `g_graphlet_max_nodes`. -/
def graphBuildGraphlets (limit : Nat) (flags : UInt64) (api : GraphApi ν) :
    Except FallbackReason (List (Graphlet ν)) := do
  require api.present .missingDriverApi
  let nodeCount ← demand api.nodeCount .emptyOrUnreadable
  require (nodeCount ≠ 0) .emptyOrUnreadable
  require (flags &&& instantiateFlagDeviceLaunch = 0) .deviceLaunch
  require api.nodeArraysAllocated .allocationFailure
  let nodes ← demand api.nodes .nodeQueryFailure
  require (nodes.length = nodeCount) .nodeQueryFailure
  require (nodes.all fun node => (api.nodeType node).any graphNodeSupported) .unsupportedNode
  let edges ← queryEdges api
  let (layers, layerCount) ← graphLayers nodes edges
  require api.graphletsAllocated .allocationFailure
  buildGraphlets api flags nodes layers 0
    (groupLayers limit (layerNodes nodes.length layers) layerCount)

/-! ## The clones -/

/-- The answers are about `g`: the arrays are those of the graph, and each clone is
an isomorphic copy with `cuGraphNodeFindInClone` as the isomorphism. -/
structure GraphApi.Describes (api : GraphApi ν) (g : CudaGraph ν) (find : Nat → ν → ν) :
    Prop where
  nodes : ∀ nodes, api.nodes = some nodes → nodes = g.nodes
  edgeCount : ∀ edgeCount, api.edgeCount = some edgeCount → edgeCount = g.edges.length
  edges : ∀ edges, api.edges = some edges → edges = g.edges
  cloneGraph : ∀ k clone, (api.clones k).cloneGraph = some clone → IsClone g (find k) clone
  findClone : ∀ k, ∀ u ∈ g.nodes, ∀ v, (api.clones k).findClone u = some v → v = find k u

section

variable {g clone graph : CudaGraph ν} {f : ν → ν} {api : CloneApi ν}

omit [DecidableEq ν] in
theorem findClones_ok {us clonedNodes : List ν}
    (hfind : ∀ u ∈ us, ∀ v, api.findClone u = some v → v = f u)
    (h : findClones api us = .ok clonedNodes) : clonedNodes = us.map f := by
  induction us generalizing clonedNodes with
  | nil => exact (Except.ok.inj h).symm
  | cons u us ih =>
    obtain ⟨v, hv, h⟩ := demand_bind h
    obtain ⟨vs, hvs, h⟩ := bind_ok h
    obtain ⟨hu, hus⟩ := List.forall_mem_cons.mp hfind
    obtain rfl := hu v hv
    obtain rfl := ih hus hvs
    exact (Except.ok.inj h).symm

/-- Pruning takes the nodes of the other layers out of the clone. -/
theorem pruneClone_ok {range : LayerRange} {layers : Nat → Nat} {keep : ν → Bool} {i : Nat}
    {us : List ν} (hpart : IsPart g keep f clone)
    (hindex : ∀ j u, us[j]? = some u → u ∈ g.nodes ∧ g.nodes.idxOf u = i + j)
    (h : pruneClone api range layers i (us.map f) clone = .ok graph) :
    IsPart g
      (fun w => keep w && !(decide (w ∈ us) && range.excludes layers (g.nodes.idxOf w))) f
      graph := by
  induction us generalizing clone keep i with
  | nil =>
    obtain rfl := Except.ok.inj h
    exact hpart.congr fun w _ => by simp
  | cons u us ih =>
    obtain ⟨hu, hi⟩ := hindex 0 u rfl
    -- the loop counter is the index of the node, as `layers` has it
    have hrest : ∀ j w, us[j]? = some w → w ∈ g.nodes ∧ g.nodes.idxOf w = i + 1 + j := by
      intro j w hj
      obtain ⟨hw, heq⟩ := hindex (j + 1) w hj
      exact ⟨hw, by omega⟩
    unfold List.map pruneClone at h
    split at h
    next hexcluded =>
      obtain ⟨-, h⟩ := require_bind h
      refine (ih (hpart.destroyNode hu) hrest h).congr fun w _ => ?_
      by_cases hw : w = u
      · subst hw
        simp [hi, hexcluded]
      · simp [hw]
    next hkept =>
      refine (ih hpart hrest h).congr fun w _ => ?_
      by_cases hw : w = u
      · subst hw
        simp [hi, hkept]
      · simp [hw]

/-- A graphlet is the part of the graph in its layers. -/
theorem buildGraphlet_ok {flags : UInt64} {layers : Nat → Nat} {range : LayerRange}
    {graphlet : Graphlet ν} (hclone : ∀ clone, api.cloneGraph = some clone → IsClone g f clone)
    (hfind : ∀ u ∈ g.nodes, ∀ v, api.findClone u = some v → v = f u)
    (h : buildGraphlet api flags g.nodes layers range = .ok graphlet) :
    graphlet.toLayerRange = range ∧
      IsPart g (fun u => !range.excludes layers (g.nodes.idxOf u)) f graphlet.graph := by
  obtain ⟨clone, hcloned, h⟩ := demand_bind h
  obtain ⟨-, h⟩ := require_bind h
  obtain ⟨clonedNodes, hclonedNodes, h⟩ := bind_ok h
  obtain ⟨graph, hgraph, h⟩ := bind_ok h
  obtain ⟨exec, -, h⟩ := demand_bind h
  obtain rfl := Except.ok.inj h
  obtain rfl := findClones_ok hfind hclonedNodes
  have hindex : ∀ j u, g.nodes[j]? = some u → u ∈ g.nodes ∧ g.nodes.idxOf u = 0 + j := by
    intro j u hj
    obtain ⟨hlt, rfl⟩ := List.getElem?_eq_some_iff.mp hj
    exact ⟨List.getElem_mem hlt, by rw [g.nodup.idxOf_getElem j hlt, Nat.zero_add]⟩
  refine ⟨rfl, (pruneClone_ok (hclone clone hcloned) hindex hgraph).congr fun u hu => ?_⟩
  simp [hu]

end

theorem buildGraphlets_ok {api : GraphApi ν} {flags : UInt64} {nodes : List ν}
    {layers : Nat → Nat} {group : Nat} {ranges : List LayerRange} {graphlets : List (Graphlet ν)}
    (h : buildGraphlets api flags nodes layers group ranges = .ok graphlets) :
    graphlets.length = ranges.length ∧
      ∀ k graphlet, graphlets[k]? = some graphlet → ∃ range, ranges[k]? = some range ∧
        buildGraphlet (api.clones (group + k)) flags nodes layers range = .ok graphlet := by
  induction ranges generalizing group graphlets with
  | nil =>
    obtain rfl := Except.ok.inj h
    exact ⟨rfl, fun k graphlet hk => absurd hk nofun⟩
  | cons range ranges ih =>
    obtain ⟨graphlet, hgraphlet, h⟩ := bind_ok h
    obtain ⟨rest, hrest, h⟩ := bind_ok h
    obtain rfl := Except.ok.inj h
    obtain ⟨hlength, heach⟩ := ih hrest
    refine ⟨congrArg Nat.succ hlength, fun k other hk => ?_⟩
    cases k with
    | zero =>
      obtain rfl := Option.some.inj hk
      exact ⟨range, rfl, hgraphlet⟩
    | succ k =>
      obtain ⟨range', hrange', hbuilt⟩ := heach k other hk
      refine ⟨range', hrange', ?_⟩
      rw [← Nat.add_assoc, Nat.add_right_comm]
      exact hbuilt

/-! ## The stages -/

omit [DecidableEq ν] in
theorem queryEdges_ok {api : GraphApi ν} {g : CudaGraph ν} {find : Nat → ν → ν}
    (hdesc : api.Describes g find) {edges : List (ν × ν)} (h : queryEdges api = .ok edges) :
    edges = g.edges := by
  obtain ⟨edgeCount, hcount, h⟩ := demand_bind h
  obtain rfl := hdesc.edgeCount edgeCount hcount
  split at h
  -- without edges the driver is not asked for them
  next hzero =>
    obtain rfl := Except.ok.inj h
    exact (List.eq_nil_of_length_eq_zero hzero).symm
  next =>
    obtain ⟨-, h⟩ := require_bind h
    obtain ⟨edges', hedges, h⟩ := demand_bind h
    obtain ⟨-, h⟩ := require_bind h
    obtain rfl := Except.ok.inj h
    exact hdesc.edges _ hedges

/-- The ranges the layers are grouped into. -/
def graphletRanges (limit : Nat) (g : CudaGraph ν) (layers : Nat → Nat) (layerCount : Nat) :
    List LayerRange :=
  groupLayers limit (layerNodes g.nodes.length layers) layerCount

/-- What a build does that succeeds: it layers the graph, groups the layers and
makes one part for each range. -/
theorem graphBuildGraphlets_ok {limit : Nat} {flags : UInt64} {api : GraphApi ν}
    {g : CudaGraph ν} {find : Nat → ν → ν} (hdesc : api.Describes g find)
    {graphlets : List (Graphlet ν)} (h : graphBuildGraphlets limit flags api = .ok graphlets) :
    g.nodes ≠ [] ∧ ∃ layers layerCount,
      graphLayers g.nodes g.edges = .ok (layers, layerCount) ∧
      graphlets.length = (graphletRanges limit g layers layerCount).length ∧
      ∀ k graphlet, graphlets[k]? = some graphlet →
        ∃ range, (graphletRanges limit g layers layerCount)[k]? = some range ∧
          graphlet.toLayerRange = range ∧
          IsPart g (fun u => !range.excludes layers (g.nodes.idxOf u)) (find k)
            graphlet.graph := by
  obtain ⟨-, h⟩ := require_bind h
  obtain ⟨nodeCount, -, h⟩ := demand_bind h
  obtain ⟨hsome, h⟩ := require_bind h
  obtain ⟨-, h⟩ := require_bind h
  obtain ⟨-, h⟩ := require_bind h
  obtain ⟨nodes, hnodes, h⟩ := demand_bind h
  obtain rfl := hdesc.nodes nodes hnodes
  obtain ⟨hcount, h⟩ := require_bind h
  obtain ⟨-, h⟩ := require_bind h
  obtain ⟨edges, hedges, h⟩ := bind_ok h
  obtain rfl := queryEdges_ok hdesc hedges
  obtain ⟨⟨layers, layerCount⟩, hlayers, h⟩ := bind_ok h
  obtain ⟨-, h⟩ := require_bind h
  obtain ⟨hlength, heach⟩ := buildGraphlets_ok h
  refine ⟨?_, layers, layerCount, hlayers, hlength, fun k graphlet hk => ?_⟩
  · intro hnil
    rw [hnil] at hcount
    exact of_decide_eq_true hsome (of_decide_eq_true hcount).symm
  · obtain ⟨range, hrange, hbuilt⟩ := heach k graphlet hk
    rw [Nat.zero_add] at hbuilt
    exact ⟨range, hrange, buildGraphlet_ok (hdesc.cloneGraph k) (hdesc.findClone k) hbuilt⟩

/-- The number of the graphlet that keeps a node. -/
def graphletStage (limit : Nat) (g : CudaGraph ν) (layers : Nat → Nat) (layerCount : Nat)
    (u : ν) : Nat :=
  tileOf ((graphletRanges limit g layers layerCount).map LayerRange.bounds)
    (layers (g.nodes.idxOf u))

section

variable {limit : Nat} {g : CudaGraph ν} {layers : Nat → Nat} {layerCount : Nat}

theorem layerNodes_pos {nodeCount : Nat}
    (hused : ∀ l < layerCount, ∃ i < nodeCount, layers i = l) :
    ∀ l < layerCount, 0 < layerNodes nodeCount layers l := by
  intro l hl
  obtain ⟨i, hi, hlayer⟩ := hused l hl
  exact List.countP_pos_iff.mpr ⟨i, List.mem_range.mpr hi, decide_eq_true hlayer⟩

omit [DecidableEq ν] in
theorem graphletRanges_tiles (hpos : 0 < layerCount)
    (hused : ∀ l < layerCount, ∃ i < g.nodes.length, layers i = l) :
    Tiles 0 ((graphletRanges limit g layers layerCount).map LayerRange.bounds) layerCount := by
  unfold graphletRanges
  rw [groupLayers_eq hpos (layerNodes_pos hused)]
  have hstart : 0 < 0 ∨ 0 = 0 ∧ 0 = 0 ∧ 0 < layerCount := .inr ⟨rfl, rfl, hpos⟩
  have htiles := @layerRanges_tiles limit (layerNodes g.nodes.length layers) _ _ _ _ hstart
  rw [Nat.zero_add] at htiles
  exact htiles

/-- A range leaves just the nodes of its stage. -/
theorem excludes_iff (htiles : Tiles 0
    ((graphletRanges limit g layers layerCount).map LayerRange.bounds) layerCount)
    {k : Nat} {range : LayerRange}
    (hrange : (graphletRanges limit g layers layerCount)[k]? = some range) (u : ν) :
    (!range.excludes layers (g.nodes.idxOf u)) =
      decide (graphletStage limit g layers layerCount u = k) := by
  have hk : ((graphletRanges limit g layers layerCount).map LayerRange.bounds)[k]? =
      some range.bounds := by rw [List.getElem?_map, hrange]; rfl
  have hiff := htiles.mem_iff (Nat.zero_le (layers (g.nodes.idxOf u))) hk
  rw [Bool.eq_iff_iff, decide_eq_true_iff]
  unfold graphletStage
  rw [← hiff]
  simp [LayerRange.excludes]

/-- With a limit of one node the graphlets are the layers. -/
theorem graphletStage_one (hused : ∀ l < layerCount, ∃ i < g.nodes.length, layers i = l)
    {u : ν} (hu : layers (g.nodes.idxOf u) < layerCount) :
    graphletStage 1 g layers layerCount u = layers (g.nodes.idxOf u) := by
  have hpos : 0 < layerCount := Nat.zero_lt_of_lt hu
  have htiles := @graphletRanges_tiles ν 1 g layers layerCount hpos hused
  have hrange : ((graphletRanges 1 g layers layerCount).map LayerRange.bounds)[
      layers (g.nodes.idxOf u)]? = some (layers (g.nodes.idxOf u), layers (g.nodes.idxOf u)) := by
    unfold graphletRanges
    rw [groupLayers_one (layerNodes_pos hused) hpos, List.getElem?_map, List.getElem?_range hu]
    rfl
  exact (htiles.mem_iff (Nat.zero_le _) hrange).mp ⟨Nat.le_refl _, Nat.le_refl _⟩

end

/-- Graphlets of a graph whose layers are all used are its parts by stages. -/
theorem graphBuildGraphlets_parts {limit : Nat} {flags : UInt64} {api : GraphApi ν}
    {g : CudaGraph ν} {find : Nat → ν → ν} (hdesc : api.Describes g find)
    {graphlets : List (Graphlet ν)} (h : graphBuildGraphlets limit flags api = .ok graphlets)
    {layers : Nat → Nat} {layerCount : Nat}
    (hlayers : graphLayers g.nodes g.edges = .ok (layers, layerCount))
    (hbelow : ∀ i < g.nodes.length, layers i < layerCount)
    (hused : ∀ l < layerCount, ∃ i < g.nodes.length, layers i = l) :
    (∀ u ∈ g.nodes, graphletStage limit g layers layerCount u < graphlets.length) ∧
      ∀ k graphlet, graphlets[k]? = some graphlet →
        IsPart g (fun u => graphletStage limit g layers layerCount u = k) (find k)
          graphlet.graph := by
  obtain ⟨hnonempty, layers', layerCount', hlayers', hlength, heach⟩ :=
    graphBuildGraphlets_ok hdesc h
  obtain ⟨rfl, rfl⟩ := Prod.mk.inj (Except.ok.inj (hlayers.symm.trans hlayers'))
  have hpos : 0 < layerCount := Nat.zero_lt_of_lt (hbelow 0 (List.length_pos_of_ne_nil hnonempty))
  have htiles := @graphletRanges_tiles ν limit g layers layerCount hpos hused
  refine ⟨fun u hu => ?_, fun k graphlet hk => ?_⟩
  · have hlt := htiles.tileOf_lt (hbelow _ (List.idxOf_lt_length_of_mem hu)) (Nat.zero_le _)
    rw [List.length_map] at hlt
    rw [hlength]
    exact hlt
  · obtain ⟨range, hrange, -, hpart⟩ := heach k graphlet hk
    exact hpart.congr fun u _ => excludes_iff htiles hrange u

/-- Where no index and no counter wraps, the graphlets are the stages of a division
of the nodes in which no edge leads to an earlier stage. -/
theorem graphBuildGraphlets_stages {limit : Nat} {flags : UInt64} {api : GraphApi ν}
    {g : CudaGraph ν} {find : Nat → ν → ν} (hdesc : api.Describes g find)
    (hsize : g.nodes.length ≤ uintSize)
    (hcount : ∀ v ∈ g.nodes, (g.edges.countP fun e => e.2 = v) < uintSize)
    {graphlets : List (Graphlet ν)} (h : graphBuildGraphlets limit flags api = .ok graphlets) :
    ∃ stage : ν → Nat, Forward g.Edge stage ∧ (∀ u ∈ g.nodes, stage u < graphlets.length) ∧
      ∀ k graphlet, graphlets[k]? = some graphlet →
        IsPart g (fun u => stage u = k) (find k) graphlet.graph := by
  obtain ⟨-, layers, layerCount, hlayers, -⟩ := graphBuildGraphlets_ok hdesc h
  have hedges := graphLayers_edges hlayers
  obtain ⟨hforward, hbelow, hused, -⟩ :=
    graphLayers_spec g.nodup (destIndex_count hsize hedges hcount) hlayers
  refine ⟨graphletStage limit g layers layerCount, fun u v huv => ?_,
    graphBuildGraphlets_parts hdesc h hlayers hbelow hused⟩
  -- the layers ascend along the edge, and so do the ranges they lie in
  obtain ⟨hmem, hindex⟩ := destIndex_exact hsize (hedges _ huv)
  have hlt := hforward _ huv (by rw [hindex]; exact List.idxOf_lt_length_of_mem hmem)
  rw [hindex] at hlt
  exact tileOf_mono _ (Nat.le_of_lt hlt)

/-! ## A driver whose calls succeed -/

/-- The node of the clone `k` that stands for `u`. -/
def clonedHandle (k u : Nat) : Nat := u + 2 ^ 40 * (k + 1)

theorem clonedHandle_injective (k : Nat) : (clonedHandle k).Injective :=
  fun _ _ h => Nat.add_right_cancel h

/-- All calls about a graph of kernels succeed. -/
def succeedingApi (g : CudaGraph Nat) : GraphApi Nat where
  present := true
  nodeCount := some g.nodes.length
  nodeArraysAllocated := true
  nodes := some g.nodes
  nodeType := fun _ => some .kernel
  edgeCount := some g.edges.length
  edgeArraysAllocated := true
  edges := some g.edges
  graphletsAllocated := true
  clones := fun k =>
    { cloneGraph := some (g.copy (clonedHandle k) (clonedHandle_injective k))
      allocated := true
      findClone := fun u => some (clonedHandle k u)
      destroyNode := fun _ => true
      instantiateWithFlags := some fun _ => some (k + 1)
      instantiateLegacy := none }

theorem succeedingApi_describes (g : CudaGraph Nat) :
    (succeedingApi g).Describes g clonedHandle where
  nodes _ h := (Option.some.inj h).symm
  edgeCount _ h := (Option.some.inj h).symm
  edges _ h := (Option.some.inj h).symm
  cloneGraph k _ h := Option.some.inj h ▸ isClone_copy g (clonedHandle_injective k)
  findClone _ _ _ _ h := (Option.some.inj h).symm

omit [DecidableEq ν] in
theorem findClones_succeeds {api : CloneApi ν} {f : ν → ν}
    (hfind : ∀ u, api.findClone u = some (f u)) (us : List ν) :
    findClones api us = .ok (us.map f) := by
  induction us with
  | nil => rfl
  | cons u us ih =>
    unfold findClones
    rw [hfind, ih]
    rfl

theorem pruneClone_succeeds {api : CloneApi ν} (hdestroy : ∀ u, api.destroyNode u = true)
    (range : LayerRange) (layers : Nat → Nat) (i : Nat) (us : List ν) (clone : CudaGraph ν) :
    ∃ graph, pruneClone api range layers i us clone = .ok graph := by
  induction us generalizing i clone with
  | nil => exact ⟨clone, rfl⟩
  | cons u us ih =>
    unfold pruneClone
    split
    · rw [hdestroy]
      exact ih (i + 1) _
    · exact ih (i + 1) clone

theorem buildGraphlets_succeeds (g : CudaGraph Nat) (layers : Nat → Nat) (group : Nat)
    (ranges : List LayerRange) :
    ∃ graphlets, buildGraphlets (succeedingApi g) 0 g.nodes layers group ranges =
      .ok graphlets := by
  induction ranges generalizing group with
  | nil => exact ⟨[], rfl⟩
  | cons range ranges ih =>
    obtain ⟨graphlets, hrest⟩ := ih (group + 1)
    obtain ⟨graph, hgraph⟩ := @pruneClone_succeeds _ _ ((succeedingApi g).clones group)
      (fun _ => rfl) range layers 0 (g.nodes.map (clonedHandle group))
      (g.copy (clonedHandle group) (clonedHandle_injective group))
    refine ⟨{ range with graph := graph, exec := group + 1 } :: graphlets, ?_⟩
    have hfind := @findClones_succeeds _ ((succeedingApi g).clones group) (clonedHandle group)
      (fun _ => rfl) g.nodes
    have hfirst : buildGraphlet ((succeedingApi g).clones group) 0 g.nodes layers range =
        .ok { range with graph := graph, exec := group + 1 } := by
      unfold buildGraphlet
      rw [hfind]
      show (pruneClone _ _ _ _ _ _).bind _ = _
      rw [hgraph]
      rfl
    unfold buildGraphlets
    rw [hfirst, hrest]
    rfl

/-- When no call fails, a graph is split if it is layered. -/
theorem graphBuildGraphlets_succeeds {g : CudaGraph Nat} (hnonempty : g.nodes ≠ [])
    {layers : Nat → Nat} {layerCount : Nat}
    (hlayers : graphLayers g.nodes g.edges = .ok (layers, layerCount)) (limit : Nat) :
    ∃ graphlets, graphBuildGraphlets limit 0 (succeedingApi g) = .ok graphlets := by
  have hedges : queryEdges (succeedingApi g) = .ok g.edges := by
    unfold queryEdges
    show (if g.edges.length = 0 then _ else _) = _
    split
    next hzero => rw [List.eq_nil_of_length_eq_zero hzero]; rfl
    next => simp [succeedingApi, require, demand, bind, Except.bind, pure, Except.pure]
  obtain ⟨graphlets, hgraphlets⟩ := buildGraphlets_succeeds g layers 0
    (groupLayers limit (layerNodes g.nodes.length layers) layerCount)
  have hlength : g.nodes.length ≠ 0 := fun hzero => hnonempty (List.eq_nil_of_length_eq_zero hzero)
  have htypes : (g.nodes.all fun node =>
      ((succeedingApi g).nodeType node).any graphNodeSupported) = true := by
    simp [succeedingApi, graphNodeSupported]
  refine ⟨graphlets, ?_⟩
  unfold graphBuildGraphlets
  rw [hedges]
  have hnodes : (succeedingApi g).nodes = some g.nodes := rfl
  have hnodeCount : (succeedingApi g).nodeCount = some g.nodes.length := rfl
  have hpresent : (succeedingApi g).present = true := rfl
  have harrays : (succeedingApi g).nodeArraysAllocated = true := rfl
  have hgraphletsAllocated : (succeedingApi g).graphletsAllocated = true := rfl
  simp only [hnodes, hnodeCount, hpresent, harrays, hgraphletsAllocated, htypes, hlength, hlayers,
    hgraphlets, require_true, demand_some, bind, ok_bind, ne_eq, not_false_eq_true, decide_true]
  rfl

end Lilt.Graph
