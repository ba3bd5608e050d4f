import Lilt.Driver.Handles
import Lilt.Graph.Build

/-!
# Launching a graph (`lilt_graph_launch`)

A graph that was split is launched graphlet by graphlet, with a completion boundary
behind each; any other graph is launched whole. The results of the launches are a
parameter.

- `liltGraphLaunch`: the calls that a launch makes, and its result.
- `Executes`: the orders in which the nodes may run when the calls are made.
- `SplitPreserves`: splitting a graph preserved its meaning.
- `split_preserves`: it does, where no index and no counter wraps.
-/

namespace Lilt.Graph

open Lilt.Driver Relation Stages

/-- `lilt_graph_mode_t` -/
inductive GraphMode where
  | off
  | whole
  | graphlet
  deriving DecidableEq

/-- The settings of a BE process. -/
structure GraphConfig where
  eventPolicy : Bool
  passthrough : Bool
  mode : GraphMode
  /-- `g_graphlet_max_nodes` -/
  graphletMaxNodes : Nat

/-- Graphs are split: `should_split`, and what `split` asks of the settings. -/
def GraphConfig.splits (cfg : GraphConfig) : Bool :=
  cfg.eventPolicy && !cfg.passthrough && cfg.mode = .graphlet

/-- `lilt_graph_metadata_t` -/
structure GraphMetadata (ν : Type) where
  originalExec : CUgraphExec
  nodeCount : Nat
  instantiateFlags : UInt64
  splittable : Bool
  fallbackReason : String
  graphlets : List (Graphlet ν)

/-- The calls `lilt_graph_launch` makes. -/
inductive GraphCall where
  | beforeKernelLaunch (function : CUgraphExec) (blocks : Nat) (stream : CUstream)
      (perThreadDefaultStream : Bool)
  | realLaunch (exec : CUgraphExec) (stream : CUstream)
  | afterKernelLaunch (stream : CUstream) (perThreadDefaultStream : Bool) (result : CUresult)
  | graphletBoundary
  deriving DecidableEq

section

variable {ν : Type}

/-- `split` -/
def splitTaken (cfg : GraphConfig) (metadata : Option (GraphMetadata ν)) : Bool :=
  cfg.splits && metadata.any GraphMetadata.splittable

/-- The loop over the graphlets, from `i` on; `launch i` is the result of launch `i`. -/
def splitLaunch (stream : CUstream) (ptds : Bool) (launch : Nat → CUresult) (i : Nat)
    (result : CUresult) : List (Graphlet ν) → List GraphCall × CUresult
  | [] => ([], result)
  | graphlet :: graphlets =>
    let result := launch i
    let calls :=
      [.beforeKernelLaunch graphlet.exec graphlet.nodeCount stream ptds,
        .realLaunch graphlet.exec stream, .afterKernelLaunch stream ptds result]
    if result ≠ cudaSuccess then (calls, result)
    else
      let (rest, result) := splitLaunch stream ptds launch (i + 1) result graphlets
      (calls ++ .graphletBoundary :: rest, result)

/-- The launch of a graph that is not split. -/
def wholeLaunch (cfg : GraphConfig) (launch : Nat → CUresult)
    (metadata : Option (GraphMetadata ν)) (exec : CUgraphExec) (stream : CUstream)
    (ptds : Bool) : List GraphCall × CUresult :=
  let nodeCount :=
    match metadata with
    | some metadata => if metadata.nodeCount ≠ 0 then metadata.nodeCount else 1
    | none => 1
  let result := launch 0
  ([.beforeKernelLaunch exec nodeCount stream ptds, .realLaunch exec stream,
      .afterKernelLaunch stream ptds result] ++
    if cfg.eventPolicy && !cfg.passthrough then [.graphletBoundary] else [], result)

/-- `lilt_graph_launch`; `metadata` is what `graph_find_locked` found for `exec`, and
`present` says whether the driver has the entry point. -/
def liltGraphLaunch (cfg : GraphConfig) (present : Bool) (launch : Nat → CUresult)
    (metadata : Option (GraphMetadata ν)) (exec : CUgraphExec) (stream : CUstream)
    (ptds : Bool) : List GraphCall × CUresult :=
  if !present then ([], cudaErrorNotSupported)
  else if cfg.eventPolicy && cfg.mode = .off then ([.realLaunch exec stream], launch 0)
  else if splitTaken cfg metadata then
    splitLaunch stream ptds launch 0 cudaSuccess ((metadata.map GraphMetadata.graphlets).getD [])
  else wholeLaunch cfg launch metadata exec stream ptds

theorem liltGraphLaunch_split {cfg : GraphConfig} {metadata : GraphMetadata ν}
    (h : splitTaken cfg (some metadata) = true) (launch : Nat → CUresult) (exec : CUgraphExec)
    (stream : CUstream) (ptds : Bool) :
    liltGraphLaunch cfg true launch (some metadata) exec stream ptds =
      splitLaunch stream ptds launch 0 cudaSuccess metadata.graphlets := by
  have hmode : (cfg.eventPolicy && cfg.mode = .off) = false := by
    simp only [splitTaken, GraphConfig.splits, Bool.and_eq_true, decide_eq_true_eq] at h
    rw [h.1.2]
    simp
  unfold liltGraphLaunch
  rw [hmode, h]
  rfl

/-! ## Executions -/

/-- The executable graph that a call launches. -/
def GraphCall.launched : GraphCall → Option CUgraphExec
  | .realLaunch exec _ => some exec
  | _ => none

/-- A split launch that succeeds launches all graphlets in order. -/
theorem splitLaunch_launched {stream : CUstream} {ptds : Bool} {launch : Nat → CUresult}
    {i : Nat} {result : CUresult} {graphlets : List (Graphlet ν)} {calls : List GraphCall}
    (h : splitLaunch stream ptds launch i result graphlets = (calls, cudaSuccess)) :
    calls.filterMap GraphCall.launched = graphlets.map Graphlet.exec := by
  induction graphlets generalizing i result calls with
  | nil =>
    obtain ⟨rfl, -⟩ := Prod.mk.inj h
    rfl
  | cons graphlet graphlets ih =>
    unfold splitLaunch at h
    dsimp only at h
    split at h
    next hfail => exact absurd (Prod.mk.inj h).2 hfail
    next =>
      obtain ⟨rfl, hresult⟩ := Prod.mk.inj h
      have hrest : splitLaunch stream ptds launch (i + 1) (launch i) graphlets =
          ((splitLaunch stream ptds launch (i + 1) (launch i) graphlets).1, cudaSuccess) :=
        Prod.ext rfl hresult
      rw [List.map_cons, ← ih hrest]
      rfl

/-- The nodes run in this order when the calls are made, where `runs` tells of each
executable graph in which orders its nodes may run. A launch has completed before
the next one is made. -/
def Executes (runs : CUgraphExec → List ν → Prop) (calls : List GraphCall) (order : List ν) :
    Prop :=
  ∃ orders, List.Forall₂ runs (calls.filterMap GraphCall.launched) orders ∧
    order = orders.flatten

/-- The nodes of `g` run in this order when the part, a copy by `f`, is launched:
each of its nodes once, in an order its edges allow. -/
structure GraphletRun (g : CudaGraph ν) (f : ν → ν) (part : CudaGraph ν) (order : List ν) :
    Prop where
  mem : ∀ u ∈ order, u ∈ g.nodes
  once : (order.map f).Perm part.nodes
  allowed : Allowed part.Edge (order.map f)

/-! ## What splitting preserves -/

/-- The graphlet `k` keeps the node `u`. -/
def Keeps (find : Nat → ν → ν) (graphlets : List (Graphlet ν)) (k : Nat) (u : ν) : Prop :=
  ∃ graphlet, graphlets[k]? = some graphlet ∧ find k u ∈ graphlet.graph.nodes

/-- The graphlets of a graph do what the graph does; `find` maps its nodes into the
clones. -/
structure SplitPreserves (g : CudaGraph ν) (find : Nat → ν → ν) (metadata : GraphMetadata ν) :
    Prop where
  /-- Every node is kept in exactly one graphlet. -/
  once : ∀ u ∈ g.nodes, ∃! k, Keeps find metadata.graphlets k u
  /-- An edge is within a graphlet or leads to one that is launched later. -/
  ordered : ∀ u v, g.Edge u v → ∀ j k, Keeps find metadata.graphlets j u →
    Keeps find metadata.graphlets k v → j = k ∨ j < k
  /-- Of two nodes in one graphlet, one reaches the other there just when it does in
  the graph. -/
  reaches : ∀ k graphlet, metadata.graphlets[k]? = some graphlet →
    ∀ u ∈ g.nodes, find k u ∈ graphlet.graph.nodes →
    ∀ v ∈ g.nodes, find k v ∈ graphlet.graph.nodes →
      (graphlet.graph.Reaches (find k u) (find k v) ↔ g.Reaches u v)
  /-- A split launch that succeeds runs every node once, in an order that the graph
  allows. -/
  executes : ∀ runs : CUgraphExec → List ν → Prop,
    (∀ k graphlet, metadata.graphlets[k]? = some graphlet →
      ∀ order, runs graphlet.exec order → GraphletRun g (find k) graphlet.graph order) →
    ∀ cfg, splitTaken cfg (some metadata) = true → ∀ launch exec stream ptds calls,
      liltGraphLaunch cfg true launch (some metadata) exec stream ptds = (calls, cudaSuccess) →
      ∀ order, Executes runs calls order → order.Perm g.nodes ∧ Allowed g.Edge order

section

variable {g : CudaGraph ν} {find : Nat → ν → ν} {stage : ν → Nat}
  {graphlets : List (Graphlet ν)}

theorem keeps_iff (hparts : ∀ k graphlet, graphlets[k]? = some graphlet →
      IsPart g (fun u => stage u = k) (find k) graphlet.graph)
    {k : Nat} {u : ν} (hu : u ∈ g.nodes) :
    Keeps find graphlets k u ↔ k < graphlets.length ∧ stage u = k := by
  constructor
  · rintro ⟨graphlet, hk, hmem⟩
    obtain ⟨v, hv, hkeep, heq⟩ := (hparts k graphlet hk).mem_iff.mp hmem
    obtain rfl := (hparts k graphlet hk).inj v hv u hu heq
    exact ⟨(List.getElem?_eq_some_iff.mp hk).1, of_decide_eq_true hkeep⟩
  · rintro ⟨hlt, hstage⟩
    have hk := List.getElem?_eq_getElem hlt
    exact ⟨_, hk, (hparts k _ hk).mem_iff.mpr ⟨u, hu, decide_eq_true hstage, rfl⟩⟩

/-- Runs of the graphlets, one after the other, are a run of the graph. -/
theorem executes_of_stages (hforward : Forward g.Edge stage)
    (hlast : ∀ u ∈ g.nodes, stage u < graphlets.length)
    (hparts : ∀ k graphlet, graphlets[k]? = some graphlet →
      IsPart g (fun u => stage u = k) (find k) graphlet.graph)
    {runs : CUgraphExec → List ν → Prop}
    (hruns : ∀ k graphlet, graphlets[k]? = some graphlet →
      ∀ order, runs graphlet.exec order → GraphletRun g (find k) graphlet.graph order)
    {orders : List (List ν)} (horders : List.Forall₂ runs (graphlets.map Graphlet.exec) orders) :
    orders.flatten.Perm g.nodes ∧ Allowed g.Edge orders.flatten := by
  have hlength : orders.length = graphlets.length := by
    rw [← horders.length_eq, List.length_map]
  -- the order of each graphlet, with the part it is an order of
  have heach : ∀ k (order : List ν), orders[k]? = some order → ∃ part,
      IsPart g (fun u => stage u = k) (find k) part ∧ GraphletRun g (find k) part order := by
    intro k order hk
    obtain ⟨hlt, horder⟩ := List.getElem?_eq_some_iff.mp hk
    have hgraphlet := List.getElem?_eq_getElem (hlength ▸ hlt)
    have hrun := (List.forall₂_iff_get.mp horders).2 k (by rw [List.length_map]; omega) hlt
    simp only [List.get_eq_getElem, List.getElem_map, horder] at hrun
    exact ⟨_, hparts k _ hgraphlet, hruns k _ hgraphlet order hrun⟩
  have hperm : ∀ k (order : List ν), orders[k]? = some order →
      order.Perm (g.nodes.filter fun u => stage u = 0 + k) := by
    intro k order hk
    obtain ⟨part, hpart, hrun⟩ := heach k order hk
    rw [Nat.zero_add]
    exact hpart.perm hrun.mem hrun.once
  constructor
  · have hflatten := perm_flatten hperm (by rw [Nat.zero_add, hlength]; exact hlast)
    simp only [Nat.zero_le, decide_true, List.filter_true] at hflatten
    exact hflatten
  · refine @Forward.allowed_flatten _ _ _ hforward 0 orders (fun k order hk u hu => ?_)
      fun k order hk => ?_
    · exact of_decide_eq_true (List.mem_filter.mp ((hperm k order hk).mem_iff.mp hu)).2
    · obtain ⟨part, hpart, hrun⟩ := heach k order hk
      rw [Nat.zero_add]
      exact hpart.allowed hrun.allowed

end

end

/-- Graphlets that were built for a graph of up to `2^32` nodes with fewer than `2^32`
edges into each preserve its meaning. -/
theorem split_preserves {ν : Type} [DecidableEq ν] {limit : Nat} {api : GraphApi ν}
    {g : CudaGraph ν} {find : Nat → ν → ν} {metadata : GraphMetadata ν}
    (hdesc : api.Describes g find) (hsize : g.nodes.length ≤ uintSize)
    (hcount : ∀ v ∈ g.nodes, (g.edges.countP fun e => e.2 = v) < uintSize)
    (hbuild : graphBuildGraphlets limit metadata.instantiateFlags api =
      .ok metadata.graphlets) : SplitPreserves g find metadata := by
  obtain ⟨stage, hforward, hlast, hparts⟩ :=
    graphBuildGraphlets_stages hdesc hsize hcount hbuild
  refine { once := fun u hu => ?_, ordered := fun u v huv j k hj hk => ?_
           reaches := fun k graphlet hk u hu hku v hv hkv => ?_
           executes := fun runs hruns cfg hsplit launch exec stream ptds calls hcalls order
             hexec => ?_ }
  · refine ⟨stage u, (keeps_iff hparts hu).mpr ⟨hlast u hu, rfl⟩, fun k hk => ?_⟩
    exact ((keeps_iff hparts hu).mp hk).2.symm
  · obtain ⟨hu, hv⟩ := g.edge_mem _ huv
    obtain ⟨-, rfl⟩ := (keeps_iff hparts hu).mp hj
    obtain ⟨-, rfl⟩ := (keeps_iff hparts hv).mp hk
    exact Nat.eq_or_lt_of_le (hforward u v huv)
  · have hstage := ((keeps_iff hparts hu).mp ⟨graphlet, hk, hku⟩).2
    have hstage' := ((keeps_iff hparts hv).mp ⟨graphlet, hk, hkv⟩).2
    exact (hparts k graphlet hk).reaches_iff hforward hu hv hstage hstage'
  · rw [liltGraphLaunch_split hsplit] at hcalls
    obtain ⟨orders, horders, rfl⟩ := hexec
    rw [splitLaunch_launched hcalls] at horders
    exact executes_of_stages hforward hlast hparts hruns horders

/-- What is recorded of a graph that was split. -/
def splitMetadata (g : CudaGraph Nat) (graphlets : List (Graphlet Nat)) : GraphMetadata Nat where
  originalExec := 100
  nodeCount := g.nodes.length
  instantiateFlags := 0
  splittable := true
  fallbackReason := ""
  graphlets := graphlets

/-- A node with two successors that lead to one node. -/
def diamondGraph : CudaGraph Nat where
  nodes := [0, 1, 2, 3]
  edges := [(0, 1), (0, 2), (1, 3), (2, 3)]
  nodup := by decide
  edge_mem := by decide

theorem split_preserves_diamond :
    ∃ graphlets, graphBuildGraphlets 2 0 (succeedingApi diamondGraph) = .ok graphlets ∧
      SplitPreserves diamondGraph clonedHandle (splitMetadata diamondGraph graphlets) := by
  obtain ⟨graphlets, hbuild⟩ := @graphBuildGraphlets_succeeds diamondGraph nofun _ _ rfl 2
  refine ⟨graphlets, hbuild, ?_⟩
  exact @split_preserves _ _ 2 _ _ _ (splitMetadata diamondGraph graphlets)
    (succeedingApi_describes diamondGraph) (by decide) (by decide) hbuild

/-! ## Counters and indices that wrap -/

/-- An edge that leads to an earlier layer leads, with a limit of one node, to a
graphlet that is launched earlier. -/
theorem not_preserves_of_backward {ν : Type} [DecidableEq ν] {api : GraphApi ν} {g : CudaGraph ν}
    {find : Nat → ν → ν} {metadata : GraphMetadata ν} (hdesc : api.Describes g find)
    (hbuild : graphBuildGraphlets 1 metadata.instantiateFlags api = .ok metadata.graphlets)
    {layers : Nat → Nat} {layerCount : Nat}
    (hlayers : graphLayers g.nodes g.edges = .ok (layers, layerCount))
    (hbelow : ∀ i < g.nodes.length, layers i < layerCount)
    (hused : ∀ l < layerCount, ∃ i < g.nodes.length, layers i = l) {u v : ν} (huv : g.Edge u v)
    (hback : layers (g.nodes.idxOf v) < layers (g.nodes.idxOf u)) :
    ¬ SplitPreserves g find metadata := by
  intro hpreserves
  obtain ⟨hlast, hparts⟩ := graphBuildGraphlets_parts hdesc hbuild hlayers hbelow hused
  -- every node is kept in the graphlet that has the number of its layer
  have hkept : ∀ w ∈ g.nodes, Keeps find metadata.graphlets (layers (g.nodes.idxOf w)) w := by
    intro w hw
    have hstage := graphletStage_one hused (hbelow _ (List.idxOf_lt_length_of_mem hw))
    rw [keeps_iff hparts hw, ← hstage]
    exact ⟨hlast w hw, rfl⟩
  obtain ⟨hu, hv⟩ := g.edge_mem _ huv
  have hordered := hpreserves.ordered u v huv _ _ (hkept u hu) (hkept v hv)
  omega

/-- Where the edges from 1 to 2 fill the counter of node 2, it is taken for a node
without a pending edge. -/
theorem layers_of_wrapped {edges : List (Nat × Nat)} {n : Nat} (hn : n % uintSize = 0)
    (hedges : ∀ e ∈ edges, 0 ≤ graphNodeIndex [0, 1, 2] e.2)
    (hcount : ∀ p : Nat × Nat → Bool,
      edges.countP p = (if p (0, 1) then 1 else 0) + if p (1, 2) then n else 0) :
    ∃ layers, graphLayers [0, 1, 2] edges = .ok (layers, 2) ∧
      layers 0 = 0 ∧ layers 1 = 1 ∧ layers 2 = 0 := by
  have hdest : destIndex [0, 1, 2] (0, 1) = 1 ∧ destIndex [0, 1, 2] (1, 2) = 2 := ⟨rfl, rfl⟩
  obtain ⟨indegree, hindegree⟩ := countIndegrees_total hedges fun _ => 0
  have hcounted : ∀ b, indegree b =
      ((if 1 = b then 1 else 0) + if 2 = b then n else 0) % uintSize := by
    intro b
    rw [(countIndegrees_ok hindegree).2 b (by decide), hcount, Nat.zero_add]
    simp only [hdest, decide_eq_true_eq]
  have h0 : indegree 0 = 0 := hcounted 0
  have h1 : indegree 1 = 1 := hcounted 1
  -- the `n` edges into node 2 leave its counter at zero
  have h2 : indegree 2 = 0 := by
    rw [hcounted 2, if_neg (by decide), if_pos rfl, Nat.zero_add, hn]
  have hrelease : ∀ (node : Nat) (f : Nat → Nat) (b : Nat),
      edges.foldl (releaseEdge [0, 1, 2] node) f b =
        f b - ((if 0 = node ∧ 1 = b then 1 else 0) + if 1 = node ∧ 2 = b then n else 0) := by
    intro node f b
    rw [releaseEdge_foldl hedges, hcount]
    simp only [hdest, decide_eq_true_eq]
  -- the first round places the nodes 0 and 2
  have hfirst : markLayer 3 0 (.start 3 indegree) =
      ({ indegree := indegree
         layers := Function.update (Function.update (fun _ => 0) 0 0) 2 0
         processed := Function.update (Function.update (fun _ => .waiting) 0 .current) 2 .current
         remaining := 3 }, 2) := by
    simp [markLayer, List.range_succ, markNode, LayerState.start, h0, h1, h2]
  have hstart : (LayerState.start 3 indegree).remaining ≠ 0 := Nat.succ_ne_zero 2
  have hlength : [0, 1, 2].length = 3 := rfl
  unfold graphLayers
  rw [hindegree]
  show ∃ layers, layerRounds [0, 1, 2] edges 3 (.start 3 indegree) 0 = _ ∧ _
  unfold layerRounds
  rw [if_neg hstart, hlength, hfirst]
  simp [releaseLayer, releaseNode, layerRounds, markLayer, markNode, List.range_succ, hrelease, h1]

/-- As many edges from 1 to 2 as an `unsigned int` has values. -/
def wrappingGraph : CudaGraph Nat where
  nodes := [0, 1, 2]
  edges := (0, 1) :: List.replicate uintSize (1, 2)
  nodup := by decide
  edge_mem e he := by
    rcases List.mem_cons.mp he with rfl | he
    · decide
    · obtain rfl := List.eq_of_mem_replicate he
      decide

theorem wrappingGraph_edges {e : Nat × Nat} (he : e ∈ wrappingGraph.edges) :
    e = (0, 1) ∨ e = (1, 2) :=
  (List.mem_cons.mp he).imp_right List.eq_of_mem_replicate

theorem wrappingGraph_split :
    ∃ graphlets, graphBuildGraphlets 1 0 (succeedingApi wrappingGraph) = .ok graphlets ∧
      ¬ SplitPreserves wrappingGraph clonedHandle (splitMetadata wrappingGraph graphlets) := by
  obtain ⟨layers, hlayers, h0, h1, h2⟩ :
      ∃ layers, graphLayers wrappingGraph.nodes wrappingGraph.edges = .ok (layers, 2) ∧
        layers 0 = 0 ∧ layers 1 = 1 ∧ layers 2 = 0 := by
    refine layers_of_wrapped (Nat.mod_self uintSize) (fun e he => ?_) fun p => ?_
    · rcases wrappingGraph_edges he with rfl | rfl <;> decide
    · show ((0, 1) :: List.replicate uintSize (1, 2)).countP p = _
      rw [List.countP_cons, List.countP_replicate, Nat.add_comm]
  obtain ⟨graphlets, hbuild⟩ := @graphBuildGraphlets_succeeds wrappingGraph nofun _ _ hlayers 1
  have hbelow : ∀ i < wrappingGraph.nodes.length, layers i < 2 := by
    intro i hi
    have hi : i < 3 := hi
    obtain rfl | rfl | rfl : i = 0 ∨ i = 1 ∨ i = 2 := by omega
    all_goals omega
  have hused : ∀ l < 2, ∃ i < wrappingGraph.nodes.length, layers i = l := by
    intro l hl
    obtain rfl | rfl : l = 0 ∨ l = 1 := by omega
    · exact ⟨0, by decide, h0⟩
    · exact ⟨1, by decide, h1⟩
  have hedge : wrappingGraph.Edge 1 2 :=
    List.mem_cons_of_mem _ (List.mem_replicate.mpr ⟨by decide, rfl⟩)
  refine ⟨graphlets, hbuild, ?_⟩
  refine @not_preserves_of_backward _ _ _ _ _ (splitMetadata wrappingGraph graphlets)
    (succeedingApi_describes wrappingGraph) hbuild _ _ hlayers hbelow hused 1 2 hedge ?_
  show layers 2 < layers 1
  omega

/-- An edge to a node whose index is, as an `int`, that of node 2. -/
def aliasingGraph : CudaGraph Nat where
  nodes := List.range (uintSize + 3)
  edges := [(0, 1), (1, uintSize + 2)]
  nodup := List.nodup_range
  edge_mem e he := by
    simp only [List.mem_cons, List.not_mem_nil, or_false] at he
    rcases he with rfl | rfl
    all_goals exact ⟨List.mem_range.mpr (by decide), List.mem_range.mpr (by decide)⟩

theorem idxOf_range {n i : Nat} (hi : i < n) : (List.range n).idxOf i = i := by
  have hlt : i < (List.range n).length := by rwa [List.length_range]
  have hget : (List.range n)[i] = i := List.getElem_range hlt
  calc (List.range n).idxOf i = (List.range n).idxOf (List.range n)[i] := by rw [hget]
    _ = i := List.nodup_range.idxOf_getElem i hlt

theorem aliasingGraph_nodes : aliasingGraph.nodes = List.range (uintSize + 3) := by
  dsimp only [aliasingGraph]

theorem aliasingGraph_idxOf {i : Nat} (hi : i < uintSize + 3) :
    aliasingGraph.nodes.idxOf i = i := by
  rw [aliasingGraph_nodes, idxOf_range hi]

theorem aliasingGraph_index {i : Nat} (hi : i < uintSize + 3) :
    graphNodeIndex aliasingGraph.nodes i = cInt i := by
  have hmem : i ∈ aliasingGraph.nodes := by
    rw [aliasingGraph_nodes, List.mem_range]
    exact hi
  unfold graphNodeIndex
  rw [if_pos hmem, aliasingGraph_idxOf hi]

theorem aliasingGraph_split :
    ∃ graphlets, graphBuildGraphlets 1 0 (succeedingApi aliasingGraph) = .ok graphlets ∧
      ¬ SplitPreserves aliasingGraph clonedHandle (splitMetadata aliasingGraph graphlets) := by
  have hnodes : aliasingGraph.nodes.length = uintSize + 3 := by
    rw [aliasingGraph_nodes, List.length_range]
  have hlt0 : 0 < uintSize + 3 := by decide
  have hlt1 : 1 < uintSize + 3 := by decide
  have hlt2 : uintSize + 2 < uintSize + 3 := Nat.lt_succ_self _
  have hsome : ∀ e ∈ aliasingGraph.edges, e = (0, 1) ∨ e = (1, uintSize + 2) := by
    intro e he
    rcases List.mem_cons.mp he with he | he
    · exact .inl he
    · exact .inr (List.mem_singleton.mp he)
  have hindex1 : graphNodeIndex aliasingGraph.nodes 1 = 1 :=
    (aliasingGraph_index hlt1).trans (by decide)
  have hindex2 : graphNodeIndex aliasingGraph.nodes (uintSize + 2) = 2 :=
    (aliasingGraph_index hlt2).trans (by decide)
  have hdest1 : destIndex aliasingGraph.nodes (0, 1) = 1 := congrArg Int.toNat hindex1
  have hdest2 : destIndex aliasingGraph.nodes (1, uintSize + 2) = 2 := congrArg Int.toNat hindex2
  have hsource1 : sourceIndex aliasingGraph.nodes (0, 1) = 0 := aliasingGraph_idxOf hlt0
  have hsource2 : sourceIndex aliasingGraph.nodes (1, uintSize + 2) = 1 :=
    aliasingGraph_idxOf hlt1
  have hedges : ∀ e ∈ aliasingGraph.edges, 0 ≤ graphNodeIndex aliasingGraph.nodes e.2 := by
    intro e he
    rcases hsome e he with rfl | rfl
    · rw [hindex1]
      decide
    · rw [hindex2]
      decide
  have hcount : ∀ b, (aliasingGraph.edges.countP fun e => destIndex aliasingGraph.nodes e = b) <
      uintSize := fun b => Nat.lt_of_le_of_lt List.countP_le_length (by decide)
  -- the edges still lead to greater cells: 0 to 1, and 1 to 2
  have hwf : WellFounded (CellEdge aliasingGraph.nodes aliasingGraph.edges) := by
    refine Subrelation.wf (fun {a b} hab => ?_) Nat.lt_wfRel.wf
    obtain ⟨e, he, rfl, rfl⟩ := hab
    rcases hsome e he with rfl | rfl
    · rw [hsource1, hdest1]
      exact Nat.zero_lt_one
    · rw [hsource2, hdest2]
      exact Nat.one_lt_two
  have hsource : ∀ e ∈ aliasingGraph.edges, sourceIndex aliasingGraph.nodes e <
      aliasingGraph.nodes.length := by
    intro e he
    rw [hnodes]
    rcases hsome e he with rfl | rfl
    · rw [hsource1]
      exact hlt0
    · rw [hsource2]
      exact hlt1
  obtain ⟨⟨layers, layerCount⟩, hlayers⟩ :=
    graphLayers_total aliasingGraph.nodup hcount hedges hwf hsource
  obtain ⟨hforward, hbelow, hused, htight⟩ := graphLayers_spec aliasingGraph.nodup hcount hlayers
  -- no edge counts for the last node, so it is in the first layer
  have hlast : layers (uintSize + 2) = 0 := by
    by_contra hlayer
    obtain ⟨e, he, hdest, -⟩ := htight (uintSize + 2) (by rw [hnodes]; exact hlt2) hlayer
    rcases hsome e he with rfl | rfl
    · rw [hdest1] at hdest
      exact absurd hdest (by decide)
    · rw [hdest2] at hdest
      exact absurd hdest (by decide)
  have hfirst : layers 0 < layers 1 := by
    have hlt := hforward (0, 1) (List.mem_cons_self ..) (by rw [hdest1, hnodes]; exact hlt1)
    rwa [hsource1, hdest1] at hlt
  obtain ⟨graphlets, hbuild⟩ := @graphBuildGraphlets_succeeds aliasingGraph
    (List.ne_nil_of_length_pos (by rw [hnodes]; exact hlt0)) _ _ hlayers 1
  refine ⟨graphlets, hbuild, ?_⟩
  have hedge : aliasingGraph.Edge 1 (uintSize + 2) :=
    List.mem_cons_of_mem _ (List.mem_singleton.mpr rfl)
  refine @not_preserves_of_backward _ _ _ _ _ (splitMetadata aliasingGraph graphlets)
    (succeedingApi_describes aliasingGraph) hbuild _ _ hlayers hbelow hused _ _ hedge ?_
  rw [aliasingGraph_idxOf hlt1, aliasingGraph_idxOf hlt2, hlast]
  exact Nat.zero_lt_of_lt hfirst

/-- Each bound is needed: an acyclic graph with `2^32` edges into a node, and one with
more than `2^32` nodes, whose graphlets run a node before one it depends on. -/
theorem split_not_preserves :
    (wrappingGraph.Acyclic ∧ wrappingGraph.nodes.length ≤ uintSize ∧
      ∃ graphlets, graphBuildGraphlets 1 0 (succeedingApi wrappingGraph) = .ok graphlets ∧
        ¬ SplitPreserves wrappingGraph clonedHandle (splitMetadata wrappingGraph graphlets)) ∧
    aliasingGraph.Acyclic ∧
      (∀ v, (aliasingGraph.edges.countP fun e => e.2 = v) < uintSize) ∧
      ∃ graphlets, graphBuildGraphlets 1 0 (succeedingApi aliasingGraph) = .ok graphlets ∧
        ¬ SplitPreserves aliasingGraph clonedHandle (splitMetadata aliasingGraph graphlets) := by
  refine ⟨⟨CudaGraph.acyclic_of_rank id fun e he => ?_, by decide, wrappingGraph_split⟩,
    CudaGraph.acyclic_of_rank id fun e he => ?_,
    fun v => Nat.lt_of_le_of_lt List.countP_le_length (by decide), aliasingGraph_split⟩
  · rcases wrappingGraph_edges he with rfl | rfl <;> decide
  · rcases List.mem_cons.mp he with rfl | he
    · decide
    · obtain rfl := List.mem_singleton.mp he
      decide

end Lilt.Graph
