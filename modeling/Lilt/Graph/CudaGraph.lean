import Mathlib.Data.List.Perm.Lattice
import Mathlib.Data.List.Nodup
import Mathlib.Data.Prod.Basic
import Lilt.Lib.Stages

/-!
# CUDA graphs and parts of their copies

A `CUgraph` is its array of nodes and its array of edges, as the driver reports
them; an edge may be there more than once. `cuGraphClone` makes a copy whose nodes
are others, and `cuGraphDestroyNode` takes a node of it and the edges at that node
away.

- `CudaGraph`, `CudaGraph.Edge`, `CudaGraph.Reaches`: a graph and its paths.
- `CudaGraph.destroyNode`: `cuGraphDestroyNode`.
- `IsPart`: what is left of a copy when some nodes are taken away.
- `IsPart.destroyNode`: taking a node away leaves a part.
- `IsPart.reaches_iff`, `IsPart.allowed`: paths and orders of a part that keeps one
  stage.
-/

namespace Lilt.Graph

open Relation Stages

/-- The nodes and edges of a `CUgraph`. -/
structure CudaGraph (ν : Type) where
  nodes : List ν
  edges : List (ν × ν)
  nodup : nodes.Nodup
  edge_mem : ∀ e ∈ edges, e.1 ∈ nodes ∧ e.2 ∈ nodes

namespace CudaGraph

variable {ν : Type}

def Edge (g : CudaGraph ν) (u v : ν) : Prop := (u, v) ∈ g.edges

/-- There is a path of at least one edge. -/
def Reaches (g : CudaGraph ν) : ν → ν → Prop := TransGen g.Edge

def Acyclic (g : CudaGraph ν) : Prop := ∀ u, ¬ g.Reaches u u

/-- A copy of the graph on other nodes. -/
def copy (g : CudaGraph ν) (f : ν → ν) (hf : f.Injective) : CudaGraph ν where
  nodes := g.nodes.map f
  edges := g.edges.map (Prod.map f f)
  nodup := g.nodup.map hf
  edge_mem e' he' := by
    obtain ⟨e, he, rfl⟩ := List.mem_map.mp he'
    obtain ⟨hfrom, hto⟩ := g.edge_mem e he
    exact ⟨List.mem_map_of_mem hfrom, List.mem_map_of_mem hto⟩

/-- A graph whose edges ascend in some order has no cycle. -/
theorem acyclic_of_rank {g : CudaGraph ν} (rank : ν → Nat)
    (h : ∀ e ∈ g.edges, rank e.1 < rank e.2) : g.Acyclic := by
  have hlt : ∀ u v, g.Reaches u v → rank u < rank v := by
    intro u v huv
    induction huv with
    | single huv => exact h _ huv
    | tail _ hvw ih => exact Nat.lt_trans ih (h _ hvw)
  exact fun u huu => Nat.lt_irrefl _ (hlt u u huu)

variable [DecidableEq ν]

/-- `cuGraphDestroyNode` -/
def destroyNode (g : CudaGraph ν) (u : ν) : CudaGraph ν where
  nodes := g.nodes.filter fun w => w ≠ u
  edges := g.edges.filter fun e => e.1 ≠ u ∧ e.2 ≠ u
  nodup := g.nodup.filter _
  edge_mem e he := by
    obtain ⟨he, hne⟩ := List.mem_filter.mp he
    have hne := of_decide_eq_true hne
    obtain ⟨hfrom, hto⟩ := g.edge_mem e he
    exact ⟨List.mem_filter.mpr ⟨hfrom, decide_eq_true hne.1⟩,
      List.mem_filter.mpr ⟨hto, decide_eq_true hne.2⟩⟩

theorem destroyNode_edge (g : CudaGraph ν) (u a b : ν) :
    (g.destroyNode u).Edge a b ↔ g.Edge a b ∧ a ≠ u ∧ b ≠ u := by
  unfold Edge destroyNode
  rw [List.mem_filter, decide_eq_true_iff]

end CudaGraph

variable {ν : Type}

/-- `part` is, by `f`, a copy of `g` in which the nodes that `keep` holds of are
left and the others are taken away with their edges. -/
structure IsPart (g : CudaGraph ν) (keep : ν → Bool) (f : ν → ν) (part : CudaGraph ν) :
    Prop where
  inj : ∀ u ∈ g.nodes, ∀ v ∈ g.nodes, f u = f v → u = v
  nodes : part.nodes.Perm ((g.nodes.filter keep).map f)
  edges : ∀ u ∈ g.nodes, ∀ v ∈ g.nodes,
    part.Edge (f u) (f v) ↔ g.Edge u v ∧ keep u = true ∧ keep v = true

/-- `copy` is an isomorphic copy of `g` by `f`. -/
def IsClone (g : CudaGraph ν) (f : ν → ν) (copy : CudaGraph ν) : Prop :=
  IsPart g (fun _ => true) f copy

theorem isClone_copy (g : CudaGraph ν) {f : ν → ν} (hf : f.Injective) :
    IsClone g f (g.copy f hf) := by
  refine ⟨fun u _ v _ h => hf h, ?_, fun u _ v _ => ?_⟩
  · rw [List.filter_true]
    exact .refl _
  · have hmem : (f u, f v) ∈ g.edges.map (Prod.map f f) ↔ (u, v) ∈ g.edges :=
      @List.mem_map_of_injective _ _ (Prod.map f f) (Function.Injective.prodMap hf hf) (u, v)
        g.edges
    exact hmem.trans ⟨fun h => ⟨h, rfl, rfl⟩, And.left⟩

theorem IsPart.congr {g part : CudaGraph ν} {keep keep' : ν → Bool} {f : ν → ν}
    (h : IsPart g keep f part) (hkeep : ∀ u ∈ g.nodes, keep u = keep' u) :
    IsPart g keep' f part := by
  refine ⟨h.inj, ?_, fun u hu v hv => ?_⟩
  · rw [← List.filter_congr hkeep]
    exact h.nodes
  · rw [← hkeep u hu, ← hkeep v hv]
    exact h.edges u hu v hv

section

variable [DecidableEq ν] {g part : CudaGraph ν} {keep : ν → Bool} {f : ν → ν}

/-- Taking the image of a node away takes that node out of the part. -/
theorem IsPart.destroyNode (h : IsPart g keep f part) {u : ν} (hu : u ∈ g.nodes) :
    IsPart g (fun w => keep w && decide (w ≠ u)) f (part.destroyNode (f u)) := by
  -- `f` keeps apart what is in the graph, so the node taken away is the image of `u` only
  have hne : ∀ w ∈ g.nodes, f w ≠ f u ↔ w ≠ u := by
    intro w hw
    refine not_congr ⟨h.inj w hw u hu, ?_⟩
    rintro rfl
    rfl
  refine ⟨h.inj, ?_, fun a ha b hb => ?_⟩
  · show (part.nodes.filter fun w => w ≠ f u).Perm _
    refine (h.nodes.filter _).trans (.of_eq ?_)
    rw [List.filter_map, List.filter_filter]
    refine congrArg (List.map f) (List.filter_congr fun w hw => ?_)
    rw [Bool.and_comm]
    exact congrArg _ (decide_eq_decide.mpr (hne w hw))
  · rw [CudaGraph.destroyNode_edge, h.edges a ha b hb, hne a ha, hne b hb]
    simp only [Bool.and_eq_true, decide_eq_true_eq]
    tauto

end

/-! ## A part that keeps one stage -/

section

variable {g part : CudaGraph ν} {stage : ν → Nat} {k : Nat} {f : ν → ν}

theorem IsPart.transGen (h : IsPart g (fun u => stage u = k) f part) {u v : ν}
    (huv : TransGen (Within g.Edge stage k) u v) : part.Reaches (f u) (f v) := by
  refine huv.lift f fun a b hab => ?_
  obtain ⟨hedge, ha, hb⟩ := hab
  obtain ⟨hamem, hbmem⟩ := g.edge_mem _ hedge
  exact (h.edges a hamem b hbmem).mpr ⟨hedge, decide_eq_true ha, decide_eq_true hb⟩

/-- The nodes of a part are the images of the nodes that are kept. -/
theorem IsPart.mem_iff {keep : ν → Bool} (h : IsPart g keep f part) {x : ν} :
    x ∈ part.nodes ↔ ∃ u ∈ g.nodes, keep u = true ∧ f u = x := by
  rw [h.nodes.mem_iff, List.mem_map]
  simp only [List.mem_filter, and_assoc]

/-- A path of the part is the image of a path within the stage. -/
theorem IsPart.of_reaches (h : IsPart g (fun u => stage u = k) f part) {u y : ν}
    (hu : u ∈ g.nodes) (hreach : part.Reaches (f u) y) :
    ∃ v ∈ g.nodes, f v = y ∧ TransGen (Within g.Edge stage k) u v := by
  have image : ∀ a ∈ g.nodes, ∀ y, part.Edge (f a) y →
      ∃ b ∈ g.nodes, f b = y ∧ Within g.Edge stage k a b := by
    intro a ha y hedge
    obtain ⟨b, hb, -, rfl⟩ := h.mem_iff.mp (part.edge_mem _ hedge).2
    obtain ⟨hab, hka, hkb⟩ := (h.edges a ha b hb).mp hedge
    exact ⟨b, hb, rfl, hab, of_decide_eq_true hka, of_decide_eq_true hkb⟩
  induction hreach with
  | single hedge =>
    obtain ⟨v, hv, rfl, huv⟩ := image u hu _ hedge
    exact ⟨v, hv, rfl, .single huv⟩
  | tail _ hedge ih =>
    obtain ⟨v, hv, rfl, huv⟩ := ih
    obtain ⟨w, hw, rfl, hvw⟩ := image v hv _ hedge
    exact ⟨w, hw, rfl, huv.tail hvw⟩

/-- Where no edge leads to an earlier stage, two kept nodes reach each other within
the part just when they do in the graph. -/
theorem IsPart.reaches_iff (h : IsPart g (fun u => stage u = k) f part)
    (hforward : Forward g.Edge stage) {u v : ν} (hu : u ∈ g.nodes) (hv : v ∈ g.nodes)
    (hku : stage u = k) (hkv : stage v = k) :
    part.Reaches (f u) (f v) ↔ g.Reaches u v := by
  constructor
  · intro hreach
    obtain ⟨w, hw, heq, huw⟩ := h.of_reaches hu hreach
    obtain rfl := h.inj w hw v hv heq
    exact transGen_of_within huw
  · exact fun hreach => h.transGen (hforward.transGen_within hreach hku hkv)

/-- An order the part allows is, read back, an order of the kept nodes that the
edges within the stage allow. -/
theorem IsPart.allowed (h : IsPart g (fun u => stage u = k) f part) {order : List ν}
    (horder : Allowed part.Edge (order.map f)) : Allowed (Within g.Edge stage k) order := by
  refine (List.pairwise_map.mp horder).imp fun {a b} hnot hba => hnot ?_
  exact h.transGen hba

/-- Read back, an order of the part's nodes has each node that is kept once. -/
theorem IsPart.perm {keep : ν → Bool} (h : IsPart g keep f part) {order : List ν}
    (hmem : ∀ u ∈ order, u ∈ g.nodes) (horder : (order.map f).Perm part.nodes) :
    order.Perm (g.nodes.filter keep) := by
  have hnodup : order.Nodup := List.Nodup.of_map f (horder.nodup_iff.mpr part.nodup)
  refine (List.perm_ext_iff_of_nodup hnodup (g.nodup.filter keep)).mpr fun u => ?_
  rw [List.mem_filter]
  constructor
  · intro hu
    obtain ⟨v, hv, hkeep, heq⟩ := h.mem_iff.mp (horder.mem_iff.mp (List.mem_map_of_mem hu))
    obtain rfl := h.inj v hv u (hmem u hu) heq
    exact ⟨hv, hkeep⟩
  · rintro ⟨hu, hkeep⟩
    have himage : f u ∈ part.nodes := h.mem_iff.mpr ⟨u, hu, hkeep, rfl⟩
    obtain ⟨v, hv, heq⟩ := List.mem_map.mp (horder.mem_iff.mpr himage)
    obtain rfl := h.inj v (hmem v hv) u hu heq
    exact hv

end

end Lilt.Graph
