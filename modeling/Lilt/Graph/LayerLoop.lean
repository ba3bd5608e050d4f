import Lilt.Graph.Layering
import Lilt.Lib.Walks

/-!
# The layering loop ends and finds the longest paths

`layerRounds` bounds the `while` loop of `graph_build_graphlets` by the number of
nodes. Here the loop is taken as the source has it, without a bound: a run of it is
a derivation of `LayerLoop`, so that a loop that does not end has none.

- `LayerLoop`: a run of the loop and how it ends.
- `RoundReached`: the states it goes through.
- `NodeGuardsPass`: no decrement of the second loop of a round is skipped.
- `layering_exact`: the loop ends; it fails just on a cycle or an edge from
  elsewhere; else a node's layer is the length of a longest path to it.
-/

namespace Lilt.Graph

open Relation Walks

variable {ν : Type} [DecidableEq ν]

/-- A run of `while (remaining != 0)` and its outcome: the last state and
`layer_count`, or the reason to give up. -/
inductive LayerLoop (nodes : List ν) (edges : List (ν × ν)) :
    LayerState → Nat → Except FallbackReason (LayerState × Nat) → Prop where
  | finished (st : LayerState) (layer : Nat) (h : st.remaining = 0) :
      LayerLoop nodes edges st layer (.ok (st, layer))
  | stuck (st : LayerState) (layer : Nat) (h : st.remaining ≠ 0)
      (hnone : (markLayer nodes.length layer st).2 = 0) :
      LayerLoop nodes edges st layer (.error .cyclicOrInvalidDag)
  | round (st : LayerState) (layer : Nat) (outcome : Except FallbackReason (LayerState × Nat))
      (h : st.remaining ≠ 0) (hsome : (markLayer nodes.length layer st).2 ≠ 0)
      (hrest : LayerLoop nodes edges
        (releaseLayer nodes edges (markLayer nodes.length layer st).1) (layer + 1) outcome) :
      LayerLoop nodes edges st layer outcome

/-- The states between the rounds of the loop, with `layer_count`. -/
inductive RoundReached (nodes : List ν) (edges : List (ν × ν)) (start : LayerState) :
    LayerState → Nat → Prop where
  | start : RoundReached nodes edges start start 0
  | round {st : LayerState} {layer : Nat} (hreached : RoundReached nodes edges start st layer)
      (h : st.remaining ≠ 0) (hsome : (markLayer nodes.length layer st).2 ≠ 0) :
      RoundReached nodes edges start
        (releaseLayer nodes edges (markLayer nodes.length layer st).1) (layer + 1)

/-- The innermost loop, begun with the counters `indegree`, takes every edge of the
node away: when an edge's turn comes its destination has an index and a counter
above zero. -/
def EdgeGuardsPass (nodes : List ν) (edges : List (ν × ν)) (node : ν)
    (indegree : Nat → Nat) : Prop :=
  ∀ (before after : List (ν × ν)) (e : ν × ν), edges = before ++ e :: after → e.1 = node →
    0 ≤ graphNodeIndex nodes e.2 ∧
      0 < before.foldl (releaseEdge nodes node) indegree (destIndex nodes e)

/-- The second loop of a round, begun in `st`, skips no decrement. -/
def NodeGuardsPass (nodes : List ν) (edges : List (ν × ν)) (st : LayerState) : Prop :=
  ∀ (i : Nat) (node : ν), nodes[i]? = some node →
    ((List.range i).foldl (releaseNode nodes edges) st).processed i = .current →
    EdgeGuardsPass nodes edges node ((List.range i).foldl (releaseNode nodes edges) st).indegree

/-! ## No decrement is skipped -/

section guards

variable {nodes : List ν} {edges : List (ν × ν)}

/-- Counters that count the pending edges cover the edges of a node that is not
done. -/
theorem edgeGuardsPass_of_pending (hnodup : nodes.Nodup)
    (hedges : ∀ e ∈ edges, 0 ≤ graphNodeIndex nodes e.2) {processed : Nat → Mark} {i : Nat}
    {node : ν} (hnode : nodes[i]? = some node) (hi : processed i ≠ .done)
    {indegree : Nat → Nat} (hpending : ∀ b, indegree b = pending nodes edges processed b) :
    EdgeGuardsPass nodes edges node indegree := by
  rintro before after e rfl hsource
  refine ⟨hedges e (by simp), ?_⟩
  have hbefore : ∀ e ∈ before, 0 ≤ graphNodeIndex nodes e.2 := fun e he =>
    hedges e (List.mem_append_left _ he)
  rw [releaseEdge_foldl hbefore, hpending, pending_done nodes _ hi]
  -- of the edges of the node into that cell, those before and this one are not the same
  have hsplit : (before.countP fun x => x.1 = node ∧ destIndex nodes x = destIndex nodes e) + 1 ≤
      (before ++ e :: after).countP fun x =>
        sourceIndex nodes x = i ∧ destIndex nodes x = destIndex nodes e := by
    simp only [sourceIndex_eq_iff hnodup hnode]
    rw [List.countP_append, List.countP_cons, if_pos (by simp [hsource])]
    omega
  omega

/-- Between two rounds the next one skips no decrement. -/
theorem LayerInv.nodeGuardsPass {layer : Nat} {st : LayerState} (hI : LayerInv nodes edges layer st)
    (hnodup : nodes.Nodup) (hedges : ∀ e ∈ edges, 0 ≤ graphNodeIndex nodes e.2) :
    NodeGuardsPass nodes edges (markLayer nodes.length layer st).1 := by
  intro i node hnode hcurrent
  have hlt : i < nodes.length := (List.getElem?_eq_some_iff.mp hnode).1
  have hreleased := releaseNode_foldl hnodup hedges (markLayer nodes.length layer st).1
    fun j (hj : j ∈ List.range i) => Nat.lt_trans (List.mem_range.mp hj) hlt
  have hnot : ((List.range i).foldl (releaseNode nodes edges)
      (markLayer nodes.length layer st).1).processed i ≠ .done := by
    rw [hcurrent]
    exact Mark.noConfusion
  exact edgeGuardsPass_of_pending hnodup hedges hnode hnot
    (hreleased.indegree hI.marked_pending)

end guards

/-! ## The loop ends -/

section loop

variable {nodes : List ν} {edges : List (ν × ν)} {layer : Nat} {st : LayerState}

omit [DecidableEq ν] in
/-- A round that places something places a ready node. -/
theorem exists_ready (h : (markLayer nodes.length layer st).2 ≠ 0) :
    ∃ i < nodes.length, st.Ready i := by
  rw [markLayer_count, ← Nat.pos_iff_ne_zero, List.countP_pos_iff] at h
  obtain ⟨i, hi, hready⟩ := h
  exact ⟨i, List.mem_range.mp hi, of_decide_eq_true hready⟩

/-- Every round has fewer nodes left than the one before, so the loop ends, and
with the result of the bounded one. -/
theorem LayerInv.loop (hnodup : nodes.Nodup) (hedges : ∀ e ∈ edges, 0 ≤ graphNodeIndex nodes e.2)
    {fuel : Nat} (hI : LayerInv nodes edges layer st) (hfuel : st.remaining ≤ fuel) :
    ∃ outcome, LayerLoop nodes edges st layer outcome ∧
      outcome.map (fun r => (r.1.layers, r.2)) = layerRounds nodes edges fuel st layer := by
  induction fuel generalizing st layer with
  | zero =>
    have hzero : st.remaining = 0 := Nat.le_zero.mp hfuel
    exact ⟨_, .finished st layer hzero, (if_pos hzero).symm⟩
  | succ fuel ih =>
    unfold layerRounds
    by_cases hzero : st.remaining = 0
    · exact ⟨_, .finished st layer hzero, (if_pos hzero).symm⟩
    · rw [if_neg hzero]
      by_cases hnone : (markLayer nodes.length layer st).2 = 0
      · exact ⟨_, .stuck st layer hzero hnone, (if_pos hnone).symm⟩
      · obtain ⟨i, hi, hready⟩ := exists_ready hnone
        have hround := hI.round hnodup hedges
        have hlt := hround.remaining_lt hI hi hready
        obtain ⟨outcome, hrest, hresult⟩ :=
          ih (hround.inv hI ⟨i, hi, hready⟩) (show _ ≤ fuel by omega)
        refine ⟨outcome, .round st layer outcome hzero hnone hrest, ?_⟩
        exact hresult.trans (if_neg hnone).symm

/-- The invariant holds in every state the loop goes through. -/
theorem RoundReached.inv {start : LayerState} (hstart : LayerInv nodes edges 0 start)
    (hnodup : nodes.Nodup) (hedges : ∀ e ∈ edges, 0 ≤ graphNodeIndex nodes e.2)
    (h : RoundReached nodes edges start st layer) : LayerInv nodes edges layer st := by
  induction h with
  | start => exact hstart
  | round _ _ hsome ih => exact (ih.round hnodup hedges).inv ih (exists_ready hsome)

/-- How a run of the loop ends: with every node placed, or with none of those left
ready. -/
def Ends (nodes : List ν) (edges : List (ν × ν)) :
    Except FallbackReason (LayerState × Nat) → Prop
  | .ok (st, layerCount) => LayerInv nodes edges layerCount st ∧ st.remaining = 0
  | .error reason => reason = .cyclicOrInvalidDag ∧ ∃ st layer, LayerInv nodes edges layer st ∧
      st.remaining ≠ 0 ∧ ∀ i < nodes.length, ¬ st.Ready i

theorem LayerLoop.ends {outcome : Except FallbackReason (LayerState × Nat)}
    (h : LayerLoop nodes edges st layer outcome) (hI : LayerInv nodes edges layer st)
    (hnodup : nodes.Nodup) (hedges : ∀ e ∈ edges, 0 ≤ graphNodeIndex nodes e.2) :
    Ends nodes edges outcome := by
  induction h with
  | finished st layer hzero => exact ⟨hI, hzero⟩
  | stuck st layer hzero hnone =>
    refine ⟨rfl, st, layer, hI, hzero, fun i hi hready => ?_⟩
    rw [markLayer_count, List.countP_eq_zero] at hnone
    exact hnone i (List.mem_range.mpr hi) (decide_eq_true hready)
  | round st layer outcome _ hsome _ ih =>
    exact ih ((hI.round hnodup hedges).inv hI (exists_ready hsome))

theorem LayerInv.all_done (hI : LayerInv nodes edges layer st) (hzero : st.remaining = 0) :
    ∀ i < nodes.length, st.processed i = .done := by
  intro i hi
  rw [hI.remaining, notDone, List.countP_eq_zero] at hzero
  by_contra hnot
  exact hzero i (List.mem_range.mpr hi) (decide_eq_true hnot)

end loop

/-! ## Cycles and longest paths -/

/-- The edges as a relation of nodes. -/
def EdgeOf (edges : List (ν × ν)) (u v : ν) : Prop := (u, v) ∈ edges

/-- Some path leads from a node back to it. -/
def HasCycle (edges : List (ν × ν)) : Prop := ∃ v, TransGen (EdgeOf edges) v v

/-- The number of edges on the longest path to `v`. -/
def LongestPath (edges : List (ν × ν)) (v : ν) (k : Nat) : Prop :=
  IsGreatest { k | ∃ u, Walk (EdgeOf edges) k u v } k

section arrays

variable {nodes : List ν} {edges : List (ν × ν)}

/-- A node of an array in `int` range has an index. -/
theorem graphNodeIndex_mem (hsize : nodes.length < 2 ^ 31) {needle : ν} (h : needle ∈ nodes) :
    graphNodeIndex nodes needle = nodes.idxOf needle := by
  have hlt := List.idxOf_lt_length_of_mem h
  rw [graphNodeIndex, if_pos h, cInt, Int.bmod_def, uintSize]
  rw [if_pos (by omega)]
  omega

/-- The cell of an edge's destination is the node's index. -/
theorem destIndex_mem (hsize : nodes.length < 2 ^ 31) {e : ν × ν} (h : e.2 ∈ nodes) :
    destIndex nodes e = nodes.idxOf e.2 := by
  rw [destIndex, graphNodeIndex_mem hsize h, Int.toNat_natCast]

/-- A path of cells is a path of nodes. -/
theorem transGen_of_cells (hsize : nodes.length < 2 ^ 31) (hdest : ∀ e ∈ edges, e.2 ∈ nodes)
    (hsource : ∀ e ∈ edges, e.1 ∈ nodes) {i j : Nat} (h : TransGen (CellEdge nodes edges) i j) :
    ∃ u v, nodes[i]? = some u ∧ nodes[j]? = some v ∧ TransGen (EdgeOf edges) u v := by
  have hcell : ∀ {u : ν}, u ∈ nodes → nodes[nodes.idxOf u]? = some u := by
    intro u hu
    rw [List.getElem?_eq_getElem (List.idxOf_lt_length_of_mem hu), List.getElem_idxOf]
  have hends : ∀ {a b : Nat}, CellEdge nodes edges a b →
      ∃ u v, nodes[a]? = some u ∧ nodes[b]? = some v ∧ EdgeOf edges u v := by
    rintro a b ⟨e, he, rfl, rfl⟩
    refine ⟨e.1, e.2, hcell (hsource e he), ?_, he⟩
    rw [destIndex_mem hsize (hdest e he)]
    exact hcell (hdest e he)
  induction h with
  | single h =>
    obtain ⟨u, v, hu, hv, huv⟩ := hends h
    exact ⟨u, v, hu, hv, .single huv⟩
  | tail _ h ih =>
    obtain ⟨u, v, hu, hv, huv⟩ := ih
    obtain ⟨v', w, hv', hw, hvw⟩ := hends h
    obtain rfl : v = v' := Option.some.inj (hv.symm.trans hv')
    exact ⟨u, w, hu, hw, huv.tail hvw⟩

/-- Without a cycle and with all edges between nodes, the cells are well-founded. -/
theorem cellEdge_wellFounded (hsize : nodes.length < 2 ^ 31) (hdest : ∀ e ∈ edges, e.2 ∈ nodes)
    (hsource : ∀ e ∈ edges, e.1 ∈ nodes) (hacyclic : ¬ HasCycle edges) :
    WellFounded (CellEdge nodes edges) := by
  refine wellFounded_of_acyclic (Set.finite_lt_nat nodes.length) ?_ ?_
  · rintro a b ⟨e, he, rfl, -⟩
    exact List.idxOf_lt_length_of_mem (hsource e he)
  · intro i hi
    obtain ⟨u, v, hu, hv, huv⟩ := transGen_of_cells hsize hdest hsource hi
    obtain rfl : u = v := Option.some.inj (hu.symm.trans hv)
    exact hacyclic ⟨u, huv⟩

/-- What a layering that succeeds says about a node. -/
def layerOf (nodes : List ν) (layers : Nat → Nat) (v : ν) : Nat := layers (nodes.idxOf v)

section placed

variable {layerCount : Nat} {st : LayerState} (hI : LayerInv nodes edges layerCount st)
  (hzero : st.remaining = 0) (hsize : nodes.length < 2 ^ 31) (hdest : ∀ e ∈ edges, e.2 ∈ nodes)

include hI hzero hsize hdest

/-- An edge leads from a node to a node of a later layer. -/
theorem placed_edge {e : ν × ν} (he : e ∈ edges) :
    e.1 ∈ nodes ∧ layerOf nodes st.layers e.1 < layerOf nodes st.layers e.2 := by
  have hdone := hI.all_done hzero _ (List.idxOf_lt_length_of_mem (hdest e he))
  rw [← destIndex_mem hsize (hdest e he)] at hdone
  obtain ⟨hsource, hlt⟩ := hI.closed e he hdone
  constructor
  · -- the cell behind the array, where a foreign source would be, is never done
    by_contra hforeign
    have hout : nodes.length ≤ sourceIndex nodes e := List.idxOf_eq_length hforeign |>.ge
    rw [hI.outside _ hout] at hsource
    cases hsource
  · rwa [destIndex_mem hsize (hdest e he)] at hlt

theorem placed_ascends : Ascends (EdgeOf edges) (layerOf nodes st.layers) := fun _ _ he =>
  (placed_edge hI hzero hsize hdest he).2

theorem placed_tight :
    Tight (EdgeOf edges) (layerOf nodes st.layers) { v | v ∈ nodes } := by
  intro v hv hlayer
  have hdone := hI.all_done hzero _ (List.idxOf_lt_length_of_mem hv)
  obtain ⟨e, he, hcell, hbefore⟩ := hI.tight _ hdone hlayer
  rw [destIndex_mem hsize (hdest e he)] at hcell
  obtain rfl : e.2 = v := (List.idxOf_inj (hdest e he)).mp hcell
  exact ⟨e.1, (placed_edge hI hzero hsize hdest he).1, he, hbefore⟩

/-- The layer of a node is the length of a longest path to it. -/
theorem placed_longestPath {v : ν} (hv : v ∈ nodes) :
    LongestPath edges v (layerOf nodes st.layers v) :=
  isGreatest_rank (placed_ascends hI hzero hsize hdest) (placed_tight hI hzero hsize hdest) hv

theorem placed_acyclic : ¬ HasCycle edges := by
  rintro ⟨v, hv⟩
  exact not_cycle_of_ascends (placed_ascends hI hzero hsize hdest) v hv

end placed

end arrays

/-! ## The layering is exact -/

/-- The outcome of the loop is what the graph asks for. -/
structure LayeringExact (nodes : List ν) (edges : List (ν × ν))
    (outcome : Except FallbackReason (LayerState × Nat)) : Prop where
  rejects : outcome = .error .cyclicOrInvalidDag ↔
    HasCycle edges ∨ ∃ e ∈ edges, e.1 ∉ nodes
  /-- The loop has no other way to fail. -/
  reason : ∀ reason, outcome = .error reason → reason = .cyclicOrInvalidDag
  placed : ∀ st layerCount, outcome = .ok (st, layerCount) →
    ∀ i < nodes.length, st.processed i = .done ∧ st.layers i < layerCount
  longest : ∀ st layerCount, outcome = .ok (st, layerCount) →
    ∀ i v, nodes[i]? = some v → LongestPath edges v (st.layers i)
  used : ∀ st layerCount, outcome = .ok (st, layerCount) →
    ∀ l < layerCount, ∃ i < nodes.length, st.layers i = l

section

variable {nodes : List ν} {edges : List (ν × ν)}

/-- A run that places every node. -/
theorem layeringExact_ok (hnodup : nodes.Nodup) (hsize : nodes.length < 2 ^ 31)
    (hdest : ∀ e ∈ edges, e.2 ∈ nodes) {st : LayerState} {layerCount : Nat}
    (hI : LayerInv nodes edges layerCount st) (hzero : st.remaining = 0) :
    LayeringExact nodes edges (.ok (st, layerCount)) := by
  have hdone := hI.all_done hzero
  refine { rejects := ?_, reason := ?_, placed := ?_, longest := ?_, used := ?_ }
  · refine iff_of_false (by rintro ⟨⟩) ?_
    rintro (hcycle | ⟨e, he, hforeign⟩)
    · exact placed_acyclic hI hzero hsize hdest hcycle
    · exact hforeign (placed_edge hI hzero hsize hdest he).1
  · rintro reason ⟨⟩
  · rintro _ _ ⟨⟩ i hi
    exact ⟨hdone i hi, hI.below i (hdone i hi)⟩
  · rintro _ _ ⟨⟩ i v hv
    obtain ⟨hi, rfl⟩ := List.getElem?_eq_some_iff.mp hv
    have hlongest := placed_longestPath hI hzero hsize hdest (List.getElem_mem hi)
    rwa [layerOf, hnodup.idxOf_getElem i hi] at hlongest
  · rintro _ _ ⟨⟩ l hl
    obtain ⟨i, hi, -, hlayer⟩ := hI.used l hl
    exact ⟨i, hi, hlayer⟩

/-- A run that gives up: without a cycle or a foreign source some node would have
been ready. -/
theorem layeringExact_error (hsize : nodes.length < 2 ^ 31) (hdest : ∀ e ∈ edges, e.2 ∈ nodes)
    {st : LayerState} {layer : Nat} (hI : LayerInv nodes edges layer st)
    (hremaining : st.remaining ≠ 0) (hnone : ∀ i < nodes.length, ¬ st.Ready i) :
    LayeringExact nodes edges (.error .cyclicOrInvalidDag) := by
  refine { rejects := iff_of_true rfl ?_, reason := ?_, placed := ?_, longest := ?_, used := ?_ }
  · by_contra hno
    rw [not_or] at hno
    obtain ⟨hacyclic, hnative⟩ := hno
    have hsource : ∀ e ∈ edges, e.1 ∈ nodes := fun e he => by
      by_contra hforeign
      exact hnative ⟨e, he, hforeign⟩
    obtain ⟨i, hi, hready⟩ := hI.progress (cellEdge_wellFounded hsize hdest hsource hacyclic)
      (fun e he => List.idxOf_lt_length_of_mem (hsource e he)) hremaining
    exact hnone i hi hready
  · exact fun reason h => (Except.error.inj h).symm
  · rintro _ _ ⟨⟩
  · rintro _ _ ⟨⟩
  · rintro _ _ ⟨⟩

end

/-- On distinct nodes in `int` range and fewer than 2^32 edges into them, the
layering loop ends, with the outcome the graph asks for, and in none of its rounds
is a decrement skipped. -/
theorem layering_exact (nodes : List ν) (edges : List (ν × ν)) (hnodup : nodes.Nodup)
    (hsize : nodes.length < 2 ^ 31) (hcount : edges.length < 2 ^ 32)
    (hdest : ∀ e ∈ edges, e.2 ∈ nodes) :
    ∃ indegree outcome, countIndegrees nodes edges (fun _ => 0) = .ok indegree ∧
      LayerLoop nodes edges (.start nodes.length indegree) 0 outcome ∧
      outcome.map (fun r => (r.1.layers, r.2)) = graphLayers nodes edges ∧
      LayeringExact nodes edges outcome ∧
      ∀ st layer, RoundReached nodes edges (.start nodes.length indegree) st layer →
        NodeGuardsPass nodes edges (markLayer nodes.length layer st).1 := by
  have hedges : ∀ e ∈ edges, 0 ≤ graphNodeIndex nodes e.2 := fun e he => by
    rw [graphNodeIndex_mem hsize (hdest e he)]
    exact Int.natCast_nonneg _
  have hwraps : ∀ b, (edges.countP fun e => destIndex nodes e = b) < uintSize := fun b =>
    Nat.lt_of_le_of_lt List.countP_le_length hcount
  obtain ⟨indegree, hindegree⟩ := countIndegrees_total hedges fun _ => 0
  have hstart : LayerInv nodes edges 0 (.start nodes.length indegree) := .start hwraps hindegree
  obtain ⟨outcome, hloop, hresult⟩ := hstart.loop hnodup hedges (Nat.le_refl _)
  refine ⟨indegree, outcome, hindegree, hloop, ?_, ?_, fun st layer hreached => ?_⟩
  · rw [hresult, graphLayers, hindegree]
    rfl
  · have hends := hloop.ends hstart hnodup hedges
    rcases outcome with reason | ⟨st, layerCount⟩
    · obtain ⟨rfl, st, layer, hI, hremaining, hnone⟩ := hends
      exact layeringExact_error hsize hdest hI hremaining hnone
    · exact layeringExact_ok hnodup hsize hdest hends.1 hends.2
  · exact (hreached.inv hstart hnodup hedges).nodeGuardsPass hnodup hedges

/-- A diamond with one of its edges doubled. -/
theorem layering_exact_diamond :
    ∃ indegree outcome,
      countIndegrees [1, 2, 3, 4] [(1, 2), (1, 3), (2, 4), (2, 4), (3, 4)] (fun _ => 0) =
        .ok indegree ∧
      LayerLoop [1, 2, 3, 4] [(1, 2), (1, 3), (2, 4), (2, 4), (3, 4)] (.start 4 indegree) 0
        outcome ∧
      outcome.map (fun r => (r.1.layers, r.2)) =
        graphLayers [1, 2, 3, 4] [(1, 2), (1, 3), (2, 4), (2, 4), (3, 4)] ∧
      LayeringExact [1, 2, 3, 4] [(1, 2), (1, 3), (2, 4), (2, 4), (3, 4)] outcome ∧
      ∀ st layer, RoundReached [1, 2, 3, 4] [(1, 2), (1, 3), (2, 4), (2, 4), (3, 4)]
        (.start 4 indegree) st layer →
        NodeGuardsPass [1, 2, 3, 4] [(1, 2), (1, 3), (2, 4), (2, 4), (3, 4)]
          (markLayer 4 layer st).1 :=
  layering_exact [1, 2, 3, 4] [(1, 2), (1, 3), (2, 4), (2, 4), (3, 4)] (by decide) (by decide)
    (by decide) (by decide)

/-- The layers of the diamond. -/
example : (graphLayers [1, 2, 3, 4] [(1, 2), (1, 3), (2, 4), (2, 4), (3, 4)]).map
    (fun r => ((List.range 4).map r.1, r.2)) = .ok ([0, 1, 1, 2], 3) := by rfl

end Lilt.Graph
