import Mathlib.Algebra.Group.Nat.Defs
import Mathlib.Data.List.Basic
import Mathlib.Data.List.Count
import Mathlib.Logic.Function.Basic
import Mathlib.Order.WellFounded
import Lilt.Lib.Checks

/-!
# Layers of a graph (`graph_build_graphlets`)

The node and edge arrays that the driver returned are lists. The first pass counts
the edges into each node; then every round puts the nodes without a pending edge
into the next layer and takes their edges away.

- `graphNodeIndex`: a node's index, as the `int` of the source.
- `countIndegrees`, `markLayer`, `releaseLayer`, `layerRounds`: the loops.
- `graphLayers`: the layer of each node and the number of layers.
- `LayerInv`: what holds between two rounds.
- `graphLayers_spec`: an edge leads to a later layer, no layer is empty.

The counters are `unsigned int`, so a count wraps at `2^32`. An edge counts for a
node below index `2^31`, so no more than `2^31 + 1` layers are made; their numbers
are natural numbers here.
-/

namespace Lilt.Graph

open Checks

variable {ν : Type} [DecidableEq ν]

/-- The values of `unsigned int`. -/
def uintSize : Nat := 2 ^ 32

/-- `(int)i` -/
def cInt (i : Nat) : Int := Int.bmod i uintSize

/-- `graph_node_index` -/
def graphNodeIndex (nodes : List ν) (needle : ν) : Int :=
  if needle ∈ nodes then cInt (nodes.idxOf needle) else -1

/-- `metadata->fallback_reason` -/
inductive FallbackReason where
  | missingDriverApi
  | emptyOrUnreadable
  | deviceLaunch
  | allocationFailure
  | nodeQueryFailure
  | unsupportedNode
  | edgeQueryFailure
  | foreignEdge
  | cyclicOrInvalidDag
  | cloneFailure
  | cloneMappingFailure
  | clonePruneFailure
  | graphletInstantiateFailure
  deriving DecidableEq

def FallbackReason.text : FallbackReason → String
  | .missingDriverApi => "missing_driver_api"
  | .emptyOrUnreadable => "empty_or_unreadable"
  | .deviceLaunch => "device_launch"
  | .allocationFailure => "allocation_failure"
  | .nodeQueryFailure => "node_query_failure"
  | .unsupportedNode => "unsupported_node"
  | .edgeQueryFailure => "edge_query_failure"
  | .foreignEdge => "foreign_edge"
  | .cyclicOrInvalidDag => "cyclic_or_invalid_dag"
  | .cloneFailure => "clone_failure"
  | .cloneMappingFailure => "clone_mapping_failure"
  | .clonePruneFailure => "clone_prune_failure"
  | .graphletInstantiateFailure => "graphlet_instantiate_failure"

/-- The loop that counts the edges into each node. -/
def countIndegrees (nodes : List ν) : List (ν × ν) → (Nat → Nat) →
    Except FallbackReason (Nat → Nat)
  | [], indegree => .ok indegree
  | edge :: edges, indegree =>
    let destination := graphNodeIndex nodes edge.2
    if destination < 0 then .error .foreignEdge
    else
      let d := destination.toNat
      countIndegrees nodes edges (Function.update indegree d ((indegree d + 1) % uintSize))

/-- The values of `processed`: 0, 1 and 2. -/
inductive Mark where
  | waiting
  | done
  | current
  deriving DecidableEq

structure LayerState where
  indegree : Nat → Nat
  layers : Nat → Nat
  processed : Nat → Mark
  remaining : Nat

/-- The arrays before the first round. -/
def LayerState.start (nodeCount : Nat) (indegree : Nat → Nat) : LayerState where
  indegree := indegree
  layers := fun _ => 0
  processed := fun _ => .waiting
  remaining := nodeCount

/-- One turn of the first loop of a round; the number is `this_layer`. -/
def markNode (layer : Nat) (acc : LayerState × Nat) (i : Nat) : LayerState × Nat :=
  let st := acc.1
  if st.processed i = .waiting ∧ st.indegree i = 0 then
    ({ st with
        layers := Function.update st.layers i layer
        processed := Function.update st.processed i .current }, acc.2 + 1)
  else acc

/-- The first loop of a round. -/
def markLayer (nodeCount layer : Nat) (st : LayerState) : LayerState × Nat :=
  (List.range nodeCount).foldl (markNode layer) (st, 0)

/-- One turn of the innermost loop, for an edge of `node`. -/
def releaseEdge (nodes : List ν) (node : ν) (indegree : Nat → Nat) (edge : ν × ν) : Nat → Nat :=
  if edge.1 = node then
    let destination := graphNodeIndex nodes edge.2
    if 0 ≤ destination ∧ 0 < indegree destination.toNat then
      Function.update indegree destination.toNat (indegree destination.toNat - 1)
    else indegree
  else indegree

/-- One turn of the second loop of a round. -/
def releaseNode (nodes : List ν) (edges : List (ν × ν)) (st : LayerState) (i : Nat) :
    LayerState :=
  if st.processed i = .current then
    { st with
      processed := Function.update st.processed i .done
      remaining := st.remaining - 1
      indegree :=
        match nodes[i]? with
        | some node => edges.foldl (releaseEdge nodes node) st.indegree
        | none => st.indegree }
  else st

/-- The second loop of a round. -/
def releaseLayer (nodes : List ν) (edges : List (ν × ν)) (st : LayerState) : LayerState :=
  (List.range nodes.length).foldl (releaseNode nodes edges) st

/-- `while (remaining != 0)`, for at most `fuel` rounds. -/
def layerRounds (nodes : List ν) (edges : List (ν × ν)) : (fuel : Nat) → LayerState →
    (layer : Nat) → Except FallbackReason ((Nat → Nat) × Nat)
  | 0, st, layer =>
    if st.remaining = 0 then .ok (st.layers, layer) else .error .cyclicOrInvalidDag
  | fuel + 1, st, layer =>
    if st.remaining = 0 then .ok (st.layers, layer)
    else
      let (marked, thisLayer) := markLayer nodes.length layer st
      if thisLayer = 0 then .error .cyclicOrInvalidDag
      else layerRounds nodes edges fuel (releaseLayer nodes edges marked) (layer + 1)

/-- The layering part of `graph_build_graphlets`: `layers` and `layer_count`. A round
takes a node, so there are no more rounds than nodes. -/
def graphLayers (nodes : List ν) (edges : List (ν × ν)) :
    Except FallbackReason ((Nat → Nat) × Nat) := do
  let indegree ← countIndegrees nodes edges fun _ => 0
  layerRounds nodes edges nodes.length (.start nodes.length indegree) 0

/-! ## Indices -/

/-- The cell that stands for the destination of an edge. -/
def destIndex (nodes : List ν) (edge : ν × ν) : Nat := (graphNodeIndex nodes edge.2).toNat

/-- The node the edge comes from; a source that is no node has no index. -/
def sourceIndex (nodes : List ν) (edge : ν × ν) : Nat := nodes.idxOf edge.1

theorem cInt_eq {i : Nat} (h : i < uintSize) (hpos : 0 ≤ cInt i) : cInt i = i := by
  unfold cInt at hpos ⊢
  unfold uintSize at *
  rw [Int.bmod_def] at hpos ⊢
  split at hpos
  next hlow =>
    rw [if_pos hlow]
    omega
  next => omega

/-- In an array of up to `2^32` nodes an index that is not negative is exact. -/
theorem graphNodeIndex_exact {nodes : List ν} (hsize : nodes.length ≤ uintSize) {needle : ν}
    (h : 0 ≤ graphNodeIndex nodes needle) :
    needle ∈ nodes ∧ graphNodeIndex nodes needle = nodes.idxOf needle := by
  unfold graphNodeIndex at h ⊢
  split at h
  next hmem =>
    have hlt := List.idxOf_lt_length_of_mem hmem
    rw [if_pos hmem]
    exact ⟨hmem, cInt_eq (by omega) h⟩
  next => exact absurd h (by decide)

/-- Counting refuses an edge whose destination has a negative index, and counts
modulo `2^32`. -/
theorem countIndegrees_ok {nodes : List ν} {edges : List (ν × ν)} {indegree counted : Nat → Nat}
    (h : countIndegrees nodes edges indegree = .ok counted) :
    (∀ e ∈ edges, 0 ≤ graphNodeIndex nodes e.2) ∧
      ∀ b, indegree b < uintSize →
        counted b = (indegree b + edges.countP fun e => destIndex nodes e = b) % uintSize := by
  induction edges generalizing indegree with
  | nil =>
    obtain rfl := Except.ok.inj h
    refine ⟨fun e he => absurd he List.not_mem_nil, fun b hb => ?_⟩
    rw [List.countP_nil, Nat.add_zero, Nat.mod_eq_of_lt hb]
  | cons e edges ih =>
    unfold countIndegrees at h
    dsimp only at h
    split at h
    · cases h
    next hpos =>
      obtain ⟨hedges, hcounted⟩ := ih h
      refine ⟨List.forall_mem_cons.mpr ⟨Int.not_lt.mp hpos, hedges⟩, fun b hb => ?_⟩
      have hsize : 0 < uintSize := by decide
      rw [List.countP_cons]
      by_cases hd : destIndex nodes e = b
      · have hupdate : Function.update indegree (graphNodeIndex nodes e.2).toNat
            ((indegree (graphNodeIndex nodes e.2).toNat + 1) % uintSize) b =
            (indegree b + 1) % uintSize := by
          rw [show (graphNodeIndex nodes e.2).toNat = b from hd, Function.update_self]
        rw [hcounted b (by rw [hupdate]; exact Nat.mod_lt _ hsize), hupdate, Nat.mod_add_mod,
          if_pos (decide_eq_true hd)]
        congr 1
        omega
      · have hupdate : Function.update indegree (graphNodeIndex nodes e.2).toNat
            ((indegree (graphNodeIndex nodes e.2).toNat + 1) % uintSize) b = indegree b :=
          Function.update_of_ne (Ne.symm hd) _ _
        rw [hcounted b (by rw [hupdate]; exact hb), hupdate, if_neg (by simp [hd]), Nat.add_zero]

/-! ## One round -/

/-- The edges into the cell `b` that are not taken away yet. -/
def pending (nodes : List ν) (edges : List (ν × ν)) (processed : Nat → Mark) (b : Nat) : Nat :=
  edges.countP fun e => destIndex nodes e = b ∧ processed (sourceIndex nodes e) ≠ .done

/-- The node is not placed and has no pending edge. -/
def LayerState.Ready (st : LayerState) (i : Nat) : Prop :=
  st.processed i = .waiting ∧ st.indegree i = 0

instance (st : LayerState) (i : Nat) : Decidable (st.Ready i) :=
  inferInstanceAs (Decidable (_ ∧ _))

theorem markNode_ready {layer : Nat} {acc : LayerState × Nat} {i : Nat} (h : acc.1.Ready i) :
    markNode layer acc i =
      ({ acc.1 with
          layers := Function.update acc.1.layers i layer
          processed := Function.update acc.1.processed i .current }, acc.2 + 1) := if_pos h

theorem markNode_skip {layer : Nat} {acc : LayerState × Nat} {i : Nat} (h : ¬ acc.1.Ready i) :
    markNode layer acc i = acc := if_neg h

/-- The ready nodes among `is` are put into the layer. -/
structure Marked (layer : Nat) (is : List Nat) (st st' : LayerState) : Prop where
  processed : ∀ j, st'.processed j = if j ∈ is ∧ st.Ready j then .current else st.processed j
  layers : ∀ j, st'.layers j = if j ∈ is ∧ st.Ready j then layer else st.layers j
  indegree : st'.indegree = st.indegree
  remaining : st'.remaining = st.remaining

theorem markNode_foldl (layer : Nat) {is : List Nat} (hnodup : is.Nodup)
    (acc : LayerState × Nat) :
    Marked layer is acc.1 (is.foldl (markNode layer) acc).1 ∧
      (is.foldl (markNode layer) acc).2 = acc.2 + is.countP fun i => acc.1.Ready i := by
  -- marking a node leaves the others ready or not, as they were
  induction is generalizing acc with
  | nil => exact ⟨⟨by simp, by simp, rfl, rfl⟩, rfl⟩
  | cons i is ih =>
    obtain ⟨hi, hnodup⟩ := List.nodup_cons.mp hnodup
    rw [List.foldl_cons]
    by_cases hready : acc.1.Ready i
    · rw [markNode_ready hready, List.countP_cons, if_pos (decide_eq_true hready)]
      obtain ⟨hmarked, hcount⟩ := ih hnodup
        ({ acc.1 with
            layers := Function.update acc.1.layers i layer
            processed := Function.update acc.1.processed i .current }, acc.2 + 1)
      have hne : ∀ j ∈ is, j ≠ i := by
        rintro j hj rfl
        exact hi hj
      refine ⟨⟨fun j => ?_, fun j => ?_, hmarked.indegree, hmarked.remaining⟩, ?_⟩
      · rw [hmarked.processed j]
        by_cases hj : j = i
        · subst hj
          simp [hi, hready]
        · simp [LayerState.Ready, hj]
      · rw [hmarked.layers j]
        by_cases hj : j = i
        · subst hj
          simp [hi, hready]
        · simp [LayerState.Ready, hj]
      · rw [hcount, Nat.add_assoc, Nat.add_comm 1]
        congr 2
        refine List.countP_congr fun j hj => ?_
        rw [decide_eq_true_iff, decide_eq_true_iff]
        simp [LayerState.Ready, hne j hj]
    · rw [markNode_skip hready, List.countP_cons, if_neg (by simpa using hready), Nat.add_zero]
      obtain ⟨hmarked, hcount⟩ := ih hnodup acc
      have hiff : ∀ j, j ∈ i :: is ∧ acc.1.Ready j ↔ j ∈ is ∧ acc.1.Ready j := by
        intro j
        rw [List.mem_cons]
        constructor
        · rintro ⟨rfl | hj, hr⟩
          · exact absurd hr hready
          · exact ⟨hj, hr⟩
        · rintro ⟨hj, hr⟩
          exact ⟨.inr hj, hr⟩
      refine ⟨⟨fun j => ?_, fun j => ?_, hmarked.indegree, hmarked.remaining⟩, hcount⟩
      · rw [hmarked.processed j]
        exact if_congr (hiff j).symm rfl rfl
      · rw [hmarked.layers j]
        exact if_congr (hiff j).symm rfl rfl

theorem releaseEdge_apply {nodes : List ν} {node : ν} {e : ν × ν}
    (he : 0 ≤ graphNodeIndex nodes e.2) (indegree : Nat → Nat) (b : Nat) :
    releaseEdge nodes node indegree e b =
      if e.1 = node ∧ destIndex nodes e = b then indegree b - 1 else indegree b := by
  unfold releaseEdge
  by_cases hsource : e.1 = node
  · rw [if_pos hsource]
    by_cases hdest : destIndex nodes e = b
    · have hboth : e.1 = node ∧ destIndex nodes e = b := ⟨hsource, hdest⟩
      rw [if_pos hboth]
      show (if 0 ≤ graphNodeIndex nodes e.2 ∧ 0 < indegree (destIndex nodes e) then
        Function.update indegree (destIndex nodes e) (indegree (destIndex nodes e) - 1)
        else indegree) b = _
      rw [hdest]
      split
      · exact Function.update_self ..
      next hzero => omega
    · have hne : ¬ (e.1 = node ∧ destIndex nodes e = b) := fun h => hdest h.2
      rw [if_neg hne]
      split
      · exact Function.update_of_ne (Ne.symm hdest) _ _
      · rfl
  · have hne : ¬ (e.1 = node ∧ destIndex nodes e = b) := fun h => hsource h.1
    rw [if_neg hsource, if_neg hne]

/-- Taking away the edges of a node lowers each counter by their number, not below
zero. -/
theorem releaseEdge_foldl {nodes : List ν} {node : ν} {edges : List (ν × ν)}
    (hedges : ∀ e ∈ edges, 0 ≤ graphNodeIndex nodes e.2) (indegree : Nat → Nat) (b : Nat) :
    edges.foldl (releaseEdge nodes node) indegree b =
      indegree b - edges.countP fun e => e.1 = node ∧ destIndex nodes e = b := by
  induction edges generalizing indegree with
  | nil => rfl
  | cons e edges ih =>
    obtain ⟨he, hedges⟩ := List.forall_mem_cons.mp hedges
    rw [List.foldl_cons, ih hedges, List.countP_cons, releaseEdge_apply he]
    by_cases h : e.1 = node ∧ destIndex nodes e = b
    · rw [if_pos h, if_pos (decide_eq_true h)]
      omega
    · rw [if_neg h, if_neg (by simpa using h)]
      rfl

theorem sourceIndex_eq_iff {nodes : List ν} (hnodup : nodes.Nodup) {i : Nat} {node : ν}
    (hi : nodes[i]? = some node) (e : ν × ν) : sourceIndex nodes e = i ↔ e.1 = node := by
  obtain ⟨hlt, rfl⟩ := List.getElem?_eq_some_iff.mp hi
  unfold sourceIndex
  constructor
  · rintro rfl
    exact (List.getElem_idxOf hlt).symm
  · intro heq
    rw [heq, hnodup.idxOf_getElem i hlt]

/-- When a node is done, its edges are no longer pending. -/
theorem pending_done (nodes : List ν) (edges : List (ν × ν)) {processed : Nat → Mark} {i : Nat}
    (hi : processed i ≠ .done) (b : Nat) :
    pending nodes edges processed b =
      pending nodes edges (Function.update processed i .done) b +
        edges.countP fun e => sourceIndex nodes e = i ∧ destIndex nodes e = b := by
  unfold pending
  induction edges with
  | nil => rfl
  | cons e edges ih =>
    rw [List.countP_cons, List.countP_cons, List.countP_cons, ih]
    by_cases hs : sourceIndex nodes e = i
    · by_cases hd : destIndex nodes e = b
      · simp [hs, hd, hi]
        omega
      · simp [hd]
    · simp [hs]
      omega

/-- The nodes that are not done. -/
def notDone (nodeCount : Nat) (processed : Nat → Mark) : Nat :=
  (List.range nodeCount).countP fun i => processed i ≠ .done

theorem notDone_done {nodeCount i : Nat} {processed : Nat → Mark} (hlt : i < nodeCount)
    (hi : processed i ≠ .done) :
    notDone nodeCount processed = notDone nodeCount (Function.update processed i .done) + 1 := by
  unfold notDone
  have hmem : i ∈ List.range nodeCount := List.mem_range.mpr hlt
  have hnodup : (List.range nodeCount).Nodup := List.nodup_range
  generalize List.range nodeCount = is at hmem hnodup
  induction is with
  | nil => cases hmem
  | cons j is ih =>
    obtain ⟨hj, hnodup⟩ := List.nodup_cons.mp hnodup
    rw [List.countP_cons, List.countP_cons]
    rcases List.mem_cons.mp hmem with rfl | hmem
    · have hsame : is.countP (fun j => processed j ≠ .done) =
          is.countP fun j => Function.update processed i .done j ≠ .done := by
        refine List.countP_congr fun j hj' => ?_
        have hne : j ≠ i := by
          rintro rfl
          exact hj hj'
        rw [Function.update_of_ne hne]
      rw [hsame, Function.update_self]
      simp [hi]
    · have hne : j ≠ i := by
        rintro rfl
        exact hj hmem
      rw [ih hmem hnodup, Function.update_of_ne hne]
      omega

/-- The current nodes among `is` are done and their edges taken away. -/
structure Released (nodes : List ν) (edges : List (ν × ν)) (is : List Nat)
    (st st' : LayerState) : Prop where
  processed : ∀ j, st'.processed j =
    if j ∈ is ∧ st.processed j = .current then .done else st.processed j
  layers : st'.layers = st.layers
  indegree : (∀ b, st.indegree b = pending nodes edges st.processed b) →
    ∀ b, st'.indegree b = pending nodes edges st'.processed b
  remaining : st.remaining = notDone nodes.length st.processed →
    st'.remaining = notDone nodes.length st'.processed

theorem releaseNode_released {nodes : List ν} (hnodup : nodes.Nodup) {edges : List (ν × ν)}
    (hedges : ∀ e ∈ edges, 0 ≤ graphNodeIndex nodes e.2) (st : LayerState) {i : Nat}
    (hi : i < nodes.length) : Released nodes edges [i] st (releaseNode nodes edges st i) := by
  unfold releaseNode
  by_cases hcurrent : st.processed i = .current
  · rw [if_pos hcurrent]
    have hnode : nodes[i]? = some nodes[i] := List.getElem?_eq_getElem hi
    have hnot : st.processed i ≠ .done := by
      rw [hcurrent]
      exact nofun
    refine { processed := fun j => ?_, layers := rfl, indegree := fun hpending b => ?_
             remaining := fun hremaining => ?_ }
    · by_cases hj : j = i
      · subst hj
        simp [hcurrent]
      · simp [hj]
    -- what the loop takes from each counter are the edges that stop to be pending
    · rw [hnode]
      show edges.foldl (releaseEdge nodes nodes[i]) st.indegree b = _
      rw [releaseEdge_foldl hedges, hpending b, pending_done nodes edges hnot b]
      have hsource : (edges.countP fun e => e.1 = nodes[i] ∧ destIndex nodes e = b) =
          edges.countP fun e => sourceIndex nodes e = i ∧ destIndex nodes e = b := by
        refine List.countP_congr fun e _ => ?_
        rw [decide_eq_true_iff, decide_eq_true_iff, sourceIndex_eq_iff hnodup hnode]
      rw [hsource, Nat.add_sub_cancel]
    · show st.remaining - 1 = _
      rw [hremaining, notDone_done hi hnot, Nat.add_sub_cancel]
  · rw [if_neg hcurrent]
    refine { processed := fun j => ?_, layers := rfl, indegree := id, remaining := id }
    rw [if_neg]
    rintro ⟨hj, hmark⟩
    rw [List.mem_singleton.mp hj] at hmark
    exact hcurrent hmark

theorem Released.cons {nodes : List ν} {edges : List (ν × ν)} {i : Nat} {is : List Nat}
    {st st' st'' : LayerState} (h : Released nodes edges [i] st st')
    (h' : Released nodes edges is st' st'') : Released nodes edges (i :: is) st st'' := by
  refine { processed := fun j => ?_, layers := h'.layers.trans h.layers
           indegree := fun hpending => h'.indegree (h.indegree hpending)
           remaining := fun hremaining => h'.remaining (h.remaining hremaining) }
  rw [h'.processed j, h.processed j]
  by_cases hj : j = i
  · subst hj
    by_cases hcurrent : st.processed j = .current <;> simp [hcurrent]
  · by_cases hcurrent : st.processed j = .current <;> simp [hj, hcurrent]

/-- Turns of the second loop, for nodes of the graph. -/
theorem releaseNode_foldl {nodes : List ν} (hnodup : nodes.Nodup) {edges : List (ν × ν)}
    (hedges : ∀ e ∈ edges, 0 ≤ graphNodeIndex nodes e.2) (st : LayerState) {is : List Nat}
    (hlt : ∀ i ∈ is, i < nodes.length) :
    Released nodes edges is st (is.foldl (releaseNode nodes edges) st) := by
  induction is generalizing st with
  | nil => exact { processed := by simp, layers := rfl, indegree := id, remaining := id }
  | cons i is ih =>
    obtain ⟨hi, hlt⟩ := List.forall_mem_cons.mp hlt
    rw [List.foldl_cons]
    exact (releaseNode_released hnodup hedges st hi).cons (ih _ hlt)

theorem releaseLayer_released {nodes : List ν} (hnodup : nodes.Nodup) {edges : List (ν × ν)}
    (hedges : ∀ e ∈ edges, 0 ≤ graphNodeIndex nodes e.2) (st : LayerState) :
    Released nodes edges (List.range nodes.length) st (releaseLayer nodes edges st) :=
  releaseNode_foldl hnodup hedges st fun _ => List.mem_range.mp

/-! ## The rounds -/

/-- What holds between two rounds, before the layer `layer`. -/
structure LayerInv (nodes : List ν) (edges : List (ν × ν)) (layer : Nat) (st : LayerState) :
    Prop where
  marks : ∀ i, st.processed i ≠ .current
  outside : ∀ i, nodes.length ≤ i → st.processed i = .waiting
  indegree : ∀ b, st.indegree b = pending nodes edges st.processed b
  remaining : st.remaining = notDone nodes.length st.processed
  below : ∀ i, st.processed i = .done → st.layers i < layer
  /-- The edges into a node that is done come from earlier layers. -/
  closed : ∀ e ∈ edges, st.processed (destIndex nodes e) = .done →
    st.processed (sourceIndex nodes e) = .done ∧
      st.layers (sourceIndex nodes e) < st.layers (destIndex nodes e)
  used : ∀ l < layer, ∃ i < nodes.length, st.processed i = .done ∧ st.layers i = l
  /-- A node that is not in the first layer has an edge from the layer before. -/
  tight : ∀ i, st.processed i = .done → st.layers i ≠ 0 →
    ∃ e ∈ edges, destIndex nodes e = i ∧ st.layers (sourceIndex nodes e) + 1 = st.layers i
  /-- A node that is still waiting has an edge that was pending in the last round. -/
  late : layer ≠ 0 → ∀ i < nodes.length, st.processed i = .waiting →
    ∃ e ∈ edges, destIndex nodes e = i ∧
      (st.processed (sourceIndex nodes e) = .done → st.layers (sourceIndex nodes e) + 1 = layer)

/-- What a round does: the ready nodes get the layer and are done. -/
structure Round (nodes : List ν) (edges : List (ν × ν)) (layer : Nat) (st st' : LayerState) :
    Prop where
  processed : ∀ j, st'.processed j =
    if j < nodes.length ∧ st.Ready j then .done else st.processed j
  layers : ∀ j, st'.layers j = if j < nodes.length ∧ st.Ready j then layer else st.layers j
  indegree : ∀ b, st'.indegree b = pending nodes edges st'.processed b
  remaining : st'.remaining = notDone nodes.length st'.processed

section

variable {nodes : List ν} {edges : List (ν × ν)} {layer : Nat} {st st' : LayerState}

theorem markLayer_marked (nodeCount layer : Nat) (st : LayerState) :
    Marked layer (List.range nodeCount) st (markLayer nodeCount layer st).1 :=
  (markNode_foldl layer List.nodup_range (st, 0)).1

/-- Marking a node current does not make it done. -/
theorem Marked.done {is : List Nat} {marked : LayerState} (h : Marked layer is st marked)
    (j : Nat) : marked.processed j ≠ .done ↔ st.processed j ≠ .done := by
  rw [h.processed j]
  split
  next hready =>
    rw [hready.2.1]
    exact iff_of_true nofun nofun
  next => exact Iff.rfl

/-- Marking leaves the counters and the pending edges alone. -/
theorem LayerInv.marked_pending (hI : LayerInv nodes edges layer st) (b : Nat) :
    (markLayer nodes.length layer st).1.indegree b =
      pending nodes edges (markLayer nodes.length layer st).1.processed b := by
  have hmarked := markLayer_marked nodes.length layer st
  rw [hmarked.indegree, hI.indegree b]
  refine List.countP_congr fun e _ => ?_
  rw [decide_eq_true_iff, decide_eq_true_iff, hmarked.done]

theorem LayerInv.round (hI : LayerInv nodes edges layer st) (hnodup : nodes.Nodup)
    (hedges : ∀ e ∈ edges, 0 ≤ graphNodeIndex nodes e.2) :
    Round nodes edges layer st
      (releaseLayer nodes edges (markLayer nodes.length layer st).1) := by
  have hmarked := markLayer_marked nodes.length layer st
  have hpending := hI.marked_pending
  have hreleased := releaseLayer_released hnodup hedges (markLayer nodes.length layer st).1
  generalize (markLayer nodes.length layer st).1 = marked at hmarked hpending hreleased
  refine { processed := fun j => ?_, layers := fun j => ?_, indegree := ?_, remaining := ?_ }
  · rw [hreleased.processed j, hmarked.processed j]
    simp only [List.mem_range]
    by_cases h : j < nodes.length ∧ st.Ready j
    · simp [h]
    · rw [if_neg h, if_neg fun h' => hI.marks j h'.2, if_neg h]
  · rw [hreleased.layers, hmarked.layers j]
    simp only [List.mem_range]
  · exact hreleased.indegree hpending
  · refine hreleased.remaining ?_
    rw [hmarked.remaining, hI.remaining]
    refine List.countP_congr fun i _ => ?_
    rw [decide_eq_true_iff, decide_eq_true_iff, hmarked.done]

theorem markLayer_count (nodeCount layer : Nat) (st : LayerState) :
    (markLayer nodeCount layer st).2 = (List.range nodeCount).countP fun i => st.Ready i := by
  have hnodup : (List.range nodeCount).Nodup := List.nodup_range
  have hcount := (markNode_foldl layer hnodup (st, 0)).2
  rw [Nat.zero_add] at hcount
  exact hcount

/-- The edges into a ready node come from nodes that are done. -/
theorem LayerInv.ready_sources (hI : LayerInv nodes edges layer st) {e : ν × ν} (he : e ∈ edges)
    (hready : st.Ready (destIndex nodes e)) : st.processed (sourceIndex nodes e) = .done := by
  by_contra hnot
  have hzero := hready.2
  rw [hI.indegree, pending, List.countP_eq_zero] at hzero
  exact hzero e he (decide_eq_true ⟨rfl, hnot⟩)

/-- A round that places a node keeps the invariant. -/
theorem Round.inv (h : Round nodes edges layer st st') (hI : LayerInv nodes edges layer st)
    (hsome : ∃ i < nodes.length, st.Ready i) : LayerInv nodes edges (layer + 1) st' := by
  have hkept : ∀ i, st.processed i = .done →
      st'.processed i = .done ∧ st'.layers i = st.layers i := by
    intro i hi
    have hnot : ¬ (i < nodes.length ∧ st.Ready i) := by
      rintro ⟨-, hwaiting, -⟩
      rw [hi] at hwaiting
      cases hwaiting
    rw [h.processed i, h.layers i, if_neg hnot, if_neg hnot]
    exact ⟨hi, rfl⟩
  -- a node that is done was done before, or it is new and in this layer
  have hcases : ∀ i, st'.processed i = .done →
      st.processed i = .done ∨ st.Ready i ∧ st'.layers i = layer := by
    intro i hi
    rw [h.processed i] at hi
    by_cases hready : i < nodes.length ∧ st.Ready i
    · refine .inr ⟨hready.2, ?_⟩
      rw [h.layers i, if_pos hready]
    · rw [if_neg hready] at hi
      exact .inl hi
  refine { marks := fun i => ?_, outside := fun i hi => ?_, indegree := h.indegree
           remaining := h.remaining, below := fun i hi => ?_, closed := fun e he hdone => ?_
           used := fun l hl => ?_, tight := fun i hi hlayer => ?_
           late := fun _ i hi hwaiting => ?_ }
  · rw [h.processed i]
    split
    · exact nofun
    · exact hI.marks i
  · rw [h.processed i, if_neg fun h => absurd h.1 (Nat.not_lt.mpr hi)]
    exact hI.outside i hi
  · rcases hcases i hi with hold | ⟨-, hnew⟩
    · rw [(hkept i hold).2]
      exact Nat.lt_succ_of_lt (hI.below i hold)
    · rw [hnew]
      exact Nat.lt_succ_self _
  · rcases hcases _ hdone with hold | ⟨hready, hnew⟩
    · obtain ⟨hsource, hlt⟩ := hI.closed e he hold
      rw [(hkept _ hsource).2, (hkept _ hold).2]
      exact ⟨(hkept _ hsource).1, hlt⟩
    · have hsource := hI.ready_sources he hready
      rw [(hkept _ hsource).2, hnew]
      exact ⟨(hkept _ hsource).1, hI.below _ hsource⟩
  · rcases Nat.lt_succ_iff_lt_or_eq.mp hl with hl | rfl
    · obtain ⟨i, hi, hdone, hlayer⟩ := hI.used l hl
      exact ⟨i, hi, (hkept i hdone).1, (hkept i hdone).2.trans hlayer⟩
    · obtain ⟨i, hi, hready⟩ := hsome
      refine ⟨i, hi, ?_, ?_⟩
      · rw [h.processed i, if_pos ⟨hi, hready⟩]
      · rw [h.layers i, if_pos ⟨hi, hready⟩]
  · rcases hcases i hi with hold | ⟨hready, hnew⟩
    · rw [(hkept i hold).2] at hlayer ⊢
      obtain ⟨e, he, rfl, hsource⟩ := hI.tight i hold hlayer
      have hdone := (hI.closed e he hold).1
      exact ⟨e, he, rfl, by rw [(hkept _ hdone).2, hsource]⟩
    · -- it was not ready in the round before, and all its edges are taken away now
      rw [hnew] at hlayer ⊢
      have hlt : i < nodes.length := by
        by_contra hout
        rw [h.processed i, if_neg fun h => hout h.1, hready.1] at hi
        cases hi
      obtain ⟨e, he, rfl, hlate⟩ := hI.late hlayer i hlt hready.1
      have hdone := hI.ready_sources he hready
      exact ⟨e, he, rfl, by rw [(hkept _ hdone).2, hlate hdone]⟩
  -- a node that waits was not ready, so an edge into it was pending when the round began
  · have hnot : ¬ (i < nodes.length ∧ st.Ready i) := by
      intro hready
      rw [h.processed i, if_pos hready] at hwaiting
      cases hwaiting
    rw [h.processed i, if_neg hnot] at hwaiting
    have hpending : st.indegree i ≠ 0 := fun hzero => hnot ⟨hi, hwaiting, hzero⟩
    rw [hI.indegree, pending, Ne, List.countP_eq_zero] at hpending
    push Not at hpending
    obtain ⟨e, he, hedge⟩ := hpending
    obtain ⟨hdest, hsource⟩ := of_decide_eq_true hedge
    refine ⟨e, he, hdest, fun hdone => ?_⟩
    rcases hcases _ hdone with hold | ⟨-, hnew⟩
    · exact absurd hold hsource
    · rw [hnew]

/-- Rounds that end without an error end with all nodes done. -/
theorem layerRounds_ok (hnodup : nodes.Nodup)
    (hedges : ∀ e ∈ edges, 0 ≤ graphNodeIndex nodes e.2) {fuel : Nat}
    (hI : LayerInv nodes edges layer st) {layers : Nat → Nat} {layerCount : Nat}
    (h : layerRounds nodes edges fuel st layer = .ok (layers, layerCount)) :
    ∃ st', LayerInv nodes edges layerCount st' ∧ st'.remaining = 0 ∧ st'.layers = layers := by
  induction fuel generalizing st layer with
  | zero =>
    unfold layerRounds at h
    split at h
    next hzero =>
      obtain ⟨rfl, rfl⟩ := Prod.mk.inj (Except.ok.inj h)
      exact ⟨st, hI, hzero, rfl⟩
    next => cases h
  | succ fuel ih =>
    unfold layerRounds at h
    split at h
    next hzero =>
      obtain ⟨rfl, rfl⟩ := Prod.mk.inj (Except.ok.inj h)
      exact ⟨st, hI, hzero, rfl⟩
    next =>
      dsimp only at h
      split at h
      next => cases h
      next hplaced =>
        rw [markLayer_count] at hplaced
        obtain ⟨i, hi, hready⟩ := List.countP_pos_iff.mp (Nat.pos_of_ne_zero hplaced)
        have hsome : ∃ i < nodes.length, st.Ready i :=
          ⟨i, List.mem_range.mp hi, of_decide_eq_true hready⟩
        exact ih ((hI.round hnodup hedges).inv hI hsome) h

end

/-! ## A node in the first layer -/

section

variable {nodes : List ν} {edges : List (ν × ν)}

/-- The second loop of a round places no node and forgets none. -/
theorem releaseLayer_keeps (st : LayerState) :
    (releaseLayer nodes edges st).layers = st.layers ∧
      ∀ i, st.processed i ≠ .waiting → (releaseLayer nodes edges st).processed i ≠ .waiting := by
  unfold releaseLayer
  generalize List.range nodes.length = is
  induction is generalizing st with
  | nil => exact ⟨rfl, fun _ hi => hi⟩
  | cons j is ih =>
    rw [List.foldl_cons]
    obtain ⟨hlayers, hprocessed⟩ := ih (releaseNode nodes edges st j)
    unfold releaseNode at hlayers hprocessed ⊢
    split at hlayers
    next hcurrent =>
      rw [if_pos hcurrent] at hprocessed ⊢
      refine ⟨hlayers, fun i hi => hprocessed i ?_⟩
      by_cases hij : i = j
      · subst hij
        show Function.update st.processed i .done i ≠ .waiting
        rw [Function.update_self]
        exact nofun
      · show Function.update st.processed j .done i ≠ .waiting
        rw [Function.update_of_ne hij]
        exact hi
    next hcurrent =>
      rw [if_neg hcurrent] at hprocessed ⊢
      exact ⟨hlayers, hprocessed⟩

/-- A node that is placed stays in its layer. -/
theorem layerRounds_keeps {fuel layer : Nat} {st : LayerState} {layers : Nat → Nat}
    {layerCount : Nat} (h : layerRounds nodes edges fuel st layer = .ok (layers, layerCount)) :
    layer ≤ layerCount ∧ ∀ i, st.processed i ≠ .waiting → layers i = st.layers i := by
  induction fuel generalizing st layer with
  | zero =>
    unfold layerRounds at h
    split at h
    next =>
      obtain ⟨rfl, rfl⟩ := Prod.mk.inj (Except.ok.inj h)
      exact ⟨Nat.le_refl _, fun _ _ => rfl⟩
    next => cases h
  | succ fuel ih =>
    unfold layerRounds at h
    split at h
    next =>
      obtain ⟨rfl, rfl⟩ := Prod.mk.inj (Except.ok.inj h)
      exact ⟨Nat.le_refl _, fun _ _ => rfl⟩
    next =>
      dsimp only at h
      split at h
      next => cases h
      next =>
        have hmarked := markLayer_marked nodes.length layer st
        obtain ⟨hlayers, hprocessed⟩ := @releaseLayer_keeps _ _ nodes edges
          (markLayer nodes.length layer st).1
        obtain ⟨hle, hkept⟩ := ih h
        refine ⟨Nat.le_of_succ_le hle, fun i hi => ?_⟩
        have hnot : ¬ (i ∈ List.range nodes.length ∧ st.Ready i) := fun hready => hi hready.2.1
        have hplaced : (markLayer nodes.length layer st).1.processed i ≠ .waiting := by
          rw [hmarked.processed i, if_neg hnot]
          exact hi
        rw [hkept i (hprocessed i hplaced), hlayers, hmarked.layers i, if_neg hnot]

/-- Whatever the arrays are, layering that succeeds puts some node into the first
layer. -/
theorem graphLayers_first (hsome : nodes ≠ []) {layers : Nat → Nat} {layerCount : Nat}
    (h : graphLayers nodes edges = .ok (layers, layerCount)) :
    0 < layerCount ∧ ∃ i < nodes.length, layers i = 0 := by
  obtain ⟨indegree, -, hrounds⟩ := bind_ok h
  obtain ⟨n, hn⟩ := Nat.exists_eq_add_one.mpr (List.length_pos_of_ne_nil hsome)
  rw [hn] at hrounds
  unfold layerRounds at hrounds
  split at hrounds
  next hzero => exact absurd hzero (Nat.succ_ne_zero n)
  next =>
    dsimp only at hrounds
    split at hrounds
    next => cases hrounds
    next hplaced =>
      rw [markLayer_count] at hplaced
      obtain ⟨i, hi, hready⟩ := List.countP_pos_iff.mp (Nat.pos_of_ne_zero hplaced)
      have hready := of_decide_eq_true hready
      have hmarked := markLayer_marked nodes.length 0 (LayerState.start (n + 1) indegree)
      obtain ⟨hlayers, hprocessed⟩ := @releaseLayer_keeps _ _ nodes edges
        (markLayer nodes.length 0 (LayerState.start (n + 1) indegree)).1
      obtain ⟨hle, hkept⟩ := layerRounds_keeps hrounds
      have hcurrent : (markLayer nodes.length 0
          (LayerState.start (n + 1) indegree)).1.processed i ≠ .waiting := by
        rw [hmarked.processed i, if_pos ⟨hi, hready⟩]
        exact nofun
      refine ⟨hle, i, List.mem_range.mp hi, ?_⟩
      rw [hkept i (hprocessed i hcurrent), hlayers, hmarked.layers i, if_pos ⟨hi, hready⟩]

end

/-! ## A graph without a cycle is layered -/

section

variable {nodes : List ν} {edges : List (ν × ν)} {layer : Nat} {st st' : LayerState}

/-- An edge leads from the cell `a` to the cell `b`. -/
def CellEdge (nodes : List ν) (edges : List (ν × ν)) (a b : Nat) : Prop :=
  ∃ e ∈ edges, sourceIndex nodes e = a ∧ destIndex nodes e = b

/-- Of the nodes that wait, one that no other of them leads to is ready. -/
theorem LayerInv.progress (hI : LayerInv nodes edges layer st)
    (hwf : WellFounded (CellEdge nodes edges))
    (hsource : ∀ e ∈ edges, sourceIndex nodes e < nodes.length) (hremaining : st.remaining ≠ 0) :
    ∃ i < nodes.length, st.Ready i := by
  have waiting : ∀ i, st.processed i ≠ .done → st.processed i = .waiting := by
    intro i hi
    cases hmark : st.processed i with
    | waiting => rfl
    | done => exact absurd hmark hi
    | current => exact absurd hmark (hI.marks i)
  rw [hI.remaining, notDone, ← Nat.pos_iff_ne_zero, List.countP_pos_iff] at hremaining
  obtain ⟨j, hj, hnot⟩ := hremaining
  -- a minimal one: all edges into it come from nodes that are done
  obtain ⟨i, ⟨hi, hwaiting⟩, hmin⟩ :=
    hwf.has_min { i | i < nodes.length ∧ st.processed i = .waiting }
      ⟨j, List.mem_range.mp hj, waiting j (of_decide_eq_true hnot)⟩
  refine ⟨i, hi, hwaiting, ?_⟩
  rw [hI.indegree, pending, List.countP_eq_zero]
  intro e he hedge
  obtain ⟨hdest, hnot⟩ := of_decide_eq_true hedge
  exact hmin _ ⟨hsource e he, waiting _ hnot⟩ ⟨e, he, rfl, hdest⟩

/-- A round that places a node leaves fewer of them. -/
theorem Round.remaining_lt (h : Round nodes edges layer st st')
    (hI : LayerInv nodes edges layer st) {i : Nat} (hi : i < nodes.length) (hready : st.Ready i) :
    st'.remaining < st.remaining := by
  have hnot : st.processed i ≠ .done := by
    rw [hready.1]
    exact nofun
  rw [h.remaining, hI.remaining, notDone_done hi hnot, Nat.lt_succ_iff]
  refine List.countP_mono_left fun j _ hj => ?_
  rw [decide_eq_true_iff, h.processed j] at hj
  rw [decide_eq_true_iff]
  by_cases hji : j = i
  · subst hji
    exact absurd (if_pos ⟨hi, hready⟩) hj
  · rw [Function.update_of_ne hji]
    intro hdone
    split at hj
    · exact hj rfl
    · exact hj hdone

theorem layerRounds_total (hnodup : nodes.Nodup)
    (hedges : ∀ e ∈ edges, 0 ≤ graphNodeIndex nodes e.2)
    (hwf : WellFounded (CellEdge nodes edges))
    (hsource : ∀ e ∈ edges, sourceIndex nodes e < nodes.length) {fuel : Nat}
    (hI : LayerInv nodes edges layer st) (hfuel : st.remaining ≤ fuel) :
    ∃ layering, layerRounds nodes edges fuel st layer = .ok layering := by
  induction fuel generalizing st layer with
  | zero => exact ⟨_, if_pos (Nat.le_zero.mp hfuel)⟩
  | succ fuel ih =>
    unfold layerRounds
    by_cases hzero : st.remaining = 0
    · exact ⟨_, if_pos hzero⟩
    · rw [if_neg hzero]
      obtain ⟨i, hi, hready⟩ := hI.progress hwf hsource hzero
      have hround := hI.round hnodup hedges
      have hlt := hround.remaining_lt hI hi hready
      have hplaced : (markLayer nodes.length layer st).2 ≠ 0 := by
        rw [markLayer_count, ← Nat.pos_iff_ne_zero, List.countP_pos_iff]
        exact ⟨i, List.mem_range.mpr hi, decide_eq_true hready⟩
      dsimp only
      rw [if_neg hplaced]
      exact ih (hround.inv hI ⟨i, hi, hready⟩) (by omega)

end

theorem countIndegrees_total {nodes : List ν} {edges : List (ν × ν)}
    (hedges : ∀ e ∈ edges, 0 ≤ graphNodeIndex nodes e.2) (indegree : Nat → Nat) :
    ∃ counted, countIndegrees nodes edges indegree = .ok counted := by
  induction edges generalizing indegree with
  | nil => exact ⟨indegree, rfl⟩
  | cons e edges ih =>
    obtain ⟨he, hedges⟩ := List.forall_mem_cons.mp hedges
    unfold countIndegrees
    dsimp only
    rw [if_neg (Int.not_lt.mpr he)]
    exact ih hedges _

/-! ## The whole layering -/

/-- Layering that succeeds found the destinations of all edges. -/
theorem graphLayers_edges {nodes : List ν} {edges : List (ν × ν)} {layering : (Nat → Nat) × Nat}
    (h : graphLayers nodes edges = .ok layering) : ∀ e ∈ edges, 0 ≤ graphNodeIndex nodes e.2 := by
  obtain ⟨indegree, hindegree, -⟩ := bind_ok h
  exact (countIndegrees_ok hindegree).1

/-- What holds before the first round, where no counter wrapped. -/
theorem LayerInv.start {nodes : List ν} {edges : List (ν × ν)} {indegree : Nat → Nat}
    (hcount : ∀ b, (edges.countP fun e => destIndex nodes e = b) < uintSize)
    (h : countIndegrees nodes edges (fun _ => 0) = .ok indegree) :
    LayerInv nodes edges 0 (LayerState.start nodes.length indegree) := by
  obtain ⟨-, hcounted⟩ := countIndegrees_ok h
  refine { marks := fun _ => nofun, outside := fun _ _ => rfl, indegree := fun b => ?_
           remaining := ?_, below := fun _ => nofun, closed := fun _ _ => nofun
           used := fun l hl => absurd hl (Nat.not_lt_zero l), tight := fun _ => nofun
           late := fun h => absurd rfl h }
  · show indegree b = _
    rw [hcounted b (by decide), Nat.zero_add, Nat.mod_eq_of_lt (hcount b)]
    refine List.countP_congr fun e _ => ?_
    simp [LayerState.start]
  · simp [notDone, LayerState.start]

/-- Where no counter wraps, layering gives every node a layer such that an edge
leads to a later one; it uses every layer, and a node that is not in the first has
an edge from the one before. -/
theorem graphLayers_spec {nodes : List ν} {edges : List (ν × ν)} (hnodup : nodes.Nodup)
    (hcount : ∀ b, (edges.countP fun e => destIndex nodes e = b) < uintSize)
    {layers : Nat → Nat} {layerCount : Nat}
    (h : graphLayers nodes edges = .ok (layers, layerCount)) :
    (∀ e ∈ edges, destIndex nodes e < nodes.length →
        layers (sourceIndex nodes e) < layers (destIndex nodes e)) ∧
      (∀ i < nodes.length, layers i < layerCount) ∧
      (∀ l < layerCount, ∃ i < nodes.length, layers i = l) ∧
      ∀ i < nodes.length, layers i ≠ 0 →
        ∃ e ∈ edges, destIndex nodes e = i ∧ layers (sourceIndex nodes e) + 1 = layers i := by
  obtain ⟨indegree, hindegree, hrounds⟩ := bind_ok h
  obtain ⟨st, hend, hzero, rfl⟩ :=
    layerRounds_ok hnodup (graphLayers_edges h) (.start hcount hindegree) hrounds
  have hall : ∀ i < nodes.length, st.processed i = .done := by
    intro i hi
    rw [hend.remaining, notDone, List.countP_eq_zero] at hzero
    by_contra hnot
    exact hzero i (List.mem_range.mpr hi) (decide_eq_true hnot)
  refine ⟨fun e he hdest => (hend.closed e he (hall _ hdest)).2,
    fun i hi => hend.below i (hall i hi), fun l hl => ?_, fun i hi => hend.tight i (hall i hi)⟩
  obtain ⟨i, hi, -, hlayer⟩ := hend.used l hl
  exact ⟨i, hi, hlayer⟩

/-- Layering succeeds on a graph without a cycle. -/
theorem graphLayers_total {nodes : List ν} {edges : List (ν × ν)} (hnodup : nodes.Nodup)
    (hcount : ∀ b, (edges.countP fun e => destIndex nodes e = b) < uintSize)
    (hedges : ∀ e ∈ edges, 0 ≤ graphNodeIndex nodes e.2)
    (hwf : WellFounded (CellEdge nodes edges))
    (hsource : ∀ e ∈ edges, sourceIndex nodes e < nodes.length) :
    ∃ layering, graphLayers nodes edges = .ok layering := by
  obtain ⟨indegree, hindegree⟩ := countIndegrees_total hedges fun _ => 0
  unfold graphLayers
  rw [hindegree]
  exact layerRounds_total hnodup hedges hwf hsource (.start hcount hindegree) (Nat.le_refl _)

/-! ## Arrays within the range of the indices -/

section

variable {nodes : List ν} {edges : List (ν × ν)}

theorem destIndex_exact (hsize : nodes.length ≤ uintSize) {e : ν × ν}
    (he : 0 ≤ graphNodeIndex nodes e.2) : e.2 ∈ nodes ∧ destIndex nodes e = nodes.idxOf e.2 := by
  obtain ⟨hmem, hindex⟩ := graphNodeIndex_exact hsize he
  refine ⟨hmem, ?_⟩
  unfold destIndex
  rw [hindex, Int.toNat_natCast]

/-- The edges that count for an index are those into the node there. -/
theorem destIndex_count (hsize : nodes.length ≤ uintSize)
    (hedges : ∀ e ∈ edges, 0 ≤ graphNodeIndex nodes e.2)
    (hcount : ∀ v ∈ nodes, (edges.countP fun e => e.2 = v) < uintSize) (b : Nat) :
    (edges.countP fun e => destIndex nodes e = b) < uintSize := by
  by_cases hb : b < nodes.length
  · refine Nat.lt_of_le_of_lt ?_ (hcount nodes[b] (List.getElem_mem hb))
    refine List.countP_mono_left fun e he hdest => ?_
    obtain ⟨hmem, hindex⟩ := destIndex_exact hsize (hedges e he)
    have hb' : nodes.idxOf e.2 = b := hindex.symm.trans (of_decide_eq_true hdest)
    subst hb'
    exact decide_eq_true (List.getElem_idxOf hb).symm
  · have hnone : (edges.countP fun e => destIndex nodes e = b) = 0 := by
      refine List.countP_eq_zero.mpr fun e he hdest => hb ?_
      obtain ⟨hmem, hindex⟩ := destIndex_exact hsize (hedges e he)
      rw [← of_decide_eq_true hdest, hindex]
      exact List.idxOf_lt_length_of_mem hmem
    rw [hnone]
    decide

end

end Lilt.Graph
