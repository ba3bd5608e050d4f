import Lilt.Graph.Build
import Lilt.Lib.Greedy

/-!
# The grouping of layers is exact and as coarse as possible

Both passes of `graph_build_graphlets` over the layers find the same ranges. A range is
closed only if the next layer does not fit, so no other grouping within the limit has
fewer ranges.

- `graphletWrites`: the writes of the second pass.
- `nodesBetween`: the nodes of consecutive layers.
- `LimitHolds`: what a range of layers must meet.
- `RangeFacts`, `layerRanges_facts`: what holds of each range the passes find.
- `grouping_optimal`: the passes agree, and their ranges are a smallest partition.
-/

namespace Lilt.Graph

/-! ## The writes of the second pass -/

/-- What `fillGraphlets` writes into the array, in this order, each with its index. -/
def graphletWrites (limit : Nat) (layerNodes : Nat → Nat) (layer : Nat) :
    (left firstLayer accumulated graphletIndex : Nat) → List (Nat × LayerRange)
  | 0, firstLayer, accumulated, graphletIndex =>
    [(graphletIndex, rangeBefore firstLayer layer accumulated)]
  | left + 1, firstLayer, accumulated, graphletIndex =>
    if exceedsGraphlet limit accumulated (layerNodes layer) then
      (graphletIndex, rangeBefore firstLayer layer accumulated) ::
        graphletWrites limit layerNodes (layer + 1) left layer (layerNodes layer)
          (graphletIndex + 1)
    else
      graphletWrites limit layerNodes (layer + 1) left firstLayer
        (accumulated + layerNodes layer) graphletIndex

section writes

variable {limit : Nat} {layerNodes : Nat → Nat}

/-- The second pass makes these writes and no others. -/
theorem fillGraphlets_writes (layer left : Nat) (graphlets : List LayerRange)
    (firstLayer accumulated index : Nat) :
    fillGraphlets limit layerNodes layer left graphlets firstLayer accumulated index =
      (graphletWrites limit layerNodes layer left firstLayer accumulated index).foldl
        (fun array write => array.set write.1 write.2) graphlets := by
  induction left generalizing layer graphlets firstLayer accumulated index with
  | zero => rfl
  | succ left ih =>
    unfold fillGraphlets graphletWrites
    split
    · rw [ih]
      rfl
    · exact ih ..

/-- The indices count up, one for each range. -/
theorem graphletWrites_indices (layer left firstLayer accumulated index : Nat) :
    (graphletWrites limit layerNodes layer left firstLayer accumulated index).map Prod.fst =
      List.range' index
        (layerRanges limit layerNodes layer left firstLayer accumulated).length := by
  induction left generalizing layer firstLayer accumulated index with
  | zero => rfl
  | succ left ih =>
    unfold graphletWrites layerRanges
    split
    · rw [List.map_cons, List.length_cons, List.range'_succ, ih]
    · exact ih ..

end writes

/-! ## The nodes of a range -/

/-- How many nodes are in the layers from `first` up to `stop`, exclusively. -/
def nodesBetween (nodeCount : Nat) (layers : Nat → Nat) (first stop : Nat) : Nat :=
  (List.range nodeCount).countP fun i => first ≤ layers i && layers i < stop

section nodes

variable {nodeCount : Nat} {layers : Nat → Nat}

theorem nodesBetween_self (first : Nat) : nodesBetween nodeCount layers first first = 0 := by
  refine List.countP_eq_zero.mpr fun i _ hi => ?_
  simp only [Bool.and_eq_true, decide_eq_true_eq] at hi
  omega

theorem nodesBetween_succ {first stop : Nat} (h : first ≤ stop) :
    nodesBetween nodeCount layers first (stop + 1) =
      nodesBetween nodeCount layers first stop + layerNodes nodeCount layers stop := by
  unfold nodesBetween layerNodes
  induction List.range nodeCount with
  | nil => rfl
  | cons i is ih =>
    rw [List.countP_cons, List.countP_cons, List.countP_cons, ih]
    have hone : (if (decide (first ≤ layers i) && decide (layers i < stop + 1)) = true then 1
        else 0) =
        (if (decide (first ≤ layers i) && decide (layers i < stop)) = true then 1 else 0) +
          if decide (layers i = stop) = true then 1 else 0 := by
      simp only [Bool.and_eq_true, decide_eq_true_eq]
      split <;> split <;> split <;> omega
    omega

/-- Fewer layers have fewer nodes. -/
theorem nodesBetween_le {first stop first' stop' : Nat} (hfirst : first ≤ first')
    (hstop : stop' ≤ stop) :
    nodesBetween nodeCount layers first' stop' ≤ nodesBetween nodeCount layers first stop := by
  refine List.countP_mono_left fun i _ hi => ?_
  simp only [Bool.and_eq_true, decide_eq_true_eq] at hi ⊢
  omega

end nodes

/-- The layers `[first, last]` have at most `limit` nodes or are a single layer. -/
def LimitHolds (limit nodeCount : Nat) (layers : Nat → Nat) (first last : Nat) : Prop :=
  nodesBetween nodeCount layers first (last + 1) ≤ limit ∨ first = last

theorem limitHolds_parts (limit nodeCount : Nat) (layers : Nat → Nat) :
    Tiles.HoldsOfParts (LimitHolds limit nodeCount layers) := by
  intro first last first' last' h hfirst hle hlast
  rcases h with h | rfl
  · exact .inl (Nat.le_trans (nodesBetween_le hfirst (Nat.succ_le_succ hlast)) h)
  · exact .inr (by omega)

/-! ## The ranges the passes find -/

/-- What holds of a range that the passes find, where `layerCount` layers are grouped. -/
structure RangeFacts (limit nodeCount : Nat) (layers : Nat → Nat) (layerCount : Nat)
    (range : LayerRange) : Prop where
  nodeCount_eq : range.nodeCount =
    nodesBetween nodeCount layers range.firstLayer (range.lastLayer + 1)
  holds : LimitHolds limit nodeCount layers range.firstLayer range.lastLayer
  longest : range.lastLayer + 1 < layerCount →
    ¬ LimitHolds limit nodeCount layers range.firstLayer (range.lastLayer + 1)

/-- What the scan keeps: `accumulated` is the number of nodes of the range that is still
open, which is within the limit or a single layer. -/
structure ScanFacts (limit nodeCount : Nat) (layers : Nat → Nat)
    (layer firstLayer accumulated : Nat) : Prop where
  le : firstLayer ≤ layer
  accumulated_eq : accumulated = nodesBetween nodeCount layers firstLayer layer
  holds : accumulated ≤ limit ∨ firstLayer + 1 = layer
  empty : accumulated = 0 → firstLayer = layer

section scan

variable {limit nodeCount : Nat} {layers : Nat → Nat} {layer firstLayer accumulated : Nat}

/-- The open range takes a layer that fits. -/
theorem ScanFacts.grow (h : ScanFacts limit nodeCount layers layer firstLayer accumulated)
    (hnodes : 0 < layerNodes nodeCount layers layer)
    (hfits : exceedsGraphlet limit accumulated (layerNodes nodeCount layers layer) = false) :
    ScanFacts limit nodeCount layers (layer + 1) firstLayer
      (accumulated + layerNodes nodeCount layers layer) := by
  have hle := h.le
  simp only [exceedsGraphlet, Bool.and_eq_false_iff, decide_eq_false_iff_not, Decidable.not_not]
    at hfits
  refine { le := by omega, accumulated_eq := ?_, holds := ?_, empty := fun hzero => by omega }
  · rw [nodesBetween_succ hle, h.accumulated_eq]
  · rcases hfits with hzero | hfits
    · have := h.empty hzero
      omega
    · exact .inl (by omega)

/-- A new range begins with the layer that did not fit. -/
theorem ScanFacts.begin (hnodes : 0 < layerNodes nodeCount layers layer) :
    ScanFacts limit nodeCount layers (layer + 1) layer (layerNodes nodeCount layers layer) := by
  refine { le := Nat.le_succ _, accumulated_eq := ?_, holds := .inr rfl
           empty := fun hzero => by omega }
  rw [nodesBetween_succ (Nat.le_refl _), nodesBetween_self, Nat.zero_add]

/-- The open range, closed before `layer`; `next` says why it is. -/
theorem ScanFacts.close (h : ScanFacts limit nodeCount layers layer firstLayer accumulated)
    (hopen : firstLayer < layer) {layerCount : Nat}
    (hnext : layer < layerCount → limit < accumulated + layerNodes nodeCount layers layer) :
    RangeFacts limit nodeCount layers layerCount (rangeBefore firstLayer layer accumulated) := by
  have hlast : layer - 1 + 1 = layer := Nat.sub_add_cancel (by omega)
  refine { nodeCount_eq := ?_, holds := ?_, longest := fun hlt => ?_ }
  · show accumulated = nodesBetween nodeCount layers firstLayer (layer - 1 + 1)
    rw [hlast, h.accumulated_eq]
  · show nodesBetween nodeCount layers firstLayer (layer - 1 + 1) ≤ limit ∨ firstLayer = layer - 1
    rw [hlast, ← h.accumulated_eq]
    rcases h.holds with hfits | hsingle
    · exact .inl hfits
    · exact .inr (by omega)
  · change layer - 1 + 1 < layerCount at hlt
    rw [hlast] at hlt
    have hexceeds := hnext hlt
    show ¬ (nodesBetween nodeCount layers firstLayer (layer - 1 + 1 + 1) ≤ limit ∨
      firstLayer = layer - 1 + 1)
    rw [hlast, nodesBetween_succ h.le, ← h.accumulated_eq]
    omega

theorem layerRanges_facts {left layerCount : Nat}
    (h : ScanFacts limit nodeCount layers layer firstLayer accumulated)
    (hcount : layerCount = layer + left) (hopen : firstLayer < layer ∨ 0 < left)
    (hnodes : ∀ l < layerCount, 0 < layerNodes nodeCount layers l) :
    ∀ range ∈ layerRanges limit (layerNodes nodeCount layers) layer left firstLayer accumulated,
      RangeFacts limit nodeCount layers layerCount range := by
  induction left generalizing layer firstLayer accumulated with
  | zero =>
    intro range hrange
    obtain rfl := List.mem_singleton.mp hrange
    exact h.close (by omega) fun hlt => by omega
  | succ left ih =>
    have hlayer := hnodes layer (by omega)
    unfold layerRanges
    split
    next hexceeds =>
      simp only [exceedsGraphlet, Bool.and_eq_true, decide_eq_true_eq] at hexceeds
      have hlt : firstLayer < layer := by
        refine Nat.lt_of_le_of_ne h.le fun heq => hexceeds.1 ?_
        rw [h.accumulated_eq, heq, nodesBetween_self]
      intro range hrange
      rcases List.mem_cons.mp hrange with rfl | hrange
      · exact h.close hlt fun _ => hexceeds.2
      · exact ih (.begin hlayer) (by omega) (.inl (Nat.lt_succ_self _)) range hrange
    next hfits =>
      have hfits := Bool.eq_false_iff.mpr hfits
      have hgrow := h.grow hlayer hfits
      have hle := h.le
      exact ih hgrow (by omega) (.inl (by omega))

end scan

/-! ## The grouping -/

/-- For every assignment of nodes to layers that are not empty: the second pass writes
just the entries of the array that the first one sized, the graphlets follow one another
through all layers, each has the nodes it counts and meets the limit, and every partition
of the layers into consecutive ranges that meet the limit has at least as many ranges. -/
theorem grouping_optimal (limit : Nat) {nodeCount layerCount : Nat} {layers : Nat → Nat}
    (hnodes : 0 < nodeCount) (hlayers : ∀ i < nodeCount, layers i < layerCount)
    (hused : ∀ l < layerCount, ∃ i < nodeCount, layers i = l) :
    let layerNodes := layerNodes nodeCount layers
    let graphletCount := countGraphlets limit layerNodes 0 layerCount 0 0
    let graphlets := groupLayers limit layerNodes layerCount
    (graphletWrites limit layerNodes 0 layerCount 0 0 0).map Prod.fst =
        List.range graphletCount ∧
      graphlets.length = graphletCount ∧
      Tiles 0 (graphlets.map LayerRange.bounds) layerCount ∧
      (∀ range ∈ graphlets,
        range.nodeCount = nodesBetween nodeCount layers range.firstLayer (range.lastLayer + 1) ∧
        (range.nodeCount ≤ limit ∨ range.firstLayer = range.lastLayer)) ∧
      ∀ ranges, Tiles 0 ranges layerCount →
        (∀ r ∈ ranges, nodesBetween nodeCount layers r.1 (r.2 + 1) ≤ limit ∨ r.1 = r.2) →
        graphletCount ≤ ranges.length := by
  intro layerNodes' graphletCount graphlets
  have hpos : 0 < layerCount := Nat.zero_lt_of_lt (hlayers 0 hnodes)
  have hfilled : ∀ l < layerCount, 0 < layerNodes' l := layerNodes_pos hused
  have hcount : graphletCount = (layerRanges limit layerNodes' 0 layerCount 0 0).length := by
    have hcounted := @countGraphlets_eq limit layerNodes' 0 layerCount 0 0 0
      (fun l _ hl => hfilled l (Nat.lt_of_lt_of_eq hl (Nat.zero_add _))) (.inr hpos)
    rw [Nat.zero_add] at hcounted
    exact hcounted
  have hranges : graphlets = layerRanges limit layerNodes' 0 layerCount 0 0 :=
    groupLayers_eq hpos hfilled
  have hstart : ScanFacts limit nodeCount layers 0 0 0 :=
    { le := Nat.le_refl _, accumulated_eq := (nodesBetween_self 0).symm
      holds := .inl (Nat.zero_le _), empty := fun _ => rfl }
  have hfacts : ∀ range ∈ graphlets, RangeFacts limit nodeCount layers layerCount range := by
    rw [hranges]
    exact layerRanges_facts hstart (Nat.zero_add _).symm (.inr hpos) hfilled
  have htiles : Tiles 0 (graphlets.map LayerRange.bounds) layerCount := by
    have htiles := @layerRanges_tiles limit layerNodes' 0 layerCount 0 0 (.inr ⟨rfl, rfl, hpos⟩)
    rw [Nat.zero_add] at htiles
    rw [hranges]
    exact htiles
  have hlongest : Tiles.Longest (LimitHolds limit nodeCount layers)
      (graphlets.map LayerRange.bounds) layerCount := by
    intro r hr
    obtain ⟨range, hrange, rfl⟩ := List.mem_map.mp hr
    exact (hfacts range hrange).longest
  refine ⟨?_, ?_, htiles, fun range hrange => ?_, fun ranges hothers hlimit => ?_⟩
  · rw [graphletWrites_indices, hcount, List.range_eq_range']
  · rw [hranges, hcount]
  · obtain ⟨hcounted, hholds, -⟩ := hfacts range hrange
    unfold LimitHolds at hholds
    rw [← hcounted] at hholds
    exact ⟨hcounted, hholds⟩
  · have hlength := Tiles.length_le_of_longest (limitHolds_parts limit nodeCount layers) htiles
      hlongest hothers hlimit (Nat.le_refl 0)
    rw [List.length_map, hranges] at hlength
    rw [hcount]
    exact hlength

/-- The layers of five nodes: two nodes, one, and two. -/
def fiveLayers (i : Nat) : Nat := [0, 0, 1, 2, 2].getD i 0

/-- With at most three nodes in a graphlet, two graphlets are the fewest. -/
theorem grouping_optimal_five :
    countGraphlets 3 (layerNodes 5 fiveLayers) 0 3 0 0 = 2 ∧ ∀ ranges, Tiles 0 ranges 3 →
      (∀ r ∈ ranges, nodesBetween 5 fiveLayers r.1 (r.2 + 1) ≤ 3 ∨ r.1 = r.2) →
      2 ≤ ranges.length := by
  have htwo : countGraphlets 3 (layerNodes 5 fiveLayers) 0 3 0 0 = 2 := by decide
  obtain ⟨-, -, -, -, hfewest⟩ :=
    @grouping_optimal 3 5 3 fiveLayers (by decide) (by decide) (by decide)
  rw [htwo] at hfewest
  exact ⟨htwo, hfewest⟩

example : groupLayers 3 (layerNodes 5 fiveLayers) 3 = [⟨0, 1, 3⟩, ⟨2, 2, 2⟩] := by decide

end Lilt.Graph
