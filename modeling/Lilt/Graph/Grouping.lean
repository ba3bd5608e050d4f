import Lilt.Lib.Stages

/-!
# Graphlets as ranges of layers (`graph_build_graphlets`)

Consecutive layers are collected into a graphlet until the next one would exceed
the limit. A first pass counts the graphlets and a second one fills the array.

- `countGraphlets`, `fillGraphlets`: the two passes.
- `layerRanges`: the ranges both passes find.
- `groupLayers_eq`: the second pass fills exactly the array of the first.
- `layerRanges_tiles`: the ranges follow one another through all layers.
-/

namespace Lilt.Graph

/-- The fields of `lilt_graphlet_t` that the grouping sets. -/
structure LayerRange where
  firstLayer : Nat
  lastLayer : Nat
  nodeCount : Nat
  deriving DecidableEq

/-- The range that ends before `layer`. -/
def rangeBefore (firstLayer layer accumulated : Nat) : LayerRange where
  firstLayer := firstLayer
  lastLayer := layer - 1
  nodeCount := accumulated

/-- The next layer of `layerNodes` nodes does not fit into the graphlet. -/
def exceedsGraphlet (limit accumulated layerNodes : Nat) : Bool :=
  accumulated ≠ 0 && limit < accumulated + layerNodes

/-- The loop that counts the graphlets, with `left` layers still to come. -/
def countGraphlets (limit : Nat) (layerNodes : Nat → Nat) (layer : Nat) :
    (left graphletCount accumulated : Nat) → Nat
  | 0, graphletCount, accumulated =>
    if accumulated ≠ 0 then graphletCount + 1 else graphletCount
  | left + 1, graphletCount, accumulated =>
    if exceedsGraphlet limit accumulated (layerNodes layer) then
      countGraphlets limit layerNodes (layer + 1) left (graphletCount + 1) (layerNodes layer)
    else
      countGraphlets limit layerNodes (layer + 1) left graphletCount
        (accumulated + layerNodes layer)

/-- The loop that fills the array, and what follows it. -/
def fillGraphlets (limit : Nat) (layerNodes : Nat → Nat) (layer : Nat) :
    (left : Nat) → List LayerRange → (firstLayer accumulated graphletIndex : Nat) →
    List LayerRange
  | 0, graphlets, firstLayer, accumulated, graphletIndex =>
    graphlets.set graphletIndex (rangeBefore firstLayer layer accumulated)
  | left + 1, graphlets, firstLayer, accumulated, graphletIndex =>
    if exceedsGraphlet limit accumulated (layerNodes layer) then
      fillGraphlets limit layerNodes (layer + 1) left
        (graphlets.set graphletIndex (rangeBefore firstLayer layer accumulated)) layer
        (layerNodes layer) (graphletIndex + 1)
    else
      fillGraphlets limit layerNodes (layer + 1) left graphlets firstLayer
        (accumulated + layerNodes layer) graphletIndex

/-- The grouping part of `graph_build_graphlets`. -/
def groupLayers (limit : Nat) (layerNodes : Nat → Nat) (layerCount : Nat) : List LayerRange :=
  let graphletCount := countGraphlets limit layerNodes 0 layerCount 0 0
  fillGraphlets limit layerNodes 0 layerCount
    (List.replicate graphletCount { firstLayer := 0, lastLayer := 0, nodeCount := 0 }) 0 0 0

/-! ## What the passes find -/

/-- The ranges from `layer` on, the first of them begun at `firstLayer`. -/
def layerRanges (limit : Nat) (layerNodes : Nat → Nat) (layer : Nat) :
    (left firstLayer accumulated : Nat) → List LayerRange
  | 0, firstLayer, accumulated => [rangeBefore firstLayer layer accumulated]
  | left + 1, firstLayer, accumulated =>
    if exceedsGraphlet limit accumulated (layerNodes layer) then
      rangeBefore firstLayer layer accumulated ::
        layerRanges limit layerNodes (layer + 1) left layer (layerNodes layer)
    else
      layerRanges limit layerNodes (layer + 1) left firstLayer (accumulated + layerNodes layer)

variable {limit : Nat} {layerNodes : Nat → Nat}

theorem countGraphlets_eq {layer left graphletCount accumulated : Nat} (firstLayer : Nat)
    (hnodes : ∀ l, layer ≤ l → l < layer + left → 0 < layerNodes l)
    (hsome : 0 < accumulated ∨ 0 < left) :
    countGraphlets limit layerNodes layer left graphletCount accumulated =
      graphletCount + (layerRanges limit layerNodes layer left firstLayer accumulated).length := by
  induction left generalizing layer graphletCount accumulated firstLayer with
  | zero =>
    -- the last range is counted after the loop
    have hpos : accumulated ≠ 0 := by omega
    rw [countGraphlets, if_pos hpos]
    rfl
  | succ left ih =>
    have hpos := hnodes layer (Nat.le_refl _) (by omega)
    have hrest : ∀ l, layer + 1 ≤ l → l < layer + 1 + left → 0 < layerNodes l := by
      intro l hl hlt
      exact hnodes l (by omega) (by omega)
    unfold countGraphlets layerRanges
    split
    · rw [ih layer hrest (.inl hpos), List.length_cons]
      omega
    · exact ih firstLayer hrest (.inl (by omega))

/-- The second pass writes the ranges one after the other. -/
theorem fillGraphlets_eq {layer left firstLayer accumulated index : Nat}
    {graphlets : List LayerRange}
    (hroom : index + (layerRanges limit layerNodes layer left firstLayer accumulated).length ≤
      graphlets.length) :
    fillGraphlets limit layerNodes layer left graphlets firstLayer accumulated index =
      graphlets.take index ++ layerRanges limit layerNodes layer left firstLayer accumulated ++
        graphlets.drop
          (index + (layerRanges limit layerNodes layer left firstLayer accumulated).length) := by
  induction left generalizing layer firstLayer accumulated index graphlets with
  | zero =>
    unfold fillGraphlets layerRanges at *
    rw [List.length_singleton] at hroom ⊢
    rw [List.set_eq_take_append_cons_drop, if_pos (by omega), List.append_assoc]
    rfl
  | succ left ih =>
    unfold fillGraphlets
    unfold layerRanges at hroom ⊢
    split at hroom
    next hsplit =>
      rw [if_pos hsplit, if_pos hsplit]
      rw [List.length_cons] at hroom ⊢
      have hlt : index < graphlets.length := by omega
      rw [ih (by rw [List.length_set]; omega), List.drop_set_of_lt (by omega),
        List.take_add_one, List.take_set_of_le (Nat.le_refl _), List.getElem?_set_self hlt]
      simp only [List.append_assoc, Option.toList_some, List.cons_append, List.nil_append]
      congr 4
      omega
    next hsplit =>
      rw [if_neg hsplit, if_neg hsplit]
      exact ih hroom

/-- The second pass fills exactly the array that the first one sized. -/
theorem groupLayers_eq {layerCount : Nat} (hpos : 0 < layerCount)
    (hnodes : ∀ l < layerCount, 0 < layerNodes l) :
    groupLayers limit layerNodes layerCount = layerRanges limit layerNodes 0 layerCount 0 0 := by
  have hcount : countGraphlets limit layerNodes 0 layerCount 0 0 =
      (layerRanges limit layerNodes 0 layerCount 0 0).length := by
    rw [countGraphlets_eq 0 (fun l _ hl => hnodes l (by omega)) (.inr hpos), Nat.zero_add]
  unfold groupLayers
  dsimp only
  rw [hcount, fillGraphlets_eq (by simp)]
  simp

theorem fillGraphlets_length (layer left : Nat) (graphlets : List LayerRange)
    (firstLayer accumulated index : Nat) :
    (fillGraphlets limit layerNodes layer left graphlets firstLayer accumulated index).length =
      graphlets.length := by
  induction left generalizing layer graphlets firstLayer accumulated index with
  | zero => exact List.length_set
  | succ left ih =>
    unfold fillGraphlets
    split
    · rw [ih, List.length_set]
    · exact ih ..

/-- A node in any of the layers makes a graphlet. -/
theorem countGraphlets_pos {layer left graphletCount accumulated : Nat}
    (h : 0 < graphletCount ∨ 0 < accumulated ∨
      ∃ l, layer ≤ l ∧ l < layer + left ∧ 0 < layerNodes l) :
    0 < countGraphlets limit layerNodes layer left graphletCount accumulated := by
  induction left generalizing layer graphletCount accumulated with
  | zero =>
    unfold countGraphlets
    split
    · exact Nat.succ_pos _
    · rcases h with h | h | ⟨l, hl, hlt, -⟩ <;> omega
  | succ left ih =>
    unfold countGraphlets
    split
    · exact ih (.inl (Nat.succ_pos _))
    · rcases h with h | h | ⟨l, hl, hlt, hnodes⟩
      · exact ih (.inl h)
      · exact ih (.inr (.inl (Nat.add_pos_left h _)))
      · -- the layer is this one or a later one
        rcases Nat.eq_or_lt_of_le hl with rfl | hlater
        · exact ih (.inr (.inl (Nat.add_pos_right _ hnodes)))
        · exact ih (.inr (.inr ⟨l, hlater, by omega, hnodes⟩))

theorem groupLayers_ne_nil {layerCount l : Nat} (hl : l < layerCount) (hnodes : 0 < layerNodes l) :
    groupLayers limit layerNodes layerCount ≠ [] := by
  have hcount : 0 < countGraphlets limit layerNodes 0 layerCount 0 0 :=
    countGraphlets_pos (.inr (.inr ⟨l, Nat.zero_le _, by omega, hnodes⟩))
  refine List.ne_nil_of_length_pos ?_
  unfold groupLayers
  rw [fillGraphlets_length, List.length_replicate]
  exact hcount

/-- The layers of a range. -/
def LayerRange.bounds (r : LayerRange) : Nat × Nat := (r.firstLayer, r.lastLayer)

theorem layerRanges_tiles {layer left firstLayer accumulated : Nat}
    (h : firstLayer < layer ∨ firstLayer = layer ∧ accumulated = 0 ∧ 0 < left) :
    Tiles firstLayer
      ((layerRanges limit layerNodes layer left firstLayer accumulated).map LayerRange.bounds)
      (layer + left) := by
  induction left generalizing layer firstLayer accumulated with
  | zero =>
    have hlt : firstLayer < layer := by omega
    have hnext : layer - 1 + 1 = layer := Nat.sub_add_cancel (by omega)
    refine .cons (Nat.le_sub_one_of_lt hlt) ?_
    show Tiles (layer - 1 + 1) [] layer
    rw [hnext]
    exact .nil layer
  | succ left ih =>
    unfold layerRanges
    split
    -- a range is closed only if it has a layer: the count says so
    next hsplit =>
      have hnonzero : accumulated ≠ 0 := by
        simp only [exceedsGraphlet, Bool.and_eq_true, decide_eq_true_eq] at hsplit
        exact hsplit.1
      have hlt : firstLayer < layer := by omega
      have hnext : layer - 1 + 1 = layer := Nat.sub_add_cancel (by omega)
      refine .cons (Nat.le_sub_one_of_lt hlt) ?_
      show Tiles (layer - 1 + 1) _ _
      rw [hnext, ← Nat.add_assoc, Nat.add_right_comm]
      exact ih (.inl (Nat.lt_succ_self _))
    next =>
      rw [← Nat.add_assoc, Nat.add_right_comm]
      exact ih (.inl (by omega))

/-- With a limit of one node every layer is a graphlet of its own. -/
theorem layerRanges_one {layer left firstLayer accumulated : Nat}
    (hnodes : ∀ l, layer ≤ l → l < layer + left → 0 < layerNodes l)
    (hlayer : firstLayer + 1 = layer) (hsome : accumulated ≠ 0) :
    (layerRanges 1 layerNodes layer left firstLayer accumulated).map LayerRange.bounds =
      (List.range' firstLayer (left + 1)).map fun l => (l, l) := by
  subst hlayer
  induction left generalizing firstLayer accumulated with
  | zero => rfl
  | succ left ih =>
    have hpos := hnodes (firstLayer + 1) (Nat.le_refl _) (by omega)
    have hexceeds : exceedsGraphlet 1 accumulated (layerNodes (firstLayer + 1)) = true := by
      simp only [exceedsGraphlet, Bool.and_eq_true, decide_eq_true_eq]
      exact ⟨hsome, by omega⟩
    unfold layerRanges
    have hrest : ∀ l, firstLayer + 1 + 1 ≤ l → l < firstLayer + 1 + 1 + left →
        0 < layerNodes l := by
      intro l hl hlt
      exact hnodes l (by omega) (by omega)
    rw [if_pos hexceeds, List.map_cons, ih (Nat.pos_iff_ne_zero.mp hpos) hrest,
      List.range'_succ]
    rfl

theorem groupLayers_one {layerCount : Nat} (hnodes : ∀ l < layerCount, 0 < layerNodes l)
    (hpos : 0 < layerCount) :
    (groupLayers 1 layerNodes layerCount).map LayerRange.bounds =
      (List.range layerCount).map fun l => (l, l) := by
  obtain ⟨n, rfl⟩ := Nat.exists_eq_add_one.mpr hpos
  have hfirst : layerRanges 1 layerNodes 0 (n + 1) 0 0 =
      layerRanges 1 layerNodes 1 n 0 (layerNodes 0) := by
    have hexceeds : exceedsGraphlet 1 0 (layerNodes 0) = false := rfl
    rw [layerRanges, hexceeds, if_neg Bool.false_ne_true, Nat.zero_add (layerNodes 0)]
  rw [groupLayers_eq hpos hnodes, hfirst, List.range_eq_range']
  exact layerRanges_one (fun l hl hlt => hnodes l (by omega)) rfl
    (Nat.pos_iff_ne_zero.mp (hnodes 0 hpos))

end Lilt.Graph
