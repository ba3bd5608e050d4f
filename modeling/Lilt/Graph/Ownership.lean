import Lilt.Graph.Objects

/-!
# The registry owns the objects of its graphlets

Whatever fails, every clone and every executable graphlet that exists is held by one
entry of the list, and is destroyed once, when the entry gives it up.

- `makeGraphlets_owns`: the loop over the graphlets holds in its array what it has made,
  also where it fails; `madeMetadata_owns` for the new entry.
- `planGraphlets_ranges`: a graph that is split has a graphlet.
- `unlink_owns`, `liltGraphInvalidate_owns`: an entry gives up what it holds.
- `entryOf`: the entry of an executable graph, from the history of the calls.
- `OwnershipInv`: the list and the objects; `ownershipInv_step` for one call.
- `registry_owns_its_objects`: what holds behind any sequence of calls.
-/

namespace Lilt.Graph

open Checks Keyed Ledger Transition Transition.System

/-! ## The loop over the graphlets -/

/-- The graphlet can be launched and destroyed. -/
def GraphletHandles.Complete (g : GraphletHandles) : Prop := g.graph ≠ 0 ∧ g.exec ≠ 0

/-- The calls created just what the cells hold; if none failed every cell is filled. -/
structure Makes (graphlets : List GraphletHandles) (events : List (Event GraphObject))
    (failure : Option FallbackReason) : Prop where
  created : ∃ ks : List GraphObject, events = ks.map .create ∧
    ks.Perm (graphlets.flatMap GraphletHandles.objects)
  complete : failure = none → ∀ g ∈ graphlets, g.Complete

section

variable {ν : Type} [DecidableEq ν]

theorem makeGraphlet_makes (api : CloneApi ν) (clone : CUgraph) (flags : UInt64)
    (nodes : List ν) (layers : Nat → Nat) (range : LayerRange)
    (hnames : ∀ k, .create k ∈ (makeGraphlet api clone flags nodes layers range).events →
      k.handle ≠ 0) :
    let made := makeGraphlet api clone flags nodes layers range
    Makes [made.graphlets] made.events made.failure := by
  revert hnames
  unfold makeGraphlet
  cases api.cloneGraph with
  | none =>
    intro _
    exact ⟨⟨[], rfl, .refl _⟩, by rintro ⟨⟩⟩
  | some graph =>
    dsimp only
    cases instantiateGraphlet api flags nodes layers range graph with
    | error reason =>
      -- the clone is there, but no executable graph
      intro hnames
      have hclone : clone ≠ 0 := hnames (.graph clone) List.mem_cons_self
      refine ⟨⟨[.graph clone], rfl, ?_⟩, by rintro ⟨⟩⟩
      simp [GraphletHandles.objects, hclone]
    | ok exec =>
      intro hnames
      have hclone : clone ≠ 0 := hnames (.graph clone) List.mem_cons_self
      have hexec : exec ≠ 0 := hnames (.exec exec) (List.mem_cons_of_mem _ List.mem_cons_self)
      refine ⟨⟨[.graph clone, .exec exec], rfl, ?_⟩, fun _ g hg => ?_⟩
      · simp only [GraphletHandles.objects, List.flatMap_singleton, if_pos hclone, if_pos hexec]
        exact .swap ..
      · rw [List.mem_singleton.mp hg]
        exact ⟨hclone, hexec⟩

theorem null_objects (ranges : List LayerRange) :
    (ranges.map fun _ => GraphletHandles.null).flatMap GraphletHandles.objects = [] := by
  rw [List.flatMap_eq_nil_iff]
  intro g hg
  obtain ⟨range, -, rfl⟩ := List.mem_map.mp hg
  rfl

theorem makeGraphlets_makes (api : GraphApi ν) (clones : Nat → CUgraph) (flags : UInt64)
    (nodes : List ν) (layers : Nat → Nat) (group : Nat) (ranges : List LayerRange)
    (hnames : ∀ k, .create k ∈ (makeGraphlets api clones flags nodes layers group ranges).events →
      k.handle ≠ 0) :
    let made := makeGraphlets api clones flags nodes layers group ranges
    Makes made.graphlets made.events made.failure ∧ made.graphlets.length = ranges.length := by
  induction ranges generalizing group with
  | nil => exact ⟨⟨⟨[], rfl, .refl _⟩, fun _ _ hg => absurd hg List.not_mem_nil⟩, rfl⟩
  | cons range ranges ih =>
    unfold makeGraphlets at hnames ⊢
    dsimp only at hnames ⊢
    have hone := makeGraphlet_makes (api.clones group) (clones group) flags nodes layers range
    generalize makeGraphlet (api.clones group) (clones group) flags nodes layers range = made
      at hone hnames ⊢
    obtain ⟨handles, events, failure⟩ := made
    cases failure with
    | some reason =>
      obtain ⟨⟨ks, hevents, hperm⟩, -⟩ := hone hnames
      refine ⟨⟨⟨ks, hevents, ?_⟩, by rintro ⟨⟩⟩, ?_⟩
      · rw [List.flatMap_cons, null_objects, List.append_nil]
        rwa [List.flatMap_singleton] at hperm
      · rw [List.length_cons, List.length_map, List.length_cons]
    | none =>
      obtain ⟨⟨ks, hevents, hperm⟩, hcomplete⟩ :=
        hone fun k hk => hnames k (List.mem_append_left _ hk)
      obtain ⟨⟨⟨ks', hevents', hperm'⟩, hcomplete'⟩, hlength⟩ :=
        ih (group + 1) fun k hk => hnames k (List.mem_append_right _ hk)
      refine ⟨⟨⟨ks ++ ks', ?_, ?_⟩, fun hfailure g hg => ?_⟩, congrArg Nat.succ hlength⟩
      · rw [List.map_append, ← hevents, ← hevents']
      · rw [List.flatMap_cons]
        rw [List.flatMap_singleton] at hperm
        exact hperm.append hperm'
      · rcases List.mem_cons.mp hg with rfl | hg
        · exact hcomplete rfl _ List.mem_cons_self
        · exact hcomplete' hfailure g hg

/-! ## The entry that is made -/

theorem DriverNames.of_append {log more : List (Event GraphObject)}
    (h : DriverNames (log ++ more)) : DriverNames log :=
  ⟨h.fresh.of_append, fun k hk => h.notNull k (List.mem_append_left _ hk)⟩

/-- What the loop over the graphlets has made is in its array, also where it fails. -/
theorem makeGraphlets_owns {log : List (Event GraphObject)} {held : List GraphObject}
    (h : Owns log held) (api : GraphApi ν) (clones : Nat → CUgraph) (flags : UInt64)
    (nodes : List ν) (layers : Nat → Nat) (group : Nat) (ranges : List LayerRange)
    (hnames : DriverNames
      (log ++ (makeGraphlets api clones flags nodes layers group ranges).events)) :
    let made := makeGraphlets api clones flags nodes layers group ranges
    Owns (log ++ made.events) (made.graphlets.flatMap GraphletHandles.objects ++ held) := by
  obtain ⟨⟨⟨ks, hevents, hperm⟩, -⟩, -⟩ :=
    makeGraphlets_makes api clones flags nodes layers group ranges fun k hk =>
      hnames.notNull k (List.mem_append_right _ hk)
  dsimp only
  have hfresh := hnames.fresh
  rw [hevents] at hfresh ⊢
  exact (h.createAll hfresh).of_perm (hperm.append_right held)

/-- A graph that is split has a graphlet: it has a node in its first layer. -/
theorem planGraphlets_ranges {limit : Nat} {flags : UInt64} {api : GraphApi ν} {nodes : List ν}
    {layers : Nat → Nat} {ranges : List LayerRange}
    (h : planGraphlets limit flags api = .ok (nodes, layers, ranges)) : ranges ≠ [] := by
  obtain ⟨-, h⟩ := require_bind h
  obtain ⟨nodeCount, -, h⟩ := demand_bind h
  obtain ⟨hsome, h⟩ := require_bind h
  obtain ⟨-, h⟩ := require_bind h
  obtain ⟨-, h⟩ := require_bind h
  obtain ⟨nodes', -, h⟩ := demand_bind h
  obtain ⟨hcount, h⟩ := require_bind h
  obtain ⟨-, h⟩ := require_bind h
  obtain ⟨edges, -, h⟩ := bind_ok h
  obtain ⟨⟨layers', layerCount⟩, hlayers, h⟩ := bind_ok h
  obtain ⟨-, h⟩ := require_bind h
  obtain ⟨rfl, hrest⟩ := Prod.mk.inj (Except.ok.inj h)
  obtain ⟨rfl, rfl⟩ := Prod.mk.inj hrest
  have hnonempty : nodes' ≠ [] := by
    rintro rfl
    exact of_decide_eq_true hsome (of_decide_eq_true hcount).symm
  obtain ⟨hpos, i, hi, hfirst⟩ := graphLayers_first hnonempty hlayers
  refine groupLayers_ne_nil hpos (List.countP_pos_iff.mpr ⟨i, List.mem_range.mpr hi, ?_⟩)
  exact decide_eq_true hfirst

/-- An entry is split if it has a graphlet, and can launch and destroy all it has. -/
structure OwnedMetadata.WellMade (m : OwnedMetadata) : Prop where
  splittable : m.splittable = true ↔ m.graphlets ≠ []
  complete : ∀ g ∈ m.graphlets, g.Complete

/-- An entry without graphlets. -/
theorem OwnedMetadata.WellMade.whole {m : OwnedMetadata} (hsplittable : m.splittable = false)
    (hgraphlets : m.graphlets = []) : m.WellMade := by
  constructor
  · rw [hsplittable, hgraphlets]
    exact iff_of_false Bool.false_ne_true fun hne => hne rfl
  · intro g hg
    rw [hgraphlets] at hg
    exact absurd hg List.not_mem_nil

theorem madeMetadata_originalExec (cfg : GraphConfig) (exec : CUgraphExec) (flags : UInt64)
    (o : RecordAnswers ν) : (madeMetadata cfg exec flags o).1.originalExec = exec := by
  unfold madeMetadata
  dsimp only
  repeat' split
  all_goals rfl

/-- The new entry holds what the calls for it have left. -/
theorem madeMetadata_owns {log : List (Event GraphObject)} {held : List GraphObject}
    (h : Owns log held) (cfg : GraphConfig) (exec : CUgraphExec) (flags : UInt64)
    (o : RecordAnswers ν) (hnames : DriverNames (log ++ (madeMetadata cfg exec flags o).2)) :
    let made := madeMetadata cfg exec flags o
    Owns (log ++ made.2) (made.1.objects ++ held) ∧ made.1.WellMade := by
  revert hnames
  unfold madeMetadata
  dsimp only
  split
  next =>
    split
    next reason hplan =>
      intro _
      rw [List.append_nil]
      exact ⟨h, .whole rfl rfl⟩
    next nodes layers ranges hplan =>
      have hmakes := makeGraphlets_makes o.api o.clones flags nodes layers 0 ranges
      have howns := makeGraphlets_owns h o.api o.clones flags nodes layers 0 ranges
      generalize makeGraphlets o.api o.clones flags nodes layers 0 ranges = made
        at hmakes howns ⊢
      dsimp only at hmakes howns ⊢
      split
      next reason hfailure =>
        -- the graphlets before the one that failed are destroyed with it
        intro hnames
        dsimp only at hnames ⊢
        rw [← List.append_assoc] at hnames ⊢
        exact ⟨(howns hnames.of_append).destroyAll, .whole rfl rfl⟩
      next hfailure =>
        intro hnames
        obtain ⟨⟨-, hcomplete⟩, hlength⟩ := hmakes fun k hk =>
          hnames.notNull k (List.mem_append_right _ hk)
        refine ⟨howns hnames, iff_of_true rfl ?_, hcomplete hfailure⟩
        refine List.ne_nil_of_length_pos ?_
        rw [hlength]
        exact List.length_pos_of_ne_nil (planGraphlets_ranges hplan)
  next =>
    intro _
    rw [List.append_nil]
    exact ⟨h, .whole rfl rfl⟩

/-! ## The list -/

/-- The objects of one entry are given up and those of the others are still held. -/
theorem giveUp_owns {log : List (Event GraphObject)} {extra : List GraphObject}
    {before after : List OwnedMetadata} {m : OwnedMetadata}
    (h : Owns log (extra ++ (before ++ m :: after).flatMap OwnedMetadata.objects)) :
    Owns (log ++ graphDestroyGraphlets m.graphlets)
      (extra ++ (before ++ after).flatMap OwnedMetadata.objects) := by
  refine Owns.destroyAll (h.of_perm ?_)
  rw [List.flatMap_append, List.flatMap_cons, List.flatMap_append]
  -- past the entries before it and past the others
  exact ((List.perm_append_comm_assoc ..).append_left extra).trans
    (List.perm_append_comm_assoc ..)

theorem unlink_owns {s : OwnedRegistry} {extra : List GraphObject} (exec : CUgraphExec)
    (h : Owns s.log (extra ++ s.objects)) :
    Owns (s.unlink exec).log (extra ++ (s.unlink exec).objects) := by
  unfold OwnedRegistry.unlink OwnedRegistry.objects OwnedRegistry.find
  cases hfind : Keyed.find OwnedMetadata.originalExec exec s.entries with
  | none =>
    dsimp only
    rw [(find_none hfind).1, Option.map_none, Option.getD_none, List.append_nil]
    exact h
  | some m =>
    obtain ⟨-, before, after, hentries, herase, -⟩ := find_some hfind
    dsimp only
    rw [herase, Option.map_some, Option.getD_some]
    refine giveUp_owns ?_
    rw [← hentries]
    exact h

theorem liltGraphInvalidate_owns {s : OwnedRegistry} (exec : CUgraphExec)
    (reason : Option String) (h : Owns s.log s.objects) :
    Owns (s.liltGraphInvalidate exec reason).log (s.liltGraphInvalidate exec reason).objects := by
  unfold OwnedRegistry.liltGraphInvalidate
  split
  · exact h
  · split
    next m hfind =>
      split
      · obtain ⟨-, before, after, hentries, -, hupdate⟩ := find_some hfind
        unfold OwnedRegistry.objects at h ⊢
        dsimp only
        rw [hupdate, List.flatMap_append, List.flatMap_cons]
        -- the entry stays, with nothing
        change Owns _ (_ ++ ([] ++ _))
        rw [List.nil_append, ← List.flatMap_append]
        rw [hentries] at h
        exact giveUp_owns (show Owns s.log ([] ++ _) from h)
      · exact h
    next => exact h

/-- The entry of `exec` behind the calls, the latest of which is the first. -/
def entryOf (cfg : GraphConfig) (exec : CUgraphExec) :
    List (RegistryAction ν) → Option OwnedMetadata
  | [] => none
  | .record exec' graph flags answers :: before =>
    if exec' = exec ∧ exec ≠ 0 ∧ graph ≠ 0 then some (madeMetadata cfg exec flags answers).1
    else entryOf cfg exec before
  | .invalidate exec' reason :: before =>
    if exec' = exec ∧ exec ≠ 0 then
      (entryOf cfg exec before).map fun m =>
        if m.splittable then m.fallback (reason.getD "updated") else m
    else entryOf cfg exec before
  | .forget exec' :: before =>
    if exec' = exec ∧ exec ≠ 0 then none else entryOf cfg exec before

/-- What holds between two calls. -/
structure OwnershipInv (s : OwnedRegistry) : Prop where
  distinct : Distinct OwnedMetadata.originalExec s.entries
  wellMade : ∀ m ∈ s.entries, m.WellMade
  owns : Owns s.log s.objects

theorem ownershipInv_init : OwnershipInv ⟨[], []⟩ :=
  ⟨List.nodup_nil, fun _ hm => absurd hm List.not_mem_nil, .nil⟩

theorem OwnershipInv.unlink {s : OwnedRegistry} (h : OwnershipInv s) (exec : CUgraphExec) :
    OwnershipInv (s.unlink exec) where
  distinct := h.distinct.erase
  wellMade m hm := h.wellMade m (h.distinct.mem_erase.mp hm).1
  owns := unlink_owns exec (show Owns s.log ([] ++ _) from h.owns)

theorem OwnershipInv.liltGraphRecord {cfg : GraphConfig} {s : OwnedRegistry}
    (h : OwnershipInv s) {exec : CUgraphExec} {graph : CUgraph} {flags : UInt64}
    {answers : RecordAnswers ν}
    (hnames : DriverNames (s.liltGraphRecord cfg exec graph flags answers).log) :
    OwnershipInv (s.liltGraphRecord cfg exec graph flags answers) := by
  revert hnames
  unfold OwnedRegistry.liltGraphRecord
  split
  · exact fun _ => h
  · have hexec := madeMetadata_originalExec cfg exec flags answers
    have hmade := madeMetadata_owns h.owns cfg exec flags answers
    generalize madeMetadata cfg exec flags answers = made at hexec hmade ⊢
    obtain ⟨metadata, events⟩ := made
    dsimp only at hexec hmade ⊢
    intro hnames
    -- the clones are made before the old entry is unlinked
    have hmade := hmade hnames.of_append
    constructor
    · refine (h.distinct.erase).cons fun m hm => ?_
      rw [hexec]
      exact (h.distinct.mem_erase.mp hm).2
    · intro m hm
      rcases List.mem_cons.mp hm with rfl | hm
      · exact hmade.2
      · exact h.wellMade m (h.distinct.mem_erase.mp hm).1
    · exact unlink_owns (s := { s with log := s.log ++ events }) exec hmade.1

theorem OwnershipInv.liltGraphInvalidate {s : OwnedRegistry} (h : OwnershipInv s)
    (exec : CUgraphExec) (reason : Option String) :
    OwnershipInv (s.liltGraphInvalidate exec reason) := by
  refine ⟨?_, ?_, liltGraphInvalidate_owns exec reason h.owns⟩
  all_goals
    unfold OwnedRegistry.liltGraphInvalidate
    split
  · exact h.distinct
  · split
    next m hfind =>
      split
      · exact h.distinct.update fun _ => rfl
      · exact h.distinct
    next => exact h.distinct
  · exact h.wellMade
  · split
    next m hfind =>
      split
      · intro m' hm'
        rcases h.distinct.mem_update hm' with ⟨hm', -⟩ | ⟨m', -, -, rfl⟩
        · exact h.wellMade m' hm'
        · exact .whole rfl rfl
      · exact h.wellMade
    next => exact h.wellMade

theorem ownershipInv_step {cfg : GraphConfig} {s t : OwnedRegistry} {a : RegistryAction ν}
    (h : OwnershipInv s) (hstep : (ownedSystem cfg).Step s a t) : OwnershipInv t := by
  obtain ⟨rfl, hnames⟩ := hstep
  cases a with
  | record exec graph flags answers => exact h.liltGraphRecord hnames
  | invalidate exec reason => exact h.liltGraphInvalidate exec reason
  | forget exec =>
    unfold OwnedRegistry.perform OwnedRegistry.liltGraphForget
    dsimp only
    split
    · exact h
    · exact h.unlink exec

/-! ## What is found -/

/-- A call leaves the entries of the other executable graphs as they are. -/
theorem perform_find_of_ne (cfg : GraphConfig) (s : OwnedRegistry) (a : RegistryAction ν)
    {exec : CUgraphExec} (h : exec ≠ a.exec) : (s.perform cfg a).find exec = s.find exec := by
  cases a with
  | record exec' graph flags answers =>
    have hexec := madeMetadata_originalExec cfg exec' flags answers
    unfold OwnedRegistry.perform OwnedRegistry.liltGraphRecord
    dsimp only
    split
    · rfl
    · show Keyed.find _ _ (_ :: _) = _
      rw [find_cons, if_neg fun heq => h (heq.symm.trans hexec)]
      exact find_erase_of_ne h
  | invalidate exec' reason =>
    unfold OwnedRegistry.perform OwnedRegistry.liltGraphInvalidate
    dsimp only
    split
    · rfl
    · split
      next m hfind =>
        split
        · exact find_update_of_ne h fun _ => rfl
        · rfl
      next => rfl
  | forget exec' =>
    unfold OwnedRegistry.perform OwnedRegistry.liltGraphForget
    dsimp only
    split
    · rfl
    · exact find_erase_of_ne h

/-- A call does to the entry of its executable graph what the history says. -/
theorem perform_find {cfg : GraphConfig} {s : OwnedRegistry} (a : RegistryAction ν)
    {exec : CUgraphExec} {before : List (RegistryAction ν)}
    (hdistinct : Distinct OwnedMetadata.originalExec s.entries)
    (h : s.find exec = entryOf cfg exec before) :
    (s.perform cfg a).find exec = entryOf cfg exec (a :: before) := by
  by_cases hexec : a.exec = exec
  case neg =>
    rw [perform_find_of_ne cfg s a fun heq => hexec heq.symm, h]
    have hother {p : Prop} : ¬ (a.exec = exec ∧ p) := fun hand => hexec hand.1
    cases a with
    | record exec' graph flags answers => exact (if_neg hother).symm
    | invalidate exec' reason => exact (if_neg hother).symm
    | forget exec' => exact (if_neg hother).symm
  case pos =>
    cases a with
    | record exec' graph flags answers =>
      obtain rfl : exec' = exec := hexec
      unfold OwnedRegistry.perform OwnedRegistry.liltGraphRecord entryOf
      dsimp only
      by_cases hnull : exec' = 0 ∨ graph = 0
      · rw [if_pos hnull, if_neg fun hgood => hnull.elim hgood.2.1 hgood.2.2]
        exact h
      · obtain ⟨hexec, hgraph⟩ := not_or.mp hnull
        rw [if_neg hnull, if_pos ⟨rfl, hexec, hgraph⟩]
        show Keyed.find _ _ (_ :: _) = _
        rw [find_cons, if_pos (madeMetadata_originalExec cfg exec' flags answers)]
    | invalidate exec' reason =>
      obtain rfl : exec' = exec := hexec
      unfold OwnedRegistry.perform OwnedRegistry.liltGraphInvalidate entryOf
      dsimp only
      by_cases hnull : exec' = 0
      · rw [if_pos hnull, if_neg fun hgood => hgood.2 hnull]
        exact h
      · rw [if_neg hnull, if_pos ⟨rfl, hnull⟩, ← h]
        cases hfind : s.find exec' with
        | none =>
          dsimp only
          rw [hfind]
          rfl
        | some m =>
          dsimp only
          rw [Option.map_some]
          split
          · show Keyed.find _ _ (update _ _ _ _) = _
            refine Eq.trans (find_update_self fun _ => rfl) ?_
            exact congrArg (Option.map _) hfind
          · exact hfind
    | forget exec' =>
      obtain rfl : exec' = exec := hexec
      unfold OwnedRegistry.perform OwnedRegistry.liltGraphForget entryOf
      dsimp only
      by_cases hnull : exec' = 0
      · rw [if_pos hnull, if_neg fun hgood => hgood.2 hnull]
        exact h
      · rw [if_neg hnull, if_pos ⟨rfl, hnull⟩]
        exact hdistinct.find_erase

/-! ## Sequences of calls -/

theorem ownedRun_inv {cfg : GraphConfig} {tr : List (OwnedRegistry × RegistryAction ν)}
    {s : OwnedRegistry} (h : (ownedSystem cfg).Run tr s) :
    OwnershipInv s ∧ ∀ exec, s.find exec = entryOf cfg exec (tr.map Prod.snd).reverse := by
  induction h with
  | init hinit =>
    obtain rfl := hinit
    exact ⟨ownershipInv_init, fun _ => rfl⟩
  | step _ hstep ih =>
    obtain ⟨hinv, hfind⟩ := ih
    refine ⟨ownershipInv_step hinv hstep, fun exec => ?_⟩
    obtain ⟨rfl, -⟩ := hstep
    rw [List.map_append, List.reverse_append]
    exact perform_find _ hinv.distinct (hfind exec)

/-- Behind any sequence of calls, whichever of the driver's calls and allocations
failed: no executable graph has two entries, its entry is the one the history says, and
the next call leaves the other ones alone; an entry is split if and only if it has a
graphlet, and each graphlet has its clone and its executable graph; and the objects
that exist are those the entries hold, each once, where none was destroyed twice. -/
theorem registry_owns_its_objects (cfg : GraphConfig)
    {tr : List (OwnedRegistry × RegistryAction ν)} {s : OwnedRegistry}
    (h : (ownedSystem cfg).Run tr s) :
    Distinct OwnedMetadata.originalExec s.entries ∧
      (∀ exec, s.find exec = entryOf cfg exec (tr.map Prod.snd).reverse) ∧
      (∀ (a : RegistryAction ν) exec, exec ≠ a.exec →
        (s.perform cfg a).find exec = s.find exec) ∧
      (∀ m ∈ s.entries, (m.splittable = true ↔ m.graphlets ≠ []) ∧
        ∀ g ∈ m.graphlets, g.graph ≠ 0 ∧ g.exec ≠ 0) ∧
      (live s.log).Perm s.objects ∧ s.objects.Nodup ∧ Sound s.log := by
  obtain ⟨hinv, hfind⟩ := ownedRun_inv h
  refine ⟨hinv.distinct, hfind, fun a exec hexec => perform_find_of_ne cfg s a hexec, ?_,
    hinv.owns.perm, hinv.owns.nodup, hinv.owns.sound⟩
  intro m hm
  exact ⟨(hinv.wellMade m hm).splittable, (hinv.wellMade m hm).complete⟩

end

/-- A graph of one kernel. -/
def kernelGraph : CudaGraph Nat where
  nodes := [0]
  edges := []
  nodup := by decide
  edge_mem := by decide

/-- The settings under which every layer is a graphlet. -/
def splitConfig : GraphConfig where
  eventPolicy := true
  passthrough := false
  mode := .graphlet
  graphletMaxNodes := 1

/-- `kernelGraph` is recorded. -/
def recordKernel : RegistryAction Nat :=
  .record 100 50 0 { api := succeedingApi kernelGraph, clones := fun k => k + 60 }

/-- A node of the recorded graph gets other parameters. -/
def updateKernel : RegistryAction Nat := .invalidate 100 none

/-- What both calls create and destroy. -/
def recordedLog : List (Event GraphObject) :=
  [.create (.graph 60), .create (.exec 1), .destroy (.exec 1), .destroy (.graph 60)]

theorem recordedLog_names : DriverNames recordedLog := by
  constructor
  · intro before k after hlog
    rcases before with _ | ⟨e, _ | ⟨e', _ | ⟨_, _ | ⟨_, before⟩⟩⟩⟩
    · exact List.not_mem_nil
    · obtain ⟨he, hlog'⟩ := List.cons.inj hlog
      obtain ⟨hk, -⟩ := List.cons.inj hlog'
      rw [← he, ← Event.create.inj hk]
      decide
    all_goals simp [recordedLog] at hlog
  · intro k hk
    simp only [recordedLog, List.mem_cons, Event.create.injEq, List.not_mem_nil, reduceCtorEq,
      or_false] at hk
    rcases hk with rfl | rfl <;> decide

theorem registry_owns_its_objects_updated :
    let recorded := OwnedRegistry.perform splitConfig ⟨[], []⟩ recordKernel
    let updated := recorded.perform splitConfig updateKernel
    updated.find 100 = entryOf splitConfig 100 [updateKernel, recordKernel] ∧
      (live updated.log).Perm updated.objects ∧ Sound updated.log := by
  have hrecorded : (ownedSystem splitConfig).Run [(⟨[], []⟩, recordKernel)]
      (OwnedRegistry.perform splitConfig ⟨[], []⟩ recordKernel) := by
    have hnames : DriverNames ([.create (.graph 60), .create (.exec 1)] ++
        [.destroy (.exec 1), .destroy (.graph 60)]) := recordedLog_names
    exact .step (.init rfl) ⟨rfl, hnames.of_append⟩
  have hupdated := Run.step hrecorded (a := updateKernel) ⟨rfl, recordedLog_names⟩
  obtain ⟨-, hfind, -, -, hperm, -, hsound⟩ := registry_owns_its_objects splitConfig hupdated
  exact ⟨hfind 100, hperm, hsound⟩

end Lilt.Graph
