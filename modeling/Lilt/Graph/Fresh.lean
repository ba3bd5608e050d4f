import Lilt.Graph.Process

/-!
# Split launches and stale graphlets

A graphlet is instantiated with the parameters its nodes have then. An update of the
graph it was made for leaves it as it is, so the proxy stops splitting a graph when
it sees an update of it. It does not see an update that goes to the driver.

- `Carries`: a graphlet runs its nodes with the settings of the graph.
- `LaunchesFresh`: every graphlet that a split launch launches does.
- `RegistryInv`: what holds of the list between two calls.
- `RegistryInv.frame`, `RegistryInv.unsplit_bookkeep`, `RegistryInv.insert`,
  `RegistryInv.update`, `RegistryInv.destroy`: what the parts of a call preserve.
- `RegistryInv.step`: what a step preserves.
- `launches_fresh_iff`: split launches are fresh just as long as no update bypasses
  the proxy.
-/

namespace Lilt.Graph

open Transition Keyed

variable {ν ρ : Type}

/-- The graphlet number `k` of `exec` runs its nodes with the settings that they have
in `exec`. -/
def Carries (execs : CUgraphExec → Option (ExecObject ν ρ)) (exec : CUgraphExec) (k : Nat)
    (graphlet : Graphlet ν) : Prop :=
  ∃ x y, execs exec = some x ∧ execs graphlet.exec = some y ∧
    ∀ u settings, x.settings u = some settings → x.clones k u ∈ graphlet.graph.nodes →
      y.settings (x.clones k u) = some settings

/-- A launch that takes the split path launches graphlets that carry the settings of
the graph. -/
def LaunchesFresh (cfg : GraphConfig) (s : GraphWorld ν ρ) : Prop :=
  ∀ exec metadata, graphFindLocked s.registry exec = some metadata →
    splitTaken cfg (some metadata) = true →
    ∀ k graphlet, metadata.graphlets[k]? = some graphlet → Carries s.execs exec k graphlet

/-- What holds of the list and the executable graphs between two calls. -/
structure RegistryInv (cfg : GraphConfig) (s : GraphWorld ν ρ) : Prop where
  null : s.execs 0 = none
  distinct : Distinct GraphMetadata.originalExec s.registry
  taken : ∀ m ∈ s.registry, m.graphlets ≠ [] → splitTaken cfg (some m) = true
  live : ∀ m ∈ s.registry, s.Owned m.originalExec
  internal : ∀ m ∈ s.registry, ∀ h ∈ m.handles, ∃ y, s.execs h = some y ∧ y.internal = true
  owner : ∀ m ∈ s.registry, ∀ m' ∈ s.registry, ∀ h ∈ m.handles, h ∈ m'.handles →
    m.originalExec = m'.originalExec
  carries : ∀ m ∈ s.registry, ∀ k graphlet, m.graphlets[k]? = some graphlet →
    Carries s.execs m.originalExec k graphlet

section

variable {cfg : GraphConfig} {s : GraphWorld ν ρ} {exec : CUgraphExec}

theorem mem_handles {m : GraphMetadata ν} {k : Nat} {graphlet : Graphlet ν}
    (hk : m.graphlets[k]? = some graphlet) : graphlet.exec ∈ m.handles :=
  List.mem_map_of_mem (List.mem_of_getElem? hk)

theorem RegistryInv.fresh (hI : RegistryInv cfg s) : LaunchesFresh cfg s := by
  intro exec m hfind _ k graphlet hk
  obtain ⟨hm, rfl⟩ := hI.distinct.find_iff.mp hfind
  exact hI.carries m hm k graphlet hk

/-- A handle of the application is none of a graphlet. -/
theorem RegistryInv.not_handle (hI : RegistryInv cfg s) (hexec : s.Owned exec) {m : GraphMetadata ν}
    (hm : m ∈ s.registry) : exec ∉ m.handles := by
  intro hmem
  obtain ⟨x, hx, hinternal⟩ := hexec
  obtain ⟨y, hy, hinternal'⟩ := hI.internal m hm exec hmem
  rw [hx] at hy
  obtain rfl := Option.some.inj hy
  rw [hinternal] at hinternal'
  cases hinternal'

theorem Carries.congr {execs execs' : CUgraphExec → Option (ExecObject ν ρ)} {k : Nat}
    {graphlet : Graphlet ν} (h : Carries execs exec k graphlet) (hexec : execs' exec = execs exec)
    (hgraphlet : execs' graphlet.exec = execs graphlet.exec) : Carries execs' exec k graphlet := by
  unfold Carries
  rw [hexec, hgraphlet]
  exact h

/-! ## Executable graphs change -/

/-- The invariant looks at the graphs of the entries and at their graphlets only. -/
theorem RegistryInv.frame (hI : RegistryInv cfg s)
    {execs : CUgraphExec → Option (ExecObject ν ρ)} (hnull : execs 0 = none)
    (hlive : ∀ m ∈ s.registry, ∃ x, execs m.originalExec = some x ∧ x.internal = false)
    (hhandles : ∀ m ∈ s.registry, ∀ h ∈ m.handles, execs h = s.execs h)
    (hcarries : ∀ m ∈ s.registry, ∀ k graphlet, m.graphlets[k]? = some graphlet →
      Carries execs m.originalExec k graphlet) : RegistryInv cfg { s with execs := execs } where
  null := hnull
  distinct := hI.distinct
  taken := hI.taken
  live := hlive
  internal m hm h hh := by
    obtain ⟨y, hy, hinternal⟩ := hI.internal m hm h hh
    exact ⟨y, (hhandles m hm h hh).trans hy, hinternal⟩
  owner := hI.owner
  carries := hcarries

/-! ## A graph is not split any more -/

/-- What the functions leave that destroy the graphlets of `exec`. -/
structure Unsplits (registry : List (GraphMetadata ν)) (exec : CUgraphExec)
    (result : List (GraphMetadata ν) × List CUgraphExec) : Prop where
  distinct : Distinct GraphMetadata.originalExec result.1
  entry : ∀ m ∈ result.1, (m ∈ registry ∧ m.originalExec ≠ exec) ∨
    m.graphlets = [] ∧ m.originalExec = exec ∧ ∃ old ∈ registry, old.originalExec = exec
  destroyed : ∀ h ∈ result.2, ∃ m ∈ registry, m.originalExec = exec ∧ h ∈ m.handles

theorem RegistryInv.mem_graphHandles (hI : RegistryInv cfg s) {h : CUgraphExec}
    (hh : h ∈ graphHandles s.registry exec) :
    ∃ m ∈ s.registry, m.originalExec = exec ∧ h ∈ m.handles := by
  unfold graphHandles at hh
  cases hfind : graphFindLocked s.registry exec with
  | none =>
    rw [hfind] at hh
    cases hh
  | some m =>
    rw [hfind] at hh
    obtain ⟨hm, hexec⟩ := hI.distinct.find_iff.mp hfind
    exact ⟨m, hm, hexec, hh⟩

theorem RegistryInv.unsplits_nothing (hI : RegistryInv cfg s)
    (hnone : ∀ m ∈ s.registry, m.originalExec = exec → m.graphlets = []) :
    Unsplits s.registry exec (s.registry, []) where
  distinct := hI.distinct
  entry m hm := by
    by_cases heq : m.originalExec = exec
    · exact .inr ⟨hnone m hm heq, heq, m, hm, heq⟩
    · exact .inl ⟨hm, heq⟩
  destroyed _ hh := nomatch hh

theorem RegistryInv.owned_ne_null (hI : RegistryInv cfg s) (howned : s.Owned exec) :
    exec ≠ 0 := by
  rintro rfl
  obtain ⟨x, hx, -⟩ := howned
  rw [hI.null] at hx
  cases hx

theorem RegistryInv.not_null (hI : RegistryInv cfg s) :
    ∀ m ∈ s.registry, m.originalExec = 0 → m.graphlets = [] :=
  fun m hm hzero => absurd hzero (hI.owned_ne_null (hI.live m hm))

theorem RegistryInv.invalidate (hI : RegistryInv cfg s) (exec : CUgraphExec)
    (reason : Option String) :
    Unsplits s.registry exec (liltGraphInvalidate s.registry exec reason) := by
  unfold liltGraphInvalidate
  split
  next hzero =>
    subst hzero
    exact hI.unsplits_nothing hI.not_null
  next =>
    split
    · refine { distinct := hI.distinct.update fun _ => rfl, entry := fun m hm => ?_
               destroyed := fun h => hI.mem_graphHandles }
      rcases hI.distinct.mem_update hm with hkept | ⟨old, hold, hexec, rfl⟩
      · exact .inl hkept
      · exact .inr ⟨rfl, hexec, old, hold, hexec⟩
    -- an entry that is not splittable has no graphlets
    next hnot =>
      refine hI.unsplits_nothing fun m hm hexec => ?_
      by_contra hsome
      have htaken := hI.taken m hm hsome
      rw [graphFindLocked, hI.distinct.find_iff.mpr ⟨hm, hexec⟩, Option.any_some] at hnot
      unfold splitTaken at htaken
      rw [Option.any_some, Bool.and_eq_true] at htaken
      exact hnot htaken.2

theorem RegistryInv.forget (hI : RegistryInv cfg s) (exec : CUgraphExec) :
    Unsplits s.registry exec (liltGraphForget s.registry exec) := by
  unfold liltGraphForget
  split
  next hzero =>
    subst hzero
    exact hI.unsplits_nothing hI.not_null
  next =>
    exact { distinct := hI.distinct.erase, entry := fun m hm => .inl (hI.distinct.mem_erase.mp hm)
            destroyed := fun h => hI.mem_graphHandles }

/-- Destroying the graphlets of a graph does not touch those of the others. -/
theorem RegistryInv.unsplit_bookkeep (hI : RegistryInv cfg s)
    {result : List (GraphMetadata ν) × List CUgraphExec}
    (h : Unsplits s.registry exec result) : RegistryInv cfg (s.bookkeep result) := by
  -- an entry that still has graphlets is an old one, and of another graph
  have hkept : ∀ m ∈ result.1, m.graphlets ≠ [] → m ∈ s.registry ∧ m.originalExec ≠ exec := by
    intro m hm hsome
    rcases h.entry m hm with hkept | ⟨hnone, -⟩
    · exact hkept
    · exact absurd hnone hsome
  have hold : ∀ m ∈ result.1, ∀ e ∈ m.handles, m ∈ s.registry ∧ m.originalExec ≠ exec := by
    intro m hm e he
    refine hkept m hm fun hnone => ?_
    rw [GraphMetadata.handles, hnone] at he
    cases he
  have hlive : ∀ m ∈ result.1, s.Owned m.originalExec := by
    intro m hm
    rcases h.entry m hm with ⟨hold, -⟩ | ⟨-, hexec, old, hold, hexec'⟩
    · exact hI.live m hold
    · rw [hexec, ← hexec']
      exact hI.live old hold
  have howned : ∀ e, s.Owned e → e ∉ result.2 := by
    intro e he hmem
    obtain ⟨m, hm, -, hh⟩ := h.destroyed e hmem
    exact hI.not_handle he hm hh
  -- a handle that is destroyed belongs to `exec`, and to no other graph
  have hhandles : ∀ m ∈ result.1, ∀ e ∈ m.handles, e ∉ result.2 := by
    intro m hm e he hmem
    obtain ⟨hm', hne⟩ := hold m hm e he
    obtain ⟨m', hm'', hexec, he'⟩ := h.destroyed e hmem
    exact hne ((hI.owner m hm' m' hm'' e he he').trans hexec)
  refine { null := ?_, distinct := h.distinct, taken := fun m hm hsome => ?_
           live := fun m hm => ?_, internal := fun m hm e he => ?_
           owner := fun m hm m' hm' e he he' =>
             hI.owner m (hold m hm e he).1 m' (hold m' hm' e he').1 e he he'
           carries := fun m hm k graphlet hk => ?_ }
  · show (if 0 ∈ result.2 then none else s.execs 0) = none
    rw [hI.null, ite_self]
  · exact hI.taken m (hkept m hm hsome).1 hsome
  · obtain ⟨x, hx, hinternal⟩ := hlive m hm
    exact ⟨x, (if_neg (howned _ (hlive m hm))).trans hx, hinternal⟩
  · obtain ⟨y, hy, hinternal⟩ := hI.internal m (hold m hm e he).1 e he
    exact ⟨y, (if_neg (hhandles m hm e he)).trans hy, hinternal⟩
  · have hmem := mem_handles hk
    exact (hI.carries m (hold m hm _ hmem).1 k graphlet hk).congr
      (if_neg (howned _ (hlive m hm))) (if_neg (hhandles m hm _ hmem))

end

/-! ## A new graph -/

/-- A handle that is not in use occurs in no entry. -/
theorem RegistryInv.unused {cfg : GraphConfig} {s : GraphWorld ν ρ} (hI : RegistryInv cfg s)
    {h : CUgraphExec} (hfree : s.execs h = none) :
    ∀ m ∈ s.registry, m.originalExec ≠ h ∧ h ∉ m.handles := by
  intro m hm
  constructor
  · rintro rfl
    obtain ⟨x, hx, -⟩ := hI.live m hm
    rw [hfree] at hx
    cases hx
  · intro hmem
    obtain ⟨y, hy, -⟩ := hI.internal m hm h hmem
    rw [hfree] at hy
    cases hy

/-- Executable graphs are added under handles that were not in use. -/
theorem RegistryInv.add {cfg : GraphConfig} {s : GraphWorld ν ρ} (hI : RegistryInv cfg s)
    {execs : CUgraphExec → Option (ExecObject ν ρ)} (hnull : execs 0 = none)
    (hadd : ∀ h, execs h ≠ s.execs h → s.execs h = none) :
    RegistryInv cfg { s with execs := execs } := by
  have hsame : ∀ h, s.execs h ≠ none → execs h = s.execs h := by
    intro h hused
    by_contra hne
    exact hused (hadd h hne)
  have horiginal : ∀ m ∈ s.registry, execs m.originalExec = s.execs m.originalExec := by
    intro m hm
    refine hsame _ fun hfree => ?_
    exact (hI.unused hfree m hm).1 rfl
  have hhandles : ∀ m ∈ s.registry, ∀ h ∈ m.handles, execs h = s.execs h := by
    intro m hm h hh
    exact hsame _ fun hfree => (hI.unused hfree m hm).2 hh
  refine hI.frame hnull (fun m hm => ?_) hhandles fun m hm k graphlet hk => ?_
  · rw [horiginal m hm]
    exact hI.live m hm
  · exact (hI.carries m hm k graphlet hk).congr (horiginal m hm)
      (hhandles m hm _ (mem_handles hk))

/-- The entry of a graph that has none is added. -/
theorem RegistryInv.insert {cfg : GraphConfig} {s : GraphWorld ν ρ} (hI : RegistryInv cfg s)
    {metadata : GraphMetadata ν}
    (hnone : ∀ m ∈ s.registry, m.originalExec ≠ metadata.originalExec)
    (htaken : metadata.graphlets ≠ [] → splitTaken cfg (some metadata) = true)
    (hlive : s.Owned metadata.originalExec)
    (hinternal : ∀ h ∈ metadata.handles, ∃ y, s.execs h = some y ∧ y.internal = true)
    (howner : ∀ h ∈ metadata.handles, ∀ m ∈ s.registry, h ∉ m.handles)
    (hcarries : ∀ k graphlet, metadata.graphlets[k]? = some graphlet →
      Carries s.execs metadata.originalExec k graphlet) :
    RegistryInv cfg (s.bookkeep (liltGraphRecord s.registry metadata)) := by
  have hfind : graphHandles s.registry metadata.originalExec = [] := by
    unfold graphHandles
    cases hfind : graphFindLocked s.registry metadata.originalExec with
    | none => rfl
    | some m =>
      obtain ⟨hm, hexec⟩ := hI.distinct.find_iff.mp hfind
      exact absurd hexec (hnone m hm)
  have hworld : s.bookkeep (liltGraphRecord s.registry metadata) =
      { s with registry := metadata ::
          Keyed.erase GraphMetadata.originalExec metadata.originalExec s.registry } := by
    unfold GraphWorld.bookkeep liltGraphRecord
    rw [hfind]
    simp
  rw [hworld]
  have hrest : ∀ m ∈ Keyed.erase GraphMetadata.originalExec metadata.originalExec s.registry,
      m ∈ s.registry := fun m hm => (hI.distinct.mem_erase.mp hm).1
  refine { null := hI.null
           distinct := hI.distinct.erase.cons fun m hm => hnone m (hrest m hm)
           taken := List.forall_mem_cons.mpr ⟨htaken, fun m hm => hI.taken m (hrest m hm)⟩
           live := List.forall_mem_cons.mpr ⟨hlive, fun m hm => hI.live m (hrest m hm)⟩
           internal := List.forall_mem_cons.mpr
             ⟨hinternal, fun m hm => hI.internal m (hrest m hm)⟩
           owner := fun m hm m' hm' h hh hh' => ?_
           carries := List.forall_mem_cons.mpr
             ⟨hcarries, fun m hm => hI.carries m (hrest m hm)⟩ }
  rcases List.mem_cons.mp hm with rfl | hm
  · rcases List.mem_cons.mp hm' with rfl | hm'
    · rfl
    · exact absurd hh' (howner h hh m' (hrest m' hm'))
  · rcases List.mem_cons.mp hm' with rfl | hm'
    · exact absurd hh (howner h hh' m (hrest m hm))
    · exact hI.owner m (hrest m hm) m' (hrest m' hm') h hh hh'

section

variable [DecidableEq ν] {graph : CudaGraph ν} {params : ν → ρ} {clones : Nat → ν → ν}

theorem addGraphlets_other {k : Nat} {graphlets : List (Graphlet ν)}
    {execs : CUgraphExec → Option (ExecObject ν ρ)} {h : CUgraphExec}
    (hh : h ∉ graphlets.map Graphlet.exec) :
    addGraphlets graph params clones k graphlets execs h = execs h := by
  induction graphlets generalizing k execs with
  | nil => rfl
  | cons graphlet graphlets ih =>
    rw [List.map_cons, List.mem_cons, not_or] at hh
    unfold addGraphlets
    rw [ih hh.2, Function.update_of_ne hh.1]

theorem addGraphlets_get {k : Nat} {graphlets : List (Graphlet ν)}
    {execs : CUgraphExec → Option (ExecObject ν ρ)}
    (hnodup : (graphlets.map Graphlet.exec).Nodup) {j : Nat} {graphlet : Graphlet ν}
    (hj : graphlets[j]? = some graphlet) :
    addGraphlets graph params clones k graphlets execs graphlet.exec =
      some (graphletObject graph params (clones (k + j)) graphlet) := by
  induction graphlets generalizing k j execs with
  | nil => cases hj
  | cons first graphlets ih =>
    obtain ⟨hfirst, hnodup⟩ := List.nodup_cons.mp hnodup
    unfold addGraphlets
    cases j with
    | zero =>
      obtain rfl := Option.some.inj hj
      rw [addGraphlets_other hfirst, Function.update_self]
      rfl
    | succ j =>
      rw [ih hnodup hj, Nat.add_assoc, Nat.add_comm 1]

/-- The entry of a new graph: it has graphlets only where a build succeeded. -/
theorem newMetadata_cases (cfg : GraphConfig) (exec : CUgraphExec) (flags : UInt64)
    (api : GraphApi ν) :
    (newMetadata cfg exec flags api).originalExec = exec ∧
      ((newMetadata cfg exec flags api).graphlets = [] ∨
        splitTaken cfg (some (newMetadata cfg exec flags api)) = true ∧
          graphBuildGraphlets cfg.graphletMaxNodes flags api =
            .ok (newMetadata cfg exec flags api).graphlets) := by
  unfold newMetadata
  split
  next hsplits =>
    dsimp only
    split
    next hbuild => exact ⟨rfl, .inr ⟨(Bool.and_true _).trans hsplits, hbuild⟩⟩
    next => exact ⟨rfl, .inl rfl⟩
  · exact ⟨rfl, .inl rfl⟩

/-- The graphlets of a new graph carry its settings. -/
theorem carries_new {cfg : GraphConfig} {flags : UInt64} {api : GraphApi ν}
    (hdesc : api.Describes graph clones) {graphlets : List (Graphlet ν)}
    (hbuild : graphBuildGraphlets cfg.graphletMaxNodes flags api = .ok graphlets)
    {execs : CUgraphExec → Option (ExecObject ν ρ)} {exec : CUgraphExec}
    (hexec : execs exec = some (newObject graph params clones)) {k : Nat}
    {graphlet : Graphlet ν} (hk : graphlets[k]? = some graphlet)
    (hgraphlet : execs graphlet.exec = some (graphletObject graph params (clones k) graphlet)) :
    Carries execs exec k graphlet := by
  obtain ⟨-, layers, layerCount, -, -, heach⟩ := graphBuildGraphlets_ok hdesc hbuild
  obtain ⟨range, -, -, hpart⟩ := heach k graphlet hk
  refine ⟨_, _, hexec, hgraphlet, fun u settings hu hkept => ?_⟩
  change (if u ∈ graph.nodes then _ else _) = _ at hu
  change clones k u ∈ graphlet.graph.nodes at hkept
  show (if clones k u ∈ graphlet.graph.nodes then _ else _) = _
  by_cases hmem : u ∈ graph.nodes
  · rw [if_pos hmem] at hu
    rw [if_pos hkept, ← hu]
    -- only `u` is mapped to its clone
    have hfind : graph.nodes.find? (fun w => clones k w = clones k u) = some u := by
      cases hw : graph.nodes.find? fun w => clones k w = clones k u with
      | none =>
        have hnot := List.find?_eq_none.mp hw u hmem
        exact absurd (decide_eq_true rfl) hnot
      | some w =>
        have heq := List.find?_some hw
        rw [decide_eq_true_iff] at heq
        rw [hpart.inj w (List.mem_of_find?_eq_some hw) u hmem heq]
    show (graph.nodes.find? fun w => clones k w = clones k u).map _ = _
    rw [hfind]
    rfl
  · rw [if_neg hmem] at hu
    cases hu

/-- `lilt_graph_record`, behind the driver's own instantiation. -/
theorem RegistryInv.record {cfg : GraphConfig} {s : GraphWorld ν ρ} (hI : RegistryInv cfg s)
    {flags : UInt64} {exec : CUgraphExec} {allocated : Bool} {api : GraphApi ν}
    (hallowed : s.Allowed cfg
      (.instantiate graph params flags exec allocated api clones)) :
    RegistryInv cfg (GraphWorld.record
      { s with execs := Function.update s.execs exec (some (newObject graph params clones)) }
      cfg graph params flags exec allocated api clones) := by
  obtain ⟨hne, hfree, hdesc, hhandles⟩ := hallowed
  unfold GraphWorld.record
  split
  -- no entry is made: the executable graph is all that is new
  · refine hI.add ?_ fun h hchanged => ?_
    · rw [Function.update_of_ne (Ne.symm hne), hI.null]
    · by_cases hh : h = exec
      · rw [hh, hfree]
      · exact absurd (Function.update_of_ne hh _ _) hchanged
  next =>
    obtain ⟨horiginal, hcases⟩ := newMetadata_cases cfg exec flags api
    dsimp only
    generalize newMetadata cfg exec flags api = metadata at horiginal hcases
    -- the handles of the graphlets are new, and none is that of the graph
    have hnew : (metadata.graphlets.map Graphlet.exec).Nodup ∧
        exec ∉ metadata.graphlets.map Graphlet.exec ∧
        ∀ h ∈ metadata.graphlets.map Graphlet.exec, h ≠ 0 ∧ s.execs h = none := by
      rcases hcases with hnone | ⟨-, hbuild⟩
      · rw [hnone]
        exact ⟨.nil, List.not_mem_nil, fun h hh => absurd hh List.not_mem_nil⟩
      · obtain ⟨hnodup, hunused⟩ := hhandles _ hbuild
        obtain ⟨hnot, hnodup⟩ := List.nodup_cons.mp hnodup
        refine ⟨hnodup, hnot, fun h hh => ?_⟩
        obtain ⟨graphlet, hgraphlet, rfl⟩ := List.mem_map.mp hh
        exact hunused graphlet hgraphlet
    obtain ⟨hnodup, hnot, hunused⟩ := hnew
    have hexec : addGraphlets graph params clones 0 metadata.graphlets
        (Function.update s.execs exec (some (newObject graph params clones))) exec =
        some (newObject graph params clones) := by
      rw [addGraphlets_other hnot, Function.update_self]
    have hadded : RegistryInv cfg
        { s with
          execs := addGraphlets graph params clones 0 metadata.graphlets
            (Function.update s.execs exec (some (newObject graph params clones))) } := by
      refine hI.add ?_ fun h hchanged => ?_
      · have hzero : 0 ∉ metadata.graphlets.map Graphlet.exec := fun hh => (hunused 0 hh).1 rfl
        rw [addGraphlets_other hzero, Function.update_of_ne (Ne.symm hne), hI.null]
      · by_cases hh : h ∈ metadata.graphlets.map Graphlet.exec
        · exact (hunused h hh).2
        · rw [addGraphlets_other hh] at hchanged
          by_cases hh' : h = exec
          · rw [hh', hfree]
          · exact absurd (Function.update_of_ne hh' _ _) hchanged
    have hget : ∀ k graphlet, metadata.graphlets[k]? = some graphlet →
        addGraphlets graph params clones 0 metadata.graphlets
          (Function.update s.execs exec (some (newObject graph params clones))) graphlet.exec =
        some (graphletObject graph params (clones k) graphlet) := by
      intro k graphlet hk
      rw [addGraphlets_get hnodup hk, Nat.zero_add]
    subst horiginal
    refine hadded.insert (fun m hm => (hI.unused hfree m hm).1) (fun hsome => ?_)
      ⟨_, hexec, rfl⟩ (fun h hh => ?_) (fun h hh m hm => (hI.unused (hunused h hh).2 m hm).2)
      fun k graphlet hk => ?_
    · rcases hcases with hnone | ⟨htaken, -⟩
      · exact absurd hnone hsome
      · exact htaken
    · obtain ⟨graphlet, hmem, rfl⟩ := List.mem_map.mp hh
      obtain ⟨k, hk⟩ := List.mem_iff_getElem?.mp hmem
      exact ⟨_, hget k graphlet hk, rfl⟩
    · rcases hcases with hnone | ⟨-, hbuild⟩
      · rw [hnone] at hk
        cases hk
      · exact carries_new hdesc hbuild hexec hk (hget k graphlet hk)

end

/-! ## The calls -/

section

variable {cfg : GraphConfig} {s : GraphWorld ν ρ} {exec : CUgraphExec}

/-- The application's own handle survives when graphlets are destroyed. -/
theorem RegistryInv.owned_bookkeep (hI : RegistryInv cfg s)
    {result : List (GraphMetadata ν) × List CUgraphExec}
    (h : Unsplits s.registry exec result) {e : CUgraphExec} (he : s.Owned e) :
    e ∉ result.2 ∧ (s.bookkeep result).Owned e := by
  have hnot : e ∉ result.2 := by
    intro hmem
    obtain ⟨m, hm, -, hh⟩ := h.destroyed e hmem
    exact hI.not_handle he hm hh
  obtain ⟨x, hx, hinternal⟩ := he
  exact ⟨hnot, x, (if_neg hnot).trans hx, hinternal⟩

/-- An update through a wrapper: the graph changes and is not split any more. -/
theorem RegistryInv.update (hI : RegistryInv cfg s) {x : ExecObject ν ρ}
    (hx : s.execs exec = some x) {x' : ExecObject ν ρ} (hinternal : x.internal = false)
    (hinternal' : x'.internal = false) (reason : Option String) :
    RegistryInv cfg (GraphWorld.bookkeep
      { s with execs := Function.update s.execs exec (some x') }
      (liltGraphInvalidate s.registry exec reason)) := by
  have hunsplits := hI.invalidate exec reason
  generalize liltGraphInvalidate s.registry exec reason = result at hunsplits
  have howned : s.Owned exec := ⟨x, hx, hinternal⟩
  obtain ⟨hnot, howned'⟩ := hI.owned_bookkeep hunsplits howned
  have hI' := hI.unsplit_bookkeep hunsplits
  have hother : ∀ h, h ≠ exec →
      (if h ∈ result.2 then none else Function.update s.execs exec (some x') h) =
        (s.bookkeep result).execs h := by
    intro h hne
    rw [Function.update_of_ne hne]
    rfl
  have hexec : (if exec ∈ result.2 then none else Function.update s.execs exec (some x') exec) =
      some x' := by rw [if_neg hnot, Function.update_self]
  have hhandle : ∀ m ∈ result.1, ∀ h ∈ m.handles, h ≠ exec := by
    rintro m hm h hh rfl
    exact hI'.not_handle howned' hm hh
  refine hI'.frame ?_ (fun m hm => ?_) (fun m hm h hh => hother h (hhandle m hm h hh))
    fun m hm k graphlet hk => ?_
  · exact (hother 0 (Ne.symm (hI.owned_ne_null howned))).trans hI'.null
  · by_cases heq : m.originalExec = exec
    · rw [heq, hexec]
      exact ⟨x', rfl, hinternal'⟩
    · rw [hother _ heq]
      exact hI'.live m hm
  · -- an entry that still has graphlets is one of another graph
    have hne : m.originalExec ≠ exec := by
      rcases hunsplits.entry m hm with ⟨-, hne⟩ | ⟨hnone, -⟩
      · exact hne
      · rw [hnone] at hk
        cases hk
    exact (hI'.carries m hm k graphlet hk).congr (hother _ hne)
      (hother _ (hhandle m hm _ (mem_handles hk)))

/-- A graph without an entry is destroyed. -/
theorem RegistryInv.free (hI : RegistryInv cfg s) (howned : s.Owned exec)
    (hnone : ∀ m ∈ s.registry, m.originalExec ≠ exec) :
    RegistryInv cfg { s with execs := Function.update s.execs exec none } := by
  have hhandles : ∀ m ∈ s.registry, ∀ h ∈ m.handles,
      Function.update s.execs exec none h = s.execs h := by
    intro m hm h hh
    refine Function.update_of_ne ?_ _ _
    rintro rfl
    exact hI.not_handle howned hm hh
  have horiginal : ∀ m ∈ s.registry,
      Function.update s.execs exec none m.originalExec = s.execs m.originalExec :=
    fun m hm => Function.update_of_ne (hnone m hm) _ _
  refine hI.frame ?_ (fun m hm => ?_) hhandles fun m hm k graphlet hk => ?_
  · by_cases hzero : 0 = exec
    · rw [hzero, Function.update_self]
    · rw [Function.update_of_ne hzero, hI.null]
  · rw [horiginal m hm]
    exact hI.live m hm
  · exact (hI.carries m hm k graphlet hk).congr (horiginal m hm)
      (hhandles m hm _ (mem_handles hk))

theorem RegistryInv.destroy (hI : RegistryInv cfg s) (howned : s.Owned exec) :
    RegistryInv cfg
      { s.bookkeep (liltGraphForget s.registry exec) with
        execs := Function.update (s.bookkeep (liltGraphForget s.registry exec)).execs exec
          none } := by
  have hunsplits := hI.forget exec
  refine (hI.unsplit_bookkeep hunsplits).free (hI.owned_bookkeep hunsplits howned).2
    fun m hm => ?_
  have hzero := hI.owned_ne_null howned
  change m ∈ (liltGraphForget s.registry exec).1 at hm
  rw [liltGraphForget, if_neg hzero] at hm
  exact (hI.distinct.mem_erase.mp hm).2

end

/-- No update of a node's parameters that goes to the driver itself gives a node, kept
in a graphlet of a graph that is split, other parameters than it has. -/
def Unbypassed (cfg : GraphConfig) (loader : Loader) (s : GraphWorld ν ρ)
    (a : GraphAction ν ρ) : Prop :=
  ∀ target kind exec node params, resolve loader a.route a.symbol = .real target →
    a.ok = true → a.request = .update exec (.nodeParams kind node params) →
    ∀ metadata, graphFindLocked s.registry exec = some metadata →
      splitTaken cfg (some metadata) = true →
      ∀ x settings, s.execs exec = some x → x.settings node = some settings →
        ∀ k graphlet, metadata.graphlets[k]? = some graphlet →
          x.clones k node ∈ graphlet.graph.nodes → settings.params = params

section

variable [DecidableEq ν] {cfg : GraphConfig} {s : GraphWorld ν ρ} {exec : CUgraphExec}

/-- An update that goes to the driver keeps the invariant where it changes no node that
a graphlet keeps. -/
theorem RegistryInv.bypass (hI : RegistryInv cfg s) {x : ExecObject ν ρ}
    (hx : s.execs exec = some x) (hinternal : x.internal = false) {kind : NodeKind} {node : ν}
    {params : ρ}
    (hsame : ∀ m ∈ s.registry, m.originalExec = exec → ∀ settings, x.settings node = some settings →
      ∀ k graphlet, m.graphlets[k]? = some graphlet → x.clones k node ∈ graphlet.graph.nodes →
        settings.params = params) :
    RegistryInv cfg
      { s with
        execs := Function.update s.execs exec
          (some (ExecChange.apply x (.nodeParams kind node params))) } := by
  have hhandles : ∀ m ∈ s.registry, ∀ h ∈ m.handles, Function.update s.execs exec
      (some (ExecChange.apply x (.nodeParams kind node params))) h = s.execs h := by
    intro m hm h hh
    refine Function.update_of_ne ?_ _ _
    rintro rfl
    exact hI.not_handle ⟨x, hx, hinternal⟩ hm hh
  refine hI.frame ?_ (fun m hm => ?_) hhandles fun m hm k graphlet hk => ?_
  · rw [Function.update_of_ne (Ne.symm (hI.owned_ne_null ⟨x, hx, hinternal⟩)), hI.null]
  · by_cases heq : m.originalExec = exec
    · rw [heq, Function.update_self]
      exact ⟨_, rfl, hinternal⟩
    · rw [Function.update_of_ne heq]
      exact hI.live m hm
  -- the graphlets stay as they are, and the node's parameters come out the same
  · have hgraphlet := hhandles m hm _ (mem_handles hk)
    by_cases heq : m.originalExec = exec
    · subst heq
      obtain ⟨x', y, hx', hy, hcarries⟩ := hI.carries m hm k graphlet hk
      obtain rfl := Option.some.inj (hx.symm.trans hx')
      refine ⟨_, y, Function.update_self .., hgraphlet.trans hy, fun u settings hu hkept => ?_⟩
      rw [ExecChange.apply_clones] at hkept ⊢
      change (if u = node then _ else _) = _ at hu
      split at hu
      next hnode =>
        subst hnode
        obtain ⟨old, hold, rfl⟩ := Option.map_eq_some_iff.mp hu
        have hparams := hsame m hm rfl old hold k graphlet hk hkept
        subst hparams
        exact hcarries u old hold hkept
      next => exact hcarries u settings hu hkept
    · exact (hI.carries m hm k graphlet hk).congr (Function.update_of_ne heq _ _) hgraphlet

omit [DecidableEq ν] in
/-- What `resolve_real` says of a call: only an update of a node's parameters can go to
the driver itself. -/
theorem proxy_or_params {loader : Loader} (hdoc : loader.Documented) {a : GraphAction ν ρ}
    (h : (resolve loader a.route a.symbol).entry = some a.request.entry) :
    (∃ symbol, resolve loader a.route a.symbol = .proxy symbol) ∨
      ∃ target exec kind node params, resolve loader a.route a.symbol = .real target ∧
        a.request = .update exec (.nodeParams kind node params) := by
  cases hpointer : resolve loader a.route a.symbol with
  | null =>
    rw [hpointer] at h
    cases h
  | proxy symbol => exact .inl ⟨symbol, rfl⟩
  | real target =>
    rw [hpointer] at h
    have hparams := resolve_real hdoc hpointer h
    cases hrequest : a.request with
    | update exec change =>
      rw [hrequest] at hparams
      cases change with
      | nodeParams kind node params => exact .inr ⟨target, exec, kind, node, params, rfl, rfl⟩
      | nodeEnabled node enabled => cases hparams
      | execUpdate settings => cases hparams
    | instantiate graph params flags exec allocated api clones =>
      rw [hrequest] at hparams
      cases hparams
    | destroy exec =>
      rw [hrequest] at hparams
      cases hparams
    | launch exec =>
      rw [hrequest] at hparams
      cases hparams

/-- A call to a wrapper keeps the invariant. -/
theorem RegistryInv.perform_proxy (hI : RegistryInv cfg s) {symbol : String} {ok : Bool}
    {request : GraphRequest ν ρ} (hallowed : ok = true → s.Allowed cfg request) :
    RegistryInv cfg (s.perform cfg (.proxy symbol) ok request) := by
  cases request with
  | instantiate graph params flags exec allocated api clones =>
    cases ok with
    | true => exact hI.record (hallowed rfl)
    | false => exact hI
  | update exec change =>
    cases ok with
    | true =>
      obtain ⟨x, hx, hinternal, -⟩ := hallowed rfl
      show RegistryInv cfg (GraphWorld.bookkeep
        { s with execs := Function.update s.execs exec ((s.execs exec).map change.apply) } _)
      rw [hx]
      exact hI.update hx hinternal ((change.apply_internal x).trans hinternal) _
    | false => exact hI
  | destroy exec =>
    cases ok with
    | true => exact hI.destroy (hallowed rfl)
    | false => exact hI.unsplit_bookkeep (hI.forget exec)
  | launch exec => exact hI

/-- A call keeps the invariant unless it bypasses the proxy. -/
theorem RegistryInv.step {loader : Loader} (hdoc : loader.Documented) (hI : RegistryInv cfg s)
    {a : GraphAction ν ρ} {t : GraphWorld ν ρ} (h : GraphStep cfg loader s a t)
    (hunbypassed : Unbypassed cfg loader s a) : RegistryInv cfg t := by
  obtain ⟨hentry, hallowed⟩ := h
  rcases proxy_or_params hdoc hentry with ⟨symbol, hproxy⟩ | ⟨target, exec, kind, node, params,
    hreal, hrequest⟩
  · rw [hproxy]
    exact hI.perform_proxy hallowed
  · rw [hreal, hrequest]
    cases hok : a.ok with
    | false => exact hI
    | true =>
      have hallowed := hallowed hok
      rw [hrequest] at hallowed
      obtain ⟨x, hx, hinternal, -⟩ := hallowed
      show RegistryInv cfg
        { s with
          execs := Function.update s.execs exec
            ((s.execs exec).map fun x => ExecChange.apply x (.nodeParams kind node params)) }
      rw [hx]
      refine hI.bypass hx hinternal fun m hm hexec settings hsettings k graphlet hk => ?_
      have htaken := hI.taken m hm (List.ne_nil_of_mem (List.mem_of_getElem? hk))
      exact hunbypassed target kind exec node params hreal hok hrequest m
        (hI.distinct.find_iff.mpr ⟨hm, hexec⟩) htaken x settings hx hsettings k graphlet hk

/-- After an update that bypasses the proxy a split launch is not fresh. -/
theorem RegistryInv.unbypassed_of_fresh {loader : Loader} (hI : RegistryInv cfg s)
    {a : GraphAction ν ρ} {t : GraphWorld ν ρ} (h : GraphStep cfg loader s a t)
    (hfresh : LaunchesFresh cfg t) : Unbypassed cfg loader s a := by
  intro target kind exec node params hreal hok hrequest m hfind htaken x settings hx hsettings k
    graphlet hk hkept
  obtain ⟨-, hallowed⟩ := h
  have hallowed := hallowed hok
  rw [hrequest] at hallowed
  obtain ⟨x', hx', hinternal, -⟩ := hallowed
  obtain rfl := Option.some.inj (hx.symm.trans hx')
  rw [hreal, hok, hrequest] at hfresh
  change LaunchesFresh cfg
    { s with
      execs := Function.update s.execs exec
        ((s.execs exec).map fun x => ExecChange.apply x (.nodeParams kind node params)) } at hfresh
  rw [hx] at hfresh
  obtain ⟨hm, rfl⟩ := hI.distinct.find_iff.mp hfind
  have hne : graphlet.exec ≠ m.originalExec := by
    intro heq
    exact hI.not_handle ⟨x, hx, hinternal⟩ hm (heq ▸ mem_handles hk)
  -- the graphlet had the old settings of the node, and it still has them
  obtain ⟨xs, y, hxs, hy, hcarries⟩ := hI.carries m hm k graphlet hk
  obtain rfl := Option.some.inj (hx.symm.trans hxs)
  obtain ⟨xt, yt, hxt, hyt, hcarries'⟩ := hfresh _ m hfind htaken k graphlet hk
  change Function.update s.execs _ _ _ = _ at hxt hyt
  rw [Function.update_self] at hxt
  rw [Function.update_of_ne hne, hy] at hyt
  obtain rfl := Option.some.inj hxt
  obtain rfl := Option.some.inj hyt
  have hold := hcarries node settings hsettings hkept
  have hnew := hcarries' node { settings with params := params } (by
    show (if node = node then _ else _) = _
    rw [if_pos rfl, hsettings]
    rfl) hkept
  have heq := Option.some.inj (hold.symm.trans hnew)
  exact congrArg NodeSettings.params heq

end

theorem RegistryInv.none (cfg : GraphConfig) (ν ρ : Type) : RegistryInv cfg (noGraphs ν ρ) where
  null := rfl
  distinct := .nil
  taken := nofun
  live := nofun
  internal := nofun
  owner := nofun
  carries := nofun

/-- The invariant holds after calls none of which bypasses the proxy. -/
theorem registryInv_reachable {ν ρ : Type} [DecidableEq ν] {cfg : GraphConfig} {loader : Loader}
    (hdoc : loader.Documented) {s : GraphWorld ν ρ}
    (h : ((graphSystem cfg loader).restrict (Unbypassed cfg loader)).Reachable s) :
    RegistryInv cfg s := by
  induction h with
  | init hstart =>
    cases hstart
    exact .none cfg ν ρ
  | step _ hstep ih => exact ih.step hdoc hstep.2 hstep.1

/-- In a run, every split launch would launch graphlets with the settings of the graph
just as long as no update of a node's parameters bypasses the proxy. -/
theorem launches_fresh_iff {ν ρ : Type} [DecidableEq ν] {cfg : GraphConfig} {loader : Loader}
    (hdoc : loader.Documented) {tr : List (GraphWorld ν ρ × GraphAction ν ρ)}
    {s : GraphWorld ν ρ} (h : (graphSystem cfg loader).Run tr s) :
    System.Throughout (LaunchesFresh cfg) tr s ↔
      System.Meets (Unbypassed cfg loader) tr := by
  refine h.throughout_iff ?_ fun u a t hu hstep => ⟨fun hfresh => ?_, fun hunbypassed => ?_⟩
  · rintro u rfl
    exact (RegistryInv.none cfg ν ρ).fresh
  · exact (registryInv_reachable hdoc hu).unbypassed_of_fresh hstep hfresh
  · exact ((registryInv_reachable hdoc hu).step hdoc hstep hunbypassed).fresh

/-! ## A graph whose update is not seen -/

/-- Graphs are split into graphlets of two nodes. -/
def graphletConfig : GraphConfig where
  eventPolicy := true
  passthrough := false
  mode := .graphlet
  graphletMaxNodes := 2

/-- The driver has every function that is asked for. -/
def plainLoader : Loader where
  cudaRealSymbol := .real
  systemDlsym := .real
  realGetProc := fun _ symbol _ _ => some (.real symbol)

theorem plainLoader_documented : plainLoader.Documented where
  cudaRealSymbol _ := .inr rfl
  systemDlsym _ := .inr (.inr rfl)
  realGetProc _ symbol _ _ _ h := ⟨symbol, (Option.some.inj h).symm, rfl⟩

/-- The application instantiates a graph, through a pointer from `dlsym`. -/
def instantiateDiamond : GraphAction Nat Nat where
  route := .dlsym
  symbol := "cuGraphInstantiateWithFlags"
  request := .instantiate diamondGraph (fun _ => 0) 0 100 true (succeedingApi diamondGraph)
    clonedHandle
  ok := true

/-- It sets the parameters of the first node. -/
def updateDiamond (route : Route) : GraphAction Nat Nat where
  route := route
  symbol := "cuGraphExecKernelNodeSetParams"
  request := .update 100 (.nodeParams .kernel 0 1)
  ok := true

theorem instantiateDiamond_allowed :
    (noGraphs Nat Nat).Allowed graphletConfig instantiateDiamond.request := by
  refine ⟨nofun, rfl, succeedingApi_describes diamondGraph, fun graphlets hbuild => ?_⟩
  have hhandles : (match graphBuildGraphlets 2 0 (succeedingApi diamondGraph) with
      | .ok graphlets => graphlets.map Graphlet.exec
      | .error _ => []) = [1, 2, 3] := rfl
  have hbuild : graphBuildGraphlets 2 0 (succeedingApi diamondGraph) = .ok graphlets := hbuild
  rw [hbuild] at hhandles
  change graphlets.map Graphlet.exec = [1, 2, 3] at hhandles
  refine ⟨by rw [hhandles]; decide, fun graphlet hgraphlet => ⟨?_, rfl⟩⟩
  have hmem : graphlet.exec ∈ graphlets.map Graphlet.exec := List.mem_map_of_mem hgraphlet
  rw [hhandles] at hmem
  intro hzero
  rw [hzero] at hmem
  exact absurd hmem (by decide)

/-- The graph is instantiated, and was split. -/
def splitDiamond : GraphWorld Nat Nat :=
  (noGraphs Nat Nat).perform graphletConfig (.proxy "cuGraphInstantiateWithFlags") true
    instantiateDiamond.request

theorem splitDiamond_run : (graphSystem graphletConfig plainLoader).Run
    [(noGraphs Nat Nat, instantiateDiamond)] splitDiamond := by
  have hpointer : resolve plainLoader instantiateDiamond.route instantiateDiamond.symbol =
      .proxy "cuGraphInstantiateWithFlags" := by decide
  have hstep := @GraphStep.call Nat Nat _ graphletConfig plainLoader (noGraphs Nat Nat)
    instantiateDiamond (by decide) fun _ => instantiateDiamond_allowed
  rw [hpointer] at hstep
  exact @System.Run.step _ _ _ [] _ _ _ (.init rfl) hstep

theorem splitDiamond_inv : RegistryInv graphletConfig splitDiamond :=
  (RegistryInv.none graphletConfig Nat Nat).perform_proxy fun _ => instantiateDiamond_allowed

/-- The first graphlet keeps the first node. -/
theorem splitDiamond_keeps : ∃ metadata,
    graphFindLocked splitDiamond.registry 100 = some metadata ∧
      splitTaken graphletConfig (some metadata) = true ∧
      ∃ graphlet, metadata.graphlets[0]? = some graphlet ∧
        clonedHandle 0 0 ∈ graphlet.graph.nodes :=
  ⟨_, rfl, rfl, _, rfl, by decide⟩

theorem updateDiamond_step (route : Route)
    (hpointer : resolve plainLoader route "cuGraphExecKernelNodeSetParams" =
      .real "cuGraphExecKernelNodeSetParams") :
    ∃ t, GraphStep graphletConfig plainLoader splitDiamond (updateDiamond route) t ∧
      ¬ LaunchesFresh graphletConfig t := by
  have hentry : (resolve plainLoader route "cuGraphExecKernelNodeSetParams").entry =
      some (updateDiamond route).request.entry := by
    rw [hpointer]
    show (Pointer.real "cuGraphExecKernelNodeSetParams").entry =
      some (GraphEntry.nodeParams .kernel)
    decide
  have hallowed : splitDiamond.Allowed graphletConfig (updateDiamond route).request :=
    ⟨_, rfl, rfl, rfl⟩
  have hstep : GraphStep graphletConfig plainLoader splitDiamond (updateDiamond route) _ :=
    .call hentry fun _ => hallowed
  refine ⟨_, hstep, fun hfresh => ?_⟩
  obtain ⟨metadata, hfind, htaken, graphlet, hk, hkept⟩ := splitDiamond_keeps
  have hsame := splitDiamond_inv.unbypassed_of_fresh hstep hfresh _ .kernel 100 0 1 hpointer rfl
    rfl metadata hfind htaken _ ⟨0, true⟩ rfl rfl 0 graphlet hk hkept
  cases hsame

/-- After an update through a pointer from `dlsym` or `cuGetProcAddress` a launch takes
the split path with the old parameters. -/
theorem launches_stale :
    (∃ tr s, (graphSystem graphletConfig plainLoader).Run tr s ∧
      tr.map Prod.snd = [instantiateDiamond, updateDiamond .dlsym] ∧
      ¬ LaunchesFresh graphletConfig s) ∧
    ∃ tr s, (graphSystem graphletConfig plainLoader).Run tr s ∧
      tr.map Prod.snd = [instantiateDiamond, updateDiamond (.getProcAddress true 12000 0)] ∧
      ¬ LaunchesFresh graphletConfig s := by
  constructor
  · obtain ⟨t, hstep, hstale⟩ := updateDiamond_step .dlsym (by decide)
    exact ⟨_, t, .step splitDiamond_run hstep, rfl, hstale⟩
  · obtain ⟨t, hstep, hstale⟩ := updateDiamond_step (.getProcAddress true 12000 0) (by decide)
    exact ⟨_, t, .step splitDiamond_run hstep, rfl, hstale⟩

/-- Linked to, the wrapper is called. -/
theorem launches_fresh_linked : ∃ tr s, (graphSystem graphletConfig plainLoader).Run tr s ∧
    tr.map Prod.snd = [instantiateDiamond, updateDiamond .linked] ∧
    System.Throughout (LaunchesFresh graphletConfig) tr s := by
  have hallowed : splitDiamond.Allowed graphletConfig (updateDiamond .linked).request :=
    ⟨_, rfl, rfl, rfl⟩
  have hstep : GraphStep graphletConfig plainLoader splitDiamond (updateDiamond .linked) _ :=
    .call (by decide) fun _ => hallowed
  have hrun := System.Run.step splitDiamond_run hstep
  refine ⟨_, _, hrun, rfl, (launches_fresh_iff plainLoader_documented hrun).mpr ?_⟩
  intro x hx
  have hdlsym : resolve plainLoader .dlsym "cuGraphInstantiateWithFlags" =
      .proxy "cuGraphInstantiateWithFlags" := by decide
  have hlinked : resolve plainLoader .linked "cuGraphExecKernelNodeSetParams" =
      .proxy "cuGraphExecKernelNodeSetParams" := by decide
  rcases List.mem_cons.mp hx with rfl | hx
  · intro target kind exec node params hreal
    cases hdlsym.symm.trans hreal
  · obtain rfl := List.mem_singleton.mp hx
    intro target kind exec node params hreal
    cases hlinked.symm.trans hreal

end Lilt.Graph
