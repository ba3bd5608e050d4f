import Lilt.Be.Threads

/-!
# Is a graph that is not split alone in the window?

A graph that is opaque to the scheduler should share the device with no other launch of its
process. `lilt_graph_launch` drains the window behind it, but admits it like a kernel, and
lets go of the lock before it drains. So it is alone if the window was empty when it was
submitted, and if no other launch takes a slot before the boundary.

- `WholeAlone`: the property, over the active slots; `wholeAlone_iff` puts it into terms of
  the launches in flight.
- `LeavesWholeAlone`: what a step needs for it.
- `wholeAlone_step_iff`, `whole_alone_iff`: that is exactly what is needed, in one step and
  over a run.
- `whole_alone_window_one`: with a window of one it always is.
- `whole_shares_window`: a graph that is admitted behind a kernel.
-/

namespace Lilt.Be

open Lilt.Activity Lilt.Driver Lilt.Graph Gpu Transition

/-- A graph that is not split occupies the only active slot, and while it is submitted and
has no slot yet, none is active. -/
structure WholeAlone (s : BeThreads) : Prop where
  in_window : ∀ e ∈ s.process.inFlight, e.work ∈ s.wholes →
    ∀ i, (s.process.window.slots i).active = true ↔ i = e.slot
  submitted : ∀ c k, s.process.pc = .launched c (some k) → k ∈ s.wholes →
    ∀ i, (s.process.window.slots i).active = false

/-- Such a graph is submitted to an empty window, and no other launch takes a slot beside
it. -/
structure LeavesWholeAlone (s : BeThreads) (x : ThreadAction) : Prop where
  submits : x = .be (.launch true) → ∀ c rest, s.process.pc = .launching c →
    s.todo c.thread = .launch .whole c.args :: rest → s.process.window.outstandingLaunches = 0
  enters : ∀ o, x = .be (.after o) → ∀ c k, s.process.pc = .launched c (some k) →
    s.process.window.records o = true → k ∉ s.wholes →
      ∀ e ∈ s.process.inFlight, e.work ∉ s.wholes

/-! ## The slots and the launches in flight -/

section window

variable {cfg : BeConfig} {p : BeProcess}

/-- No slot is active exactly if nothing is in flight. -/
theorem inactive_iff (hI : WindowInv cfg p) :
    (∀ i, (p.window.slots i).active = false) ↔ p.inFlight = [] := by
  constructor
  · intro h
    by_contra hne
    have hpos := List.length_pos_iff.mpr hne
    have hactive := (hI.ring.used_iff _).mpr ⟨0, hpos, rfl⟩
    rw [h] at hactive
    cases hactive
  · intro hempty i
    refine Bool.eq_false_iff.mpr fun hactive => ?_
    obtain ⟨j, hj, -⟩ := (hI.ring.used_iff i).mp hactive
    rw [hempty] at hj
    exact absurd hj (Nat.not_lt_zero j)

/-- One slot is active exactly if its launch is in flight alone. -/
theorem only_active_iff (hI : WindowInv cfg p) {e : BeEntry} (he : e ∈ p.inFlight) :
    (∀ i, (p.window.slots i).active = true ↔ i = e.slot) ↔ p.inFlight = [e] := by
  have hwindow := cfg.window_pos
  constructor
  · intro h
    have hone : p.inFlight.length = 1 := by
      by_contra hne
      have htwo : 1 < p.inFlight.length := by
        have := List.length_pos_of_mem he
        omega
      -- the first two cells would be the same
      have hfirst := (h _).mp ((hI.ring.used_iff _).mpr ⟨0, by omega, rfl⟩)
      have hsecond := (h _).mp ((hI.ring.used_iff _).mpr ⟨1, htwo, rfl⟩)
      have hsame := Ring.cell_inj hwindow (Nat.lt_of_lt_of_le htwo hI.length_le)
        (hfirst.trans hsecond.symm)
      cases hsame
    obtain ⟨a, ha⟩ := List.length_eq_one_iff.mp hone
    rw [ha] at he ⊢
    rw [List.mem_singleton.mp he]
  · intro hflight i
    have hslot := (hI.ring.holds 0 e (by rw [hflight]; rfl)).slot_eq
    rw [hI.ring.used_iff i, hflight, hslot]
    constructor
    · rintro ⟨j, hj, rfl⟩
      rw [Nat.lt_one_iff.mp hj]
    · exact fun hi => ⟨0, Nat.one_pos, hi⟩

end window

/-! ## The work that was queued -/

section

variable {ν : Type} {cfg : BeConfig} {fp : BeFloat} {gcfg : GraphConfig} {alive : Pid → Bool}
  {s t : BeThreads}

/-- In terms of the launches in flight. -/
theorem wholeAlone_iff (hI : WindowInv cfg s.process) :
    WholeAlone s ↔
      (∀ e ∈ s.process.inFlight, e.work ∈ s.wholes → s.process.inFlight = [e]) ∧
      ∀ c k, s.process.pc = .launched c (some k) → k ∈ s.wholes → s.process.inFlight = [] := by
  constructor
  · intro h
    exact ⟨fun e he hwhole => (only_active_iff hI he).mp (h.in_window e he hwhole),
      fun c k hpc hwhole => (inactive_iff hI).mp (h.submitted c k hpc hwhole)⟩
  · rintro ⟨hwindow, hsubmitted⟩
    exact
      { in_window := fun e he hwhole => (only_active_iff hI he).mpr (hwindow e he hwhole)
        submitted := fun c k hpc hwhole => (inactive_iff hI).mpr (hsubmitted c k hpc hwhole) }

/-- A launch in flight has work on the device. -/
theorem inFlight_issued {p : BeProcess} (h : (beSystem cfg fp).Reachable p) :
    ∀ e ∈ p.inFlight, p.device.Issued e.work := by
  have hind : (beSystem cfg fp).Inductive fun p => ∀ e ∈ p.inFlight, p.device.Issued e.work := by
    refine { init := fun p hp => ?_, step := fun p a q hp hissued hstep e he => ?_ }
    · rw [hp.inFlight_nil]
      exact fun e he => absurd he List.not_mem_nil
    · obtain ⟨hI, hpc⟩ := windowInv_reachable hp
      have hle := step_device_le hI hpc hstep
      rcases inFlight_cases hI hpc hstep he with he | ⟨c, k, o, hlaunched, -, rfl, rfl⟩
      · exact (hissued e he).mono hle
      · rw [PcFacts, hlaunched] at hpc
        exact (hpc.2 k rfl).2.mono hle
  exact hind.reachable h

/-- Work that was queued for a graph was queued. -/
theorem wholes_issued (h : (threadSystem ν cfg fp gcfg alive).Reachable s) :
    ∀ k ∈ s.wholes, s.process.device.Issued k := by
  have hind : (threadSystem ν cfg fp gcfg alive).Inductive fun s =>
      ∀ k ∈ s.wholes, s.process.device.Issued k := by
    refine { init := fun s hs => ?_, step := fun s x t hs hissued hstep => ?_ }
    · rw [hs.wholes]
      exact fun k hk => absurd hk List.not_mem_nil
    · obtain ⟨hregistered, hprocess⟩ := registered_process_reachable hs
      obtain ⟨hI, hpc⟩ := windowInv_reachable hprocess
      have hold : ∀ k ∈ s.wholes, t.process.device.Issued k := by
        intro k hk
        exact thread_step_keeps (P := fun p => p.device.Issued k) hregistered hstep
          (hissued k hk) fun a hbe => (hissued k hk).mono (step_device_le hI hpc hbe)
      cases hstep with
      | launch c role rest ok p hlaunching htodo hstep =>
        intro k hk
        unfold BeThreads.launched at hk
        dsimp only at hk
        split at hk
        next hwhole =>
          rcases List.mem_cons.mp hk with rfl | hk
          · cases hstep with
            | launchFails c' h => cases hwhole
            | launch c' h =>
              obtain rfl := BePc.launching.inj (h.symm.trans hlaunching)
              exact Device.issued_submit ..
          · exact hold k hk
        next => exact hold k hk
      | _ => exact hold
  exact hind.reachable h

/-! ## One step -/

/-- A launch gets to the driver's answer by the driver's answer. -/
theorem launched_step {p p' : BeProcess} {a : BeAction} (h : BeStep cfg fp p a p')
    (ha : a ≠ .launch true) {c : BeCall} {k : Ticket GpuStream}
    (hpc : p'.pc = .launched c (some k)) : p.pc = .launched c (some k) := by
  cases h with
  | before c' h => cases hdone : p.window.startupWaitDone <;> simp [hdone] at hpc
  | ownerCheck c' registered h => cases registered <;> cases hpc
  | startupAgain c' h => exact hpc
  | retire thread o h ho => exact hpc
  | idle c' timing now h =>
    obtain ⟨w, pc, hchosen, rfl | ⟨budget, rfl⟩ | ⟨budget, rfl⟩⟩ :=
      choosePolicy_spec cfg fp p c' timing now <;> rw [hchosen] at hpc <;> cases hpc
  | complete stream => exact hpc
  | launch c' h => exact absurd rfl ha
  | _ => cases hpc

/-- A step that neither submits nor lets a launch take a slot leaves the graph alone. -/
theorem wholeAlone_quiet (hI : WindowInv cfg s.process) (hI' : WindowInv cfg t.process)
    (hP : WholeAlone s) (hwholes : t.wholes = s.wholes)
    (hflight : t.process.inFlight = s.process.inFlight ∨
      ∃ e, s.process.inFlight = e :: t.process.inFlight)
    (hpc : ∀ c k, t.process.pc = .launched c (some k) → s.process.pc = .launched c (some k)) :
    WholeAlone t := by
  obtain ⟨hwindow, hsubmitted⟩ := (wholeAlone_iff hI).mp hP
  refine (wholeAlone_iff hI').mpr ⟨fun e he hwhole => ?_, fun c k hlaunched hwhole => ?_⟩
  · rw [hwholes] at hwhole
    rcases hflight with hsame | ⟨oldest, hleft⟩
    · rw [hsame] at he ⊢
      exact hwindow e he hwhole
    · -- it was alone, so it cannot be behind the oldest
      have halone := hwindow e (hleft ▸ List.mem_cons_of_mem _ he) hwhole
      rw [hleft] at halone
      rw [(List.cons.inj halone).2] at he
      exact absurd he List.not_mem_nil
  · rw [hwholes] at hwhole
    have hempty := hsubmitted c k (hpc c k hlaunched) hwhole
    rcases hflight with hsame | ⟨oldest, hleft⟩
    · rw [hsame]
      exact hempty
    · rw [hempty] at hleft
      cases hleft

/-- The condition is on the driver's call and on the hook behind it. -/
theorem leavesWholeAlone_of_ne {x : ThreadAction} (hlaunch : x ≠ .be (.launch true))
    (hafter : ∀ o, x ≠ .be (.after o)) : LeavesWholeAlone s x :=
  { submits := fun hx => absurd hx hlaunch
    enters := fun o hx => absurd hx (hafter o) }

/-- The submission of a launch. -/
theorem wholeAlone_launch_iff (hs : (threadSystem ν cfg fp gcfg alive).Reachable s)
    (hP : WholeAlone s) {c : BeCall} {role : LaunchRole} {rest : List LaunchOp} {p : BeProcess}
    (hpc : s.process.pc = .launching c)
    (htodo : s.todo c.thread = .launch role c.args :: rest)
    (hstep : BeStep cfg fp s.process (.launch true) p)
    (hI' : WindowInv cfg p) :
    WholeAlone { s.launched role c.thread (s.process.device.frontier c.gpuStream) true with
        process := p } ↔ LeavesWholeAlone s (.be (.launch true)) := by
  obtain ⟨hI, -⟩ := windowInv_reachable (process_reachable hs)
  have hP := (wholeAlone_iff hI).mp hP
  cases hstep with
  | launch c' h =>
    obtain rfl := BePc.launching.inj (h.symm.trans hpc)
    let k := s.process.device.frontier c'.gpuStream
    -- the work is new
    have hfresh : ¬ s.process.device.Issued k := Nat.lt_irrefl _
    have hnew : k ∉ s.wholes := fun hk => hfresh (wholes_issued hs k hk)
    have hother : ∀ e ∈ s.process.inFlight, e.work ≠ k := by
      rintro e he heq
      have hissued := inFlight_issued (process_reachable hs) e he
      rw [heq] at hissued
      exact hfresh hissued
    rw [wholeAlone_iff hI']
    by_cases hrole : role = .whole
    · subst hrole
      have hwholes : (s.launched .whole c'.thread k true).wholes = k :: s.wholes := rfl
      constructor
      · rintro ⟨-, hsubmitted⟩
        refine { submits := fun _ c rest _ _ => ?_, enters := by rintro _ ⟨⟩ }
        have hempty := hsubmitted c' k rfl (by rw [hwholes]; exact List.mem_cons_self)
        rw [hI.outstanding]
        exact List.length_eq_zero_iff.mpr hempty
      · intro hC
        have hempty := hI.inFlight_nil (hC.submits rfl c' rest hpc htodo)
        refine ⟨fun e he => ?_, fun _ _ _ _ => hempty⟩
        have he' : e ∈ s.process.inFlight := he
        rw [hempty] at he'
        exact absurd he' List.not_mem_nil
    · have hwholes : (s.launched role c'.thread k true).wholes = s.wholes := by
        simp [BeThreads.launched, hrole]
      refine iff_of_true ⟨fun e he hwhole => ?_, fun c'' k' hlaunched hwhole => ?_⟩
        { submits := fun _ c'' rest' hpc' htodo' => ?_, enters := by rintro _ ⟨⟩ }
      · rw [hwholes] at hwhole
        exact hP.1 e he hwhole
      · obtain ⟨rfl, hk⟩ := BePc.launched.inj hlaunched
        obtain rfl := Option.some.inj hk
        rw [hwholes] at hwhole
        exact absurd hwhole hnew
      · obtain rfl := BePc.launching.inj (hpc.symm.trans hpc')
        rw [htodo] at htodo'
        exact absurd (LaunchOp.launch.inj (List.cons.inj htodo').1).1 hrole

/-- The return of a launch. -/
theorem wholeAlone_after_iff (hs : (threadSystem ν cfg fp gcfg alive).Reachable s)
    (hP : WholeAlone s) {c : BeCall} {work : Option (Ticket GpuStream)} {o : AfterAnswers}
    {p : BeProcess} (hpc : s.process.pc = .launched c work)
    (hstep : BeStep cfg fp s.process (.after o) p) (hI' : WindowInv cfg p) (thread : Thread)
    (ops : List LaunchOp) :
    WholeAlone { s.goesOn thread ops with process := p } ↔
      LeavesWholeAlone s (.be (.after o)) := by
  obtain ⟨hI, hfacts⟩ := windowInv_reachable (process_reachable hs)
  rw [PcFacts, hpc] at hfacts
  have howner := owner_of_launched hs hpc
  have henters := afterResult_enters_iff hfacts.1 c work o
  cases hstep with
  | after c' work' o h hsync =>
    obtain ⟨rfl, rfl⟩ := BePc.launched.inj (h.symm.trans hpc)
    have hflight := afterLaunch_inFlight hI work' (s.process.afterResult cfg c' work' o)
    by_cases htakes : ∃ k, work' = some k ∧ s.process.window.records o = true
    · obtain ⟨k, rfl, hrecords⟩ := htakes
      dsimp only at hflight
      rw [if_pos (henters.mpr ⟨⟨k, rfl⟩, howner, hrecords⟩)] at hflight
      have hP := (wholeAlone_iff hI).mp hP
      rw [wholeAlone_iff hI']
      show (∀ e ∈ BeProcess.inFlight _, e.work ∈ s.wholes → BeProcess.inFlight _ = [e]) ∧ _ ↔ _
      rw [hflight]
      constructor
      · rintro ⟨hwindow, -⟩
        refine { submits := by rintro ⟨⟩, enters := fun _ _ _ _ _ _ _ e he hwhole => ?_ }
        -- it would have to be the launch that enters
        have hlen := congrArg List.length (hwindow e (List.mem_append_left _ he) hwhole)
        rw [List.length_append] at hlen
        have := List.length_pos_of_mem he
        simp only [List.length_singleton] at hlen
        omega
      · intro hC
        refine ⟨fun e he hwhole => ?_, by rintro _ _ ⟨⟩⟩
        by_cases hk : k ∈ s.wholes
        · rw [hP.2 c' k hpc hk] at he ⊢
          rw [List.mem_singleton.mp he]
          rfl
        · rcases List.mem_append.mp he with he | he
          · exact absurd hwhole (hC.enters o rfl c' k hpc hrecords hk e he)
          · rw [List.mem_singleton.mp he] at hwhole
            exact absurd hwhole hk
    · -- no slot is taken
      have hstays : (s.process.afterLaunch work' (s.process.afterResult cfg c' work' o)).inFlight =
          s.process.inFlight := by
        rw [hflight]
        cases work' with
        | none => exact List.append_nil _
        | some k =>
          dsimp only
          rw [if_neg fun h => htakes ⟨k, rfl, (henters.mp h).2.2⟩, List.append_nil]
      refine iff_of_true (wholeAlone_quiet hI hI' hP rfl (.inl hstays) (by rintro _ _ ⟨⟩))
        { submits := by rintro ⟨⟩, enters := fun o' ho' c k hlaunched hrecords => ?_ }
      obtain ⟨rfl, rfl⟩ := BePc.launched.inj (hpc.symm.trans hlaunched)
      obtain rfl := BeAction.after.inj (ThreadAction.be.inj ho')
      exact absurd ⟨k, rfl, hrecords⟩ htakes

/-- Nothing is in flight before the first launch. -/
theorem wholeAlone_starts (h : s.Starts alive) : WholeAlone s := by
  have hflight := h.process.inFlight_nil
  refine { in_window := fun e he => ?_, submitted := fun c k hpc => ?_ }
  · rw [hflight] at he
    exact absurd he List.not_mem_nil
  · rw [h.process.pc] at hpc
    cases hpc

/-- After a step the graphs that are not split are alone exactly if the step leaves them
so. -/
theorem wholeAlone_step_iff (hs : (threadSystem ν cfg fp gcfg alive).Reachable s)
    (hP : WholeAlone s) {x : ThreadAction} (h : ThreadStep ν cfg fp gcfg alive s x t) :
    WholeAlone t ↔ LeavesWholeAlone s x := by
  obtain ⟨hregistered, hprocess⟩ := registered_process_reachable hs
  obtain ⟨hI, hpc⟩ := windowInv_reachable hprocess
  obtain ⟨hI', -⟩ := windowInv_reachable (process_reachable (hs.step h))
  -- most steps neither submit nor let a launch take a slot
  have hquiet : ∀ {a p}, BeStep cfg fp s.process a p → a ≠ .launch true →
      (∀ o, a ≠ .after o) → t.process = p → t.wholes = s.wholes →
      (WholeAlone t ↔ LeavesWholeAlone s (.be a)) := by
    rintro a p hstep hlaunch hafter rfl hwholes
    refine iff_of_true (wholeAlone_quiet hI hI' hP hwholes (inFlight_step hI hpc hstep hafter)
      fun c k => launched_step hstep hlaunch) (leavesWholeAlone_of_ne ?_ ?_)
    · exact fun hx => hlaunch (ThreadAction.be.inj hx)
    · exact fun o hx => hafter o (ThreadAction.be.inj hx)
  cases h with
  | markActive now | markIdle now =>
    exact iff_of_true ⟨hP.in_window, hP.submitted⟩
      (leavesWholeAlone_of_ne (by rintro ⟨⟩) (by rintro _ ⟨⟩))
  | begins thread call metadata ops hidle hmode hlock hops =>
    exact iff_of_true ⟨hP.in_window, hP.submitted⟩
      (leavesWholeAlone_of_ne (by rintro ⟨⟩) (by rintro _ ⟨⟩))
  | before c role rest p htodo hstep =>
    exact hquiet hstep (by rintro ⟨⟩) (by rintro _ ⟨⟩) rfl rfl
  | within a p m ha hstep hsees =>
    refine hquiet hstep ?_ ?_ rfl rfl
    · rintro rfl
      exact ha
    · rintro o rfl
      exact ha
  | launch c role rest ok p hlaunching htodo hstep =>
    cases ok with
    | true => exact wholeAlone_launch_iff hs hP hlaunching htodo hstep hI'
    | false => exact hquiet hstep (by rintro ⟨⟩) (by rintro _ ⟨⟩) rfl rfl
  | after c work role rest o p hlaunched htodo hstep =>
    exact wholeAlone_after_iff hs hP hlaunched hstep hI' c.thread (opsAfter role work rest)
  | boundary thread rest p htodo hstep =>
    exact hquiet hstep (by rintro ⟨⟩) (by rintro _ ⟨⟩) rfl rfl
  | drained thread rest p hdraining htodo hstep =>
    exact hquiet hstep (by rintro ⟨⟩) (by rintro _ ⟨⟩) rfl rfl

end

/-! ## Over a run -/

/-- For every policy and window, and any number of threads that launch kernels and graphs:
in all states of a run a graph that is not split is alone in the window, exactly if every
step of the run submits such a graph to an empty window only and lets no other launch take a
slot beside one. -/
theorem whole_alone_iff (ν : Type) (cfg : BeConfig) (fp : BeFloat) (gcfg : GraphConfig)
    (alive : Pid → Bool) {tr : List (BeThreads × ThreadAction)} {s : BeThreads}
    (h : (threadSystem ν cfg fp gcfg alive).Run tr s) :
    System.Throughout WholeAlone tr s ↔ System.Meets LeavesWholeAlone tr := by
  have halone : ∀ s, ((threadSystem ν cfg fp gcfg alive).restrict LeavesWholeAlone).Reachable s →
      WholeAlone s := by
    intro s hs
    have hind : ((threadSystem ν cfg fp gcfg alive).restrict LeavesWholeAlone).Inductive
        WholeAlone :=
      { init := fun s hs => wholeAlone_starts hs
        step := fun s x t hs hP hstep =>
          (wholeAlone_step_iff hs.of_restrict hP hstep.2).mpr hstep.1 }
    exact hind.reachable hs
  exact h.throughout_iff (fun s hs => wholeAlone_starts hs) fun s x t hs hstep =>
    wholeAlone_step_iff hs.of_restrict (halone s hs) hstep

/-! ## A window of one -/

section

variable {ν : Type} {cfg : BeConfig} {fp : BeFloat} {gcfg : GraphConfig} {alive : Pid → Bool}
  {s : BeThreads}

/-- A launch that passed admission finds room in the window. -/
theorem inFlight_nil_of_room (hone : cfg.window = 1) {p : BeProcess} (hI : WindowInv cfg p)
    (hadmitted : Admitted cfg p) (howner : p.owner = true) : p.inFlight = [] := by
  have hroom := hadmitted.room howner
  rw [hone] at hroom
  exact hI.inFlight_nil (Nat.lt_one_iff.mp hroom)

/-- With a window of one every step meets the condition. -/
theorem leavesWholeAlone_window_one (hone : cfg.window = 1)
    (hs : (threadSystem ν cfg fp gcfg alive).Reachable s) (x : ThreadAction) :
    LeavesWholeAlone s x := by
  obtain ⟨hI, hfacts⟩ := windowInv_reachable (process_reachable hs)
  refine { submits := fun _ c rest hpc _ => ?_, enters := fun o _ c k hpc _ _ e he => ?_ }
  · rw [PcFacts, hpc] at hfacts
    rw [hI.outstanding, inFlight_nil_of_room hone hI hfacts (owner_of_launching hs hpc)]
    rfl
  · rw [PcFacts, hpc] at hfacts
    rw [inFlight_nil_of_room hone hI hfacts.1 (owner_of_launched hs hpc)] at he
    exact absurd he List.not_mem_nil

/-- With a window of one every graph that is not split is alone. -/
theorem whole_alone_window_one (hone : cfg.window = 1)
    (hs : (threadSystem ν cfg fp gcfg alive).Reachable s) : WholeAlone s := by
  have hind : (threadSystem ν cfg fp gcfg alive).Inductive WholeAlone :=
    { init := fun s hs => wholeAlone_starts hs
      step := fun s x t hs hP hstep =>
        (wholeAlone_step_iff hs hP hstep).mpr (leavesWholeAlone_window_one hone hs x) }
  exact hind.reachable hs

end

/-! ## A graph behind a kernel -/

/-- Graphs are not split. -/
def wholeConfig : GraphConfig := ⟨true, false, .whole, 8⟩

/-- The only thread of these runs launches a kernel of eight blocks. -/
def kernelCall : BeCall := ⟨1, 4096, 8, 0, false⟩

/-- It launches a graph that is not registered. -/
def graphCall : BeCall := ⟨1, 5, 1, 0, false⟩

/-- A graph is launched with the default window of one. -/
theorem whole_alone_iff_one : ∃ tr s,
    (threadSystem Unit defaultConfig plainFloat wholeConfig onlyTen).Run tr s ∧
      s.process.inFlight.length = 1 ∧ System.Meets LeavesWholeAlone tr := by
  have h₀ : (threadSystem Unit defaultConfig plainFloat wholeConfig onlyTen).Run [] startThreads :=
    .init startThreads_starts
  have h₁ := h₀.step (ThreadStep.begins _ 1 ⟨.cuGraphLaunch 5, 0, false⟩ none _ rfl
    (by rintro _ ⟨⟩) (fun _ => rfl) (.all _))
  obtain ⟨tr, h₂⟩ := h₁.leadsTo (leadsTo_threads_pass (C := fun _ _ => True) (c := graphCall)
    (fun _ _ _ => trivial) rfl (by rintro ⟨⟩) rfl rfl (.inr ⟨_, rfl, rfl⟩)).of_restrict
  have halone := h₂.throughout_of_reachable fun s hs => whole_alone_window_one (by decide) hs
  exact ⟨_, _, h₂, rfl,
    (whole_alone_iff Unit defaultConfig plainFloat wholeConfig onlyTen h₂).mp halone⟩

/-- With a window of two, a thread launches a kernel and then a graph, and the HP process is
idle all along: both are in flight. -/
theorem graph_behind_kernel : ∃ s e,
    (threadSystem Unit twoConfig plainFloat wholeConfig onlyTen).Reachable s ∧
      e ∈ s.process.inFlight ∧ e.work ∈ s.wholes ∧ s.process.inFlight.length = 2 := by
  have h₀ : (threadSystem Unit twoConfig plainFloat wholeConfig onlyTen).Reachable startThreads :=
    .init startThreads_starts
  have h₁ := h₀.step (ThreadStep.begins _ 1 ⟨.cuLaunchKernel 4096 ⟨8, 1, 1⟩, 0, false⟩ none _ rfl
    (by rintro ⟨⟩) (by rintro ⟨⟩) (.all _))
  have h₂ := h₁.leadsTo (leadsTo_threads_pass (C := fun _ _ => True) (c := kernelCall)
    (fun _ _ _ => trivial) rfl (by rintro ⟨⟩) rfl rfl (.inr ⟨_, rfl, rfl⟩)).of_restrict
  -- the same for the graph
  have h₃ := h₂.step (ThreadStep.begins _ 1 ⟨.cuGraphLaunch 5, 0, false⟩ none _ rfl
    (by rintro _ ⟨⟩) (fun _ => rfl) (.all _))
  have h₄ := h₃.leadsTo (leadsTo_threads_pass (C := fun _ _ => True) (c := graphCall)
    (fun _ _ _ => trivial) rfl (by rintro ⟨⟩) rfl rfl (.inr ⟨_, rfl, rfl⟩)).of_restrict
  exact ⟨_, _, h₄, List.mem_cons_of_mem _ List.mem_cons_self, List.mem_cons_self, rfl⟩

/-- A graph that is not split may share the window with a kernel. -/
theorem whole_shares_window : ¬ ∀ (cfg : BeConfig) (fp : BeFloat) (gcfg : GraphConfig)
    (alive : Pid → Bool) (s : BeThreads),
    (threadSystem Unit cfg fp gcfg alive).Reachable s → WholeAlone s := by
  intro hall
  obtain ⟨s, e, hs, he, hwhole, htwo⟩ := graph_behind_kernel
  obtain ⟨hI, -⟩ := windowInv_reachable (process_reachable hs)
  have halone := ((wholeAlone_iff hI).mp (hall _ _ _ _ s hs)).1 e he hwhole
  rw [halone] at htwo
  cases htwo

end Lilt.Be
