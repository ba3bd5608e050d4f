import Lilt.Colocation.Launches
import Lilt.Hp.WindDown

/-!
# BE processes that wait are let through

Whatever the HP process is in the middle of, there is a way on, of its own steps, after which the
segment shows IDLE; and a BE process that waits then passes its check by its own accesses,
wherever in the check it is.

- `WindsDown`: the HP process alone takes steps, begins no launch, and the driver does what it is
  asked to.
- `Followed`: the segment shows IDLE, or is about to, unless `g_hp_state_active` is set.
- `leadsTo_of_winding`: what the HP process does by itself it does among the others, access by
  access.
- `inCheck_reachable`, `passes_of_idle`: a BE process in a check, and its way out of it.
- `waiting_let_through`: no BE process is locked out for good.
-/

namespace Lilt.Colocation

open Lilt.Activity Lilt.Hp Lilt.Be Transition

/-! ## The way to IDLE -/

/-- No HP process left a registration under the process id of a later one. -/
def FreshPids {ι : Type} (s : Colocated ι) : ColocatedAction ι → Prop
  | .register pid _ => s.view.shared.hpOwnerPid ≠ pid
  | _ => True

/-- Only the HP process takes steps, and winds down. -/
def WindsDown {ι : Type} (s : Colocated ι) : ColocatedAction ι → Prop
  | .hp a _ => ∀ x ∈ s.session, Winds x.process a
  | .hpAccess => True
  | _ => False

/-- In `lilt_event_be_wait_until_idle`. -/
def Waiting : BePc → Prop
  | .idleCheck _ | .survivalIdle _ => True
  | _ => False

/-- Before its destructor the HP process is lively, and the segment shows IDLE, or is about to,
unless it has `g_hp_state_active` set. -/
structure Followed (v : HpView) (x : HpSession) : Prop where
  lively : x.process.tracker.stop = false → Lively x.cfg x.process
  continues : ∀ o ∈ x.todo, Continues o
  showsIdle : ShowsIdle v
  idle : x.process.tracker.stateActive = false → announced x.todo v.latest = some .idle

section

variable {ι : Type} [DecidableEq ι] {cfg : ι → BeConfig} {fp : BeFloat}

theorem followed_reachable {s : Colocated ι}
    (h : ((colocatedSystem cfg fp).restrict FreshPids).Reachable s) :
    ∀ x ∈ s.session, x.leaving = none → Followed s.view x := by
  refine running_reachable (C := FreshPids) ?_ ?_ ?_ ?_ h
  · intro s pid hpCfg p now hfresh _ hstart hdevice
    have hother : (unwritten s.view.shared).shared.hpOwnerPid ≠ pid := hfresh
    refine { lively := fun _ => lively_starts hstart hdevice
             continues := hpExec_continues pid _ _
             showsIdle := showsIdle_hpExec (v := unwritten s.view.shared) nofun _ _
             idle := fun _ => ?_ }
    simp only [hpExec, if_neg hother]
    exact announced_registerStores now _
  · intro s x a p now _ _ hfollowed hstep
    refine { lively := fun hstop => ?_, continues := fun o ho => ?_
             showsIdle := hfollowed.showsIdle, idle := fun hidle => ?_ }
    · obtain ⟨hstop', ha⟩ := stop_step hstep hstop
      exact lively_step (hfollowed.lively hstop') ha hstep
    · rcases List.mem_append.mp ho with ho | ho
      · exact hfollowed.continues o ho
      · exact (marking_spec o ho).1
    · rw [announced_append]
      exact announced_marking (b := false) hfollowed.idle hidle
  · intro v x o rest htodo hfollowed
    have hidle := hfollowed.idle
    rw [htodo] at hidle
    have hcontinues : ∀ o' ∈ o :: rest, Continues o' := htodo ▸ hfollowed.continues
    refine { lively := hfollowed.lively, continues := fun o' ho' => ?_
             showsIdle := showsIdle_hpExec hfollowed.showsIdle x.pid o, idle := fun hset => ?_ }
    · rcases List.mem_append.mp ho' with ho' | ho'
      · exact hpExec_continues x.pid o v o' ho'
      · exact hcontinues o' (List.mem_cons_of_mem _ ho')
    · rw [announced_hpExec x.pid (hcontinues o List.mem_cons_self)]
      exact hidle hset
  · intro s x i o rest alive _ _ _ _ hfollowed
    exact { hfollowed with showsIdle := showsIdle_beExec hfollowed.showsIdle alive o }

/-- Whoever unregisters has set the stop flag. -/
theorem stop_of_leaving {s : Colocated ι} (h : (colocatedSystem cfg fp).Reachable s) :
    ∀ x ∈ s.session, x.process.tracker.stop = false → x.leaving = none := by
  have hind : (colocatedSystem cfg fp).Inductive fun s =>
      ∀ x ∈ s.session, x.process.tracker.stop = false → x.leaving = none := by
    constructor
    · intro s hs x hx
      rw [hs.session] at hx
      cases hx
    · rintro s a t - hI hst
      cases hst with
      | register pid hpCfg p now hnone hlinked hpid hstart hdevice =>
        rintro x ⟨⟩ -
        rfl
      | hp y a p now hy hfree hst =>
        rintro x ⟨⟩ hstop
        exact hI y hy (stop_step hst hstop).1
      | hpAccess y o rest hy htodo =>
        rintro x ⟨⟩ hstop
        exact hI y hy hstop
      | unregister y hy hleaving hstop hjoin =>
        rintro x ⟨⟩ hrunning
        exact absurd (hrunning.symm.trans hstop) (by decide)
      | unregisterAccess y o rest m next hy hleaving hexec =>
        rintro x ⟨⟩ hrunning
        exact absurd ((hI y hy hrunning).symm.trans hleaving) (by rintro ⟨⟩)
      | ended y hy =>
        rintro x ⟨⟩
      | check i hnone hcheck => exact hI
      | access i o rest alive halive ho hmore => exact hI
      | returns i o rest alive a p halive ho hlast hreturns hst => exact hI
      | be i a p hother hfree hst => exact hI
  exact hind.reachable h

/-- The accesses of the HP process belong to its winding down. -/
theorem leadsTo_finished (cfg : ι → BeConfig) (fp : BeFloat) {s : Colocated ι} {x : HpSession}
    (hx : s.session = some x) :
    ∃ t, ((colocatedSystem cfg fp).restrict WindsDown).LeadsTo s t ∧
      t.session = some { x with todo := [] } ∧ t.procs = s.procs ∧ t.checks = s.checks := by
  obtain ⟨v, hsolo⟩ := solo_hpOps x.pid x.todo s.view
  exact ⟨_, leadsTo_hpAccesses (fun _ => trivial) hsolo hx rfl, rfl, rfl, rfl⟩

/-- What the HP process can do winding down, it can do among the others. -/
theorem leadsTo_of_winding (cfg : ι → BeConfig) (fp : BeFloat) {s : Colocated ι}
    {x : HpSession} {p : HpProcess} (hx : s.session = some x) (htodo : x.todo = [])
    (h : (windingSystem x.cfg).LeadsTo x.process p) :
    ∃ t, ((colocatedSystem cfg fp).restrict WindsDown).LeadsTo s t ∧
      t.session = some { x with process := p } ∧ t.procs = s.procs ∧ t.checks = s.checks := by
  obtain ⟨as, hpath⟩ := h
  obtain ⟨pid, hpCfg, process, todo, leaving⟩ := x
  dsimp only at hpath htodo
  subst htodo
  induction hpath generalizing s with
  | nil q => exact ⟨s, .refl s, hx, rfl, rfl⟩
  | @cons q q' r a as hstep _ ih =>
    obtain ⟨ha, hstep⟩ := hstep
    let u : Colocated ι :=
      { s with session := some ⟨pid, hpCfg, q', [] ++ marking q.tracker q'.tracker 0, leaving⟩ }
    have hsu : ColocatedStep cfg fp s (.hp a 0) u :=
      .hp s ⟨pid, hpCfg, q, [], leaving⟩ a q' 0 hx (.inl rfl) hstep
    have hwinds : WindsDown s (.hp a 0) := by
      intro x hx'
      rw [hx] at hx'
      cases hx'
      exact ha
    -- what the lock section writes
    obtain ⟨w, huw, hsession, hprocs, hchecks⟩ := leadsTo_finished cfg fp (s := u) rfl
    obtain ⟨t, hwt, hend, hprocs', hchecks'⟩ := ih hsession
    exact ⟨t, System.LeadsTo.step (S := (colocatedSystem cfg fp).restrict WindsDown)
      ⟨hwinds, hsu⟩ (huw.trans hwt), hend, hprocs'.trans hprocs, hchecks'.trans hchecks⟩

/-! ## The way out of a check -/

/-- A call of the wait loop goes on with one access of it at a time. -/
theorem ofWait_next {o : BeOp} (ho : ofWait o = true) (alive : Pid → Bool) (m : EventShared) :
    (beExec alive o m).2 = [] ∨ ∃ o', (beExec alive o m).2 = [o'] ∧ ofWait o' = true := by
  cases o with
  | waitLoadState =>
    simp only [beExec]
    split
    · exact .inr ⟨_, rfl, rfl⟩
    · exact .inl rfl
  | waitLoadOwner => exact .inr ⟨_, rfl, rfl⟩
  | waitKill owner =>
    simp only [beExec]
    split <;> exact .inr ⟨_, rfl, rfl⟩
  | waitCas =>
    simp only [beExec]
    split
    · exact .inr ⟨_, rfl, rfl⟩
    · exact .inl rfl
  | waitClearOwner => exact .inl rfl
  | _ => cases ho

/-- A process that waits is before the wait loop, or before one access of it. -/
def InWait (p : List BeOp) : Prop := p = [] ∨ ∃ o, p = [o] ∧ ofWait o = true

theorem firstAccess_of_waiting {pc : BePc} (h : Waiting pc) :
    firstAccess pc = [.waitLoadState] := by
  cases pc with
  | idleCheck c => rfl
  | survivalIdle c => rfl
  | _ => exact absurd h id

/-- A BE process that waits is at the beginning of the wait loop or in it. -/
theorem inWait_reachable {s : Colocated ι} (h : (colocatedSystem cfg fp).Reachable s) :
    ∀ i, Waiting (s.procs i).pc → InWait (s.checks i) := by
  have hind : (colocatedSystem cfg fp).Inductive fun s =>
      ∀ i, Waiting (s.procs i).pc → InWait (s.checks i) := by
    constructor
    · exact fun s hs i _ => .inl (hs.checks i)
    · rintro s a t - hI hst
      cases hst with
      | check j hnone hcheck =>
        intro i hwaits
        show InWait (Function.update s.checks j (firstAccess (s.procs j).pc) i)
        by_cases hij : i = j
        · subst hij
          rw [Function.update_self]
          exact .inr ⟨.waitLoadState, firstAccess_of_waiting hwaits, rfl⟩
        · rw [Function.update_of_ne hij]
          exact hI i hwaits
      | access j o rest alive halive ho hmore =>
        intro i hwaits
        show InWait (Function.update s.checks j ((beExec alive o s.view.shared).2 ++ rest) i)
        by_cases hij : i = j
        · subst hij
          have hinside : s.checks i ≠ [] := by
            rw [ho]
            exact List.cons_ne_nil _ _
          obtain ⟨o', hi, hkind⟩ := (hI i hwaits).resolve_left hinside
          rw [ho] at hi
          obtain ⟨rfl, rfl⟩ := List.cons.inj hi
          rw [Function.update_self, List.append_nil]
          exact ofWait_next hkind alive _
        · rw [Function.update_of_ne hij]
          exact hI i hwaits
      | returns j o rest alive a p halive ho hlast hreturns hst =>
        intro i hwaits
        change Waiting (Function.update s.procs j p i).pc at hwaits
        show InWait (Function.update s.checks j ((beExec alive o s.view.shared).2 ++ rest) i)
        by_cases hij : i = j
        · subst hij
          rw [Function.update_self, hlast]
          exact .inl rfl
        · rw [Function.update_of_ne hij] at hwaits ⊢
          exact hI i hwaits
      | be j a p hother hfree hst =>
        intro i hwaits
        change Waiting (Function.update s.procs j p i).pc at hwaits
        by_cases hij : i = j
        · subst hij
          rw [Function.update_self] at hwaits
          rcases hfree with hfree | ⟨stream, rfl⟩
          · exact .inl hfree
          · cases hst
            exact hI i hwaits
        · rw [Function.update_of_ne hij] at hwaits
          exact hI i hwaits
      | _ => exact hI
  exact hind.reachable h

/-- The BE process `i` makes its own accesses. -/
def OwnAccesses (i : ι) (_ : Colocated ι) : ColocatedAction ι → Prop
  | .check j | .access j => j = i
  | _ => False

/-- The process `i` passes its check if it is let run. -/
def Passes (cfg : ι → BeConfig) (fp : BeFloat) (s : Colocated ι) (i : ι) : Prop :=
  ∃ t a u, ((colocatedSystem cfg fp).restrict (OwnAccesses i)).LeadsTo s t ∧
    decides a = true ∧ ColocatedStep cfg fp t (.be i a) u

theorem Passes.step {s t : Colocated ι} {a : ColocatedAction ι} {i : ι}
    (h : Passes cfg fp t i) (ha : OwnAccesses i s a) (hstep : ColocatedStep cfg fp s a t) :
    Passes cfg fp s i := by
  obtain ⟨u, b, w, htu, hb, hw⟩ := h
  exact ⟨u, b, w, System.LeadsTo.step
    (S := (colocatedSystem cfg fp).restrict (OwnAccesses i)) ⟨ha, hstep⟩ htu, hb, hw⟩

section passing

variable {s : Colocated ι} {i : ι}

/-- An access on the way. -/
theorem passes_access {o o' : BeOp} (hi : s.checks i = [o])
    (hnext : beExec (fun _ => true) o s.view.shared = (s.view.shared, [o']))
    (h : ∀ t : Colocated ι, t.procs = s.procs → t.view = s.view → t.checks i = [o'] →
      Passes cfg fp t i) : Passes cfg fp s i := by
  have hmore : (beExec (fun _ => true) o s.view.shared).2 ++ [] ≠ [] := by
    rw [hnext]
    exact List.cons_ne_nil _ _
  have hown : OwnAccesses i s (.access i) := rfl
  refine Passes.step (h (s.accessed (fun _ => true) i o []) rfl ?_ ?_) hown
    (.access s i o [] (fun _ => true) (fun _ _ => rfl) hi hmore)
  · show { s.view with shared := (beExec (fun _ => true) o s.view.shared).1 } = s.view
    rw [hnext]
  · show Function.update s.checks i ((beExec (fun _ => true) o s.view.shared).2 ++ []) i = [o']
    rw [Function.update_self, hnext, List.append_nil]

variable (hwaits : Waiting (s.procs i).pc)

include hwaits

/-- The last access of a wait loop. -/
theorem passes_last {o : BeOp} (hi : s.checks i = [o]) (ho : ofWait o = true)
    (hlast : (beExec (fun _ => true) o s.view.shared).2 = []) : Passes cfg fp s i := by
  have hend : (beExec (fun _ => true) o s.view.shared).2 ++ [] = [] := by
    rw [hlast, List.append_nil]
  cases hpc : (s.procs i).pc with
  | idleCheck c =>
    exact ⟨s, _, _, .refl s, rfl, .returns s i o [] (fun _ => true) _ _ (fun _ _ => rfl) hi hend
      (.idle ho none 0) (.idle (s.procs i) c none 0 hpc)⟩
  | survivalIdle c =>
    exact ⟨s, _, _, .refl s, rfl, .returns s i o [] (fun _ => true) _ _ (fun _ _ => rfl) hi hend
      (.survivalIdle ho) (.survivalIdle (s.procs i) c hpc)⟩
  | _ =>
    rw [hpc] at hwaits
    exact absurd hwaits id

/-- A BE process that waits passes its check once the segment shows IDLE, wherever in the wait
loop it is. -/
theorem passes_of_idle (hidle : s.view.shared.hpState = .idle) (hin : InWait (s.checks i)) :
    Passes cfg fp s i := by
  -- at the head of the loop IDLE is read
  have hhead (t : Colocated ι) (ht : Waiting (t.procs i).pc)
      (hidle : t.view.shared.hpState = .idle) (hi : t.checks i = [.waitLoadState]) :
      Passes cfg fp t i := passes_last ht hi rfl (by simp [beExec, hidle])
  -- a compare-exchange fails
  have hcas (t : Colocated ι) (ht : Waiting (t.procs i).pc)
      (hidle : t.view.shared.hpState = .idle) (hi : t.checks i = [.waitCas]) :
      Passes cfg fp t i := passes_last ht hi rfl (by simp [beExec, hidle])
  have hkill (t : Colocated ι) (owner : Pid) (ht : Waiting (t.procs i).pc)
      (hidle : t.view.shared.hpState = .idle) (hi : t.checks i = [.waitKill owner]) :
      Passes cfg fp t i := by
    by_cases halive : ownerIsAlive (fun _ => true) owner = true
    · have hnext : beExec (fun _ => true) (.waitKill owner) t.view.shared =
          (t.view.shared, [.waitLoadState]) := by
        simp only [beExec, if_pos halive]
      exact passes_access hi hnext fun u hprocs hview hu =>
        hhead u (hprocs ▸ ht) (hview ▸ hidle) hu
    · have hnext : beExec (fun _ => true) (.waitKill owner) t.view.shared =
          (t.view.shared, [.waitCas]) := by
        simp only [beExec, if_neg halive]
      exact passes_access hi hnext fun u hprocs hview hu =>
        hcas u (hprocs ▸ ht) (hview ▸ hidle) hu
  rcases hin with hi | ⟨o, hi, ho⟩
  · have hfirst := firstAccess_of_waiting hwaits
    have hcheck : firstAccess (s.procs i).pc ≠ [] := by
      rw [hfirst]
      exact List.cons_ne_nil _ _
    let t : Colocated ι :=
      { s with checks := Function.update s.checks i (firstAccess (s.procs i).pc) }
    have hown : OwnAccesses i s (.check i) := rfl
    have ht : t.checks i = [.waitLoadState] := by
      show Function.update s.checks i (firstAccess (s.procs i).pc) i = _
      rw [Function.update_self, hfirst]
    exact Passes.step (hhead t hwaits hidle ht) hown (.check s i hi hcheck)
  · cases o with
    | waitLoadState => exact hhead s hwaits hidle hi
    | waitLoadOwner =>
      exact passes_access hi rfl fun u hprocs hview hu =>
        hkill u _ (hprocs ▸ hwaits) (hview ▸ hidle) hu
    | waitKill owner => exact hkill s owner hwaits hidle hi
    | waitCas => exact hcas s hwaits hidle hi
    | waitClearOwner => exact passes_last hwaits hi rfl rfl
    | _ => cases ho

end passing

end

/-- Whatever an HP process that has not come to its destructor is in the middle of: if it
begins no further launch and the driver does what it is asked to, there is a way on after
which the segment shows IDLE and every BE process that waits passes its check, wherever in it
the process is. -/
theorem waiting_let_through {ι : Type} [DecidableEq ι] (cfg : ι → BeConfig) (fp : BeFloat)
    {s : Colocated ι} (h : ((colocatedSystem cfg fp).restrict FreshPids).Reachable s)
    {x : HpSession} (hx : s.session = some x) (hrunning : x.process.tracker.stop = false) :
    ∃ t, ((colocatedSystem cfg fp).restrict WindsDown).LeadsTo s t ∧ t.procs = s.procs ∧
      t.view.shared.hpState = .idle ∧ ∀ i, Waiting (s.procs i).pc → Passes cfg fp t i := by
  have hstays := stop_of_leaving h.of_restrict x hx hrunning
  have hlively := (followed_reachable h x hx hstays).lively hrunning
  obtain ⟨p, hlead, -, hstate⟩ := leadsTo_idle hlively
  -- first the accesses of the lock section it is in, if it is in one
  obtain ⟨u, hsu, hsession, hprocs, -⟩ := leadsTo_finished cfg fp hx
  obtain ⟨t, hut, hend, hprocs', -⟩ := leadsTo_of_winding cfg fp hsession rfl hlead
  have hst := hsu.trans hut
  -- a way of the HP process is a run of all of them
  have ht : ((colocatedSystem cfg fp).restrict FreshPids).Reachable t := by
    refine System.LeadsTo.keeps (S := (colocatedSystem cfg fp).restrict WindsDown) ?_ hst h
    rintro s a t hs ⟨ha, hstep⟩
    cases a with
    | hp a now =>
      have hfresh : FreshPids s (.hp a now) := trivial
      exact .step hs ⟨hfresh, hstep⟩
    | hpAccess =>
      have hfresh : FreshPids s .hpAccess := trivial
      exact .step hs ⟨hfresh, hstep⟩
    | _ => exact absurd ha id
  have hfollowed := followed_reachable ht _ hend hstays
  have hidle : t.view.shared.hpState = .idle := hfollowed.showsIdle (hfollowed.idle hstate)
  have hsame : t.procs = s.procs := hprocs'.trans hprocs
  refine ⟨t, hst, hsame, hidle, fun i hi => ?_⟩
  have hwaits : Waiting (t.procs i).pc := hsame ▸ hi
  exact passes_of_idle hwaits hidle (inWait_reachable ht.of_restrict i hwaits)

/-! ## A process that waits for a launch -/

theorem freshPids_allows : Allows FreshPids where
  register := show (0 : Nat) ≠ 10 by decide
  hpAccess _ := trivial
  check _ := trivial
  access _ _ _ _ _ := ⟨trivial, fun _ => trivial⟩
  be _ _ _ := trivial

/-- A launch of the HP process is in the hooks, and a BE process has read ACTIVE. -/
theorem waiting_let_through_busy :
    ∃ (fp : BeFloat) (s t : Colocated Unit),
      ((colocatedSystem (fun _ => defaultConfig) fp).restrict FreshPids).Reachable s ∧ s.Busy ∧
        s.view.shared.hpState = .active ∧ Waiting (s.procs ()).pc ∧
        s.checks () = [.waitLoadOwner] ∧
        ((colocatedSystem (fun _ => defaultConfig) fp).restrict WindsDown).LeadsTo s t ∧
        t.view.shared.hpState = .idle ∧ Passes (fun _ => defaultConfig) fp t () := by
  obtain ⟨tr, latest, h₀⟩ := beWaits_run plainFloat freshPids_allows
  have hbefore : FreshPids (beWaits latest) (.hp (.before 1 16 false true) 5) := trivial
  obtain ⟨tr', h₁⟩ := h₀.leadsTo (leadsTo_working plainFloat freshPids_allows rfl hbefore)
  have h₂ := h₁.step_restrict (ColocatedStep.check _ () rfl (List.cons_ne_nil _ _))
    (freshPids_allows.check _)
  have h₃ := h₂.step_restrict (ColocatedStep.access _ () .waitLoadState [] (fun _ => true)
    (fun _ _ => rfl) rfl (List.cons_ne_nil _ _))
    (freshPids_allows.access _ .waitLoadState [] rfl fun _ => trivial).1
  obtain ⟨t, hlead, -, hidle, hpasses⟩ := waiting_let_through _ plainFloat h₃.reachable rfl rfl
  exact ⟨plainFloat, _, t, h₃.reachable, ⟨_, rfl, rfl, rfl, working_unfinished⟩, rfl, trivial, rfl,
    hlead, hidle, hpasses () trivial⟩

end Lilt.Colocation
