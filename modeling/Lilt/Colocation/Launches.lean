import Lilt.Colocation.Processes
import Lilt.Lib.Permit

/-!
# BE launches while the HP process has work

While the HP process has unfinished work, no BE process decides on a launch: `g_hp_state_active`
is set, the segment shows ACTIVE, and every check of a BE process finds it so, whatever of it
lies before and whatever behind the access that published ACTIVE. So a BE process submits what
it decided on before, and nothing else.

- `Committed`: nothing but the window stands between the launch and the driver.
- `Careful`: the assumptions, on the streams of the HP process and on the recoveries of the BE
  processes from an earlier one.
- `Guarded`: the segment belongs to the HP process that is there and shows its ACTIVE.
- `not_busy_of_decides`: a decision for a launch is made while no work is unfinished.
- `one_launch_past_unfinished`: the result, for any part of a run.
-/

namespace Lilt.Colocation

open Lilt.Activity Lilt.Hp Lilt.Be Transition

/-! ## The decision for a launch -/

/-- A BE process calls the driver to launch. -/
def submits : BeAction → Bool
  | .launch _ => true
  | _ => false

/-- A BE process begins a launch. -/
def begins : BeAction → Bool
  | .before _ => true
  | _ => false

/-- A BE process passes a check that the HP process is idle, or finds that there is none. -/
def decides : BeAction → Bool
  | .idle _ _ | .survivalIdle | .ownerCheck false => true
  | _ => false

theorem endsCheck_of_decides {a : BeAction} (h : decides a = true) : endsCheck a = true := by
  cases a with
  | idle | survivalIdle | ownerCheck => rfl
  | _ => cases h

/-- Nothing but the window stands between the launch and the driver. -/
def Committed (pc : BePc) : Prop := pc.PastCheck ∨ pc.Bypasses

section

variable {cfg : BeConfig} {fp : BeFloat} {p p' : BeProcess} {a : BeAction}

/-- A process commits itself by deciding, and stays committed until it submits. -/
theorem committed_step (h : BeStep cfg fp p a p') (hc : Committed p'.pc) :
    decides a = true ∨ Committed p.pc ∧ (submits a || begins a) = false := by
  by_cases hbypass : p.pc.Bypasses
  · -- the window is drained in front of the launch
    refine .inr ⟨.inr hbypass, ?_⟩
    cases h with
    | before c h | launch c h | launchFails c h =>
      rw [h] at hbypass
      exact absurd hbypass id
    | _ => rfl
  · rcases hc with hpast | hbypasses
    · rcases past_step hbypass h hpast with hpasses | ⟨hpast, hlaunch, hbefore⟩
      · refine .inl ?_
        cases a <;> first | rfl | exact absurd hpasses id
      · refine .inr ⟨.inl hpast, ?_⟩
        cases a with
        | launch ok => exact absurd rfl (hlaunch ok)
        | before c => exact absurd rfl (hbefore c)
        | _ => rfl
    · refine .inl ?_
      by_contra ha
      refine bypass_step hbypass ?_ h hbypasses
      rintro rfl
      exact ha rfl

/-- What is submitted was decided on. -/
theorem committed_of_submits (h : BeStep cfg fp p a p') (ha : submits a = true) :
    Committed p.pc := by
  cases a with
  | launch ok => exact .inl (launch_past h).1
  | _ => cases ha

end

/-! ## What the segment shows -/

/-- While work is unfinished, `g_hp_state_active` is set. -/
theorem stateActive_of_unfinished {cfg : HpConfig} {p : HpProcess} (h : HpInv cfg p)
    (hu : p.Unfinished) : p.tracker.stateActive = true := by
  rcases hu with hcalls | ⟨k, slot, hk, hunfinished⟩
  · refine h.publishes.launches ?_
    rw [h.inProgress]
    exact Nat.ne_of_gt (List.length_pos_iff.mpr hcalls)
  · cases slot with
    | none => exact absurd (h.tracked.synchronized k hk) hunfinished
    | some i => exact h.publishes.slots i ((h.tracked.held k i hk).resolve_left hunfinished).active

/-- What a lock section has to write is neither of the registration nor begins one. -/
theorem marking_spec {t t' : HpTracker} {now : UInt64} :
    ∀ o ∈ marking t t' now, Continues o ∧ takesOwner o = false ∧ takesCount o = false := by
  intro o ho
  unfold marking at ho
  split at ho
  · rw [List.mem_singleton.mp ho]
    exact ⟨trivial, rfl, rfl⟩
  · rw [List.mem_singleton.mp ho]
    exact ⟨trivial, rfl, rfl⟩
  · cases ho

/-- The state that is announced follows `g_hp_state_active`. -/
theorem announced_marking {t t' : HpTracker} {now : UInt64} {latest : Option HpState} {b : Bool}
    (h : t.stateActive = b → latest = some (if b then .active else .idle))
    (ht' : t'.stateActive = b) :
    announced (marking t t' now) latest = some (if b then .active else .idle) := by
  unfold marking
  rw [ht']
  cases ht : t.stateActive <;> cases b <;> first | rfl | exact h ht

theorem countP_marking {t t' : HpTracker} {now : UInt64} {p : HpOp → Bool}
    (hp : ∀ o ∈ marking t t' now, p o = false) (todo : List HpOp) :
    (todo ++ marking t t' now).countP p = todo.countP p := by
  have hnone : (marking t t' now).countP p = 0 :=
    List.countP_eq_zero.mpr fun o ho => Bool.eq_false_iff.mp (hp o ho)
  rw [List.countP_append, hnone, add_zero]

/-- The segment belongs to the HP process as far as it has registered, and shows ACTIVE, or is
about to, while `g_hp_state_active` is set. -/
structure Guarded (v : HpView) (x : HpSession) : Prop where
  pid : 0 < x.pid
  reachable : ((hpSystem x.cfg).restrict SharedStreams).Reachable x.process
  undamaged : Undamaged x.pid v
  /-- Until the owner is taken, exactly one access to come leads to that. -/
  owner : x.todo.countP takesOwner + v.ownerTaken.toNat = 1
  count : x.todo.countP takesCount + v.countTaken.toNat = 1
  continues : ∀ o ∈ x.todo, Continues o
  active : x.process.tracker.stateActive = true → announced x.todo v.latest = some .active

/-- What the segment shows while work is unfinished. -/
structure Shows (v : HpView) (x : HpSession) : Prop where
  pid : 0 < x.pid
  undamaged : Undamaged x.pid v
  ownerTaken : v.ownerTaken = true
  countTaken : v.countTaken = true
  latest : v.latest = some .active

theorem Guarded.shows {v : HpView} {x : HpSession} (h : Guarded v x) (htodo : x.todo = [])
    (hu : x.process.Unfinished) : Shows v x := by
  have hactive := h.active (stateActive_of_unfinished (hp_reachable_inv h.reachable) hu)
  have howner := h.owner
  have hcount := h.count
  rw [htodo, List.countP_nil, Nat.zero_add] at howner hcount
  rw [htodo, announced_nil] at hactive
  exact { pid := h.pid
          undamaged := h.undamaged
          ownerTaken := Bool.toNat_eq_one.mp howner
          countTaken := Bool.toNat_eq_one.mp hcount
          latest := hactive }

/-- A check that returns while the segment shows this was a call of `lilt_event_hp_owner`, and
it found the owner. -/
theorem Shows.found {v : HpView} {x : HpSession} (h : Shows v x) {alive : Pid → Bool} {o : BeOp}
    (ho : HarmlessAccess v o) {rest : List BeOp}
    (hlast : (beExec alive o v.shared).2 ++ rest = []) :
    ofWait o = false ∧ 0 < ownerFound v.shared o := by
  have hstate : v.shared.hpState = .active := h.undamaged.state h.latest
  have howner : v.shared.hpOwnerPid = x.pid := h.undamaged.owner h.ownerTaken
  have hpos : 0 < v.shared.hpOwnerPid := howner ▸ h.pid
  cases o with
  | ownerLoad =>
    simp only [beExec, if_pos (Nat.ne_of_gt hpos)] at hlast
    cases hlast
  | ownerKill owner =>
    refine ⟨rfl, ?_⟩
    simp only [beExec] at hlast
    split at hlast
    next halive =>
      simp only [ownerIsAlive, Bool.and_eq_true, decide_eq_true_eq] at halive
      exact halive.1
    next => cases hlast
  | ownerCas owner => exact ⟨rfl, hpos⟩
  | ownerClearCount => exact absurd (h.countTaken.symm.trans ho) (by decide)
  | ownerClearState => exact absurd h.latest ho
  | waitLoadState =>
    simp only [beExec, if_pos hstate] at hlast
    cases hlast
  | waitLoadOwner => cases hlast
  | waitKill owner =>
    simp only [beExec] at hlast
    split at hlast <;> cases hlast
  | waitCas => exact absurd h.latest (ho hstate)
  | waitClearOwner => exact absurd (h.ownerTaken.symm.trans ho) (by decide)

/-! ## The assumptions -/

section

variable {ι : Type}

/-- Launches are on streams that the threads of the HP process share, and a fallback
synchronisation succeeds: `SharedStreams`. -/
def OnSharedStreams (s : Colocated ι) : ColocatedAction ι → Prop
  | .hp a _ => ∀ x ∈ s.session, SharedStreams x.process a
  | _ => True

/-- The recovery from an earlier HP process clears no word that the one that is there has made
its own: `HarmlessAccess`. -/
def HarmlessRecovery (s : Colocated ι) : ColocatedAction ι → Prop
  | .access i => ∀ x ∈ s.session, x.leaving = none → ∀ o rest, s.checks i = o :: rest →
      HarmlessAccess s.view o
  | .be i a => endsCheck a = true → ∀ x ∈ s.session, x.leaving = none →
      ∀ o rest, s.checks i = o :: rest → HarmlessAccess s.view o
  | _ => True

def Careful (s : Colocated ι) (a : ColocatedAction ι) : Prop :=
  OnSharedStreams s a ∧ HarmlessRecovery s a

variable [DecidableEq ι] {cfg : ι → BeConfig} {fp : BeFloat}

/-- The HP process that is there guards its work, whatever went before it. -/
theorem guarded_reachable {s : Colocated ι}
    (h : ((colocatedSystem cfg fp).restrict Careful).Reachable s) :
    ∀ x ∈ s.session, x.leaving = none → Guarded s.view x := by
  refine running_reachable (C := Careful) ?_ ?_ ?_ ?_ h
  · intro s pid hpCfg p now _ hpid hstart _
    have hundamaged : Undamaged pid (unwritten s.view.shared) := ⟨nofun, nofun, nofun⟩
    refine { pid := hpid, reachable := .init hstart
             undamaged := undamaged_hpExec hundamaged _
             owner := hpExec_takesOwner pid _ _ fun _ => rfl
             count := hpExec_takesCount pid _ _ fun _ => rfl
             continues := hpExec_continues pid _ _
             active := fun hactive => ?_ }
    rw [hstart.1] at hactive
    cases hactive
  · intro s x a p now hx ha hguarded hstep
    refine { pid := hguarded.pid
             reachable := .step hguarded.reachable ⟨ha.1 x hx, hstep⟩
             undamaged := hguarded.undamaged
             owner := ?_, count := ?_, continues := ?_, active := fun hactive => ?_ }
    · rw [countP_marking fun o ho => (marking_spec o ho).2.1]
      exact hguarded.owner
    · rw [countP_marking fun o ho => (marking_spec o ho).2.2]
      exact hguarded.count
    · intro o ho
      rcases List.mem_append.mp ho with ho | ho
      · exact hguarded.continues o ho
      · exact (marking_spec o ho).1
    · rw [announced_append]
      exact announced_marking (b := true) hguarded.active hactive
  · intro v x o rest htodo hguarded
    have howner := hguarded.owner
    have hcount := hguarded.count
    have hactive := hguarded.active
    rw [htodo] at howner hcount hactive
    have hcontinues : ∀ o' ∈ o :: rest, Continues o' := htodo ▸ hguarded.continues
    refine { pid := hguarded.pid, reachable := hguarded.reachable
             undamaged := undamaged_hpExec hguarded.undamaged o
             owner := done_once howner (hpExec_takesOwner x.pid v o)
             count := done_once hcount (hpExec_takesCount x.pid v o)
             continues := fun o' ho' => ?_, active := fun hset => ?_ }
    · rcases List.mem_append.mp ho' with ho' | ho'
      · exact hpExec_continues x.pid o v o' ho'
      · exact hcontinues o' (List.mem_cons_of_mem _ ho')
    · rw [announced_hpExec x.pid (hcontinues o List.mem_cons_self)]
      exact hactive hset
  · intro s x i o rest alive hx hstays ho hmay hguarded
    have hharmless : HarmlessAccess s.view o := by
      rcases hmay with ⟨-, hmay⟩ | ⟨a, ha, -, hmay⟩
      · exact hmay x hx hstays o rest ho
      · exact hmay ha x hx hstays o rest ho
    exact { hguarded with
            undamaged :=
              (undamaged_beExec_iff hguarded.pid hguarded.undamaged alive o).mpr hharmless }

/-! ## The permit for a launch -/

/-- The step of the BE process `i` that this action is. -/
def ColocatedAction.ofProcess (i : ι) : ColocatedAction ι → Option BeAction
  | .be j a => if j = i then some a else none
  | _ => none

def ColocatedAction.submits (i : ι) (a : ColocatedAction ι) : Bool :=
  (a.ofProcess i).any Colocation.submits

def ColocatedAction.begins (i : ι) (a : ColocatedAction ι) : Bool :=
  (a.ofProcess i).any Colocation.begins

def ColocatedAction.decides (i : ι) (a : ColocatedAction ι) : Bool :=
  (a.ofProcess i).any Colocation.decides

/-- The state of a BE process after a step: its own, or as before. -/
theorem procs_step {s t : Colocated ι} {a : ColocatedAction ι}
    (h : ColocatedStep cfg fp s a t) (i : ι) :
    (∃ b, a.ofProcess i = some b ∧ BeStep (cfg i) fp (s.procs i) b (t.procs i)) ∨
      a.ofProcess i = none ∧ t.procs i = s.procs i := by
  have hupdate {j : ι} {b : BeAction} {p : BeProcess} (hb : BeStep (cfg j) fp (s.procs j) b p) :
      (∃ b', (ColocatedAction.be j b).ofProcess i = some b' ∧
          BeStep (cfg i) fp (s.procs i) b' (Function.update s.procs j p i)) ∨
        (ColocatedAction.be j b).ofProcess i = none ∧
          Function.update s.procs j p i = s.procs i := by
    by_cases hj : j = i
    · subst hj
      refine .inl ⟨b, if_pos rfl, ?_⟩
      rw [Function.update_self]
      exact hb
    · exact .inr ⟨if_neg hj, Function.update_of_ne (Ne.symm hj) ..⟩
  cases h with
  | returns j o rest alive b p halive ho hlast hreturns hstep => exact hupdate hstep
  | be j b p hother hfree hstep => exact hupdate hstep
  | _ => exact .inr ⟨rfl, rfl⟩

/-- A BE process decides for a launch only while no work of the HP process is unfinished. -/
theorem not_busy_of_decides {s t : Colocated ι} {a : ColocatedAction ι} {i : ι}
    (hs : ((colocatedSystem cfg fp).restrict Careful).Reachable s) (ha : Careful s a)
    (hstep : ColocatedStep cfg fp s a t) (hdecides : a.decides i = true) : ¬ s.Busy := by
  rintro ⟨x, hx, hstays, htodo, hunfinished⟩
  have hshows := (guarded_reachable hs x hx hstays).shows htodo hunfinished
  have hof {j : ι} {b : BeAction} (h : (ColocatedAction.be j b).decides i = true) :
      decides b = true := by
    unfold ColocatedAction.decides ColocatedAction.ofProcess at h
    dsimp only at h
    split at h
    · exact h
    · cases h
  cases hstep with
  | returns j o rest alive b p halive ho hlast hreturns hbe =>
    have hb := hof hdecides
    have hharmless := ha.2 hreturns.endsCheck x hx hstays o rest ho
    obtain ⟨hkind, hfound⟩ := hshows.found hharmless hlast
    cases hreturns with
    | startupPoll => cases hb
    | ownerCheck =>
      rw [decide_eq_true hfound] at hb
      cases hb
    | idle hwait | survivalIdle hwait => exact absurd (hwait.symm.trans hkind) (by decide)
  | be j b p hother hfree hbe =>
    exact absurd ((endsCheck_of_decides (hof hdecides)).symm.trans hother) (by decide)
  | _ => cases hdecides

/-- A BE process needs a decision for every launch it submits, and decides only while the HP
process, if there is one, has nothing unfinished. -/
theorem launch_permit (i : ι) :
    ((colocatedSystem cfg fp).restrict Careful).Permit
      (fun s => Committed (s.procs i).pc) (fun s a => a.decides i = true ∧ ¬ s.Busy)
      (fun a => a.submits i || a.begins i) (fun a => a.submits i) := by
  constructor
  · intro s hs hcommitted
    rw [(hs.procs i).pc] at hcommitted
    rcases hcommitted with h | h <;> exact h
  · rintro s a t hs ⟨ha, hstep⟩ hcommitted
    rcases procs_step hstep i with ⟨b, hb, hbe⟩ | ⟨hb, hsame⟩
    · rcases committed_step hbe hcommitted with hdecides | hkept
      · have hdecides : a.decides i = true := by
          simp only [ColocatedAction.decides, hb, Option.any_some, hdecides]
        exact .inl ⟨hdecides, not_busy_of_decides hs ha hstep hdecides⟩
      · simp only [ColocatedAction.submits, ColocatedAction.begins, hb, Option.any_some]
        exact .inr hkept
    · simp only [ColocatedAction.submits, ColocatedAction.begins, hb, Option.any_none]
      rw [hsame] at hcommitted
      exact .inr ⟨hcommitted, rfl⟩
  · rintro s a t - ⟨-, hstep⟩ hsubmits
    rcases procs_step hstep i with ⟨b, hb, hbe⟩ | ⟨hb, -⟩
    · simp only [ColocatedAction.submits, hb, Option.any_some] at hsubmits ⊢
      exact ⟨committed_of_submits hbe hsubmits, by rw [hsubmits, Bool.true_or]⟩
    · simp [ColocatedAction.submits, hb] at hsubmits

end

/-- In any part `mid` of a run in which an HP process has unfinished work throughout, every
BE process calls the driver to launch at most once. It decided on that launch before the part
began, when no HP process had unfinished work, and has neither submitted nor begun another
one since. -/
theorem one_launch_past_unfinished {ι : Type} [DecidableEq ι] (cfg : ι → BeConfig)
    (fp : BeFloat) {pre mid : List (Colocated ι × ColocatedAction ι)} {s : Colocated ι}
    (h : ((colocatedSystem cfg fp).restrict Careful).Run (pre ++ mid) s)
    (hbusy : ∀ x ∈ mid, x.1.Busy) (i : ι) :
    mid.countP (fun x => x.2.submits i) ≤ 1 ∧
      ∀ mid₁ x mid₂, mid = mid₁ ++ x :: mid₂ → x.2.submits i = true →
        ∃ pre₁ y pre₂, pre = pre₁ ++ y :: pre₂ ∧ (y.2.decides i = true ∧ ¬ y.1.Busy) ∧
          ∀ z ∈ pre₂ ++ mid₁, (z.2.submits i || z.2.begins i) = false :=
  (launch_permit i).used_once h fun x hx hgives => hgives.2 (hbusy x hx)

/-! ## A BE launch that is overtaken by the HP process -/

/-- Nobody is there yet. -/
def nobodyYet : Colocated Unit where
  session := none
  view := unwritten .zeroed
  linked := true
  procs _ := startProcess
  checks _ := []

/-- The process 10, as it has just registered. -/
def registered : HpSession where
  pid := 10
  cfg := ⟨.deferred, 20000⟩
  process := ⟨.initial, .empty, [], .notStarted, []⟩
  todo := []
  leaving := none

/-- The HP process is registered and a BE process, at its first launch, waits until it is
idle. -/
def beWaits (latest : Option HpState) : Colocated Unit where
  session := some registered
  view := ⟨registeredShared, true, true, latest⟩
  linked := true
  procs _ :=
    { startProcess with
      window := { startProcess.window.resetCurrent oneCall.blocks with startupWaitDone := true }
      owner := true
      pc := .idleCheck oneCall }
  checks _ := []

/-- A condition that allows what this beginning of a run needs. -/
structure Allows (C : Colocated Unit → ColocatedAction Unit → Prop) : Prop where
  register : C nobodyYet (.register 10 1)
  hpAccess : ∀ s, C s .hpAccess
  check : ∀ s, C s (.check ())
  /-- an access that reads -/
  access : ∀ s o rest, s.checks () = o :: rest → (∀ v, HarmlessAccess v o) → C s (.access ()) ∧
    ∀ a, C s (.be () a)
  be : ∀ s a, endsCheck a = false → C s (.be () a)

theorem beWaits_run (fp : BeFloat) {C : Colocated Unit → ColocatedAction Unit → Prop}
    (hC : Allows C) :
    ∃ tr latest, ((colocatedSystem (fun _ => defaultConfig) fp).restrict C).Run tr
      (beWaits latest) := by
  let alive : Pid → Bool := fun pid => pid = 10
  let system := (colocatedSystem (fun _ : Unit => defaultConfig) fp).restrict C
  have hfound : ∀ x ∈ some registered, alive x.pid = true := by rintro x ⟨⟩; rfl
  have hreads (o : BeOp) (h : ∀ v, HarmlessAccess v o) (s : Colocated Unit)
      (ho : s.checks () = [o]) : C s (.access ()) ∧ ∀ a, C s (.be () a) :=
    hC.access s o [] ho h
  have h₀ : system.Run [] nobodyYet := .init ⟨rfl, fun _ => startProcess_starts, fun _ => rfl⟩
  have h₁ := h₀.step_restrict (ColocatedStep.register nobodyYet 10 registered.cfg
    registered.process 1 rfl rfl (by decide) ⟨rfl, rfl, rfl, rfl⟩ fun _ _ hr => nomatch hr)
    hC.register
  obtain ⟨latest, hsolo⟩ := solo_register 10 (unwritten .zeroed) 1
  obtain ⟨tr, h₂⟩ := h₁.leadsTo (leadsTo_hpAccesses (x := registered) hC.hpAccess hsolo.rest
    (by rw [List.append_nil]; rfl) rfl)
  -- the first check finds the HP process, and so does the second
  have h₃ := h₂.step_restrict (ColocatedStep.be _ () _ _ rfl (.inl rfl)
    (BeStep.before startProcess oneCall rfl)) (hC.be _ _ rfl)
  have h₄ := h₃.step_restrict (ColocatedStep.check _ () rfl (List.cons_ne_nil _ _)) (hC.check _)
  have h₅ := h₄.step_restrict (ColocatedStep.access _ () .ownerLoad [] alive hfound rfl
    (List.cons_ne_nil _ _)) (hreads .ownerLoad (fun _ => trivial) _ rfl).1
  have h₆ := h₅.step_restrict (ColocatedStep.returns _ () (.ownerKill 10) [] alive _ _ hfound rfl
    rfl (.startupPoll rfl false) (BeStep.startupPoll _ oneCall true false rfl (.inl rfl)))
    ((hreads (.ownerKill 10) (fun _ => trivial) _ rfl).2 _)
  have h₇ := h₆.step_restrict (ColocatedStep.check _ () rfl (List.cons_ne_nil _ _)) (hC.check _)
  have h₈ := h₇.step_restrict (ColocatedStep.access _ () .ownerLoad [] alive hfound rfl
    (List.cons_ne_nil _ _)) (hreads .ownerLoad (fun _ => trivial) _ rfl).1
  have h₉ := h₈.step_restrict (ColocatedStep.returns _ () (.ownerKill 10) [] alive _ _ hfound rfl
    rfl (.ownerCheck rfl) (BeStep.ownerCheck _ oneCall true rfl))
    ((hreads (.ownerKill 10) (fun _ => trivial) _ rfl).2 _)
  exact ⟨_, latest, h₉⟩

/-- A launch of it on a created stream is in the hooks. -/
def working : HpSession :=
  { registered with
    process :=
      { registered.process with
        tracker := eventHpBeforeLaunch .initial true
        calls := [⟨1, 16, false, .entered⟩]
        watcher := .top } }

theorem working_unfinished : working.process.Unfinished := .inl (List.cons_ne_nil _ _)

/-- The HP process begins a launch and makes the accesses of `lilt_event_hp_mark_active`. -/
theorem leadsTo_working (fp : BeFloat) {C : Colocated Unit → ColocatedAction Unit → Prop}
    (hC : Allows C) {s : Colocated Unit} (hs : s.session = some registered)
    (hbefore : C s (.hp (.before 1 16 false true) 5)) :
    ((colocatedSystem (fun _ => defaultConfig) fp).restrict C).LeadsTo s
      { s with
        session := some working
        view :=
          { s.view with
            shared := liltEventHpMarkActive s.view.shared 5
            latest := some .active } } := by
  have hstep : ColocatedStep (fun _ => defaultConfig) fp s _ _ :=
    .hp s registered _ _ 5 hs (.inl rfl) (HpStep.before _ 1 16 false true (by decide))
  have hmark := solo_markActive 10 s.view 5
  exact System.LeadsTo.step (S := (colocatedSystem (fun _ => defaultConfig) fp).restrict C)
    ⟨hbefore, hstep⟩ (leadsTo_hpAccesses hC.hpAccess (x := working) hmark rfl rfl)

theorem careful_allows : Allows Careful where
  register := ⟨trivial, trivial⟩
  hpAccess _ := ⟨trivial, trivial⟩
  check _ := ⟨trivial, trivial⟩
  access s o rest ho hreads := by
    have hnext : ∀ o' rest', s.checks () = o' :: rest' → HarmlessAccess s.view o' := by
      intro o' rest' ho'
      rw [ho] at ho'
      obtain ⟨rfl, rfl⟩ := List.cons.inj ho'
      exact hreads s.view
    exact ⟨⟨trivial, fun _ _ _ => hnext⟩, fun _ => ⟨trivial, fun _ _ _ _ => hnext⟩⟩
  be _ _ ha := ⟨trivial, fun h => absurd (h.symm.trans ha) (by decide)⟩

/-- The BE process decides on its launch, the HP process begins one, and the BE launch gets
to the driver. -/
theorem one_launch_past_unfinished_late :
    ∃ (fp : BeFloat) (pre : List (Colocated Unit × ColocatedAction Unit))
      (x : Colocated Unit × ColocatedAction Unit) (s : Colocated Unit),
      ((colocatedSystem (fun _ => defaultConfig) fp).restrict Careful).Run
        (pre ++ [x]) s ∧ x.1.Busy ∧ x.2.submits () = true ∧
        ∃ pre₁ y pre₂, pre = pre₁ ++ y :: pre₂ ∧ y.2.decides () = true ∧ ¬ y.1.Busy := by
  let alive : Pid → Bool := fun pid => pid = 10
  have hfound : ∀ x ∈ some registered, alive x.pid = true := by rintro x ⟨⟩; rfl
  obtain ⟨tr, latest, h₀⟩ := beWaits_run plainFloat careful_allows
  have h₁ := h₀.step_restrict (ColocatedStep.check _ () rfl (List.cons_ne_nil _ _))
    (careful_allows.check _)
  have h₂ := h₁.step_restrict (ColocatedStep.returns _ () .waitLoadState [] alive _ _ hfound rfl
    rfl (.idle rfl none 0) (BeStep.idle _ oneCall none 0 rfl))
    ((careful_allows.access _ .waitLoadState [] rfl fun _ => trivial).2 _)
  have h₃ := h₂.step_restrict (ColocatedStep.be _ () _ _ rfl (.inl rfl)
    (BeStep.blockAdmit _ oneCall defaultConfig.blockBudget
      { startCreateOk := true, stopCreateOk := true, recordOk := true } rfl rfl))
    (careful_allows.be _ _ rfl)
  have hshared : ∀ x ∈ some registered, SharedStreams x.process (.before 1 16 false true) := by
    rintro x ⟨⟩
    exact ⟨by decide, nofun⟩
  obtain ⟨tr', h₄⟩ := h₃.leadsTo (leadsTo_working plainFloat careful_allows rfl ⟨hshared, trivial⟩)
  have h₅ := h₄.step_restrict (ColocatedStep.be _ () _ _ rfl (.inl rfl)
    (BeStep.launch _ oneCall rfl)) (careful_allows.be _ _ rfl)
  have h := one_launch_past_unfinished _ _ h₅ (fun x hx => by
    rw [List.mem_singleton.mp hx]
    exact ⟨_, rfl, rfl, rfl, working_unfinished⟩) ()
  obtain ⟨pre₁, y, pre₂, hpre, hy, -⟩ := h.2 [] _ [] rfl rfl
  exact ⟨plainFloat, _, _, _, h₅, ⟨_, rfl, rfl, rfl, working_unfinished⟩, rfl, pre₁, y, pre₂, hpre,
    hy⟩

end Lilt.Colocation
