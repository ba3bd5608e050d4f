import Lilt.Be.Process
import Mathlib.Data.List.Induction

/-!
# BE processes around one HP process

Any number of BE processes read the shared segment while the HP process, which is
registered and alive all along, marks its activity. A BE process holds its lock
from the check that finds the HP process idle until the driver returned, so only a
launch that was past its check already can be submitted while the HP process is
active.

- `BeGroup`, `GroupStep`: the segment and the processes; what a process sees of
  the segment is what the calls of `activity_tracker.c` return.
- `BePc.PastCheck`: between the check and the submission.
- `past_step`, `checked_of_past`: how a process gets there, in one step and over a
  run.
- `one_submission_per_active_interval`: the bound, for any part of a run in which
  the HP process is active.
-/

namespace Lilt.Be

open Lilt.Activity Lilt.Driver Transition

/-- One turn of the loop of `lilt_event_be_wait_until_idle`: the segment it
returns with, or `none` to wait on. -/
def waitUntilIdleTurn (m : EventShared) (alive : Pid → Bool) : Option EventShared :=
  if m.hpState = .active then
    if ownerIsAlive alive m.hpOwnerPid then none
    else some { m with hpState := .idle, hpOwnerPid := 0 }
  else some m

/-- The shared segment and the BE processes. -/
structure BeGroup (ι : Type) where
  shared : EventShared
  procs : ι → BeProcess

inductive GroupAction (ι : Type) where
  | markActive (now : UInt64)
  | markIdle (now : UInt64)
  | be (i : ι) (a : BeAction)

/-- What a step of a BE process reads of the segment, and the segment it leaves. The
snapshots of the timing statistics may be anything. -/
inductive Sees (alive : Pid → Bool) (m : EventShared) : BeAction → EventShared → Prop where
  | startupPoll (expired : Bool) :
      Sees alive m (.startupPoll (0 < (liltEventHpOwner m alive).1) expired)
        (liltEventHpOwner m alive).2
  | ownerCheck :
      Sees alive m (.ownerCheck (0 < (liltEventHpOwner m alive).1)) (liltEventHpOwner m alive).2
  | idle (timing : Option HpTiming) (now : UInt64) (m' : EventShared)
      (h : waitUntilIdleTurn m alive = some m') : Sees alive m (.idle timing now) m'
  | survivalIdle (m' : EventShared) (h : waitUntilIdleTurn m alive = some m') :
      Sees alive m .survivalIdle m'
  | other (a : BeAction) (h : match a with
      | .startupPoll _ _ | .ownerCheck _ | .idle _ _ | .survivalIdle => False
      | _ => True) : Sees alive m a m

section

variable {ι : Type} [DecidableEq ι]

inductive GroupStep (cfg : ι → BeConfig) (fp : BeFloat) (alive : Pid → Bool) :
    BeGroup ι → GroupAction ι → BeGroup ι → Prop where
  | markActive (s : BeGroup ι) (now : UInt64) :
      GroupStep cfg fp alive s (.markActive now)
        { s with shared := liltEventHpMarkActive s.shared now }
  | markIdle (s : BeGroup ι) (now : UInt64) :
      GroupStep cfg fp alive s (.markIdle now)
        { s with shared := liltEventHpMarkIdle s.shared now }
  | be (s : BeGroup ι) (i : ι) (a : BeAction) (p : BeProcess) (m : EventShared)
      (hstep : BeStep (cfg i) fp (s.procs i) a p) (hsees : Sees alive s.shared a m) :
      GroupStep cfg fp alive s (.be i a)
        { shared := m, procs := Function.update s.procs i p }

/-- The HP process is registered and the BE processes have not launched yet. -/
structure BeGroup.Starts (alive : Pid → Bool) (s : BeGroup ι) : Prop where
  registered : ownerIsAlive alive s.shared.hpOwnerPid = true
  procs : ∀ i, (s.procs i).Starts

/-- All runs with an HP process that stays registered. -/
def groupSystem (cfg : ι → BeConfig) (fp : BeFloat) (alive : Pid → Bool) :
    System (BeGroup ι) (GroupAction ι) where
  Init := BeGroup.Starts alive
  Step := GroupStep cfg fp alive

/-! ## The events of a launch -/

/-- The process `i` calls the driver to launch. -/
def GroupAction.submits (i : ι) : GroupAction ι → Bool
  | .be j (.launch _) => j = i
  | _ => false

/-- The process `i` passes a check that the HP process is idle. -/
def GroupAction.passesCheck (i : ι) : GroupAction ι → Bool
  | .be j (.idle _ _) => j = i
  | .be j .survivalIdle => j = i
  | _ => false

/-- The process `i` begins a launch. -/
def GroupAction.begins (i : ι) : GroupAction ι → Bool
  | .be j (.before _) => j = i
  | _ => false

end

/-! ## One process -/

/-- The lock is held behind the last check before the submission. -/
def BePc.PastCheck : BePc → Prop
  | .survivalAdmit _ | .timeLoop _ _ | .blockLoop _ _ | .launching _ => True
  | _ => False

/-- The launch goes around the window. -/
def BePc.Bypasses : BePc → Prop
  | .bypass _ => True
  | _ => False

/-- The actions that pass a check. -/
def BeAction.Passes : BeAction → Prop
  | .idle _ _ | .survivalIdle => True
  | _ => False

section

variable {cfg : BeConfig} {fp : BeFloat} {p p' : BeProcess} {a : BeAction}

/-- Whatever the policy, the launch does not go around the window. -/
theorem choosePolicy_not_bypass (timing : Option HpTiming) (now : UInt64) (c : BeCall) :
    ¬ (p.choosePolicy cfg fp c timing now).pc.Bypasses := by
  obtain ⟨w, pc, hchosen, rfl | ⟨budget, rfl⟩ | ⟨budget, rfl⟩⟩ :=
    choosePolicy_spec cfg fp p c timing now <;> rw [hchosen] <;> exact id

/-- A process gets behind the check by passing it, and leaves by the submission. -/
theorem past_step (hbypass : ¬ p.pc.Bypasses) (h : BeStep cfg fp p a p')
    (hpast : p'.pc.PastCheck) :
    a.Passes ∨ p.pc.PastCheck ∧ (∀ ok, a ≠ .launch ok) ∧ ∀ c, a ≠ .before c := by
  cases h with
  | before c h =>
    cases hdone : p.window.startupWaitDone <;> simp [hdone, BePc.PastCheck] at hpast
  | ownerCheck c registered h => cases registered <;> exact absurd hpast id
  | startupAgain c h =>
    rw [h] at hpast
    exact absurd hpast id
  | retire thread o h ho => exact .inr ⟨hpast, nofun, nofun⟩
  | bypassed c h hempty =>
    -- the only way around the check
    rw [h] at hbypass
    exact absurd trivial hbypass
  | idle c timing now h => exact .inl trivial
  | survivalIdle c h => exact .inl trivial
  | survivalAdmit c timing now w window budget o h hw hwait =>
    exact .inr ⟨by rw [h]; trivial, nofun, nofun⟩
  | timeAdmit c budget o h hwait => exact .inr ⟨by rw [h]; trivial, nofun, nofun⟩
  | blockAdmit c budget o h hwait => exact .inr ⟨by rw [h]; trivial, nofun, nofun⟩
  | complete stream => exact .inr ⟨hpast, nofun, nofun⟩
  | startupPoll | survivalRetire | survivalSleep | launch | launchFails | after | boundary
  | drained => exact absurd hpast id

/-- A submission is made from behind the check. -/
theorem launch_past {ok : Bool} (h : BeStep cfg fp p (.launch ok) p') :
    p.pc.PastCheck ∧ ¬ p'.pc.PastCheck := by
  cases h with
  | launch c h => exact ⟨by rw [h]; trivial, id⟩
  | launchFails c h => exact ⟨by rw [h]; trivial, id⟩

/-- Without an owner check that finds nobody, no launch goes around the window. -/
theorem bypass_step (hbypass : ¬ p.pc.Bypasses) (ha : a ≠ .ownerCheck false)
    (h : BeStep cfg fp p a p') : ¬ p'.pc.Bypasses := by
  cases h with
  | before c h => cases hdone : p.window.startupWaitDone <;> simp [BePc.Bypasses]
  | ownerCheck c registered h =>
    cases registered with
    | true => exact id
    | false => exact absurd rfl ha
  | startupAgain c h => exact hbypass
  | retire thread o h ho => exact hbypass
  | idle c timing now h => exact choosePolicy_not_bypass timing now c
  | complete stream => exact hbypass
  | _ => exact id

end

/-! ## The group -/

section

variable {ι : Type} [DecidableEq ι] {cfg : ι → BeConfig} {fp : BeFloat} {alive : Pid → Bool}

/-- With the HP process alive nothing is written to the segment, every owner check
finds it, and a check is passed only while it is idle. -/
theorem Sees.of_alive {m m' : EventShared} {a : BeAction}
    (hregistered : ownerIsAlive alive m.hpOwnerPid = true) (h : Sees alive m a m') :
    m' = m ∧ a ≠ .ownerCheck false ∧ (a.Passes → m.hpState ≠ .active) := by
  have howner : liltEventHpOwner m alive = (m.hpOwnerPid, m) :=
    hpOwner_of_alive fun _ => hregistered
  have hpos : 0 < m.hpOwnerPid := by
    simp only [ownerIsAlive, Bool.and_eq_true, decide_eq_true_eq] at hregistered
    exact hregistered.1
  have hturn : ∀ m', waitUntilIdleTurn m alive = some m' → m' = m ∧ m.hpState ≠ .active := by
    intro m' hm'
    unfold waitUntilIdleTurn at hm'
    rw [hregistered] at hm'
    split at hm'
    · cases hm'
    next hidle => exact ⟨(Option.some.inj hm').symm, hidle⟩
  cases h with
  | startupPoll expired =>
    rw [howner]
    exact ⟨rfl, nofun, fun h => absurd h id⟩
  | ownerCheck =>
    rw [howner]
    refine ⟨rfl, fun h => ?_, fun h => absurd h id⟩
    have hfalse : decide (0 < m.hpOwnerPid) = false := BeAction.ownerCheck.inj h
    exact absurd hpos (of_decide_eq_false hfalse)
  | idle timing now m' h => exact ⟨(hturn m' h).1, nofun, fun _ => (hturn m' h).2⟩
  | survivalIdle m' h => exact ⟨(hturn m' h).1, nofun, fun _ => (hturn m' h).2⟩
  | other a h =>
    refine ⟨rfl, ?_, ?_⟩
    · rintro rfl
      exact h
    · intro hpasses
      cases a <;> first | exact absurd h id | exact absurd hpasses id

/-- An idle HP process is what a launch finds that nothing holds back. -/
theorem Sees.of_idle {m : EventShared} {a : BeAction}
    (hregistered : ownerIsAlive alive m.hpOwnerPid = true) (hidle : m.hpState ≠ .active)
    (h : a.Unhindered) : Sees alive m a m := by
  have howner : liltEventHpOwner m alive = (m.hpOwnerPid, m) :=
    hpOwner_of_alive fun _ => hregistered
  have hpos : decide (0 < m.hpOwnerPid) = true := by
    simp only [ownerIsAlive, Bool.and_eq_true] at hregistered
    exact hregistered.1
  cases a with
  | startupPoll registered expired =>
    have hpoll : Sees alive m (.startupPoll (0 < (liltEventHpOwner m alive).1) expired)
        (liltEventHpOwner m alive).2 := .startupPoll expired
    rw [howner, hpos] at hpoll
    rw [show registered = true from h]
    exact hpoll
  | ownerCheck registered =>
    have hcheck : Sees alive m (.ownerCheck (0 < (liltEventHpOwner m alive).1))
        (liltEventHpOwner m alive).2 := .ownerCheck
    rw [howner, hpos] at hcheck
    rw [show registered = true from h]
    exact hcheck
  | idle timing now =>
    refine .idle timing now m ?_
    unfold waitUntilIdleTurn
    rw [if_neg hidle]
  | admission o => exact .other _ trivial
  | _ => exact absurd h id

/-- What a launch does when nothing holds it back it does in the group as well. -/
theorem leadsTo_group {s : BeGroup ι} (hregistered : ownerIsAlive alive s.shared.hpOwnerPid = true)
    (hidle : s.shared.hpState ≠ .active) (i : ι) {p : BeProcess}
    (h : (unhinderedSystem (cfg i) fp).LeadsTo (s.procs i) p) :
    (groupSystem cfg fp alive).LeadsTo s { s with procs := Function.update s.procs i p } := by
  have hlift : (groupSystem cfg fp alive).LeadsTo
      { s with procs := Function.update s.procs i (s.procs i) }
      { s with procs := Function.update s.procs i p } := by
    refine System.LeadsTo.lift (S := unhinderedSystem (cfg i) fp)
      (f := fun p => { s with procs := Function.update s.procs i p }) (fun p a p' hstep => ?_) h
    have hbe : BeStep (cfg i) fp (Function.update s.procs i p i) a p' := by
      rw [Function.update_self]
      exact hstep.2
    have hgroup : GroupStep cfg fp alive { s with procs := Function.update s.procs i p }
        (.be i a) { s with procs := Function.update (Function.update s.procs i p) i p' } :=
      .be _ i a p' s.shared hbe (.of_idle hregistered hidle hstep.1)
    rw [Function.update_idem] at hgroup
    exact .step hgroup (.refl _)
  rwa [Function.update_eq_self] at hlift

/-- The HP process stays registered and no launch goes around the window. -/
theorem registered_reachable {s : BeGroup ι} (h : (groupSystem cfg fp alive).Reachable s) :
    ownerIsAlive alive s.shared.hpOwnerPid = true ∧ ∀ i, ¬ (s.procs i).pc.Bypasses := by
  have hind : (groupSystem cfg fp alive).Inductive fun s =>
      ownerIsAlive alive s.shared.hpOwnerPid = true ∧ ∀ i, ¬ (s.procs i).pc.Bypasses := by
    refine { init := fun s hs => ⟨hs.registered, fun i => ?_⟩
             step := fun s a t _ hI hstep => ?_ }
    · rw [(hs.procs i).pc]
      exact id
    · obtain ⟨hregistered, hbypass⟩ := hI
      cases hstep with
      | markActive now =>
        refine ⟨?_, hbypass⟩
        rw [markActive_hpOwnerPid]
        exact hregistered
      | markIdle now =>
        refine ⟨?_, hbypass⟩
        rw [markIdle_hpOwnerPid]
        exact hregistered
      | be i a p m hstep hsees =>
        obtain ⟨rfl, hfound, -⟩ := hsees.of_alive hregistered
        refine ⟨hregistered, fun j => ?_⟩
        show ¬ (Function.update s.procs i p j).pc.Bypasses
        by_cases hj : j = i
        · subst hj
          rw [Function.update_self]
          exact bypass_step (hbypass j) hfound hstep
        · rw [Function.update_of_ne hj]
          exact hbypass j
  exact hind.reachable h

/-- What a step of the group means for the process `i`: it is past the check only by
passing it, with the HP process idle, or because it was. -/
theorem group_past_step {s t : BeGroup ι} {a : GroupAction ι}
    (hs : (groupSystem cfg fp alive).Reachable s) (h : GroupStep cfg fp alive s a t) (i : ι) :
    ((t.procs i).pc.PastCheck → a.passesCheck i = true ∨
      (s.procs i).pc.PastCheck ∧ a.submits i = false ∧ a.begins i = false) ∧
    (a.submits i = true → (s.procs i).pc.PastCheck ∧ ¬ (t.procs i).pc.PastCheck) ∧
    (a.passesCheck i = true → s.shared.hpState ≠ .active) := by
  obtain ⟨hregistered, hbypass⟩ := registered_reachable hs
  cases h with
  | markActive now => exact ⟨fun hpast => .inr ⟨hpast, rfl, rfl⟩, nofun, nofun⟩
  | markIdle now => exact ⟨fun hpast => .inr ⟨hpast, rfl, rfl⟩, nofun, nofun⟩
  | be j a p m hstep hsees =>
    obtain ⟨-, -, hidle⟩ := hsees.of_alive hregistered
    by_cases hj : i = j
    · subst hj
      have hupdate : (Function.update s.procs i p i) = p := Function.update_self ..
      refine ⟨fun hpast => ?_, fun hsubmits => ?_, fun hpasses => ?_⟩
      · change (Function.update s.procs i p i).pc.PastCheck at hpast
        rw [hupdate] at hpast
        rcases past_step (hbypass i) hstep hpast with hpasses | ⟨hpast, hlaunch, hbefore⟩
        · refine .inl ?_
          cases a with
          | idle timing now => exact decide_eq_true rfl
          | survivalIdle => exact decide_eq_true rfl
          | _ => exact absurd hpasses id
        · refine .inr ⟨hpast, ?_, ?_⟩
          · cases a with
            | launch ok => exact absurd rfl (hlaunch ok)
            | _ => rfl
          · cases a with
            | before c => exact absurd rfl (hbefore c)
            | _ => rfl
      · show (s.procs i).pc.PastCheck ∧ ¬ (Function.update s.procs i p i).pc.PastCheck
        rw [hupdate]
        cases a with
        | launch ok => exact launch_past hstep
        | _ => cases hsubmits
      · refine hidle ?_
        cases a with
        | idle timing now => trivial
        | survivalIdle => trivial
        | _ => cases hpasses
    · -- a step of another process
      have hne : decide (j = i) = false := decide_eq_false (Ne.symm hj)
      have hother : ∀ b : GroupAction ι, b = .be j a →
          b.submits i = false ∧ b.begins i = false ∧ b.passesCheck i = false := by
        rintro b rfl
        cases a <;> simp [GroupAction.submits, GroupAction.begins, GroupAction.passesCheck, hne]
      obtain ⟨hsubmits, hbegins, hpasses⟩ := hother _ rfl
      refine ⟨fun hpast => ?_, fun h => ?_, fun h => ?_⟩
      · change (Function.update s.procs j p i).pc.PastCheck at hpast
        rw [Function.update_of_ne hj] at hpast
        exact .inr ⟨hpast, hsubmits, hbegins⟩
      · rw [hsubmits] at h
        cases h
      · rw [hpasses] at h
        cases h

/-- Over a run: a process that is past the check passed it since it began the
launch. -/
theorem checked_of_past {tr : List (BeGroup ι × GroupAction ι)} {s : BeGroup ι}
    (h : (groupSystem cfg fp alive).Run tr s) (i : ι) (hpast : (s.procs i).pc.PastCheck) :
    ∃ tr₁ y tr₂, tr = tr₁ ++ y :: tr₂ ∧ y.2.passesCheck i = true ∧
      ∀ z ∈ tr₂, z.2.begins i = false ∧ z.2.passesCheck i = false := by
  induction h with
  | init h =>
    rw [(h.procs i).pc] at hpast
    exact absurd hpast id
  | @step tr s t a hrun hstep ih =>
    by_cases hpasses : a.passesCheck i = true
    · exact ⟨tr, (s, a), [], rfl, hpasses, fun _ hz => nomatch hz⟩
    · have hs := hrun.reachable
      rcases (group_past_step hs hstep i).1 hpast with h | ⟨hpast, -, hbegins⟩
      · exact absurd h hpasses
      · obtain ⟨tr₁, y, tr₂, rfl, hy, hz⟩ := ih hpast
        refine ⟨tr₁, y, tr₂ ++ [(s, a)], by simp, hy, fun z hmem => ?_⟩
        rcases List.mem_append.mp hmem with hmem | hmem
        · exact hz z hmem
        · rw [List.mem_singleton.mp hmem]
          exact ⟨hbegins, Bool.eq_false_iff.mpr hpasses⟩

/-- While the HP process is active a process submits at most once, and is not past
the check again afterwards. -/
theorem submits_while_active {pre mid : List (BeGroup ι × GroupAction ι)} {s : BeGroup ι}
    (h : (groupSystem cfg fp alive).Run (pre ++ mid) s)
    (hactive : ∀ x ∈ mid, x.1.shared.hpState = .active) (i : ι) :
    mid.countP (fun x => x.2.submits i) = 0 ∨
      mid.countP (fun x => x.2.submits i) = 1 ∧ ¬ (s.procs i).pc.PastCheck := by
  induction mid using List.reverseRecOn generalizing s with
  | nil => exact .inl rfl
  | append_singleton mid x ih =>
    obtain ⟨u, a⟩ := x
    rw [← List.append_assoc] at h
    generalize htr : pre ++ mid ++ [(u, a)] = tr at h
    cases h with
    | init h => exact absurd htr (by simp)
    | @step tr' u' t a' hrun hstep =>
      obtain ⟨rfl, hx⟩ := List.append_inj' htr rfl
      obtain ⟨rfl, rfl⟩ := Prod.mk.inj (List.singleton_inj.mp hx)
      have hu : u.shared.hpState = .active := hactive (u, a) (by simp)
      obtain ⟨hpast, hsubmit, hidle⟩ := group_past_step hrun.reachable hstep i
      have hnot : ¬ a.passesCheck i = true := fun hpasses => hidle hpasses hu
      rw [List.countP_append, List.countP_singleton]
      rcases ih hrun fun x hx => hactive x (List.mem_append_left _ hx) with hnone | ⟨hone, hleft⟩
      · rw [hnone]
        cases hs : a.submits i with
        | false => exact .inl rfl
        | true => exact .inr ⟨rfl, (hsubmit hs).2⟩
      · -- it submitted already, so it is not past the check and cannot get there
        have hs : a.submits i = false := by
          by_contra hs
          exact hleft (hsubmit (eq_true_of_ne_false hs)).1
        rw [hone, hs]
        refine .inr ⟨rfl, fun h => ?_⟩
        rcases hpast h with h | ⟨h, -⟩
        · exact hnot h
        · exact hleft h

end

/-- In any part `mid` of a run in which the HP process is active throughout, every
BE process calls the driver to launch at most once, and the idle check of that
launch was passed before the part began. -/
theorem one_submission_per_active_interval {ι : Type} [DecidableEq ι] (cfg : ι → BeConfig)
    (fp : BeFloat) (alive : Pid → Bool) {pre mid : List (BeGroup ι × GroupAction ι)}
    {s : BeGroup ι} (h : (groupSystem cfg fp alive).Run (pre ++ mid) s)
    (hactive : ∀ x ∈ mid, x.1.shared.hpState = .active) (i : ι) :
    mid.countP (fun x => x.2.submits i) ≤ 1 ∧
      ∀ mid₁ x mid₂, mid = mid₁ ++ x :: mid₂ → x.2.submits i = true →
        ∃ pre₁ y pre₂, pre = pre₁ ++ y :: pre₂ ∧ y.2.passesCheck i = true ∧
          ∀ z ∈ pre₂ ++ mid₁, z.2.begins i = false ∧ z.2.passesCheck i = false := by
  constructor
  · rcases submits_while_active h hactive i with h | ⟨h, -⟩ <;> omega
  · rintro mid₁ x mid₂ rfl hsubmits
    rw [← List.append_assoc] at h
    obtain ⟨hrun, t, hstep⟩ := h.split
    have hpast := ((group_past_step hrun.reachable hstep i).2.1 hsubmits).1
    obtain ⟨tr₁, y, tr₂, htr, hy, hz⟩ := checked_of_past hrun i hpast
    -- the check cannot lie in the active part
    have hbefore : y ∉ mid₁ := by
      intro hmem
      obtain ⟨m₁, m₂, rfl⟩ := List.append_of_mem hmem
      rw [← List.append_assoc] at hrun
      obtain ⟨hrun', t', hstep'⟩ := hrun.split
      exact (group_past_step hrun'.reachable hstep' i).2.2 hy
        (hactive y (by simp))
    rcases List.append_eq_append_iff.mp htr with ⟨c, hc, hc'⟩ | ⟨c, hc, hc'⟩
    · rw [hc'] at hbefore
      exact absurd (List.mem_append_right _ List.mem_cons_self) hbefore
    · cases c with
      | nil =>
        have hmid : mid₁ = y :: tr₂ := hc'.symm
        rw [hmid] at hbefore
        exact absurd List.mem_cons_self hbefore
      | cons y' c =>
        obtain ⟨rfl, rfl⟩ := List.cons.inj hc'
        exact ⟨tr₁, y, c, hc, hy, hz⟩

/-! ## A launch that is overtaken by the HP process -/

/-- The segment after the HP process 10 registered. -/
def registeredShared : EventShared := liltEventHpRegister EventShared.zeroed 10 1

/-- The HP process becomes active between the check and the submission. -/
theorem one_submission_per_active_interval_late :
    ∃ (fp : BeFloat) (alive : Pid → Bool) (pre : List (BeGroup Unit × GroupAction Unit))
      (x : BeGroup Unit × GroupAction Unit) (s : BeGroup Unit),
      (groupSystem (fun _ => defaultConfig) fp alive).Run (pre ++ [x]) s ∧
        x.1.shared.hpState = .active ∧ x.2.submits () = true ∧
        ∃ pre₁ y pre₂, pre = pre₁ ++ y :: pre₂ ∧ y.2.passesCheck () = true := by
  let alive : Pid → Bool := fun pid => pid = 10
  let start : BeGroup Unit := { shared := registeredShared, procs := fun _ => startProcess }
  have h₀ : (groupSystem (fun _ => defaultConfig) plainFloat alive).Run [] start :=
    .init ⟨rfl, fun _ => startProcess_starts⟩
  have h₁ := h₀.step (GroupStep.be start () _ _ _
    (BeStep.before startProcess oneCall rfl) (.other _ trivial))
  obtain ⟨tr, h₂⟩ := h₁.leadsTo (leadsTo_group rfl (by rintro ⟨⟩) ()
    (leadsTo_submits (s := startProcess) (c := oneCall) (.inr ⟨_, rfl, rfl⟩)))
  have h₃ := h₂.step (GroupStep.markActive _ 5)
  have h₄ := h₃.step (GroupStep.be _ () _ _ _ (step_accepted (c := oneCall) rfl) (.other _ trivial))
  have h := one_submission_per_active_interval _ _ _ h₄
    (fun x hx => by rw [List.mem_singleton.mp hx]; rfl) ()
  obtain ⟨pre₁, y, pre₂, hpre, hy, -⟩ := h.2 [] _ [] rfl rfl
  exact ⟨plainFloat, alive, _, _, _, h₄, rfl, rfl, pre₁, y, pre₂, hpre, hy⟩

end Lilt.Be
