import Lilt.Activity.Leaving
import Lilt.Be.Group
import Lilt.Hp.Safety

/-!
# HP and BE processes on one device

The HP process of `hp_intercept.c` and the BE processes of `be_intercept.c` around one
segment. HP processes come and go, one at a time: each registers, launches, and ends with or
without its destructor, at any moment. The BE processes run all along, also while no HP process
is there, and clear what a dead one left. Every load, store, fetch-and-add and compare-exchange
on the segment is a step of its own (`Activity/Recovery.lean`, `Activity/Leaving.lean`), so that
a BE process that found an owner dead may meet the words of the next one.

- `HpSession`: an HP process that registered.
- `Colocated`, `ColocatedStep`: all the processes and their steps.
- `marking`: what a lock section of the HP process writes to the segment.
- `Returns`: what a BE process goes on with when a check returns.
- `Colocated.Busy`: unfinished work of an HP process that is there.
- `running_reachable`: the induction over the runs, for what holds of the HP process that is
  there and of the segment.

Between its last access and its return a check does nothing that others see, so the two are one
step. No HP process destroys a stream. Where the name of the segment is unlinked, no further HP
process comes to it.
-/

namespace Lilt.Colocation

open Lilt.Activity Lilt.Hp Lilt.Be Transition

/-! ## The processes -/

/-- An HP process between its registration and its end. -/
structure HpSession where
  pid : Pid
  cfg : HpConfig
  process : HpProcess
  /-- The accesses that the constructor, or the holder of `g_hp_event_lock`, has still to
  make. -/
  todo : List HpOp
  /-- Those of the destructor, once it unregisters. -/
  leaving : Option (List UnregisterOp)

/-- The HP process, the shared segment and the BE processes. -/
structure Colocated (ι : Type) where
  session : Option HpSession
  /-- The segment, with what the HP process that is there made of it. -/
  view : HpView
  /-- The name of the segment still leads to it. -/
  linked : Bool
  procs : ι → BeProcess
  /-- The accesses that each BE process has still to make in the check it is in. -/
  checks : ι → List BeOp

inductive ColocatedAction (ι : Type) where
  | register (pid : Pid) (now : UInt64)
  | hp (a : HpAction) (now : UInt64)
  | hpAccess
  | unregister
  | unregisterAccess
  | ended
  | check (i : ι)
  | access (i : ι)
  | be (i : ι) (a : BeAction)

/-! ## What the HP process writes -/

/-- What a lock section of the HP process has to write to the segment at its end.
`g_hp_state_active` is set and cleared together with the call that marks, once in a lock
section at most. -/
def marking (t t' : HpTracker) (now : UInt64) : List HpOp :=
  match t.stateActive, t'.stateActive with
  | false, true => [.markActiveLoad now]
  | true, false => [.markIdleLoad now]
  | _, _ => []

/-- The steps that may be taken while another thread holds `g_hp_event_lock`. A launch is not
among them: whoever holds the lock to mark is about to let the only launch in the hooks
through, or has found that there is none. -/
def unlocked : HpAction → Bool
  | .complete _ => true
  | .watcher a =>
    match a with
    | .check | .queryPass _ | .wake | .snapshot | .validate => false
    | _ => true
  | _ => false

/-- Nothing of the segment is the work of the process that comes now. -/
def unwritten (m : EventShared) : HpView where
  shared := m
  ownerTaken := false
  countTaken := false
  latest := none

/-! ## What a BE process reads -/

/-- The accesses of `lilt_event_be_wait_until_idle`; the others are of
`lilt_event_hp_owner`. -/
def ofWait : BeOp → Bool
  | .waitLoadState | .waitLoadOwner | .waitKill _ | .waitCas | .waitClearOwner => true
  | _ => false

/-- The first access of the check that the process is at. -/
def firstAccess : BePc → List BeOp
  | .startupWait _ | .ownerCheck _ => [.ownerLoad]
  | .idleCheck _ | .survivalIdle _ => [.waitLoadState]
  | _ => []

/-- What `lilt_event_hp_owner` returns if this access is its last. -/
def ownerFound (m : EventShared) : BeOp → Pid
  | .ownerKill owner => owner
  -- a compare-exchange that fails leaves what it found in `owner`
  | .ownerLoad | .ownerCas _ => m.hpOwnerPid
  | _ => 0

/-- The check whose last access is `o` returns, and the process goes on with `a`. The
snapshots of the timing statistics may be anything. -/
inductive Returns (m : EventShared) (o : BeOp) : BeAction → Prop where
  | startupPoll (ho : ofWait o = false) (expired : Bool) :
      Returns m o (.startupPoll (0 < ownerFound m o) expired)
  | ownerCheck (ho : ofWait o = false) : Returns m o (.ownerCheck (0 < ownerFound m o))
  | idle (ho : ofWait o = true) (timing : Option HpTiming) (now : UInt64) :
      Returns m o (.idle timing now)
  | survivalIdle (ho : ofWait o = true) : Returns m o .survivalIdle

/-- The steps that end a check. -/
def endsCheck : BeAction → Bool
  | .startupPoll _ _ | .ownerCheck _ | .idle _ _ | .survivalIdle => true
  | _ => false

section

variable {ι : Type} [DecidableEq ι]

/-- The process `i` made the access `o`. -/
def Colocated.accessed (s : Colocated ι) (alive : Pid → Bool) (i : ι) (o : BeOp)
    (rest : List BeOp) : Colocated ι :=
  { s with
    view := { s.view with shared := (beExec alive o s.view.shared).1 }
    checks := Function.update s.checks i ((beExec alive o s.view.shared).2 ++ rest) }

/-! ## The steps -/

inductive ColocatedStep (cfg : ι → BeConfig) (fp : BeFloat) :
    Colocated ι → ColocatedAction ι → Colocated ι → Prop where
  /-- `event_hp_process_start`, up to the first access of `lilt_event_hp_register`. -/
  | register (s : Colocated ι) (pid : Pid) (hpCfg : HpConfig) (p : HpProcess) (now : UInt64)
      (hnone : s.session = none) (hlinked : s.linked = true) (hpid : 0 < pid)
      (hstart : p.Starts) (hdevice : p.device.Sound) :
      ColocatedStep cfg fp s (.register pid now)
        { s with
          session := some
            { pid := pid
              cfg := hpCfg
              process := p
              todo := (hpExec pid (.registerLoadOwner now) (unwritten s.view.shared)).2
              leaving := none }
          view := (hpExec pid (.registerLoadOwner now) (unwritten s.view.shared)).1 }
  | hp (s : Colocated ι) (x : HpSession) (a : HpAction) (p : HpProcess) (now : UInt64)
      (hx : s.session = some x) (hfree : x.todo = [] ∨ unlocked a = true)
      (hstep : HpStep x.cfg x.process a p) :
      ColocatedStep cfg fp s (.hp a now)
        { s with
          session := some
            { x with
              process := p
              todo := x.todo ++ marking x.process.tracker p.tracker now } }
  | hpAccess (s : Colocated ι) (x : HpSession) (o : HpOp) (rest : List HpOp)
      (hx : s.session = some x) (htodo : x.todo = o :: rest) :
      ColocatedStep cfg fp s .hpAccess
        { s with
          session := some { x with todo := (hpExec x.pid o s.view).2 ++ rest }
          view := (hpExec x.pid o s.view).1 }
  /-- The destructor, which waits for the watcher but not for the device. -/
  | unregister (s : Colocated ι) (x : HpSession) (hx : s.session = some x)
      (hleaving : x.leaving = none) (hstop : x.process.tracker.stop = true)
      (hjoin : x.process.tracker.threadStarted = true → x.process.watcher = .exited) :
      ColocatedStep cfg fp s .unregister
        { s with session := some { x with leaving := some [.loadOwner] } }
  | unregisterAccess (s : Colocated ι) (x : HpSession) (o : UnregisterOp)
      (rest : List UnregisterOp) (m : NamedSegment) (next : List UnregisterOp)
      (hx : s.session = some x) (hleaving : x.leaving = some (o :: rest))
      (hexec : unregisterExec x.pid o ⟨s.view.shared, s.linked⟩ = (m, next)) :
      ColocatedStep cfg fp s .unregisterAccess
        { s with
          session := some { x with leaving := some (next ++ rest) }
          view := { s.view with shared := m.shared }
          linked := m.linked }
  /-- The process ends, wherever it is, and leaves the segment as it is. -/
  | ended (s : Colocated ι) (x : HpSession) (hx : s.session = some x) :
      ColocatedStep cfg fp s .ended { s with session := none }
  | check (s : Colocated ι) (i : ι) (hnone : s.checks i = [])
      (hcheck : firstAccess (s.procs i).pc ≠ []) :
      ColocatedStep cfg fp s (.check i)
        { s with checks := Function.update s.checks i (firstAccess (s.procs i).pc) }
  /-- `kill(pid, 0)` may answer anything for a process that is not the HP process. -/
  | access (s : Colocated ι) (i : ι) (o : BeOp) (rest : List BeOp) (alive : Pid → Bool)
      (halive : ∀ x ∈ s.session, alive x.pid = true) (ho : s.checks i = o :: rest)
      (hmore : (beExec alive o s.view.shared).2 ++ rest ≠ []) :
      ColocatedStep cfg fp s (.access i) (s.accessed alive i o rest)
  /-- The last access of a check. -/
  | returns (s : Colocated ι) (i : ι) (o : BeOp) (rest : List BeOp) (alive : Pid → Bool)
      (a : BeAction) (p : BeProcess) (halive : ∀ x ∈ s.session, alive x.pid = true)
      (ho : s.checks i = o :: rest) (hlast : (beExec alive o s.view.shared).2 ++ rest = [])
      (hreturns : Returns s.view.shared o a) (hstep : BeStep (cfg i) fp (s.procs i) a p) :
      ColocatedStep cfg fp s (.be i a)
        { s.accessed alive i o rest with procs := Function.update s.procs i p }
  /-- Meanwhile only the device goes on. -/
  | be (s : Colocated ι) (i : ι) (a : BeAction) (p : BeProcess) (hother : endsCheck a = false)
      (hfree : s.checks i = [] ∨ ∃ stream, a = .complete stream)
      (hstep : BeStep (cfg i) fp (s.procs i) a p) :
      ColocatedStep cfg fp s (.be i a) { s with procs := Function.update s.procs i p }

/-- No HP process is there and no BE process has launched. The segment may hold what an
earlier HP process left. -/
structure Colocated.Starts (s : Colocated ι) : Prop where
  session : s.session = none
  procs : ∀ i, (s.procs i).Starts
  checks : ∀ i, s.checks i = []

def colocatedSystem (cfg : ι → BeConfig) (fp : BeFloat) :
    System (Colocated ι) (ColocatedAction ι) where
  Init := Colocated.Starts
  Step := ColocatedStep cfg fp

/-- An HP process that does not unregister yet has a launch that `event_hp_before_launch` let
through and that is not finished. -/
def Colocated.Busy (s : Colocated ι) : Prop :=
  ∃ x ∈ s.session, x.leaving = none ∧ x.todo = [] ∧ x.process.Unfinished

/-! ## The induction over the runs -/

variable {cfg : ι → BeConfig} {fp : BeFloat} {C : Colocated ι → ColocatedAction ι → Prop}

/-- The process `i` may make its next access to the segment. -/
def MayAccess (C : Colocated ι → ColocatedAction ι → Prop) (s : Colocated ι) (i : ι) : Prop :=
  C s (.access i) ∨ ∃ a, endsCheck a = true ∧ C s (.be i a)

theorem Returns.endsCheck {m : EventShared} {o : BeOp} {a : BeAction} (h : Returns m o a) :
    endsCheck a = true := by
  cases h <;> rfl

/-- What holds when an HP process comes, and is kept by its steps and by the accesses of the
processes, holds while it is there and does not unregister yet. -/
theorem running_reachable {I : HpView → HpSession → Prop}
    (hregister : ∀ s pid hpCfg p now, C s (.register pid now) → 0 < pid → p.Starts →
      p.device.Sound → I (hpExec pid (.registerLoadOwner now) (unwritten s.view.shared)).1
        ⟨pid, hpCfg, p, (hpExec pid (.registerLoadOwner now) (unwritten s.view.shared)).2, none⟩)
    (hhp : ∀ s x a p now, s.session = some x → C s (.hp a now) → I s.view x →
      HpStep x.cfg x.process a p →
      I s.view
        { x with process := p, todo := x.todo ++ marking x.process.tracker p.tracker now })
    (hhpAccess : ∀ v x o rest, x.todo = o :: rest → I v x →
      I (hpExec x.pid o v).1 { x with todo := (hpExec x.pid o v).2 ++ rest })
    (haccess : ∀ s x i o rest alive, s.session = some x → x.leaving = none →
      s.checks i = o :: rest → MayAccess C s i → I s.view x →
      I { s.view with shared := (beExec alive o s.view.shared).1 } x)
    {s : Colocated ι} (h : ((colocatedSystem cfg fp).restrict C).Reachable s) :
    ∀ x ∈ s.session, x.leaving = none → I s.view x := by
  have hind : ((colocatedSystem cfg fp).restrict C).Inductive fun s =>
      ∀ x ∈ s.session, x.leaving = none → I s.view x := by
    constructor
    · intro s hs x hx
      rw [hs.session] at hx
      cases hx
    · rintro s a t - hI ⟨ha, hst⟩
      cases hst with
      | register pid hpCfg p now hnone hlinked hpid hstart hdevice =>
        rintro x ⟨⟩ -
        exact hregister s pid hpCfg p now ha hpid hstart hdevice
      | hp y a p now hy hfree hst =>
        rintro x ⟨⟩ hstays
        exact hhp s y a p now hy ha (hI y hy hstays) hst
      | hpAccess y o rest hy htodo =>
        rintro x ⟨⟩ hstays
        exact hhpAccess s.view y o rest htodo (hI y hy hstays)
      | unregister y hy hleaving hstop hjoin =>
        rintro x ⟨⟩ ⟨⟩
      | unregisterAccess y o rest m next hy hleaving hexec =>
        rintro x ⟨⟩ ⟨⟩
      | ended y hy =>
        rintro x ⟨⟩
      | check i hnone hcheck => exact hI
      | access i o rest alive halive ho hmore =>
        exact fun x hx hstays => haccess s x i o rest alive hx hstays ho (.inl ha) (hI x hx hstays)
      | returns i o rest alive a p halive ho hlast hreturns hst =>
        exact fun x hx hstays =>
          haccess s x i o rest alive hx hstays ho (.inr ⟨a, hreturns.endsCheck, ha⟩)
            (hI x hx hstays)
      | be i a p hother hfree hst => exact hI
  exact hind.reachable h

/-- Left alone, the HP process makes the accesses that it has still to make. -/
theorem leadsTo_hpAccesses (hC : ∀ s, C s .hpAccess) {p : List HpOp} {v v' : HpView}
    {x : HpSession} (hsolo : Atomic.Solo (hpExec x.pid) p v v') {s : Colocated ι}
    (hx : s.session = some { x with todo := p }) (hv : s.view = v) :
    ((colocatedSystem cfg fp).restrict C).LeadsTo s
      { s with session := some { x with todo := [] }, view := v' } := by
  induction hsolo generalizing s with
  | nil v =>
    subst hv
    have hsame : { s with session := some { x with todo := [] }, view := s.view } = s := by
      rw [← hx]
    rw [hsame]
    exact .refl s
  | @cons o rest v v' hsolo ih =>
    subst hv
    let t : Colocated ι :=
      { s with
        session := some { x with todo := (hpExec x.pid o s.view).2 ++ rest }
        view := (hpExec x.pid o s.view).1 }
    have hstep : ColocatedStep cfg fp s .hpAccess t :=
      .hpAccess s { x with todo := o :: rest } o rest hx rfl
    exact System.LeadsTo.step (S := (colocatedSystem cfg fp).restrict C) ⟨hC s, hstep⟩
      (ih (s := t) rfl rfl)

end

end Lilt.Colocation
