import Lilt.Lib.Gate
import Lilt.Lib.Transition
import Lilt.Tgs.Manager

/-!
# The throttle of the BE process (`be_intercept.c`)

Without the event policy every launch passes `rate_limiter`: it waits while the counter is
above the allowance and then adds its blocks to the counter. Every 50 ms a watcher reads
the counter and sets it back, and the limit manager moves the allowance. The cells are
shared without a lock, so here every access to one is a step of its own.

- `TgsDevice.step`: the launching threads, the watcher and the manager on one device.
- `service_controlled`: what holds of the allowance and the flag in every state.
- `throttle_bounded`: between two resets of the counter the launches exceed the allowance
  by at most one launch for each thread.
- `first_profile_bounded`: while a new HP process is profiled the first time, they add up
  to at most one launch for each thread.
- `launch_not_starved`: a launch that waits can go through after the next reset, with no
  step of the HP process, the manager or another launch.

The watcher and the manager are started once (`Lilt.Tgs.Workers` has when that is so).
`nanosleep` may take any time, so it is no step. A sum that leaves the range of `long long`
wraps around.
-/

namespace Lilt.Tgs

open Binary64 Transition

/-! ## The threads -/

/-- A thread that launches kernels. -/
inductive Launching where
  | idle
  /-- at the start of `launch_test` -/
  | testing (kernelSize : ℤ)
  /-- the flag was set -/
  | flagSet (kernelSize : ℤ)
  /-- one side of `g_rate_counter > g_rate_limit` has been read -/
  | counterRead (kernelSize rateCounter : ℤ)
  | limitRead (kernelSize rateLimit : ℤ)
  /-- in `nanosleep` -/
  | waiting (kernelSize : ℤ)
  /-- past the loop -/
  | adding (kernelSize : ℤ)
  deriving DecidableEq

/-- What such a thread does next. -/
inductive LaunchOp where
  /-- `rate_limiter` is called. -/
  | call (kernelSize : ℤ)
  | loadFlag
  | loadCounter
  | loadLimit
  | wake
  /-- `__sync_add_and_fetch_8` -/
  | add
  deriving DecidableEq

/-- The end of `launch_test`, where both sides are known. -/
def launchTest (kernelSize rateCounter rateLimit : ℤ) : Launching :=
  if rateLimit < rateCounter then .waiting kernelSize else .adding kernelSize

/-- The thread and `g_rate_counter` after the access. The two sides of the comparison may
be read in either order. -/
def Launching.exec (rateCounter : ℤ) (c : Control) :
    Launching → LaunchOp → Option (Launching × ℤ)
  | .idle, .call kernelSize => some (.testing kernelSize, rateCounter)
  | .testing kernelSize, .loadFlag =>
    some (if c.flag = 1 then .flagSet kernelSize else .adding kernelSize, rateCounter)
  | .flagSet kernelSize, .loadCounter => some (.counterRead kernelSize rateCounter, rateCounter)
  | .flagSet kernelSize, .loadLimit => some (.limitRead kernelSize c.rateLimit, rateCounter)
  | .counterRead kernelSize counter, .loadLimit =>
    some (launchTest kernelSize counter c.rateLimit, rateCounter)
  | .limitRead kernelSize limit, .loadCounter =>
    some (launchTest kernelSize rateCounter limit, rateCounter)
  | .waiting kernelSize, .wake => some (.testing kernelSize, rateCounter)
  | .adding kernelSize, .add => some (.idle, longLong (rateCounter + kernelSize))
  | _, _ => none

/-- The thread of `rate_watcher`. -/
inductive RateWatcher where
  | starting
  /-- in `nanosleep` -/
  | sleeping
  /-- `current_rate` has been read -/
  | loaded (currentRate : ℤ)
  /-- the counter has been set back -/
  | cleared (currentRate : ℤ)
  deriving DecidableEq

/-! ## One device -/

/-- The cells of one device and the threads that use them. -/
structure TgsDevice (ι : Type) where
  rateCounter : ℤ
  control : Control
  currentRate : ℤ
  threads : ι → Launching
  watcher : RateWatcher
  manager : Manager
  /-- what the manager does before it waits again -/
  todo : List Access

/-- Whose step it is. -/
inductive TgsAction (ι : Type) where
  | launch (i : ι) (op : LaunchOp)
  | watch
  /-- what the manager waits for returns -/
  | respond (value : Option Double)
  /-- the next access of the manager -/
  | access

section device

variable {ι : Type}

/-- The next access of the watcher. -/
def TgsDevice.watch (s : TgsDevice ι) : TgsDevice ι :=
  match s.watcher with
  | .starting => { s with rateCounter := 0, watcher := .sleeping }
  | .sleeping => { s with watcher := .loaded s.rateCounter }
  | .loaded currentRate => { s with rateCounter := 0, watcher := .cleared currentRate }
  | .cleared currentRate => { s with currentRate := currentRate, watcher := .sleeping }

section step

variable [DecidableEq ι]

/-- The device after a step, if the step is possible. -/
def TgsDevice.step (cfg : TgsSettings) (undefined : ℤ) (transfer : Bool) (s : TgsDevice ι) :
    TgsAction ι → Option (TgsDevice ι)
  | .launch i op =>
    (Launching.exec s.rateCounter s.control (s.threads i) op).map fun (thread, rateCounter) =>
      { s with rateCounter := rateCounter, threads := Function.update s.threads i thread }
  | .watch => some s.watch
  | .respond value =>
    match s.todo with
    | [] =>
      let response :=
        s.manager.received cfg undefined transfer s.control.rateLimit s.currentRate value
      some { s with manager := response.1, todo := response.2 }
    | _ :: _ => none
  | .access =>
    match s.todo with
    | [] => none
    | x :: rest => some { s with control := x.exec s.control, todo := rest }

/-- The device when its threads are started; the launching threads are anywhere. -/
structure TgsDevice.Initial (s : TgsDevice ι) : Prop where
  control : s.control = .initial
  watcher : s.watcher = .starting
  manager : s.manager = .initial
  todo : s.todo = []

/-- All interleavings on one device. -/
def tgsSystem (ι : Type) [DecidableEq ι] (cfg : TgsSettings) (undefined : ℤ)
    (transfer : Bool) : System (TgsDevice ι) (TgsAction ι) where
  Init := TgsDevice.Initial
  Step s a t := s.step cfg undefined transfer a = some t

variable {cfg : TgsSettings} {undefined : ℤ} {transfer : Bool} {s t : TgsDevice ι}

/-- What each step does. -/
inductive TgsDevice.StepCases (cfg : TgsSettings) (undefined : ℤ) (transfer : Bool)
    (s : TgsDevice ι) : TgsAction ι → TgsDevice ι → Prop where
  | launch {i : ι} {op : LaunchOp} {thread : Launching} {rateCounter : ℤ} :
      Launching.exec s.rateCounter s.control (s.threads i) op = some (thread, rateCounter) →
      StepCases cfg undefined transfer s (.launch i op)
        { s with rateCounter := rateCounter, threads := Function.update s.threads i thread }
  | watch : StepCases cfg undefined transfer s .watch s.watch
  | respond {value : Option Double} : s.todo = [] →
      StepCases cfg undefined transfer s (.respond value)
        { s with
          manager := (s.manager.received cfg undefined transfer s.control.rateLimit
            s.currentRate value).1
          todo := (s.manager.received cfg undefined transfer s.control.rateLimit
            s.currentRate value).2 }
  | access {x : Access} {rest : List Access} : s.todo = x :: rest →
      StepCases cfg undefined transfer s .access
        { s with control := x.exec s.control, todo := rest }

/-- What a step of the device can be. -/
theorem TgsDevice.step_cases {a : TgsAction ι} (h : s.step cfg undefined transfer a = some t) :
    StepCases cfg undefined transfer s a t := by
  cases a with
  | launch i op =>
    obtain ⟨⟨thread, rateCounter⟩, hexec, rfl⟩ := Option.map_eq_some_iff.mp h
    exact .launch hexec
  | watch =>
    obtain rfl := Option.some.inj h
    exact .watch
  | respond value =>
    simp only [TgsDevice.step] at h
    split at h
    next htodo =>
      obtain rfl := Option.some.inj h
      exact .respond htodo
    next => cases h
  | access =>
    simp only [TgsDevice.step] at h
    split at h
    next => cases h
    next htodo =>
      obtain rfl := Option.some.inj h
      exact .access htodo

end step

/-! ## The allowance and the flag -/

/-- The manager and the cells, also while it has not done everything yet that follows
from what it was told. -/
structure Controlled (s : TgsDevice ι) : Prop where
  /-- how they belong together afterwards -/
  settled : Settled s.manager (execAll s.todo s.control)
  safe : ∀ x ∈ s.todo, x.Safe
  range : 0 ≤ s.control.rateLimit ∧ s.control.rateLimit ≤ upperLimit
  flag : s.control.flag = 0 ∨ s.control.flag = 1
  /-- when the memory is transferred -/
  memory : ∀ pre rest, s.todo = pre ++ .memoryTransfer :: rest →
    execAll pre s.control = { rateLimit := 0, flag := 1 }

/-- The device is controlled at the start. -/
theorem controlled_initial (h : s.Initial) : Controlled s where
  settled := by
    rw [h.control, h.manager, h.todo]
    exact settled_initial
  safe := by
    rw [h.todo]
    exact fun x hx => absurd hx List.not_mem_nil
  range := by
    rw [h.control]
    exact ⟨le_refl _, upperLimit_nonneg⟩
  flag := by
    rw [h.control]
    exact .inl rfl
  memory pre rest htodo := by
    rw [h.todo] at htodo
    cases pre <;> cases htodo

/-- What the manager and the cells are about is not changed by the other threads. -/
theorem Controlled.congr (h : Controlled s) (hmanager : t.manager = s.manager)
    (hcontrol : t.control = s.control) (htodo : t.todo = s.todo) : Controlled t where
  settled := by
    rw [hmanager, hcontrol, htodo]
    exact h.settled
  safe := by
    rw [htodo]
    exact h.safe
  range := by
    rw [hcontrol]
    exact h.range
  flag := by
    rw [hcontrol]
    exact h.flag
  memory := by
    rw [htodo, hcontrol]
    exact h.memory

/-- A safe access keeps the allowance in its range. -/
theorem Access.exec_range {x : Access} (hx : x.Safe) {c : Control}
    (h : 0 ≤ c.rateLimit ∧ c.rateLimit ≤ upperLimit) :
    0 ≤ (x.exec c).rateLimit ∧ (x.exec c).rateLimit ≤ upperLimit := by
  cases x with
  | storeLimit value => exact hx
  | storeFlag value => exact h
  | memoryTransfer => exact h

/-- A safe access leaves the flag at zero or one. -/
theorem Access.exec_flag {x : Access} (hx : x.Safe) {c : Control} (h : c.flag = 0 ∨ c.flag = 1) :
    (x.exec c).flag = 0 ∨ (x.exec c).flag = 1 := by
  cases x with
  | storeLimit value => exact h
  | storeFlag value => exact hx
  | memoryTransfer => exact h

/-- The manager's next access keeps the device controlled. -/
theorem Controlled.access (h : Controlled s) {x : Access} {rest : List Access}
    (htodo : s.todo = x :: rest) :
    Controlled { s with control := x.exec s.control, todo := rest } where
  settled := by
    have hsettled := h.settled
    rw [htodo] at hsettled
    exact hsettled
  safe y hy := h.safe y (by rw [htodo]; exact List.mem_cons_of_mem x hy)
  range := Access.exec_range (h.safe x (by rw [htodo]; exact List.mem_cons_self)) h.range
  flag := Access.exec_flag (h.safe x (by rw [htodo]; exact List.mem_cons_self)) h.flag
  memory pre rest' hrest := by
    refine h.memory (x :: pre) rest' ?_
    rw [htodo]
    exact congrArg (x :: ·) hrest

/-- A response to a rate keeps the device controlled. -/
theorem Controlled.respond (h : Controlled s) (htodo : s.todo = []) (value : Option Double) :
    Controlled { s with
      manager := (s.manager.received cfg undefined transfer s.control.rateLimit
        s.currentRate value).1
      todo := (s.manager.received cfg undefined transfer s.control.rateLimit
        s.currentRate value).2 } := by
  have hsettled : Settled s.manager s.control := by
    have := h.settled
    rwa [htodo] at this
  have hreceived := received_settled cfg undefined hsettled transfer s.currentRate value
  refine { settled := hreceived.1, safe := hreceived.2, range := h.range, flag := h.flag
           memory := fun pre rest hpre => ?_ }
  replace hpre : (s.manager.received cfg undefined transfer s.control.rateLimit
      s.currentRate value).2 = pre ++ .memoryTransfer :: rest := hpre
  have hmem := hpre ▸ List.mem_append_right pre (List.mem_cons_self (l := rest))
  obtain ⟨hphase, hstores⟩ := received_transfer hmem
  have hconnected : s.manager.phase.connected = true := by rw [hphase]; rfl
  have hflag := hsettled.flag
  rw [if_pos hconnected] at hflag
  -- the transfer comes second, after the store of the allowance
  have hlist := hstores.symm.trans hpre
  cases pre with
  | nil => cases hlist
  | cons y pre =>
    obtain ⟨rfl, htail⟩ := List.cons.inj hlist
    cases pre with
    | nil =>
      show ({ rateLimit := 0, flag := s.control.flag } : Control) = _
      rw [hflag]
    | cons z pre =>
      obtain ⟨rfl, htail⟩ := List.cons.inj htail
      cases pre with
      | nil => cases htail
      | cons w pre =>
        obtain ⟨-, htail⟩ := List.cons.inj htail
        cases pre <;> cases htail

section run

variable [DecidableEq ι]

/-- One step of any thread. -/
theorem Controlled.step (h : Controlled s) {a : TgsAction ι}
    (hstep : s.step cfg undefined transfer a = some t) : Controlled t := by
  cases TgsDevice.step_cases hstep with
  | launch hexec => exact h.congr rfl rfl rfl
  | watch =>
    have hsame : s.watch.manager = s.manager ∧ s.watch.control = s.control ∧
        s.watch.todo = s.todo := by
      unfold TgsDevice.watch
      split <;> exact ⟨rfl, rfl, rfl⟩
    exact h.congr hsame.1 hsame.2.1 hsame.2.2
  | respond htodo => exact h.respond htodo _
  | access htodo => exact h.access htodo

/-- Every step keeps the device controlled. -/
theorem controlled_inductive : (tgsSystem ι cfg undefined transfer).Inductive Controlled where
  init _ hinit := controlled_initial hinit
  step _ _ _ _ hs hstep := hs.step hstep

/-- In every state the allowance is one that may be stored and the flag is 0 or 1. While
the manager waits, the flag is set exactly when an HP process is connected, and nothing is
allowed when there is none or when it has not been profiled yet. The memory is transferred
while launches are still held back. -/
theorem service_controlled (h : (tgsSystem ι cfg undefined transfer).Reachable s) :
    (0 ≤ s.control.rateLimit ∧ s.control.rateLimit ≤ upperLimit) ∧
      (s.control.flag = 0 ∨ s.control.flag = 1) ∧
      (s.todo = [] →
        (s.control.flag = 1 ↔ s.manager.phase.connected) ∧
        (s.manager.phase.connected = false → s.control.rateLimit = 0) ∧
        (s.manager.phase.connected → s.manager.profileRound = 1 → s.manager.cnt = 0 →
          s.control.rateLimit = 0)) ∧
      (∀ rest, s.todo = .memoryTransfer :: rest →
        s.control = { rateLimit := 0, flag := 1 }) := by
  have hs := controlled_inductive.reachable h
  refine ⟨hs.range, hs.flag, fun htodo => ?_, fun rest htodo => hs.memory [] rest htodo⟩
  have hsettled : Settled s.manager s.control := by
    have := hs.settled
    rwa [htodo] at this
  refine ⟨?_, hsettled.released, hsettled.first⟩
  rw [hsettled.flag]
  cases s.manager.phase.connected with
  | true => exact iff_of_true rfl rfl
  | false => exact iff_of_false Int.zero_ne_one Bool.false_ne_true

/-- The device before its first launch. -/
def TgsDevice.unused (ι : Type) : TgsDevice ι where
  rateCounter := 0
  control := .initial
  currentRate := 0
  threads _ := .idle
  watcher := .starting
  manager := .initial
  todo := []

/-- The same after an HP process has announced `maxRate` on a first connection and the
watcher has started. -/
def TgsDevice.announced (ι : Type) (maxRate : Double) : TgsDevice ι :=
  { TgsDevice.unused ι with
    control := { rateLimit := 0, flag := 1 }
    watcher := .sleeping
    manager := (Manager.profile
      { Manager.initial with maxRate := maxRate, recvRate := one, profileRound := 0 }).1 }

/-- One more step from a reachable state. -/
theorem TgsDevice.next_reachable (h : (tgsSystem ι cfg undefined transfer).Reachable s)
    (a : TgsAction ι) (hstep : s.step cfg undefined transfer a = some t) :
    (tgsSystem ι cfg undefined transfer).Reachable t := .step h hstep

/-- A device with an announced rate is reachable. -/
theorem announced_reachable (maxRate : Double) :
    (tgsSystem ι cfg undefined transfer).Reachable (TgsDevice.announced ι maxRate) := by
  have hinit : (tgsSystem ι cfg undefined transfer).Reachable (TgsDevice.unused ι) :=
    .init ⟨rfl, rfl, rfl, rfl⟩
  have haccepted := TgsDevice.next_reachable hinit (.respond none) rfl
  have hannounced := TgsDevice.next_reachable haccepted (.respond (some maxRate)) rfl
  -- the three stores, and the first one of the watcher
  have hfirst := TgsDevice.next_reachable hannounced .access rfl
  have hsecond := TgsDevice.next_reachable hfirst .access rfl
  have hthird := TgsDevice.next_reachable hsecond .access rfl
  exact TgsDevice.next_reachable hthird .watch rfl

end run

theorem service_controlled_announced : (TgsDevice.announced Unit one).control.flag = 1 := by
  have h : (tgsSystem Unit (tgsSettings fun _ => none) 0 true).Reachable
      (TgsDevice.announced Unit one) := announced_reachable one
  exact ((service_controlled h).2.2.1 rfl).1.mpr rfl

/-! ## How far the launches get -/

/-- What a thread adds for certain, or without another look at a counter that is above
`bound`. -/
def Launching.pending (bound : ℤ) : Launching → ℤ
  | .adding kernelSize => kernelSize
  | .counterRead kernelSize rateCounter => if rateCounter ≤ bound then kernelSize else 0
  | .limitRead kernelSize rateLimit => if bound < rateLimit then kernelSize else 0
  | .idle | .testing _ | .flagSet _ | .waiting _ => 0

/-- The blocks of the launch in hand. -/
def Launching.kernelSize : Launching → ℤ
  | .idle => 0
  | .testing kernelSize | .flagSet kernelSize | .counterRead kernelSize _
  | .limitRead kernelSize _ | .waiting kernelSize | .adding kernelSize => kernelSize

/-- The counter with what the threads may add to it. -/
def TgsDevice.gate (s : TgsDevice ι) (bound : ℤ) : Gate.State ι ℤ where
  counter := s.rateCounter
  pending i := (s.threads i).pending bound

/-- The counter was set back; each thread has its own largest launch. -/
structure Cleared (size : ι → ℤ) (s : TgsDevice ι) : Prop where
  counter : s.rateCounter = 0
  threads : ∀ i, 0 ≤ (s.threads i).kernelSize ∧ (s.threads i).kernelSize ≤ size i

/-- Launches are held back at an allowance of at most `bound`, and there is no larger one. -/
structure Throttled (bound : ℤ) (size : ι → ℤ) (s : TgsDevice ι) (a : TgsAction ι) : Prop where
  flag : s.control.flag = 1
  limit : s.control.rateLimit ≤ bound
  sized : ∀ i kernelSize, a = .launch i (.call kernelSize) →
    0 ≤ kernelSize ∧ kernelSize ≤ size i

/-- A test of a launch keeps its size. -/
theorem launchTest_kernelSize (kernelSize rateCounter rateLimit : ℤ) :
    (launchTest kernelSize rateCounter rateLimit).kernelSize = kernelSize := by
  unfold launchTest
  split <;> rfl

section throttle

variable {bound : ℤ} {thread thread' : Launching} {op : LaunchOp} {c : Control}
  {rateCounter rateCounter' : ℤ}

/-- What a launch may still add is at most its size. -/
theorem Launching.pending_mem (bound : ℤ) (h : 0 ≤ thread.kernelSize) :
    0 ≤ thread.pending bound ∧ thread.pending bound ≤ thread.kernelSize := by
  cases thread with
  | idle => exact ⟨le_refl _, le_refl _⟩
  | testing kernelSize => exact ⟨le_refl _, h⟩
  | flagSet kernelSize => exact ⟨le_refl _, h⟩
  | waiting kernelSize => exact ⟨le_refl _, h⟩
  | adding kernelSize => exact ⟨h, le_refl _⟩
  | counterRead kernelSize counter =>
    show 0 ≤ ite _ _ _ ∧ ite _ _ _ ≤ kernelSize
    split
    · exact ⟨h, le_refl _⟩
    · exact ⟨le_refl _, h⟩
  | limitRead kernelSize limit =>
    show 0 ≤ ite _ _ _ ∧ ite _ _ _ ≤ kernelSize
    split
    · exact ⟨h, le_refl _⟩
    · exact ⟨le_refl _, h⟩

/-- The launch in hand stays the same one until it is through. -/
theorem Launching.exec_kernelSize
    (h : thread.exec rateCounter c op = some (thread', rateCounter')) :
    thread'.kernelSize = thread.kernelSize ∨ op = .call thread'.kernelSize ∨
      (op = .add ∧ thread' = .idle) := by
  unfold Launching.exec at h
  split at h <;> cases h
  case h_1 => exact .inr (.inl rfl)
  case h_2 =>
    refine .inl ?_
    split <;> rfl
  case h_3 => exact .inl rfl
  case h_4 => exact .inl rfl
  case h_5 => exact .inl (launchTest_kernelSize _ _ _)
  case h_6 => exact .inl (launchTest_kernelSize _ _ _)
  case h_7 => exact .inl rfl
  case h_8 => exact .inr (.inr ⟨rfl, rfl⟩)

/-- What an access means for the amounts that are pending. -/
theorem Launching.exec_pending (hflag : c.flag = 1) (hlimit : c.rateLimit ≤ bound)
    (h : thread.exec rateCounter c op = some (thread', rateCounter')) :
    rateCounter' = rateCounter ∧
        (thread'.pending bound = thread.pending bound ∨ thread'.pending bound = 0 ∨
          rateCounter ≤ bound) ∨
      rateCounter' = longLong (rateCounter + thread.pending bound) ∧
        thread'.pending bound = 0 := by
  unfold Launching.exec at h
  split at h <;> cases h
  case h_1 => exact .inl ⟨rfl, .inl rfl⟩
  case h_2 kernelSize =>
    rw [if_pos hflag]
    exact .inl ⟨rfl, .inl rfl⟩
  case h_3 kernelSize =>
    by_cases hle : rateCounter ≤ bound
    · exact .inl ⟨rfl, .inr (.inr hle)⟩
    · exact .inl ⟨rfl, .inr (.inl (if_neg hle))⟩
  case h_4 kernelSize => exact .inl ⟨rfl, .inr (.inl (if_neg (not_lt.mpr hlimit)))⟩
  case h_5 kernelSize counter =>
    refine .inl ⟨rfl, ?_⟩
    unfold launchTest
    split
    next => exact .inr (.inl rfl)
    next hle =>
      -- the counter that was read is not above the allowance, so not above the bound
      have hcounter : counter ≤ bound := le_trans (not_lt.mp hle) hlimit
      exact .inl (if_pos hcounter).symm
  case h_6 kernelSize limit =>
    refine .inl ⟨rfl, ?_⟩
    unfold launchTest
    split
    next => exact .inr (.inl rfl)
    next hle =>
      by_cases hbound : bound < limit
      · exact .inl (if_pos hbound).symm
      · exact .inr (.inr (le_trans (not_lt.mp hle) (not_lt.mp hbound)))
  case h_7 => exact .inl ⟨rfl, .inl rfl⟩
  case h_8 => exact .inr ⟨rfl, rfl⟩

end throttle

/-- The invariant between two resets. -/
structure Admitted [Fintype ι] (bound : ℤ) (size : ι → ℤ) (s : TgsDevice ι) : Prop where
  counter : 0 ≤ s.rateCounter
  threads : ∀ i, 0 ≤ (s.threads i).kernelSize ∧ (s.threads i).kernelSize ≤ size i
  gate : Gate.Bounded bound size (s.gate bound)

section admitted

variable [Fintype ι] {bound : ℤ} {size : ι → ℤ}

/-- A counter that is not above the bound. -/
theorem Admitted.of_counter_le (hcounter : 0 ≤ s.rateCounter) (hle : s.rateCounter ≤ bound)
    (hthreads : ∀ i, 0 ≤ (s.threads i).kernelSize ∧ (s.threads i).kernelSize ≤ size i) :
    Admitted bound size s where
  counter := hcounter
  threads := hthreads
  gate := Gate.Bounded.of_counter_le
    (fun i => (Launching.pending_mem bound (hthreads i).1).1)
    (fun i => le_trans (Launching.pending_mem bound (hthreads i).1).2 (hthreads i).2) hle

/-- The bound speaks of the counter and the threads only. -/
theorem Admitted.congr (h : Admitted bound size s) (hcounter : t.rateCounter = s.rateCounter)
    (hthreads : t.threads = s.threads) : Admitted bound size t where
  counter := by
    rw [hcounter]
    exact h.counter
  threads := by
    rw [hthreads]
    exact h.threads
  gate := by
    unfold TgsDevice.gate
    rw [hcounter, hthreads]
    exact h.gate

/-- A step of the watcher keeps the bound. -/
theorem Admitted.watch (hbound : 0 ≤ bound) (h : Admitted bound size s) :
    Admitted bound size s.watch := by
  unfold TgsDevice.watch
  split
  · exact .of_counter_le (le_refl _) hbound h.threads
  · exact h.congr rfl rfl
  · exact .of_counter_le (le_refl _) hbound h.threads
  · exact h.congr rfl rfl

variable [DecidableEq ι]

/-- A step of a launch keeps the bound. -/
theorem Admitted.launch (hbound : 0 ≤ bound)
    (hrange : bound + ∑ i, size i < 2 ^ 63) (h : Admitted bound size s) {i : ι} {op : LaunchOp}
    (hthrottled : Throttled bound size s (.launch i op)) {thread : Launching} {rateCounter : ℤ}
    (hexec : (s.threads i).exec s.rateCounter s.control op = some (thread, rateCounter)) :
    Admitted bound size
      { s with rateCounter := rateCounter, threads := Function.update s.threads i thread } := by
  have hsize : 0 ≤ thread.kernelSize ∧ thread.kernelSize ≤ size i := by
    rcases Launching.exec_kernelSize hexec with hsame | hcall | ⟨-, hidle⟩
    · rw [hsame]
      exact h.threads i
    · exact hthrottled.sized i _ (congrArg _ hcall)
    · rw [hidle]
      exact ⟨le_refl _, le_trans (h.threads i).1 (h.threads i).2⟩
  have hthreads : ∀ j, 0 ≤ (Function.update s.threads i thread j).kernelSize ∧
      (Function.update s.threads i thread j).kernelSize ≤ size j :=
    (Function.forall_update_iff s.threads
      fun j th => 0 ≤ th.kernelSize ∧ th.kernelSize ≤ size j).mpr ⟨hsize, fun j _ => h.threads j⟩
  have hpending : (fun j => (Function.update s.threads i thread j).pending bound) =
      Function.update (s.gate bound).pending i (thread.pending bound) :=
    Function.comp_update (Launching.pending bound) s.threads i thread
  have hstep : 0 ≤ rateCounter ∧ Gate.Step bound size (s.gate bound)
      { counter := rateCounter
        pending := Function.update (s.gate bound).pending i (thread.pending bound) } := by
    rcases Launching.exec_pending hthrottled.flag hthrottled.limit hexec with
      ⟨rfl, hsame | hnone | hle⟩ | ⟨rfl, hnone⟩
    · have hupdate : Function.update (s.gate bound).pending i (thread.pending bound) =
          (s.gate bound).pending := by
        rw [hsame]
        exact Function.update_eq_self i (s.gate bound).pending
      rw [hupdate]
      exact ⟨h.counter, .stay _⟩
    · rw [hnone]
      exact ⟨h.counter, .withdraw _ i⟩
    · obtain ⟨hlow, hhigh⟩ := thread.pending_mem bound hsize.1
      exact ⟨h.counter, .enter _ i hle hlow (le_trans hhigh hsize.2)⟩
    · -- the sum does not leave the range
      have hlow : 0 ≤ s.rateCounter + (s.threads i).pending bound :=
        Int.add_nonneg h.counter (h.gate.nonneg i)
      have hhigh : s.rateCounter + (s.threads i).pending bound ≤ bound + ∑ i, size i :=
        h.gate.counter_add_le i
      rw [longLong_eq ⟨by omega, by omega⟩, hnone]
      exact ⟨hlow, .add _ i⟩
  refine ⟨hstep.1, hthreads, ?_⟩
  unfold TgsDevice.gate
  dsimp only
  rw [hpending]
  exact hstep.2.bounded hbound h.gate

/-- Every step of a throttled run keeps the bound. -/
theorem Admitted.step (hbound : 0 ≤ bound) (hrange : bound + ∑ i, size i < 2 ^ 63)
    (h : Admitted bound size s) {a : TgsAction ι} (hthrottled : Throttled bound size s a)
    (hstep : s.step cfg undefined transfer a = some t) : Admitted bound size t := by
  cases TgsDevice.step_cases hstep with
  | launch hexec => exact h.launch hbound hrange hthrottled hexec
  | watch => exact h.watch hbound
  | respond => exact h.congr rfl rfl
  | access => exact h.congr rfl rfl

/-- The bound holds throughout a throttled run from a cleared counter. -/
theorem admitted_inductive (hbound : 0 ≤ bound) (hrange : bound + ∑ i, size i < 2 ^ 63) :
    (((tgsSystem ι cfg undefined transfer).resume (Cleared size)).restrict
      (Throttled bound size)).Inductive (Admitted bound size) where
  init s hinit := by
    have hcounter := hinit.counter
    exact .of_counter_le (by omega) (by omega) hinit.threads
  step _ _ _ _ hs hstep := hs.step hbound hrange hstep.1 hstep.2

/-- Between two resets of the counter the launches of all threads together exceed the
largest allowance in that time by at most one launch for each thread, however the reads
and writes of the shared cells interleave. -/
theorem throttle_bounded (hbound : 0 ≤ bound) (hrange : bound + ∑ i, size i < 2 ^ 63)
    (h : (((tgsSystem ι cfg undefined transfer).resume (Cleared size)).restrict
      (Throttled bound size)).Reachable s) :
    0 ≤ s.rateCounter ∧ s.rateCounter ≤ bound + ∑ i, size i := by
  have hs := (admitted_inductive hbound hrange).reachable h
  exact ⟨hs.counter, hs.gate.counter_le⟩

/-- An access of a launch that has begun. -/
theorem throttled_next {kernelSize : ℤ} {u v : TgsDevice Unit}
    (h : (((tgsSystem Unit cfg undefined transfer).resume (Cleared fun _ => kernelSize)).restrict
      (Throttled 0 fun _ => kernelSize)).Reachable u)
    (hcontrol : u.control = { rateLimit := 0, flag := 1 }) (op : LaunchOp)
    (hop : ∀ n, op = .call n → 0 ≤ n ∧ n ≤ kernelSize)
    (hstep : u.step cfg undefined transfer (.launch () op) = some v) :
    (((tgsSystem Unit cfg undefined transfer).resume (Cleared fun _ => kernelSize)).restrict
      (Throttled 0 fun _ => kernelSize)).Reachable v := by
  have hthrottled : Throttled 0 (fun _ => kernelSize) u (.launch () op) :=
    { flag := by rw [hcontrol]
      limit := by rw [hcontrol]
      sized := fun i n hcall => hop n (TgsAction.launch.inj hcall).2 }
  exact .step h ⟨hthrottled, hstep⟩

/-- With an allowance of none a whole launch gets through. -/
theorem whole_launch_reachable (cfg : TgsSettings) (undefined : ℤ) (transfer : Bool)
    {kernelSize : ℤ} (hsize : 0 ≤ kernelSize) (maxRate : Double) :
    ∃ s, (((tgsSystem Unit cfg undefined transfer).resume
      (Cleared fun _ => kernelSize)).restrict (Throttled 0 fun _ => kernelSize)).Reachable s ∧
      s.rateCounter = longLong (0 + kernelSize) := by
  have hinit : (((tgsSystem Unit cfg undefined transfer).resume
      (Cleared fun _ => kernelSize)).restrict (Throttled 0 fun _ => kernelSize)).Reachable
      (TgsDevice.announced Unit maxRate) := .init ⟨rfl, fun _ => ⟨le_refl _, hsize⟩⟩
  have hcall := throttled_next hinit rfl (.call kernelSize)
    (fun n hn => LaunchOp.call.inj hn ▸ ⟨hsize, le_refl _⟩) rfl
  have hflag := throttled_next hcall rfl .loadFlag (fun _ hn => LaunchOp.noConfusion hn) rfl
  have hcounter := throttled_next hflag rfl .loadCounter (fun _ hn => LaunchOp.noConfusion hn) rfl
  have hlimit := throttled_next hcounter rfl .loadLimit (fun _ hn => LaunchOp.noConfusion hn) rfl
  have hadd := throttled_next hlimit rfl .add (fun _ hn => LaunchOp.noConfusion hn) rfl
  exact ⟨_, hadd, rfl⟩

theorem throttle_bounded_whole_launch :
    ∃ s : TgsDevice Unit, s.rateCounter = 5 ∧ s.rateCounter ≤ 0 + ∑ _ : Unit, 5 := by
  obtain ⟨s, hs, hcounter⟩ := whole_launch_reachable (tgsSettings fun _ => none) 0 true
    (Int.natCast_nonneg 5) one
  exact ⟨s, hcounter, (throttle_bounded (le_refl 0) (by decide) hs).2⟩

/-- A new HP process is connected and its first profile has not come to a report that
allows anything. -/
structure FirstProfile (size : ι → ℤ) (s : TgsDevice ι) (a : TgsAction ι) : Prop where
  todo : s.todo = []
  connected : s.manager.phase.connected = true
  round : s.manager.profileRound = 1
  cnt : s.manager.cnt = 0
  sized : ∀ i kernelSize, a = .launch i (.call kernelSize) →
    0 ≤ kernelSize ∧ kernelSize ≤ size i

/-- During the first profile of an HP process the launches that get through between two resets
of the counter have no more blocks than one launch of each thread, the largest. -/
theorem first_profile_bounded (hrange : ∑ i, size i < 2 ^ 63)
    (h : (((tgsSystem ι cfg undefined transfer).resume fun s =>
      (tgsSystem ι cfg undefined transfer).Reachable s ∧ Cleared size s).restrict
      (FirstProfile size)).Reachable s) :
    s.rateCounter ≤ ∑ i, size i := by
  have hinductive : (((tgsSystem ι cfg undefined transfer).resume fun s =>
      (tgsSystem ι cfg undefined transfer).Reachable s ∧ Cleared size s).restrict
      (FirstProfile size)).Inductive (Admitted 0 size) :=
    { init := fun s hinit => by
        have hcounter := hinit.2.counter
        exact .of_counter_le (by omega) (by omega) hinit.2.threads
      step := fun s a t hreachable hs hstep => by
        have hcontrolled := service_controlled
          (System.Reachable.of_resume (fun _ h => h.1) hreachable.of_restrict)
        obtain ⟨hconnected, -, hfirst⟩ := hcontrolled.2.2.1 hstep.1.todo
        have hthrottled : Throttled 0 size s a :=
          { flag := hconnected.mpr hstep.1.connected
            limit := le_of_eq (hfirst hstep.1.connected hstep.1.round hstep.1.cnt)
            sized := hstep.1.sized }
        exact hs.step (le_refl 0) (by omega) hthrottled hstep.2 }
  have hs := (hinductive.reachable h).gate.counter_le
  rw [zero_add] at hs
  exact hs

/-- An access of a launch when the manager is where the announcement left it. -/
theorem firstProfile_next {size : Bool → ℤ} {u v : TgsDevice Bool}
    (h : (((tgsSystem Bool cfg undefined transfer).resume fun s =>
      (tgsSystem Bool cfg undefined transfer).Reachable s ∧ Cleared size s).restrict
      (FirstProfile size)).Reachable u)
    (hmanager : u.manager = (TgsDevice.announced Bool one).manager) (htodo : u.todo = [])
    (i : Bool) (op : LaunchOp) (hop : ∀ n, op = .call n → 0 ≤ n ∧ n ≤ size i)
    (hstep : u.step cfg undefined transfer (.launch i op) = some v) :
    (((tgsSystem Bool cfg undefined transfer).resume fun s =>
      (tgsSystem Bool cfg undefined transfer).Reachable s ∧ Cleared size s).restrict
      (FirstProfile size)).Reachable v := by
  have hfirst : FirstProfile size u (.launch i op) :=
    { todo := htodo
      connected := by rw [hmanager]; rfl
      round := by rw [hmanager]; rfl
      cnt := by rw [hmanager]; rfl
      sized := by
        rintro j n ⟨⟩
        exact hop n rfl }
  exact .step h ⟨hfirst, hstep⟩

/-- Two threads look at the counter before either adds to it, and both launches get through. -/
theorem first_profile_bounded_both : ∃ s : TgsDevice Bool,
    s.rateCounter = 8 ∧ s.rateCounter ≤ ∑ b : Bool, if b then 5 else 3 := by
  let size : Bool → ℤ := fun b => if b then 5 else 3
  have hreached : (tgsSystem Bool (tgsSettings fun _ => none) 0 true).Reachable
      (TgsDevice.announced Bool one) := announced_reachable one
  have hsize : ∀ b, 0 ≤ size b := by decide
  have h₀ : (((tgsSystem Bool (tgsSettings fun _ => none) 0 true).resume fun s =>
      (tgsSystem Bool (tgsSettings fun _ => none) 0 true).Reachable s ∧ Cleared size s).restrict
      (FirstProfile size)).Reachable (TgsDevice.announced Bool one) :=
    .init ⟨hreached, rfl, fun b => ⟨le_refl _, hsize b⟩⟩
  have h₁ := firstProfile_next h₀ rfl rfl true (.call 5) (by rintro n ⟨⟩; decide) rfl
  have h₂ := firstProfile_next h₁ rfl rfl false (.call 3) (by rintro n ⟨⟩; decide) rfl
  have h₃ := firstProfile_next h₂ rfl rfl true .loadFlag (by rintro n ⟨⟩) rfl
  have h₄ := firstProfile_next h₃ rfl rfl false .loadFlag (by rintro n ⟨⟩) rfl
  have h₅ := firstProfile_next h₄ rfl rfl true .loadCounter (by rintro n ⟨⟩) rfl
  have h₆ := firstProfile_next h₅ rfl rfl false .loadCounter (by rintro n ⟨⟩) rfl
  have h₇ := firstProfile_next h₆ rfl rfl true .loadLimit (by rintro n ⟨⟩) rfl
  have h₈ := firstProfile_next h₇ rfl rfl false .loadLimit (by rintro n ⟨⟩) rfl
  have h₉ := firstProfile_next h₈ rfl rfl true .add (by rintro n ⟨⟩) rfl
  have h₁₀ := firstProfile_next h₉ rfl rfl false .add (by rintro n ⟨⟩) rfl
  exact ⟨_, rfl, first_profile_bounded (by decide) h₁₀⟩

end admitted

/-! ## No launch waits for somebody else -/

section through

variable [DecidableEq ι] {i : ι} {n : Nat}

/-- The start of a launch. -/
def LaunchOp.begins : LaunchOp → Bool
  | .call _ => true
  | .loadFlag | .loadCounter | .loadLimit | .wake | .add => false

/-- A step of the watcher, or one of a thread with the launch that it has begun. -/
inductive TgsAction.Alone (i : ι) : TgsAction ι → Prop where
  | watch : Alone i .watch
  | launch {op : LaunchOp} : op.begins = false → Alone i (.launch i op)

/-- At most `n` steps of the watcher and one thread get its launch through. -/
def Through (cfg : TgsSettings) (undefined : ℤ) (transfer : Bool) (n : Nat) (i : ι)
    (s : TgsDevice ι) : Prop :=
  ∃ actions t, (tgsSystem ι cfg undefined transfer).Path s actions t ∧ actions.length ≤ n ∧
    (∀ a ∈ actions, a.Alone i) ∧ t.threads i = .idle

/-- Another step of the watcher or of the launch may come first. -/
theorem Through.step (h : Through cfg undefined transfer n i t) {a : TgsAction ι}
    (ha : a.Alone i) (hstep : s.step cfg undefined transfer a = some t) :
    Through cfg undefined transfer (n + 1) i s := by
  obtain ⟨actions, u, hpath, hlength, hactions, hidle⟩ := h
  refine ⟨a :: actions, u, .cons hstep hpath, Nat.succ_le_succ hlength, fun b hb => ?_, hidle⟩
  rcases List.mem_cons.mp hb with rfl | hb
  · exact ha
  · exact hactions b hb

/-- A launch that gets through in fewer steps gets through in more. -/
theorem Through.mono {m : Nat} (h : Through cfg undefined transfer n i s) (hle : n ≤ m) :
    Through cfg undefined transfer m i s := by
  obtain ⟨actions, t, hpath, hlength, hactions⟩ := h
  exact ⟨actions, t, hpath, le_trans hlength hle, hactions⟩

/-- The device when the thread is somewhere else. -/
def TgsDevice.withThread (s : TgsDevice ι) (i : ι) (thread : Launching) : TgsDevice ι :=
  { s with threads := Function.update s.threads i thread }

/-- The thread that moves is where it moves to. -/
theorem TgsDevice.withThread_self (s : TgsDevice ι) (i : ι) (thread : Launching) :
    (s.withThread i thread).threads i = thread := by
  unfold TgsDevice.withThread
  exact Function.update_self i thread s.threads

/-- One more step of the launch itself. -/
theorem Through.launch {op : LaunchOp} {thread : Launching} (hop : op.begins = false)
    (hexec : (s.threads i).exec s.rateCounter s.control op = some (thread, s.rateCounter))
    (h : Through cfg undefined transfer n i (s.withThread i thread)) :
    Through cfg undefined transfer (n + 1) i s := by
  refine h.step (.launch hop) ?_
  unfold TgsDevice.step
  dsimp only
  rw [hexec]
  rfl

/-- A launch that adds its size is through. -/
theorem through_adding {kernelSize : ℤ} (h : s.threads i = .adding kernelSize) :
    Through cfg undefined transfer 1 i s := by
  refine Through.step (t := { s with
    rateCounter := longLong (s.rateCounter + kernelSize)
    threads := Function.update s.threads i .idle }) ?_ (a := .launch i .add) (.launch rfl) ?_
  · exact ⟨[], _, .nil _, le_refl _, fun _ ha => absurd ha List.not_mem_nil,
      Function.update_self i Launching.idle s.threads⟩
  · unfold TgsDevice.step
    dsimp only
    rw [h]
    rfl

/-- A thread that finds the counter set back goes through. -/
theorem through_testing (hlimit : 0 ≤ s.control.rateLimit) (hcounter : s.rateCounter = 0)
    {kernelSize : ℤ} (h : s.threads i = .testing kernelSize) :
    Through cfg undefined transfer 4 i s := by
  by_cases hflag : s.control.flag = 1
  · have hflagRead : (s.threads i).exec s.rateCounter s.control .loadFlag =
        some (.flagSet kernelSize, s.rateCounter) := by
      rw [h]
      show some (ite _ _ _, _) = _
      rw [if_pos hflag]
    refine Through.launch rfl hflagRead ?_
    have hcounterRead : ((s.withThread i (.flagSet kernelSize)).threads i).exec s.rateCounter
        s.control .loadCounter = some (.counterRead kernelSize s.rateCounter, s.rateCounter) := by
      rw [TgsDevice.withThread_self]
      rfl
    refine Through.launch rfl hcounterRead ?_
    have hlimitRead : (((s.withThread i (.flagSet kernelSize)).withThread i
        (.counterRead kernelSize s.rateCounter)).threads i).exec s.rateCounter s.control .loadLimit
          = some (.adding kernelSize, s.rateCounter) := by
      rw [TgsDevice.withThread_self]
      show some (launchTest _ _ _, _) = _
      rw [launchTest, if_neg (by omega)]
    exact Through.launch rfl hlimitRead (through_adding (TgsDevice.withThread_self _ _ _))
  · have hflagRead : (s.threads i).exec s.rateCounter s.control .loadFlag =
        some (.adding kernelSize, s.rateCounter) := by
      rw [h]
      show some (ite _ _ _, _) = _
      rw [if_neg hflag]
    exact (Through.launch rfl hflagRead (through_adding (TgsDevice.withThread_self _ _ _))).mono
      (by omega)

/-- A step of the watcher may come first. -/
theorem through_watch (h : Through cfg undefined transfer n i s.watch) :
    Through cfg undefined transfer (n + 1) i s := h.step .watch rfl

/-- The watcher sets the counter back within three steps. -/
theorem through_reset (h : ∀ t : TgsDevice ι, t.threads = s.threads → t.control = s.control →
    t.rateCounter = 0 → Through cfg undefined transfer n i t) :
    Through cfg undefined transfer (n + 3) i s := by
  have hloaded : ∀ (u : TgsDevice ι) (currentRate : ℤ), u.watcher = .loaded currentRate →
      u.threads = s.threads → u.control = s.control →
      Through cfg undefined transfer (n + 1) i u := by
    intro u currentRate hwatcher hthreads hcontrol
    have hwatch : u.watch = { u with rateCounter := 0, watcher := .cleared currentRate } := by
      unfold TgsDevice.watch
      rw [hwatcher]
    refine through_watch ?_
    rw [hwatch]
    exact h _ hthreads hcontrol rfl
  have hsleeping : ∀ u : TgsDevice ι, u.watcher = .sleeping → u.threads = s.threads →
      u.control = s.control → Through cfg undefined transfer (n + 2) i u := by
    intro u hwatcher hthreads hcontrol
    have hwatch : u.watch = { u with watcher := .loaded u.rateCounter } := by
      unfold TgsDevice.watch
      rw [hwatcher]
    refine through_watch ?_
    rw [hwatch]
    exact hloaded _ _ rfl hthreads hcontrol
  cases hwatcher : s.watcher with
  | starting =>
    have hwatch : s.watch = { s with rateCounter := 0, watcher := .sleeping } := by
      unfold TgsDevice.watch
      rw [hwatcher]
    refine (through_watch ?_).mono (m := n + 3) (by omega : n + 1 ≤ n + 3)
    rw [hwatch]
    exact h _ rfl rfl rfl
  | sleeping => exact (hsleeping s hwatcher rfl rfl).mono (by omega)
  | loaded currentRate => exact (hloaded s currentRate hwatcher rfl rfl).mono (by omega)
  | cleared currentRate =>
    have hwatch : s.watch = { s with currentRate := currentRate, watcher := .sleeping } := by
      unfold TgsDevice.watch
      rw [hwatcher]
    refine through_watch ?_
    rw [hwatch]
    exact hsleeping _ rfl rfl rfl

/-- A launch that tests gets through in seven steps, whatever the flag is. -/
theorem through_testing_any (hlimit : 0 ≤ s.control.rateLimit) {kernelSize : ℤ}
    (h : s.threads i = .testing kernelSize) : Through cfg undefined transfer 7 i s :=
  through_reset fun _ hthreads hcontrol hcounter =>
    through_testing (hcontrol ▸ hlimit) hcounter (hthreads ▸ h)

/-- A launch that waits gets through in eight. -/
theorem through_waiting (hlimit : 0 ≤ s.control.rateLimit) {kernelSize : ℤ}
    (h : s.threads i = .waiting kernelSize) : Through cfg undefined transfer 8 i s := by
  have hwake : (s.threads i).exec s.rateCounter s.control .wake =
      some (.testing kernelSize, s.rateCounter) := by rw [h]; rfl
  exact Through.launch rfl hwake
    (through_testing_any hlimit (TgsDevice.withThread_self _ _ _))

/-- An access after which both sides of the comparison are known. -/
theorem through_launchTest (hlimit : 0 ≤ s.control.rateLimit) (op : LaunchOp)
    (hop : op.begins = false) {kernelSize rateCounter rateLimit : ℤ}
    (hexec : (s.threads i).exec s.rateCounter s.control op =
      some (launchTest kernelSize rateCounter rateLimit, s.rateCounter)) :
    Through cfg undefined transfer 9 i s := by
  refine Through.launch hop hexec ?_
  by_cases hlt : rateLimit < rateCounter
  · have hwaiting : (s.withThread i (launchTest kernelSize rateCounter rateLimit)).threads i =
        .waiting kernelSize := (TgsDevice.withThread_self _ _ _).trans (if_pos hlt)
    exact through_waiting hlimit hwaiting
  · have hadding : (s.withThread i (launchTest kernelSize rateCounter rateLimit)).threads i =
        .adding kernelSize := (TgsDevice.withThread_self _ _ _).trans (if_neg hlt)
    exact (through_adding hadding).mono (by omega)

/-- A launch that has read the counter gets through in nine. -/
theorem through_counterRead (hlimit : 0 ≤ s.control.rateLimit) {kernelSize counter : ℤ}
    (h : s.threads i = .counterRead kernelSize counter) :
    Through cfg undefined transfer 9 i s :=
  through_launchTest hlimit .loadLimit rfl (by rw [h]; rfl)

/-- Whatever the threads have done so far: a launch in hand gets through within ten steps
of the watcher and its own thread, so it never has to wait for the HP process, the limit
manager or another launch. -/
theorem launch_not_starved (h : (tgsSystem ι cfg undefined transfer).Reachable s) (i : ι) :
    ∃ actions t, (tgsSystem ι cfg undefined transfer).Path s actions t ∧
      actions.length ≤ 10 ∧ (∀ a ∈ actions, a.Alone i) ∧ t.threads i = .idle := by
  have hlimit : 0 ≤ s.control.rateLimit := (controlled_inductive.reachable h).range.1
  show Through cfg undefined transfer 10 i s
  cases hthread : s.threads i with
  | idle => exact ⟨[], s, .nil s, Nat.zero_le _, fun _ ha => absurd ha List.not_mem_nil, hthread⟩
  | testing kernelSize => exact (through_testing_any hlimit hthread).mono (by omega)
  | flagSet kernelSize =>
    have hcounterRead : (s.threads i).exec s.rateCounter s.control .loadCounter =
        some (.counterRead kernelSize s.rateCounter, s.rateCounter) := by rw [hthread]; rfl
    exact Through.launch rfl hcounterRead
      (through_counterRead hlimit (TgsDevice.withThread_self _ _ _))
  | counterRead kernelSize counter => exact (through_counterRead hlimit hthread).mono (by omega)
  | limitRead kernelSize limit =>
    have hcounterRead : (s.threads i).exec s.rateCounter s.control .loadCounter =
        some (launchTest kernelSize s.rateCounter limit, s.rateCounter) := by rw [hthread]; rfl
    exact (through_launchTest hlimit .loadCounter rfl hcounterRead).mono (by omega)
  | waiting kernelSize => exact (through_waiting hlimit hthread).mono (by omega)
  | adding kernelSize => exact (through_adding hthread).mono (by omega)

/-- A launch of five blocks that was called when nothing is allowed. -/
theorem launch_not_starved_called :
    ∃ s : TgsDevice Unit, s.control = { rateLimit := 0, flag := 1 } ∧
      s.threads () = .testing 5 ∧
      ∃ actions t, (tgsSystem Unit (tgsSettings fun _ => none) 0 true).Path s actions t ∧
        actions.length ≤ 10 ∧ (∀ a ∈ actions, a.Alone ()) ∧ t.threads () = .idle := by
  have hannounced : (tgsSystem Unit (tgsSettings fun _ => none) 0 true).Reachable
      (TgsDevice.announced Unit one) := announced_reachable one
  have h := TgsDevice.next_reachable hannounced (.launch () (.call 5)) rfl
  exact ⟨_, rfl, rfl, launch_not_starved h ()⟩

end through

end device

end Lilt.Tgs
