import Lilt.Driver.Handles
import Lilt.Tgs.Socket
import Mathlib.Data.Fintype.Card

/-!
# The workers of a device (`hp_intercept.c`, `be_intercept.c`)

The first launch on a device starts its workers: `rate_watcher` and `rate_monitor` in the
HP process, `rate_watcher` and `limit_manager` in the BE process. Whether it is the first
it sees by a flag, which it reads and then sets, without a lock. So two launches that come
at the same time may both start workers, one may go on while the other is still about to
start them, and both fill in the name of the device that the workers use.

- `Workers.step`: the launches up to the counter, statement by statement.
- `workers_started`: how many workers there are, and that the flag settles it.
- `workers_started_once`: one of each where no two launches look at the same time.
- `workers_meet`: whichever launches started them, the workers of the two processes use
  the same socket exactly if they are on the same device.

A thread can always be created. The calls that BE's `initialization` makes about the cache
are left out: when they fail it goes on.
-/

namespace Lilt.Tgs

open Lilt.Config Lilt.Driver Transition

/-! ## The launches -/

/-- Where a launch is in `rate_limiter` or `rate_estimator`. -/
inductive Starting where
  | idle
  /-- at `!g_active_gpu[device]` -/
  | testing (device : CUdevice)
  /-- at the call of `initialization` -/
  | found (device : CUdevice)
  /-- at `cuDeviceGetUuid` -/
  | asking (device : CUdevice)
  /-- in the loop over the bytes of the UUID -/
  | summing (device : CUdevice) (i : ℕ) (gpuId : ℤ)
  /-- at the start of the first worker -/
  | numbered (device : CUdevice)
  /-- at the start of the second -/
  | watched (device : CUdevice)
  /-- at the counter -/
  | counting (device : CUdevice)
  deriving DecidableEq

inductive StartOp where
  /-- A launch, with what `cuCtxGetDevice` answers. -/
  | call (device : Option CUdevice)
  /-- The driver answers `cuDeviceGetUuid`. -/
  | uuid (success : Bool)
  /-- Any other statement. -/
  | next
  deriving DecidableEq

/-- One of the processes. -/
structure Workers (ι : Type) where
  /-- `g_active_gpu` -/
  active : CUdevice → Bool
  /-- `g_uuid` -/
  uuid : CUdevice → CUuuid
  /-- `g_gpu_id` -/
  gpuId : CUdevice → ℤ
  threads : ι → Starting
  /-- The first workers of a device, by the threads whose launches started them, -/
  watchers : CUdevice → List ι
  /-- and the second ones. -/
  managers : CUdevice → List ι
  exited : Bool
  /-- The threads whose launches called `initialization`. -/
  initialisers : CUdevice → List ι

section workers

variable {ι : Type}

/-- The process as it is loaded. What is in `g_uuid` and `g_gpu_id` does not matter. -/
structure Workers.Initial (s : Workers ι) : Prop where
  active : ∀ d, s.active d = false
  threads : ∀ i, s.threads i = .idle
  watchers : ∀ d, s.watchers d = []
  managers : ∀ d, s.managers d = []
  initialisers : ∀ d, s.initialisers d = []

variable [DecidableEq ι]

def Workers.move (s : Workers ι) (i : ι) (thread : Starting) : Workers ι :=
  { s with threads := Function.update s.threads i thread }

/-- The process after the next statement of a launch. -/
def Workers.next (s : Workers ι) (i : ι) : Starting → Option (Workers ι)
  | .testing d => some (s.move i (if s.active d then .counting d else .found d))
  | .found d =>
    some { s.move i (.asking d) with
      active := Function.update s.active d true
      initialisers := Function.update s.initialisers d (i :: s.initialisers d) }
  | .summing d k gpuId =>
    if h : k < 16 then
      some (s.move i (.summing d (k + 1) (gpuId + (s.uuid d ⟨k, h⟩).toInt8.toInt)))
    else
      some { s.move i (.numbered d) with
        gpuId := Function.update s.gpuId d ((gpuId.tmod 8 + 8).tmod 8) }
  | .numbered d =>
    some { s.move i (.watched d) with
      watchers := Function.update s.watchers d (i :: s.watchers d) }
  | .watched d =>
    some { s.move i (.counting d) with
      managers := Function.update s.managers d (i :: s.managers d) }
  | .counting _ => some (s.move i .idle)
  | .idle | .asking _ => none

/-- The process after a step of the thread `i`, if it can take it. When the driver does not
know the UUID the process ends. -/
def Workers.step (deviceUuid : CUdevice → CUuuid) (s : Workers ι) (a : ι × StartOp) :
    Option (Workers ι) :=
  if s.exited then none
  else match a.2, s.threads a.1 with
    | .call device, .idle => some (s.move a.1 (.testing (device.getD 0)))
    | .uuid false, .asking _ => some { s with exited := true }
    | .uuid true, .asking d =>
      some { s.move a.1 (.summing d 0 0) with uuid := Function.update s.uuid d (deviceUuid d) }
    | .next, thread => s.next a.1 thread
    | _, _ => none

/-- The launches of all threads, in any order. -/
def startSystem (ι : Type) [DecidableEq ι] (deviceUuid : CUdevice → CUuuid) :
    System (Workers ι) (ι × StartOp) where
  Init := Workers.Initial
  Step s a t := s.step deviceUuid a = some t

variable {deviceUuid : CUdevice → CUuuid} {s t : Workers ι} {a : ι × StartOp} {d : CUdevice}

/-- What each step does. -/
inductive Workers.StepCases (deviceUuid : CUdevice → CUuuid) (s : Workers ι) (i : ι) :
    Workers ι → Prop where
  | call (device : Option CUdevice) : s.threads i = .idle →
      StepCases deviceUuid s i (s.move i (.testing (device.getD 0)))
  | look {d : CUdevice} : s.threads i = .testing d →
      StepCases deviceUuid s i (s.move i (if s.active d then .counting d else .found d))
  | initialise {d : CUdevice} : s.threads i = .found d →
      StepCases deviceUuid s i { s.move i (.asking d) with
        active := Function.update s.active d true
        initialisers := Function.update s.initialisers d (i :: s.initialisers d) }
  | fail {d : CUdevice} : s.threads i = .asking d →
      StepCases deviceUuid s i { s with exited := true }
  | answer {d : CUdevice} : s.threads i = .asking d →
      StepCases deviceUuid s i { s.move i (.summing d 0 0) with
        uuid := Function.update s.uuid d (deviceUuid d) }
  | sum {d : CUdevice} {k : ℕ} {gpuId : ℤ} (h : k < 16) : s.threads i = .summing d k gpuId →
      StepCases deviceUuid s i
        (s.move i (.summing d (k + 1) (gpuId + (s.uuid d ⟨k, h⟩).toInt8.toInt)))
  | store {d : CUdevice} {k : ℕ} {gpuId : ℤ} : ¬ k < 16 → s.threads i = .summing d k gpuId →
      StepCases deviceUuid s i { s.move i (.numbered d) with
        gpuId := Function.update s.gpuId d ((gpuId.tmod 8 + 8).tmod 8) }
  | watch {d : CUdevice} : s.threads i = .numbered d →
      StepCases deviceUuid s i { s.move i (.watched d) with
        watchers := Function.update s.watchers d (i :: s.watchers d) }
  | manage {d : CUdevice} : s.threads i = .watched d →
      StepCases deviceUuid s i { s.move i (.counting d) with
        managers := Function.update s.managers d (i :: s.managers d) }
  | count {d : CUdevice} : s.threads i = .counting d →
      StepCases deviceUuid s i (s.move i .idle)

/-- What a thread's next step can be. -/
theorem Workers.next_cases {i : ι} (h : s.next i (s.threads i) = some t) :
    StepCases deviceUuid s i t := by
  generalize hthread : s.threads i = thread at h
  cases thread with
  | idle => cases h
  | testing d =>
    obtain rfl := Option.some.inj h
    exact .look hthread
  | found d =>
    obtain rfl := Option.some.inj h
    exact .initialise hthread
  | asking d => cases h
  | summing d k gpuId =>
    simp only [Workers.next] at h
    split at h
    next hk =>
      obtain rfl := Option.some.inj h
      exact .sum hk hthread
    next hk =>
      obtain rfl := Option.some.inj h
      exact .store hk hthread
  | numbered d =>
    obtain rfl := Option.some.inj h
    exact .watch hthread
  | watched d =>
    obtain rfl := Option.some.inj h
    exact .manage hthread
  | counting d =>
    obtain rfl := Option.some.inj h
    exact .count hthread

/-- What a step of the threads can be. -/
theorem Workers.step_cases (h : s.step deviceUuid a = some t) :
    StepCases deviceUuid s a.1 t := by
  unfold Workers.step at h
  split at h
  next => cases h
  next =>
    split at h
    next device _ hthread =>
      obtain rfl := Option.some.inj h
      exact .call device hthread
    next hthread =>
      obtain rfl := Option.some.inj h
      exact .fail hthread
    next hthread =>
      obtain rfl := Option.some.inj h
      exact .answer hthread
    next => exact Workers.next_cases h
    next => cases h

/-! ## How many workers there are -/

/-- The workers that the launch has still to start. -/
def Starting.watcherAhead (d : CUdevice) : Starting → ℕ
  | .asking e | .summing e _ _ | .numbered e => if e = d then 1 else 0
  | _ => 0

def Starting.managerAhead (d : CUdevice) : Starting → ℕ
  | .asking e | .summing e _ _ | .numbered e | .watched e => if e = d then 1 else 0
  | _ => 0

/-- A thread that has a watcher to start has a manager to start. -/
theorem Starting.watcherAhead_le (d : CUdevice) (thread : Starting) :
    thread.watcherAhead d ≤ thread.managerAhead d := by
  cases thread <;> simp [Starting.watcherAhead, Starting.managerAhead]

/-- For every call of `initialization` by the thread there is a worker of either kind, or it
is still to be started; and there is at most one call. -/
structure AccountedAt (s : Workers ι) (i : ι) (d : CUdevice) : Prop where
  watchers : (s.watchers d).count i + (s.threads i).watcherAhead d = (s.initialisers d).count i
  managers : (s.managers d).count i + (s.threads i).managerAhead d = (s.initialisers d).count i
  once : (s.initialisers d).count i ≤ 1
  found : s.threads i = .found d → (s.initialisers d).count i = 0

/-- All calls are accounted for, and there are none exactly while the flag is not set. -/
structure Accounted (s : Workers ι) : Prop where
  inactive : ∀ d, s.active d = false ↔ s.initialisers d = []
  accounted : ∀ i d, AccountedAt s i d

section move

variable {i j : ι} {thread : Starting} {e : CUdevice} {l : CUdevice → List ι}

/-- An entry for one thread leaves the count of another. -/
theorem count_update_cons_ne (h : j ≠ i) :
    (Function.update l e (i :: l e) d).count j = (l d).count j := by
  by_cases hde : d = e
  · subst hde
    rw [Function.update_self, List.count_cons_of_ne h.symm]
  · rw [Function.update_of_ne hde]

/-- A new entry of a thread counts at the device it is for. -/
theorem count_update_cons_self :
    (Function.update l e (i :: l e) d).count i = (l d).count i + if e = d then 1 else 0 := by
  by_cases hde : d = e
  · subst hde
    rw [Function.update_self, List.count_cons_self, if_pos rfl]
  · rw [Function.update_of_ne hde, if_neg (Ne.symm hde), Nat.add_zero]

@[simp] theorem Workers.move_threads_self : (s.move i thread).threads i = thread :=
  Function.update_self ..

theorem Workers.move_threads_ne (h : j ≠ i) : (s.move i thread).threads j = s.threads j :=
  Function.update_of_ne h ..

/-- In a step of the thread `i` only what it does itself is to be accounted for. -/
theorem AccountedAt.congr (h : AccountedAt s j d) (hthread : t.threads j = s.threads j)
    (hwatchers : (t.watchers d).count j = (s.watchers d).count j)
    (hmanagers : (t.managers d).count j = (s.managers d).count j)
    (hinitialisers : (t.initialisers d).count j = (s.initialisers d).count j) :
    AccountedAt t j d where
  watchers := by rw [hwatchers, hthread, hinitialisers, h.watchers]
  managers := by rw [hmanagers, hthread, hinitialisers, h.managers]
  once := by rw [hinitialisers]; exact h.once
  found hfound := by rw [hinitialisers]; exact h.found (hthread ▸ hfound)

/-- A step in which no worker is started and `initialization` is not called. -/
theorem Accounted.of_move (h : Accounted s)
    (hthreads : t.threads = Function.update s.threads i thread)
    (hwatchers : t.watchers = s.watchers) (hmanagers : t.managers = s.managers)
    (hinitialisers : t.initialisers = s.initialisers) (hactive : t.active = s.active)
    (hwatcher : ∀ d, thread.watcherAhead d = (s.threads i).watcherAhead d)
    (hmanager : ∀ d, thread.managerAhead d = (s.threads i).managerAhead d)
    (hfound : ∀ d, thread = .found d → s.initialisers d = []) : Accounted t where
  inactive d := by
    rw [hactive, hinitialisers]
    exact h.inactive d
  accounted j d := by
    have hj := h.accounted j d
    by_cases hji : j = i
    · subst hji
      have hself : t.threads j = thread := by rw [hthreads, Function.update_self]
      exact { watchers := by rw [hself, hwatchers, hinitialisers, hwatcher]; exact hj.watchers
              managers := by rw [hself, hmanagers, hinitialisers, hmanager]; exact hj.managers
              once := by rw [hinitialisers]; exact hj.once
              found := fun hthread => by
                rw [hinitialisers, hfound d (hself.symm.trans hthread)]
                rfl }
    · have hother : t.threads j = s.threads j := by rw [hthreads, Function.update_of_ne hji]
      exact hj.congr hother (by rw [hwatchers]) (by rw [hmanagers]) (by rw [hinitialisers])

/-- The call of `initialization`. -/
theorem Accounted.initialise (h : Accounted s) (hthread : s.threads i = .found e) :
    Accounted { s.move i (.asking e) with
      active := Function.update s.active e true
      initialisers := Function.update s.initialisers e (i :: s.initialisers e) } where
  inactive d := by
    show Function.update s.active e true d = false ↔
      Function.update s.initialisers e (i :: s.initialisers e) d = []
    by_cases hde : d = e
    · subst hde
      rw [Function.update_self, Function.update_self]
      exact iff_of_false nofun (List.cons_ne_nil _ _)
    · rw [Function.update_of_ne hde, Function.update_of_ne hde]
      exact h.inactive d
  accounted j d := by
    have hj := h.accounted j d
    by_cases hji : j = i
    · subst hji
      have hwatchers := hj.watchers
      have hmanagers := hj.managers
      have honce := hj.once
      have hnone : e = d → (s.initialisers d).count j = 0 := fun hed => hj.found (hed ▸ hthread)
      rw [hthread] at hwatchers hmanagers
      constructor
      · simpa [count_update_cons_self, Starting.watcherAhead, Workers.move] using hwatchers
      · simpa [count_update_cons_self, Starting.managerAhead, Workers.move] using hmanagers
      · rw [count_update_cons_self]
        split
        next hed => rw [hnone hed]
        next => exact honce
      · simp
    · exact hj.congr (Workers.move_threads_ne hji) rfl rfl (count_update_cons_ne hji)

/-- The start of the first worker. -/
theorem Accounted.watch (h : Accounted s) (hthread : s.threads i = .numbered e) :
    Accounted { s.move i (.watched e) with
      watchers := Function.update s.watchers e (i :: s.watchers e) } where
  inactive := h.inactive
  accounted j d := by
    have hj := h.accounted j d
    by_cases hji : j = i
    · subst hji
      have hwatchers := hj.watchers
      have hmanagers := hj.managers
      rw [hthread] at hwatchers hmanagers
      constructor
      · simpa [count_update_cons_self, Starting.watcherAhead, Workers.move] using hwatchers
      · simpa [Starting.managerAhead, Workers.move] using hmanagers
      · exact hj.once
      · simp
    · exact hj.congr (Workers.move_threads_ne hji) (count_update_cons_ne hji) rfl rfl

/-- The start of the second. -/
theorem Accounted.manage (h : Accounted s) (hthread : s.threads i = .watched e) :
    Accounted { s.move i (.counting e) with
      managers := Function.update s.managers e (i :: s.managers e) } where
  inactive := h.inactive
  accounted j d := by
    have hj := h.accounted j d
    by_cases hji : j = i
    · subst hji
      have hwatchers := hj.watchers
      have hmanagers := hj.managers
      rw [hthread] at hwatchers hmanagers
      constructor
      · simpa [Starting.watcherAhead, Workers.move] using hwatchers
      · simpa [count_update_cons_self, Starting.managerAhead, Workers.move] using hmanagers
      · exact hj.once
      · simp
    · exact hj.congr (Workers.move_threads_ne hji) rfl (count_update_cons_ne hji) rfl

end move

/-- Every step keeps the accounts. -/
theorem Accounted.step {i : ι} (h : Accounted s) (hstep : s.StepCases deviceUuid i t) :
    Accounted t := by
  cases hstep with
  | call device hthread =>
    exact h.of_move rfl rfl rfl rfl rfl (by rw [hthread]; exact fun _ => rfl)
      (by rw [hthread]; exact fun _ => rfl) nofun
  | @look e hthread =>
    refine h.of_move rfl rfl rfl rfl rfl (fun d => ?_) (fun d => ?_) fun d hfound => ?_
    · rw [hthread]
      split <;> rfl
    · rw [hthread]
      split <;> rfl
    · split at hfound
      next => cases hfound
      next hinactive =>
        obtain rfl := Starting.found.inj hfound
        exact (h.inactive _).mp (Bool.eq_false_iff.mpr hinactive)
  | initialise hthread => exact h.initialise hthread
  | fail hthread =>
    exact { inactive := h.inactive
            accounted := fun j d => (h.accounted j d).congr rfl rfl rfl rfl }
  | answer hthread =>
    exact h.of_move rfl rfl rfl rfl rfl (by rw [hthread]; exact fun _ => rfl)
      (by rw [hthread]; exact fun _ => rfl) nofun
  | sum hk hthread =>
    exact h.of_move rfl rfl rfl rfl rfl (by rw [hthread]; exact fun _ => rfl)
      (by rw [hthread]; exact fun _ => rfl) nofun
  | store hk hthread =>
    exact h.of_move rfl rfl rfl rfl rfl (by rw [hthread]; exact fun _ => rfl)
      (by rw [hthread]; exact fun _ => rfl) nofun
  | watch hthread => exact h.watch hthread
  | manage hthread => exact h.manage hthread
  | count hthread =>
    exact h.of_move rfl rfl rfl rfl rfl (by rw [hthread]; exact fun _ => rfl)
      (by rw [hthread]; exact fun _ => rfl) nofun

/-- The accounts hold in every run. -/
theorem accounted_inductive : (startSystem ι deviceUuid).Inductive Accounted where
  init s h := by
    refine { inactive := fun d => iff_of_true (h.active d) (h.initialisers d)
             accounted := fun i d => ?_ }
    exact { watchers := by rw [h.watchers, h.threads, h.initialisers]; rfl
            managers := by rw [h.managers, h.threads, h.initialisers]; rfl
            once := by rw [h.initialisers]; exact Nat.zero_le 1
            found := fun _ => by rw [h.initialisers]; rfl }
  step s a t _ h hstep := h.step (Workers.step_cases hstep)

/-! ## What the workers find -/

/-- The sum of the first `k` bytes, as values of the type `char`. -/
def partialSum (uuid : CUuuid) (k : ℕ) : ℤ :=
  ((List.finRange 16).take k).foldl (fun gpuId i => gpuId + (uuid i).toInt8.toInt) 0

/-- One more byte of the sum. -/
theorem partialSum_succ (uuid : CUuuid) {k : ℕ} (hk : k < 16) :
    partialSum uuid (k + 1) = partialSum uuid k + (uuid ⟨k, hk⟩).toInt8.toInt := by
  have hlength : k < (List.finRange 16).length := by
    rw [List.length_finRange]
    exact hk
  rw [partialSum, List.take_succ_eq_append_getElem hlength, List.foldl_append,
    List.getElem_finRange]
  rfl

/-- The sum over all bytes. -/
theorem partialSum_all (uuid : CUuuid) : partialSum uuid 16 = byteSum uuid := rfl

section cells

omit [DecidableEq ι]

/-- The cells of the device are filled in. -/
structure Identified (deviceUuid : CUdevice → CUuuid) (s : Workers ι) (d : CUdevice) : Prop where
  uuid : s.uuid d = deviceUuid d
  gpuId : s.gpuId d = gpuId (deviceUuid d)

/-- What the launch knows of the device. -/
def Starting.Knows (deviceUuid : CUdevice → CUuuid) (s : Workers ι) : Starting → Prop
  | .summing d k gpuId =>
    s.uuid d = deviceUuid d ∧ k ≤ 16 ∧ gpuId = partialSum (deviceUuid d) k
  | .numbered d | .watched d => Identified deviceUuid s d
  | _ => True

structure Informed (deviceUuid : CUdevice → CUuuid) (s : Workers ι) : Prop where
  threads : ∀ i, (s.threads i).Knows deviceUuid s
  workers : ∀ d, s.watchers d ≠ [] → Identified deviceUuid s d

/-- The step writes nothing into the cells but what belongs there. -/
structure Keeps (deviceUuid : CUdevice → CUuuid) (s t : Workers ι) : Prop where
  uuid : ∀ d, s.uuid d = deviceUuid d → t.uuid d = deviceUuid d
  gpuId : ∀ d, s.gpuId d = gpuId (deviceUuid d) → t.gpuId d = gpuId (deviceUuid d)

/-- A device stays identified. -/
theorem Keeps.identified (h : Keeps deviceUuid s t) (hs : Identified deviceUuid s d) :
    Identified deviceUuid t d where
  uuid := h.uuid d hs.uuid
  gpuId := h.gpuId d hs.gpuId

theorem Keeps.of_eq (huuid : t.uuid = s.uuid) (hgpuId : t.gpuId = s.gpuId) :
    Keeps deviceUuid s t where
  uuid d h := by rw [huuid, h]
  gpuId d h := by rw [hgpuId, h]

/-- A thread goes on knowing what it has found out. -/
theorem Starting.Knows.keeps {thread : Starting} (h : thread.Knows deviceUuid s)
    (hkeeps : Keeps deviceUuid s t) : thread.Knows deviceUuid t := by
  cases thread with
  | summing d k gpuId => exact ⟨hkeeps.uuid d h.1, h.2⟩
  | numbered d => exact hkeeps.identified h
  | watched d => exact hkeeps.identified h
  | idle | testing | found | asking | counting => trivial

end cells

/-- In a step only the thread that takes it may learn something. -/
theorem Informed.of_move {i : ι} {thread : Starting} (h : Informed deviceUuid s)
    (hthreads : t.threads = Function.update s.threads i thread) (hkeeps : Keeps deviceUuid s t)
    (hthread : thread.Knows deviceUuid t)
    (hworkers : ∀ d, t.watchers d ≠ [] → s.watchers d = [] → Identified deviceUuid t d) :
    Informed deviceUuid t where
  threads j := by
    rw [hthreads]
    by_cases hji : j = i
    · subst hji
      rw [Function.update_self]
      exact hthread
    · rw [Function.update_of_ne hji]
      exact (h.threads j).keeps hkeeps
  workers d hd := by
    by_cases hnone : s.watchers d = []
    · exact hworkers d hd hnone
    · exact hkeeps.identified (h.workers d hnone)

/-- Every step keeps what the threads know. -/
theorem Informed.step {i : ι} (h : Informed deviceUuid s)
    (hstep : s.StepCases deviceUuid i t) : Informed deviceUuid t := by
  have hi := h.threads i
  cases hstep with
  | call device hthread =>
    exact h.of_move rfl (.of_eq rfl rfl) trivial fun d hd hnone => absurd hnone hd
  | look hthread =>
    refine h.of_move rfl (.of_eq rfl rfl) ?_ fun d hd hnone => absurd hnone hd
    split <;> trivial
  | initialise hthread =>
    exact h.of_move rfl (.of_eq rfl rfl) trivial fun d hd hnone => absurd hnone hd
  | fail hthread =>
    have hkeeps : Keeps deviceUuid s { s with exited := true } := .of_eq rfl rfl
    exact { threads := fun j => (h.threads j).keeps hkeeps
            workers := fun d hd => hkeeps.identified (h.workers d hd) }
  | @answer e hthread =>
    have hkeeps : Keeps deviceUuid s { s.move i (.summing e 0 0) with
        uuid := Function.update s.uuid e (deviceUuid e) } := by
      refine { uuid := fun d hd => ?_, gpuId := fun d hd => hd }
      by_cases hde : d = e
      · subst hde
        exact Function.update_self ..
      · exact (Function.update_of_ne hde ..).trans hd
    refine h.of_move rfl hkeeps ⟨Function.update_self .., Nat.zero_le 16, rfl⟩ ?_
    exact fun d hd hnone => absurd hnone hd
  | @sum e k gpuId hk hthread =>
    rw [hthread] at hi
    obtain ⟨huuid, -, hsum⟩ := hi
    refine h.of_move rfl (.of_eq rfl rfl) ⟨huuid, hk, ?_⟩ fun d hd hnone => absurd hnone hd
    rw [partialSum_succ _ hk, hsum, huuid]
  | @store e k gpuId hk hthread =>
    rw [hthread] at hi
    obtain ⟨huuid, hle, hsum⟩ := hi
    -- the loop is over, so all bytes are summed
    obtain rfl : k = 16 := by omega
    have hgpuId : (gpuId.tmod 8 + 8).tmod 8 = Tgs.gpuId (deviceUuid e) := by
      rw [hsum, partialSum_all]
      rfl
    have hkeeps : Keeps deviceUuid s { s.move i (.numbered e) with
        gpuId := Function.update s.gpuId e ((gpuId.tmod 8 + 8).tmod 8) } := by
      refine { uuid := fun d hd => hd, gpuId := fun d hd => ?_ }
      by_cases hde : d = e
      · subst hde
        exact (Function.update_self ..).trans hgpuId
      · exact (Function.update_of_ne hde ..).trans hd
    refine h.of_move rfl hkeeps ?_ fun d hd hnone => absurd hnone hd
    exact { uuid := huuid, gpuId := (Function.update_self ..).trans hgpuId }
  | @watch e hthread =>
    rw [hthread] at hi
    have hkeeps : Keeps deviceUuid s { s.move i (.watched e) with
        watchers := Function.update s.watchers e (i :: s.watchers e) } := .of_eq rfl rfl
    refine h.of_move rfl hkeeps (hkeeps.identified hi) fun d hd hnone => ?_
    by_cases hde : d = e
    · subst hde
      exact hkeeps.identified hi
    · exact absurd ((Function.update_of_ne hde ..).trans hnone) hd
  | manage hthread =>
    exact h.of_move rfl (.of_eq rfl rfl) trivial fun d hd hnone => absurd hnone hd
  | count hthread =>
    exact h.of_move rfl (.of_eq rfl rfl) trivial fun d hd hnone => absurd hnone hd

/-- What the threads know is right in every run. -/
theorem informed_inductive : (startSystem ι deviceUuid).Inductive (Informed deviceUuid) where
  init s h :=
    { threads := fun i => by rw [h.threads]; trivial
      workers := fun d hd => absurd (h.watchers d) hd }
  step s a t _ h hstep := h.step (Workers.step_cases hstep)

/-! ## The start of the workers -/

/-- The flag is set and nobody is about to set it again. -/
structure FlagSettled (d : CUdevice) (l : List ι) (s : Workers ι) : Prop where
  active : s.active d = true
  found : ∀ i, s.threads i ≠ .found d
  initialisers : s.initialisers d = l

/-- A step that leaves the flag and the calls alone. -/
theorem FlagSettled.of_move {l : List ι} {i : ι} {thread : Starting} (h : FlagSettled d l s)
    (hthreads : t.threads = Function.update s.threads i thread) (hthread : thread ≠ .found d)
    (hactive : t.active d = true) (hinitialisers : t.initialisers d = s.initialisers d) :
    FlagSettled d l t where
  active := hactive
  found j := by
    rw [hthreads]
    by_cases hji : j = i
    · subst hji
      rw [Function.update_self]
      exact hthread
    · rw [Function.update_of_ne hji]
      exact h.found j
  initialisers := hinitialisers.trans h.initialisers

/-- A flag that is settled stays so. -/
theorem FlagSettled.step {l : List ι} {i : ι} (h : FlagSettled d l s)
    (hstep : s.StepCases deviceUuid i t) : FlagSettled d l t := by
  cases hstep with
  | call device hthread => exact h.of_move rfl nofun h.active rfl
  | @look e hthread =>
    refine h.of_move rfl (fun hfound => ?_) h.active rfl
    split at hfound
    next => cases hfound
    next hinactive =>
      obtain rfl := Starting.found.inj hfound
      exact hinactive h.active
  | @initialise e hthread =>
    have hne : d ≠ e := fun hde => h.found i (hde ▸ hthread)
    refine h.of_move rfl nofun ?_ (Function.update_of_ne hne ..)
    exact (Function.update_of_ne hne ..).trans h.active
  | fail hthread => exact { active := h.active, found := h.found, initialisers := h.initialisers }
  | answer hthread => exact h.of_move rfl nofun h.active rfl
  | sum hk hthread => exact h.of_move rfl nofun h.active rfl
  | store hk hthread => exact h.of_move rfl nofun h.active rfl
  | watch hthread => exact h.of_move rfl nofun h.active rfl
  | manage hthread => exact h.of_move rfl nofun h.active rfl
  | count hthread => exact h.of_move rfl nofun h.active rfl

/-- A flag that is settled stays so throughout. -/
theorem flagSettled_inductive {l : List ι} (h : FlagSettled d l s) :
    ((startSystem ι deviceUuid).resume (· = s)).Inductive (FlagSettled d l) where
  init _ ht := ht ▸ h
  step _ _ _ _ h hstep := h.step (Workers.step_cases hstep)

/-- No thread starts two watchers of a device. -/
theorem Accounted.watchers_nodup (h : Accounted s) : (s.watchers d).Nodup := by
  refine List.nodup_iff_count_le_one.mpr fun i => ?_
  have hwatchers := (h.accounted i d).watchers
  have honce := (h.accounted i d).once
  omega

/-- Every watcher of a device was started by a thread that initialised it. -/
theorem Accounted.watchers_subperm (h : Accounted s) :
    (s.watchers d).Subperm (s.initialisers d) := by
  refine List.subperm_ext_iff.mpr fun i _ => ?_
  have hwatchers := (h.accounted i d).watchers
  omega

/-- The second worker is started after the first. -/
theorem Accounted.managers_subperm (h : Accounted s) :
    (s.managers d).Subperm (s.watchers d) := by
  refine List.subperm_ext_iff.mpr fun i _ => ?_
  have hwatchers := (h.accounted i d).watchers
  have hmanagers := (h.accounted i d).managers
  have hahead := (s.threads i).watcherAhead_le d
  omega

/-- When no worker is still to be started, there is one of each for every call. -/
theorem Accounted.workers_perm (h : Accounted s)
    (hquiet : ∀ i, (s.threads i).managerAhead d = 0) :
    (s.watchers d).Perm (s.initialisers d) ∧ (s.managers d).Perm (s.initialisers d) := by
  constructor
  · refine List.perm_iff_count.mpr fun i => ?_
    have hwatchers := (h.accounted i d).watchers
    have hahead := (s.threads i).watcherAhead_le d
    rw [hquiet i] at hahead
    omega
  · refine List.perm_iff_count.mpr fun i => ?_
    have hmanagers := (h.accounted i d).managers
    rw [hquiet i] at hmanagers
    omega

/-- A launch looks at the flag only while no other is between looking at it and setting
it. -/
def LooksAlone (s : Workers ι) (a : ι × StartOp) : Prop :=
  ∀ d, s.threads a.1 = .testing d → ∀ i, s.threads i ≠ .found d

/-- At most one launch finds that the flag is not set. -/
structure Solitary (s : Workers ι) : Prop where
  found : ∀ i d, s.threads i = .found d → s.active d = false
  unique : ∀ i j d, s.threads i = .found d → s.threads j = .found d → i = j
  once : ∀ d, (s.initialisers d).length ≤ 1

/-- A step after which no more launches have found so. -/
theorem Solitary.of_move {i : ι} {thread : Starting} (h : Solitary s)
    (hthreads : t.threads = Function.update s.threads i thread) (hthread : ∀ d, thread ≠ .found d)
    (hactive : t.active = s.active) (hinitialisers : t.initialisers = s.initialisers) :
    Solitary t := by
  have hfound : ∀ j d, t.threads j = .found d → s.threads j = .found d := by
    intro j d hj
    rw [hthreads] at hj
    by_cases hji : j = i
    · subst hji
      rw [Function.update_self] at hj
      exact absurd hj (hthread d)
    · rwa [Function.update_of_ne hji] at hj
  exact { found := fun j d hj => by rw [hactive]; exact h.found j d (hfound j d hj)
          unique := fun j k d hj hk => h.unique j k d (hfound j d hj) (hfound k d hk)
          once := by rw [hinitialisers]; exact h.once }

/-- A step keeps every device to one start if a launch looks at the flag alone. -/
theorem Solitary.step {i : ι} (h : Solitary s) (haccounted : Accounted s)
    (halone : ∀ d, s.threads i = .testing d → ∀ j, s.threads j ≠ .found d)
    (hstep : s.StepCases deviceUuid i t) : Solitary t := by
  cases hstep with
  | call device hthread => exact h.of_move rfl nofun rfl rfl
  | @look e hthread =>
    by_cases hactive : s.active e = true
    · rw [if_pos hactive]
      exact h.of_move rfl nofun rfl rfl
    · rw [if_neg hactive]
      -- the thread is the only one at `e`
      have hfound : ∀ j d, (s.move i (.found e)).threads j = .found d →
          j = i ∧ d = e ∨ j ≠ i ∧ s.threads j = .found d := by
        intro j d hj
        by_cases hji : j = i
        · subst hji
          rw [Workers.move_threads_self] at hj
          exact .inl ⟨rfl, (Starting.found.inj hj).symm⟩
        · rw [Workers.move_threads_ne hji] at hj
          exact .inr ⟨hji, hj⟩
      refine { found := fun j d hj => ?_, unique := fun j k d hj hk => ?_, once := h.once }
      · rcases hfound j d hj with ⟨-, rfl⟩ | ⟨-, hj⟩
        · exact Bool.eq_false_iff.mpr hactive
        · exact h.found j d hj
      · rcases hfound j d hj with ⟨rfl, rfl⟩ | ⟨-, hj'⟩
        · rcases hfound k d hk with ⟨rfl, -⟩ | ⟨-, hk'⟩
          · rfl
          · exact absurd hk' (halone d hthread k)
        · rcases hfound k d hk with ⟨rfl, rfl⟩ | ⟨-, hk'⟩
          · exact absurd hj' (halone d hthread j)
          · exact h.unique j k d hj' hk'
  | @initialise e hthread =>
    have hinactive := h.found i e hthread
    have hnone := (haccounted.inactive e).mp hinactive
    have hfound : ∀ j d, (s.move i (.asking e)).threads j = .found d →
        j ≠ i ∧ s.threads j = .found d := by
      intro j d hj
      by_cases hji : j = i
      · subst hji
        rw [Workers.move_threads_self] at hj
        cases hj
      · rw [Workers.move_threads_ne hji] at hj
        exact ⟨hji, hj⟩
    refine { found := fun j d hj => ?_, unique := fun j k d hj hk => ?_, once := fun d => ?_ }
    · obtain ⟨hji, hj⟩ := hfound j d hj
      have hne : d ≠ e := fun hde => hji (h.unique j i d hj (hde ▸ hthread))
      exact (Function.update_of_ne hne ..).trans (h.found j d hj)
    · exact h.unique j k d (hfound j d hj).2 (hfound k d hk).2
    · show (Function.update s.initialisers e (i :: s.initialisers e) d).length ≤ 1
      by_cases hde : d = e
      · subst hde
        rw [Function.update_self, hnone]
        exact Nat.le_refl 1
      · rw [Function.update_of_ne hde]
        exact h.once d
  | fail hthread => exact { found := h.found, unique := h.unique, once := h.once }
  | answer hthread => exact h.of_move rfl nofun rfl rfl
  | sum hk hthread => exact h.of_move rfl nofun rfl rfl
  | store hk hthread => exact h.of_move rfl nofun rfl rfl
  | watch hthread => exact h.of_move rfl nofun rfl rfl
  | manage hthread => exact h.of_move rfl nofun rfl rfl
  | count hthread => exact h.of_move rfl nofun rfl rfl

/-- When all threads look alone, each device is started once. -/
theorem solitary_inductive :
    ((startSystem ι deviceUuid).restrict LooksAlone).Inductive Solitary where
  init s h := by
    refine { found := fun i d hi => ?_, unique := fun i j d hi => ?_, once := fun d => ?_ }
    · rw [h.threads] at hi
      cases hi
    · rw [h.threads] at hi
      cases hi
    · rw [h.initialisers]
      exact Nat.zero_le 1
  step s a t hs h hstep :=
    h.step (accounted_inductive.reachable hs.of_restrict) hstep.1 (Workers.step_cases hstep.2)

/-- However the launches interleave: there are at most as many workers as threads, and of
the second kind no more than of the first. Once the flag is set and no launch is about to set
it, `initialization` is not called any more; and when no worker is still to be started, there
is one of each kind for every call. -/
theorem workers_started [Fintype ι] (h : (startSystem ι deviceUuid).Reachable s)
    (d : CUdevice) :
    (s.managers d).length ≤ (s.watchers d).length ∧
      (s.watchers d).length ≤ Fintype.card ι ∧
      (s.active d = true → (∀ i, s.threads i ≠ .found d) →
        ∀ t, ((startSystem ι deviceUuid).resume (· = s)).Reachable t →
          t.initialisers d = s.initialisers d ∧
          ((∀ i, (t.threads i).managerAhead d = 0) →
            (t.watchers d).Perm (s.initialisers d) ∧
              (t.managers d).Perm (s.initialisers d))) := by
  have haccounted := accounted_inductive.reachable h
  have hwatchers : (s.watchers d).Nodup := haccounted.watchers_nodup
  refine ⟨?_, hwatchers.length_le_card, fun hactive hfound t ht => ?_⟩
  · exact haccounted.managers_subperm.length_le
  · have hsettled : FlagSettled d (s.initialisers d) s :=
      { active := hactive, found := hfound, initialisers := rfl }
    have hinitialisers := ((flagSettled_inductive hsettled).reachable ht).initialisers
    refine ⟨hinitialisers, fun hquiet => ?_⟩
    rw [← hinitialisers]
    exact (accounted_inductive.reachable (ht.of_resume fun _ hs => hs ▸ h)).workers_perm hquiet

/-- A process as it is loaded. -/
def loadedWorkers (ι : Type) : Workers ι where
  active _ := false
  uuid _ _ := 0
  gpuId _ := 0
  threads _ := .idle
  watchers _ := []
  managers _ := []
  exited := false
  initialisers _ := []

omit [DecidableEq ι] in
/-- No thread has started anything when the proxy is loaded. -/
theorem loadedWorkers_initial : (loadedWorkers ι).Initial :=
  ⟨fun _ => rfl, fun _ => rfl, fun _ => rfl, fun _ => rfl, fun _ => rfl⟩

/-- The statements of `initialization` after the driver's answer. -/
def finishStart (i : ι) : List (ι × StartOp) := List.replicate 19 (i, .next)

/-- Two launches that both find that the flag is not set. -/
def startBoth : List (Bool × StartOp) :=
  [(false, .call (some 0)), (true, .call (some 0)), (false, .next), (true, .next),
    (false, .next), (true, .next), (false, .uuid true), (true, .uuid true)] ++
    finishStart false ++ finishStart true

/-- The device whose UUID has only threes. -/
def threes : CUdevice → CUuuid := fun _ _ => 3

/-- Two threads that look at the same time start everything twice. -/
theorem startBoth_reachable : ∃ s, (startSystem Bool threes).Reachable s ∧
    (s.watchers 0).length = 2 ∧ (s.managers 0).length = 2 ∧ s.active 0 = true ∧
      ∀ i, s.threads i = .counting 0 := by
  obtain ⟨s, hs⟩ : ∃ s, startBoth.foldlM (Workers.step threes) (loadedWorkers Bool) = some s :=
    Option.isSome_iff_exists.mp (by decide)
  have hinit : (startSystem Bool threes).Reachable (loadedWorkers Bool) :=
    .init loadedWorkers_initial
  have hreach := hinit.foldlM (fun _ _ _ hstep => hstep) hs
  have hend : (startBoth.foldlM (Workers.step threes) (loadedWorkers Bool)).map (fun s =>
      ((s.watchers 0).length, (s.managers 0).length, s.active 0, s.threads false,
        s.threads true)) = some (2, 2, true, .counting 0, .counting 0) := by decide
  rw [hs] at hend
  simp only [Option.map_some, Option.some.injEq, Prod.mk.injEq] at hend
  obtain ⟨hwatchers, hmanagers, hactive, hfalse, htrue⟩ := hend
  refine ⟨s, hreach, hwatchers, hmanagers, hactive, fun i => ?_⟩
  cases i with
  | false => exact hfalse
  | true => exact htrue

/-- The device has two workers of each kind from then on. -/
theorem workers_started_both : ∃ s : Workers Bool, (s.watchers 0).length = 2 ∧
    (s.managers 0).length ≤ (s.watchers 0).length ∧ (s.watchers 0).length ≤ Fintype.card Bool ∧
      ∀ t, ((startSystem Bool threes).resume (· = s)).Reachable t →
        t.initialisers 0 = s.initialisers 0 ∧
        ((∀ i, (t.threads i).managerAhead 0 = 0) →
          (t.watchers 0).Perm (s.initialisers 0) ∧ (t.managers 0).Perm (s.initialisers 0)) := by
  obtain ⟨s, hs, htwo, -, hactive, hthreads⟩ := startBoth_reachable
  obtain ⟨hle, hcard, hsettled⟩ := workers_started hs 0
  exact ⟨s, htwo, hle, hcard, hsettled hactive fun i => by rw [hthreads]; nofun⟩

/-- Where no two launches look at the flag at the same time, there is at most one worker of
each kind, and when the flag is set and no worker is still to be started, exactly one. -/
theorem workers_started_once (h : ((startSystem ι deviceUuid).restrict LooksAlone).Reachable s)
    (d : CUdevice) :
    (s.watchers d).length ≤ 1 ∧ (s.managers d).length ≤ 1 ∧
      (s.active d = true → (∀ i, (s.threads i).managerAhead d = 0) →
        (s.watchers d).length = 1 ∧ (s.managers d).length = 1) := by
  have haccounted := accounted_inductive.reachable h.of_restrict
  have honce := (solitary_inductive.reachable h).once d
  have hle : (s.watchers d).length ≤ (s.initialisers d).length :=
    haccounted.watchers_subperm.length_le
  have hmanagers := haccounted.managers_subperm (d := d)
  refine ⟨hle.trans honce, (hmanagers.length_le.trans hle).trans honce, fun hactive hquiet => ?_⟩
  have hsome : s.initialisers d ≠ [] := fun hnone =>
    Bool.eq_false_iff.mp ((haccounted.inactive d).mpr hnone) hactive
  have hone : (s.initialisers d).length = 1 :=
    Nat.le_antisymm honce (List.length_pos_iff.mpr hsome)
  obtain ⟨hwatchers, hmanagers⟩ := haccounted.workers_perm (d := d) hquiet
  exact ⟨hwatchers.length_eq.trans hone, hmanagers.length_eq.trans hone⟩

instance instDecidableLooksAlone [Fintype ι] (s : Workers ι) (a : ι × StartOp) :
    Decidable (LooksAlone s a) :=
  match h : s.threads a.1 with
  | .testing d =>
    decidable_of_iff (∀ i, s.threads i ≠ .found d)
      ⟨fun hall _ he => Starting.testing.inj (h.symm.trans he) ▸ hall, fun halone => halone d h⟩
  | .idle | .found _ | .asking _ | .summing .. | .numbered _ | .watched _ | .counting _ =>
    .isTrue fun _ he => Starting.noConfusion (h.symm.trans he)

/-- Two launches at once, the second of which looks when the flag is set. -/
def startInTurn : List (Bool × StartOp) :=
  [(false, .call (some 0)), (true, .call (some 0)), (false, .next), (false, .next),
    (true, .next), (false, .uuid true)] ++ finishStart false

/-- Two threads that look in turn start everything once. -/
theorem startInTurn_reachable :
    ∃ s, ((startSystem Bool threes).restrict LooksAlone).Reachable s ∧
      (s.managers 0).length = 1 ∧ s.active 0 = true ∧ ∀ i, s.threads i = .counting 0 := by
  let step : Workers Bool → Bool × StartOp → Option (Workers Bool) := fun s a =>
    if LooksAlone s a then s.step threes a else none
  obtain ⟨s, hs⟩ : ∃ s, startInTurn.foldlM step (loadedWorkers Bool) = some s :=
    Option.isSome_iff_exists.mp (by decide)
  have hinit : ((startSystem Bool threes).restrict LooksAlone).Reachable (loadedWorkers Bool) :=
    .init loadedWorkers_initial
  have hreach := hinit.foldlM_restrict (fun _ _ _ hstep => hstep) hs
  have hend : (startInTurn.foldlM step (loadedWorkers Bool)).map (fun s =>
      ((s.managers 0).length, s.active 0, s.threads false, s.threads true)) =
        some (1, true, .counting 0, .counting 0) := by decide
  rw [hs] at hend
  simp only [Option.map_some, Option.some.injEq, Prod.mk.injEq] at hend
  obtain ⟨hmanagers, hactive, hfalse, htrue⟩ := hend
  refine ⟨s, hreach, hmanagers, hactive, fun i => ?_⟩
  cases i with
  | false => exact hfalse
  | true => exact htrue

theorem workers_started_once_in_turn : ∃ s : Workers Bool, (∀ i, s.threads i = .counting 0) ∧
    (s.watchers 0).length = 1 ∧ (s.managers 0).length = 1 := by
  obtain ⟨s, hs, -, hactive, hthreads⟩ := startInTurn_reachable
  exact ⟨s, hthreads, (workers_started_once hs 0).2.2 hactive fun i => by rw [hthreads]; rfl⟩

/-- Whichever launches started them, and whatever launches are still starting more: the
workers of the two processes use the same socket exactly if they are on the same device, and
they are bound to the processor that its UUID gives. -/
theorem workers_meet {κ : Type} [DecidableEq κ] {hpUuid beUuid : CUdevice → CUuuid}
    {hp : Workers ι} {be : Workers κ} (hhp : (startSystem ι hpUuid).Reachable hp)
    (hbe : (startSystem κ beUuid).Reachable be) {d e : CUdevice} (hd : hp.watchers d ≠ [])
    (he : be.managers e ≠ []) {getenv : Env} (hshort : (socketDir getenv).length ≤ 69) :
    (clientPath getenv (hp.uuid d) = listenPath getenv (be.uuid e) ↔ hpUuid d = beUuid e) ∧
      hp.gpuId d = byteSum (hpUuid d) % 8 ∧ be.gpuId e = byteSum (beUuid e) % 8 := by
  have hwatchers : be.watchers e ≠ [] := by
    intro hnone
    have hle := ((accounted_inductive.reachable hbe).managers_subperm (d := e)).length_le
    rw [hnone] at hle
    exact he (List.length_eq_zero_iff.mp (Nat.le_zero.mp hle))
  have hclient := (informed_inductive.reachable hhp).workers d hd
  have hserver := (informed_inductive.reachable hbe).workers e hwatchers
  refine ⟨?_, hclient.gpuId.trans (gpuId_eq _), hserver.gpuId.trans (gpuId_eq _)⟩
  rw [hclient.uuid, hserver.uuid]
  exact socket_path_eq_iff_of_short hshort _ _

/-- Two HP launches at once, and two of a BE process that is on the same device. -/
theorem workers_meet_threes : ∃ (hp : Workers Bool) (be : Workers Bool),
    (clientPath (fun _ => none) (hp.uuid 0) = listenPath (fun _ => none) (be.uuid 0) ↔
      threes 0 = threes 0) ∧
      hp.gpuId 0 = byteSum (threes 0) % 8 ∧ be.gpuId 0 = byteSum (threes 0) % 8 := by
  obtain ⟨hp, hhp, hwatchers, -⟩ := startBoth_reachable
  obtain ⟨be, hbe, hmanagers, -⟩ := startInTurn_reachable
  refine ⟨hp, be, workers_meet hhp hbe.of_restrict (fun hnone => ?_) (fun hnone => ?_) (by decide)⟩
  · rw [hnone] at hwatchers
    cases hwatchers
  · rw [hnone] at hmanagers
    cases hmanagers

end workers

end Lilt.Tgs
