import Lilt.Be.Reports
import Mathlib.Data.List.Nodup

/-!
# Memory accounting by several threads

The wrappers ask the driver first and change the list of ranges afterwards, under a
mutex of their own. So between the two another thread may come in: an address that the
driver has taken back may be handed out again before its range leaves the list, and
then there are two ranges at the address for a while. And a thread looks whether there
is a list without the mutex: two that find none make one each, and the ranges in the
first are lost.

- `MemoryThreads`: the account and the calls that are under way, by how far they are.
- `exec_eq_perform`: a call that nothing interrupts is the wrapper of `Be/Memory.lean`.
- `lost_stays_counted`: the counters are what is in the list and what is lost, and when
  nobody is about to make a list no range is lost any more.
- `Agreeing`: the driver's answers agree, and what is freed was allocated and recorded.
- `memory_balanced`: where none is lost either, the addresses in the list and on their
  way into it are those the driver holds and those on their way out.
- `memory_threads_exact`: where no address is handed out on its way out, the account is
  what the driver holds whenever no call is under way.
-/

namespace Lilt.Be

open Lilt.Driver Transition

/-! ## The calls, step by step -/

/-- A call of a function of the list. -/
inductive ListCall where
  /-- `allocate_mem` -/
  | insert (devPtr : CUdeviceptr) (count : UInt64) (device : CUdevice)
  /-- `delete_mem` -/
  | remove (devPtr : CUdeviceptr)
  /-- `memory_transfer_routine` -/
  | transfer (device : CUdevice)
  deriving DecidableEq

/-- What the call does under the mutex. -/
def ListCall.perform (m : MemoryAccount) : ListCall → MemoryAccount
  | .insert devPtr count device => allocateMem m devPtr count device
  | .remove devPtr => deleteMem m devPtr
  | .transfer _ => m

/-- The function of the list that a wrapper calls once the driver has answered. A failed
allocation leaves `*dptr` as it was. -/
def MemoryCall.listCall : MemoryCall → Option ListCall
  | .allocate call dptr o =>
    match o.getDevice with
    | .ok device =>
      match o.allocate with
      | .ok devPtr => some (.insert devPtr call.bytesize device)
      | .error _ => some (.insert dptr call.bytesize device)
    | .error _ => none
  | .free_v2 dptr ret | .free dptr ret =>
    if ret = cudaSuccess then some (.remove dptr) else none

/-- A wrapper does to the account what the function does that it calls. -/
theorem exec_eq_perform (m : MemoryAccount) (a : MemoryCall) :
    (a.exec m).1 = (a.listCall.map (ListCall.perform m)).getD m := by
  have hfree : ∀ (dptr : CUdeviceptr) (ret : CUresult),
      (if ret = cudaSuccess then deleteMem m dptr else m) =
        ((if ret = cudaSuccess then some (ListCall.remove dptr) else none).map
          (ListCall.perform m)).getD m := by
    intro dptr ret
    split <;> rfl
  cases a with
  | allocate call dptr o =>
    obtain ⟨allocate, getDevice, advise⟩ := o
    simp only [MemoryCall.exec, AllocCall.exec_eq, allocateManaged, MemoryCall.listCall]
    cases allocate <;> cases getDevice <;> rfl
  | free_v2 dptr ret => exact hfree dptr ret
  | free dptr ret => exact hfree dptr ret

/-- The process. Without a list there are no ranges. -/
structure MemoryThreads where
  /-- `list_head != NULL` -/
  created : Bool
  account : MemoryAccount
  /-- The calls that have not looked at `list_head` yet, -/
  checking : List ListCall
  /-- those that found none and go on to `init_list`, -/
  initialising : List ListCall
  /-- and those that wait for the mutex. -/
  ready : List ListCall
  /-- What the driver holds. -/
  held : List Allocation
  /-- The ranges of the lists that were replaced. -/
  lost : List MemRange

def MemoryThreads.initial : MemoryThreads where
  created := false
  account := ⟨0, [], 0⟩
  checking := []
  initialising := []
  ready := []
  held := []
  lost := []

/-- All calls under way. -/
def MemoryThreads.calls (s : MemoryThreads) : List ListCall :=
  s.checking ++ s.initialising ++ s.ready

/-- The call will put a range at the address into the list. -/
def ListCall.inserts (p : CUdeviceptr) : ListCall → Bool
  | .insert devPtr _ _ => devPtr = p
  | _ => false

/-- The call will take a range at the address out of it. -/
def ListCall.removes (p : CUdeviceptr) : ListCall → Bool
  | .remove devPtr => devPtr = p
  | _ => false

inductive MemoryThreadsAction where
  /-- A wrapper is called, the driver answers, and the call of the function of the list
  begins. -/
  | call (a : MemoryCall)
  /-- `memory_transfer_routine` begins. -/
  | transfer (device : CUdevice)
  /-- The call looks at `list_head`. -/
  | check (c : ListCall)
  /-- `init_list` -/
  | init (c : ListCall)
  /-- The call does its part under the mutex and returns. -/
  | run (c : ListCall)

/-- How many ranges, allocations and calls there are at the address. -/
def MemoryThreads.listed (s : MemoryThreads) (p : CUdeviceptr) : Nat :=
  s.account.ranges.countP fun x => x.devPtr = p

def MemoryThreads.holds (s : MemoryThreads) (p : CUdeviceptr) : Nat :=
  s.held.countP fun x => x.1 = p

def MemoryThreads.inserting (s : MemoryThreads) (p : CUdeviceptr) : Nat :=
  s.calls.countP (ListCall.inserts p)

def MemoryThreads.removing (s : MemoryThreads) (p : CUdeviceptr) : Nat :=
  s.calls.countP (ListCall.removes p)

/-- The driver hands out no address that it holds. -/
def MemoryThreads.fresh (s : MemoryThreads) : MemoryCall → Bool
  | .allocate _ _ o =>
    match o.allocate with
    | .ok devPtr => s.holds devPtr = 0
    | .error _ => true
  | .free_v2 _ _ | .free _ _ => true

def MemoryThreads.step (s : MemoryThreads) : MemoryThreadsAction → Option MemoryThreads
  | .call a =>
    if s.fresh a then
      some { s with held := a.holds s.held, checking := a.listCall.toList ++ s.checking }
    else none
  | .transfer device => some { s with checking := .transfer device :: s.checking }
  | .check c =>
    if c ∈ s.checking then
      let checking := s.checking.erase c
      if s.created then some { s with checking := checking, ready := c :: s.ready }
      else some { s with checking := checking, initialising := c :: s.initialising }
    else none
  | .init c =>
    if c ∈ s.initialising then
      some { s with
        created := true
        account := { s.account with ranges := [] }
        lost := s.account.ranges ++ s.lost
        initialising := s.initialising.erase c
        ready := c :: s.ready }
    else none
  | .run c =>
    if c ∈ s.ready then
      some { s with account := c.perform s.account, ready := s.ready.erase c }
    else none

/-- All interleavings of any number of calls. -/
def memoryThreads : System MemoryThreads MemoryThreadsAction where
  Init s := s = .initial
  Step s a t := s.step a = some t

/-! ## What a step does -/

section steps

variable {s t : MemoryThreads} {c : ListCall}

/-- A call is made while the driver can answer so. -/
theorem step_call {a : MemoryCall} (h : s.step (.call a) = some t) :
    s.fresh a = true ∧
      t = { s with held := a.holds s.held, checking := a.listCall.toList ++ s.checking } := by
  simp only [MemoryThreads.step] at h
  split at h
  next hfresh => exact ⟨hfresh, (Option.some.inj h).symm⟩
  next => cases h

/-- A transfer looks at the list first. -/
theorem step_transfer {device : CUdevice} (h : s.step (.transfer device) = some t) :
    t = { s with checking := .transfer device :: s.checking } := (Option.some.inj h).symm

/-- Behind the check the list exists or is to be created. -/
theorem step_check (h : s.step (.check c) = some t) :
    c ∈ s.checking ∧
      (s.created = true ∧ t = { s with checking := s.checking.erase c, ready := c :: s.ready } ∨
        s.created = false ∧
          t = { s with
            checking := s.checking.erase c, initialising := c :: s.initialising }) := by
  simp only [MemoryThreads.step] at h
  split at h
  next hc =>
    split at h
    next hcreated => exact ⟨hc, .inl ⟨hcreated, (Option.some.inj h).symm⟩⟩
    next hcreated =>
      exact ⟨hc, .inr ⟨Bool.eq_false_iff.mpr hcreated, (Option.some.inj h).symm⟩⟩
  next => cases h

/-- Creating the list loses what another thread put into it. -/
theorem step_init (h : s.step (.init c) = some t) :
    c ∈ s.initialising ∧
      t = { s with
        created := true
        account := { s.account with ranges := [] }
        lost := s.account.ranges ++ s.lost
        initialising := s.initialising.erase c
        ready := c :: s.ready } := by
  simp only [MemoryThreads.step] at h
  split at h
  next hc => exact ⟨hc, (Option.some.inj h).symm⟩
  next => cases h

/-- A change of the list is made once. -/
theorem step_run (h : s.step (.run c) = some t) :
    c ∈ s.ready ∧ t = { s with account := c.perform s.account, ready := s.ready.erase c } := by
  simp only [MemoryThreads.step] at h
  split at h
  next hc => exact ⟨hc, (Option.some.inj h).symm⟩
  next => cases h

end steps

/-! ## The counters -/

/-- Two lists of ranges count together. -/
theorem totalCount_append (r r' : List MemRange) :
    totalCount (r ++ r') = totalCount r + totalCount r' := by
  simp [totalCount]

/-- The counters are what the list holds and `lost` besides. -/
structure CountersWith (lost : List MemRange) (m : MemoryAccount) : Prop where
  used : m.usedMemory.toNat = (totalCount m.ranges + totalCount lost) % 2 ^ 64
  size : m.listSize.toNat = (m.ranges.length + lost.length) % 2 ^ 64

/-- Each change of the list changes the counters with it. -/
theorem CountersWith.perform {lost : List MemRange} {m : MemoryAccount} (h : CountersWith lost m)
    (c : ListCall) : CountersWith lost (c.perform m) := by
  have hused := h.used
  have hsize := h.size
  cases c with
  | insert devPtr count device =>
    constructor
    · show (m.usedMemory + count).toNat =
        (totalCount (⟨devPtr, count, device⟩ :: m.ranges) + totalCount lost) % 2 ^ 64
      rw [UInt64.toNat_add, hused, totalCount_cons]
      dsimp only
      omega
    · show (m.listSize + 1).toNat = (m.ranges.length + 1 + lost.length) % 2 ^ 64
      rw [UInt64.toNat_add, hsize]
      simp
      omega
  | remove devPtr =>
    simp only [ListCall.perform, deleteMem]
    split
    next it hit =>
      have htotal := totalCount_find hit
      have hlength := List.length_eraseP_of_mem (List.mem_of_find?_eq_some hit)
        (List.find?_some hit)
      have hpos := List.length_pos_of_mem (List.mem_of_find?_eq_some hit)
      have hlt := it.count.toNat_lt
      constructor
      · dsimp only
        rw [UInt64.toNat_sub, hused, htotal]
        omega
      · dsimp only
        rw [UInt64.toNat_sub, hsize, hlength]
        simp
        omega
    next => exact h
  | transfer device => exact h

/-- The counters; and before there is a list nobody waits for it and nothing is in it. -/
structure Counted (s : MemoryThreads) : Prop where
  counters : CountersWith s.lost s.account
  before : s.created = false → s.ready = [] ∧ s.account.ranges = []

/-- In every run the counters are those of the list and of the lost ranges. -/
theorem counted_inductive : memoryThreads.Inductive Counted := by
  constructor
  · rintro s rfl
    exact { counters := { used := rfl, size := rfl }, before := fun _ => ⟨rfl, rfl⟩ }
  · intro s a t _ h hstep
    cases a with
    | call a =>
      obtain ⟨-, rfl⟩ := step_call hstep
      exact { counters := h.counters, before := h.before }
    | transfer device =>
      obtain rfl := step_transfer hstep
      exact { counters := h.counters, before := h.before }
    | check c =>
      obtain ⟨-, ⟨hcreated, rfl⟩ | ⟨-, rfl⟩⟩ := step_check hstep
      · exact { counters := h.counters, before := fun hnot => by simp [hcreated] at hnot }
      · exact { counters := h.counters, before := h.before }
    | init c =>
      obtain ⟨-, rfl⟩ := step_init hstep
      refine { counters := { used := ?_, size := ?_ }, before := fun hnot => nomatch hnot }
      · dsimp only
        rw [h.counters.used, totalCount_append]
        simp [totalCount]
      · dsimp only
        rw [h.counters.size, List.length_append]
        simp
    | run c =>
      obtain ⟨hc, rfl⟩ := step_run hstep
      refine { counters := h.counters.perform c, before := fun hnot => ?_ }
      rw [(h.before hnot).1] at hc
      cases hc

/-- A list is there and nobody is about to make another one. -/
structure Settled (lost : List MemRange) (s : MemoryThreads) : Prop where
  created : s.created = true
  initialising : s.initialising = []
  lost : s.lost = lost

/-- Once the list exists nothing more is lost. -/
theorem settled_inductive (s₀ : MemoryThreads) (h₀ : Settled s₀.lost s₀) :
    (memoryThreads.resume (· = s₀)).Inductive (Settled s₀.lost) := by
  constructor
  · rintro s rfl
    exact h₀
  · intro s a t _ h hstep
    cases a with
    | call a =>
      obtain ⟨-, rfl⟩ := step_call hstep
      exact { created := h.created, initialising := h.initialising, lost := h.lost }
    | transfer device =>
      obtain rfl := step_transfer hstep
      exact { created := h.created, initialising := h.initialising, lost := h.lost }
    | check c =>
      obtain ⟨-, ⟨-, rfl⟩ | ⟨hnot, -⟩⟩ := step_check hstep
      · exact { created := h.created, initialising := h.initialising, lost := h.lost }
      · rw [h.created] at hnot
        cases hnot
    | init c =>
      obtain ⟨hc, -⟩ := step_init hstep
      rw [h.initialising] at hc
      cases hc
    | run c =>
      obtain ⟨-, rfl⟩ := step_run hstep
      exact { created := h.created, initialising := h.initialising, lost := h.lost }

/-- However the calls interleave and whatever the driver answers: the counters are what is in
the list and what is lost, so what is lost is taken for used for good; and once there is a
list and nobody is about to make another one, nothing more is lost. -/
theorem lost_stays_counted {s : MemoryThreads} (h : memoryThreads.Reachable s) :
    s.account.usedMemory.toNat =
        (totalCount s.account.ranges + totalCount s.lost) % 2 ^ 64 ∧
      s.account.listSize.toNat = (s.account.ranges.length + s.lost.length) % 2 ^ 64 ∧
      (s.created = true → s.initialising = [] →
        ∀ t, (memoryThreads.resume (· = s)).Reachable t → t.lost = s.lost) := by
  have hcounted := counted_inductive.reachable h
  refine ⟨hcounted.counters.used, hcounted.counters.size, fun hcreated hnobody t ht => ?_⟩
  have hsettled : Settled s.lost s :=
    { created := hcreated, initialising := hnobody, lost := rfl }
  exact ((settled_inductive s hsettled).reachable ht).lost

/-- `cuMemAlloc` of a size on device 0, with the address that the driver hands out. -/
def allocated (devPtr : CUdeviceptr) (count : UInt64) : MemoryThreadsAction :=
  .call (.allocate (.alloc count) 0 { allocate := .ok devPtr, getDevice := .ok 0, advise := 0 })

/-- Two threads that both find no list. -/
def twoLists : List MemoryThreadsAction :=
  [allocated 4096 16, allocated 8192 32, .check (.insert 4096 16 0),
    .check (.insert 8192 32 0), .init (.insert 4096 16 0), .run (.insert 4096 16 0),
    .init (.insert 8192 32 0), .run (.insert 8192 32 0)]

/-- The range of the first is lost, and its 16 bytes are counted. -/
theorem lost_stays_counted_two :
    ∃ s : MemoryThreads, s.lost = [⟨4096, 16, 0⟩] ∧
      s.account.usedMemory.toNat =
        (totalCount s.account.ranges + totalCount s.lost) % 2 ^ 64 ∧
      s.account.listSize.toNat = (s.account.ranges.length + s.lost.length) % 2 ^ 64 ∧
      (s.created = true → s.initialising = [] →
        ∀ t, (memoryThreads.resume (· = s)).Reachable t → t.lost = s.lost) := by
  have hinit : memoryThreads.Reachable .initial := .init rfl
  have hreach := hinit.foldlM (fun _ _ _ hstep => hstep)
    (show twoLists.foldlM MemoryThreads.step .initial = some _ from rfl)
  exact ⟨_, rfl, lost_stays_counted hreach⟩

/-! ## The addresses -/

/-- The driver's answers to an allocation agree; and what is given back was allocated through
the wrappers, by a call that has returned. -/
def Agreeing (s : MemoryThreads) : MemoryThreadsAction → Prop
  | .call (.allocate _ _ o) => o.Agree
  | .call (.free_v2 dptr ret) | .call (.free dptr ret) =>
    ret = cudaSuccess → 0 < s.holds dptr ∧ s.inserting dptr = 0
  | _ => True

instance instDecidableAgree (o : AllocAnswers) : Decidable o.Agree :=
  match o with
  | ⟨.ok _, .ok _, _⟩ => isTrue trivial
  | ⟨.error ret, .error ret', _⟩ => inferInstanceAs (Decidable (ret = ret'))
  | ⟨.ok _, .error _, _⟩ | ⟨.error _, .ok _, _⟩ => isFalse id

instance instDecidableAgreeing (s : MemoryThreads) (a : MemoryThreadsAction) :
    Decidable (Agreeing s a) :=
  match a with
  | .call (.allocate _ _ o) => inferInstanceAs (Decidable o.Agree)
  | .call (.free_v2 _ _) | .call (.free _ _) => inferInstanceAs (Decidable (_ → _))
  | .transfer _ | .check _ | .init _ | .run _ => isTrue trivial

/-- What the driver holds when it has done its part of such a call. -/
def MemoryThreads.driver (s : MemoryThreads) : ListCall → Option (List Allocation)
  | .insert devPtr count _ =>
    if s.holds devPtr = 0 then some ((devPtr, count) :: s.held) else none
  | .remove devPtr =>
    if 0 < s.holds devPtr ∧ s.inserting devPtr = 0 then
      some (s.held.eraseP fun x => x.1 = devPtr)
    else none
  | .transfer _ => some s.held

/-- Such a call begins. -/
def Begins (s : MemoryThreads) (c : ListCall) (t : MemoryThreads) : Prop :=
  ∃ held, s.driver c = some held ∧ t = { s with held := held, checking := c :: s.checking }

section addresses

variable {s t : MemoryThreads} {c : ListCall} {p : CUdeviceptr}

/-- Where the answers agree, what the driver did is what the function of the list is told. -/
theorem begins_free {dptr : CUdeviceptr} {ret : CUresult}
    (hagree : ret = cudaSuccess → 0 < s.holds dptr ∧ s.inserting dptr = 0) :
    let held := if ret = cudaSuccess then s.held.eraseP fun x => x.1 = dptr else s.held
    let call := if ret = cudaSuccess then some (ListCall.remove dptr) else none
    { s with held := held, checking := call.toList ++ s.checking } = s ∨
      ∃ c, call = some c ∧
        Begins s c { s with held := held, checking := call.toList ++ s.checking } := by
  by_cases hret : ret = cudaSuccess
  · rw [if_pos hret, if_pos hret]
    exact .inr ⟨_, rfl, _, if_pos (hagree hret), rfl⟩
  · rw [if_neg hret, if_neg hret]
    exact .inl rfl

/-- A wrapper's call begins, or the driver did nothing. -/
theorem agreeing_begins {a : MemoryCall} (hagree : Agreeing s (.call a))
    (h : s.step (.call a) = some t) : t = s ∨ ∃ c, a.listCall = some c ∧ Begins s c t := by
  obtain ⟨hfresh, rfl⟩ := step_call h
  cases a with
  | allocate call dptr o =>
    obtain ⟨allocate, getDevice, advise⟩ := o
    rcases allocate with ret | devPtr <;> rcases getDevice with ret' | device
    · exact .inl rfl
    · exact absurd hagree id
    · exact absurd hagree id
    · exact .inr ⟨_, rfl, _, if_pos (of_decide_eq_true hfresh), rfl⟩
  | free_v2 dptr ret => exact begins_free hagree
  | free dptr ret => exact begins_free hagree

/-- `memory_transfer_routine` asks the driver for nothing that it holds. -/
theorem begins_transfer {device : CUdevice} (h : s.step (.transfer device) = some t) :
    Begins s (.transfer device) t := ⟨s.held, rfl, step_transfer h⟩

/-- A call that goes on stays under way. -/
theorem check_calls (h : s.step (.check c) = some t) : t.calls.Perm s.calls := by
  obtain ⟨hc, ⟨-, rfl⟩ | ⟨-, rfl⟩⟩ := step_check h
  · have hmove := (List.perm_cons_erase hc).symm
    exact List.perm_middle.trans ((hmove.append_right _).append_right _)
  · have hmove := (List.perm_cons_erase hc).symm
    exact (List.perm_middle.trans (hmove.append_right _)).append_right _

/-- Creating the list begins and ends no call. -/
theorem init_calls (h : s.step (.init c) = some t) : t.calls.Perm s.calls := by
  obtain ⟨hc, rfl⟩ := step_init h
  have hmove := List.perm_middle.symm.trans ((List.perm_cons_erase hc).symm.append_left s.checking)
  exact List.perm_middle.trans (hmove.append_right _)

/-- A change of the list ends its call. -/
theorem run_calls (h : s.step (.run c) = some t) : s.calls.Perm (c :: t.calls) := by
  obtain ⟨hc, rfl⟩ := step_run h
  exact ((List.perm_cons_erase hc).append_left _).trans List.perm_middle

/-- What the driver holds at the address, and what is on its way out of the list, is in the
list or on its way into it. What is on its way out is in it. -/
structure BalancedAt (s : MemoryThreads) (p : CUdeviceptr) : Prop where
  balance : s.listed p + s.inserting p = s.holds p + s.removing p
  removing : s.removing p ≤ s.listed p
  once : s.holds p ≤ 1

theorem BalancedAt.congr (h : BalancedAt s p) (hranges : t.account.ranges = s.account.ranges)
    (hheld : t.held = s.held) (hcalls : t.calls.Perm s.calls) : BalancedAt t p := by
  have hlisted : t.listed p = s.listed p := by rw [MemoryThreads.listed, hranges]; rfl
  have hholds : t.holds p = s.holds p := by rw [MemoryThreads.holds, hheld]; rfl
  have hinserting : t.inserting p = s.inserting p := hcalls.countP_eq _
  have hremoving : t.removing p = s.removing p := hcalls.countP_eq _
  exact
    { balance := by rw [hlisted, hinserting, hholds, hremoving]; exact h.balance
      removing := by rw [hlisted, hremoving]; exact h.removing
      once := by rw [hholds]; exact h.once }

/-- Taking out the first element with a key. -/
theorem countP_eraseP_key {α : Type} (key : α → CUdeviceptr) {l : List α} {q : CUdeviceptr}
    (h : ∃ x ∈ l, key x = q) (p : CUdeviceptr) :
    (l.countP fun x => key x = p) =
      ((l.eraseP fun x => key x = q).countP fun x => key x = p) + if q = p then 1 else 0 := by
  obtain ⟨x, hx, hkey⟩ := h
  obtain ⟨y, l₁, l₂, -, hy, hl, herase⟩ :=
    List.exists_of_eraseP (p := fun x => key x = q) hx (decide_eq_true hkey)
  rw [herase, hl, List.countP_append, List.countP_append, List.countP_cons]
  have hkey : key y = q := of_decide_eq_true hy
  simp only [hkey, decide_eq_true_eq]
  omega

/-- A call that begins loses nothing. -/
theorem Begins.lost (h : Begins s c t) : t.lost = s.lost := by
  obtain ⟨held, -, rfl⟩ := h
  rfl

/-- What a call that begins changes at an address. -/
theorem call_counts (hbegins : Begins s c t) (p : CUdeviceptr) :
    t.listed p = s.listed p ∧
      t.inserting p = s.inserting p + (if c.inserts p then 1 else 0) ∧
      t.removing p = s.removing p + (if c.removes p then 1 else 0) ∧
      t.holds p + (if c.removes p then 1 else 0) =
        s.holds p + (if c.inserts p then 1 else 0) := by
  obtain ⟨held, hdriver, rfl⟩ := hbegins
  refine ⟨rfl, List.countP_cons, List.countP_cons, ?_⟩
  simp only [MemoryThreads.holds]
  cases c with
  | insert q count device =>
    simp only [MemoryThreads.driver] at hdriver
    split at hdriver
    next =>
      obtain rfl := Option.some.inj hdriver
      exact (Nat.add_zero _).trans List.countP_cons
    next => cases hdriver
  | remove q =>
    simp only [MemoryThreads.driver] at hdriver
    split at hdriver
    next hguard =>
      obtain rfl := Option.some.inj hdriver
      obtain ⟨x, hx, hkey⟩ := List.countP_pos_iff.mp hguard.1
      have herase := countP_eraseP_key Prod.fst ⟨x, hx, of_decide_eq_true hkey⟩ p
      simpa [ListCall.removes, ListCall.inserts] using herase.symm
    next => cases hdriver
  | transfer device =>
    obtain rfl := Option.some.inj hdriver
    rfl

/-- The driver hands out an address that it does not hold, and takes back one that it holds
and that has arrived in the list. -/
theorem call_guard (hbegins : Begins s c t) (p : CUdeviceptr) :
    (c.inserts p = true → s.holds p = 0) ∧ (c.removes p = true → s.inserting p = 0) := by
  obtain ⟨held, hdriver, -⟩ := hbegins
  cases c with
  | insert q count device =>
    simp only [MemoryThreads.driver] at hdriver
    split at hdriver
    next hfresh =>
      refine ⟨fun hq => ?_, fun hq => nomatch hq⟩
      obtain rfl := of_decide_eq_true hq
      exact hfresh
    next => cases hdriver
  | remove q =>
    simp only [MemoryThreads.driver] at hdriver
    split at hdriver
    next hguard =>
      refine ⟨fun hq => (nomatch hq), fun hq => ?_⟩
      obtain rfl := of_decide_eq_true hq
      exact hguard.2
    next => cases hdriver
  | transfer device => exact ⟨fun hq => (nomatch hq), fun hq => nomatch hq⟩

/-- A call that begins leaves the address balanced. -/
theorem BalancedAt.call (h : BalancedAt s p) (hbegins : Begins s c t) :
    BalancedAt t p := by
  obtain ⟨hlisted, hinserting, hremoving, hholds⟩ := call_counts hbegins p
  obtain ⟨hfresh, hreturned⟩ := call_guard hbegins p
  obtain ⟨hbalance, hin, honce⟩ := h
  by_cases hinserts : c.inserts p = true
  · have hnone := hfresh hinserts
    have hnot : ¬ c.removes p = true := by
      cases c <;> first | exact Bool.false_ne_true | cases hinserts
    rw [if_pos hinserts] at hinserting hholds
    rw [if_neg hnot] at hremoving hholds
    constructor <;> omega
  · rw [if_neg hinserts] at hinserting hholds
    by_cases hremoves : c.removes p = true
    · have harrived := hreturned hremoves
      rw [if_pos hremoves] at hremoving hholds
      constructor <;> omega
    · rw [if_neg hremoves] at hremoving hholds
      constructor <;> omega

/-- What a call that returns changes at an address. -/
theorem run_counts (hin : ∀ p, s.removing p ≤ s.listed p) (hstep : s.step (.run c) = some t)
    (p : CUdeviceptr) :
    t.holds p = s.holds p ∧
      s.inserting p = t.inserting p + (if c.inserts p then 1 else 0) ∧
      s.removing p = t.removing p + (if c.removes p then 1 else 0) ∧
      t.listed p + (if c.removes p then 1 else 0) =
        s.listed p + (if c.inserts p then 1 else 0) := by
  have hcalls := run_calls hstep
  obtain ⟨-, rfl⟩ := step_run hstep
  refine ⟨rfl, (hcalls.countP_eq _).trans List.countP_cons,
    (hcalls.countP_eq _).trans List.countP_cons, ?_⟩
  simp only [MemoryThreads.listed]
  cases c with
  | insert q count device => exact (Nat.add_zero _).trans List.countP_cons
  | remove q =>
    -- the range to be removed is there
    have hpos : 0 < s.listed q := by
      refine Nat.lt_of_lt_of_le ?_ (hin q)
      refine List.countP_pos_iff.mpr ⟨.remove q, ?_, decide_eq_true rfl⟩
      exact hcalls.symm.subset List.mem_cons_self
    obtain ⟨x, hx, hkey⟩ := List.countP_pos_iff.mp hpos
    have herase := countP_eraseP_key MemRange.devPtr ⟨x, hx, of_decide_eq_true hkey⟩ p
    simp only [ListCall.perform, deleteMem_ranges]
    simpa [ListCall.removes, ListCall.inserts] using herase.symm
  | transfer device => rfl

/-- A change that is made was counted before it was made. -/
theorem BalancedAt.run (h : ∀ p, BalancedAt s p) (hstep : s.step (.run c) = some t) :
    BalancedAt t p := by
  obtain ⟨hholds, hinserting, hremoving, hlisted⟩ :=
    run_counts (fun q => (h q).removing) hstep p
  obtain ⟨hbalance, hin, honce⟩ := h p
  constructor <;> omega

end addresses

/-- In every run without a lost range all addresses are balanced. -/
theorem balanced_inductive :
    (memoryThreads.restrict Agreeing).Inductive fun s => s.lost = [] → ∀ p, BalancedAt s p := by
  constructor
  · rintro s rfl - p
    exact { balance := rfl, removing := Nat.le_refl _, once := Nat.zero_le _ }
  · intro s a t _ h ⟨hagree, hstep⟩ hlost p
    cases a with
    | call a =>
      rcases agreeing_begins hagree hstep with rfl | ⟨c, -, hbegins⟩
      · exact h hlost p
      · exact (h (hbegins.lost ▸ hlost) p).call hbegins
    | transfer device =>
      have hbegins := begins_transfer hstep
      exact (h (hbegins.lost ▸ hlost) p).call hbegins
    | check c =>
      have hcalls := check_calls hstep
      obtain ⟨-, ⟨-, rfl⟩ | ⟨-, rfl⟩⟩ := step_check hstep <;>
        exact (h hlost p).congr rfl rfl hcalls
    | init c =>
      have hcalls := init_calls hstep
      obtain ⟨-, rfl⟩ := step_init hstep
      -- no range was lost, so there was none
      obtain ⟨hranges, hbefore⟩ := List.append_eq_nil_iff.mp hlost
      exact (h hbefore p).congr hranges.symm rfl hcalls
    | run c =>
      have hsame : t.lost = s.lost := by
        obtain ⟨-, rfl⟩ := step_run hstep
        rfl
      exact BalancedAt.run (h (hsame ▸ hlost)) hstep

/-- The addresses of the list, when no call is under way. -/
theorem addresses_perm {s : MemoryThreads} (h : ∀ p, BalancedAt s p) (hquiet : s.calls = []) :
    (s.account.ranges.map MemRange.devPtr).Perm (s.held.map Prod.fst) := by
  refine List.perm_iff_count.mpr fun p => ?_
  have hbalance := (h p).balance
  have hinserting : s.inserting p = 0 := by rw [MemoryThreads.inserting, hquiet]; rfl
  have hremoving : s.removing p = 0 := by rw [MemoryThreads.removing, hquiet]; rfl
  rw [hinserting, hremoving] at hbalance
  rw [List.count_eq_countP, List.count_eq_countP, List.countP_map, List.countP_map]
  exact hbalance

/-- Where the driver's answers agree and no range is lost: at every address as many ranges are
in the list, and on their way into it, as the driver holds allocations and removals are on
their way. When no call is under way the addresses in the list are those of the driver,
although an address that was handed out on its way out may have the other size; and when the
driver holds nothing, the account is as it was at first. -/
theorem memory_balanced {s : MemoryThreads} (h : (memoryThreads.restrict Agreeing).Reachable s)
    (hlost : s.lost = []) :
    (∀ p, s.listed p + s.inserting p = s.holds p + s.removing p) ∧
      (s.calls = [] → (s.account.ranges.map MemRange.devPtr).Perm (s.held.map Prod.fst) ∧
        (s.held = [] → s.account = ⟨0, [], 0⟩)) := by
  have hbalanced := balanced_inductive.reachable h hlost
  refine ⟨fun p => (hbalanced p).balance, fun hquiet => ?_⟩
  have hperm := addresses_perm hbalanced hquiet
  refine ⟨hperm, fun hnone => ?_⟩
  rw [hnone] at hperm
  have hranges : s.account.ranges = [] := List.map_eq_nil_iff.mp hperm.eq_nil
  have hcounters := (counted_inductive.reachable h.of_restrict).counters
  rw [hlost] at hcounters
  have hused := hcounters.used
  have hsize := hcounters.size
  rw [hranges] at hused hsize
  have hzero : s.account.usedMemory = 0 := UInt64.toNat_inj.mp hused
  have hnil : s.account.listSize = 0 := UInt64.toNat_inj.mp hsize
  calc s.account = ⟨s.account.usedMemory, s.account.ranges, s.account.listSize⟩ := rfl
    _ = ⟨0, [], 0⟩ := by rw [hzero, hnil, hranges]

/-- An address is handed out again while its range has not left the list. -/
def sharedAddress : List MemoryThreadsAction :=
  [allocated 4096 16, .check (.insert 4096 16 0), .init (.insert 4096 16 0),
    .run (.insert 4096 16 0), .call (.free 4096 0), allocated 4096 32,
    .check (.insert 4096 32 0), .run (.insert 4096 32 0), .check (.remove 4096),
    .run (.remove 4096)]

/-- The range that is left has the size of the allocation that is gone. -/
theorem memory_balanced_shared :
    ∃ s : MemoryThreads, s.held = [(4096, 32)] ∧ s.account.ranges = [⟨4096, 16, 0⟩] ∧
      (∀ p, s.listed p + s.inserting p = s.holds p + s.removing p) ∧
      (s.calls = [] → (s.account.ranges.map MemRange.devPtr).Perm (s.held.map Prod.fst) ∧
        (s.held = [] → s.account = ⟨0, [], 0⟩)) := by
  have hinit : (memoryThreads.restrict Agreeing).Reachable .initial := .init rfl
  have hreach := hinit.foldlM_restrict (fun _ _ _ hstep => hstep)
    (show sharedAddress.foldlM (fun s a => if Agreeing s a then s.step a else none) .initial =
      some _ from rfl)
  exact ⟨_, rfl, rfl, memory_balanced hreach rfl⟩

/-! ## The sizes -/

/-- The driver's answers agree, and it hands out no address that is on its way out of the
list. -/
def Unshared (s : MemoryThreads) (a : MemoryThreadsAction) : Prop :=
  Agreeing s a ∧
    match a with
    | .call (.allocate _ _ ⟨.ok devPtr, _, _⟩) => s.removing devPtr = 0
    | _ => True

instance instDecidableUnshared (s : MemoryThreads) (a : MemoryThreadsAction) :
    Decidable (Unshared s a) :=
  match a with
  | .call (.allocate _ _ ⟨.ok _, _, _⟩) => inferInstanceAs (Decidable (_ ∧ _))
  | .call (.allocate _ _ ⟨.error _, _, _⟩) | .call (.free_v2 _ _) | .call (.free _ _)
  | .transfer _ | .check _ | .init _ | .run _ => inferInstanceAs (Decidable (_ ∧ True))

/-- A range that a call is to insert is not on its way out. -/
theorem Unshared.removing {s : MemoryThreads} {a : MemoryCall} {c : ListCall}
    (h : Unshared s (.call a)) (hc : a.listCall = some c) {p : CUdeviceptr}
    (hinserts : c.inserts p = true) : s.removing p = 0 := by
  have hfree : ∀ (dptr : CUdeviceptr) (ret : CUresult),
      (if ret = cudaSuccess then some (ListCall.remove dptr) else none) = some c → False := by
    intro dptr ret hc
    split at hc
    · obtain rfl := Option.some.inj hc
      cases hinserts
    · cases hc
  obtain ⟨hagree, hout⟩ := h
  cases a with
  | allocate call dptr o =>
    obtain ⟨allocate, getDevice, advise⟩ := o
    rcases allocate with ret | devPtr <;> rcases getDevice with ret' | device
    · cases hc
    · exact absurd hagree id
    · cases hc
    · obtain rfl := Option.some.inj hc
      obtain rfl : devPtr = p := of_decide_eq_true hinserts
      exact hout
  | free_v2 dptr ret => exact absurd hc (hfree dptr ret)
  | free dptr ret => exact absurd hc (hfree dptr ret)

/-- What the driver holds is in the list with its size, or on its way there. -/
structure Recorded (s : MemoryThreads) : Prop where
  recorded : ∀ x ∈ s.held, x ∈ s.account.ranges.map MemRange.allocation ∨
    ∃ device, .insert x.1 x.2 device ∈ s.calls
  gone : ∀ p, 0 < s.removing p → s.holds p = 0

section recorded

variable {s t : MemoryThreads} {c : ListCall}

theorem Recorded.congr (h : Recorded s) (hranges : t.account.ranges = s.account.ranges)
    (hheld : t.held = s.held) (hcalls : t.calls.Perm s.calls) : Recorded t := by
  refine { recorded := fun x hx => ?_, gone := fun p hp => ?_ }
  · rw [hranges]
    exact (h.recorded x (hheld ▸ hx)).imp_right fun ⟨device, hin⟩ =>
      ⟨device, hcalls.symm.subset hin⟩
  · rw [MemoryThreads.holds, hheld]
    refine h.gone p ?_
    rwa [MemoryThreads.removing, ← hcalls.countP_eq]

/-- A call that begins leaves the sizes as recorded. -/
theorem Recorded.call (h : Recorded s) (hbalanced : ∀ p, BalancedAt s p)
    (hunshared : ∀ p, c.inserts p = true → s.removing p = 0) (hbegins : Begins s c t) :
    Recorded t := by
  have hcounts := call_counts hbegins
  obtain ⟨held, hdriver, rfl⟩ := hbegins
  refine { recorded := fun x hx => ?_, gone := fun p hp => ?_ }
  · have hold : x ∈ s.held → x ∈ s.account.ranges.map MemRange.allocation ∨
        ∃ device, .insert x.1 x.2 device ∈ c :: s.calls := fun hx =>
      (h.recorded x hx).imp_right fun ⟨device, hin⟩ => ⟨device, List.mem_cons_of_mem _ hin⟩
    cases c with
    | insert q count device =>
      simp only [MemoryThreads.driver] at hdriver
      split at hdriver
      next =>
        obtain rfl := Option.some.inj hdriver
        rcases List.mem_cons.mp hx with rfl | hx
        · exact .inr ⟨device, List.mem_cons_self⟩
        · exact hold hx
      next => cases hdriver
    | remove q =>
      simp only [MemoryThreads.driver] at hdriver
      split at hdriver
      next =>
        obtain rfl := Option.some.inj hdriver
        exact hold (List.mem_of_mem_eraseP hx)
      next => cases hdriver
    | transfer device =>
      obtain rfl := Option.some.inj hdriver
      exact hold hx
  · obtain ⟨-, -, hremoving, hholds⟩ := hcounts p
    have hgone := h.gone p
    have honce := (hbalanced p).once
    cases c with
    | insert q count device =>
      by_cases hq : q = p
      · have hnot : ListCall.removes p (.insert q count device) = false := rfl
        have hzero : s.removing p = 0 := hunshared p (decide_eq_true hq)
        rw [hnot] at hremoving
        simp only [Bool.false_eq_true, ↓reduceIte] at hremoving
        omega
      · have hnot : ListCall.inserts p (.insert q count device) = false := decide_eq_false hq
        have hnot' : ListCall.removes p (.insert q count device) = false := rfl
        rw [hnot, hnot'] at hholds
        rw [hnot'] at hremoving
        simp only [Bool.false_eq_true, ↓reduceIte, Nat.add_zero] at hholds hremoving
        rw [hholds]
        exact hgone (by omega)
    | remove q =>
      have hnot : ListCall.inserts p (.remove q) = false := rfl
      rw [hnot] at hholds
      simp only [Bool.false_eq_true, ↓reduceIte, Nat.add_zero] at hholds
      split at hholds
      · omega
      next hq =>
        rw [if_neg hq] at hremoving
        have := hgone (by omega)
        omega
    | transfer device =>
      simp only [ListCall.removes, ListCall.inserts, Bool.false_eq_true, ↓reduceIte,
        Nat.add_zero] at hholds hremoving
      rw [hholds]
      exact hgone (by omega)

/-- A change that is made records the size of its own call. -/
theorem Recorded.run (h : Recorded s) (hbalanced : ∀ p, BalancedAt s p)
    (hstep : s.step (.run c) = some t) : Recorded t := by
  have hcounts := run_counts (fun q => (hbalanced q).removing) hstep
  have hcalls := run_calls hstep
  obtain ⟨-, rfl⟩ := step_run hstep
  refine { recorded := fun x hx => ?_, gone := fun p hp => ?_ }
  · have hcall : ∀ device, .insert x.1 x.2 device ∈ s.calls →
        c = .insert x.1 x.2 device ∨ .insert x.1 x.2 device ∈ MemoryThreads.calls
          { s with account := c.perform s.account, ready := s.ready.erase c } := by
      intro device hin
      exact (List.mem_cons.mp (hcalls.subset hin)).imp_left Eq.symm
    rcases h.recorded x hx with hin | ⟨device, hin⟩
    · left
      dsimp only
      cases c with
      | insert q count device => exact List.mem_cons_of_mem _ hin
      | remove q =>
        -- a range on its way out is not of an allocation that is held
        have hne : x.1 ≠ q := by
          rintro rfl
          have hpos : 0 < s.removing x.1 := by
            refine List.countP_pos_iff.mpr ⟨.remove x.1, ?_, decide_eq_true rfl⟩
            exact hcalls.symm.subset List.mem_cons_self
          have hzero := h.gone _ hpos
          exact absurd (decide_eq_true rfl) (List.countP_eq_zero.mp hzero x hx)
        obtain ⟨y, hy, rfl⟩ := List.mem_map.mp hin
        rw [ListCall.perform, deleteMem_ranges]
        refine List.mem_map_of_mem ((List.mem_eraseP_of_neg ?_).mpr hy)
        exact fun hy => hne (of_decide_eq_true hy)
      | transfer device => exact hin
    · rcases hcall device hin with rfl | hin
      · exact .inl List.mem_cons_self
      · exact .inr ⟨device, hin⟩
  · obtain ⟨hholds, -, hremoving, -⟩ := hcounts p
    rw [hholds]
    exact h.gone p (by omega)

end recorded

/-- In every run without a lost range the sizes are recorded. -/
theorem recorded_inductive : (memoryThreads.restrict Unshared).Inductive
    fun s => s.lost = [] → Recorded s := by
  constructor
  · rintro s rfl -
    exact { recorded := fun x hx => (nomatch hx), gone := fun p _ => rfl }
  · intro s a t hs h ⟨hunshared, hstep⟩ hlost
    have hbalanced := balanced_inductive.reachable (hs.restrict_mono fun _ _ h => h.1)
    cases a with
    | call a =>
      rcases agreeing_begins hunshared.1 hstep with rfl | ⟨c, hc, hbegins⟩
      · exact h hlost
      · rw [hbegins.lost] at hlost
        exact (h hlost).call (hbalanced hlost) (fun _ => hunshared.removing hc) hbegins
    | transfer device =>
      have hbegins := begins_transfer hstep
      rw [hbegins.lost] at hlost
      have hnone : ∀ p, ListCall.inserts p (.transfer device) = true → s.removing p = 0 := nofun
      exact (h hlost).call (hbalanced hlost) hnone hbegins
    | check c =>
      have hcalls := check_calls hstep
      obtain ⟨-, ⟨-, rfl⟩ | ⟨-, rfl⟩⟩ := step_check hstep <;>
        exact (h hlost).congr rfl rfl hcalls
    | init c =>
      have hcalls := init_calls hstep
      obtain ⟨-, rfl⟩ := step_init hstep
      obtain ⟨hranges, hbefore⟩ := List.append_eq_nil_iff.mp hlost
      exact (h hbefore).congr hranges.symm rfl hcalls
    | run c =>
      have hsame : t.lost = s.lost := by
        obtain ⟨-, rfl⟩ := step_run hstep
        rfl
      rw [hsame] at hlost
      exact (h hlost).run (hbalanced hlost) hstep

/-- Where the driver's answers agree, no range is lost and no address is handed out on its way
out of the list: whenever no call is under way, the account is what the driver holds. -/
theorem memory_threads_exact {s : MemoryThreads}
    (h : (memoryThreads.restrict Unshared).Reachable s) (hlost : s.lost = [])
    (hquiet : s.calls = []) : Exact { account := s.account, held := s.held } := by
  have hbalanced := balanced_inductive.reachable (h.restrict_mono fun _ _ h => h.1) hlost
  have hrecorded := recorded_inductive.reachable h hlost
  have hcounters := (counted_inductive.reachable h.of_restrict).counters
  rw [hlost] at hcounters
  refine { used := hcounters.used, ranges := ?_ }
  have hnodup : s.held.Nodup := by
    refine List.nodup_iff_count_le_one.mpr fun x => ?_
    refine Nat.le_trans (List.countP_mono_left fun y _ hy => ?_) (hbalanced x.1).once
    rw [eq_of_beq hy]
    exact decide_eq_true rfl
  have hsubset : s.held ⊆ s.account.ranges.map MemRange.allocation := by
    intro x hx
    refine (hrecorded.recorded x hx).resolve_right fun ⟨device, hin⟩ => ?_
    rw [hquiet] at hin
    cases hin
  have hlength := (addresses_perm hbalanced hquiet).length_eq
  rw [List.length_map, List.length_map] at hlength
  have hranges : (s.account.ranges.map MemRange.allocation).length = s.held.length :=
    (List.length_map _).trans hlength
  exact ((List.subperm_of_subset hnodup hsubset).perm_of_length_le
    (Nat.le_of_eq hranges)).symm

/-- One thread frees 16 bytes while another one allocates 32. -/
def freeAndAllocate : List MemoryThreadsAction :=
  [allocated 4096 16, .check (.insert 4096 16 0), .init (.insert 4096 16 0),
    .run (.insert 4096 16 0), .call (.free 4096 0), allocated 8192 32,
    .check (.insert 8192 32 0), .check (.remove 4096), .run (.insert 8192 32 0),
    .run (.remove 4096)]

theorem memory_threads_exact_two :
    ∃ s : MemoryThreads, s.account = ⟨32, [⟨8192, 32, 0⟩], 1⟩ ∧
      Exact { account := s.account, held := s.held } := by
  have hinit : (memoryThreads.restrict Unshared).Reachable .initial := .init rfl
  have hreach := hinit.foldlM_restrict (fun _ _ _ hstep => hstep)
    (show freeAndAllocate.foldlM (fun s a => if Unshared s a then s.step a else none) .initial =
      some _ from rfl)
  exact ⟨_, rfl, memory_threads_exact hreach rfl rfl⟩

end Lilt.Be
