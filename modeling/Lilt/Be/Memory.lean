import Lilt.Driver.Handles
import Lilt.Lib.Transition
import Mathlib.Algebra.GroupWithZero.Nat

/-!
# Memory accounting of the BE proxy (`be_intercept.c`)

The BE proxy turns every allocation into a managed one, keeps a list of the byte
ranges it handed out and reports their total as used. The wrappers chain three
driver calls through one result variable; the result of the allocation itself is
overwritten before anything reads it.

- `MemoryAccount`: the range list and `g_used_memory`.
- `cuMemAllocManaged` … `cuMemFree`: the wrappers, the driver's answers being
  arguments.
- `memorySystem`: all sequences of calls, beside what the driver holds.
- `memory_accounting_iff`: the account is exact as long as the driver answers the
  allocation and the device query alike.

`size_t` is 64 bits wide. The lock and the list's head item are left out.
-/

namespace Lilt.Be

open Lilt.Driver Transition

/-- `struct MemRange`, without its links. -/
structure MemRange where
  devPtr : CUdeviceptr
  count : UInt64
  device : CUdevice
  deriving DecidableEq

/-- The list of ranges, the newest first, and the counters kept with it. -/
structure MemoryAccount where
  /-- `g_used_memory` -/
  usedMemory : UInt64
  /-- `list_head->successor` and on -/
  ranges : List MemRange
  /-- `list_size` -/
  listSize : UInt64
  deriving DecidableEq

/-- `allocate_mem`: `list_insert` behind the head. -/
def allocateMem (m : MemoryAccount) (devPtr : CUdeviceptr) (count : UInt64)
    (device : CUdevice) : MemoryAccount where
  usedMemory := m.usedMemory + count
  ranges := ⟨devPtr, count, device⟩ :: m.ranges
  listSize := m.listSize + 1

/-- `delete_mem`: `list_delete` of the first range at the address. -/
def deleteMem (m : MemoryAccount) (devPtr : CUdeviceptr) : MemoryAccount :=
  match m.ranges.find? (fun it => it.devPtr = devPtr) with
  | some it =>
    { usedMemory := m.usedMemory - it.count
      ranges := m.ranges.eraseP fun it => it.devPtr = devPtr
      listSize := m.listSize - 1 }
  | none => m

/-- `ROUND_UP`, in `size_t`. -/
def roundUp (n base : UInt64) : UInt64 := if n % base ≠ 0 then n + base - n % base else n

/-- What the driver answers to the three calls of an allocation wrapper. -/
structure AllocAnswers where
  /-- `cuMemAllocManaged`: the address it stores, or its error. -/
  allocate : Except CudaError CUdeviceptr
  /-- `cuCtxGetDevice` -/
  getDevice : Except CudaError CUdevice
  /-- `cuMemAdvise` -/
  advise : CUresult

/-- What an allocation wrapper leaves behind: the account, `*dptr` and its result. -/
structure AllocResult where
  account : MemoryAccount
  dptr : CUdeviceptr
  result : CUresult

/-- The body the allocation wrappers share, for `bytesize` bytes; `dptr` is the
value of `*dptr` before the call. -/
def allocateManaged (m : MemoryAccount) (dptr : CUdeviceptr) (bytesize : UInt64)
    (o : AllocAnswers) : AllocResult :=
  -- a failed allocation leaves `*dptr` as it was; its result is overwritten by
  -- that of `cuCtxGetDevice`, the only one tested
  let dptr :=
    match o.allocate with
    | .ok devPtr => devPtr
    | .error _ => dptr
  match o.getDevice with
  | .error ret => { account := m, dptr := dptr, result := ret }
  | .ok device =>
    { account := allocateMem m dptr bytesize device, dptr := dptr, result := o.advise }

/-- `cuMemAllocManaged` -/
def cuMemAllocManaged (m : MemoryAccount) (dptr : CUdeviceptr) (bytesize : UInt64)
    (o : AllocAnswers) : AllocResult := allocateManaged m dptr bytesize o

/-- `cuMemAlloc_v2` -/
def cuMemAlloc_v2 (m : MemoryAccount) (dptr : CUdeviceptr) (bytesize : UInt64)
    (o : AllocAnswers) : AllocResult := allocateManaged m dptr bytesize o

/-- `cuMemAlloc` -/
def cuMemAlloc (m : MemoryAccount) (dptr : CUdeviceptr) (bytesize : UInt64)
    (o : AllocAnswers) : AllocResult := allocateManaged m dptr bytesize o

/-- The shape of a pitched allocation. An element size of 0 is a division by zero
in the wrapper. -/
structure PitchShape where
  widthInBytes : UInt64
  height : UInt64
  elementSizeBytes : UInt32
  element_ne_zero : elementSizeBytes ≠ 0

/-- The pitch the wrappers store in `*pPitch`. -/
def PitchShape.pitch (x : PitchShape) : UInt64 := roundUp x.widthInBytes 128

def PitchShape.bytesize (x : PitchShape) : UInt64 :=
  roundUp (x.pitch * x.height) x.elementSizeBytes.toUInt64

/-- `cuMemAllocPitch_v2`, with the pitch it stores. -/
def cuMemAllocPitch_v2 (m : MemoryAccount) (dptr : CUdeviceptr) (x : PitchShape)
    (o : AllocAnswers) : AllocResult × UInt64 := (allocateManaged m dptr x.bytesize o, x.pitch)

/-- `cuMemAllocPitch`, with the pitch it stores. -/
def cuMemAllocPitch (m : MemoryAccount) (dptr : CUdeviceptr) (x : PitchShape)
    (o : AllocAnswers) : AllocResult × UInt64 := (allocateManaged m dptr x.bytesize o, x.pitch)

/-- `cuMemFree_v2`; `ret`: what the driver answers. -/
def cuMemFree_v2 (m : MemoryAccount) (dptr : CUdeviceptr) (ret : CUresult) :
    MemoryAccount × CUresult := (if ret = cudaSuccess then deleteMem m dptr else m, ret)

/-- `cuMemFree` -/
def cuMemFree (m : MemoryAccount) (dptr : CUdeviceptr) (ret : CUresult) :
    MemoryAccount × CUresult := (if ret = cudaSuccess then deleteMem m dptr else m, ret)

/-! ## Sequences of calls -/

/-- A call of one of the allocation wrappers, without the driver's answers. -/
inductive AllocCall where
  | managed (bytesize : UInt64)
  | alloc_v2 (bytesize : UInt64)
  | alloc (bytesize : UInt64)
  | allocPitch_v2 (x : PitchShape)
  | allocPitch (x : PitchShape)

/-- The number of bytes the wrapper asks the driver for. -/
def AllocCall.bytesize : AllocCall → UInt64
  | .managed n | .alloc_v2 n | .alloc n => n
  | .allocPitch_v2 x | .allocPitch x => x.bytesize

/-- The wrapper that is called. -/
def AllocCall.exec (m : MemoryAccount) (dptr : CUdeviceptr) (o : AllocAnswers) :
    AllocCall → AllocResult
  | .managed n => cuMemAllocManaged m dptr n o
  | .alloc_v2 n => cuMemAlloc_v2 m dptr n o
  | .alloc n => cuMemAlloc m dptr n o
  | .allocPitch_v2 x => (cuMemAllocPitch_v2 m dptr x o).1
  | .allocPitch x => (cuMemAllocPitch m dptr x o).1

/-- A call of one of the wrappers, with the driver's answers. -/
inductive MemoryCall where
  | allocate (call : AllocCall) (dptr : CUdeviceptr) (o : AllocAnswers)
  | free_v2 (dptr : CUdeviceptr) (ret : CUresult)
  | free (dptr : CUdeviceptr) (ret : CUresult)

/-- What the wrapper does to the account, and its result. -/
def MemoryCall.exec (m : MemoryAccount) : MemoryCall → MemoryAccount × CUresult
  | .allocate call dptr o => ((call.exec m dptr o).account, (call.exec m dptr o).result)
  | .free_v2 dptr ret => cuMemFree_v2 m dptr ret
  | .free dptr ret => cuMemFree m dptr ret

/-- An allocation as the driver sees it: its address and its size. -/
abbrev Allocation := CUdeviceptr × UInt64

def MemRange.allocation (x : MemRange) : Allocation := (x.devPtr, x.count)

/-- The account of the process, and the allocations made through the wrappers that
the driver holds. -/
structure MemoryState where
  account : MemoryAccount
  held : List Allocation

/-- What the driver holds after the call. -/
def MemoryCall.holds (held : List Allocation) : MemoryCall → List Allocation
  | .allocate call _ o =>
    match o.allocate with
    | .ok devPtr => (devPtr, call.bytesize) :: held
    | .error _ => held
  | .free_v2 dptr ret | .free dptr ret =>
    if ret = cudaSuccess then held.eraseP fun x => x.1 = dptr else held

/-- The driver never returns an address that is still allocated. -/
def MemoryCall.Fresh (held : List Allocation) : MemoryCall → Prop
  | .allocate _ _ o => ∀ devPtr, o.allocate = .ok devPtr → ∀ x ∈ held, x.1 ≠ devPtr
  | .free_v2 _ _ | .free _ _ => True

/-- One call. -/
def MemoryState.exec (s : MemoryState) (a : MemoryCall) : MemoryState where
  account := (a.exec s.account).1
  held := a.holds s.held

/-- All sequences of calls of the wrappers. -/
def memorySystem : System MemoryState MemoryCall where
  Init s := s = ⟨⟨0, [], 0⟩, []⟩
  Step s a t := a.Fresh s.held ∧ t = s.exec a

/-! ## The account beside the driver -/

/-- The total size of the ranges. -/
def totalCount (ranges : List MemRange) : Nat := (ranges.map fun x => x.count.toNat).sum

/-- The account is what the driver holds: the list has its allocations, each once,
and `g_used_memory`, a `size_t`, is their total. -/
structure Exact (s : MemoryState) : Prop where
  used : s.account.usedMemory.toNat = totalCount s.account.ranges % 2 ^ 64
  ranges : (s.account.ranges.map MemRange.allocation).Perm s.held

/-- An allocation that fails is reported with its error and leaves the account
unchanged. -/
def KeepsFailure (s : MemoryState) : MemoryCall → Prop
  | .allocate call dptr o => ∀ ret, o.allocate = .error ret →
      (call.exec s.account dptr o).result = ret ∧
        (call.exec s.account dptr o).account = s.account
  | .free_v2 _ _ | .free _ _ => True

/-- The allocation and the device query after it both succeed, or fail with the
same error. -/
def AllocAnswers.Agree (o : AllocAnswers) : Prop :=
  match o.allocate, o.getDevice with
  | .ok _, .ok _ => True
  | .error ret, .error ret' => ret = ret'
  | _, _ => False

/-- The driver's answers agree, in an allocation. -/
def MemoryCall.Agree : MemoryCall → Prop
  | .allocate _ _ o => o.Agree
  | .free_v2 _ _ | .free _ _ => True

/-- The wrappers differ in how they compute the size only. -/
theorem AllocCall.exec_eq (call : AllocCall) (m : MemoryAccount) (dptr : CUdeviceptr)
    (o : AllocAnswers) : call.exec m dptr o = allocateManaged m dptr call.bytesize o := by
  cases call <;> rfl

/-- The first range counts too. -/
theorem totalCount_cons (x : MemRange) (ranges : List MemRange) :
    totalCount (x :: ranges) = x.count.toNat + totalCount ranges := by
  simp [totalCount]

/-- Taking the first range at an address out of the list. -/
theorem totalCount_find {p : MemRange → Bool} {ranges : List MemRange} {it : MemRange}
    (h : ranges.find? p = some it) :
    totalCount ranges = it.count.toNat + totalCount (ranges.eraseP p) := by
  induction ranges with
  | nil => cases h
  | cons x rest ih =>
    by_cases hx : p x = true
    · rw [List.find?_cons_of_pos hx] at h
      cases h
      rw [totalCount_cons, List.eraseP_cons_of_pos hx]
    · rw [List.find?_cons_of_neg hx] at h
      rw [totalCount_cons, List.eraseP_cons_of_neg hx, totalCount_cons, ih h]
      omega

/-- The first range at the address goes. -/
theorem deleteMem_ranges (m : MemoryAccount) (devPtr : CUdeviceptr) :
    (deleteMem m devPtr).ranges = m.ranges.eraseP fun it => it.devPtr = devPtr := by
  unfold deleteMem
  split
  next => rfl
  next hnone =>
    refine (List.eraseP_of_forall_not fun x hx => ?_).symm
    exact List.find?_eq_none.mp hnone x hx

/-- The counter follows the list. -/
theorem deleteMem_used {m : MemoryAccount}
    (h : m.usedMemory.toNat = totalCount m.ranges % 2 ^ 64) (devPtr : CUdeviceptr) :
    (deleteMem m devPtr).usedMemory.toNat =
      totalCount (deleteMem m devPtr).ranges % 2 ^ 64 := by
  unfold deleteMem
  split
  next it hit =>
    have htotal := totalCount_find hit
    have hlt := it.count.toNat_lt
    dsimp only
    rw [UInt64.toNat_sub, h, htotal]
    omega
  next => exact h

/-- An allocation adds its size to the counter. -/
theorem allocateMem_used {m : MemoryAccount}
    (h : m.usedMemory.toNat = totalCount m.ranges % 2 ^ 64) (devPtr : CUdeviceptr)
    (count : UInt64) (device : CUdevice) :
    (allocateMem m devPtr count device).usedMemory.toNat =
      totalCount (allocateMem m devPtr count device).ranges % 2 ^ 64 := by
  show (m.usedMemory + count).toNat = totalCount (⟨devPtr, count, device⟩ :: m.ranges) % 2 ^ 64
  rw [UInt64.toNat_add, h, totalCount_cons]
  dsimp only
  omega

/-- The driver's allocations have distinct addresses. -/
def Distinct (held : List Allocation) : Prop := held.Pairwise fun x y => x.1 ≠ y.1

/-- Allocations that are fresh stay apart from the others. -/
theorem distinct_holds {held : List Allocation} {a : MemoryCall} (h : Distinct held)
    (hfresh : a.Fresh held) : Distinct (a.holds held) := by
  have hfree : ∀ (dptr : CUdeviceptr) (ret : CUresult),
      Distinct (if ret = cudaSuccess then held.eraseP fun x => x.1 = dptr else held) := by
    intro dptr ret
    split
    · exact List.Pairwise.sublist List.eraseP_sublist h
    · exact h
  cases a with
  | allocate call dptr o =>
    obtain ⟨allocate, getDevice, advise⟩ := o
    rcases allocate with ret | devPtr
    · exact h
    · exact List.pairwise_cons.mpr ⟨fun x hx => (hfresh devPtr rfl x hx).symm, h⟩
  | free_v2 dptr ret => exact hfree dptr ret
  | free dptr ret => exact hfree dptr ret

/-- The driver never holds two allocations at one address. -/
theorem distinct_inductive : memorySystem.Inductive fun s => Distinct s.held := by
  constructor
  · rintro s rfl
    exact List.Pairwise.nil
  · rintro s a t _ h ⟨hfresh, rfl⟩
    exact distinct_holds h hfresh

/-- A free keeps the account exact, whether or not it succeeds and whatever it
frees. -/
theorem Exact.free {s : MemoryState} (h : Exact s) (hdistinct : Distinct s.held)
    (dptr : CUdeviceptr) (ret : CUresult) :
    Exact
      { account := if ret = cudaSuccess then deleteMem s.account dptr else s.account
        held := if ret = cudaSuccess then s.held.eraseP fun x => x.1 = dptr else s.held } := by
  split
  · refine { used := deleteMem_used h.used dptr, ranges := ?_ }
    dsimp only
    rw [deleteMem_ranges]
    have hmap : (s.account.ranges.eraseP fun it => it.devPtr = dptr).map MemRange.allocation =
        (s.account.ranges.map MemRange.allocation).eraseP fun x => x.1 = dptr := by
      rw [List.eraseP_map]
      rfl
    rw [hmap]
    -- no two allocations are at the address, so it does not matter which goes
    refine h.ranges.eraseP _ ((h.ranges.symm.pairwise hdistinct fun hne => hne.symm).imp ?_)
    intro x y hne hx hy
    simp only [decide_eq_true_eq] at hx hy
    exact hne (hx.trans hy.symm)
  · exact h

/-- An allocation keeps the account exact, and its failure visible, just if the
driver's answers agree. -/
theorem exact_allocate_iff {s : MemoryState} (h : Exact s) (call : AllocCall)
    (dptr : CUdeviceptr) (o : AllocAnswers) :
    Exact (s.exec (.allocate call dptr o)) ∧ KeepsFailure s (.allocate call dptr o) ↔
      o.Agree := by
  obtain ⟨allocate, getDevice, advise⟩ := o
  rcases allocate with ret | devPtr <;> rcases getDevice with ret' | device
  · -- both fail: the wrapper returns the second error
    have hsame : s.exec (.allocate call dptr ⟨.error ret, .error ret', advise⟩) = s := by
      simp [MemoryState.exec, MemoryCall.exec, MemoryCall.holds, AllocCall.exec_eq,
        allocateManaged]
    rw [hsame]
    constructor
    · rintro ⟨-, hkeeps⟩
      have hresult := (hkeeps ret rfl).1
      rw [AllocCall.exec_eq] at hresult
      exact Subtype.ext hresult.symm
    · intro hagree
      refine ⟨h, ?_⟩
      rintro _ ⟨⟩
      rw [AllocCall.exec_eq]
      exact ⟨congrArg Subtype.val (Eq.symm hagree), rfl⟩
  · -- a range that was not allocated is recorded
    refine iff_of_false ?_ id
    rintro ⟨-, hkeeps⟩
    have hranges := congrArg (fun m => m.ranges.length) (hkeeps ret rfl).2
    simp [AllocCall.exec_eq, allocateManaged, allocateMem] at hranges
  · -- the driver holds an allocation that is not recorded
    refine iff_of_false ?_ id
    rintro ⟨hexact, -⟩
    have hlength := hexact.ranges.length_eq
    have hbefore := h.ranges.length_eq
    simp [MemoryState.exec, MemoryCall.exec, MemoryCall.holds, AllocCall.exec_eq,
      allocateManaged] at hlength hbefore
    omega
  · refine iff_of_true ⟨?_, fun ret hret => by cases hret⟩ trivial
    have hexec : s.exec (.allocate call dptr ⟨.ok devPtr, .ok device, advise⟩) =
        { account := allocateMem s.account devPtr call.bytesize device
          held := (devPtr, call.bytesize) :: s.held } := by
      simp [MemoryState.exec, MemoryCall.exec, MemoryCall.holds, AllocCall.exec_eq,
        allocateManaged]
    rw [hexec]
    exact { used := allocateMem_used h.used _ _ _, ranges := h.ranges.cons _ }

/-! ## Every sequence of calls -/

/-- All along a sequence of calls the account is what the driver holds, and failed
allocations are reported and leave it alone, exactly when in every allocation the
driver answers the allocation and the device query alike. -/
theorem memory_accounting_iff {tr : List (MemoryState × MemoryCall)} {s : MemoryState}
    (h : memorySystem.Run tr s) :
    System.Throughout Exact tr s ∧ System.Meets KeepsFailure tr ↔
      System.Meets (fun _ a => a.Agree) tr := by
  refine h.throughout_meets_iff ?_ ?_
  · rintro s rfl
    exact { used := rfl, ranges := .nil }
  · rintro s a t hs hexact ⟨-, rfl⟩
    have hdistinct := distinct_inductive.reachable hs.of_restrict
    cases a with
    | allocate call dptr o => exact exact_allocate_iff hexact call dptr o
    | free_v2 dptr ret =>
      exact iff_of_true ⟨hexact.free hdistinct dptr ret, trivial⟩ trivial
    | free dptr ret =>
      exact iff_of_true ⟨hexact.free hdistinct dptr ret, trivial⟩ trivial

/-- An allocation of 16 bytes that fails for want of memory, on a device that can
be queried. -/
def failedAllocation : MemoryCall :=
  .allocate (.alloc_v2 16) 0
    { allocate := .error ⟨2, Nat.succ_ne_zero 1⟩, getDevice := .ok 0, advise := 1 }

/-- The first call of the process may fail like that. -/
theorem failedAllocation_run :
    memorySystem.Run [(⟨⟨0, [], 0⟩, []⟩, failedAllocation)]
      (MemoryState.exec ⟨⟨0, [], 0⟩, []⟩ failedAllocation) := by
  have hinit : memorySystem.Run [] ⟨⟨0, [], 0⟩, []⟩ := .init rfl
  refine hinit.step ⟨?_, rfl⟩
  intro devPtr hok
  cases hok

/-- The failed allocation is recorded as a range of 16 bytes at address 0, and the
error is lost. -/
theorem memory_accounting_not_exact :
    ¬ ∀ tr s, memorySystem.Run tr s →
      System.Throughout Exact tr s ∧ System.Meets KeepsFailure tr := by
  intro hall
  have hkeeps := (hall _ _ failedAllocation_run).2 _ (List.mem_singleton_self _)
  have hresult := (hkeeps ⟨2, Nat.succ_ne_zero 1⟩ rfl).1
  exact absurd hresult (by decide)

/-- 16 bytes are allocated and freed; the advice fails. -/
theorem memory_accounting_allocated :
    let s : MemoryState := ⟨⟨0, [], 0⟩, []⟩
    let a : MemoryCall := .allocate (.alloc 16) 0
      { allocate := .ok 4096, getDevice := .ok 0, advise := 1 }
    System.Throughout Exact [(s, a), (s.exec a, .free 4096 0)]
        ((s.exec a).exec (.free 4096 0)) ∧
      System.Meets KeepsFailure [(s, a), (s.exec a, .free 4096 0)] ↔
    System.Meets (fun _ a => a.Agree) [(s, a), (s.exec a, .free 4096 0)] := by
  intro s a
  have hfresh : a.Fresh s.held := fun _ _ _ hx => absurd hx List.not_mem_nil
  have hinit : memorySystem.Run [] s := .init rfl
  have hrun : memorySystem.Run [(s, a)] (s.exec a) := hinit.step ⟨hfresh, rfl⟩
  exact memory_accounting_iff (hrun.step ⟨trivial, rfl⟩)

end Lilt.Be
