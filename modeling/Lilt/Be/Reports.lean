import Lilt.Be.Memory
import Mathlib.Algebra.BigOperators.Group.List.Basic
import Mathlib.Data.List.Perm.Basic

/-!
# The memory a BE process is told of

A BE process does not see the memory of the device: it is told that there is a
gigabyte less, and that free is what the process itself has not allocated. And when
an HP process leaves, the allocations of the BE process are brought back to the
device they were made for.

- `cuDeviceTotalMem_v2` … `cuMemGetInfo`: the reports.
- `memoryTransferRoutine`: the ranges that are brought back.
- `reported_memory_exact`: after any sequence of calls, the reports are the device's
  total less what the driver holds for the process, and the spare memory taken off
  twice from the free.
- `transfer_prefetches_held`: what the driver holds is brought back, all of it and
  each allocation to the device it was made for.
-/

namespace Lilt.Be

open Lilt.Driver Transition

/-- `g_spare_memory` -/
def gSpareMemory : UInt64 := (1 : UInt64) <<< (30 : UInt64)

/-- `*total > g_spare_memory ? *total - g_spare_memory : 0` -/
def withoutSpare (total : UInt64) : UInt64 :=
  if gSpareMemory < total then total - gSpareMemory else 0

/-- `cuDeviceTotalMem_v2`; `o`: what the driver answers. -/
def cuDeviceTotalMem_v2 (o : Except CudaError UInt64) : Except CudaError UInt64 :=
  o.map withoutSpare

/-- `cuDeviceTotalMem` -/
def cuDeviceTotalMem (o : Except CudaError UInt64) : Except CudaError UInt64 :=
  o.map withoutSpare

/-- What is reported as free, where `total` is reported already. The driver's own answer
plays no part in it. -/
def reportedFree (m : MemoryAccount) (total : UInt64) : UInt64 :=
  if gSpareMemory + m.usedMemory < total then total - gSpareMemory - m.usedMemory else 0

/-- `cuMemGetInfo_v2`: `*free` and `*total`. -/
def cuMemGetInfo_v2 (m : MemoryAccount) (o : Except CudaError (UInt64 × UInt64)) :
    Except CudaError (UInt64 × UInt64) :=
  o.map fun (_, total) => (reportedFree m (withoutSpare total), withoutSpare total)

/-- `cuMemGetInfo` -/
def cuMemGetInfo (m : MemoryAccount) (o : Except CudaError (UInt64 × UInt64)) :
    Except CudaError (UInt64 × UInt64) :=
  o.map fun (_, total) => (reportedFree m (withoutSpare total), withoutSpare total)

/-- `memory_transfer_routine`: the ranges it calls `cuMemPrefetchAsync` for, in order. A
prefetch that fails is passed over. -/
def memoryTransferRoutine (m : MemoryAccount) (device : CUdevice) : List MemRange :=
  m.ranges.filter fun it => it.device = device

/-! ## After a sequence of calls -/

/-- The sequences of calls in which the driver answers the two calls of each allocation
alike. -/
def agreeingSystem : System MemoryState MemoryCall := memorySystem.restrict fun _ a => a.Agree

/-- If calls fail and are recorded together only, the list is what the driver holds. -/
theorem exact_inductive : agreeingSystem.Inductive Exact := by
  constructor
  · rintro s rfl
    exact { used := rfl, ranges := .nil }
  · rintro s a t hs h ⟨hagree, -, rfl⟩
    have hdistinct := distinct_inductive.reachable hs.of_restrict
    cases a with
    | allocate call dptr o => exact ((exact_allocate_iff h call dptr o).mpr hagree).1
    | free_v2 dptr ret => exact h.free hdistinct dptr ret
    | free dptr ret => exact h.free hdistinct dptr ret

/-- How much the driver holds. -/
def heldBytes (held : List Allocation) : Nat := (held.map fun x => x.2.toNat).sum

/-- Such a list counts the bytes that the driver holds. -/
theorem Exact.totalCount_eq {s : MemoryState} (h : Exact s) :
    totalCount s.account.ranges = heldBytes s.held := by
  have hperm := h.ranges.map fun x => x.2.toNat
  rw [List.map_map] at hperm
  exact hperm.sum_eq

/-- One gibibyte. -/
theorem gSpareMemory_toNat : gSpareMemory.toNat = 2 ^ 30 := rfl

/-- The spare memory is taken off once, down to zero. -/
theorem withoutSpare_toNat (total : UInt64) :
    (withoutSpare total).toNat = total.toNat - 2 ^ 30 := by
  unfold withoutSpare
  split
  next h => rw [UInt64.toNat_sub_of_le _ _ (UInt64.le_of_lt h), gSpareMemory_toNat]
  next h =>
    rw [UInt64.not_lt, UInt64.le_iff_toNat_le, gSpareMemory_toNat] at h
    rw [Nat.sub_eq_zero_of_le h]
    rfl

/-- The used memory is taken off what is left, down to zero. -/
theorem reportedFree_toNat {m : MemoryAccount} (hfits : m.usedMemory.toNat + 2 ^ 30 < 2 ^ 64)
    (total : UInt64) :
    (reportedFree m total).toNat = total.toNat - 2 ^ 30 - m.usedMemory.toNat := by
  have hsum : (gSpareMemory + m.usedMemory).toNat = 2 ^ 30 + m.usedMemory.toNat := by
    rw [UInt64.toNat_add, gSpareMemory_toNat]
    omega
  unfold reportedFree
  split
  next h =>
    rw [UInt64.lt_iff_toNat_lt, hsum] at h
    have hfirst : gSpareMemory ≤ total := by
      rw [UInt64.le_iff_toNat_le, gSpareMemory_toNat]
      omega
    have hroom : (total - gSpareMemory).toNat = total.toNat - 2 ^ 30 := by
      rw [UInt64.toNat_sub_of_le _ _ hfirst, gSpareMemory_toNat]
    rw [UInt64.toNat_sub_of_le _ _ (UInt64.le_iff_toNat_le.mpr (by omega)), hroom]
  next h =>
    rw [UInt64.lt_iff_toNat_lt, hsum] at h
    have hzero : total.toNat - 2 ^ 30 - m.usedMemory.toNat = 0 := by omega
    rw [hzero]
    rfl

/-- After every sequence of calls in which the driver's answers agree, while what it holds
and the spare memory fit into a `size_t`: all functions report the device's total less the
spare memory; as free is reported what remains of that when the spare memory is taken off
again and everything that the driver holds for the process. -/
theorem reported_memory_exact {s : MemoryState} (h : agreeingSystem.Reachable s)
    (hfits : heldBytes s.held + 2 ^ 30 < 2 ^ 64) (free total : UInt64) :
    ∃ free' total' : UInt64,
      cuDeviceTotalMem_v2 (.ok total) = .ok total' ∧ cuDeviceTotalMem (.ok total) = .ok total' ∧
      cuMemGetInfo_v2 s.account (.ok (free, total)) = .ok (free', total') ∧
      cuMemGetInfo s.account (.ok (free, total)) = .ok (free', total') ∧
      total'.toNat = total.toNat - 2 ^ 30 ∧
      free'.toNat = total.toNat - 2 ^ 31 - heldBytes s.held := by
  have hexact := exact_inductive.reachable h
  have hused : s.account.usedMemory.toNat = heldBytes s.held := by
    rw [hexact.used, hexact.totalCount_eq]
    exact Nat.mod_eq_of_lt (by omega)
  refine ⟨reportedFree s.account (withoutSpare total), withoutSpare total, rfl, rfl, rfl, rfl,
    withoutSpare_toNat total, ?_⟩
  rw [reportedFree_toNat (by omega), withoutSpare_toNat, hused]
  omega

/-- A process that holds 16 bytes. -/
def sixteenBytes : MemoryState := ⟨⟨16, [⟨4096, 16, 0⟩], 1⟩, [(4096, 16)]⟩

/-- Allocations of 16 bytes lead there. -/
theorem sixteenBytes_reachable : agreeingSystem.Reachable sixteenBytes := by
  have hempty : agreeingSystem.Reachable ⟨⟨0, [], 0⟩, []⟩ := .init rfl
  refine .step hempty (a := .allocate (.alloc 16) 0
    { allocate := .ok 4096, getDevice := .ok 0, advise := 0 }) ⟨trivial, ?_, rfl⟩
  exact fun _ _ _ hx => absurd hx List.not_mem_nil

/-- On a device of four gigabytes. -/
theorem reported_memory_exact_sixteen :
    let total : UInt64 := 4294967296
    ∃ free' total' : UInt64,
      cuDeviceTotalMem_v2 (.ok total) = .ok total' ∧ cuDeviceTotalMem (.ok total) = .ok total' ∧
      cuMemGetInfo_v2 sixteenBytes.account (.ok (0, total)) = .ok (free', total') ∧
      cuMemGetInfo sixteenBytes.account (.ok (0, total)) = .ok (free', total') ∧
      total'.toNat = total.toNat - 2 ^ 30 ∧
      free'.toNat = total.toNat - 2 ^ 31 - heldBytes sixteenBytes.held :=
  reported_memory_exact sixteenBytes_reachable (by decide) 0 4294967296

/-! ## Bringing the memory back -/

/-- Picking the ranges device by device finds each of them once. -/
theorem flatMap_filter_perm {devices : List CUdevice} (hnodup : devices.Nodup)
    {ranges : List MemRange} (hall : ∀ x ∈ ranges, x.device ∈ devices) :
    (devices.flatMap fun d => ranges.filter fun it => it.device = d).Perm ranges := by
  induction devices generalizing ranges with
  | nil =>
    obtain rfl := List.eq_nil_iff_forall_not_mem.mpr fun x hx => List.not_mem_nil (hall x hx)
    exact .nil
  | cons d devices ih =>
    obtain ⟨hd, hnodup⟩ := List.nodup_cons.mp hnodup
    -- the other devices have what is left when the ranges of the first are taken out
    have hrest : (devices.flatMap fun e => ranges.filter fun it => it.device = e) =
        devices.flatMap fun e =>
          (ranges.filter fun it => ¬ it.device = d).filter fun it => it.device = e := by
      refine List.flatMap_congr fun e he => ?_
      rw [List.filter_filter]
      refine List.filter_congr fun it _ => ?_
      by_cases hit : it.device = e
      · have hne : it.device ≠ d := fun h => hd (h ▸ hit ▸ he)
        simp [hit, hit ▸ hne]
      · simp [hit]
    have hleft : ∀ x ∈ ranges.filter (fun it => ¬ it.device = d), x.device ∈ devices := by
      intro x hx
      obtain ⟨hx, hne⟩ := List.mem_filter.mp hx
      exact (List.mem_cons.mp (hall x hx)).resolve_left (of_decide_eq_true hne)
    rw [List.flatMap_cons, hrest]
    refine ((ih hnodup hleft).append_left _).trans ?_
    simpa using List.filter_append_perm (fun it : MemRange => it.device = d) ranges

/-- What the driver holds after the call, with the device of the context in which each
allocation was made. -/
def MemoryCall.places (placed : List MemRange) : MemoryCall → List MemRange
  | .allocate call _ o =>
    match o.allocate, o.getDevice with
    | .ok devPtr, .ok device => ⟨devPtr, call.bytesize, device⟩ :: placed
    | _, _ => placed
  | .free_v2 dptr ret | .free dptr ret =>
    if ret = cudaSuccess then placed.eraseP fun x => x.devPtr = dptr else placed

/-- The same after a sequence of calls. -/
def placedAfter (tr : List (MemoryState × MemoryCall)) : List MemRange :=
  tr.foldl (fun placed x => x.2.places placed) []

/-- The ranges have distinct addresses, as the allocations that the driver holds. -/
theorem Exact.distinct {s : MemoryState} (h : Exact s) (hdistinct : Distinct s.held) :
    s.account.ranges.Pairwise fun x y => x.devPtr ≠ y.devPtr := by
  have hmap : (s.account.ranges.map MemRange.allocation).Pairwise fun x y => x.1 ≠ y.1 :=
    h.ranges.symm.pairwise hdistinct fun hne => hne.symm
  have hranges := List.pairwise_map.mp hmap
  exact hranges

/-- The list has what the driver holds, under the device it was made for. -/
theorem ranges_perm_placed {tr : List (MemoryState × MemoryCall)} {s : MemoryState}
    (h : agreeingSystem.Run tr s) : s.account.ranges.Perm (placedAfter tr) := by
  induction h with
  | init h =>
    obtain rfl := h
    exact .nil
  | @step tr s t a hrun hstep ih =>
    obtain ⟨hagree, -, rfl⟩ := hstep
    have hexact := exact_inductive.reachable hrun.reachable
    have hdistinct := hexact.distinct (distinct_inductive.reachable hrun.reachable.of_restrict)
    have hafter : placedAfter (tr ++ [(s, a)]) = a.places (placedAfter tr) := by
      unfold placedAfter
      rw [List.foldl_append]
      rfl
    have hfree : ∀ (dptr : CUdeviceptr) (ret : CUresult),
        (if ret = cudaSuccess then deleteMem s.account dptr else s.account).ranges.Perm
          (if ret = cudaSuccess then (placedAfter tr).eraseP fun x => x.devPtr = dptr
            else placedAfter tr) := by
      intro dptr ret
      split
      · rw [deleteMem_ranges]
        -- no two ranges are at the address, so it does not matter which goes
        refine ih.eraseP _ (hdistinct.imp fun hne hx hy => ?_)
        exact hne ((of_decide_eq_true hx).trans (of_decide_eq_true hy).symm)
      · exact ih
    rw [hafter]
    cases a with
    | allocate call dptr o =>
      obtain ⟨allocate, getDevice, advise⟩ := o
      simp only [MemoryState.exec, MemoryCall.exec, AllocCall.exec_eq, allocateManaged]
      rcases allocate with ret | devPtr <;> rcases getDevice with ret' | device
      · exact ih
      · exact absurd hagree id
      · exact absurd hagree id
      · exact ih.cons _
    | free_v2 dptr ret => exact hfree dptr ret
    | free dptr ret => exact hfree dptr ret

/-- After every sequence of calls in which the driver's answers agree, over devices that have
all the ranges: what is prefetched is what the driver holds for the process, each allocation
whole and once; and to each device the allocations that were made for it. -/
theorem transfer_prefetches_held {tr : List (MemoryState × MemoryCall)} {s : MemoryState}
    (h : agreeingSystem.Run tr s) {devices : List CUdevice} (hnodup : devices.Nodup)
    (hall : ∀ x ∈ s.account.ranges, x.device ∈ devices) :
    ((devices.flatMap (memoryTransferRoutine s.account)).map MemRange.allocation).Perm s.held ∧
      ((placedAfter tr).map MemRange.allocation).Perm s.held ∧
      ∀ d, (memoryTransferRoutine s.account d).Perm
        ((placedAfter tr).filter fun x => x.device = d) := by
  have hheld := (exact_inductive.reachable h.reachable).ranges
  have hplaced := ranges_perm_placed h
  refine ⟨?_, (hplaced.symm.map _).trans hheld, fun d => hplaced.filter _⟩
  exact ((flatMap_filter_perm hnodup hall).map MemRange.allocation).trans hheld

/-- An allocation of 16 bytes on device 0. -/
def onDeviceZero : MemoryCall :=
  .allocate (.alloc 16) 0 { allocate := .ok 4096, getDevice := .ok 0, advise := 0 }

/-- One of 32 bytes on device 1. -/
def onDeviceOne : MemoryCall :=
  .allocate (.alloc_v2 32) 0 { allocate := .ok 8192, getDevice := .ok 1, advise := 0 }

theorem transfer_prefetches_held_two :
    ∃ s : MemoryState, s.held = [(8192, 32), (4096, 16)] ∧
      (([0, 1].flatMap (memoryTransferRoutine s.account)).map MemRange.allocation).Perm s.held ∧
      (memoryTransferRoutine s.account 1).Perm [⟨8192, 32, 1⟩] := by
  have hinit : agreeingSystem.Run [] ⟨⟨0, [], 0⟩, []⟩ := .init rfl
  have hfirst := hinit.step (a := onDeviceZero)
    ⟨trivial, fun _ _ _ hx => absurd hx List.not_mem_nil, rfl⟩
  have hsecond := hfirst.step (a := onDeviceOne) ⟨trivial, ?_, rfl⟩
  · have hnodup : [(0 : CUdevice), 1].Nodup := by decide
    obtain ⟨hall, -, heach⟩ := transfer_prefetches_held hsecond hnodup (by decide)
    exact ⟨_, rfl, hall, heach 1⟩
  · intro devPtr hok x hx
    obtain rfl := Except.ok.inj hok
    rw [List.mem_singleton.mp hx]
    decide

end Lilt.Be
