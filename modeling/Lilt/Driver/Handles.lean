import Mathlib.Logic.Basic

/-!
# CUDA handles and the streams they denote

Stream handles are the raw values the application passes; which stream a handle
denotes depends on the entry point (`_ptsz` or not) and, for the per-thread
default stream, on the calling thread. Event handles are the device's; `0` is
`NULL` for both.
-/

namespace Lilt.Driver

/-- A host thread of one process. -/
abbrev Thread := Nat

/-- A `CUstream` value: `NULL`, `CU_STREAM_LEGACY` (1), `CU_STREAM_PER_THREAD`
(2) or the handle of a created stream. -/
abbrev CUstream := Nat

/-- A `CUfunction` value, or a graph handle in its place; `0` is `NULL`. -/
abbrev CUfunction := UInt64

/-- A `CUdeviceptr` value. -/
abbrev CUdeviceptr := UInt64

/-- A `CUdevice` value. -/
abbrev CUdevice := Int

/-- A `CUevent` value; `0` is `NULL`. -/
abbrev CUevent := Nat

/-- A `CUresult` value. -/
abbrev CUresult := Nat

/-- `CUDA_SUCCESS` -/
def cudaSuccess : CUresult := 0

/-- A `CUresult` that reports an error. -/
abbrev CudaError := { result : CUresult // result ≠ cudaSuccess }

/-- `CUDA_ERROR_NOT_SUPPORTED` -/
def cudaErrorNotSupported : CUresult := 801

/-- The streams of one CUDA context. -/
inductive GpuStream where
  | legacy
  | perThread (t : Thread)
  | created (h : CUstream)
  deriving DecidableEq

/-- The stream a call of thread `t` works on when it passes the handle `h` to an
entry point (`ptsz`: its `_ptsz` variant). -/
def resolve (h : CUstream) (ptsz : Bool) (t : Thread) : GpuStream :=
  if h = 0 then (if ptsz then .perThread t else .legacy)
  else if h = 1 then .legacy
  else if h = 2 then .perThread t
  else .created h

/-- The call works on a created stream or on the legacy default stream. -/
def IsShared (h : CUstream) (ptsz : Bool) : Prop := h ≠ 2 ∧ (h = 0 → ptsz = false)

instance (h : CUstream) (ptsz : Bool) : Decidable (IsShared h ptsz) :=
  inferInstanceAs (Decidable (_ ∧ _))

/-- `IsShared` is what it says: the stream is nobody's per-thread stream. -/
theorem isShared_iff (h : CUstream) (ptsz : Bool) (t : Thread) :
    IsShared h ptsz ↔ ∀ u, resolve h ptsz t ≠ .perThread u := by
  unfold IsShared resolve
  by_cases h0 : h = 0
  · subst h0; cases ptsz <;> simp
  · by_cases h1 : h = 1
    · subst h1; simp
    · by_cases h2 : h = 2
      · subst h2; simp
      · simp [h0, h1, h2]

/-- A handle that is used for shared streams only denotes the same stream in
every entry point and thread. -/
theorem resolve_shared {h : CUstream} {p p' : Bool} (t t' : Thread)
    (hs : IsShared h p) (hs' : IsShared h p') : resolve h p t = resolve h p' t' := by
  obtain ⟨h2, h0⟩ := hs
  obtain ⟨-, h0'⟩ := hs'
  unfold resolve
  by_cases hz : h = 0
  · simp [hz, h0 hz, h0' hz]
  · rw [if_neg hz, if_neg hz, if_neg h2, if_neg h2]

/-- A handle means one stream to two threads, unless that is the stream of the first. -/
theorem resolve_of_owner {h : CUstream} {p : Bool} {t t' : Thread}
    (howner : ∀ u, resolve h p t = .perThread u → t' = u) : resolve h p t = resolve h p t' := by
  unfold resolve at howner ⊢
  by_cases hz : h = 0
  · simp only [if_pos hz] at howner ⊢
    cases p with
    | true => rw [howner t rfl]
    | false => rfl
  · simp only [if_neg hz] at howner ⊢
    by_cases htwo : h = 2
    · subst htwo
      rw [howner t rfl]
    · simp only [if_neg htwo]

end Lilt.Driver
