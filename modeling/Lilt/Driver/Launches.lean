import Lilt.Driver.Handles

/-!
# The intercepted launches

The entry points through which both proxies see kernels and graphs launched, each
with its `_ptsz` variant, and the question whether a stream is being captured,
which both proxies put to the driver in the same way.
-/

namespace Lilt.Driver

/-- `CUstreamCaptureStatus` -/
inductive CUstreamCaptureStatus where
  | none
  | active
  | invalidated
  deriving DecidableEq

/-- The answer to `cuStreamIsCapturing`, or its `_ptsz` variant, for a stream. -/
structure CaptureAnswer where
  /-- The driver has the entry point. -/
  present : Bool
  result : CUresult
  status : CUstreamCaptureStatus

/-- What the driver says about the capture of each stream. -/
abbrev CaptureAnswers := (stream : CUstream) → (perThreadDefaultStream : Bool) → CaptureAnswer

/-- `lilt_stream_is_capturing` -/
def liltStreamIsCapturing (a : CaptureAnswer) : Bool :=
  a.present && a.result = cudaSuccess && a.status ≠ .none

/-- The driver reports an ongoing capture. -/
structure CaptureAnswer.ReportsCapture (a : CaptureAnswer) : Prop where
  present : a.present = true
  success : a.result = cudaSuccess
  capturing : a.status ≠ .none

theorem liltStreamIsCapturing_iff (a : CaptureAnswer) :
    liltStreamIsCapturing a = true ↔ a.ReportsCapture := by
  unfold liltStreamIsCapturing
  constructor
  · intro h
    simp only [Bool.and_eq_true, decide_eq_true_eq] at h
    exact { present := h.1.1, success := h.1.2, capturing := h.2 }
  · intro h
    simp [h.present, h.success, h.capturing]

/-- The grid of a kernel launch. -/
structure Grid where
  x : UInt32
  y : UInt32
  z : UInt32

/-- `(uint64_t)gridDimX * gridDimY * gridDimZ` -/
def Grid.blocks (g : Grid) : UInt64 := g.x.toUInt64 * g.y.toUInt64 * g.z.toUInt64

/-- An entry point, with what it is to launch. -/
inductive LaunchEntry where
  | cuLaunchKernel (function : CUfunction) (grid : Grid)
  | cuLaunchCooperativeKernel (function : CUfunction) (grid : Grid)
  | cuLaunchKernelEx (function : CUfunction) (grid : Grid)
  | cuGraphLaunch (exec : Nat)

/-- A launch that an application makes; `perThreadDefaultStream` for the `_ptsz`
variant of the entry point. -/
structure LaunchCall where
  entry : LaunchEntry
  stream : CUstream
  perThreadDefaultStream : Bool

/-- Whether the hooks do anything, and what. -/
structure HookConfig where
  /-- `lilt_event_policy_enabled` -/
  eventPolicy : Bool
  /-- `lilt_event_passthrough_enabled` -/
  passthrough : Bool

/-- The configuration that `launch_kernel_ex` gets, as far as it reads it. -/
structure CUlaunchConfig where
  grid : Grid
  hStream : CUstream

end Lilt.Driver
