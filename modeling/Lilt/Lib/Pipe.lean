import Mathlib.Data.List.Basic

/-!
# A pipe that carries frames

A sender writes frames of one length into a pipe, a receiver reads as many bytes at a
time. Both may get through with less than a frame at once, in pieces of any length, and
the sender may stop in the middle of a frame. The receiver still gets the first frames
that were sent, each of them whole, once and in order.

- `Pipe.Step`: the steps of the sender and of the receiver.
- `Pipe.Ordered`: the invariant; `Pipe.Step.ordered`: every step keeps it.
- `Pipe.Ordered.received_prefix`: what was received is a prefix of what was sent.
-/

namespace Pipe

variable {α : Type*}

/-- A pipe and its two ends. -/
structure State (α : Type*) where
  /-- the frames whose writing has begun, in order -/
  sent : List (List α)
  /-- what is left to be written of the last one -/
  left : List α
  /-- written and not read -/
  queue : List α
  /-- The sender's end is closed. -/
  closed : Bool
  /-- what has been read of the next frame -/
  got : List α
  /-- the frames that were received, in order -/
  received : List (List α)

/-- A pipe that nothing has been sent through. -/
def State.empty : State α where
  sent := []
  left := []
  queue := []
  closed := false
  got := []
  received := []

/-- What the two ends do with a pipe for frames of the length `n`. -/
inductive Step (n : Nat) : State α → State α → Prop where
  | stay (s : State α) : Step n s s
  | send (s : State α) {frame : List α} : s.left = [] → s.closed = false →
      frame.length = n → Step n s { s with sent := s.sent ++ [frame], left := frame }
  | write (s : State α) (k : Nat) :
      Step n s { s with left := s.left.drop k, queue := s.queue ++ s.left.take k }
  | close (s : State α) : Step n s { s with left := [], closed := true }
  | read (s : State α) (k : Nat) : (s.got ++ s.queue.take k).length < n →
      Step n s { s with got := s.got ++ s.queue.take k, queue := s.queue.drop k }
  | receive (s : State α) (k : Nat) : (s.got ++ s.queue.take k).length = n →
      Step n s
        { s with
          got := []
          queue := s.queue.drop k
          received := s.received ++ [s.got ++ s.queue.take k] }
  /-- The receiver finds the end and drops a part of a frame. -/
  | finish (s : State α) : s.closed = true → s.queue = [] → Step n s { s with got := [] }

/-- Nothing is lost, as long as the sender does not stop. -/
structure Ordered (n : Nat) (s : State α) : Prop where
  sent : ∀ frame ∈ s.sent, frame.length = n
  received : ∀ frame ∈ s.received, frame.length = n
  left : s.closed = true → s.left = []
  bytes : ∃ lost, s.received.flatten ++ s.got ++ s.queue ++ s.left ++ lost = s.sent.flatten ∧
    (s.closed = false → lost = [])

variable {n : Nat} {s t : State α}

theorem ordered_empty : Ordered n (State.empty : State α) where
  sent _ h := absurd h List.not_mem_nil
  received _ h := absurd h List.not_mem_nil
  left h := absurd h Bool.false_ne_true
  bytes := ⟨[], rfl, fun _ => rfl⟩

theorem forall_mem_concat {P : List α → Prop} {frames : List (List α)} {frame : List α}
    (h : ∀ f ∈ frames, P f) (hframe : P frame) : ∀ f ∈ frames ++ [frame], P f := by
  intro f hf
  rcases List.mem_append.mp hf with hf | hf
  · exact h f hf
  · rw [List.mem_singleton.mp hf]
    exact hframe

theorem Step.ordered (h : Ordered n s) (hstep : Step n s t) : Ordered n t := by
  obtain ⟨lost, hbytes, hlost⟩ := h.bytes
  cases hstep with
  | stay => exact h
  | @send frame hleft hclosed hframe =>
    refine ⟨forall_mem_concat h.sent hframe, h.received,
      fun hc => absurd (hclosed.symm.trans hc) Bool.false_ne_true, [], ?_, fun _ => rfl⟩
    rw [hleft, hlost hclosed, List.append_nil, List.append_nil] at hbytes
    simp only [List.flatten_append, List.flatten_singleton, List.append_nil, ← hbytes]
  | write k =>
    refine ⟨h.sent, h.received, fun hc => ?_, lost, ?_, hlost⟩
    · show s.left.drop k = []
      rw [h.left hc, List.drop_nil]
    · rw [← hbytes]
      simp only [List.append_assoc, List.append_cancel_left_eq]
      rw [← List.append_assoc, List.take_append_drop]
  | close =>
    refine ⟨h.sent, h.received, fun _ => rfl, s.left ++ lost, ?_,
      fun hc => absurd hc Bool.noConfusion⟩
    rw [← hbytes]
    simp only [List.append_assoc, List.nil_append]
  | read k hlt =>
    refine ⟨h.sent, h.received, h.left, lost, ?_, hlost⟩
    rw [← hbytes]
    simp only [List.append_assoc, List.append_cancel_left_eq]
    rw [← List.append_assoc, List.take_append_drop]
  | receive k hlength =>
    refine ⟨h.sent, forall_mem_concat h.received hlength, h.left, lost, ?_, hlost⟩
    rw [← hbytes]
    simp only [List.flatten_append, List.flatten_singleton, List.append_assoc, List.nil_append,
      List.append_cancel_left_eq]
    rw [← List.append_assoc, List.take_append_drop]
  | finish hclosed hqueue =>
    refine ⟨h.sent, h.received, h.left, s.got ++ lost, ?_, fun hc => ?_⟩
    · rw [← hbytes, hqueue, h.left hclosed]
      simp only [List.append_assoc, List.append_nil]
    · exact absurd (hclosed.symm.trans hc) Bool.noConfusion

/-- Frames of one length are told apart by their bytes. -/
theorem prefix_of_flatten (hn : 0 < n) {xs ys : List (List α)} (hx : ∀ x ∈ xs, x.length = n)
    (hy : ∀ y ∈ ys, y.length = n) (h : xs.flatten <+: ys.flatten) : xs <+: ys := by
  induction xs generalizing ys with
  | nil => exact List.nil_prefix
  | cons x xs ih =>
    have hlength := hx x List.mem_cons_self
    cases ys with
    | nil =>
      have hnil : x ++ xs.flatten = [] := List.prefix_nil.mp h
      rw [(List.append_eq_nil_iff.mp hnil).1, List.length_nil] at hlength
      omega
    | cons y ys =>
      obtain ⟨rest, hrest⟩ := h
      rw [List.flatten_cons, List.flatten_cons, List.append_assoc] at hrest
      obtain ⟨rfl, htail⟩ := List.append_inj hrest (hlength.trans (hy y List.mem_cons_self).symm)
      have hprefix := ih (fun z hz => hx z (List.mem_cons_of_mem x hz))
        (fun z hz => hy z (List.mem_cons_of_mem x hz)) ⟨rest, htail⟩
      exact (List.prefix_cons_inj x).mpr hprefix

/-- What was received is what was sent first. -/
theorem Ordered.received_prefix (h : Ordered n s) (hn : 0 < n) : s.received <+: s.sent := by
  obtain ⟨lost, hbytes, -⟩ := h.bytes
  refine prefix_of_flatten hn h.received h.sent ⟨s.got ++ s.queue ++ s.left ++ lost, ?_⟩
  rw [← hbytes]
  simp only [List.append_assoc]

end Pipe
