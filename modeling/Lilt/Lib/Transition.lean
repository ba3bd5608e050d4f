import Mathlib.Data.List.Basic

/-!
# Labelled transition systems

A `System` has a predicate of initial states and a labelled step relation. The
states it can reach are the ones some finite run ends in, so a property of
every reachable state is proved once per step (`Inductive`) and packaged here.

- `System.Reachable`: the states of the runs.
- `System.Inductive.reachable`: an inductive property holds in every reachable
  state; the step obligation may use that the source state is itself reachable,
  so invariants can be proved one after the other.
- `System.restrict`: the same system where only the steps that meet a condition
  on the source state and the label are taken. Its reachable states are the
  states of the runs all of whose steps meet the condition.
- `System.resume`, `System.Path`, `System.LeadsTo`: a system taken up in a given state, and
  the ways from one state to another.
- `System.Run.split`: the part of a run before one of its steps.
- `System.Run.throughout_of_last`: a property that no step brings back holds all
  along a run if it holds at its end.
- `System.Run.throughout_iff`: a property that every step keeps exactly when it
  meets a condition holds all along a run exactly when all its steps meet it.
  `System.Run.throughout_meets_iff` adds a property of the steps themselves.
-/

namespace Transition

universe u v

/-- A labelled transition system over states `σ` and labels `α`. -/
structure System (σ : Type u) (α : Type v) where
  /-- The states a run may start in. -/
  Init : σ → Prop
  /-- `Step s a t`: from `s`, the action `a` may lead to `t`. -/
  Step : σ → α → σ → Prop

namespace System

variable {σ : Type u} {α : Type v} {S : System σ α}

/-- The states that some finite run from an initial state ends in. -/
inductive Reachable (S : System σ α) : σ → Prop where
  | init {s : σ} : S.Init s → Reachable S s
  | step {s t : σ} {a : α} : Reachable S s → S.Step s a t → Reachable S t

/-- `I` holds initially and every step out of a reachable state keeps it. -/
structure Inductive (S : System σ α) (I : σ → Prop) : Prop where
  init : ∀ s, S.Init s → I s
  step : ∀ s a t, S.Reachable s → I s → S.Step s a t → I t

/-- The induction rule: an inductive property holds in every reachable state. -/
theorem Inductive.reachable {I : σ → Prop} (hI : S.Inductive I) {s : σ}
    (h : S.Reachable s) : I s := by
  induction h with
  | init h => exact hI.init _ h
  | step hs hstep ih => exact hI.step _ _ _ hs ih hstep

/-- Only the steps that meet `C`, a condition on the source state and the
label. -/
def restrict (S : System σ α) (C : σ → α → Prop) : System σ α where
  Init := S.Init
  Step s a t := C s a ∧ S.Step s a t

/-- A restricted run is a run. -/
theorem Reachable.of_restrict {C : σ → α → Prop} {s : σ}
    (h : (S.restrict C).Reachable s) : S.Reachable s := by
  induction h with
  | init h => exact .init h
  | step _ hstep ih => exact .step ih hstep.2

/-- The same system, taken up in one of the states `P`. -/
def resume (S : System σ α) (P : σ → Prop) : System σ α where
  Init := P
  Step := S.Step

/-- What holds in every reachable state holds of what is taken up in one of them. -/
theorem Reachable.of_resume {P : σ → Prop} (hP : ∀ s, P s → S.Reachable s) {s : σ}
    (h : (S.resume P).Reachable s) : S.Reachable s := by
  induction h with
  | init h => exact hP _ h
  | step _ hstep ih => exact .step ih hstep

/-- `Path S s as t`: the actions `as`, one after the other, lead from `s` to `t`. -/
inductive Path (S : System σ α) : σ → List α → σ → Prop where
  | nil (s : σ) : Path S s [] s
  | cons {s t u : σ} {a : α} {as : List α} :
      S.Step s a t → Path S t as u → Path S s (a :: as) u

/-- Some actions lead from `s` to `t`. -/
def LeadsTo (S : System σ α) (s t : σ) : Prop := ∃ as, S.Path s as t

theorem LeadsTo.refl (s : σ) : S.LeadsTo s s := ⟨[], .nil s⟩

/-- A step in front of a run. -/
theorem LeadsTo.step {s t u : σ} {a : α} (h : S.Step s a t) (htu : S.LeadsTo t u) :
    S.LeadsTo s u := by
  obtain ⟨as, hpath⟩ := htu
  exact ⟨a :: as, .cons h hpath⟩

/-- Runs are put behind each other. -/
theorem LeadsTo.trans {s t u : σ} (hst : S.LeadsTo s t) (htu : S.LeadsTo t u) :
    S.LeadsTo s u := by
  obtain ⟨as, hpath⟩ := hst
  induction hpath with
  | nil s => exact htu
  | cons hstep _ ih => exact .step hstep (ih htu)

/-- A run of the restricted system is a run of the system. -/
theorem LeadsTo.of_restrict {C : σ → α → Prop} {s t : σ} (h : (S.restrict C).LeadsTo s t) :
    S.LeadsTo s t := by
  obtain ⟨as, hpath⟩ := h
  induction hpath with
  | nil s => exact .refl s
  | cons hstep _ ih => exact .step hstep.2 ih

/-- A way in one system is a way in another if each of its steps is. -/
theorem LeadsTo.lift {τ : Type*} {β : Type*} {T : System τ β} {f : σ → τ}
    (hf : ∀ s a t, S.Step s a t → T.LeadsTo (f s) (f t)) {s t : σ} (h : S.LeadsTo s t) :
    T.LeadsTo (f s) (f t) := by
  obtain ⟨as, hpath⟩ := h
  induction hpath with
  | nil s => exact .refl _
  | cons hstep _ ih => exact (hf _ _ _ hstep).trans ih

/-- What every step keeps is kept on the way. -/
theorem LeadsTo.keeps {I : σ → Prop} (hI : ∀ s a t, I s → S.Step s a t → I t) {s t : σ}
    (h : S.LeadsTo s t) (hs : I s) : I t := by
  obtain ⟨as, hpath⟩ := h
  induction hpath with
  | nil s => exact hs
  | cons hstep _ ih => exact ih (hI _ _ _ hs hstep)

/-- What is reached from a reachable state is reachable. -/
theorem Reachable.leadsTo {s t : σ} (hs : S.Reachable s) (h : S.LeadsTo s t) : S.Reachable t :=
  h.keeps (fun _ _ _ hu hstep => hu.step hstep) hs

/-- Where a function gives the state after a step, the actions `as` lead to a reachable
state. -/
theorem Reachable.foldlM {step : σ → α → Option σ}
    (hstep : ∀ s a t, step s a = some t → S.Step s a t) {as : List α} {s t : σ}
    (hs : S.Reachable s) (h : as.foldlM step s = some t) : S.Reachable t := by
  induction as generalizing s with
  | nil => exact Option.some.inj h ▸ hs
  | cons a rest ih =>
    rw [List.foldlM_cons] at h
    obtain ⟨u, hu, hrest⟩ := Option.bind_eq_some_iff.mp h
    exact ih (.step hs (hstep _ _ _ hu)) hrest

/-- Where the steps are restricted, and it can be decided to which. -/
theorem Reachable.foldlM_restrict {step : σ → α → Option σ} {C : σ → α → Prop}
    [∀ s a, Decidable (C s a)] (hstep : ∀ s a t, step s a = some t → S.Step s a t)
    {as : List α} {s t : σ} (hs : (S.restrict C).Reachable s)
    (h : as.foldlM (fun s a => if C s a then step s a else none) s = some t) :
    (S.restrict C).Reachable t := by
  refine hs.foldlM (fun u a v huv => ?_) h
  split at huv
  next ha => exact ⟨ha, hstep u a v huv⟩
  next => cases huv

/-- A weaker restriction leaves no state out. -/
theorem Reachable.restrict_mono {C D : σ → α → Prop} (hCD : ∀ s a, C s a → D s a) {s : σ}
    (h : (S.restrict C).Reachable s) : (S.restrict D).Reachable s := by
  induction h with
  | init h => exact .init h
  | step _ hstep ih => exact .step ih ⟨hCD _ _ hstep.1, hstep.2⟩

/-! ## Runs and the steps they take -/

/-- `Run S tr s`: a run ends in `s`, having taken the steps `tr`, each given by
its source state and its label. -/
inductive Run (S : System σ α) : List (σ × α) → σ → Prop where
  | init {s : σ} : S.Init s → Run S [] s
  | step {tr : List (σ × α)} {s t : σ} {a : α} :
      Run S tr s → S.Step s a t → Run S (tr ++ [(s, a)]) t

/-- `P` holds in every state of the run. -/
def Throughout (P : σ → Prop) (tr : List (σ × α)) (s : σ) : Prop :=
  (∀ x ∈ tr, P x.1) ∧ P s

/-- Every step of the run meets `C`. -/
def Meets (C : σ → α → Prop) (tr : List (σ × α)) : Prop :=
  ∀ x ∈ tr, C x.1 x.2

/-- A property throughout a run with one more step. -/
theorem throughout_snoc {P : σ → Prop} {tr : List (σ × α)} {s t : σ} {a : α} :
    Throughout P (tr ++ [(s, a)]) t ↔ Throughout P tr s ∧ P t := by
  constructor
  · rintro ⟨h, ht⟩
    exact ⟨⟨fun x hx => h x (List.mem_append_left _ hx),
      h (s, a) (List.mem_append_right _ (List.mem_singleton.mpr rfl))⟩, ht⟩
  · rintro ⟨⟨h, hs⟩, ht⟩
    refine ⟨fun x hx => ?_, ht⟩
    rcases List.mem_append.mp hx with hx | hx
    · exact h x hx
    · rw [List.mem_singleton.mp hx]
      exact hs

/-- A condition on the steps of a run with one more. -/
theorem meets_snoc {C : σ → α → Prop} {tr : List (σ × α)} {s : σ} {a : α} :
    Meets C (tr ++ [(s, a)]) ↔ Meets C tr ∧ C s a := by
  constructor
  · intro h
    exact ⟨fun x hx => h x (List.mem_append_left _ hx),
      h (s, a) (List.mem_append_right _ (List.mem_singleton.mpr rfl))⟩
  · rintro ⟨h, hs⟩ x hx
    rcases List.mem_append.mp hx with hx | hx
    · exact h x hx
    · rw [List.mem_singleton.mp hx]
      exact hs

/-- A run whose steps all meet `C` is a run of the restricted system. -/
theorem Run.restrict {C : σ → α → Prop} {tr : List (σ × α)} {s : σ}
    (h : S.Run tr s) (hC : Meets C tr) : (S.restrict C).Run tr s := by
  induction h with
  | init h => exact .init h
  | step _ hstep ih =>
    obtain ⟨htr, ha⟩ := meets_snoc.mp hC
    exact .step (ih htr) ⟨ha, hstep⟩

/-- The steps of a restricted run meet the condition. -/
theorem Run.of_restrict {C : σ → α → Prop} {tr : List (σ × α)} {s : σ}
    (h : (S.restrict C).Run tr s) : S.Run tr s ∧ Meets C tr := by
  induction h with
  | init h => exact ⟨.init h, fun _ hx => absurd hx List.not_mem_nil⟩
  | step _ hstep ih => exact ⟨.step ih.1 hstep.2, meets_snoc.mpr ⟨ih.2, hstep.1⟩⟩

/-- A run of the restricted system with one more step that meets the condition. -/
theorem Run.step_restrict {C : σ → α → Prop} {tr : List (σ × α)} {s t : σ} {a : α}
    (h : (S.restrict C).Run tr s) (hstep : S.Step s a t) (hC : C s a) :
    (S.restrict C).Run (tr ++ [(s, a)]) t := .step h ⟨hC, hstep⟩

/-- A run ends in a reachable state. -/
theorem Run.reachable {tr : List (σ × α)} {s : σ} (h : S.Run tr s) : S.Reachable s := by
  induction h with
  | init h => exact .init h
  | step _ hstep ih => exact .step ih hstep

/-- A run goes on with any way from where it ends. -/
theorem Run.leadsTo {tr : List (σ × α)} {s t : σ} (h : S.Run tr s) (hst : S.LeadsTo s t) :
    ∃ tr', S.Run (tr ++ tr') t := by
  obtain ⟨as, hpath⟩ := hst
  induction hpath generalizing tr with
  | nil s => exact ⟨[], by rwa [List.append_nil]⟩
  | @cons s u t a as hstep _ ih =>
    obtain ⟨tr', hrun⟩ := ih (.step h hstep)
    exact ⟨(s, a) :: tr', by rwa [List.append_assoc] at hrun⟩

/-- A run whose steps all meet `C` ends in a state of the restricted system. -/
theorem Run.reachable_restrict {C : σ → α → Prop} {tr : List (σ × α)} {s : σ}
    (h : S.Run tr s) (hC : Meets C tr) : (S.restrict C).Reachable s :=
  (h.restrict hC).reachable

/-- A weaker property holds throughout as well. -/
theorem Throughout.mono {P Q : σ → Prop} {tr : List (σ × α)} {s : σ}
    (h : Throughout P tr s) (hPQ : ∀ u, P u → Q u) : Throughout Q tr s :=
  ⟨fun x hx => hPQ _ (h.1 x hx), hPQ _ h.2⟩

/-- Two properties hold throughout together. -/
theorem Throughout.and {P Q : σ → Prop} {tr : List (σ × α)} {s : σ}
    (hP : Throughout P tr s) (hQ : Throughout Q tr s) :
    Throughout (fun u => P u ∧ Q u) tr s :=
  ⟨fun x hx => ⟨hP.1 x hx, hQ.1 x hx⟩, hP.2, hQ.2⟩

/-- Each step of a run is a step, from where the run was then. -/
theorem Run.split {tr₁ tr₂ : List (σ × α)} {x : σ × α} {s : σ}
    (h : S.Run (tr₁ ++ x :: tr₂) s) : S.Run tr₁ x.1 ∧ ∃ t, S.Step x.1 x.2 t := by
  generalize htr : tr₁ ++ x :: tr₂ = tr at h
  induction h generalizing tr₂ with
  | init h => exact absurd htr (by simp)
  | @step tr u t a hrun hstep ih =>
    rcases List.eq_nil_or_concat tr₂ with rfl | ⟨rest, y, rfl⟩
    · -- `x` is the step the run was extended by
      obtain ⟨rfl, hx⟩ := List.append_inj' htr rfl
      obtain rfl : x = (u, a) := List.singleton_inj.mp hx
      exact ⟨hrun, t, hstep⟩
    · rw [List.concat_eq_append, ← List.cons_append, ← List.append_assoc] at htr
      obtain ⟨rfl, -⟩ := List.append_inj' htr rfl
      exact ih rfl

/-- What holds in every reachable state holds throughout every run. -/
theorem Run.throughout_of_reachable {P : σ → Prop} (hP : ∀ s, S.Reachable s → P s)
    {tr : List (σ × α)} {s : σ} (h : S.Run tr s) : Throughout P tr s := by
  induction h with
  | init h => exact ⟨fun _ hx => (nomatch hx), hP _ (.init h)⟩
  | step hrun hstep ih =>
    exact throughout_snoc.mpr ⟨ih, hP _ (.step hrun.reachable hstep)⟩

/-- A property that is never gained holds throughout every run it holds at the
end of. -/
theorem Run.throughout_of_last {P : σ → Prop}
    (hstep : ∀ s a t, S.Reachable s → S.Step s a t → P t → P s)
    {tr : List (σ × α)} {s : σ} (h : S.Run tr s) (hs : P s) : Throughout P tr s := by
  induction h with
  | init h => exact ⟨fun _ hx => (nomatch hx), hs⟩
  | step hrun hst ih =>
    exact throughout_snoc.mpr ⟨ih (hstep _ _ _ hrun.reachable hst hs), hs⟩

/-- If `P` holds initially and, after steps that all met `C`, a further step out
of a `P` state is itself as `Q` wants and leads to a `P` state exactly when it
meets `C`, then the run is so throughout exactly when all its steps meet `C`. -/
theorem Run.throughout_meets_iff {P : σ → Prop} {Q C : σ → α → Prop}
    (hinit : ∀ s, S.Init s → P s)
    (hstep : ∀ s a t, (S.restrict C).Reachable s → P s → S.Step s a t →
      (P t ∧ Q s a ↔ C s a))
    {tr : List (σ × α)} {s : σ} (h : S.Run tr s) :
    Throughout P tr s ∧ Meets Q tr ↔ Meets C tr := by
  induction h with
  | init h =>
    constructor
    · exact fun _ _ hx => (nomatch hx)
    · exact fun _ => ⟨⟨fun _ hx => (nomatch hx), hinit _ h⟩, fun _ hx => (nomatch hx)⟩
  | @step tr s t a hrun hs ih =>
    rw [throughout_snoc, meets_snoc, meets_snoc, and_and_and_comm, ih]
    -- the steps so far met `C`, so `hstep` applies to the last one
    exact and_congr_right fun hC =>
      hstep s a t (hrun.reachable_restrict hC) (ih.mpr hC).1.2 hs

/-- If `P` holds initially and, after steps that all met `C`, a further step
leads to a `P` state exactly when it meets `C`, then `P` holds throughout a run
exactly when all its steps meet `C`. -/
theorem Run.throughout_iff {P : σ → Prop} {C : σ → α → Prop}
    (hinit : ∀ s, S.Init s → P s)
    (hstep : ∀ s a t, (S.restrict C).Reachable s → S.Step s a t → (P t ↔ C s a))
    {tr : List (σ × α)} {s : σ} (h : S.Run tr s) : Throughout P tr s ↔ Meets C tr := by
  have hmeets := h.throughout_meets_iff (P := P) (Q := fun _ _ => True) hinit
    fun s a t hs _ hst => by rw [and_true]; exact hstep s a t hs hst
  have htrue : Meets (fun (_ : σ) (_ : α) => True) tr := fun _ _ => trivial
  rwa [and_iff_left htrue] at hmeets

end System

end Transition
