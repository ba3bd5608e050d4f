import Lilt.Lib.Transition
import Mathlib.Data.List.Induction

/-!
# Permits

A step that needs a permit uses it up, and only some steps give one. In a part of a run in
which none of these is taken, a step that needs the permit is then taken at most once, under
a permit that was given before.

- `System.Permit`: the states in which a permit is held, the steps that give it, those that
  end it and, among these, those that use it.
- `Permit.given`: a permit that is held was given, and was not ended since.
- `Permit.used_once`: the bound, for any part of a run in which no permit is given.
-/

namespace Transition

universe u v

namespace System

variable {σ : Type u} {α : Type v}

/-- `held` is gained only by steps that are `Gives`, lost by those that are `ends`, and what
`uses` it is possible only while it is held. -/
structure Permit (S : System σ α) (held : σ → Prop) (Gives : σ → α → Prop)
    (ends uses : α → Bool) : Prop where
  init : ∀ s, S.Init s → ¬ held s
  kept : ∀ s a t, S.Reachable s → S.Step s a t → held t → Gives s a ∨ held s ∧ ends a = false
  used : ∀ s a t, S.Reachable s → S.Step s a t → uses a = true → held s ∧ ends a = true

variable {S : System σ α} {held : σ → Prop} {Gives : σ → α → Prop} {ends uses : α → Bool}

/-- A permit that is held was given, and was not ended since. -/
theorem Permit.given (hP : S.Permit held Gives ends uses) {tr : List (σ × α)} {s : σ}
    (h : S.Run tr s) (hs : held s) :
    ∃ tr₁ y tr₂, tr = tr₁ ++ y :: tr₂ ∧ Gives y.1 y.2 ∧ ∀ z ∈ tr₂, ends z.2 = false := by
  induction h with
  | init h => exact absurd hs (hP.init _ h)
  | @step tr s t a hrun hstep ih =>
    rcases hP.kept s a t hrun.reachable hstep hs with hgives | ⟨hs, hends⟩
    · exact ⟨tr, (s, a), [], rfl, hgives, fun _ hz => nomatch hz⟩
    · obtain ⟨tr₁, y, tr₂, rfl, hy, hz⟩ := ih hs
      refine ⟨tr₁, y, tr₂ ++ [(s, a)], by simp, hy, fun z hmem => ?_⟩
      rcases List.mem_append.mp hmem with hmem | hmem
      · exact hz z hmem
      · rw [List.mem_singleton.mp hmem]
        exact hends

/-- While no permit is given, one is used at most once, and none is held afterwards. -/
theorem Permit.uses_while_none_given (hP : S.Permit held Gives ends uses)
    {pre mid : List (σ × α)} {s : σ} (h : S.Run (pre ++ mid) s)
    (hnone : ∀ x ∈ mid, ¬ Gives x.1 x.2) :
    mid.countP (fun x => uses x.2) = 0 ∨
      mid.countP (fun x => uses x.2) = 1 ∧ ¬ held s := by
  induction mid using List.reverseRecOn generalizing s with
  | nil => exact .inl rfl
  | append_singleton mid x ih =>
    obtain ⟨u, a⟩ := x
    rw [← List.append_assoc] at h
    generalize htr : pre ++ mid ++ [(u, a)] = tr at h
    cases h with
    | init h => exact absurd htr (by simp)
    | @step tr' u' t a' hrun hstep =>
      obtain ⟨rfl, hx⟩ := List.append_inj' htr rfl
      obtain ⟨rfl, rfl⟩ := Prod.mk.inj (List.singleton_inj.mp hx)
      have hkept : held s → held u ∧ ends a = false := fun hs =>
        (hP.kept u a s hrun.reachable hstep hs).resolve_left (hnone (u, a) (by simp))
      have hused := hP.used u a s hrun.reachable hstep
      rw [List.countP_append, List.countP_singleton]
      rcases ih hrun fun x hx => hnone x (List.mem_append_left _ hx) with hzero | ⟨hone, hleft⟩
      · rw [hzero]
        cases huses : uses a with
        | false => exact .inl rfl
        | true =>
          -- what uses the permit ends it
          refine .inr ⟨rfl, fun hs => ?_⟩
          exact Bool.false_ne_true ((hkept hs).2.symm.trans (hused huses).2)
      · -- it was used already, so there is none to use again
        have huses : uses a = false := Bool.eq_false_iff.mpr fun huses => hleft (hused huses).1
        rw [hone, huses]
        exact .inr ⟨rfl, fun hs => hleft (hkept hs).1⟩

/-- In a part `mid` of a run in which no permit is given, one is used at most once, and that
one was given before the part began and not ended since. -/
theorem Permit.used_once (hP : S.Permit held Gives ends uses) {pre mid : List (σ × α)} {s : σ}
    (h : S.Run (pre ++ mid) s) (hnone : ∀ x ∈ mid, ¬ Gives x.1 x.2) :
    mid.countP (fun x => uses x.2) ≤ 1 ∧
      ∀ mid₁ x mid₂, mid = mid₁ ++ x :: mid₂ → uses x.2 = true →
        ∃ pre₁ y pre₂, pre = pre₁ ++ y :: pre₂ ∧ Gives y.1 y.2 ∧
          ∀ z ∈ pre₂ ++ mid₁, ends z.2 = false := by
  constructor
  · rcases hP.uses_while_none_given h hnone with h | ⟨h, -⟩ <;> omega
  · rintro mid₁ x mid₂ rfl huses
    rw [← List.append_assoc] at h
    obtain ⟨hrun, t, hstep⟩ := h.split
    have hheld := (hP.used _ _ _ hrun.reachable hstep huses).1
    obtain ⟨tr₁, y, tr₂, htr, hy, hz⟩ := hP.given hrun hheld
    -- the step that gave it lies before the part
    have hbefore : y ∉ mid₁ := fun hmem => hnone y (List.mem_append_left _ hmem) hy
    rcases List.append_eq_append_iff.mp htr with ⟨c, hc, hc'⟩ | ⟨c, hc, hc'⟩
    · rw [hc'] at hbefore
      exact absurd (List.mem_append_right _ List.mem_cons_self) hbefore
    · cases c with
      | nil =>
        have hmid : mid₁ = y :: tr₂ := hc'.symm
        rw [hmid] at hbefore
        exact absurd List.mem_cons_self hbefore
      | cons y' c =>
        obtain ⟨rfl, rfl⟩ := List.cons.inj hc'
        exact ⟨tr₁, y, c, hc, hy, hz⟩

end System

end Transition
