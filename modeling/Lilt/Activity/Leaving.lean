import Lilt.Activity.Recovery

/-!
# An HP process leaves, access by access

`lilt_event_hp_unregister` gives the segment up in single loads, stores and compare-exchanges,
between which BE processes make theirs.

- `unregisterExec`: the accesses, in the order of the source.
- `solo_unregister`: uninterrupted, the call is `liltEventHpUnregister`, and it unlinks the name
  when it gives the ownership up.
- `solo_hpOps`: whatever an HP process has still to do on the segment, it comes to its end if
  nothing interrupts it.
- `announced`: the state that an HP process will have stored by then.
-/

namespace Lilt.Activity

open Atomic

/-! ## The accesses of `lilt_event_hp_unregister` -/

/-- One access of the destructor of an HP process. -/
inductive UnregisterOp where
  | loadOwner
  | loadCount
  /-- The compare-exchange that takes one off a count that was read as this. -/
  | casCount (registrations : Nat)
  | storeCount
  | storeState
  | storeOwner
  /-- `shm_unlink` -/
  | unlink
  deriving DecidableEq

/-- The segment, and whether its name leads to it. -/
structure NamedSegment where
  shared : EventShared
  linked : Bool

/-- What is to do about a count that was read as this. -/
def giveBack (registrations : Nat) : List UnregisterOp :=
  if 1 < registrations then [.casCount registrations]
  else [.storeCount, .storeState, .storeOwner, .unlink]

/-- One access of the process `self` that unregisters and the accesses it calls for. -/
def unregisterExec (self : Pid) : Exec NamedSegment UnregisterOp
  | .loadOwner, m => (m, if m.shared.hpOwnerPid ≠ self then [] else [.loadCount])
  | .loadCount, m => (m, giveBack m.shared.hpRegistrationCount)
  | .casCount registrations, m =>
    if m.shared.hpRegistrationCount = registrations then
      ({ m with shared := { m.shared with hpRegistrationCount := registrations - 1 } }, [])
    else (m, giveBack m.shared.hpRegistrationCount)
  | .storeCount, m => ({ m with shared := { m.shared with hpRegistrationCount := 0 } }, [])
  | .storeState, m => ({ m with shared := { m.shared with hpState := .idle } }, [])
  | .storeOwner, m => ({ m with shared := { m.shared with hpOwnerPid := 0 } }, [])
  | .unlink, m => ({ m with linked := false }, [])

/-- Uninterrupted, `lilt_event_hp_unregister` is `liltEventHpUnregister`. -/
theorem solo_unregister (self : Pid) (m : NamedSegment) :
    Solo (unregisterExec self) [.loadOwner] m
      { shared := liltEventHpUnregister m.shared self
        linked := m.linked && !unregistersLast m.shared self } := by
  refine .cons ?_
  by_cases hown : m.shared.hpOwnerPid = self
  · simp only [unregisterExec, hown, ne_eq, not_true_eq_false, if_false]
    refine .cons ?_
    by_cases hcount : 1 < m.shared.hpRegistrationCount
    · -- a further registration stays
      have hnotLast : unregistersLast m.shared self = false := by
        simp only [unregistersLast, Bool.and_eq_false_iff, decide_eq_false_iff_not]
        exact .inr (Nat.not_le.mpr hcount)
      simp only [unregisterExec, giveBack, if_pos hcount]
      refine .cons ?_
      simp only [unregisterExec, if_true, liltEventHpUnregister, hown, ne_eq, not_true_eq_false,
        if_false, if_pos hcount, hnotLast, Bool.not_false, Bool.and_true]
      exact .nil _
    · have hlast : unregistersLast m.shared self = true := by
        simp only [unregistersLast, Bool.and_eq_true, decide_eq_true_eq]
        exact ⟨hown, Nat.not_lt.mp hcount⟩
      simp only [unregisterExec, giveBack, if_neg hcount]
      simp only [liltEventHpUnregister, hown, ne_eq, not_true_eq_false, if_false, if_neg hcount,
        hlast, Bool.not_true, Bool.and_false]
      exact .cons (.cons (.cons (.cons (.nil _))))
  · have hnotLast : unregistersLast m.shared self = false := by
      simp only [unregistersLast, Bool.and_eq_false_iff, decide_eq_false_iff_not]
      exact .inl hown
    simp only [unregisterExec, ne_eq, hown, not_false_eq_true, if_true, List.append_nil,
      liltEventHpUnregister, hnotLast, Bool.not_false, Bool.and_true]
    exact .nil m

/-! ## What an HP process has still to do -/

/-- The call that this access belongs to comes to its end. -/
theorem solo_hpOp (self : Pid) (o : HpOp) (v : HpView) :
    ∃ v', Solo (hpExec self) [o] v v' := by
  have hstore {o : HpOp} (h : (hpExec self o v).2 = []) : ∃ v', Solo (hpExec self) [o] v v' := by
    refine ⟨(hpExec self o v).1, .cons ?_⟩
    rw [h]
    exact .nil _
  cases o with
  | registerLoadOwner now =>
    obtain ⟨latest, hsolo⟩ := solo_register self v now
    exact ⟨_, hsolo⟩
  | updateEwmaLoad w sampleNs => exact ⟨_, solo_updateEwma v w sampleNs⟩
  | markActiveLoad now => exact ⟨_, solo_markActive self v now⟩
  | markIdleLoad now => exact ⟨_, solo_markIdle self v now⟩
  | addRegistrationCount => exact hstore rfl
  | storeRegistrationCount => exact hstore rfl
  | storeOwner => exact hstore rfl
  | storeStat w n => exact hstore rfl
  | addStat w => exact hstore rfl
  | storeState st => exact hstore rfl

/-- Wherever an HP process is interrupted, left alone it finishes. -/
theorem solo_hpOps (self : Pid) (p : List HpOp) (v : HpView) :
    ∃ v', Solo (hpExec self) p v v' := by
  induction p generalizing v with
  | nil => exact ⟨v, .nil v⟩
  | cons o rest ih =>
    obtain ⟨v₁, hfirst⟩ := solo_hpOp self o v
    obtain ⟨v₂, hrest⟩ := ih v₁
    exact ⟨v₂, hfirst.append hrest⟩

/-- The state that is stored last once the call of this access is over. -/
def announce (latest : Option HpState) : HpOp → Option HpState
  | .markActiveLoad _ => some .active
  | .markIdleLoad _ => some .idle
  | .storeState st => some st
  | _ => latest

/-- The state that is stored last once all these are made. -/
def announced (p : List HpOp) (latest : Option HpState) : Option HpState :=
  p.foldl announce latest

@[simp] theorem announced_nil (latest : Option HpState) : announced [] latest = latest := rfl

/-- What two programs announce, one behind the other. -/
theorem announced_append (p q : List HpOp) (latest : Option HpState) :
    announced (p ++ q) latest = announced q (announced p latest) := List.foldl_append ..

/-- The registration of a process that is not the owner announces IDLE. -/
theorem announced_registerStores (now : UInt64) (latest : Option HpState) :
    announced (registerStores now) latest = some .idle := by
  unfold registerStores
  rw [announced_append]
  rfl

/-- An access that is not the first of the registration. -/
def Continues : HpOp → Prop
  | .registerLoadOwner _ => False
  | _ => True

/-- What is announced does not change on the way. -/
theorem announced_hpExec (self : Pid) {o : HpOp} (ho : Continues o) (v : HpView)
    (rest : List HpOp) :
    announced ((hpExec self o v).2 ++ rest) (hpExec self o v).1.latest =
      announced (o :: rest) v.latest := by
  rw [announced_append]
  show announced rest _ = announced rest (announce v.latest o)
  refine congrArg _ ?_
  cases o with
  | registerLoadOwner now => exact absurd ho id
  | markActiveLoad now =>
    show announced (countIdleOps _ now ++ _) v.latest = some .active
    rw [announced_append]
    rfl
  | markIdleLoad now =>
    show announced (countActiveOps _ now ++ _) v.latest = some .idle
    rw [announced_append]
    rfl
  | _ => rfl

/-- No call comes back to the first access of the registration. -/
theorem hpExec_continues (self : Pid) (o : HpOp) (v : HpView) :
    ∀ o' ∈ (hpExec self o v).2, Continues o' := by
  intro o' ho'
  cases o with
  | registerLoadOwner now =>
    simp only [hpExec] at ho'
    split at ho'
    · rw [List.mem_singleton.mp ho']
      trivial
    · simp only [registerStores, List.mem_append, List.mem_map, List.mem_cons] at ho'
      rcases ho' with (ho' | ⟨i, -, rfl⟩) | ho'
      · rcases ho' with rfl | rfl | rfl | rfl | rfl | rfl | rfl | rfl | rfl | ho' <;> trivial
      · trivial
      · rcases ho' with rfl | ho'
        · trivial
        · cases ho'
  | markActiveLoad now =>
    simp only [hpExec, countIdleOps, List.mem_append, List.mem_cons] at ho'
    rcases ho' with ho' | rfl | rfl | rfl | ho'
    · split at ho'
      · simp only [List.mem_append, List.mem_map, List.mem_singleton] at ho'
        rcases ho' with rfl | ⟨i, -, rfl⟩ | rfl <;> trivial
      · cases ho'
    · trivial
    · trivial
    · trivial
    · cases ho'
  | markIdleLoad now =>
    simp only [hpExec, countActiveOps, List.mem_append, List.mem_cons] at ho'
    rcases ho' with ho' | rfl | rfl | ho'
    · split at ho'
      · simp only [List.mem_append, List.mem_singleton] at ho'
        rcases ho' with rfl | rfl <;> trivial
      · cases ho'
    · trivial
    · trivial
    · cases ho'
  | updateEwmaLoad w sampleNs =>
    rw [List.mem_singleton.mp ho']
    trivial
  | _ => cases ho'

/-- The state that the process stored last shows, unless it is ACTIVE: BE processes store IDLE
only. -/
def ShowsIdle (v : HpView) : Prop := v.latest = some .idle → v.shared.hpState = .idle

/-- What the HP process stores is what it stored last. -/
theorem showsIdle_hpExec {v : HpView} (h : ShowsIdle v) (self : Pid) (o : HpOp) :
    ShowsIdle (hpExec self o v).1 := by
  unfold ShowsIdle at h ⊢
  cases o with
  | registerLoadOwner now =>
    simp only [hpExec]
    split <;> exact h
  | storeState st => exact fun hst => Option.some.inj hst
  | storeStat w n => simpa [hpExec] using h
  | addStat w => simpa [hpExec] using h
  | _ => exact h

/-- A BE process stores no ACTIVE over it. -/
theorem showsIdle_beExec {v : HpView} (h : ShowsIdle v) (alive : Pid → Bool) (o : BeOp) :
    ShowsIdle { v with shared := (beExec alive o v.shared).1 } := by
  intro hlatest
  have hidle := h hlatest
  cases o with
  | ownerCas owner =>
    simp only [beExec]
    split <;> exact hidle
  | waitCas =>
    simp only [beExec]
    split
    · rfl
    · exact hidle
  | ownerClearState => rfl
  | _ => exact hidle

end Lilt.Activity
