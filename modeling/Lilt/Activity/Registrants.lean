import Lilt.Activity.Shared
import Lilt.Lib.Transition
import Mathlib.Data.Finset.Card

/-!
# Several HP registrants on one segment

A registrant is one loaded copy of the HP proxy: its constructor calls
`lilt_event_hp_register`, its launch hooks publish ACTIVE and IDLE in turn, and
its destructor calls `lilt_event_hp_unregister`. Several copies may live in one
process, and a child process that inherits `LD_PRELOAD` brings further ones. They
all write the same words: one owner, one count and one activity state.

- `registrantSystem`: any interleaving of such registrants on one segment.
- `registrants_protected_iff`: the segment shows a registered owner and shows
  ACTIVE for every active registrant, all along a run, exactly when no call of
  one registrant takes back what another one still relies on (`Undisturbing`).
- `registrants_cancel_each_other`: a child process that comes and goes does.
-/

namespace Lilt.Activity

open Transition

/-- One loaded copy of the HP proxy. -/
abbrev Registrant := Nat

/-- What a registrant has done so far. -/
inductive RegistrantStatus where
  /-- Not loaded, or unloaded again. -/
  | absent
  /-- Registered; the latest state it published, if it published any. -/
  | registered (latest : Option HpState)
  deriving DecidableEq

/-- The segment and the registrants. -/
structure Registrants where
  shared : EventShared
  status : Registrant → RegistrantStatus

/-- What a registrant does, with the clock reading of the call. -/
inductive RegistrantAction where
  | register (r : Registrant) (now : UInt64)
  | markActive (r : Registrant) (now : UInt64)
  | markIdle (r : Registrant) (now : UInt64)
  | unregister (r : Registrant)

namespace Registrants

def setStatus (s : Registrants) (m : EventShared) (r : Registrant)
    (v : RegistrantStatus) : Registrants :=
  { shared := m, status := Function.update s.status r v }

@[simp] theorem setStatus_shared (s : Registrants) (m : EventShared) (r : Registrant)
    (v : RegistrantStatus) : (s.setStatus m r v).shared = m := rfl

@[simp] theorem setStatus_self (s : Registrants) (m : EventShared) (r : Registrant)
    (v : RegistrantStatus) : (s.setStatus m r v).status r = v := by simp [setStatus]

/-- The other copies do not change. -/
theorem setStatus_other (s : Registrants) (m : EventShared) {r q : Registrant}
    (v : RegistrantStatus) (h : q ≠ r) : (s.setStatus m r v).status q = s.status q := by
  simp [setStatus, h]

def Registered (s : Registrants) (r : Registrant) : Prop :=
  ∃ latest, s.status r = .registered latest

def Active (s : Registrants) (r : Registrant) : Prop :=
  s.status r = .registered (some .active)

/-- A copy that is active is registered. -/
theorem Active.registered {s : Registrants} {r : Registrant} (h : s.Active r) :
    s.Registered r := ⟨_, h⟩

end Registrants

/-- One call of a registrant, in protocol order: register once, then ACTIVE and
IDLE in turn, then unregister. `pidOf` is the process a registrant lives in. -/
inductive RegistrantStep (pidOf : Registrant → Pid) :
    Registrants → RegistrantAction → Registrants → Prop where
  | register (s : Registrants) (r : Registrant) (now : UInt64)
      (h : s.status r = .absent) :
      RegistrantStep pidOf s (.register r now)
        (s.setStatus (liltEventHpRegister s.shared (pidOf r) now) r (.registered none))
  | markActive (s : Registrants) (r : Registrant) (now : UInt64)
      (h : s.Registered r) (hn : ¬ s.Active r) :
      RegistrantStep pidOf s (.markActive r now)
        (s.setStatus (liltEventHpMarkActive s.shared now) r (.registered (some .active)))
  | markIdle (s : Registrants) (r : Registrant) (now : UInt64) (h : s.Active r) :
      RegistrantStep pidOf s (.markIdle r now)
        (s.setStatus (liltEventHpMarkIdle s.shared now) r (.registered (some .idle)))
  | unregister (s : Registrants) (r : Registrant) (h : s.Registered r) :
      RegistrantStep pidOf s (.unregister r)
        (s.setStatus (liltEventHpUnregister s.shared (pidOf r)) r .absent)

/-- All runs of the registrants of one initialised segment that nobody owns. -/
def registrantSystem (pidOf : Registrant → Pid) : System Registrants RegistrantAction where
  Init s := s.shared.hpOwnerPid = 0 ∧ ∀ r, s.status r = .absent
  Step := RegistrantStep pidOf

/-- While a registrant is registered, the owner is the pid of a process with a
registered registrant; while one's latest publication is ACTIVE, so is the
state. -/
structure Protected (pidOf : Registrant → Pid) (s : Registrants) : Prop where
  owner : (∃ r, s.Registered r) → ∃ r, s.Registered r ∧ s.shared.hpOwnerPid = pidOf r
  state : (∃ r, s.Active r) → s.shared.hpState = .active

/-- The call takes nothing back that another registrant relies on: a
registration that takes the ownership over and a publication of IDLE find no
other registrant active, and giving the ownership up leaves nobody registered. -/
def Undisturbing (pidOf : Registrant → Pid) (s : Registrants) : RegistrantAction → Prop
  | .register r _ => s.shared.hpOwnerPid ≠ pidOf r → ∀ q, ¬ s.Active q
  | .markActive _ _ => True
  | .markIdle r _ => ∀ q, q ≠ r → ¬ s.Active q
  | .unregister r => unregistersLast s.shared (pidOf r) →
      ∀ q, q ≠ r → ¬ s.Registered q

/-! ## The count never exceeds the registered copies of the owner -/

/-- The owner's count is backed by as many distinct registered registrants that
live in the owner. It may be smaller: a copy whose process was taken over is no
longer counted. -/
def CountBacked (pidOf : Registrant → Pid) (s : Registrants) : Prop :=
  s.shared.hpOwnerPid ≠ 0 → ∃ copies : Finset Registrant,
    s.shared.hpRegistrationCount ≤ copies.card ∧
    ∀ q ∈ copies, s.Registered q ∧ pidOf q = s.shared.hpOwnerPid

namespace Registrants

variable {s : Registrants} {m : EventShared} {r q : Registrant}

/-- A copy that was registered is. -/
theorem registered_setStatus_self (v : Option HpState) :
    (s.setStatus m r (.registered v)).Registered r := ⟨v, by simp⟩

theorem registered_setStatus_of_ne (v : RegistrantStatus) (h : q ≠ r) :
    (s.setStatus m r v).Registered q ↔ s.Registered q := by
  simp [Registered, setStatus_other s m v h]

theorem active_setStatus_of_ne (v : RegistrantStatus) (h : q ≠ r) :
    (s.setStatus m r v).Active q ↔ s.Active q := by
  simp [Active, setStatus_other s m v h]

/-- A copy that left is not registered. -/
theorem not_registered_setStatus_absent : ¬ (s.setStatus m r .absent).Registered r := by
  simp [Registered]

/-- A call that leaves its registrant registered leaves all others so, too. -/
theorem Registered.setStatus (h : s.Registered q) (v : Option HpState) :
    (s.setStatus m r (.registered v)).Registered q := by
  by_cases hq : q = r
  · subst hq
    exact registered_setStatus_self v
  · exact (registered_setStatus_of_ne _ hq).mpr h

end Registrants

/-- A call that keeps owner and count and leaves its registrant registered. -/
theorem CountBacked.setStatus {pidOf : Registrant → Pid} {s : Registrants}
    {m : EventShared} {r : Registrant} (h : CountBacked pidOf s) (v : Option HpState)
    (howner : m.hpOwnerPid = s.shared.hpOwnerPid)
    (hcount : m.hpRegistrationCount = s.shared.hpRegistrationCount) :
    CountBacked pidOf (s.setStatus m r (.registered v)) := by
  intro h0
  rw [Registrants.setStatus_shared, howner] at h0
  obtain ⟨copies, hcard, hcopies⟩ := h h0
  refine ⟨copies, ?_, fun q hq => ?_⟩
  · rw [Registrants.setStatus_shared, hcount]
    exact hcard
  · rw [Registrants.setStatus_shared, howner]
    exact ⟨(hcopies q hq).1.setStatus v, (hcopies q hq).2⟩

/-- A registration is backed: a new owner by its one copy, a further copy of the
owner by the earlier ones and itself. -/
theorem countBacked_register {pidOf : Registrant → Pid} {s : Registrants} {r : Registrant}
    (h : CountBacked pidOf s) (hr : s.status r = .absent) (now : UInt64) :
    CountBacked pidOf
      (s.setStatus (liltEventHpRegister s.shared (pidOf r) now) r (.registered none)) := by
  intro h0
  rw [Registrants.setStatus_shared, register_hpOwnerPid] at h0 ⊢
  by_cases hown : s.shared.hpOwnerPid = pidOf r
  · obtain ⟨copies, hcard, hcopies⟩ := h (hown ▸ h0)
    -- the new copy was not registered, so it is not among those counted so far
    have hnew : r ∉ copies := by
      intro hmem
      obtain ⟨v, hv⟩ := (hcopies r hmem).1
      rw [hr] at hv
      cases hv
    refine ⟨insert r copies, ?_, fun q hq => ?_⟩
    · rw [Finset.card_insert_of_notMem hnew]
      simp only [liltEventHpRegister, if_pos hown]
      omega
    · rcases Finset.mem_insert.mp hq with rfl | hq
      · exact ⟨Registrants.registered_setStatus_self none, rfl⟩
      · exact ⟨(hcopies q hq).1.setStatus none, (hcopies q hq).2.trans hown⟩
  · refine ⟨{r}, ?_, fun q hq => ?_⟩
    · simp [liltEventHpRegister, if_neg hown]
    · rw [Finset.mem_singleton.mp hq]
      exact ⟨Registrants.registered_setStatus_self none, rfl⟩

/-- The copies that back the count after `r` has left are those that backed it
before, without `r`. -/
theorem countBacked_unregister {pidOf : Registrant → Pid} {s : Registrants} {r : Registrant}
    (h : CountBacked pidOf s) :
    CountBacked pidOf
      (s.setStatus (liltEventHpUnregister s.shared (pidOf r)) r .absent) := by
  intro h0
  rw [Registrants.setStatus_shared] at h0 ⊢
  unfold liltEventHpUnregister at h0 ⊢
  by_cases hown : s.shared.hpOwnerPid = pidOf r
  · by_cases hcount : 1 < s.shared.hpRegistrationCount
    · rw [if_neg (not_not_intro hown), if_pos hcount] at h0 ⊢
      obtain ⟨copies, hcard, hcopies⟩ := h h0
      refine ⟨copies.erase r, ?_, fun q hq => ?_⟩
      · have := Finset.pred_card_le_card_erase (s := copies) (a := r)
        show s.shared.hpRegistrationCount - 1 ≤ _
        omega
      · obtain ⟨hqr, hq⟩ := Finset.mem_erase.mp hq
        exact ⟨(Registrants.registered_setStatus_of_ne _ hqr).mpr (hcopies q hq).1,
          (hcopies q hq).2⟩
    · rw [if_neg (not_not_intro hown), if_neg hcount] at h0
      exact absurd rfl h0
  · -- another process owns the segment: nothing was written
    rw [if_pos hown] at h0 ⊢
    obtain ⟨copies, hcard, hcopies⟩ := h h0
    refine ⟨copies, hcard, fun q hq => ⟨?_, (hcopies q hq).2⟩⟩
    have hqr : q ≠ r := by
      rintro rfl
      exact hown (hcopies q hq).2.symm
    exact (Registrants.registered_setStatus_of_ne _ hqr).mpr (hcopies q hq).1

/-- In every run the count is backed. -/
theorem registrants_reachable_countBacked {pidOf : Registrant → Pid} {s : Registrants}
    (h : (registrantSystem pidOf).Reachable s) : CountBacked pidOf s := by
  have hind : (registrantSystem pidOf).Inductive (CountBacked pidOf) :=
    { init := fun t ht h0 => absurd ht.1 h0
      step := fun t a u _ hi hstep => by
        cases hstep with
        | register r now hr => exact countBacked_register hi hr now
        | markActive r now hr hn => exact hi.setStatus _ (by simp) (by simp)
        | markIdle r now hr => exact hi.setStatus _ (by simp) (by simp)
        | unregister r hr => exact countBacked_unregister hi }
  exact hind.reachable h

/-! ## When the registrants stay protected -/

section protection

variable {pidOf : Registrant → Pid} {s : Registrants} {r : Registrant}

/-- A registration disturbs when it takes the ownership from somebody active. -/
theorem protected_register_iff (h : Protected pidOf s) (hr : s.status r = .absent)
    (now : UInt64) :
    Protected pidOf
        (s.setStatus (liltEventHpRegister s.shared (pidOf r) now) r (.registered none)) ↔
      Undisturbing pidOf s (.register r now) := by
  have hactive : ∀ q, (s.setStatus (liltEventHpRegister s.shared (pidOf r) now) r
      (.registered none)).Active q ↔ s.Active q := by
    intro q
    by_cases hq : q = r
    · subst hq
      simp [Registrants.Active, hr]
    · exact Registrants.active_setStatus_of_ne _ hq
  constructor
  · -- a takeover stores IDLE
    intro hp hown q hq
    have hst := hp.state ⟨q, (hactive q).mpr hq⟩
    simp [liltEventHpRegister, hown] at hst
  · intro hu
    refine { owner := fun _ => ⟨r, Registrants.registered_setStatus_self none, by simp⟩
             state := ?_ }
    rintro ⟨q, hq⟩
    rw [hactive] at hq
    by_cases hown : s.shared.hpOwnerPid = pidOf r
    · simpa [liltEventHpRegister, hown] using h.state ⟨q, hq⟩
    · exact absurd hq (hu hown q)

/-- A publication leaves the owner registered. -/
theorem Protected.owner_publish (h : Protected pidOf s) (hr : s.Registered r)
    {m : EventShared} (hm : m.hpOwnerPid = s.shared.hpOwnerPid) (v : Option HpState) :
    ∃ q, (s.setStatus m r (.registered v)).Registered q ∧ m.hpOwnerPid = pidOf q := by
  obtain ⟨q, hq, hown⟩ := h.owner ⟨r, hr⟩
  exact ⟨q, hq.setStatus v, hm.trans hown⟩

/-- ACTIVE disturbs nobody. -/
theorem protected_markActive (h : Protected pidOf s) (hr : s.Registered r) (now : UInt64) :
    Protected pidOf
      (s.setStatus (liltEventHpMarkActive s.shared now) r (.registered (some .active))) :=
  { owner := fun _ => h.owner_publish hr (by simp) _
    state := fun _ => by simp }

/-- IDLE disturbs when another copy is active. -/
theorem protected_markIdle_iff (h : Protected pidOf s) (hr : s.Active r) (now : UInt64) :
    Protected pidOf
        (s.setStatus (liltEventHpMarkIdle s.shared now) r (.registered (some .idle))) ↔
      Undisturbing pidOf s (.markIdle r now) := by
  constructor
  · intro hp q hqr hq
    have hst := hp.state ⟨q, (Registrants.active_setStatus_of_ne _ hqr).mpr hq⟩
    simp at hst
  · intro hu
    refine { owner := fun _ => h.owner_publish hr.registered (by simp) _, state := ?_ }
    rintro ⟨q, hq⟩
    by_cases hqr : q = r
    · subst hqr
      simp [Registrants.Active] at hq
    · exact absurd ((Registrants.active_setStatus_of_ne _ hqr).mp hq) (hu q hqr)

/-- The last one to leave, by the count, disturbs when another copy is registered. -/
theorem protected_unregister_iff (hpid : ∀ q, 0 < pidOf q) (h : Protected pidOf s)
    (hback : CountBacked pidOf s) (hr : s.Registered r) :
    Protected pidOf
        (s.setStatus (liltEventHpUnregister s.shared (pidOf r)) r .absent) ↔
      Undisturbing pidOf s (.unregister r) := by
  have hactive : ∀ {m : EventShared} {q : Registrant},
      (s.setStatus m r .absent).Active q → q ≠ r ∧ s.Active q := by
    intro m q hq
    have hqr : q ≠ r := by
      rintro rfl
      exact Registrants.not_registered_setStatus_absent hq.registered
    exact ⟨hqr, (Registrants.active_setStatus_of_ne _ hqr).mp hq⟩
  constructor
  · -- giving the ownership up leaves the owner 0, which is nobody's pid
    intro hp hlast q hqr hq
    obtain ⟨q', -, hown⟩ := hp.owner ⟨q, (Registrants.registered_setStatus_of_ne _ hqr).mpr hq⟩
    simp only [unregistersLast, Bool.and_eq_true, decide_eq_true_eq] at hlast
    simp only [Registrants.setStatus_shared, liltEventHpUnregister] at hown
    rw [if_neg (not_not_intro hlast.1), if_neg (by omega)] at hown
    exact absurd hown (Nat.ne_of_lt (hpid q'))
  · intro hu
    by_cases hown : s.shared.hpOwnerPid = pidOf r
    · by_cases hcount : 1 < s.shared.hpRegistrationCount
      · -- a further copy of the owner backs the count
        obtain ⟨copies, hcard, hcopies⟩ := hback (hown ▸ Nat.ne_of_gt (hpid r))
        have hpos : 0 < (copies.erase r).card := by
          have := Finset.pred_card_le_card_erase (s := copies) (a := r)
          omega
        obtain ⟨q, hq⟩ := Finset.card_pos.mp hpos
        obtain ⟨hqr, hq⟩ := Finset.mem_erase.mp hq
        rw [liltEventHpUnregister, if_neg (not_not_intro hown), if_pos hcount]
        exact { owner := fun _ => ⟨q,
                  (Registrants.registered_setStatus_of_ne _ hqr).mpr (hcopies q hq).1,
                  (hcopies q hq).2.symm⟩
                state := fun ⟨q, hq⟩ => h.state ⟨q, (hactive hq).2⟩ }
      · -- the last copy of the owner leaves, and nobody else is registered
        have hnone := hu (by simp [unregistersLast, hown]; omega)
        have hgone : ∀ q m, ¬ (s.setStatus m r .absent).Registered q := by
          intro q m hq
          by_cases hqr : q = r
          · subst hqr
            exact Registrants.not_registered_setStatus_absent hq
          · exact hnone q hqr ((Registrants.registered_setStatus_of_ne _ hqr).mp hq)
        exact { owner := fun ⟨q, hq⟩ => absurd hq (hgone q _)
                state := fun ⟨q, hq⟩ => absurd hq.registered (hgone q _) }
    · -- the owner lives in another process, so it is not `r` that backs it
      obtain ⟨q, hq, hqown⟩ := h.owner ⟨r, hr⟩
      have hqr : q ≠ r := by
        rintro rfl
        exact hown hqown
      rw [liltEventHpUnregister, if_pos hown]
      exact { owner := fun _ => ⟨q, (Registrants.registered_setStatus_of_ne _ hqr).mpr hq, hqown⟩
              state := fun ⟨q, hq⟩ => h.state ⟨q, (hactive hq).2⟩ }

/-- One step keeps the registrants protected exactly when it is undisturbing. -/
theorem protected_step_iff (hpid : ∀ q, 0 < pidOf q) {t : Registrants}
    {a : RegistrantAction} (h : Protected pidOf s) (hback : CountBacked pidOf s)
    (hstep : RegistrantStep pidOf s a t) : Protected pidOf t ↔ Undisturbing pidOf s a := by
  cases hstep with
  | register r now hr => exact protected_register_iff h hr now
  | markActive r now hr hn => exact iff_of_true (protected_markActive h hr now) trivial
  | markIdle r now hr => exact protected_markIdle_iff h hr now
  | unregister r hr => exact protected_unregister_iff hpid h hback hr

end protection

/-- With nobody registered there is nothing to protect. -/
theorem protected_init {pidOf : Registrant → Pid} {s : Registrants}
    (h : (registrantSystem pidOf).Init s) : Protected pidOf s :=
  { owner := fun ⟨r, v, hv⟩ => by
      rw [h.2 r] at hv
      cases hv
    state := fun ⟨r, hr⟩ => by
      rw [Registrants.Active, h.2 r] at hr
      cases hr }

/-- **When registrants do not cancel each other**: all along a run the segment
shows a registered owner and every active registrant's ACTIVE, exactly when no
step of the run takes back what another registrant relies on. -/
theorem registrants_protected_iff {pidOf : Registrant → Pid} (hpid : ∀ q, 0 < pidOf q)
    {tr : List (Registrants × RegistrantAction)} {s : Registrants}
    (h : (registrantSystem pidOf).Run tr s) :
    System.Throughout (Protected pidOf) tr s ↔ System.Meets (Undisturbing pidOf) tr := by
  have hprot : ∀ t, ((registrantSystem pidOf).restrict (Undisturbing pidOf)).Reachable t →
      Protected pidOf t := by
    intro t ht
    have hind : ((registrantSystem pidOf).restrict (Undisturbing pidOf)).Inductive
        (Protected pidOf) :=
      { init := fun _ hi => protected_init hi
        step := fun _ _ _ hr hi hstep =>
          (protected_step_iff hpid hi (registrants_reachable_countBacked hr.of_restrict)
            hstep.2).mpr hstep.1 }
    exact hind.reachable ht
  refine h.throughout_iff (fun _ hi => protected_init hi) ?_
  intro u a t hu hstep
  exact protected_step_iff hpid (hprot u hu)
    (registrants_reachable_countBacked hu.of_restrict) hstep

/-- Nobody has registered on the zeroed segment. -/
def Registrants.fresh : Registrants where
  shared := eventSharedInitialize .zeroed
  status _ := .absent

theorem fresh_init (pidOf : Registrant → Pid) :
    (registrantSystem pidOf).Init .fresh := ⟨by decide, fun _ => rfl⟩

/-- The copies 0 and 1 are loaded in the process 100, the copy 2 in its child 101. -/
def familyPid (r : Registrant) : Pid := if r = 2 then 101 else 100

theorem familyPid_pos (r : Registrant) : 0 < familyPid r := by
  unfold familyPid
  split <;> decide

/-- Without ACTIVE as its latest publication a copy leaves nobody active that was alone. -/
theorem not_active_setStatus {s : Registrants} {r : Registrant} (h : ∀ q, q ≠ r → ¬ s.Active q)
    {v : RegistrantStatus} (hv : v ≠ .registered (some .active)) (m : EventShared)
    (q : Registrant) : ¬ (s.setStatus m r v).Active q := by
  by_cases hq : q = r
  · subst hq
    unfold Registrants.Active
    rwa [Registrants.setStatus_self]
  · rw [Registrants.active_setStatus_of_ne v hq]
    exact h q hq

/-- Both copies of process 100 register, and one is ACTIVE before it leaves; then the child takes
the ownership over and is ACTIVE while the other copy leaves. -/
theorem registrants_protected_family :
    ∃ tr s, (registrantSystem familyPid).Run tr s ∧ tr.length = 8 ∧ s.Active 2 ∧
      System.Throughout (Protected familyPid) tr s := by
  let s₁ := Registrants.fresh.setStatus
    (liltEventHpRegister Registrants.fresh.shared 100 5) 0 (.registered none)
  let s₂ := s₁.setStatus (liltEventHpRegister s₁.shared 100 6) 1 (.registered none)
  let s₃ := s₂.setStatus (liltEventHpMarkActive s₂.shared 7) 0 (.registered (some .active))
  let s₄ := s₃.setStatus (liltEventHpMarkIdle s₃.shared 8) 0 (.registered (some .idle))
  let s₅ := s₄.setStatus (liltEventHpUnregister s₄.shared 100) 0 .absent
  have hfresh : ∀ q, ¬ Registrants.fresh.Active q := by rintro q ⟨⟩
  have hnone₁ : ∀ q, ¬ s₁.Active q :=
    not_active_setStatus (fun q _ => hfresh q) (by rintro ⟨⟩) _
  have hnone₂ : ∀ q, ¬ s₂.Active q :=
    not_active_setStatus (fun q _ => hnone₁ q) (by rintro ⟨⟩) _
  have hone₃ : ∀ q, q ≠ 0 → ¬ s₃.Active q := fun q hq =>
    mt (Registrants.active_setStatus_of_ne _ hq).mp (hnone₂ q)
  have hnone₄ : ∀ q, ¬ s₄.Active q := not_active_setStatus hone₃ (by rintro ⟨⟩) _
  have hnone₅ : ∀ q, ¬ s₅.Active q :=
    not_active_setStatus (fun q _ => hnone₄ q) (by rintro ⟨⟩) _
  have h₀ : ((registrantSystem familyPid).restrict (Undisturbing familyPid)).Run [] .fresh :=
    .init (fresh_init familyPid)
  have h₁ := h₀.step_restrict (RegistrantStep.register _ 0 5 rfl) fun _ => hfresh
  have h₂ := h₁.step_restrict (RegistrantStep.register s₁ 1 6 rfl) fun _ => hnone₁
  have h₃ := h₂.step_restrict (RegistrantStep.markActive s₂ 0 7 ⟨none, rfl⟩ (hnone₂ 0)) trivial
  have h₄ := h₃.step_restrict (RegistrantStep.markIdle s₃ 0 8 rfl) hone₃
  have h₅ := h₄.step_restrict (RegistrantStep.unregister s₄ 0 ⟨_, rfl⟩) fun hlast =>
    absurd hlast (by decide)
  have h₆ := h₅.step_restrict (RegistrantStep.register s₅ 2 9 rfl) fun _ => hnone₅
  have h₇ := h₆.step_restrict (RegistrantStep.markActive _ 2 10 ⟨none, rfl⟩ (by rintro ⟨⟩)) trivial
  have h₈ := h₇.step_restrict (RegistrantStep.unregister _ 1 ⟨none, rfl⟩) fun hlast =>
    absurd hlast (by decide)
  obtain ⟨hrun, hmeets⟩ := h₈.of_restrict
  exact ⟨_, _, hrun, rfl, rfl, (registrants_protected_iff familyPid_pos hrun).mpr hmeets⟩

/-- Two copies in the process 100 register and are both active when one of them
publishes IDLE: the segment shows IDLE. And a child process 101 registers and
exits while its parent 100 stays registered: the segment shows no owner. -/
theorem registrants_cancel_each_other :
    (¬ ∀ s, (registrantSystem fun _ => 100).Reachable s → Protected (fun _ => 100) s) ∧
    ¬ ∀ s, (registrantSystem fun r => 100 + r).Reachable s →
      Protected (fun r => 100 + r) s := by
  constructor
  · intro hall
    let s₁ := Registrants.fresh.setStatus
      (liltEventHpRegister Registrants.fresh.shared 100 5) 0 (.registered none)
    let s₂ := s₁.setStatus (liltEventHpRegister s₁.shared 100 6) 1 (.registered none)
    let s₃ := s₂.setStatus (liltEventHpMarkActive s₂.shared 7) 0 (.registered (some .active))
    let s₄ := s₃.setStatus (liltEventHpMarkActive s₃.shared 8) 1 (.registered (some .active))
    let s₅ := s₄.setStatus (liltEventHpMarkIdle s₄.shared 9) 1 (.registered (some .idle))
    have hreach : (registrantSystem fun _ => 100).Reachable s₅ :=
      .step (.step (.step (.step (.step (.init (fresh_init _))
        (.register _ 0 5 rfl)) (.register _ 1 6 rfl))
        (.markActive _ 0 7 ⟨none, rfl⟩ nofun))
        (.markActive _ 1 8 ⟨none, rfl⟩ nofun))
        (.markIdle _ 1 9 rfl)
    have hstate : s₅.shared.hpState = .active := (hall _ hreach).state ⟨0, rfl⟩
    cases hstate
  · intro hall
    let s₁ := Registrants.fresh.setStatus
      (liltEventHpRegister Registrants.fresh.shared 100 5) 0 (.registered none)
    let s₂ := s₁.setStatus (liltEventHpRegister s₁.shared 101 6) 1 (.registered none)
    let s₃ := s₂.setStatus (liltEventHpUnregister s₂.shared 101) 1 .absent
    have hreach : (registrantSystem fun r => 100 + r).Reachable s₃ :=
      .step (.step (.step (.init (fresh_init _))
        (.register _ 0 5 rfl)) (.register _ 1 6 rfl)) (.unregister _ 1 ⟨none, rfl⟩)
    obtain ⟨r, -, hr⟩ := (hall _ hreach).owner ⟨0, none, rfl⟩
    have howner : s₃.shared.hpOwnerPid = 0 := by decide
    have : (0 : Nat) = 100 + r := howner.symm.trans hr
    omega

end Lilt.Activity
