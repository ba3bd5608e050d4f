import Lilt.Activity.Shared
import Lilt.Lib.Transition

/-!
# One session: the name, its segments and the processes' mappings

A session is one shared-memory name. `event_shared_get` opens the segment bound
to the name, creating one if there is none, and caches the mapping for the rest
of the process's life; the last `lilt_event_hp_unregister` of an HP process
unlinks the name. A process that mapped the segment before that keeps it, so the
name and the cached mappings drift apart when a further HP process arrives.

- `sessionSystem`: any interleaving of attach, register, unregister and owner
  queries by BE processes and successive HP processes, none of which crashes.
- `every_be_sees_hp_iff`: `lilt_event_hp_owner` gives every BE process the pid of
  the registered HP process all along a run exactly when every HP process that
  registers maps the segment that all BE processes map or would map, so that
  nobody is left over from before an unlink.
- `early_be_misses_second_hp`: a BE process that is left over does not see the
  second HP process of its session.
-/

namespace Lilt.Activity

open Transition

/-- The kernel's and the processes' view of one session name. -/
structure Session where
  /-- The segment the name is bound to. -/
  bound : Option Nat
  /-- The content of the segments; `created` of them exist. -/
  segment : Nat → EventShared
  created : Nat
  /-- `g_shared` of each process. -/
  mapped : Pid → Option Nat
  /-- How often each process called `lilt_event_hp_register` without the
  matching `lilt_event_hp_unregister`. -/
  registrations : Pid → Nat

/-- Before the first process of the session. -/
def Session.fresh : Session where
  bound := none
  segment _ := .zeroed
  created := 0
  mapped _ := none
  registrations _ := 0

namespace Session

/-- Replace the content of segment `g`. -/
def write (s : Session) (g : Nat) (m : EventShared) : Session :=
  { s with segment := Function.update s.segment g m }

/-- `shm_open` with `O_CREAT`: the bound segment, or a new zeroed one that the
name gets bound to. -/
def shmOpen (s : Session) : Nat × Session :=
  match s.bound with
  | some g => (g, s)
  | none =>
    (s.created, { s.write s.created .zeroed with
      bound := some s.created, created := s.created + 1 })

/-- `event_shared_get` by the process `p`. -/
def eventSharedGet (s : Session) (p : Pid) : Nat × Session :=
  match s.mapped p with
  | some g => (g, s)
  | none =>
    let (g, s') := s.shmOpen
    (g, { s'.write g (eventSharedInitialize (s'.segment g)) with
      mapped := Function.update s'.mapped p (some g) })

/-- `lilt_event_hp_register` called in the process `p`. -/
def hpRegister (s : Session) (p : Pid) (now : UInt64) : Session :=
  let (g, s') := s.eventSharedGet p
  { s'.write g (liltEventHpRegister (s'.segment g) p now) with
    registrations := Function.update s'.registrations p (s'.registrations p + 1) }

/-- `lilt_event_hp_unregister` called in the process `p`; giving the ownership
up unlinks the name. -/
def hpUnregister (s : Session) (p : Pid) : Session :=
  let (g, s') := s.eventSharedGet p
  { s'.write g (liltEventHpUnregister (s'.segment g) p) with
    bound := if unregistersLast (s'.segment g) p then none else s'.bound
    registrations := Function.update s'.registrations p (s'.registrations p - 1) }

/-- `lilt_event_hp_owner` called in the process `p`; nobody has crashed. -/
def hpOwner (s : Session) (p : Pid) : Pid × Session :=
  let (g, s') := s.eventSharedGet p
  let (owner, m) := liltEventHpOwner (s'.segment g) (fun _ => true)
  (owner, s'.write g m)

end Session

/-- What the processes of a session do. -/
inductive SessionAction where
  | attach (p : Pid)
  | register (p : Pid) (now : UInt64)
  | unregister (p : Pid)
  | owner (p : Pid)

/-- One call of some process. `isHp` tells the HP processes from the BE
processes. At most one HP process is registered at a time, and a process
unregisters only what it registered. -/
inductive SessionStep (isHp : Pid → Prop) : Session → SessionAction → Session → Prop where
  | attach (s : Session) (p : Pid) :
      SessionStep isHp s (.attach p) (s.eventSharedGet p).2
  | register (s : Session) (p : Pid) (now : UInt64) (hp : isHp p) (hpos : 0 < p)
      (hone : ∀ q, q ≠ p → s.registrations q = 0) :
      SessionStep isHp s (.register p now) (s.hpRegister p now)
  | unregister (s : Session) (p : Pid) (hreg : 0 < s.registrations p) :
      SessionStep isHp s (.unregister p) (s.hpUnregister p)
  | owner (s : Session) (p : Pid) :
      SessionStep isHp s (.owner p) (s.hpOwner p).2

/-- All runs of a session. -/
def sessionSystem (isHp : Pid → Prop) : System Session SessionAction where
  Init s := s = .fresh
  Step := SessionStep isHp

/-- While an HP process is registered, `lilt_event_hp_owner` would give its pid
to every BE process that called it now. -/
def EveryBeSeesHp (isHp : Pid → Prop) (s : Session) : Prop :=
  ∀ p, 0 < s.registrations p → ∀ b, ¬ isHp b → (s.hpOwner b).1 = p

/-- The segment the process maps or, if it has not attached, would map because
the name is bound to it. -/
def Session.maps (s : Session) (p : Pid) : Option Nat := (s.mapped p).or s.bound

/-- When an HP process registers for the first time, every BE process maps, or
would map, the same segment as it does. -/
def SameSegment (isHp : Pid → Prop) (s : Session) : SessionAction → Prop
  | .register p _ => s.registrations p = 0 → ∀ b, ¬ isHp b → s.maps b = s.maps p
  | _ => True

/-! ## `event_shared_get` -/

namespace Session

@[simp] theorem write_bound (s : Session) (g : Nat) (m : EventShared) :
    (s.write g m).bound = s.bound := rfl

@[simp] theorem write_mapped (s : Session) (g : Nat) (m : EventShared) :
    (s.write g m).mapped = s.mapped := rfl

@[simp] theorem write_created (s : Session) (g : Nat) (m : EventShared) :
    (s.write g m).created = s.created := rfl

@[simp] theorem write_registrations (s : Session) (g : Nat) (m : EventShared) :
    (s.write g m).registrations = s.registrations := rfl

/-- What was written is there. -/
@[simp] theorem write_segment_self (s : Session) (g : Nat) (m : EventShared) :
    (s.write g m).segment g = m := by simp [write]

/-- Other segments are not written to. -/
theorem write_segment_other (s : Session) {g g' : Nat} (m : EventShared) (h : g' ≠ g) :
    (s.write g m).segment g' = s.segment g' := by simp [write, h]

end Session

/-- A segment some process has initialised. -/
def Initialized (m : EventShared) : Prop :=
  m.magic = eventMagic ∧ m.version = eventVersion

/-- A segment of this layout is left as it is. -/
theorem eventSharedInitialize_of_initialized {m : EventShared} (h : Initialized m) :
    eventSharedInitialize m = m := by
  unfold eventSharedInitialize
  rw [if_neg]
  rintro (h' | h')
  · exact h' h.1
  · exact h' h.2

/-- A segment that was mapped has this layout. -/
theorem initialized_eventSharedInitialize (m : EventShared) :
    Initialized (eventSharedInitialize m) := by
  unfold eventSharedInitialize
  by_cases h : m.magic ≠ eventMagic ∨ m.version ≠ eventVersion
  · rw [if_pos h]
    exact ⟨rfl, rfl⟩
  · rw [if_neg h]
    rw [not_or, not_not, not_not] at h
    exact h

/-- A registration keeps the layout. -/
theorem initialized_register {m : EventShared} (h : Initialized m) (p : Pid)
    (now : UInt64) : Initialized (liltEventHpRegister m p now) := by
  unfold liltEventHpRegister
  split <;> exact h

/-- So does leaving. -/
theorem initialized_unregister {m : EventShared} (h : Initialized m) (p : Pid) :
    Initialized (liltEventHpUnregister m p) := by
  unfold liltEventHpUnregister
  split
  · exact h
  · split <;> exact h

/-! ## The invariant of a session -/

/-- What holds in every state of a session: the segments that exist are
initialised, mappings and the name lead to existing segments, and a segment has
an owner exactly when that process is registered and maps this very segment. -/
structure SessionInv (s : Session) : Prop where
  initialized : ∀ g, g < s.created → Initialized (s.segment g)
  boundExists : ∀ g, s.bound = some g → g < s.created
  mappedExists : ∀ p g, s.mapped p = some g → g < s.created
  ownerRegistered : ∀ g, g < s.created → (s.segment g).hpOwnerPid ≠ 0 →
    0 < s.registrations (s.segment g).hpOwnerPid ∧
      s.mapped (s.segment g).hpOwnerPid = some g
  registeredOwns : ∀ p, 0 < s.registrations p → 0 < p ∧
    ∃ g, s.mapped p = some g ∧ (s.segment g).hpOwnerPid = p ∧
      (s.segment g).hpRegistrationCount = s.registrations p
  atMostOne : ∀ p q, 0 < s.registrations p → 0 < s.registrations q → p = q

/-- Before the first process there is no segment. -/
theorem sessionInv_fresh : SessionInv .fresh where
  initialized g h := absurd h (Nat.not_lt_zero g)
  boundExists _ h := by cases h
  mappedExists _ _ h := by cases h
  ownerRegistered g h := absurd h (Nat.not_lt_zero g)
  registeredOwns _ h := absurd h (Nat.lt_irrefl 0)
  atMostOne _ _ h := absurd h (Nat.lt_irrefl 0)

/-- What `event_shared_get` leaves behind, whichever way it finds the segment. -/
structure GotSegment (s s' : Session) (p : Pid) (g : Nat) : Prop where
  inv : SessionInv s'
  mapped : s'.mapped p = some g
  other : ∀ q, q ≠ p → s'.mapped q = s.mapped q
  registrations : s'.registrations = s.registrations
  kept : ∀ g', s.mapped p = some g' → g = g' ∧ s'.bound = s.bound
  bound : s.mapped p = none → s'.bound = some g
  keptBound : ∀ g', s.bound = some g' → s'.bound = some g'

/-- Nobody owns a new segment. -/
theorem zeroed_hpOwnerPid : (eventSharedInitialize .zeroed).hpOwnerPid = 0 := by
  decide

/-- A registered process has attached before. -/
theorem SessionInv.ne_of_registered {s : Session} (h : SessionInv s) {p q : Pid}
    (hm : s.mapped p = none) (hq : 0 < s.registrations q) : q ≠ p := by
  rintro rfl
  obtain ⟨-, g, hg, -⟩ := h.registeredOwns q hq
  rw [hm] at hg
  cases hg

/-- Mapping the segment the name is bound to keeps the invariant. -/
theorem got_bound {s : Session} (h : SessionInv s) {p : Pid} {g : Nat}
    (hm : s.mapped p = none) (hb : s.bound = some g) :
    GotSegment s (s.eventSharedGet p).2 p (s.eventSharedGet p).1 := by
  have hg : g < s.created := h.boundExists g hb
  have hget : s.eventSharedGet p =
      (g, { s with mapped := Function.update s.mapped p (some g) }) := by
    unfold Session.eventSharedGet
    rw [hm]
    simp only [Session.shmOpen, hb]
    rw [eventSharedInitialize_of_initialized (h.initialized g hg)]
    simp [Session.write, hb]
  rw [hget]
  have hreg := fun q => h.ne_of_registered (q := q) hm
  refine { inv := ?_, mapped := by simp, other := fun q hq => by simp [hq],
           registrations := rfl, kept := fun g' hg' => (by rw [hm] at hg'; cases hg'),
           bound := fun _ => hb, keptBound := fun _ h' => h' }
  refine { initialized := h.initialized, boundExists := h.boundExists,
           mappedExists := ?_, ownerRegistered := ?_, registeredOwns := ?_,
           atMostOne := h.atMostOne }
  · intro q g' hq
    by_cases hqp : q = p
    · subst hqp
      simp only [Function.update_self] at hq
      cases hq
      exact hg
    · simp only [Function.update_of_ne hqp] at hq
      exact h.mappedExists q g' hq
  · intro g' hg' hne
    obtain ⟨h1, h2⟩ := h.ownerRegistered g' hg' hne
    exact ⟨h1, (Function.update_of_ne (hreg _ h1) _ _).trans h2⟩
  · intro q hq
    obtain ⟨hpos, g', hg', hown⟩ := h.registeredOwns q hq
    exact ⟨hpos, g', (Function.update_of_ne (hreg q hq) _ _).trans hg', hown⟩

/-- Creating the segment because the name is unbound keeps the invariant. -/
theorem got_created {s : Session} (h : SessionInv s) {p : Pid}
    (hm : s.mapped p = none) (hb : s.bound = none) :
    GotSegment s (s.eventSharedGet p).2 p (s.eventSharedGet p).1 := by
  have hget : s.eventSharedGet p =
      (s.created,
        { bound := some s.created
          segment := Function.update s.segment s.created (eventSharedInitialize .zeroed)
          created := s.created + 1
          mapped := Function.update s.mapped p (some s.created)
          registrations := s.registrations }) := by
    unfold Session.eventSharedGet
    rw [hm]
    simp [Session.shmOpen, hb, Session.write]
  rw [hget]
  have hreg := fun q => h.ne_of_registered (q := q) hm
  refine { inv := ?_, mapped := by simp, other := fun q hq => by simp [hq],
           registrations := rfl, kept := fun g' hg' => (by rw [hm] at hg'; cases hg'),
           bound := fun _ => rfl, keptBound := fun g' h' => (by rw [hb] at h'; cases h') }
  refine { initialized := ?_, boundExists := ?_, mappedExists := ?_,
           ownerRegistered := ?_, registeredOwns := ?_, atMostOne := h.atMostOne }
  · intro g hg
    by_cases hgc : g = s.created
    · subst hgc
      simp only [Function.update_self]
      exact initialized_eventSharedInitialize _
    · simp only [Function.update_of_ne hgc]
      exact h.initialized g (by dsimp only at hg; omega)
  · rintro g hg
    cases hg
    exact Nat.lt_succ_self _
  · intro q g hq
    by_cases hqp : q = p
    · subst hqp
      simp only [Function.update_self] at hq
      cases hq
      exact Nat.lt_succ_self _
    · simp only [Function.update_of_ne hqp] at hq
      exact Nat.lt_succ_of_lt (h.mappedExists q g hq)
  · intro g hg hne
    by_cases hgc : g = s.created
    · -- the new segment has no owner
      subst hgc
      simp only [Function.update_self] at hne
      exact absurd zeroed_hpOwnerPid hne
    · simp only [Function.update_of_ne hgc] at hne ⊢
      obtain ⟨h1, h2⟩ := h.ownerRegistered g (by dsimp only at hg; omega) hne
      exact ⟨h1, (Function.update_of_ne (hreg _ h1) _ _).trans h2⟩
  · intro q hq
    obtain ⟨hpos, g, hg, hown⟩ := h.registeredOwns q hq
    -- what a registered process maps is older than the new segment
    have hgc : g ≠ s.created := Nat.ne_of_lt (h.mappedExists q g hg)
    refine ⟨hpos, g, (Function.update_of_ne (hreg q hq) _ _).trans hg, ?_⟩
    simp only [Function.update_of_ne hgc]
    exact hown

/-- `event_shared_get` keeps the invariant and caches the mapping. -/
theorem eventSharedGet_spec {s : Session} (h : SessionInv s) (p : Pid) :
    GotSegment s (s.eventSharedGet p).2 p (s.eventSharedGet p).1 := by
  cases hm : s.mapped p with
  | none =>
    cases hb : s.bound with
    | none => exact got_created h hm hb
    | some g => exact got_bound h hm hb
  | some g =>
    have hget : s.eventSharedGet p = (g, s) := by
      unfold Session.eventSharedGet
      rw [hm]
    rw [hget]
    exact { inv := h, mapped := hm, other := fun _ _ => rfl, registrations := rfl,
            kept := fun g' hg' => (by rw [hm] at hg'; cases hg'; exact ⟨rfl, rfl⟩),
            bound := fun hn => (by rw [hm] at hn; cases hn), keptBound := fun _ h' => h' }

/-! ## Register, unregister and owner on a mapped segment -/

/-- `lilt_event_hp_register` on the segment `p` maps. -/
theorem sessionInv_register {s : Session} (h : SessionInv s) {p : Pid} {g : Nat}
    (hm : s.mapped p = some g) (hpos : 0 < p)
    (hone : ∀ q, q ≠ p → s.registrations q = 0) (now : UInt64) :
    SessionInv { s.write g (liltEventHpRegister (s.segment g) p now) with
      registrations := Function.update s.registrations p (s.registrations p + 1) } := by
  have hg := h.mappedExists p g hm
  have hregs : ∀ q, 0 < Function.update s.registrations p (s.registrations p + 1) q →
      q = p := by
    intro q hq
    by_contra hqp
    rw [Function.update_of_ne hqp, hone q hqp] at hq
    exact Nat.lt_irrefl 0 hq
  refine { initialized := ?_, boundExists := h.boundExists,
           mappedExists := h.mappedExists, ownerRegistered := ?_,
           registeredOwns := ?_,
           atMostOne := fun q q' hq hq' => (hregs q hq).trans (hregs q' hq').symm }
  · intro g' hg'
    by_cases hgg : g' = g
    · subst hgg
      show Initialized ((s.write g' _).segment g')
      rw [Session.write_segment_self]
      exact initialized_register (h.initialized _ hg') p now
    · show Initialized ((s.write g _).segment g')
      rw [Session.write_segment_other s _ hgg]
      exact h.initialized g' hg'
  · intro g' hg' hne
    by_cases hgg : g' = g
    · subst hgg
      simp only [Session.write_segment_self, register_hpOwnerPid, Function.update_self]
      exact ⟨Nat.succ_pos _, hm⟩
    · -- the owner of another segment would be `p`, which maps `g`
      simp only [Session.write_segment_other s _ hgg] at hne ⊢
      obtain ⟨h1, h2⟩ := h.ownerRegistered g' hg' hne
      have hp : (s.segment g').hpOwnerPid = p := by
        by_contra hqp
        rw [hone _ hqp] at h1
        exact Nat.lt_irrefl 0 h1
      rw [hp, hm] at h2
      cases h2
      exact absurd rfl hgg
  · intro q hq
    cases hregs q hq
    refine ⟨hpos, g, hm, by simp, ?_⟩
    simp only [Session.write_segment_self, Function.update_self]
    unfold liltEventHpRegister
    by_cases hown : (s.segment g).hpOwnerPid = p
    · -- a further copy of the proxy is counted
      rw [if_pos hown]
      have hreg := (h.ownerRegistered g hg (by rw [hown]; exact Nat.ne_of_gt hpos)).1
      rw [hown] at hreg
      obtain ⟨-, g', hg', -, hcount⟩ := h.registeredOwns p hreg
      rw [hm] at hg'
      cases hg'
      rw [hcount]
    · -- the first one takes the segment over
      rw [if_neg hown]
      have hz : s.registrations p = 0 := by
        by_contra hne
        obtain ⟨-, g', hg', hown', -⟩ := h.registeredOwns p (Nat.pos_of_ne_zero hne)
        rw [hm] at hg'
        cases hg'
        exact hown hown'
      rw [hz]

/-- `lilt_event_hp_unregister` on the segment the registered process maps. -/
theorem sessionInv_unregister {s : Session} (h : SessionInv s) {p : Pid} {g : Nat}
    (hm : s.mapped p = some g) (hreg : 0 < s.registrations p) (b : Option Nat)
    (hb : b = none ∨ b = s.bound) :
    SessionInv { s.write g (liltEventHpUnregister (s.segment g) p) with
      bound := b
      registrations := Function.update s.registrations p (s.registrations p - 1) } := by
  obtain ⟨hpos, g₀, hg₀, hown, hcount⟩ := h.registeredOwns p hreg
  rw [hm] at hg₀
  cases hg₀
  have honly : ∀ q, 0 < Function.update s.registrations p (s.registrations p - 1) q →
      q = p := by
    intro q hq
    by_contra hqp
    rw [Function.update_of_ne hqp] at hq
    exact hqp (h.atMostOne q p hq hreg)
  have hseg : liltEventHpUnregister (s.segment g) p =
      if 1 < s.registrations p then
        { s.segment g with hpRegistrationCount := s.registrations p - 1 }
      else { s.segment g with hpRegistrationCount := 0, hpState := .idle, hpOwnerPid := 0 } := by
    unfold liltEventHpUnregister
    rw [if_neg (by simp [hown]), hcount]
  refine { initialized := ?_, boundExists := ?_, mappedExists := h.mappedExists,
           ownerRegistered := ?_, registeredOwns := ?_,
           atMostOne := fun q q' hq hq' => (honly q hq).trans (honly q' hq').symm }
  · intro g' hg'
    by_cases hgg : g' = g
    · subst hgg
      show Initialized ((s.write g' _).segment g')
      rw [Session.write_segment_self]
      exact initialized_unregister (h.initialized _ hg') p
    · show Initialized ((s.write g _).segment g')
      rw [Session.write_segment_other s _ hgg]
      exact h.initialized g' hg'
  · intro g' hg'
    rcases hb with rfl | rfl
    · cases hg'
    · exact h.boundExists g' hg'
  · intro g' hg' hne
    by_cases hgg : g' = g
    · subst hgg
      simp only [Session.write_segment_self, hseg] at hne ⊢
      by_cases h1 : 1 < s.registrations p
      · simp only [if_pos h1, hown, Function.update_self]
        exact ⟨by omega, hm⟩
      · simp [if_neg h1] at hne
    · simp only [Session.write_segment_other s _ hgg] at hne ⊢
      obtain ⟨h1, h2⟩ := h.ownerRegistered g' hg' hne
      have hp : (s.segment g').hpOwnerPid = p := h.atMostOne _ _ h1 hreg
      rw [hp, hm] at h2
      cases h2
      exact absurd rfl hgg
  · intro q hq
    -- a copy of the proxy is left, so the count was above one
    cases honly q hq
    simp only [Function.update_self] at hq
    refine ⟨hpos, g, hm, ?_⟩
    simp only [Session.write_segment_self, hseg, Function.update_self]
    rw [if_pos (by omega)]
    exact ⟨hown, rfl⟩

/-- In a session nobody crashes in, `lilt_event_hp_owner` reads the owner of the
segment it maps and writes nothing. -/
theorem hpOwner_eq {s : Session} (h : SessionInv s) (p : Pid) :
    s.hpOwner p = (((s.eventSharedGet p).2.segment (s.eventSharedGet p).1).hpOwnerPid,
      (s.eventSharedGet p).2) := by
  have hgot := eventSharedGet_spec h p
  have halive : ∀ g, liltEventHpOwner ((s.eventSharedGet p).2.segment g) (fun _ => true) =
      (((s.eventSharedGet p).2.segment g).hpOwnerPid, (s.eventSharedGet p).2.segment g) := by
    intro g
    refine hpOwner_of_alive fun hne => ?_
    simp only [ownerIsAlive, Bool.and_true, decide_eq_true_eq]
    exact Nat.pos_of_ne_zero hne
  unfold Session.hpOwner
  simp only [halive]
  simp [Session.write]

/-- Every step keeps the invariant. -/
theorem sessionStep_inv {isHp : Pid → Prop} {s t : Session} {a : SessionAction}
    (h : SessionInv s) (hstep : SessionStep isHp s a t) : SessionInv t := by
  cases hstep with
  | attach p => exact (eventSharedGet_spec h p).inv
  | register p now hp hpos hone =>
    have hgot := eventSharedGet_spec h p
    exact sessionInv_register hgot.inv hgot.mapped hpos
      (fun q hq => by rw [hgot.registrations]; exact hone q hq) now
  | unregister p hreg =>
    have hgot := eventSharedGet_spec h p
    refine sessionInv_unregister hgot.inv hgot.mapped
      (by rw [hgot.registrations]; exact hreg) _ ?_
    exact ite_eq_or_eq _ _ _
  | owner p =>
    rw [hpOwner_eq h p]
    exact (eventSharedGet_spec h p).inv

/-- The invariant holds in every run. -/
theorem session_reachable_inv {isHp : Pid → Prop} {s : Session}
    (h : (sessionSystem isHp).Reachable s) : SessionInv s := by
  have hind : (sessionSystem isHp).Inductive SessionInv :=
    { init := fun t (ht : t = .fresh) => by rw [ht]; exact sessionInv_fresh
      step := fun _ _ _ _ hi hs => sessionStep_inv hi hs }
  exact hind.reachable h

/-! ## Runs without leftovers -/

/-- While an HP process is registered, every BE process maps the same segment
as it does, or would map it. -/
structure Aligned (isHp : Pid → Prop) (s : Session) : Prop where
  hp : ∀ p, 0 < s.registrations p → isHp p
  same : ∀ p g, 0 < s.registrations p → s.mapped p = some g →
    ∀ b, ¬ isHp b → s.maps b = some g

/-- `event_shared_get` of another process does not change what a process maps
or would map. -/
theorem maps_get {s s' : Session} {p b : Pid} {g g' : Nat} (hgot : GotSegment s s' p g)
    (h : s.maps b = some g') : s'.maps b = some g' := by
  unfold Session.maps at h ⊢
  by_cases hbp : b = p
  · subst hbp
    rw [hgot.mapped]
    cases hm : s.mapped b with
    | some g₀ =>
      rw [hm] at h
      rw [(hgot.kept g₀ hm).1]
      exact h
    | none =>
      rw [hm] at h
      have h1 := hgot.keptBound g' h
      rw [hgot.bound hm] at h1
      exact h1
  · rw [hgot.other b hbp]
    cases hm : s.mapped b with
    | some g₀ =>
      rw [hm] at h
      exact h
    | none =>
      rw [hm] at h
      exact hgot.keptBound g' h

/-- A registered process keeps its mapping. -/
theorem mapped_get {s s' : Session} {p q : Pid} {g : Nat} (hinv : SessionInv s)
    (hgot : GotSegment s s' q g) (hp : 0 < s.registrations p) : s'.mapped p = s.mapped p := by
  by_cases hpq : p = q
  · subst hpq
    obtain ⟨-, g₀, hg₀, -⟩ := hinv.registeredOwns p hp
    rw [hgot.mapped, hg₀, (hgot.kept g₀ hg₀).1]
  · exact hgot.other p hpq

/-- `event_shared_get` of any process keeps the alignment. -/
theorem Aligned.get {isHp : Pid → Prop} {s : Session} (h : Aligned isHp s)
    (hinv : SessionInv s) (q : Pid) : Aligned isHp (s.eventSharedGet q).2 := by
  have hgot := eventSharedGet_spec hinv q
  refine { hp := fun p hp => h.hp p (by rw [← hgot.registrations]; exact hp), same := ?_ }
  intro p g hp hg b hb
  rw [hgot.registrations] at hp
  rw [mapped_get hinv hgot hp] at hg
  exact maps_get hgot (h.same p g hp hg b hb)

/-- Aligned mappings show every BE process the registered pid. -/
theorem Aligned.everyBeSeesHp {isHp : Pid → Prop} {s : Session} (h : Aligned isHp s)
    (hinv : SessionInv s) : EveryBeSeesHp isHp s := by
  intro p hp b hb
  rw [hpOwner_eq hinv b]
  -- the query itself may attach the process
  have hgot := eventSharedGet_spec hinv b
  have hget := h.get hinv b
  have hp' : 0 < (s.eventSharedGet b).2.registrations p := by
    rw [hgot.registrations]; exact hp
  obtain ⟨-, g, hg, hown, -⟩ := hgot.inv.registeredOwns p hp'
  have hsame := hget.same p g hp' hg b hb
  unfold Session.maps at hsame
  rw [hgot.mapped] at hsame
  have hgg : (s.eventSharedGet b).1 = g := Option.some.inj hsame
  rw [hgg]
  exact hown

section register

variable {isHp : Pid → Prop} {s : Session} {p : Pid}

/-- A registration is counted for its process. -/
theorem registrations_hpRegister (hinv : SessionInv s) (now : UInt64) :
    (s.hpRegister p now).registrations =
      Function.update s.registrations p (s.registrations p + 1) := by
  simp [Session.hpRegister, (eventSharedGet_spec hinv p).registrations]

/-- The first registration of an HP process that maps what the BE processes
map. -/
theorem aligned_register (hinv : SessionInv s) (hp : isHp p)
    (hone : ∀ q, q ≠ p → s.registrations q = 0)
    (hsame : ∀ b, ¬ isHp b → s.maps b = s.maps p) (now : UInt64) :
    Aligned isHp (s.hpRegister p now) := by
  have hgot := eventSharedGet_spec hinv p
  have hregs : ∀ q, 0 < (s.hpRegister p now).registrations q → q = p := by
    intro q hq
    by_contra hqp
    rw [registrations_hpRegister hinv, Function.update_of_ne hqp, hone q hqp] at hq
    exact Nat.lt_irrefl 0 hq
  have hmp : (s.hpRegister p now).mapped p = some (s.eventSharedGet p).1 := hgot.mapped
  refine { hp := fun q hq => hregs q hq ▸ hp, same := ?_ }
  intro q g hq hg b hb
  cases hregs q hq
  rw [hmp] at hg
  rw [← hg]
  show (s.eventSharedGet p).2.maps b = _
  cases hmaps : s.maps p with
  | some g₀ =>
    have hps : (s.eventSharedGet p).2.maps p = some g₀ := maps_get hgot hmaps
    unfold Session.maps at hps
    rw [hgot.mapped] at hps
    rw [show some (s.eventSharedGet p).1 = some g₀ from hps]
    exact maps_get hgot ((hsame b hb).trans hmaps)
  | none =>
    -- the name is unbound: `p` creates the segment and nobody else is attached
    have hb' := (hsame b hb).trans hmaps
    unfold Session.maps at hmaps hb' ⊢
    obtain ⟨hmp', -⟩ := Option.or_eq_none_iff.mp hmaps
    obtain ⟨hmb, -⟩ := Option.or_eq_none_iff.mp hb'
    have hbp : b ≠ p := fun h => hb (h ▸ hp)
    rw [hgot.other b hbp, hmb, hgot.bound hmp']
    rfl

/-- A BE process that sees the HP process that just registered mapped, or would
have mapped, the same segment. -/
theorem same_of_sees (hinv : SessionInv s) (hpos : 0 < p) (now : UInt64) (hp : isHp p)
    (hone : ∀ q, q ≠ p → s.registrations q = 0) {b : Pid} (hb : ¬ isHp b)
    (hsees : ((s.hpRegister p now).hpOwner b).1 = p) : s.maps b = s.maps p := by
  have hgot := eventSharedGet_spec hinv p
  have hinv' : SessionInv (s.hpRegister p now) :=
    sessionInv_register hgot.inv hgot.mapped hpos
      (fun q hq => by rw [hgot.registrations]; exact hone q hq) now
  have hgotb := eventSharedGet_spec hinv' b
  have hbp : b ≠ p := fun h => hb (h ▸ hp)
  have hmp : (s.hpRegister p now).mapped p = some (s.eventSharedGet p).1 := hgot.mapped
  -- the owner of the segment `b` gets maps it, so it is the segment of `p`
  rw [hpOwner_eq hinv' b] at hsees
  dsimp only at hsees
  have hseg : ((s.hpRegister p now).eventSharedGet b).1 = (s.eventSharedGet p).1 := by
    obtain ⟨-, hm⟩ := hgotb.inv.ownerRegistered _
      (hgotb.inv.mappedExists b _ hgotb.mapped) (by rw [hsees]; exact Nat.ne_of_gt hpos)
    rw [hsees, hgotb.other p (Ne.symm hbp), hmp] at hm
    exact (Option.some.inj hm).symm
  have hmb : (s.hpRegister p now).mapped b = s.mapped b := hgot.other b hbp
  unfold Session.maps
  cases hsp : s.mapped p with
  | some g =>
    obtain ⟨hg, hbound⟩ := hgot.kept g hsp
    rw [hg] at hseg
    cases hsb : s.mapped b with
    | some g' =>
      rw [hsb] at hmb
      have := (hgotb.kept g' hmb).1
      rw [hseg] at this
      rw [this]
    | none =>
      rw [hsb] at hmb
      have hbd : (s.hpRegister p now).bound = s.bound := hbound
      cases hsbd : s.bound with
      | some g' =>
        have := hgotb.keptBound g' (hbd.trans hsbd)
        rw [hgotb.bound hmb, hseg] at this
        exact this.symm
      | none =>
        -- `b` would create a new segment, which cannot be the one `p` maps
        exfalso
        have hnew : ((s.hpRegister p now).eventSharedGet b).1 =
            (s.hpRegister p now).created := by
          unfold Session.eventSharedGet
          rw [hmb]
          simp [Session.shmOpen, hbd.trans hsbd]
        have hlt := hinv'.mappedExists p _ hmp
        rw [hg] at hlt
        omega
  | none =>
    cases hsb : s.mapped b with
    | none => rfl
    | some g' =>
      rw [hsb] at hmb
      have hg' := (hgotb.kept g' hmb).1
      rw [hseg] at hg'
      cases hsbd : s.bound with
      | some g =>
        have := hgot.keptBound g hsbd
        rw [hgot.bound hsp, hg'] at this
        exact this
      | none =>
        -- `p` created its segment, which cannot be the one `b` mapped before
        exfalso
        have hnew : (s.eventSharedGet p).1 = s.created := by
          unfold Session.eventSharedGet
          rw [hsp]
          simp [Session.shmOpen, hsbd]
        have hlt := hinv.mappedExists b g' hsb
        omega

end register

/-- A step that stays on one segment leaves everybody aligned. -/
theorem aligned_step {isHp : Pid → Prop} {s t : Session} {a : SessionAction}
    (hinv : SessionInv s) (h : Aligned isHp s) (hc : SameSegment isHp s a)
    (hstep : SessionStep isHp s a t) : Aligned isHp t := by
  cases hstep with
  | attach p => exact h.get hinv p
  | register p now hp hpos hone =>
    by_cases hz : s.registrations p = 0
    · exact aligned_register hinv hp hone (hc hz) now
    · -- a further copy of the proxy in the registered process
      have hget := h.get hinv p
      have hreg : ∀ q, 0 < (s.hpRegister p now).registrations q →
          0 < (s.eventSharedGet p).2.registrations q := by
        intro q hq
        rw [(eventSharedGet_spec hinv p).registrations]
        by_cases hqp : q = p
        · rw [hqp]
          exact Nat.pos_of_ne_zero hz
        · rw [registrations_hpRegister hinv, Function.update_of_ne hqp] at hq
          exact hq
      exact { hp := fun q hq => hget.hp q (hreg q hq)
              same := fun q g hq hg => hget.same q g (hreg q hq) hg }
  | unregister p hpreg =>
    have hget := h.get hinv p
    have hgot := eventSharedGet_spec hinv p
    -- a process that stays registered keeps the count above one: no unlink
    have hregs : ∀ q, 0 < (s.hpUnregister p).registrations q →
        q = p ∧ 1 < s.registrations p := by
      intro q hq
      by_cases hqp : q = p
      · subst hqp
        simp only [Session.hpUnregister, Function.update_self, hgot.registrations] at hq
        exact ⟨rfl, by omega⟩
      · simp only [Session.hpUnregister, Function.update_of_ne hqp, hgot.registrations] at hq
        exact absurd (hinv.atMostOne q p hq hpreg) hqp
    have hreg : ∀ q, 0 < (s.hpUnregister p).registrations q →
        0 < (s.eventSharedGet p).2.registrations q := by
      intro q hq
      obtain ⟨rfl, h1⟩ := hregs q hq
      rw [hgot.registrations]
      omega
    have hbound : ∀ q, 0 < (s.hpUnregister p).registrations q →
        (s.hpUnregister p).bound = (s.eventSharedGet p).2.bound := by
      intro q hq
      obtain ⟨rfl, h1⟩ := hregs q hq
      obtain ⟨-, g, hg, -, hcount⟩ := hgot.inv.registeredOwns q
        (by rw [hgot.registrations]; exact hpreg)
      rw [hgot.mapped] at hg
      cases hg
      rw [hgot.registrations] at hcount
      simp only [Session.hpUnregister]
      rw [if_neg]
      simp [unregistersLast, hcount]
      omega
    refine { hp := fun q hq => hget.hp q (hreg q hq), same := ?_ }
    intro q g hq hg b hb
    unfold Session.maps
    rw [hbound q hq]
    exact hget.same q g (hreg q hq) hg b hb
  | owner p =>
    rw [hpOwner_eq hinv p]
    exact h.get hinv p

/-- In a run on one segment everybody is aligned. -/
theorem aligned_reachable {isHp : Pid → Prop} {s : Session}
    (h : ((sessionSystem isHp).restrict (SameSegment isHp)).Reachable s) :
    Aligned isHp s := by
  have hind : ((sessionSystem isHp).restrict (SameSegment isHp)).Inductive
      (Aligned isHp) :=
    { init := fun t (ht : t = .fresh) => by
        rw [ht]
        exact { hp := fun _ h => absurd h (Nat.lt_irrefl 0)
                same := fun _ _ h => absurd h (Nat.lt_irrefl 0) }
      step := fun _ _ _ ht hi hs =>
        aligned_step (session_reachable_inv ht.of_restrict) hi hs.1 hs.2 }
  exact hind.reachable h

/-- **When BE processes observe the current HP**: along a run,
`lilt_event_hp_owner` gives every BE process the pid of the registered HP
process in every state exactly when no HP process ever registers on a segment
other than the one every BE process maps or would map. -/
theorem every_be_sees_hp_iff {isHp : Pid → Prop} {tr : List (Session × SessionAction)}
    {s : Session} (h : (sessionSystem isHp).Run tr s) :
    System.Throughout (EveryBeSeesHp isHp) tr s ↔ System.Meets (SameSegment isHp) tr := by
  refine h.throughout_iff ?_ ?_
  · intro t (ht : t = .fresh) p hp
    rw [ht] at hp
    exact absurd hp (Nat.lt_irrefl 0)
  · intro u a t hu hstep
    have hinv := session_reachable_inv hu.of_restrict
    constructor
    · intro hsees
      cases hstep with
      | attach p => trivial
      | register p now hp hpos hone =>
        intro _ b hb
        refine same_of_sees hinv hpos now hp hone hb (hsees p ?_ b hb)
        rw [registrations_hpRegister hinv, Function.update_self]
        exact Nat.succ_pos _
      | unregister p hreg => trivial
      | owner p => trivial
    · intro hc
      exact (aligned_step hinv (aligned_reachable hu) hc hstep).everyBeSeesHp
        (sessionStep_inv hinv hstep)

/-- The BE process 2 attaches, then the HP process 10 registers: the BE process
sees it. -/
theorem every_be_sees_hp_first :
    System.Throughout (EveryBeSeesHp fun p => 10 ≤ p)
      [(.fresh, SessionAction.attach 2),
        ((Session.fresh.eventSharedGet 2).2, SessionAction.register 10 5)]
      ((Session.fresh.eventSharedGet 2).2.hpRegister 10 5) := by
  have hrun : (sessionSystem fun p => 10 ≤ p).Run
      ([] ++ [(.fresh, .attach 2)] ++ [((Session.fresh.eventSharedGet 2).2, .register 10 5)])
      ((Session.fresh.eventSharedGet 2).2.hpRegister 10 5) :=
    .step (.step (.init rfl) (.attach _ 2))
      (.register _ 10 5 (by decide) (by decide) fun _ _ => rfl)
  refine (every_be_sees_hp_iff hrun).mpr ?_
  refine System.meets_snoc.mpr ⟨System.meets_snoc.mpr ⟨fun _ hx => (nomatch hx), trivial⟩, ?_⟩
  intro _ b _
  by_cases hb : b = 2
  · subst hb
    rfl
  · simp [Session.maps, Session.eventSharedGet, Session.shmOpen, Session.fresh,
      Session.write, hb]

/-- The BE process 2 attaches, the HP process 10 comes and goes, and the HP
process 11 registers: process 2 still asks the unlinked segment. -/
theorem early_be_misses_second_hp :
    ¬ ∀ s, (sessionSystem fun p => 10 ≤ p).Reachable s →
      EveryBeSeesHp (fun p => 10 ≤ p) s := by
  intro hall
  let s₁ := (Session.fresh.eventSharedGet 2).2
  let s₂ := s₁.hpRegister 10 5
  let s₃ := s₂.hpUnregister 10
  have hone : ∀ q, q ≠ 11 → s₃.registrations q = 0 := by
    intro q _
    by_cases hq : q = 10
    · subst hq
      decide
    · simp [s₃, s₂, s₁, Session.hpUnregister, Session.hpRegister, Session.eventSharedGet,
        Session.shmOpen, Session.fresh, Session.write]
  have hreach : (sessionSystem fun p => 10 ≤ p).Reachable (s₃.hpRegister 11 9) :=
    .step (.step (.step (.step (.init rfl)
      (.attach _ 2)) (.register _ 10 5 (by decide) (by decide) fun _ _ => rfl))
      (.unregister _ 10 (by decide))) (.register _ 11 9 (by decide) (by decide) hone)
  have hsees : ((s₃.hpRegister 11 9).hpOwner 2).1 = 11 :=
    hall _ hreach 11 (by decide) 2 (by decide)
  exact absurd hsees (by decide)

end Lilt.Activity
