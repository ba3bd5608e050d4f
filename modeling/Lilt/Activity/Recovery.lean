import Lilt.Activity.Shared
import Lilt.Lib.Atomic
import Lilt.Lib.Transition
import Mathlib.Data.List.Range

/-!
# Recovery from a dead HP process, access by access

An HP process died without unregistering, so its words stay in the segment. BE
processes notice and clear them (`lilt_event_hp_owner`,
`lilt_event_be_wait_until_idle`), while a new HP process registers and starts to
publish. Here every load, store, fetch-and-add and compare-exchange is a step of
its own.

- `hpExec`, `beExec`: the accesses of the calls, in the order of the source.
- `solo_register`, `solo_markActive`, `solo_markIdle`, `solo_hpOwner`: a call
  that nothing interrupts is the function of `Activity/Shared.lean`.
- `solo_waitUntilIdle`: what such a call of the wait loop did when it returns.
- `recoverySystem`: all interleavings of any number of BE processes and the new
  HP process.
- `recovery_harmless_iff`: the new HP process is never damaged exactly when no
  clearing write falls after its own write to the same word (`Harmless`).
- `recovery_damages_new_hp`: a clearing write does fall there.
-/

namespace Lilt.Activity

open Transition Atomic

/-! ## The words that only HP processes write -/

/-- The words of the segment that serve statistics and prediction only. -/
inductive StatWord where
  | generation
  | idleSamples
  | activeSamples
  | lastActiveNs
  | lastIdleNs
  | idleEwmaNs
  | activeEwmaNs
  | idleSurvivalCount (i : Nat)
  deriving DecidableEq

namespace EventShared

def stat (m : EventShared) : StatWord → UInt64
  | .generation => m.hpGeneration
  | .idleSamples => m.hpIdleSamples.toUInt64
  | .activeSamples => m.hpActiveSamples.toUInt64
  | .lastActiveNs => m.hpLastActiveNs
  | .lastIdleNs => m.hpLastIdleNs
  | .idleEwmaNs => m.hpIdleEwmaNs
  | .activeEwmaNs => m.hpActiveEwmaNs
  | .idleSurvivalCount i => m.hpIdleSurvivalCounts i

def setStat (m : EventShared) (w : StatWord) (v : UInt64) : EventShared :=
  match w with
  | .generation => { m with hpGeneration := v }
  | .idleSamples => { m with hpIdleSamples := v.toUInt32 }
  | .activeSamples => { m with hpActiveSamples := v.toUInt32 }
  | .lastActiveNs => { m with hpLastActiveNs := v }
  | .lastIdleNs => { m with hpLastIdleNs := v }
  | .idleEwmaNs => { m with hpIdleEwmaNs := v }
  | .activeEwmaNs => { m with hpActiveEwmaNs := v }
  | .idleSurvivalCount i =>
    { m with hpIdleSurvivalCounts := Function.update m.hpIdleSurvivalCounts i v }

/-- Statistics have words of their own. -/
@[simp] theorem setStat_hpState (m : EventShared) (w : StatWord) (v : UInt64) :
    (m.setStat w v).hpState = m.hpState := by cases w <;> rfl

@[simp] theorem setStat_hpOwnerPid (m : EventShared) (w : StatWord) (v : UInt64) :
    (m.setStat w v).hpOwnerPid = m.hpOwnerPid := by cases w <;> rfl

@[simp] theorem setStat_hpRegistrationCount (m : EventShared) (w : StatWord) (v : UInt64) :
    (m.setStat w v).hpRegistrationCount = m.hpRegistrationCount := by cases w <;> rfl

end EventShared

/-! ## The accesses of the HP process -/

/-- One access of the HP process. Clock readings are arguments. -/
inductive HpOp where
  /-- `lilt_event_hp_register` reads the owner. -/
  | registerLoadOwner (now : UInt64)
  | addRegistrationCount
  /-- Of the value one. -/
  | storeRegistrationCount
  | storeOwner
  | storeStat (w : StatWord) (v : UInt64)
  | addStat (w : StatWord)
  /-- `update_ewma_ns` reads the average. -/
  | updateEwmaLoad (w : StatWord) (sampleNs : UInt64)
  /-- `lilt_event_hp_mark_active` reads the end of the last active period. -/
  | markActiveLoad (now : UInt64)
  /-- `lilt_event_hp_mark_idle` reads the end of the last idle period. -/
  | markIdleLoad (now : UInt64)
  | storeState (v : HpState)

/-- The segment, with the HP process's own record of what it wrote: whether it
has made the owner and the count its own, and the state it stored last. -/
structure HpView where
  shared : EventShared
  ownerTaken : Bool
  countTaken : Bool
  latest : Option HpState

/-- The stores of `lilt_event_hp_register` by a process that is not the owner. -/
def registerStores (now : UInt64) : List HpOp :=
  [.storeRegistrationCount, .storeOwner, .addStat .generation,
    .storeStat .idleSamples 0, .storeStat .activeSamples 0, .storeStat .lastActiveNs 0,
    .storeStat .lastIdleNs now, .storeStat .idleEwmaNs 0, .storeStat .activeEwmaNs 0] ++
  (List.range idleSurvivalBuckets).map (fun i => .storeStat (.idleSurvivalCount i) 0) ++
  [.storeState .idle]

/-- The buckets of the idle histogram that an idle period falls into. -/
def survivedBuckets (idleDurationNs : UInt64) : List Nat :=
  (List.range idleSurvivalBuckets).filter fun i =>
    match gIdleSurvivalThresholdsNs[i]? with
    | some threshold => threshold < idleDurationNs
    | none => false

/-- The accesses by which `lilt_event_hp_mark_active` counts an idle period. -/
def countIdleOps (lastIdle now : UInt64) : List HpOp :=
  if lastIdle ≠ 0 ∧ lastIdle < now then
    [.updateEwmaLoad .idleEwmaNs (now - lastIdle)] ++
      ((survivedBuckets (now - lastIdle)).map (fun i => .addStat (.idleSurvivalCount i)) ++
        [.addStat .idleSamples])
  else []

/-- The accesses by which `lilt_event_hp_mark_idle` counts an active period. -/
def countActiveOps (lastActive now : UInt64) : List HpOp :=
  if lastActive ≠ 0 ∧ lastActive < now then
    [.updateEwmaLoad .activeEwmaNs (now - lastActive)] ++ [.addStat .activeSamples]
  else []

/-- One access of the HP process `self` and the accesses it calls for. -/
def hpExec (self : Pid) : Exec HpView HpOp
  | .registerLoadOwner now, v =>
    if v.shared.hpOwnerPid = self then
      ({ v with ownerTaken := true }, [.addRegistrationCount])
    else (v, registerStores now)
  | .addRegistrationCount, v =>
    ({ v with
        shared := { v.shared with hpRegistrationCount := v.shared.hpRegistrationCount + 1 }
        countTaken := true }, [])
  | .storeRegistrationCount, v =>
    ({ v with shared := { v.shared with hpRegistrationCount := 1 }, countTaken := true }, [])
  | .storeOwner, v =>
    ({ v with shared := { v.shared with hpOwnerPid := self }, ownerTaken := true }, [])
  | .storeStat w n, v => ({ v with shared := v.shared.setStat w n }, [])
  | .addStat w, v => ({ v with shared := v.shared.setStat w (v.shared.stat w + 1) }, [])
  | .updateEwmaLoad w sampleNs, v =>
    (v, [.storeStat w (updateEwmaNs (v.shared.stat w) sampleNs)])
  | .markActiveLoad now, v =>
    (v, countIdleOps v.shared.hpLastIdleNs now ++
      [.storeStat .lastActiveNs now, .addStat .generation, .storeState .active])
  | .markIdleLoad now, v =>
    (v, countActiveOps v.shared.hpLastActiveNs now ++
      [.storeStat .lastIdleNs now, .storeState .idle])
  | .storeState st, v =>
    ({ v with shared := { v.shared with hpState := st }, latest := some st }, [])

/-! ## The accesses of a BE process -/

/-- One access of a BE process, or its `kill(pid, 0)`. -/
inductive BeOp where
  /-- `lilt_event_hp_owner` reads the owner. -/
  | ownerLoad
  | ownerKill (owner : Pid)
  | ownerCas (owner : Pid)
  | ownerClearCount
  | ownerClearState
  /-- `lilt_event_be_wait_until_idle` reads the state. -/
  | waitLoadState
  | waitLoadOwner
  | waitKill (owner : Pid)
  | waitCas
  | waitClearOwner

/-- One access of a BE process and the accesses it calls for. -/
def beExec (alive : Pid → Bool) : Exec EventShared BeOp
  | .ownerLoad, m => (m, if m.hpOwnerPid ≠ 0 then [.ownerKill m.hpOwnerPid] else [])
  | .ownerKill owner, m => (m, if ownerIsAlive alive owner then [] else [.ownerCas owner])
  | .ownerCas owner, m =>
    if m.hpOwnerPid = owner then
      ({ m with hpOwnerPid := 0 }, [.ownerClearCount, .ownerClearState])
    else (m, [])
  | .ownerClearCount, m => ({ m with hpRegistrationCount := 0 }, [])
  | .ownerClearState, m => ({ m with hpState := .idle }, [])
  | .waitLoadState, m => (m, if m.hpState = .active then [.waitLoadOwner] else [])
  | .waitLoadOwner, m => (m, [.waitKill m.hpOwnerPid])
  | .waitKill owner, m =>
    -- an owner that is alive is waited for: the loop reads the state again
    (m, if ownerIsAlive alive owner then [.waitLoadState] else [.waitCas])
  | .waitCas, m =>
    if m.hpState = .active then ({ m with hpState := .idle }, [.waitClearOwner])
    else (m, [])
  | .waitClearOwner, m => ({ m with hpOwnerPid := 0 }, [])

/-! ## A call that nothing interrupts -/

section solo

variable {self : Pid}

/-- A call that only stores makes its stores one after the other. -/
theorem solo_stores {p : List HpOp} (h : ∀ o ∈ p, ∀ v, (hpExec self o v).2 = [])
    {v v' : HpView} (hv : p.foldl (fun v o => (hpExec self o v).1) v = v') :
    Solo (hpExec self) p v v' := hv ▸ solo_straight h v

/-- The loop that clears the idle histogram. -/
theorem foldl_clearBuckets (l : List Nat) (v : HpView) :
    (l.map fun i => HpOp.storeStat (.idleSurvivalCount i) 0).foldl
        (fun v o => (hpExec self o v).1) v =
      { v with shared := { v.shared with
          hpIdleSurvivalCounts := fun i =>
            if i ∈ l then 0 else v.shared.hpIdleSurvivalCounts i } } := by
  induction l generalizing v with
  | nil => simp
  | cons j l ih =>
    rw [List.map_cons, List.foldl_cons, ih]
    simp only [hpExec, EventShared.setStat, HpView.mk.injEq, EventShared.mk.injEq, true_and,
      and_true]
    funext i
    by_cases hi : i = j <;> by_cases hl : i ∈ l <;> simp [hi, hl]

/-- The loop that counts an idle period in every bucket it survives. -/
theorem foldl_countBuckets {l : List Nat} (hl : l.Nodup) (v : HpView) :
    (l.map fun i => HpOp.addStat (.idleSurvivalCount i)).foldl
        (fun v o => (hpExec self o v).1) v =
      { v with shared := { v.shared with
          hpIdleSurvivalCounts := fun i =>
            if i ∈ l then v.shared.hpIdleSurvivalCounts i + 1
            else v.shared.hpIdleSurvivalCounts i } } := by
  induction l generalizing v with
  | nil => simp
  | cons j l ih =>
    obtain ⟨hj, hl⟩ := List.nodup_cons.mp hl
    rw [List.map_cons, List.foldl_cons, ih hl]
    simp only [hpExec, EventShared.setStat, EventShared.stat, HpView.mk.injEq,
      EventShared.mk.injEq, true_and, and_true]
    funext i
    by_cases hi : i = j
    · subst hi
      simp [hj]
    · simp [hi]

/-- A period is counted in the buckets whose threshold it outlasts. -/
theorem mem_survivedBuckets {i : Nat} {d : UInt64} :
    i ∈ survivedBuckets d ↔ ∃ threshold, gIdleSurvivalThresholdsNs[i]? = some threshold ∧
      threshold < d := by
  unfold survivedBuckets
  rw [List.mem_filter, List.mem_range]
  constructor
  · rintro ⟨-, h⟩
    split at h
    · exact ⟨_, by assumption, of_decide_eq_true h⟩
    · cases h
  · rintro ⟨threshold, hi, hd⟩
    refine ⟨(List.getElem?_eq_some_iff.mp hi).1, ?_⟩
    rw [hi]
    exact decide_eq_true hd

/-- Uninterrupted, `lilt_event_hp_register` is `liltEventHpRegister`. -/
theorem solo_register (self : Pid) (v : HpView) (now : UInt64) :
    ∃ latest, Solo (hpExec self) [.registerLoadOwner now] v
      { shared := liltEventHpRegister v.shared self now
        ownerTaken := true
        countTaken := true
        latest := latest } := by
  by_cases hown : v.shared.hpOwnerPid = self
  · refine ⟨v.latest, .cons ?_⟩
    simp only [hpExec, if_pos hown, List.append_nil]
    refine solo_stores (by simp [hpExec]) ?_
    simp [hpExec, liltEventHpRegister, hown]
  · refine ⟨some .idle, .cons ?_⟩
    simp only [hpExec, if_neg hown, List.append_nil]
    refine solo_stores ?_ ?_
    · -- from here on there are stores only
      intro o ho
      simp only [registerStores, List.mem_append, List.mem_map, List.mem_cons] at ho
      rcases ho with (ho | ⟨i, -, rfl⟩) | ho
      · rcases ho with rfl | rfl | rfl | rfl | rfl | rfl | rfl | rfl | rfl | ho <;>
          first | exact fun _ => rfl | cases ho
      · exact fun _ => rfl
      · rcases ho with rfl | ho
        · exact fun _ => rfl
        · cases ho
    · rw [registerStores, List.foldl_append, List.foldl_append, foldl_clearBuckets]
      simp [hpExec, liltEventHpRegister, hown, EventShared.setStat, EventShared.stat]

/-- An average that nobody else writes is what `update_ewma_ns` computes. -/
theorem solo_updateEwma (v : HpView) (w : StatWord) (sampleNs : UInt64) :
    Solo (hpExec self) [.updateEwmaLoad w sampleNs] v
      { v with
        shared := v.shared.setStat w (updateEwmaNs (v.shared.stat w) sampleNs) } :=
  .cons (.cons (.nil _))

/-- Uninterrupted, counting an idle period is `countIdlePeriod`. -/
theorem solo_countIdle (v : HpView) (now : UInt64) :
    Solo (hpExec self) (countIdleOps v.shared.hpLastIdleNs now) v
      { v with shared := countIdlePeriod v.shared now } := by
  unfold countIdleOps countIdlePeriod
  by_cases h : v.shared.hpLastIdleNs ≠ 0 ∧ v.shared.hpLastIdleNs < now
  · rw [if_pos h, if_pos h]
    refine (solo_updateEwma v _ _).append (solo_stores ?_ ?_)
    · intro o ho
      simp only [List.mem_append, List.mem_map, List.mem_singleton] at ho
      rcases ho with ⟨i, -, rfl⟩ | rfl <;> exact fun _ => rfl
    · have hnodup : (survivedBuckets (now - v.shared.hpLastIdleNs)).Nodup :=
        List.nodup_range.filter _
      rw [List.foldl_append, foldl_countBuckets hnodup]
      simp only [hpExec, List.foldl_cons, List.foldl_nil, EventShared.setStat,
        EventShared.stat, HpView.mk.injEq, EventShared.mk.injEq, true_and, and_true]
      constructor
      · simp
      · -- the buckets counted are those below the duration
        funext i
        by_cases hi : i ∈ survivedBuckets (now - v.shared.hpLastIdleNs)
        · obtain ⟨threshold, hth, hlt⟩ := mem_survivedBuckets.mp hi
          rw [if_pos hi, hth]
          exact (if_pos hlt).symm
        · rw [if_neg hi]
          cases hth : gIdleSurvivalThresholdsNs[i]? with
          | none => rfl
          | some threshold =>
            exact (if_neg fun hlt => hi (mem_survivedBuckets.mpr ⟨_, hth, hlt⟩)).symm
  · rw [if_neg h, if_neg h]
    exact .nil v

/-- Uninterrupted, `lilt_event_hp_mark_active` is `liltEventHpMarkActive`. -/
theorem solo_markActive (self : Pid) (v : HpView) (now : UInt64) :
    Solo (hpExec self) [.markActiveLoad now] v
      { v with shared := liltEventHpMarkActive v.shared now, latest := some .active } := by
  refine .cons ?_
  simp only [hpExec, List.append_nil]
  refine (solo_countIdle v now).append (solo_stores ?_ ?_)
  · simp [hpExec]
  · simp [hpExec, liltEventHpMarkActive, EventShared.setStat, EventShared.stat]

/-- Uninterrupted, `lilt_event_hp_mark_idle` is `liltEventHpMarkIdle`. -/
theorem solo_markIdle (self : Pid) (v : HpView) (now : UInt64) :
    Solo (hpExec self) [.markIdleLoad now] v
      { v with shared := liltEventHpMarkIdle v.shared now, latest := some .idle } := by
  refine .cons ?_
  simp only [hpExec, List.append_nil]
  have hcount : Solo (hpExec self) (countActiveOps v.shared.hpLastActiveNs now) v
      { v with shared := countActivePeriod v.shared now } := by
    unfold countActiveOps countActivePeriod
    by_cases h : v.shared.hpLastActiveNs ≠ 0 ∧ v.shared.hpLastActiveNs < now
    · rw [if_pos h, if_pos h]
      refine (solo_updateEwma v _ _).append (solo_stores ?_ ?_)
      · simp [hpExec]
      · simp [hpExec, EventShared.setStat, EventShared.stat]
    · rw [if_neg h, if_neg h]
      exact .nil v
  refine hcount.append (solo_stores ?_ ?_)
  · simp [hpExec]
  · simp [hpExec, liltEventHpMarkIdle, EventShared.setStat]

/-- Uninterrupted, `lilt_event_hp_owner` is `liltEventHpOwner`. -/
theorem solo_hpOwner (alive : Pid → Bool) (m : EventShared) :
    Solo (beExec alive) [.ownerLoad] m (liltEventHpOwner m alive).2 := by
  refine .cons ?_
  unfold liltEventHpOwner
  by_cases h0 : m.hpOwnerPid = 0
  · simp only [beExec, h0, ne_eq, not_true_eq_false, if_false, false_and]
    exact .nil m
  · simp only [beExec, ne_eq, h0, not_false_eq_true, if_true, true_and]
    refine .cons ?_
    by_cases ha : ownerIsAlive alive m.hpOwnerPid = true
    · simp only [beExec, ha, if_true, not_true_eq_false, if_false]
      exact .nil m
    · simp only [beExec, ha, if_false, Bool.false_eq_true, not_false_eq_true, if_true]
      refine .cons ?_
      simp only [beExec, if_true]
      exact .cons (.cons (.nil _))

/-- What an uninterrupted `lilt_event_be_wait_until_idle` that returns did: it
found IDLE, or it ended the ACTIVE state of an owner that is not alive. -/
def Waited (alive : Pid → Bool) (m m' : EventShared) : Prop :=
  m.hpState = .idle ∧ m' = m ∨
    ¬ ownerIsAlive alive m.hpOwnerPid ∧ m' = { m with hpState := .idle, hpOwnerPid := 0 }

/-- While the owner lives, the loop returns to its head and does not end. -/
theorem solo_waitUntilIdle {alive : Pid → Bool} {m m' : EventShared}
    (h : Solo (beExec alive) [.waitLoadState] m m') : Waited alive m m' := by
  -- the induction passes all three points of the loop
  have hloop : ∀ {p : List BeOp} {m m' : EventShared}, Solo (beExec alive) p m m' →
      p = [.waitLoadState] ∨
        m.hpState = .active ∧ (p = [.waitLoadOwner] ∨ p = [.waitKill m.hpOwnerPid]) →
      Waited alive m m' := by
    intro p m m' h
    induction h with
    | nil m => rintro (h | ⟨-, h | h⟩) <;> cases h
    | @cons o rest m m' hrest ih =>
      rintro (h | ⟨hact, h | h⟩)
      · obtain ⟨rfl, rfl⟩ := List.cons.inj h
        by_cases hact : m.hpState = .active
        · exact ih (.inr ⟨hact, .inl (by simp [beExec, hact])⟩)
        · simp only [beExec, if_neg hact, List.append_nil] at hrest
          cases hrest
          exact .inl ⟨by cases hm : m.hpState <;> simp_all, rfl⟩
      · obtain ⟨rfl, rfl⟩ := List.cons.inj h
        exact ih (.inr ⟨hact, .inr rfl⟩)
      · obtain ⟨rfl, rfl⟩ := List.cons.inj h
        by_cases ha : ownerIsAlive alive m.hpOwnerPid = true
        · -- back to the head of the loop
          exact ih (.inl (by simp [beExec, ha]))
        · simp only [beExec, if_neg ha, List.append_nil] at hrest
          cases hrest with | cons hrest =>
          simp only [beExec, if_pos hact, List.append_nil] at hrest
          cases hrest with | cons hrest =>
          cases hrest
          exact .inr ⟨ha, rfl⟩
  exact hloop h (.inl rfl)

end solo

/-! ## All interleavings -/

/-- How far the new HP process is. -/
inductive HpLife where
  | unborn
  | registering
  | registered
  deriving DecidableEq

/-- The segment and the accesses that each process has still to make in the call
it is in. -/
structure Recovery where
  view : HpView
  life : HpLife
  hp : List HpOp
  be : Nat → List BeOp

/-- Entering a call, or making its next access. -/
inductive RecoveryAction where
  | hpRegister (now : UInt64)
  | hpMarkActive (now : UInt64)
  | hpMarkIdle (now : UInt64)
  | hpAccess
  | beOwner (b : Nat)
  | beWait (b : Nat)
  | beAccess (b : Nat)

namespace Recovery

/-- The answer of `kill(p, 0)`: the only HP process alive is the new one. -/
def alive (self : Pid) (s : Recovery) (p : Pid) : Bool := p = self && s.life ≠ .unborn

def afterHpAccess (self : Pid) (s : Recovery) (o : HpOp) (rest : List HpOp) : Recovery :=
  { s with
    view := (hpExec self o s.view).1
    hp := (hpExec self o s.view).2 ++ rest
    life := if ((hpExec self o s.view).2 ++ rest).isEmpty then .registered else s.life }

def afterBeAccess (self : Pid) (s : Recovery) (b : Nat) (o : BeOp) (rest : List BeOp) :
    Recovery :=
  { s with
    view := { s.view with shared := (beExec (s.alive self) o s.view.shared).1 }
    be := Function.update s.be b ((beExec (s.alive self) o s.view.shared).2 ++ rest) }

end Recovery

/-- The new HP process, of pid `self`, registers once and then publishes ACTIVE
and IDLE in turn; the BE processes make any calls. -/
inductive RecoveryStep (self : Pid) : Recovery → RecoveryAction → Recovery → Prop where
  | hpRegister (s : Recovery) (now : UInt64) (h : s.life = .unborn) :
      RecoveryStep self s (.hpRegister now)
        { s with life := .registering, hp := [.registerLoadOwner now] }
  | hpMarkActive (s : Recovery) (now : UInt64) (h : s.life = .registered) (hp : s.hp = [])
      (hl : s.view.latest ≠ some .active) :
      RecoveryStep self s (.hpMarkActive now) { s with hp := [.markActiveLoad now] }
  | hpMarkIdle (s : Recovery) (now : UInt64) (h : s.life = .registered) (hp : s.hp = [])
      (hl : s.view.latest = some .active) :
      RecoveryStep self s (.hpMarkIdle now) { s with hp := [.markIdleLoad now] }
  | hpAccess (s : Recovery) (o : HpOp) (rest : List HpOp) (hp : s.hp = o :: rest) :
      RecoveryStep self s .hpAccess (s.afterHpAccess self o rest)
  | beOwner (s : Recovery) (b : Nat) (hb : s.be b = []) :
      RecoveryStep self s (.beOwner b) { s with be := Function.update s.be b [.ownerLoad] }
  | beWait (s : Recovery) (b : Nat) (hb : s.be b = []) :
      RecoveryStep self s (.beWait b)
        { s with be := Function.update s.be b [.waitLoadState] }
  | beAccess (s : Recovery) (b : Nat) (o : BeOp) (rest : List BeOp) (hb : s.be b = o :: rest) :
      RecoveryStep self s (.beAccess b) (s.afterBeAccess self b o rest)

/-- The words are whatever the dead process left; the new one has not started. -/
structure RecoveryInit (s : Recovery) : Prop where
  life : s.life = .unborn
  hp : s.hp = []
  be : ∀ b, s.be b = []
  ownerTaken : s.view.ownerTaken = false
  countTaken : s.view.countTaken = false
  latest : s.view.latest = none

def recoverySystem (self : Pid) : System Recovery RecoveryAction where
  Init := RecoveryInit
  Step := RecoveryStep self

/-- Once registered, the new HP process is the owner with a positive count, and
its ACTIVE stands. -/
def NewHpIntact (self : Pid) (s : Recovery) : Prop :=
  s.life = .registered →
    s.view.shared.hpOwnerPid = self ∧ 1 ≤ s.view.shared.hpRegistrationCount ∧
    (s.view.latest = some .active → s.view.shared.hpState = .active)

/-- An access of a BE process that clears a word finds that the new HP process
has not yet made the word its own, or has not published ACTIVE. -/
def HarmlessAccess (v : HpView) : BeOp → Prop
  | .ownerCas owner => v.shared.hpOwnerPid = owner → v.ownerTaken = false
  | .ownerClearCount => v.countTaken = false
  | .ownerClearState => v.latest ≠ some .active
  | .waitCas => v.shared.hpState = .active → v.latest ≠ some .active
  | .waitClearOwner => v.ownerTaken = false
  | _ => True

def Harmless (s : Recovery) : RecoveryAction → Prop
  | .beAccess b => ∀ o rest, s.be b = o :: rest → HarmlessAccess s.view o
  | _ => True

/-! ## What the new HP process wrote stays, access by access -/

/-- The words the new HP process has made its own still say so. -/
structure Undamaged (pid : Pid) (v : HpView) : Prop where
  owner : v.ownerTaken = true → v.shared.hpOwnerPid = pid
  count : v.countTaken = true → 1 ≤ v.shared.hpRegistrationCount
  state : v.latest = some .active → v.shared.hpState = .active

section accesses

variable {self : Pid} {v : HpView}

/-- The HP process does not damage what it wrote itself. -/
theorem undamaged_hpExec (h : Undamaged self v) (o : HpOp) :
    Undamaged self (hpExec self o v).1 := by
  obtain ⟨ho, hc, hs⟩ := h
  cases o with
  | registerLoadOwner now =>
    by_cases hown : v.shared.hpOwnerPid = self
    · simp only [hpExec, if_pos hown]
      exact ⟨fun _ => hown, hc, hs⟩
    · simp only [hpExec, if_neg hown]
      exact ⟨ho, hc, hs⟩
  | addRegistrationCount => exact ⟨ho, fun _ => Nat.succ_pos _, hs⟩
  | storeRegistrationCount => exact ⟨ho, fun _ => Nat.le_refl 1, hs⟩
  | storeOwner => exact ⟨fun _ => rfl, hc, hs⟩
  | storeStat w n =>
    exact ⟨fun h => by simpa [hpExec] using ho h, fun h => by simpa [hpExec] using hc h,
      fun h => by simpa [hpExec] using hs h⟩
  | addStat w =>
    exact ⟨fun h => by simpa [hpExec] using ho h, fun h => by simpa [hpExec] using hc h,
      fun h => by simpa [hpExec] using hs h⟩
  | updateEwmaLoad w sampleNs => exact ⟨ho, hc, hs⟩
  | markActiveLoad now => exact ⟨ho, hc, hs⟩
  | markIdleLoad now => exact ⟨ho, hc, hs⟩
  | storeState st => exact ⟨ho, hc, fun h => Option.some.inj h⟩

/-- A BE access keeps what the HP process wrote exactly when it is harmless. -/
theorem undamaged_beExec_iff (hself : 0 < self) (h : Undamaged self v)
    (alive : Pid → Bool) (o : BeOp) :
    Undamaged self { v with shared := (beExec alive o v.shared).1 } ↔ HarmlessAccess v o := by
  have hne : (0 : Pid) ≠ self := Nat.ne_of_lt hself
  obtain ⟨ho, hc, hs⟩ := h
  cases o with
  | ownerLoad => exact iff_of_true ⟨ho, hc, hs⟩ trivial
  | ownerKill owner => exact iff_of_true ⟨ho, hc, hs⟩ trivial
  | ownerCas owner =>
    by_cases hown : v.shared.hpOwnerPid = owner
    · simp only [beExec, if_pos hown, HarmlessAccess]
      constructor
      · intro hu _
        exact Bool.eq_false_iff.mpr fun ht => hne (hu.owner ht)
      · intro hh
        exact ⟨fun ht => absurd ht (by simp [hh hown]), hc, hs⟩
    · simp only [beExec, if_neg hown]
      exact iff_of_true ⟨ho, hc, hs⟩ fun h => absurd h hown
  | ownerClearCount =>
    constructor
    · intro hu
      exact Bool.eq_false_iff.mpr fun ht => absurd (hu.count ht) (Nat.not_succ_le_zero 0)
    · intro (hh : v.countTaken = false)
      exact ⟨ho, fun ht => absurd ht (by simp [hh]), hs⟩
  | ownerClearState =>
    constructor
    · intro hu ht
      cases hu.state ht
    · intro hh
      exact ⟨ho, hc, fun ht => absurd ht hh⟩
  | waitLoadState => exact iff_of_true ⟨ho, hc, hs⟩ trivial
  | waitLoadOwner => exact iff_of_true ⟨ho, hc, hs⟩ trivial
  | waitKill owner => exact iff_of_true ⟨ho, hc, hs⟩ trivial
  | waitCas =>
    by_cases hact : v.shared.hpState = .active
    · simp only [beExec, if_pos hact, HarmlessAccess]
      constructor
      · intro hu _ ht
        cases hu.state ht
      · intro hh
        exact ⟨ho, hc, fun ht => absurd ht (hh hact)⟩
    · simp only [beExec, if_neg hact]
      exact iff_of_true ⟨ho, hc, hs⟩ fun h => absurd h hact
  | waitClearOwner =>
    constructor
    · intro hu
      exact Bool.eq_false_iff.mpr fun ht => hne (hu.owner ht)
    · intro (hh : v.ownerTaken = false)
      exact ⟨fun ht => absurd ht (by simp [hh]), hc, hs⟩

end accesses

/-! ## How far the registration is -/

/-- The accesses that make, or lead to the one that makes, the owner the new HP
process. -/
def takesOwner : HpOp → Bool
  | .registerLoadOwner _ => true
  | .storeOwner => true
  | _ => false

/-- The accesses that make, or lead to the one that makes, the count its own. -/
def takesCount : HpOp → Bool
  | .registerLoadOwner _ => true
  | .addRegistrationCount => true
  | .storeRegistrationCount => true
  | _ => false

/-- The accesses that store ACTIVE or lead to one that does. -/
def publishesActive : HpOp → Bool
  | .markActiveLoad _ => true
  | .storeState .active => true
  | _ => false

section registration

variable (self : Pid) (v : HpView)

/-- The statistics of an idle period are none of the accesses that `p` counts. -/
theorem countP_countIdleOps (p : HpOp → Bool) (hp : ∀ w n, p (.updateEwmaLoad w n) = false)
    (ha : ∀ w, p (.addStat w) = false) (lastIdle now : UInt64) :
    (countIdleOps lastIdle now).countP p = 0 := by
  unfold countIdleOps
  split
  · simp [List.countP_append, List.countP_eq_zero, hp, ha]
  · rfl

/-- Nor are those of an active period. -/
theorem countP_countActiveOps (p : HpOp → Bool) (hp : ∀ w n, p (.updateEwmaLoad w n) = false)
    (ha : ∀ w, p (.addStat w) = false) (lastActive now : UInt64) :
    (countActiveOps lastActive now).countP p = 0 := by
  unfold countActiveOps
  split
  · simp [hp, ha]
  · rfl

/-- An access takes the owner, or passes the task on to exactly one other. -/
theorem hpExec_takesOwner (o : HpOp) (h : takesOwner o = true → v.ownerTaken = false) :
    (hpExec self o v).2.countP takesOwner + (hpExec self o v).1.ownerTaken.toNat =
      (takesOwner o).toNat + v.ownerTaken.toNat := by
  cases o with
  | registerLoadOwner now =>
    by_cases hown : v.shared.hpOwnerPid = self
    · simp [hpExec, hown, takesOwner, h rfl]
    · simp only [hpExec, if_neg hown, h rfl]
      rfl
  | storeOwner => simp [hpExec, takesOwner, h rfl]
  | markActiveLoad now =>
    have hcount := countP_countIdleOps takesOwner (fun _ _ => rfl) (fun _ => rfl)
      v.shared.hpLastIdleNs now
    simp only [hpExec, List.countP_append, hcount]
    rfl
  | markIdleLoad now =>
    have hcount := countP_countActiveOps takesOwner (fun _ _ => rfl) (fun _ => rfl)
      v.shared.hpLastActiveNs now
    simp only [hpExec, List.countP_append, hcount]
    rfl
  | _ => simp [hpExec, takesOwner]

/-- An access takes the count, or passes the task on to exactly one other. -/
theorem hpExec_takesCount (o : HpOp) (h : takesCount o = true → v.countTaken = false) :
    (hpExec self o v).2.countP takesCount + (hpExec self o v).1.countTaken.toNat =
      (takesCount o).toNat + v.countTaken.toNat := by
  cases o with
  | registerLoadOwner now =>
    by_cases hown : v.shared.hpOwnerPid = self
    · simp [hpExec, hown, takesCount, h rfl]
    · simp only [hpExec, if_neg hown, h rfl]
      rfl
  | addRegistrationCount => simp [hpExec, takesCount, h rfl]
  | storeRegistrationCount => simp [hpExec, takesCount, h rfl]
  | markActiveLoad now =>
    have hcount := countP_countIdleOps takesCount (fun _ _ => rfl) (fun _ => rfl)
      v.shared.hpLastIdleNs now
    simp only [hpExec, List.countP_append, hcount]
    rfl
  | markIdleLoad now =>
    have hcount := countP_countActiveOps takesCount (fun _ _ => rfl) (fun _ => rfl)
      v.shared.hpLastActiveNs now
    simp only [hpExec, List.countP_append, hcount]
    rfl
  | _ => simp [hpExec, takesCount]

/-- Only `lilt_event_hp_mark_active` leads to ACTIVE. -/
theorem hpExec_publishesActive (o : HpOp) (h : publishesActive o = false) :
    (hpExec self o v).2.countP publishesActive = 0 ∧
      ((hpExec self o v).1.latest = some .active → v.latest = some .active) := by
  cases o with
  | registerLoadOwner now =>
    by_cases hown : v.shared.hpOwnerPid = self
    · simp [hpExec, hown, publishesActive]
    · simp only [hpExec, if_neg hown]
      exact ⟨rfl, id⟩
  | markActiveLoad now => cases h
  | markIdleLoad now =>
    have hcount := countP_countActiveOps publishesActive (fun _ _ => rfl) (fun _ => rfl)
      v.shared.hpLastActiveNs now
    simp only [hpExec, List.countP_append, hcount]
    exact ⟨rfl, id⟩
  | storeState st => cases st with
    | idle => exact ⟨rfl, fun h => by cases h⟩
    | active => cases h
  | _ => simp [hpExec, publishesActive]

/-- What is taken stays taken. -/
theorem hpExec_taken (o : HpOp) :
    (v.ownerTaken = true → (hpExec self o v).1.ownerTaken = true) ∧
      (v.countTaken = true → (hpExec self o v).1.countTaken = true) := by
  cases o with
  | registerLoadOwner now =>
    simp only [hpExec]
    split
    · exact ⟨fun _ => rfl, id⟩
    · exact ⟨id, id⟩
  | addRegistrationCount => exact ⟨id, fun _ => rfl⟩
  | storeRegistrationCount => exact ⟨id, fun _ => rfl⟩
  | storeOwner => exact ⟨fun _ => rfl, id⟩
  | _ => exact ⟨id, id⟩

end registration

/-- How far the registration is: until it takes the owner, and until it takes the
count, exactly one remaining access leads to that. -/
structure Registration (s : Recovery) : Prop where
  unborn : s.life = .unborn → s.hp = [] ∧ s.view.ownerTaken = false ∧ s.view.countTaken = false
  owner : s.life ≠ .unborn → s.hp.countP takesOwner + s.view.ownerTaken.toNat = 1
  count : s.life ≠ .unborn → s.hp.countP takesCount + s.view.countTaken.toNat = 1
  notActive : s.life ≠ .registered →
    s.view.latest ≠ some .active ∧ s.hp.countP publishesActive = 0
  registered : s.life = .registered → s.view.ownerTaken = true ∧ s.view.countTaken = true

theorem countP_cons_toNat {α : Type} (p : α → Bool) (a : α) (l : List α) :
    (a :: l).countP p = l.countP p + (p a).toNat := by
  rw [List.countP_cons]
  cases p a <;> rfl

/-- Of a task that is done once, the remaining accesses `o :: rest` lead to it or
it is done: after `o` this is so of what `o` calls for and `rest`. -/
theorem done_once {p : HpOp → Bool} {o : HpOp} {rest next : List HpOp} {before after : Bool}
    (h : (o :: rest).countP p + before.toNat = 1)
    (hnext : (p o = true → before = false) →
      next.countP p + after.toNat = (p o).toNat + before.toNat) :
    (next ++ rest).countP p + after.toNat = 1 := by
  rw [countP_cons_toNat] at h
  have hp : p o = true → before = false := by
    intro hpo
    rw [hpo] at h
    cases before
    · rfl
    · simp at h
  have := hnext hp
  rw [List.countP_append]
  omega

/-- With each access of the HP process the registration is further or over. -/
theorem registration_hpAccess {self : Pid} {s : Recovery} {o : HpOp} {rest : List HpOp}
    (h : Registration s) (hp : s.hp = o :: rest) :
    Registration (s.afterHpAccess self o rest) := by
  have hlife : s.life ≠ .unborn := fun hu => by simp [(h.unborn hu).1] at hp
  have howner := done_once (hp ▸ h.owner hlife) (hpExec_takesOwner self s.view o)
  have hcount := done_once (hp ▸ h.count hlife) (hpExec_takesCount self s.view o)
  have htaken : (s.afterHpAccess self o rest).life = .registered →
      (hpExec self o s.view).1.ownerTaken = true ∧ (hpExec self o s.view).1.countTaken = true := by
    intro hreg
    simp only [Recovery.afterHpAccess] at hreg
    split at hreg
    next hempty =>
      -- the call is over, and nothing is left that could still take them
      rw [List.isEmpty_iff.mp hempty] at howner hcount
      simp only [List.countP_nil, Nat.zero_add] at howner hcount
      exact ⟨Bool.toNat_eq_one.mp howner, Bool.toNat_eq_one.mp hcount⟩
    next =>
      obtain ⟨ho, hc⟩ := h.registered hreg
      obtain ⟨hto, htc⟩ := hpExec_taken self s.view o
      exact ⟨hto ho, htc hc⟩
  refine { unborn := ?_, owner := fun _ => howner, count := fun _ => hcount, notActive := ?_
           registered := htaken }
  · intro hu
    simp only [Recovery.afterHpAccess] at hu
    split at hu
    · cases hu
    · exact absurd hu hlife
  · intro hreg
    have hne : s.life ≠ .registered := by
      intro hr
      simp [Recovery.afterHpAccess, hr] at hreg
    obtain ⟨hl, hno⟩ := h.notActive hne
    rw [hp, countP_cons_toNat] at hno
    have ho : publishesActive o = false := by
      cases hpo : publishesActive o
      · rfl
      · simp [hpo] at hno
    obtain ⟨hnext, hlat⟩ := hpExec_publishesActive self s.view o ho
    refine ⟨fun ht => hl (hlat ht), ?_⟩
    show ((hpExec self o s.view).2 ++ rest).countP publishesActive = 0
    rw [List.countP_append]
    omega

/-- A registered process enters a call that does not register. -/
theorem Registration.publish {s : Recovery} (h : Registration s) (hl : s.life = .registered)
    {o : HpOp} (ho : takesOwner o = false) (hc : takesCount o = false) :
    Registration { s with hp := [o] } := by
  obtain ⟨hto, htc⟩ := h.registered hl
  exact { unborn := fun hu => by simp [hl] at hu
          owner := fun _ => by simp [ho, hto]
          count := fun _ => by simp [hc, htc]
          notActive := fun hn => absurd hl hn
          registered := fun _ => ⟨hto, htc⟩ }

/-- In every run the registration is where the accesses left say it is. -/
theorem recovery_reachable_registration {self : Pid} {s : Recovery}
    (h : (recoverySystem self).Reachable s) : Registration s := by
  have hind : (recoverySystem self).Inductive Registration :=
    { init := fun t (ht : RecoveryInit t) =>
        { unborn := fun _ => ⟨ht.hp, ht.ownerTaken, ht.countTaken⟩
          owner := fun hl => absurd ht.life hl
          count := fun hl => absurd ht.life hl
          notActive := fun _ => by simp [ht.latest, ht.hp]
          registered := fun hl => by simp [ht.life] at hl }
      step := fun t a u _ hi hstep => by
        cases hstep with
        | hpRegister now hl =>
          obtain ⟨-, ho, hc⟩ := hi.unborn hl
          obtain ⟨hlat, -⟩ := hi.notActive (by simp [hl])
          exact { unborn := nofun
                  owner := fun _ => by simp [takesOwner, ho]
                  count := fun _ => by simp [takesCount, hc]
                  notActive := fun _ => ⟨hlat, rfl⟩
                  registered := nofun }
        | hpMarkActive now hl hp hlat => exact hi.publish hl rfl rfl
        | hpMarkIdle now hl hp hlat => exact hi.publish hl rfl rfl
        | hpAccess o rest hp => exact registration_hpAccess hi hp
        | beOwner b hb => exact { hi with }
        | beWait b hb => exact { hi with }
        | beAccess b o rest hb => exact { hi with } }
  exact hind.reachable h

/-! ## When recovery does not damage the new HP process -/

section runs

variable {self : Pid} {s t : Recovery} {a : RecoveryAction}

/-- Nothing has been written that could be damaged. -/
theorem undamaged_init (h : RecoveryInit s) : Undamaged self s.view :=
  { owner := fun ht => by simp [h.ownerTaken] at ht
    count := fun ht => by simp [h.countTaken] at ht
    state := fun ht => by simp [h.latest] at ht }

/-- What was written is damaged by the accesses that are not harmless, and by no others. -/
theorem undamaged_step_iff (hself : 0 < self) (h : Undamaged self s.view)
    (hstep : RecoveryStep self s a t) : Undamaged self t.view ↔ Harmless s a := by
  cases hstep with
  | hpRegister now hl => exact iff_of_true h trivial
  | hpMarkActive now hl hp hlat => exact iff_of_true h trivial
  | hpMarkIdle now hl hp hlat => exact iff_of_true h trivial
  | hpAccess o rest hp => exact iff_of_true (undamaged_hpExec h o) trivial
  | beOwner b hb => exact iff_of_true h trivial
  | beWait b hb => exact iff_of_true h trivial
  | beAccess b o rest hb =>
    refine (undamaged_beExec_iff hself h (s.alive self) o).trans ?_
    constructor
    · intro hh o' rest' hb'
      rw [hb] at hb'
      obtain ⟨rfl, -⟩ := List.cons.inj hb'
      exact hh
    · intro hh
      exact hh o rest hb

/-- The owner changes only with the store that takes it. -/
theorem hpExec_hpOwnerPid (self : Pid) {o : HpOp} (v : HpView) (h : takesOwner o = false) :
    (hpExec self o v).1.shared.hpOwnerPid = v.shared.hpOwnerPid := by
  cases o with
  | registerLoadOwner now => cases h
  | storeOwner => cases h
  | _ => simp [hpExec]

/-- The count changes only with the store that takes it. -/
theorem hpExec_hpRegistrationCount (self : Pid) {o : HpOp} (v : HpView) (h : takesCount o = false) :
    (hpExec self o v).1.shared.hpRegistrationCount = v.shared.hpRegistrationCount := by
  cases o with
  | registerLoadOwner now => cases h
  | addRegistrationCount => cases h
  | storeRegistrationCount => cases h
  | _ => simp [hpExec]

/-- A BE access leaves the owner or clears it, and likewise the count. -/
theorem beExec_clears (alive : Pid → Bool) (o : BeOp) (m : EventShared) :
    ((beExec alive o m).1.hpOwnerPid = m.hpOwnerPid ∨ (beExec alive o m).1.hpOwnerPid = 0) ∧
      ((beExec alive o m).1.hpRegistrationCount = m.hpRegistrationCount ∨
        (beExec alive o m).1.hpRegistrationCount = 0) := by
  cases o with
  | ownerCas owner =>
    simp only [beExec]
    split
    · exact ⟨.inr rfl, .inl rfl⟩
    · exact ⟨.inl rfl, .inl rfl⟩
  | ownerClearCount => exact ⟨.inl rfl, .inr rfl⟩
  | waitCas =>
    simp only [beExec]
    split <;> exact ⟨.inl rfl, .inl rfl⟩
  | waitClearOwner => exact ⟨.inr rfl, .inl rfl⟩
  | _ => exact ⟨.inl rfl, .inl rfl⟩

/-- Owner and count, once taken, still say so. -/
def Stands (self : Pid) (v : HpView) : Prop :=
  (v.ownerTaken = true → v.shared.hpOwnerPid = self) ∧
    (v.countTaken = true → 1 ≤ v.shared.hpRegistrationCount)

/-- A cleared owner or count is not restored: a step that leaves them standing
found them so. -/
theorem stands_of_step (hself : 0 < self) (hreg : Registration s)
    (hstep : RecoveryStep self s a t) (h : Stands self t.view) : Stands self s.view := by
  cases hstep with
  | hpRegister now hl => exact h
  | hpMarkActive now hl hp hlat => exact h
  | hpMarkIdle now hl hp hlat => exact h
  | beOwner b hb => exact h
  | beWait b hb => exact h
  | hpAccess o rest hp =>
    have hlife : s.life ≠ .unborn := fun hu => by simp [(hreg.unborn hu).1] at hp
    obtain ⟨hto, htc⟩ := hpExec_taken self s.view o
    constructor
    · -- taken already, so this access is not the one that takes it
      intro ht
      have ho := hreg.owner hlife
      rw [hp, countP_cons_toNat, ht] at ho
      have hno : takesOwner o = false := by
        cases hpo : takesOwner o
        · rfl
        · simp [hpo] at ho
      rw [← hpExec_hpOwnerPid self s.view hno]
      exact h.1 (hto ht)
    · intro ht
      have hc := hreg.count hlife
      rw [hp, countP_cons_toNat, ht] at hc
      have hno : takesCount o = false := by
        cases hpo : takesCount o
        · rfl
        · simp [hpo] at hc
      rw [← hpExec_hpRegistrationCount self s.view hno]
      exact h.2 (htc ht)
  | beAccess b o rest hb =>
    obtain ⟨ho, hc⟩ := beExec_clears (s.alive self) o s.view.shared
    constructor
    · intro ht
      have hown := h.1 ht
      rcases ho with ho | ho
      · exact ho.symm.trans hown
      · -- cleared: the owner would be 0
        exact absurd (ho.symm.trans hown) (Nat.ne_of_lt hself)
    · intro ht
      have hcount : 1 ≤ (beExec (s.alive self) o s.view.shared).1.hpRegistrationCount :=
        h.2 ht
      rcases hc with hc | hc
      · exact hc ▸ hcount
      · omega

/-- The new HP process stays registered. -/
theorem registered_of_step (hstep : RecoveryStep self s a t) (h : s.life = .registered) :
    t.life = .registered := by
  cases hstep with
  | hpRegister now hl => simp [hl] at h
  | hpAccess o rest hp => simp [Recovery.afterHpAccess, h]
  | _ => exact h

/-- Once registered, the new HP process has written all of the words. -/
theorem newHpIntact_of_undamaged (hreg : Registration s) (h : Undamaged self s.view) :
    NewHpIntact self s := by
  intro hl
  obtain ⟨ho, hc⟩ := hreg.registered hl
  exact ⟨h.owner ho, h.count hc, h.state⟩

/-- What stands in the segment is what the new HP process wrote. -/
theorem undamaged_of_stands (hreg : Registration s) (hstands : Stands self s.view)
    (h : NewHpIntact self s) : Undamaged self s.view :=
  { owner := hstands.1
    count := hstands.2
    state := fun hact => by
      by_cases hl : s.life = .registered
      · exact (h hl).2.2 hact
      · exact absurd hact (hreg.notActive hl).1 }

end runs

/-- **When recovery does not damage a live HP process**: in every state of a run
the new HP process is, once registered, the owner with a positive count and its
ACTIVE stands, exactly when the run does not reach the end of the registration
or every access of its BE processes is harmless. -/
theorem recovery_harmless_iff {self : Pid} (hself : 0 < self)
    {tr : List (Recovery × RecoveryAction)} {s : Recovery}
    (h : (recoverySystem self).Run tr s) :
    System.Throughout (NewHpIntact self) tr s ↔
      (s.life = .registered → System.Meets Harmless tr) := by
  have hreg := h.throughout_of_reachable fun _ hu => recovery_reachable_registration hu
  have hund : System.Throughout (fun u => Undamaged self u.view) tr s ↔
      System.Meets Harmless tr := by
    refine h.throughout_iff (fun _ hi => undamaged_init hi) fun u a t hu hstep => ?_
    have hind : ((recoverySystem self).restrict Harmless).Inductive
        (fun u => Undamaged self u.view) :=
      { init := fun _ hi => undamaged_init hi
        step := fun _ _ _ _ hi hs => (undamaged_step_iff hself hi hs.2).mpr hs.1 }
    exact undamaged_step_iff hself (hind.reachable hu) hstep
  rw [← hund]
  constructor
  · -- owner and count stand at the end, so they stood all the time
    intro hint hl
    have hstands : System.Throughout (fun u => Stands self u.view) tr s := by
      refine h.throughout_of_last (fun _ _ _ hu hstep =>
        stands_of_step hself (recovery_reachable_registration hu) hstep) ?_
      obtain ⟨ho, hc, -⟩ := hint.2 hl
      exact ⟨fun _ => ho, fun _ => hc⟩
    exact (hreg.and (hstands.and hint)).mono fun _ ⟨hr, hs, hi⟩ => undamaged_of_stands hr hs hi
  · intro hall
    by_cases hl : s.life = .registered
    · exact (hreg.and (hall hl)).mono fun _ ⟨hr, hu⟩ => newHpIntact_of_undamaged hr hu
    · -- the registration did not finish, so there is nothing to damage
      have hnot : System.Throughout (fun u => u.life ≠ .registered) tr s :=
        h.throughout_of_last
          (fun _ _ _ _ hstep ht hu => ht (registered_of_step hstep hu)) hl
      exact hnot.mono fun _ hn hr => absurd hr hn

/-- A call of the HP process that nothing interrupts, as a part of a run. -/
theorem leadsTo_uninterrupted {self : Pid} {C : Recovery → RecoveryAction → Prop}
    (hC : ∀ u, C u .hpAccess) {p : List HpOp} {v v' : HpView} (hsolo : Solo (hpExec self) p v v')
    (hne : p ≠ []) {s : Recovery} (hp : s.hp = p) (hv : s.view = v) :
    ((recoverySystem self).restrict C).LeadsTo s
      { s with view := v', hp := [], life := .registered } := by
  induction hsolo generalizing s with
  | nil v => exact absurd rfl hne
  | @cons o rest v v' hsolo ih =>
    subst hv
    have hstep : RecoveryStep self s .hpAccess (s.afterHpAccess self o rest) :=
      .hpAccess s o rest hp
    have hrest : ((recoverySystem self).restrict C).LeadsTo (s.afterHpAccess self o rest)
        { s with view := v', hp := [], life := .registered } := by
      by_cases hnext : (hpExec self o s.view).2 ++ rest = []
      · rw [hnext] at hsolo
        cases hsolo
        have heq : s.afterHpAccess self o rest =
            { s with view := (hpExec self o s.view).1, hp := [], life := .registered } := by
          simp [Recovery.afterHpAccess, hnext]
        rw [heq]
        exact .refl _
      · exact ih hnext rfl rfl
    exact .step ⟨hC s, hstep⟩ hrest

/-- Process 10 died while it was ACTIVE. -/
def Recovery.ownerDied : Recovery where
  view :=
    { shared := liltEventHpMarkActive (liltEventHpRegister (eventSharedInitialize .zeroed) 10 5) 7
      ownerTaken := false
      countTaken := false
      latest := none }
  life := .unborn
  hp := []
  be _ := []

/-- The new HP process may find this segment. -/
theorem ownerDied_init : RecoveryInit .ownerDied := ⟨rfl, rfl, fun _ => rfl, rfl, rfl, rfl⟩

/-- Nothing is lost that the new HP process has not written yet. -/
theorem harmless_of_unwritten {s : Recovery} (howner : s.view.ownerTaken = false)
    (hcount : s.view.countTaken = false) (hlatest : s.view.latest = none) (a : RecoveryAction) :
    Harmless s a := by
  cases a with
  | beAccess b =>
    rintro o rest -
    cases o <;> simp [HarmlessAccess, howner, hcount, hlatest]
  | _ => trivial

/-- The BE process 0 recovers the whole segment, process 11 registers, and then process 0
finds it alive. -/
theorem recovery_harmless_before :
    ∃ tr s, (recoverySystem 11).Run tr s ∧ s.life = .registered ∧
      s.view.shared.hpOwnerPid = 11 ∧ System.Throughout (NewHpIntact 11) tr s := by
  have h₀ : ((recoverySystem 11).restrict Harmless).Run [] .ownerDied := .init ownerDied_init
  have h₁ := h₀.step_restrict (RecoveryStep.beOwner _ 0 rfl) trivial
  have h₂ := h₁.step_restrict (RecoveryStep.beAccess _ 0 .ownerLoad [] rfl)
    (harmless_of_unwritten rfl rfl rfl _)
  have h₃ := h₂.step_restrict (RecoveryStep.beAccess _ 0 (.ownerKill 10) [] rfl)
    (harmless_of_unwritten rfl rfl rfl _)
  have h₄ := h₃.step_restrict (RecoveryStep.beAccess _ 0 (.ownerCas 10) [] rfl)
    (harmless_of_unwritten rfl rfl rfl _)
  have h₅ := h₄.step_restrict (RecoveryStep.beAccess _ 0 .ownerClearCount [.ownerClearState] rfl)
    (harmless_of_unwritten rfl rfl rfl _)
  have h₆ := h₅.step_restrict (RecoveryStep.beAccess _ 0 .ownerClearState [] rfl)
    (harmless_of_unwritten rfl rfl rfl _)
  have h₇ := h₆.step_restrict (RecoveryStep.hpRegister _ 9 rfl) trivial
  obtain ⟨latest, hsolo⟩ := solo_register 11 _ 9
  obtain ⟨tr, h₈⟩ := h₇.leadsTo (leadsTo_uninterrupted (fun _ => trivial) hsolo
    (List.cons_ne_nil _ _) rfl rfl)
  have h₉ := h₈.step_restrict (RecoveryStep.beOwner _ 0 rfl) trivial
  have h₁₀ := h₉.step_restrict (RecoveryStep.beAccess _ 0 .ownerLoad [] rfl)
    (by rintro _ _ ⟨⟩; trivial)
  have h₁₁ := h₁₀.step_restrict (RecoveryStep.beAccess _ 0 (.ownerKill 11) [] rfl)
    (by rintro _ _ ⟨⟩; trivial)
  obtain ⟨hrun, hmeets⟩ := h₁₁.of_restrict
  exact ⟨_, _, hrun, rfl, rfl, (recovery_harmless_iff (by decide) hrun).mpr fun _ => hmeets⟩

/-- The BE process 0 finds process 10 dead and clears the owner; process 11
registers; then process 0 goes on and clears the count. -/
theorem recovery_damages_new_hp :
    ¬ ∀ s, (recoverySystem 11).Reachable s → NewHpIntact 11 s := by
  intro hall
  let s₁ : Recovery :=
    { Recovery.ownerDied with
      be := Function.update Recovery.ownerDied.be 0 [.ownerLoad] }
  let s₂ := s₁.afterBeAccess 11 0 .ownerLoad []
  let s₃ := s₂.afterBeAccess 11 0 (.ownerKill 10) []
  let s₄ := s₃.afterBeAccess 11 0 (.ownerCas 10) []
  have hreach : (recoverySystem 11).Reachable
      { s₄ with life := .registering, hp := [.registerLoadOwner 9] } :=
    .step (.step (.step (.step (.step (.init ownerDied_init) (.beOwner _ 0 rfl))
      (.beAccess s₁ 0 .ownerLoad [] rfl)) (.beAccess s₂ 0 (.ownerKill 10) [] rfl))
      (.beAccess s₃ 0 (.ownerCas 10) [] rfl)) (.hpRegister s₄ 9 rfl)
  obtain ⟨latest, hsolo⟩ := solo_register 11 s₄.view 9
  have hlead : ((recoverySystem 11).restrict fun _ _ => True).LeadsTo
      { s₄ with life := .registering, hp := [.registerLoadOwner 9] } _ :=
    leadsTo_uninterrupted (fun _ => trivial) hsolo (List.cons_ne_nil _ _) rfl rfl
  have hregistered := hreach.leadsTo hlead.of_restrict
  have hint := hall _ (hregistered.step
    (.beAccess _ 0 .ownerClearCount [.ownerClearState] rfl)) rfl
  exact absurd hint.2.1 (Nat.not_succ_le_zero 0)

end Lilt.Activity
