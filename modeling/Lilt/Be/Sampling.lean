import Lilt.Be.Predicted
import Lilt.Be.Profiles
import Mathlib.Algebra.BigOperators.Group.Finset.Piecewise

/-!
# Kernel durations are learnt from their own samples

A sample is begun before a launch, kept with its slot or given up after it, and
credited when the slot is retired, many launches later perhaps. Under every policy and
whatever the driver answers, a profile counts the samples that are on their way, is
never given more than it needs, and learns the durations of its own kernel in the order
of the launches.

- `BeAudit`: a process together with the kernels of its launches, which the slots do
  not tell.
- `SampleEffect`: what a step does to the samples; `step_sampleEffect` finds it for
  every step.
- `SampleInv`: the table of profiles and the ring of slots agree on the samples;
  `sampleInv_reachable` carries it over every run.
- `profiles_learn_own_samples`: what that means for each profile, and that a launch
  without a profile changes none.
-/

namespace Lilt.Be

open Lilt.Driver Gpu Transition

/-! ## The launches of a process -/

def BeCall.key (c : BeCall) : KernelKey := ⟨c.function, c.blocks⟩

/-- The launch in progress. -/
def BePc.call : BePc → Option BeCall
  | .unlocked | .draining _ => none
  | .startupWait c | .ownerCheck c | .bypass c | .idleCheck c | .survivalIdle c
  | .survivalAdmit c | .timeLoop c _ | .blockLoop c _ | .launching c | .launched c _ => some c

/-- A launch that took a slot. -/
structure LaunchSample where
  key : KernelKey
  /-- It was enclosed by a pair of timing events. -/
  sampled : Bool

/-- The duration that is accepted at a retirement. -/
def RetireAnswers.accepted (o : RetireAnswers) : Option UInt64 :=
  if o.synchronizeOk then o.elapsedNs.filter (· ≠ 0) else none

/-- A process and the launches that took a slot, in launch order. -/
structure BeAudit where
  process : BeProcess
  /-- The ones that were retired, with the answers of the driver. -/
  finished : List (LaunchSample × RetireAnswers)
  flying : List LaunchSample

/-- The audit behind a step of its process. -/
def BeAudit.next (s : BeAudit) (a : BeAction) (t : BeProcess) : BeAudit :=
  match a.retireAnswers, s.flying, s.process.pc with
  | some o, l :: rest, _ => ⟨t, s.finished ++ [(l, o)], rest⟩
  | none, _, .launched c _ =>
    if s.process.entered.length < t.entered.length then
      ⟨t, s.finished, s.flying ++ [⟨c.key, s.process.window.currentTimingSample⟩]⟩
    else ⟨t, s.finished, s.flying⟩
  | _, _, _ => ⟨t, s.finished, s.flying⟩

/-- All runs of a BE process, audited. -/
def beAuditSystem (cfg : BeConfig) (fp : BeFloat) : System BeAudit BeAction where
  Init s := s.process.Starts ∧ s.finished = [] ∧ s.flying = []
  Step s a t := BeStep cfg fp s.process a t.process ∧ t = s.next a t.process

section

variable {cfg : BeConfig} {fp : BeFloat}

theorem BeAudit.next_process (s : BeAudit) (a : BeAction) (t : BeProcess) :
    (s.next a t).process = t := by
  unfold BeAudit.next
  split
  · rfl
  · split <;> rfl
  · rfl

/-- The audit does not hold the process back. -/
theorem BeAudit.process_reachable {s : BeAudit} (h : (beAuditSystem cfg fp).Reachable s) :
    (beSystem cfg fp).Reachable s.process := by
  induction h with
  | init h => exact .init h.1
  | step _ hstep ih => exact ih.step hstep.1

/-- Every run is the run of an audit. -/
theorem audited_reachable {p : BeProcess} (h : (beSystem cfg fp).Reachable p) :
    ∃ s, (beAuditSystem cfg fp).Reachable s ∧ s.process = p := by
  induction h with
  | @init p h => exact ⟨⟨p, [], []⟩, .init ⟨h, rfl, rfl⟩, rfl⟩
  | @step p q a _ hstep ih =>
    obtain ⟨s, hs, rfl⟩ := ih
    have hprocess := s.next_process a q
    refine ⟨s.next a q, hs.step (a := a) ⟨?_, ?_⟩, hprocess⟩
    · rw [hprocess]
      exact hstep
    · rw [hprocess]

end

/-- The durations that were accepted, each with the kernel that took so long, in launch
order. -/
def BeAudit.accepted (s : BeAudit) : List (KernelKey × UInt64) :=
  s.finished.filterMap fun x => if x.1.sampled then x.2.accepted.map (x.1.key, ·) else none

/-- The accepted durations of one kernel. -/
def BeAudit.durations (s : BeAudit) (k : KernelKey) : List UInt64 := durationsOf s.accepted k

/-- The kernel of the launch in progress, if it is sampled. -/
def BeProcess.samplingKeys (s : BeProcess) : List KernelKey :=
  if s.window.currentTimingSample then (s.pc.call.map BeCall.key).toList else []

/-- The kernels of the sampled launches that are not retired. -/
def BeAudit.pendingKeys (s : BeAudit) : List KernelKey :=
  ((s.flying.filter (·.sampled)).map (·.key)) ++ s.process.samplingKeys

/-! ## What the functions do to the table -/

@[simp] theorem assertThat_profiles (w : BeWindow) (site : BeAssert) (holds : Bool) :
    (w.assertThat site holds).profiles = w.profiles := by
  obtain ⟨asserts, h⟩ := assertThat_keeps w site holds
  rw [h]

@[simp] theorem setSlot_profiles (w : BeWindow) (i : Nat) (slot : BeEventSlot) :
    (w.setSlot i slot).profiles = w.profiles := rfl

/-- A prediction looks the kernel up and changes nothing else of the table. -/
theorem predict_lookup (cfg : BeConfig) (w : BeWindow) (c : BeCall) :
    ∃ unknown predictedNs r, LookupEffect w.profiles c.key r ∧
      eventBePredictKernelNsLocked cfg w c.function c.blocks =
        { w with
          profiles := r.2
          currentProfileIndex := r.1
          currentPredictionUnknown := unknown
          currentPredictedNs := predictedNs } := by
  have heffect := lookup_effect w.profiles c.key
  unfold eventBePredictKernelNsLocked
  change LookupEffect _ _ (eventBeProfileLookupLocked w.profiles c.function c.blocks true)
    at heffect
  generalize eventBeProfileLookupLocked w.profiles c.function c.blocks true = r at heffect ⊢
  obtain ⟨index, profiles⟩ := r
  dsimp only
  cases index with
  | none => exact ⟨_, _, _, heffect, rfl⟩
  | some i =>
    dsimp only
    split
    · exact ⟨_, _, _, heffect, rfl⟩
    · exact ⟨_, _, _, heffect, rfl⟩

/-- Sampling begins a sample of the current profile, or does nothing. -/
theorem sampleTiming_profiles {w : BeWindow} (hnone : w.currentTimingSample = false)
    (d : Device GpuStream) (thread : Thread) (stream : CUstream) (p : Bool)
    (o : PrepareAnswers) :
    let r := (eventBeSampleTiming w d thread stream p o).1
    (r.profiles = w.profiles ∧ r.currentTimingSample = false) ∨
      ∃ i, w.currentProfileIndex = some i ∧
        (w.profiles i).samples + (w.profiles i).pendingSamples < eventBeProfileSamples ∧
        r.profiles = Function.update w.profiles i (w.profiles i).reserve ∧
        r.currentTimingSample = true := by
  unfold eventBeSampleTiming
  split
  next => exact .inl ⟨rfl, hnone⟩
  next i hi =>
    split
    next hroom =>
      unfold eventBePrepareTimingSampleLocked
      dsimp only
      obtain ⟨slot, d', created, hpair, -⟩ :=
        createTimingPair_spec (w.assertThat .prepareSlotFree (!(w.slots w.tail).active)) d o
      rw [hpair]
      dsimp only
      split
      · refine .inr ⟨i, hi, hroom, ?_, rfl⟩
        show Function.update (w.assertThat _ _).profiles i
          (KernelProfile.reserve ((w.assertThat _ _).profiles i)) = _
        rw [assertThat_profiles]
      · exact .inl ⟨assertThat_profiles .., rfl⟩
    next => exact .inl ⟨rfl, hnone⟩

/-- The profiles that `event_be_retire_oldest_locked` leaves behind the slot. -/
def creditedProfiles (profiles : Nat → KernelProfile) (slot : BeEventSlot) (o : RetireAnswers) :
    Nat → KernelProfile :=
  if slot.timingSample then
    Function.update profiles slot.profileIndex
      (match o.accepted with
        | some d => (profiles slot.profileIndex).release.learn d
        | none => (profiles slot.profileIndex).release)
  else profiles

/-- The retirement of a sampled launch is credited to its own kernel. -/
theorem retireSample_profiles {w : BeWindow} {slot : BeEventSlot}
    (hentry : slot.timingSample = true → slot.profileIndex < eventBeProfileTableSize ∧
      (w.profiles slot.profileIndex).occupied = true) (o : RetireAnswers) :
    (retireSample w slot o).profiles = creditedProfiles w.profiles slot o := by
  unfold retireSample creditedProfiles
  by_cases hsample : slot.timingSample = true
  · obtain ⟨hlt, hocc⟩ := hentry hsample
    rw [if_pos hsample, if_pos hsample]
    dsimp only
    rw [releasePending_eq]
    unfold RetireAnswers.accepted
    cases hok : o.synchronizeOk with
    | false => rfl
    | true =>
      cases helapsed : o.elapsedNs with
      | none => rfl
      | some d =>
        dsimp only
        by_cases hd : d = 0
        · subst hd
          rw [updateProfile_zero]
          rfl
        · have hkept : ((w.setProfile slot.profileIndex
              (w.profiles slot.profileIndex).release).profiles slot.profileIndex).occupied =
                true := by
            show (Function.update w.profiles _ _ _).occupied = true
            rw [Function.update_self]
            exact hocc
          have haccepted : (some d).filter (fun d => decide (d ≠ 0)) = some d := by
            simp [hd]
          rw [updateProfile_eq hlt hd hkept, if_pos rfl, haccepted]
          show Function.update (Function.update w.profiles _ _) _
            (KernelProfile.learn (Function.update w.profiles _ _ _) d) = _
          rw [Function.update_self, Function.update_idem]
  · rw [if_neg hsample, if_neg hsample]

/-- So is that of the oldest launch. -/
theorem retire_profiles (cfg : BeConfig) {w : BeWindow} (hout : w.outstandingLaunches ≠ 0)
    (hentry : (w.slots w.head).timingSample = true →
      (w.slots w.head).profileIndex < eventBeProfileTableSize ∧
        (w.profiles (w.slots w.head).profileIndex).occupied = true) (o : RetireAnswers) :
    (eventBeRetireOldestLocked cfg w o).profiles =
      creditedProfiles w.profiles (w.slots w.head) o := by
  unfold eventBeRetireOldestLocked
  rw [if_neg hout]
  dsimp only
  rw [setSlot_profiles, assertThat_profiles, assertThat_profiles, retireSample_profiles,
    assertThat_profiles]
  rw [assertThat_profiles]
  exact hentry

/-- The profiles when the sample of the launch in progress is given up, if there is
one. -/
def BeWindow.givenUp (w : BeWindow) : Nat → KernelProfile :=
  match w.currentTimingSample, w.currentProfileIndex with
  | true, some i => Function.update w.profiles i (w.profiles i).release
  | _, _ => w.profiles

/-- Both functions that give the sample up do it so. -/
theorem releaseCurrent_profiles (w : BeWindow) :
    (match w.currentTimingSample, w.currentProfileIndex with
      | true, some index => releasePending w index
      | _, _ => w).profiles = w.givenUp := by
  unfold BeWindow.givenUp
  cases hs : w.currentTimingSample with
  | false => rfl
  | true =>
    cases hi : w.currentProfileIndex with
    | none => rfl
    | some i =>
      dsimp only
      rw [releasePending_eq]
      rfl

/-- A launch that takes a slot changes no profile, and one that fails gives its sample up. -/
theorem enterWindow_profiles (cfg : BeConfig) (w : BeWindow) (d : Device GpuStream)
    (thread : Thread) (stream : CUstream) (p : Bool) (o : AfterAnswers) :
    let r := enterWindow cfg w d thread stream p o
    (r.enters = true ∧ r.window.profiles = w.profiles ∧
        (r.window.slots w.tail).timingSample = w.currentTimingSample ∧
        (r.window.slots w.tail).profileIndex = w.currentProfileIndex.getD 0) ∨
      r.enters = false ∧ r.window.profiles = w.givenUp := by
  obtain ⟨asserts, hassert⟩ := assertThat_keeps w .afterSlotFree (!(w.slots w.tail).active)
  obtain ⟨slot, d', hcreate, -⟩ := createSlotEvent_spec { w with failedAsserts := asserts } d
    o.createOk
  unfold enterWindow
  dsimp only
  rw [hassert, hcreate]
  dsimp only
  split
  next hok =>
    refine .inl ⟨rfl, ?_⟩
    by_cases hp : cfg.policy = .survival
    · rw [if_pos hp]
      simp [BeWindow.setSlot, BeWindow.enteringSlot]
    · rw [if_neg hp]
      simp [BeWindow.setSlot, BeWindow.enteringSlot]
  next hno =>
    have hpolicy : ∀ w' : BeWindow, (if cfg.policy = .survival then
        { w' with survivalEpisodeLaunches := w'.survivalEpisodeLaunches + 1 } else w').profiles =
          w'.profiles := by
      intro w'
      split <;> rfl
    exact .inr ⟨rfl, (hpolicy _).trans (releaseCurrent_profiles _)⟩

/-- The hook after a launch gives up the sample of a launch that failed. -/
theorem afterLaunch_profiles (cfg : BeConfig) {w : BeWindow}
    (huses : w.currentTimingSample = true → w.currentLaunchUsesWindow = true)
    (d : Device GpuStream) (thread : Thread) (stream : CUstream) (p ok : Bool)
    (o : AfterAnswers) :
    let r := eventBeAfterLaunch cfg w d thread stream p ok o
    (r.enters = true ∧ r.window.profiles = w.profiles ∧
        (r.window.slots w.tail).timingSample = w.currentTimingSample ∧
        (r.window.slots w.tail).profileIndex = w.currentProfileIndex.getD 0) ∨
      r.enters = false ∧ r.window.profiles = w.givenUp := by
  unfold eventBeAfterLaunch
  cases ok with
  | false =>
    refine .inr ⟨rfl, Eq.trans ?_ (releaseCurrent_profiles w)⟩
    simp only [Bool.false_and, Bool.false_eq_true, if_false]
    cases w.currentTimingSample <;> cases w.currentProfileIndex <;> rfl
  | true =>
    by_cases hu : w.currentLaunchUsesWindow = true
    · have henter := enterWindow_profiles cfg w d thread stream p o
      rw [Bool.true_and, if_pos hu]
      exact henter
    · -- a launch outside the window has no sample
      have hs : w.currentTimingSample = false :=
        Bool.eq_false_iff.mpr fun hs => hu (huses hs)
      refine .inr ⟨?_, ?_⟩
      · rw [Bool.true_and, if_neg hu]
      · rw [Bool.true_and, if_neg hu]
        unfold BeWindow.givenUp
        rw [hs]
        rfl

/-! ## What a step does to the samples -/

/-- The launches in the slots are as before. -/
structure SameFlying (s t : BeAudit) : Prop where
  flying : t.flying = s.flying
  finished : t.finished = s.finished
  entered : t.process.entered = s.process.entered
  retired : t.process.retired = s.process.retired

/-- The launch in progress is as before, with its profile and its sample. -/
structure SameCurrent (s t : BeProcess) : Prop where
  call : t.pc.call = s.pc.call
  index : t.window.currentProfileIndex = s.window.currentProfileIndex
  sample : t.window.currentTimingSample = s.window.currentTimingSample
  uses : s.window.currentTimingSample = true →
    t.window.currentLaunchUsesWindow = s.window.currentLaunchUsesWindow

/-- No launch has a profile or a sample. -/
structure NoCurrent (t : BeProcess) : Prop where
  index : t.window.currentProfileIndex = none
  sample : t.window.currentTimingSample = false

inductive SampleEffect (s t : BeAudit) : Prop where
  | same (h : SameFlying s t) (hprofiles : t.process.window.profiles = s.process.window.profiles)
      (hcurrent : SameCurrent s.process t.process)
  | reset (h : SameFlying s t) (hprofiles : t.process.window.profiles = s.process.window.profiles)
      (hnone : s.process.window.currentTimingSample = false) (hcurrent : NoCurrent t.process)
  | looked (h : SameFlying s t) (c : BeCall) (hcall : t.process.pc.call = some c)
      (hscall : s.process.pc.call = some c)
      (hlookup : LookupEffect s.process.window.profiles c.key
        (t.process.window.currentProfileIndex, t.process.window.profiles))
      (hnone : s.process.window.currentTimingSample = false)
      (hstill : t.process.window.currentTimingSample = false)
  | reserved (h : SameFlying s t) (i : Nat)
      (hindex : s.process.window.currentProfileIndex = some i)
      (hroom : (s.process.window.profiles i).samples +
        (s.process.window.profiles i).pendingSamples < eventBeProfileSamples)
      (hprofiles : t.process.window.profiles = Function.update s.process.window.profiles i
        (s.process.window.profiles i).reserve)
      (hnone : s.process.window.currentTimingSample = false)
      (hsample : t.process.window.currentTimingSample = true)
      (hcall : t.process.pc.call = s.process.pc.call)
      (hkeeps : t.process.window.currentProfileIndex = some i ∧
        t.process.window.currentLaunchUsesWindow = true)
  | undone (h : SameFlying s t)
      (hprofiles : t.process.window.profiles = s.process.window.givenUp)
      (hcurrent : NoCurrent t.process)
  | entered (c : BeCall) (hcall : s.process.pc.call = some c)
      (hflying : t.flying = s.flying ++ [⟨c.key, s.process.window.currentTimingSample⟩])
      (hfinished : t.finished = s.finished)
      (hlog : (∃ e, t.process.entered = s.process.entered ++ [e]) ∧
        t.process.retired = s.process.retired)
      (hprofiles : t.process.window.profiles = s.process.window.profiles)
      (hslot : (t.process.window.slots s.process.window.tail).timingSample =
          s.process.window.currentTimingSample ∧
        (t.process.window.slots s.process.window.tail).profileIndex =
          s.process.window.currentProfileIndex.getD 0)
      (hcurrent : NoCurrent t.process)
  | retired (l : LaunchSample) (rest : List LaunchSample) (o : RetireAnswers)
      (hhead : s.flying = l :: rest) (hflying : t.flying = rest)
      (hfinished : t.finished = s.finished ++ [(l, o)])
      (hlog : t.process.entered = s.process.entered ∧
        ∃ x, t.process.retired = s.process.retired ++ [x])
      (hprofiles : t.process.window.profiles = creditedProfiles s.process.window.profiles
        (s.process.window.slots s.process.window.head) o)
      (hcurrent : SameCurrent s.process t.process)

/-! ## The invariant -/

/-- The slot holds the launch, and its sample if there is one is for the profile of the
launch's own kernel. -/
structure SampleHeld (profiles : Nat → KernelProfile) (slot : BeEventSlot) (l : LaunchSample) :
    Prop where
  sampled : slot.timingSample = l.sampled
  entry : l.sampled = true → (profiles slot.profileIndex).occupied = true ∧
    (profiles slot.profileIndex).key = l.key

/-- The slots hold the launches `items`, oldest first. -/
abbrev BeProcess.SlotRing {α : Type} (cfg : BeConfig) (Holds : Nat → BeEventSlot → α → Prop)
    (s : BeProcess) (items : List α) : Prop :=
  Ring.Represents (fun slot : BeEventSlot => slot.active = true) Holds s.window.slots cfg.window
    s.window.head s.window.tail items

structure SampleInv (cfg : BeConfig) (s : BeAudit) : Prop where
  table : ProfileTable s.process.window.profiles s.pendingKeys s.accepted
  ring : s.process.SlotRing cfg (fun _ => SampleHeld s.process.window.profiles) s.flying
  length : s.flying.length = s.process.inFlight.length
  finished : s.finished.length = s.process.retired.length
  index : ∀ i, s.process.window.currentProfileIndex = some i →
    (s.process.window.profiles i).occupied = true ∧
      ∃ c, s.process.pc.call = some c ∧ (s.process.window.profiles i).key = c.key
  sampled : s.process.window.currentTimingSample = true →
    (∃ i, s.process.window.currentProfileIndex = some i) ∧
      s.process.window.currentLaunchUsesWindow = true

/-! ## Every step has one of the effects -/

section

variable {cfg : BeConfig} {fp : BeFloat} {s : BeAudit} {p : BeProcess} {a : BeAction}

/-- A step that neither retires nor enters a launch leaves the log alone. -/
theorem BeAudit.next_same (ha : a.retireAnswers = none) (hentered : p.entered = s.process.entered) :
    s.next a p = ⟨p, s.finished, s.flying⟩ := by
  unfold BeAudit.next
  rw [ha]
  split
  next h _ => cases h
  next => rw [if_neg (by rw [hentered]; exact Nat.lt_irrefl _)]
  next => rfl

/-- A launch that takes a slot is logged with its kernel. -/
theorem BeAudit.next_entered (ha : a.retireAnswers = none) {c : BeCall}
    {work : Option (Ticket GpuStream)} (hpc : s.process.pc = .launched c work) {e : BeEntry}
    (hentered : p.entered = s.process.entered ++ [e]) :
    s.next a p =
      ⟨p, s.finished, s.flying ++ [⟨c.key, s.process.window.currentTimingSample⟩]⟩ := by
  unfold BeAudit.next
  rw [ha, hpc]
  dsimp only
  rw [if_pos]
  rw [hentered, List.length_append]
  exact Nat.lt_succ_self _

/-- The oldest launch is logged as finished. -/
theorem BeAudit.next_retired {o : RetireAnswers} (ha : a.retireAnswers = some o)
    {l : LaunchSample} {rest : List LaunchSample} (hhead : s.flying = l :: rest) :
    s.next a p = ⟨p, s.finished ++ [(l, o)], rest⟩ := by
  unfold BeAudit.next
  rw [ha, hhead]

/-- An effect on the process alone is one of the audit. -/
theorem sampleEffect_next (ha : a.retireAnswers = none)
    (hentered : p.entered = s.process.entered)
    (h : SampleEffect s ⟨p, s.finished, s.flying⟩) : SampleEffect s (s.next a p) := by
  rw [BeAudit.next_same ha hentered]
  exact h

/-- A step that leaves the slots, the profiles and the current launch alone. -/
theorem sampleEffect_same (ha : a.retireAnswers = none)
    (hentered : p.entered = s.process.entered) (hretired : p.retired = s.process.retired)
    (hprofiles : p.window.profiles = s.process.window.profiles)
    (hcurrent : SameCurrent s.process p) : SampleEffect s (s.next a p) :=
  sampleEffect_next ha hentered (.same ⟨rfl, rfl, hentered, hretired⟩ hprofiles hcurrent)

/-- Retiring the oldest launch credits its sample. -/
theorem retireFrom_sampleEffect (hS : SampleInv cfg s) {w : BeWindow}
    (hw : s.process.window.EpisodeOnly w) (hout : s.process.window.outstandingLaunches ≠ 0)
    (hI : WindowInv cfg s.process) {o : RetireAnswers} (ha : a.retireAnswers = some o) {pc : BePc}
    (hcall : pc.call = s.process.pc.call) :
    SampleEffect s (s.next a (s.process.retireFrom cfg w o pc)) := by
  obtain ⟨l, rest, hhead⟩ : ∃ l rest, s.flying = l :: rest := by
    cases hflying : s.flying with
    | nil =>
      have hlen := hS.length
      rw [hflying, ← hI.outstanding] at hlen
      exact absurd hlen.symm hout
    | cons l rest => exact ⟨l, rest, rfl⟩
  have hring := hS.ring
  rw [hhead] at hring
  obtain ⟨hactive, hheld⟩ := hring.head_used
  obtain ⟨lastIdleNs, launches, rfl⟩ := hw
  have hentry : (s.process.window.slots s.process.window.head).timingSample = true →
      (s.process.window.slots s.process.window.head).profileIndex < eventBeProfileTableSize ∧
        (s.process.window.profiles
          (s.process.window.slots s.process.window.head).profileIndex).occupied = true := by
    intro hsample
    rw [hheld.sampled] at hsample
    exact ⟨hS.table.lt (hheld.entry hsample).1, (hheld.entry hsample).1⟩
  rw [BeAudit.next_retired ha hhead]
  obtain ⟨profiles, asserts, hspec, -⟩ := retire_spec cfg (w := { s.process.window with
    survivalEpisodeLastIdleNs := lastIdleNs, survivalEpisodeLaunches := launches })
    o hout hactive
  have hprofiles := retire_profiles cfg (w := { s.process.window with
    survivalEpisodeLastIdleNs := lastIdleNs, survivalEpisodeLaunches := launches }) hout hentry o
  refine .retired l rest o hhead rfl rfl ⟨rfl, _, rfl⟩ hprofiles ⟨hcall, ?_, ?_, fun _ => ?_⟩
  all_goals
    unfold BeProcess.retireFrom
    rw [hspec]

/-- Admission begins a sample of the current profile, or none. -/
theorem admittedSampling_sampleEffect {w : BeWindow} (hw : s.process.window.EpisodeOnly w)
    (hfree : (s.process.window.slots s.process.window.tail).active = false)
    (hnone : s.process.window.currentTimingSample = false) (ha : a.retireAnswers = none)
    {c : BeCall} (hcall : s.process.pc.call = some c) (o : PrepareAnswers) :
    SampleEffect s (s.next a (s.process.admittedSampling w c o)) := by
  obtain ⟨lastIdleNs, launches, rfl⟩ := hw
  obtain ⟨slot, d, profiles, sampled, hspec, -⟩ := sampleTiming_spec
    (w := { s.process.window with
      survivalEpisodeLastIdleNs := lastIdleNs, survivalEpisodeLaunches := launches })
    hfree hnone s.process.device c.thread c.stream c.perThreadDefaultStream o
  have hprofiles := sampleTiming_profiles
    (w := { s.process.window with
      survivalEpisodeLastIdleNs := lastIdleNs, survivalEpisodeLaunches := launches })
    hnone s.process.device c.thread c.stream c.perThreadDefaultStream o
  rw [hspec] at hprofiles
  refine sampleEffect_next ha rfl ?_
  unfold BeProcess.admittedSampling BeProcess.admitted
  dsimp only at hprofiles ⊢
  rw [hspec]
  rcases hprofiles with ⟨hprofiles, hsample⟩ | ⟨i, hindex, hroom, hprofiles, hsample⟩
  · exact .same ⟨rfl, rfl, rfl, rfl⟩ hprofiles
      ⟨hcall.symm, rfl, hsample.trans hnone.symm,
        fun hs => absurd (hnone.symm.trans hs) Bool.false_ne_true⟩
  · exact .reserved ⟨rfl, rfl, rfl, rfl⟩ i hindex hroom hprofiles hnone hsample hcall.symm
      ⟨hindex, rfl⟩

/-- The launch keeps its sample in its slot, gives it up, or had none. -/
theorem after_sampleEffect (hS : SampleInv cfg s) {c : BeCall} {work : Option (Ticket GpuStream)}
    (hpc : s.process.pc = .launched c work) (ha : a.retireAnswers = none) (o : AfterAnswers) :
    SampleEffect s
      (s.next a (s.process.afterLaunch work (s.process.afterResult cfg c work o))) := by
  have hcall : s.process.pc.call = some c := by rw [hpc]; rfl
  have hprofiles := afterLaunch_profiles cfg (fun hs => (hS.sampled hs).2) s.process.device
    c.thread c.stream c.perThreadDefaultStream work.isSome o
  have hclear : NoCurrent (s.process.afterLaunch work (s.process.afterResult cfg c work o)) :=
    ⟨rfl, rfl⟩
  rcases hprofiles with ⟨henters, hprofiles, hslot⟩ | ⟨henters, hprofiles⟩
  · -- the driver accepted the launch
    cases work with
    | none => cases henters
    | some k =>
      have hentered : (s.process.afterLaunch (some k)
          (s.process.afterResult cfg c (some k) o)).entered = s.process.entered ++
            [s.process.entry (s.process.afterResult cfg c (some k) o) k] := if_pos henters
      rw [BeAudit.next_entered ha hpc hentered]
      exact .entered c hcall rfl rfl ⟨⟨_, hentered⟩, rfl⟩ hprofiles hslot hclear
  · have hentered := afterLaunch_stays (s := s.process) henters work
    exact sampleEffect_next ha hentered (.undone ⟨rfl, rfl, hentered, rfl⟩ hprofiles hclear)

/-- The prediction of the duration-aware policies looks the kernel up. -/
theorem choosePolicy_sampleEffect {c : BeCall} (hcall : s.process.pc.call = some c)
    (hnone : s.process.window.currentTimingSample = false) (ha : a.retireAnswers = none)
    (timing : Option HpTiming) (now : UInt64) :
    SampleEffect s (s.next a (s.process.choosePolicy cfg fp c timing now)) := by
  obtain ⟨unknown, predictedNs, r, hlookup, hpredict⟩ := predict_lookup cfg s.process.window c
  have hlook : ∀ pc : BePc, pc.call = some c →
      SampleEffect s (s.next a { s.process with
        window := eventBePredictKernelNsLocked cfg s.process.window c.function c.blocks
        pc := pc }) := by
    intro pc hpc
    rw [hpredict]
    exact sampleEffect_next ha rfl
      (.looked ⟨rfl, rfl, rfl, rfl⟩ c hpc hcall hlookup hnone hnone)
  unfold BeProcess.choosePolicy
  cases cfg.policy with
  | survival | time | timeSum => exact hlook _ rfl
  | fixed | blocks | gap =>
    exact sampleEffect_same ha rfl rfl rfl ⟨hcall.symm, rfl, rfl, fun _ => rfl⟩

/-- Every step has one of the effects on the samples. -/
theorem step_sampleEffect (hS : SampleInv cfg s) (hI : WindowInv cfg s.process)
    (hpc : PcFacts cfg s.process) (h : BeStep cfg fp s.process a p) :
    SampleEffect s (s.next a p) := by
  cases h with
  | before c h =>
    rw [PcFacts, h] at hpc
    exact sampleEffect_next rfl rfl (.reset ⟨rfl, rfl, rfl, rfl⟩ rfl hpc ⟨rfl, rfl⟩)
  | startupPoll c registered expired h hend =>
    exact sampleEffect_same rfl rfl rfl rfl ⟨by rw [h]; rfl, rfl, rfl, fun _ => rfl⟩
  | startupAgain c h => exact sampleEffect_same rfl rfl rfl rfl ⟨rfl, rfl, rfl, fun _ => rfl⟩
  | ownerCheck c registered h =>
    exact sampleEffect_same rfl rfl rfl rfl
      ⟨by rw [h]; cases registered <;> rfl, rfl, rfl, fun _ => rfl⟩
  | retire thread o h ho =>
    exact retireFrom_sampleEffect hS (.refl _) (retires_outstanding h) hI rfl rfl
  | bypassed c h hempty =>
    rw [PcFacts, h] at hpc
    exact sampleEffect_same rfl rfl rfl rfl
      ⟨by rw [h]; rfl, rfl, rfl, fun hs => absurd (hpc.1.symm.trans hs) Bool.false_ne_true⟩
  | idle c timing now h =>
    rw [PcFacts, h] at hpc
    exact choosePolicy_sampleEffect (by rw [h]; rfl) hpc.1 rfl timing now
  | survivalIdle c h =>
    exact sampleEffect_same rfl rfl rfl rfl ⟨by rw [h]; rfl, rfl, rfl, fun _ => rfl⟩
  | survivalRetire c timing now w grant o h hw hwait ho =>
    exact retireFrom_sampleEffect hS (survival_keeps hw) (survivalWaits_outstanding hw hwait) hI
      rfl (by rw [h]; rfl)
  | survivalSleep c timing now w h hw hwait =>
    obtain ⟨lastIdleNs, launches, rfl⟩ := survival_keeps hw
    exact sampleEffect_same rfl rfl rfl rfl ⟨by rw [h]; rfl, rfl, rfl, fun _ => rfl⟩
  | survivalAdmit c timing now w window budget o h hw hwait =>
    rw [PcFacts, h] at hpc
    exact admittedSampling_sampleEffect (survival_keeps hw)
      (hI.tail_free (hI.outstanding_lt (survival_room hw hwait))) hpc.1 rfl (by rw [h]; rfl) o
  | timeAdmit c budget o h hwait =>
    rw [PcFacts, h] at hpc
    exact admittedSampling_sampleEffect (.refl _)
      (hI.tail_free (hI.outstanding_lt (timeLoop_room hwait))) hpc.1 rfl (by rw [h]; rfl) o
  | blockAdmit c budget o h hwait =>
    rw [PcFacts, h] at hpc
    exact sampleEffect_same rfl rfl rfl rfl
      ⟨by rw [h]; rfl, rfl, rfl, fun hs => absurd (hpc.1.symm.trans hs) Bool.false_ne_true⟩
  | launch c h =>
    exact sampleEffect_same rfl rfl rfl rfl ⟨by rw [h]; rfl, rfl, rfl, fun _ => rfl⟩
  | launchFails c h =>
    exact sampleEffect_same rfl rfl rfl rfl ⟨by rw [h]; rfl, rfl, rfl, fun _ => rfl⟩
  | after c work o h hsync => exact after_sampleEffect hS h rfl o
  | boundary thread h =>
    exact sampleEffect_same rfl rfl rfl rfl ⟨by rw [h]; rfl, rfl, rfl, fun _ => rfl⟩
  | drained thread h hempty =>
    exact sampleEffect_same rfl rfl rfl rfl ⟨by rw [h]; rfl, rfl, rfl, fun _ => rfl⟩
  | complete stream => exact sampleEffect_same rfl rfl rfl rfl ⟨rfl, rfl, rfl, fun _ => rfl⟩

end

/-! ## The effects keep the invariant -/

section

variable {cfg : BeConfig} {s t : BeProcess} {α : Type} {Holds : Nat → BeEventSlot → α → Prop}
  {items : List α}

/-- A list with one more element is another list. -/
theorem snoc_ne_self (xs : List α) (x : α) : xs ++ [x] ≠ xs :=
  fun h => List.cons_ne_nil _ _ (List.append_right_eq_self.mp h)

/-- What the log says of a step tells its effect on the ring. -/
theorem WindowEffect.ring_same (h : WindowEffect cfg s t) (hentered : t.entered = s.entered)
    (hretired : t.retired = s.retired) (hring : s.SlotRing cfg Holds items) :
    t.SlotRing cfg Holds items := by
  cases h with
  | kept h hslots _ _ =>
    rw [BeProcess.SlotRing, hslots, h.head, h.tail]
    exact hring
  | wrote slot h hslots hbefore hslot _ =>
    rw [BeProcess.SlotRing, hslots, h.head, h.tail]
    exact hring.writeUnused (Bool.eq_false_iff.mp hbefore) (Bool.eq_false_iff.mp hslot)
  | retired e rest _ _ _ _ _ hlog =>
    rw [hretired] at hlog
    exact absurd hlog.symm (snoc_ne_self _ _)
  | entered e slot d _ _ _ _ _ _ _ _ _ hlog =>
    rw [hentered] at hlog
    exact absurd hlog.symm (snoc_ne_self _ _)

/-- A ring of other data moves on with the window when a launch is retired. -/
theorem WindowEffect.ring_retired (h : WindowEffect cfg s t) {x : Nat × CUevent}
    (hretired : t.retired = s.retired ++ [x]) {l : α} {rest : List α}
    (hring : s.SlotRing cfg Holds (l :: rest)) : t.SlotRing cfg Holds rest := by
  cases h with
  | kept h | wrote _ h =>
    have hlog := h.retired
    rw [hretired] at hlog
    exact absurd hlog (snoc_ne_self _ _)
  | retired e rest _ hwindow _ _ _ _ =>
    obtain ⟨hslots, hhead, htail, -⟩ := hwindow
    rw [BeProcess.SlotRing, hslots, hhead, htail]
    exact hring.pop Bool.false_ne_true
  | entered e slot d _ _ _ _ _ _ _ _ _ _ hlog =>
    rw [hretired] at hlog
    exact absurd hlog (snoc_ne_self _ _)

/-- It moves on when one takes a slot. -/
theorem WindowEffect.ring_entered (h : WindowEffect cfg s t) {e : BeEntry}
    (hentered : t.entered = s.entered ++ [e]) (hlength : items.length = s.inFlight.length)
    {l : α} (hheld : Holds s.window.tail (t.window.slots s.window.tail) l)
    (hring : s.SlotRing cfg Holds items) : t.SlotRing cfg Holds (items ++ [l]) := by
  cases h with
  | kept h | wrote _ h =>
    have hlog := h.entered
    rw [hentered] at hlog
    exact absurd hlog (snoc_ne_self _ _)
  | retired e rest _ _ _ _ hlog _ =>
    rw [hentered] at hlog
    exact absurd hlog (snoc_ne_self _ _)
  | entered e slot d _ hroom _ hactive hwindow _ _ _ _ _ _ =>
    obtain ⟨hslots, hhead, htail, -⟩ := hwindow
    rw [hslots, Function.update_self] at hheld
    rw [BeProcess.SlotRing, hslots, hhead, htail]
    rw [← hlength] at hroom
    exact hring.push hroom hactive hheld

end

/-- The sample of a retired launch is over, and its duration learnt if it is accepted. -/
theorem ProfileTable.credited {profiles : Nat → KernelProfile} {pending pending' : List KernelKey}
    {accepted : List (KernelKey × UInt64)} (h : ProfileTable profiles pending accepted)
    {slot : BeEventSlot} (hsample : slot.timingSample = true)
    (hi : (profiles slot.profileIndex).occupied = true)
    (hperm : pending.Perm ((profiles slot.profileIndex).key :: pending')) (o : RetireAnswers) :
    ProfileTable (creditedProfiles profiles slot o) pending'
      (accepted ++ (o.accepted.map ((profiles slot.profileIndex).key, ·)).toList) := by
  obtain ⟨hreleased, hroom⟩ := h.release hi hperm
  unfold creditedProfiles
  rw [if_pos hsample]
  cases o.accepted with
  | none =>
    rw [Option.map_none, Option.toList_none, List.append_nil]
    exact hreleased
  | some d =>
    have hself : Function.update profiles slot.profileIndex
        (profiles slot.profileIndex).release slot.profileIndex =
          (profiles slot.profileIndex).release := Function.update_self ..
    have hlearned := hreleased.learn (i := slot.profileIndex) (by rw [hself]; exact hi)
      (by rw [hself]; exact hroom) d
    rw [hself, Function.update_idem] at hlearned
    exact hlearned

/-- A sample that is credited leaves the entries where they are. -/
theorem creditedProfiles_keeps {profiles : Nat → KernelProfile} {slot : BeEventSlot}
    (o : RetireAnswers) : KeepsEntries profiles (creditedProfiles profiles slot o) := by
  unfold creditedProfiles
  split
  · refine .update fun hi => ?_
    cases o.accepted <;> exact ⟨hi, rfl⟩
  · exact .refl _

/-- What a slot holds of a sample stays valid while entries are kept. -/
theorem SampleHeld.keep {profiles profiles' : Nat → KernelProfile} {slot : BeEventSlot}
    {l : LaunchSample} (h : SampleHeld profiles slot l) (hkeeps : KeepsEntries profiles profiles') :
    SampleHeld profiles' slot l := by
  refine ⟨h.sampled, fun hs => ?_⟩
  obtain ⟨hi, hkey⟩ := h.entry hs
  rw [← hkey]
  exact hkeeps _ hi

namespace SampleInv

variable {cfg : BeConfig} {s t : BeAudit}

/-- Nothing has been sampled at the start. -/
theorem initial (h : s.process.Starts) (hfinished : s.finished = []) (hflying : s.flying = []) :
    SampleInv cfg s := by
  have hpending : s.pendingKeys = [] := by
    rw [BeAudit.pendingKeys, BeProcess.samplingKeys, hflying, h.window]
    rfl
  have haccepted : s.accepted = [] := by
    rw [BeAudit.accepted, hfinished]
    rfl
  refine { table := ?_, ring := ?_, length := ?_, finished := ?_, index := fun i hi => ?_
           sampled := fun hs => ?_ }
  · rw [hpending, haccepted, h.window]
    exact .initial
  · rw [hflying, BeProcess.SlotRing, h.window]
    exact Ring.represents_nil cfg.window_pos fun _ => Bool.false_ne_true
  · rw [hflying, h.inFlight_nil]
    rfl
  · rw [hfinished, h.retired]
    rfl
  · rw [h.window] at hi
    cases hi
  · rw [h.window] at hs
    exact absurd hs Bool.false_ne_true

/-- The slots of a step that keeps the launches in them. -/
theorem effect_ring (hS : SampleInv cfg s) (hW : WindowEffect cfg s.process t.process)
    (h : SameFlying s t)
    (hkeeps : KeepsEntries s.process.window.profiles t.process.window.profiles) :
    t.process.SlotRing cfg (fun _ => SampleHeld t.process.window.profiles) t.flying ∧
      t.flying.length = t.process.inFlight.length ∧
      t.finished.length = t.process.retired.length := by
  refine ⟨?_, ?_, ?_⟩
  · rw [h.flying]
    exact (hW.ring_same h.entered h.retired hS.ring).mono fun _ _ _ hheld => hheld.keep hkeeps
  · rw [h.flying, hS.length, BeProcess.inFlight, BeProcess.inFlight, h.entered, h.retired]
  · rw [h.finished, h.retired]
    exact hS.finished

/-- The accepted durations are those of the finished launches. -/
theorem accepted_same (h : SameFlying s t) : t.accepted = s.accepted := by
  rw [BeAudit.accepted, BeAudit.accepted, h.finished]

/-- No launch with a sample is between its two hooks. -/
theorem pendingKeys_none (h : SameFlying s t)
    (hs : s.process.window.currentTimingSample = false)
    (ht : t.process.window.currentTimingSample = false) : t.pendingKeys = s.pendingKeys := by
  rw [BeAudit.pendingKeys, BeAudit.pendingKeys, BeProcess.samplingKeys, BeProcess.samplingKeys,
    h.flying, hs, ht]
  rfl

/-- A step that leaves the table alone. -/
theorem effect_same (hS : SampleInv cfg s) (hW : WindowEffect cfg s.process t.process)
    (h : SameFlying s t) (hprofiles : t.process.window.profiles = s.process.window.profiles)
    (hcurrent : SameCurrent s.process t.process) : SampleInv cfg t := by
  have hpending : t.pendingKeys = s.pendingKeys := by
    rw [BeAudit.pendingKeys, BeAudit.pendingKeys, BeProcess.samplingKeys, BeProcess.samplingKeys,
      h.flying, hcurrent.sample, hcurrent.call]
  obtain ⟨hring, hlength, hfinished⟩ := hS.effect_ring hW h (by rw [hprofiles]; exact .refl _)
  refine { table := ?_, ring := hring, length := hlength, finished := hfinished
           index := fun i hi => ?_, sampled := fun hs => ?_ }
  · rw [hpending, accepted_same h, hprofiles]
    exact hS.table
  · rw [hcurrent.index] at hi
    rw [hprofiles, hcurrent.call]
    exact hS.index i hi
  · rw [hcurrent.sample] at hs
    rw [hcurrent.index, hcurrent.uses hs]
    exact hS.sampled hs

/-- A step behind which no launch has a profile. -/
theorem of_noCurrent
    (htable : ProfileTable t.process.window.profiles t.pendingKeys t.accepted)
    (hring : t.process.SlotRing cfg (fun _ => SampleHeld t.process.window.profiles) t.flying ∧
      t.flying.length = t.process.inFlight.length ∧
      t.finished.length = t.process.retired.length)
    (hcurrent : NoCurrent t.process) : SampleInv cfg t := by
  obtain ⟨hring, hlength, hfinished⟩ := hring
  refine { table := htable, ring := hring, length := hlength, finished := hfinished
           index := fun i hi => ?_, sampled := fun hs => ?_ }
  · rw [hcurrent.index] at hi
    cases hi
  · rw [hcurrent.sample] at hs
    exact absurd hs Bool.false_ne_true

/-- A step that looks a kernel up. -/
theorem effect_looked (hS : SampleInv cfg s) (hW : WindowEffect cfg s.process t.process)
    (h : SameFlying s t) {c : BeCall} (hcall : t.process.pc.call = some c)
    (hlookup : LookupEffect s.process.window.profiles c.key
      (t.process.window.currentProfileIndex, t.process.window.profiles))
    (hs : s.process.window.currentTimingSample = false)
    (ht : t.process.window.currentTimingSample = false) : SampleInv cfg t := by
  obtain ⟨htable, hkeeps, hfound⟩ := hS.table.lookup hlookup
  obtain ⟨hring, hlength, hfinished⟩ := hS.effect_ring hW h hkeeps
  refine { table := ?_, ring := hring, length := hlength, finished := hfinished
           index := fun i hi => ?_, sampled := fun hsample => ?_ }
  · rw [pendingKeys_none h hs ht, accepted_same h]
    exact htable
  · obtain ⟨hocc, hkey⟩ := hfound i hi
    exact ⟨hocc, c, hcall, hkey⟩
  · rw [ht] at hsample
    exact absurd hsample Bool.false_ne_true

/-- A step that begins a sample. -/
theorem effect_reserved (hS : SampleInv cfg s) (hW : WindowEffect cfg s.process t.process)
    (h : SameFlying s t) {i : Nat} (hindex : s.process.window.currentProfileIndex = some i)
    (hroom : (s.process.window.profiles i).samples +
      (s.process.window.profiles i).pendingSamples < eventBeProfileSamples)
    (hprofiles : t.process.window.profiles = Function.update s.process.window.profiles i
      (s.process.window.profiles i).reserve)
    (hs : s.process.window.currentTimingSample = false)
    (ht : t.process.window.currentTimingSample = true)
    (hcall : t.process.pc.call = s.process.pc.call)
    (hkeeps : t.process.window.currentProfileIndex = some i ∧
      t.process.window.currentLaunchUsesWindow = true) : SampleInv cfg t := by
  obtain ⟨hocc, c, hc, hkey⟩ := hS.index i hindex
  have hpending : t.pendingKeys = s.pendingKeys ++ [(s.process.window.profiles i).key] := by
    rw [BeAudit.pendingKeys, BeAudit.pendingKeys, BeProcess.samplingKeys, BeProcess.samplingKeys,
      h.flying, hs, ht, hcall, hc, hkey]
    simp
  have hentries : KeepsEntries s.process.window.profiles t.process.window.profiles := by
    rw [hprofiles]
    exact .update fun hi => ⟨hi, rfl⟩
  obtain ⟨hring, hlength, hfinished⟩ := hS.effect_ring hW h hentries
  refine { table := ?_, ring := hring, length := hlength, finished := hfinished
           index := fun j hj => ?_, sampled := fun _ => ⟨⟨i, hkeeps.1⟩, hkeeps.2⟩ }
  · rw [hpending, accepted_same h, hprofiles]
    exact hS.table.reserve hocc hroom
  · obtain rfl : i = j := Option.some.inj (hkeeps.1.symm.trans hj)
    obtain ⟨hocc', hkey'⟩ := hentries i hocc
    exact ⟨hocc', c, hcall.trans hc, hkey'.trans hkey⟩

/-- A step that gives a sample up. -/
theorem effect_undone (hS : SampleInv cfg s) (hW : WindowEffect cfg s.process t.process)
    (h : SameFlying s t) (hprofiles : t.process.window.profiles = s.process.window.givenUp)
    (hcurrent : NoCurrent t.process) : SampleInv cfg t := by
  unfold BeWindow.givenUp at hprofiles
  cases hs : s.process.window.currentTimingSample with
  | false =>
    -- there was no sample
    rw [hs] at hprofiles
    refine of_noCurrent ?_ (hS.effect_ring hW h ?_) hcurrent
    · rw [pendingKeys_none h hs hcurrent.sample, accepted_same h, hprofiles]
      exact hS.table
    · rw [hprofiles]
      exact .refl _
  | true =>
    obtain ⟨⟨i, hi⟩, -⟩ := hS.sampled hs
    obtain ⟨hocc, c, hc, hkey⟩ := hS.index i hi
    rw [hs, hi] at hprofiles
    have hpending : s.pendingKeys = t.pendingKeys ++ [(s.process.window.profiles i).key] := by
      rw [BeAudit.pendingKeys, BeAudit.pendingKeys, BeProcess.samplingKeys,
        BeProcess.samplingKeys, h.flying, hs, hcurrent.sample, hc, hkey]
      simp
    have hperm : s.pendingKeys.Perm ((s.process.window.profiles i).key :: t.pendingKeys) := by
      rw [hpending]
      exact List.perm_append_singleton ..
    refine of_noCurrent ?_ (hS.effect_ring hW h ?_) hcurrent
    · rw [accepted_same h, hprofiles]
      exact (hS.table.release hocc hperm).1
    · rw [hprofiles]
      exact .update fun hi => ⟨hi, rfl⟩

/-- The sample goes with the launch into the slot. -/
theorem effect_entered (hS : SampleInv cfg s) (hW : WindowEffect cfg s.process t.process)
    {c : BeCall} (hcall : s.process.pc.call = some c)
    (hflying : t.flying = s.flying ++ [⟨c.key, s.process.window.currentTimingSample⟩])
    (hfinished : t.finished = s.finished) {e : BeEntry}
    (hentered : t.process.entered = s.process.entered ++ [e])
    (hretired : t.process.retired = s.process.retired) (hI : WindowInv cfg s.process)
    (hprofiles : t.process.window.profiles = s.process.window.profiles)
    (hsample : (t.process.window.slots s.process.window.tail).timingSample =
      s.process.window.currentTimingSample)
    (hslot : (t.process.window.slots s.process.window.tail).profileIndex =
      s.process.window.currentProfileIndex.getD 0)
    (hcurrent : NoCurrent t.process) : SampleInv cfg t := by
  have hpending : t.pendingKeys = s.pendingKeys := by
    rw [BeAudit.pendingKeys, BeAudit.pendingKeys, BeProcess.samplingKeys, BeProcess.samplingKeys,
      hflying, hcurrent.sample, hcall]
    cases hs : s.process.window.currentTimingSample <;> simp
  have haccepted : t.accepted = s.accepted := by
    rw [BeAudit.accepted, BeAudit.accepted, hfinished]
  have hheld : SampleHeld s.process.window.profiles
      (t.process.window.slots s.process.window.tail)
      ⟨c.key, s.process.window.currentTimingSample⟩ := by
    refine ⟨hsample, fun hs => ?_⟩
    obtain ⟨⟨i, hi⟩, -⟩ := hS.sampled hs
    obtain ⟨hocc, c', hc', hkey⟩ := hS.index i hi
    obtain rfl : c = c' := Option.some.inj (hcall.symm.trans hc')
    rw [hslot, hi]
    exact ⟨hocc, hkey⟩
  refine of_noCurrent ?_ ⟨?_, ?_, ?_⟩ hcurrent
  · rw [hpending, haccepted, hprofiles]
    exact hS.table
  · rw [hflying, hprofiles]
    exact hW.ring_entered hentered hS.length hheld hS.ring
  · rw [hflying, List.length_append, hS.length, hI.inFlight_entered hentered hretired,
      List.length_append]
    rfl
  · rw [hfinished, hretired]
    exact hS.finished

/-- The sample is over when the launch leaves its slot. -/
theorem effect_retired (hS : SampleInv cfg s) (hW : WindowEffect cfg s.process t.process)
    {l : LaunchSample} {rest : List LaunchSample} {o : RetireAnswers}
    (hhead : s.flying = l :: rest) (hflying : t.flying = rest)
    (hfinished : t.finished = s.finished ++ [(l, o)])
    (hentered : t.process.entered = s.process.entered) {x : Nat × CUevent}
    (hretired : t.process.retired = s.process.retired ++ [x])
    (hprofiles : t.process.window.profiles = creditedProfiles s.process.window.profiles
      (s.process.window.slots s.process.window.head) o)
    (hcurrent : SameCurrent s.process t.process) : SampleInv cfg t := by
  have hring := hS.ring
  rw [hhead] at hring
  obtain ⟨-, hheld⟩ := hring.head_used
  have hkeeps : KeepsEntries s.process.window.profiles t.process.window.profiles := by
    rw [hprofiles]
    exact creditedProfiles_keeps o
  have haccepted : t.accepted = s.accepted ++
      (if l.sampled then (o.accepted.map (l.key, ·)).toList else []) := by
    rw [BeAudit.accepted, BeAudit.accepted, hfinished, List.filterMap_append]
    cases hs : l.sampled <;> cases ho : o.accepted <;> simp [hs, ho]
  have hpending : s.pendingKeys = (if l.sampled then [l.key] else []) ++ t.pendingKeys := by
    rw [BeAudit.pendingKeys, BeAudit.pendingKeys, BeProcess.samplingKeys, BeProcess.samplingKeys,
      hhead, hflying, hcurrent.sample, hcurrent.call]
    cases hs : l.sampled <;> simp [hs]
  refine { table := ?_, ring := ?_, length := ?_, finished := ?_, index := fun i hi => ?_
           sampled := fun hs => ?_ }
  · rw [hprofiles, haccepted]
    cases hs : l.sampled with
    | false =>
      -- nothing to credit
      have hsample := hheld.sampled.trans hs
      rw [hs] at hpending
      rw [creditedProfiles, hsample, if_neg Bool.false_ne_true, if_neg Bool.false_ne_true,
        List.append_nil]
      rw [show t.pendingKeys = s.pendingKeys from hpending.symm]
      exact hS.table
    | true =>
      obtain ⟨hocc, hkey⟩ := hheld.entry hs
      rw [hs] at hpending
      have hperm : s.pendingKeys.Perm ((s.process.window.profiles
          (s.process.window.slots s.process.window.head).profileIndex).key :: t.pendingKeys) := by
        rw [hpending, hkey]
        exact .refl _
      have htable := hS.table.credited (hheld.sampled.trans hs) hocc hperm o
      rw [hkey] at htable
      exact htable
  · rw [hflying]
    exact (hW.ring_retired hretired hring).mono fun _ _ _ hheld => hheld.keep hkeeps
  · have hlen := hS.length
    rw [hhead, List.length_cons, BeProcess.inFlight, List.length_drop] at hlen
    rw [hflying, BeProcess.inFlight, List.length_drop, hentered, hretired, List.length_append,
      List.length_singleton]
    omega
  · rw [hfinished, hretired, List.length_append, List.length_append, hS.finished]
    rfl
  · rw [hcurrent.index] at hi
    obtain ⟨hocc, c, hc, hkey⟩ := hS.index i hi
    obtain ⟨hocc', hkey'⟩ := hkeeps i hocc
    exact ⟨hocc', c, hcurrent.call.trans hc, hkey'.trans hkey⟩
  · rw [hcurrent.sample] at hs
    rw [hcurrent.index, hcurrent.uses hs]
    exact hS.sampled hs

/-- Each effect keeps the invariant. -/
theorem effect (hS : SampleInv cfg s) (hI : WindowInv cfg s.process)
    (hW : WindowEffect cfg s.process t.process) (h : SampleEffect s t) : SampleInv cfg t := by
  cases h with
  | same h hprofiles hcurrent => exact hS.effect_same hW h hprofiles hcurrent
  | reset h hprofiles hs hcurrent =>
    refine of_noCurrent ?_ (hS.effect_ring hW h (by rw [hprofiles]; exact .refl _)) hcurrent
    rw [pendingKeys_none h hs hcurrent.sample, accepted_same h, hprofiles]
    exact hS.table
  | looked h c hcall _ hlookup hs ht => exact hS.effect_looked hW h hcall hlookup hs ht
  | reserved h i hindex hroom hprofiles hs ht hcall hkeeps =>
    exact hS.effect_reserved hW h hindex hroom hprofiles hs ht hcall hkeeps
  | undone h hprofiles hcurrent => exact hS.effect_undone hW h hprofiles hcurrent
  | entered c hcall hflying hfinished hlog hprofiles hslot hcurrent =>
    obtain ⟨⟨e, hentered⟩, hretired⟩ := hlog
    exact hS.effect_entered hW hcall hflying hfinished hentered hretired hI hprofiles hslot.1
      hslot.2 hcurrent
  | retired l rest o hhead hflying hfinished hlog hprofiles hcurrent =>
    obtain ⟨hentered, x, hretired⟩ := hlog
    exact hS.effect_retired hW hhead hflying hfinished hentered hretired hprofiles hcurrent

end SampleInv

/-- The invariant holds in every run. -/
theorem sampleInv_reachable {cfg : BeConfig} {fp : BeFloat} {s : BeAudit}
    (h : (beAuditSystem cfg fp).Reachable s) : SampleInv cfg s := by
  have hind : (beAuditSystem cfg fp).Inductive (SampleInv cfg) := by
    constructor
    · rintro s ⟨hs, hfinished, hflying⟩
      exact .initial hs hfinished hflying
    · rintro s a t hs hS ⟨hstep, ht⟩
      obtain ⟨hI, hpc⟩ := windowInv_reachable (BeAudit.process_reachable hs)
      have heffect := step_sampleEffect hS hI hpc hstep
      rw [← ht] at heffect
      exact hS.effect hI (step_effect hI hpc hstep) heffect
  exact hind.reachable h

/-! ## The profiles -/

/-- The number of active slots with a sample for the profile. -/
def BeWindow.sampledSlots (w : BeWindow) (i : Nat) : Nat :=
  ((Finset.range eventBeWindowMax).filter fun j => (w.slots j).active = true ∧
    (w.slots j).timingSample = true ∧ (w.slots j).profileIndex = i).card

/-- A launch is between its two hooks, with a sample for the profile. -/
def BeProcess.samplesFor (s : BeProcess) (i : Nat) : Bool :=
  match s.pc with
  | .launching _ | .launched _ _ =>
    s.window.currentTimingSample && decide (s.window.currentProfileIndex = some i)
  | _ => false

/-- The kernel of the launch that a step belongs to: the one that is retired, or the one
in progress. -/
def BeAudit.behind (s t : BeAudit) : Option KernelKey :=
  if s.finished.length < t.finished.length then s.flying.head?.map (·.key)
  else s.process.pc.call.map BeCall.key

section

variable {cfg : BeConfig} {fp : BeFloat} {s t : BeAudit}

/-- The pending samples of a kernel, counted slot by slot. -/
theorem count_sampled (ls : List LaunchSample) (k : KernelKey) :
    ((ls.filter (·.sampled)).map (·.key)).count k =
      (ls.map fun l => if l.sampled = true ∧ l.key = k then 1 else 0).sum := by
  induction ls with
  | nil => rfl
  | cons l rest ih =>
    rw [List.map_cons, List.sum_cons, ← ih]
    cases hs : l.sampled with
    | false => simp [hs]
    | true =>
      by_cases hk : l.key = k
      · simp [hs, hk, Nat.add_comm]
      · simp [hs, hk]

/-- The samples in the slots. -/
theorem SampleInv.sampledSlots_eq (hS : SampleInv cfg s) (i : Nat) :
    s.process.window.sampledSlots i =
      ((s.flying.filter (·.sampled)).map (·.key)).count (s.process.window.profiles i).key := by
  rw [count_sampled, BeWindow.sampledSlots, ← Finset.filter_filter, Finset.card_filter]
  refine hS.ring.sum_used cfg.window_le
    (f := fun slot => if slot.timingSample = true ∧ slot.profileIndex = i then 1 else 0) ?_
  intro _ slot l hheld
  -- a sample for the profile of the launch's kernel is one for this profile
  have hiff : (slot.timingSample = true ∧ slot.profileIndex = i) ↔
      (l.sampled = true ∧ l.key = (s.process.window.profiles i).key) := by
    rw [hheld.sampled]
    refine and_congr_right fun hs => ?_
    obtain ⟨hocc, hkey⟩ := hheld.entry hs
    constructor
    · rintro rfl
      exact hkey.symm
    · intro hl
      exact (hS.table.eq_of_key hocc (hl.symm.trans hkey.symm)).symm
  by_cases h : slot.timingSample = true ∧ slot.profileIndex = i
  · rw [if_pos h, if_pos (hiff.mp h)]
  · rw [if_neg h, if_neg fun h' => h (hiff.mpr h')]

/-- The sample of the launch in progress. -/
theorem SampleInv.samplesFor_eq (hS : SampleInv cfg s) (hpc : PcFacts cfg s.process) (i : Nat) :
    (if s.process.samplesFor i then 1 else 0) =
      s.process.samplingKeys.count (s.process.window.profiles i).key := by
  have hfor : s.process.samplesFor i = (s.process.window.currentTimingSample &&
      decide (s.process.window.currentProfileIndex = some i)) := by
    unfold BeProcess.samplesFor
    unfold PcFacts at hpc
    cases h : s.process.pc with
    | launching c => rfl
    | launched c work => rfl
    | unlocked | startupWait c | ownerCheck c | draining thread =>
      rw [h] at hpc
      rw [hpc]
      rfl
    | _ =>
      rw [h] at hpc
      rw [hpc.1]
      rfl
  rw [hfor, BeProcess.samplingKeys]
  cases hs : s.process.window.currentTimingSample with
  | false => rfl
  | true =>
    obtain ⟨⟨j, hj⟩, -⟩ := hS.sampled hs
    obtain ⟨hocc, c, hc, hkey⟩ := hS.index j hj
    rw [hc, hj, if_pos rfl, Bool.true_and]
    show _ = [c.key].count _
    rw [← hkey, List.count_singleton]
    by_cases hij : j = i
    · subst hij
      simp
    · have hne : (s.process.window.profiles j).key ≠ (s.process.window.profiles i).key :=
        fun heq => hij (hS.table.eq_of_key hocc heq.symm).symm
      simp [hij, hne]

/-- A step changes no profile unless its launch has one. -/
theorem SampleEffect.frame (h : SampleEffect s t) (hS : SampleInv cfg s)
    (hnone : ∀ k ∈ s.behind t, Unprofiled s.process.window.profiles k) :
    t.process.window.profiles = s.process.window.profiles := by
  have hcurrent : SameFlying s t → ∀ c, s.process.pc.call = some c →
      Unprofiled s.process.window.profiles c.key := by
    intro h c hc
    refine hnone _ ?_
    rw [BeAudit.behind, h.finished, if_neg (Nat.lt_irrefl _), hc]
    rfl
  have hindex : SameFlying s t → s.process.window.currentProfileIndex = none := by
    intro h
    cases hi : s.process.window.currentProfileIndex with
    | none => rfl
    | some i =>
      obtain ⟨hocc, c, hc, hkey⟩ := hS.index i hi
      exact absurd ⟨i, hocc, hkey⟩ ((hcurrent h c hc).not_hasEntry hS.table)
  cases h with
  | same _ hprofiles _ | reset _ hprofiles _ _ | entered _ _ _ _ _ hprofiles _ _ =>
    exact hprofiles
  | looked h c _ hscall hlookup _ _ =>
    exact congrArg Prod.snd ((hcurrent h c hscall).lookup hS.table hlookup)
  | reserved h i hi _ _ _ _ _ _ =>
    rw [hindex h] at hi
    cases hi
  | undone h hprofiles _ =>
    rw [hprofiles, BeWindow.givenUp, hindex h]
    cases s.process.window.currentTimingSample <;> rfl
  | retired l rest o hhead _ hfinished _ hprofiles _ =>
    have hl : Unprofiled s.process.window.profiles l.key := by
      refine hnone _ ?_
      have hlt : s.finished.length < (s.finished ++ [(l, o)]).length := by
        rw [List.length_append]
        exact Nat.lt_succ_self _
      rw [BeAudit.behind, hfinished, if_pos hlt, hhead]
      rfl
    have hring := hS.ring
    rw [hhead] at hring
    obtain ⟨-, hheld⟩ := hring.head_used
    have hunsampled : l.sampled = false := by
      by_contra hs
      obtain ⟨hocc, hkey⟩ := hheld.entry (Bool.not_eq_false _ ▸ hs)
      exact hl.not_hasEntry hS.table ⟨_, hocc, hkey⟩
    rw [hprofiles, creditedProfiles, hheld.sampled, hunsampled, if_neg Bool.false_ne_true]

/-- No step loses an entry or changes what it is for. -/
theorem SampleEffect.keeps (h : SampleEffect s t) (hS : SampleInv cfg s) :
    KeepsEntries s.process.window.profiles t.process.window.profiles := by
  cases h with
  | same _ hprofiles _ | reset _ hprofiles _ _ | entered _ _ _ _ _ hprofiles _ _ =>
    rw [hprofiles]
    exact .refl _
  | looked _ c _ _ hlookup _ _ => exact (hS.table.lookup hlookup).2.1
  | reserved _ i _ _ hprofiles _ _ _ _ =>
    rw [hprofiles]
    exact .update fun hi => ⟨hi, rfl⟩
  | undone _ hprofiles _ =>
    rw [hprofiles]
    unfold BeWindow.givenUp
    split
    · exact .update fun hi => ⟨hi, rfl⟩
    · exact .refl _
  | retired l rest o _ _ _ _ hprofiles _ =>
    rw [hprofiles]
    exact creditedProfiles_keeps o

end

/-- In every run, under every policy and whatever the driver answers,

- a profile's pending samples are those of the active slots that have a sample for it,
  and the one that is being taken;
- it never counts more samples than it needs;
- its average is the update rule folded over the accepted durations of the sampled
  launches of its own kernel, in launch order;
- no step of a launch without a profile changes any profile, up to the launch's
  retirement. -/
theorem profiles_learn_own_samples (cfg : BeConfig) (fp : BeFloat) {s : BeAudit}
    (h : (beAuditSystem cfg fp).Reachable s) :
    (∀ i, (s.process.window.profiles i).pendingSamples =
        s.process.window.sampledSlots i + (if s.process.samplesFor i then 1 else 0) ∧
      (s.process.window.profiles i).samples + (s.process.window.profiles i).pendingSamples ≤
        eventBeProfileSamples ∧
      (s.process.window.profiles i).durationEwmaNs =
        (learnDurations (s.durations (s.process.window.profiles i).key)).2) ∧
    ∀ a t, (beAuditSystem cfg fp).Step s a t →
      (∀ k, Unprofiled s.process.window.profiles k → Unprofiled t.process.window.profiles k) ∧
      ((∀ k ∈ s.behind t, Unprofiled s.process.window.profiles k) →
        t.process.window.profiles = s.process.window.profiles) := by
  have hS := sampleInv_reachable h
  obtain ⟨hI, hpc⟩ := windowInv_reachable (BeAudit.process_reachable h)
  constructor
  · intro i
    refine ⟨?_, hS.table.bound i, congrArg Prod.snd (hS.table.learned_eq i)⟩
    rw [hS.table.pending_eq, hS.sampledSlots_eq, hS.samplesFor_eq hpc, ← List.count_append]
    rfl
  · rintro a t ⟨hstep, ht⟩
    have heffect := step_sampleEffect hS hI hpc hstep
    rw [← ht] at heffect
    exact ⟨fun k hk => hk.keep (heffect.keeps hS), heffect.frame hS⟩

/-- A duration of 5 microseconds was learnt and two samples are pending. -/
theorem profiles_learn_own_samples_two : ∃ s : BeAudit, s.process = twoPredicted ∧
    (s.process.window.profiles 62).samples = 1 ∧ s.process.window.sampledSlots 62 = 2 ∧
    (learnDurations (s.durations ⟨4096, 8⟩)).2 = 5000 := by
  obtain ⟨s, hs, hprocess⟩ := audited_reachable twoPredicted_reachable
  obtain ⟨hpending, -, hlearned⟩ := (profiles_learn_own_samples timeSumConfig _ hs).1 62
  rw [hprocess] at hpending hlearned
  refine ⟨s, hprocess, ?_, ?_, hlearned.symm⟩ <;> rw [hprocess]
  · rfl
  · exact hpending.symm

end Lilt.Be
