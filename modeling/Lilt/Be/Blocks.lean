import Lilt.Be.InFlight

/-!
# The blocks in flight

Every launch that takes a slot adds its blocks to a counter of 64 bits, and every
retirement takes them off again, behind an assertion that they are in the counter. Only
the policies `blocks` and `gap` compare the counter with a budget before they admit a
launch; under the others nothing bounds the sum.

- `BeWindow.activeBlocks`: the sum over the active slots, as a number without bound.
- `BlocksEffect`: what a step does to that sum and to the counter.
- `BlocksCounted`: the counter is the sum, and the budget is kept.
- `BlocksFit`: what a launch needs so that the counter does not wrap.
- `blocks_counted_iff`: a run counts the blocks exactly if all its launches fit.
- `blocks_wrap`: three launches of the largest grid do not.
-/

namespace Lilt.Be

open Lilt.Driver Gpu Transition

/-! ## The blocks that are counted -/

/-- The policies that test the blocks of a launch before they admit it. -/
def BePolicy.TestsBlocks (p : BePolicy) : Prop := p = .blocks ∨ p = .gap

/-- The sum of `blocks` over the active slots. -/
def BeWindow.activeBlocks (w : BeWindow) : Nat :=
  ∑ i ∈ Finset.range eventBeWindowMax with (w.slots i).active = true, (w.slots i).blocks.toNat

/-- What a slot adds to that sum. -/
def BeEventSlot.countedBlocks (slot : BeEventSlot) : Nat :=
  if slot.active = true then slot.blocks.toNat else 0

/-- The launch in progress had the window for itself, or was tested against a budget, under
the policy `blocks` that of the configuration. -/
def AdmittedBlocks (cfg : BeConfig) (s : BeProcess) : Prop :=
  cfg.policy.TestsBlocks → s.window.outstandingLaunches = 0 ∨
    ∃ budget, (cfg.policy = .blocks → budget = cfg.blockBudget) ∧
      eventBeBlocksExceedBudget s.window s.window.currentLaunchBlocks budget = false

/-- What is known of the blocks of the launch in progress. -/
def BlocksFacts (cfg : BeConfig) (s : BeProcess) : Prop :=
  match s.pc with
  | .unlocked | .draining _ => True
  | .startupWait c | .ownerCheck c | .bypass c | .idleCheck c =>
    s.window.currentLaunchBlocks = c.blocks
  | .survivalIdle c | .survivalAdmit c | .timeLoop c _ =>
    s.window.currentLaunchBlocks = c.blocks ∧ ¬ cfg.policy.TestsBlocks
  | .blockLoop c budget =>
    s.window.currentLaunchBlocks = c.blocks ∧ (cfg.policy = .blocks → budget = cfg.blockBudget)
  | .launching c | .launched c _ =>
    s.window.currentLaunchBlocks = c.blocks ∧ (s.owner = true → AdmittedBlocks cfg s)

/-- The counter is the sum over the active slots and the assertion about it holds; under the
policy `blocks` the launches share the budget. -/
structure BlocksCounted (cfg : BeConfig) (s : BeProcess) : Prop where
  sum_eq : s.window.outstandingBlocks.toNat = s.window.activeBlocks
  asserts : .retireBlocks ∉ s.window.failedAsserts
  bound : cfg.policy = .blocks → 2 ≤ s.window.outstandingLaunches →
    s.window.activeBlocks ≤ cfg.blockBudget.toNat

/-- Under a policy that does not test the blocks, a launch that takes a slot adds up with the
active ones to a number of 64 bits. -/
def BlocksFit (cfg : BeConfig) (s : BeProcess) (a : BeAction) : Prop :=
  cfg.policy.TestsBlocks ∨ ∀ c k o, s.pc = .launched c (some k) → s.owner = true →
    a = .after o → s.window.records o = true →
      s.window.activeBlocks + c.blocks.toNat < 2 ^ 64

/-! ## What a step does to the sum and to the counter -/

/-- The slots may be written, but none that is active before or after. -/
structure SameBlocks (s t : BeProcess) : Prop where
  active : t.window.activeBlocks = s.window.activeBlocks
  outstanding : t.window.outstandingBlocks = s.window.outstandingBlocks
  launches : t.window.outstandingLaunches = s.window.outstandingLaunches
  asserts : t.window.failedAsserts = s.window.failedAsserts

inductive BlocksEffect (cfg : BeConfig) (s : BeProcess) (a : BeAction) (t : BeProcess) : Prop
  | kept (h : SameBlocks s t) (hfits : BlocksFit cfg s a)
  | retired (blocks : UInt64)
      (hactive : t.window.activeBlocks + blocks.toNat = s.window.activeBlocks)
      (hout : t.window.outstandingBlocks = s.window.outstandingBlocks - blocks)
      (hlaunches : t.window.outstandingLaunches = s.window.outstandingLaunches - 1)
      (hasserts : .retireBlocks ∈ t.window.failedAsserts →
        .retireBlocks ∈ s.window.failedAsserts ∨ ¬ blocks ≤ s.window.outstandingBlocks)
      (hfits : BlocksFit cfg s a)
  | entered (blocks : UInt64) (hcurrent : s.window.currentLaunchBlocks = blocks)
      (hadmitted : AdmittedBlocks cfg s)
      (hactive : t.window.activeBlocks = s.window.activeBlocks + blocks.toNat)
      (hout : t.window.outstandingBlocks = s.window.outstandingBlocks + blocks)
      (hlaunches : t.window.outstandingLaunches = s.window.outstandingLaunches + 1)
      (hasserts : t.window.failedAsserts = s.window.failedAsserts)
      (hfits : BlocksFit cfg s a ↔ cfg.policy.TestsBlocks ∨
        s.window.activeBlocks + blocks.toNat < 2 ^ 64)

section

variable {cfg : BeConfig} {fp : BeFloat} {s t : BeProcess}

/-- Writing a slot replaces what it adds to the sum. -/
theorem activeBlocks_update (w : BeWindow) (slot : BeEventSlot) {i : Nat}
    (hi : i < eventBeWindowMax) :
    { w with slots := Function.update w.slots i slot : BeWindow }.activeBlocks +
      (w.slots i).countedBlocks = w.activeBlocks + slot.countedBlocks :=
  @Ring.sum_used_update BeEventSlot (fun slot => slot.active = true) _ _ _ hi w.slots slot
    fun slot => slot.blocks.toNat

/-- A slot that is not active counts for nothing. -/
theorem countedBlocks_inactive {slot : BeEventSlot} (h : slot.active = false) :
    slot.countedBlocks = 0 := by
  unfold BeEventSlot.countedBlocks
  rw [h]
  exact if_neg Bool.false_ne_true

/-- An active slot counts for the blocks of its launch. -/
theorem countedBlocks_active {slot : BeEventSlot} (h : slot.active = true) :
    slot.countedBlocks = slot.blocks.toNat := if_pos h

theorem WindowInv.head_lt (hI : WindowInv cfg s) : s.window.head < eventBeWindowMax :=
  Nat.lt_of_lt_of_le hI.ring.head_lt cfg.window_le

theorem WindowInv.tail_lt (hI : WindowInv cfg s) : s.window.tail < eventBeWindowMax := by
  rw [hI.ring.tail_eq]
  exact Nat.lt_of_lt_of_le (Nat.mod_lt _ cfg.window_pos) cfg.window_le

/-- An empty window has no active slot. -/
theorem activeBlocks_empty (hI : WindowInv cfg s) (h : s.window.outstandingLaunches = 0) :
    s.window.activeBlocks = 0 := by
  have hflight : s.inFlight.length = 0 := hI.outstanding.symm.trans h
  refine Finset.sum_eq_zero fun i hi => ?_
  have hactive := (Finset.mem_filter.mp hi).2
  obtain ⟨j, hj, -⟩ := (hI.ring.used_iff i).mp hactive
  omega

/-- The condition is on the steps that end a launch. -/
theorem blocksFit_of_ne {a : BeAction} (ha : ∀ o, a ≠ .after o) : BlocksFit cfg s a :=
  .inr fun _ _ o _ _ heq => absurd heq (ha o)

/-- Retiring a launch takes its blocks off. -/
theorem retireFrom_blocks (hI : WindowInv cfg s) {w : BeWindow} (hw : s.window.EpisodeOnly w)
    (hout : s.window.outstandingLaunches ≠ 0) (o : RetireAnswers) (pc : BePc) {a : BeAction}
    (ha : ∀ o, a ≠ .after o) : BlocksEffect cfg s a (s.retireFrom cfg w o pc) ∧
      (s.retireFrom cfg w o pc).window.currentLaunchBlocks = s.window.currentLaunchBlocks := by
  obtain ⟨lastIdleNs, launches, rfl⟩ := hw
  obtain ⟨e, rest, -, hactive, -⟩ := hI.head_held hout
  obtain ⟨profiles, asserts, hspec, hasserts⟩ := retire_spec cfg (w := { s.window with
    survivalEpisodeLastIdleNs := lastIdleNs, survivalEpisodeLaunches := launches })
    o hout hactive
  unfold BeProcess.retireFrom
  rw [hspec]
  refine ⟨.retired (s.window.slots s.window.head).blocks ?_ rfl rfl (fun hfailed => ?_)
    (blocksFit_of_ne ha), rfl⟩
  · -- the slot at the head was active and is not any more
    have hsum := activeBlocks_update s.window (s.window.slots s.window.head).retired hI.head_lt
    rw [countedBlocks_active hactive, countedBlocks_inactive rfl, Nat.add_zero] at hsum
    exact hsum
  · rcases hasserts _ hfailed with hold | ⟨-, hless⟩ | ⟨hother, -⟩
    · exact .inl hold
    · exact .inr hless
    · cases hother

/-- A timing sample changes no slot that counts. -/
theorem admittedSampling_blocks (hI : WindowInv cfg s) {w : BeWindow}
    (hw : s.window.EpisodeOnly w) (hroom : s.window.outstandingLaunches < cfg.window)
    (hnone : s.window.currentTimingSample = false) (c : BeCall) (o : PrepareAnswers) :
    SameBlocks s (s.admittedSampling w c o) ∧
      (s.admittedSampling w c o).window.currentLaunchBlocks = s.window.currentLaunchBlocks := by
  obtain ⟨lastIdleNs, launches, rfl⟩ := hw
  have hfree := hI.tail_free (hI.outstanding_lt hroom)
  obtain ⟨slot, d, profiles, sampled, hspec, hslot, -, -⟩ := sampleTiming_spec
    (w := { s.window with
      survivalEpisodeLastIdleNs := lastIdleNs, survivalEpisodeLaunches := launches })
    hfree hnone s.device c.thread c.stream c.perThreadDefaultStream o
  unfold BeProcess.admittedSampling BeProcess.admitted
  dsimp only
  rw [hspec]
  refine ⟨⟨?_, rfl, rfl, rfl⟩, rfl⟩
  -- the tail slot, which may get its events here, stays free
  have hsum := activeBlocks_update s.window slot hI.tail_lt
  rw [countedBlocks_inactive hfree, countedBlocks_inactive hslot] at hsum
  exact hsum

/-- A launch that gets a slot adds the blocks it began with. -/
theorem after_blocks (hI : WindowInv cfg s) (hadmitted : Admitted cfg s) {c : BeCall}
    {work : Option (Ticket GpuStream)} (hpc : s.pc = .launched c work)
    (hB : BlocksFacts cfg s) (o : AfterAnswers) :
    BlocksEffect cfg s (.after o) (s.afterLaunch work (s.afterResult cfg c work o)) := by
  rw [BlocksFacts, hpc] at hB
  obtain ⟨hblocks, hbudget⟩ := hB
  have hfree := fun huses => hI.tail_free (hadmitted.room_of_uses hI huses)
  -- whether the launch fits matters only if it takes a slot
  have hfit : BlocksFit cfg s (.after o) ↔ cfg.policy.TestsBlocks ∨
      ((s.afterResult cfg c work o).enters = true →
        s.window.activeBlocks + c.blocks.toNat < 2 ^ 64) := by
    unfold BlocksFit
    rw [afterResult_enters_iff hadmitted]
    refine or_congr_right ⟨fun hfits => ?_, fun hfits c' k o' hpc' howner ho' hrecords => ?_⟩
    · rintro ⟨⟨k, rfl⟩, howner, hrecords⟩
      exact hfits c k o hpc howner rfl hrecords
    · obtain ⟨rfl, rfl⟩ := BePc.launched.inj (hpc.symm.trans hpc')
      obtain rfl := BeAction.after.inj ho'
      exact hfits ⟨⟨k, rfl⟩, howner, hrecords⟩
  have heffect := hadmitted.afterEffect hI c work o
  generalize s.afterResult cfg c work o = r at heffect hfit
  cases heffect with
  | outside profiles =>
    exact .kept ⟨rfl, rfl, rfl, rfl⟩ (hfit.mpr (.inr (by rintro ⟨⟩)))
  | enters slot d launches hok huses hactive hslot hpredicted howns hgrow =>
    have howner : s.owner = true := hadmitted.owner.symm.trans huses
    refine .entered c.blocks hblocks (hbudget howner) ?_ ?_ rfl rfl ?_
    · have hsum := activeBlocks_update s.window slot hI.tail_lt
      rw [countedBlocks_inactive (hfree huses), countedBlocks_active hactive, hslot, hblocks]
        at hsum
      exact hsum
    · rw [← hblocks]
      rfl
    · rw [hfit]
      exact or_congr_right ⟨fun h => h rfl, fun h _ => h⟩
  | synchronizes slot d profiles launches hok huses hinactive hgrow =>
    refine .kept ⟨?_, rfl, rfl, rfl⟩ (hfit.mpr (.inr (by rintro ⟨⟩)))
    have hsum := activeBlocks_update s.window slot hI.tail_lt
    rw [countedBlocks_inactive (hfree huses), countedBlocks_inactive hinactive] at hsum
    exact hsum

/-- The idle check leaves the slots and the counter alone, and the loops of the policies
that test the blocks are behind it. -/
theorem choosePolicy_blocks (timing : Option HpTiming) (now : UInt64) (c : BeCall)
    (hblocks : s.window.currentLaunchBlocks = c.blocks) :
    SameBlocks s (s.choosePolicy cfg fp c timing now) ∧
      BlocksFacts cfg (s.choosePolicy cfg fp c timing now) := by
  unfold BeProcess.choosePolicy
  obtain ⟨profiles, index, unknown, predictedNs, hpredict⟩ :=
    predict_keeps cfg s.window c.function c.blocks
  rw [hpredict]
  cases hp : cfg.policy with
  | survival | time | timeSum =>
    refine ⟨⟨rfl, rfl, rfl, rfl⟩, hblocks, ?_⟩
    rw [hp]
    rintro (h | h) <;> cases h
  | fixed | blocks | gap =>
    refine ⟨⟨rfl, rfl, rfl, rfl⟩, hblocks, fun hpolicy => ?_⟩
    -- the budget follows the HP gap under `gap` only
    unfold eventBeEffectiveBlockBudgetLocked
    rw [if_pos]
    rw [hpolicy]
    decide

/-- A launch that does not exceed the budget fits into it, without wrapping. -/
theorem blocks_within_budget {w : BeWindow} {incoming budget : UInt64}
    (h : eventBeBlocksExceedBudget w incoming budget = false) :
    w.outstandingBlocks.toNat + incoming.toNat ≤ budget.toNat := by
  simp only [eventBeBlocksExceedBudget, Bool.or_eq_false_iff, decide_eq_false_iff_not,
    UInt64.not_lt] at h
  obtain ⟨hin, hout⟩ := h
  have hsub := UInt64.toNat_sub_of_le _ _ hin
  rw [UInt64.le_iff_toNat_le] at hin hout
  omega

/-- The loop of the policies that test the blocks ends with the window empty or the launch
within the budget. -/
theorem blockLoop_admitted {blocks budget : UInt64}
    (hblocks : s.window.currentLaunchBlocks = blocks)
    (hbudget : cfg.policy = .blocks → budget = cfg.blockBudget)
    (h : blockLoopWaits cfg s.window blocks budget = false) :
    AdmittedBlocks cfg { s with window := { s.window with currentLaunchUsesWindow := true } } := by
  intro htests
  rcases Bool.and_eq_false_iff.mp h with hempty | hpass
  · exact .inl (Nat.eq_zero_of_not_pos (of_decide_eq_false hempty))
  · obtain ⟨-, htested⟩ := Bool.or_eq_false_iff.mp hpass
    refine .inr ⟨budget, hbudget, ?_⟩
    rcases Bool.and_eq_false_iff.mp htested with hfixed | hfits
    · have hfixed : cfg.policy = .fixed := not_not.mp (of_decide_eq_false hfixed)
      rw [hfixed] at htests
      rcases htests with hp | hp <;> cases hp
    · rw [← hblocks] at hfits
      exact hfits

/-- Every step takes one launch off, adds one or leaves all as it is. -/
theorem step_blocks (hI : WindowInv cfg s) (hpc : PcFacts cfg s) (hB : BlocksFacts cfg s)
    {a : BeAction} (h : BeStep cfg fp s a t) : BlocksEffect cfg s a t := by
  cases h with
  | retire thread o h ho =>
    exact (retireFrom_blocks hI (.refl _) (retires_outstanding h) o s.pc (by rintro _ ⟨⟩)).1
  | idle c timing now h =>
    rw [BlocksFacts, h] at hB
    exact .kept (choosePolicy_blocks timing now c hB).1 (blocksFit_of_ne (by rintro _ ⟨⟩))
  | survivalRetire c timing now w grant o h hw hwait ho =>
    exact (retireFrom_blocks hI (survival_keeps hw) (survivalWaits_outstanding hw hwait) o _
      (by rintro _ ⟨⟩)).1
  | survivalSleep c timing now w h hw hwait =>
    obtain ⟨lastIdleNs, launches, rfl⟩ := survival_keeps hw
    exact .kept ⟨rfl, rfl, rfl, rfl⟩ (blocksFit_of_ne (by rintro _ ⟨⟩))
  | survivalAdmit c timing now w window budget o h hw hwait =>
    rw [PcFacts, h] at hpc
    exact .kept (admittedSampling_blocks hI (survival_keeps hw) (survival_room hw hwait) hpc.1
      c o).1 (blocksFit_of_ne (by rintro _ ⟨⟩))
  | timeAdmit c budget o h hwait =>
    rw [PcFacts, h] at hpc
    exact .kept (admittedSampling_blocks hI (.refl _) (timeLoop_room hwait) hpc.1 c o).1
      (blocksFit_of_ne (by rintro _ ⟨⟩))
  | after c work o h hsync =>
    rw [PcFacts, h] at hpc
    exact after_blocks hI hpc.1 h hB o
  | _ => exact .kept ⟨rfl, rfl, rfl, rfl⟩ (blocksFit_of_ne (by rintro _ ⟨⟩))

/-- The blocks of the launch in progress are those it was admitted with. -/
theorem blocksFacts_step (hI : WindowInv cfg s) (hpc : PcFacts cfg s) (hB : BlocksFacts cfg s)
    {a : BeAction} (h : BeStep cfg fp s a t) : BlocksFacts cfg t := by
  cases h with
  | before c h => cases hdone : s.window.startupWaitDone <;> rfl
  | startupPoll c registered expired h hend =>
    rw [BlocksFacts, h] at hB
    exact hB
  | startupAgain c h => exact hB
  | ownerCheck c registered h =>
    rw [BlocksFacts, h] at hB
    cases registered <;> exact hB
  | retire thread o h ho =>
    obtain ⟨-, hcurrent⟩ := @retireFrom_blocks cfg s hI _ (.refl _) (retires_outstanding h) o
      s.pc (.retire o) (by rintro _ ⟨⟩)
    have hsame : (s.retireFrom cfg s.window o s.pc).pc = s.pc := rfl
    unfold BlocksFacts at hB ⊢
    rw [hsame, hcurrent]
    cases hp : s.pc with
    | launching c | launched c work =>
      rw [hp] at h
      cases h
    | _ =>
      rw [hp] at hB
      exact hB
  | bypassed c h hempty =>
    rw [BlocksFacts, h] at hB
    rw [PcFacts, h] at hpc
    refine ⟨hB, fun howner => ?_⟩
    rw [show s.owner = true from howner] at hpc
    exact absurd hpc.2.symm Bool.false_ne_true
  | idle c timing now h =>
    rw [BlocksFacts, h] at hB
    exact (choosePolicy_blocks timing now c hB).2
  | survivalIdle c h =>
    rw [BlocksFacts, h] at hB
    exact hB
  | survivalRetire c timing now w grant o h hw hwait ho =>
    obtain ⟨-, hcurrent⟩ := @retireFrom_blocks cfg s hI _ (survival_keeps hw)
      (survivalWaits_outstanding hw hwait) o (.survivalIdle c) (.survivalRetire timing now o)
      (by rintro _ ⟨⟩)
    rw [BlocksFacts, h] at hB
    exact ⟨hcurrent.trans hB.1, hB.2⟩
  | survivalSleep c timing now w h hw hwait =>
    obtain ⟨lastIdleNs, launches, rfl⟩ := survival_keeps hw
    rw [BlocksFacts, h] at hB
    exact hB
  | survivalAdmit c timing now w window budget o h hw hwait =>
    rw [BlocksFacts, h] at hB
    rw [PcFacts, h] at hpc
    obtain ⟨-, hcurrent⟩ := admittedSampling_blocks hI (survival_keeps hw)
      (survival_room hw hwait) hpc.1 c o
    exact ⟨hcurrent.trans hB.1, fun _ htests => absurd htests hB.2⟩
  | timeAdmit c budget o h hwait =>
    rw [BlocksFacts, h] at hB
    rw [PcFacts, h] at hpc
    obtain ⟨-, hcurrent⟩ := admittedSampling_blocks hI (.refl _) (timeLoop_room hwait) hpc.1 c o
    exact ⟨hcurrent.trans hB.1, fun _ htests => absurd htests hB.2⟩
  | blockAdmit c budget o h hwait =>
    rw [BlocksFacts, h] at hB
    exact ⟨hB.1, fun _ => blockLoop_admitted hB.1 hB.2 hwait⟩
  | launch c h =>
    rw [BlocksFacts, h] at hB
    exact hB
  | launchFails c h =>
    rw [BlocksFacts, h] at hB
    exact hB
  | complete stream => exact hB
  | after c work o h hsync => trivial
  | boundary thread h => trivial
  | drained thread h hempty => trivial

/-- They are in every run. -/
theorem blocksFacts_reachable (h : (beSystem cfg fp).Reachable s) : BlocksFacts cfg s := by
  have hind : (beSystem cfg fp).Inductive (BlocksFacts cfg) := by
    refine { init := fun s hs => ?_, step := fun s a t hs hB hstep => ?_ }
    · rw [BlocksFacts, hs.pc]
      trivial
    · obtain ⟨hI, hpc⟩ := windowInv_reachable hs
      exact blocksFacts_step hI hpc hB hstep
  exact hind.reachable h

/-! ## When the counter is the sum -/

/-- No launch has been counted at the start. -/
theorem BlocksCounted.initial (h : s.Starts) : BlocksCounted cfg s := by
  have hempty : s.window.activeBlocks = 0 := by
    rw [h.window]
    exact Finset.sum_eq_zero fun i hi => absurd (Finset.mem_filter.mp hi).2 Bool.false_ne_true
  refine { sum_eq := ?_, asserts := ?_, bound := fun _ _ => ?_ }
  · rw [hempty, h.window]
    rfl
  · rw [h.window]
    exact List.not_mem_nil
  · rw [hempty]
    exact Nat.zero_le _

/-- A launch that was tested, or had the window for itself, does not wrap the counter. -/
theorem AdmittedBlocks.room (h : AdmittedBlocks cfg s) (hI : WindowInv cfg s)
    (hP : BlocksCounted cfg s) (htests : cfg.policy.TestsBlocks) :
    s.window.activeBlocks + s.window.currentLaunchBlocks.toNat < 2 ^ 64 ∧
      (cfg.policy = .blocks → 1 ≤ s.window.outstandingLaunches →
        s.window.activeBlocks + s.window.currentLaunchBlocks.toNat ≤ cfg.blockBudget.toNat) := by
  have hlaunch := s.window.currentLaunchBlocks.toNat_lt
  rcases h htests with hempty | ⟨budget, hbudget, hfits⟩
  · rw [activeBlocks_empty hI hempty, hempty]
    refine ⟨by omega, fun _ hone => absurd hone (by decide)⟩
  · have hle := blocks_within_budget hfits
    rw [hP.sum_eq] at hle
    refine ⟨Nat.lt_of_le_of_lt hle budget.toNat_lt, fun hpolicy _ => ?_⟩
    rw [← hbudget hpolicy]
    exact hle

/-- After a step the counter is the sum exactly if the step's launch fits. -/
theorem blocksCounted_step_iff (hI : WindowInv cfg s) (hP : BlocksCounted cfg s) {a : BeAction}
    (h : BlocksEffect cfg s a t) : BlocksCounted cfg t ↔ BlocksFit cfg s a := by
  cases h with
  | kept h hfits =>
    refine iff_of_true { sum_eq := ?_, asserts := ?_, bound := ?_ } hfits
    · rw [h.outstanding, h.active]
      exact hP.sum_eq
    · rw [h.asserts]
      exact hP.asserts
    · rw [h.launches, h.active]
      exact hP.bound
  | retired blocks hactive hout hlaunches hasserts hfits =>
    have hsum := hP.sum_eq
    -- the launch is one of the sum, so the counter covers it
    have hle : blocks ≤ s.window.outstandingBlocks := by
      rw [UInt64.le_iff_toNat_le]
      omega
    refine iff_of_true { sum_eq := ?_, asserts := fun hfailed => ?_
                         bound := fun hpolicy htwo => ?_ } hfits
    · rw [hout, UInt64.toNat_sub_of_le _ _ hle]
      omega
    · exact (hasserts hfailed).elim hP.asserts (not_not_intro hle)
    · have := hP.bound hpolicy (by omega)
      omega
  | entered blocks hcurrent hadmitted hactive hout hlaunches hasserts hfits =>
    have hsum := hP.sum_eq
    rw [hfits]
    constructor
    · intro hP'
      have hsum' := hP'.sum_eq
      have hlt := t.window.outstandingBlocks.toNat_lt
      rw [hsum', hactive] at hlt
      exact .inr hlt
    · intro hroom
      have hboth : s.window.activeBlocks + blocks.toNat < 2 ^ 64 ∧
          (cfg.policy = .blocks → 1 ≤ s.window.outstandingLaunches →
            s.window.activeBlocks + blocks.toNat ≤ cfg.blockBudget.toNat) := by
        by_cases htests : cfg.policy.TestsBlocks
        · rw [← hcurrent]
          exact hadmitted.room hI hP htests
        · exact ⟨hroom.resolve_left htests, fun hpolicy => absurd (.inl hpolicy) htests⟩
      obtain ⟨hlt, hbound⟩ := hboth
      refine { sum_eq := ?_, asserts := ?_, bound := fun hpolicy htwo => ?_ }
      · rw [hout, hactive, UInt64.toNat_add, hsum, Nat.mod_eq_of_lt hlt]
      · rw [hasserts]
        exact hP.asserts
      · rw [hactive]
        exact hbound hpolicy (by omega)

end

/-- For every policy, window and budget: in all states of a run the counter is the sum of
the blocks over the active slots, the assertion about it holds and the policy `blocks`
keeps its budget, exactly if every launch of the run that takes a slot fits. -/
theorem blocks_counted_iff (cfg : BeConfig) (fp : BeFloat) {tr : List (BeProcess × BeAction)}
    {s : BeProcess} (h : (beSystem cfg fp).Run tr s) :
    System.Throughout (BlocksCounted cfg) tr s ↔ System.Meets (BlocksFit cfg) tr := by
  have hcounted : ∀ s, ((beSystem cfg fp).restrict (BlocksFit cfg)).Reachable s →
      BlocksCounted cfg s := by
    intro s hs
    have hind : ((beSystem cfg fp).restrict (BlocksFit cfg)).Inductive (BlocksCounted cfg) := by
      refine { init := fun s hs => .initial hs, step := fun s a t hs hP hstep => ?_ }
      obtain ⟨hI, hpc⟩ := windowInv_reachable hs.of_restrict
      exact (blocksCounted_step_iff hI hP
        (step_blocks hI hpc (blocksFacts_reachable hs.of_restrict) hstep.2)).mpr hstep.1
    exact hind.reachable hs
  refine h.throughout_iff (fun s hs => .initial hs) fun s a t hs hstep => ?_
  obtain ⟨hI, hpc⟩ := windowInv_reachable hs.of_restrict
  exact blocksCounted_step_iff hI (hcounted s hs)
    (step_blocks hI hpc (blocksFacts_reachable hs.of_restrict) hstep)

/-- The settings of an environment that sets the policy `blocks` and a window of two. -/
def blockPairConfig : BeConfig :=
  eventBeInitializeWindow fun name =>
    if name = "LILT_EVENT_BE_POLICY".toList then some "blocks".toList
    else if name = "LILT_EVENT_BE_WINDOW".toList then some "2".toList
    else none

/-- Of two launches of eight blocks the first is retired. -/
theorem blocks_counted_iff_two : ∃ tr s, (beSystem blockPairConfig plainFloat).Run tr s ∧
    s.entered.length = 2 ∧ s.retired.length = 1 ∧ s.window.outstandingBlocks = 8 ∧
    System.Throughout (BlocksCounted blockPairConfig) tr s := by
  have h₀ : (beSystem blockPairConfig plainFloat).Run [] startProcess := .init startProcess_starts
  obtain ⟨tr₁, h₁⟩ := h₀.leadsTo (leadsTo_pass (c := oneCall) rfl (.inr ⟨_, rfl, rfl⟩))
  obtain ⟨tr₂, h₂⟩ := h₁.leadsTo (leadsTo_pass (c := oneCall) rfl (.inr ⟨_, rfl, rfl⟩))
  have h₃ := h₂.step (BeStep.complete _ .legacy)
  have h₄ := h₃.step (BeStep.boundary _ 1 rfl)
  have h₅ := h₄.step (BeStep.retire _ 1 ⟨true, false, none⟩ rfl
    ⟨fun _ => by decide, by rintro _ ⟨⟩⟩)
  have htests : blockPairConfig.policy.TestsBlocks := .inl (by decide)
  exact ⟨_, _, h₅, rfl, rfl, rfl,
    (blocks_counted_iff blockPairConfig plainFloat h₅).mpr fun _ _ => .inl htests⟩

/-! ## Three launches of the largest grid -/

section

variable {cfg : BeConfig} {fp : BeFloat} {s : BeProcess} {c : BeCall}

/-- A launch without a failure of the driver takes a slot and adds its blocks. -/
theorem finished_takes_slot (hI : WindowInv cfg s) (hadmitted : Admitted cfg s)
    (howner : s.owner = true) (hblocks : s.window.currentLaunchBlocks = c.blocks)
    (k : Ticket GpuStream) :
    (s.finished cfg c k).window.outstandingLaunches = s.window.outstandingLaunches + 1 ∧
      (s.finished cfg c k).window.outstandingBlocks = s.window.outstandingBlocks + c.blocks ∧
      (s.finished cfg c k).window.activeBlocks = s.window.activeBlocks + c.blocks.toNat := by
  have hfree := hI.tail_free (hI.outstanding_lt (hadmitted.room howner))
  have hrecords : s.window.records .ok = true := by
    simp [BeWindow.records, AfterAnswers.ok]
  have henters : (s.afterResult cfg c (some k) .ok).enters = true :=
    (afterResult_enters_iff hadmitted c (some k) .ok).mpr ⟨⟨k, rfl⟩, howner, hrecords⟩
  have heffect := hadmitted.afterEffect hI c (some k) .ok
  unfold BeProcess.finished
  generalize s.afterResult cfg c (some k) .ok = r at heffect henters
  cases heffect with
  | outside profiles => cases henters
  | synchronizes slot d profiles launches => cases henters
  | enters slot d launches hok huses hactive hslot hpredicted howns hgrow =>
    refine ⟨rfl, ?_, ?_⟩
    · rw [← hblocks]
      rfl
    · have hsum := activeBlocks_update s.window slot hI.tail_lt
      rw [countedBlocks_inactive hfree, countedBlocks_active hactive, hslot, hblocks] at hsum
      exact hsum

/-- Under the policy `fixed` the loop does not look at the blocks. -/
theorem fixed_admits (hfixed : cfg.policy = .fixed)
    (hroom : s.window.outstandingLaunches < cfg.window) : (s.checked cfg fp c).Admits cfg c := by
  unfold BeProcess.checked BeProcess.choosePolicy
  rw [hfixed]
  refine .inr ⟨_, rfl, ?_⟩
  unfold blockLoopWaits
  rw [hfixed]
  simp [BeWindow.resetCurrent, Nat.not_le.mpr hroom]

/-- Under the policy `fixed` every launch with room takes a slot, whatever its blocks. -/
theorem fixed_launch (hfixed : cfg.policy = .fixed) (hs : (beSystem cfg fp).Reachable s)
    (hpc : s.pc = .unlocked) (hroom : s.window.outstandingLaunches < cfg.window) (c : BeCall) :
    ∃ t, (beSystem cfg fp).Reachable t ∧ t.pc = .unlocked ∧
      t.window.outstandingLaunches = s.window.outstandingLaunches + 1 ∧
      t.window.outstandingBlocks = s.window.outstandingBlocks + c.blocks ∧
      t.window.activeBlocks = s.window.activeBlocks + c.blocks.toNat := by
  have hadmits : (s.checked cfg fp c).Admits cfg c := fixed_admits hfixed hroom
  have hbegun : (beSystem cfg fp).Reachable (s.begun c) := hs.step (.before s c hpc)
  have haccepted : (beSystem cfg fp).Reachable ((s.submits cfg fp c).accepted c) :=
    (hbegun.leadsTo (leadsTo_submits hadmits).of_restrict).step (step_accepted (passed_pc _ c))
  obtain ⟨hI, hfacts⟩ := windowInv_reachable haccepted
  -- the policy `fixed` predicts nothing and takes no sample
  have hsubmits : s.submits cfg fp c = { s with
      window := { s.window.resetCurrent c.blocks with
        startupWaitDone := true, currentLaunchUsesWindow := true }
      owner := true
      pc := .launching c } := by
    unfold BeProcess.submits BeProcess.checked BeProcess.choosePolicy
    rw [hfixed]
    rfl
  refine ⟨s.pass cfg fp c, hs.leadsTo (leadsTo_pass hpc hadmits), rfl, ?_⟩
  unfold BeProcess.pass
  rw [hsubmits] at hI hfacts ⊢
  exact finished_takes_slot hI hfacts.1 rfl rfl _

end

/-- The settings of an environment that sets a window of three only. -/
def threeConfig : BeConfig :=
  eventBeInitializeWindow fun name =>
    if name = "LILT_EVENT_BE_WINDOW".toList then some "3".toList else none

/-- A launch of 2147483647 x 65535 x 65535 blocks. -/
def largestCall : BeCall := { oneCall with blocks := 2147483647 * 65535 * 65535 }

/-- Three launches of the largest grid are in flight and the counter has wrapped. -/
theorem blocks_wrap : ¬ ∀ (cfg : BeConfig) (fp : BeFloat) (s : BeProcess),
    (beSystem cfg fp).Reachable s → BlocksCounted cfg s := by
  intro hall
  have hfixed : threeConfig.policy = .fixed := by decide
  have hwindow : threeConfig.window = 3 := by decide
  obtain ⟨s₁, h₁, hpc₁, hout₁, hblocks₁, hactive₁⟩ := @fixed_launch threeConfig plainFloat _
    hfixed (.init startProcess_starts) rfl (by rw [hwindow]; decide) largestCall
  obtain ⟨s₂, h₂, hpc₂, hout₂, hblocks₂, hactive₂⟩ := fixed_launch hfixed h₁ hpc₁
    (by rw [hwindow, hout₁]; decide) largestCall
  obtain ⟨s₃, h₃, -, -, hblocks₃, hactive₃⟩ := fixed_launch hfixed h₂ hpc₂
    (by rw [hwindow, hout₂, hout₁]; decide) largestCall
  have hsum := (hall threeConfig plainFloat s₃ h₃).sum_eq
  have hnone : startProcess.window.activeBlocks = 0 :=
    (@BlocksCounted.initial threeConfig _ startProcess_starts).sum_eq.symm
  have hlargest : largestCall.blocks.toNat = 9223090559730712575 := by decide
  have hlt := s₃.window.outstandingBlocks.toNat_lt
  omega

end Lilt.Be
