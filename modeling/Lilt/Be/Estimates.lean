import Lilt.Be.ProfileMap
import Lilt.Be.Sampling
import Lilt.Be.Survival
import Lilt.Lib.Tracking

/-!
# Duration estimates stay within the durations

The HP side keeps a moving average of its idle periods (`update_ewma_ns`), a BE process
one of each kernel (`event_be_update_profile_locked`). Both truncate, and they say in
different ways that there is no sample yet: by a zero in place of the average, and by a
count of zero. That count has 32 bits; behind `2 ^ 32` samples the average begins anew.

- `EwmaTracks`, `ProfileTracks`: either one tracks the samples it was given.
- `idleEwma_within`, `run_within`: so they do in every history of the HP side and in every
  run of a BE process, and stay within the bounds of what was counted there.
- `withMargin`, `predict_of_found`: the prediction adds a quarter, up to the largest word.
- `estimates_within_samples`: no estimate leaves the range of its samples.
-/

namespace Lilt.Be

open Lilt.Activity Lilt.Driver Tracking

/-! ## One sample -/

/-- The average of the HP side goes an eighth of the way. -/
theorem updateEwmaNs_approaches {previous : UInt64} (h : previous ≠ 0) (sampleNs : UInt64) :
    Approaches 8 previous sampleNs (updateEwmaNs previous sampleNs) := by
  have haverage : updateEwmaNs previous sampleNs = averageWord 8 previous sampleNs := by
    unfold updateEwmaNs averageWord
    rw [if_neg h]
  rw [haverage]
  exact averageWord_approaches 8 previous sampleNs

/-- The average of a kernel goes a quarter of the way. -/
theorem learnDuration_approaches (learned : Nat × UInt64) (durationNs : UInt64)
    (h : learned.1 ≠ 0) :
    Approaches 4 learned.2 durationNs (learnDuration learned durationNs).2 := by
  have haverage : (learnDuration learned durationNs).2 = averageWord 4 learned.2 durationNs := by
    unfold learnDuration averageWord
    rw [if_neg h]
  rw [haverage]
  exact averageWord_approaches 4 learned.2 durationNs

/-! ## The average of the HP side -/

/-- The word that `update_ewma_ns` keeps for the samples `ys`. -/
structure EwmaTracks (ys : List Nat) (ewmaNs : UInt64) : Prop where
  positive : ∀ y ∈ ys, 0 < y
  fresh : ys = [] → ewmaNs = 0
  tracks : ys ≠ [] → Tracks ys ewmaNs.toNat

namespace EwmaTracks

variable {ys : List Nat} {ewmaNs : UInt64}

/-- Before the first sample there is no average. -/
theorem initial : EwmaTracks [] 0 :=
  { positive := fun _ hy => absurd hy List.not_mem_nil
    fresh := fun _ => rfl
    tracks := fun hne => absurd rfl hne }

/-- Zero never means that there was a sample. -/
theorem ne_zero (h : EwmaTracks ys ewmaNs) (hne : ys ≠ []) : ewmaNs ≠ 0 := by
  have hpos : ewmaNs.toNat ∈ Set.Ioi 0 := (h.tracks hne).mem Set.ordConnected_Ioi h.positive
  rintro rfl
  exact Nat.lt_irrefl 0 hpos

/-- One more sample. -/
theorem sample (h : EwmaTracks ys ewmaNs) {sampleNs : UInt64} (hpositive : 0 < sampleNs) :
    EwmaTracks (ys ++ [sampleNs.toNat]) (updateEwmaNs ewmaNs sampleNs) := by
  refine { positive := fun y hy => ?_, fresh := fun hnil => ?_, tracks := fun _ => ?_ }
  · rcases List.mem_append.mp hy with hy | hy
    · exact h.positive y hy
    · rw [List.mem_singleton.mp hy]
      exact UInt64.lt_iff_toNat_lt.mp hpositive
  · exact absurd hnil (List.append_ne_nil_of_right_ne_nil _ (List.cons_ne_nil _ _))
  · by_cases hnil : ys = []
    · subst hnil
      rw [h.fresh rfl]
      show Tracks [sampleNs.toNat] sampleNs.toNat
      exact .first _
    · exact (h.tracks hnil).next (updateEwmaNs_approaches (h.ne_zero hnil) sampleNs).mem_uIcc

end EwmaTracks

/-- The average tracks positive durations of any number and size. -/
theorem updateEwmaNs_tracks {durations : List UInt64} (hpositive : ∀ d ∈ durations, 0 < d) :
    EwmaTracks (durations.map UInt64.toNat) (durations.foldl updateEwmaNs 0) := by
  induction durations using List.reverseRecOn with
  | nil => exact .initial
  | append_singleton durations d ih =>
    have hbefore := ih fun d' hd' => hpositive d' (List.mem_append_left _ hd')
    have hd : 0 < d := hpositive d (List.mem_append_right _ (List.mem_singleton_self d))
    rw [List.map_append, List.foldl_append]
    exact hbefore.sample hd

/-- A call of the HP side samples the idle period that it counts. -/
theorem EwmaTracks.call {m : EventShared} {h : IdleHistory}
    (htracks : EwmaTracks h.counted.reverse m.hpIdleEwmaNs) (hcounts : Counts m h)
    (call : HpTimingCall) :
    EwmaTracks (h.call call).counted.reverse (call.exec m).hpIdleEwmaNs := by
  cases call with
  | register self now =>
    show EwmaTracks (h.call (.register self now)).counted.reverse
      (liltEventHpRegister m self now).hpIdleEwmaNs
    unfold liltEventHpRegister IdleHistory.call
    dsimp only
    by_cases howner : h.owner = self
    · rw [if_pos (hcounts.owner.trans howner), if_pos howner]
      exact htracks
    · -- a new owner begins without samples
      have howner' : m.hpOwnerPid ≠ self := fun hm => howner (hcounts.owner.symm.trans hm)
      rw [if_neg howner', if_neg howner]
      exact .initial
  | markActive now =>
    have hcond := hcounts.counted_iff now
    show EwmaTracks (h.call (.markActive now)).counted.reverse
      (countIdlePeriod m now).hpIdleEwmaNs
    unfold countIdlePeriod IdleHistory.call
    dsimp only
    by_cases hcounted : h.lastIdle ≠ 0 ∧ h.lastIdle < now.toNat
    · rw [if_pos (hcond.mpr hcounted), if_pos hcounted, List.reverse_cons]
      have hduration := hcounts.duration_toNat (hcond.mpr hcounted).2
      have hpositive : 0 < now - m.hpLastIdleNs := by
        rw [UInt64.lt_iff_toNat_lt, hduration]
        exact Nat.sub_pos_of_lt hcounted.2
      rw [← hduration]
      exact htracks.sample hpositive
    · rw [if_neg fun hm => hcounted (hcond.mp hm), if_neg hcounted]
      exact htracks
  | markIdle now =>
    show EwmaTracks h.counted.reverse (countActivePeriod m now).hpIdleEwmaNs
    unfold countActivePeriod
    split
    · exact htracks
    · exact htracks

/-- In every history of the HP side the word tracks the idle periods that were counted. -/
theorem idleEwma_tracks (calls : List HpTimingCall) :
    EwmaTracks (historyOf calls).counted.reverse (sharedAfter calls).hpIdleEwmaNs := by
  induction calls using List.reverseRecOn with
  | nil => exact .initial
  | append_singleton calls call ih =>
    have hcounts := counts_sharedAfter calls
    unfold historyOf sharedAfter at ih hcounts ⊢
    rw [List.foldl_append, List.foldl_append]
    exact ih.call hcounts call

/-- So it is within any bounds on them, and not zero. -/
theorem idleEwma_within {calls : List HpTimingCall} (hne : (historyOf calls).counted ≠ [])
    {least greatest : Nat}
    (hbounds : ∀ d ∈ (historyOf calls).counted, least ≤ d ∧ d ≤ greatest) :
    least ≤ (sharedAfter calls).hpIdleEwmaNs.toNat ∧
      (sharedAfter calls).hpIdleEwmaNs.toNat ≤ greatest ∧
      (sharedAfter calls).hpIdleEwmaNs ≠ 0 := by
  have htracks := idleEwma_tracks calls
  have hne' : (historyOf calls).counted.reverse ≠ [] :=
    fun hnil => hne (List.reverse_eq_nil_iff.mp hnil)
  obtain ⟨hleast, hgreatest⟩ :=
    (htracks.tracks hne').mem (Set.ordConnected_Icc (a := least) (b := greatest)) fun d hd =>
      hbounds d (List.mem_reverse.mp hd)
  exact ⟨hleast, hgreatest, htracks.ne_zero hne'⟩

/-! ## The average of a kernel -/

/-- The first duration is the average, and so is the one that comes when the count has
wrapped. -/
theorem learnDuration_tracks {ys : List Nat} {learned : Nat × UInt64}
    (hfresh : ys = [] → learned.1 = 0) (htracks : ys ≠ [] → Tracks ys learned.2.toNat)
    (durationNs : UInt64) :
    Tracks (ys ++ [durationNs.toNat]) (learnDuration learned durationNs).2.toNat := by
  by_cases hzero : learned.1 = 0
  · have htaken : (learnDuration learned durationNs).2 = durationNs := if_pos hzero
    rw [htaken]
    by_cases hnil : ys = []
    · subst hnil
      exact .first _
    · exact (htracks hnil).last _
  · have hstep := learnDuration_approaches learned durationNs hzero
    exact (htracks fun hnil => hzero (hfresh hnil)).next hstep.mem_uIcc

/-- What an entry keeps of the samples `ys`. -/
structure ProfileTracks (ys : List Nat) (p : KernelProfile) : Prop where
  samples : p.samples = ys.length % 2 ^ 32
  tracks : ys ≠ [] → Tracks ys p.durationEwmaNs.toNat

namespace ProfileTracks

variable {ys : List Nat} {p : KernelProfile}

theorem initial (h : p.samples = 0) : ProfileTracks [] p :=
  { samples := h, tracks := fun hne => absurd rfl hne }

/-- One more duration of the kernel. -/
theorem learn (h : ProfileTracks ys p) (durationNs : UInt64) :
    ProfileTracks (ys ++ [durationNs.toNat]) (p.learn durationNs) := by
  refine { samples := ?_, tracks := fun _ => ?_ }
  · show (p.samples + 1) % 2 ^ 32 = _
    rw [h.samples, List.length_append, List.length_singleton, Nat.mod_add_mod]
  · have hfresh : ys = [] → p.samples = 0 := by
      rintro rfl
      exact h.samples
    exact learnDuration_tracks hfresh h.tracks durationNs

end ProfileTracks

/-- The window behind `event_be_update_profile_locked` for an entry and each duration. -/
def BeWindow.learnAll (w : BeWindow) (i : Nat) (durations : List UInt64) : BeWindow :=
  durations.foldl (fun w durationNs => eventBeUpdateProfileLocked w i durationNs) w

/-- An entry without a sample tracks the durations that it learns from then on. -/
theorem learnAll_tracks {w : BeWindow} {i : Nat} (hi : i < eventBeProfileTableSize)
    (hocc : (w.profiles i).occupied = true) (hsamples : (w.profiles i).samples = 0)
    {durations : List UInt64} (hpositive : ∀ d ∈ durations, 0 < d) :
    ((w.learnAll i durations).profiles i).occupied = true ∧
      ProfileTracks (durations.map UInt64.toNat) ((w.learnAll i durations).profiles i) := by
  induction durations using List.reverseRecOn with
  | nil => exact ⟨hocc, .initial hsamples⟩
  | append_singleton durations d ih =>
    obtain ⟨hused, htracks⟩ := ih fun d' hd' => hpositive d' (List.mem_append_left _ hd')
    have hd : d ≠ 0 :=
      UInt64.pos_iff_ne_zero.mp (hpositive d (List.mem_append_right _ (List.mem_singleton_self d)))
    have hnext : w.learnAll i (durations ++ [d]) =
        eventBeUpdateProfileLocked (w.learnAll i durations) i d := by
      unfold BeWindow.learnAll
      rw [List.foldl_append]
      rfl
    have hself : ((w.learnAll i (durations ++ [d])).profiles i) =
        ((w.learnAll i durations).profiles i).learn d := by
      rw [hnext, updateProfile_eq hi hd hused]
      exact Function.update_self i _ _
    rw [hself, List.map_append]
    exact ⟨hused, htracks.learn d⟩

/-! ## The kernels of a run -/

/-- Each duration is counted. -/
@[simp] theorem learnDurations_count (durations : List UInt64) :
    (learnDurations durations).1 = durations.length := by
  induction durations using List.reverseRecOn with
  | nil => rfl
  | append_singleton durations d ih =>
    rw [learnDurations_snoc, List.length_append, List.length_singleton, ← ih]
    rfl

/-- The average of the durations is between them. -/
theorem learnDurations_tracks {durations : List UInt64} (hne : durations ≠ []) :
    Tracks (durations.map UInt64.toNat) (learnDurations durations).2.toNat := by
  induction durations using List.reverseRecOn with
  | nil => exact absurd rfl hne
  | append_singleton durations d ih =>
    rw [learnDurations_snoc, List.map_append]
    refine learnDuration_tracks (fun hnil => ?_)
      (fun hmap => ih (mt List.map_eq_nil_iff.mpr hmap)) d
    rw [learnDurations_count, List.map_eq_nil_iff.mp hnil]
    rfl

section run

variable {cfg : BeConfig} {fp : BeFloat} {s : BeAudit}

/-- In every run each entry tracks the durations of its kernel, and counts them all. -/
theorem profile_tracks (h : (beAuditSystem cfg fp).Reachable s) {i : Nat} {k : KernelKey}
    (hkey : (s.process.window.profiles i).key = k) :
    (s.process.window.profiles i).samples = (s.durations k).length ∧
      ProfileTracks ((s.durations k).map UInt64.toNat) (s.process.window.profiles i) := by
  subst hkey
  have htable := (sampleInv_reachable h).table
  have hbound := htable.bound i
  have hsamples : (s.process.window.profiles i).samples =
      (s.durations (s.process.window.profiles i).key).length := by
    rw [← learnDurations_count]
    exact congrArg Prod.fst (htable.learned_eq i)
  have haverage : (s.process.window.profiles i).durationEwmaNs =
      (learnDurations (s.durations (s.process.window.profiles i).key)).2 :=
    congrArg Prod.snd (htable.learned_eq i)
  refine ⟨hsamples, { samples := ?_, tracks := fun hne => ?_ }⟩
  · rw [List.length_map, ← hsamples]
    unfold eventBeProfileSamples at hbound
    exact (Nat.mod_eq_of_lt (by omega)).symm
  · rw [haverage]
    exact learnDurations_tracks (mt List.map_eq_nil_iff.mpr hne)

/-- A kernel with accepted durations has an entry. -/
theorem entry_of_durations (h : (beAuditSystem cfg fp).Reachable s) {k : KernelKey}
    (hne : s.durations k ≠ []) : HasEntry s.process.window.profiles k := by
  by_contra habsent
  exact hne ((sampleInv_reachable h).table.absent habsent).2

/-- A duration of zero is not accepted. -/
theorem RetireAnswers.accepted_ne_zero {o : RetireAnswers} {d : UInt64}
    (h : o.accepted = some d) : d ≠ 0 := by
  unfold RetireAnswers.accepted at h
  split at h
  · obtain ⟨-, hd⟩ := Option.filter_eq_some_iff.mp h
    exact of_decide_eq_true hd
  · cases h

/-- A duration of zero is not accepted. -/
theorem durations_positive {k : KernelKey} {d : UInt64} (h : d ∈ s.durations k) : 0 < d := by
  rw [UInt64.pos_iff_ne_zero]
  obtain ⟨x, hx, rfl⟩ := List.mem_map.mp h
  obtain ⟨y, -, hy⟩ := List.mem_filterMap.mp (List.mem_of_mem_filter hx)
  split at hy
  · obtain ⟨d, hd, rfl⟩ := Option.map_eq_some_iff.mp hy
    exact RetireAnswers.accepted_ne_zero hd
  · cases hy

end run

/-! ## The prediction -/

/-- A duration and its margin, as far as a word goes. -/
def withMargin (ns : UInt64) : Nat := min (ns.toNat + ns.toNat / 4) (2 ^ 64 - 1)

/-- The margin keeps the order of durations. -/
theorem withMargin_mono {a b : UInt64} (h : a ≤ b) : withMargin a ≤ withMargin b := by
  rw [UInt64.le_iff_toNat_le] at h
  unfold withMargin
  omega

/-- What is predicted from an entry that has samples. -/
theorem predict_of_found (cfg : BeConfig) {w : BeWindow} {function : CUfunction}
    {blocks : UInt64} {i : Nat}
    (hfound : (eventBeProfileLookupLocked w.profiles function blocks true).1 = some i)
    (hocc : (w.profiles i).occupied = true) (hsamples : (w.profiles i).samples ≠ 0) :
    (eventBePredictKernelNsLocked cfg w function blocks).currentPredictedNs.toNat =
      withMargin (w.profiles i).durationEwmaNs := by
  have heffect := lookup_effect w.profiles ⟨function, blocks⟩
  unfold eventBePredictKernelNsLocked
  dsimp only at heffect ⊢
  generalize eventBeProfileLookupLocked w.profiles function blocks true = r at hfound heffect ⊢
  cases heffect with
  | found n =>
    obtain rfl := Option.some.inj hfound
    dsimp only
    rw [if_neg hsamples, addSaturating_toNat, UInt64.toNat_div]
    rfl
  | created n _ _ _ hfree =>
    obtain rfl := Option.some.inj hfound
    rw [hfree] at hocc
    exact absurd hocc Bool.false_ne_true
  | none => cases hfound

/-! ## Within the samples -/

section within

variable {durations : List UInt64}

/-- Between the least sample and the greatest, and not the word for none. -/
structure WithinSamples (durations : List UInt64) (hne : durations ≠ [])
    (estimateNs : UInt64) : Prop where
  least : durations.min hne ≤ estimateNs
  greatest : estimateNs ≤ durations.max hne
  ne_zero : estimateNs ≠ 0

/-- Between both with their margins. -/
structure PredictedWithin (durations : List UInt64) (hne : durations ≠ [])
    (predictedNs : UInt64) : Prop where
  least : withMargin (durations.min hne) ≤ predictedNs.toNat
  greatest : predictedNs.toNat ≤ withMargin (durations.max hne)

/-- What tracks the durations is between the least and the greatest of them. -/
theorem withinSamples_of_tracks (hne : durations ≠ []) (hpositive : ∀ d ∈ durations, 0 < d)
    {estimateNs : UInt64} (h : Tracks (durations.map UInt64.toNat) estimateNs.toNat) :
    WithinSamples durations hne estimateNs := by
  obtain ⟨hleast, hgreatest⟩ := h.between hne
  have hmin : 0 < durations.min hne := hpositive _ (List.min_mem hne)
  refine { least := hleast, greatest := hgreatest, ne_zero := ?_ }
  rintro rfl
  exact UInt64.not_le.mpr hmin hleast

/-- A prediction is within the durations with their margins. -/
theorem WithinSamples.predicted {hne : durations ≠ []} {learnedNs predictedNs : UInt64}
    (h : WithinSamples durations hne learnedNs)
    (hpredicted : predictedNs.toNat = withMargin learnedNs) :
    PredictedWithin durations hne predictedNs := by
  refine { least := ?_, greatest := ?_ }
  · rw [hpredicted]
    exact withMargin_mono h.least
  · rw [hpredicted]
    exact withMargin_mono h.greatest

/-- A retirement moves the average of its kernel a quarter of the way. -/
theorem updateProfile_approaches {w : BeWindow} {i : Nat} (hi : i < eventBeProfileTableSize)
    (hocc : (w.profiles i).occupied = true) (hsamples : (w.profiles i).samples ≠ 0)
    {durationNs : UInt64} (hpositive : 0 < durationNs) :
    Approaches 4 (w.profiles i).durationEwmaNs durationNs
      ((eventBeUpdateProfileLocked w i durationNs).profiles i).durationEwmaNs := by
  have hself : (eventBeUpdateProfileLocked w i durationNs).profiles i =
      (w.profiles i).learn durationNs := by
    rw [updateProfile_eq hi (UInt64.pos_iff_ne_zero.mp hpositive) hocc]
    exact Function.update_self i _ _
  rw [hself]
  exact learnDuration_approaches (w.profiles i).learned durationNs hsamples

/-- The durations that one entry learns, and the next prediction from it. -/
theorem learnAll_within {w : BeWindow} {i : Nat} (hi : i < eventBeProfileTableSize)
    (hocc : (w.profiles i).occupied = true) (hsamples : (w.profiles i).samples = 0)
    (hne : durations ≠ []) (hpositive : ∀ d ∈ durations, 0 < d) (cfg : BeConfig) :
    let learned := w.learnAll i durations
    (learned.profiles i).samples = durations.length % 2 ^ 32 ∧
      WithinSamples durations hne (learned.profiles i).durationEwmaNs ∧
      ∀ function blocks,
        (eventBeProfileLookupLocked learned.profiles function blocks true).1 = some i →
        (learned.profiles i).samples ≠ 0 →
        PredictedWithin durations hne
          (eventBePredictKernelNsLocked cfg learned function blocks).currentPredictedNs := by
  obtain ⟨hused, htracks⟩ := learnAll_tracks hi hocc hsamples hpositive
  have hwithin := withinSamples_of_tracks hne hpositive
    (htracks.tracks (mt List.map_eq_nil_iff.mp hne))
  refine ⟨?_, hwithin, fun function blocks hfound hcounted => ?_⟩
  · rw [htracks.samples, List.length_map]
  · exact hwithin.predicted (predict_of_found cfg hfound hused hcounted)

/-- The kernels of a run. -/
theorem run_within {cfg : BeConfig} {fp : BeFloat} {s : BeAudit}
    (h : (beAuditSystem cfg fp).Reachable s) {k : KernelKey} (hne : s.durations k ≠ []) :
    ∃ i, (s.process.window.profiles i).key = k ∧
      (s.process.window.profiles i).samples = (s.durations k).length ∧
      WithinSamples (s.durations k) hne (s.process.window.profiles i).durationEwmaNs ∧
      PredictedWithin (s.durations k) hne
        (eventBePredictKernelNsLocked cfg s.process.window k.function
          k.blocks).currentPredictedNs := by
  have htable := (sampleInv_reachable h).table
  have hplaced : TablePlaced s.process.window.profiles :=
    { placed := htable.placed, named := htable.named }
  obtain ⟨i, hocc, hkey⟩ := entry_of_durations h hne
  obtain ⟨hcount, htracks⟩ := profile_tracks h hkey
  have hwithin := withinSamples_of_tracks hne (fun d => durations_positive)
    (htracks.tracks (mt List.map_eq_nil_iff.mp hne))
  have hfound : (eventBeProfileLookupLocked s.process.window.profiles k.function k.blocks
      true).1 = some i :=
    congrArg Prod.fst (hplaced.exec_of_entry (c := ⟨k, true⟩) hocc hkey)
  have hsamples : (s.process.window.profiles i).samples ≠ 0 := by
    rw [hcount]
    exact (List.length_pos_iff.mpr hne).ne'
  exact ⟨i, hkey, hcount, hwithin, hwithin.predicted (predict_of_found cfg hfound hocc hsamples)⟩

end within

/-- For every sequence of positive durations: either average is between the least and the
greatest of them and not zero, each step goes the exact part of the way to the new sample,
and a prediction from a count that is not zero is within the same bounds with their
margins. In every run of a BE process the count is that of the durations, so this is so for
every kernel that has one. -/
theorem estimates_within_samples (cfg : BeConfig) (fp : BeFloat) {durations : List UInt64}
    (hne : durations ≠ []) (hpositive : ∀ d ∈ durations, 0 < d) :
    WithinSamples durations hne (durations.foldl updateEwmaNs 0) ∧
    (∀ previous sampleNs, previous ≠ 0 →
      Approaches 8 previous sampleNs (updateEwmaNs previous sampleNs)) ∧
    (∀ (w : BeWindow) i, i < eventBeProfileTableSize → (w.profiles i).occupied = true →
      (w.profiles i).samples = 0 →
      let learned := w.learnAll i durations
      (learned.profiles i).samples = durations.length % 2 ^ 32 ∧
        WithinSamples durations hne (learned.profiles i).durationEwmaNs ∧
        ∀ function blocks,
          (eventBeProfileLookupLocked learned.profiles function blocks true).1 = some i →
          (learned.profiles i).samples ≠ 0 →
          PredictedWithin durations hne
            (eventBePredictKernelNsLocked cfg learned function blocks).currentPredictedNs) ∧
    (∀ (w : BeWindow) i, i < eventBeProfileTableSize → (w.profiles i).occupied = true →
      (w.profiles i).samples ≠ 0 → ∀ durationNs, 0 < durationNs →
      Approaches 4 (w.profiles i).durationEwmaNs durationNs
        ((eventBeUpdateProfileLocked w i durationNs).profiles i).durationEwmaNs) ∧
    ∀ s, (beAuditSystem cfg fp).Reachable s → ∀ k (hk : s.durations k ≠ []),
      ∃ i, (s.process.window.profiles i).key = k ∧
        (s.process.window.profiles i).samples = (s.durations k).length ∧
        WithinSamples (s.durations k) hk (s.process.window.profiles i).durationEwmaNs ∧
        PredictedWithin (s.durations k) hk
          (eventBePredictKernelNsLocked cfg s.process.window k.function
            k.blocks).currentPredictedNs := by
  have htracks := (updateEwmaNs_tracks hpositive).tracks (mt List.map_eq_nil_iff.mp hne)
  refine ⟨withinSamples_of_tracks hne hpositive htracks, ?_, ?_, ?_, ?_⟩
  · exact fun previous sampleNs hprevious => updateEwmaNs_approaches hprevious sampleNs
  · exact fun w i hi hocc hsamples => learnAll_within hi hocc hsamples hne hpositive cfg
  · exact fun w i hi hocc hsamples durationNs hd => updateProfile_approaches hi hocc hsamples hd
  · exact fun s hs k hk => run_within hs hk

/-! ## A run that learns one duration -/

/-- The window once the kernel of `sampledCall` has an entry. -/
def sampledWindow : BeWindow := eventBePredictKernelNsLocked timeSumConfig .initial 4096 8

/-- Durations of one nanosecond and of 2^64 - 1, and a run that has learnt one. -/
theorem estimates_within_samples_extremes :
    WithinSamples [1, 18446744073709551615, 900] (by decide) 2017612633061982321 ∧
      Approaches 8 900 1 788 ∧
      PredictedWithin [1, 18446744073709551615, 900] (by decide) 4323455642275676441 ∧
      Approaches 4 900 1 676 ∧
      ∃ s : BeAudit, ∃ hk : s.durations ⟨4096, 8⟩ ≠ [],
        PredictedWithin (s.durations ⟨4096, 8⟩) hk
          (eventBePredictKernelNsLocked timeSumConfig s.process.window 4096
            8).currentPredictedNs := by
  have hall : ([1, 18446744073709551615, 900] : List UInt64).all (0 < ·) = true := by decide
  have hpositive : ∀ d ∈ ([1, 18446744073709551615, 900] : List UInt64), 0 < d :=
    fun d hd => of_decide_eq_true (List.all_eq_true.mp hall d hd)
  obtain ⟨hewma, hstep, hlearn, hupdate, hrun⟩ :=
    estimates_within_samples timeSumConfig plainFloat (by decide) hpositive
  refine ⟨hewma, hstep 900 1 (by decide), ?_, ?_, ?_⟩
  · exact (hlearn sampledWindow 62 (by decide) rfl rfl).2.2 4096 8 rfl (by decide)
  · exact hupdate (sampledWindow.learnAll 62 [900]) 62 (by decide) rfl (by decide) 1 (by decide)
  · obtain ⟨s, hs, hprocess⟩ := audited_reachable twoPredicted_reachable
    have hkey : (s.process.window.profiles 62).key = ⟨4096, 8⟩ := by rw [hprocess]; rfl
    have hsamples : (s.process.window.profiles 62).samples = 1 := by rw [hprocess]; rfl
    have hk : s.durations ⟨4096, 8⟩ ≠ [] := by
      intro hnil
      have hcount := (profile_tracks hs hkey).1
      rw [hsamples, hnil] at hcount
      exact absurd hcount (by decide)
    obtain ⟨j, -, -, -, hpredicted⟩ := hrun s hs ⟨4096, 8⟩ hk
    exact ⟨s, hk, hpredicted⟩

end Lilt.Be
