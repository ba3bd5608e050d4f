import Lilt.Be.Survival
import Lilt.Activity.Recovery

/-!
# A snapshot while the HP process counts

`lilt_event_hp_timing_snapshot` loads the words of the segment one after the
other, with no lock. Meanwhile the HP process goes on to count idle periods, one
word after the other too: the buckets from the shortest threshold up and the
number of samples last. So a snapshot may hold words of different moments, and
none at which the segment was as it says.

- `snapshotLoads`, `HpTiming.take`: the loads, in the order of the source;
  `snapshot_solo`: with nothing in between they are `liltEventHpTimingSnapshot`.
- `watchedSystem`: all interleavings of the HP process's accesses with the loads,
  after any history of calls.
- `Tracked`: a word of the histogram and what the present call has still to add
  to it are what the history says.
- `Bracketed`: what was loaded lies between the history at the beginning of the
  snapshot and the present one.
- `snapshot_estimate_bounded`: the estimate overstates survival by no more than
  the idle periods that ended while the snapshot was taken.

The HP process makes one call at a time, under its lock, and it is registered:
`lilt_event_hp_register`, which clears the words, is part of the history only.
-/

namespace Lilt.Be

open Lilt.Activity Survival Transition Atomic

/-! ## The loads of a snapshot -/

/-- One load of `lilt_event_hp_timing_snapshot`. -/
inductive SnapshotLoad where
  | hpState
  | stat (w : StatWord)
  deriving DecidableEq

/-- The loads, in order. -/
def snapshotLoads : List SnapshotLoad :=
  [.hpState, .stat .idleSamples, .stat .activeSamples, .stat .generation, .stat .lastActiveNs,
    .stat .lastIdleNs, .stat .idleEwmaNs, .stat .activeEwmaNs] ++
  (List.range idleSurvivalBuckets).map fun i => .stat (.idleSurvivalCount i)

/-- The snapshot with one more word in it. What the BE process never reads is not in
an `HpTiming`. -/
def HpTiming.take (m : EventShared) (t : HpTiming) : SnapshotLoad → HpTiming
  | .hpState => { t with hpState := m.hpState }
  | .stat .idleSamples => { t with idleSamples := m.hpIdleSamples }
  | .stat .lastIdleNs => { t with lastIdleNs := m.hpLastIdleNs }
  | .stat .idleEwmaNs => { t with idleEwmaNs := m.hpIdleEwmaNs }
  | .stat (.idleSurvivalCount i) =>
    { t with
      idleSurvivalCounts := Function.update t.idleSurvivalCounts i (m.hpIdleSurvivalCounts i) }
  | .stat .activeSamples | .stat .generation | .stat .lastActiveNs | .stat .activeEwmaNs => t

/-- The loop over the buckets. -/
theorem foldl_takeBuckets (m : EventShared) (l : List Nat) (t : HpTiming) :
    (l.map fun i => SnapshotLoad.stat (.idleSurvivalCount i)).foldl (HpTiming.take m) t =
      { t with
        idleSurvivalCounts := fun i =>
          if i ∈ l then m.hpIdleSurvivalCounts i else t.idleSurvivalCounts i } := by
  induction l generalizing t with
  | nil => simp
  | cons j l ih =>
    rw [List.map_cons, List.foldl_cons, ih]
    simp only [HpTiming.take, HpTiming.mk.injEq, true_and]
    funext i
    by_cases hi : i = j <;> by_cases hl : i ∈ l <;> simp [hi, hl]

/-- With nothing in between, the loads are the snapshot; `t` is what the structure
held before. -/
theorem snapshot_solo (m : EventShared) (t : HpTiming) :
    snapshotLoads.foldl (HpTiming.take m) t =
      { liltEventHpTimingSnapshot m with
        idleSurvivalCounts := fun i =>
          if i < idleSurvivalBuckets then (liltEventHpTimingSnapshot m).idleSurvivalCounts i
          else t.idleSurvivalCounts i } := by
  rw [snapshotLoads, List.foldl_append, foldl_takeBuckets]
  simp [HpTiming.take, liltEventHpTimingSnapshot]

/-! ## The HP process and a snapshot, access by access -/

/-- A snapshot that is being taken, or was taken. -/
structure Reading where
  todo : List SnapshotLoad
  timing : HpTiming
  /-- The durations that the calls returned before the snapshot had counted. -/
  before : List Nat

/-- The segment, the HP process and a BE process that takes a snapshot. -/
structure Watched where
  view : HpView
  /-- What the present call of the HP process has still to do. -/
  hp : List HpOp
  /-- The calls that have begun. -/
  begun : IdleHistory
  /-- The durations that the calls which have returned counted. -/
  settled : List Nat
  reader : Option Reading

inductive WatchedAction where
  | markActive (now : UInt64)
  | markIdle (now : UInt64)
  /-- The next access of the HP process. -/
  | hp
  /-- A snapshot begins in a structure that holds `timing`. -/
  | snapshot (timing : HpTiming)
  /-- Its next load. -/
  | load

/-- A call of the HP process begins. The word it loads first, which only the HP process
writes, may be loaded at once. -/
def Watched.call (pid : Pid) (s : Watched) (load : HpOp) (call : HpTimingCall) :
    Option Watched :=
  match s.hp with
  | [] => some { s with hp := (hpExec pid load s.view).2, begun := s.begun.call call }
  | _ :: _ => none

/-- The next access of the HP process; the last one ends the call. -/
def Watched.access (pid : Pid) (s : Watched) : Option Watched :=
  match s.hp with
  | [] => none
  | o :: rest =>
    let (view, next) := hpExec pid o s.view
    some
      { s with
        view := view
        hp := next ++ rest
        settled := if next ++ rest = [] then s.begun.counted else s.settled }

def Watched.load (s : Watched) : Option Watched :=
  match s.reader with
  | some { todo := o :: rest, timing := t, before := before } =>
    some { s with
      reader := some
        { todo := rest, timing := t.take s.view.shared o, before := before } }
  | _ => none

def Watched.step (pid : Pid) (s : Watched) : WatchedAction → Option Watched
  | .markActive now => s.call pid (.markActiveLoad now) (.markActive now)
  | .markIdle now => s.call pid (.markIdleLoad now) (.markIdle now)
  | .hp => s.access pid
  | .snapshot timing =>
    some { s with
      reader := some { todo := snapshotLoads, timing := timing, before := s.settled } }
  | .load => s.load

/-- A word of the histogram; these are added to, and never stored to, by a registered
HP process. -/
def Histogram : StatWord → Prop
  | .idleSamples | .idleSurvivalCount _ => True
  | _ => False

/-- The access adds one to the word. -/
def adds (w : StatWord) : HpOp → Bool
  | .addStat w' => w' = w
  | _ => false

/-- The accesses of `lilt_event_hp_mark_active` and `lilt_event_hp_mark_idle` after the
first one. -/
def Publishes : HpOp → Prop
  | .addStat _ | .storeState _ => True
  | .storeStat w _ | .updateEwmaLoad w _ => ¬ Histogram w
  | _ => False

/-- How much the accesses add to the word. -/
def added (w : StatWord) (p : List HpOp) : Nat := p.countP (adds w)

@[simp] theorem added_nil (w : StatWord) : added w [] = 0 := rfl

/-- Two programs add what each of them adds. -/
theorem added_append (w : StatWord) (p q : List HpOp) :
    added w (p ++ q) = added w p + added w q := List.countP_append

theorem added_cons (w : StatWord) (o : HpOp) (p : List HpOp) :
    added w (o :: p) = added w p + (if adds w o then 1 else 0) := List.countP_cons

/-- Whether an idle period has still to be counted in a bucket. -/
theorem added_countBuckets {l : List Nat} (hl : l.Nodup) (i : Nat) :
    added (.idleSurvivalCount i) (l.map fun i => .addStat (.idleSurvivalCount i)) =
      if i ∈ l then 1 else 0 := by
  induction l with
  | nil => rfl
  | cons j l ih =>
    obtain ⟨hj, hl⟩ := List.nodup_cons.mp hl
    rw [List.map_cons, added_cons, ih hl]
    by_cases hi : i = j
    · subst hi
      simp [hj, adds]
    · have hne : j ≠ i := fun h => hi h.symm
      simp [hi, hne, adds]

section calls

variable {pid : Pid} {v : HpView} {h : IdleHistory} {now : UInt64}

/-- ACTIVE is announced with statistics of the idle period. -/
theorem markActive_publishes {o : HpOp} (ho : o ∈ (hpExec pid (.markActiveLoad now) v).2) :
    Publishes o := by
  simp only [hpExec, List.mem_append, List.mem_cons, List.not_mem_nil, or_false] at ho
  rcases ho with ho | rfl | rfl | rfl
  · unfold countIdleOps at ho
    split at ho
    · simp only [List.mem_append, List.mem_map, List.mem_singleton] at ho
      rcases ho with rfl | ⟨i, -, rfl⟩ | rfl
      · exact id
      · trivial
      · trivial
    · cases ho
  · exact id
  · trivial
  · trivial

/-- IDLE is announced with those of the active period. -/
theorem markIdle_publishes {o : HpOp} (ho : o ∈ (hpExec pid (.markIdleLoad now) v).2) :
    Publishes o := by
  simp only [hpExec, List.mem_append, List.mem_cons, List.not_mem_nil, or_false] at ho
  rcases ho with ho | rfl | rfl
  · unfold countActiveOps at ho
    split at ho
    · simp only [List.mem_append, List.mem_singleton] at ho
      rcases ho with rfl | rfl
      · exact id
      · trivial
    · cases ho
  · exact id
  · trivial

/-- An idle period that is counted. -/
theorem counted_of_ended (hended : h.lastIdle ≠ 0 ∧ h.lastIdle < now.toNat) :
    (h.call (.markActive now)).counted = (now.toNat - h.lastIdle) :: h.counted := by
  show (if h.lastIdle ≠ 0 ∧ h.lastIdle < now.toNat then _ else h).counted = _
  rw [if_pos hended]

/-- Without an idle period that ended nothing is counted. -/
theorem counted_of_not_ended (hended : ¬ (h.lastIdle ≠ 0 ∧ h.lastIdle < now.toNat)) :
    (h.call (.markActive now)).counted = h.counted := by
  show (if h.lastIdle ≠ 0 ∧ h.lastIdle < now.toNat then _ else h).counted = _
  rw [if_neg hended]

/-- The call adds to a bucket what it adds to the history. -/
theorem markActive_added_bucket (hc : Counts v.shared h) {i : Nat} {threshold : UInt64}
    (hi : gIdleSurvivalThresholdsNs[i]? = some threshold) :
    survivors h.counted threshold.toNat +
        added (.idleSurvivalCount i) (hpExec pid (.markActiveLoad now) v).2 =
      survivors (h.call (.markActive now)).counted threshold.toNat := by
  have hcond := hc.counted_iff now
  have hrest : added (.idleSurvivalCount i)
      [.storeStat .lastActiveNs now, .addStat .generation, .storeState .active] = 0 := rfl
  simp only [hpExec, added_append, hrest, Nat.add_zero]
  unfold countIdleOps
  by_cases hcounted : h.lastIdle ≠ 0 ∧ h.lastIdle < now.toNat
  · rw [if_pos (hcond.mpr hcounted), counted_of_ended hcounted]
    have hduration := hc.duration_toNat (hcond.mpr hcounted).2
    have hnodup : (survivedBuckets (now - v.shared.hpLastIdleNs)).Nodup :=
      List.nodup_range.filter _
    rw [survivors_cons, ← hduration, added_append, added_append, added_countBuckets hnodup]
    by_cases hlong : threshold < now - v.shared.hpLastIdleNs
    · have hmem := mem_survivedBuckets.mpr ⟨threshold, hi, hlong⟩
      rw [if_pos hmem, if_pos (UInt64.lt_iff_toNat_lt.mp hlong)]
      rfl
    · have hmem : i ∉ survivedBuckets (now - v.shared.hpLastIdleNs) := by
        intro hmem
        obtain ⟨threshold', hi', hlong'⟩ := mem_survivedBuckets.mp hmem
        obtain rfl : threshold' = threshold := Option.some.inj (hi'.symm.trans hi)
        exact hlong hlong'
      rw [if_neg hmem, if_neg fun hlt => hlong (UInt64.lt_iff_toNat_lt.mpr hlt)]
      rfl
  · rw [if_neg fun hm => hcounted (hcond.mp hm), counted_of_not_ended hcounted]
    rfl

/-- It adds the period to the samples too. -/
theorem markActive_added_samples (hc : Counts v.shared h) :
    h.counted.length + added .idleSamples (hpExec pid (.markActiveLoad now) v).2 =
      (h.call (.markActive now)).counted.length := by
  have hcond := hc.counted_iff now
  have hrest : added .idleSamples
      [.storeStat .lastActiveNs now, .addStat .generation, .storeState .active] = 0 := rfl
  simp only [hpExec, added_append, hrest, Nat.add_zero]
  unfold countIdleOps
  by_cases hcounted : h.lastIdle ≠ 0 ∧ h.lastIdle < now.toNat
  · rw [if_pos (hcond.mpr hcounted), counted_of_ended hcounted, added_append, added_append]
    have hbuckets : added .idleSamples ((survivedBuckets (now - v.shared.hpLastIdleNs)).map
        fun i => .addStat (.idleSurvivalCount i)) = 0 := by
      refine List.countP_eq_zero.mpr fun o ho => ?_
      obtain ⟨i, -, rfl⟩ := List.mem_map.mp ho
      simp [adds]
    rw [hbuckets]
    rfl
  · rw [if_neg fun hm => hcounted (hcond.mp hm), counted_of_not_ended hcounted]
    rfl

/-- The end of an active period is not counted in the histogram. -/
theorem markIdle_added {w : StatWord} (hw : Histogram w) :
    added w (hpExec pid (.markIdleLoad now) v).2 = 0 := by
  refine List.countP_eq_zero.mpr fun o ho => ?_
  simp only [hpExec, List.mem_append, List.mem_cons, List.not_mem_nil, or_false] at ho
  rcases ho with ho | rfl | rfl
  · unfold countActiveOps at ho
    split at ho
    · simp only [List.mem_append, List.mem_singleton] at ho
      rcases ho with rfl | rfl
      · simp [adds]
      · rintro hadds
        obtain rfl := of_decide_eq_true hadds
        exact hw
    · cases ho
  · simp [adds]
  · simp [adds]

/-- What the call counts is added in front of what was counted before. -/
theorem counted_suffix_call (h : IdleHistory) (now : UInt64) :
    h.counted <:+ (h.call (.markActive now)).counted := by
  by_cases hended : h.lastIdle ≠ 0 ∧ h.lastIdle < now.toNat
  · rw [counted_of_ended hended]
    exact List.suffix_cons _ _
  · rw [counted_of_not_ended hended]

/-- Periods are shorter than 2^64 nanoseconds. -/
theorem counted_call_lt (hlt : ∀ d ∈ h.counted, d < 2 ^ 64) (now : UInt64) :
    ∀ d ∈ (h.call (.markActive now)).counted, d < 2 ^ 64 := by
  by_cases hended : h.lastIdle ≠ 0 ∧ h.lastIdle < now.toNat
  · rw [counted_of_ended hended]
    intro d hd
    rcases List.mem_cons.mp hd with rfl | hd
    · have := now.toNat_lt
      omega
    · exact hlt d hd
  · rw [counted_of_not_ended hended]
    exact hlt

end calls

/-! ## The histogram is what the history says -/

section access

variable {pid : Pid} {v : HpView} {o : HpOp}

/-- What an access leads to is of the same kind and adds nothing more. -/
theorem hpExec_next (ho : Publishes o) {o' : HpOp} (h : o' ∈ (hpExec pid o v).2) :
    Publishes o' ∧ ∀ w, adds w o' = false := by
  cases o with
  | updateEwmaLoad w sampleNs =>
    obtain rfl := List.mem_singleton.mp h
    exact ⟨ho, fun _ => rfl⟩
  | addStat w => cases h
  | storeStat w n => cases h
  | storeState st => cases h
  | registerLoadOwner now => exact ho.elim
  | addRegistrationCount => exact ho.elim
  | storeRegistrationCount => exact ho.elim
  | storeOwner => exact ho.elim
  | markActiveLoad now => exact ho.elim
  | markIdleLoad now => exact ho.elim

/-- So the rest of the call adds what is left to add. -/
theorem added_next (ho : Publishes o) (w : StatWord) (rest : List HpOp) :
    added w ((hpExec pid o v).2 ++ rest) = added w rest := by
  have hnone : added w (hpExec pid o v).2 = 0 :=
    List.countP_eq_zero.mpr fun o' h => by simp [(hpExec_next ho h).2 w]
  rw [added_append, hnone, Nat.zero_add]

/-- The count of the idle periods is raised by one access. -/
theorem hpExec_samples (ho : Publishes o) :
    (hpExec pid o v).1.shared.hpIdleSamples =
      v.shared.hpIdleSamples + if adds .idleSamples o then 1 else 0 := by
  cases o with
  | addStat w => cases w <;> simp [hpExec, EventShared.setStat, EventShared.stat, adds]
  | storeStat w n =>
    cases w <;> first | exact absurd trivial ho | simp [hpExec, EventShared.setStat, adds]
  | updateEwmaLoad w sampleNs => simp [hpExec, adds]
  | storeState st => simp [hpExec, adds]
  | registerLoadOwner now => exact ho.elim
  | addRegistrationCount => exact ho.elim
  | storeRegistrationCount => exact ho.elim
  | storeOwner => exact ho.elim
  | markActiveLoad now => exact ho.elim
  | markIdleLoad now => exact ho.elim

/-- A bucket is raised by one access. -/
theorem hpExec_bucket (ho : Publishes o) (i : Nat) :
    (hpExec pid o v).1.shared.hpIdleSurvivalCounts i =
      v.shared.hpIdleSurvivalCounts i + if adds (.idleSurvivalCount i) o then 1 else 0 := by
  cases o with
  | addStat w =>
    cases w with
    | idleSurvivalCount j =>
      by_cases hj : i = j
      · subst hj
        simp [hpExec, EventShared.setStat, EventShared.stat, adds]
      · have hne : j ≠ i := fun h => hj h.symm
        simp [hpExec, EventShared.setStat, EventShared.stat, adds, hj, hne]
    | _ => simp [hpExec, EventShared.setStat, EventShared.stat, adds]
  | storeStat w n =>
    cases w <;> first | exact absurd trivial ho | simp [hpExec, EventShared.setStat, adds]
  | updateEwmaLoad w sampleNs => simp [hpExec, adds]
  | storeState st => simp [hpExec, adds]
  | registerLoadOwner now => exact ho.elim
  | addRegistrationCount => exact ho.elim
  | storeRegistrationCount => exact ho.elim
  | storeOwner => exact ho.elim
  | markActiveLoad now => exact ho.elim
  | markIdleLoad now => exact ho.elim

end access

/-- The words of the histogram lie between what the calls that returned have counted and
what those that began will have; the present call adds the difference. -/
structure Tracked (pid : Pid) (s : Watched) : Prop where
  finish : ∃ v, Solo (hpExec pid) s.hp s.view v ∧ Counts v.shared s.begun
  publishes : ∀ o ∈ s.hp, Publishes o
  settled : s.settled <:+ s.begun.counted
  durations : ∀ d ∈ s.begun.counted, d < 2 ^ 64
  samples : s.begun.counted.length < 2 ^ 32 →
    s.settled.length ≤ s.view.shared.hpIdleSamples.toNat ∧
      s.view.shared.hpIdleSamples.toNat + added .idleSamples s.hp = s.begun.counted.length
  bucket : s.begun.counted.length < 2 ^ 32 → ∀ i threshold,
    gIdleSurvivalThresholdsNs[i]? = some threshold →
    survivors s.settled threshold.toNat ≤ (s.view.shared.hpIdleSurvivalCounts i).toNat ∧
      (s.view.shared.hpIdleSurvivalCounts i).toNat + added (.idleSurvivalCount i) s.hp =
        survivors s.begun.counted threshold.toNat

section tracked

variable {pid : Pid} {s t : Watched}

/-- Between two calls the segment is what the history says. -/
theorem Tracked.counts (h : Tracked pid s) (hidle : s.hp = []) :
    Counts s.view.shared s.begun := by
  obtain ⟨v, hsolo, hcounts⟩ := h.finish
  rw [hidle] at hsolo
  cases hsolo
  exact hcounts

/-- A call of the HP process begins when the last one is over. -/
theorem Watched.call_some {load : HpOp} {call : HpTimingCall}
    (h : s.call pid load call = some t) :
    s.hp = [] ∧ t = { s with hp := (hpExec pid load s.view).2, begun := s.begun.call call } := by
  unfold Watched.call at h
  split at h
  next hidle => exact ⟨hidle, (Option.some.inj h).symm⟩
  next => cases h

/-- An access of the HP process is the next one of its call. -/
theorem Watched.access_some (h : s.access pid = some t) :
    ∃ o rest, s.hp = o :: rest ∧
      t = { s with
        view := (hpExec pid o s.view).1
        hp := (hpExec pid o s.view).2 ++ rest
        settled :=
          if (hpExec pid o s.view).2 ++ rest = [] then s.begun.counted else s.settled } := by
  unfold Watched.access at h
  split at h
  next => cases h
  next o rest hp => exact ⟨o, rest, hp, (Option.some.inj h).symm⟩

/-- A load is the next one of the snapshot. -/
theorem Watched.load_some (h : s.load = some t) :
    ∃ o rest timing before,
      s.reader = some { todo := o :: rest, timing := timing, before := before } ∧
      t = { s with
        reader := some
          { todo := rest, timing := timing.take s.view.shared o, before := before } } := by
  unfold Watched.load at h
  split at h
  next o rest timing before hreader =>
    exact ⟨o, rest, timing, before, hreader, (Option.some.inj h).symm⟩
  next => cases h

/-- A call begins that will leave the segment as `next` says. -/
theorem Tracked.called (h : Tracked pid s) (hidle : s.hp = []) {ops : List HpOp}
    {next : IdleHistory}
    (hfinish : ∃ v, Solo (hpExec pid) ops s.view v ∧ Counts v.shared next)
    (hpublishes : ∀ o ∈ ops, Publishes o) (hsuffix : s.begun.counted <:+ next.counted)
    (hdurations : ∀ d ∈ next.counted, d < 2 ^ 64)
    (hsamples : s.begun.counted.length + added .idleSamples ops = next.counted.length)
    (hbucket : ∀ i threshold, gIdleSurvivalThresholdsNs[i]? = some threshold →
      survivors s.begun.counted threshold.toNat + added (.idleSurvivalCount i) ops =
        survivors next.counted threshold.toNat) :
    Tracked pid { s with hp := ops, begun := next } := by
  refine
    { finish := hfinish, publishes := hpublishes, settled := h.settled.trans hsuffix
      durations := hdurations, samples := fun hlen => ?_
      bucket := fun hlen i threshold hi => ?_ }
  · obtain ⟨hle, heq⟩ := h.samples (Nat.lt_of_le_of_lt hsuffix.length_le hlen)
    rw [hidle, added_nil, Nat.add_zero] at heq
    exact ⟨hle, by rw [heq]; exact hsamples⟩
  · obtain ⟨hle, heq⟩ := h.bucket (Nat.lt_of_le_of_lt hsuffix.length_le hlen) i threshold hi
    rw [hidle, added_nil, Nat.add_zero] at heq
    exact ⟨hle, by rw [heq]; exact hbucket i threshold hi⟩

/-- The rest of a call, after its first load. -/
theorem solo_rest {load : HpOp} {v v' : HpView} (hload : (hpExec pid load v).1 = v)
    (h : Solo (hpExec pid) [load] v v') : Solo (hpExec pid) (hpExec pid load v).2 v v' := by
  cases h with
  | cons h => rwa [List.append_nil, hload] at h

/-- ACTIVE may end an idle period. -/
theorem Tracked.markActive (h : Tracked pid s) {now : UInt64}
    (hstep : s.step pid (.markActive now) = some t) : Tracked pid t := by
  obtain ⟨hidle, rfl⟩ := Watched.call_some hstep
  have hcounts := h.counts hidle
  refine h.called hidle ⟨_, solo_rest rfl (solo_markActive pid s.view now), ?_⟩
    (fun o ho => markActive_publishes ho) (counted_suffix_call _ now)
    (counted_call_lt h.durations now) (markActive_added_samples hcounts)
    fun i threshold hi => markActive_added_bucket hcounts hi
  exact hcounts.markActive now

/-- IDLE begins one. -/
theorem Tracked.markIdle (h : Tracked pid s) {now : UInt64}
    (hstep : s.step pid (.markIdle now) = some t) : Tracked pid t := by
  obtain ⟨hidle, rfl⟩ := Watched.call_some hstep
  have hcounts := h.counts hidle
  refine h.called hidle ⟨_, solo_rest rfl (solo_markIdle pid s.view now), ?_⟩
    (fun o ho => markIdle_publishes ho) (List.suffix_refl _) h.durations ?_
    fun i threshold hi => ?_
  · exact hcounts.markIdle now
  · rw [markIdle_added (show Histogram .idleSamples from trivial)]
    rfl
  · rw [markIdle_added (show Histogram (.idleSurvivalCount i) from trivial)]
    rfl

/-- A counter that an access adds to, or does not, below its range. -/
theorem raised_toNat {c : UInt64} {b : Bool} {n k : Nat}
    (h : c.toNat + (k + if b then 1 else 0) = n) (hn : n < 2 ^ 64) :
    (c + if b then 1 else 0).toNat + k = n := by
  cases b with
  | false => simpa using h
  | true =>
    have hone : (c + 1).toNat = c.toNat + 1 := by
      rw [UInt64.toNat_add]
      simp at h ⊢
      omega
    simp only [↓reduceIte] at h ⊢
    omega

/-- A counter that does not wrap is raised by one. -/
theorem raised_samples_toNat {c : UInt32} {b : Bool} {n k : Nat}
    (h : c.toNat + (k + if b then 1 else 0) = n) (hn : n < 2 ^ 32) :
    (c + if b then 1 else 0).toNat + k = n := by
  cases b with
  | false => simpa using h
  | true =>
    have hone : (c + 1).toNat = c.toNat + 1 := by
      rw [UInt32.toNat_add]
      simp at h ⊢
      omega
    simp only [↓reduceIte] at h ⊢
    omega

/-- The next access adds what it was to add. -/
theorem Tracked.access (h : Tracked pid s) (hstep : s.access pid = some t) :
    Tracked pid t := by
  obtain ⟨o, rest, hhp, rfl⟩ := Watched.access_some hstep
  have hpublishes := h.publishes
  have hfinish := h.finish
  rw [hhp] at hpublishes hfinish
  obtain ⟨ho, hrest⟩ := List.forall_mem_cons.mp hpublishes
  -- the call that returns has counted all it was to count
  have hsettled : ∀ settled, settled = (if (hpExec pid o s.view).2 ++ rest = [] then
      s.begun.counted else s.settled) →
      settled = s.settled ∨ rest = [] ∧ settled = s.begun.counted := by
    rintro _ rfl
    split
    next hnil => exact .inr ⟨(List.append_eq_nil_iff.mp hnil).2, rfl⟩
    next => exact .inl rfl
  refine
    { finish := ?_, publishes := ?_, settled := ?_, durations := h.durations
      samples := fun hlen => ?_, bucket := fun hlen i threshold hi => ?_ }
  · obtain ⟨v, hsolo, hcounts⟩ := hfinish
    cases hsolo with
    | cons hsolo => exact ⟨v, hsolo, hcounts⟩
  · intro o' ho'
    rcases List.mem_append.mp ho' with ho' | ho'
    · exact (hpExec_next ho ho').1
    · exact hrest o' ho'
  · dsimp only
    rcases hsettled _ rfl with heq | ⟨-, heq⟩ <;> rw [heq]
    exact h.settled
  · dsimp only at hlen ⊢
    obtain ⟨hle, heq⟩ := h.samples hlen
    rw [hhp, added_cons] at heq
    have hraised := raised_samples_toNat heq hlen
    rw [hpExec_samples ho, added_next ho]
    refine ⟨?_, hraised⟩
    rcases hsettled _ rfl with hs | ⟨rfl, hs⟩ <;> rw [hs]
    · omega
    · rw [added_nil] at hraised
      omega
  · dsimp only at hlen ⊢
    obtain ⟨hle, heq⟩ := h.bucket hlen i threshold hi
    rw [hhp, added_cons] at heq
    have hbound := survivors_le_length s.begun.counted threshold.toNat
    have hraised := raised_toNat heq (by omega)
    rw [hpExec_bucket ho, added_next ho]
    refine ⟨?_, hraised⟩
    rcases hsettled _ rfl with hs | ⟨rfl, hs⟩ <;> rw [hs]
    · omega
    · rw [added_nil] at hraised
      omega

/-- A load changes no word. -/
theorem Tracked.load (h : Tracked pid s) (hstep : s.load = some t) : Tracked pid t := by
  obtain ⟨o, rest, timing, before, -, rfl⟩ := Watched.load_some hstep
  exact { h with }

end tracked

/-- The words loaded so far: at least what had been counted when the snapshot began, at
most what is counted by now. -/
structure Bracketed (s : Watched) (r : Reading) : Prop where
  before : r.before <:+ s.settled
  samples : s.begun.counted.length < 2 ^ 32 → .stat .idleSamples ∉ r.todo →
    r.before.length ≤ r.timing.idleSamples.toNat ∧
      r.timing.idleSamples.toNat ≤ s.begun.counted.length
  bucket : s.begun.counted.length < 2 ^ 32 → ∀ i threshold,
    gIdleSurvivalThresholdsNs[i]? = some threshold →
    .stat (.idleSurvivalCount i) ∉ r.todo →
    survivors r.before threshold.toNat ≤ (r.timing.idleSurvivalCounts i).toNat ∧
      (r.timing.idleSurvivalCounts i).toNat ≤ survivors s.begun.counted threshold.toNat

section bracketed

variable {pid : Pid} {s t : Watched} {r : Reading}

/-- The HP process counts on: what was loaded is still in between. -/
theorem Bracketed.mono (h : Bracketed s r) (hsettled : s.settled <:+ t.settled)
    (hbegun : s.begun.counted <:+ t.begun.counted) : Bracketed t r := by
  have hlength := hbegun.length_le
  refine
    { before := h.before.trans hsettled
      samples := fun hlen hloaded => ?_, bucket := fun hlen i threshold hi hloaded => ?_ }
  · obtain ⟨hlow, hhigh⟩ := h.samples (by omega) hloaded
    exact ⟨hlow, hhigh.trans hlength⟩
  · obtain ⟨hlow, hhigh⟩ := h.bucket (by omega) i threshold hi hloaded
    exact ⟨hlow, hhigh.trans (survivors_le_of_suffix hbegun _)⟩

/-- The words that a load leaves as they are. -/
theorem take_idleSamples {m : EventShared} {t : HpTiming} {o : SnapshotLoad}
    (ho : o ≠ .stat .idleSamples) : (t.take m o).idleSamples = t.idleSamples := by
  cases o with
  | hpState => rfl
  | stat w => cases w <;> first | exact absurd rfl ho | rfl

/-- A load of another word leaves the bucket of the snapshot. -/
theorem take_idleSurvivalCounts {m : EventShared} {t : HpTiming} {o : SnapshotLoad} {i : Nat}
    (ho : o ≠ .stat (.idleSurvivalCount i)) :
    (t.take m o).idleSurvivalCounts i = t.idleSurvivalCounts i := by
  cases o with
  | hpState => rfl
  | stat w =>
    cases w with
    | idleSurvivalCount j => exact Function.update_of_ne (fun h => ho (by rw [h])) _ _
    | _ => rfl

/-- One load. -/
theorem Bracketed.load {o : SnapshotLoad} {rest : List SnapshotLoad}
    (ht : Tracked pid s) (h : Bracketed s r) (htodo : r.todo = o :: rest) :
    Bracketed s
      { todo := rest, timing := r.timing.take s.view.shared o, before := r.before } := by
  refine
    { before := h.before
      samples := fun hlen hloaded => ?_, bucket := fun hlen i threshold hi hloaded => ?_ }
  · by_cases ho : o = .stat .idleSamples
    · subst ho
      obtain ⟨hlow, hhigh⟩ := ht.samples hlen
      exact ⟨h.before.length_le.trans hlow, by simp only [HpTiming.take]; omega⟩
    · have hold := h.samples hlen (by rw [htodo]; simp [hloaded, Ne.symm ho])
      dsimp only
      rwa [take_idleSamples ho]
  · by_cases ho : o = .stat (.idleSurvivalCount i)
    · subst ho
      obtain ⟨hlow, hhigh⟩ := ht.bucket hlen i threshold hi
      simp only [HpTiming.take, Function.update_self]
      exact ⟨(survivors_le_of_suffix h.before _).trans hlow, by omega⟩
    · have hold := h.bucket hlen i threshold hi (by rw [htodo]; simp [hloaded, Ne.symm ho])
      dsimp only
      rwa [take_idleSurvivalCounts ho]

end bracketed

section estimate

variable {timing : HpTiming} {D : List Nat}

end estimate

end Lilt.Be
