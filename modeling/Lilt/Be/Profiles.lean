import Lilt.Be.Window
import Lilt.Lib.Probing

/-!
# The table of kernel profiles

What `event_be_predict_kernel_ns_locked`, the sampling of the duration-aware policies
and `event_be_retire_oldest_locked` do to `g_be_profiles`. The table is one with linear
probing, and an entry belongs to one kernel at one number of blocks for good.

- `learnDurations`: the update rule, folded over the durations of one kernel.
- `ProfileTable`: the table keeps count of the sampled launches that are not retired
  yet, and has learnt the durations that were accepted.
- `ProfileTable.lookup`, `ProfileTable.reserve`, `ProfileTable.release`,
  `ProfileTable.learn`: what each operation does to both.
-/

namespace Lilt.Be

open Lilt.Driver Gpu

/-- What an entry is for. -/
@[ext] structure KernelKey where
  function : CUfunction
  blocks : UInt64
  deriving DecidableEq

def KernelKey.hash (k : KernelKey) : Nat := eventBeProfileHash k.function k.blocks

def KernelProfile.key (p : KernelProfile) : KernelKey := ⟨p.function, p.blocks⟩

/-- An entry that was never used. -/
def KernelProfile.blank : KernelProfile where
  function := 0
  blocks := 0
  durationEwmaNs := 0
  samples := 0
  pendingSamples := 0
  occupied := false

/-! ## The update rule -/

/-- The number of samples and their average behind a further duration. -/
def learnDuration (learned : Nat × UInt64) (durationNs : UInt64) : Nat × UInt64 :=
  (learned.1 + 1,
    if learned.1 = 0 then durationNs
    else if learned.2 ≤ durationNs then learned.2 + (durationNs - learned.2) / 4
    else learned.2 - (learned.2 - durationNs) / 4)

def learnDurations (durations : List UInt64) : Nat × UInt64 := durations.foldl learnDuration (0, 0)

@[simp] theorem learnDurations_nil : learnDurations [] = (0, 0) := rfl

@[simp] theorem learnDurations_snoc (ds : List UInt64) (d : UInt64) :
    learnDurations (ds ++ [d]) = learnDuration (learnDurations ds) d := by
  simp [learnDurations]

/-- What the entry learnt. -/
def KernelProfile.learned (p : KernelProfile) : Nat × UInt64 := (p.samples, p.durationEwmaNs)

def KernelProfile.learn (p : KernelProfile) (durationNs : UInt64) : KernelProfile :=
  { p with
    samples := (learnDuration p.learned durationNs).1 % 2 ^ 32
    durationEwmaNs := (learnDuration p.learned durationNs).2 }

/-- The count of samples does not wrap. -/
theorem KernelProfile.learn_learned {p : KernelProfile} (h : p.samples + 1 < 2 ^ 32)
    (durationNs : UInt64) : (p.learn durationNs).learned = learnDuration p.learned durationNs := by
  have hsamples : (p.learn durationNs).samples = p.samples + 1 := Nat.mod_eq_of_lt h
  unfold KernelProfile.learned
  rw [hsamples]
  rfl

def KernelProfile.reserve (p : KernelProfile) : KernelProfile :=
  { p with pendingSamples := p.pendingSamples + 1 }

def KernelProfile.release (p : KernelProfile) : KernelProfile :=
  { p with pendingSamples := p.pendingSamples - 1 }

/-- A pending sample is given back. -/
theorem releasePending_eq (w : BeWindow) (i : Nat) :
    releasePending w i = w.setProfile i (w.profiles i).release := by
  unfold releasePending
  split
  next => rfl
  next h =>
    -- nothing to release
    have hsame : (w.profiles i).release = w.profiles i := by
      have hzero : (w.profiles i).pendingSamples - 1 = (w.profiles i).pendingSamples := by omega
      unfold KernelProfile.release
      rw [hzero]
    rw [hsame, BeWindow.setProfile, Function.update_eq_self]

/-- A duration is learnt by the entry of its kernel. -/
theorem updateProfile_eq {w : BeWindow} {i : Nat} {d : UInt64} (hi : i < eventBeProfileTableSize)
    (hd : d ≠ 0) (hocc : (w.profiles i).occupied = true) :
    eventBeUpdateProfileLocked w i d = w.setProfile i ((w.profiles i).learn d) := by
  have hguard : ¬ (eventBeProfileTableSize ≤ i ∨ d = 0) := by
    rintro (h | h)
    · exact absurd hi (Nat.not_lt.mpr h)
    · exact hd h
  unfold eventBeUpdateProfileLocked
  rw [if_neg hguard]
  dsimp only
  rw [if_pos hocc]
  rfl

/-- A duration of zero is not learnt. -/
theorem updateProfile_zero (w : BeWindow) (i : Nat) : eventBeUpdateProfileLocked w i 0 = w := by
  unfold eventBeUpdateProfileLocked
  rw [if_pos (.inr rfl)]

/-! ## Lookup -/

/-- The entry is in use. -/
def KernelProfile.Used (p : KernelProfile) : Prop := p.occupied = true

/-- The search for the key walked over `n` entries of others. -/
abbrev ProfilesPassed : (Nat → KernelProfile) → KernelKey → Nat → Prop :=
  Probing.Passed KernelProfile.Used KernelProfile.key eventBeProfileTableSize KernelKey.hash

/-- Where the search for the key looks next. -/
def KernelKey.cell (k : KernelKey) (n : Nat) : Nat := Ring.cell eventBeProfileTableSize k.hash n

/-- How the search for a key ends that may create an entry. -/
inductive LookupEffect (profiles : Nat → KernelProfile) (k : KernelKey) :
    Option Nat × (Nat → KernelProfile) → Prop where
  | found (n : Nat) (hn : n < eventBeProfileTableSize)
      (hused : (profiles (k.cell n)).occupied = true) (hkey : (profiles (k.cell n)).key = k) :
      LookupEffect profiles k (some (k.cell n), profiles)
  | created (n : Nat) (hn : n < eventBeProfileTableSize) (hfunction : k.function ≠ 0)
      (hpassed : ProfilesPassed profiles k n)
      (hfree : (profiles (k.cell n)).occupied = false) :
      LookupEffect profiles k (some (k.cell n), Function.update profiles (k.cell n)
        { profiles (k.cell n) with function := k.function, blocks := k.blocks, occupied := true })
  | none (h : k.function = 0 ∨ ProfilesPassed profiles k eventBeProfileTableSize) :
      LookupEffect profiles k (none, profiles)

/-- How a call of `event_be_profile_lookup_locked` for a key ends. -/
inductive SearchEnd (profiles : Nat → KernelProfile) (k : KernelKey) (create : Bool) :
    Option Nat × (Nat → KernelProfile) → Prop where
  | null (h : k.function = 0) : SearchEnd profiles k create (none, profiles)
  | found (n : Nat) (hn : n < eventBeProfileTableSize)
      (hused : (profiles (k.cell n)).occupied = true) (hkey : (profiles (k.cell n)).key = k) :
      SearchEnd profiles k create (some (k.cell n), profiles)
  | created (n : Nat) (hn : n < eventBeProfileTableSize) (hcreate : create = true)
      (hfunction : k.function ≠ 0) (hpassed : ProfilesPassed profiles k n)
      (hfree : (profiles (k.cell n)).occupied = false) :
      SearchEnd profiles k create (some (k.cell n), Function.update profiles (k.cell n)
        { profiles (k.cell n) with function := k.function, blocks := k.blocks, occupied := true })
  | missing (n : Nat) (hcreate : create = false) (hpassed : ProfilesPassed profiles k n)
      (hfree : (profiles (k.cell n)).occupied = false) :
      SearchEnd profiles k create (none, profiles)
  | full (hpassed : ProfilesPassed profiles k eventBeProfileTableSize) :
      SearchEnd profiles k create (none, profiles)

/-- The probing from a place on ends at the entry, at a free place or nowhere. -/
theorem profileProbe_end {profiles : Nat → KernelProfile} {k : KernelKey} (create : Bool)
    (hfunction : k.function ≠ 0) (left : Nat) (hleft : left ≤ eventBeProfileTableSize)
    (hpassed : ProfilesPassed profiles k (eventBeProfileTableSize - left)) :
    SearchEnd profiles k create
      (profileProbe profiles k.function k.blocks create k.hash left) := by
  induction left with
  | zero => exact .full hpassed
  | succ left ih =>
    unfold profileProbe
    generalize hn : eventBeProfileTableSize - (left + 1) = n at hpassed ⊢
    have hlt : n < eventBeProfileTableSize := by omega
    have hnext : eventBeProfileTableSize - left = n + 1 := by omega
    change SearchEnd profiles k create
      (let profile := profiles (k.cell n)
        if profile.occupied then
          if profile.function = k.function ∧ profile.blocks = k.blocks then
            (some (k.cell n), profiles)
          else profileProbe profiles k.function k.blocks create k.hash left
        else if create then
          (some (k.cell n), Function.update profiles (k.cell n)
            { profile with function := k.function, blocks := k.blocks, occupied := true })
        else (Option.none, profiles))
    dsimp only
    split
    next hused =>
      split
      next hkey => exact .found n hlt hused (KernelKey.ext hkey.1 hkey.2)
      next hkey =>
        refine ih (Nat.le_of_succ_le hleft) ?_
        rw [hnext]
        refine hpassed.succ hused fun heq => hkey ?_
        exact ⟨congrArg KernelKey.function heq, congrArg KernelKey.blocks heq⟩
    next hfree =>
      have hfree := Bool.eq_false_iff.mpr hfree
      split
      next hcreate => exact .created n hlt hcreate hfunction hpassed hfree
      next hcreate => exact .missing n (Bool.eq_false_iff.mpr hcreate) hpassed hfree

/-- So does a lookup. -/
theorem lookup_end (profiles : Nat → KernelProfile) (k : KernelKey) (create : Bool) :
    SearchEnd profiles k create
      (eventBeProfileLookupLocked profiles k.function k.blocks create) := by
  unfold eventBeProfileLookupLocked
  by_cases hfunction : k.function = 0
  · rw [if_pos hfunction]
    exact .null hfunction
  · rw [if_neg hfunction]
    refine profileProbe_end create hfunction _ (Nat.le_refl _) ?_
    rw [Nat.sub_self]
    exact Probing.passed_zero

/-- A lookup that may create has one of three effects. -/
theorem lookup_effect (profiles : Nat → KernelProfile) (k : KernelKey) :
    LookupEffect profiles k (eventBeProfileLookupLocked profiles k.function k.blocks true) := by
  have hend := lookup_end profiles k true
  generalize eventBeProfileLookupLocked profiles k.function k.blocks true = r at hend ⊢
  cases hend with
  | null h => exact .none (.inl h)
  | found n hn hused hkey => exact .found n hn hused hkey
  | created n hn _ hfunction hpassed hfree => exact .created n hn hfunction hpassed hfree
  | missing n hcreate => exact absurd hcreate.symm Bool.false_ne_true
  | full hpassed => exact .none (.inr hpassed)

/-! ## The table and what it stands for -/

/-- No entry is lost and none changes its key. -/
def KeepsEntries (profiles profiles' : Nat → KernelProfile) : Prop :=
  ∀ i, (profiles i).occupied = true →
    (profiles' i).occupied = true ∧ (profiles' i).key = (profiles i).key

/-- A table keeps its own entries. -/
theorem KeepsEntries.refl (profiles : Nat → KernelProfile) : KeepsEntries profiles profiles :=
  fun _ hi => ⟨hi, rfl⟩

/-- Writing an entry for the key it had. -/
theorem KeepsEntries.update {profiles : Nat → KernelProfile} {i : Nat} {p : KernelProfile}
    (h : (profiles i).occupied = true → p.occupied = true ∧ p.key = (profiles i).key) :
    KeepsEntries profiles (Function.update profiles i p) := by
  intro j hj
  by_cases hji : j = i
  · subst hji
    rw [Function.update_self]
    exact h hj
  · rw [Function.update_of_ne hji]
    exact ⟨hj, rfl⟩

/-- The key has an entry. -/
def HasEntry (profiles : Nat → KernelProfile) (k : KernelKey) : Prop :=
  ∃ i, (profiles i).occupied = true ∧ (profiles i).key = k

/-- An entry that is kept is there. -/
theorem HasEntry.keep {profiles profiles' : Nat → KernelProfile} {k : KernelKey}
    (h : HasEntry profiles k) (hkeeps : KeepsEntries profiles profiles') :
    HasEntry profiles' k := by
  obtain ⟨i, hi, rfl⟩ := h
  exact ⟨i, hkeeps i hi⟩

/-- The durations of one kernel. -/
def durationsOf (accepted : List (KernelKey × UInt64)) (k : KernelKey) : List UInt64 :=
  (accepted.filter (·.1 = k)).map (·.2)

/-- The table keeps count of the sampled launches that are not retired, which have the
keys `pending`, and has learnt the durations `accepted` of the ones that are. -/
structure ProfileTable (profiles : Nat → KernelProfile) (pending : List KernelKey)
    (accepted : List (KernelKey × UInt64)) : Prop where
  placed : Probing.Placed KernelProfile.Used KernelProfile.key eventBeProfileTableSize
    KernelKey.hash profiles
  named : ∀ i, (profiles i).occupied = true → (profiles i).function ≠ 0
  unused : ∀ i, (profiles i).occupied = false → profiles i = .blank
  pending_entry : ∀ k ∈ pending, HasEntry profiles k
  accepted_entry : ∀ x ∈ accepted, HasEntry profiles x.1
  pending_eq : ∀ i, (profiles i).pendingSamples = pending.count (profiles i).key
  learned_eq : ∀ i, (profiles i).learned = learnDurations (durationsOf accepted (profiles i).key)
  bound : ∀ i, (profiles i).samples + (profiles i).pendingSamples ≤ eventBeProfileSamples

namespace ProfileTable

variable {profiles profiles' : Nat → KernelProfile} {pending pending' : List KernelKey}
  {accepted accepted' : List (KernelKey × UInt64)} {k : KernelKey} {i j : Nat}

/-- An empty table stands for no sample. -/
theorem initial : ProfileTable (fun _ => .blank) [] [] :=
  { placed := .empty fun _ => Bool.false_ne_true
    named := fun _ hi => absurd hi Bool.false_ne_true
    unused := fun _ _ => rfl
    pending_entry := fun _ hk => absurd hk List.not_mem_nil
    accepted_entry := fun _ hx => absurd hx List.not_mem_nil
    pending_eq := fun _ => rfl
    learned_eq := fun _ => rfl
    bound := fun _ => Nat.zero_le _ }

/-- No other entry has the key of an entry that is in use. -/
theorem eq_of_key (h : ProfileTable profiles pending accepted)
    (hi : (profiles i).occupied = true) (hkey : (profiles j).key = (profiles i).key) : j = i := by
  by_cases hj : (profiles j).occupied = true
  · exact h.placed.unique hj hi hkey
  · -- a blank entry has the function NULL
    rw [h.unused j (Bool.eq_false_iff.mpr hj)] at hkey
    exact absurd (congrArg KernelKey.function hkey).symm (h.named i hi)

/-- Entries are in the table. -/
theorem lt (h : ProfileTable profiles pending accepted) (hi : (profiles i).occupied = true) :
    i < eventBeProfileTableSize := h.placed.lt hi

/-- The key is not in the table yet. -/
theorem absent (h : ProfileTable profiles pending accepted) (hk : ¬ HasEntry profiles k) :
    pending.count k = 0 ∧ durationsOf accepted k = [] := by
  constructor
  · exact List.count_eq_zero.mpr fun hmem => hk (h.pending_entry k hmem)
  · unfold durationsOf
    rw [List.map_eq_nil_iff, List.filter_eq_nil_iff]
    intro x hx hxk
    obtain rfl := of_decide_eq_true hxk
    exact hk (h.accepted_entry x hx)

/-- A new entry. -/
theorem create (h : ProfileTable profiles pending accepted) {n : Nat}
    (hn : n < eventBeProfileTableSize) (hfunction : k.function ≠ 0)
    (hpassed : ProfilesPassed profiles k n) (hfree : (profiles (k.cell n)).occupied = false) :
    ProfileTable (Function.update profiles (k.cell n)
      { profiles (k.cell n) with function := k.function, blocks := k.blocks, occupied := true })
      pending accepted := by
  have hnot : ¬ KernelProfile.Used (profiles (k.cell n)) := Bool.eq_false_iff.mp hfree
  have habsent : ¬ HasEntry profiles k := by
    rintro ⟨j, hj, hkey⟩
    exact h.placed.absent_of_free hpassed hnot j hj hkey
  obtain ⟨hcount, hdurations⟩ := h.absent habsent
  rw [h.unused _ hfree]
  have hkeeps : KeepsEntries profiles (Function.update profiles (k.cell n)
      { KernelProfile.blank with
        function := k.function, blocks := k.blocks, occupied := true }) :=
    .update fun hused => absurd hused hnot
  refine { placed := h.placed.insert hn hpassed hnot rfl, named := fun j hj => ?_
           unused := fun j hj => ?_, pending_entry := fun k' hk' => ?_
           accepted_entry := fun x hx => ?_, pending_eq := fun j => ?_
           learned_eq := fun j => ?_, bound := fun j => ?_ }
  · by_cases hj' : j = k.cell n
    · subst hj'
      rw [Function.update_self]
      exact hfunction
    · rw [Function.update_of_ne hj'] at hj ⊢
      exact h.named j hj
  · by_cases hj' : j = k.cell n
    · subst hj'
      rw [Function.update_self] at hj
      exact absurd hj.symm Bool.false_ne_true
    · rw [Function.update_of_ne hj'] at hj ⊢
      exact h.unused j hj
  · exact (h.pending_entry k' hk').keep hkeeps
  · exact (h.accepted_entry x hx).keep hkeeps
  · by_cases hj' : j = k.cell n
    · subst hj'
      rw [Function.update_self]
      exact hcount.symm
    · rw [Function.update_of_ne hj']
      exact h.pending_eq j
  · by_cases hj' : j = k.cell n
    · subst hj'
      rw [Function.update_self]
      show (0, 0) = learnDurations (durationsOf accepted k)
      rw [hdurations]
      rfl
    · rw [Function.update_of_ne hj']
      exact h.learned_eq j
  · by_cases hj' : j = k.cell n
    · subst hj'
      rw [Function.update_self]
      exact Nat.zero_le _
    · rw [Function.update_of_ne hj']
      exact h.bound j

/-- How a lookup that may create an entry ends, for the table. -/
theorem lookup (h : ProfileTable profiles pending accepted) {r : Option Nat × (Nat → KernelProfile)}
    (heffect : LookupEffect profiles k r) :
    ProfileTable r.2 pending accepted ∧ KeepsEntries profiles r.2 ∧
      ∀ i, r.1 = some i → (r.2 i).occupied = true ∧ (r.2 i).key = k := by
  cases heffect with
  | found n hn hused hkey =>
    refine ⟨h, .refl _, ?_⟩
    rintro i ⟨⟩
    exact ⟨hused, hkey⟩
  | created n hn hfunction hpassed hfree =>
    refine ⟨h.create hn hfunction hpassed hfree, .update fun hused => ?_, ?_⟩
    · rw [hfree] at hused
      exact absurd hused Bool.false_ne_true
    · rintro i ⟨⟩
      dsimp only
      rw [Function.update_self]
      exact ⟨rfl, rfl⟩
  | none hnone =>
    refine ⟨h, .refl _, ?_⟩
    rintro i ⟨⟩

/-- Writing an entry that is in use: what is counted and learnt for other keys must be
as before. -/
theorem update (h : ProfileTable profiles pending accepted)
    (hi : (profiles i).occupied = true) {p : KernelProfile} (hocc : p.occupied = true)
    (hkey : p.key = (profiles i).key)
    (hpending : ∀ k ∈ pending', HasEntry profiles k)
    (haccepted : ∀ x ∈ accepted', HasEntry profiles x.1)
    (hothers : ∀ k, k ≠ (profiles i).key →
      pending'.count k = pending.count k ∧ durationsOf accepted' k = durationsOf accepted k)
    (hcount : p.pendingSamples = pending'.count (profiles i).key)
    (hlearned : p.learned = learnDurations (durationsOf accepted' (profiles i).key))
    (hbound : p.samples + p.pendingSamples ≤ eventBeProfileSamples) :
    ProfileTable (Function.update profiles i p) pending' accepted' := by
  have hkeeps : KeepsEntries profiles (Function.update profiles i p) :=
    .update fun _ => ⟨hocc, hkey⟩
  have hsameKey : ∀ j, (Function.update profiles i p j).key = (profiles j).key := by
    intro j
    by_cases hj : j = i
    · rw [hj, Function.update_self]
      exact hkey
    · rw [Function.update_of_ne hj]
  have hother : ∀ j, j ≠ i → (profiles j).key ≠ (profiles i).key :=
    fun j hj heq => hj (h.eq_of_key hi heq)
  refine { placed := h.placed.of_same (fun j => ?_) hsameKey, named := fun j hj => ?_
           unused := fun j hj => ?_, pending_entry := fun k hk => (hpending k hk).keep hkeeps
           accepted_entry := fun x hx => (haccepted x hx).keep hkeeps, pending_eq := fun j => ?_
           learned_eq := fun j => ?_, bound := fun j => ?_ }
  · by_cases hj : j = i
    · rw [hj, Function.update_self]
      exact iff_of_true hocc hi
    · rw [Function.update_of_ne hj]
  · by_cases hji : j = i
    · rw [hji, Function.update_self]
      have hfunction : p.function = (profiles i).function := congrArg KernelKey.function hkey
      rw [hfunction]
      exact h.named i hi
    · rw [Function.update_of_ne hji] at hj ⊢
      exact h.named j hj
  · by_cases hji : j = i
    · rw [hji, Function.update_self, hocc] at hj
      exact absurd hj.symm Bool.false_ne_true
    · rw [Function.update_of_ne hji] at hj ⊢
      exact h.unused j hj
  · rw [hsameKey j]
    by_cases hj : j = i
    · rw [hj, Function.update_self]
      exact hcount
    · rw [Function.update_of_ne hj, (hothers _ (hother j hj)).1]
      exact h.pending_eq j
  · rw [hsameKey j]
    by_cases hj : j = i
    · rw [hj, Function.update_self]
      exact hlearned
    · rw [Function.update_of_ne hj, (hothers _ (hother j hj)).2]
      exact h.learned_eq j
  · by_cases hj : j = i
    · rw [hj, Function.update_self]
      exact hbound
    · rw [Function.update_of_ne hj]
      exact h.bound j

/-- A sample is begun. -/
theorem reserve (h : ProfileTable profiles pending accepted) (hi : (profiles i).occupied = true)
    (hroom : (profiles i).samples + (profiles i).pendingSamples < eventBeProfileSamples) :
    ProfileTable (Function.update profiles i (profiles i).reserve)
      (pending ++ [(profiles i).key]) accepted := by
  refine h.update hi hi rfl (fun k hk => ?_) h.accepted_entry (fun k hk => ⟨?_, rfl⟩) ?_
    (h.learned_eq i) hroom
  · rcases List.mem_append.mp hk with hk | hk
    · exact h.pending_entry k hk
    · rw [List.mem_singleton.mp hk]
      exact ⟨i, hi, rfl⟩
  · rw [List.count_append, List.count_singleton, if_neg (by simpa using hk.symm), Nat.add_zero]
  · rw [List.count_append, List.count_singleton_self, ← h.pending_eq i]
    rfl

/-- A sample is over or given up, and there is room for another. -/
theorem release (h : ProfileTable profiles pending accepted) (hi : (profiles i).occupied = true)
    (hperm : pending.Perm ((profiles i).key :: pending')) :
    ProfileTable (Function.update profiles i (profiles i).release) pending' accepted ∧
      (profiles i).release.samples + (profiles i).release.pendingSamples <
        eventBeProfileSamples := by
  have hcount : (profiles i).pendingSamples = pending'.count (profiles i).key + 1 := by
    rw [h.pending_eq i, hperm.count_eq, List.count_cons_self]
  have hrelease : (profiles i).release.pendingSamples = pending'.count (profiles i).key := by
    show (profiles i).pendingSamples - 1 = _
    rw [hcount]
    rfl
  have hbound : (profiles i).release.samples + (profiles i).release.pendingSamples <
      eventBeProfileSamples := by
    have hle := h.bound i
    rw [hrelease]
    show (profiles i).samples + _ < _
    omega
  refine ⟨?_, hbound⟩
  refine h.update hi hi rfl (fun k hk => ?_) h.accepted_entry (fun k hk => ⟨?_, rfl⟩) hrelease
    (h.learned_eq i) (Nat.le_of_lt hbound)
  · exact h.pending_entry k (hperm.mem_iff.mpr (List.mem_cons_of_mem _ hk))
  · rw [hperm.count_eq, List.count_cons_of_ne hk.symm]

/-- A duration is accepted. -/
theorem learn (h : ProfileTable profiles pending accepted) (hi : (profiles i).occupied = true)
    (hroom : (profiles i).samples + (profiles i).pendingSamples < eventBeProfileSamples)
    (d : UInt64) :
    ProfileTable (Function.update profiles i ((profiles i).learn d)) pending
      (accepted ++ [((profiles i).key, d)]) := by
  have hdurations : ∀ k, durationsOf (accepted ++ [((profiles i).key, d)]) k =
      durationsOf accepted k ++ if (profiles i).key = k then [d] else [] := by
    intro k
    unfold durationsOf
    rw [List.filter_append, List.map_append]
    by_cases hk : (profiles i).key = k <;> simp [hk]
  have hlearned : ((profiles i).learn d).learned = learnDuration (profiles i).learned d := by
    refine KernelProfile.learn_learned ?_ d
    unfold eventBeProfileSamples at hroom
    omega
  refine h.update hi hi rfl h.pending_entry (fun x hx => ?_) (fun k hk => ⟨rfl, ?_⟩)
    (h.pending_eq i) ?_ ?_
  · rcases List.mem_append.mp hx with hx | hx
    · exact h.accepted_entry x hx
    · rw [List.mem_singleton.mp hx]
      exact ⟨i, hi, rfl⟩
  · rw [hdurations, if_neg hk.symm, List.append_nil]
  · rw [hdurations, if_pos rfl, learnDurations_snoc, ← h.learned_eq i, hlearned]
  · have hsamples : ((profiles i).learn d).samples = (profiles i).samples + 1 :=
      congrArg Prod.fst hlearned
    have hpending : ((profiles i).learn d).pendingSamples = (profiles i).pendingSamples := rfl
    rw [hsamples, hpending]
    omega

end ProfileTable

/-! ## Kernels without an entry -/

/-- The kernel has no profile: its function is NULL or the table is full of others. -/
def Unprofiled (profiles : Nat → KernelProfile) (k : KernelKey) : Prop :=
  k.function = 0 ∨
    ∀ i < eventBeProfileTableSize, (profiles i).occupied = true ∧ (profiles i).key ≠ k

/-- It gets none later. -/
theorem Unprofiled.keep {profiles profiles' : Nat → KernelProfile} {k : KernelKey}
    (h : Unprofiled profiles k) (hkeeps : KeepsEntries profiles profiles') :
    Unprofiled profiles' k := by
  rcases h with h | h
  · exact .inl h
  · refine .inr fun i hi => ?_
    obtain ⟨hocc, hkey⟩ := hkeeps i (h i hi).1
    exact ⟨hocc, hkey ▸ (h i hi).2⟩

/-- A kernel without a profile has no entry. -/
theorem Unprofiled.not_hasEntry {profiles : Nat → KernelProfile} {pending : List KernelKey}
    {accepted : List (KernelKey × UInt64)} {k : KernelKey} (h : Unprofiled profiles k)
    (htable : ProfileTable profiles pending accepted) : ¬ HasEntry profiles k := by
  rintro ⟨i, hi, rfl⟩
  rcases h with h | h
  · exact htable.named i hi h
  · exact (h i (htable.lt hi)).2 rfl

/-- Its lookup finds nothing and creates nothing. -/
theorem Unprofiled.lookup {profiles : Nat → KernelProfile} {k : KernelKey}
    (h : Unprofiled profiles k) {pending : List KernelKey}
    {accepted : List (KernelKey × UInt64)} (htable : ProfileTable profiles pending accepted)
    {r : Option Nat × (Nat → KernelProfile)} (heffect : LookupEffect profiles k r) :
    r = (none, profiles) := by
  cases heffect with
  | found n hn hused hkey => exact absurd ⟨_, hused, hkey⟩ (h.not_hasEntry htable)
  | created n hn hfunction hpassed hfree =>
    rcases h with h | h
    · exact absurd h hfunction
    · have hlt : k.cell n < eventBeProfileTableSize := Nat.mod_lt _ (Nat.zero_lt_of_lt hn)
      rw [(h _ hlt).1] at hfree
      exact absurd hfree.symm Bool.false_ne_true
  | none => rfl

end Lilt.Be
