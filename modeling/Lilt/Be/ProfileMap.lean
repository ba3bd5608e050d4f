import Lilt.Be.Profiles

/-!
# The table of kernel profiles as a map

`event_be_profile_lookup_locked` gives each kernel at each number of blocks an index of
its own, as long as there are entries left. Nothing else changes which entry a kernel
has.

- `LookupCall`, `tableAfter`, `indexAfter`: calls from the empty table.
- `Stored`: a kernel was given an entry.
- `MapInv`, `mapInv_tableAfter`: the entries are those of the stored kernels.
- `profile_table_is_map`: what the callers may rely on.
-/

namespace Lilt.Be

open Lilt.Driver

/-! ## Calls from the empty table -/

/-- The arguments of a call of `event_be_profile_lookup_locked`. -/
structure LookupCall where
  key : KernelKey
  create : Bool

def LookupCall.exec (profiles : Nat → KernelProfile) (c : LookupCall) :
    Option Nat × (Nat → KernelProfile) :=
  eventBeProfileLookupLocked profiles c.key.function c.key.blocks c.create

/-- The table that a list of calls leaves. -/
def tableAfter (calls : List LookupCall) : Nat → KernelProfile :=
  calls.foldl (fun profiles c => (c.exec profiles).2) fun _ => .blank

/-- The index that a call is given behind a list of others; `none` for `-1`. -/
def indexAfter (calls : List LookupCall) (c : LookupCall) : Option Nat :=
  (c.exec (tableAfter calls)).1

/-- A call stored the key. -/
def Stored (calls : List LookupCall) (k : KernelKey) : Prop :=
  ∃ before c after, calls = before ++ c :: after ∧ c.key = k ∧ c.create = true ∧
    (indexAfter before c).isSome = true

/-- The later calls run on the table the first ones leave. -/
theorem tableAfter_append (calls rest : List LookupCall) :
    tableAfter (calls ++ rest) =
      rest.foldl (fun profiles c => (c.exec profiles).2) (tableAfter calls) :=
  List.foldl_append

/-- The last call runs on the table before it. -/
@[simp] theorem tableAfter_snoc (calls : List LookupCall) (c : LookupCall) :
    tableAfter (calls ++ [c]) = (c.exec (tableAfter calls)).2 := by
  rw [tableAfter_append]
  rfl

/-- A key is stored by the last call or was before it. -/
theorem stored_snoc {calls : List LookupCall} {c : LookupCall} {k : KernelKey} :
    Stored (calls ++ [c]) k ↔ Stored calls k ∨
      c.key = k ∧ c.create = true ∧ (indexAfter calls c).isSome = true := by
  constructor
  · rintro ⟨before, c', after, heq, hstored⟩
    rcases List.eq_nil_or_concat after with rfl | ⟨after, last, rfl⟩
    · obtain ⟨rfl, hc⟩ := List.append_inj' heq rfl
      obtain rfl := List.singleton_inj.mp hc
      exact .inr hstored
    · rw [List.concat_eq_append, ← List.cons_append, ← List.append_assoc] at heq
      obtain ⟨rfl, -⟩ := List.append_inj' heq rfl
      exact .inl ⟨before, c', after, rfl, hstored⟩
  · rintro (⟨before, c', after, rfl, hstored⟩ | hstored)
    · exact ⟨before, c', after ++ [c], by rw [List.append_assoc, List.cons_append], hstored⟩
    · exact ⟨calls, c, [], rfl, hstored⟩

/-! ## What a call does -/

/-- Every entry is where a search finds it, and none is for `NULL`. -/
structure TablePlaced (profiles : Nat → KernelProfile) : Prop where
  placed : Probing.Placed KernelProfile.Used KernelProfile.key eventBeProfileTableSize
    KernelKey.hash profiles
  named : ∀ i, (profiles i).occupied = true → (profiles i).function ≠ 0

section call

variable {profiles : Nat → KernelProfile} {c : LookupCall} {i : Nat}

/-- Every call ends its search in one of the ways a search ends. -/
theorem exec_end (profiles : Nat → KernelProfile) (c : LookupCall) :
    SearchEnd profiles c.key c.create (c.exec profiles) := lookup_end profiles c.key c.create

/-- A call for a key that has an entry finds it. -/
theorem TablePlaced.exec_of_entry (h : TablePlaced profiles)
    (hi : (profiles i).occupied = true) (hkey : (profiles i).key = c.key) :
    c.exec profiles = (some i, profiles) := by
  have hend := exec_end profiles c
  generalize c.exec profiles = r at hend ⊢
  cases hend with
  | null hnull =>
    refine absurd ?_ (h.named i hi)
    rw [← hnull, ← hkey]
    rfl
  | found n _ hused hfound =>
    rw [h.placed.unique hi hused (hkey.trans hfound.symm)]
  | created n _ _ _ hpassed hfree | missing n _ hpassed hfree =>
    have hnot : ¬ KernelProfile.Used (profiles (c.key.cell n)) := Bool.eq_false_iff.mp hfree
    exact absurd hkey (h.placed.absent_of_free hpassed hnot i hi)
  | full hpassed => exact absurd hkey (hpassed.everywhere (h.placed.lt hi)).2

/-- A call for a key that has none: it gets a new entry, or there is none left, or it is
not to. -/
inductive AbsentEnd (profiles : Nat → KernelProfile) (c : LookupCall) :
    Option Nat × (Nat → KernelProfile) → Prop where
  | created (i : Nat) (hcreate : c.create = true) (hfree : (profiles i).occupied = false)
      (p : KernelProfile) (hused : p.occupied = true) (hkey : p.key = c.key) :
      AbsentEnd profiles c (some i, Function.update profiles i p)
  | none (h : c.create = false ∨ c.key.function = 0 ∨
        ∀ i < eventBeProfileTableSize, (profiles i).occupied = true) :
      AbsentEnd profiles c (none, profiles)

/-- What a call with a key that has no entry does. -/
theorem exec_of_absent (habsent : ¬ HasEntry profiles c.key) :
    AbsentEnd profiles c (c.exec profiles) := by
  have hend := exec_end profiles c
  generalize c.exec profiles = r at hend ⊢
  cases hend with
  | null hnull => exact .none (.inr (.inl hnull))
  | found n _ hused hkey => exact absurd ⟨_, hused, hkey⟩ habsent
  | created n _ hcreate _ _ hfree => exact .created _ hcreate hfree _ rfl rfl
  | missing n hcreate => exact .none (.inl hcreate)
  | full hpassed => exact .none (.inr (.inr fun i hi => (hpassed.everywhere hi).1))

/-- A call keeps every entry on the probing path of its key. -/
theorem TablePlaced.exec (h : TablePlaced profiles) (c : LookupCall) :
    TablePlaced (c.exec profiles).2 := by
  have hend := exec_end profiles c
  generalize c.exec profiles = r at hend ⊢
  cases hend with
  | created n hn _ hfunction hpassed hfree =>
    have hnot : ¬ KernelProfile.Used (profiles (c.key.cell n)) := Bool.eq_false_iff.mp hfree
    refine { placed := h.placed.insert hn hpassed hnot rfl, named := fun j hj => ?_ }
    dsimp only at hj ⊢
    by_cases hjn : j = c.key.cell n
    · subst hjn
      rw [Function.update_self]
      exact hfunction
    · rw [Function.update_of_ne hjn] at hj ⊢
      exact h.named j hj
  | _ => exact h

/-- A call keeps all entries, and the key has the entry that it returned. -/
theorem TablePlaced.exec_keeps (h : TablePlaced profiles) (c : LookupCall) :
    KeepsEntries profiles (c.exec profiles).2 ∧ ∀ i, (c.exec profiles).1 = some i →
      ((c.exec profiles).2 i).occupied = true ∧ ((c.exec profiles).2 i).key = c.key := by
  by_cases hentry : HasEntry profiles c.key
  · obtain ⟨i, hi, hkey⟩ := hentry
    rw [h.exec_of_entry hi hkey]
    refine ⟨.refl _, ?_⟩
    rintro j ⟨⟩
    exact ⟨hi, hkey⟩
  · have hend := exec_of_absent hentry
    generalize c.exec profiles = r at hend ⊢
    cases hend with
    | created i _ hfree p hused hkey =>
      refine ⟨.update fun hi => ?_, ?_⟩
      · rw [hfree] at hi
        exact absurd hi Bool.false_ne_true
      · rintro j ⟨⟩
        dsimp only
        rw [Function.update_self]
        exact ⟨hused, hkey⟩
    | none => exact ⟨.refl _, by rintro j ⟨⟩⟩

end call

/-! ## The table after any calls -/

/-- Entries are kept from call to call. -/
theorem KeepsEntries.trans {profiles profiles' profiles'' : Nat → KernelProfile}
    (h : KeepsEntries profiles profiles') (h' : KeepsEntries profiles' profiles'') :
    KeepsEntries profiles profiles'' := by
  intro i hi
  obtain ⟨hi', hkey⟩ := h i hi
  obtain ⟨hi'', hkey'⟩ := h' i hi'
  exact ⟨hi'', hkey'.trans hkey⟩

/-- The entries of a table are those of the keys that were stored. -/
structure MapInv (calls : List LookupCall) : Prop where
  table : TablePlaced (tableAfter calls)
  entry_iff : ∀ k, HasEntry (tableAfter calls) k ↔ Stored calls k

/-- A call adds an entry for its own key at most, and only by creating it. -/
theorem hasEntry_exec_iff {profiles : Nat → KernelProfile} (h : TablePlaced profiles)
    (c : LookupCall) (k : KernelKey) :
    HasEntry (c.exec profiles).2 k ↔ HasEntry profiles k ∨
      c.key = k ∧ c.create = true ∧ (c.exec profiles).1.isSome = true := by
  obtain ⟨hkeeps, hindex⟩ := h.exec_keeps c
  constructor
  · intro hentry
    by_cases hbefore : HasEntry profiles c.key
    · obtain ⟨i, hi, hkey⟩ := hbefore
      rw [h.exec_of_entry hi hkey] at hentry
      exact .inl hentry
    · have hend := exec_of_absent hbefore
      generalize c.exec profiles = r at hend hentry ⊢
      cases hend with
      | none => exact .inl hentry
      | created i hcreate hfree p hused hkey =>
        obtain ⟨j, hj, hjk⟩ := hentry
        dsimp only at hj hjk
        by_cases hji : j = i
        · subst hji
          rw [Function.update_self] at hjk
          exact .inr ⟨hkey.symm.trans hjk, hcreate, rfl⟩
        · rw [Function.update_of_ne hji] at hj hjk
          exact .inl ⟨j, hj, hjk⟩
  · rintro (hentry | ⟨rfl, -, hsome⟩)
    · exact hentry.keep hkeeps
    · obtain ⟨i, hi⟩ := Option.isSome_iff_exists.mp hsome
      exact ⟨i, hindex i hi⟩

/-- The invariant holds behind any calls. -/
theorem mapInv_tableAfter (calls : List LookupCall) : MapInv calls := by
  induction calls using List.reverseRecOn with
  | nil =>
    refine { table := { placed := .empty fun _ => Bool.false_ne_true, named := ?_ }
             entry_iff := fun k => iff_of_false ?_ ?_ }
    · exact fun i hi => absurd hi Bool.false_ne_true
    · rintro ⟨i, hi, -⟩
      exact absurd hi Bool.false_ne_true
    · rintro ⟨before, c, after, heq, -⟩
      exact absurd heq.symm (List.append_ne_nil_of_right_ne_nil _ (List.cons_ne_nil _ _))
  | append_singleton calls c ih =>
    refine { table := ?_, entry_iff := fun k => ?_ }
    · rw [tableAfter_snoc]
      exact ih.table.exec c
    · rw [tableAfter_snoc, hasEntry_exec_iff ih.table, ih.entry_iff, stored_snoc]
      rfl

/-- Later calls move and remove no entry. -/
theorem tableAfter_keeps (calls rest : List LookupCall) :
    KeepsEntries (tableAfter calls) (tableAfter (calls ++ rest)) := by
  induction rest using List.reverseRecOn with
  | nil =>
    rw [List.append_nil]
    exact .refl _
  | append_singleton rest c ih =>
    rw [← List.append_assoc, tableAfter_snoc]
    exact ih.trans ((mapInv_tableAfter (calls ++ rest)).table.exec_keeps c).1

/-- The entry that a call returned is its key's behind any further calls. -/
theorem entry_of_index {calls : List LookupCall} {c : LookupCall} {i : Nat}
    (h : indexAfter calls c = some i) (rest : List LookupCall) :
    (tableAfter (calls ++ c :: rest) i).occupied = true ∧
      (tableAfter (calls ++ c :: rest) i).key = c.key := by
  obtain ⟨hi, hkey⟩ := ((mapInv_tableAfter calls).table.exec_keeps c).2 i h
  rw [← tableAfter_snoc] at hi hkey
  have hkeeps := tableAfter_keeps (calls ++ [c]) rest
  rw [List.append_assoc, List.singleton_append] at hkeeps
  obtain ⟨hi', hkey'⟩ := hkeeps i hi
  exact ⟨hi', hkey'.trans hkey⟩

/-- A key that has an entry gets its index. -/
theorem index_of_entry {calls : List LookupCall} {c : LookupCall}
    (h : HasEntry (tableAfter calls) c.key) : indexAfter calls c ≠ none := by
  obtain ⟨j, hj, hkey⟩ := h
  rw [indexAfter, (mapInv_tableAfter calls).table.exec_of_entry hj hkey]
  exact Option.some_ne_none j

/-! ## The map -/

/-- Behind any calls from the empty table: a call for a key that was given an index
gets the same one, and a call that gets it is for the same key; a call that may create an
entry and gets no index found all of them in use by others; and one that may not gets no
index exactly if the key was never stored. -/
theorem profile_table_is_map (calls : List LookupCall) :
    (∀ c i rest c', indexAfter calls c = some i →
      (c'.key = c.key ↔ indexAfter (calls ++ c :: rest) c' = some i)) ∧
    (∀ k, k.function ≠ 0 → indexAfter calls ⟨k, true⟩ = none →
      ∀ i < eventBeProfileTableSize,
        (tableAfter calls i).occupied = true ∧ (tableAfter calls i).key ≠ k) ∧
    ∀ k, indexAfter calls ⟨k, false⟩ = none ↔ ¬ Stored calls k := by
  have hinv := mapInv_tableAfter calls
  refine ⟨fun c i rest c' hindex => ?_, fun k hfunction hnone i hi => ?_, fun k => ?_⟩
  · have hrest := (mapInv_tableAfter (calls ++ c :: rest)).table
    obtain ⟨hi, hkey⟩ := entry_of_index hindex rest
    constructor
    · intro hsame
      have hexec := hrest.exec_of_entry (c := c') hi (hkey.trans hsame.symm)
      exact congrArg Prod.fst hexec
    · intro hindex'
      obtain ⟨hkeeps, hentry⟩ := hrest.exec_keeps c'
      -- the entry has one key, before and after the call
      rw [← (hentry i hindex').2, (hkeeps i hi).2, hkey]
  · have habsent : ¬ HasEntry (tableAfter calls) k := fun h => index_of_entry h hnone
    have hend := @exec_of_absent (tableAfter calls) ⟨k, true⟩ habsent
    have hfull : ∀ i < eventBeProfileTableSize, (tableAfter calls i).occupied = true := by
      unfold indexAfter at hnone
      generalize LookupCall.exec (tableAfter calls) ⟨k, true⟩ = r at hend hnone
      cases hend with
      | created => cases hnone
      | none h =>
        rcases h with h | h | h
        · exact absurd h.symm Bool.false_ne_true
        · exact absurd h hfunction
        · exact h
    exact ⟨hfull i hi, fun hkey => habsent ⟨i, hfull i hi, hkey⟩⟩
  · rw [← hinv.entry_iff]
    constructor
    · exact fun hnone h => index_of_entry h hnone
    · intro habsent
      have hend := @exec_of_absent (tableAfter calls) ⟨k, false⟩ habsent
      unfold indexAfter
      generalize LookupCall.exec (tableAfter calls) ⟨k, false⟩ = r at hend ⊢
      cases hend with
      | created i hcreate => exact absurd hcreate Bool.false_ne_true
      | none => rfl

/-- Two kernels, stored and looked up. -/
example : indexAfter [⟨⟨4096, 1⟩, true⟩, ⟨⟨4096, 2⟩, true⟩] ⟨⟨4096, 1⟩, false⟩ =
    indexAfter [] ⟨⟨4096, 1⟩, true⟩ := by decide +kernel

end Lilt.Be
