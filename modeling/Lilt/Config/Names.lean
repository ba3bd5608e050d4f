import Lilt.Config.Settings

/-!
# The names of a setting

A setting goes by its canonical name and by older ones: with `TGS_` for `LILT_`, with
`LP` for `BE`, or both. `lilt_getenv` looks all of them up as one setting, first under
the canonical name and then under the legacy one. The settings of the baseline keep
their names.

- `lookupEither`: the lookup under two names.
- `liltGetenv_lookupEither`: what `lilt_getenv` does for a name with a suffix.
- `setting_names_interchangeable`: which names stand for one setting, and which of them
  wins.
-/

namespace Lilt.Config

/-- The value under the first name that is set. -/
def lookupEither (getenv : Env) (canonical legacy : CString) : Option CString :=
  (getenv canonical).or (getenv legacy)

/-- A name that fits into the buffer is not cut off. -/
theorem snprintf256_of_short {s : CString} (h : s.length ≤ 255) : snprintf256 s = s :=
  List.take_of_length_le h

/-- The two lookups of `lilt_getenv`, where the canonical name fits into its buffer. -/
theorem liltGetenv_lookupEither (getenv : Env) {name suffix key legacy : CString}
    (hsuffix : settingSuffix name = some suffix)
    (hcanonical : canonicalName suffix = "LILT_".toList ++ key)
    (hlegacy : legacyName key = legacy) :
    liltGetenv getenv name = lookupEither getenv ("LILT_".toList ++ key) legacy := by
  have hkey : (canonicalName suffix).drop 5 = key := by
    rw [hcanonical]
    rfl
  unfold liltGetenv lookupEither
  rw [hsuffix]
  dsimp only
  rw [hkey, hcanonical, hlegacy]
  cases getenv ("LILT_".toList ++ key) <;> rfl

/-! ## The settings of the BE proxy -/

section tail

variable {tail : CString}

/-- `EVENT_BE_T` and `EVENT_LP_T` lead to the same two names. -/
theorem liltGetenv_be (getenv : Env) {name suffix : CString} (hshort : tail.length + 14 ≤ 255)
    (hname : settingSuffix name = some suffix)
    (hsuffix : suffix = "EVENT_BE_".toList ++ tail ∨ suffix = "EVENT_LP_".toList ++ tail) :
    liltGetenv getenv name = lookupEither getenv ("LILT_EVENT_BE_".toList ++ tail)
      ("TGS_EVENT_LP_".toList ++ tail) := by
  have hlong : ("LILT_EVENT_BE_".toList ++ tail).length ≤ 255 := by
    rw [List.length_append, Nat.add_comm]
    exact hshort
  have hshorter : ("TGS_EVENT_LP_".toList ++ tail).length ≤ 255 := by
    rw [List.length_append, Nat.add_comm]
    exact Nat.le_of_succ_le hshort
  have hcanonical : canonicalName suffix =
      "LILT_".toList ++ ("EVENT_BE_".toList ++ tail) := by
    rcases hsuffix with rfl | rfl <;> exact snprintf256_of_short hlong
  have hlegacy : legacyName ("EVENT_BE_".toList ++ tail) = "TGS_EVENT_LP_".toList ++ tail :=
    snprintf256_of_short hshorter
  exact liltGetenv_lookupEither getenv hname hcanonical hlegacy

/-- A suffix that is of neither kind is kept as it is. -/
theorem liltGetenv_plain (getenv : Env) {name suffix : CString}
    (hshort : suffix.length + 5 ≤ 255) (hname : settingSuffix name = some suffix)
    (hlp : "EVENT_LP_".toList.isPrefixOf suffix = false)
    (hbe : "EVENT_BE_".toList.isPrefixOf suffix = false) :
    liltGetenv getenv name =
      lookupEither getenv ("LILT_".toList ++ suffix) ("TGS_".toList ++ suffix) := by
  have hlong : ("LILT_".toList ++ suffix).length ≤ 255 := by
    rw [List.length_append, Nat.add_comm]
    exact hshort
  have hshorter : ("TGS_".toList ++ suffix).length ≤ 255 := by
    rw [List.length_append, Nat.add_comm]
    exact Nat.le_of_succ_le hshort
  refine liltGetenv_lookupEither getenv hname ?_ ?_
  · rw [canonicalName, hlp]
    exact snprintf256_of_short hlong
  · rw [legacyName, hbe]
    exact snprintf256_of_short hshorter

end tail

/-! ## All names -/

/-- In every environment:

- the four names of a BE setting have one value, that of the canonical name if it is
  set and that of the legacy name with `LP` otherwise;
- the two names of any other event setting, of the policy and of the real driver have
  one value, that of the canonical name if it is set;
- every other name that starts with `TGS_` has its own value.

The tails are short enough for the buffers of 256 bytes. -/
theorem setting_names_interchangeable (getenv : Env) :
    (∀ tail : CString, tail.length + 14 ≤ 255 →
      ∀ name ∈ ["LILT_EVENT_BE_".toList ++ tail, "LILT_EVENT_LP_".toList ++ tail,
        "TGS_EVENT_BE_".toList ++ tail, "TGS_EVENT_LP_".toList ++ tail],
      liltGetenv getenv name = lookupEither getenv ("LILT_EVENT_BE_".toList ++ tail)
        ("TGS_EVENT_LP_".toList ++ tail)) ∧
    (∀ tail : CString, tail.length + 11 ≤ 255 →
      ¬ "BE_".toList <+: tail → ¬ "LP_".toList <+: tail →
      ∀ name ∈ ["LILT_EVENT_".toList ++ tail, "TGS_EVENT_".toList ++ tail],
      liltGetenv getenv name = lookupEither getenv ("LILT_EVENT_".toList ++ tail)
        ("TGS_EVENT_".toList ++ tail)) ∧
    (∀ key ∈ ["POLICY".toList, "REAL_LIBCUDA".toList],
      ∀ name ∈ ["LILT_".toList ++ key, "TGS_".toList ++ key],
      liltGetenv getenv name =
        lookupEither getenv ("LILT_".toList ++ key) ("TGS_".toList ++ key)) ∧
    ∀ name : CString, "TGS_".toList <+: name → ¬ "TGS_EVENT_".toList <+: name →
      name ≠ "TGS_POLICY".toList → name ≠ "TGS_REAL_LIBCUDA".toList →
      liltGetenv getenv name = getenv name := by
  refine ⟨fun tail hshort name hname => ?_, fun tail hshort hbe hlp name hname => ?_,
    fun key hkey name hname => ?_, fun name htgs hevent hpolicy hdriver => ?_⟩
  · simp only [List.mem_cons, List.not_mem_nil, or_false] at hname
    rcases hname with rfl | rfl | rfl | rfl
    · exact liltGetenv_be getenv hshort rfl (.inl rfl)
    · exact liltGetenv_be getenv hshort rfl (.inr rfl)
    · exact liltGetenv_be getenv hshort rfl (.inl rfl)
    · exact liltGetenv_be getenv hshort rfl (.inr rfl)
  · have hbe' : "EVENT_BE_".toList.isPrefixOf ("EVENT_".toList ++ tail) = false :=
      Bool.eq_false_iff.mpr fun h => hbe (List.isPrefixOf_iff_prefix.mp h)
    have hlp' : "EVENT_LP_".toList.isPrefixOf ("EVENT_".toList ++ tail) = false :=
      Bool.eq_false_iff.mpr fun h => hlp (List.isPrefixOf_iff_prefix.mp h)
    have hlength : ("EVENT_".toList ++ tail).length + 5 ≤ 255 := by
      rw [List.length_append]
      show 6 + tail.length + 5 ≤ 255
      omega
    simp only [List.mem_cons, List.not_mem_nil, or_false] at hname
    rcases hname with rfl | rfl
    · exact liltGetenv_plain getenv hlength rfl hlp' hbe'
    · exact liltGetenv_plain getenv hlength rfl hlp' hbe'
  · simp only [List.mem_cons, List.not_mem_nil, or_false] at hkey hname
    rcases hkey with rfl | rfl <;> rcases hname with rfl | rfl
    · exact liltGetenv_plain getenv (by decide) rfl rfl rfl
    · exact liltGetenv_plain getenv (by decide) rfl rfl rfl
    · exact liltGetenv_plain getenv (by decide) rfl rfl rfl
    · exact liltGetenv_plain getenv (by decide) rfl rfl rfl
  · -- a setting of the baseline
    have hlilt : "LILT_".toList.isPrefixOf name = false := by
      obtain ⟨rest, rfl⟩ := htgs
      rfl
    have hevent' : "TGS_EVENT_".toList.isPrefixOf name = false :=
      Bool.eq_false_iff.mpr fun h => hevent (List.isPrefixOf_iff_prefix.mp h)
    have hnone : settingSuffix name = none := by
      rw [settingSuffix, hlilt, hevent']
      simp only [Bool.false_eq_true, if_false, Bool.false_or, Bool.or_eq_true, decide_eq_true_eq]
      exact if_neg (not_or_intro hpolicy hdriver)
    rw [liltGetenv, hnone]

end Lilt.Config
