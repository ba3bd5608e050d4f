import Mathlib.Algebra.Group.Nat.Defs
import Mathlib.Data.List.TakeWhile

/-!
# Settings in environment variables (`lilt_config.h`)

A C string is the list of its characters before the terminating null. An
environment gives each name its value, if it is set.

- `liltGetenv`: the lookup under the canonical name and then the legacy one.
- `strtoull`, `strtoll`: the library functions, in base ten.
- `eventBeParseU64`: a setting with a range and a fallback.
- `eventBeParseU64_mem`: a fallback in the range makes every result be in it.
- `eventBeParseU64_decimal`: a number in the range, written out in decimal, is
  read back; one beyond the range gives the fallback.
-/

namespace Lilt.Config

abbrev CString := List Char

/-- `getenv`, as a function of the name. -/
abbrev Env := CString → Option CString

/-! ## `lilt_getenv` -/

/-- What `snprintf` leaves of a string in a buffer of 256 bytes. -/
def snprintf256 (s : CString) : CString := s.take 255

/-- The setting's name without its `LILT_` or `TGS_`; a baseline setting has
none. -/
def settingSuffix (name : CString) : Option CString :=
  if "LILT_".toList.isPrefixOf name then some (name.drop 5)
  else if "TGS_EVENT_".toList.isPrefixOf name || name = "TGS_POLICY".toList ||
      name = "TGS_REAL_LIBCUDA".toList then
    some (name.drop 4)
  else none

/-- `canonical` in `lilt_getenv`. -/
def canonicalName (suffix : CString) : CString :=
  snprintf256
    (if "EVENT_LP_".toList.isPrefixOf suffix then "LILT_EVENT_BE_".toList ++ suffix.drop 9
    else "LILT_".toList ++ suffix)

/-- `legacy` in `lilt_getenv`. -/
def legacyName (suffix : CString) : CString :=
  snprintf256
    (if "EVENT_BE_".toList.isPrefixOf suffix then "TGS_EVENT_LP_".toList ++ suffix.drop 9
    else "TGS_".toList ++ suffix)

/-- `lilt_getenv` -/
def liltGetenv (getenv : Env) (name : CString) : Option CString :=
  match settingSuffix name with
  | none => getenv name
  | some suffix =>
    match getenv (canonicalName suffix) with
    | some value => some value
    | none => getenv (legacyName ((canonicalName suffix).drop 5))

/-- A canonical name that is set is looked up as it is. -/
theorem liltGetenv_canonical {getenv : Env} {name value : CString}
    (hname : "LILT_".toList.isPrefixOf name = true)
    (hcanonical : canonicalName (name.drop 5) = name) (h : getenv name = some value) :
    liltGetenv getenv name = some value := by
  simp only [liltGetenv, settingSuffix, hname, if_true, hcanonical, h]

/-! ## Numbers -/

/-- `isspace` in the C locale. -/
def isSpace (c : Char) : Bool :=
  c = ' ' || c = '\t' || c = '\n' || c = '\x0b' || c = '\x0c' || c = '\r'

/-- The answer of `strtoull`. -/
structure StrtoullResult where
  value : UInt64
  /-- What `end` points to; the whole string if nothing was converted. -/
  rest : CString
  converted : Bool
  /-- `errno` was set to `ERANGE`. -/
  rangeError : Bool

/-- `ULLONG_MAX` as a number. -/
def ullongMax : Nat := 2 ^ 64 - 1

/-- Whether a number has a minus sign, and what follows its sign. -/
def splitSign : CString → Bool × CString
  | '-' :: s => (true, s)
  | '+' :: s => (false, s)
  | s => (false, s)

/-- `strtoull` with base 10. A minus sign negates in the unsigned type. -/
def strtoull (s : CString) : StrtoullResult :=
  let (negative, unsigned) := splitSign (s.dropWhile isSpace)
  let digits := unsigned.takeWhile Char.isDigit
  if digits = [] then { value := 0, rest := s, converted := false, rangeError := false }
  else
    let magnitude := Nat.ofDigitChars 10 digits 0
    let rest := unsigned.dropWhile Char.isDigit
    if ullongMax < magnitude then
      { value := UInt64.ofNat ullongMax, rest := rest, converted := true, rangeError := true }
    else
      let value := UInt64.ofNat magnitude
      { value := if negative then 0 - value else value
        rest := rest
        converted := true
        rangeError := false }

/-- `event_be_parse_u64` -/
def eventBeParseU64 (getenv : Env) (name : CString) (fallback minimum maximum : UInt64) :
    UInt64 :=
  match liltGetenv getenv name with
  | none => fallback
  | some [] => fallback
  | some value =>
    let parsed := strtoull value
    if parsed.rangeError ∨ ¬ parsed.converted ∨ parsed.rest ≠ [] ∨ parsed.value < minimum ∨
        maximum < parsed.value then
      fallback
    else parsed.value

/-- The answer of `strtoll`. -/
structure StrtollResult where
  value : Int
  /-- What `end` points to; the whole string if nothing was converted. -/
  rest : CString
  converted : Bool
  /-- `errno` was set to `ERANGE`. -/
  rangeError : Bool

/-- `LLONG_MAX` as a number. -/
def llongMax : Nat := 2 ^ 63 - 1

/-- `strtoll` with base 10. -/
def strtoll (s : CString) : StrtollResult :=
  let (negative, unsigned) := splitSign (s.dropWhile isSpace)
  let digits := unsigned.takeWhile Char.isDigit
  if digits = [] then { value := 0, rest := s, converted := false, rangeError := false }
  else
    let magnitude := Nat.ofDigitChars 10 digits 0
    let rest := unsigned.dropWhile Char.isDigit
    -- the negative numbers reach one further
    let largest := if negative then llongMax + 1 else llongMax
    let clamped := if largest < magnitude then largest else magnitude
    { value := if negative then -clamped else clamped
      rest := rest
      converted := true
      rangeError := largest < magnitude }

/-! ## The policy switches (`activity_tracker.c`) -/

/-- `lilt_event_policy_enabled` -/
def liltEventPolicyEnabled (getenv : Env) : Bool :=
  match liltGetenv getenv "LILT_POLICY".toList with
  | none => false
  | some policy => policy = "event".toList || policy = "lilt".toList

/-- `lilt_event_passthrough_enabled` -/
def liltEventPassthroughEnabled (getenv : Env) : Bool :=
  match liltGetenv getenv "LILT_EVENT_PASSTHROUGH".toList with
  | none => false
  | some configured =>
    configured = "1".toList || configured = "true".toList || configured = "yes".toList

/-! ## The range of a setting -/

/-- With a fallback in the range, a setting is in the range. -/
theorem eventBeParseU64_mem (getenv : Env) (name : CString)
    {fallback minimum maximum : UInt64} (hmin : minimum ≤ fallback) (hmax : fallback ≤ maximum) :
    minimum ≤ eventBeParseU64 getenv name fallback minimum maximum ∧
      eventBeParseU64 getenv name fallback minimum maximum ≤ maximum := by
  unfold eventBeParseU64
  split
  · exact ⟨hmin, hmax⟩
  · exact ⟨hmin, hmax⟩
  · dsimp only
    split
    next => exact ⟨hmin, hmax⟩
    next h =>
      simp only [not_or, UInt64.not_lt] at h
      exact ⟨h.2.2.2.1, h.2.2.2.2⟩

/-! ## Decimal notation -/

theorem isDigit_not_space {c : Char} (h : c.isDigit = true) : isSpace c = false := by
  cases hs : isSpace c
  · rfl
  · simp only [isSpace, Bool.or_eq_true, decide_eq_true_eq] at hs
    rcases hs with ((((rfl | rfl) | rfl) | rfl) | rfl) | rfl <;> cases h

theorem splitSign_digit {c : Char} {cs : CString} (h : c.isDigit = true) :
    splitSign (c :: cs) = (false, c :: cs) := by
  unfold splitSign
  split
  next heq => cases heq; cases h
  next heq => cases heq; cases h
  next => rfl

theorem strtoull_digits {ds : CString} (hne : ds ≠ []) (hd : ∀ c ∈ ds, c.isDigit = true) :
    strtoull ds =
      if ullongMax < Nat.ofDigitChars 10 ds 0 then
        { value := UInt64.ofNat ullongMax, rest := [], converted := true, rangeError := true }
      else
        { value := UInt64.ofNat (Nat.ofDigitChars 10 ds 0), rest := [], converted := true
          rangeError := false } := by
  obtain ⟨c, cs, rfl⟩ := List.exists_cons_of_ne_nil hne
  have hc := hd c List.mem_cons_self
  have hspace : (c :: cs).dropWhile isSpace = c :: cs := by simp [isDigit_not_space hc]
  have htake : (c :: cs).takeWhile Char.isDigit = c :: cs :=
    List.takeWhile_eq_self_iff.mpr hd
  have hdrop : (c :: cs).dropWhile Char.isDigit = [] :=
    List.dropWhile_eq_nil_iff.mpr hd
  unfold strtoull
  rw [hspace, splitSign_digit hc]
  simp only [htake, hdrop, Bool.false_eq_true, if_false, List.cons_ne_nil]

theorem strtoull_decimal (n : Nat) :
    strtoull (Nat.toDigits 10 n) =
      if ullongMax < n then
        { value := UInt64.ofNat ullongMax, rest := [], converted := true, rangeError := true }
      else
        { value := UInt64.ofNat n, rest := [], converted := true, rangeError := false } := by
  rw [strtoull_digits Nat.toDigits_ne_nil fun c hc =>
      Nat.isDigit_of_mem_toDigits (by decide) (by decide) hc,
    Nat.ofDigitChars_ten_toDigits]

theorem strtoll_decimal (n : Nat) :
    strtoll (Nat.toDigits 10 n) =
      { value := if llongMax < n then llongMax else n
        rest := []
        converted := true
        rangeError := llongMax < n } := by
  obtain ⟨c, cs, hcs⟩ := List.exists_cons_of_ne_nil (Nat.toDigits_ne_nil (n := n) (b := 10))
  have hd : ∀ x ∈ c :: cs, x.isDigit = true := fun x hx =>
    Nat.isDigit_of_mem_toDigits (by decide) (by decide) (hcs ▸ hx)
  have hspace : (c :: cs).dropWhile isSpace = c :: cs := by
    simp [isDigit_not_space (hd c List.mem_cons_self)]
  have htake : (c :: cs).takeWhile Char.isDigit = c :: cs := List.takeWhile_eq_self_iff.mpr hd
  have hdrop : (c :: cs).dropWhile Char.isDigit = [] := List.dropWhile_eq_nil_iff.mpr hd
  have hvalue : Nat.ofDigitChars 10 (c :: cs) 0 = n := by
    rw [← hcs, Nat.ofDigitChars_ten_toDigits]
  unfold strtoll
  rw [hcs, hspace, splitSign_digit (hd c List.mem_cons_self)]
  simp only [htake, hdrop, hvalue, Bool.false_eq_true, if_false, List.cons_ne_nil]
  split <;> rfl

/-- A setting written out in decimal is read back if it is in the range, and is
the fallback if not. -/
theorem eventBeParseU64_decimal {getenv : Env} {name : CString}
    {fallback minimum maximum : UInt64} {n : Nat}
    (h : liltGetenv getenv name = some (Nat.toDigits 10 n)) :
    eventBeParseU64 getenv name fallback minimum maximum =
      if minimum.toNat ≤ n ∧ n ≤ maximum.toNat then UInt64.ofNat n else fallback := by
  obtain ⟨c, cs, hcs⟩ := List.exists_cons_of_ne_nil (Nat.toDigits_ne_nil (n := n) (b := 10))
  unfold eventBeParseU64
  rw [h, hcs]
  dsimp only
  rw [← hcs, strtoull_decimal]
  have hmax := maximum.toNat_lt
  by_cases hbig : ullongMax < n
  · -- `ERANGE`, and no maximum is that large
    have hrange : ¬ (minimum.toNat ≤ n ∧ n ≤ maximum.toNat) := by
      unfold ullongMax at hbig
      omega
    rw [if_pos hbig, if_neg hrange]
    simp
  · have hn : (UInt64.ofNat n).toNat = n := by
      unfold ullongMax at hbig
      rw [UInt64.toNat_ofNat']
      omega
    rw [if_neg hbig]
    by_cases hrange : minimum.toNat ≤ n ∧ n ≤ maximum.toNat
    · rw [if_pos hrange, if_neg]
      simp only [Bool.false_eq_true, not_true_eq_false, ne_eq, false_or, not_or,
        UInt64.lt_iff_toNat_lt, hn, Nat.not_lt]
      exact hrange
    · rw [if_neg hrange, if_pos]
      simp only [UInt64.lt_iff_toNat_lt, hn]
      omega

/-- With a fallback in the range, a positive number in decimal is read back just if
it is in the range. -/
theorem eventBeParseU64_eq_iff {getenv : Env} {name : CString} {fallback maximum : UInt64}
    {n : Nat} (h : liltGetenv getenv name = some (Nat.toDigits 10 n)) (hpos : 1 ≤ n)
    (hfallback : fallback ≤ maximum) :
    (eventBeParseU64 getenv name fallback 1 maximum).toNat = n ↔ n ≤ maximum.toNat := by
  have hlt := maximum.toNat_lt
  rw [UInt64.le_iff_toNat_le] at hfallback
  rw [eventBeParseU64_decimal h]
  constructor
  · intro heq
    split at heq
    next hrange => exact hrange.2
    next => omega
  · intro hmax
    rw [if_pos ⟨hpos, hmax⟩, UInt64.toNat_ofNat_of_lt']
    exact Nat.lt_of_le_of_lt hmax hlt

end Lilt.Config
