import Lilt.Be.Config
import Lilt.Graph.Settings

/-!
# Which numbers the settings accept

`event_be_parse_u64` and `graph_parse_u64` should take a number in decimal, with white
space and a plus sign before it, and nothing else. They leave the decision to `strtoull`,
which negates a number with a minus sign in the unsigned type; only the first one asks it
whether the number was too large.

- `Written`: a string with an optional sign and digits to its end.
- `strtoull_written`, `written_of_converted`: what `strtoull` makes of such a string, and
  that it converts no other one to its end.
- `ParsedExactly`: what the parsers should return.
- `parse_exact_iff`: when they do.
- `minus_one_accepted`: a limit that a minus sign removes.
-/

namespace Lilt.Config

open Lilt.Be Lilt.Graph

/-! ## Numerals -/

/-- The signs that may stand before the digits. -/
def signs (negative : Bool) : List CString := if negative then [['-']] else [[], ['+']]

/-- The string consists of white space, a minus sign or else an optional plus sign, and
the digits. -/
structure Written (s : CString) (negative : Bool) (digits : CString) : Prop where
  nonempty : digits ≠ []
  decimal : ∀ c ∈ digits, c.isDigit = true
  parts : ∃ space, (∀ c ∈ space, isSpace c = true) ∧
    ∃ sign ∈ signs negative, s = space ++ (sign ++ digits)

/-- The string denotes the number, in decimal. -/
def IsNumber (s : CString) (n : Nat) : Prop :=
  ∃ digits, Written s false digits ∧ n = Nat.ofDigitChars 10 digits 0

/-- The string denotes the number behind a minus sign. -/
def IsNegated (s : CString) (n : Nat) : Prop :=
  ∃ digits, Written s true digits ∧ n = Nat.ofDigitChars 10 digits 0

section written

variable {s digits : CString} {negative : Bool}

/-- Behind the white space and the sign are the digits. -/
theorem Written.splitSign_eq (h : Written s negative digits) :
    splitSign (s.dropWhile isSpace) = (negative, digits) := by
  obtain ⟨space, hspace, sign, hsign, rfl⟩ := h.parts
  obtain ⟨c, cs, rfl⟩ := List.exists_cons_of_ne_nil h.nonempty
  have hc := h.decimal c List.mem_cons_self
  rw [List.dropWhile_append_of_pos hspace]
  cases negative with
  | true =>
    obtain rfl := List.mem_singleton.mp hsign
    rfl
  | false =>
    simp only [signs, Bool.false_eq_true, if_false, List.mem_cons, List.not_mem_nil, or_false]
      at hsign
    rcases hsign with rfl | rfl
    · rw [List.nil_append, List.dropWhile_cons_of_neg (by simp [isDigit_not_space hc])]
      exact splitSign_digit hc
    · rfl

/-- A string is written in one way only. -/
theorem Written.unique (h : Written s negative digits) {negative' : Bool} {digits' : CString}
    (h' : Written s negative' digits') : negative' = negative ∧ digits' = digits := by
  have heq := h.splitSign_eq
  rw [h'.splitSign_eq] at heq
  exact Prod.mk.inj heq

theorem splitSign_sign (t : CString) :
    ∃ sign ∈ signs (splitSign t).1, t = sign ++ (splitSign t).2 := by
  unfold splitSign
  split
  · exact ⟨['-'], List.mem_singleton.mpr rfl, rfl⟩
  · exact ⟨['+'], List.mem_cons_of_mem _ List.mem_cons_self, rfl⟩
  · exact ⟨[], List.mem_cons_self, rfl⟩

/-- What `strtoull` makes of a numeral. -/
theorem strtoull_written (h : Written s negative digits) :
    strtoull s =
      if ullongMax < Nat.ofDigitChars 10 digits 0 then
        { value := UInt64.ofNat ullongMax, rest := [], converted := true, rangeError := true }
      else
        { value :=
            if negative then 0 - UInt64.ofNat (Nat.ofDigitChars 10 digits 0)
            else UInt64.ofNat (Nat.ofDigitChars 10 digits 0)
          rest := []
          converted := true
          rangeError := false } := by
  have htake : digits.takeWhile Char.isDigit = digits := List.takeWhile_eq_self_iff.mpr h.decimal
  have hdrop : digits.dropWhile Char.isDigit = [] := List.dropWhile_eq_nil_iff.mpr h.decimal
  unfold strtoull
  rw [h.splitSign_eq]
  dsimp only
  rw [htake, hdrop, if_neg h.nonempty]

/-- A string that is converted to its end is a numeral. -/
theorem written_of_converted (hconverted : (strtoull s).converted = true)
    (hrest : (strtoull s).rest = []) : ∃ negative digits, Written s negative digits := by
  obtain ⟨sign, hsign, hparts⟩ := splitSign_sign (s.dropWhile isSpace)
  unfold strtoull at hconverted hrest
  generalize splitSign (s.dropWhile isSpace) = r at hsign hparts hconverted hrest
  obtain ⟨negative, unsigned⟩ := r
  dsimp only at hsign hparts hconverted hrest
  split at hconverted
  next => exact absurd hconverted Bool.false_ne_true
  next hdigits =>
    rw [if_neg hdigits] at hrest
    have hnone : unsigned.dropWhile Char.isDigit = [] := by
      split at hrest <;> exact hrest
    have hall := List.dropWhile_eq_nil_iff.mp hnone
    refine ⟨negative, unsigned, ?_, hall, s.takeWhile isSpace, ?_, sign, hsign, ?_⟩
    · rintro rfl
      exact hdigits rfl
    · exact fun c hc => List.mem_takeWhile_imp hc
    · rw [← hparts, List.takeWhile_append_dropWhile]

end written

/-! ## What the parsers should return -/

/-- The number that the value denotes if it is in the range, and else the fallback. -/
structure ParsedExactly (s : CString) (fallback minimum maximum result : UInt64) : Prop where
  number : ∀ n, IsNumber s n → minimum.toNat ≤ n → n ≤ maximum.toNat → result.toNat = n
  other : (∀ n, IsNumber s n → ¬ (minimum.toNat ≤ n ∧ n ≤ maximum.toNat)) → result = fallback

/-- The value has a minus sign, and its negation modulo 2^64 is in the range. -/
def NegationInRange (s : CString) (fallback minimum maximum : UInt64) : Prop :=
  ∃ n ≤ ullongMax, IsNegated s n ∧ minimum.toNat ≤ (2 ^ 64 - n) % 2 ^ 64 ∧
    (2 ^ 64 - n) % 2 ^ 64 ≤ maximum.toNat ∧ (2 ^ 64 - n) % 2 ^ 64 ≠ fallback.toNat

/-- The value is too large for the type, and the range goes up to its largest number. -/
def PastLargest (s : CString) (fallback maximum : UInt64) : Prop :=
  (∃ n, ullongMax < n ∧ (IsNumber s n ∨ IsNegated s n)) ∧ maximum.toNat = ullongMax ∧
    fallback.toNat ≠ ullongMax

/-! ## What they return -/

section parse

variable {s : CString} {fallback minimum maximum result : UInt64} {n : Nat}

theorem parsedExactly_number (hn : IsNumber s n) (hmin : minimum.toNat ≤ n)
    (hmax : n ≤ maximum.toNat) :
    ParsedExactly s fallback minimum maximum result ↔ result.toNat = n := by
  constructor
  · exact fun h => h.number n hn hmin hmax
  · intro hresult
    obtain ⟨digits, hwritten, rfl⟩ := hn
    refine { number := fun m hm _ _ => ?_, other := fun hnone => ?_ }
    · obtain ⟨digits', hwritten', rfl⟩ := hm
      rw [hresult, (hwritten.unique hwritten').2]
    · exact absurd ⟨hmin, hmax⟩ (hnone _ ⟨digits, hwritten, rfl⟩)

theorem parsedExactly_other
    (hnone : ∀ n, IsNumber s n → ¬ (minimum.toNat ≤ n ∧ n ≤ maximum.toNat)) :
    ParsedExactly s fallback minimum maximum result ↔ result = fallback := by
  constructor
  · exact fun h => h.other hnone
  · intro hresult
    exact { number := fun n hn hmin hmax => absurd ⟨hmin, hmax⟩ (hnone n hn)
            other := fun _ => hresult }

/-- The range test, which both parsers end with. -/
def inRangeOr (fallback minimum maximum value : UInt64) : UInt64 :=
  if value < minimum ∨ maximum < value then fallback else value

theorem inRangeOr_of_mem {value : UInt64} (hmin : minimum.toNat ≤ value.toNat)
    (hmax : value.toNat ≤ maximum.toNat) : inRangeOr fallback minimum maximum value = value := by
  unfold inRangeOr
  rw [if_neg]
  rw [UInt64.lt_iff_toNat_lt, UInt64.lt_iff_toNat_lt]
  omega

theorem inRangeOr_of_not_mem {value : UInt64}
    (h : ¬ (minimum.toNat ≤ value.toNat ∧ value.toNat ≤ maximum.toNat)) :
    inRangeOr fallback minimum maximum value = fallback := by
  unfold inRangeOr
  rw [if_pos]
  rw [UInt64.lt_iff_toNat_lt, UInt64.lt_iff_toNat_lt]
  omega

variable {getenv : Env} {name : CString}

/-- A value that `strtoull` does not convert to its end. -/
theorem parse_unconverted (hset : liltGetenv getenv name = some s)
    (h : ¬ ((strtoull s).converted = true ∧ (strtoull s).rest = [])) :
    eventBeParseU64 getenv name fallback minimum maximum = fallback ∧
      graphParseU64 getenv name fallback minimum maximum = fallback := by
  have hbad : ¬ (strtoull s).converted = true ∨ (strtoull s).rest ≠ [] := not_and_or.mp h
  unfold eventBeParseU64 graphParseU64
  rw [hset]
  cases s with
  | nil => exact ⟨rfl, rfl⟩
  | cons c cs =>
    dsimp only
    constructor
    · rw [if_pos]
      rcases hbad with hbad | hbad
      · exact .inr (.inl hbad)
      · exact .inr (.inr (.inl hbad))
    · rw [if_pos]
      rcases hbad with hbad | hbad
      · exact .inl hbad
      · exact .inr (.inl hbad)

/-- A value that it does. -/
theorem parse_converted (hset : liltGetenv getenv name = some s)
    (hconverted : (strtoull s).converted = true) (hrest : (strtoull s).rest = []) :
    eventBeParseU64 getenv name fallback minimum maximum =
        (if (strtoull s).rangeError then fallback
        else inRangeOr fallback minimum maximum (strtoull s).value) ∧
      graphParseU64 getenv name fallback minimum maximum =
        inRangeOr fallback minimum maximum (strtoull s).value := by
  unfold eventBeParseU64 graphParseU64 inRangeOr
  rw [hset]
  cases s with
  | nil => exact absurd hconverted Bool.false_ne_true
  | cons c cs =>
    dsimp only
    rw [hconverted, hrest]
    cases (strtoull (c :: cs)).rangeError <;> simp

/-- The two parsers on a numeral. -/
theorem parse_written (hset : liltGetenv getenv name = some s) {negative : Bool}
    {digits : CString} (h : Written s negative digits) :
    let n := Nat.ofDigitChars 10 digits 0
    let value := if negative then 0 - UInt64.ofNat n else UInt64.ofNat n
    eventBeParseU64 getenv name fallback minimum maximum =
        (if ullongMax < n then fallback else inRangeOr fallback minimum maximum value) ∧
      graphParseU64 getenv name fallback minimum maximum =
        inRangeOr fallback minimum maximum (if ullongMax < n then UInt64.ofNat ullongMax
          else value) := by
  intro n value
  have hstrtoull := strtoull_written h
  have hconverted : (strtoull s).converted = true := by
    rw [hstrtoull]
    split <;> rfl
  have hrest : (strtoull s).rest = [] := by
    rw [hstrtoull]
    split <;> rfl
  obtain ⟨hevent, hgraph⟩ := @parse_converted s fallback minimum maximum getenv name hset
    hconverted hrest
  rw [hevent, hgraph, hstrtoull]
  by_cases hlarge : ullongMax < n
  · rw [if_pos hlarge, if_pos hlarge, if_pos hlarge]
    exact ⟨rfl, rfl⟩
  · rw [if_neg hlarge, if_neg hlarge, if_neg hlarge]
    exact ⟨rfl, rfl⟩

/-- The value of a number with a minus sign. -/
theorem negated_toNat {n : Nat} (hn : n ≤ ullongMax) :
    (0 - UInt64.ofNat n).toNat = (2 ^ 64 - n) % 2 ^ 64 := by
  have hlt : n < 2 ^ 64 := Nat.lt_of_le_of_lt hn (by decide)
  rw [UInt64.toNat_sub, UInt64.toNat_ofNat_of_lt' hlt]
  rfl

theorem inRangeOr_eq_fallback_iff {value : UInt64} :
    inRangeOr fallback minimum maximum value = fallback ↔
      ¬ (minimum.toNat ≤ value.toNat ∧ value.toNat ≤ maximum.toNat ∧
        value.toNat ≠ fallback.toNat) := by
  by_cases hmem : minimum.toNat ≤ value.toNat ∧ value.toNat ≤ maximum.toNat
  · rw [inRangeOr_of_mem hmem.1 hmem.2, ← UInt64.toNat_inj]
    simp [hmem.1, hmem.2]
  · rw [inRangeOr_of_not_mem hmem]
    exact iff_of_true rfl fun h => hmem ⟨h.1, h.2.1⟩

/-! ## When that is exact -/

section written

variable {negative : Bool} {digits : CString}

theorem Written.isNumber_iff (h : Written s negative digits) :
    IsNumber s n ↔ negative = false ∧ n = Nat.ofDigitChars 10 digits 0 := by
  constructor
  · rintro ⟨digits', h', rfl⟩
    obtain ⟨rfl, rfl⟩ := h.unique h'
    exact ⟨rfl, rfl⟩
  · rintro ⟨rfl, rfl⟩
    exact ⟨digits, h, rfl⟩

theorem Written.isNegated_iff (h : Written s negative digits) :
    IsNegated s n ↔ negative = true ∧ n = Nat.ofDigitChars 10 digits 0 := by
  constructor
  · rintro ⟨digits', h', rfl⟩
    obtain ⟨rfl, rfl⟩ := h.unique h'
    exact ⟨rfl, rfl⟩
  · rintro ⟨rfl, rfl⟩
    exact ⟨digits, h, rfl⟩

theorem Written.pastLargest_iff (h : Written s negative digits) :
    PastLargest s fallback maximum ↔ ullongMax < Nat.ofDigitChars 10 digits 0 ∧
      maximum.toNat = ullongMax ∧ fallback.toNat ≠ ullongMax := by
  refine and_congr_left fun _ => ⟨?_, fun hlarge => ⟨_, hlarge, ?_⟩⟩
  · rintro ⟨n, hlarge, hn | hn⟩
    · rwa [(h.isNumber_iff.mp hn).2] at hlarge
    · rwa [(h.isNegated_iff.mp hn).2] at hlarge
  · rw [h.isNumber_iff, h.isNegated_iff]
    cases negative
    · exact .inl ⟨rfl, rfl⟩
    · exact .inr ⟨rfl, rfl⟩

theorem Written.negationInRange_iff (h : Written s negative digits) {value : UInt64}
    (hvalue : value = 0 - UInt64.ofNat (Nat.ofDigitChars 10 digits 0)) :
    NegationInRange s fallback minimum maximum ↔ negative = true ∧
      Nat.ofDigitChars 10 digits 0 ≤ ullongMax ∧ minimum.toNat ≤ value.toNat ∧
      value.toNat ≤ maximum.toNat ∧ value.toNat ≠ fallback.toNat := by
  subst hvalue
  constructor
  · rintro ⟨n, hle, hn, hrange⟩
    obtain ⟨hnegative, rfl⟩ := h.isNegated_iff.mp hn
    rw [negated_toNat hle]
    exact ⟨hnegative, hle, hrange⟩
  · rintro ⟨hnegative, hle, hrange⟩
    rw [negated_toNat hle] at hrange
    exact ⟨_, hle, h.isNegated_iff.mpr ⟨hnegative, rfl⟩, hrange⟩

/-- A numeral for a number that is out of the range, or with a minus sign. -/
theorem Written.exact_iff_fallback (h : Written s negative digits)
    (hout : negative = true ∨ ¬ (minimum.toNat ≤ Nat.ofDigitChars 10 digits 0 ∧
      Nat.ofDigitChars 10 digits 0 ≤ maximum.toNat)) :
    ParsedExactly s fallback minimum maximum result ↔ result = fallback := by
  refine parsedExactly_other fun n hn => ?_
  obtain ⟨rfl, rfl⟩ := h.isNumber_iff.mp hn
  exact hout.resolve_left Bool.false_ne_true

/-- The graph scheduler's parser goes wrong on a number past the largest one exactly if the
range goes up to that. -/
theorem Written.largest_iff (h : Written s negative digits)
    (hlarge : ullongMax < Nat.ofDigitChars 10 digits 0) :
    inRangeOr fallback minimum maximum (UInt64.ofNat ullongMax) = fallback ↔
      ¬ PastLargest s fallback maximum := by
  have hlargest : (UInt64.ofNat ullongMax).toNat = ullongMax := by decide
  have hminimum : minimum.toNat ≤ ullongMax := Nat.le_sub_one_of_lt minimum.toNat_lt
  have hmaximum : maximum.toNat ≤ ullongMax := Nat.le_sub_one_of_lt maximum.toNat_lt
  rw [inRangeOr_eq_fallback_iff, h.pastLargest_iff, hlargest]
  refine not_congr ⟨?_, ?_⟩
  · rintro ⟨-, hle, hne⟩
    exact ⟨hlarge, Nat.le_antisymm hmaximum hle, hne.symm⟩
  · rintro ⟨-, hmax, hne⟩
    exact ⟨hminimum, Nat.le_of_eq hmax.symm, hne.symm⟩

/-- A number that fits the type is accepted if it is in the range. -/
theorem Written.exact_of_small (h : Written s false digits)
    (hsmall : Nat.ofDigitChars 10 digits 0 ≤ ullongMax) :
    ParsedExactly s fallback minimum maximum (inRangeOr fallback minimum maximum
      (UInt64.ofNat (Nat.ofDigitChars 10 digits 0))) := by
  have hvalue : (UInt64.ofNat (Nat.ofDigitChars 10 digits 0)).toNat =
      Nat.ofDigitChars 10 digits 0 :=
    UInt64.toNat_ofNat_of_lt' (Nat.lt_of_le_of_lt hsmall (by decide))
  by_cases hrange : minimum.toNat ≤ Nat.ofDigitChars 10 digits 0 ∧
      Nat.ofDigitChars 10 digits 0 ≤ maximum.toNat
  · rw [parsedExactly_number ⟨digits, h, rfl⟩ hrange.1 hrange.2, inRangeOr_of_mem]
    · exact hvalue
    · exact hvalue.symm ▸ hrange.1
    · exact hvalue.symm ▸ hrange.2
  · rw [h.exact_iff_fallback (.inr hrange)]
    exact inRangeOr_of_not_mem (hvalue.symm ▸ hrange)

end written

/-- A value that is no number, and none behind a minus sign. -/
theorem unwritten (hwritten : ¬ ∃ negative digits, Written s negative digits) :
    (∀ n, ¬ IsNumber s n) ∧ ¬ NegationInRange s fallback minimum maximum ∧
      ¬ PastLargest s fallback maximum := by
  have hnumber : ∀ n, ¬ IsNumber s n := fun n ⟨digits, h, _⟩ => hwritten ⟨false, digits, h⟩
  have hnegated : ∀ n, ¬ IsNegated s n := fun n ⟨digits, h, _⟩ => hwritten ⟨true, digits, h⟩
  refine ⟨hnumber, fun ⟨n, _, hn, _⟩ => hnegated n hn, ?_⟩
  rintro ⟨⟨n, -, hn | hn⟩, -⟩
  · exact hnumber n hn
  · exact hnegated n hn

end parse

/-- For every value of a setting and every fallback and range: the parser of the window
is exact except for a minus sign whose negation falls into the range, and the parser of
the graph scheduler except for that and for a number past the largest one, where the
range goes up to it. -/
theorem parse_exact_iff {getenv : Env} {name s : CString}
    (hset : liltGetenv getenv name = some s) (fallback minimum maximum : UInt64) :
    (ParsedExactly s fallback minimum maximum
        (eventBeParseU64 getenv name fallback minimum maximum) ↔
      ¬ NegationInRange s fallback minimum maximum) ∧
    (ParsedExactly s fallback minimum maximum
        (graphParseU64 getenv name fallback minimum maximum) ↔
      ¬ NegationInRange s fallback minimum maximum ∧ ¬ PastLargest s fallback maximum) := by
  by_cases hwritten : ∃ negative digits, Written s negative digits
  · obtain ⟨negative, digits, h⟩ := hwritten
    obtain ⟨hevent, hgraph⟩ := @parse_written s fallback minimum maximum getenv name hset
      negative digits h
    rw [hevent, hgraph]
    by_cases hlarge : ullongMax < Nat.ofDigitChars 10 digits 0
    · -- clamped, and noticed by the first parser only
      have hout : ¬ (minimum.toNat ≤ Nat.ofDigitChars 10 digits 0 ∧
          Nat.ofDigitChars 10 digits 0 ≤ maximum.toNat) := by
        have hmaximum := maximum.toNat_lt
        unfold ullongMax at hlarge
        omega
      have hnegation : ¬ NegationInRange s fallback minimum maximum := by
        rw [h.negationInRange_iff rfl]
        exact fun hnegation => absurd hnegation.2.1 (Nat.not_le.mpr hlarge)
      rw [if_pos hlarge, if_pos hlarge, h.exact_iff_fallback (.inr hout),
        h.exact_iff_fallback (.inr hout), h.largest_iff hlarge]
      exact ⟨iff_of_true rfl hnegation, (and_iff_right hnegation).symm⟩
    · rw [if_neg hlarge, if_neg hlarge, h.negationInRange_iff rfl, h.pastLargest_iff]
      cases negative with
      | true =>
        rw [h.exact_iff_fallback (.inl rfl), inRangeOr_eq_fallback_iff]
        simp [hlarge, Nat.not_lt.mp hlarge]
      | false =>
        have hexact := @Written.exact_of_small s fallback minimum maximum digits h
          (Nat.not_lt.mp hlarge)
        rw [if_neg Bool.false_ne_true]
        simp [hexact, hlarge]
  · -- neither a number nor one behind a minus sign
    have hunconverted : ¬ ((strtoull s).converted = true ∧ (strtoull s).rest = []) :=
      fun h => hwritten (written_of_converted h.1 h.2)
    obtain ⟨hevent, hgraph⟩ :=
      @parse_unconverted s fallback minimum maximum getenv name hset hunconverted
    obtain ⟨hnumber, hnegation, hpast⟩ := @unwritten s fallback minimum maximum hwritten
    rw [hevent, hgraph, parsedExactly_other fun n hn => absurd hn (hnumber n)]
    exact ⟨iff_of_true rfl hnegation, iff_of_true rfl ⟨hnegation, hpast⟩⟩

/-- The environment of a process that sets one variable. -/
def oneSetting (name value : CString) : Env := fun n => if n = name then some value else none

/-- A block budget of 2000. -/
theorem parse_exact_iff_budget :
    ParsedExactly "2000".toList 20000 1 (UInt64.ofNat ullongMax)
      (eventBeParseU64 (oneSetting "LILT_EVENT_BE_BLOCK_BUDGET".toList "2000".toList)
        "LILT_EVENT_BE_BLOCK_BUDGET".toList 20000 1
        (UInt64.ofNat ullongMax)) := by
  have hset : liltGetenv (oneSetting "LILT_EVENT_BE_BLOCK_BUDGET".toList "2000".toList)
      "LILT_EVENT_BE_BLOCK_BUDGET".toList = some "2000".toList := by decide
  refine (parse_exact_iff hset _ _ _).1.mpr ?_
  have hwritten : Written "2000".toList false "2000".toList :=
    ⟨by decide, List.all_eq_true.mp (by decide), [], by simp, [], List.mem_cons_self, rfl⟩
  rw [hwritten.negationInRange_iff rfl]
  rintro ⟨hfalse, -⟩
  exact Bool.false_ne_true hfalse

/-- A block budget of minus one is accepted as the largest budget. -/
theorem minus_one_accepted :
    ¬ ParsedExactly "-1".toList 20000 1 (UInt64.ofNat ullongMax)
      (eventBeParseU64 (oneSetting "LILT_EVENT_BE_BLOCK_BUDGET".toList "-1".toList)
        "LILT_EVENT_BE_BLOCK_BUDGET".toList 20000 1
        (UInt64.ofNat ullongMax)) := by
  intro h
  have hwritten : Written "-1".toList true "1".toList :=
    ⟨by decide, List.all_eq_true.mp (by decide), [], by simp, ['-'], List.mem_cons_self, rfl⟩
  have hfallback := (hwritten.exact_iff_fallback (.inl rfl)).mp h
  exact absurd hfallback (by decide)

end Lilt.Config
