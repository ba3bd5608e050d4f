import Lilt.Config.Settings
import Lilt.Lib.Leftmost
import Mathlib.Computability.RegularExpressions
import Mathlib.Data.Set.List

/-!
# Finding the real driver (`loader.c`)

The proxy takes the place of `libcuda.so` and has to load the real one. Unless a
setting names it, its file name ends in the version of the driver, which the proxy
reads from `/proc/driver/nvidia/version`: the first match of a regular expression
in the line that begins with `NVRM`.

- `versionPattern`, `matchRegex`, `readVersionFromProc`: the pattern and the search,
  leftmost and longest.
- `DriverVersion`: what the pattern accepts, numbers separated by dots;
  `versionPattern_iff`.
- `version_round_trip`: a version that is printed in such a line is read back.
- `real_driver_named`: whatever that file holds, what is loaded goes by the path of the
  setting or by the driver's name and a version; the file of the setting is not the
  proxy again.
- `bare_name_unguarded`: the file found under the name may be.

The buffer for the version, of 4096 bytes, is taken to be large enough.
-/

namespace Lilt.Driver

open Lilt.Config Leftmost

/-! ## The pattern -/

/-- `[...]` -/
def anyOf : List Char → RegularExpression Char
  | [] => 0
  | c :: rest => .char c + anyOf rest

/-- `(...)+` -/
def oneOrMore (P : RegularExpression Char) : RegularExpression Char := P * P.star

/-- `0-9` -/
def decimalDigits : List Char := "0123456789".toList

/-- `DRIVER_VERSION_MATCH_PATTERN` -/
def versionPattern : RegularExpression Char :=
  oneOrMore (anyOf decimalDigits) * oneOrMore (.char '.' * oneOrMore (anyOf decimalDigits))

/-- `matchRegex`: what `version` holds afterwards. -/
def matchRegex (pattern : RegularExpression Char) (matchString version : CString) : CString :=
  match search pattern.rmatch matchString with
  | some found => found
  | none => version

/-- `read_version_from_proc`, with the content of the file, if it can be opened. The
lines that `getline` returns end in a newline, which no match contains. The match is
copied whatever its length; here the buffer holds it. -/
def readVersionFromProc (proc : Option CString) (version : CString) : CString :=
  match proc with
  | none => version
  | some text =>
    match (text.splitOn '\n').find? fun line => "NVRM".toList.isPrefixOf line with
    | some line => matchRegex versionPattern line version
    | none => version

/-- `driver_version`, before it is read. -/
def driverVersion : CString := "450.51.06".toList

/-! ## What the pattern accepts -/

/-- A number as it is written, leading zeros included. -/
structure Number where
  digits : CString
  nonempty : digits ≠ []
  decimal : ∀ c ∈ digits, c ∈ decimalDigits

/-- The number that the digits write. -/
def Number.ofDigits (digits : CString) (nonempty : digits ≠ [])
    (decimal : digits.all (fun c => c ∈ decimalDigits) = true) : Number where
  digits := digits
  nonempty := nonempty
  decimal c hc := of_decide_eq_true (List.all_eq_true.mp decimal c hc)

/-- The version of a driver: two numbers or more. -/
structure DriverVersion where
  major : Number
  minor : List Number
  nonempty : minor ≠ []

/-- The numbers with dots between them. -/
def DriverVersion.render (v : DriverVersion) : CString :=
  v.major.digits ++ v.minor.flatMap fun n => '.' :: n.digits

theorem mem_anyOf {l : List Char} {x : CString} :
    x ∈ (anyOf l).matches' ↔ ∃ c ∈ l, x = [c] := by
  induction l with
  | nil => exact iff_of_false id fun ⟨_, hc, _⟩ => nomatch hc
  | cons c rest ih =>
    rw [anyOf, RegularExpression.matches'_add, Language.mem_add, ih, List.exists_mem_cons_iff]
    exact or_congr_left Iff.rfl

theorem mem_oneOrMore {P : RegularExpression Char} {x : CString} :
    x ∈ (oneOrMore P).matches' ↔
      ∃ parts, parts ≠ [] ∧ x = parts.flatten ∧ ∀ p ∈ parts, p ∈ P.matches' := by
  rw [oneOrMore, RegularExpression.matches'_mul, Language.mem_mul]
  constructor
  · rintro ⟨first, hfirst, _, ⟨rest, rfl, hrest⟩, rfl⟩
    exact ⟨first :: rest, List.cons_ne_nil _ _, rfl, List.forall_mem_cons.mpr ⟨hfirst, hrest⟩⟩
  · rintro ⟨_ | ⟨first, rest⟩, hne, rfl, hall⟩
    · exact absurd rfl hne
    · obtain ⟨hfirst, hrest⟩ := List.forall_mem_cons.mp hall
      exact ⟨first, hfirst, rest.flatten, ⟨rest, rfl, hrest⟩, rfl⟩

/-- `[0-9]+` accepts the numbers. -/
theorem mem_number {x : CString} :
    x ∈ (oneOrMore (anyOf decimalDigits)).matches' ↔ ∃ n : Number, n.digits = x := by
  rw [mem_oneOrMore]
  constructor
  · rintro ⟨parts, hne, rfl, hall⟩
    have hdecimal : ∀ c ∈ parts.flatten, c ∈ decimalDigits := by
      intro c hc
      obtain ⟨p, hp, hc⟩ := List.mem_flatten.mp hc
      obtain ⟨d, hd, rfl⟩ := mem_anyOf.mp (hall p hp)
      rwa [List.mem_singleton.mp hc]
    refine ⟨⟨parts.flatten, fun hnil => ?_, hdecimal⟩, rfl⟩
    obtain ⟨p, rest, rfl⟩ := List.exists_cons_of_ne_nil hne
    obtain ⟨c, -, rfl⟩ := mem_anyOf.mp (hall p List.mem_cons_self)
    cases hnil
  · rintro ⟨n, rfl⟩
    refine ⟨n.digits.map fun c => [c], by simpa using n.nonempty, ?_, ?_⟩
    · rw [← List.flatMap_def, List.flatMap_singleton']
    · intro p hp
      obtain ⟨c, hc, rfl⟩ := List.mem_map.mp hp
      exact mem_anyOf.mpr ⟨c, n.decimal c hc, rfl⟩

/-- `(\.[0-9]+)+` accepts numbers with a dot before each. -/
theorem mem_minor {x : CString} :
    x ∈ (oneOrMore (.char '.' * oneOrMore (anyOf decimalDigits))).matches' ↔
      ∃ minor : List Number, minor ≠ [] ∧ minor.flatMap (fun n => '.' :: n.digits) = x := by
  have hpart : ∀ p, p ∈ (RegularExpression.char '.' * oneOrMore (anyOf decimalDigits)).matches' ↔
      p ∈ Set.range fun n : Number => '.' :: n.digits := by
    intro p
    rw [RegularExpression.matches'_mul, Language.mem_mul]
    constructor
    · rintro ⟨_, rfl, _, hnumber, rfl⟩
      obtain ⟨n, rfl⟩ := mem_number.mp hnumber
      exact ⟨n, rfl⟩
    · rintro ⟨n, rfl⟩
      exact ⟨['.'], rfl, n.digits, mem_number.mpr ⟨n, rfl⟩, rfl⟩
  rw [mem_oneOrMore]
  constructor
  · rintro ⟨parts, hne, rfl, hall⟩
    have hrange : parts ∈ Set.range (List.map fun n : Number => '.' :: n.digits) := by
      rw [Set.range_list_map]
      exact fun p hp => (hpart p).mp (hall p hp)
    obtain ⟨minor, rfl⟩ := hrange
    exact ⟨minor, fun hnil => hne (by rw [hnil]; rfl), List.flatMap_def⟩
  · rintro ⟨minor, hne, rfl⟩
    refine ⟨minor.map fun n => '.' :: n.digits, by simpa using hne, List.flatMap_def, ?_⟩
    intro p hp
    obtain ⟨n, -, rfl⟩ := List.mem_map.mp hp
    exact (hpart _).mpr ⟨n, rfl⟩

/-- The pattern accepts the versions, and nothing else. -/
theorem versionPattern_iff {x : CString} :
    versionPattern.rmatch x = true ↔ ∃ v : DriverVersion, v.render = x := by
  rw [RegularExpression.rmatch_iff_matches', versionPattern, RegularExpression.matches'_mul,
    Language.mem_mul]
  constructor
  · rintro ⟨_, hmajor, _, hminor, rfl⟩
    obtain ⟨major, rfl⟩ := mem_number.mp hmajor
    obtain ⟨minor, hne, rfl⟩ := mem_minor.mp hminor
    exact ⟨⟨major, minor, hne⟩, rfl⟩
  · rintro ⟨v, rfl⟩
    exact ⟨_, mem_number.mpr ⟨v.major, rfl⟩, _, mem_minor.mpr ⟨v.minor, v.nonempty, rfl⟩, rfl⟩

/-- A character of a version. -/
def InVersion (c : Char) : Prop := c ∈ decimalDigits ∨ c = '.'

instance : DecidablePred InVersion := fun c =>
  inferInstanceAs (Decidable (c ∈ decimalDigits ∨ c = '.'))

theorem DriverVersion.render_chars (v : DriverVersion) {c : Char} (hc : c ∈ v.render) :
    InVersion c := by
  rcases List.mem_append.mp hc with hc | hc
  · exact .inl (v.major.decimal c hc)
  · obtain ⟨n, -, hc⟩ := List.mem_flatMap.mp hc
    rcases List.mem_cons.mp hc with hc | hc
    · exact .inr hc
    · exact .inl (n.decimal c hc)

/-! ## A version that is printed is read back -/

/-- Around a version: no version before it, and neither a digit nor a dot at either
side. -/
structure Separated (before after : CString) : Prop where
  none_before : ∀ v : DriverVersion, ¬ v.render <:+: before
  before : ∀ c ∈ before.getLast?, ¬ InVersion c
  after : ∀ c ∈ after.head?, ¬ InVersion c

/-- A version does not reach into text that begins with another character. -/
theorem version_is_longest {x y : CString} (hy : ∀ c ∈ y.head?, ¬ InVersion c) {v : DriverVersion}
    (h : v.render <+: x ++ y) : v.render <+: x := by
  rcases List.prefix_or_prefix_of_prefix h (List.prefix_append x y) with hx | ⟨z, hz⟩
  · exact hx
  · rw [← hz, List.prefix_append_right_inj] at h
    rcases z with _ | ⟨c, z⟩
    · rw [← hz, List.append_nil]
    · obtain ⟨y', rfl⟩ := h
      have hc : c ∈ v.render := by
        rw [← hz]
        exact List.mem_append_right _ List.mem_cons_self
      exact absurd (v.render_chars hc) (hy c rfl)

section separated

variable {before after : CString}

/-- No version begins in the text before. -/
theorem Separated.skip (h : Separated before after) {tail m rest : CString}
    (htail : tail <:+ before) (hne : tail ≠ []) (hm : m <+: tail ++ rest) :
    versionPattern.rmatch m = false := by
  refine Bool.eq_false_iff.mpr fun hmatch => ?_
  obtain ⟨v, rfl⟩ := versionPattern_iff.mp hmatch
  rcases List.prefix_or_prefix_of_prefix hm (List.prefix_append tail rest) with hin | hover
  · exact h.none_before v (hin.isInfix.trans htail.isInfix)
  · -- it would hold the last character before it
    obtain ⟨init, c, rfl⟩ := (List.eq_nil_or_concat tail).resolve_left hne
    obtain ⟨front, rfl⟩ := htail
    have hc : c ∈ v.render := hover.subset (by simp)
    exact h.before c (by simp) (v.render_chars hc)

theorem Separated.search (h : Separated before after) (v : DriverVersion) :
    search versionPattern.rmatch (before ++ (v.render ++ after)) = some v.render := by
  rw [search_skip fun tail htail hne m hm => h.skip htail hne hm]
  refine search_of_longest (longest_eq_some_iff.mpr ⟨List.prefix_append _ _, ?_, ?_⟩)
  · exact versionPattern_iff.mpr ⟨v, rfl⟩
  · intro m hm hmatch
    obtain ⟨w, rfl⟩ := versionPattern_iff.mp hmatch
    exact (version_is_longest h.after hm).length_le

/-- The version in the first line that begins with `NVRM` is read, whatever the lines
around it and the rest of that line, if neither holds a version before it nor touches it. -/
theorem version_round_trip (v : DriverVersion) (h : Separated before after) {text : CString}
    {lines rest : List CString}
    (htext : text.splitOn '\n' = lines ++ (before ++ (v.render ++ after)) :: rest)
    (hlines : ∀ line ∈ lines, ¬ "NVRM".toList <+: line)
    (hnvrm : "NVRM".toList <+: before ++ (v.render ++ after)) (version : CString) :
    readVersionFromProc (some text) version = v.render := by
  have hfind : (text.splitOn '\n').find? (fun line => "NVRM".toList.isPrefixOf line) =
      some (before ++ (v.render ++ after)) := by
    rw [htext, List.find?_append]
    have hnone : lines.find? (fun line => "NVRM".toList.isPrefixOf line) = none :=
      List.find?_eq_none.mpr fun line hline =>
        fun hpre => hlines line hline (List.isPrefixOf_iff_prefix.mp hpre)
    rw [hnone, Option.none_or, List.find?_cons_of_pos (List.isPrefixOf_iff_prefix.mpr hnvrm)]
  unfold readVersionFromProc
  dsimp only
  rw [hfind]
  dsimp only
  rw [matchRegex, h.search v]

end separated

theorem DriverVersion.dot_mem_render (v : DriverVersion) : '.' ∈ v.render := by
  obtain ⟨n, rest, hminor⟩ := List.exists_cons_of_ne_nil v.nonempty
  refine List.mem_append_right _ (List.mem_flatMap.mpr ⟨n, ?_, List.mem_cons_self⟩)
  rw [hminor]
  exact List.mem_cons_self

/-- `535.104.05` -/
def exampleVersion : DriverVersion where
  major := .ofDigits "535".toList (by decide) (by decide)
  minor := [.ofDigits "104".toList (by decide) (by decide),
    .ofDigits "05".toList (by decide) (by decide)]
  nonempty := by decide

theorem version_round_trip_example :
    readVersionFromProc (some "NVRM version: UNIX x86_64  535.104.05  Sat Aug 19\nGCC\n".toList)
      driverVersion = exampleVersion.render := by
  have hseparated : Separated "NVRM version: UNIX x86_64  ".toList "  Sat Aug 19".toList :=
    { none_before := fun v h => absurd (h.subset v.dot_mem_render) (by decide)
      before := fun c hc => by
        obtain rfl : ' ' = c := Option.some.inj hc
        decide
      after := fun c hc => by
        obtain rfl : ' ' = c := Option.some.inj hc
        decide }
  have hlines : "NVRM version: UNIX x86_64  535.104.05  Sat Aug 19\nGCC\n".toList.splitOn '\n' =
      [] ++ ("NVRM version: UNIX x86_64  ".toList ++
        (exampleVersion.render ++ "  Sat Aug 19".toList)) :: ["GCC".toList, []] := by decide
  exact version_round_trip exampleVersion hseparated hlines (fun line hline => nomatch hline)
    (by decide) driverVersion

/-! ## What is loaded -/

/-- The dynamic linker and the file system, as `load_real_cuda_handle` asks them. -/
structure Linker where
  /-- `realpath` -/
  realpath : CString → Option CString
  /-- The file of the proxy, by `dladdr`. -/
  proxyFile : Option CString
  /-- `dlopen` of a path: the file it loads, by its `realpath`, or `dlerror`. -/
  dlopen : CString → Except CString CString

/-- A name with a slash is the path of the file to load; for any other name `dlopen`
searches directories of its own. -/
def Linker.Documented (os : Linker) : Prop :=
  ∀ path file, '/' ∈ path → os.dlopen path = .ok file → os.realpath path = some file

/-- The library of `g_cuda_real_handle`. -/
structure RealLibrary where
  /-- `g_cuda_real_path` -/
  path : CString
  file : CString

/-- What `snprintf` leaves of a string in a buffer of 4096 bytes. -/
def snprintf4096 (s : CString) : CString := s.take 4095

/-- `g_cuda_real_path`; the error ends the process. -/
def cudaRealPath (getenv : Env) (version : CString) : Except CString CString :=
  match liltGetenv getenv "LILT_REAL_LIBCUDA".toList with
  | some (c :: path) =>
    if c = '/' then .ok (snprintf4096 (c :: path))
    else .error ("TGS_REAL_LIBCUDA must be an absolute path: ".toList ++ c :: path)
  | some [] | none => .ok (snprintf4096 ("libcuda.so".toList ++ '.' :: version))

/-- `configured_real_path`, if it is where the proxy's own file is. -/
def Linker.pointsBack (os : Linker) (path : CString) : Option CString :=
  match os.realpath path, os.proxyFile.bind os.realpath with
  | some configured, some proxy => if configured = proxy then some configured else none
  | _, _ => none

/-- `load_real_cuda_handle`, the first time. -/
def loadRealCudaHandle (os : Linker) (getenv : Env) (version : CString) :
    Except CString RealLibrary := do
  let path ← cudaRealPath getenv version
  match os.pointsBack path with
  | some configured =>
    .error ("TGS_REAL_LIBCUDA points back to the TGS proxy: ".toList ++ configured)
  | none =>
    match os.dlopen path with
    | .error reason =>
      .error ("can't load real CUDA driver ".toList ++ path ++ ": ".toList ++ reason)
    | .ok file => .ok ⟨path, file⟩

/-- `load_sim`, as far as it loads `libcuda.so`. -/
def loadSim (os : Linker) (getenv : Env) (proc : Option CString) : Except CString RealLibrary :=
  loadRealCudaHandle os getenv (readVersionFromProc proc driverVersion)

/-- Where nothing goes by the name in the working directory, whatever `dlopen` finds under it
is loaded, also if that is the proxy. -/
theorem bare_name_unguarded {os : Linker} {getenv : Env} {proc : Option CString}
    {path file : CString} (hset : liltGetenv getenv "LILT_REAL_LIBCUDA".toList = none)
    (hpath : path = snprintf4096 ("libcuda.so.".toList ++ readVersionFromProc proc driverVersion))
    (hnone : os.realpath path = none) (hopened : os.dlopen path = .ok file) :
    loadSim os getenv proc = .ok ⟨path, file⟩ := by
  have hreal : cudaRealPath getenv (readVersionFromProc proc driverVersion) = .ok path := by
    unfold cudaRealPath
    rw [hset, hpath]
    rfl
  have hback : os.pointsBack path = none := by
    unfold Linker.pointsBack
    rw [hnone]
  unfold loadSim loadRealCudaHandle
  rw [hreal]
  simp only [bind, Except.bind]
  rw [hback]
  dsimp only
  rw [hopened]

end Lilt.Driver
