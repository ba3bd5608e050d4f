import Lilt.Be.Config
import Lilt.Config.Launcher
import Lilt.Graph.Settings
import Lilt.Hp.Settings

/-!
# What the proxies read of the launcher's settings

The launcher writes its arguments into the environment and the proxies parse them
with ranges of their own. The two sides agree on the counts; of the intervals the
launcher only checks that they are positive, while a proxy takes the default for
one above a second.

- `IsAlias`: the names under which `lilt_getenv` looks a setting up.
- `getenv_none_of_not_alias`: nothing inherited leaks in under any other name.
- `Agrees`: the proxies read what the launcher was given.
- `launcher_proxies_agree_iff`: they do just if no interval is above a second.
-/

namespace Lilt.Config

open Checks Lilt.Be Lilt.Graph Lilt.Hp

/-! ## The argument parser -/

/-- `positive`, of the number that `int` makes of the text. -/
def positive (number : Int) : Except String Int := do
  require (1 ≤ number) "must be positive"
  return number

/-- The arguments that have `type=positive`. -/
def positiveArguments (args : LauncherArgs) : List Int :=
  [args.beCount, args.window, args.timeBudgetNs, args.unknownKernelNs, args.quietNs,
    args.graphletNodes]

/-- The choices of `--graph-mode`. -/
def graphModeChoices : List CString := ["whole".toList, "graphlet".toList]

/-- `parse_args` accepts the arguments. -/
def parserAccepts (args : LauncherArgs) : Bool :=
  (positiveArguments args).all (fun number => (positive number).isOk) &&
    graphModeChoices.contains args.graphMode

theorem positive_isOk {number : Int} : (positive number).isOk = true ↔ 1 ≤ number := by
  unfold positive require
  by_cases h : 1 ≤ number
  · simp [h, Except.isOk, Except.toBool, Bind.bind, Except.bind, Pure.pure, Except.pure]
  · simp [h, Except.isOk, Except.toBool, Bind.bind, Except.bind]

theorem parserAccepts_positive {args : LauncherArgs} (h : parserAccepts args = true) :
    ∀ number ∈ positiveArguments args, 1 ≤ number := by
  intro number hnumber
  rw [parserAccepts, Bool.and_eq_true, List.all_eq_true] at h
  exact positive_isOk.mp (h.1 number hnumber)

theorem parserAccepts_graphMode {args : LauncherArgs} (h : parserAccepts args = true) :
    args.graphMode ∈ graphModeChoices := by
  rw [parserAccepts, Bool.and_eq_true, List.contains_iff_mem] at h
  exact h.2

/-! ## Aliases -/

/-- A setting whose old name starts with `TGS_`. -/
def hasLegacyName (suffix : CString) : Bool :=
  "EVENT_".toList.isPrefixOf suffix || suffix = "POLICY".toList ||
    suffix = "REAL_LIBCUDA".toList

/-- The names that stand for a setting: its own, the legacy one, and both with the
old word `LP` for `BE`. -/
inductive IsAlias : (setting name : CString) → Prop where
  | canonical (suffix : CString) : IsAlias ("LILT_".toList ++ suffix) ("LILT_".toList ++ suffix)
  | legacy (suffix : CString) (h : hasLegacyName suffix = true) :
      IsAlias ("LILT_".toList ++ suffix) ("TGS_".toList ++ suffix)
  | lp (key : CString) :
      IsAlias ("LILT_EVENT_BE_".toList ++ key) ("LILT_EVENT_LP_".toList ++ key)
  | legacyLp (key : CString) :
      IsAlias ("LILT_EVENT_BE_".toList ++ key) ("TGS_EVENT_LP_".toList ++ key)

/-- A name of a policy setting. -/
def isSettingName (name : CString) : Bool :=
  "TGS_".toList.isPrefixOf name || "LILT_".toList.isPrefixOf name

/-- The names that the launcher sets. -/
def launcherNames : List CString :=
  ["CUDA_VISIBLE_DEVICES".toList, "LILT_REAL_LIBCUDA".toList, "LD_PRELOAD".toList,
    "LILT_POLICY".toList, "LILT_EVENT_SHM_NAME".toList, "LILT_EVENT_COMPLETION_MODE".toList,
    "LILT_EVENT_BLOCKING_QUIET_NS".toList, "LILT_EVENT_BE_POLICY".toList,
    "LILT_EVENT_BE_COUNT".toList, "LILT_EVENT_BE_WINDOW".toList,
    "LILT_EVENT_BE_TIME_BUDGET_NS".toList, "LILT_EVENT_BE_UNKNOWN_KERNEL_NS".toList,
    "LILT_EVENT_BE_GRAPH_MODE".toList, "LILT_EVENT_BE_GRAPHLET_MAX_NODES".toList]

theorem launcherEntries_names (host : Host) (args : LauncherArgs) (driver : CString) :
    (launcherEntries host args driver).map Prod.fst = launcherNames := rfl

/-- None of them is a legacy name, and each fits into the buffers of the lookup. -/
theorem launcherNames_plain : ∀ n ∈ launcherNames,
    "TGS_".toList.isPrefixOf n = false ∧ n.length < 255 := by
  decide +kernel

/-- An entry whose name no other one has is found. -/
theorem lookup_of_nodup {α β : Type} [BEq α] [LawfulBEq α] {entries : List (α × β)}
    (hnodup : (entries.map Prod.fst).Nodup) {i : Nat} {name : α} {value : β}
    (h : entries[i]? = some (name, value)) : entries.lookup name = some value := by
  induction entries generalizing i with
  | nil => cases h
  | cons entry rest ih =>
    rw [List.map_cons, List.nodup_cons] at hnodup
    cases i with
    | zero =>
      obtain rfl := Option.some.inj h
      exact List.lookup_cons_self
    | succ i =>
      rw [List.getElem?_cons_succ] at h
      have hne : (name == entry.1) = false := by
        refine beq_false_of_ne fun heq => hnodup.1 ?_
        rw [← heq]
        exact List.mem_map.mpr ⟨_, List.mem_of_getElem? h, rfl⟩
      rw [List.lookup_cons, hne]
      exact ih hnodup.2 h

/-- The names differ, so every entry is found. -/
theorem launcherEntries_lookup {host : Host} {args : LauncherArgs} {driver name value : CString}
    (i : Nat) (h : (launcherEntries host args driver)[i]? = some (name, value)) :
    (launcherEntries host args driver).lookup name = some value := by
  have hnodup : ((launcherEntries host args driver).map Prod.fst).Nodup := by
    rw [launcherEntries_names]
    decide +kernel
  exact lookup_of_nodup hnodup h

theorem eq_append_of_isPrefixOf {p name : CString} (h : p.isPrefixOf name = true) :
    name = p ++ name.drop p.length :=
  List.prefix_iff_eq_append.mp (List.isPrefixOf_iff_prefix.mp h) |>.symm

/-- The suffix of a name and the name say the same. -/
theorem settingSuffix_some {name suffix : CString} (h : settingSuffix name = some suffix) :
    name = "LILT_".toList ++ suffix ∨
      name = "TGS_".toList ++ suffix ∧ hasLegacyName suffix = true := by
  unfold settingSuffix at h
  split at h
  next hlilt =>
    cases h
    exact .inl (eq_append_of_isPrefixOf hlilt)
  next =>
    split at h
    next htgs =>
      cases h
      right
      simp only [Bool.or_eq_true, decide_eq_true_eq] at htgs
      rcases htgs with (hevent | rfl) | rfl
      · have hname : name = "TGS_".toList ++ ("EVENT_".toList ++ name.drop 10) :=
          eq_append_of_isPrefixOf hevent
        generalize name.drop 10 = key at hname
        subst hname
        refine ⟨rfl, ?_⟩
        have hprefix : "EVENT_".toList.isPrefixOf ("EVENT_".toList ++ key) = true :=
          List.isPrefixOf_iff_prefix.mpr (List.prefix_append _ _)
        show hasLegacyName ("EVENT_".toList ++ key) = true
        rw [hasLegacyName, hprefix]
        rfl
      · exact ⟨rfl, by decide⟩
      · exact ⟨rfl, by decide⟩
    next => cases h

/-- A name that is short enough is not cut off. -/
theorem eq_of_snprintf256_eq {s t : CString} (h : snprintf256 s = t) (ht : t.length < 255) :
    s = t := by
  subst h
  rw [snprintf256, List.length_take] at ht
  exact (List.take_of_length_le (by omega)).symm

/-- A setting that is looked up under its canonical name goes by an alias. -/
theorem isAlias_of_canonicalName {name suffix setting : CString}
    (hsuffix : settingSuffix name = some suffix) (hshort : setting.length < 255)
    (h : canonicalName suffix = setting) : IsAlias setting name := by
  have hname := settingSuffix_some hsuffix
  unfold canonicalName at h
  split at h
  next hlp =>
    -- `EVENT_LP_` becomes `EVENT_BE_`
    obtain rfl := eq_of_snprintf256_eq h hshort
    have hkey : suffix = "EVENT_LP_".toList ++ suffix.drop 9 := eq_append_of_isPrefixOf hlp
    generalize suffix.drop 9 = key at hkey
    subst hkey
    rcases hname with rfl | ⟨rfl, -⟩
    · exact .lp key
    · exact .legacyLp key
  next =>
    obtain rfl := eq_of_snprintf256_eq h hshort
    rcases hname with rfl | ⟨rfl, hlegacy⟩
    · exact .canonical suffix
    · exact .legacy suffix hlegacy

/-! ## Nothing inherited leaks in -/

section prepared

variable {host : Host} {args : LauncherArgs} {base env : Env} {driver : CString}
  (henv : env = (base.withoutPolicy.update (launcherEntries host args driver)).update
    (libraryPathEntry host args base))

include henv

/-- A name of a policy setting is set by the launcher or by nobody. -/
theorem prepared_settingName {name : CString} (hname : isSettingName name = true) :
    env name = (launcherEntries host args driver).lookup name := by
  have hne : name ≠ "LD_LIBRARY_PATH".toList := by
    rintro rfl
    exact absurd hname (by decide)
  rw [henv, libraryPath_update host args base _ hne, Env.update]
  split
  next value hvalue => exact hvalue.symm
  next hnone =>
    rw [hnone, Env.withoutPolicy]
    exact if_pos hname

/-- Only names of the launcher's list are set. -/
theorem prepared_mem {name value : CString} (hname : isSettingName name = true)
    (h : env name = some value) : name ∈ launcherNames := by
  rw [prepared_settingName henv hname] at h
  rw [← launcherEntries_names host args driver]
  obtain ⟨l₁, l₂, hsplit, -⟩ := List.lookup_eq_some_iff.mp h
  rw [hsplit]
  simp

/-- The launcher sets no name that starts with `TGS_`. -/
theorem prepared_legacy {name : CString} (hname : "TGS_".toList.isPrefixOf name = true) :
    env name = none := by
  by_contra hset
  obtain ⟨value, hvalue⟩ := Option.ne_none_iff_exists'.mp hset
  have hmem := prepared_mem henv (by rw [isSettingName, hname]; rfl) hvalue
  rw [(launcherNames_plain name hmem).1] at hname
  cases hname

/-- A setting that the proxies' lookup finds goes by an alias of a name the
launcher sets. -/
theorem prepared_alias {name value : CString} (hname : isSettingName name = true)
    (h : liltGetenv env name = some value) : ∃ setting ∈ launcherNames, IsAlias setting name := by
  unfold liltGetenv at h
  split at h
  next hnone =>
    -- a baseline setting, looked up as it is
    have htgs : "TGS_".toList.isPrefixOf name = true := by
      rw [isSettingName, Bool.or_eq_true] at hname
      refine hname.resolve_right fun hlilt => ?_
      rw [settingSuffix, if_pos hlilt] at hnone
      cases hnone
    rw [prepared_legacy henv htgs] at h
    cases h
  next suffix hsuffix =>
    have hprefix : ∀ p s : CString, p.length ≤ 255 →
        p.isPrefixOf (snprintf256 (p ++ s)) = true := by
      intro p s hp
      rw [snprintf256, List.take_append, List.take_of_length_le hp]
      exact List.isPrefixOf_iff_prefix.mpr (List.prefix_append _ _)
    split at h
    next found hfound =>
      have hmem : canonicalName suffix ∈ launcherNames := by
        refine prepared_mem henv ?_ hfound
        rw [isSettingName, Bool.or_eq_true]
        right
        unfold canonicalName
        split
        · exact hprefix "LILT_".toList ("EVENT_BE_".toList ++ suffix.drop 9) (by decide)
        · exact hprefix "LILT_".toList suffix (by decide)
      have hshort := (launcherNames_plain _ hmem).2
      exact ⟨_, hmem, isAlias_of_canonicalName hsuffix hshort rfl⟩
    next =>
      have htgs : "TGS_".toList.isPrefixOf (legacyName ((canonicalName suffix).drop 5)) = true := by
        unfold legacyName
        split
        · exact hprefix "TGS_".toList ("EVENT_LP_".toList ++ _) (by decide)
        · exact hprefix "TGS_".toList _ (by decide)
      rw [prepared_legacy henv htgs] at h
      cases h

/-- No other name of a policy setting is found. -/
theorem getenv_none_of_not_alias {name : CString} (hname : isSettingName name = true)
    (h : ∀ setting ∈ launcherNames, ¬ IsAlias setting name) : liltGetenv env name = none := by
  by_contra hset
  obtain ⟨value, hvalue⟩ := Option.ne_none_iff_exists'.mp hset
  obtain ⟨setting, hmem, halias⟩ := prepared_alias henv hname hvalue
  exact h setting hmem halias

end prepared

/-! ## Agreement -/

/-- `g_be_window` before it is partitioned. -/
def windowSetting (getenv : Env) : Nat := parseWindow getenv "LILT_EVENT_BE_WINDOW".toList 1

/-- `g_be_time_budget_ns` before it is partitioned. -/
def timeBudgetSetting (getenv : Env) : UInt64 :=
  eventBeParseU64 getenv "LILT_EVENT_BE_TIME_BUDGET_NS".toList (100 * 1000) 1 secondNs

/-- `g_be_unknown_kernel_ns` -/
def unknownKernelSetting (getenv : Env) : UInt64 :=
  eventBeParseU64 getenv "LILT_EVENT_BE_UNKNOWN_KERNEL_NS".toList (20 * 1000) 1 secondNs

/-- These are the values that `event_be_initialize_window` goes on with. -/
theorem initializeWindow_settings (getenv : Env) :
    (eventBeInitializeWindow getenv).window =
        eventBePartitionWindow (windowSetting getenv) (eventBeCount getenv) ∧
      (eventBeInitializeWindow getenv).timeBudgetNs =
        eventBePartitionBudget (timeBudgetSetting getenv) (eventBeCount getenv) ∧
      (eventBeInitializeWindow getenv).unknownKernelNs = unknownKernelSetting getenv :=
  ⟨rfl, rfl, rfl⟩

/-- The proxies read what the launcher was given, and nothing else. -/
structure Agrees (args : LauncherArgs) (env : Env) : Prop where
  quietNs : eventBlockingQuietNs env = args.quietNs
  beCount : (eventBeCount env : Int) = args.beCount
  window : (windowSetting env : Int) = args.window
  timeBudgetNs : ((timeBudgetSetting env).toNat : Int) = args.timeBudgetNs
  unknownKernelNs : ((unknownKernelSetting env).toNat : Int) = args.unknownKernelNs
  graphMode : graphModeName (graphInitializeConfig true env).mode = args.graphMode
  graphletNodes : ((graphInitializeConfig true env).graphletMaxNodes : Int) = args.graphletNodes
  noLeak : ∀ name, isSettingName name = true →
    (∀ setting ∈ launcherNames, ¬ IsAlias setting name) → liltGetenv env name = none

section agreement

variable {host : Host} {args : LauncherArgs} {base env : Env} {driver : CString}
  (henv : env = (base.withoutPolicy.update (launcherEntries host args driver)).update
    (libraryPathEntry host args base))

include henv

/-- A positive number of the launcher, read back under the range of the window code. -/
theorem parsed_eq_iff {name : CString} {n : Int} {fallback maximum : UInt64}
    (hentry : (launcherEntries host args driver).lookup name = some (decimal n)) (hpos : 1 ≤ n)
    (hname : "LILT_".toList.isPrefixOf name = true)
    (hcanonical : canonicalName (name.drop 5) = name) (hfallback : fallback ≤ maximum) :
    ((eventBeParseU64 env name fallback 1 maximum).toNat : Int) = n ↔ n ≤ maximum.toNat := by
  have hread := eventBeParseU64_eq_iff
    (prepareEnvironment_number henv hentry hpos hname hcanonical) (by omega) hfallback
  omega

theorem beCount_agrees (hpos : 1 ≤ args.beCount) (hmax : args.beCount ≤ 64) :
    (eventBeCount env : Int) = args.beCount :=
  (parsed_eq_iff henv (launcherEntries_lookup 8 rfl) hpos (by decide) (by decide)
    (by decide)).mpr hmax

theorem window_agrees (hpos : 1 ≤ args.window) (hmax : args.window ≤ 64) :
    (windowSetting env : Int) = args.window :=
  (parsed_eq_iff henv (launcherEntries_lookup 9 rfl) hpos (by decide) (by decide)
    (by decide)).mpr hmax

theorem timeBudget_agrees_iff (hpos : 1 ≤ args.timeBudgetNs) :
    ((timeBudgetSetting env).toNat : Int) = args.timeBudgetNs ↔
      args.timeBudgetNs ≤ 1000000000 :=
  parsed_eq_iff henv (launcherEntries_lookup 10 rfl) hpos (by decide) (by decide) (by decide)

theorem unknownKernel_agrees_iff (hpos : 1 ≤ args.unknownKernelNs) :
    ((unknownKernelSetting env).toNat : Int) = args.unknownKernelNs ↔
      args.unknownKernelNs ≤ 1000000000 :=
  parsed_eq_iff henv (launcherEntries_lookup 11 rfl) hpos (by decide) (by decide) (by decide)

theorem quiet_agrees_iff (hpos : 1 ≤ args.quietNs) :
    eventBlockingQuietNs env = args.quietNs ↔ args.quietNs ≤ 1000000000 := by
  have hfound : liltGetenv env "LILT_EVENT_BLOCKING_QUIET_NS".toList =
      some (Nat.toDigits 10 args.quietNs.toNat) :=
    prepareEnvironment_number henv (launcherEntries_lookup 6 rfl) hpos (by decide) (by decide)
  have hmax : eventIntervalNsMax = 1000000000 := rfl
  have hbase : (20 * 1000 : Int) ≤ eventIntervalNsMax := by decide
  have hread := eventIntervalNs_eq_iff hfound hbase
  rw [eventBlockingQuietNs]
  omega

theorem graphletNodes_agrees (hpos : 1 ≤ args.graphletNodes) (hmax : args.graphletNodes ≤ 4096) :
    (graphletMaxNodes env : Int) = args.graphletNodes := by
  rw [graphletMaxNodes, graphParseU64_eq env _ (by decide)]
  exact (parsed_eq_iff henv (launcherEntries_lookup 13 rfl) hpos (by decide) (by decide)
    (by decide)).mpr hmax

theorem graphMode_agrees (hmode : args.graphMode ∈ graphModeChoices) :
    graphModeName (graphInitializeConfig true env).mode = args.graphMode := by
  have hfound : liltGetenv env "LILT_EVENT_BE_GRAPH_MODE".toList = some args.graphMode :=
    prepareEnvironment_setting henv (launcherEntries_lookup 12 rfl) (by decide) (by decide)
  show graphModeName (graphModeOfName (liltGetenv env _)) = args.graphMode
  rw [hfound]
  have hchoices : ∀ mode ∈ graphModeChoices,
      graphModeName (graphModeOfName (some mode)) = mode := by decide
  exact hchoices _ hmode

end agreement

/-- For all arguments that the launcher accepts, in every environment, the proxies
read the same settings exactly when no interval is above a second. -/
theorem launcher_proxies_agree_iff {host : Host} {args : LauncherArgs} {base env : Env}
    (hparse : parserAccepts args = true) (h : prepareEnvironment host args base = .ok env) :
    Agrees args env ↔ args.timeBudgetNs ≤ 1000000000 ∧ args.unknownKernelNs ≤ 1000000000 ∧
      args.quietNs ≤ 1000000000 := by
  have hpos := parserAccepts_positive hparse
  simp only [positiveArguments, List.forall_mem_cons] at hpos
  obtain ⟨hcount, hwindow, hbudget, hunknown, hquiet, hnodes, -⟩ := hpos
  obtain ⟨⟨-, hcountMax⟩, ⟨-, hwindowMax⟩, -, driver, -, henv⟩ := prepareEnvironment_ok h
  constructor
  · intro hagrees
    exact ⟨(timeBudget_agrees_iff henv hbudget).mp hagrees.timeBudgetNs,
      (unknownKernel_agrees_iff henv hunknown).mp hagrees.unknownKernelNs,
      (quiet_agrees_iff henv hquiet).mp hagrees.quietNs⟩
  · rintro ⟨hbudgetMax, hunknownMax, hquietMax⟩
    exact
      { quietNs := (quiet_agrees_iff henv hquiet).mpr hquietMax
        beCount := beCount_agrees henv hcount hcountMax
        window := window_agrees henv hwindow hwindowMax
        timeBudgetNs := (timeBudget_agrees_iff henv hbudget).mpr hbudgetMax
        unknownKernelNs := (unknownKernel_agrees_iff henv hunknown).mpr hunknownMax
        graphMode := graphMode_agrees henv (parserAccepts_graphMode hparse)
        graphletNodes := graphletNodes_agrees henv hnodes (prepareEnvironment_graphletNodes h)
        noLeak := fun _ hname hnot => getenv_none_of_not_alias henv hname hnot }

/-! ## A budget of two seconds -/

/-- A host with the proxies installed. -/
def installedHost : Host where
  root := "/opt/lilt".toList
  uid := 1000
  isFile _ := true
  resolve path := path
  ldconfig := none

/-- An environment with an old policy in it. -/
def inheritedEnv : Env := fun name =>
  if name = "TGS_REAL_LIBCUDA".toList then some "/usr/lib/libcuda.so.1".toList
  else if name = "TGS_POLICY".toList then some "tgs".toList
  else if name = "LILT_EVENT_PASSTHROUGH".toList then some "1".toList
  else none

/-- The default arguments of a BE process, but for the time budget. -/
def budgetArgs (timeBudgetNs : Int) : LauncherArgs where
  role := .be
  session := "run".toList
  gpu := "0".toList
  beCount := 1
  window := 64
  timeBudgetNs := timeBudgetNs
  quietNs := 20000
  unknownKernelNs := 20000
  graphMode := "whole".toList
  graphletNodes := 8
  keepLibraryPath := false

/-- The launcher accepts a budget of two seconds, which the proxy replaces by its
default. -/
theorem launcher_proxies_disagree :
    ¬ ∀ (host : Host) (args : LauncherArgs) (base env : Env), parserAccepts args = true →
      prepareEnvironment host args base = .ok env → Agrees args env := by
  intro hall
  have hparse : parserAccepts (budgetArgs 2000000000) = true := by decide
  have hok : ∃ env, prepareEnvironment installedHost (budgetArgs 2000000000) inheritedEnv =
      .ok env := ⟨_, rfl⟩
  obtain ⟨env, henv⟩ := hok
  obtain ⟨-, -, -, driver, -, hupdate⟩ := prepareEnvironment_ok henv
  have hagrees := (hall _ _ _ _ hparse henv).timeBudgetNs
  have hlimit := (timeBudget_agrees_iff hupdate (by decide)).mp hagrees
  exact absurd hlimit (by decide)

/-- With the default budget nothing of the old policy is left and the settings
agree. -/
theorem launcher_proxies_agree_default : ∃ env,
    prepareEnvironment installedHost (budgetArgs 80000) inheritedEnv = .ok env ∧
      (Agrees (budgetArgs 80000) env ↔
        (budgetArgs 80000).timeBudgetNs ≤ 1000000000 ∧
          (budgetArgs 80000).unknownKernelNs ≤ 1000000000 ∧
          (budgetArgs 80000).quietNs ≤ 1000000000) := by
  have hok : ∃ env, prepareEnvironment installedHost (budgetArgs 80000) inheritedEnv =
      .ok env := ⟨_, rfl⟩
  obtain ⟨env, henv⟩ := hok
  exact ⟨env, henv, launcher_proxies_agree_iff (by decide) henv⟩

end Lilt.Config
