import Lilt.Config.Settings
import Lilt.Lib.Checks

/-!
# The launcher (`run_lilt.py`)

`prepare_environment` checks the arguments and makes the environment of the
application: nothing of an inherited policy is left in it and the settings are
written out in decimal. The file system, the user id and the output of `ldconfig`
are a parameter.

- `realDriver`: the path of the driver behind the proxy.
- `prepareEnvironment`: the checks in the order of the source, with their messages.
- `prepareEnvironment_ok`: what holds of arguments that are accepted.
- `prepareEnvironment_setting`: what the proxy reads back of a setting.
-/

namespace Lilt.Config

open Checks

inductive Role where
  | hp
  | be
  deriving DecidableEq

/-- The arguments, after `parse_args`. -/
structure LauncherArgs where
  role : Role
  session : CString
  gpu : CString
  beCount : Int
  window : Int
  timeBudgetNs : Int
  quietNs : Int
  unknownKernelNs : Int
  graphMode : CString
  graphletNodes : Int
  keepLibraryPath : Bool

/-- What the launcher asks of the system it runs on. -/
structure Host where
  /-- `ROOT` -/
  root : CString
  uid : Nat
  isFile : CString → Bool
  /-- `Path.resolve` -/
  resolve : CString → CString
  /-- The lines of `ldconfig -p`, if it succeeds. -/
  ldconfig : Option (List CString)

/-! ## Strings -/

/-- `str` of an integer. -/
def decimal (n : Int) : CString :=
  if n < 0 then '-' :: Nat.toDigits 10 n.natAbs else Nat.toDigits 10 n.toNat

def strip (s : CString) : CString := ((s.dropWhile isSpace).reverse.dropWhile isSpace).reverse

/-- What follows the first `=>`. -/
def afterArrow : CString → Option CString
  | '=' :: '>' :: rest => some rest
  | _ :: rest => afterArrow rest
  | [] => none

/-- A value that counts as true: set and not empty. -/
def nonEmpty : Option CString → Option CString
  | some (c :: cs) => some (c :: cs)
  | _ => none

def isAlnum (c : Char) : Bool :=
  'a' ≤ c && c ≤ 'z' || 'A' ≤ c && c ≤ 'Z' || '0' ≤ c && c ≤ '9'

/-- `[A-Za-z0-9_-]{1,48}` -/
def sessionAllowed (session : CString) : Bool :=
  1 ≤ session.length && session.length ≤ 48 &&
    session.all fun c => isAlnum c || c = '_' || c = '-'

/-- `[0-9]+|GPU-[A-Za-z0-9-]+` -/
def gpuAllowed (gpu : CString) : Bool :=
  gpu ≠ [] && gpu.all (fun c => '0' ≤ c && c ≤ '9') ||
    "GPU-".toList.isPrefixOf gpu && gpu.drop 4 ≠ [] &&
      (gpu.drop 4).all fun c => isAlnum c || c = '-'

/-! ## The environment -/

/-- `env.update`, with the entries of a dictionary literal. -/
def Env.update (env : Env) (entries : List (CString × CString)) : Env := fun name =>
  match entries.lookup name with
  | some value => some value
  | none => env name

/-- The variables whose names start with neither `TGS_` nor `LILT_`. -/
def Env.withoutPolicy (env : Env) : Env := fun name =>
  if "TGS_".toList.isPrefixOf name || "LILT_".toList.isPrefixOf name then none else env name

/-- A driver in a line of `ldconfig -p`. -/
def ldconfigCandidate (host : Host) (line : CString) : Option CString :=
  if "libcuda.so.1 ".toList.isPrefixOf (strip line) then
    match afterArrow line with
    | some target =>
      let path := host.resolve (strip target)
      if host.isFile path then some path else none
    | none => none
  else none

/-- `real_driver` -/
def realDriver (host : Host) (env : Env) : Except String CString :=
  match (nonEmpty (env "LILT_REAL_LIBCUDA".toList)).or
      (nonEmpty (env "TGS_REAL_LIBCUDA".toList)) with
  | some configured =>
    if "/".toList.isPrefixOf configured && host.isFile configured then
      .ok (host.resolve configured)
    else .error "LILT_REAL_LIBCUDA must name an existing absolute driver path"
  | none =>
    match host.ldconfig with
    | none => .error "ldconfig failed"
    | some lines =>
      match lines.findSome? (ldconfigCandidate host) with
      | some path => .ok path
      | none => .error "Real NVIDIA driver not found; set LILT_REAL_LIBCUDA"

/-- The directory of a role's proxy. -/
def proxyDirectory (host : Host) (role : Role) : CString :=
  host.root ++ "/hijack/".toList ++ (match role with | .hp => "hp" | .be => "be").toList ++
    "-lib".toList

def proxyPath (host : Host) (role : Role) : CString :=
  proxyDirectory host role ++ "/libcuda.so.1".toList

/-- What `prepare_environment` sets. -/
def launcherEntries (host : Host) (args : LauncherArgs) (driver : CString) :
    List (CString × CString) :=
  [("CUDA_VISIBLE_DEVICES".toList, args.gpu),
    ("LILT_REAL_LIBCUDA".toList, driver),
    ("LD_PRELOAD".toList, proxyPath host args.role),
    ("LILT_POLICY".toList, "lilt".toList),
    ("LILT_EVENT_SHM_NAME".toList,
      "/lilt-".toList ++ decimal host.uid ++ "-".toList ++ args.session ++ "-".toList ++ args.gpu),
    ("LILT_EVENT_COMPLETION_MODE".toList, "deferred".toList),
    ("LILT_EVENT_BLOCKING_QUIET_NS".toList, decimal args.quietNs),
    ("LILT_EVENT_BE_POLICY".toList, "time-sum".toList),
    ("LILT_EVENT_BE_COUNT".toList, decimal args.beCount),
    ("LILT_EVENT_BE_WINDOW".toList, decimal args.window),
    ("LILT_EVENT_BE_TIME_BUDGET_NS".toList, decimal args.timeBudgetNs),
    ("LILT_EVENT_BE_UNKNOWN_KERNEL_NS".toList, decimal args.unknownKernelNs),
    ("LILT_EVENT_BE_GRAPH_MODE".toList, args.graphMode),
    ("LILT_EVENT_BE_GRAPHLET_MAX_NODES".toList, decimal args.graphletNodes)]

/-- The library path, with the proxy's directory first. -/
def libraryPathEntry (host : Host) (args : LauncherArgs) (base : Env) :
    List (CString × CString) :=
  if args.keepLibraryPath then []
  else
    [("LD_LIBRARY_PATH".toList,
      proxyDirectory host args.role ++
        match nonEmpty (base "LD_LIBRARY_PATH".toList) with
        | some inherited => ":".toList ++ inherited
        | none => [])]

/-- `prepare_environment`; a check that fails raises `ValueError`. -/
def prepareEnvironment (host : Host) (args : LauncherArgs) (base : Env) :
    Except String Env := do
  require (sessionAllowed args.session)
    "session must be 1-48 letters, digits, underscores or hyphens"
  require (gpuAllowed args.gpu) "select exactly one GPU index or GPU UUID"
  require (1 ≤ args.beCount && args.beCount ≤ 64) "be-count must be in [1, 64]"
  require (args.beCount ≤ args.window && args.window ≤ 64) "window must be in [be-count, 64]"
  require (args.beCount ≤ args.timeBudgetNs)
    "time budget must allow at least 1 ns per BE process"
  require (args.graphletNodes ≤ 4096) "graphlet-nodes must not exceed 4096"
  require (nonEmpty (base "LD_PRELOAD".toList)).isNone
    "unset LD_PRELOAD before launching to avoid stacking incompatible proxies"
  let driver ← realDriver host base
  require (host.isFile (proxyPath host args.role))
    "proxy missing; run bash scripts/build_lilt.sh first"
  require (driver ≠ host.resolve (proxyPath host .hp) && driver ≠ host.resolve (proxyPath host .be))
    "real driver path points to a Lilt proxy"
  return (base.withoutPolicy.update (launcherEntries host args driver)).update
    (libraryPathEntry host args base)

/-! ## What is accepted -/

/-- Accepted arguments are within the limits, and the environment is the inherited
one without policy settings, updated. -/
theorem prepareEnvironment_ok {host : Host} {args : LauncherArgs} {base env : Env}
    (h : prepareEnvironment host args base = .ok env) :
    (1 ≤ args.beCount ∧ args.beCount ≤ 64) ∧
      (args.beCount ≤ args.window ∧ args.window ≤ 64) ∧
      args.beCount ≤ args.timeBudgetNs ∧
      ∃ driver, realDriver host base = .ok driver ∧
        env = (base.withoutPolicy.update (launcherEntries host args driver)).update
          (libraryPathEntry host args base) := by
  -- the checks in the order of the source; those of the strings and files say nothing here
  obtain ⟨-, h⟩ := require_bind h
  obtain ⟨-, h⟩ := require_bind h
  obtain ⟨hcount, h⟩ := require_bind h
  obtain ⟨hwindow, h⟩ := require_bind h
  obtain ⟨hbudget, h⟩ := require_bind h
  obtain ⟨-, h⟩ := require_bind h
  obtain ⟨-, h⟩ := require_bind h
  obtain ⟨driver, hdriver, h⟩ := bind_ok h
  obtain ⟨-, h⟩ := require_bind h
  obtain ⟨-, h⟩ := require_bind h
  simp only [Bool.and_eq_true, decide_eq_true_eq] at hcount hwindow hbudget
  exact ⟨hcount, hwindow, hbudget, driver, hdriver, (Except.ok.inj h).symm⟩

theorem prepareEnvironment_graphletNodes {host : Host} {args : LauncherArgs} {base env : Env}
    (h : prepareEnvironment host args base = .ok env) : args.graphletNodes ≤ 4096 := by
  obtain ⟨-, h⟩ := require_bind h
  obtain ⟨-, h⟩ := require_bind h
  obtain ⟨-, h⟩ := require_bind h
  obtain ⟨-, h⟩ := require_bind h
  obtain ⟨-, h⟩ := require_bind h
  obtain ⟨hnodes, -⟩ := require_bind h
  exact of_decide_eq_true hnodes

/-- The settings pass the update of the library path. -/
theorem libraryPath_update (host : Host) (args : LauncherArgs) (base env : Env) {name : CString}
    (hname : name ≠ "LD_LIBRARY_PATH".toList) :
    (env.update (libraryPathEntry host args base)) name = env name := by
  unfold Env.update libraryPathEntry
  split
  next value h =>
    split at h
    · cases h
    · rw [List.lookup_cons, beq_false_of_ne hname] at h
      cases h
  next => rfl

/-- A setting of the launcher is what the proxy's lookup finds. -/
theorem prepareEnvironment_setting {host : Host} {args : LauncherArgs} {base env : Env}
    {driver : CString}
    (henv : env = (base.withoutPolicy.update (launcherEntries host args driver)).update
      (libraryPathEntry host args base))
    {name value : CString} (hentry : (launcherEntries host args driver).lookup name = some value)
    (hname : "LILT_".toList.isPrefixOf name = true)
    (hcanonical : canonicalName (name.drop 5) = name) : liltGetenv env name = some value := by
  refine liltGetenv_canonical hname hcanonical ?_
  have hne : name ≠ "LD_LIBRARY_PATH".toList := by
    rintro rfl
    exact absurd hname (by decide)
  rw [henv, libraryPath_update host args base _ hne, Env.update, hentry]

theorem decimal_of_pos {n : Int} (h : 1 ≤ n) : decimal n = Nat.toDigits 10 n.toNat := by
  rw [decimal, if_neg (by omega)]

/-- A positive number of the launcher is found in decimal. -/
theorem prepareEnvironment_number {host : Host} {args : LauncherArgs} {base env : Env}
    {driver : CString}
    (henv : env = (base.withoutPolicy.update (launcherEntries host args driver)).update
      (libraryPathEntry host args base))
    {name : CString} {n : Int}
    (hentry : (launcherEntries host args driver).lookup name = some (decimal n)) (hpos : 1 ≤ n)
    (hname : "LILT_".toList.isPrefixOf name = true)
    (hcanonical : canonicalName (name.drop 5) = name) :
    liltGetenv env name = some (Nat.toDigits 10 n.toNat) := by
  rw [← decimal_of_pos hpos]
  exact prepareEnvironment_setting henv hentry hname hcanonical

end Lilt.Config
