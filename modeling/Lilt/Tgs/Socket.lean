import Lilt.Config.Settings
import Lilt.Lib.Transition
import Mathlib.Data.Int.Basic
import Mathlib.Data.List.FinRange

/-!
# The sockets of the devices (`hp_intercept.c`, `be_intercept.c`)

The BE process listens on one socket for each device, named after the UUID of the device
in a directory that both processes look up. The rate watcher of the HP process tries every
100 ms to open it.

- `clientPath`, `listenPath`: the paths of the two sides, cut off to fit into `sun_path`.
- `socket_paths_distinct_iff`: a directory name of more than 69 characters, and no shorter
  one, gives two devices the same socket.
- `openClientfd`: the attempt of the rate watcher, and the descriptors it uses up.
- `polls_use_up_descriptors`: every attempt without a socket file costs a descriptor, so
  there are at most as many as the process may have, and the next one ends it.

A call of `socket` fails only when the process has all its descriptors in use.
-/

namespace Lilt.Tgs

open Lilt.Config Transition

/-! ## The name of a device -/

/-- `CUuuid` -/
abbrev CUuuid := Fin 16 → UInt8

/-- `uuid_str[i] >= 10 ? uuid_str[i] - 10 + 'a' : uuid_str[i] + '0'` -/
def hexDigit (n : Nat) : Char :=
  if 10 ≤ n then Char.ofNat (n - 10 + 'a'.toNat) else Char.ofNat (n + '0'.toNat)

/-- The two digits of a byte. -/
def byteDigits (byte : UInt8) : CString :=
  [hexDigit (byte.toNat / 16), hexDigit (byte.toNat % 16)]

/-- `uuid_str` -/
def uuidStr (uuid : CUuuid) : CString := (List.finRange 16).flatMap fun i => byteDigits (uuid i)

/-- The sum of the bytes, as values of the type `char`. -/
def byteSum (uuid : CUuuid) : ℤ :=
  (List.finRange 16).foldl (fun gpuId i => gpuId + (uuid i).toInt8.toInt) 0

/-- `g_gpu_id[device]`: the processor that the threads of a device are bound to. -/
def gpuId (uuid : CUuuid) : ℤ := ((byteSum uuid).tmod 8 + 8).tmod 8

/-- The bytes may add up to less than zero, but the processor is one of the first eight. -/
theorem gpuId_eq (uuid : CUuuid) : gpuId uuid = byteSum uuid % 8 := by
  unfold gpuId
  have hlow := Int.lt_tmod_of_pos (byteSum uuid) (show (0 : ℤ) < 8 by decide)
  rw [Int.tmod_eq_emod_of_nonneg (by omega)]
  rw [Int.add_emod_right, Int.tmod_def]
  omega

/-! ## The path of the socket -/

/-- `socket_dir` -/
def socketDir (getenv : Env) : CString :=
  match liltGetenv getenv "TGS_SOCKET_DIR".toList with
  | none | some [] => "/etc/gsharing".toList
  | some dir => dir

/-- What `snprintf` leaves of a string in a buffer of 108 bytes; `strncpy` copies all of
it. -/
def snprintf108 (s : CString) : CString := s.take 107

/-- `SOCKET_PATH` of `open_clientfd`. -/
def clientPath (getenv : Env) (uuid : CUuuid) : CString :=
  snprintf108 (socketDir getenv ++ "/rate_".toList ++ (uuidStr uuid ++ ".sock".toList))

/-- `SOCKET_PATH` of `open_listenfd`. -/
def listenPath (getenv : Env) (uuid : CUuuid) : CString :=
  snprintf108 (socketDir getenv ++ "/rate_".toList ++ (uuidStr uuid ++ ".sock".toList))

theorem hexDigit_inj {m n : Nat} (hm : m < 16) (hn : n < 16) (h : hexDigit m = hexDigit n) :
    m = n := by
  have hall : ∀ i j : Fin 16, hexDigit i = hexDigit j → i = j := by decide
  exact Fin.mk.inj (hall ⟨m, hm⟩ ⟨n, hn⟩ h)

theorem byteDigits_inj {a b : UInt8} (h : byteDigits a = byteDigits b) : a = b := by
  have ha := a.toNat_lt
  have hb := b.toNat_lt
  obtain ⟨hhigh, hrest⟩ := List.cons.inj h
  have hdiv := hexDigit_inj (by omega) (by omega) hhigh
  have hmod := hexDigit_inj (by omega) (by omega) (List.cons.inj hrest).1
  exact UInt8.toNat_inj.mp (by omega)

theorem uuidStr_inj {u v : CUuuid} (h : uuidStr u = uuidStr v) : u = v := by
  have hflat : ∀ is : List (Fin 16), (is.flatMap fun i => byteDigits (u i)) =
      (is.flatMap fun i => byteDigits (v i)) → ∀ i ∈ is, u i = v i := by
    intro is
    induction is with
    | nil => exact fun _ i hi => absurd hi List.not_mem_nil
    | cons j is ih =>
      intro heq i hi
      rw [List.flatMap_cons, List.flatMap_cons] at heq
      obtain ⟨hhead, htail⟩ := List.append_inj heq rfl
      rcases List.mem_cons.mp hi with rfl | hi
      · exact byteDigits_inj hhead
      · exact ih htail i hi
  exact funext fun i => hflat _ h i (List.mem_finRange i)

theorem uuidStr_length (uuid : CUuuid) : (uuidStr uuid).length = 32 := rfl

/-- How much of the UUID is left in the path. -/
theorem socket_path_eq_iff (getenv : Env) (u v : CUuuid) :
    clientPath getenv u = listenPath getenv v ↔
      (uuidStr u).take (101 - (socketDir getenv).length) =
        (uuidStr v).take (101 - (socketDir getenv).length) := by
  have hlength : (socketDir getenv ++ "/rate_".toList).length = (socketDir getenv).length + 6 :=
    List.length_append
  have hcut : 107 - (socketDir getenv ++ "/rate_".toList).length =
      101 - (socketDir getenv).length := by omega
  have htake : ∀ w, snprintf108 (socketDir getenv ++ "/rate_".toList ++
      (uuidStr w ++ ".sock".toList)) =
      (socketDir getenv ++ "/rate_".toList).take 107 ++
        ((uuidStr w).take (101 - (socketDir getenv).length) ++
          ".sock".toList.take (101 - (socketDir getenv).length - 32)) := by
    intro w
    generalize socketDir getenv ++ "/rate_".toList = path at hcut
    rw [snprintf108, List.take_append, hcut, List.take_append, uuidStr_length]
  unfold clientPath listenPath
  rw [htake u, htake v, List.append_cancel_left_eq]
  exact List.append_left_inj _

theorem socket_path_eq_iff_of_short {getenv : Env} (hshort : (socketDir getenv).length ≤ 69)
    (u v : CUuuid) : clientPath getenv u = listenPath getenv v ↔ u = v := by
  rw [socket_path_eq_iff, List.take_of_length_le (by rw [uuidStr_length]; omega),
    List.take_of_length_le (by rw [uuidStr_length]; omega)]
  exact ⟨uuidStr_inj, congrArg uuidStr⟩

/-- Each device has a socket of its own exactly when the name of the directory is not
longer than 69 characters. -/
theorem socket_paths_distinct_iff (getenv : Env) :
    (∀ u v, clientPath getenv u = listenPath getenv v → u = v) ↔
      (socketDir getenv).length ≤ 69 := by
  constructor
  · intro h
    by_contra hlong
    -- two UUIDs that differ in their last digit
    let u : CUuuid := fun _ => 0
    let v : CUuuid := fun i => if i = 15 then 1 else 0
    have hdigits : (uuidStr u).take 31 = (uuidStr v).take 31 := by decide
    have hcut : (uuidStr u).take (101 - (socketDir getenv).length) =
        (uuidStr v).take (101 - (socketDir getenv).length) := by
      have htake := congrArg (List.take (101 - (socketDir getenv).length)) hdigits
      rw [List.take_take, List.take_take, min_eq_left (by omega)] at htake
      exact htake
    have huv := congrFun (h u v ((socket_path_eq_iff getenv u v).mpr hcut)) 15
    exact absurd huv (by decide)
  · exact fun hshort u v h => (socket_path_eq_iff_of_short hshort u v).mp h

/-! ## The descriptors of the rate watcher -/

/-- What `open_clientfd` finds. -/
inductive ClientAnswer where
  /-- `access(SOCKET_PATH, 0) != 0` -/
  | noFile
  /-- `connect` failed, and so did `close` or not. -/
  | refused (closeFails : Bool)
  | connected
  deriving DecidableEq

/-- What comes of it: the process ends, -1, or a descriptor. -/
inductive ClientResult where
  | exit
  | failed
  | opened
  deriving DecidableEq

/-- `open_clientfd`, where the process has `inUse` of `limit` descriptors in use: its
result, and how many are in use then. -/
def openClientfd (limit inUse : Nat) (answer : ClientAnswer) : ClientResult × Nat :=
  if limit ≤ inUse then (.exit, inUse)
  else
    let inUse := inUse + 1
    match answer with
    -- the socket that was just created stays open
    | .noFile => (.failed, inUse)
    | .refused true => (.exit, inUse)
    | .refused false => (.failed, inUse - 1)
    | .connected => (.opened, inUse)

/-- The descriptors of the HP process. -/
structure Descriptors where
  /-- those of the rate watcher -/
  watcher : Nat
  /-- all others -/
  others : Nat
  /-- The rate watcher has a connection. -/
  connected : Bool
  ended : Bool

/-- What becomes of a descriptor. -/
inductive DescriptorAction where
  | poll (answer : ClientAnswer)
  /-- The rate could not be announced: `continue` without `close`. -/
  | announceFailed
  /-- `close` at the end of a connection. -/
  | close
  /-- The rest of the process opens and closes descriptors. -/
  | others (count : Nat)
  deriving DecidableEq

/-- A step of the rate watcher or of the rest of the process. -/
def Descriptors.step (limit : Nat) (s : Descriptors) : DescriptorAction → Option Descriptors
  | .poll answer =>
    if s.connected ∨ s.ended then none
    else
      let opened := openClientfd limit (s.watcher + s.others) answer
      some { s with
        watcher := opened.2 - s.others
        connected := opened.1 = .opened
        ended := opened.1 = .exit }
  | .announceFailed => if s.connected ∧ ¬ s.ended then some { s with connected := false } else none
  | .close =>
    if s.connected ∧ ¬ s.ended then
      some { s with watcher := s.watcher - 1, connected := false }
    else none
  | .others count =>
    if s.watcher + count ≤ limit ∧ ¬ s.ended then some { s with others := count } else none

/-- The HP process from the start of its rate watcher. -/
def descriptorSystem (limit : Nat) : System Descriptors DescriptorAction where
  Init s := s.watcher = 0 ∧ s.others ≤ limit ∧ s.connected = false ∧ s.ended = false
  Step s a t := s.step limit a = some t

/-- The step leaves a descriptor open that nobody will close: there was no socket file, or
the rate could not be announced. -/
def leaves (limit : Nat) (x : Descriptors × DescriptorAction) : Bool :=
  match x.2 with
  | .poll .noFile => x.1.watcher + x.1.others < limit
  | .announceFailed => true
  | .poll (.refused _) | .poll .connected | .close | .others _ => false

/-- The descriptors of the watcher after `n` steps that left one open. -/
structure Descriptors.Used (limit n : Nat) (s : Descriptors) : Prop where
  room : s.watcher + s.others ≤ limit
  watcher : s.ended = false → s.watcher = n + s.connected.toNat
  left : n ≤ s.watcher

section descriptors

variable {limit n : Nat} {s t : Descriptors}

/-- With all descriptors in use the process ends at the next attempt. -/
theorem openClientfd_full (answer : ClientAnswer) (h : limit ≤ n) :
    openClientfd limit n answer = (.exit, n) := if_pos h

theorem Descriptors.Used.poll (h : s.Used limit n) {answer : ClientAnswer}
    (hstep : s.step limit (.poll answer) = some t) :
    t.Used limit (n + (leaves limit (s, .poll answer)).toNat) := by
  have hroom := h.room
  have hleft := h.left
  simp only [Descriptors.step] at hstep
  split at hstep
  · cases hstep
  next hidle =>
    obtain ⟨hconnected, hended⟩ := not_or.mp hidle
    have hwatcher := h.watcher (Bool.eq_false_iff.mpr hended)
    rw [Bool.eq_false_iff.mpr hconnected, Bool.toNat_false, Nat.add_zero] at hwatcher
    cases hstep
    by_cases hfull : limit ≤ s.watcher + s.others
    · -- the process ends and leaves nothing more behind
      have hleaves : (leaves limit (s, .poll answer)).toNat = 0 := by
        cases answer with
        | noFile => exact congrArg Bool.toNat (decide_eq_false (not_lt.mpr hfull))
        | refused closeFails => rfl
        | connected => rfl
      rw [openClientfd_full answer hfull, hleaves]
      exact { room := by show s.watcher + s.others - s.others + s.others ≤ limit; omega
              watcher := fun hend => absurd hend Bool.noConfusion
              left := by show n + 0 ≤ s.watcher + s.others - s.others; omega }
    · have hopen : openClientfd limit (s.watcher + s.others) answer =
          match answer with
          | .noFile => (.failed, s.watcher + s.others + 1)
          | .refused true => (.exit, s.watcher + s.others + 1)
          | .refused false => (.failed, s.watcher + s.others + 1 - 1)
          | .connected => (.opened, s.watcher + s.others + 1) := if_neg hfull
      rw [hopen]
      cases answer with
      | noFile =>
        have hleaves : (leaves limit (s, .poll .noFile)).toNat = 1 :=
          congrArg Bool.toNat (decide_eq_true (not_le.mp hfull))
        rw [hleaves]
        exact { room := by show s.watcher + s.others + 1 - s.others + s.others ≤ limit; omega
                watcher := fun _ => by
                  show s.watcher + s.others + 1 - s.others = n + 1 + 0
                  omega
                left := by show n + 1 ≤ s.watcher + s.others + 1 - s.others; omega }
      | refused closeFails =>
        cases closeFails with
        | true =>
          exact { room := by show s.watcher + s.others + 1 - s.others + s.others ≤ limit; omega
                  watcher := fun hend => absurd hend Bool.noConfusion
                  left := by show n + 0 ≤ s.watcher + s.others + 1 - s.others; omega }
        | false =>
          exact { room := by
                    show s.watcher + s.others + 1 - 1 - s.others + s.others ≤ limit
                    omega
                  watcher := fun _ => by
                    show s.watcher + s.others + 1 - 1 - s.others = n + 0 + 0
                    omega
                  left := by show n + 0 ≤ s.watcher + s.others + 1 - 1 - s.others; omega }
      | connected =>
        exact { room := by show s.watcher + s.others + 1 - s.others + s.others ≤ limit; omega
                watcher := fun _ => by
                  show s.watcher + s.others + 1 - s.others = n + 0 + 1
                  omega
                left := by show n + 0 ≤ s.watcher + s.others + 1 - s.others; omega }

theorem Descriptors.Used.step (h : s.Used limit n) {a : DescriptorAction}
    (hstep : s.step limit a = some t) : t.Used limit (n + (leaves limit (s, a)).toNat) := by
  have hroom := h.room
  have hleft := h.left
  cases a with
  | poll answer => exact h.poll hstep
  | announceFailed =>
    simp only [Descriptors.step] at hstep
    split at hstep
    next hconnected =>
      cases hstep
      have hwatcher := h.watcher (Bool.eq_false_iff.mpr hconnected.2)
      rw [hconnected.1, Bool.toNat_true] at hwatcher
      exact ⟨hroom, fun _ => hwatcher, by show n + 1 ≤ s.watcher; omega⟩
    next => cases hstep
  | close =>
    simp only [Descriptors.step] at hstep
    split at hstep
    next hconnected =>
      cases hstep
      have hwatcher := h.watcher (Bool.eq_false_iff.mpr hconnected.2)
      rw [hconnected.1, Bool.toNat_true] at hwatcher
      exact { room := by show s.watcher - 1 + s.others ≤ limit; omega
              watcher := fun _ => by show s.watcher - 1 = n + 0 + 0; omega
              left := by show n + 0 ≤ s.watcher - 1; omega }
    next => cases hstep
  | others count =>
    simp only [Descriptors.step] at hstep
    split at hstep
    next hcount =>
      cases hstep
      exact ⟨hcount.1, h.watcher, hleft⟩
    next => cases hstep

theorem used_run {tr : List (Descriptors × DescriptorAction)}
    (h : (descriptorSystem limit).Run tr s) : s.Used limit (tr.countP (leaves limit)) := by
  induction h with
  | init h =>
    obtain ⟨hwatcher, hothers, hconnected, -⟩ := h
    refine ⟨by omega, fun _ => ?_, Nat.zero_le _⟩
    rw [hwatcher, hconnected]
    rfl
  | @step tr s t a _ hstep ih =>
    have hcount : (tr ++ [(s, a)]).countP (leaves limit) =
        tr.countP (leaves limit) + (leaves limit (s, a)).toNat := by
      rw [List.countP_append, List.countP_singleton]
      cases leaves limit (s, a) <;> rfl
    rw [hcount]
    exact ih.step hstep

/-- Every attempt to connect without a socket file, and every announcement that fails,
costs the HP process a descriptor for good. So there are never more of them than the
process may have descriptors, and when these and the others are all in use, the next
attempt of the rate watcher ends the process. -/
theorem polls_use_up_descriptors {tr : List (Descriptors × DescriptorAction)}
    (h : (descriptorSystem limit).Run tr s) :
    (s.ended = false → s.watcher = tr.countP (leaves limit) + s.connected.toNat) ∧
      tr.countP (leaves limit) ≤ limit ∧
      (s.connected = false → s.ended = false →
        tr.countP (leaves limit) + s.others = limit →
        ∀ answer t, s.step limit (.poll answer) = some t → t.ended = true) := by
  have hs := used_run h
  have hroom := hs.room
  have hleft := hs.left
  refine ⟨hs.watcher, by omega, fun hconnected hended hfull answer t hstep => ?_⟩
  have hwatcher := hs.watcher hended
  rw [hconnected, Bool.toNat_false] at hwatcher
  have hexit := openClientfd_full answer (show limit ≤ s.watcher + s.others by omega)
  simp only [Descriptors.step] at hstep
  rw [hexit, hconnected, hended] at hstep
  cases hstep
  rfl

/-- With two descriptors, one of them in use, the second attempt ends the process. -/
theorem polls_use_up_descriptors_two :
    ∃ t, Descriptors.step 2 { watcher := 1, others := 1, connected := false, ended := false }
      (.poll .connected) = some t ∧ t.ended = true := by
  let s : Descriptors := { watcher := 0, others := 1, connected := false, ended := false }
  have hinit : (descriptorSystem 2).Run [] s := .init ⟨rfl, by decide, rfl, rfl⟩
  have hrun : (descriptorSystem 2).Run ([] ++ [(s, .poll .noFile)]) { s with watcher := 1 } :=
    .step hinit rfl
  exact ⟨_, rfl, (polls_use_up_descriptors hrun).2.2 rfl rfl rfl .connected _ rfl⟩

end descriptors

end Lilt.Tgs
