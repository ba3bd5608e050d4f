import Lilt.Config.Settings
import Lilt.Tgs.Rates

/-!
# The limit manager of the BE process (`be_intercept.c`)

One thread per device accepts a connection of the HP process at a time. The first
`double` on it is the rate the HP process announces, every later one is the rate of the
last five seconds. Five reports make a profile; from then on each report moves the
allowance, until the rates have changed so much that there is a new profile.

- `Manager`: the local variables of `limit_manager` and what it waits for.
- `received`: what one read of the connection does, and the accesses to the shared cells
  that follow from it, in order.
- `Settled`: how the phase and the cells belong together between two reads.
- `received_settled`: every read keeps that.

The thread is the only one of its process, as the launcher lets a process see one device;
the managers of several would share the static variables of `update_rate_limit`.
-/

namespace Lilt.Tgs

open Lilt.Config Binary64

/-! ## Settings -/

/-- The settings that are read for each connection. -/
structure TgsSettings where
  limitInitializer : ℤ
  reprofileThreshold : Double
  rateThreshold : Double
  limitInitializer_mem : 0 ≤ limitInitializer ∧ limitInitializer ≤ upperLimit

/-- `(double)event_be_parse_u64(...) / 100.0` -/
def parsePercent (getenv : Env) (name : CString) (fallback minimum maximum : UInt64) : Double :=
  .ofInt (eventBeParseU64 getenv name fallback minimum maximum).toNat / .ofInt 100

/-- `limit_initializer`, `reprofile_threshold` and `rate_threshold` of `limit_manager`. -/
def tgsSettings (getenv : Env) : TgsSettings where
  limitInitializer :=
    (eventBeParseU64 getenv "TGS_LIMIT_INITIALIZER".toList 20000 1 100000000000000).toNat
  reprofileThreshold := parsePercent getenv "TGS_REPROFILE_THRESHOLD_PCT".toList 20 1 10000
  rateThreshold := parsePercent getenv "TGS_RATE_THRESHOLD_PCT".toList 3 1 100
  limitInitializer_mem := by
    have hmax := (eventBeParseU64_mem getenv "TGS_LIMIT_INITIALIZER".toList
      (show (1 : UInt64) ≤ 20000 by decide)
      (show (20000 : UInt64) ≤ 100000000000000 by decide)).2
    have hnat := Int.ofNat_le.mpr (UInt64.le_iff_toNat_le.mp hmax)
    exact ⟨Int.natCast_nonneg _, le_of_le_of_eq hnat (by decide)⟩

/-- The memory is prefetched at the end of a connection. -/
def disconnectPrefetch (getenv : Env) : Bool :=
  liltGetenv getenv "TGS_DISABLE_DISCONNECT_PREFETCH".toList ≠ some "1".toList

/-! ## The thread -/

/-- What `limit_manager` waits for. -/
inductive Phase where
  /-- `accept` -/
  | accepting
  /-- the read of `max_rate` -/
  | announcing
  /-- the read of the report `t` of a profile -/
  | profiling (t : Nat)
  /-- the read of the loop after it -/
  | controlling
  deriving DecidableEq

/-- An access to what other threads see. -/
inductive Access where
  /-- `g_rate_limit[device] = value` -/
  | storeLimit (value : ℤ)
  /-- `g_rate_control_flag[device] = value` -/
  | storeFlag (value : ℤ)
  /-- `activate_memory_transfer_routine` -/
  | memoryTransfer
  deriving DecidableEq

/-- The thread. `kept` are the static variables of `update_rate_limit`. -/
structure Manager where
  phase : Phase
  maxRate : Double
  recvRate : Double
  cnt : Nat
  state : TgsState
  window : Window
  profileRound : Nat
  kept : Kept

/-- `PROFILE_TIME` -/
def profileTime : Nat := 5

/-- `x >= 1. ? x : 1.` -/
def atLeastOne (x : Double) : Double := if one ≤ x then x else one

/-- `alpha * recv_rate + (1 - alpha) * recv_counter`, with `alpha = 0.0` -/
def mixRate (recvRate recvCounter : Double) : Double :=
  zero * recvRate + (one - zero) * recvCounter

/-- `x < y ? x : y` -/
def smaller (x y : Double) : Double := if x < y then x else y

/-- `-bound <= x && x <= bound` -/
def within (bound x : Double) : Prop := -bound ≤ x ∧ x ≤ bound

instance instDecidableWithin (bound x : Double) : Decidable (within bound x) :=
  inferInstanceAs (Decidable (_ ∧ _))

/-- `max_rate` after a report of a profile. -/
def profileRate (maxRate maxWindowRate : Double) : Double :=
  let maxDelta := relativeDelta maxWindowRate maxRate
  if within (.ofRat (5 / 100)) maxDelta then larger maxRate maxWindowRate
  else if .ofRat (5 / 100) < maxDelta then larger maxRate (maxWindowRate * .ofRat (975 / 1000))
  else smaller maxRate (maxWindowRate * .ofRat (1025 / 1000))

/-- `max_rate` before a new profile. -/
def reprofileRate (maxRate maxWindowRate maxDelta : Double) : Double :=
  if .ofRat (2 / 10) < maxDelta then larger maxRate (maxWindowRate * .ofRat (975 / 1000))
  else smaller maxRate (maxWindowRate * .ofRat (1025 / 1000))

/-- `num_zero` -/
def numZero (window : Window) : Nat :=
  (List.range windowSize).countP fun i => window i < .ofInt 1000

/-- What every report starts with: the rate is put into the window. -/
def Manager.report (m : Manager) (recvCounter : Double) : Manager × Double :=
  let recvRate := mixRate m.recvRate (atLeastOne recvCounter)
  let shifted := shiftWindow m.window windowSize recvRate
  ({ m with recvRate := recvRate, window := shifted.1 }, shifted.2)

/-- The label `profile`. -/
def Manager.profile (m : Manager) : Manager × List Access :=
  ({ m with
      phase := .profiling 1
      profileRound := m.profileRound + 1
      window := .cleared
      cnt := 0
      state := .unset },
    if m.profileRound + 1 = 1 then [.storeLimit 0] else [])

/-- The end of the profile. -/
def Manager.endProfile (m : Manager) : Manager :=
  { m with maxRate := atLeastOne m.maxRate, phase := .controlling }

/-- The report `t` of a profile. -/
def Manager.profileSample (m : Manager) (t : Nat) (recvCounter : Double) : Manager :=
  let reported := m.report recvCounter
  let m := { reported.1 with maxRate := profileRate reported.1.maxRate reported.2 }
  if t < profileTime then { m with phase := .profiling (t + 1) } else m.endProfile

section control

variable (cfg : TgsSettings) (undefined : ℤ)

/-- The allowance after a report of the loop, for `cnt` reports before it. -/
def Manager.adjust (rateLimit currentRate : ℤ) (m : Manager) : Manager × List Access :=
  let m := { m with cnt := m.cnt + 1 }
  if m.cnt = 1 then
    ({ m with state := .slowStart }, [.storeLimit cfg.limitInitializer])
  else if numZero m.window ≤ windowSize / 5 * 2 ∨ m.cnt < 15 then
    if numZero m.window = 2 ∧ 15 < m.cnt then
      ({ m with state := .slowStart }, [.storeLimit cfg.limitInitializer])
    else
      let a := updateRateLimit undefined currentRate m.recvRate cfg.rateThreshold
        { rateLimit := rateLimit, state := m.state, kept := m.kept, maxRate := m.maxRate }
      ({ m with state := a.state, kept := a.kept, maxRate := a.maxRate },
        [.storeLimit a.rateLimit])
  else
    ({ m with state := .slowStart }, [.storeLimit (rateCeiling currentRate (65536 * 65536))])

/-- A report of the loop after the profile. -/
def Manager.controlSample (rateLimit currentRate : ℤ) (m : Manager) (recvCounter : Double) :
    Manager × List Access :=
  let reported := m.report recvCounter
  let maxDelta := relativeDelta reported.2 m.maxRate
  if within (.ofRat (1 / 10)) maxDelta then
    { reported.1 with maxRate := larger m.maxRate reported.2 }.adjust cfg undefined
      rateLimit currentRate
  else if cfg.reprofileThreshold < maxDelta ∨ maxDelta < -cfg.reprofileThreshold then
    { reported.1 with maxRate := reprofileRate m.maxRate reported.2 maxDelta }.profile
  else reported.1.adjust cfg undefined rateLimit currentRate

/-- The end of a connection. `transfer`: `disconnectPrefetch`. -/
def Manager.disconnect (transfer : Bool) (m : Manager) : Manager × List Access :=
  ({ m with phase := .accepting },
    .storeLimit 0 :: (if transfer then [.memoryTransfer] else []) ++ [.storeFlag 0])

/-- What `limit_manager` does when what it waits for returns: `accept` a connection, or a
read. `value` is the `double` that was read, `none` that there were not eight bytes. -/
def Manager.received (transfer : Bool) (rateLimit currentRate : ℤ) (m : Manager)
    (value : Option Double) : Manager × List Access :=
  match m.phase, value with
  | .accepting, _ => ({ m with phase := .announcing }, [])
  | .announcing, none => ({ m with phase := .accepting }, [])
  | .announcing, some maxRate =>
    let started := Manager.profile { m with maxRate := maxRate, recvRate := one, profileRound := 0 }
    (started.1, .storeLimit 0 :: .storeFlag 1 :: started.2)
  | .profiling _, none => (m.endProfile, [])
  | .profiling t, some recvCounter => (m.profileSample t recvCounter, [])
  | .controlling, none => m.disconnect transfer
  | .controlling, some recvCounter =>
    m.controlSample cfg undefined rateLimit currentRate recvCounter

end control

/-! ## The phases and the cells -/

/-- The cells that the manager writes: `g_rate_limit` and `g_rate_control_flag`. -/
structure Control where
  rateLimit : ℤ
  flag : ℤ

/-- What an access does to the cells. -/
def Access.exec (x : Access) (c : Control) : Control :=
  match x with
  | .storeLimit value => { c with rateLimit := value }
  | .storeFlag value => { c with flag := value }
  | .memoryTransfer => c

/-- The cells after the accesses. -/
def execAll (xs : List Access) (c : Control) : Control := xs.foldl (fun c x => x.exec c) c

/-- A value that the manager may store. -/
def Access.Safe : Access → Prop
  | .storeLimit value => 0 ≤ value ∧ value ≤ upperLimit
  | .storeFlag value => value = 0 ∨ value = 1
  | .memoryTransfer => True

/-- A connection is past its first read. -/
def Phase.connected : Phase → Bool
  | .accepting | .announcing => false
  | .profiling _ | .controlling => true

/-- How the thread and the cells belong together while it waits. -/
structure Settled (m : Manager) (c : Control) : Prop where
  range : 0 ≤ c.rateLimit ∧ c.rateLimit ≤ upperLimit
  flag : c.flag = if m.phase.connected then 1 else 0
  released : m.phase.connected = false → c.rateLimit = 0
  /-- up to the first report after the first profile -/
  first : m.phase.connected → m.profileRound = 1 → m.cnt = 0 → c.rateLimit = 0
  profile : ∀ t, m.phase = .profiling t → 1 ≤ t ∧ t ≤ profileTime ∧ m.cnt = 0
  unset : m.phase.connected → (m.state = .unset ↔ m.cnt = 0)

/-- The thread when it starts, and the cells. -/
def Manager.initial : Manager where
  phase := .accepting
  maxRate := zero
  recvRate := zero
  cnt := 0
  state := .unset
  window := .cleared
  profileRound := 0
  kept := { sign := 0, maxDiffCounter := 0 }

/-- `g_rate_limit` and `g_rate_control_flag` at the start. -/
def Control.initial : Control := { rateLimit := 0, flag := 0 }

theorem settled_initial : Settled .initial .initial where
  range := ⟨le_refl _, upperLimit_nonneg⟩
  flag := rfl
  released _ := rfl
  first h := absurd h Bool.noConfusion
  profile _ h := nomatch h
  unset h := absurd h Bool.noConfusion

section settled

variable {cfg : TgsSettings} {undefined : ℤ} {m : Manager} {c : Control}

theorem safe_zero : (Access.storeLimit 0).Safe := ⟨le_refl _, upperLimit_nonneg⟩

/-- A new profile leaves a learned allowance as it is. -/
theorem profile_settled (hrange : 0 ≤ c.rateLimit ∧ c.rateLimit ≤ upperLimit)
    (hflag : c.flag = 1) :
    Settled m.profile.1 (execAll m.profile.2 c) ∧ ∀ x ∈ m.profile.2, x.Safe := by
  have hprofiling : ∀ t, m.profile.1.phase = .profiling t →
      1 ≤ t ∧ t ≤ profileTime ∧ m.profile.1.cnt = 0 := by
    intro t ht
    cases ht
    exact ⟨le_refl _, by decide, rfl⟩
  by_cases hround : m.profileRound + 1 = 1
  · have hstores : m.profile.2 = [.storeLimit 0] := if_pos hround
    rw [hstores]
    refine ⟨?_, fun x hx => ?_⟩
    · exact { range := ⟨le_refl _, upperLimit_nonneg⟩
              flag := hflag
              released := fun h => absurd h Bool.noConfusion
              first := fun _ _ _ => rfl
              profile := hprofiling
              unset := fun _ => iff_of_true rfl rfl }
    · rw [List.mem_singleton.mp hx]
      exact safe_zero
  · have hstores : m.profile.2 = [] := if_neg hround
    rw [hstores]
    refine ⟨?_, fun x hx => absurd hx List.not_mem_nil⟩
    exact { range := hrange
            flag := hflag
            released := fun h => absurd h Bool.noConfusion
            first := fun _ h _ => absurd h hround
            profile := hprofiling
            unset := fun _ => iff_of_true rfl rfl }

theorem endProfile_settled (hc : Settled m c) (hphase : m.phase.connected = true) :
    Settled m.endProfile c where
  range := hc.range
  flag := by
    rw [hc.flag, if_pos hphase]
    rfl
  released h := absurd h Bool.noConfusion
  first _ := hc.first hphase
  profile _ h := nomatch h
  unset _ := hc.unset hphase

theorem profileSample_settled (hc : Settled m c) {t : Nat} (hphase : m.phase = .profiling t)
    (recvCounter : Double) : Settled (m.profileSample t recvCounter) c := by
  have hconnected : m.phase.connected = true := by rw [hphase]; rfl
  obtain ⟨hlow, hhigh, hcnt⟩ := hc.profile t hphase
  have hflag := hc.flag
  rw [if_pos hconnected] at hflag
  unfold Manager.profileSample
  dsimp only
  split
  next hlt =>
    exact { range := hc.range
            flag := hflag
            released := fun h => absurd h Bool.noConfusion
            first := fun _ => hc.first hconnected
            profile := fun u hu => by
              cases hu
              exact ⟨by omega, by omega, hcnt⟩
            unset := fun _ => hc.unset hconnected }
  next =>
    exact { range := hc.range
            flag := hflag
            released := fun h => absurd h Bool.noConfusion
            first := fun _ => hc.first hconnected
            profile := fun u hu => nomatch hu
            unset := fun _ => hc.unset hconnected }

theorem rateCeiling_mem (currentRate : ℤ) :
    0 ≤ rateCeiling currentRate (65536 * 65536) ∧
      rateCeiling currentRate (65536 * 65536) ≤ upperLimit := by
  refine ⟨le_min upperLimit_nonneg ?_, rateCeiling_le _ _⟩
  exact le_trans (by norm_num) (le_max_right _ _)

/-- A report that is no reason for a new profile stores one allowance. -/
theorem adjust_spec (cfg : TgsSettings) (undefined rateLimit currentRate : ℤ)
    (hrange : 0 ≤ rateLimit ∧ rateLimit ≤ upperLimit) (hstate : m.cnt ≠ 0 → m.state ≠ .unset) :
    ∃ value, (m.adjust cfg undefined rateLimit currentRate).2 = [.storeLimit value] ∧
      (0 ≤ value ∧ value ≤ upperLimit) ∧
      (m.adjust cfg undefined rateLimit currentRate).1.phase = m.phase ∧
      (m.adjust cfg undefined rateLimit currentRate).1.cnt = m.cnt + 1 ∧
      (m.adjust cfg undefined rateLimit currentRate).1.state ≠ .unset := by
  unfold Manager.adjust
  dsimp only
  split
  · exact ⟨_, rfl, cfg.limitInitializer_mem, rfl, rfl, TgsState.noConfusion⟩
  next hcnt =>
    split
    · split
      · exact ⟨_, rfl, cfg.limitInitializer_mem, rfl, rfl, TgsState.noConfusion⟩
      · exact ⟨_, rfl, updateRateLimit_mem hrange.1 hrange.2, rfl, rfl,
          updateRateLimit_state (hstate (by omega))⟩
    · exact ⟨_, rfl, rateCeiling_mem currentRate, rfl, rfl, TgsState.noConfusion⟩

theorem adjust_settled {rateLimit currentRate : ℤ}
    (hrange : 0 ≤ rateLimit ∧ rateLimit ≤ upperLimit) (hstate : m.cnt ≠ 0 → m.state ≠ .unset)
    (hphase : m.phase = .controlling) (hflag : c.flag = 1) :
    Settled (m.adjust cfg undefined rateLimit currentRate).1
        (execAll (m.adjust cfg undefined rateLimit currentRate).2 c) ∧
      ∀ x ∈ (m.adjust cfg undefined rateLimit currentRate).2, x.Safe := by
  obtain ⟨value, hstores, hvalue, hphase', hcnt, hstate'⟩ :=
    adjust_spec cfg undefined rateLimit currentRate hrange hstate
  have hconnected : (m.adjust cfg undefined rateLimit currentRate).1.phase.connected = true := by
    rw [hphase', hphase]
    rfl
  rw [hstores]
  refine ⟨?_, fun x hx => ?_⟩
  · exact { range := hvalue
            flag := by
              rw [if_pos hconnected]
              exact hflag
            released := fun h => absurd (hconnected.symm.trans h) Bool.noConfusion
            first := fun _ _ h => absurd h (by omega)
            profile := fun t ht => by
              rw [hphase', hphase] at ht
              cases ht
            unset := fun _ => iff_of_false hstate' (by omega) }
  · rw [List.mem_singleton.mp hx]
    exact hvalue

theorem controlSample_settled (hc : Settled m c) (hphase : m.phase = .controlling)
    (currentRate : ℤ) (recvCounter : Double) :
    Settled (m.controlSample cfg undefined c.rateLimit currentRate recvCounter).1
        (execAll (m.controlSample cfg undefined c.rateLimit currentRate recvCounter).2 c) ∧
      ∀ x ∈ (m.controlSample cfg undefined c.rateLimit currentRate recvCounter).2, x.Safe := by
  have hconnected : m.phase.connected = true := by rw [hphase]; rfl
  have hflag := hc.flag
  rw [if_pos hconnected] at hflag
  have hstate : m.cnt ≠ 0 → m.state ≠ .unset := fun hcnt h => hcnt ((hc.unset hconnected).mp h)
  unfold Manager.controlSample
  dsimp only
  split
  · exact adjust_settled hc.range hstate hphase hflag
  · split
    · exact profile_settled hc.range hflag
    · exact adjust_settled hc.range hstate hphase hflag

theorem disconnect_settled (transfer : Bool) :
    Settled (m.disconnect transfer).1 (execAll (m.disconnect transfer).2 c) ∧
      ∀ x ∈ (m.disconnect transfer).2, x.Safe := by
  constructor
  · cases transfer <;>
      exact { range := ⟨le_refl _, upperLimit_nonneg⟩
              flag := rfl
              released := fun _ => rfl
              first := fun h => absurd h Bool.noConfusion
              profile := fun _ h => nomatch h
              unset := fun h => absurd h Bool.noConfusion }
  · intro x hx
    cases transfer
    · rcases List.mem_cons.mp hx with rfl | hx
      · exact safe_zero
      · rw [List.mem_singleton.mp hx]
        exact .inl rfl
    · rcases List.mem_cons.mp hx with rfl | hx
      · exact safe_zero
      · rcases List.mem_cons.mp hx with rfl | hx
        · exact trivial
        · rw [List.mem_singleton.mp hx]
          exact .inl rfl

/-- Without a connection nothing but the phase changes. -/
theorem waiting_settled (hc : Settled m c) (hwaiting : m.phase.connected = false)
    (phase : Phase) (hphase : phase.connected = false) :
    Settled { m with phase := phase } c where
  range := hc.range
  flag := by
    have hflag := hc.flag
    rw [hwaiting] at hflag
    show c.flag = if phase.connected = true then 1 else 0
    rw [hphase]
    exact hflag
  released _ := hc.released hwaiting
  first h := absurd (hphase.symm.trans h) Bool.noConfusion
  profile t h := by
    have : phase = .profiling t := h
    rw [this] at hphase
    cases hphase
  unset h := absurd (hphase.symm.trans h) Bool.noConfusion

/-- Every read keeps the thread and the cells together, whatever it gets. -/
theorem received_settled (cfg : TgsSettings) (undefined : ℤ) (hc : Settled m c)
    (transfer : Bool) (currentRate : ℤ)
    (value : Option Double) :
    Settled (m.received cfg undefined transfer c.rateLimit currentRate value).1
        (execAll (m.received cfg undefined transfer c.rateLimit currentRate value).2 c) ∧
      ∀ x ∈ (m.received cfg undefined transfer c.rateLimit currentRate value).2, x.Safe := by
  have hnone : ∀ x ∈ ([] : List Access), x.Safe := fun x hx => absurd hx List.not_mem_nil
  unfold Manager.received
  split
  next hphase => exact ⟨waiting_settled hc (by rw [hphase]; rfl) .announcing rfl, hnone⟩
  next hphase => exact ⟨waiting_settled hc (by rw [hphase]; rfl) .accepting rfl, hnone⟩
  next maxRate hphase =>
    have hprofile := profile_settled (c := { rateLimit := 0, flag := 1 })
      (m := { m with maxRate := maxRate, recvRate := one, profileRound := 0 })
      ⟨le_refl _, upperLimit_nonneg⟩ rfl
    refine ⟨hprofile.1, fun x hx => ?_⟩
    rcases List.mem_cons.mp hx with rfl | hx
    · exact safe_zero
    · rcases List.mem_cons.mp hx with rfl | hx
      · exact .inr rfl
      · exact hprofile.2 x hx
  next t hphase => exact ⟨endProfile_settled hc (by rw [hphase]; rfl), hnone⟩
  next t recvCounter hphase => exact ⟨profileSample_settled hc hphase recvCounter, hnone⟩
  next hphase => exact disconnect_settled transfer
  next recvCounter hphase => exact controlSample_settled hc hphase currentRate recvCounter

theorem adjust_stores (cfg : TgsSettings) (undefined : ℤ) (m : Manager)
    (rateLimit currentRate : ℤ) :
    ∃ value, (m.adjust cfg undefined rateLimit currentRate).2 = [.storeLimit value] := by
  unfold Manager.adjust
  dsimp only
  split
  · exact ⟨_, rfl⟩
  · split
    · split <;> exact ⟨_, rfl⟩
    · exact ⟨_, rfl⟩

theorem profile_stores : ∀ x ∈ m.profile.2, x = .storeLimit 0 := by
  unfold Manager.profile
  intro x hx
  dsimp only at hx
  split at hx
  · exact List.mem_singleton.mp hx
  · exact absurd hx List.not_mem_nil

/-- The memory is transferred only at the end of a connection, between the two cells. -/
theorem received_transfer {transfer : Bool} {rateLimit currentRate : ℤ} {value : Option Double}
    (h : .memoryTransfer ∈
      (m.received cfg undefined transfer rateLimit currentRate value).2) :
    m.phase = .controlling ∧
      (m.received cfg undefined transfer rateLimit currentRate value).2 =
        [.storeLimit 0, .memoryTransfer, .storeFlag 0] := by
  have hadjust : ∀ m' : Manager,
      .memoryTransfer ∉ (m'.adjust cfg undefined rateLimit currentRate).2 := by
    intro m' hmem
    obtain ⟨value, hstores⟩ := adjust_stores cfg undefined m'
      rateLimit currentRate
    rw [hstores] at hmem
    cases List.mem_singleton.mp hmem
  have hprofile : ∀ m' : Manager, .memoryTransfer ∉ m'.profile.2 :=
    fun m' hmem => nomatch profile_stores _ hmem
  unfold Manager.received at h ⊢
  split at h
  next => exact absurd h List.not_mem_nil
  next => exact absurd h List.not_mem_nil
  next maxRate hphase =>
    rcases List.mem_cons.mp h with h | h
    · cases h
    · rcases List.mem_cons.mp h with h | h
      · cases h
      · exact absurd h (hprofile _)
  next => exact absurd h List.not_mem_nil
  next => exact absurd h List.not_mem_nil
  next hphase =>
    refine ⟨hphase, ?_⟩
    cases transfer with
    | true => rfl
    | false => cases h with
      | tail _ h => cases List.mem_singleton.mp h
  next recvCounter hphase =>
    unfold Manager.controlSample at h
    dsimp only at h
    split at h
    · exact absurd h (hadjust _)
    · split at h
      · exact absurd h (hprofile _)
      · exact absurd h (hadjust _)

end settled

end Lilt.Tgs
