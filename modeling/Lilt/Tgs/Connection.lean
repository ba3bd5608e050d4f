import Lilt.Lib.Pipe
import Lilt.Lib.Transition
import Lilt.Tgs.Response

/-!
# The connection of the two processes (`hp_intercept.c`, `be_intercept.c`)

The rate watcher of the HP process opens a socket of the BE process, writes its largest
rate to it and then a rate every five seconds. Each is a `double` of eight bytes.
`rio_writen` and `rio_readn` go on when less than that was written or read or a signal
came. The BE process may be anywhere in a read while the HP process writes, or ends.

- `Watcher.step`: the thread `rate_watcher`.
- `watcher_nonneg`: what it writes is never below zero.
- `Connection.step`: both threads with one connection between them.
- `Connection.Step.pipe`: what they do to the bytes are the steps of a pipe.
- `connection_in_order`: the limit manager is told what the watcher wrote first, in order
  and each rate as a whole, and responds as in a run without a socket.

`value` gives the value of eight bytes in memory. `g_active_gpu[device]` stays as the
initialisation sets it, and a sleep that a signal ends is gone on with, so neither is in
the steps.
-/

namespace Lilt.Tgs

open Binary64 Transition

/-! ## Writing and reading -/

/-- `sizeof(double)` -/
def sizeofDouble : Nat := 8

/-- What `write` returns: some bytes were taken, or none, and whether `errno == EINTR`. -/
inductive Written where
  | bytes (count : Nat)
  | nothing (interrupted : Bool)

/-- A turn of the loop of `rio_writen`, with `bufp` left to write: what is left then, or
nothing when -1 is returned. -/
def rioWriten (bufp : List UInt8) : Written → Option (List UInt8)
  | .bytes count => some (bufp.drop count)
  | .nothing true => some bufp
  | .nothing false => none

/-- What `read` returns: some bytes, none at the end, or -1 and whether
`errno == EINTR`. -/
inductive ReadAnswer where
  | bytes (xs : List UInt8)
  | endOfFile
  | failed (interrupted : Bool)

/-- Where `rio_readn` is after a turn of its loop. -/
inductive Reading where
  | going (usrbuf : List UInt8)
  | returned (result : ℤ) (usrbuf : List UInt8)

/-- A turn of the loop of `rio_readn` for `n` bytes, where `usrbuf` has been read. -/
def rioReadn (n : Nat) (usrbuf : List UInt8) : ReadAnswer → Reading
  | .bytes xs =>
    if (usrbuf ++ xs).length < n then .going (usrbuf ++ xs)
    else .returned (usrbuf ++ xs).length (usrbuf ++ xs)
  | .endOfFile => .returned usrbuf.length usrbuf
  | .failed true => .going usrbuf
  | .failed false => .returned (-1) usrbuf

/-! ## The rate watcher -/

/-- Where `rate_watcher` is. -/
inductive WatcherPhase where
  /-- in the loop around `open_clientfd` -/
  | opening (loopCnt : Nat)
  /-- in `rio_writen` of `max_rate` -/
  | announcing
  /-- in `nanosleep` -/
  | sleeping
  /-- in `rio_writen` of `rate_counter` -/
  | reporting
  /-- The process is gone. -/
  | ended
  deriving DecidableEq

/-- The thread `rate_watcher`. -/
structure Watcher where
  phase : WatcherPhase
  window : Window
  maxRate : Double
  /-- what `rio_writen` has left to write -/
  bufp : List UInt8

/-- `rate_watcher` at its start. -/
def Watcher.initial : Watcher where
  phase := .opening 0
  window := .cleared
  maxRate := zero
  bufp := []

/-- A rate is put into the window and compared with the largest. -/
def Watcher.sample (w : Watcher) (rateCounter : Double) : Watcher :=
  let shifted := shiftWindow w.window windowSize rateCounter
  { w with
    window := shifted.1
    maxRate :=
      if within (.ofRat (2 / 10)) (relativeDelta shifted.2 w.maxRate) then
        larger w.maxRate shifted.2
      else shifted.2 }

/-- The end of the loop of a connection. -/
def Watcher.close (w : Watcher) : Watcher :=
  { w with phase := .opening 0, maxRate := w.maxRate * .ofRat (8 / 10), bufp := [] }

/-- What the thread goes on with. `object` is what the `double` that is written next looks
like in memory. -/
inductive WatcherAction where
  /-- `open_clientfd` returned -1; `currentRate` is `g_current_rate[device]`. -/
  | openFailed (currentRate : ℤ)
  | opened (object : List UInt8)
  | write (result : Written)
  /-- `rio_writen` has nothing left to write. -/
  | written
  /-- Five seconds are over. -/
  | slept (currentRate : ℤ) (object : List UInt8)

/-- `object` is a `double` in memory that has the value `x`. -/
def IsObject (value : List UInt8 → Double) (object : List UInt8) (x : Double) : Prop :=
  object.length = sizeofDouble ∧ value object = x

instance instDecidableIsObject (value : List UInt8 → Double) (object : List UInt8)
    (x : Double) : Decidable (IsObject value object x) :=
  inferInstanceAs (Decidable (_ ∧ _))

section watcher

variable (value : List UInt8 → Double)

/-- The thread after what it was waiting for, if it was. -/
def Watcher.step (w : Watcher) : WatcherAction → Option Watcher
  | .openFailed currentRate =>
    match w.phase with
    | .opening loopCnt =>
      if loopCnt < 20 then some { w with phase := .opening (loopCnt + 1) }
      else some { w.sample (.ofInt currentRate) with phase := .opening 0 }
    | _ => none
  | .opened object =>
    match w.phase with
    | .opening _ =>
      if IsObject value object w.maxRate then
        some { w with phase := .announcing, bufp := object }
      else none
    | _ => none
  | .write result =>
    if w.bufp = [] then none
    else
      match w.phase, rioWriten w.bufp result with
      | .announcing, some bufp | .reporting, some bufp => some { w with bufp := bufp }
      -- `continue`: the descriptor stays open
      | .announcing, none => some { w with phase := .opening 0 }
      | .reporting, none => some w.close
      | _, _ => none
  | .written =>
    if w.bufp = [] then
      match w.phase with
      | .announcing | .reporting => some { w with phase := .sleeping }
      | _ => none
    else none
  | .slept currentRate object =>
    match w.phase with
    | .sleeping =>
      if IsObject value object (.ofInt currentRate) then
        some { w.sample (.ofInt currentRate) with phase := .reporting, bufp := object }
      else none
    | _ => none

/-- The thread by itself. -/
def watcherSystem : System Watcher WatcherAction where
  Init w := w = .initial
  Step w a w' := w.step value a = some w'

/-- The rate did not leave the range of `long long`. -/
def WatcherAction.Counted : WatcherAction → Prop
  | .openFailed currentRate | .slept currentRate _ => 0 ≤ currentRate
  | .opened _ | .write _ | .written => True

/-- The rates that the thread keeps are not below zero. -/
structure Watcher.Nonneg (w : Watcher) : Prop where
  window : ∀ i, (w.window i).Nonneg
  maxRate : w.maxRate.Nonneg

end watcher

section nonneg

variable {value : List UInt8 → Double} {w w' : Watcher}

/-- The larger of two rates that are not below zero is not either. -/
theorem larger_nonneg {x y : Double} (hx : x.Nonneg) (hy : y.Nonneg) : (larger x y).Nonneg := by
  unfold larger
  split
  · exact hx
  · exact hy

/-- The largest mean of two neighbours in such a window is not below zero. -/
theorem largestMean_nonneg {window : Window} (h : ∀ i, (window i).Nonneg) (n : Nat) {x : Double}
    (hx : x.Nonneg) : (largestMean window n x).Nonneg := by
  induction n generalizing x with
  | zero => exact hx
  | succ n ih =>
    have hmean : (meanRate window n).Nonneg :=
      ((h (n + 1)).add (h n)).div_is two_is (by norm_num)
    exact ih (larger_nonneg hx hmean)

/-- A rate that is sampled goes into the window and may become the largest. -/
theorem Watcher.Nonneg.sample (h : w.Nonneg) {x : Double} (hx : x.Nonneg) :
    (w.sample x).Nonneg := by
  have hrate : (shiftWindow w.window windowSize x).2.Nonneg := by
    rw [shiftWindow_rate]
    exact largestMean_nonneg h.window _ (zero_is.nonneg (le_refl 0))
  refine ⟨fun i => ?_, ?_⟩
  · show ((shiftWindow w.window windowSize x).1 i).Nonneg
    rw [shiftWindow_window]
    split
    · exact hx
    · split
      · exact h.window _
      · exact h.window _
  · show Double.Nonneg (ite _ _ _)
    split
    · exact larger_nonneg h.maxRate hrate
    · exact hrate

/-- The largest rate is lowered when a connection ends, but not below zero. -/
theorem Watcher.Nonneg.close (h : w.Nonneg) : w.close.Nonneg := by
  obtain ⟨c, hc, hlow, -⟩ := Double.ofRat_between (q := 8 / 10)
    (representable_zpow (e := -1) (by norm_num) (by norm_num))
    (representable_zpow (e := 0) (by norm_num) (by norm_num))
    (two_zpow_pos _).le (by norm_num) (by norm_num)
  exact ⟨h.window, h.maxRate.mul_is hc (lt_of_lt_of_le (two_zpow_pos _) hlow)⟩

/-- What each step does. -/
inductive Watcher.StepCases (value : List UInt8 → Double) (w : Watcher) :
    WatcherAction → Watcher → Prop where
  | poll {loopCnt : Nat} {currentRate : ℤ} : w.phase = .opening loopCnt →
      StepCases value w (.openFailed currentRate) { w with phase := .opening (loopCnt + 1) }
  | sample {loopCnt : Nat} {currentRate : ℤ} : w.phase = .opening loopCnt →
      StepCases value w (.openFailed currentRate)
        { w.sample (.ofInt currentRate) with phase := .opening 0 }
  | opened {loopCnt : Nat} {object : List UInt8} : w.phase = .opening loopCnt →
      IsObject value object w.maxRate →
      StepCases value w (.opened object) { w with phase := .announcing, bufp := object }
  | write {result : Written} {bufp : List UInt8} :
      w.phase = .announcing ∨ w.phase = .reporting → rioWriten w.bufp result = some bufp →
      StepCases value w (.write result) { w with bufp := bufp }
  | announceFailed {result : Written} : w.phase = .announcing →
      rioWriten w.bufp result = none →
      StepCases value w (.write result) { w with phase := .opening 0 }
  | reportFailed {result : Written} : w.phase = .reporting → rioWriten w.bufp result = none →
      StepCases value w (.write result) w.close
  | written : w.phase = .announcing ∨ w.phase = .reporting → w.bufp = [] →
      StepCases value w .written { w with phase := .sleeping }
  | slept {currentRate : ℤ} {object : List UInt8} : w.phase = .sleeping →
      IsObject value object (.ofInt currentRate) →
      StepCases value w (.slept currentRate object)
        { w.sample (.ofInt currentRate) with phase := .reporting, bufp := object }

/-- Every step is one of the cases. -/
theorem Watcher.step_cases {a : WatcherAction} (h : w.step value a = some w') :
    StepCases value w a w' := by
  cases a with
  | openFailed currentRate =>
    simp only [Watcher.step] at h
    split at h
    next hphase =>
      split at h
      · cases h
        exact .poll hphase
      · cases h
        exact .sample hphase
    next => cases h
  | opened object =>
    simp only [Watcher.step] at h
    split at h
    next hphase =>
      split at h
      next hobject =>
        cases h
        exact .opened hphase hobject
      next => cases h
    next => cases h
  | write result =>
    simp only [Watcher.step] at h
    split at h
    next => cases h
    next =>
      split at h
      next hphase hwritten =>
        cases h
        exact .write (.inl hphase) hwritten
      next hphase hwritten =>
        cases h
        exact .write (.inr hphase) hwritten
      next hphase hwritten =>
        cases h
        exact .announceFailed hphase hwritten
      next hphase hwritten =>
        cases h
        exact .reportFailed hphase hwritten
      next => cases h
  | written =>
    simp only [Watcher.step] at h
    split at h
    next hbufp =>
      split at h
      next hphase =>
        cases h
        exact .written (.inl hphase) hbufp
      next hphase =>
        cases h
        exact .written (.inr hphase) hbufp
      next => cases h
    next => cases h
  | slept currentRate object =>
    simp only [Watcher.step] at h
    split at h
    next hphase =>
      split at h
      next hobject =>
        cases h
        exact .slept hphase hobject
      next => cases h
    next => cases h

/-- A step keeps the rates at or above zero if the rate that it reads is. -/
theorem Watcher.Nonneg.step (h : w.Nonneg) {a : WatcherAction} (ha : a.Counted)
    (hstep : w.step value a = some w') : w'.Nonneg := by
  cases Watcher.step_cases hstep with
  | poll => exact ⟨h.window, h.maxRate⟩
  | sample =>
    have hsample := h.sample (Double.ofInt_nonneg ha)
    exact ⟨hsample.window, hsample.maxRate⟩
  | opened => exact ⟨h.window, h.maxRate⟩
  | write => exact ⟨h.window, h.maxRate⟩
  | announceFailed => exact ⟨h.window, h.maxRate⟩
  | reportFailed => exact h.close
  | written => exact ⟨h.window, h.maxRate⟩
  | slept =>
    have hsample := h.sample (Double.ofInt_nonneg ha)
    exact ⟨hsample.window, hsample.maxRate⟩

/-- Whatever happens to its connections: as long as the rates are, what the thread keeps is
not below zero. -/
theorem watcher_nonneg
    (h : ((watcherSystem value).restrict fun _ a => a.Counted).Reachable w) : w.Nonneg := by
  induction h with
  | init h =>
    obtain rfl := h
    exact ⟨fun _ => zero_is.nonneg (le_refl 0), zero_is.nonneg (le_refl 0)⟩
  | step _ hstep ih => exact ih.step hstep.1 hstep.2

end nonneg

/-! ## One connection -/

/-- Both threads and the connection that they share. -/
structure Connection where
  watcher : Watcher
  /-- written and not read -/
  queue : List UInt8
  /-- The descriptor of the HP process is closed. -/
  closed : Bool
  /-- what `rio_readn` has read -/
  usrbuf : List UInt8
  manager : Manager
  control : Control
  /-- what the HP process has begun to write, one `double` after the other -/
  sent : List (List UInt8)
  /-- what `rio_readn` has returned as a whole -/
  received : List (List UInt8)
  /-- what `limit_manager` has responded to -/
  heard : List (ℤ × Option Double)

inductive ConnectionAction where
  | watch (a : WatcherAction)
  /-- The HP process ends, whatever it is doing. -/
  | exit
  /-- `read` returns, while `g_current_rate[device]` is `currentRate`. -/
  | read (answer : ReadAnswer) (currentRate : ℤ)

section connection

variable (value : List UInt8 → Double) (cfg : TgsSettings) (undefined : ℤ) (transfer : Bool)

/-- What the thread, which goes on as `watcher`, does to its descriptor. -/
def Connection.carry (c : Connection) (watcher : Watcher) : WatcherAction → Option Connection
  | .write (.bytes count) =>
    if 0 < count ∧ count ≤ c.watcher.bufp.length then
      some { c with watcher := watcher, queue := c.queue ++ c.watcher.bufp.take count }
    else none
  | .write (.nothing interrupted) =>
    some { c with
      watcher := watcher
      closed := c.closed || (!interrupted && c.watcher.phase = .reporting) }
  | .slept _ object => some { c with watcher := watcher, sent := c.sent ++ [object] }
  | .openFailed _ | .opened _ | .written => some { c with watcher := watcher }

/-- The HP side. -/
def Connection.watch (c : Connection) (a : WatcherAction) : Option Connection :=
  match c.watcher.phase with
  | .opening _ | .ended => none
  | _ => (c.watcher.step value a).bind fun watcher => c.carry watcher a

/-- `rio_readn` has returned. -/
def Connection.respond (c : Connection) (queue : List UInt8) (result : ℤ) (usrbuf : List UInt8)
    (currentRate : ℤ) : Connection :=
  let recvCounter := if result = sizeofDouble then some (value usrbuf) else none
  let response := serve cfg undefined transfer (c.manager, c.control) (currentRate, recvCounter)
  { c with
    queue := queue
    usrbuf := []
    manager := response.1
    control := response.2
    received := if result = sizeofDouble then c.received ++ [usrbuf] else c.received
    heard := c.heard ++ [(currentRate, recvCounter)] }

/-- What is left in the connection after a `read`, if it can return that. -/
def Connection.dequeue (c : Connection) : ReadAnswer → Option (List UInt8)
  | .bytes xs =>
    if xs ≠ [] ∧ c.usrbuf.length + xs.length ≤ sizeofDouble ∧ xs <+: c.queue then
      some (c.queue.drop xs.length)
    else none
  | .endOfFile => if c.queue = [] ∧ c.closed then some [] else none
  | .failed _ => some c.queue

/-- The BE side. -/
def Connection.read (c : Connection) (answer : ReadAnswer) (currentRate : ℤ) :
    Option Connection :=
  if c.manager.phase = .accepting then none
  else
    (c.dequeue answer).map fun queue =>
      match rioReadn sizeofDouble c.usrbuf answer with
      | .going usrbuf => { c with queue := queue, usrbuf := usrbuf }
      | .returned result usrbuf =>
        c.respond value cfg undefined transfer queue result usrbuf currentRate

def Connection.step (c : Connection) : ConnectionAction → Option Connection
  | .watch a => c.watch value a
  | .exit =>
    some { c with watcher := { c.watcher with phase := .ended, bufp := [] }, closed := true }
  | .read answer currentRate => c.read value cfg undefined transfer answer currentRate

/-- The two sides when `open_clientfd` has returned the descriptor and `accept` has
returned the other end. -/
structure Connection.Initial (m : Manager) (control : Control) (c : Connection) : Prop where
  watcher : ((watcherSystem value).restrict fun _ a => a.Counted).Reachable c.watcher
  phase : c.watcher.phase = .announcing
  object : IsObject value c.watcher.bufp c.watcher.maxRate
  queue : c.queue = []
  closed : c.closed = false
  usrbuf : c.usrbuf = []
  manager : c.manager = m
  control : c.control = control
  sent : c.sent = [c.watcher.bufp]
  received : c.received = []
  heard : c.heard = []

/-- All interleavings of the two sides on one connection. -/
def connectionSystem (m : Manager) (control : Control) : System Connection ConnectionAction where
  Init := Connection.Initial value m control
  Step c a c' := c.step value cfg undefined transfer a = some c'

end connection

/-- The rates of the HP process are counted, and no `read` fails but for a signal. -/
def ConnectionAction.Regular : ConnectionAction → Prop
  | .watch a => a.Counted
  | .exit => True
  | .read answer _ => answer ≠ .failed false

/-! ## What arrives -/

/-- The bytes of the connection. -/
def Connection.pipe (c : Connection) : Pipe.State UInt8 where
  sent := c.sent
  left := c.watcher.bufp
  queue := c.queue
  closed := c.closed
  got := c.usrbuf
  received := c.received

/-- What the HP process writes: a rate that is not below zero, then one rate after the
other. -/
def Reports (value : List UInt8 → Double) (sent : List (List UInt8)) : Prop :=
  ∃ (maxRate : Double) (rates : List ℤ), maxRate.Nonneg ∧ (∀ r ∈ rates, 0 ≤ r) ∧
    sent.map value = maxRate :: rates.map Double.ofInt

/-- The invariant of a connection that was accepted in the state `m` and `control`. -/
structure Connection.Orderly (value : List UInt8 → Double) (cfg : TgsSettings) (undefined : ℤ)
    (transfer : Bool) (m : Manager) (control : Control) (c : Connection) : Prop where
  pipe : Pipe.Ordered sizeofDouble c.pipe
  watcher : c.watcher.Nonneg
  sleeping : c.watcher.phase = .sleeping → c.watcher.bufp = []
  writing : c.closed = true → ∃ n, c.watcher.phase = .opening n ∨ c.watcher.phase = .ended
  usrbuf : c.usrbuf.length < sizeofDouble
  sent : Reports value c.sent
  heard : ∃ n, c.heard.map Prod.snd =
      c.received.map (fun object => some (value object)) ++ List.replicate n none ∧
    (n ≠ 0 → c.queue = [] ∧ c.closed = true)
  served : (c.manager, c.control) = serveAll cfg undefined transfer (m, control) c.heard

section orderly

variable {value : List UInt8 → Double} {cfg : TgsSettings} {undefined : ℤ} {transfer : Bool}
  {m : Manager} {control : Control} {c c' : Connection}

/-- A connection that was just accepted is in order. -/
theorem orderly_initial (h : c.Initial value m control) :
    c.Orderly value cfg undefined transfer m control where
  pipe := by
    have hsent := (Pipe.Step.send (Pipe.State.empty (α := UInt8)) rfl rfl h.object.1).ordered
      Pipe.ordered_empty
    unfold Connection.pipe
    rw [h.sent, h.queue, h.closed, h.usrbuf, h.received]
    exact hsent
  watcher := watcher_nonneg h.watcher
  sleeping hphase := by
    rw [h.phase] at hphase
    cases hphase
  writing hclosed := by
    rw [h.closed] at hclosed
    cases hclosed
  usrbuf := by
    rw [h.usrbuf]
    decide
  sent := by
    refine ⟨c.watcher.maxRate, [], (watcher_nonneg h.watcher).maxRate,
      fun r hr => absurd hr List.not_mem_nil, ?_⟩
    rw [h.sent, List.map_singleton, h.object.2]
    rfl
  heard := by
    refine ⟨0, ?_, fun hne => absurd rfl hne⟩
    rw [h.heard, h.received, List.map_nil, List.map_nil, List.replicate_zero, List.append_nil]
  served := by
    rw [h.heard, h.manager, h.control]
    rfl

/-! ## What a step of either side does -/

/-- What the HP side does to the connection. -/
inductive Connection.WatchCases (value : List UInt8 → Double) (c : Connection) :
    WatcherAction → Connection → Prop where
  | write {count : Nat} : c.watcher.phase = .announcing ∨ c.watcher.phase = .reporting →
      WatchCases value c (.write (.bytes count))
        { c with
          watcher := { c.watcher with bufp := c.watcher.bufp.drop count }
          queue := c.queue ++ c.watcher.bufp.take count }
  | interrupted : WatchCases value c (.write (.nothing true)) c
  | announceFailed : c.watcher.phase = .announcing →
      WatchCases value c (.write (.nothing false))
        { c with watcher := { c.watcher with phase := .opening 0 } }
  | reportFailed : c.watcher.phase = .reporting →
      WatchCases value c (.write (.nothing false))
        { c with watcher := c.watcher.close, closed := true }
  | written : c.watcher.phase = .announcing ∨ c.watcher.phase = .reporting →
      c.watcher.bufp = [] →
      WatchCases value c .written { c with watcher := { c.watcher with phase := .sleeping } }
  | slept {currentRate : ℤ} {object : List UInt8} : c.watcher.phase = .sleeping →
      IsObject value object (.ofInt currentRate) →
      WatchCases value c (.slept currentRate object)
        { c with
          watcher :=
            { c.watcher.sample (.ofInt currentRate) with phase := .reporting, bufp := object }
          sent := c.sent ++ [object] }

/-- The rate watcher takes steps in a connection only while it has one and is not gone. -/
theorem Connection.watch_phase {a : WatcherAction} (h : c.watch value a = some c') :
    (∀ n, c.watcher.phase ≠ .opening n) ∧ c.watcher.phase ≠ .ended := by
  unfold Connection.watch at h
  split at h
  · cases h
  · cases h
  next hopening hended => exact ⟨hopening, hended⟩

/-- A step of the HP side is one of the cases. -/
theorem Connection.watch_cases {a : WatcherAction} (h : c.watch value a = some c') :
    c.WatchCases value a c' := by
  have hopen := Connection.watch_phase h
  have hbind : ∃ watcher, Watcher.StepCases value c.watcher a watcher ∧
      c.carry watcher a = some c' := by
    unfold Connection.watch at h
    split at h
    · cases h
    · cases h
    · obtain ⟨watcher, hwatcher, hnext⟩ := Option.bind_eq_some_iff.mp h
      exact ⟨watcher, Watcher.step_cases hwatcher, hnext⟩
  obtain ⟨watcher, hcases, hnext⟩ := hbind
  cases hcases with
  | poll hphase => exact absurd hphase (hopen.1 _)
  | sample hphase => exact absurd hphase (hopen.1 _)
  | opened hphase => exact absurd hphase (hopen.1 _)
  | @write result bufp hphase hwritten =>
    cases result with
    | bytes count =>
      cases hwritten
      simp only [Connection.carry] at hnext
      split at hnext
      · cases hnext
        exact .write hphase
      · cases hnext
    | nothing interrupted =>
      cases interrupted with
      | true =>
        cases hwritten
        cases hnext
        have hsame : (c.closed || (!true && decide (c.watcher.phase = .reporting))) = c.closed :=
          Bool.or_false _
        rw [hsame]
        exact .interrupted
      | false => cases hwritten
  | @announceFailed result hphase hwritten =>
    cases result with
    | bytes count => cases hwritten
    | nothing interrupted =>
      cases interrupted with
      | true => cases hwritten
      | false =>
        cases hnext
        have hsame : (c.closed || (!false && decide (c.watcher.phase = .reporting))) =
            c.closed := by
          rw [hphase]
          exact Bool.or_false _
        rw [hsame]
        exact .announceFailed hphase
  | @reportFailed result hphase hwritten =>
    cases result with
    | bytes count => cases hwritten
    | nothing interrupted =>
      cases interrupted with
      | true => cases hwritten
      | false =>
        cases hnext
        have htrue : (c.closed || (!false && decide (c.watcher.phase = .reporting))) = true := by
          rw [hphase]
          exact Bool.or_true _
        rw [htrue]
        exact .reportFailed hphase
  | written hphase hbufp =>
    cases hnext
    exact .written hphase hbufp
  | slept hphase hobject =>
    cases hnext
    exact .slept hphase hobject

/-- What the BE side does to the connection. -/
inductive Connection.ReadCases (value : List UInt8 → Double) (cfg : TgsSettings) (undefined : ℤ)
    (transfer : Bool) (c : Connection) (currentRate : ℤ) : Connection → Prop where
  | interrupted : ReadCases value cfg undefined transfer c currentRate c
  | going {xs rest : List UInt8} : xs ≠ [] → c.queue = xs ++ rest →
      (c.usrbuf ++ xs).length < sizeofDouble →
      ReadCases value cfg undefined transfer c currentRate
        { c with queue := rest, usrbuf := c.usrbuf ++ xs }
  | whole {xs rest : List UInt8} : xs ≠ [] → c.queue = xs ++ rest →
      (c.usrbuf ++ xs).length = sizeofDouble →
      ReadCases value cfg undefined transfer c currentRate
        (c.respond value cfg undefined transfer rest sizeofDouble (c.usrbuf ++ xs) currentRate)
  | finished : c.queue = [] → c.closed = true →
      ReadCases value cfg undefined transfer c currentRate
        (c.respond value cfg undefined transfer [] c.usrbuf.length c.usrbuf currentRate)

/-- A step of the BE side is one of the cases, if a read fails only by a signal. -/
theorem Connection.read_cases {answer : ReadAnswer} {currentRate : ℤ}
    (hanswer : answer ≠ .failed false)
    (h : c.read value cfg undefined transfer answer currentRate = some c') :
    c.ReadCases value cfg undefined transfer currentRate c' := by
  unfold Connection.read at h
  split at h
  · cases h
  obtain ⟨queue, hqueue, rfl⟩ := Option.map_eq_some_iff.mp h
  cases answer with
  | bytes xs =>
    simp only [Connection.dequeue] at hqueue
    split at hqueue
    next hxs =>
      cases hqueue
      obtain ⟨hne, hlength, rest, hrest⟩ := hxs
      rw [← hrest, List.drop_left]
      have hbuf : (c.usrbuf ++ xs).length ≤ sizeofDouble := by rwa [List.length_append]
      by_cases hlt : (c.usrbuf ++ xs).length < sizeofDouble
      · have hgoing : rioReadn sizeofDouble c.usrbuf (.bytes xs) = .going (c.usrbuf ++ xs) :=
          if_pos hlt
        rw [hgoing]
        exact .going hne hrest.symm hlt
      · have hwhole : (c.usrbuf ++ xs).length = sizeofDouble := le_antisymm hbuf (not_lt.mp hlt)
        have hreturned : rioReadn sizeofDouble c.usrbuf (.bytes xs) =
            .returned sizeofDouble (c.usrbuf ++ xs) := by
          rw [← hwhole]
          exact if_neg (lt_irrefl _)
        rw [hreturned]
        exact .whole hne hrest.symm hwhole
    next => cases hqueue
  | endOfFile =>
    simp only [Connection.dequeue] at hqueue
    split at hqueue
    next hend =>
      cases hqueue
      exact .finished hend.1 hend.2
    next => cases hqueue
  | failed interrupted =>
    cases interrupted with
    | true =>
      cases hqueue
      exact .interrupted
    | false => exact absurd rfl hanswer

/-- A read of eight bytes is a rate. -/
theorem respond_whole (c : Connection) (queue usrbuf : List UInt8) (currentRate : ℤ) :
    let told := (currentRate, some (value usrbuf))
    let response := serve cfg undefined transfer (c.manager, c.control) told
    c.respond value cfg undefined transfer queue sizeofDouble usrbuf currentRate =
      { c with
        queue := queue
        usrbuf := []
        manager := response.1
        control := response.2
        received := c.received ++ [usrbuf]
        heard := c.heard ++ [told] } := by
  unfold Connection.respond
  dsimp only
  rw [if_pos rfl, if_pos rfl]

/-- A shorter one is the end. -/
theorem respond_short (c : Connection) (queue usrbuf : List UInt8) (currentRate : ℤ) {result : ℤ}
    (hne : result ≠ sizeofDouble) :
    let response := serve cfg undefined transfer (c.manager, c.control) (currentRate, none)
    c.respond value cfg undefined transfer queue result usrbuf currentRate =
      { c with
        queue := queue
        usrbuf := []
        manager := response.1
        control := response.2
        heard := c.heard ++ [(currentRate, none)] } := by
  unfold Connection.respond
  dsimp only
  rw [if_neg hne, if_neg hne]

/-- The two sides do to the bytes what the ends of a pipe may do. -/
theorem Connection.WatchCases.pipe {a : WatcherAction} (h : c.WatchCases value a c')
    (hsleeping : c.watcher.phase = .sleeping → c.watcher.bufp = [])
    (hopen : c.closed = false) : Pipe.Step sizeofDouble c.pipe c'.pipe := by
  cases h with
  | write => exact .write c.pipe _
  | interrupted => exact .stay c.pipe
  | announceFailed => exact .stay c.pipe
  | reportFailed => exact .close c.pipe
  | written => exact .stay c.pipe
  | slept hphase hobject => exact .send c.pipe (hsleeping hphase) hopen hobject.1

/-- The BE side takes bytes out of the pipe, and receives a rate with the eighth of them. -/
theorem Connection.ReadCases.pipe {currentRate : ℤ}
    (h : c.ReadCases value cfg undefined transfer currentRate c')
    (hshort : c.usrbuf.length < sizeofDouble) : Pipe.Step sizeofDouble c.pipe c'.pipe := by
  cases h with
  | interrupted => exact .stay c.pipe
  | @going xs rest hne hqueue hlt =>
    have htake : c.pipe.queue.take xs.length = xs := by
      show c.queue.take xs.length = xs
      rw [hqueue, List.take_left]
    have hdrop : c.pipe.queue.drop xs.length = rest := by
      show c.queue.drop xs.length = rest
      rw [hqueue, List.drop_left]
    have hread := Pipe.Step.read (n := sizeofDouble) c.pipe xs.length
    rw [htake, hdrop] at hread
    exact hread hlt
  | @whole xs rest hne hqueue hlength =>
    have htake : c.pipe.queue.take xs.length = xs := by
      show c.queue.take xs.length = xs
      rw [hqueue, List.take_left]
    have hdrop : c.pipe.queue.drop xs.length = rest := by
      show c.queue.drop xs.length = rest
      rw [hqueue, List.drop_left]
    have hreceive := Pipe.Step.receive (n := sizeofDouble) c.pipe xs.length
    rw [htake, hdrop] at hreceive
    rw [respond_whole]
    exact hreceive hlength
  | finished hqueue hclosed =>
    have hne : (c.usrbuf.length : ℤ) ≠ sizeofDouble := by omega
    have hfinish := Pipe.Step.finish (n := sizeofDouble) c.pipe hclosed hqueue
    rw [respond_short c [] c.usrbuf currentRate hne]
    unfold Connection.pipe at hfinish ⊢
    dsimp only at hfinish ⊢
    rw [hqueue] at hfinish ⊢
    exact hfinish

/-- The manager responds to one rate after the other. -/
theorem serveAll_concat (s : Manager × Control) (xs : List (ℤ × Option Double))
    (x : ℤ × Option Double) :
    serveAll cfg undefined transfer s (xs ++ [x]) =
      serve cfg undefined transfer (serveAll cfg undefined transfer s xs) x :=
  List.foldl_concat _ s x xs

/-- A rate that is not below zero may follow. -/
theorem reports_concat {sent : List (List UInt8)} (h : Reports value sent) {currentRate : ℤ}
    (hrate : 0 ≤ currentRate) {object : List UInt8}
    (hobject : value object = .ofInt currentRate) : Reports value (sent ++ [object]) := by
  obtain ⟨maxRate, rates, hmax, hrates, hsent⟩ := h
  refine ⟨maxRate, rates ++ [currentRate], hmax, fun r hr => ?_, ?_⟩
  · rcases List.mem_append.mp hr with hr | hr
    · exact hrates r hr
    · rw [List.mem_singleton.mp hr]
      exact hrate
  · rw [List.map_append, hsent, List.map_singleton, hobject, List.map_append]
    rfl

/-! ## The invariant -/

/-- The HP side writes nothing but reports, each behind the last. -/
theorem Connection.Orderly.watch (h : c.Orderly value cfg undefined transfer m control)
    {a : WatcherAction} (ha : a.Counted) (hstep : c.watch value a = some c') :
    c'.Orderly value cfg undefined transfer m control := by
  have hopen : c.closed = false := by
    refine Bool.eq_false_iff.mpr fun hclosed => ?_
    obtain ⟨n, hn | hn⟩ := h.writing hclosed
    · exact (Connection.watch_phase hstep).1 n hn
    · exact (Connection.watch_phase hstep).2 hn
  have hcases := Connection.watch_cases hstep
  have hpipe := (hcases.pipe h.sleeping hopen).ordered h.pipe
  -- nothing was at its end before
  obtain ⟨n, hheard, hend⟩ := h.heard
  have hn : n = 0 := by
    by_contra hne
    exact Bool.false_ne_true (hopen.symm.trans (hend hne).2)
  have hstill : ∀ {P : Prop}, n ≠ 0 → P := fun hne => absurd hn hne
  cases hcases with
  | write hphase =>
    exact { pipe := hpipe
            watcher := ⟨h.watcher.window, h.watcher.maxRate⟩
            sleeping := fun hsleeping => by
              rcases hphase with hphase | hphase <;> cases hphase.symm.trans hsleeping
            writing := fun hclosed => absurd (hopen.symm.trans hclosed) Bool.false_ne_true
            usrbuf := h.usrbuf
            sent := h.sent
            heard := ⟨n, hheard, hstill⟩
            served := h.served }
  | interrupted => exact h
  | announceFailed hphase =>
    exact { pipe := hpipe
            watcher := ⟨h.watcher.window, h.watcher.maxRate⟩
            sleeping := fun hsleeping => absurd hsleeping WatcherPhase.noConfusion
            writing := fun _ => ⟨0, .inl rfl⟩
            usrbuf := h.usrbuf
            sent := h.sent
            heard := ⟨n, hheard, hstill⟩
            served := h.served }
  | reportFailed hphase =>
    exact { pipe := hpipe
            watcher := h.watcher.close
            sleeping := fun hsleeping => absurd hsleeping WatcherPhase.noConfusion
            writing := fun _ => ⟨0, .inl rfl⟩
            usrbuf := h.usrbuf
            sent := h.sent
            heard := ⟨n, hheard, hstill⟩
            served := h.served }
  | written hphase hbufp =>
    exact { pipe := hpipe
            watcher := ⟨h.watcher.window, h.watcher.maxRate⟩
            sleeping := fun _ => hbufp
            writing := fun hclosed => absurd (hopen.symm.trans hclosed) Bool.false_ne_true
            usrbuf := h.usrbuf
            sent := h.sent
            heard := ⟨n, hheard, hstill⟩
            served := h.served }
  | slept hphase hobject =>
    have hsample := h.watcher.sample (Double.ofInt_nonneg ha)
    exact { pipe := hpipe
            watcher := ⟨hsample.window, hsample.maxRate⟩
            sleeping := fun hsleeping => absurd hsleeping WatcherPhase.noConfusion
            writing := fun hclosed => absurd (hopen.symm.trans hclosed) Bool.false_ne_true
            usrbuf := h.usrbuf
            sent := reports_concat h.sent ha hobject.2
            heard := ⟨n, hheard, hstill⟩
            served := h.served }

/-- The HP process may end at any byte. -/
theorem Connection.Orderly.exit (h : c.Orderly value cfg undefined transfer m control) :
    { c with
      watcher := { c.watcher with phase := .ended, bufp := [] }
      closed := true }.Orderly value cfg undefined transfer m control := by
  obtain ⟨n, hheard, hend⟩ := h.heard
  exact { pipe := (Pipe.Step.close c.pipe).ordered h.pipe
          watcher := ⟨h.watcher.window, h.watcher.maxRate⟩
          sleeping := fun _ => rfl
          writing := fun _ => ⟨0, .inr rfl⟩
          usrbuf := h.usrbuf
          sent := h.sent
          heard := ⟨n, hheard, fun hne => ⟨(hend hne).1, rfl⟩⟩
          served := h.served }

/-- The manager responds to a rate that was received and, at the end of the stream, to none. -/
theorem Connection.Orderly.read (h : c.Orderly value cfg undefined transfer m control)
    {answer : ReadAnswer} {currentRate : ℤ} (hanswer : answer ≠ .failed false)
    (hstep : c.read value cfg undefined transfer answer currentRate = some c') :
    c'.Orderly value cfg undefined transfer m control := by
  have hcases := Connection.read_cases hanswer hstep
  have hpipe := (hcases.pipe h.usrbuf).ordered h.pipe
  obtain ⟨n, hheard, hend⟩ := h.heard
  cases hcases with
  | interrupted => exact h
  | @going xs rest hne hqueue hlt =>
    have hn : n = 0 := by
      by_contra hn
      rw [hqueue] at hend
      exact hne (List.append_eq_nil_iff.mp (hend hn).1).1
    exact { pipe := hpipe
            watcher := h.watcher
            sleeping := h.sleeping
            writing := h.writing
            usrbuf := hlt
            sent := h.sent
            heard := ⟨n, hheard, fun hne => absurd hn hne⟩
            served := h.served }
  | @whole xs rest hne hqueue hlength =>
    have hn : n = 0 := by
      by_contra hn
      rw [hqueue] at hend
      exact hne (List.append_eq_nil_iff.mp (hend hn).1).1
    rw [hn, List.replicate_zero, List.append_nil] at hheard
    rw [respond_whole] at hpipe ⊢
    exact { pipe := hpipe
            watcher := h.watcher
            sleeping := h.sleeping
            writing := h.writing
            usrbuf := Nat.zero_lt_succ 7
            sent := h.sent
            heard := by
              refine ⟨0, ?_, fun hne => absurd rfl hne⟩
              rw [List.map_append, hheard, List.map_append, List.replicate_zero, List.append_nil]
              rfl
            served := by
              rw [serveAll_concat, ← h.served] }
  | finished hqueue hclosed =>
    have hshort := h.usrbuf
    rw [respond_short c [] c.usrbuf currentRate (by omega)] at hpipe ⊢
    exact { pipe := hpipe
            watcher := h.watcher
            sleeping := h.sleeping
            writing := h.writing
            usrbuf := Nat.zero_lt_succ 7
            sent := h.sent
            heard := by
              refine ⟨n + 1, ?_, fun _ => ⟨rfl, hclosed⟩⟩
              rw [List.map_append, hheard, List.append_assoc, List.replicate_succ']
              rfl
            served := by
              rw [serveAll_concat, ← h.served] }

/-- Both sides keep a connection in order. -/
theorem orderly_inductive :
    ((connectionSystem value cfg undefined transfer m control).restrict
      fun _ a => a.Regular).Inductive
      fun c => c.Orderly value cfg undefined transfer m control where
  init _ h := orderly_initial h
  step c a c' _ hc hstep := by
    obtain ⟨hregular, hstep⟩ := hstep
    cases a with
    | watch a => exact hc.watch hregular hstep
    | exit =>
      obtain rfl := Option.some.inj hstep
      exact hc.exit
    | read answer currentRate => exact hc.read hregular hstep

/-- However the two processes take turns, in however small pieces the bytes get through,
and whether the HP process stops in the middle of a rate or not: `rio_readn` returns the
rates that were written first, each as a whole, once and in order. They are what the limit
manager responds to, one after the other, with nothing but the end after them. -/
theorem connection_in_order
    (h : ((connectionSystem value cfg undefined transfer m control).restrict
      fun _ a => a.Regular).Reachable c) :
    Reports value c.sent ∧ c.received <+: c.sent ∧
      (∃ n, c.heard.map Prod.snd =
        c.received.map (fun object => some (value object)) ++ List.replicate n none) ∧
      (c.manager, c.control) = serveAll cfg undefined transfer (m, control) c.heard := by
  have hc := orderly_inductive.reachable h
  obtain ⟨n, hheard, -⟩ := hc.heard
  exact ⟨hc.sent, hc.pipe.received_prefix (by decide), ⟨n, hheard⟩, hc.served⟩

/-! ## A rate that is cut off -/

/-- A connection after its rate watcher has opened it and nothing was written. -/
def Connection.opened (m : Manager) (control : Control) (object : List UInt8) : Connection where
  watcher := { Watcher.initial with phase := .announcing, bufp := object }
  queue := []
  closed := false
  usrbuf := []
  manager := m
  control := control
  sent := [object]
  received := []
  heard := []

/-- The system has runs from there. -/
theorem opened_initial (m : Manager) (control : Control) {object : List UInt8}
    (hobject : IsObject value object zero) :
    (Connection.opened m control object).Initial value m control where
  watcher := by
    refine .step (.init rfl) (a := .opened object) ⟨trivial, ?_⟩
    exact if_pos hobject
  phase := rfl
  object := hobject
  queue := rfl
  closed := rfl
  usrbuf := rfl
  manager := rfl
  control := rfl
  sent := rfl
  received := rfl
  heard := rfl

theorem Connection.next_reachable
    (h : ((connectionSystem value cfg undefined transfer m control).restrict
      fun _ a => a.Regular).Reachable c)
    (a : ConnectionAction) (ha : a.Regular)
    (hstep : c.step value cfg undefined transfer a = some c') :
    ((connectionSystem value cfg undefined transfer m control).restrict
      fun _ a => a.Regular).Reachable c' := .step h ⟨ha, hstep⟩

/-- The next rate, when five seconds are over. -/
theorem Connection.slept_reachable
    (h : ((connectionSystem value cfg undefined transfer m control).restrict
      fun _ a => a.Regular).Reachable c)
    (hphase : c.watcher.phase = .sleeping) {rate : ℤ} (hrate : 0 ≤ rate) {object : List UInt8}
    (hobject : IsObject value object (.ofInt rate)) :
    ((connectionSystem value cfg undefined transfer m control).restrict
      fun _ a => a.Regular).Reachable
        { c with
          watcher := { c.watcher.sample (.ofInt rate) with phase := .reporting, bufp := object }
          sent := c.sent ++ [object] } := by
  refine Connection.next_reachable h (.watch (.slept rate object)) hrate ?_
  have hstep : c.watcher.step value (.slept rate object) =
      some { c.watcher.sample (.ofInt rate) with phase := .reporting, bufp := object } := by
    unfold Watcher.step
    rw [hphase]
    exact if_pos hobject
  show c.watch value (.slept rate object) = _
  unfold Connection.watch
  rw [hphase]
  dsimp only
  rw [hstep]
  rfl

/-- The largest rate gets through in two pieces. The HP process ends when it has written three of
the eight bytes of the next rate. -/
theorem connection_in_order_cut :
    ∃ c : Connection, c.heard.map Prod.snd = [some zero, none] ∧
      c.received = [List.replicate 8 0] ∧ c.sent.length = 2 ∧ c.received <+: c.sent := by
  have hopened : ((connectionSystem (fun _ => zero) (tgsSettings fun _ => none) 0 true
      { Manager.initial with phase := .announcing } .initial).restrict
      fun _ a => a.Regular).Reachable (Connection.opened
        { Manager.initial with phase := .announcing } .initial (List.replicate 8 0)) :=
    .init (opened_initial _ .initial ⟨rfl, rfl⟩)
  have hobject : IsObject (fun _ => zero) (List.replicate 8 0) (.ofInt 0) := ⟨rfl, rfl⟩
  have hwritten := Connection.next_reachable hopened (.watch (.write (.bytes 3))) trivial rfl
  have hread := Connection.next_reachable hwritten (.read (.bytes [0, 0]) 0)
    ReadAnswer.noConfusion rfl
  have hrest := Connection.next_reachable hread (.watch (.write (.bytes 5))) trivial rfl
  have hwhole := Connection.next_reachable hrest (.read (.bytes (List.replicate 6 0)) 0)
    ReadAnswer.noConfusion rfl
  have hdone := Connection.next_reachable hwhole (.watch .written) trivial rfl
  have hslept := Connection.slept_reachable hdone rfl (le_refl 0) hobject
  have hcut := Connection.next_reachable hslept (.watch (.write (.bytes 3))) trivial rfl
  have hexit := Connection.next_reachable hcut .exit trivial rfl
  have hlast := Connection.next_reachable hexit (.read (.bytes (List.replicate 3 0)) 0)
    ReadAnswer.noConfusion rfl
  have hend := Connection.next_reachable hlast (.read .endOfFile 0) ReadAnswer.noConfusion rfl
  exact ⟨_, rfl, rfl, rfl, (connection_in_order hend).2.1⟩

end orderly

end Lilt.Tgs
