import Lilt.Driver.Handles
import Lilt.Lib.CInt

/-!
# The priorities of streams (`cuStreamCreate`, `cuStreamCreateWithPriority`)

A smaller number is a more urgent priority. The HP proxy puts its streams into the upper
half of the driver's range and the BE proxy into the lower half; each computes the middle
for itself, the HP proxy one less than the BE proxy before the division.

- `Hp.cuStreamCreate`, `Hp.cuStreamCreateWithPriority`, `Be.cuStreamCreate`,
  `Be.cuStreamCreateWithPriority`: the four entry points, with the calls they make.
- `hp_priority`, `be_priority`: the priorities the driver gets.
- `middles_differ_iff`: when the two middles are different.
- `hp_outranks_be_iff`: when a stream of the HP process has the more urgent priority.
- `streams_tie`: a range where both get the same.
-/

namespace Lilt.Driver

/-- What the driver answers to the creation of a stream. -/
structure StreamDriver where
  /-- `cuCtxGetStreamPriorityRange`: `leastPriority` and `greatestPriority`. -/
  priorityRange : Option (CInt × CInt)
  createWithPriority : (flags : UInt32) → (priority : CInt) → CUresult
  create : (flags : UInt32) → CUresult

/-- A call that creates a stream. -/
inductive StreamCall where
  | cuStreamCreate (flags : UInt32)
  | cuStreamCreateWithPriority (flags : UInt32) (priority : CInt)
  deriving DecidableEq

/-- The rest of `cuStreamCreate`: a stream with the priority, or one without. -/
def createOrFallBack (driver : StreamDriver) (flags : UInt32) (priority : CInt) :
    CUresult × List StreamCall :=
  let ret := driver.createWithPriority flags priority
  if ret = cudaSuccess then (ret, [.cuStreamCreateWithPriority flags priority])
  else
    (driver.create flags, [.cuStreamCreateWithPriority flags priority, .cuStreamCreate flags])

end Lilt.Driver

namespace Lilt.Hp

open Lilt.Driver

/-- `(leastPriority + greatestPriority - 1) / 2`, unless it overflows. -/
def middlePriority (leastPriority greatestPriority : CInt) : Option CInt := do
  let sum ← leastPriority.add greatestPriority
  let less ← sum.sub .one
  return less.half

/-- `cuStreamCreate` of the HP proxy; `none` where the arithmetic is undefined. -/
def cuStreamCreate (driver : StreamDriver) (flags : UInt32) :
    Option (CUresult × List StreamCall) :=
  match driver.priorityRange with
  | some (leastPriority, greatestPriority) => do
    let priority ← middlePriority leastPriority greatestPriority
    return createOrFallBack driver flags priority
  | none => some (driver.create flags, [.cuStreamCreate flags])

/-- `cuStreamCreateWithPriority` of the HP proxy. -/
def cuStreamCreateWithPriority (driver : StreamDriver) (flags : UInt32) (priority : CInt) :
    Option (CUresult × List StreamCall) :=
  match driver.priorityRange with
  | some (leastPriority, greatestPriority) => do
    let middle ← middlePriority leastPriority greatestPriority
    let priority := if middle.val < priority.val then middle else priority
    return (driver.createWithPriority flags priority,
      [.cuStreamCreateWithPriority flags priority])
  | none =>
    some (driver.createWithPriority flags priority, [.cuStreamCreateWithPriority flags priority])

end Lilt.Hp

namespace Lilt.Be

open Lilt.Driver

/-- `(leastPriority + greatestPriority) / 2`, unless it overflows. -/
def middlePriority (leastPriority greatestPriority : CInt) : Option CInt := do
  let sum ← leastPriority.add greatestPriority
  return sum.half

/-- `cuStreamCreate` of the BE proxy. -/
def cuStreamCreate (driver : StreamDriver) (flags : UInt32) :
    Option (CUresult × List StreamCall) :=
  match driver.priorityRange with
  | some (leastPriority, _) => some (createOrFallBack driver flags leastPriority)
  | none => some (driver.create flags, [.cuStreamCreate flags])

/-- `cuStreamCreateWithPriority` of the BE proxy. -/
def cuStreamCreateWithPriority (driver : StreamDriver) (flags : UInt32) (priority : CInt) :
    Option (CUresult × List StreamCall) :=
  match driver.priorityRange with
  | some (leastPriority, greatestPriority) => do
    let middle ← middlePriority leastPriority greatestPriority
    let priority := if priority.val < middle.val then middle else priority
    return (driver.createWithPriority flags priority,
      [.cuStreamCreateWithPriority flags priority])
  | none =>
    some (driver.createWithPriority flags priority, [.cuStreamCreateWithPriority flags priority])

end Lilt.Be

namespace Lilt.Driver

/-! ## The priorities that the driver gets -/

/-- A stream that an application creates. -/
inductive StreamRequest where
  | plain
  | withPriority (priority : CInt)

/-- The entry points of the HP proxy. -/
def hpCreate (driver : StreamDriver) (flags : UInt32) :
    StreamRequest → Option (CUresult × List StreamCall)
  | .plain => Hp.cuStreamCreate driver flags
  | .withPriority priority => Hp.cuStreamCreateWithPriority driver flags priority

/-- The entry points of the BE proxy. -/
def beCreate (driver : StreamDriver) (flags : UInt32) :
    StreamRequest → Option (CUresult × List StreamCall)
  | .plain => Be.cuStreamCreate driver flags
  | .withPriority priority => Be.cuStreamCreateWithPriority driver flags priority

/-- The driver gives the range, and creates streams with the priorities it is asked
for. -/
structure StreamDriver.Serves (driver : StreamDriver)
    (leastPriority greatestPriority : CInt) : Prop where
  range : driver.priorityRange = some (leastPriority, greatestPriority)
  success : ∀ flags priority, driver.createWithPriority flags priority = cudaSuccess

/-- The priority of a stream of the HP process: its middle or a more urgent one. -/
def hpPriority (middle : CInt) : StreamRequest → CInt
  | .plain => middle
  | .withPriority priority => if middle.val < priority.val then middle else priority

/-- The priority of a stream of a BE process that asks for one: its middle or a less
urgent one. -/
def bePriority (middle priority : CInt) : CInt :=
  if priority.val < middle.val then middle else priority

section priorities

variable {driver : StreamDriver} {least greatest : CInt}

/-- A creation that succeeds at the first attempt. -/
def createdWith (flags : UInt32) (priority : CInt) : CUresult × List StreamCall :=
  (cudaSuccess, [.cuStreamCreateWithPriority flags priority])

theorem createdWith_inj {flags : UInt32} {p q : CInt}
    (h : createdWith flags p = createdWith flags q) : p = q := by
  obtain ⟨-, hcalls⟩ := Prod.mk.inj h
  exact (StreamCall.cuStreamCreateWithPriority.inj (List.singleton_inj.mp hcalls)).2

theorem createOrFallBack_served (h : driver.Serves least greatest) (flags : UInt32)
    (priority : CInt) :
    createOrFallBack driver flags priority = createdWith flags priority := by
  unfold createOrFallBack createdWith
  rw [h.success]
  rfl

theorem hp_priority (h : driver.Serves least greatest) (flags : UInt32)
    (request : StreamRequest) :
    hpCreate driver flags request = (Hp.middlePriority least greatest).map fun middle =>
      createdWith flags (hpPriority middle request) := by
  cases request with
  | plain =>
    simp only [hpCreate, Hp.cuStreamCreate, h.range]
    cases Hp.middlePriority least greatest with
    | none => rfl
    | some middle => exact congrArg some (createOrFallBack_served h flags middle)
  | withPriority priority =>
    simp only [hpCreate, Hp.cuStreamCreateWithPriority, h.range, h.success]
    cases Hp.middlePriority least greatest with
    | none => rfl
    | some middle => rfl

theorem be_priority_plain (h : driver.Serves least greatest) (flags : UInt32) :
    beCreate driver flags .plain = some (createdWith flags least) := by
  simp only [beCreate, Be.cuStreamCreate, h.range]
  exact congrArg some (createOrFallBack_served h flags least)

theorem be_priority (h : driver.Serves least greatest) (flags : UInt32) (priority : CInt) :
    beCreate driver flags (.withPriority priority) =
      (Be.middlePriority least greatest).map fun middle =>
        createdWith flags (bePriority middle priority) := by
  simp only [beCreate, Be.cuStreamCreateWithPriority, h.range, h.success]
  cases Be.middlePriority least greatest with
  | none => rfl
  | some middle => rfl

/-! ## The middles -/

/-- The sum of the range, and one less, are numbers of the type. -/
def SumFits (least greatest : CInt) : Prop :=
  -2 ^ 31 < least.val + greatest.val ∧ least.val + greatest.val < 2 ^ 31

theorem hp_middle (h : SumFits least greatest) : ∃ middle,
    Hp.middlePriority least greatest = some middle ∧
      middle.val = (least.val + greatest.val - 1).tdiv 2 := by
  obtain ⟨hlower, hupper⟩ := h
  let sum : CInt := ⟨least.val + greatest.val, by omega, hupper⟩
  let less : CInt := ⟨sum.val - 1, by show _ ≤ least.val + greatest.val - 1; omega,
    by show least.val + greatest.val - 1 < _; omega⟩
  have hsum : least.add greatest = some sum := CInt.ofInt_eq_some.mpr rfl
  have hless : sum.sub .one = some less := CInt.ofInt_eq_some.mpr rfl
  refine ⟨less.half, ?_, rfl⟩
  unfold Hp.middlePriority
  simp only [hsum, Option.bind_eq_bind, Option.bind_some, hless, Option.pure_def]

theorem hp_middle_none (h : ¬ SumFits least greatest) :
    Hp.middlePriority least greatest = none := by
  unfold Hp.middlePriority
  cases hsum : least.add greatest with
  | none => rfl
  | some sum =>
    have hval : sum.val = least.val + greatest.val := CInt.ofInt_eq_some.mp hsum
    have hrange := sum.lower
    have hnone : sum.sub .one = none := by
      refine CInt.ofInt_eq_none.mpr fun hless => h ⟨?_, ?_⟩
      · have hone : CInt.one.val = 1 := rfl
        omega
      · have := sum.upper
        omega
    simp only [Option.bind_eq_bind, Option.bind_some, hnone, Option.bind_none]

theorem be_middle (h : SumFits least greatest) : ∃ middle,
    Be.middlePriority least greatest = some middle ∧
      middle.val = (least.val + greatest.val).tdiv 2 := by
  let sum : CInt := ⟨least.val + greatest.val, Int.le_of_lt h.1, h.2⟩
  have hsum : least.add greatest = some sum := CInt.ofInt_eq_some.mpr rfl
  refine ⟨sum.half, ?_, rfl⟩
  unfold Be.middlePriority
  simp only [hsum, Option.bind_eq_bind, Option.bind_some, Option.pure_def]

/-- The sums for which taking one off before the division makes a difference. -/
def MiddlesApart (sum : Int) : Prop := 0 < sum ∧ sum % 2 = 0 ∨ sum < 0 ∧ sum % 2 = 1

/-- Division truncates towards zero, so the HP proxy's middle is the smaller one for the
even positive sums and the odd negative ones only. -/
theorem middles_differ_iff (sum : Int) :
    (sum - 1).tdiv 2 < sum.tdiv 2 ↔ MiddlesApart sum := by
  unfold MiddlesApart
  rw [CInt.half_val, CInt.half_val]
  split <;> split <;> omega

theorem middles_le (sum : Int) : (sum - 1).tdiv 2 ≤ sum.tdiv 2 := by
  rw [CInt.half_val, CInt.half_val]
  split <;> split <;> omega

/-- The HP proxy's middle is more urgent than the least urgent priority. -/
theorem middle_lt_least {l g : Int} (h : g < l) : (l + g - 1).tdiv 2 < l := by
  rw [CInt.half_val]
  split <;> omega

end priorities

/-! ## The order of the priorities -/

/-- Both streams are created with a priority, that of the HP process with the more
urgent one. -/
def Outranks (driver : StreamDriver) (hpFlags beFlags : UInt32)
    (hpRequest beRequest : StreamRequest) : Prop :=
  ∃ p q, hpCreate driver hpFlags hpRequest = some (createdWith hpFlags p) ∧
    beCreate driver beFlags beRequest = some (createdWith beFlags q) ∧ p.val < q.val

/-- The requests of the two processes keep their streams apart where the middles do
not. -/
def RequestsApart (middle : Int) : (hpRequest beRequest : StreamRequest) → Prop
  | _, .plain => True
  | .plain, .withPriority q => middle < q.val
  | .withPriority p, .withPriority q => p.val < middle ∨ middle < q.val

section order

variable {driver : StreamDriver} {least greatest : CInt}

theorem requestsApart_of_lt {hpMiddle beMiddle : CInt} {hpRequest : StreamRequest} {q : CInt}
    (hle : hpMiddle.val ≤ beMiddle.val) :
    (hpPriority hpMiddle hpRequest).val < (bePriority beMiddle q).val ↔
      hpMiddle.val < beMiddle.val ∨ RequestsApart beMiddle.val hpRequest (.withPriority q) := by
  unfold bePriority
  cases hpRequest with
  | plain =>
    simp only [hpPriority, RequestsApart]
    split <;> omega
  | withPriority p =>
    simp only [hpPriority, RequestsApart]
    split <;> split <;> omega

/-- For every range with a more urgent end, and whatever the applications ask for: a
stream of the HP process gets a more urgent priority than a stream of a BE process
exactly if the sum of the range is a number of the type and

- the sum is even and positive, or odd and negative, or
- the BE process asks for no priority, or for a less urgent one than the middle, or the HP
  process asks for a more urgent one than the middle. -/
theorem hp_outranks_be_iff (hserves : driver.Serves least greatest)
    (hurgent : greatest.val < least.val) (hpFlags beFlags : UInt32)
    (hpRequest beRequest : StreamRequest) :
    Outranks driver hpFlags beFlags hpRequest beRequest ↔
      SumFits least greatest ∧
        (MiddlesApart (least.val + greatest.val) ∨
          RequestsApart ((least.val + greatest.val).tdiv 2) hpRequest beRequest) := by
  unfold Outranks
  rw [hp_priority hserves]
  by_cases hfits : SumFits least greatest
  · obtain ⟨hpMiddle, hhp, hhpval⟩ := hp_middle hfits
    obtain ⟨beMiddle, hbe, hbeval⟩ := be_middle hfits
    have hle : hpMiddle.val ≤ beMiddle.val := by
      rw [hhpval, hbeval]
      exact middles_le _
    rw [hhp, Option.map_some, and_iff_right hfits, ← middles_differ_iff, ← hbeval]
    rw [← hhpval]
    cases beRequest with
    | plain =>
      rw [be_priority_plain hserves]
      refine iff_of_true ⟨_, least, rfl, rfl, ?_⟩ (.inr ?_)
      · have hlt : hpMiddle.val < least.val := by
          rw [hhpval]
          exact middle_lt_least hurgent
        cases hpRequest with
        | plain => exact hlt
        | withPriority p =>
          simp only [hpPriority]
          split <;> omega
      · cases hpRequest <;> trivial
    | withPriority q =>
      rw [be_priority hserves, hbe, Option.map_some, ← requestsApart_of_lt hle]
      constructor
      · rintro ⟨p', q', hp, hq, hlt⟩
        rw [createdWith_inj (Option.some.inj hp), createdWith_inj (Option.some.inj hq)]
        exact hlt
      · exact fun hlt => ⟨_, _, rfl, rfl, hlt⟩
  · rw [hp_middle_none hfits]
    refine iff_of_false ?_ fun h => hfits h.1
    rintro ⟨p, q, hnone, -⟩
    cases hnone

end order

/-! ## Two ranges -/

/-- A driver that creates all streams, with priorities from `greatest` to zero. -/
def rangeDriver (greatest : CInt) : StreamDriver where
  priorityRange := some (⟨0, by decide, by decide⟩, greatest)
  createWithPriority _ _ := cudaSuccess
  create _ := cudaSuccess

/-- The priorities from -5 to 0. -/
theorem hp_outranks_be_iff_five :
    Outranks (rangeDriver ⟨-5, by decide, by decide⟩) 0 0 .plain
      (.withPriority ⟨-5, by decide, by decide⟩) :=
  (hp_outranks_be_iff ⟨rfl, fun _ _ => rfl⟩ (by decide) 0 0 .plain _).mpr
    ⟨⟨by decide, by decide⟩, .inl (.inr ⟨by decide, by decide⟩)⟩

def minusOne : CInt := ⟨-1, by decide, by decide⟩

def minusTwo : CInt := ⟨-2, by decide, by decide⟩

/-- With the priorities from -2 to 0 both middles are -1. -/
theorem streams_tie : ¬ ∀ (driver : StreamDriver) (least greatest : CInt),
    driver.Serves least greatest → greatest.val < least.val →
    ∀ hpFlags beFlags hpRequest beRequest,
      Outranks driver hpFlags beFlags hpRequest beRequest := by
  intro hall
  have hserves : (rangeDriver minusTwo).Serves ⟨0, by decide, by decide⟩ minusTwo :=
    ⟨rfl, fun _ _ => rfl⟩
  obtain ⟨p, q, hp, hq, hlt⟩ :=
    hall _ _ _ hserves (by decide) 0 0 .plain (.withPriority minusTwo)
  have hpTie : hpCreate (rangeDriver minusTwo) 0 .plain = some (createdWith 0 minusOne) := rfl
  have hqTie : beCreate (rangeDriver minusTwo) 0 (.withPriority minusTwo) =
      some (createdWith 0 minusOne) := rfl
  obtain rfl := createdWith_inj (Option.some.inj (hp.symm.trans hpTie))
  obtain rfl := createdWith_inj (Option.some.inj (hq.symm.trans hqTie))
  exact absurd hlt (Int.lt_irrefl _)

end Lilt.Driver
