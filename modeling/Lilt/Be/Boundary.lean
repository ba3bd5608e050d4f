import Lilt.Be.Threads

/-!
# The boundary behind a graphlet

A graph that is split stops behind every graphlet until the window is empty, and goes through
the whole admission again. So a graphlet is submitted when the ones before it are complete,
and the HP process was not active in between. The window is emptied by any thread that
launches, though; and where the driver cannot wait for an event, that thread waits for the
stream in the slot, which is a stream of its own if the slot holds the handle of a per-thread
default stream.

- `HardBoundaries`: the property, over a run.
- `SynchronizesOwn`: what a retirement needs for it.
- `Awaits`, `awaits_reachable`: up to its boundary a graphlet is complete or in flight.
- `checked_of_holder`: a launch looked at the HP process after it came to the lock.
- `hard_boundaries`: that is enough, in every run.
- `boundary_passed_early`: a graphlet that is retired by another thread.
-/

namespace Lilt.Be

open Lilt.Activity Lilt.Driver Lilt.Graph Gpu Transition

/-- The thread that holds `g_be_event_lock`. -/
def BePc.holder : BePc → Option Thread
  | .unlocked => none
  | .startupWait c | .ownerCheck c | .bypass c | .idleCheck c | .survivalIdle c
  | .survivalAdmit c | .timeLoop c _ | .blockLoop c _ | .launching c | .launched c _ =>
    some c.thread
  | .draining thread => some thread

/-- The process found, in this step of a run, that the HP process is not active. -/
def ObservesIdle (x : BeThreads × ThreadAction) : Prop :=
  (∃ a, x.2 = .be a ∧ a.Passes) ∧ x.1.shared.hpState ≠ .active

/-- When a graphlet is submitted, the graphlets before it are complete, and the process found
the HP process idle since they are. -/
def HardBoundaries (tr : List (BeThreads × ThreadAction)) : Prop :=
  ∀ tr₁ s x tr₂, tr = tr₁ ++ (s, x) :: tr₂ → ∀ ok c rest, x = .be (.launch ok) →
    s.process.pc = .launching c → s.todo c.thread = .launch .graphlet c.args :: rest →
      (∀ k ∈ s.done c.thread, s.process.device.Finished k) ∧
      ∃ y ∈ tr₁, ObservesIdle y ∧ ∀ k ∈ s.done c.thread, y.1.process.device.Finished k

/-- The synchronisation of a stream that stands in for an event succeeds. -/
def FallbackSucceeds (s : BeThreads) : ThreadAction → Prop
  | .be (.retire o) | .be (.survivalRetire _ _ o) =>
    o.synchronizeOk = false → o.streamSynchronizeOk = true
  | .be (.after o) => s.process.window.records o = false → o.synchronizeOk = true
  | _ => True

/-- If a graphlet is on the default stream of a thread and its event cannot be waited for, that
thread retires it. -/
def SynchronizesOwn (s : BeThreads) : ThreadAction → Prop
  | .be (.retire o) | .be (.survivalRetire _ _ o) =>
    o.synchronizeOk = false → ∀ e, s.process.inFlight.head? = some e →
      (∃ thread, e.work ∈ s.done thread) → ∀ u, e.work.stream = .perThread u →
        s.process.pc.holder = some u
  | _ => True

/-- Both, for the steps of a run. -/
def HonestFallback (s : BeThreads) (x : ThreadAction) : Prop :=
  FallbackSucceeds s x ∧ SynchronizesOwn s x

/-! ## Steps of the process -/

section process

variable {cfg : BeConfig} {fp : BeFloat} {p p' : BeProcess} {a : BeAction}

/-- Launches are retired by the thread that holds the lock. -/
theorem retires_holder {pc : BePc} {w : BeWindow} {thread : Thread}
    (h : pc.retires cfg w = some thread) : pc.holder = some thread := by
  have hsome : ∀ {b : Prop} [Decidable b] {t : Thread},
      (if b then some t else none) = some thread → t = thread := by
    intro b _ t hite
    split at hite
    · exact Option.some.inj hite
    · cases hite
  cases pc with
  | bypass c | timeLoop c budget | blockLoop c budget | draining thread' =>
    exact congrArg some (hsome h)
  | _ => cases h

/-- In a hook the lock does not change hands. -/
theorem holder_within (h : BeStep cfg fp p a p') (ha : a.WithinHook) :
    p'.pc.holder = p.pc.holder := by
  cases h with
  | before c h => exact ha.elim
  | launch c h => exact ha.elim
  | launchFails c h => exact ha.elim
  | after c work o h hsync => exact ha.elim
  | boundary thread h => exact ha.elim
  | drained thread h hempty => exact ha.elim
  | ownerCheck c registered h => cases registered <;> rw [h] <;> rfl
  | idle c timing now h =>
    obtain ⟨w, pc, hchosen, rfl | ⟨budget, rfl⟩ | ⟨budget, rfl⟩⟩ :=
      choosePolicy_spec cfg fp p c timing now <;> rw [hchosen, h] <;> rfl
  | startupAgain c h => rfl
  | retire thread o h ho => rfl
  | complete stream => rfl
  | _ => simp_all [BePc.holder, BeProcess.retireFrom, BeProcess.admittedSampling,
      BeProcess.admitted]

/-- While a launch is at the driver's answer nothing but the device moves. -/
theorem launched_stays (h : BeStep cfg fp p a p') (ha : ∀ o, a ≠ .after o) {c : BeCall}
    {work : Option (Ticket GpuStream)} (hpc : p.pc = .launched c work) :
    p'.pc = .launched c work := by
  cases h with
  | after c' work' o h hsync => exact absurd rfl (ha o)
  | complete stream => exact hpc
  | retire thread o h ho => exact hpc
  | startupAgain c' h => exact hpc
  | _ => simp_all

/-- A launch that is at a check is not past the driver's call. -/
theorem passes_not_launched (h : BeStep cfg fp p a p') (ha : a.Passes) (c : BeCall)
    (work : Option (Ticket GpuStream)) : p.pc ≠ .launched c work := by
  cases h with
  | idle c timing now h | survivalIdle c h =>
    rw [h]
    rintro ⟨⟩
  | _ => exact ha.elim

/-- A retirement is made by the holder of the lock, who asks the driver. -/
theorem retirement (h : BeStep cfg fp p a p') (hretired : p'.retired ≠ p.retired) :
    ∃ thread o, o ∈ a.retireAnswers ∧ p.pc.holder = some thread ∧ RetireAllowed p thread o := by
  cases h with
  | retire thread o h ho => exact ⟨thread, o, rfl, retires_holder h, ho⟩
  | survivalRetire c timing now w grant o h hw hwait ho =>
    exact ⟨c.thread, o, rfl, by rw [h]; rfl, ho⟩
  | idle c timing now h =>
    obtain ⟨w, pc, hchosen, -⟩ := choosePolicy_spec cfg fp p c timing now
    rw [hchosen] at hretired
    exact absurd rfl hretired
  | _ => exact absurd rfl hretired

/-- Work that was queued stays queued work. -/
theorem submitted_step (h : BeStep cfg fp p a p') {k : Ticket GpuStream}
    (hk : k ∈ p.submitted) : k ∈ p'.submitted := by
  cases h with
  | launch c h => exact List.mem_cons_of_mem _ hk
  | idle c timing now h =>
    obtain ⟨w, pc, hchosen, -⟩ := choosePolicy_spec cfg fp p c timing now
    rw [hchosen]
    exact hk
  | _ => exact hk

/-! ## The stream of a slot -/

/-- The slot of a launch in flight is active. -/
theorem slot_active (hI : WindowInv cfg p) {e : BeEntry} (he : e ∈ p.inFlight) :
    (p.window.slots e.slot).active = true := by
  obtain ⟨j, hj, hget⟩ := List.getElem_of_mem he
  have hheld := hI.ring.holds j e (List.getElem?_eq_some_iff.mpr ⟨hj, hget⟩)
  exact (hI.ring.used_iff _).mpr ⟨j, hj, hheld.slot_eq⟩

/-- The slot of a launch in flight keeps its stream. -/
theorem slot_stream_step (hI : WindowInv cfg p) (hpc : PcFacts cfg p) (h : BeStep cfg fp p a p')
    {e : BeEntry} (he : e ∈ p.inFlight) :
    (p'.window.slots e.slot).stream = (p.window.slots e.slot).stream ∧
      (p'.window.slots e.slot).perThreadDefaultStream =
        (p.window.slots e.slot).perThreadDefaultStream := by
  have hactive := slot_active hI he
  have htail : ∀ {slot : BeEventSlot}, (p.window.slots p.window.tail).active = false →
      Function.update p.window.slots p.window.tail slot e.slot = p.window.slots e.slot := by
    intro slot hfree
    refine Function.update_of_ne (fun heq => ?_) ..
    rw [heq, hfree] at hactive
    cases hactive
  cases step_effect hI hpc h with
  | kept hq hslots =>
    rw [hslots]
    exact ⟨rfl, rfl⟩
  | wrote slot hq hslots hbefore =>
    rw [hslots, htail hbefore]
    exact ⟨rfl, rfl⟩
  | retired e' rest hhead hwindow =>
    rw [hwindow.1]
    by_cases hslot : e.slot = p.window.head
    · rw [hslot, Function.update_self]
      exact ⟨rfl, rfl⟩
    · rw [Function.update_of_ne hslot]
      exact ⟨rfl, rfl⟩
  | entered e' slot d hlaunched hroom hheld hactive hwindow =>
    rw [hwindow.1, htail (hI.tail_free hroom)]
    exact ⟨rfl, rfl⟩

/-- The handle in a slot is, for some thread, the stream of the launch. -/
theorem slot_stream_reachable (h : (beSystem cfg fp).Reachable p) :
    ∀ e ∈ p.inFlight, ∃ thread, e.work.stream = resolve (p.window.slots e.slot).stream
      (p.window.slots e.slot).perThreadDefaultStream thread := by
  have hind : (beSystem cfg fp).Inductive fun p =>
      ∀ e ∈ p.inFlight, ∃ thread, e.work.stream = resolve (p.window.slots e.slot).stream
        (p.window.slots e.slot).perThreadDefaultStream thread := by
    refine { init := fun p hp => ?_, step := fun p a p' hp hstream hstep => ?_ }
    · rw [hp.inFlight_nil]
      exact fun e he => absurd he List.not_mem_nil
    · obtain ⟨hI, hpc⟩ := windowInv_reachable hp
      have hold : ∀ e ∈ p.inFlight, ∃ thread, e.work.stream =
          resolve (p'.window.slots e.slot).stream
            (p'.window.slots e.slot).perThreadDefaultStream thread := by
        intro e he
        obtain ⟨hstream', hptds⟩ := slot_stream_step hI hpc hstep he
        rw [hstream', hptds]
        exact hstream e he
      intro e he
      rcases inFlight_cases hI hpc hstep he with he | ⟨c, k, o, hlaunched, henters, rfl, rfl⟩
      · exact hold e he
      · rw [PcFacts, hlaunched] at hpc
        obtain ⟨hstream, hptds⟩ := afterLaunch_stream cfg p.window p.device c.thread
          c.stream c.perThreadDefaultStream o henters
        refine ⟨c.thread, (hpc.2 k rfl).1.trans ?_⟩
        exact (congrArg₂ (fun stream ptds => resolve stream ptds c.thread) hstream hptds).symm
  exact hind.reachable h

end process

/-! ## Up to the boundary -/

section

variable {ν : Type} {cfg : BeConfig} {fp : BeFloat} {gcfg : GraphConfig} {alive : Pid → Bool}
  {s t : BeThreads}

/-- A graphlet is followed by a boundary, in what is left of every launch. -/
theorem bounded_reachable (h : (threadSystem ν cfg fp gcfg alive).Reachable s) :
    ∀ thread, Bounded (s.todo thread) := by
  have hind : (threadSystem ν cfg fp gcfg alive).Inductive fun s =>
      ∀ thread, Bounded (s.todo thread) := by
    refine { init := fun s hs thread => ?_, step := fun s x t hs hI hstep => ?_ }
    · rw [hs.todo]
      trivial
    · -- a thread goes on with operations that are bounded
      have hupdate : ∀ {thread ops}, Bounded ops → ∀ u,
          Bounded (Function.update s.todo thread ops u) := by
        intro thread ops hops u
        by_cases hu : u = thread
        · rw [hu, Function.update_self]
          exact hops
        · rw [Function.update_of_ne hu]
          exact hI u
      cases hstep with
      | begins thread call metadata ops hidle hmode hlock hops =>
        exact hupdate (hops.bounded (callOps_bounded ..))
      | after c work role rest o p hpc htodo hstep =>
        have hrest := hI c.thread
        rw [htodo] at hrest
        refine hupdate ?_
        unfold opsAfter
        split
        · trivial
        · exact hrest.2
      | drained thread rest p hpc htodo hstep =>
        have hrest := hI thread
        rw [htodo] at hrest
        exact hupdate hrest
      | _ => exact hI
  exact hind.reachable h

/-- Work is added to a thread's graphlets by the driver, and dropped by the next launch. -/
theorem done_step {x : ThreadAction} (h : ThreadStep ν cfg fp gcfg alive s x t) {u : Thread}
    {k : Ticket GpuStream} (hk : k ∈ t.done u) :
    k ∈ s.done u ∧ x ≠ .begins u ∨
      x = .be (.launch true) ∧ ∃ c rest, t.process.pc = .launched c (some k) ∧ c.thread = u ∧
        t.todo u = .launch .graphlet c.args :: rest ∧ k ∈ t.process.submitted := by
  cases h with
  | begins thread call metadata ops hidle hmode hlock hops =>
    change k ∈ Function.update s.done thread [] u at hk
    by_cases hu : u = thread
    · rw [hu, Function.update_self] at hk
      exact absurd hk List.not_mem_nil
    · rw [Function.update_of_ne hu] at hk
      exact .inl ⟨hk, fun hx => hu (ThreadAction.begins.inj hx).symm⟩
  | launch c role rest ok p hlaunching htodo hstep =>
    change k ∈ (s.launched role c.thread _ ok).done u at hk
    unfold BeThreads.launched at hk
    dsimp only at hk
    split at hk
    next hgraphlet =>
      obtain ⟨rfl, hrole⟩ := Bool.and_eq_true_iff.mp hgraphlet
      obtain rfl := of_decide_eq_true hrole
      by_cases hu : u = c.thread
      · subst hu
        rw [Function.update_self] at hk
        rcases List.mem_cons.mp hk with rfl | hk
        · cases hstep with
          | launch c' h =>
            obtain rfl := BePc.launching.inj (h.symm.trans hlaunching)
            exact .inr ⟨rfl, c', rest, rfl, rfl, htodo, List.mem_cons_self⟩
        · exact .inl ⟨hk, by rintro ⟨⟩⟩
      · rw [Function.update_of_ne hu] at hk
        exact .inl ⟨hk, by rintro ⟨⟩⟩
    next => exact .inl ⟨hk, by rintro ⟨⟩⟩
  | _ => exact .inl ⟨hk, by rintro ⟨⟩⟩

/-- The work of graphlets is work of the process. -/
theorem done_submitted (h : (threadSystem ν cfg fp gcfg alive).Reachable s) :
    ∀ thread, ∀ k ∈ s.done thread, k ∈ s.process.submitted := by
  have hind : (threadSystem ν cfg fp gcfg alive).Inductive fun s =>
      ∀ thread, ∀ k ∈ s.done thread, k ∈ s.process.submitted := by
    refine { init := fun s hs thread k hk => ?_, step := fun s x t hs hI hstep thread k hk => ?_ }
    · rw [hs.done] at hk
      exact absurd hk List.not_mem_nil
    · rcases done_step hstep hk with ⟨hk, -⟩ | ⟨-, c, rest, -, -, -, hnew⟩
      · obtain ⟨hregistered, -⟩ := registered_process_reachable hs
        exact thread_step_keeps (P := fun p => k ∈ p.submitted) hregistered hstep
          (hI thread k hk) fun a hbe => submitted_step hbe (hI thread k hk)
      · exact hnew
  exact hind.reachable h

/-- Where a graphlet's work is until its boundary is behind it. -/
inductive Awaits (s : BeThreads) (thread : Thread) (k : Ticket GpuStream) : Prop
  | finished (h : s.process.device.Finished k)
  | returning (c : BeCall) (rest : List LaunchOp) (hpc : s.process.pc = .launched c (some k))
      (hthread : c.thread = thread) (htodo : s.todo thread = .launch .graphlet c.args :: rest)
  | inWindow (e : BeEntry) (rest : List LaunchOp) (he : e ∈ s.process.inFlight)
      (hwork : e.work = k) (htodo : s.todo thread = .boundary :: rest)

/-- A graphlet that leaves the window is complete. -/
theorem left_finished (hs : (threadSystem ν cfg fp gcfg alive).Reachable s) {a : BeAction}
    {p : BeProcess} (hstep : BeStep cfg fp s.process a p) (ha : ∀ o, a ≠ .after o) {e : BeEntry}
    (hleft : s.process.inFlight = e :: p.inFlight) {thread : Thread}
    (hdone : e.work ∈ s.done thread) (hfallback : HonestFallback s (.be a)) :
    s.process.device.Finished e.work := by
  obtain ⟨hI, hpc⟩ := windowInv_reachable (process_reachable hs)
  have hne : p.retired ≠ s.process.retired := by
    intro hsame
    have hflight : p.inFlight = s.process.inFlight := by
      unfold BeProcess.inFlight
      rw [hsame, entered_of_ne_after hstep ha]
    rw [hflight] at hleft
    exact absurd hleft.symm (List.cons_ne_self _ _)
  obtain ⟨holder, o, ho, hholder, hallowed⟩ := retirement hstep hne
  have hhead : s.process.inFlight.head? = some e := by
    rw [hleft]
    rfl
  cases hok : o.synchronizeOk with
  | true =>
    rcases step_retires_oldest hI hpc hstep with hsame | ⟨e', hhead', -, hwaited⟩
    · exact absurd hsame hne
    · obtain rfl := Option.some.inj (hhead.symm.trans hhead')
      exact hwaited o ho hok
  | false =>
    have hhonest : o.streamSynchronizeOk = true ∧
        ∀ u, e.work.stream = .perThread u → s.process.pc.holder = some u := by
      cases a with
      | retire o' | survivalRetire timing now o' =>
        obtain rfl := Option.mem_some_iff.mp ho
        exact ⟨hfallback.1 hok, hfallback.2 hok e hhead ⟨thread, hdone⟩⟩
      | _ => cases ho
    -- the stream that is synchronised is the graphlet's
    refine hallowed.stream hok hhonest.1 _ (done_submitted hs thread _ hdone) ?_
    have hmem : e ∈ s.process.inFlight := List.mem_of_head? hhead
    obtain ⟨u, hstream⟩ := slot_stream_reachable (process_reachable hs) e hmem
    have hring := hI.ring
    rw [hleft] at hring
    rw [hring.head_used.2.slot_eq] at hstream
    rw [hstream]
    refine resolve_of_owner fun u' hu' => ?_
    have hown := hhonest.2 u' (hstream.trans hu')
    exact Option.some.inj (hholder.symm.trans hown)

/-- A step of the process other than the return of a launch does not disturb the thread. -/
theorem Awaits.step (hs : (threadSystem ν cfg fp gcfg alive).Reachable s) {a : BeAction}
    {thread : Thread} {k : Ticket GpuStream} (h : Awaits s thread k)
    (hdone : k ∈ s.done thread) (hfallback : HonestFallback s (.be a))
    (hstep : BeStep cfg fp s.process a t.process) (ha : ∀ o, a ≠ .after o)
    (htodo : t.todo thread = s.todo thread) : Awaits t thread k := by
  obtain ⟨hI, hpc⟩ := windowInv_reachable (process_reachable hs)
  have hle := step_device_le hI hpc hstep
  cases h with
  | finished h => exact .finished (h.mono hle)
  | returning c rest hlaunched hthread h =>
    exact .returning c rest (launched_stays hstep ha hlaunched) hthread (htodo.trans h)
  | inWindow e rest he hwork h =>
    rcases inFlight_step hI hpc hstep ha with hsame | ⟨oldest, hleft⟩
    · rw [← hsame] at he
      exact .inWindow e rest he hwork (htodo.trans h)
    · rw [hleft] at he
      rcases List.mem_cons.mp he with rfl | he
      · subst hwork
        exact .finished ((left_finished hs hstep ha hleft hdone hfallback).mono hle)
      · exact .inWindow e rest he hwork (htodo.trans h)

/-- An accepted launch is in the window behind its return, or it is complete. -/
theorem after_in_window (hs : (threadSystem ν cfg fp gcfg alive).Reachable s) {c : BeCall}
    {k : Ticket GpuStream} {o : AfterAnswers} {p : BeProcess}
    (hpc : s.process.pc = .launched c (some k))
    (hfallback : FallbackSucceeds s (.be (.after o)))
    (hstep : BeStep cfg fp s.process (.after o) p) :
    (∃ e ∈ p.inFlight, e.work = k) ∨ p.device.Finished k := by
  obtain ⟨hI, hfacts⟩ := windowInv_reachable (process_reachable hs)
  have howner := owner_of_launched hs hpc
  cases hrecords : s.process.window.records o with
  | true =>
    rw [PcFacts, hpc] at hfacts
    cases hstep with
    | after c' work o h hsync =>
      obtain ⟨rfl, rfl⟩ := BePc.launched.inj (h.symm.trans hpc)
      have henters := (afterResult_enters_iff hfacts.1 c' (some k) o).mpr
        ⟨⟨k, rfl⟩, howner, hrecords⟩
      refine .inl ⟨s.process.entry (s.process.afterResult cfg c' (some k) o) k, ?_, rfl⟩
      rw [afterLaunch_inFlight hI]
      dsimp only
      rw [if_pos henters]
      exact List.mem_append_right _ List.mem_cons_self
  | false =>
    rcases after_newest_or_finished hI hfacts hpc howner (hfallback hrecords) hstep with
      ⟨e, hflight, hwork, -, -⟩ | hfinished
    · refine .inl ⟨e, ?_, hwork⟩
      rw [hflight]
      exact List.mem_append_right _ List.mem_cons_self
    · exact .inr hfinished

/-- The return of a launch puts it into the window, if it is not complete. -/
theorem Awaits.after (hs : (threadSystem ν cfg fp gcfg alive).Reachable s) {thread : Thread}
    {k : Ticket GpuStream} (h : Awaits s thread k) {c : BeCall}
    {work : Option (Ticket GpuStream)} {role : LaunchRole} {rest : List LaunchOp}
    {o : AfterAnswers} {p : BeProcess} (hpc : s.process.pc = .launched c work)
    (htodo : s.todo c.thread = .launch role c.args :: rest)
    (hfallback : FallbackSucceeds s (.be (.after o)))
    (hstep : BeStep cfg fp s.process (.after o) p) :
    Awaits { s.goesOn c.thread (opsAfter role work rest) with process := p } thread k := by
  obtain ⟨hI, hfacts⟩ := windowInv_reachable (process_reachable hs)
  have hle := step_device_le hI hfacts hstep
  cases h with
  | finished h => exact .finished (h.mono hle)
  | returning c' rest' hlaunched hthread h =>
    obtain ⟨rfl, rfl⟩ := BePc.launched.inj (hlaunched.symm.trans hpc)
    subst hthread
    obtain ⟨hrole, rfl⟩ := List.cons.inj (h.symm.trans htodo)
    obtain ⟨rfl, -⟩ := LaunchOp.launch.inj hrole
    rcases after_in_window hs hpc hfallback hstep with ⟨e, he, hwork⟩ | hfinished
    · -- the boundary is next
      have hbounded := bounded_reachable hs c'.thread
      rw [htodo] at hbounded
      obtain ⟨rest, rfl⟩ := hbounded.1 rfl
      refine .inWindow e rest he hwork ?_
      show Function.update s.todo c'.thread _ c'.thread = _
      rw [Function.update_self]
      exact if_neg fun hrefused => absurd hrefused.2 (Option.some_ne_none k)
    · exact .finished hfinished
  | inWindow e rest' he hwork h =>
    have hne : thread ≠ c.thread := by
      rintro rfl
      cases h.symm.trans htodo
    refine .inWindow e rest' ?_ hwork ?_
    · cases hstep with
      | after c' work' o hlaunched hsync =>
        show e ∈ (s.process.afterLaunch work' _).inFlight
        rw [afterLaunch_inFlight hI]
        exact List.mem_append_left _ he
    · show Function.update s.todo c.thread _ thread = _
      rw [Function.update_of_ne hne]
      exact h

/-- Up to its boundary a thread finds its work finished or in the window, if the fallbacks are
honest. -/
theorem awaits_step (hs : (threadSystem ν cfg fp gcfg alive).Reachable s) {x : ThreadAction}
    (hI : ∀ thread, ∀ k ∈ s.done thread, Awaits s thread k) (hx : HonestFallback s x)
    (h : ThreadStep ν cfg fp gcfg alive s x t) (thread : Thread) (k : Ticket GpuStream)
    (hk : k ∈ t.done thread) : Awaits t thread k := by
  rcases done_step h hk with ⟨hold, hbegins⟩ | ⟨-, c, rest, hpc, hthread, htodo, -⟩
  · have hawaits := hI thread k hold
    cases h with
    | markActive now | markIdle now =>
      cases hawaits with
      | finished h => exact .finished h
      | returning c rest hpc hthread h => exact .returning c rest hpc hthread h
      | inWindow e rest he hwork h => exact .inWindow e rest he hwork h
    | begins thread' call metadata ops hidle hmode hlock hops =>
      have hne : thread ≠ thread' := by
        rintro rfl
        exact hbegins rfl
      have hsame : Function.update s.todo thread' ops thread = s.todo thread :=
        Function.update_of_ne hne ..
      cases hawaits with
      | finished h => exact .finished h
      | returning c rest hpc hthread h => exact .returning c rest hpc hthread (hsame.trans h)
      | inWindow e rest he hwork h => exact .inWindow e rest he hwork (hsame.trans h)
    | before c role rest p htodo hstep =>
      exact hawaits.step hs hold hx hstep (by rintro _ ⟨⟩) rfl
    | within a p m ha hstep hsees =>
      refine hawaits.step hs hold hx hstep ?_ rfl
      rintro o rfl
      exact ha
    | launch c role rest ok p hpc htodo hstep =>
      exact hawaits.step hs hold hx hstep (by rintro _ ⟨⟩) rfl
    | after c work role rest o p hpc htodo hstep => exact hawaits.after hs hpc htodo hx.1 hstep
    | boundary thread' rest p htodo hstep =>
      exact hawaits.step hs hold hx hstep (by rintro _ ⟨⟩) rfl
    | drained thread' rest p hpc htodo hstep =>
      obtain ⟨hwindow, -⟩ := windowInv_reachable (process_reachable hs)
      -- the window is empty
      cases hstep with
      | drained thread'' h hempty =>
        cases hawaits with
        | finished h => exact .finished h
        | returning c rest hlaunched hthread h =>
          rw [hpc] at hlaunched
          cases hlaunched
        | inWindow e rest he hwork h =>
          rw [hwindow.inFlight_nil hempty] at he
          exact absurd he List.not_mem_nil
  · exact .returning c rest hpc hthread htodo

/-- It does in every such run. -/
theorem awaits_reachable
    (h : ((threadSystem ν cfg fp gcfg alive).restrict HonestFallback).Reachable s) :
    ∀ thread, ∀ k ∈ s.done thread, Awaits s thread k := by
  have hind : ((threadSystem ν cfg fp gcfg alive).restrict HonestFallback).Inductive fun s =>
      ∀ thread, ∀ k ∈ s.done thread, Awaits s thread k := by
    refine { init := fun s hs thread k hk => ?_, step := fun s x t hs hI hstep => ?_ }
    · rw [BeThreads.Starts.done hs] at hk
      exact absurd hk List.not_mem_nil
    · exact awaits_step hs.of_restrict hI hstep.1 hstep.2
  exact hind.reachable h

/-- At its next launch a thread finds its graphlets complete, unless it is about to return. -/
theorem finished_of_todo
    (hs : ((threadSystem ν cfg fp gcfg alive).restrict HonestFallback).Reachable s)
    {thread : Thread} {role : LaunchRole} {args : LaunchArgs} {rest : List LaunchOp}
    (htodo : s.todo thread = .launch role args :: rest)
    (hpc : ∀ c work, s.process.pc ≠ .launched c work) :
    ∀ k ∈ s.done thread, s.process.device.Finished k := by
  intro k hk
  cases awaits_reachable hs thread k hk with
  | finished h => exact h
  | returning c rest' hlaunched hthread h => exact absurd hlaunched (hpc c _)
  | inWindow e rest' he hwork h => cases h.symm.trans htodo

/-! ## The observation -/

/-- The thread that holds the lock is in a launch. -/
theorem busy {p : BeProcess} {thread : Thread} {op : LaunchOp} {rest : List LaunchOp}
    (hholder : p.pc.holder = some thread) (htodo : s.todo thread = op :: rest) :
    ∀ u, p.pc.holder = some u → s.todo u ≠ [] := by
  intro u hu
  obtain rfl := Option.some.inj (hholder.symm.trans hu)
  rw [htodo]
  exact List.cons_ne_nil _ _

/-- The holder of the lock has something to do. -/
theorem holder_busy (h : (threadSystem ν cfg fp gcfg alive).Reachable s) :
    ∀ thread, s.process.pc.holder = some thread → s.todo thread ≠ [] := by
  have hind : (threadSystem ν cfg fp gcfg alive).Inductive fun s =>
      ∀ thread, s.process.pc.holder = some thread → s.todo thread ≠ [] := by
    refine { init := fun s hs thread hholder => ?_, step := fun s x t hs hI hstep => ?_ }
    · rw [hs.process.pc] at hholder
      cases hholder
    · cases hstep with
      | markActive now | markIdle now => exact hI
      | begins thread call metadata ops hidle hmode hlock hops =>
        intro u hholder
        have hbusy := hI u hholder
        have hne : u ≠ thread := by
          rintro rfl
          exact hbusy hidle
        show Function.update s.todo thread ops u ≠ []
        rw [Function.update_of_ne hne]
        exact hbusy
      | before c role rest p htodo hstep =>
        have hholder : p.pc.holder = some c.thread := by
          cases hstep with
          | before c' h => cases hdone : s.process.window.startupWaitDone <;> rfl
        exact busy hholder htodo
      | within a p m ha hstep hsees =>
        intro u hholder
        exact hI u ((holder_within hstep ha).symm.trans hholder)
      | launch c role rest ok p hpc htodo hstep =>
        have hholder : p.pc.holder = some c.thread := by
          cases hstep with
          | launch c' h | launchFails c' h => rw [BePc.launching.inj (hpc.symm.trans h)]; rfl
        exact busy hholder htodo
      | after c work role rest o p hpc htodo hstep =>
        cases hstep with
        | after c' work' o' h hsync => rintro u ⟨⟩
      | boundary thread rest p htodo hstep =>
        cases hstep with
        | boundary thread' h => exact busy rfl htodo
      | drained thread rest p hpc htodo hstep =>
        cases hstep with
        | drained thread' h hempty => rintro u ⟨⟩
  exact hind.reachable h

/-- A launch that is past the check came from the check, or was past it, with its thread where
it is. -/
theorem thread_past_step (hs : (threadSystem ν cfg fp gcfg alive).Reachable s)
    {x : ThreadAction} (h : ThreadStep ν cfg fp gcfg alive s x t)
    (hpast : t.process.pc.PastCheck) {thread : Thread}
    (hholder : t.process.pc.holder = some thread) :
    s.process.pc.holder = some thread ∧ s.todo thread = t.todo thread ∧
      s.done thread = t.done thread ∧
      (ObservesIdle (s, x) ∧ (∀ c work, s.process.pc ≠ .launched c work) ∨
        s.process.pc.PastCheck) := by
  obtain ⟨hregistered, -⟩ := registered_process_reachable hs
  obtain ⟨-, hprocess⟩ := thread_step_process hregistered h
  cases h with
  | markActive now | markIdle now => exact ⟨hholder, rfl, rfl, .inr hpast⟩
  | begins thread' call metadata ops hidle hmode hlock hops =>
    have hne : thread ≠ thread' := by
      rintro rfl
      exact holder_busy hs thread hholder hidle
    exact ⟨hholder, (Function.update_of_ne hne ..).symm, (Function.update_of_ne hne ..).symm,
      .inr hpast⟩
  | within a p m ha hstep hsees =>
    refine ⟨(holder_within hstep ha).symm.trans hholder, rfl, rfl, ?_⟩
    rcases past_step (owned_reachable hs).1 hstep hpast with hpasses | ⟨hpast, -, -⟩
    · rcases hprocess with ⟨a', ha', -, -, hidle⟩ | ⟨hne, -⟩
      · obtain rfl := ThreadAction.be.inj ha'
        exact .inl ⟨⟨⟨a, rfl, hpasses⟩, hidle hpasses⟩, passes_not_launched hstep hpasses⟩
      · exact absurd rfl (hne a)
    · exact .inr hpast
  | before c role rest p htodo hstep =>
    cases hstep with
    | before c' h => cases hdone : s.process.window.startupWaitDone <;>
        simp [hdone, BePc.PastCheck] at hpast
  | launch c role rest ok p hpc htodo hstep => exact absurd hpast (launch_past hstep).2
  | after c work role rest o p hpc htodo hstep =>
    cases hstep with
    | after c' work' o' h hsync => exact hpast.elim
  | boundary thread' rest p htodo hstep =>
    cases hstep with
    | boundary thread'' h => exact hpast.elim
  | drained thread' rest p hpc htodo hstep =>
    cases hstep with
    | drained thread'' h hempty => exact hpast.elim

/-- Over a run: a launch that is past the check passed it, and its thread did nothing else
since. -/
theorem checked_of_holder {tr : List (BeThreads × ThreadAction)}
    (h : (threadSystem ν cfg fp gcfg alive).Run tr s) (hpast : s.process.pc.PastCheck)
    {thread : Thread} (hholder : s.process.pc.holder = some thread) :
    ∃ tr₁ y tr₂, tr = tr₁ ++ y :: tr₂ ∧ ObservesIdle y ∧ y.1.todo thread = s.todo thread ∧
      y.1.done thread = s.done thread ∧ ∀ c work, y.1.process.pc ≠ .launched c work := by
  induction h with
  | init h =>
    rw [h.process.pc] at hpast
    exact hpast.elim
  | @step tr s t x hrun hstep ih =>
    obtain ⟨hholder, htodo, hdone, ⟨hidle, hpc⟩ | hpast⟩ :=
      thread_past_step hrun.reachable hstep hpast hholder
    · exact ⟨tr, (s, x), [], rfl, hidle, htodo, hdone, hpc⟩
    · obtain ⟨tr₁, y, tr₂, rfl, hidle, htodo', hdone', hpc⟩ := ih hpast hholder
      exact ⟨tr₁, y, tr₂ ++ [(s, x)], by simp, hidle, htodo'.trans htodo, hdone'.trans hdone, hpc⟩

end

/-- For every policy and window, and whatever the other threads launch: in every run in which
the synchronisations that stand in for an event succeed, and those for a graphlet are made for
the stream it is on, the boundaries are hard. -/
theorem hard_boundaries (ν : Type) (cfg : BeConfig) (fp : BeFloat) (gcfg : GraphConfig)
    (alive : Pid → Bool) {tr : List (BeThreads × ThreadAction)} {s : BeThreads}
    (h : (threadSystem ν cfg fp gcfg alive).Run tr s)
    (hfallback : System.Meets FallbackSucceeds tr) (hown : System.Meets SynchronizesOwn tr) :
    HardBoundaries tr := by
  rintro tr₁ u x tr₂ rfl ok c rest rfl hpc htodo
  have hhonest : System.Meets HonestFallback (tr₁ ++ (u, .be (.launch ok)) :: tr₂) :=
    fun y hy => ⟨hfallback y hy, hown y hy⟩
  obtain ⟨hrun, -⟩ := (h.restrict hhonest).split
  obtain ⟨hrun', -⟩ := h.split
  have hnow : ∀ k ∈ u.done c.thread, u.process.device.Finished k := by
    refine finished_of_todo hrun.reachable htodo ?_
    rw [hpc]
    rintro c work ⟨⟩
  have hpast : u.process.pc.PastCheck := by
    rw [hpc]
    trivial
  have hholder : u.process.pc.holder = some c.thread := by
    rw [hpc]
    rfl
  obtain ⟨tr₃, y, tr₄, rfl, hidle, htodo', hdone, hnot⟩ := checked_of_holder hrun' hpast hholder
  obtain ⟨hbefore, -⟩ := hrun.split
  refine ⟨hnow, y, List.mem_append_right _ List.mem_cons_self, hidle, ?_⟩
  rw [← hdone]
  exact finished_of_todo hbefore.reachable (htodo'.trans htodo) hnot

/-! ## Two graphlets -/

/-- Graphlets have one node. -/
def graphletConfig : GraphConfig := ⟨true, false, .graphlet, 1⟩

def kernelNode : CudaGraph Nat where
  nodes := [7]
  edges := []
  nodup := by decide
  edge_mem := by decide

/-- A kernel behind another, each a graphlet. -/
def pairMetadata : GraphMetadata Nat where
  originalExec := 100
  nodeCount := 2
  instantiateFlags := 0
  splittable := true
  fallbackReason := ""
  graphlets :=
    [{ firstLayer := 0, lastLayer := 0, nodeCount := 1, graph := kernelNode, exec := 60 },
      { firstLayer := 1, lastLayer := 1, nodeCount := 1, graph := kernelNode, exec := 61 }]

/-- They are launched on the default stream of thread 1. -/
def pairCall (exec : CUfunction) : BeCall := ⟨1, exec, 1, 0, true⟩

/-- A launch without a failure of the driver falls back on nothing. -/
theorem honestFallback_ofPass (s : BeThreads) {a : BeAction} (h : a.OfPass) :
    HonestFallback s (.be a) := by
  cases a with
  | retire o | survivalRetire timing now o => exact absurd h id
  | after o =>
    rw [show o = .ok from h]
    exact ⟨fun _ => rfl, trivial⟩
  | _ => exact ⟨trivial, trivial⟩

/-- Two graphlets go through, the second behind the boundary of the first. -/
theorem hard_boundaries_pair : ∃ tr s,
    (threadSystem Nat defaultConfig plainFloat graphletConfig onlyTen).Run tr s ∧
      (s.done 1).length = 2 ∧ HardBoundaries tr := by
  let S := threadSystem Nat defaultConfig plainFloat graphletConfig onlyTen
  have h₀ : (S.restrict HonestFallback).Run [] startThreads := .init startThreads_starts
  have h₁ := h₀.step_restrict (ThreadStep.begins _ 1 ⟨.cuGraphLaunch 100, 0, true⟩
    (some pairMetadata) _ rfl (by rintro _ ⟨⟩) (fun _ => rfl) (.all _)) ⟨trivial, trivial⟩
  obtain ⟨tr, h₂⟩ := h₁.leadsTo (leadsTo_threads_pass (c := pairCall 60)
    (fun u _ => honestFallback_ofPass u) rfl (by rintro ⟨⟩) rfl rfl (.inr ⟨_, rfl, rfl⟩))
  -- the device completes the graphlet, and the boundary finds it complete
  have h₃ := h₂.step_restrict (ThreadStep.within _ _ _ _ (by trivial)
    (BeStep.complete _ (.perThread 1)) (.other _ trivial)) ⟨trivial, trivial⟩
  have h₄ := h₃.step_restrict (ThreadStep.boundary _ 1 _ _ rfl (BeStep.boundary _ 1 rfl))
    ⟨trivial, trivial⟩
  have h₅ := h₄.step_restrict (ThreadStep.within _ _ _ _ (by trivial)
    (BeStep.retire _ 1 ⟨true, false, none⟩ rfl ⟨fun _ => by decide, by rintro ⟨⟩⟩)
    (.other _ trivial)) ⟨by rintro ⟨⟩, by rintro ⟨⟩⟩
  have h₆ := h₅.step_restrict (ThreadStep.drained _ 1 _ _ rfl rfl (BeStep.drained _ 1 rfl rfl))
    ⟨trivial, trivial⟩
  obtain ⟨tr', h₇⟩ := h₆.leadsTo (leadsTo_threads_pass (c := pairCall 61)
    (fun u _ => honestFallback_ofPass u) rfl (by rintro ⟨⟩) rfl rfl (.inr ⟨_, rfl, rfl⟩))
  obtain ⟨hrun, hmeets⟩ := h₇.of_restrict
  exact ⟨_, _, hrun, rfl, hard_boundaries Nat defaultConfig plainFloat graphletConfig onlyTen hrun
    (fun x hx => (hmeets x hx).1) fun x hx => (hmeets x hx).2⟩

/-- Thread 2 launches a kernel on its own default stream. -/
def otherCall : BeCall := ⟨2, 4096, 8, 0, true⟩

/-- Behind the first graphlet thread 2 launches a kernel. The driver cannot wait for the
graphlet's event, so thread 2 synchronises its own stream, which is empty; the boundary then
finds no graphlet in the window. -/
theorem pair_interrupted : ∃ tr s,
    (threadSystem Nat defaultConfig plainFloat graphletConfig onlyTen).Run tr s ∧
      System.Meets FallbackSucceeds tr ∧ ¬ HardBoundaries tr := by
  let S := threadSystem Nat defaultConfig plainFloat graphletConfig onlyTen
  have hsucceeds : ∀ u a, a.OfPass → FallbackSucceeds u (.be a) :=
    fun u _ ha => (honestFallback_ofPass u ha).1
  have h₀ : (S.restrict FallbackSucceeds).Run [] startThreads := .init startThreads_starts
  have h₁ := h₀.step_restrict (ThreadStep.begins _ 1 ⟨.cuGraphLaunch 100, 0, true⟩
    (some pairMetadata) _ rfl (by rintro _ ⟨⟩) (fun _ => rfl) (.all _)) trivial
  obtain ⟨tr₂, h₂⟩ := h₁.leadsTo (leadsTo_threads_pass (c := pairCall 60) hsucceeds rfl
    (by rintro ⟨⟩) rfl rfl (.inr ⟨_, rfl, rfl⟩))
  -- thread 2
  have h₃ := h₂.step_restrict (ThreadStep.begins _ 2 ⟨.cuLaunchKernel 4096 ⟨8, 1, 1⟩, 0, true⟩
    none _ rfl (by rintro ⟨⟩) (by rintro ⟨⟩) (.all _)) trivial
  have h₄ := h₃.step_restrict (ThreadStep.before _ otherCall .kernel _ _ rfl
    (BeStep.before _ _ rfl)) trivial
  obtain ⟨tr₅, h₅⟩ := h₄.leadsTo (leadsTo_within hsucceeds rfl (by rintro ⟨⟩)
    (leadsTo_checked _ otherCall))
  have h₆ := h₅.step_restrict (ThreadStep.within _ _ _ _ (by trivial)
    (BeStep.retire _ 2 ⟨false, true, none⟩ rfl ⟨by rintro ⟨⟩, fun _ _ => by decide⟩)
    (.other _ trivial)) fun _ => rfl
  have h₇ := h₆.step_restrict (ThreadStep.within _ _ _ _ (by trivial)
    (step_passed (.inr ⟨_, rfl, rfl⟩)) (.other _ trivial)) trivial
  have h₈ := h₇.step_restrict (ThreadStep.launch _ otherCall .kernel _ true _ rfl rfl
    (step_accepted rfl)) trivial
  have h₉ := h₈.step_restrict (ThreadStep.after _ otherCall _ .kernel _ .ok _ rfl rfl
    (step_finished rfl)) fun _ => rfl
  have h₁₀ := h₉.step_restrict (ThreadStep.within _ _ _ _ (by trivial)
    (BeStep.complete _ (.perThread 2)) (.other _ trivial)) trivial
  -- the boundary retires the kernel
  have h₁₁ := h₁₀.step_restrict (ThreadStep.boundary _ 1 _ _ rfl (BeStep.boundary _ 1 rfl)) trivial
  have h₁₂ := h₁₁.step_restrict (ThreadStep.within _ _ _ _ (by trivial)
    (BeStep.retire _ 1 ⟨true, false, none⟩ rfl ⟨fun _ => by decide, by rintro ⟨⟩⟩)
    (.other _ trivial)) (by rintro ⟨⟩)
  have h₁₃ := h₁₂.step_restrict (ThreadStep.drained _ 1 _ _ rfl rfl (BeStep.drained _ 1 rfl rfl))
    trivial
  obtain ⟨tr₁₄, h₁₄⟩ := h₁₃.leadsTo (leadsTo_threads_submits (c := pairCall 61) hsucceeds rfl
    (by rintro ⟨⟩) rfl rfl (.inr ⟨_, rfl, rfl⟩))
  have h₁₅ := h₁₄.step_restrict (ThreadStep.launch _ (pairCall 61) .graphlet _ true _ rfl rfl
    (step_accepted rfl)) trivial
  obtain ⟨hrun, hmeets⟩ := h₁₅.of_restrict
  refine ⟨_, _, hrun, hmeets, fun hhard => ?_⟩
  obtain ⟨hfinished, -⟩ := hhard _ _ _ [] rfl true (pairCall 61) _ rfl rfl rfl
  exact absurd (hfinished ⟨.perThread 1, 0⟩ List.mem_cons_self) (by decide)

/-- With the fallbacks succeeding alone the boundaries are not hard. -/
theorem boundary_passed_early : ¬ ∀ (ν : Type) (cfg : BeConfig) (fp : BeFloat)
    (gcfg : GraphConfig) (alive : Pid → Bool) (tr : List (BeThreads × ThreadAction))
    (s : BeThreads), (threadSystem ν cfg fp gcfg alive).Run tr s →
      System.Meets FallbackSucceeds tr → HardBoundaries tr := by
  intro hall
  obtain ⟨tr, s, hrun, hfallback, hearly⟩ := pair_interrupted
  exact hearly (hall _ _ _ _ _ tr s hrun hfallback)

end Lilt.Be
