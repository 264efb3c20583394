/-
  File:      FxRtos/Kernel/Scheduled.lean
  Subject:   THE KERNEL DRIVES THE SCHEDULER: what the scheduler does in a run of threads is a run
             of the scheduler alone.

  * `Rouses` -- an object whose code queues its caller and makes threads ready, and does nothing
    else to the scheduler.
  * `Driven` -- the kernel's scheduler is that of a run of `schedStep` in which every thread in
    use is in use; `driven_step`: a step of the kernel is a word of its operations.
  * `current_highest` -- so the current thread is ready and of the highest priority whenever no
    rescheduling is asked for.
-/
import FxRtos.Kernel.Join

namespace FxRtos

open Function (update)
open Lib

set_option linter.unusedSectionVars false

/-! ## 1. Words of the scheduler -/

section Worte

variable {T : Type} [DecidableEq T] {cfg : Config T} {live : T → Bool}
  {c c' : SchedContext T (MpqContainer T)} {x : T}

/-- Operations of the scheduler lead from one state to the other; no item is initialised or
    removed by them. -/
def Worked (cfg : Config T) (live : T → Bool) (c c' : SchedContext T (MpqContainer T)) : Prop :=
  Reach (schedStep cfg.prioNum cfg.idle) RaiseClear ⟨c, live⟩ ⟨c', live⟩

theorem Worked.refl : Worked cfg live c c := Reach.start

theorem Worked.trans {c'' : SchedContext T (MpqContainer T)} (h1 : Worked cfg live c c')
    (h2 : Worked cfg live c' c'') : Worked cfg live c c'' := Reach.trans h1 h2

theorem Worked.resume (hx : live x = true) : Worked cfg live c (fxSchedItemResume c x) :=
  .next (.resume x) .start trivial (if_pos hx)

theorem Worked.yield (hx : live x = true) : Worked cfg live c (fxSchedYield c x) :=
  .next (.yield x) .start trivial (if_pos hx)

/-- Only the active item is suspended. -/
theorem Worked.suspend (hx : live x = true) (hi : x ≠ cfg.idle) (ha : c.active = x) :
    Worked cfg live c (fxSchedItemSuspend c x) := by
  subst ha
  exact .next .suspend .start trivial (if_pos ⟨hx, hi⟩)

theorem Worked.setParams {src : Nat} (hx : live x = true) (hi : x ≠ cfg.idle)
    (hsrc : src < cfg.prioNum) (hclear : RaiseClear ⟨c, live⟩ (.setParams x src)) :
    Worked cfg live c (fxSchedItemSetParams c x src) :=
  .next (.setParams x src) .start hclear (if_pos ⟨hx, hi, hsrc⟩)

theorem Worked.getNext : Worked cfg live c (fxSchedGetNext c).2 :=
  .next .getNext .start trivial rfl

end Worte

/-! ## 2. Making threads ready -/

section Wecken

variable {T E Q A O C P : Type} [DecidableEq T] [DecidableEq E] [DecidableEq Q]
  {cfg : Config T} {live : T → Bool} {k k' : Kern T E Q A} {t : T} {w : Wtbl T E Q} {b : Blk T}

/-- Blocks of the thread are queued, and threads that wait are notified. -/
inductive Roused (t : T) (k : Kern T E Q A) : Kern T E Q A → Prop where
  | refl : Roused t k k
  | queue {k' : Kern T E Q A} (h : Roused t k k') (w : Wtbl T E Q) (slot : Slot) :
      Roused t k (fxSyncWaitStart k' w (t, slot))
  | notify {k' : Kern T E Q A} {b : Blk T} {w : Wtbl T E Q} (h : Roused t k k')
      (hb : b ∈ k'.wq w) (r : WaitStatus) : Roused t k (fxSyncWaitNotify k' r b)

/-- Whoever waits is in use. -/
def QueuedIn (live : T → Bool) (k : Kern T E Q A) : Prop := ∀ w, ∀ b ∈ k.wq w, live b.1 = true

theorem QueuedIn.queue (h : QueuedIn live k) (ht : live t = true) (w : Wtbl T E Q) (slot : Slot) :
    QueuedIn live (fxSyncWaitStart k w (t, slot)) := by
  intro v b hb
  by_cases hv : v = w
  · subst hv
    rw [waitStart_wq, List.mem_append, List.mem_singleton] at hb
    rcases hb with hb | rfl
    · exact h v b hb
    · exact ht
  · rw [waitStart_wq_ne hv] at hb
    exact h v b hb

theorem QueuedIn.notify (h : QueuedIn live k) (r : WaitStatus) (b : Blk T) :
    QueuedIn live (fxSyncWaitNotify k r b) := fun v c hc => by
  rw [fxSyncWaitNotify_wq] at hc
  exact h v c (List.mem_of_mem_erase hc)

theorem Worked.notify (h : QueuedIn live k) (hb : b ∈ k.wq w) (r : WaitStatus) :
    Worked cfg live k.sched (fxSyncWaitNotify k r b).sched := by
  rw [fxSyncWaitNotify_sched]
  exact .resume (h w b hb)

/-- What is done to the scheduler is a word of resumes, and the caller stays the active thread. -/
theorem Roused.worked (h : Roused t k k') (hq : QueuedIn live k) (ht : live t = true) :
    Worked cfg live k.sched k'.sched ∧ QueuedIn live k' ∧
      k'.sched.active = k.sched.active := by
  induction h with
  | refl => exact ⟨.refl, hq, rfl⟩
  | queue _ w slot ih => exact ⟨ih.1, ih.2.1.queue ht w slot, ih.2.2⟩
  | notify _ hb r ih =>
    refine ⟨ih.1.trans (.notify ih.2.1 hb r), ih.2.1.notify r _, ?_⟩
    rw [fxSyncWaitNotify_sched, fxSchedItemResume_active]
    exact ih.2.2

theorem Roused.notifyAll (t : T) (k : Kern T E Q A) (w : Wtbl T E Q) (r : WaitStatus) :
    Roused t k (fxSyncWaitNotifyAll k w r) := by
  have hloop : ∀ (n : Nat) (k' : Kern T E Q A), Roused t k k' →
      Roused t k (fxSyncWaitNotifyLoop w r n k') := by
    intro n
    induction n with
    | zero => exact fun _ h => h
    | succ n ih =>
      intro k' h
      unfold fxSyncWaitNotifyLoop
      cases hw : k'.wq w with
      | nil => exact h
      | cons b rest => exact ih _ (h.notify (w := w) (by simp [hw]) r)
  exact hloop _ k .refl

/-- Setting an event. -/
theorem Worked.eventSet (hq : QueuedIn live k) (ht : live t = true) (e : Ev T E) :
    Worked cfg live k.sched (fxEventInternalSet k e).sched := by
  unfold fxEventInternalSet
  split
  · exact .refl
  · have hq' : QueuedIn live ({ k with ev := update k.ev e true } : Kern T E Q A) := hq
    exact ((Roused.notifyAll t _ (.ev e) .satisfied).worked hq' ht).1

/-- An object whose code does no more than that. -/
structure WaitObject.Rouses (W : WaitObject T E Q A O C P) : Prop where
  test : ∀ t c wait s, Awake s.1 t → Roused t s.1 (W.testWait t c wait s).2.1
  after : ∀ t c r s, Roused t s.1 (W.after t c r s).2.1
  op : ∀ t p s s', W.op p s = some s' → Roused t s.1 s'.1

theorem Wakes.roused {ex : T → Prop} {l : List T} (h : Wakes ex k l k') (t : T) :
    Roused t k k' := by
  induction h with
  | refl => exact .refl
  | wake _ hb _ ih => exact ih.notify hb _
  | drop _ hb _ ih => exact ih.notify hb _

theorem WaitObject.Plain.rouses {W : WaitObject T E Q A O C P} {wk : Wakers T E Q A O C P}
    (hp : W.Plain wk) : W.Rouses where
  test t c wait s ha := by
    cases htest : (W.testWait t c wait s).1 with
    | true => exact (hp.passed t c wait s ha htest).roused t
    | false =>
      rw [hp.failed t c wait s htest]
      split
      · exact Roused.refl.queue _ _
      · exact .refl
  after t c r s := by
    rw [(hp.after t c r s).2]
    exact .refl
  op t p s s' ho := (hp.op p s s' ho).roused t

theorem fxThreadJoin_rouses {W : WaitObject T E Q A O C P} (hR : W.Rouses) :
    (fxThreadJoin W).Rouses where
  test t c wait s ha := by
    have hev : ∀ e, Roused t s.1 (threadEventTest e t wait s).2.1 := fun e => by
      rw [threadEventTest_snd]
      split
      · exact Roused.refl.queue _ _
      · exact .refl
    cases c with
    | join u => exact hev _
    | sleep u => exact hev _
    | obj c => exact hR.test t c wait s ha
  after t c r s := by
    cases c with
    | obj c => exact hR.after t c r s
    | _ => exact .refl
  op := hR.op

end Wecken

/-! ## 3. The steps of the kernel -/

section Schritte

variable {T E Q A O C P : Type} [DecidableEq T] [DecidableEq E] [DecidableEq Q]
  {cfg : Config T} {W : WaitObject T E Q A O C P} {s s' : Sys T E Q A O C} {r : SchedRun T} {t : T}
  {J : (T → Prop) → O → Prop} {a : Act T E C P} {stage : Stage T E} {c : C}

/-- The kernel's scheduler is that of the run, and every thread in use is in use there. A thread
    that ended while it was suspended was never removed there. -/
structure Driven (cfg : Config T) (s : Sys T E Q A O C) (r : SchedRun T) : Prop where
  ctx : r.ctx = s.kern.sched
  live : ∀ t, s.InUse cfg.idle t → r.live t = true

/-- A word of operations leads to the next state. -/
def Continues (cfg : Config T) (r : SchedRun T) (s' : Sys T E Q A O C) : Prop :=
  ∃ r', Reach (schedStep cfg.prioNum cfg.idle) RaiseClear r r' ∧ Driven cfg s' r'

theorem Driven.queued (h : Driven cfg s r) (hw : WellFormed W s) : QueuedIn r.live s.kern :=
  fun _ b hb => h.live b.1 (hw.queuedInUse hb).1

theorem Driven.idle (h : Driven cfg s r) : r.live cfg.idle = true := h.live _ (Or.inl rfl)

/-- Nothing is initialised or removed. -/
theorem Driven.work (h : Driven cfg s r) (hk : Worked cfg r.live s.kern.sched s'.kern.sched)
    (huse : ∀ u, s'.InUse cfg.idle u → s.InUse cfg.idle u) : Continues cfg r s' := by
  obtain ⟨ctx, live⟩ := r
  obtain rfl : ctx = s.kern.sched := h.ctx
  exact ⟨⟨s'.kern.sched, live⟩, hk, rfl, fun u hu => h.live u (huse u hu)⟩

/-- A thread in use goes on. -/
theorem inUse_go {k : Kern T E Q A} {o : O} {base : T → Nat} {p : Pc T E C}
    (ht : s.InUse cfg.idle t) (u : T)
    (hu : Sys.InUse cfg.idle (⟨k, o, update s.pc t p, base⟩ : Sys T E Q A O C) u) :
    s.InUse cfg.idle u := by
  by_cases hut : u = t
  · exact hut ▸ ht
  · refine hu.imp_right fun hn => ?_
    change update s.pc t p u ≠ .absent ∧ update s.pc t p u ≠ .gone at hn
    rwa [Function.update_of_ne hut] at hn

theorem inUse_died {k : Kern T E Q A} (hidle : t ≠ cfg.idle) (u : T)
    (hu : Sys.InUse cfg.idle (⟨k, s.obj, update s.pc t .gone, s.base⟩ : Sys T E Q A O C) u) :
    s.InUse cfg.idle u ∧ u ≠ t := by
  by_cases hut : u = t
  · subst hut
    rcases hu with e | ⟨_, e⟩
    · exact absurd e hidle
    · exact absurd (Function.update_self ..) e
  · refine ⟨hu.imp_right fun hn => ?_, hut⟩
    change update s.pc t .gone u ≠ .absent ∧ update s.pc t .gone u ≠ .gone at hn
    rwa [Function.update_of_ne hut] at hn

/-- The wait of a call. -/
theorem Entered.worked {ab : Option (Ev T E)} {p : Bool × Kern T E Q A × O}
    {res : Option ThreadStatus} {k : Kern T E Q A} {live : T → Bool} (he : Entered t ab p res k)
    (ht : live t = true) (hi : t ≠ cfg.idle) (hact : p.2.1.sched.active = t) :
    Worked cfg live p.2.1.sched k.sched := by
  have hback : Worked cfg live p.2.1.sched (fxSyncWaitRollback p.2.1 t).2.sched := by
    rw [(rollback_ev p.2.1 t).2.2.1]
    exact .refl
  cases he with
  | passed _ => exact hback
  | cancelled _ e _ _ => exact hback
  | alone _ _ => exact .suspend ht hi hact
  | both _ e _ _ => exact .suspend ht hi hact

/-- **A critical section of a call** by the active thread. -/
theorem Driven.advance (hR : W.Rouses) (h : Driven cfg s r) (hw : WellFormed W s)
    (hi : t ≠ cfg.idle) (hpc : s.pc t = .inCall stage c) (hact : s.kern.sched.active = t) :
    Continues cfg r (advance cfg W t c s stage) := by
  have huse : s.InUse cfg.idle t := Or.inr (by
    rw [hpc]
    exact ⟨(fun e => by cases e), fun e => by cases e⟩)
  have hlive := h.live t huse
  have hq := h.queued hw
  obtain ⟨p, hp, _⟩ := advance_pc cfg W t c s stage
  have hin : ∀ u, (FxRtos.advance cfg W t c s stage).InUse cfg.idle u → s.InUse cfg.idle u := by
    intro u hu
    have hu' : Sys.InUse cfg.idle
        (⟨s.kern, s.obj, update s.pc t p, s.base⟩ : Sys T E Q A O C) u := by
      rw [← hp]
      exact hu
    exact inUse_go huse u hu'
  refine h.work ?_ hin
  cases stage with
  | reset => exact .refl
  | arm => exact .refl
  | enter ab =>
    have hphase := hw.kern t
    simp only [hpc] at hphase
    have hawake := (prepared hphase.1 (W.attr c)).awake
    have hprep : QueuedIn r.live (fxSyncWaiterPrepare s.kern t (W.attr c)) := hq
    have hroused := hR.test t c true (fxSyncWaiterPrepare s.kern t (W.attr c), s.obj) hawake
    rw [advance_enter]
    have hent := (entered (W.testWait t c) t (W.attr c) ab (s.kern, s.obj)).1
    obtain ⟨htest, _, hact'⟩ := hroused.worked hprep hlive
    exact htest.trans (hent.worked hlive hi (hact'.trans hact))
  | poll =>
    have hphase : s.phases W t = .awake := by
      unfold Sys.phases
      rw [hpc]
      rfl
    obtain ⟨_, hawake, _⟩ := blockInit_kernOk hw.phases hphase (W.attr c)
    have hinit : QueuedIn r.live (fxSyncWaitBlockInit s.kern t (W.attr c)) := hq
    exact ((hR.test t c false (fxSyncWaitBlockInit s.kern t (W.attr c), s.obj) hawake).worked
      hinit hlive).1
  | asleep ab =>
    show Worked cfg r.live s.kern.sched (fxSyncWaitRollback s.kern t).2.sched
    rw [(rollback_ev s.kern t).2.2.1]
    exact .refl
  | disarm res => exact .refl
  | ret res =>
    rw [advance_ret]
    exact ((hR.after t c res (s.kern, s.obj)).worked hq hlive).1

/-- A thread starts. -/
theorem Driven.init (h : Driven cfg s r) (hr : OnRoll cfg J s) (hdead : ¬ s.InUse cfg.idle t)
    {prio : Nat} (hprio : prio < cfg.prioNum) {susp : Bool} {base : T → Nat} :
    Continues cfg r ⟨fxThreadInitEx s.kern t prio susp, s.obj, update s.pc t .idle, base⟩ := by
  have hi : t ≠ cfg.idle := fun e => hdead (Or.inl e)
  have hlink : r.ctx.gDomain.link t = none := by
    rw [h.ctx]
    exact hr.sched.dead t hdead
  have hinit : Reach (schedStep cfg.prioNum cfg.idle) RaiseClear r
      ⟨fxSchedItemInit s.kern.sched t prio, update r.live t true⟩ := by
    rw [← h.ctx]
    exact .next (.init t prio) .start trivial (if_pos ⟨hi, hlink, hprio⟩)
  have hlive : ∀ u, Sys.InUse cfg.idle
      (⟨fxThreadInitEx s.kern t prio susp, s.obj, update s.pc t .idle, base⟩ :
        Sys T E Q A O C) u → update r.live t true u = true := by
    intro u hu
    by_cases hut : u = t
    · rw [hut, Function.update_self]
    · rw [Function.update_of_ne hut]
      refine h.live u (hu.imp_right fun hn => ?_)
      change update s.pc t .idle u ≠ .absent ∧ update s.pc t .idle u ≠ .gone at hn
      rwa [Function.update_of_ne hut] at hn
  cases susp with
  | true => exact ⟨_, hinit, rfl, hlive⟩
  | false =>
    have hresume : Worked cfg (update r.live t true) (fxSchedItemInit s.kern.sched t prio)
        (fxSchedItemResume (fxSchedItemInit s.kern.sched t prio) t) :=
      .resume (Function.update_self ..)
    exact ⟨_, hinit.trans hresume, rfl, hlive⟩

/-- A thread ends: its item is removed, or it was suspended and stays out of the container. -/
theorem Driven.removed (h : Driven cfg s r) (ht : s.InUse cfg.idle t) (hi : t ≠ cfg.idle) :
    ∃ live, Reach (schedStep cfg.prioNum cfg.idle) RaiseClear r
      ⟨fxSchedItemRemove s.kern.sched t, live⟩ ∧
      ∀ u, s.InUse cfg.idle u → u ≠ t → live u = true := by
  rw [← h.ctx]
  by_cases h0 : (r.ctx.item t).suspendCount = 0
  · refine ⟨update r.live t false, ?_, fun u hu hut => ?_⟩
    · exact .next (.remove t) .start trivial (if_pos ⟨h.live t ht, hi, h0⟩)
    · rw [Function.update_of_ne hut]
      exact h.live u hu
  · refine ⟨r.live, ?_, fun u hu _ => h.live u hu⟩
    unfold fxSchedItemRemove
    rw [if_neg h0]
    exact .start

/-- **Terminating a thread in use.** -/
theorem Driven.terminate (h : Driven cfg s r) (hw : WellFormed W s) (hi : t ≠ cfg.idle)
    (ht : s.kern.isTerminating t = true ∨ s.InUse cfg.idle t) :
    Continues cfg r ⟨fxThreadTerminate s.kern t, s.obj, update s.pc t .gone, s.base⟩ := by
  unfold fxThreadTerminate
  split
  · rename_i hterm
    rw [Function.update_eq_self_iff.mpr (hw.term t hterm).symm]
    exact ⟨r, .start, h⟩
  · rename_i hterm
    have huse := ht.resolve_left hterm
    have hcancel : KernOk (fxTimerCancel
        { s.kern with isTerminating := update s.kern.isTerminating t true } t)
        (s.phases W) := hw.phases.same fun u => sched_view rfl rfl rfl rfl rfl
    obtain ⟨hawake, _⟩ := rollback_awake hcancel (phases_ne s t)
    obtain ⟨_, _, hsched, hsub⟩ := rollback_ev (fxTimerCancel
      { s.kern with isTerminating := update s.kern.isTerminating t true } t) t
    obtain ⟨live, hrun, hlive⟩ := h.removed huse hi
    have hidle : live cfg.idle = true := hlive _ (Or.inl rfl) (Ne.symm hi)
    have hout : (fxThreadExitSync (fxSyncWaitRollback (fxTimerCancel
        { s.kern with isTerminating := update s.kern.isTerminating t true } t) t).2 t).sched =
        fxSchedItemRemove s.kern.sched t := congrArg (fxSchedItemRemove · t) hsched
    have hq : QueuedIn live (fxThreadExitSync (fxSyncWaitRollback (fxTimerCancel
        { s.kern with isTerminating := update s.kern.isTerminating t true } t) t).2 t) :=
      fun w b hb => hlive b.1 (hw.queuedInUse ((hsub w).mem hb)).1 (hawake.ne_of_mem hb)
    have hset : Worked cfg live _ (fxEventInternalSet _ (.completion t)).sched :=
      .eventSet hq hidle (.completion t)
    rw [hout] at hset
    exact ⟨_, hrun.trans hset, rfl, fun u hu => by
      obtain ⟨hu, hut⟩ := inUse_died hi u hu
      exact hlive u hu hut⟩

/-- Only the active thread runs the code of a call, or suspends itself. -/
def Act.RunBy (active : T) : Act T E C P → Prop
  | .go t => active = t
  | .suspend t => active = t
  | _ => True

/-- Priorities of threads in use are set, and the active thread is not raised past others; no
    thread is terminated that has completed. -/
def Act.Keeps (s : Sys T E Q A O C) (idle : T) : Act T E C P → Prop
  | .setPrio t prio => s.InUse idle t ∧ RaiseClear ⟨s.kern.sched, fun _ => true⟩ (.setParams t prio)
  | .terminate t => s.kern.isTerminating t = true ∨ s.InUse idle t
  | _ => True

/-- **A step of the kernel is a word of the scheduler's operations.** -/
theorem driven_step (hR : W.Rouses) (hw : WellFormed W s) (hr : OnRoll cfg J s)
    (h : Driven cfg s r) (hrun : a.RunBy s.kern.sched.active) (hk : a.Keeps s cfg.idle)
    (hs : FxRtos.step cfg W a s = some s') : Continues cfg r s' := by
  have hq := h.queued hw
  have hne : ∀ {t}, s.Free t → t ≠ cfg.idle := fun hf => hr.ne_idle hf.live
  cases a with
  | init t prio susp =>
    obtain ⟨⟨hnew, hi, hprio, _, _⟩, rfl⟩ := taken hs
    refine h.init hr (fun hu => hnew ?_) (by omega)
    unfold Sys.Created
    split
    · exact (hu.resolve_left hi).1 ‹_›
    · trivial
  | call t c =>
    obtain ⟨hf, rfl⟩ := taken hs
    cases W.start s.kern s.obj t c with
    | none => exact h.work .refl fun _ => id
    | some c' => exact h.work .refl (inUse_go hf.inUse)
  | go t =>
    cases hpc : s.pc t with
    | inCall stage c =>
      simp only [FxRtos.step, hpc] at hs
      obtain ⟨_, rfl⟩ := taken hs
      have hlive : s.Live t := fun e => by
        rw [hpc] at e
        cases e
      exact h.advance hR hw (hr.ne_idle hlive) hpc hrun
    | absent => simp [FxRtos.step, hpc] at hs
    | idle => simp [FxRtos.step, hpc] at hs
    | gone => simp [FxRtos.step, hpc] at hs
  | op p =>
    obtain ⟨_, hs⟩ := Option.ite_none_right_eq_some.mp hs
    obtain ⟨ko, ho, rfl⟩ := Option.map_eq_some_iff.mp hs
    have hroused := hR.op cfg.idle p _ ko ho
    exact h.work (hroused.worked hq h.idle).1 fun _ => id
  | expire t =>
    obtain ⟨_, rfl⟩ := taken hs
    have hq' : QueuedIn r.live (fxTimerCancel s.kern t) := hq
    exact h.work (.eventSet hq' h.idle _) fun _ => id
  | evSet e =>
    cases hs
    exact h.work (.eventSet hq h.idle _) fun _ => id
  | evReset e =>
    cases hs
    exact h.work .refl fun _ => id
  | evDeinit e =>
    cases hs
    have hq' : QueuedIn r.live ({ s.kern with valid := update s.kern.valid e false } :
        Kern T E Q A) := hq
    exact h.work ((Roused.notifyAll cfg.idle _ (.ev (.user e)) .deleted).worked hq' h.idle).1
      fun _ => id
  | terminate t =>
    obtain ⟨hc, rfl⟩ := taken hs
    exact h.terminate hw (hr.ne_idle hc.ne) hk
  | exit t =>
    obtain ⟨hf, rfl⟩ := taken hs
    obtain ⟨live, hrun, hlive⟩ := h.removed hf.inUse (hne hf)
    exact ⟨_, hrun, rfl, fun u hu => by
      obtain ⟨hu, hut⟩ := inUse_died (hne hf) u hu
      exact hlive u hu hut⟩
  | suspend t =>
    obtain ⟨hf, rfl⟩ := taken hs
    exact h.work (.suspend (h.live t hf.inUse) (hne hf) hrun) fun _ => id
  | resume t =>
    obtain ⟨hc, rfl⟩ := taken hs
    refine h.work ?_ fun _ => id
    show Worked cfg r.live s.kern.sched (fxThreadResume s.kern t).sched
    unfold fxThreadResume
    split
    · rename_i hstate
      refine .resume (h.live t (by_contra fun hdead => ?_))
      have hgone := (hw.unused hc.ne hdead).2
      rw [hstate] at hgone
      cases hgone
    · exact .refl
  | yield t =>
    obtain ⟨hf, rfl⟩ := taken hs
    exact h.work (.yield (h.live t hf.inUse)) fun _ => id
  | setPrio t prio =>
    obtain ⟨hc, rfl⟩ := taken hs
    refine h.work ?_ fun _ => id
    show Worked cfg r.live s.kern.sched
      (fxThreadSetParamsPrio (cfg.prioNum - 1) s.kern t prio).2.sched
    unfold fxThreadSetParamsPrio
    split
    · exact .setParams (h.live t hk.1) (hr.ne_idle hc.ne) (by omega) hk.2
    · exact .refl
  | dispatch =>
    cases hs
    refine h.work ?_ fun _ => id
    show Worked cfg r.live s.kern.sched (fxDispatchHandler s.kern).sched
    have hq' : QueuedIn r.live ({ s.kern with sched := (fxSchedGetNext s.kern.sched).2 } :
        Kern T E Q A) := hq
    unfold fxDispatchHandler
    dsimp only
    repeat' split
    · exact Worked.getNext.trans (.eventSet hq' h.idle _)
    · exact .getNext
    · exact .getNext

end Schritte

/-! ## 4. Every run -/

section Lauf

variable {T E Q A O C P : Type} [DecidableEq T] [DecidableEq E] [DecidableEq Q]
  {cfg : Config T} {W : WaitObject T E Q A O C P} {J : (T → Prop) → O → Prop}
  {spares : (T → Prop) → P → Kern T E Q A × O → Prop} {s s' : JoinSys T E Q A O C}

/-- The current thread is not raised while a thread that is ready goes before it. -/
def RaisesClear (s : JoinSys T E Q A O C) : JoinAct T E C P → Prop
  | .kernel (.setPrio t prio) => RaiseClear ⟨s.sys.kern.sched, fun _ => true⟩ (.setParams t prio)
  | _ => True

/-- The scheduler after `fx_thread_ctor`, with the idle item only. -/
def schedStart (cfg : Config T) : SchedRun T where
  ctx := fxSchedItemResume
    (fxSchedItemInitIdle (fxSchedCtor cfg.idle) cfg.idle (cfg.prioNum - 1)) cfg.idle
  live u := decide (u = cfg.idle)

theorem schedStart_prioInv (hN : cfg.prioNum ≤ 1024) (h1 : 0 < cfg.prioNum) :
    PrioInv cfg.idle (schedStart cfg) := by
  have h0 : SchedOk (fun _ => False) (fxSchedCtor cfg.idle) :=
    ⟨mpqInv_init, rfl, fun _ hx => hx.elim, fun _ _ => rfl, fun _ hx => hx.elim⟩
  have hinit : SchedOk (fun u => decide (u = cfg.idle) = true)
      (fxSchedItemInitIdle (fxSchedCtor cfg.idle) cfg.idle (cfg.prioNum - 1)) := by
    refine (h0.itemInit (x := cfg.idle) rfl (by omega) fun u => ?_).congr rfl rfl
    rw [decide_eq_true_iff]
    exact ⟨Or.inr, fun hu => hu.resolve_left id⟩
  have hitem : (fxSchedItemInitIdle (fxSchedCtor cfg.idle) cfg.idle
      (cfg.prioNum - 1)).item cfg.idle = ⟨1, cfg.prioNum - 1⟩ := Function.update_self ..
  have hok := hinit.itemResume (x := cfg.idle) (decide_eq_true rfl)
  -- the idle item, resumed, asks for the first dispatch
  obtain ⟨hc, ht, hr⟩ := fxSchedItemResume_enters (x := cfg.idle)
    (congrArg SchedItem.suspendCount hitem)
  refine ⟨hok, ?_, ?_, fun e => ?_, fun e => ?_⟩
  · refine (inContainer_iff hok).mpr ⟨decide_eq_true rfl, ?_⟩
    rw [fxSchedItemResume_item, Function.update_self, hitem]
    rfl
  · exact ht.trans_le (Nat.zero_le _)
  · have h01 : (0 : Nat) = 1 := ht.symm.trans (e.trans hc)
    cases h01
  · exact absurd (hr e).2 (Nat.lt_irrefl _)

theorem joinBoot_driven (o : O) :
    Driven cfg (joinBoot cfg o : JoinSys T E Q A O C).sys (schedStart cfg) :=
  ⟨rfl, fun _ hu => decide_eq_true (hu.resolve_right fun hn => hn.1 rfl)⟩

/-- **One step.** -/
theorem Driven.step (hR : W.Rouses) (hok : JoinOk cfg W J s) {r : SchedRun T}
    (h : Driven cfg s.sys r) {a : JoinAct T E C P} (hk : JoinKeeps cfg spares s a)
    (hc : RaisesClear s a) (hs : joinStep cfg W a s = some s') : Continues cfg r s'.sys := by
  have hRj := fxThreadJoin_rouses hR
  cases a with
  | kernel a =>
    obtain ⟨hmay, hs⟩ := Option.ite_none_right_eq_some.mp hs
    obtain ⟨sys, hsys, rfl⟩ := Option.map_eq_some_iff.mp hs
    have huse : ∀ {t : T}, s.sys.Created t → s.sys.kern.state t ≠ .completed →
        s.sys.InUse cfg.idle t := fun hc hne =>
      Or.inr ⟨hc.ne, fun hg => hne (hok.base.wf.gone_completed hg).2⟩
    have hrun : a.RunBy s.sys.kern.sched.active := by
      cases a with
      | go t => exact hmay.1
      | suspend t => exact hmay.1
      | _ => trivial
    have hkeeps : a.Keeps s.sys cfg.idle := by
      cases a with
      | setPrio t prio => exact ⟨huse (taken hsys).1 hk, hc⟩
      | terminate t => exact Or.inr (huse (taken hsys).1 hk)
      | _ => trivial
    exact driven_step hRj hok.base.wf hok.base.roll h hrun hkeeps hsys
  | sleep t timed =>
    obtain ⟨_, rfl⟩ := taken hs
    exact ⟨r, .start, h⟩
  | nap t =>
    obtain ⟨_, hs⟩ := Option.ite_none_right_eq_some.mp hs
    cases hn : s.nap t with
    | wait =>
      rw [hn] at hs
      obtain ⟨sys, hcall, rfl⟩ := Option.map_eq_some_iff.mp hs
      exact driven_step hRj hok.base.wf hok.base.roll h (a := .call t (.sleep t)) trivial trivial
        hcall
    | out =>
      rw [hn] at hs
      cases hs
    | asleep =>
      rw [hn] at hs
      cases hs
    | reset timed =>
      rw [hn] at hs
      cases hs
      exact ⟨r, .start, h.ctx, h.live⟩
    | arm =>
      rw [hn] at hs
      cases hs
      exact ⟨r, .start, h.ctx, h.live⟩
    | cancel =>
      rw [hn] at hs
      cases hs
      exact ⟨r, .start, h.ctx, h.live⟩

/-- A run of the scheduler accompanies every run of the system. -/
theorem reach_driven (hW : W.Lawful) (hO : W.Orderly J spares) (hR : W.Rouses)
    (hN : cfg.prioNum ≤ 1024) {o : O} (ho : J (fun _ => False) o)
    (h : Reach (joinStep cfg W) (fun s a => JoinKeeps cfg spares s a ∧ RaisesClear s a)
      (joinBoot cfg o) s) :
    JoinOk cfg W J s ∧ ∃ r, Reach (schedStep cfg.prioNum cfg.idle) RaiseClear (schedStart cfg) r ∧
      Driven cfg s.sys r := by
  have hok : ∀ {s}, Reach (joinStep cfg W) (fun s a => JoinKeeps cfg spares s a ∧ RaisesClear s a)
      (joinBoot cfg o) s → JoinOk cfg W J s :=
    fun hr => reach_joinOk hW hO hN ho (hr.mono fun _ _ hg => hg.1)
  refine ⟨hok h, ?_⟩
  refine Reach.inv_of (K := JoinOk cfg W J)
    (J := fun s => ∃ r, Reach (schedStep cfg.prioNum cfg.idle) RaiseClear (schedStart cfg) r ∧
      Driven cfg s.sys r) (fun _ hr => hok hr) ⟨_, .start, joinBoot_driven o⟩ ?_ h
  intro s1 a s2 hok hrun hg hs
  obtain ⟨r, hr, hd⟩ := hrun
  obtain ⟨r', hr', hd'⟩ := hd.step hR hok hg.1 hg.2 hs
  exact ⟨r', hr.trans hr', hd'⟩

/-- In the container exactly when ready. -/
theorem JoinOk.inContainer (h : JoinOk cfg W J s) {t : T} (ht : t = cfg.idle ∨ s.sys.Live t) :
    InContainer s.sys.kern.sched t ↔ s.sys.kern.state t = .ready := by
  have hq := fun p => h.base.roll.queue_iff h.base.wf ht (p := p)
  constructor
  · intro hc
    obtain ⟨p, hp⟩ := Option.isSome_iff_exists.mp hc
    exact ((hq p).mp ((h.base.roll.sched.mpq.mem_iff t p).mpr hp)).1
  · intro hr
    exact inContainer_of_link ((h.base.roll.sched.mpq.mem_iff t _).mp ((hq _).mpr ⟨hr, rfl⟩))

/-- **The kernel refines the scheduler.** What a run of threads, and of objects that only make
    threads ready, does to the scheduler is a run of the scheduler's operations: only the active
    item is suspended, only an item in the container removed, and it keeps to the priorities. The
    items in the container are the threads that are ready. The run leaves completed threads alone,
    and does not raise the current one past a ready one. -/
theorem kernel_refines_scheduler (hW : W.Lawful) (hO : W.Orderly J spares) (hR : W.Rouses)
    (hN : cfg.prioNum ≤ 1024) {o : O} (ho : J (fun _ => False) o)
    (h : Reach (joinStep cfg W) (fun s a => JoinKeeps cfg spares s a ∧ RaisesClear s a)
      (joinBoot cfg o) s) :
    ∃ live, Reach (schedStep cfg.prioNum cfg.idle) RaiseClear (schedStart cfg)
      ⟨s.sys.kern.sched, live⟩ ∧
      ∀ t, t = cfg.idle ∨ s.sys.pc t ≠ .absent →
        (InContainer s.sys.kern.sched t ↔ s.sys.kern.state t = .ready) ∧
        (s.sys.kern.state t ≠ .completed → live t = true) := by
  obtain ⟨hok, ⟨ctx, live⟩, hr, hd⟩ := reach_driven hW hO hR hN ho h
  obtain rfl : ctx = s.sys.kern.sched := hd.ctx
  refine ⟨live, hr, fun t ht => ⟨hok.inContainer ht, fun hne => hd.live t ?_⟩⟩
  exact ht.imp_right fun hl => ⟨hl, fun hg => hne (hok.base.wf.gone_completed hg).2⟩

/-- **The current thread has the highest priority.** In every such run of threads, and of objects
    that only make threads ready, whenever no rescheduling is asked for the current thread is ready
    (or the idle one), and no thread that is ready has a higher priority. -/
theorem current_highest (hW : W.Lawful) (hO : W.Orderly J spares) (hR : W.Rouses)
    (hN : cfg.prioNum ≤ 1024) (h1 : 0 < cfg.prioNum) {o : O} (ho : J (fun _ => False) o)
    (h : Reach (joinStep cfg W) (fun s a => JoinKeeps cfg spares s a ∧ RaisesClear s a)
      (joinBoot cfg o) s) (hp : s.sys.kern.sched.reschedPending = false) :
    (s.current = cfg.idle ∨ s.sys.pc s.current ≠ .absent) ∧
      s.sys.kern.state s.current = .ready ∧
      ∀ t, t = cfg.idle ∨ s.sys.pc t ≠ .absent → s.sys.kern.state t = .ready →
        (s.sys.kern.sched.item s.current).prio ≤ (s.sys.kern.sched.item t).prio := by
  obtain ⟨hok, r, hr, hd⟩ := reach_driven hW hO hR hN ho h
  have hprio : PrioInv cfg.idle r :=
    hr.inv (schedStart_prioInv hN h1) fun _ _ _ hi hg hs => schedStep_prioInv hN hi hg hs
  have htop := hprio.top (by rw [hd.ctx]; exact hp)
  rw [hd.ctx] at htop
  have hcurrent := hok.base.compl.current
  exact ⟨hcurrent, (hok.inContainer hcurrent).mp htop.inside,
    fun t ht hready => htop.top t ((hok.inContainer ht).mpr hready)⟩

end Lauf

def semScheduled (s : JoinSys (Fin 3) Unit Unit Unit FxSem (WaitArgs Unit))
    (a : JoinAct (Fin 3) Unit (WaitArgs Unit) SemOp) : Prop :=
  semJoinKeeps s a ∧ RaisesClear s a

instance (s : JoinSys (Fin 3) Unit Unit Unit FxSem (WaitArgs Unit))
    (a : JoinAct (Fin 3) Unit (WaitArgs Unit) SemOp) : Decidable (RaisesClear s a) :=
  match a with
  | .kernel (.setPrio t prio) => inferInstanceAs (Decidable
      (RaiseClear ⟨s.sys.kern.sched, fun _ => true⟩ (.setParams t prio)))
  | .kernel (.init _ _ _) | .kernel (.call _ _) | .kernel (.go _) | .kernel (.op _)
  | .kernel (.expire _) | .kernel (.evSet _) | .kernel (.evReset _) | .kernel (.evDeinit _)
  | .kernel (.exit _) | .kernel (.suspend _) | .kernel (.resume _) | .kernel (.yield _)
  | .kernel (.terminate _) | .kernel .dispatch | .sleep _ _ | .nap _ => .isTrue trivial

instance (s : JoinSys (Fin 3) Unit Unit Unit FxSem (WaitArgs Unit))
    (a : JoinAct (Fin 3) Unit (WaitArgs Unit) SemOp) : Decidable (semScheduled s a) :=
  inferInstanceAs (Decidable (_ ∧ _))

/-- Thread 1 waits for a semaphore that thread 0 posts, and goes on before it. -/
theorem exists_semRun : ∃ s, Reach semJoinStep semScheduled semJoinBoot s ∧ s.current = 1 ∧
    s.sys.kern.sched.reschedPending = false ∧ s.sys.kern.state 0 = .ready ∧
    s.sys.Created 0 := by
  have h : (runIf (fun s a => decide (semScheduled s a)) semJoinStep
      [.kernel (.init 0 5 false), .kernel (.init 1 3 false), .kernel .dispatch,
        .kernel (.call 1 (.obj (.event none))), .kernel (.go 1), .kernel .dispatch,
        .kernel (.op .post), .kernel .dispatch] semJoinBoot).any
      (fun s => s.current = 1 ∧ s.sys.kern.sched.reschedPending = false ∧
        s.sys.kern.state 0 = .ready ∧ s.sys.Created 0) = true := by
    decide +kernel
  obtain ⟨s, hr, hp⟩ := exists_of_runIf (G := semScheduled)
    (fun _ _ hg => of_decide_eq_true hg) h
  exact ⟨s, hr, of_decide_eq_true hp⟩

theorem kernel_refines_scheduler_sem : ∃ s live, Reach semJoinStep semScheduled semJoinBoot s ∧
    Reach (schedStep 16 (Fin.last 2)) RaiseClear (schedStart joinCfg)
      ⟨s.sys.kern.sched, live⟩ ∧ InContainer s.sys.kern.sched 0 ∧ live 0 = true := by
  obtain ⟨s, hr, _, _, hstate, hcreated⟩ := exists_semRun
  have hplain := fxSem_plain (T := Fin 3) (E := Unit) true
  obtain ⟨live, hrun, hready⟩ := kernel_refines_scheduler (fxSem_lawful true) hplain.orderly
    hplain.rouses (by decide) (trivial : True) hr
  obtain ⟨hin, hlive⟩ := hready 0 (Or.inr hcreated.ne)
  exact ⟨s, live, hr, hrun, hin.mpr hstate, hlive (by rw [hstate]; decide)⟩

theorem current_highest_sem : ∃ s, Reach semJoinStep semScheduled semJoinBoot s ∧
    s.current = 1 ∧
    (s.sys.kern.sched.item s.current).prio ≤ (s.sys.kern.sched.item 0).prio := by
  obtain ⟨s, hr, hcur, hp, hstate, hcreated⟩ := exists_semRun
  have hplain := fxSem_plain (T := Fin 3) (E := Unit) true
  obtain ⟨_, _, htop⟩ := current_highest (fxSem_lawful true) hplain.orderly hplain.rouses
    (by decide) (by decide) (trivial : True) hr hp
  exact ⟨s, hr, hcur, htop 0 (Or.inr hcreated.ne) hstate⟩

end FxRtos
