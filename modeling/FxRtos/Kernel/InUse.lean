/-
  File:      FxRtos/Kernel/InUse.lean
  Subject:   THE ITEMS OF THE THREADS IN USE AND THE CONTAINER, in every run of any object.

  * `WaitObject.Orderly` -- an object whose code keeps items and container in agreement, as long
    as it runs for threads in use.
  * `Enrolled` -- the items of the threads in use and the container agree. A thread is in use from
    its creation until it ends, the idle thread always.
  * `SparesDead` -- the steps that touch no item that was unlinked when its thread ended.
  * `Enrolled.step` -- such a step keeps the agreement.
  * `OnRoll.queue_iff` -- so a thread is in the queue of its priority exactly when it is ready.
-/
import FxRtos.Kernel.Elsewhere

namespace FxRtos

open Function (update)
open Lib

set_option linter.unusedSectionVars false

/-! ## 1. Changes of the kernel -/

section Kern

variable {T E Q A : Type} [DecidableEq T] [DecidableEq E] [DecidableEq Q]
  {live live' : T → Prop} {k : Kern T E Q A} {w : Wtbl T E Q} {b : Blk T} {t : T}

/-- A thread in use is made ready. -/
theorem SchedOk.notify (h : SchedOk live k.sched) (hb : live b.1) (r : WaitStatus) :
    SchedOk live (fxSyncWaitNotify k r b).sched := by
  rw [fxSyncWaitNotify_sched]
  exact h.itemResume hb

theorem SchedOk.notifyAll (h : SchedOk live k.sched) (hq : ∀ b ∈ k.wq w, live b.1)
    (r : WaitStatus) : SchedOk live (fxSyncWaitNotifyAll k w r).sched := by
  have hloop : ∀ (n : Nat) (k : Kern T E Q A), SchedOk live k.sched →
      (∀ b ∈ k.wq w, live b.1) → SchedOk live (fxSyncWaitNotifyLoop w r n k).sched := by
    intro n
    induction n with
    | zero => exact fun _ h _ => h
    | succ n ih =>
      intro k h hq
      unfold fxSyncWaitNotifyLoop
      cases hw : k.wq w with
      | nil => exact h
      | cons b rest =>
        refine ih _ (h.notify (hq b (by simp [hw])) r) fun c hc => hq c ?_
        rw [fxSyncWaitNotify_wq] at hc
        exact List.mem_of_mem_erase hc
  exact hloop _ k h hq

theorem SchedOk.eventSet (h : SchedOk live k.sched) {e : Ev T E}
    (hq : ∀ b ∈ k.wq (.ev e), live b.1) : SchedOk live (fxEventInternalSet k e).sched := by
  unfold fxEventInternalSet
  split
  · exact h
  · have h1 : SchedOk live ({ k with ev := update k.ev e true } : Kern T E Q A).sched := h
    exact h1.notifyAll hq .satisfied

theorem SchedOk.rollback (h : SchedOk live k.sched) (t : T) :
    SchedOk live (fxSyncWaitRollback k t).2.sched := by
  rw [(rollback_ev k t).2.2.1]
  exact h

/-- The item of a thread that is unlinked already may be removed once more if it is suspended. -/
theorem SchedOk.itemRemoved {c : SchedContext T (MpqContainer T)} (h : SchedOk live c)
    (ht : live t ∨ (c.item t).suspendCount ≠ 0) (hl : ∀ u, live' u ↔ live u ∧ u ≠ t) :
    SchedOk live' (fxSchedItemRemove c t) := by
  rcases ht with ht | h0
  · exact h.itemRemove ht hl
  · unfold fxSchedItemRemove
    rw [if_neg h0]
    refine ⟨h.mpq, h.fault, fun u hu => h.linked u ((hl u).mp hu).1, fun u hu => ?_,
      fun u hu => h.lt u ((hl u).mp hu).1⟩
    by_cases hut : u = t
    · exact hut ▸ h.linked_out h0
    · exact h.dead u fun hlu => hu ((hl u).mpr ⟨hlu, hut⟩)

theorem Entered.sched {O : Type} {ab : Option (Ev T E)} {p : Bool × Kern T E Q A × O}
    {r : Option ThreadStatus} (he : Entered t ab p r k) (ht : live t)
    (h : SchedOk live p.2.1.sched) : SchedOk live k.sched := by
  cases he with
  | passed _ => exact h.rollback t
  | cancelled _ e _ _ => exact h.rollback t
  | alone _ _ => exact h.itemSuspend ht
  | both _ e _ _ => exact h.itemSuspend ht

end Kern

/-! ## 2. Orderly objects -/

section Objekt

variable {T E Q A O C P : Type} [DecidableEq T] [DecidableEq E] [DecidableEq Q]
  {J : (T → Prop) → O → Prop} {live made : T → Prop} {s : Kern T E Q A × O} {t : T}
  {w : Wtbl T E Q} {b : Blk T}

/-- **Items and container agree**, and whoever waits is in use. What the object has to promise of
    its own data may name threads that were created (`made`). -/
structure Tended (J : (T → Prop) → O → Prop) (live made : T → Prop)
    (s : Kern T E Q A × O) : Prop where
  sched : SchedOk live s.1.sched
  queued : ∀ w, ∀ b ∈ s.1.wq w, live b.1 ∧ made b.1
  obj : J made s.2

/-- An object whose code keeps that, for callers in use; its operations do only if they spare the
    priorities of threads that are not. -/
structure WaitObject.Orderly (W : WaitObject T E Q A O C P) (J : (T → Prop) → O → Prop)
    (spares : (T → Prop) → P → Kern T E Q A × O → Prop) : Prop where
  mono : ∀ {made made' : T → Prop} {o : O}, J made o → (∀ u, made u → made' u) → J made' o
  test : ∀ {live made : T → Prop} {s : Kern T E Q A × O} {t : T} (c : C) (wait : Bool),
    Awake s.1 t → Tended J live made s → live t → made t →
    Tended J live made (W.testWait t c wait s).2
  after : ∀ {live made : T → Prop} {s : Kern T E Q A × O} {t : T} (c : C) (r : ThreadStatus),
    Tended J live made s → live t → made t → Tended J live made (W.after t c r s).2
  op : ∀ {live made : T → Prop} {s s' : Kern T E Q A × O} {p : P}, Tended J live made s →
    (∀ t ∈ W.caller p, live t) → spares live p s → W.op p s = some s' → Tended J live made s'

theorem Tended.notify (h : Tended J live made s) (hb : b ∈ s.1.wq w) (r : WaitStatus) :
    Tended J live made (fxSyncWaitNotify s.1 r b, s.2) :=
  ⟨h.sched.notify (h.queued w b hb).1 r, fun v c hc => h.queued v c (List.mem_of_mem_erase hc),
    h.obj⟩

theorem Tended.notifyAll (h : Tended J live made s) (w : Wtbl T E Q) (r : WaitStatus)
    (hr : r = .satisfied ∨ r = .deleted) :
    Tended J live made (fxSyncWaitNotifyAll s.1 w r, s.2) := by
  have hm : Moves (fun _ => True) NoOne s.1 (fxSyncWaitNotifyAll s.1 w r) :=
    Moves.notifyAll (w := w) trivial hr s.1
  exact ⟨h.sched.notifyAll (fun b hb => (h.queued w b hb).1) r,
    fun v c hc => h.queued v c ((hm.sublist v).mem hc), h.obj⟩

theorem Tended.setPrio (h : Tended J live made s)
    (ht : live t ∨ (s.1.sched.item t).suspendCount ≠ 0) {p : Nat} (hp : p < 1024) :
    Tended J live made (s.1.setPrio t p, s.2) :=
  ⟨h.sched.itemSetParams ht hp, h.queued, h.obj⟩

theorem Tended.waitStart (h : Tended J live made s) (hl : live t) (hm : made t) (slot : Slot)
    (w : Wtbl T E Q) : Tended J live made (fxSyncWaitStart s.1 w (t, slot), s.2) := by
  refine ⟨h.sched, fun v b hb => ?_, h.obj⟩
  by_cases hv : v = w
  · subst hv
    rw [waitStart_wq, List.mem_append, List.mem_singleton] at hb
    rcases hb with hb | rfl
    · exact h.queued v b hb
    · exact ⟨hl, hm⟩
  · rw [waitStart_wq_ne hv] at hb
    exact h.queued v b hb

end Objekt

/-! ## 3. Threads in use -/

section Lauf

variable {T E Q A O C P : Type} [DecidableEq T] [DecidableEq E] [DecidableEq Q]
  {cfg : Config T} {W : WaitObject T E Q A O C P} {s s' : Sys T E Q A O C} {t : T}
  {J : (T → Prop) → O → Prop} {spares : (T → Prop) → P → Kern T E Q A × O → Prop}
  {a : Act T E C P}

/-- The threads that were created. -/
def Sys.Live (s : Sys T E Q A O C) (t : T) : Prop := s.pc t ≠ .absent

/-- The idle thread, and the threads that were created and have not completed. -/
def Sys.InUse (idle : T) (s : Sys T E Q A O C) (t : T) : Prop :=
  t = idle ∨ s.pc t ≠ .absent ∧ s.pc t ≠ .gone

structure Enrolled (cfg : Config T) (J : (T → Prop) → O → Prop) (s : Sys T E Q A O C) :
    Prop where
  sched : SchedOk (s.InUse cfg.idle) s.kern.sched
  obj : J s.Live s.obj
  idle : s.pc cfg.idle = .absent

/-- The step touches no item that was unlinked when its thread ended; one that was suspended then
    does not count as linked. -/
def SparesDead (cfg : Config T) (spares : (T → Prop) → P → Kern T E Q A × O → Prop)
    (s : Sys T E Q A O C) : Act T E C P → Prop
  | .terminate t => s.kern.isTerminating t = true ∨ s.InUse cfg.idle t ∨
      (s.kern.sched.item t).suspendCount ≠ 0
  | .setPrio t prio => prio < cfg.prioNum - 1 →
      s.InUse cfg.idle t ∨ (s.kern.sched.item t).suspendCount ≠ 0
  | .op p => spares (s.InUse cfg.idle) p (s.kern, s.obj)
  | _ => True

theorem Sys.Free.live (h : s.Free t) : s.Live t := fun e => by
  rw [h.pc] at e
  cases e

theorem Sys.Free.inUse {idle : T} (h : s.Free t) : s.InUse idle t :=
  Or.inr ⟨h.live, fun e => by
    rw [h.pc] at e
    cases e⟩

/-- Whoever waits is in use. -/
theorem WellFormed.queuedInUse {idle : T} (hw : WellFormed W s) {w : Wtbl T E Q} {b : Blk T}
    (hb : b ∈ s.kern.wq w) : s.InUse idle b.1 ∧ s.Live b.1 := by
  have hcall : s.pc b.1 ≠ .absent ∧ s.pc b.1 ≠ .gone := by
    have hq := hw.kern.queued hb
    cases hpc : s.pc b.1 with
    | inCall stage c => exact ⟨(fun e => by cases e), fun e => by cases e⟩
    | _ =>
      simp only [hpc, Pc.phase] at hq
      rcases hq with hq | ⟨_, _, hq⟩ <;> cases hq
  exact ⟨Or.inr hcall, hcall.1⟩

/-- A thread that was created and is not in use has ended. -/
theorem WellFormed.unused {idle : T} (hw : WellFormed W s) (ht : s.Live t)
    (hn : ¬ s.InUse idle t) : Awake s.kern t ∧ s.kern.state t = .completed := by
  have hpc : s.pc t = .gone := by
    by_contra hne
    exact hn (Or.inr ⟨ht, hne⟩)
  have hp := hw.kern t
  simp only [hpc, Pc.phase] at hp
  exact ⟨hp.1, hp.2.2⟩

theorem Enrolled.tended (h : Enrolled cfg J s) (hw : WellFormed W s) :
    Tended J (s.InUse cfg.idle) s.Live (s.kern, s.obj) :=
  ⟨h.sched, fun _ _ hb => hw.queuedInUse hb, h.obj⟩

theorem Enrolled.ne_idle (h : Enrolled cfg J s) (ht : s.Live t) : t ≠ cfg.idle :=
  fun e => ht (e ▸ h.idle)

/-- No thread starts or ends. -/
theorem Enrolled.stay (h : Enrolled cfg J s) {k : Kern T E Q A} {o : O} {base : T → Nat}
    (hk : SchedOk (s.InUse cfg.idle) k.sched) (ho : J s.Live o) :
    Enrolled cfg J (⟨k, o, s.pc, base⟩ : Sys T E Q A O C) := ⟨hk, ho, h.idle⟩

/-- A thread in use is at another point of its code, or one that was not is. -/
theorem Enrolled.move (hO : W.Orderly J spares) (h : Enrolled cfg J s) (ht : t ≠ cfg.idle)
    {k : Kern T E Q A} {o : O} {base : T → Nat} {p : Pc T E C} (hp : p ≠ .absent ∧ p ≠ .gone)
    (hk : SchedOk (fun u => s.InUse cfg.idle u ∨ u = t) k.sched) (ho : J s.Live o) :
    Enrolled cfg J ⟨k, o, update s.pc t p, base⟩ := by
  have huse : (fun u => s.InUse cfg.idle u ∨ u = t) =
      Sys.InUse cfg.idle (⟨k, o, update s.pc t p, base⟩ : Sys T E Q A O C) := by
    funext u
    refine propext ?_
    show (u = cfg.idle ∨ s.pc u ≠ .absent ∧ s.pc u ≠ .gone) ∨ u = t ↔
      u = cfg.idle ∨ update s.pc t p u ≠ .absent ∧ update s.pc t p u ≠ .gone
    by_cases hu : u = t
    · subst hu
      rw [Function.update_self]
      exact iff_of_true (Or.inr rfl) (Or.inr hp)
    · rw [Function.update_of_ne hu]
      exact or_iff_left hu
  refine ⟨huse ▸ hk, hO.mono ho fun u hu => ?_, ?_⟩
  · show update s.pc t p u ≠ .absent
    by_cases hut : u = t
    · rw [hut, Function.update_self]
      exact hp.1
    · rw [Function.update_of_ne hut]
      exact hu
  · show update s.pc t p cfg.idle = .absent
    rw [Function.update_of_ne (Ne.symm ht)]
    exact h.idle

/-- A thread in use is at another point of its code. -/
theorem Enrolled.go (hO : W.Orderly J spares) (h : Enrolled cfg J s) (ht : s.InUse cfg.idle t)
    (hne : t ≠ cfg.idle) {k : Kern T E Q A} {o : O} {base : T → Nat} {p : Pc T E C}
    (hp : p ≠ .absent ∧ p ≠ .gone) (hk : SchedOk (s.InUse cfg.idle) k.sched) (ho : J s.Live o) :
    Enrolled cfg J ⟨k, o, update s.pc t p, base⟩ := by
  have hsame : (fun u => s.InUse cfg.idle u ∨ u = t) = s.InUse cfg.idle := by
    funext u
    exact propext (or_iff_left_of_imp fun e => e ▸ ht)
  exact h.move hO hne hp (by rw [hsame]; exact hk) ho

/-- A thread ends. -/
theorem Enrolled.died (hO : W.Orderly J spares) (h : Enrolled cfg J s) (ht : s.Live t)
    {k : Kern T E Q A} (hk : SchedOk (fun u => s.InUse cfg.idle u ∧ u ≠ t) k.sched) :
    Enrolled cfg J ⟨k, s.obj, update s.pc t .gone, s.base⟩ := by
  have hidle := h.ne_idle ht
  have huse : (fun u => s.InUse cfg.idle u ∧ u ≠ t) =
      Sys.InUse cfg.idle (⟨k, s.obj, update s.pc t .gone, s.base⟩ : Sys T E Q A O C) := by
    funext u
    refine propext ?_
    show (u = cfg.idle ∨ s.pc u ≠ .absent ∧ s.pc u ≠ .gone) ∧ u ≠ t ↔
      u = cfg.idle ∨ update s.pc t .gone u ≠ .absent ∧ update s.pc t .gone u ≠ .gone
    by_cases hu : u = t
    · subst hu
      rw [Function.update_self]
      refine iff_of_false (fun hn => hn.2 rfl) ?_
      rintro (e | ⟨_, e⟩)
      · exact hidle e
      · exact e rfl
    · rw [Function.update_of_ne hu]
      exact and_iff_left hu
  refine ⟨huse ▸ hk, hO.mono h.obj fun u hu => ?_, ?_⟩
  · show update s.pc t .gone u ≠ .absent
    by_cases hut : u = t
    · rw [hut, Function.update_self]
      exact fun e => by cases e
    · rw [Function.update_of_ne hut]
      exact hu
  · show update s.pc t .gone cfg.idle = .absent
    rw [Function.update_of_ne (Ne.symm hidle)]
    exact h.idle

/-! ## 4. The steps -/

/-- **A critical section of a call.** -/
theorem Enrolled.advance (hO : W.Orderly J spares) (h : Enrolled cfg J s) (hw : WellFormed W s)
    {stage : Stage T E} {c : C} (hpc : s.pc t = .inCall stage c) :
    Enrolled cfg J (advance cfg W t c s stage) := by
  have hlive : s.Live t := fun e => by
    rw [hpc] at e
    cases e
  have huse : s.InUse cfg.idle t := Or.inr ⟨hlive, fun e => by
    rw [hpc] at e
    cases e⟩
  have hin : ∀ {st : Stage T E} {c : C},
      (Pc.inCall st c : Pc T E C) ≠ .absent ∧ Pc.inCall st c ≠ .gone :=
    ⟨(fun e => by cases e), fun e => by cases e⟩
  have hgo : ∀ {k : Kern T E Q A} {o : O} {p : Pc T E C}, p ≠ .absent ∧ p ≠ .gone →
      SchedOk (s.InUse cfg.idle) k.sched → J s.Live o →
      Enrolled cfg J ⟨k, o, update s.pc t p, s.base⟩ :=
    fun hp hk ho => h.go hO huse (h.ne_idle hlive) hp hk ho
  have htended := h.tended hw
  cases stage with
  | reset => exact hgo hin h.sched h.obj
  | arm => exact hgo hin h.sched h.obj
  | enter ab =>
    have hprep : Tended J (s.InUse cfg.idle) s.Live
        (fxSyncWaiterPrepare s.kern t (W.attr c), s.obj) := ⟨h.sched, htended.queued, h.obj⟩
    have hphase := hw.kern t
    simp only [hpc] at hphase
    have htest := hO.test c true (prepared hphase.1 (W.attr c)).awake hprep huse hlive
    rw [advance_enter]
    obtain ⟨hent, hobj⟩ := entered (W.testWait t c) t (W.attr c) ab (s.kern, s.obj)
    refine hgo hin (hent.sched huse htest.sched) ?_
    rw [hobj]
    exact htest.obj
  | poll =>
    have hinit : Tended J (s.InUse cfg.idle) s.Live
        (fxSyncWaitBlockInit s.kern t (W.attr c), s.obj) := ⟨h.sched, htended.queued, h.obj⟩
    have hawake : s.phases W t = .awake := by
      unfold Sys.phases
      rw [hpc]
      rfl
    obtain ⟨_, ha, _⟩ := blockInit_kernOk hw.phases hawake (W.attr c)
    have htest := hO.test c false ha hinit huse hlive
    exact hgo hin htest.sched htest.obj
  | asleep ab => exact hgo hin (h.sched.rollback t) h.obj
  | disarm r => exact hgo hin h.sched h.obj
  | ret r =>
    rw [advance_ret]
    have hafter := hO.after c r htended huse hlive
    -- the next call of the loop, or none
    have hnext : ∀ (o : Option C) (f : C → Stage T E),
        o.elim (Pc.idle : Pc T E C) (fun c' => .inCall (f c') c') ≠ .absent ∧
          o.elim (Pc.idle : Pc T E C) (fun c' => .inCall (f c') c') ≠ .gone := by
      intro o f
      cases o with
      | none => exact ⟨(fun e => by cases e), fun e => by cases e⟩
      | some c' => exact hin
    exact hgo (hnext _ _) hafter.sched hafter.obj

/-- Setting an event of the system wakes threads in use. -/
theorem Enrolled.eventSet (h : Enrolled cfg J s) (hw : WellFormed W s) {k : Kern T E Q A}
    (hk : SchedOk (s.InUse cfg.idle) k.sched) (hq : k.wq = s.kern.wq) (e : Ev T E) :
    Enrolled cfg J ⟨fxEventInternalSet k e, s.obj, s.pc, s.base⟩ := by
  refine h.stay (hk.eventSet fun b hb => ?_) h.obj
  rw [hq] at hb
  exact (hw.queuedInUse hb).1

/-- **Terminating a thread**, unless it is unlinked. -/
theorem Enrolled.terminate (hO : W.Orderly J spares) (h : Enrolled cfg J s) (hw : WellFormed W s)
    (ht : s.Live t) (hsp : s.kern.isTerminating t = true ∨ s.InUse cfg.idle t ∨
      (s.kern.sched.item t).suspendCount ≠ 0) :
    Enrolled cfg J ⟨fxThreadTerminate s.kern t, s.obj, update s.pc t .gone, s.base⟩ := by
  unfold fxThreadTerminate
  split
  · rename_i hterm
    rw [Function.update_eq_self_iff.mpr (hw.term t hterm).symm]
    exact h
  · rename_i hterm
    have hlinked := hsp.resolve_left hterm
    -- cancelled the timer and the wait, the thread leaves the container
    have hcancel : KernOk (fxTimerCancel
        { s.kern with isTerminating := update s.kern.isTerminating t true } t)
        (s.phases W) := hw.phases.same fun u => sched_view rfl rfl rfl rfl rfl
    obtain ⟨hawake, _⟩ := rollback_awake hcancel (phases_ne s t)
    obtain ⟨_, _, hsched, hsub⟩ := rollback_ev (fxTimerCancel
      { s.kern with isTerminating := update s.kern.isTerminating t true } t) t
    have hout : SchedOk (fun u => s.InUse cfg.idle u ∧ u ≠ t) (fxThreadExitSync (fxSyncWaitRollback
        (fxTimerCancel { s.kern with isTerminating := update s.kern.isTerminating t true } t) t).2
        t).sched := by
      show SchedOk _ (fxSchedItemRemove (fxSyncWaitRollback _ t).2.sched t)
      rw [hsched]
      exact h.sched.itemRemoved hlinked fun _ => Iff.rfl
    refine h.died hO ht (hout.eventSet fun b hb => ?_)
    exact ⟨(hw.queuedInUse ((hsub _).mem hb)).1, hawake.ne_of_mem hb⟩

/-- **One step** that spares what was unlinked. -/
theorem Enrolled.step (hO : W.Orderly J spares) (hN : cfg.prioNum ≤ 1024) (h : Enrolled cfg J s)
    (hw : WellFormed W s) (hsp : SparesDead cfg spares s a)
    (hs : FxRtos.step cfg W a s = some s') : Enrolled cfg J s' := by
  cases a with
  | init t prio susp =>
    obtain ⟨⟨hnew, hidle, hprio, _, _⟩, rfl⟩ := taken hs
    have hdead : ¬ s.InUse cfg.idle t := fun hu => by
      rcases hu with e | ⟨hpc, _⟩
      · exact hidle e
      · refine hnew ?_
        unfold Sys.Created
        split
        · exact hpc ‹_›
        · trivial
    have hinit : SchedOk (fun u => s.InUse cfg.idle u ∨ u = t)
        (fxSchedItemInit s.kern.sched t prio) :=
      h.sched.itemInit (h.sched.dead t hdead) (by omega) fun _ => Iff.rfl
    refine h.move hO hidle ⟨(fun e => by cases e), fun e => by cases e⟩ ?_ h.obj
    unfold fxThreadInitEx
    split
    · exact hinit
    · exact hinit.itemResume (Or.inr rfl)
  | call t c =>
    obtain ⟨hf, rfl⟩ := taken hs
    cases W.start s.kern s.obj t c with
    | none => exact h
    | some c' =>
      exact h.go hO hf.inUse (h.ne_idle hf.live) ⟨(fun e => by cases e), fun e => by cases e⟩
        h.sched h.obj
  | go t =>
    cases hpc : s.pc t with
    | inCall stage c =>
      simp only [FxRtos.step, hpc] at hs
      obtain ⟨_, rfl⟩ := taken hs
      exact h.advance hO hw hpc
    | absent => simp [FxRtos.step, hpc] at hs
    | idle => simp [FxRtos.step, hpc] at hs
    | gone => simp [FxRtos.step, hpc] at hs
  | op p =>
    obtain ⟨hcaller, hs⟩ := Option.ite_none_right_eq_some.mp hs
    obtain ⟨ko, ho, rfl⟩ := Option.map_eq_some_iff.mp hs
    have htended := hO.op (h.tended hw) (fun t ht => (hcaller t ht).inUse) hsp ho
    exact h.stay htended.sched htended.obj
  | expire t =>
    obtain ⟨_, rfl⟩ := taken hs
    exact h.eventSet hw (k := fxTimerCancel s.kern t) h.sched rfl _
  | evSet e =>
    cases hs
    exact h.eventSet hw h.sched rfl _
  | evReset e =>
    cases hs
    exact h.stay h.sched h.obj
  | evDeinit e =>
    cases hs
    have hvalid : SchedOk (s.InUse cfg.idle)
        ({ s.kern with valid := update s.kern.valid e false } : Kern T E Q A).sched :=
      h.sched
    exact h.stay (hvalid.notifyAll (fun b hb => (hw.queuedInUse hb).1) .deleted) h.obj
  | terminate t =>
    obtain ⟨hc, rfl⟩ := taken hs
    exact h.terminate hO hw hc.ne hsp
  | exit t =>
    obtain ⟨hf, rfl⟩ := taken hs
    exact h.died hO hf.live (h.sched.itemRemove hf.inUse fun _ => Iff.rfl)
  | suspend t =>
    obtain ⟨hf, rfl⟩ := taken hs
    exact h.stay (h.sched.itemSuspend hf.inUse) h.obj
  | resume t =>
    obtain ⟨hc, rfl⟩ := taken hs
    refine h.stay ?_ h.obj
    unfold fxThreadResume
    split
    · rename_i hstate
      refine h.sched.itemResume (by_contra fun hdead => ?_)
      have hgone := (hw.unused hc.ne hdead).2
      rw [hstate] at hgone
      cases hgone
    · exact h.sched
  | yield t =>
    obtain ⟨hf, rfl⟩ := taken hs
    exact h.stay (h.sched.yield hf.inUse) h.obj
  | setPrio t prio =>
    obtain ⟨hc, rfl⟩ := taken hs
    refine h.stay ?_ h.obj
    unfold fxThreadSetParamsPrio
    split
    · rename_i hprio
      exact h.sched.itemSetParams (hsp hprio) (by omega)
    · exact h.sched
  | dispatch =>
    cases hs
    have hnext : SchedOk (s.InUse cfg.idle)
        ({ s.kern with sched := (fxSchedGetNext s.kern.sched).2 } : Kern T E Q A).sched :=
      h.sched.getNext
    unfold fxDispatchHandler
    dsimp only
    repeat' split
    · exact h.eventSet hw hnext rfl _
    · exact h.stay hnext h.obj
    · exact h.stay hnext h.obj

/-- A thread that was not created, like the idle thread, is left alone by every step. -/
theorem absent_spared (hW : W.Lawful) (hw : WellFormed W s) (hpc : s.pc t = .absent)
    (hidle : t = cfg.idle) (hs : FxRtos.step cfg W a s = some s') :
    SameView t s.kern s'.kern := by
  have hawake : Awake s.kern t := by
    have hp := hw.kern t
    simp only [hpc, Pc.phase] at hp
    exact hp.1
  by_cases hc : a.concerns t
  · cases a with
    | init u prio susp =>
      obtain ⟨⟨_, hne, _⟩, _⟩ := taken hs
      exact absurd (Eq.trans hc hidle) hne
    | go u =>
      obtain rfl : u = t := hc
      simp [FxRtos.step, hpc] at hs
    | terminate u =>
      obtain rfl : u = t := hc
      exact absurd hpc (taken hs).1.ne
    | exit u =>
      obtain rfl : u = t := hc
      exact absurd hpc (taken hs).1.live
    | suspend u =>
      obtain rfl : u = t := hc
      exact absurd hpc (taken hs).1.live
    | resume u =>
      obtain rfl : u = t := hc
      exact absurd hpc (taken hs).1.ne
    | _ => exact hc.elim
  · by_cases hx : a.touches s (.timer t)
    · -- its timer expires, and nobody waits for that
      obtain rfl := (Act.touches_timer hx).resolve_left hc
      obtain ⟨_, rfl⟩ := taken hs
      obtain ⟨k1, hm, hk1⟩ := eventSet_moves (fxTimerCancel s.kern t) (.timer t)
      have hsame : SameView t s.kern k1 := by
        rcases hk1 with rfl | rfl
        · exact sched_view rfl rfl rfl rfl rfl
        · exact sched_view rfl rfl rfl rfl rfl
      exact hsame.trans (hm.spare (hawake.view hsame))
    · exact (elsewhere_step hW hw hc hx hs).spare hawake

/-! ## 5. Every run -/

/-- What holds in every state of a run: the idle thread is always ready. -/
structure OnRoll (cfg : Config T) (J : (T → Prop) → O → Prop) (s : Sys T E Q A O C) : Prop
    extends Enrolled cfg J s where
  idleState : s.kern.state cfg.idle = .ready
  idleCount : (s.kern.sched.item cfg.idle).suspendCount = 0

theorem boot_onRoll (hO : W.Orderly J spares) (hN : cfg.prioNum ≤ 1024) {o : O}
    (ho : J (fun _ => False) o) : OnRoll cfg J (boot cfg o : Sys T E Q A O C) := by
  have h0 : SchedOk (fun _ => False) (fxSchedCtor cfg.idle) :=
    ⟨mpqInv_init, rfl, fun _ hx => hx.elim, fun _ _ => rfl, fun _ hx => hx.elim⟩
  have h1 : SchedOk (fun u => u = cfg.idle)
      (fxSchedItemInitIdle (fxSchedCtor cfg.idle) cfg.idle (cfg.prioNum - 1)) :=
    (h0.itemInit rfl (by omega) fun u => ⟨Or.inr, fun hu => hu.resolve_left id⟩).congr rfl rfl
  have huse : (fun u => u = cfg.idle) =
      Sys.InUse cfg.idle (boot cfg o : Sys T E Q A O C) := by
    funext u
    exact propext (or_iff_left fun hn => hn.1 rfl).symm
  refine ⟨⟨huse ▸ h1.itemResume rfl, hO.mono ho fun _ hu => hu.elim, rfl⟩, rfl, ?_⟩
  show ((fxSchedItemResume _ cfg.idle).item cfg.idle).suspendCount = 0
  rw [fxSchedItemResume_item, Function.update_self]
  simp [fxSchedItemInitIdle, fxSchedItemInit]

theorem OnRoll.step (hW : W.Lawful) (hO : W.Orderly J spares) (hN : cfg.prioNum ≤ 1024)
    (h : OnRoll cfg J s) (hw : WellFormed W s) (hsp : SparesDead cfg spares s a)
    (hs : FxRtos.step cfg W a s = some s') : OnRoll cfg J s' := by
  have hview := absent_spared hW hw h.idle rfl hs
  exact ⟨h.toEnrolled.step hO hN hw hsp hs, hview.state.trans h.idleState,
    hview.count.trans h.idleCount⟩

theorem awake_ready {k : Kern T E Q A}
    (hp : PhaseOk k t (.awake : Phase T E (Q))) :
    (k.sched.item t).suspendCount = 0 ↔ k.state t = .ready := by
  obtain ⟨hr, hc⟩ | ⟨hr, hc⟩ := hp.2.2
  · exact iff_of_true hc hr
  · simp [hr, hc]

/-- In the container exactly when ready. -/
theorem OnRoll.queue_iff (h : OnRoll cfg J s) (hw : WellFormed W s) (ht : t = cfg.idle ∨ s.Live t)
    {p : Nat} :
    t ∈ s.kern.sched.gDomain.priorityQueues p ↔
      s.kern.state t = .ready ∧ (s.kern.sched.item t).prio = p := by
  rw [h.sched.mpq.mem_iff, h.sched.link_iff]
  have hready : s.InUse cfg.idle t ∧ (s.kern.sched.item t).suspendCount = 0 ↔
      s.kern.state t = .ready := by
    rcases ht with rfl | ht
    · exact iff_of_true ⟨Or.inl rfl, h.idleCount⟩ h.idleState
    · have huse : s.pc t ≠ .gone → s.InUse cfg.idle t := fun hn => Or.inr ⟨ht, hn⟩
      have hp := hw.kern t
      cases hpc : s.pc t with
      | absent => exact absurd hpc ht
      | idle =>
        simp only [hpc, Pc.phase] at hp
        exact (and_iff_right (huse (by simp [hpc]))).trans (awake_ready hp)
      | inCall stage c =>
        refine (and_iff_right (huse (by simp [hpc]))).trans ?_
        simp only [hpc] at hp
        cases stage with
        | asleep ab =>
          obtain ⟨n, hn⟩ := hp
          rw [hn.count, hn.state]
          split <;> simp
        | _ => exact awake_ready hp
      | gone =>
        simp only [hpc, Pc.phase] at hp
        refine iff_of_false (fun hu => ?_) (by simp [hp.2.2])
        rcases hu.1 with e | ⟨_, hg⟩
        · exact ht (e ▸ h.idle)
        · exact hg hpc
  rw [← and_assoc, hready]

end Lauf

end FxRtos
