/-
  File:      FxRtos/Kernel/Join.lean
  Subject:   JOIN AND COMPLETION (fx_thread_api.c, fx_thread_sys.c, LIMITED APC): threads that wait
             for objects and for each other's end, sleep, suspend themselves, end by themselves
             or are terminated by anybody, at any point of what they do.

  * `fxThreadJoin` -- an object, with the waits of `fx_thread_join` and `fx_thread_sleep` added.
  * `joinStep` -- only the thread that the dispatcher switched to last runs. A sleep is the wait
    for the thread's timer event with the timer armed before and cancelled after it.
  * `Completions` -- a thread that ended has its completion event set, or is the current one and
    about to be switched away from; the event of no other thread is set.
  * `Joins` -- a joiner whose block was notified, or whose call returns OK, waits for such a thread.
  * `join_completed` -- so nothing of a thread that was joined is linked anywhere, and no joiner
    stays queued behind a completion that is set.
-/
import FxRtos.Kernel.Granted
import FxRtos.Kernel.Grants
import FxRtos.Kernel.InUse
import FxRtos.Objects.SemAccount
import FxRtos.Sched.Boost

namespace FxRtos

open Function (update)
open Lib

set_option linter.unusedSectionVars false

/-! ## 1. The calls -/

/-- The waits of a thread: for the end of another one, for its own timer, and for an object. -/
inductive JoinCall (T C : Type) where
  | join (thread : T)
  | sleep (me : T)
  | obj (c : C)
  deriving DecidableEq

section Aufrufe

variable {T E Q A O C P : Type} [DecidableEq T] [DecidableEq E] [DecidableEq Q]

/-- The test function of an event that belongs to a thread. -/
def threadEventTest (e : Ev T E) (me : T) (wait : Bool) (s : Kern T E Q A × O) :
    Bool × Kern T E Q A × O :=
  ((fxEventTestAndWait s.1 e (me, .main) wait).1,
    (fxEventTestAndWait s.1 e (me, .main) wait).2, s.2)

def JoinCall.waitable (W : WaitObject T E Q A O C P) : JoinCall T C → Wtbl T E Q
  | .join thread => .ev (.completion thread)
  | .sleep me => .ev (.timer me)
  | .obj c => W.waitable c

def JoinCall.attr (W : WaitObject T E Q A O C P) : JoinCall T C → Option A
  | .obj c => W.attr c
  | _ => none

/-- `fx_thread_join` and `fx_thread_sleep` wait without an abort event. -/
def JoinCall.args (W : WaitObject T E Q A O C P) : JoinCall T C → WaitArgs E
  | .obj c => W.args c
  | _ => .event none

/-- `FX_THREAD_JOIN_SELF` is returned at once. -/
def JoinCall.start (W : WaitObject T E Q A O C P) (k : Kern T E Q A) (o : O) (me : T) :
    JoinCall T C → Option (JoinCall T C)
  | .join thread => if me = thread then none else some (.join thread)
  | .sleep t => if t = me then some (.sleep t) else none
  | .obj c => (W.start k o me c).map .obj

def JoinCall.testWait (W : WaitObject T E Q A O C P) (me : T) :
    JoinCall T C → Bool → Kern T E Q A × O → Bool × Kern T E Q A × O
  | .join thread => threadEventTest (.completion thread) me
  | .sleep t => threadEventTest (.timer t) me
  | .obj c => W.testWait me c

def JoinCall.after (W : WaitObject T E Q A O C P) (me : T) (r : ThreadStatus)
    (s : Kern T E Q A × O) : JoinCall T C → Option (JoinCall T C) × Kern T E Q A × O
  | .obj c => ((W.after me c r s).1.map .obj, (W.after me c r s).2)
  | _ => (none, s)

def fxThreadJoin (W : WaitObject T E Q A O C P) :
    WaitObject T E Q A O (JoinCall T C) P where
  start k o me c := c.start W k o me
  waitable c := c.waitable W
  attr c := c.attr W
  args c := c.args W
  testWait me c := c.testWait W me
  after me c r s := c.after W me r s
  caller := W.caller
  op := W.op

theorem threadEventTest_snd (e : Ev T E) (me : T) (wait : Bool) (s : Kern T E Q A × O) :
    (threadEventTest e me wait s).2 =
      if s.1.ev e = false ∧ wait = true then (fxSyncWaitStart s.1 (.ev e) (me, .main), s.2)
      else s := by
  unfold threadEventTest fxEventTestAndWait
  dsimp only
  split <;> rfl

variable {W : WaitObject T E Q A O C P}

theorem fxThreadJoin_lawful (hW : W.Lawful) : (fxThreadJoin W).Lawful where
  testTrue t c wait s s' ha h := by
    have hev : ∀ e, threadEventTest e t wait s = (true, s') → Moves IsObj (· = t) s.1 s'.1 := by
      intro e h
      obtain ⟨h1, h2⟩ := Prod.mk.inj h
      have hset : s.1.ev e = true := h1
      have hsame := threadEventTest_snd e t wait s
      rw [hset, if_neg (by simp)] at hsame
      rw [← h2, show (_, _) = s from hsame]
      exact .refl
    cases c with
    | join u => exact hev _ h
    | sleep u => exact hev _ h
    | obj c => exact hW.testTrue t c wait s s' ha h
  testPoll t c s s' ha h := by
    have hev : ∀ e, threadEventTest e t false s = (false, s') → Moves IsObj (· = t) s.1 s'.1 := by
      intro e h
      obtain ⟨_, h2⟩ := Prod.mk.inj h
      have hsame := threadEventTest_snd e t false s
      rw [if_neg (by simp)] at hsame
      rw [← h2, show (_, _) = s from hsame]
      exact .refl
    cases c with
    | join u => exact hev _ h
    | sleep u => exact hev _ h
    | obj c => exact hW.testPoll t c s s' ha h
  testWait t c s s' ha h := by
    have hev : ∀ e, threadEventTest e t true s = (false, s') →
        (∀ e', (.ev e : Wtbl T E Q) = .ev e' → s.1.ev e' = false) ∧
          Moves IsObj (· = t) (fxSyncWaitStart s.1 (.ev e) (t, .main)) s'.1 := by
      intro e h
      obtain ⟨h1, h2⟩ := Prod.mk.inj h
      have hclear : s.1.ev e = false := h1
      have hqueued := threadEventTest_snd e t true s
      rw [if_pos ⟨hclear, rfl⟩] at hqueued
      rw [← h2, show (_, _) = (fxSyncWaitStart s.1 (.ev e) (t, .main), s.2) from hqueued]
      exact ⟨fun e' he => Wtbl.ev.inj he ▸ hclear, .refl⟩
    cases c with
    | join u => exact hev _ h
    | sleep u => exact hev _ h
    | obj c => exact hW.testWait t c s s' ha h
  after t c r s := by
    cases c with
    | obj c => exact hW.after t c r s
    | _ => exact .refl
  op := hW.op

theorem fxThreadJoin_orderly {J : (T → Prop) → O → Prop}
    {spares : (T → Prop) → P → Kern T E Q A × O → Prop} (hO : W.Orderly J spares) :
    (fxThreadJoin W).Orderly J spares where
  mono := hO.mono
  test {live made s t} c wait ha h hl hm := by
    have hev : ∀ e, Tended J live made (threadEventTest e t wait s).2 := fun e => by
      rw [threadEventTest_snd]
      split
      · exact h.waitStart hl hm .main _
      · exact h
    cases c with
    | join u => exact hev _
    | sleep u => exact hev _
    | obj c => exact hO.test c wait ha h hl hm
  after c r h hl hm := by
    cases c with
    | obj c => exact hO.after c r h hl hm
    | _ => exact h
  op := hO.op

theorem Wakes.tended {ex : T → Prop} {k k' : Kern T E Q A} {l : List T} {o : O}
    {live made : T → Prop} (hm : Wakes ex k l k')
    (h : Tended (fun _ (_ : O) => True) live made (k, o)) (o' : O) :
    Tended (fun _ (_ : O) => True) live made (k', o') := by
  induction hm with
  | refl => exact ⟨h.sched, h.queued, trivial⟩
  | wake _ hb _ ih => exact ih.notify hb _
  | drop _ hb _ ih => exact ih.notify hb _

/-- Objects that only wake up those who wait for them: semaphores, message queues, barriers and
    block pools. -/
theorem WaitObject.Plain.orderly {wk : Wakers T E Q A O C P} (hp : W.Plain wk) :
    W.Orderly (fun _ _ => True) (fun _ _ _ => True) where
  mono _ _ := trivial
  test {live made s t} c wait ha h hl hm := by
    cases htest : (W.testWait t c wait s).1 with
    | true => exact (hp.passed t c wait s ha htest).tended h _
    | false =>
      have hfailed := hp.failed t c wait s htest
      have hqueued := h.waitStart hl hm .main (W.waitable c)
      cases wait with
      | true =>
        rw [if_pos rfl] at hfailed
        exact ⟨hfailed ▸ hqueued.sched, hfailed ▸ hqueued.queued, trivial⟩
      | false =>
        rw [if_neg (by simp)] at hfailed
        exact ⟨hfailed ▸ h.sched, hfailed ▸ h.queued, trivial⟩
  after {live made s t} c r h _ _ := by
    have hafter := (hp.after t c r s).2
    exact ⟨hafter ▸ h.sched, hafter ▸ h.queued, trivial⟩
  op {live made s s' p} h _ _ ho := (hp.op p s s' ho).tended h s'.2

end Aufrufe

/-! ## 2. The system -/

/-- How far `fx_thread_sleep` has come: the event is reset, the timer armed unless the sleep is
    infinite, the event waited for and the timer cancelled. `fx_thread_delay_until` is the same. -/
inductive Nap where
  | out
  | reset (timed : Bool)
  | arm
  | wait
  | asleep
  | cancel
  deriving DecidableEq

structure JoinSys (T E Q A O C : Type) where
  sys : Sys T E Q A O (JoinCall T C)
  nap : T → Nap

/-- `nap` is the next critical section of a sleep outside of its wait. -/
inductive JoinAct (T E C P : Type) where
  | kernel (a : Act T E (JoinCall T C) P)
  | sleep (t : T) (timed : Bool)
  | nap (t : T)

def Pc.isIdle {T E C : Type} : Pc T E C → Bool
  | .idle => true
  | _ => false

section Maschine

variable {T E Q A O C P : Type} [DecidableEq T] [DecidableEq E] [DecidableEq Q]
  (cfg : Config T) (W : WaitObject T E Q A O C P)

/-- The dispatcher's current thread: the one it switched to last. -/
def JoinSys.current (s : JoinSys T E Q A O C) : T := s.sys.kern.sched.active

/-- A thread calls a function: it is the current one, and not in a sleep. -/
def JoinSys.Calls (s : JoinSys T E Q A O C) (t : T) : Prop :=
  s.current = t ∧ s.nap t = .out

/-- `fx_thread_join` rejects what is no thread, before it does anything. -/
def JoinSys.Accepts (s : JoinSys T E Q A O C) : JoinCall T C → Prop
  | .join thread => s.sys.Created thread
  | .sleep _ => False
  | .obj _ => True

/-- What a thread does itself, it does as the current one. -/
def JoinSys.May (s : JoinSys T E Q A O C) : Act T E (JoinCall T C) P → Prop
  | .call t c => s.Calls t ∧ s.Accepts c
  | .go t => s.current = t ∧ (s.nap t = .out ∨ s.nap t = .asleep)
  | .op p => ∀ t ∈ W.caller p, s.Calls t
  | .exit t => s.Calls t
  | .suspend t => s.Calls t
  | .yield t => s.Calls t
  | _ => True

instance (s : JoinSys T E Q A O C) (c : JoinCall T C) : Decidable (s.Accepts c) :=
  match c with
  | .join thread => inferInstanceAs (Decidable (s.sys.Created thread))
  | .sleep _ => .isFalse id
  | .obj _ => .isTrue trivial

instance (s : JoinSys T E Q A O C) (t : T) : Decidable (s.Calls t) :=
  inferInstanceAs (Decidable (_ ∧ _))

instance (s : JoinSys T E Q A O C) (a : Act T E (JoinCall T C) P) : Decidable (s.May W a) :=
  match a with
  | .call t c => inferInstanceAs (Decidable (s.Calls t ∧ s.Accepts c))
  | .go t => inferInstanceAs (Decidable (s.current = t ∧ (s.nap t = .out ∨ s.nap t = .asleep)))
  | .op p => inferInstanceAs (Decidable (∀ t ∈ W.caller p, s.Calls t))
  | .exit t | .suspend t | .yield t => inferInstanceAs (Decidable (s.Calls t))
  | .init _ _ _ | .expire _ | .evSet _ | .evReset _ | .evDeinit _ | .terminate _ | .resume _
  | .setPrio _ _ | .dispatch => .isTrue trivial

/-- After the wait of a sleep its timer is cancelled. -/
def JoinSys.napAfter (s : JoinSys T E Q A O C) (sys : Sys T E Q A O (JoinCall T C)) :
    Act T E (JoinCall T C) P → T → Nap
  | .go t => if s.nap t = .asleep ∧ (sys.pc t).isIdle then update s.nap t .cancel else s.nap
  | _ => s.nap

/-- The sections of a sleep. -/
def JoinSys.napStep (s : JoinSys T E Q A O C) (t : T) : Nap → Option (JoinSys T E Q A O C)
  | .reset timed =>
    some ⟨{ s.sys with kern := fxEventInternalReset s.sys.kern (.timer t) },
      update s.nap t (if timed then .arm else .wait)⟩
  | .arm => some ⟨{ s.sys with kern := fxTimerSet s.sys.kern t }, update s.nap t .wait⟩
  | .wait => (step cfg (fxThreadJoin W) (.call t (.sleep t)) s.sys).map
      fun sys => ⟨sys, update s.nap t .asleep⟩
  | .cancel => some ⟨{ s.sys with kern := fxTimerCancel s.sys.kern t }, update s.nap t .out⟩
  | _ => none

def joinStep : JoinAct T E C P → JoinSys T E Q A O C → Option (JoinSys T E Q A O C)
  | .kernel a, s =>
    if s.May W a then
      (step cfg (fxThreadJoin W) a s.sys).map fun sys => ⟨sys, s.napAfter sys a⟩
    else none
  | .sleep t timed, s =>
    if s.Calls t ∧ s.sys.Free t then some { s with nap := update s.nap t (.reset timed) }
    else none
  | .nap t, s =>
    if s.current = t ∧ s.sys.Free t then s.napStep cfg W t (s.nap t) else none

/-- No thread is terminated, nor its priority set, once it has completed. -/
def JoinKeeps (spares : (T → Prop) → P → Kern T E Q A × O → Prop) (s : JoinSys T E Q A O C) :
    JoinAct T E C P → Prop
  | .kernel (.terminate t) => s.sys.kern.state t ≠ .completed
  | .kernel (.setPrio t _) => s.sys.kern.state t ≠ .completed
  | .kernel (.op p) => spares (s.sys.InUse cfg.idle) p (s.sys.kern, s.sys.obj)
  | _ => True

def joinBoot (o : O) : JoinSys T E Q A O C := ⟨boot cfg o, fun _ => .out⟩

end Maschine

/-! ## 3. Changes of the kernel -/

section Vorwaerts

variable {T E Q A O C P : Type} [DecidableEq T] [DecidableEq E] [DecidableEq Q]
  {k k' : Kern T E Q A} {t : T} {ws : Wtbl T E Q → Prop} {ex : T → Prop}
  {W : WaitObject T E Q A O C P}

/-- Nothing is dispatched, no thread completes, and no timer is armed. -/
structure Onward (k k' : Kern T E Q A) : Prop where
  active : k'.sched.active = k.sched.active
  pending : k.sched.reschedPending = true → k'.sched.reschedPending = true
  completion : ∀ t, k'.ev (.completion t) = k.ev (.completion t)
  timer : ∀ t, k'.timer t = true → k.timer t = true

theorem Onward.refl (k : Kern T E Q A) : Onward k k := ⟨rfl, id, fun _ => rfl, fun _ => id⟩

theorem Onward.trans {k'' : Kern T E Q A} (h1 : Onward k k') (h2 : Onward k' k'') :
    Onward k k'' :=
  ⟨h2.active.trans h1.active, fun hp => h2.pending (h1.pending hp),
    fun t => (h2.completion t).trans (h1.completion t), fun t ht => h1.timer t (h2.timer t ht)⟩

/-- The scheduler changed in one of its operations, and nothing else that counts here. -/
theorem Onward.sched (hact : k'.sched.active = k.sched.active)
    (hask : k'.sched.reschedPending = false → k.sched.reschedPending = false)
    (hev : k'.ev = k.ev) (htimer : k'.timer = k.timer) : Onward k k' := by
  refine ⟨hact, fun hp => ?_, fun t => by rw [hev], fun t ht => by rwa [htimer] at ht⟩
  by_contra hn
  rw [hask (Bool.not_eq_true _ ▸ hn)] at hp
  cases hp

theorem Onward.notify (k : Kern T E Q A) (r : WaitStatus) (b : Blk T) :
    Onward k (fxSyncWaitNotify k r b) := by
  refine .sched ?_ (fun h => ?_) rfl rfl
  · rw [fxSyncWaitNotify_sched]
    exact fxSchedItemResume_active ..
  · rw [fxSyncWaitNotify_sched] at h
    exact fxSchedItemResume_unasked h

theorem Onward.setPrio (k : Kern T E Q A) (t : T) (p : Nat) : Onward k (k.setPrio t p) :=
  .sched (fxSchedItemSetParams_active ..) fxSchedItemSetParams_unasked rfl rfl

/-- What objects do. -/
theorem Moves.onward (h : Moves ws ex k k') : Onward k k' := by
  induction h with
  | refl => exact .refl k
  | notify _ _ _ _ _ ih => exact ih.trans (.notify _ _ _)
  | setPrio _ t p ih => exact ih.trans (.setPrio _ t p)

theorem Onward.eventSet (k : Kern T E Q A) {e : Ev T E} (he : ∀ t, e ≠ .completion t) :
    Onward k (fxEventInternalSet k e) := by
  obtain ⟨k1, hm, hk1⟩ := eventSet_moves k e
  have hset : Onward k { k with ev := update k.ev e true } :=
    ⟨rfl, id, fun t => Function.update_of_ne (Ne.symm (he t)) .., fun _ => id⟩
  rcases hk1 with rfl | rfl
  · exact hm.onward
  · exact hset.trans hm.onward

theorem rollback_timer (k : Kern T E Q A) (t : T) : (fxSyncWaitRollback k t).2.timer = k.timer := by
  have hone : ∀ (k : Kern T E Q A) (b : Blk T), (fxSyncWaitRollbackOne k b).timer = k.timer := by
    intro k b
    unfold fxSyncWaitRollbackOne
    split <;> rfl
  have hloop : ∀ (slots : List Slot) (k : Kern T E Q A),
      (slots.foldl (fun k slot => fxSyncWaitRollbackOne k (t, slot)) k).timer = k.timer := by
    intro slots
    induction slots with
    | nil => exact fun _ => rfl
    | cons slot slots ih => exact fun k => (ih _).trans (hone k _)
  exact hloop _ { k with wbNum := update k.wbNum t 0 }

theorem Onward.rollback (k : Kern T E Q A) (t : T) : Onward k (fxSyncWaitRollback k t).2 := by
  obtain ⟨hev, _, hsched, _⟩ := rollback_ev k t
  exact .sched (by rw [hsched]) (fun h => by rwa [hsched] at h) hev (rollback_timer k t)

theorem Onward.timerCancel (k : Kern T E Q A) (t : T) : Onward k (fxTimerCancel k t) := by
  refine ⟨rfl, id, fun _ => rfl, fun u hu => ?_⟩
  by_cases hut : u = t
  · rw [hut, show (fxTimerCancel k t).timer t = false from Function.update_self ..] at hu
    cases hu
  · rwa [show (fxTimerCancel k t).timer u = k.timer u from Function.update_of_ne hut ..] at hu

theorem Onward.eventReset (k : Kern T E Q A) {e : Ev T E} (he : ∀ t, e ≠ .completion t) :
    Onward k (fxEventInternalReset k e) :=
  ⟨rfl, id, fun t => Function.update_of_ne (Ne.symm (he t)) .., fun _ => id⟩

/-- A thread leaves the processor for a wait. -/
theorem Onward.sleepOn (k : Kern T E Q A) (t : T) : Onward k (fxThreadSleepOn k t) :=
  .sched (fxSchedItemSuspend_active ..) (fun h => (fxSchedItemSuspend_unasked h).1) rfl rfl

theorem Entered.onward {ab : Option (Ev T E)} {p : Bool × Kern T E Q A × O}
    {r : Option ThreadStatus} (h : Entered t ab p r k') : Onward p.2.1 k' := by
  cases h with
  | passed _ => exact .rollback _ t
  | cancelled _ e _ _ => exact .rollback _ t
  | alone _ _ => exact .sleepOn _ t
  | both _ e _ _ =>
    have hqueued : Onward p.2.1 (fxSyncWaitStart p.2.1 (.ev e) (t, .abort)) :=
      .sched rfl id rfl rfl
    exact hqueued.trans (.sleepOn _ t)

/-- The test of an object. -/
theorem WaitObject.Lawful.test_onward (hW : W.Lawful) (c : C) {s : Kern T E Q A × O} (wait : Bool)
    (ha : Awake s.1 t) : Onward s.1 (W.testWait t c wait s).2.1 := by
  cases hp : W.testWait t c wait s with
  | mk r ko =>
    cases r with
    | true => exact (hW.testTrue t c wait s ko ha hp).onward
    | false =>
      cases wait with
      | true =>
        obtain ⟨_, hm⟩ := hW.testWait t c s ko ha hp
        have hqueued : Onward s.1 (fxSyncWaitStart s.1 (W.waitable c) (t, .main)) :=
          .sched rfl id rfl rfl
        exact hqueued.trans hm.onward
      | false => exact (hW.testPoll t c s ko ha hp).onward

end Vorwaerts

section Schritte

variable {T E Q A O C P : Type} [DecidableEq T] [DecidableEq E] [DecidableEq Q]
  {cfg : Config T} {W : WaitObject T E Q A O C P} {s s' : Sys T E Q A O C} {t : T}
  {stage : Stage T E} {c : C}

/-- A critical section of a call, arming the timer apart. -/
theorem advance_onward (hW : W.Lawful) (h : WellFormed W s) (hpc : s.pc t = .inCall stage c)
    (harm : stage ≠ .arm) : Onward s.kern (advance cfg W t c s stage).kern := by
  have hphase : PhaseOk s.kern t ((Pc.inCall stage c).phase W) := hpc ▸ h.kern t
  cases stage with
  | reset => exact .eventReset s.kern fun u he => by cases he
  | arm => exact absurd rfl harm
  | enter ab =>
    have hprep := prepared hphase.1 (W.attr c)
    have hprepared : Onward s.kern (fxSyncWaiterPrepare s.kern t (W.attr c)) :=
      .sched rfl id rfl rfl
    have htest := hW.test_onward c (s := (fxSyncWaiterPrepare s.kern t (W.attr c), s.obj)) true
      hprep.awake
    rw [advance_enter]
    exact (hprepared.trans htest).trans
      (entered (W.testWait t c) t (W.attr c) ab (s.kern, s.obj)).1.onward
  | poll =>
    have hawake : s.phases W t = .awake := by
      unfold Sys.phases
      rw [hpc]
      rfl
    obtain ⟨_, ha, _⟩ := blockInit_kernOk h.phases hawake (W.attr c)
    have hinit : Onward s.kern (fxSyncWaitBlockInit s.kern t (W.attr c)) := .sched rfl id rfl rfl
    exact hinit.trans
      (hW.test_onward (s := (fxSyncWaitBlockInit s.kern t (W.attr c), s.obj)) c false ha)
  | asleep ab => exact .rollback s.kern t
  | disarm r => exact .timerCancel s.kern t
  | ret r =>
    rw [advance_ret]
    exact (hW.after t c r (s.kern, s.obj)).onward

/-- The thread is at another point of its code. -/
theorem advance_pc (cfg : Config T) (W : WaitObject T E Q A O C P) (t : T) (c : C)
    (s : Sys T E Q A O C) (stage : Stage T E) :
    ∃ p, (advance cfg W t c s stage).pc = update s.pc t p ∧ p ≠ .absent ∧ p ≠ .gone := by
  have hin : ∀ (st : Stage T E) (c : C),
      (Pc.inCall st c : Pc T E C) ≠ .absent ∧ Pc.inCall st c ≠ .gone :=
    fun _ _ => ⟨(fun e => by cases e), fun e => by cases e⟩
  cases stage with
  | reset => exact ⟨_, rfl, hin _ _⟩
  | arm => exact ⟨_, rfl, hin _ _⟩
  | enter ab =>
    rw [advance_enter]
    exact ⟨_, rfl, hin _ _⟩
  | poll => exact ⟨_, rfl, hin _ _⟩
  | asleep ab => exact ⟨_, rfl, hin _ _⟩
  | disarm r => exact ⟨_, rfl, hin _ _⟩
  | ret r =>
    rw [advance_ret]
    refine ⟨_, rfl, ?_⟩
    cases (W.after t c r (s.kern, s.obj)).1 with
    | none => exact ⟨(fun e => by cases e), fun e => by cases e⟩
    | some c' => exact hin _ _

/-- The threads that were not created, and those that ended, are the same. -/
def SameEnds (s s' : Sys T E Q A O C) : Prop :=
  ∀ u, (s'.pc u = .gone ↔ s.pc u = .gone) ∧ (s'.pc u = .absent ↔ s.pc u = .absent)

theorem SameEnds.of_pc (h : s'.pc = s.pc) : SameEnds s s' := fun u => by
  rw [h]
  exact ⟨Iff.rfl, Iff.rfl⟩

theorem SameEnds.update (ht : s.pc t ≠ .absent ∧ s.pc t ≠ .gone) {p : Pc T E C}
    (hp : p ≠ .absent ∧ p ≠ .gone) (h : s'.pc = Function.update s.pc t p) : SameEnds s s' := by
  intro u
  rw [h]
  by_cases hu : u = t
  · subst hu
    rw [Function.update_self]
    exact ⟨iff_of_false hp.2 ht.2, iff_of_false hp.1 ht.1⟩
  · rw [Function.update_of_ne hu]
    exact ⟨Iff.rfl, Iff.rfl⟩

/-- The steps in which a thread starts or ends, a timer is armed, or the dispatcher runs. -/
def Act.Turns (s : Sys T E Q A O C) : Act T E C P → Prop
  | .init _ _ _ => True
  | .go t => ∃ c, s.pc t = .inCall .arm c
  | .terminate _ => True
  | .exit _ => True
  | .dispatch => True
  | _ => False

/-- **The other steps.** -/
theorem step_onward (hW : W.Lawful) (h : WellFormed W s) {a : Act T E C P} (ha : ¬ a.Turns s)
    (hs : step cfg W a s = some s') : Onward s.kern s'.kern ∧ SameEnds s s' := by
  cases a with
  | call t c =>
    obtain ⟨hf, rfl⟩ := taken hs
    have hlive : s.pc t ≠ .absent ∧ s.pc t ≠ .gone := by
      rw [hf.pc]
      exact ⟨(fun e => by cases e), fun e => by cases e⟩
    cases W.start s.kern s.obj t c with
    | none => exact ⟨.refl _, .of_pc rfl⟩
    | some c' =>
      exact ⟨.refl _, .update hlive ⟨(fun e => by cases e), fun e => by cases e⟩ rfl⟩
  | go t =>
    cases hpc : s.pc t with
    | inCall stage c =>
      simp only [step, hpc] at hs
      obtain ⟨_, rfl⟩ := taken hs
      have hlive : s.pc t ≠ .absent ∧ s.pc t ≠ .gone := by
        rw [hpc]
        exact ⟨(fun e => by cases e), fun e => by cases e⟩
      obtain ⟨p, hp, hne⟩ := advance_pc cfg W t c s stage
      exact ⟨advance_onward hW h hpc fun e => ha ⟨c, e ▸ hpc⟩, .update hlive hne hp⟩
    | absent => simp [step, hpc] at hs
    | idle => simp [step, hpc] at hs
    | gone => simp [step, hpc] at hs
  | op p =>
    obtain ⟨_, hs⟩ := Option.ite_none_right_eq_some.mp hs
    obtain ⟨ko, ho, rfl⟩ := Option.map_eq_some_iff.mp hs
    exact ⟨(hW.op p _ ko _ h.phases ho).onward, .of_pc rfl⟩
  | expire t =>
    obtain ⟨_, rfl⟩ := taken hs
    exact ⟨(Onward.timerCancel s.kern t).trans (.eventSet _ fun u he => by cases he),
      .of_pc rfl⟩
  | evSet e =>
    cases hs
    exact ⟨.eventSet s.kern (fun u he => by cases he), .of_pc rfl⟩
  | evReset e =>
    cases hs
    exact ⟨.eventReset s.kern (fun u he => by cases he), .of_pc rfl⟩
  | evDeinit e =>
    cases hs
    have hvalid : Onward s.kern { s.kern with valid := Function.update s.kern.valid e false } :=
      .sched rfl id rfl rfl
    have hm : Moves (fun _ => True) NoOne _ (fxEventDeinit s.kern e) :=
      Moves.notifyAll (w := .ev (.user e)) trivial (Or.inr rfl)
        { s.kern with valid := Function.update s.kern.valid e false }
    exact ⟨hvalid.trans hm.onward, .of_pc rfl⟩
  | suspend t =>
    obtain ⟨_, rfl⟩ := taken hs
    exact ⟨.sched (fxSchedItemSuspend_active ..) (fun h => (fxSchedItemSuspend_unasked h).1) rfl
      rfl, .of_pc rfl⟩
  | resume t =>
    obtain ⟨_, rfl⟩ := taken hs
    refine ⟨?_, .of_pc rfl⟩
    show Onward s.kern (fxThreadResume s.kern t)
    unfold fxThreadResume
    split
    · exact .sched (fxSchedItemResume_active ..) fxSchedItemResume_unasked rfl rfl
    · exact .refl _
  | yield t =>
    obtain ⟨_, rfl⟩ := taken hs
    exact ⟨.sched (fxSchedYield_active ..) fxSchedYield_unasked rfl rfl, .of_pc rfl⟩
  | setPrio t prio =>
    obtain ⟨_, rfl⟩ := taken hs
    refine ⟨?_, .of_pc rfl⟩
    show Onward s.kern (fxThreadSetParamsPrio (cfg.prioNum - 1) s.kern t prio).2
    unfold fxThreadSetParamsPrio
    split
    · exact .setPrio ..
    · exact .refl _
  | _ => exact absurd trivial ha

end Schritte

/-! ## 4. Completion -/

section Ende

variable {T E Q A O C P : Type} [DecidableEq T] [DecidableEq E] [DecidableEq Q]
  {cfg : Config T} {W : WaitObject T E Q A O C P} {s s' : Sys T E Q A O C} {t : T}
  {J : (T → Prop) → O → Prop} {k k' : Kern T E Q A}

/-- **A thread that ended** has its completion event set, or is the current one and about to be
    switched away from. No other completion event is set. -/
structure Completions (cfg : Config T) (s : Sys T E Q A O C) : Prop where
  ended : ∀ t, s.pc t = .gone → s.kern.ev (.completion t) = true ∨
    s.kern.sched.active = t ∧ s.kern.sched.reschedPending = true
  only : ∀ t, s.kern.ev (.completion t) = true → s.pc t = .gone
  current : s.kern.sched.active = cfg.idle ∨ s.Live s.kern.sched.active

theorem Completions.onward (h : Completions cfg s) (hk : Onward s.kern s'.kern)
    (he : SameEnds s s') : Completions cfg s' := by
  refine ⟨fun t ht => ?_, fun t ht => ?_, ?_⟩
  · rw [hk.completion, hk.active]
    exact (h.ended t ((he t).1.mp ht)).imp_right fun hc => ⟨hc.1, hk.pending hc.2⟩
  · rw [hk.completion] at ht
    exact (he t).1.mpr (h.only t ht)
  · rw [hk.active]
    exact h.current.imp_right fun hl hn => hl ((he _).2.mp hn)

/-- Setting an event sets that one. -/
theorem eventSet_update (k : Kern T E Q A) (e : Ev T E) :
    (fxEventInternalSet k e).ev = update k.ev e true := by
  unfold fxEventInternalSet
  split
  · rename_i h
    exact (Function.update_eq_self_iff.mpr h.symm).symm
  · have hm : Moves (fun _ => True) NoOne _ _ := Moves.notifyAll (w := .ev e) trivial (Or.inl rfl)
      { k with ev := update k.ev e true }
    exact hm.ev

theorem eventSet_asked (k : Kern T E Q A) (e : Ev T E) :
    (fxEventInternalSet k e).sched.active = k.sched.active ∧
      (k.sched.reschedPending = true → (fxEventInternalSet k e).sched.reschedPending = true) ∧
      ∀ t, (fxEventInternalSet k e).timer t = true → k.timer t = true := by
  obtain ⟨k1, hm, hk1⟩ := eventSet_moves k e
  have ho := hm.onward
  rcases hk1 with rfl | rfl
  · exact ⟨ho.active, ho.pending, ho.timer⟩
  · exact ⟨ho.active, ho.pending, ho.timer⟩

theorem exitSync_asked (k : Kern T E Q A) (t : T) : Onward k (fxThreadExitSync k t) :=
  .sched (fxSchedItemRemove_active ..) (fun h => (fxSchedItemRemove_unasked h).1) rfl rfl

/-- A thread that was created and has completed is gone. -/
theorem WellFormed.completed_gone (hw : WellFormed W s) (ht : s.Live t)
    (hc : s.kern.state t = .completed) : s.pc t = .gone := by
  by_contra hn
  have hp := hw.kern t
  have hawake : PhaseOk s.kern t (.awake : Phase T E Q) → False := fun ha => by
    obtain ⟨hr, _⟩ | ⟨hr, _⟩ := ha.2.2
    · rw [hc] at hr
      cases hr
    · rw [hc] at hr
      cases hr
  cases hpc : s.pc t with
  | absent => exact ht hpc
  | gone => exact hn hpc
  | idle =>
    simp only [hpc, Pc.phase] at hp
    exact hawake hp
  | inCall stage c =>
    simp only [hpc] at hp
    cases stage with
    | asleep ab =>
      obtain ⟨n, ha⟩ := hp
      have hst := ha.state
      rw [hc] at hst
      split at hst <;> cases hst
    | _ => exact hawake hp

theorem WellFormed.gone_completed (hw : WellFormed W s) (ht : s.pc t = .gone) :
    Awake s.kern t ∧ s.kern.state t = .completed := by
  have hp := hw.kern t
  simp only [ht, Pc.phase] at hp
  exact ⟨hp.1, hp.2.2⟩

/-- A thread starts. -/
theorem Completions.init (h : Completions cfg s) (ht : s.pc t = .absent) {prio : Nat} {susp : Bool}
    {base : T → Nat} : Completions cfg
      ⟨fxThreadInitEx s.kern t prio susp, s.obj, update s.pc t .idle, base⟩ := by
  obtain ⟨_, _, hev⟩ := init_wb s.kern t prio susp
  have hsched : (fxThreadInitEx s.kern t prio susp).sched.active = s.kern.sched.active ∧
      (s.kern.sched.reschedPending = true →
        (fxThreadInitEx s.kern t prio susp).sched.reschedPending = true) := by
    unfold fxThreadInitEx
    split
    · exact ⟨rfl, id⟩
    · have ho : Onward { s.kern with sched := fxSchedItemInit s.kern.sched t prio }
          { s.kern with sched := fxSchedItemResume (fxSchedItemInit s.kern.sched t prio) t } :=
        .sched (fxSchedItemResume_active ..) fxSchedItemResume_unasked rfl rfl
      exact ⟨ho.active, ho.pending⟩
  have hne : ∀ u, (.completion u : Ev T E) ≠ .timer t := fun u e => by cases e
  have hcompl : ∀ {u}, u ≠ t →
      (fxThreadInitEx s.kern t prio susp).ev (.completion u) = s.kern.ev (.completion u) := by
    intro u hu
    rw [hev, Function.update_of_ne (hne u), Function.update_of_ne fun e => hu (Ev.completion.inj e)]
  refine ⟨fun u hu => ?_, fun u hu => ?_, ?_⟩
  · change update s.pc t .idle u = .gone at hu
    by_cases hut : u = t
    · rw [hut, Function.update_self] at hu
      cases hu
    · rw [Function.update_of_ne hut] at hu
      show (fxThreadInitEx s.kern t prio susp).ev _ = true ∨
        (fxThreadInitEx s.kern t prio susp).sched.active = u ∧ _
      rw [hcompl hut, hsched.1]
      exact (h.ended u hu).imp_right fun hc => ⟨hc.1, hsched.2 hc.2⟩
  · change (fxThreadInitEx s.kern t prio susp).ev (.completion u) = true at hu
    show update s.pc t .idle u = .gone
    by_cases hut : u = t
    · subst hut
      rw [hev, Function.update_of_ne (hne u), Function.update_self] at hu
      cases hu
    · rw [hcompl hut] at hu
      rw [Function.update_of_ne hut]
      exact h.only u hu
  · show (fxThreadInitEx s.kern t prio susp).sched.active = _ ∨
      update s.pc t .idle (fxThreadInitEx s.kern t prio susp).sched.active ≠ .absent
    rw [hsched.1]
    refine h.current.imp_right fun hl => ?_
    have hne : s.kern.sched.active ≠ t := fun e => hl (by rw [e]; exact ht)
    rwa [Function.update_of_ne hne]

/-- A thread ends; its completion is set, or it is the current one and asks to be switched away
    from. -/
theorem Completions.died (h : Completions cfg s) (hk : k.sched.active = s.kern.sched.active)
    (hp : s.kern.sched.reschedPending = true → k.sched.reschedPending = true)
    (hother : ∀ u, u ≠ t → k.ev (.completion u) = s.kern.ev (.completion u))
    (hself : k.ev (.completion t) = true ∨
      s.kern.sched.active = t ∧ k.sched.reschedPending = true) :
    Completions cfg ⟨k, s.obj, update s.pc t .gone, s.base⟩ := by
  refine ⟨fun u hu => ?_, fun u hu => ?_, ?_⟩
  · change update s.pc t .gone u = .gone at hu
    show k.ev (.completion u) = true ∨ k.sched.active = u ∧ k.sched.reschedPending = true
    rw [hk]
    by_cases hut : u = t
    · exact hut ▸ hself
    · rw [Function.update_of_ne hut] at hu
      rw [hother u hut]
      exact (h.ended u hu).imp_right fun hc => ⟨hc.1, hp hc.2⟩
  · change k.ev (.completion u) = true at hu
    show update s.pc t .gone u = .gone
    by_cases hut : u = t
    · rw [hut, Function.update_self]
    · rw [hother u hut] at hu
      rw [Function.update_of_ne hut]
      exact h.only u hu
  · show k.sched.active = _ ∨ update s.pc t .gone k.sched.active ≠ .absent
    rw [hk]
    refine h.current.imp_right fun hl => ?_
    by_cases hut : s.kern.sched.active = t
    · rw [hut, Function.update_self]
      exact fun e => by cases e
    · rwa [Function.update_of_ne hut]

/-- **Terminating a thread** sets its completion event at once. -/
theorem Completions.terminate (h : Completions cfg s) (hw : WellFormed W s) :
    Completions cfg ⟨fxThreadTerminate s.kern t, s.obj, update s.pc t .gone, s.base⟩ := by
  unfold fxThreadTerminate
  split
  · rename_i hterm
    rw [Function.update_eq_self_iff.mpr (hw.term t hterm).symm]
    exact h
  · have hmark : Onward s.kern
        { s.kern with isTerminating := update s.kern.isTerminating t true } := .sched rfl id rfl rfl
    have hout : Onward s.kern (fxThreadExitSync (fxSyncWaitRollback (fxTimerCancel
        { s.kern with isTerminating := update s.kern.isTerminating t true } t) t).2 t) :=
      ((hmark.trans (.timerCancel _ t)).trans (.rollback _ t)).trans (exitSync_asked _ t)
    have hasked := eventSet_asked (fxThreadExitSync (fxSyncWaitRollback (fxTimerCancel
      { s.kern with isTerminating := update s.kern.isTerminating t true } t) t).2 t) (.completion t)
    have hev := eventSet_update (fxThreadExitSync (fxSyncWaitRollback (fxTimerCancel
      { s.kern with isTerminating := update s.kern.isTerminating t true } t) t).2 t) (.completion t)
    unfold fxThreadApcHelperDpc
    refine h.died (hasked.1.trans hout.active) (fun hp => hasked.2.1 (hout.pending hp))
      (fun u hu => ?_) (Or.inl ?_)
    · rw [hev, Function.update_of_ne fun e => hu (Ev.completion.inj e)]
      exact hout.completion u
    · rw [hev]
      exact Function.update_self ..

/-- **The current thread ends by itself**: the dispatcher is going to switch away from it. -/
theorem Completions.exit (h : Completions cfg s) (hf : s.Free t) (hw : WellFormed W s)
    (hact : s.kern.sched.active = t) :
    Completions cfg ⟨fxThreadExitSync s.kern t, s.obj, update s.pc t .gone, s.base⟩ := by
  have hout := exitSync_asked s.kern t
  refine h.died hout.active hout.pending (fun u _ => hout.completion u) (Or.inr ⟨hact, ?_⟩)
  by_contra hn
  have hawake := hw.kern t
  simp only [hf.pc, Pc.phase] at hawake
  have hcount := (awake_ready hawake).mpr hf.ready
  exact (fxSchedItemRemove_unasked (Bool.not_eq_true _ ▸ hn)).2 hcount hact

/-- **The dispatcher** sets the completion event of the thread it switches away from. -/
theorem Completions.dispatch (h : Completions cfg s) (hw : WellFormed W s)
    (hr : OnRoll cfg J s) : Completions cfg ⟨fxDispatchHandler s.kern, s.obj, s.pc, s.base⟩ := by
  cases hp : s.kern.sched.reschedPending with
  | false =>
    have hnone : fxSchedGetNext s.kern.sched = (none, s.kern.sched) := by
      unfold fxSchedGetNext
      rw [hp]
      rfl
    have hsame : fxDispatchHandler s.kern = s.kern := by
      unfold fxDispatchHandler
      rw [hnone]
    rw [hsame]
    exact h
  | true =>
    obtain ⟨x, hnext, huse, _⟩ := hr.sched.getNext_spec hp (Or.inl rfl) hr.idleCount
    -- whoever ended is not selected, and is completed
    have hne : ∀ {u}, s.pc u = .gone → u ≠ x := by
      intro u hu e
      rcases huse with hi | ⟨_, hg⟩
      · rw [e, hi, hr.idle] at hu
        cases hu
      · exact hg (e ▸ hu)
    have hlive : s.kern.state s.kern.sched.active = .completed →
        s.pc s.kern.sched.active = .gone := by
      intro hc
      rcases h.current with hi | hl
      · rw [hi, hr.idleState] at hc
        cases hc
      · exact hw.completed_gone hl hc
    have hcurrent : x = cfg.idle ∨ s.Live x := huse.imp_right And.left
    unfold fxDispatchHandler
    rw [hnext]
    dsimp only
    split
    · rename_i hsw
      have hev := eventSet_update ({ s.kern with sched :=
        { s.kern.sched with reschedPending := false, active := x } } : Kern T E Q A)
        (.completion s.kern.sched.active)
      have hact := (eventSet_asked ({ s.kern with sched :=
        { s.kern.sched with reschedPending := false, active := x } } : Kern T E Q A)
        (.completion s.kern.sched.active)).1
      refine ⟨fun u hu => Or.inl ?_, fun u hu => ?_, ?_⟩
      · show (fxEventInternalSet _ _).ev _ = true
        rw [hev]
        by_cases hu' : u = s.kern.sched.active
        · rw [hu', Function.update_self]
        · rw [Function.update_of_ne fun e => hu' (Ev.completion.inj e)]
          exact (h.ended u hu).resolve_right fun hc => hu' hc.1.symm
      · change (fxEventInternalSet _ _).ev _ = true at hu
        rw [hev] at hu
        by_cases hu' : u = s.kern.sched.active
        · exact hu' ▸ hlive hsw.2
        · rw [Function.update_of_ne fun e => hu' (Ev.completion.inj e)] at hu
          exact h.only u hu
      · show (fxEventInternalSet _ _).sched.active = _ ∨
          s.pc (fxEventInternalSet _ _).sched.active ≠ _
        rw [hact]
        exact hcurrent
    · rename_i hsw
      refine ⟨fun u hu => Or.inl ?_, h.only, hcurrent⟩
      refine (h.ended u hu).resolve_right fun hc => hsw ⟨fun e => ?_, ?_⟩
      · exact hne hu (hc.1.symm.trans e.symm)
      · rw [hc.1]
        exact (hw.gone_completed hu).2

/-- **One step** keeps the completion events in order, if a thread ends by itself only as the
    current one. -/
theorem Completions.step (hW : W.Lawful) (h : Completions cfg s) (hw : WellFormed W s)
    (hr : OnRoll cfg J s) {a : Act T E C P}
    (hexit : ∀ t, a = .exit t → s.kern.sched.active = t)
    (hs : FxRtos.step cfg W a s = some s') : Completions cfg s' := by
  by_cases hturn : a.Turns s
  · cases a with
    | init t prio susp =>
      obtain ⟨⟨hnew, _⟩, rfl⟩ := taken hs
      refine h.init ?_
      by_contra hn
      refine hnew ?_
      unfold Sys.Created
      split
      · exact hn ‹_›
      · trivial
    | go t =>
      obtain ⟨c, hpc⟩ := hturn
      simp only [FxRtos.step, hpc] at hs
      obtain ⟨_, rfl⟩ := taken hs
      -- arming the timer leaves all of this alone
      have hends : SameEnds s (advance cfg W t c s .arm) :=
        .update (by rw [hpc]; exact ⟨(fun e => by cases e), fun e => by cases e⟩)
          ⟨(fun e => by cases e), fun e => by cases e⟩ rfl
      exact ⟨fun u hu => h.ended u ((hends u).1.mp hu), fun u hu => (hends u).1.mpr (h.only u hu),
        h.current.imp_right fun hl hn => hl ((hends _).2.mp hn)⟩
    | terminate t =>
      obtain ⟨_, rfl⟩ := taken hs
      exact h.terminate hw
    | exit t =>
      obtain ⟨hf, rfl⟩ := taken hs
      exact h.exit hf hw (hexit t rfl)
    | dispatch =>
      cases hs
      exact h.dispatch hw hr
    | _ => exact hturn.elim
  · obtain ⟨hk, he⟩ := step_onward hW hw hturn hs
    exact h.onward hk he

end Ende

/-! ## 5. Joining -/

section Warten

variable {T E Q A O C P : Type} [DecidableEq T] [DecidableEq E] [DecidableEq Q]
  {cfg : Config T} {W : WaitObject T E Q A O C P} {s s' : Sys T E Q A O (JoinCall T C)} {t u : T}
  {a : Act T E (JoinCall T C) P} {stage : Stage T E} {J : (T → Prop) → O → Prop}

/-- Where a call of `fx_thread_join` succeeded, the thread has ended. -/
def JoinDone (s : Sys T E Q A O (JoinCall T C)) (t u : T) : Stage T E → Prop
  | .asleep _ => (s.kern.wb (t, .main)).u.getStatus = .satisfied → s.pc u = .gone
  | .disarm r => r = .ok → s.pc u = .gone
  | .ret r => r = .ok → s.pc u = .gone
  | _ => True

/-- **Joiners** wait for threads that were created, and do not succeed before these end. -/
def Joins (s : Sys T E Q A O (JoinCall T C)) : Prop :=
  ∀ t stage u, s.pc t = .inCall stage (.join u) → s.Live u ∧ JoinDone s t u stage

/-- The step moves the thread to another point of its code. -/
def Act.moves (t : T) : Act T E C P → Prop
  | .init u _ _ => u = t
  | .call u _ => u = t
  | .go u => u = t
  | .terminate u => u = t
  | .exit u => u = t
  | _ => False

/-- Threads that were created or ended stay so. -/
theorem step_grows (hW : W.Lawful) (hw : WellFormed (fxThreadJoin W) s)
    (hs : FxRtos.step cfg (fxThreadJoin W) a s = some s') (u : T) :
    (s.Live u → s'.Live u) ∧ (s.pc u = .gone → s'.pc u = .gone) := by
  by_cases hturn : a.Turns s
  · have hother : ∀ {t : T} {p : Pc T E (JoinCall T C)}, p ≠ .absent →
        (s.pc u = .gone → u = t → p = .gone) →
        (s.pc u ≠ .absent → update s.pc t p u ≠ .absent) ∧
          (s.pc u = .gone → update s.pc t p u = .gone) := by
      intro t p hp hg
      by_cases hut : u = t
      · subst hut
        rw [Function.update_self]
        exact ⟨fun _ => hp, fun h => hg h rfl⟩
      · rw [Function.update_of_ne hut]
        exact ⟨id, id⟩
    cases a with
    | init t prio susp =>
      obtain ⟨⟨hnew, _⟩, rfl⟩ := taken hs
      refine hother (fun e => by cases e) fun hg hut => absurd ?_ hnew
      unfold Sys.Created
      rw [← hut, hg]
      trivial
    | go t =>
      obtain ⟨c, hpc⟩ := hturn
      simp only [FxRtos.step, hpc] at hs
      obtain ⟨_, rfl⟩ := taken hs
      refine hother (fun e => by cases e) fun hg hut => ?_
      rw [hut, hpc] at hg
      cases hg
    | terminate t =>
      obtain ⟨_, rfl⟩ := taken hs
      exact hother (fun e => by cases e) fun _ _ => rfl
    | exit t =>
      obtain ⟨_, rfl⟩ := taken hs
      exact hother (fun e => by cases e) fun _ _ => rfl
    | dispatch =>
      cases hs
      exact ⟨id, id⟩
    | _ => exact hturn.elim
  · obtain ⟨_, he⟩ := step_onward (fxThreadJoin_lawful hW) hw hturn hs
    exact ⟨fun hl hn => hl ((he u).2.mp hn), (he u).1.mpr⟩

/-- The other steps leave the thread where it is. -/
theorem step_pc_other {W : WaitObject T E Q A O C P} {s s' : Sys T E Q A O C}
    {a : Act T E C P} (ha : ¬ a.moves t) (hs : FxRtos.step cfg W a s = some s') :
    s'.pc t = s.pc t := by
  cases a with
  | init u prio susp =>
    obtain ⟨_, rfl⟩ := taken hs
    exact Function.update_of_ne (Ne.symm ha) ..
  | call u c =>
    obtain ⟨_, rfl⟩ := taken hs
    cases W.start s.kern s.obj u c with
    | none => rfl
    | some c' => exact Function.update_of_ne (Ne.symm ha) ..
  | go u =>
    cases hpc : s.pc u with
    | inCall stage c =>
      simp only [FxRtos.step, hpc] at hs
      obtain ⟨_, rfl⟩ := taken hs
      obtain ⟨p, hp, _⟩ := advance_pc cfg W u c s stage
      rw [hp]
      exact Function.update_of_ne (Ne.symm ha) ..
    | absent => simp [FxRtos.step, hpc] at hs
    | idle => simp [FxRtos.step, hpc] at hs
    | gone => simp [FxRtos.step, hpc] at hs
  | op p =>
    obtain ⟨_, hs⟩ := Option.ite_none_right_eq_some.mp hs
    obtain ⟨ko, ho, rfl⟩ := Option.map_eq_some_iff.mp hs
    rfl
  | terminate u =>
    obtain ⟨_, rfl⟩ := taken hs
    exact Function.update_of_ne (Ne.symm ha) ..
  | exit u =>
    obtain ⟨_, rfl⟩ := taken hs
    exact Function.update_of_ne (Ne.symm ha) ..
  | evSet e =>
    cases hs
    rfl
  | evReset e =>
    cases hs
    rfl
  | evDeinit e =>
    cases hs
    rfl
  | dispatch =>
    cases hs
    rfl
  | _ =>
    obtain ⟨_, rfl⟩ := taken hs
    rfl

/-- **A joiner that stays asleep** is notified only when the thread has ended. -/
theorem joined_asleep (hW : W.Lawful) (hw : WellFormed (fxThreadJoin W) s) (hj : Joins s)
    {ab : Option (Ev T E)} (hpc : s.pc t = .inCall (.asleep ab) (.join u)) (ha : ¬ a.moves t)
    (hs : FxRtos.step cfg (fxThreadJoin W) a s = some s')
    (hsat : (s'.kern.wb (t, .main)).u.getStatus = .satisfied) : s'.pc u = .gone := by
  obtain ⟨hlive, hdone⟩ := hj t _ u hpc
  have hgrows := (step_grows hW hw hs u).2
  have hasleep : PhaseOk s.kern t (.asleep (.ev (.completion u)) ab) := by
    have hp := hw.kern t
    simp only [hpc] at hp
    exact hp
  obtain ⟨n, hn⟩ := hasleep
  by_cases hx : a.touches s (.completion u)
  · -- its completion is set now, or it was not a thread before
    cases a with
    | init v prio susp =>
      obtain ⟨⟨hnew, _⟩, _⟩ := taken hs
      rcases hx with hx | hx
      · obtain rfl := Ev.completion.inj hx
        refine absurd ?_ hnew
        unfold Sys.Created
        split
        · exact hlive ‹_›
        · trivial
      · cases hx
    | terminate v =>
      obtain ⟨_, rfl⟩ := taken hs
      obtain rfl := Ev.completion.inj hx
      exact Function.update_self ..
    | dispatch =>
      obtain ⟨hx, hst⟩ := hx
      rw [← Ev.completion.inj hx] at hst
      exact hgrows (hw.completed_gone hlive hst)
    | _ => cases hx
  · by_cases hc : a.concerns t
    · -- a thread asleep is not resumed
      have hfree : ¬ s.Free t := fun hf => by
        rw [hf.pc] at hpc
        cases hpc
      cases a with
      | suspend v =>
        obtain rfl : v = t := hc
        exact absurd (taken hs).1 hfree
      | resume v =>
        obtain rfl : v = t := hc
        obtain ⟨_, rfl⟩ := taken hs
        have hstate := hn.state
        have hsame : fxThreadResume s.kern v = s.kern := by
          unfold fxThreadResume
          rw [if_neg]
          intro e
          rw [e] at hstate
          split at hstate <;> cases hstate
        change ((fxThreadResume s.kern v).wb _).u.getStatus = _ at hsat
        rw [hsame] at hsat
        exact hgrows (hdone hsat)
      | init v prio susp => exact absurd hc ha
      | go v => exact absurd hc ha
      | terminate v => exact absurd hc ha
      | exit v => exact absurd hc ha
      | _ => exact hc.elim
    · have helse := elsewhere_step (fxThreadJoin_lawful hW) hw hc hx hs
      obtain ⟨n', hn', hsame⟩ := helse.asleep hn
      have hmain : n' .main = n .main := hsame .main rfl
      refine hgrows (hdone ?_)
      rw [← hn.main_satisfied, ← hmain]
      exact hn'.main_satisfied.mpr hsat

theorem JoinCall.start_join {c : JoinCall T C} {k : Kern T E Q A} {o : O}
    (h : (fxThreadJoin W).start k o t c = some (.join u)) : c = .join u := by
  change c.start W k o t = _ at h
  cases c with
  | join v =>
    obtain ⟨_, h⟩ := Option.ite_none_left_eq_some.mp h
    exact Option.some.inj h
  | sleep v =>
    obtain ⟨_, h⟩ := Option.ite_none_right_eq_some.mp h
    cases h
  | obj c =>
    obtain ⟨_, _, h⟩ := Option.map_eq_some_iff.mp h
    cases h

/-- What the next section of a join leaves behind. -/
theorem Joins.advance (hW : W.Lawful) (hw : WellFormed (fxThreadJoin W) s) (hj : Joins s)
    (hc : Completions cfg s) {c : JoinCall T C} (hpc : s.pc t = .inCall stage c)
    (hs : FxRtos.step cfg (fxThreadJoin W) (.go t) s = some s') {stage' : Stage T E}
    (hpc' : s'.pc t = .inCall stage' (.join u)) : c = .join u ∧ JoinDone s' t u stage' := by
  have hw' := (step_case (fxThreadJoin_lawful hW) hw hs).2
  have hgrows := (step_grows hW hw hs u).2
  have hset : s.kern.ev (.completion u) = true → s'.pc u = .gone := fun h => hgrows (hc.only u h)
  simp only [FxRtos.step, hpc] at hs
  obtain ⟨_, rfl⟩ := taken hs
  -- the thread is at the stage that the section ends with
  have hat : ∀ {k : Kern T E Q A} {o : O} {st : Stage T E} {c : JoinCall T C},
      (⟨k, o, update s.pc t (.inCall st c), s.base⟩ : Sys T E Q A O (JoinCall T C)).pc t =
        .inCall stage' (.join u) → st = stage' ∧ c = .join u := by
    intro k o st c h
    change update s.pc t _ t = _ at h
    rw [Function.update_self] at h
    cases h
    exact ⟨rfl, rfl⟩
  cases stage with
  | reset =>
    obtain ⟨rfl, rfl⟩ := hat hpc'
    exact ⟨rfl, trivial⟩
  | arm =>
    obtain ⟨rfl, rfl⟩ := hat hpc'
    exact ⟨rfl, trivial⟩
  | enter ab =>
    rw [advance_enter] at hpc' hw' hset ⊢
    obtain ⟨hst, rfl⟩ := hat hpc'
    refine ⟨rfl, ?_⟩
    have he := (entered ((fxThreadJoin W).testWait t (.join u)) t
      ((fxThreadJoin W).attr (.join u)) ab (s.kern, s.obj)).1
    generalize fxThreadWaitObjectEnter ((fxThreadJoin W).testWait t (.join u)) t
      ((fxThreadJoin W).attr (.join u)) ab (s.kern, s.obj) = e at *
    obtain ⟨r, k, o⟩ := e
    dsimp only at *
    -- the wait was skipped
    have hback : ∀ {k : Kern T E Q A} (r), (r = .ok → s.kern.ev (.completion u) = true) →
        JoinDone ⟨k, o, update s.pc t (.inCall (afterWait ab r) (.join u)), s.base⟩ t u
          (afterWait ab r) := by
      intro k r hr
      have hgone : ∀ p, r = .ok → update s.pc t p u = .gone := by
        intro p e
        have hg := hc.only u (hr e)
        rw [Function.update_of_ne ?_]
        · exact hg
        · rintro rfl
          rw [hpc] at hg
          cases hg
      unfold afterWait
      split
      · exact hgone _
      · exact hgone _
    -- the thread sleeps, not notified yet
    have hslept : ∀ {k : Kern T E Q A}, k.state t = .waiting → WellFormed (fxThreadJoin W)
          ⟨k, o, update s.pc t (.inCall (.asleep ab) (.join u)), s.base⟩ →
        JoinDone ⟨k, o, update s.pc t (.inCall (.asleep ab) (.join u)), s.base⟩ t u
          (.asleep ab) := by
      intro k hstate hw' hsat
      have hp := hw'.kern t
      simp only [Function.update_self] at hp
      obtain ⟨n, hn⟩ := hp
      have hmain := hn.main_satisfied.mpr hsat
      have hst := hn.state
      rw [hstate, hmain] at hst
      simp at hst
    rw [← hst]
    cases he with
    | passed h => exact hback _ fun _ => h
    | cancelled h e hab he => exact hback _ fun hr => by cases hr
    | alone h hab => exact hslept (Function.update_self ..) hw'
    | both h e hab he => exact hslept (Function.update_self ..) hw'
  | poll =>
    obtain ⟨rfl, rfl⟩ := hat hpc'
    refine ⟨rfl, fun hr => hset ?_⟩
    change (if s.kern.ev (.completion u) then ThreadStatus.ok else .waitTimeout) = .ok at hr
    by_contra hn
    rw [if_neg hn] at hr
    cases hr
  | asleep ab =>
    obtain ⟨hst, rfl⟩ := hat hpc'
    refine ⟨rfl, ?_⟩
    have hleave : (fxThreadWaitObjectLeave s.kern t).1 = .ok → s.pc u = .gone := fun hr => by
      have hp := hw.kern t
      simp only [hpc] at hp
      exact (hj t _ u hpc).2 ((leave_ok_iff hp).mp hr)
    rw [← hst]
    unfold afterWait
    split
    · exact fun hr => hgrows (hleave hr)
    · exact fun hr => hgrows (hleave hr)
  | disarm r =>
    obtain ⟨rfl, rfl⟩ := hat hpc'
    refine ⟨rfl, fun hr => hgrows ((hj t _ u hpc).2 ?_)⟩
    unfold timedResult at hr
    split at hr
    · cases hr
    · exact hr
  | ret r =>
    rw [advance_ret] at hpc'
    change update s.pc t _ t = _ at hpc'
    rw [Function.update_self] at hpc'
    have hnot : ∀ (o : Option C) (f : JoinCall T C → Stage T E),
        (o.map .obj).elim (.idle : Pc T E (JoinCall T C)) (fun c' => .inCall (f c') c') ≠
          .inCall stage' (.join u) := by
      intro o f e
      cases o <;> cases e
    cases c with
    | obj c => exact absurd hpc' (hnot _ _)
    | join v => cases hpc'
    | sleep v => cases hpc'

/-- **One step**, if joins are called for threads that were created. -/
theorem Joins.step (hW : W.Lawful) (hw : WellFormed (fxThreadJoin W) s) (hj : Joins s)
    (hc : Completions cfg s) (hcall : ∀ t u, a = .call t (.join u) → s.Created u)
    (hs : FxRtos.step cfg (fxThreadJoin W) a s = some s') : Joins s' := by
  intro t stage u hpc'
  have hgrows := step_grows hW hw hs u
  by_cases ha : a.moves t
  · cases a with
    | init v prio susp =>
      obtain rfl : v = t := ha
      obtain ⟨_, rfl⟩ := taken hs
      change update s.pc v .idle v = _ at hpc'
      rw [Function.update_self] at hpc'
      cases hpc'
    | terminate v =>
      obtain rfl : v = t := ha
      obtain ⟨_, rfl⟩ := taken hs
      change update s.pc v .gone v = _ at hpc'
      rw [Function.update_self] at hpc'
      cases hpc'
    | exit v =>
      obtain rfl : v = t := ha
      obtain ⟨_, rfl⟩ := taken hs
      change update s.pc v .gone v = _ at hpc'
      rw [Function.update_self] at hpc'
      cases hpc'
    | call v c =>
      obtain rfl : v = t := ha
      obtain ⟨hf, rfl⟩ := taken hs
      cases hst : (fxThreadJoin W).start s.kern s.obj v c with
      | none =>
        simp only [hst, hf.pc] at hpc'
        cases hpc'
      | some c' =>
        simp only [hst, Function.update_self] at hpc'
        obtain rfl : c' = .join u := by
          cases hpc'
          rfl
        obtain rfl := JoinCall.start_join hst
        rw [hst] at hgrows
        cases hpc'
        exact ⟨hgrows.1 (hcall v u rfl).ne, trivial⟩
    | go v =>
      obtain rfl : v = t := ha
      cases hpc : s.pc v with
      | inCall stage0 c =>
        obtain ⟨rfl, hdone⟩ := hj.advance hW hw hc hpc hs hpc'
        exact ⟨hgrows.1 (hj v stage0 u hpc).1, hdone⟩
      | absent => simp [FxRtos.step, hpc] at hs
      | idle => simp [FxRtos.step, hpc] at hs
      | gone => simp [FxRtos.step, hpc] at hs
    | _ => exact ha.elim
  · rw [step_pc_other ha hs] at hpc'
    obtain ⟨hlive, hdone⟩ := hj t stage u hpc'
    refine ⟨hgrows.1 hlive, ?_⟩
    cases stage with
    | asleep ab =>
      exact fun hsat => joined_asleep hW hw hj hpc' ha hs hsat
    | disarm r => exact fun hr => hgrows.2 (hdone hr)
    | ret r => exact fun hr => hgrows.2 (hdone hr)
    | _ => trivial

end Warten

/-! ## 6. The timers -/

section Zeit

variable {T E Q A O C P : Type} [DecidableEq T] [DecidableEq E] [DecidableEq Q]
  {cfg : Config T} {W : WaitObject T E Q A O C P} {t : T}

/-- The stages of a timed wait in which its timer may be linked. -/
def Pc.armed {T E C : Type} : Pc T E C → Bool
  | .inCall (.enter (some (.timer _))) _ => true
  | .inCall (.asleep (some (.timer _))) _ => true
  | .inCall (.disarm _) _ => true
  | _ => false

/-- Where the timer of a thread may be linked: in a timed wait, and in a sleep. -/
def Nap.armed {T E C : Type} (pc : Pc T E C) : Nap → Prop
  | .out => pc.armed = true
  | .wait => pc ≠ .absent ∧ pc ≠ .gone
  | .asleep => pc ≠ .absent ∧ pc ≠ .gone
  | .cancel => pc ≠ .absent ∧ pc ≠ .gone
  | _ => False

theorem Nap.armed_not_gone {T E C : Type} {pc : Pc T E C} {n : Nap} (h : n.armed pc) :
    pc ≠ .absent ∧ pc ≠ .gone := by
  cases n with
  | out =>
    change pc.armed = true at h
    constructor
    · rintro rfl
      cases h
    · rintro rfl
      cases h
  | wait => exact h
  | asleep => exact h
  | cancel => exact h
  | reset timed => exact h.elim
  | arm => exact h.elim

theorem afterWait_armed (ab : Option (Ev T E)) (r : ThreadStatus) (c : C)
    (h : (Pc.inCall (.enter ab) c).armed = true) :
    (Pc.inCall (afterWait ab r) c).armed = true := by
  unfold afterWait
  split
  · rfl
  · rename_i hab
    cases ab with
    | none => cases h
    | some e =>
      cases e with
      | timer u => exact absurd rfl (hab u)
      | _ => cases h

/-- A thread that is terminated has its timer cancelled. -/
theorem terminate_timer (k : Kern T E Q A) (u : T)
    (ht : (fxThreadTerminate k u).timer t = true) :
    k.timer t = true ∧ (t = u → k.isTerminating u = true) := by
  unfold fxThreadTerminate at ht
  split at ht
  · rename_i hterm
    exact ⟨ht, fun _ => hterm⟩
  · have h1 := (eventSet_asked _ _).2.2 t ht
    have h2 : update k.timer u false t = true := by
      have h2 := (exitSync_asked _ u).timer t h1
      rwa [rollback_timer] at h2
    by_cases hut : t = u
    · rw [hut, Function.update_self] at h2
      cases h2
    · rw [Function.update_of_ne hut] at h2
      exact ⟨h2, fun e => absurd e hut⟩

/-- **The timer of a thread is armed** in one of its critical sections only. -/
theorem step_timer {s s' : Sys T E Q A O C} {a : Act T E C P} (hW : W.Lawful)
    (hw : WellFormed W s) (hs : FxRtos.step cfg W a s = some s')
    (ht : s'.kern.timer t = true) :
    s.kern.timer t = true ∨ ∃ c, a = .go t ∧ s.pc t = .inCall .arm c := by
  by_cases hturn : a.Turns s
  · cases a with
    | init u prio susp =>
      obtain ⟨_, rfl⟩ := taken hs
      refine Or.inl ?_
      change (fxThreadInitEx s.kern u prio susp).timer t = true at ht
      unfold fxThreadInitEx at ht
      split at ht
      · exact ht
      · exact ht
    | go u =>
      obtain ⟨c, hpc⟩ := hturn
      simp only [FxRtos.step, hpc] at hs
      obtain ⟨_, rfl⟩ := taken hs
      by_cases hut : u = t
      · subst hut
        exact Or.inr ⟨c, rfl, hpc⟩
      · refine Or.inl ?_
        change update s.kern.timer u true t = true at ht
        rwa [Function.update_of_ne (Ne.symm hut)] at ht
    | terminate u =>
      obtain ⟨_, rfl⟩ := taken hs
      exact Or.inl (terminate_timer s.kern u ht).1
    | exit u =>
      obtain ⟨_, rfl⟩ := taken hs
      exact Or.inl ht
    | dispatch =>
      cases hs
      refine Or.inl ?_
      change (fxDispatchHandler s.kern).timer t = true at ht
      unfold fxDispatchHandler at ht
      dsimp only at ht
      split at ht
      · split at ht
        · exact (eventSet_asked ({ s.kern with sched := (fxSchedGetNext s.kern.sched).2 } :
            Kern T E Q A) (.completion s.kern.sched.active)).2.2 t ht
        · exact ht
      · exact ht
    | _ => exact hturn.elim
  · exact Or.inl ((step_onward hW hw hturn hs).1.timer t ht)

end Zeit

/-! ## 7. Every run -/

section Lauf

variable {T E Q A O C P : Type} [DecidableEq T] [DecidableEq E] [DecidableEq Q]
  {cfg : Config T} {W : WaitObject T E Q A O C P} {J : (T → Prop) → O → Prop}
  {spares : (T → Prop) → P → Kern T E Q A × O → Prop} {s s' : JoinSys T E Q A O C} {t u : T}

/-- What holds of the system in every state of a run. -/
structure JoinBase (cfg : Config T) (W : WaitObject T E Q A O C P) (J : (T → Prop) → O → Prop)
    (s : Sys T E Q A O (JoinCall T C)) : Prop where
  wf : WellFormed (fxThreadJoin W) s
  roll : OnRoll cfg J s
  compl : Completions cfg s
  joins : Joins s

structure JoinOk (cfg : Config T) (W : WaitObject T E Q A O C P) (J : (T → Prop) → O → Prop)
    (s : JoinSys T E Q A O C) : Prop where
  base : JoinBase cfg W J s.sys
  timers : ∀ t, s.sys.kern.timer t = true → (s.nap t).armed (s.sys.pc t)

/-- A section of a sleep outside of its wait touches only the timer and its event. -/
theorem JoinBase.section {s : Sys T E Q A O (JoinCall T C)} (h : JoinBase cfg W J s)
    {k : Kern T E Q A} (hc : Calm (s.phases (fxThreadJoin W)) s.kern k)
    (hsched : k.sched = s.kern.sched) (hstate : k.state = s.kern.state) (hwb : k.wb = s.kern.wb)
    (hev : ∀ t, k.ev (.completion t) = s.kern.ev (.completion t)) :
    JoinBase cfg W J { s with kern := k } where
  wf := h.wf.stay s.obj s.base hc.ok (hc.ev h.wf.ev) hc.term
  roll := by
    refine ⟨h.roll.stay (hsched ▸ h.roll.sched) h.roll.obj, ?_, ?_⟩
    · show k.state cfg.idle = .ready
      rw [hstate]
      exact h.roll.idleState
    · show (k.sched.item cfg.idle).suspendCount = 0
      rw [hsched]
      exact h.roll.idleCount
  compl := by
    refine ⟨fun t ht => ?_, fun t ht => ?_, ?_⟩
    · show k.ev _ = true ∨ k.sched.active = t ∧ k.sched.reschedPending = true
      rw [hev, hsched]
      exact h.compl.ended t ht
    · change k.ev _ = true at ht
      rw [hev] at ht
      exact h.compl.only t ht
    · show k.sched.active = _ ∨ s.pc k.sched.active ≠ _
      rw [hsched]
      exact h.compl.current
  joins := by
    intro t stage u hpc
    obtain ⟨hlive, hdone⟩ := h.joins t stage u hpc
    refine ⟨hlive, ?_⟩
    cases stage with
    | asleep ab =>
      intro hsat
      refine hdone ?_
      change (k.wb _).u.getStatus = _ at hsat
      rwa [hwb] at hsat
    | disarm r => exact hdone
    | ret r => exact hdone
    | _ => trivial

/-- **One step of the kernel.** -/
theorem JoinBase.step {s s' : Sys T E Q A O (JoinCall T C)} {a : Act T E (JoinCall T C) P}
    (hW : W.Lawful) (hO : W.Orderly J spares) (hN : cfg.prioNum ≤ 1024)
    (h : JoinBase cfg W J s) (hsp : SparesDead cfg spares s a)
    (hexit : ∀ t, a = .exit t → s.kern.sched.active = t)
    (hcall : ∀ t u, a = .call t (.join u) → s.Created u)
    (hs : FxRtos.step cfg (fxThreadJoin W) a s = some s') : JoinBase cfg W J s' where
  wf := (step_case (fxThreadJoin_lawful hW) h.wf hs).2
  roll := h.roll.step (fxThreadJoin_lawful hW) (fxThreadJoin_orderly hO) hN h.wf hsp hs
  compl := h.compl.step (fxThreadJoin_lawful hW) h.wf h.roll hexit hs
  joins := h.joins.step hW h.wf h.compl hcall hs

/-- The guards of the system are what a step of the kernel needs. -/
theorem JoinOk.sparesDead (h : JoinOk cfg W J s) {a : Act T E (JoinCall T C) P}
    (hk : JoinKeeps cfg spares s (.kernel a)) {sys : Sys T E Q A O (JoinCall T C)}
    (hs : FxRtos.step cfg (fxThreadJoin W) a s.sys = some sys) :
    SparesDead cfg spares s.sys a := by
  have huse : ∀ {t : T}, s.sys.Created t → s.sys.kern.state t ≠ .completed →
      s.sys.InUse cfg.idle t := fun hc hne =>
    Or.inr ⟨hc.ne, fun hg => hne (h.base.wf.gone_completed hg).2⟩
  cases a with
  | terminate t => exact Or.inr (Or.inl (huse (taken hs).1 hk))
  | setPrio t prio => exact fun _ => Or.inl (huse (taken hs).1 hk)
  | op p => exact hk
  | _ => trivial

theorem napAfter_ne (sys : Sys T E Q A O (JoinCall T C)) {a : Act T E (JoinCall T C) P}
    (ha : ¬ a.moves t) : s.napAfter sys a t = s.nap t := by
  cases a with
  | go u =>
    show (if s.nap u = .asleep ∧ (sys.pc u).isIdle = true then update s.nap u .cancel
      else s.nap) t = s.nap t
    split
    · exact Function.update_of_ne (Ne.symm ha) ..
    · rfl
  | _ => rfl

/-- A section of a timed wait ends where its timer may be linked, unless it cancels it. -/
theorem advance_armed {s : Sys T E Q A O C} {stage : Stage T E} {c : C}
    (harmed : (Pc.inCall stage c).armed = true)
    (ht : (advance cfg W t c s stage).kern.timer t = true) :
    ((advance cfg W t c s stage).pc t).armed = true := by
  cases stage with
  | enter ab =>
    rw [advance_enter]
    show (update s.pc t _ t).armed = true
    rw [Function.update_self]
    cases (fxThreadWaitObjectEnter (W.testWait t c) t (W.attr c) ab (s.kern, s.obj)).1 with
    | none =>
      cases ab with
      | none => cases harmed
      | some e =>
        cases e with
        | timer u => rfl
        | _ => cases harmed
    | some r => exact afterWait_armed ab r c harmed
  | asleep ab =>
    show (update s.pc t _ t).armed = true
    rw [Function.update_self]
    refine afterWait_armed ab _ c ?_
    cases ab with
    | none => cases harmed
    | some e =>
      cases e with
      | timer u => rfl
      | _ => cases harmed
  | disarm r =>
    change update s.kern.timer t false t = true at ht
    rw [Function.update_self] at ht
    cases ht
  | _ => cases harmed

/-- **A step of the kernel** links a timer only where it may be linked. -/
theorem JoinOk.timersKernel (hW : W.Lawful) (h : JoinOk cfg W J s)
    {a : Act T E (JoinCall T C) P} (hmay : s.May W a) {sys : Sys T E Q A O (JoinCall T C)}
    (hs : FxRtos.step cfg (fxThreadJoin W) a s.sys = some sys)
    (ht : sys.kern.timer t = true) : (s.napAfter sys a t).armed (sys.pc t) := by
  have hlawful := fxThreadJoin_lawful hW
  by_cases ha : a.moves t
  · have harm := step_timer hlawful h.base.wf hs ht
    cases a with
    | init u prio susp =>
      obtain rfl : u = t := ha
      obtain ⟨⟨hnew, _⟩, _⟩ := taken hs
      obtain hold | ⟨_, e, _⟩ := harm
      · refine absurd ?_ hnew
        unfold Sys.Created
        split
        · exact (Nap.armed_not_gone (h.timers u hold)).1 ‹_›
        · trivial
      · cases e
    | call u c =>
      obtain rfl : u = t := ha
      obtain hold | ⟨_, e, _⟩ := harm
      · have hn := h.timers u hold
        rw [hmay.1.2, (taken hs).1.pc] at hn
        cases hn
      · cases e
    | terminate u =>
      obtain rfl : u = t := ha
      obtain ⟨_, rfl⟩ := taken hs
      obtain ⟨hold, hterm⟩ := terminate_timer s.sys.kern u ht
      exact absurd (h.base.wf.term u (hterm rfl)) (Nap.armed_not_gone (h.timers u hold)).2
    | exit u =>
      obtain rfl : u = t := ha
      obtain hold | ⟨_, e, _⟩ := harm
      · have hn := h.timers u hold
        rw [hmay.2, (taken hs).1.pc] at hn
        cases hn
      · cases e
    | go u =>
      obtain rfl : u = t := ha
      cases hpc : s.sys.pc u with
      | inCall stage c =>
        have hstep := hs
        simp only [FxRtos.step, hpc] at hstep
        obtain ⟨_, rfl⟩ := taken hstep
        obtain ⟨p, hp, hlive⟩ := advance_pc cfg (fxThreadJoin W) u c s.sys stage
        show ((if s.nap u = .asleep ∧ _ then update s.nap u .cancel else s.nap) u).armed _
        obtain hnap | hnap := hmay.2
        · -- outside of a sleep
          rw [if_neg fun e => Nap.noConfusion (hnap.symm.trans e.1), hnap]
          obtain hold | ⟨c', _, e⟩ := harm
          · have hn := h.timers u hold
            rw [hnap, hpc] at hn
            exact advance_armed hn ht
          · rw [hpc] at e
            cases e
            show (update s.sys.pc u _ u).armed = true
            rw [Function.update_self]
            rfl
        · rw [hp, Function.update_self]
          split
          · rw [Function.update_self]
            exact hlive
          · rw [hnap]
            exact hlive
      | absent => simp [FxRtos.step, hpc] at hs
      | idle => simp [FxRtos.step, hpc] at hs
      | gone => simp [FxRtos.step, hpc] at hs
    | _ => exact ha.elim
  · rw [napAfter_ne sys ha, step_pc_other ha hs]
    obtain hold | ⟨_, e, _⟩ := step_timer hlawful h.base.wf hs ht
    · exact h.timers t hold
    · exact absurd (by rw [e]; exact rfl) ha

/-- **One section of a sleep.** -/
theorem JoinOk.napStep (hW : W.Lawful) (hO : W.Orderly J spares) (hN : cfg.prioNum ≤ 1024)
    (h : JoinOk cfg W J s) (hf : s.sys.Free t) (hs : s.napStep cfg W t (s.nap t) = some s') :
    JoinOk cfg W J s' := by
  have hlive : s.sys.pc t ≠ .absent ∧ s.sys.pc t ≠ .gone := by
    rw [hf.pc]
    exact ⟨(fun e => by cases e), fun e => by cases e⟩
  have hother : ∀ {n : Nap} {u : T}, u ≠ t → s.sys.kern.timer u = true →
      (update s.nap t n u).armed (s.sys.pc u) := by
    intro n u hu ht
    rw [Function.update_of_ne hu]
    exact h.timers u ht
  cases hn : s.nap t with
  | out =>
    rw [hn] at hs
    cases hs
  | asleep =>
    rw [hn] at hs
    cases hs
  | reset timed =>
    rw [hn] at hs
    cases hs
    refine ⟨h.base.section (.eventReset h.base.wf.phases _) rfl rfl rfl
      (Onward.eventReset s.sys.kern fun u e => by cases e).completion, fun u ht => ?_⟩
    by_cases hu : u = t
    · subst hu
      have harmed := h.timers u ht
      rw [hn] at harmed
      exact harmed.elim
    · exact hother hu ht
  | arm =>
    rw [hn] at hs
    cases hs
    refine ⟨h.base.section (.timerSet h.base.wf.phases t) rfl rfl rfl fun _ => rfl,
      fun u ht => ?_⟩
    by_cases hu : u = t
    · subst hu
      show (update s.nap u .wait u).armed _
      rw [Function.update_self]
      exact hlive
    · change update s.sys.kern.timer t true u = true at ht
      rw [Function.update_of_ne hu] at ht
      exact hother hu ht
  | cancel =>
    rw [hn] at hs
    cases hs
    refine ⟨h.base.section (.timerCancel h.base.wf.phases t) rfl rfl rfl fun _ => rfl,
      fun u ht => ?_⟩
    change update s.sys.kern.timer t false u = true at ht
    by_cases hu : u = t
    · rw [hu, Function.update_self] at ht
      cases ht
    · rw [Function.update_of_ne hu] at ht
      exact hother hu ht
  | wait =>
    rw [hn] at hs
    obtain ⟨sys, hcall, rfl⟩ := Option.map_eq_some_iff.mp hs
    refine ⟨h.base.step hW hO hN (a := .call t (.sleep t)) trivial (fun _ e => by cases e)
      (fun _ _ e => by cases e) hcall, fun u ht => ?_⟩
    obtain ⟨hk, hends⟩ := step_onward (fxThreadJoin_lawful hW) h.base.wf
      (a := .call t (.sleep t)) id hcall
    have hold := hk.timer u ht
    by_cases hu : u = t
    · subst hu
      show (update s.nap u .asleep u).armed _
      rw [Function.update_self]
      exact ⟨fun e => hlive.1 ((hends u).2.mp e), fun e => hlive.2 ((hends u).1.mp e)⟩
    · show (update s.nap t .asleep u).armed (sys.pc u)
      rw [step_pc_other (a := .call t (.sleep t)) (Ne.symm hu) hcall]
      exact hother hu hold

/-- **One step.** -/
theorem JoinOk.step (hW : W.Lawful) (hO : W.Orderly J spares) (hN : cfg.prioNum ≤ 1024)
    (h : JoinOk cfg W J s) {a : JoinAct T E C P} (hk : JoinKeeps cfg spares s a)
    (hs : joinStep cfg W a s = some s') : JoinOk cfg W J s' := by
  cases a with
  | kernel a =>
    obtain ⟨hmay, hs⟩ := Option.ite_none_right_eq_some.mp hs
    obtain ⟨sys, hsys, rfl⟩ := Option.map_eq_some_iff.mp hs
    refine ⟨h.base.step hW hO hN (h.sparesDead hk hsys) ?_ ?_ hsys,
      fun t ht => h.timersKernel hW hmay hsys ht⟩
    · rintro t rfl
      exact hmay.1
    · rintro t u rfl
      exact hmay.2
  | sleep t timed =>
    obtain ⟨⟨hcalls, hf⟩, rfl⟩ := taken hs
    refine ⟨h.base, fun u ht => ?_⟩
    have harmed := h.timers u ht
    by_cases hu : u = t
    · subst hu
      rw [hcalls.2, hf.pc] at harmed
      cases harmed
    · show (update s.nap t (.reset timed) u).armed _
      rwa [Function.update_of_ne hu]
  | nap t =>
    obtain ⟨⟨_, hf⟩, hs⟩ := Option.ite_none_right_eq_some.mp hs
    exact h.napStep hW hO hN hf hs

theorem joinBoot_ok (hO : W.Orderly J spares) (hN : cfg.prioNum ≤ 1024) {o : O}
    (ho : J (fun _ => False) o) : JoinOk cfg W J (joinBoot cfg o : JoinSys T E Q A O C) where
  base := by
    refine ⟨boot_wellFormed o, boot_onRoll (fxThreadJoin_orderly hO) hN ho, ?_, ?_⟩
    · exact ⟨(fun _ e => by cases e), (fun _ e => by cases e),
        Or.inl (fxSchedItemResume_active ..)⟩
    · intro t stage u e
      cases e
  timers t ht := by cases ht

theorem reach_joinOk (hW : W.Lawful) (hO : W.Orderly J spares) (hN : cfg.prioNum ≤ 1024) {o : O}
    (ho : J (fun _ => False) o)
    (h : Reach (joinStep cfg W) (JoinKeeps cfg spares) (joinBoot cfg o) s) : JoinOk cfg W J s :=
  h.inv (joinBoot_ok hO hN ho) fun _ _ _ hj hg hs => hj.step hW hO hN hg hs

/-- Nothing of the thread is linked: not its scheduler item, nor a wait block, nor its timer. -/
structure Sys.Unlinked (s : Sys T E Q A O C) (t : T) : Prop where
  link : s.kern.sched.gDomain.link t = none
  item : ∀ p, t ∉ s.kern.sched.gDomain.priorityQueues p
  waitable : ∀ slot, (s.kern.wb (t, slot)).waitable = none
  block : ∀ slot w, (t, slot) ∉ s.kern.wq w
  timer : s.kern.timer t = false

theorem JoinOk.unlinked (h : JoinOk cfg W J s) (hg : s.sys.pc t = .gone) :
    s.sys.kern.state t = .completed ∧ s.sys.Unlinked t := by
  obtain ⟨hawake, hstate⟩ := h.base.wf.gone_completed hg
  have hdead : ¬ s.sys.InUse cfg.idle t := by
    rintro (rfl | ⟨_, hn⟩)
    · rw [h.base.roll.idle] at hg
      cases hg
    · exact hn hg
  have hlink := h.base.roll.sched.dead t hdead
  refine ⟨hstate, hlink, fun p hm => ?_, hawake.free, fun slot w => ?_, ?_⟩
  · rw [h.base.roll.sched.mpq.mem_iff, hlink] at hm
    cases hm
  · exact (hawake.tied slot).not_mem (hawake.free slot)
  · by_contra hn
    exact (Nap.armed_not_gone (h.timers t (Bool.not_eq_false _ ▸ hn))).2 hg

/-- **A join that returns OK**: the thread has completed, is not the current one, and nothing of it
    is linked. -/
theorem JoinOk.joined (hW : W.Lawful) (hO : W.Orderly J spares) (hN : cfg.prioNum ≤ 1024)
    (h : JoinOk cfg W J s) (hpc : s.sys.pc t = .inCall (.ret .ok) (.join u))
    (hs : joinStep cfg W (.kernel (.go t)) s = some s') :
    s'.sys.kern.state u = .completed ∧ s'.current ≠ u ∧ s'.sys.Unlinked u := by
  have h' := h.step hW hO hN (a := .kernel (.go t)) trivial hs
  obtain ⟨⟨hcur, _⟩, hs⟩ := Option.ite_none_right_eq_some.mp hs
  obtain ⟨sys, hsys, rfl⟩ := Option.map_eq_some_iff.mp hs
  have hgone : s.sys.pc u = .gone := (h.base.joins t _ u hpc).2 rfl
  have hgone' := (step_grows hW h.base.wf hsys u).2 hgone
  obtain ⟨hstate, hfree⟩ := h'.unlinked hgone'
  refine ⟨hstate, fun e => ?_, hfree⟩
  have hact : sys.kern.sched.active = s.current :=
    (step_onward (fxThreadJoin_lawful hW) h.base.wf (a := .go t) (fun hturn => by
      obtain ⟨c, hc⟩ := hturn
      rw [hpc] at hc
      cases hc) hsys).1.active
  have hut : t = u := hcur.symm.trans (hact.symm.trans e)
  rw [← hut, hpc] at hgone
  cases hgone

/-- **The dispatcher ran**: the completion of every other thread that has completed is set. -/
theorem JoinOk.dispatched (hW : W.Lawful) (hO : W.Orderly J spares) (hN : cfg.prioNum ≤ 1024)
    (h : JoinOk cfg W J s) (hs : joinStep cfg W (.kernel .dispatch) s = some s')
    (hu : s'.sys.pc u ≠ .absent) (hstate : s'.sys.kern.state u = .completed)
    (hne : u ≠ s'.current) : s'.sys.kern.ev (.completion u) = true := by
  have h' := h.step hW hO hN (a := .kernel .dispatch) trivial hs
  have hgone := h'.base.wf.completed_gone hu hstate
  exact (h'.base.compl.ended u hgone).resolve_right fun hc => hne hc.1.symm

/-- **Completion is exact**: where it is set, the thread has completed, nothing of it is linked and
    nobody is queued for its end; where it is not, a thread that has completed is still the current
    one, and about to be switched away from. -/
theorem JoinOk.completion (h : JoinOk cfg W J s) (u : T) :
    (s.sys.kern.ev (.completion u) = true → s.sys.kern.state u = .completed ∧ s.sys.Unlinked u ∧
      s.sys.kern.wq (.ev (.completion u)) = []) ∧
    (s.sys.pc u ≠ .absent → s.sys.kern.state u = .completed →
      s.sys.kern.ev (.completion u) = true ∨
        s.current = u ∧ s.sys.kern.sched.reschedPending = true) := by
  refine ⟨fun hset => ?_, fun hu hstate => ?_⟩
  · obtain ⟨hstate, hfree⟩ := h.unlinked (h.base.compl.only u hset)
    exact ⟨hstate, hfree, h.base.wf.ev _ hset⟩
  · exact h.base.compl.ended u (h.base.wf.completed_gone hu hstate)

/-- **Join and completion**, whatever the objects are that the threads wait for, in runs that leave
    completed threads alone. When `fx_thread_join` returns OK, the thread has completed, is not the
    current one, and is linked nowhere. After the dispatcher ran, the completion of every other
    thread that has completed is set. At any time it is set only of such threads, with no joiner
    left in its queue, and of all of them but the one that the dispatcher is about to leave. -/
theorem join_completed (hW : W.Lawful) (hO : W.Orderly J spares) (hN : cfg.prioNum ≤ 1024) {o : O}
    (ho : J (fun _ => False) o)
    (h : Reach (joinStep cfg W) (JoinKeeps cfg spares) (joinBoot cfg o) s) :
    (∀ t u s', s.sys.pc t = .inCall (.ret .ok) (.join u) →
      joinStep cfg W (.kernel (.go t)) s = some s' →
      s'.sys.kern.state u = .completed ∧ s'.current ≠ u ∧ s'.sys.Unlinked u) ∧
    (∀ s', joinStep cfg W (.kernel .dispatch) s = some s' → ∀ u, s'.sys.pc u ≠ .absent →
      s'.sys.kern.state u = .completed → u ≠ s'.current →
      s'.sys.kern.ev (.completion u) = true) ∧
    (∀ u, s.sys.kern.ev (.completion u) = true → s.sys.kern.state u = .completed ∧
      s.sys.Unlinked u ∧ s.sys.kern.wq (.ev (.completion u)) = []) ∧
    ∀ u, s.sys.pc u ≠ .absent → s.sys.kern.state u = .completed →
      s.sys.kern.ev (.completion u) = true ∨
        s.current = u ∧ s.sys.kern.sched.reschedPending = true :=
  have hok := reach_joinOk hW hO hN ho h
  ⟨fun _ _ _ hpc hs => hok.joined hW hO hN hpc hs,
    fun _ hs _ hu hstate hne => hok.dispatched hW hO hN hs hu hstate hne,
    fun u => (hok.completion u).1, fun u => (hok.completion u).2⟩

end Lauf

/-- Three threads, the last one idle, and a semaphore. -/
def joinCfg : Config (Fin 3) := ⟨true, 16, Fin.last 2⟩

def semJoinStep : JoinAct (Fin 3) Unit (WaitArgs Unit) SemOp →
    JoinSys (Fin 3) Unit Unit Unit FxSem (WaitArgs Unit) →
    Option (JoinSys (Fin 3) Unit Unit Unit FxSem (WaitArgs Unit)) :=
  joinStep joinCfg (fxSem true)

def semJoinBoot : JoinSys (Fin 3) Unit Unit Unit FxSem (WaitArgs Unit) :=
  joinBoot joinCfg (fxSemInit 0 1 .fifo)

def semJoinKeeps (s : JoinSys (Fin 3) Unit Unit Unit FxSem (WaitArgs Unit)) :
    JoinAct (Fin 3) Unit (WaitArgs Unit) SemOp → Prop :=
  JoinKeeps joinCfg (fun _ _ _ => True) s

instance (s : JoinSys (Fin 3) Unit Unit Unit FxSem (WaitArgs Unit))
    (a : JoinAct (Fin 3) Unit (WaitArgs Unit) SemOp) : Decidable (semJoinKeeps s a) :=
  match a with
  | .kernel (.terminate t) => inferInstanceAs (Decidable (s.sys.kern.state t ≠ .completed))
  | .kernel (.setPrio t _) => inferInstanceAs (Decidable (s.sys.kern.state t ≠ .completed))
  | .kernel (.init _ _ _) | .kernel (.call _ _) | .kernel (.go _) | .kernel (.op _)
  | .kernel (.expire _) | .kernel (.evSet _) | .kernel (.evReset _) | .kernel (.evDeinit _)
  | .kernel (.exit _) | .kernel (.suspend _) | .kernel (.resume _) | .kernel (.yield _)
  | .kernel .dispatch | .sleep _ _ | .nap _ => .isTrue trivial

/-- A call of `fx_thread_join` for the thread is about to return OK. -/
def Pc.joined {T E C : Type} [DecidableEq T] (thread : T) : Pc T E (JoinCall T C) → Bool
  | .inCall (.ret .ok) (.join t) => t = thread
  | _ => false

theorem Pc.joined_eq {T E C : Type} [DecidableEq T] {thread : T} {pc : Pc T E (JoinCall T C)}
    (h : pc.joined thread = true) : pc = .inCall (.ret .ok) (.join thread) := by
  unfold Pc.joined at h
  split at h
  · rw [of_decide_eq_true h]
  · cases h

/-- A thread is joined that was terminated in a sleep, its timer armed. -/
theorem join_completed_asleep :
    ∃ s s', Reach semJoinStep semJoinKeeps semJoinBoot s ∧
      semJoinStep (.kernel (.go 0)) s = some s' ∧
      s'.sys.kern.state 1 = .completed ∧ s'.current ≠ 1 ∧ s'.sys.Unlinked 1 := by
  have h : (runIf (fun s a => decide (semJoinKeeps s a)) semJoinStep
      [.kernel (.init 0 5 false), .kernel (.init 1 10 false), .kernel .dispatch,
        .kernel (.call 0 (.join 1)), .kernel (.go 0), .kernel .dispatch, .sleep 1 true, .nap 1,
        .nap 1, .nap 1, .kernel (.go 1), .kernel .dispatch, .kernel (.terminate 1),
        .kernel .dispatch, .kernel (.go 0)] semJoinBoot).any
      (fun s => (s.sys.pc 0).joined 1 && (semJoinStep (.kernel (.go 0)) s).isSome) = true := by
    decide +kernel
  obtain ⟨s, hr, hp⟩ := exists_of_runIf (G := semJoinKeeps)
    (fun _ _ hg => of_decide_eq_true hg) h
  obtain ⟨hpc, hret⟩ := Bool.and_eq_true_iff.mp hp
  obtain ⟨s', hs'⟩ := Option.isSome_iff_exists.mp hret
  have horderly := (fxSem_plain (T := Fin 3) (E := Unit) true).orderly
  obtain ⟨hjoined, _⟩ := join_completed (fxSem_lawful true) horderly (by decide)
    (trivial : True) hr
  obtain ⟨hstate, hcur, hfree⟩ := hjoined 0 1 s' (Pc.joined_eq hpc) hs'
  exact ⟨s, s', hr, hs', hstate, hcur, hfree⟩

end FxRtos
