/-
  File:      FxRtos/Kernel/Kern.lean
  Subject:   THREADS AND WAITING: the synchronisation framework (fx_sync.c, UP_QUEUE), the events
             that wake and cancel (fx_event.c), and the threads as far as they wait, run and
             end (fx_thread_wait.c, fx_thread_api.c, fx_thread_sys.c, LIMITED APC).

  * `T`, `E`, `Q` -- threads, the user's events, the waitables of the other objects. A thread
    waits through its two wait blocks (`Blk`), the main one and the one for the abort event.
  * A block is linked in the queue it was inserted in last; `rtl_queue_remove` follows its own
    pointers, so it takes the block out wherever it is.
  * A critical section is one function. `fx_thread_wait_object_internal` is two of them, with
    the thread asleep in between.
-/
import FxRtos.Sched.Sched

namespace FxRtos

open Function (update)

/-! ## 1. The data -/

inductive WaitStatus where
  | inProgress
  | satisfied
  | cancelled
  | deleted
  deriving DecidableEq, Repr

inductive ThreadState where
  | ready
  | suspended
  | waiting
  | completed
  deriving DecidableEq, Repr

/-- The status codes of the thread module that the modelled functions return. -/
inductive ThreadStatus where
  | ok
  | waitCancelled
  | waitDeleted
  | waitInterrupted
  | waitTimeout
  | invalidPrio
  | invalidObj
  | invalidTimeout
  deriving DecidableEq, Repr

inductive SyncPolicy where
  | fifo
  | prio
  deriving DecidableEq, Repr

/-- The two blocks of a wait: `wb[0]` and `wb[1]`. -/
inductive Slot where
  | main
  | abort
  deriving DecidableEq, Repr

abbrev Blk (T : Type) := T × Slot

/-- An event: the timer or the completion event of a thread, or one of the user's. -/
inductive Ev (T E : Type) where
  | timer (t : T)
  | completion (t : T)
  | user (e : E)
  deriving DecidableEq

inductive Wtbl (T E Q : Type) where
  | obj (q : Q)
  | ev (e : Ev T E)
  deriving DecidableEq

/-- The union of attribute and status in a wait block. `attribute none` is NULL, which reads as
    the status 0. -/
inductive WaitBlockU (A : Type) where
  | attribute (a : Option A)
  | status (s : WaitStatus)
  deriving DecidableEq

def WaitBlockU.getStatus {A : Type} : WaitBlockU A → WaitStatus
  | .attribute _ => .inProgress
  | .status s => s

def WaitBlockU.getAttr {A : Type} : WaitBlockU A → Option A
  | .attribute a => a
  | .status _ => none

structure WaitBlock (T E Q A : Type) where
  waitable : Option (Wtbl T E Q)
  u : WaitBlockU A

structure Kern (T E Q A : Type) where
  sched : SchedContext T (MpqContainer T)
  state : T → ThreadState
  isTerminating : T → Bool
  wbNum : T → Nat
  wb : Blk T → WaitBlock T E Q A
  wq : Wtbl T E Q → List (Blk T)
  ev : Ev T E → Bool
  timer : T → Bool
  valid : E → Bool

variable {T E Q A O : Type} [DecidableEq T] [DecidableEq E] [DecidableEq Q]

/-! ## 2. The synchronisation framework -/

def Kern.setWb (k : Kern T E Q A) (b : Blk T) (v : WaitBlock T E Q A) : Kern T E Q A :=
  { k with wb := update k.wb b v }

/-- `rtl_queue_remove` of a block. -/
def Kern.unlink (k : Kern T E Q A) (b : Blk T) : Kern T E Q A :=
  { k with wq := fun w => (k.wq w).erase b }

def fxSyncWaitStart (k : Kern T E Q A) (w : Wtbl T E Q) (b : Blk T) : Kern T E Q A :=
  { k.setWb b ⟨some w, (k.wb b).u⟩ with wq := update k.wq w (k.wq w ++ [b]) }

/-- The priority of the waiter of a block. -/
def Kern.prioOf (k : Kern T E Q A) (b : Blk T) : Nat := (k.sched.item b.1).prio

/-- The block to release next: the first one, or the first of those of the highest priority. -/
def fxSyncWaitBlockGet (k : Kern T E Q A) (w : Wtbl T E Q) (policy : SyncPolicy) :
    Option (Blk T) :=
  match k.wq w with
  | [] => none
  | first :: rest =>
    match policy with
    | .fifo => some first
    | .prio =>
      some (rest.foldl (fun next wb => if k.prioOf wb < k.prioOf next then wb else next) first)

def fxSyncWaiterNotify (k : Kern T E Q A) (t : T) : Kern T E Q A :=
  { k with sched := fxSchedItemResume k.sched t, state := update k.state t .ready }

def fxSyncWaitNotifyOne (k : Kern T E Q A) (reason : WaitStatus) (b : Blk T) : Kern T E Q A :=
  fxSyncWaiterNotify (k.setWb b ⟨none, .status reason⟩) b.1

/-- `_fx_sync_wait_notify` of one block. -/
def fxSyncWaitNotify (k : Kern T E Q A) (reason : WaitStatus) (b : Blk T) : Kern T E Q A :=
  fxSyncWaitNotifyOne (k.unlink b) reason b

/-- The loop of `_fx_sync_wait_notify` over all blocks of a queue. -/
def fxSyncWaitNotifyLoop (w : Wtbl T E Q) (reason : WaitStatus) :
    Nat → Kern T E Q A → Kern T E Q A
  | 0, k => k
  | n + 1, k =>
    match k.wq w with
    | [] => k
    | b :: _ => fxSyncWaitNotifyLoop w reason n (fxSyncWaitNotify k reason b)

/-- `_fx_sync_wait_notify` with NULL for the block: one round for each block in the queue. -/
def fxSyncWaitNotifyAll (k : Kern T E Q A) (w : Wtbl T E Q) (reason : WaitStatus) :
    Kern T E Q A :=
  fxSyncWaitNotifyLoop w reason (k.wq w).length k

def fxSyncWaiterPrepare (k : Kern T E Q A) (t : T) (attr : Option A) : Kern T E Q A :=
  { (k.setWb (t, .main) ⟨none, .attribute attr⟩).setWb (t, .abort) ⟨none, .attribute none⟩ with
    wbNum := update k.wbNum t 2 }

/-- The wait block of a test without waiting: it is initialised, and never linked. -/
def fxSyncWaitBlockInit (k : Kern T E Q A) (t : T) (attr : Option A) : Kern T E Q A :=
  k.setWb (t, .main) ⟨none, .attribute attr⟩

/-- One round of `fx_sync_wait_rollback`: only a block that is still queued is cancelled. -/
def fxSyncWaitRollbackOne (k : Kern T E Q A) (b : Blk T) : Kern T E Q A :=
  if (k.wb b).waitable.isSome then (k.unlink b).setWb b ⟨none, .status .cancelled⟩ else k

def fxSyncWaitRollback (k : Kern T E Q A) (t : T) : Nat × Kern T E Q A :=
  (k.wbNum t, ([Slot.main, Slot.abort].take (k.wbNum t)).foldl
    (fun k slot => fxSyncWaitRollbackOne k (t, slot)) { k with wbNum := update k.wbNum t 0 })

/-! ## 3. Events -/

def fxEventInternalSet (k : Kern T E Q A) (e : Ev T E) : Kern T E Q A :=
  if k.ev e then k
  else fxSyncWaitNotifyAll { k with ev := update k.ev e true } (.ev e) .satisfied

def fxEventInternalReset (k : Kern T E Q A) (e : Ev T E) : Kern T E Q A :=
  { k with ev := update k.ev e false }

/-- `fx_event_deinit` of a user's event. -/
def fxEventDeinit (k : Kern T E Q A) (e : E) : Kern T E Q A :=
  fxSyncWaitNotifyAll { k with valid := update k.valid e false } (.ev (.user e)) .deleted

def fxEventTestAndWait (k : Kern T E Q A) (e : Ev T E) (b : Blk T) (wait : Bool) :
    Bool × Kern T E Q A :=
  (k.ev e, if k.ev e = false ∧ wait then fxSyncWaitStart k (.ev e) b else k)

/-! ## 4. Waiting -/

def fxThreadGetWaitStatus (obj0 obj1 : WaitStatus) : ThreadStatus :=
  if obj0 = .satisfied then .ok
  else if obj1 = .satisfied then .waitCancelled
  else if obj0 = .deleted ∨ obj1 = .deleted then .waitDeleted
  else .waitInterrupted

/-- The thread suspends itself for a wait. -/
def fxThreadSleepOn (k : Kern T E Q A) (me : T) : Kern T E Q A :=
  { k with sched := fxSchedItemSuspend k.sched me, state := update k.state me .waiting }

/-- `fx_thread_wait_object_internal` up to the point where the thread is switched away from:
    `some` is the result where the wait is skipped, `none` means the thread is asleep. The test
    function of the object is a parameter. -/
def fxThreadWaitObjectEnter (testWait : Bool → Kern T E Q A × O → Bool × Kern T E Q A × O)
    (me : T) (attr : Option A) (abortEvent : Option (Ev T E)) (s : Kern T E Q A × O) :
    Option ThreadStatus × Kern T E Q A × O :=
  match testWait true (fxSyncWaiterPrepare s.1 me attr, s.2) with
  | (true, k1, o1) => (some .ok, (fxSyncWaitRollback k1 me).2, o1)
  | (false, k1, o1) =>
    match abortEvent with
    | none => (none, fxThreadSleepOn k1 me, o1)
    | some e =>
      match fxEventTestAndWait k1 e (me, .abort) true with
      | (true, k2) => (some .waitCancelled, (fxSyncWaitRollback k2 me).2, o1)
      | (false, k2) => (none, fxThreadSleepOn k2 me, o1)

/-- `fx_thread_wait_object_internal` from the point where the thread was woken up. -/
def fxThreadWaitObjectLeave (k : Kern T E Q A) (me : T) : ThreadStatus × Kern T E Q A :=
  let (rolledBackWbNum, k1) := fxSyncWaitRollback k me
  (if rolledBackWbNum ≠ 0 then
      fxThreadGetWaitStatus (k1.wb (me, .main)).u.getStatus (k1.wb (me, .abort)).u.getStatus
    else .waitInterrupted, k1)

def fxThreadInfiniteTimeout : BitVec 32 := 0xFFFFFFFF#32

/-- The way a wait goes on from its arguments. -/
inductive WaitMode (E : Type) where
  | forever
  | cancel (e : E)
  | poll
  | timed
  | reject (error : ThreadStatus)
  deriving DecidableEq

/-- The branches of `fx_thread_timedwait_object`; `FX_TIMER_MAX_RELATIVE_TIMEOUT` is
    0x7FFFFFFF. -/
def fxThreadTimedwaitMode (timeout : BitVec 32) : WaitMode E :=
  if timeout = fxThreadInfiniteTimeout then .forever
  else if timeout = 0 then .poll
  else if timeout.toNat < 0x7FFFFFFF then .timed
  else .reject .invalidTimeout

/-- The branches of `fx_thread_wait_object`, with parameter checks or without. -/
def fxThreadWaitMode (checks : Bool) (k : Kern T E Q A) : Option E → WaitMode E
  | none => .forever
  | some e => if checks ∧ k.valid e = false then .reject .invalidObj else .cancel e

/-! ## 5. Threads -/

/-- `fx_thread_ctor` on zeroed memory: only the idle thread, not dispatched yet. -/
def fxThreadCtor (prioNum : Nat) (idle : T) : Kern T E Q A where
  sched := fxSchedItemResume (fxSchedItemInitIdle (fxSchedCtor idle) idle (prioNum - 1)) idle
  state _ := .ready
  isTerminating _ := false
  wbNum _ := 0
  wb _ := ⟨none, .attribute none⟩
  wq _ := []
  ev _ := false
  timer _ := false
  valid _ := true

def fxThreadInitEx (k : Kern T E Q A) (t : T) (priority : Nat) (createSuspended : Bool) :
    Kern T E Q A :=
  let k1 := { k with
    state := update k.state t .suspended
    isTerminating := update k.isTerminating t false
    sched := fxSchedItemInit k.sched t priority
    ev := update (update k.ev (.completion t) false) (.timer t) false
    wq := update (update k.wq (.ev (.completion t)) []) (.ev (.timer t)) [] }
  if createSuspended then k1
  else { k1 with
    state := update k1.state t .ready
    sched := fxSchedItemResume k1.sched t }

def fxTimerCancel (k : Kern T E Q A) (t : T) : Kern T E Q A :=
  { k with timer := update k.timer t false }

def fxTimerSet (k : Kern T E Q A) (t : T) : Kern T E Q A :=
  { k with timer := update k.timer t true }

/-- The timer of a thread runs out, and sets its timer event. -/
def fxTimerExpire (k : Kern T E Q A) (t : T) : Kern T E Q A :=
  fxEventInternalSet (fxTimerCancel k t) (.timer t)

def fxThreadExitSync (k : Kern T E Q A) (me : T) : Kern T E Q A :=
  { k with state := update k.state me .completed, sched := fxSchedItemRemove k.sched me }

/-- The termination DPC, called directly: `fx_thread_apc_helper_dpc`. -/
def fxThreadApcHelperDpc (k : Kern T E Q A) (t : T) : Kern T E Q A :=
  let k1 := (fxSyncWaitRollback (fxTimerCancel k t) t).2
  fxEventInternalSet (fxThreadExitSync k1 t) (.completion t)

def fxThreadTerminate (k : Kern T E Q A) (t : T) : Kern T E Q A :=
  if k.isTerminating t then k
  else fxThreadApcHelperDpc { k with isTerminating := update k.isTerminating t true } t

def fxThreadSuspend (k : Kern T E Q A) (me : T) : Kern T E Q A :=
  { k with sched := fxSchedItemSuspend k.sched me, state := update k.state me .suspended }

def fxThreadResume (k : Kern T E Q A) (t : T) : Kern T E Q A :=
  if k.state t = .suspended then
    { k with sched := fxSchedItemResume k.sched t, state := update k.state t .ready }
  else k

def Kern.setPrio (k : Kern T E Q A) (t : T) (prio : Nat) : Kern T E Q A :=
  { k with sched := fxSchedItemSetParams k.sched t prio }

/-- `fx_thread_set_params` with `FX_THREAD_PARAM_PRIO`. -/
def fxThreadSetParamsPrio (prioIdle : Nat) (k : Kern T E Q A) (t : T) (value : Nat) :
    ThreadStatus × Kern T E Q A :=
  if value < prioIdle then (.ok, k.setPrio t value) else (.invalidPrio, k)

def fxThreadYield (k : Kern T E Q A) (me : T) : Kern T E Q A :=
  { k with sched := fxSchedYield k.sched me }

/-- `fx_dispatch_handler`: the completion event of a thread that ended itself is set when the
    next one is switched to. The thread switched from is the active item. -/
def fxDispatchHandler (k : Kern T E Q A) : Kern T E Q A :=
  let k1 := { k with sched := (fxSchedGetNext k.sched).2 }
  match (fxSchedGetNext k.sched).1 with
  | some next =>
    if next ≠ k.sched.active ∧ k.state k.sched.active = .completed then
      fxEventInternalSet k1 (.completion k.sched.active)
    else k1
  | none => k1

end FxRtos
