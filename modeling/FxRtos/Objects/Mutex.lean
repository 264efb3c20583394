/-
  File:      FxRtos/Objects/Mutex.lean
  Subject:   MUTEXES AND CONDITION VARIABLES (fx_mutex.c, fx_cond.c): any number of both, and
             waitables of other objects beside them.

  * `fxMutexTestAndWait`, `fxMutexReleaseWithPolicy` -- the mutex, with recursion, priority
    ceiling and the hand-off to a waiter.
  * `fxCondTestAndWait` -- a condition variable releases the mutex inside the test of the wait;
    `reacquire` is the second wait of `fx_cond_wait`.
  * `History` -- what the properties speak of and the code does not keep.
-/
import FxRtos.Kernel.Granted

namespace FxRtos

open Function (update)
open Lib

set_option linter.unusedSectionVars false

/-! ## 1. The data -/

/-- The waitables: of the mutexes, the condition variables and other objects. -/
inductive SyncQ (M V X : Type) where
  | mutex (m : M)
  | cond (v : V)
  | other (x : X)
  deriving DecidableEq

/-- `ceiling` is `ceiling_orig`, where ceiling is enabled. Nesting stays below the bound that
    `fx_dbg_assert` states, so `recursiveLocks` does not wrap. -/
structure FxMutex (T : Type) where
  owner : Option T
  recursiveLocks : Nat
  policy : SyncPolicy
  ceiling : Option Nat
  ownerParams : Nat
  valid : Bool

structure FxCond where
  policy : SyncPolicy
  valid : Bool

/-- `held` are the acquires that returned OK, less the releases; `stack` the mutexes with ceiling
    a thread owns, the last one granted first; `status` is what the last wait on a condition
    variable returned, `none` for `FX_COND_MUTEX_ERROR`. -/
structure History (T M : Type) where
  held : T → M → Nat
  stack : T → List M
  status : T → Option ThreadStatus

structure MutexWorld (T M V X : Type) where
  mutex : M → FxMutex T
  cond : V → FxCond
  /-- Whether the test of another object would succeed. -/
  other : X → Bool
  hist : History T M

/-- A call. In a wait on a condition variable `depth` is the value of `recursiveLocks` at the
    call, and `accepted` whether the arguments of the wait are. -/
inductive MutexCall (M V X E : Type) where
  | acquire (m : M) (args : WaitArgs E)
  | condWait (v : V) (m : M) (args : WaitArgs E) (depth : Nat) (accepted : Bool)
  | reacquire (m : M) (res : ThreadStatus) (depth : Nat) (accepted : Bool)
  | other (x : X) (args : WaitArgs E)

inductive MutexStatus where
  | ok
  | wrongOwner
  | invalidObj
  deriving DecidableEq, Repr

inductive CondStatus where
  | ok
  | noWaiters
  deriving DecidableEq, Repr

variable {T E M V X : Type} [DecidableEq T] [DecidableEq E] [DecidableEq M] [DecidableEq V]
  [DecidableEq X]

/-- The attribute of a wait on a condition variable is the mutex. -/
abbrev MutexKern (T E M V X : Type) := Kern T E (SyncQ M V X) M

abbrev MutexState (T E M V X : Type) := MutexKern T E M V X × MutexWorld T M V X

def MutexWorld.setMutex (o : MutexWorld T M V X) (m : M) (mx : FxMutex T) : MutexWorld T M V X :=
  { o with mutex := update o.mutex m mx }

/-- The priority a thread is scheduled with. -/
def Kern.prio {Q A : Type} (k : Kern T E Q A) (t : T) : Nat := (k.sched.item t).prio

/-! ## 2. Mutexes -/

/-- The priority of a new owner is saved, and raised to the ceiling if that is higher. -/
def fxMutexApplyCeiling (k : MutexKern T E M V X) (t : T) (mx : FxMutex T) :
    MutexKern T E M V X × FxMutex T :=
  match mx.ceiling with
  | some ceiling =>
    (if ceiling < k.prio t then k.setPrio t ceiling else k, { mx with ownerParams := k.prio t })
  | none => (k, mx)

/-- The new owner in the history. -/
def History.own (h : History T M) (mx : FxMutex T) (t : T) (m : M) : History T M :=
  { h with stack := if mx.ceiling.isSome then update h.stack t (m :: h.stack t) else h.stack }

/-- The mutex given to `t`, with the ceiling applied. -/
def fxMutexOwn (t : T) (m : M) (s : MutexState T E M V X) : MutexState T E M V X :=
  let mx := s.2.mutex m
  let r := fxMutexApplyCeiling s.1 t { mx with owner := some t }
  (r.1, { s.2.setMutex m r.2 with hist := s.2.hist.own mx t m })

def fxMutexTestAndWait (m : M) (me : T) (wait : Bool) (s : MutexState T E M V X) :
    Bool × MutexState T E M V X :=
  let mx := s.2.mutex m
  if mx.owner = none then (true, fxMutexOwn me m s)
  else if mx.owner = some me then
    (true, s.1, s.2.setMutex m { mx with recursiveLocks := mx.recursiveLocks + 1 })
  else (false, if wait then fxSyncWaitStart s.1 (.obj (.mutex m)) (me, .main) else s.1, s.2)

/-- One release less to come, in the history. -/
def History.release (h : History T M) (me : T) (m : M) : History T M :=
  { h with held := update h.held me (update (h.held me) m (h.held me m - 1)) }

/-- The owner gives the mutex up, in the history. -/
def History.disown (h : History T M) (me : T) (m : M) : History T M :=
  { h with stack := update h.stack me ((h.stack me).erase m) }

/-- The mutex is handed over to the waiter that the policy selects, or becomes free. -/
def fxMutexHandOver (me : T) (m : M) (policy : SyncPolicy) (s : MutexState T E M V X) :
    MutexState T E M V X :=
  let o := { s.2 with hist := (s.2.hist.release me m).disown me m }
  match fxSyncWaitBlockGet s.1 (.obj (.mutex m)) policy with
  | some wb =>
    let r := fxMutexOwn wb.1 m (s.1, o)
    (fxSyncWaitNotify r.1 .satisfied wb, r.2)
  | none => (s.1, o.setMutex m { s.2.mutex m with owner := none })

/-- The priority that was saved when the mutex was acquired is restored. -/
def fxMutexRestore (me : T) (mx : FxMutex T) (k : MutexKern T E M V X) : MutexKern T E M V X :=
  if mx.ceiling.isSome ∧ mx.ownerParams ≠ k.prio me then k.setPrio me mx.ownerParams else k

/-- The part of `fx_mutex_release_with_policy` under the lock. -/
def fxMutexReleaseLocked (me : T) (m : M) (policy : SyncPolicy) (s : MutexState T E M V X) :
    MutexState T E M V X :=
  let mx := s.2.mutex m
  if mx.recursiveLocks = 0 then
    let r := fxMutexHandOver me m policy s
    (fxMutexRestore me mx r.1, r.2)
  else
    (s.1, { s.2.setMutex m { mx with recursiveLocks := mx.recursiveLocks - 1 } with
      hist := s.2.hist.release me m })

def fxMutexReleaseWithPolicy (checks : Bool) (me : T) (m : M) (policy : SyncPolicy)
    (s : MutexState T E M V X) : MutexStatus × MutexState T E M V X :=
  let mx := s.2.mutex m
  if checks ∧ mx.owner ≠ some me then (.wrongOwner, s)
  else if checks ∧ mx.valid = false then (.invalidObj, s)
  else (.ok, fxMutexReleaseLocked me m policy s)

def fxMutexRelease (checks : Bool) (me : T) (m : M) (s : MutexState T E M V X) :
    MutexStatus × MutexState T E M V X :=
  fxMutexReleaseWithPolicy checks me m (s.2.mutex m).policy s

/-- `fx_mutex_init` with parameters that pass its checks. The saved parameters are initialised
    to the default priority, next to that of the idle thread. -/
def fxMutexInit (prioIdle : Nat) (ceiling : Option Nat) (policy : SyncPolicy) : FxMutex T :=
  ⟨none, 0, policy, ceiling, prioIdle - 1, true⟩

/-- The check of the priority in `fx_mutex_init`: disabled, or above that of the idle thread. -/
def CeilingOk (prioIdle : Nat) (ceiling : Option Nat) : Prop := ∀ p ∈ ceiling, p < prioIdle

def fxCondInit (policy : SyncPolicy) : FxCond := ⟨policy, true⟩

/-- Mutexes and condition variables just initialised, and other objects that are not signalled. -/
def mutexBoot (prioIdle : Nat) (ceiling : M → Option Nat) (policy : M → SyncPolicy)
    (condPolicy : V → SyncPolicy) : MutexWorld T M V X where
  mutex m := fxMutexInit prioIdle (ceiling m) (policy m)
  cond v := fxCondInit (condPolicy v)
  other _ := false
  hist := ⟨fun _ _ => 0, fun _ => [], fun _ => none⟩

/-- With an owner and ceiling enabled, the owner is un-ceiled, whatever became of it. -/
def fxMutexDeinit (m : M) (s : MutexState T E M V X) : MutexState T E M V X :=
  let mx := s.2.mutex m
  let k := fxSyncWaitNotifyAll s.1 (.obj (.mutex m)) .deleted
  (match mx.owner with
    | some owner => if mx.ceiling.isSome then k.setPrio owner mx.ownerParams else k
    | none => k, s.2.setMutex m { mx with valid := false })

/-- NULL for an invalid mutex, with parameter checks. -/
def fxMutexGetOwner (checks : Bool) (mx : FxMutex T) : Option T :=
  if checks ∧ mx.valid = false then none else mx.owner

/-! ## 3. Condition variables -/

/-- The block is queued, and the mutex that is the attribute of the wait released. -/
def fxCondTestAndWait (checks : Bool) (v : V) (me : T) (wait : Bool) (s : MutexState T E M V X) :
    Bool × MutexState T E M V X :=
  let k := if wait then fxSyncWaitStart s.1 (.obj (.cond v)) (me, .main) else s.1
  match (s.1.wb (me, .main)).u.getAttr with
  | some m => (false, (fxMutexRelease checks me m (k, s.2)).2)
  | none => (false, k, s.2)

def fxCondSignalWithPolicy (v : V) (policy : SyncPolicy) (k : MutexKern T E M V X) :
    CondStatus × MutexKern T E M V X :=
  match fxSyncWaitBlockGet k (.obj (.cond v)) policy with
  | some wb => (.ok, fxSyncWaitNotify k .satisfied wb)
  | none => (.noWaiters, k)

def fxCondBroadcast (v : V) (k : MutexKern T E M V X) : MutexKern T E M V X :=
  fxSyncWaitNotifyAll k (.obj (.cond v)) .satisfied

def fxCondDeinit (v : V) (s : MutexState T E M V X) : MutexState T E M V X :=
  (fxSyncWaitNotifyAll s.1 (.obj (.cond v)) .deleted,
    { s.2 with cond := update s.2.cond v { s.2.cond v with valid := false } })

/-! ## 4. The calls -/

/-- Whether `fx_thread_wait_object` or `fx_thread_timedwait_object` goes on to the wait. -/
def WaitArgs.accepted (checks : Bool) (k : MutexKern T E M V X) : WaitArgs E → Bool
  | .event none => true
  | .event (some e) => !checks || k.valid e
  | .timeout ticks => ticks = fxThreadInfiniteTimeout ∨ ticks.toNat < 0x7FFFFFFF

/-- The checks at the start of a call. A wait on a condition variable by a thread that does not
    own the mutex returns an error with parameter checks, and is not called without. -/
def fxMutexStart (checks : Bool) (k : MutexKern T E M V X) (o : MutexWorld T M V X) (me : T) :
    MutexCall M V X E → Option (MutexCall M V X E)
  | .acquire m args =>
    if checks ∧ (o.mutex m).valid = false then none else some (.acquire m args)
  | .condWait v m args _ _ =>
    if checks ∧ (o.cond v).valid = false ∨ fxMutexGetOwner checks (o.mutex m) ≠ some me then none
    else some (.condWait v m args (o.mutex m).recursiveLocks (args.accepted checks k))
  | .reacquire .. => none
  | .other x args => some (.other x args)

def MutexCall.queue : MutexCall M V X E → SyncQ M V X
  | .acquire m _ => .mutex m
  | .condWait v _ _ _ _ => .cond v
  | .reacquire m _ _ _ => .mutex m
  | .other x _ => .other x

def MutexCall.attr : MutexCall M V X E → Option M
  | .condWait _ m _ _ _ => some m
  | _ => none

def MutexCall.args : MutexCall M V X E → WaitArgs E
  | .acquire _ args => args
  | .condWait _ _ args _ _ => args
  | .reacquire .. => .event none
  | .other _ args => args

/-- The test of another object succeeds, or queues. -/
def otherTestAndWait (x : X) (me : T) (wait : Bool) (s : MutexState T E M V X) :
    Bool × MutexState T E M V X :=
  if s.2.other x then (true, s)
  else (false, if wait then fxSyncWaitStart s.1 (.obj (.other x)) (me, .main) else s.1, s.2)

/-- An acquire that returned OK. -/
def History.acquired (h : History T M) (me : T) (m : M) : History T M :=
  { h with held := update h.held me (update (h.held me) m (h.held me m + 1)) }

/-- The ends of the calls. After a wait on a condition variable the mutex is acquired again. -/
def fxMutexEnd (checks : Bool) (me : T) (res : ThreadStatus) (s : MutexState T E M V X) :
    MutexCall M V X E → Option (MutexCall M V X E) × MutexState T E M V X
  | .acquire m _ =>
    (none, s.1, if res = .ok then { s.2 with hist := s.2.hist.acquired me m } else s.2)
  | .condWait _ m _ depth accepted =>
    if checks ∧ (s.2.mutex m).valid = false then
      (none, s.1, { s.2 with hist := { s.2.hist with status := update s.2.hist.status me none } })
    else (some (.reacquire m res depth accepted), s)
  | .reacquire m condRes _ _ =>
    (none, s.1,
      if res = .ok then
        { s.2 with hist := { s.2.hist.acquired me m with
          status := update s.2.hist.status me (some condRes) } }
      else { s.2 with hist := { s.2.hist with status := update s.2.hist.status me none } })
  | .other _ _ => (none, s)

/-! ## 5. The operations -/

/-- `otherSet` and `otherNotify` stand for whatever the other objects do. -/
inductive MutexOp (T M V X : Type) where
  | releaseWithPolicy (me : T) (m : M) (policy : SyncPolicy)
  | release (me : T) (m : M)
  | deinit (m : M)
  | signalWithPolicy (v : V) (policy : SyncPolicy)
  | signal (v : V)
  | broadcast (v : V)
  | condDeinit (v : V)
  | otherSet (x : X) (value : Bool)
  | otherNotify (x : X) (wb : Blk T) (reason : WaitStatus)

def MutexOp.caller : MutexOp T M V X → Option T
  | .releaseWithPolicy me _ _ => some me
  | .release me _ => some me
  | _ => none

/-- The thread, the mutex and the policy of a release. -/
def MutexOp.releases (o : MutexWorld T M V X) : MutexOp T M V X → Option (T × M × SyncPolicy)
  | .releaseWithPolicy me m policy => some (me, m, policy)
  | .release me m => some (me, m, (o.mutex m).policy)
  | _ => none

/-- What a signal does to the state. -/
def condSignal (checks : Bool) (v : V) (policy : SyncPolicy) (s : MutexState T E M V X) :
    MutexState T E M V X :=
  if checks ∧ (s.2.cond v).valid = false then s
  else ((fxCondSignalWithPolicy v policy s.1).2, s.2)

/-- Without parameter checks only the owner releases a mutex. -/
def MutexOp.run (checks : Bool) : MutexOp T M V X → MutexState T E M V X →
    Option (MutexState T E M V X)
  | .releaseWithPolicy me m policy, s =>
    if checks ∨ (s.2.mutex m).owner = some me then
      some (fxMutexReleaseWithPolicy checks me m policy s).2
    else none
  | .release me m, s =>
    if checks ∨ (s.2.mutex m).owner = some me then some (fxMutexRelease checks me m s).2 else none
  | .deinit m, s =>
    some (if checks ∧ (s.2.mutex m).valid = false then s else fxMutexDeinit m s)
  | .signalWithPolicy v policy, s => some (condSignal checks v policy s)
  | .signal v, s => some (condSignal checks v (s.2.cond v).policy s)
  | .broadcast v, s =>
    some (if checks ∧ (s.2.cond v).valid = false then s else (fxCondBroadcast v s.1, s.2))
  | .condDeinit v, s =>
    some (if checks ∧ (s.2.cond v).valid = false then s else fxCondDeinit v s)
  | .otherSet x value, s => some (s.1, { s.2 with other := update s.2.other x value })
  | .otherNotify x wb reason, s =>
    if wb ∈ s.1.wq (.obj (.other x)) ∧ (reason = .satisfied ∨ reason = .deleted) then
      some (fxSyncWaitNotify s.1 reason wb, s.2)
    else none

theorem MutexOp.run_releases {checks : Bool} {p : MutexOp T M V X} {s : MutexState T E M V X}
    {me : T} {m : M} {policy : SyncPolicy} (h : p.releases s.2 = some (me, m, policy)) :
    p.run checks s = if checks ∨ (s.2.mutex m).owner = some me then
      some (fxMutexReleaseWithPolicy checks me m policy s).2 else none := by
  cases p with
  | releaseWithPolicy me' m' policy' => cases h; rfl
  | release me' m' => cases h; rfl
  | _ => cases h

def fxMutexTest (checks : Bool) (me : T) (wait : Bool) (s : MutexState T E M V X) :
    MutexCall M V X E → Bool × MutexState T E M V X
  | .acquire m _ => fxMutexTestAndWait m me wait s
  | .condWait v _ _ _ _ => fxCondTestAndWait checks v me wait s
  | .reacquire m _ _ _ => fxMutexTestAndWait m me wait s
  | .other x _ => otherTestAndWait x me wait s

def fxMutex (checks : Bool) : WaitObject T E (SyncQ M V X) M (MutexWorld T M V X)
    (MutexCall M V X E) (MutexOp T M V X) where
  start := fxMutexStart checks
  waitable c := .obj c.queue
  attr c := c.attr
  args c := c.args
  testWait me c wait s := fxMutexTest checks me wait s c
  after me c res s := fxMutexEnd checks me res s c
  caller p := p.caller
  op p s := p.run checks s

/-! ## 6. Lawfulness -/

section Ordnung

variable {checks : Bool} {k : MutexKern T E M V X} {s : MutexState T E M V X} {me t : T} {m : M}
  {mx : FxMutex T} {ex : T → Prop} {policy : SyncPolicy}

/-- Blocks and queues are not touched, nor anything else but priorities. -/
theorem fxMutexApplyCeiling_moves (ex : T → Prop) (k : MutexKern T E M V X) (t : T)
    (mx : FxMutex T) : Moves IsObj ex k (fxMutexApplyCeiling k t mx).1 := by
  unfold fxMutexApplyCeiling
  split
  · dsimp only
    split
    · exact Moves.refl.setPrio t _
    · exact .refl
  · exact .refl

theorem fxMutexApplyCeiling_wq (k : MutexKern T E M V X) (t : T) (mx : FxMutex T) :
    (fxMutexApplyCeiling k t mx).1.wq = k.wq := by
  unfold fxMutexApplyCeiling
  split
  · dsimp only
    split <;> rfl
  · rfl

theorem fxMutexApplyCeiling_wb (k : MutexKern T E M V X) (t : T) (mx : FxMutex T) :
    (fxMutexApplyCeiling k t mx).1.wb = k.wb := by
  unfold fxMutexApplyCeiling
  split
  · dsimp only
    split <;> rfl
  · rfl

theorem fxMutexRestore_moves (ex : T → Prop) (me : T) (mx : FxMutex T) (k : MutexKern T E M V X) :
    Moves IsObj ex k (fxMutexRestore me mx k) := by
  unfold fxMutexRestore
  split
  · exact Moves.refl.setPrio me _
  · exact .refl

theorem fxMutexRestore_wb (me : T) (mx : FxMutex T) (k : MutexKern T E M V X) :
    (fxMutexRestore me mx k).wb = k.wb := by
  unfold fxMutexRestore
  split <;> rfl

theorem fxMutexHandOver_moves (hx : ∀ b ∈ s.1.wq (.obj (.mutex m)), ¬ ex b.1) :
    Moves IsObj ex s.1 (fxMutexHandOver me m policy s).1 := by
  unfold fxMutexHandOver
  dsimp only
  split
  · rename_i wb hget
    have hwb := fxSyncWaitBlockGet_mem hget
    refine (fxMutexApplyCeiling_moves ex s.1 wb.1 _).notify (w := .obj (.mutex m)) ?_ trivial
      (hx wb hwb) (Or.inl rfl)
    rw [fxMutexApplyCeiling_wq]
    exact hwb
  · exact .refl

/-- A release moves the kernel, without a thread that has no block in the queue. -/
theorem fxMutexReleaseWithPolicy_moves (hx : ∀ b ∈ s.1.wq (.obj (.mutex m)), ¬ ex b.1) :
    Moves IsObj ex s.1 (fxMutexReleaseWithPolicy checks me m policy s).2.1 := by
  unfold fxMutexReleaseWithPolicy fxMutexReleaseLocked
  dsimp only
  repeat' split
  · exact .refl
  · exact .refl
  · exact (fxMutexHandOver_moves hx).trans (fxMutexRestore_moves ex me _ _)
  · exact .refl

/-- **The outcomes of the test of a mutex.** -/
theorem fxMutexTestAndWait_cases (m : M) (me : T) (wait : Bool) (s : MutexState T E M V X) :
    ((s.2.mutex m).owner = none ∧ fxMutexTestAndWait m me wait s = (true, fxMutexOwn me m s)) ∨
    ((s.2.mutex m).owner = some me ∧ fxMutexTestAndWait m me wait s =
      (true, s.1, s.2.setMutex m { s.2.mutex m with
        recursiveLocks := (s.2.mutex m).recursiveLocks + 1 })) ∨
    ((s.2.mutex m).owner ≠ none ∧ (s.2.mutex m).owner ≠ some me ∧ fxMutexTestAndWait m me wait s =
      (false, if wait then fxSyncWaitStart s.1 (.obj (.mutex m)) (me, .main) else s.1, s.2)) := by
  unfold fxMutexTestAndWait
  dsimp only
  split
  · rename_i h
    exact Or.inl ⟨h, rfl⟩
  · rename_i h
    split
    · rename_i h'
      exact Or.inr (Or.inl ⟨h', rfl⟩)
    · rename_i h'
      exact Or.inr (Or.inr ⟨h, h', rfl⟩)

/-- The test of a mutex, in lawful form. -/
theorem fxMutexTestAndWait_moves (m : M) (me : T) (wait : Bool) (s : MutexState T E M V X) :
    ((fxMutexTestAndWait m me wait s).1 = true →
      Moves IsObj (· = me) s.1 (fxMutexTestAndWait m me wait s).2.1) ∧
    ((fxMutexTestAndWait m me wait s).1 = false → (fxMutexTestAndWait m me wait s).2.1 =
      if wait then fxSyncWaitStart s.1 (.obj (.mutex m)) (me, .main) else s.1) := by
  rcases fxMutexTestAndWait_cases m me wait s with ⟨_, e⟩ | ⟨_, e⟩ | ⟨_, _, e⟩
  all_goals rw [e]
  · exact ⟨fun _ => fxMutexApplyCeiling_moves _ s.1 me _, nofun⟩
  · exact ⟨fun _ => .refl, nofun⟩
  · exact ⟨nofun, fun _ => rfl⟩

/-- Queueing on a condition variable leaves the queues of the mutexes alone. -/
theorem condQueued_wq (k : MutexKern T E M V X) (v : V) (m : M) (b : Blk T) :
    (fxSyncWaitStart k (.obj (.cond v)) b).wq (.obj (.mutex m)) = k.wq (.obj (.mutex m)) := by
  refine waitStart_wq_ne fun e => ?_
  cases e

/-- The test of a condition variable queues the block and then moves the kernel. -/
theorem fxCondTestAndWait_moves (checks : Bool) (v : V) (wait : Bool) (ha : Awake s.1 me) :
    (fxCondTestAndWait checks v me wait s).1 = false ∧
    Moves IsObj (· = me)
      (if wait then fxSyncWaitStart s.1 (.obj (.cond v)) (me, .main) else s.1)
      (fxCondTestAndWait checks v me wait s).2.1 := by
  unfold fxCondTestAndWait
  dsimp only
  split
  · rename_i m hm
    refine ⟨rfl, ?_⟩
    show Moves IsObj (· = me) _ (fxMutexReleaseWithPolicy checks me m _ (_, s.2)).2.1
    refine fxMutexReleaseWithPolicy_moves (s := (_, s.2)) fun b hb => ?_
    refine ha.ne_of_mem (w := .obj (.mutex m)) ?_
    cases wait with
    | true =>
      rw [← condQueued_wq s.1 v m (me, .main)]
      exact hb
    | false => exact hb
  · exact ⟨rfl, .refl⟩

/-- The kernel is not touched after a wait. -/
theorem fxMutexEnd_kern (checks : Bool) (me : T) (res : ThreadStatus) (s : MutexState T E M V X)
    (c : MutexCall M V X E) : (fxMutexEnd checks me res s c).2.1 = s.1 := by
  cases c with
  | condWait v m args depth accepted =>
    simp only [fxMutexEnd]
    split <;> rfl
  | _ => rfl

theorem condSignal_moves (checks : Bool) (v : V) (policy : SyncPolicy) (s : MutexState T E M V X) :
    Moves IsObj NoOne s.1 (condSignal checks v policy s).1 := by
  unfold condSignal
  split
  · exact .refl
  · unfold fxCondSignalWithPolicy
    split
    · rename_i wb hget
      exact Moves.wake hget trivial (Or.inl rfl)
    · exact .refl

theorem fxMutexDeinit_moves (m : M) (s : MutexState T E M V X) :
    Moves IsObj NoOne s.1 (fxMutexDeinit m s).1 := by
  have h1 : Moves IsObj NoOne s.1 (fxSyncWaitNotifyAll s.1 (.obj (.mutex m)) .deleted) :=
    Moves.notifyAll (w := .obj (.mutex m)) trivial (Or.inr rfl) s.1
  unfold fxMutexDeinit
  dsimp only
  split
  · split
    · exact h1.setPrio _ _
    · exact h1
  · exact h1

theorem condNotifyAll_moves (v : V) {r : WaitStatus} (hr : r = .satisfied ∨ r = .deleted)
    (k : MutexKern T E M V X) :
    Moves IsObj NoOne k (fxSyncWaitNotifyAll k (.obj (.cond v)) r) :=
  Moves.notifyAll (w := .obj (.cond v)) trivial hr k

theorem MutexOp.run_moves {p : MutexOp T M V X} {s s' : MutexState T E M V X}
    (h : p.run checks s = some s') : Moves IsObj NoOne s.1 s'.1 := by
  cases p with
  | releaseWithPolicy me m policy =>
    obtain ⟨_, rfl⟩ := taken h
    exact fxMutexReleaseWithPolicy_moves fun _ _ => not_false
  | release me m =>
    obtain ⟨_, rfl⟩ := taken h
    exact fxMutexReleaseWithPolicy_moves fun _ _ => not_false
  | deinit m =>
    cases h
    split
    · exact .refl
    · exact fxMutexDeinit_moves m s
  | signalWithPolicy v policy =>
    cases h
    exact condSignal_moves checks v policy s
  | signal v =>
    cases h
    exact condSignal_moves checks v _ s
  | broadcast v =>
    cases h
    split
    · exact .refl
    · exact condNotifyAll_moves v (Or.inl rfl) s.1
  | condDeinit v =>
    cases h
    split
    · exact .refl
    · exact condNotifyAll_moves v (Or.inr rfl) s.1
  | otherSet x value =>
    cases h
    exact .refl
  | otherNotify x wb reason =>
    obtain ⟨⟨hb, hr⟩, rfl⟩ := taken h
    exact Moves.refl.notify hb trivial not_false hr

/-- The kernel after a test that succeeded, and after one that did not. -/
theorem fxMutexTest_moves (checks : Bool) (c : MutexCall M V X E) (wait : Bool)
    (ha : Awake s.1 me) :
    ((fxMutexTest checks me wait s c).1 = true →
      Moves IsObj (· = me) s.1 (fxMutexTest checks me wait s c).2.1) ∧
    ((fxMutexTest checks me wait s c).1 = false → Moves IsObj (· = me)
      (if wait then fxSyncWaitStart s.1 (.obj c.queue) (me, .main) else s.1)
      (fxMutexTest checks me wait s c).2.1) := by
  have hmutex : ∀ m : M, _ := fun m => fxMutexTestAndWait_moves m me wait s
  cases c with
  | acquire m args =>
    refine ⟨(hmutex m).1, fun h => ?_⟩
    rw [show (fxMutexTest checks me wait s (.acquire m args)).2.1 = _ from (hmutex m).2 h]
    exact .refl
  | reacquire m res depth accepted =>
    refine ⟨(hmutex m).1, fun h => ?_⟩
    rw [show (fxMutexTest checks me wait s (.reacquire m res depth accepted)).2.1 = _ from
      (hmutex m).2 h]
    exact .refl
  | condWait v m args depth accepted =>
    obtain ⟨hf, hm⟩ := fxCondTestAndWait_moves checks v wait ha
    refine ⟨fun h => ?_, fun _ => hm⟩
    rw [show (fxMutexTest checks me wait s (.condWait v m args depth accepted)).1 = false from hf]
      at h
    cases h
  | other x args =>
    simp only [fxMutexTest, otherTestAndWait]
    split
    · exact ⟨fun _ => .refl, fun h => Bool.noConfusion h⟩
    · exact ⟨fun h => Bool.noConfusion h, fun _ => .refl⟩

theorem fxMutex_lawful (checks : Bool) :
    (fxMutex checks : WaitObject T E (SyncQ M V X) _ _ _ _).Lawful where
  testTrue me c wait s s' ha h := by
    have := (fxMutexTest_moves checks c wait ha).1
    rw [show fxMutexTest checks me wait s c = _ from h] at this
    exact this rfl
  testPoll me c s s' ha h := by
    have := (fxMutexTest_moves checks c false ha).2
    rw [show fxMutexTest checks me false s c = _ from h] at this
    exact this rfl
  testWait me c s s' ha h := by
    have := (fxMutexTest_moves checks c true ha).2
    rw [show fxMutexTest checks me true s c = _ from h] at this
    exact ⟨nofun, this rfl⟩
  after me c r s := by
    rw [show ((fxMutex checks).after me c r s).2.1 = s.1 from fxMutexEnd_kern checks me r s c]
    exact .refl
  op p s s' _ _ h := MutexOp.run_moves h

end Ordnung

/-! ## 7. What is fixed when a mutex is initialised -/

/-- The policies, the ceilings and the validity of all mutexes are the same. -/
def SameConf (o o' : MutexWorld T M V X) : Prop :=
  ∀ m, (o'.mutex m).policy = (o.mutex m).policy ∧ (o'.mutex m).ceiling = (o.mutex m).ceiling ∧
    (o'.mutex m).valid = (o.mutex m).valid

/-- Mutexes are not deinitialised. -/
def NoDeinit {A : Type} (_ : Sys T E (SyncQ M V X) A (MutexWorld T M V X) (MutexCall M V X E)) :
    Act T E (MutexCall M V X E) (MutexOp T M V X) → Prop
  | .op (.deinit _) => False
  | _ => True

instance {A : Type} (s : Sys T E (SyncQ M V X) A (MutexWorld T M V X) (MutexCall M V X E))
    (a : Act T E (MutexCall M V X E) (MutexOp T M V X)) : Decidable (NoDeinit s a) := by
  unfold NoDeinit
  split <;> infer_instance

section Fest

variable {checks : Bool} {s : MutexState T E M V X} {me t : T} {m : M} {o o' : MutexWorld T M V X}
  {policy : SyncPolicy}

theorem SameConf.refl (o : MutexWorld T M V X) : SameConf o o := fun _ => ⟨rfl, rfl, rfl⟩

theorem SameConf.of_eq (h : o'.mutex = o.mutex) : SameConf o o' := fun m => by
  rw [h]
  exact ⟨rfl, rfl, rfl⟩

theorem SameConf.set {mx : FxMutex T} (h : o'.mutex = update o.mutex m mx)
    (h1 : mx.policy = (o.mutex m).policy) (h2 : mx.ceiling = (o.mutex m).ceiling)
    (h3 : mx.valid = (o.mutex m).valid) : SameConf o o' := fun m' => by
  rw [h]
  by_cases hm : m' = m
  · rw [hm, Function.update_self]
    exact ⟨h1, h2, h3⟩
  · rw [Function.update_of_ne hm]
    exact ⟨rfl, rfl, rfl⟩

theorem fxMutexApplyCeiling_mutex (k : MutexKern T E M V X) (t : T) (mx : FxMutex T) :
    (fxMutexApplyCeiling k t mx).2 =
      { mx with ownerParams := if mx.ceiling.isSome then k.prio t else mx.ownerParams } := by
  unfold fxMutexApplyCeiling
  cases hc : mx.ceiling with
  | none =>
    cases mx
    cases hc
    rfl
  | some p =>
    cases mx
    cases hc
    rfl

theorem fxMutexOwn_conf (t : T) (m : M) (s : MutexState T E M V X) :
    SameConf s.2 (fxMutexOwn t m s).2 := by
  refine SameConf.set rfl ?_ ?_ ?_
  all_goals rw [fxMutexApplyCeiling_mutex]

theorem fxMutexTestAndWait_conf (m : M) (me : T) (wait : Bool) (s : MutexState T E M V X) :
    SameConf s.2 (fxMutexTestAndWait m me wait s).2.2 := by
  rcases fxMutexTestAndWait_cases m me wait s with ⟨_, e⟩ | ⟨_, e⟩ | ⟨_, _, e⟩
  all_goals rw [e]
  · exact fxMutexOwn_conf me m s
  · exact SameConf.set rfl rfl rfl rfl
  · exact SameConf.refl s.2

theorem fxMutexReleaseLocked_conf (me : T) (m : M) (policy : SyncPolicy)
    (s : MutexState T E M V X) : SameConf s.2 (fxMutexReleaseLocked me m policy s).2 := by
  unfold fxMutexReleaseLocked fxMutexHandOver
  dsimp only
  split
  · split
    · exact fxMutexOwn_conf _ m (s.1, { s.2 with hist := (s.2.hist.release me m).disown me m })
    · exact SameConf.set rfl rfl rfl rfl
  · exact SameConf.set rfl rfl rfl rfl

theorem fxMutexReleaseWithPolicy_conf (checks : Bool) (me : T) (m : M) (policy : SyncPolicy)
    (s : MutexState T E M V X) :
    SameConf s.2 (fxMutexReleaseWithPolicy checks me m policy s).2.2 := by
  unfold fxMutexReleaseWithPolicy
  dsimp only
  repeat' split
  · exact SameConf.refl s.2
  · exact SameConf.refl s.2
  · exact fxMutexReleaseLocked_conf me m policy s

theorem fxMutexTest_conf (checks : Bool) (me : T) (wait : Bool) (s : MutexState T E M V X)
    (c : MutexCall M V X E) : SameConf s.2 (fxMutexTest checks me wait s c).2.2 := by
  cases c with
  | acquire m args => exact fxMutexTestAndWait_conf m me wait s
  | reacquire m res depth accepted => exact fxMutexTestAndWait_conf m me wait s
  | condWait v m args depth accepted =>
    show SameConf s.2 (fxCondTestAndWait checks v me wait s).2.2
    unfold fxCondTestAndWait
    dsimp only
    split
    · exact fxMutexReleaseWithPolicy_conf checks me _ _ (_, s.2)
    · exact SameConf.refl s.2
  | other x args =>
    show SameConf s.2 (otherTestAndWait x me wait s).2.2
    unfold otherTestAndWait
    split <;> exact SameConf.refl s.2

theorem fxMutexEnd_mutex (checks : Bool) (me : T) (res : ThreadStatus) (s : MutexState T E M V X)
    (c : MutexCall M V X E) : (fxMutexEnd checks me res s c).2.2.mutex = s.2.mutex := by
  cases c with
  | other x args => rfl
  | _ =>
    simp only [fxMutexEnd]
    split <;> rfl

theorem MutexOp.run_conf {p : MutexOp T M V X} {s s' : MutexState T E M V X}
    (h : p.run checks s = some s') (hp : ∀ m, p ≠ .deinit m) : SameConf s.2 s'.2 := by
  have hsignal : ∀ v policy, (condSignal checks v policy s).2 = s.2 := fun v policy => by
    unfold condSignal
    split <;> rfl
  cases p with
  | releaseWithPolicy me m policy =>
    obtain ⟨_, rfl⟩ := taken h
    exact fxMutexReleaseWithPolicy_conf checks me m policy s
  | release me m =>
    obtain ⟨_, rfl⟩ := taken h
    exact fxMutexReleaseWithPolicy_conf checks me m _ s
  | deinit m => exact absurd rfl (hp m)
  | signalWithPolicy v policy =>
    cases h
    rw [hsignal]
    exact SameConf.refl s.2
  | signal v =>
    cases h
    rw [hsignal]
    exact SameConf.refl s.2
  | broadcast v =>
    cases h
    split <;> exact SameConf.refl s.2
  | condDeinit v =>
    cases h
    split
    · exact SameConf.refl s.2
    · exact SameConf.of_eq rfl
  | otherSet x value =>
    cases h
    exact SameConf.of_eq rfl
  | otherNotify x wb reason =>
    obtain ⟨_, rfl⟩ := taken h
    exact SameConf.refl s.2

end Fest

/-- **No step but a deinitialisation** changes what is fixed. -/
theorem step_conf {cfg : Config T} {checks : Bool}
    {s s' : Sys T E (SyncQ M V X) M (MutexWorld T M V X) (MutexCall M V X E)}
    {a : Act T E (MutexCall M V X E) (MutexOp T M V X)} (hw : WellFormed (fxMutex checks) s)
    (hg : NoDeinit s a) (hs : step cfg (fxMutex checks) a s = some s') :
    SameConf s.obj s'.obj := by
  cases (step_case (fxMutex_lawful checks) hw hs).1 with
  | quiet t hq =>
    rw [hq.obj]
    exact SameConf.refl s.obj
  | enter t c ab r k ha hpc hr he hs =>
    rw [hs]
    exact fxMutexTest_conf checks t true (_, s.obj) c
  | poll t c p ha hpc hr hp hs =>
    rw [hs, hp]
    exact fxMutexTest_conf checks t false (_, s.obj) c
  | after t c r ha hpc hr hs =>
    rw [hs]
    exact SameConf.of_eq (fxMutexEnd_mutex checks t r (s.kern, s.obj) c)
  | op p ko ha hc ho hs =>
    rw [hs]
    refine MutexOp.run_conf (s := (s.kern, s.obj)) ho fun m hp => ?_
    subst hp
    subst ha
    exact hg

end FxRtos
