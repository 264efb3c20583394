/-
  File:      FxRtos/Objects/OldMemory.lean
  Subject:   OBJECTS OVER OLD MEMORY: for every kind of object, the constructor as a change of the
             memory it is given, and whether the runs that follow tell two memories apart.

  * `ObjectKind`, `Memory` -- the kinds, and what the memory of each holds before the call.
  * `SameRuns` -- two runs, one from each memory, with the same actions, show the same.
  * `Harmless` -- when they do. Only three kinds leave something: `fx_rwlock_init` sets neither
    `readers` nor `owner`, and timers and threads keep a linkage and a count of wait blocks.
  * `init_forgets` -- for every kind, `SameRuns` exactly if `Harmless`.
-/
import FxRtos.Kernel.OldThread
import FxRtos.Objects.Barrier
import FxRtos.Objects.EvFlags
import FxRtos.Objects.Msgq
import FxRtos.Objects.OldMutex
import FxRtos.Objects.Rwlock
import FxRtos.Objects.Sem

namespace FxRtos

open Function (update)
open Lib

set_option linter.unusedSectionVars false

/-! ## 1. The constructors -/

/-- The memory of an object: the heads of its wait queues, and the other fields. -/
structure OldMemory (T Q F : Type) where
  wq : Q → List (Blk T)
  fields : F

variable {T E M V X D : Type} [DecidableEq T] [DecidableEq E] [DecidableEq M] [DecidableEq V]
  [DecidableEq X]

section Warteschlangen

variable {Q A : Type} [DecidableEq Q]

/-- The head of a wait queue written over. -/
def Kern.putQueue (k : Kern T E Q A) (w : Wtbl T E Q) (l : List (Blk T)) : Kern T E Q A :=
  { k with wq := update k.wq w l }

def fxSyncWaitableInit (k : Kern T E Q A) (w : Wtbl T E Q) : Kern T E Q A := k.putQueue w []

theorem waitableInit_putQueue (k : Kern T E Q A) (w : Wtbl T E Q) (l : List (Blk T)) :
    fxSyncWaitableInit (k.putQueue w l) w = fxSyncWaitableInit k w := by
  unfold fxSyncWaitableInit Kern.putQueue
  dsimp only
  rw [Function.update_idem]

/-- Two wait queues written over, and then initialised. -/
theorem waitableInit_putQueue_two (k : Kern T E Q A) (w w' : Wtbl T E Q) (l l' : List (Blk T)) :
    fxSyncWaitableInit (fxSyncWaitableInit ((k.putQueue w l).putQueue w' l') w) w' =
      fxSyncWaitableInit (fxSyncWaitableInit k w) w' := by
  unfold fxSyncWaitableInit Kern.putQueue
  dsimp only
  rw [update_twice]

end Warteschlangen

/-- `fx_sem_init` with parameters that pass its checks, as those that follow. -/
def fxSemInitOver (init maxVal : Nat) (policy : SyncPolicy) (s : SemKern T E × FxSem) :
    SemKern T E × FxSem :=
  (fxSyncWaitableInit s.1 (.obj ()),
    { s.2 with semaphore := init, maxCount := maxVal, policy := policy, valid := true })

/-- The parameters of the owner are initialised where ceiling is enabled. -/
def FxMutex.initOver (mx : FxMutex T) (prioIdle : Nat) (ceiling : Option Nat)
    (policy : SyncPolicy) : FxMutex T :=
  { mx with
    policy := policy
    recursiveLocks := 0
    owner := none
    valid := true
    ceiling := ceiling
    ownerParams := if ceiling.isSome then prioIdle - 1 else mx.ownerParams }

def fxMutexInitOver (prioIdle : Nat) (m : M) (ceiling : Option Nat) (policy : SyncPolicy)
    (s : MutexState T E M V X) : MutexState T E M V X :=
  (fxSyncWaitableInit s.1 (.obj (.mutex m)),
    s.2.setMutex m ((s.2.mutex m).initOver prioIdle ceiling policy))

def fxCondInitOver (v : V) (policy : SyncPolicy) (s : MutexState T E M V X) :
    MutexState T E M V X :=
  (fxSyncWaitableInit s.1 (.obj (.cond v)),
    { s.2 with cond := update s.2.cond v { s.2.cond v with policy := policy, valid := true } })

def fxEventInitOver {Q A : Type} [DecidableEq Q] (e : E) (state : Bool) (k : Kern T E Q A) :
    Kern T E Q A :=
  { fxSyncWaitableInit k (.ev (.user e)) with
    ev := update k.ev (.user e) state
    valid := update k.valid e true }

def fxEvFlagsInitOver (s : EvfKern T E × EvFlagsMem T) : EvfKern T E × EvFlagsMem T :=
  (fxSyncWaitableInit s.1 (.obj ()), { s.2 with flags := 0, valid := true })

/-- The buffer is given by the caller; `fx_msgq_init` sets the pointer to it. -/
def fxMsgqInitOver (buf : Nat → D) (itemsMax : Nat) (policy : SyncPolicy)
    (s : MsgqKern T E D × FxMsgq T D) : MsgqKern T E D × FxMsgq T D :=
  (fxSyncWaitableInit (fxSyncWaitableInit s.1 (.obj .send)) (.obj .recv),
    { s.2 with
      buf := buf
      itemsMax := itemsMax
      policy := policy
      items := 0
      head := 0
      tail := 0
      valid := true })

def fxBarrierInitOver (barrier : Nat) (s : BarrierKern T E × FxBarrier T) :
    BarrierKern T E × FxBarrier T :=
  (fxSyncWaitableInit s.1 (.obj ()), { s.2 with barrier := barrier, blocked := 0, valid := true })

/-- `readers` and `owner` are not set. -/
def fxRwlockInitOver (policy : SyncPolicy) (s : RwKern T E × FxRwlock T) :
    RwKern T E × FxRwlock T :=
  (fxSyncWaitableInit (fxSyncWaitableInit s.1 (.obj .rd)) (.obj .wr),
    { s.2 with policy := policy, valid := true })

/-- An rwlock that anybody may unlock: the functions do not check who calls them. -/
def fxRwlockOpen (checks : Bool) :
    WaitObject T E RwQ Unit (FxRwlock T) (RwCall E) (RwOp T) :=
  { fxRwlock checks with op := fun p s => some (if checks ∧ s.2.valid = false then s else p.run s) }

/-! ## 2. The kinds of objects -/

inductive ObjectKind where
  | sem
  | mutex
  | event
  | evFlags
  | msgq
  | cond
  | barrier
  | rwlock
  | timer
  | thread
  deriving DecidableEq

structure EventFields where
  state : Bool
  valid : Bool

structure EvFlagsFields where
  flags : UintFast32
  valid : Bool

structure MsgqFields where
  itemsMax : Nat
  items : Nat
  head : Nat
  tail : Nat
  policy : SyncPolicy
  valid : Bool

structure BarrierFields where
  barrier : Nat
  blocked : Nat
  valid : Bool

/-- `owner` is whatever thread the pointer in the memory belongs to, now or later. -/
structure RwlockFields (T : Type) where
  owner : Option T
  readers : Nat
  policy : SyncPolicy
  valid : Bool

/-- What the memory of an object holds before the constructor is called. -/
def Memory (T P : Type) : ObjectKind → Type
  | .sem => OldMemory T Unit FxSem
  | .mutex => OldMemory T Unit (FxMutex T)
  | .event => OldMemory T Unit EventFields
  | .evFlags => OldMemory T Unit EvFlagsFields
  | .msgq => OldMemory T MsgqQ MsgqFields
  | .cond => OldMemory T Unit FxCond
  | .barrier => OldMemory T Unit BarrierFields
  | .rwlock => OldMemory T RwQ (RwlockFields T)
  | .timer => TimerMemory P
  | .thread => ThreadMemory T P

section Platz

def semOver (m : OldMemory T Unit FxSem) (s : SemKern T E × FxSem) : SemKern T E × FxSem :=
  (s.1.putQueue (.obj ()) (m.wq ()), m.fields)

def mutexOver (x : M) (m : OldMemory T Unit (FxMutex T)) (s : MutexState T E M V X) :
    MutexState T E M V X :=
  (s.1.putQueue (.obj (.mutex x)) (m.wq ()), s.2.setMutex x m.fields)

def condOver (v : V) (m : OldMemory T Unit FxCond) (s : MutexState T E M V X) :
    MutexState T E M V X :=
  (s.1.putQueue (.obj (.cond v)) (m.wq ()), { s.2 with cond := update s.2.cond v m.fields })

def eventOver {Q A : Type} [DecidableEq Q] (e : E) (m : OldMemory T Unit EventFields)
    (k : Kern T E Q A) : Kern T E Q A :=
  { k.putQueue (.ev (.user e)) (m.wq ()) with
    ev := update k.ev (.user e) m.fields.state
    valid := update k.valid e m.fields.valid }

def evFlagsOver (m : OldMemory T Unit EvFlagsFields) (s : EvfKern T E × EvFlagsMem T) :
    EvfKern T E × EvFlagsMem T :=
  (s.1.putQueue (.obj ()) (m.wq ()), { s.2 with flags := m.fields.flags, valid := m.fields.valid })

def msgqOver (m : OldMemory T MsgqQ MsgqFields) (s : MsgqKern T E D × FxMsgq T D) :
    MsgqKern T E D × FxMsgq T D :=
  ((s.1.putQueue (.obj .send) (m.wq .send)).putQueue (.obj .recv) (m.wq .recv),
    { s.2 with
      itemsMax := m.fields.itemsMax
      items := m.fields.items
      head := m.fields.head
      tail := m.fields.tail
      policy := m.fields.policy
      valid := m.fields.valid })

def barrierOver (m : OldMemory T Unit BarrierFields) (s : BarrierKern T E × FxBarrier T) :
    BarrierKern T E × FxBarrier T :=
  (s.1.putQueue (.obj ()) (m.wq ()),
    { s.2 with
      barrier := m.fields.barrier
      blocked := m.fields.blocked
      valid := m.fields.valid })

/-- The accounts of the locks granted begin with the constructor. -/
def rwlockOver (m : OldMemory T RwQ (RwlockFields T)) (s : RwKern T E × FxRwlock T) :
    RwKern T E × FxRwlock T :=
  ((s.1.putQueue (.obj .rd) (m.wq .rd)).putQueue (.obj .wr) (m.wq .wr),
    ⟨m.fields.owner, m.fields.readers, m.fields.policy, m.fields.valid, [], fun _ => 0, fun _ => 0⟩)

end Platz

/-! ## 3. Two runs -/

/-- A system with another kernel and another object. -/
def Sys.withPair {Q A O C : Type} (s : Sys T E Q A O C) (r : Kern T E Q A × O) :
    Sys T E Q A O C :=
  { s with kern := r.1, obj := r.2 }

/-- `fx_sem_get_value`. -/
def semReport (checks : Bool) (s : SemKern T E × FxSem) : Option Nat :=
  if checks ∧ s.2.valid = false then none else some s.2.semaphore

/-- `fx_event_get_state`, and whether the event is valid. -/
def eventReport (s : Kern T E Empty Empty × Unit) : E → Bool × Bool :=
  fun e => (s.1.ev (.user e), s.1.valid e)

/-- The state and the error code that the calls of the threads returned. -/
def evFlagsReport (s : EvfKern T E × EvFlagsMem T) : T → UintFast32 × ThreadStatus :=
  fun t => (s.2.state t, s.2.error t)

/-- The messages in the receivers' buffers. -/
def msgqReport (s : MsgqKern T E D × FxMsgq T D) : T → D := s.2.rcvrBuf

def barrierReport (s : BarrierKern T E × FxBarrier T) : T → Nat := s.2.key

def rwlockReport (_ : RwKern T E × FxRwlock T) : Unit := ()

section Aussage

variable (cfg : Config T)

def SemAlike (m m' : OldMemory T Unit FxSem) : Prop :=
  ∀ (E : Type) [DecidableEq E] (checks : Bool) (init maxVal : Nat) (policy : SyncPolicy)
    (s : Sys T E Unit Unit FxSem (WaitArgs E)),
    Alike (step cfg (fxSem checks)) (Sys.seen (semReport checks))
      (s.withPair (fxSemInitOver init maxVal policy (semOver m (s.kern, s.obj))))
      (s.withPair (fxSemInitOver init maxVal policy (semOver m' (s.kern, s.obj))))

def MutexAlike (m m' : OldMemory T Unit (FxMutex T)) : Prop :=
  ∀ (E M V X : Type) [DecidableEq E] [DecidableEq M] [DecidableEq V] [DecidableEq X]
    (checks : Bool) (x : M) (ceiling : Option Nat) (policy : SyncPolicy)
    (s : Sys T E (SyncQ M V X) M (MutexWorld T M V X) (MutexCall M V X E)),
    Alike (step cfg (fxMutex checks)) (Sys.seen (mutexReport checks))
      (s.withPair (fxMutexInitOver (cfg.prioNum - 1) x ceiling policy
        (mutexOver x m (s.kern, s.obj))))
      (s.withPair (fxMutexInitOver (cfg.prioNum - 1) x ceiling policy
        (mutexOver x m' (s.kern, s.obj))))

def EventAlike (m m' : OldMemory T Unit EventFields) : Prop :=
  ∀ (E : Type) [DecidableEq E] (checks : Bool) (e : E) (state : Bool)
    (s : Sys T E Empty Empty Unit (EventCall E)),
    Alike (step cfg (fxEvent checks)) (Sys.seen eventReport)
      (s.withPair (fxEventInitOver e state (eventOver e m s.kern), ()))
      (s.withPair (fxEventInitOver e state (eventOver e m' s.kern), ()))

def EvFlagsAlike (m m' : OldMemory T Unit EvFlagsFields) : Prop :=
  ∀ (E : Type) [DecidableEq E] (checks : Bool)
    (s : Sys T E Unit EvFlagsAttr (EvFlagsMem T) (EvFlagsCall E)),
    Alike (step cfg (fxEvFlags checks)) (Sys.seen evFlagsReport)
      (s.withPair (fxEvFlagsInitOver (evFlagsOver m (s.kern, s.obj))))
      (s.withPair (fxEvFlagsInitOver (evFlagsOver m' (s.kern, s.obj))))

def MsgqAlike (m m' : OldMemory T MsgqQ MsgqFields) : Prop :=
  ∀ (E D : Type) [DecidableEq E] (checks : Bool) (buf : Nat → D) (itemsMax : Nat)
    (policy : SyncPolicy) (s : Sys T E MsgqQ (MsgqAttr D) (FxMsgq T D) (MsgqCall E D)),
    Alike (step cfg (fxMsgq checks)) (Sys.seen msgqReport)
      (s.withPair (fxMsgqInitOver buf itemsMax policy (msgqOver m (s.kern, s.obj))))
      (s.withPair (fxMsgqInitOver buf itemsMax policy (msgqOver m' (s.kern, s.obj))))

def CondAlike (m m' : OldMemory T Unit FxCond) : Prop :=
  ∀ (E M V X : Type) [DecidableEq E] [DecidableEq M] [DecidableEq V] [DecidableEq X]
    (checks : Bool) (v : V) (policy : SyncPolicy)
    (s : Sys T E (SyncQ M V X) M (MutexWorld T M V X) (MutexCall M V X E)),
    Alike (step cfg (fxMutex checks)) (Sys.seen (mutexReport checks))
      (s.withPair (fxCondInitOver v policy (condOver v m (s.kern, s.obj))))
      (s.withPair (fxCondInitOver v policy (condOver v m' (s.kern, s.obj))))

def BarrierAlike (m m' : OldMemory T Unit BarrierFields) : Prop :=
  ∀ (E : Type) [DecidableEq E] (checks : Bool) (barrier : Nat)
    (s : Sys T E Unit Unit (FxBarrier T) (BarrierCall E)),
    Alike (step cfg (fxBarrier checks)) (Sys.seen barrierReport)
      (s.withPair (fxBarrierInitOver barrier (barrierOver m (s.kern, s.obj))))
      (s.withPair (fxBarrierInitOver barrier (barrierOver m' (s.kern, s.obj))))

def RwlockAlike (m m' : OldMemory T RwQ (RwlockFields T)) : Prop :=
  ∀ (E : Type) [DecidableEq E] (checks : Bool) (policy : SyncPolicy)
    (s : Sys T E RwQ Unit (FxRwlock T) (RwCall E)),
    Alike (step cfg (fxRwlockOpen checks)) (Sys.seen rwlockReport)
      (s.withPair (fxRwlockInitOver policy (rwlockOver m (s.kern, s.obj))))
      (s.withPair (fxRwlockInitOver policy (rwlockOver m' (s.kern, s.obj))))

/-- Whatever the system is doing when the constructor is called, with whatever parameters: the
    runs from the two memories show the same. -/
def SameRuns {P : Type} : ∀ kind : ObjectKind, Memory T P kind → Memory T P kind → Prop
  | .sem => SemAlike cfg
  | .mutex => MutexAlike cfg
  | .event => EventAlike cfg
  | .evFlags => EvFlagsAlike cfg
  | .msgq => MsgqAlike cfg
  | .cond => CondAlike cfg
  | .barrier => BarrierAlike cfg
  | .rwlock => RwlockAlike cfg
  | .timer => TimerAlike
  | .thread => ThreadAlike cfg

end Aussage

/-- What two memories have to agree in. -/
def Harmless {P : Type} : ∀ kind : ObjectKind, Memory T P kind → Memory T P kind → Prop
  | .rwlock => fun m m' =>
    m.fields.owner = m'.fields.owner ∧ m.fields.readers = m'.fields.readers
  | .timer => fun m m' => m.link.looksLinked = false ∧ m'.link.looksLinked = false
  | .thread => fun m m' =>
    (m.link.looksLinked = false ∧ m.wbNum = 0) ∧ m'.link.looksLinked = false ∧ m'.wbNum = 0
  | _ => fun _ _ => True

/-! ## 4. Constructors that leave nothing -/

section Alles

variable {cfg : Config T}

theorem sem_alike (m m' : OldMemory T Unit FxSem) : SemAlike cfg m m' := by
  intro E _ checks init maxVal policy s
  have h : ∀ m : OldMemory T Unit FxSem,
      fxSemInitOver init maxVal policy (semOver m (s.kern, s.obj)) =
        (fxSyncWaitableInit s.kern (.obj ()), fxSemInit init maxVal policy) := fun m =>
    Prod.ext (waitableInit_putQueue ..) rfl
  rw [h, h]
  exact .refl _

theorem event_alike (m m' : OldMemory T Unit EventFields) : EventAlike cfg m m' := by
  intro E _ checks e state s
  have h : ∀ m : OldMemory T Unit EventFields,
      fxEventInitOver e state (eventOver e m s.kern) = fxEventInitOver e state s.kern := by
    intro m
    unfold fxEventInitOver eventOver fxSyncWaitableInit Kern.putQueue
    dsimp only
    rw [Function.update_idem, Function.update_idem, Function.update_idem]
  rw [h, h]
  exact .refl _

theorem evFlags_alike (m m' : OldMemory T Unit EvFlagsFields) : EvFlagsAlike cfg m m' := by
  intro E _ checks s
  have h : ∀ m : OldMemory T Unit EvFlagsFields,
      fxEvFlagsInitOver (evFlagsOver m (s.kern, s.obj)) = fxEvFlagsInitOver (s.kern, s.obj) :=
    fun m => Prod.ext (waitableInit_putQueue ..) rfl
  rw [h, h]
  exact .refl _

theorem msgq_alike (m m' : OldMemory T MsgqQ MsgqFields) : MsgqAlike cfg m m' := by
  intro E D _ checks buf itemsMax policy s
  have h : ∀ m : OldMemory T MsgqQ MsgqFields,
      fxMsgqInitOver buf itemsMax policy (msgqOver m (s.kern, s.obj)) =
        (fxSyncWaitableInit (fxSyncWaitableInit s.kern (.obj .send)) (.obj .recv),
          fxMsgqInit buf itemsMax policy s.obj.rcvrBuf) :=
    fun m => Prod.ext (waitableInit_putQueue_two ..) rfl
  rw [h, h]
  exact .refl _

theorem cond_alike (m m' : OldMemory T Unit FxCond) : CondAlike cfg m m' := by
  intro E M V X _ _ _ _ checks v policy s
  have h : ∀ m : OldMemory T Unit FxCond,
      fxCondInitOver v policy (condOver v m (s.kern, s.obj)) =
        (fxSyncWaitableInit s.kern (.obj (.cond v)),
          { s.obj with cond := update s.obj.cond v (fxCondInit policy) }) := by
    intro m
    refine Prod.ext (waitableInit_putQueue ..) ?_
    unfold fxCondInitOver condOver
    dsimp only
    rw [Function.update_idem]
    rfl
  rw [h, h]
  exact .refl _

theorem barrier_alike (m m' : OldMemory T Unit BarrierFields) : BarrierAlike cfg m m' := by
  intro E _ checks barrier s
  have h : ∀ m : OldMemory T Unit BarrierFields,
      fxBarrierInitOver barrier (barrierOver m (s.kern, s.obj)) =
        fxBarrierInitOver barrier (s.kern, s.obj) := fun m =>
    Prod.ext (waitableInit_putQueue ..) rfl
  rw [h, h]
  exact .refl _

/-- With a ceiling everything is set; without one the saved parameters are left, and forgotten. -/
theorem initOver_forget (mx : FxMutex T) (prioIdle : Nat) (ceiling : Option Nat)
    (policy : SyncPolicy) :
    (mx.initOver prioIdle ceiling policy).forget =
      (fxMutexInit prioIdle ceiling policy : FxMutex T).forget := by
  cases ceiling with
  | none => rfl
  | some p => rfl

theorem mutex_alike (m m' : OldMemory T Unit (FxMutex T)) : MutexAlike cfg m m' := by
  intro E M V X _ _ _ _ checks x ceiling policy s
  let r : OldMemory T Unit (FxMutex T) → MutexState T E M V X := fun m =>
    fxMutexInitOver (cfg.prioNum - 1) x ceiling policy (mutexOver x m (s.kern, s.obj))
  have hforget : ∀ m, forgetParams (r m) = (fxSyncWaitableInit s.kern (.obj (.mutex x)),
      s.obj.forget.setMutex x
        (fxMutexInit (cfg.prioNum - 1) ceiling policy : FxMutex T).forget) := by
    intro m
    refine Prod.ext (waitableInit_putQueue ..) ?_
    show (((s.obj.setMutex x m.fields).setMutex x _).forget) = _
    rw [forget_setMutex, forget_setMutex]
    rw [initOver_forget]
    unfold MutexWorld.setMutex
    dsimp only
    rw [Function.update_idem]
  have h1 : Alike (step cfg (fxMutex checks)) (Sys.seen (mutexReport checks))
      (s.withPair (r m)) (s.withPair (forgetParams (r m))) :=
    (fxMutex_respects checks).alike cfg ⟨rfl, rfl, rfl, rfl⟩
  have h2 : Alike (step cfg (fxMutex checks)) (Sys.seen (mutexReport checks))
      (s.withPair (r m')) (s.withPair (forgetParams (r m'))) :=
    (fxMutex_respects checks).alike cfg ⟨rfl, rfl, rfl, rfl⟩
  rw [hforget] at h1 h2
  exact h1.trans h2.symm

end Alles

/-! ## 5. Reader-writer locks -/

section Sperre

variable {cfg : Config T} {s s' : Sys T E RwQ Unit (FxRwlock T) (RwCall E)} {t u : T} {n n' : Nat}
  {o o' : Option T}

/-- Nobody waits, every thread may call, and the fields that the constructor leaves are these. -/
structure RwQuiet (s : Sys T E RwQ Unit (FxRwlock T) (RwCall E)) (owner : Option T)
    (readers : Nat) : Prop where
  pc : ∀ t, s.pc t = .idle
  ready : ∀ t, s.kern.state t = .ready
  wq : ∀ q, s.kern.wq (.obj q) = []
  owner : s.obj.owner = owner
  readers : s.obj.readers = readers

/-- Whether a lock is granted at once. -/
def Grantable (o : Option T) (n : Nat) : RwQ → Prop
  | .rd => o = none
  | .wr => o = none ∧ n = 0

theorem test_fst {B : Type} {p : Prop} [Decidable p] (x y : B) :
    (if p then (true, x) else (false, y)).1 = true ↔ p := by
  by_cases h : p
  · simp [h]
  · simp [h]

variable (cfg) in
/-- Locking without waiting: what the call returns. -/
theorem RwQuiet.poll (h : RwQuiet s o n) (t : T) (c : RwCall E) (hc : c.args = .timeout 0) :
    ∃ s1 r, run (step cfg (fxRwlockOpen false)) [.call t c, .go t] s = some s1 ∧
      s1.pc t = .inCall (.ret r) c ∧ (r = .ok ↔ Grantable o n c.queue) := by
  obtain ⟨hpc, hst, hwq, ho, hn⟩ := h
  let s0 : Sys T E RwQ Unit (FxRwlock T) (RwCall E) :=
    { s with pc := update s.pc t (.inCall .poll c) }
  have hfree : s.Free t := by
    unfold Sys.Free
    rw [hpc t]
    exact hst t
  have hfirst : firstStage cfg (fxRwlockOpen false : WaitObject T E RwQ Unit _ _ _) s.kern c =
      .poll := by
    have hmode : c.args.mode cfg.checks s.kern = .poll := by
      rw [hc]
      rfl
    unfold firstStage
    dsimp only [fxRwlockOpen, fxRwlock]
    rw [hmode]
  have hcall : step cfg (fxRwlockOpen false) (.call t c) s = some s0 := by
    unfold step
    dsimp only
    rw [if_pos hfree]
    show some ({ s with pc := update s.pc t (.inCall (firstStage cfg _ s.kern c) c) } :
      Sys T E RwQ Unit (FxRwlock T) (RwCall E)) = _
    rw [hfirst]
  have hpc0 : s0.pc t = .inCall .poll c := Function.update_self ..
  have hgo : step cfg (fxRwlockOpen false) (.go t) s0 =
      some (advance cfg (fxRwlockOpen false) t c s0 .poll) := by
    unfold step
    dsimp only
    rw [hpc0]
    exact if_pos (hst t)
  let r := (fxRwlockOpen false : WaitObject T E RwQ Unit (FxRwlock T) (RwCall E) (RwOp T)).testWait
    t c false (fxSyncWaitBlockInit s0.kern t none, s0.obj)
  refine ⟨advance cfg (fxRwlockOpen false) t c s0 .poll, if r.1 then .ok else .waitTimeout, ?_,
    Function.update_self (f := s0.pc) t _, ?_⟩
  · show (step cfg (fxRwlockOpen false) (.call t c) s).bind _ = _
    rw [hcall]
    show (step cfg (fxRwlockOpen false) (.go t) s0).bind _ = _
    rw [hgo]
    rfl
  · have hr : r.1 = true ↔ Grantable o n c.queue := by
      cases c with
      | rdLock args =>
        have hw : (fxSyncWaitBlockInit s0.kern t none).wq (.obj .wr) = [] := hwq .wr
        show (fxRwlockTestAndWaitReader t false
          (fxSyncWaitBlockInit s0.kern t none, s.obj)).1 = true ↔ o = none
        simp [fxRwlockTestAndWaitReader, hw, ho, test_fst]
      | wrLock args =>
        show (fxRwlockTestAndWaitWriter t false
          (fxSyncWaitBlockInit s0.kern t none, s.obj)).1 = true ↔ o = none ∧ n = 0
        simp [fxRwlockTestAndWaitWriter, ho, hn, test_fst]
    cases hb : r.1 with
    | true => simpa [hb] using hr
    | false => simpa [hb] using hr

/-- Where two systems look the same, a lock is granted at once in both or in neither. -/
theorem RwQuiet.grantable_iff (h : RwQuiet s o n) (h' : RwQuiet s' o' n')
    (ha : Alike (step cfg (fxRwlockOpen false)) (Sys.seen rwlockReport) s s') (t : T)
    (c : RwCall E) (hc : c.args = .timeout 0) :
    Grantable o n c.queue ↔ Grantable o' n' c.queue := by
  obtain ⟨s1, r, hrun, hpc, hr⟩ := h.poll cfg t c hc
  obtain ⟨s1', r', hrun', hpc', hr'⟩ := h'.poll cfg t c hc
  have hseen := congrArg (fun x : Seen T E (RwCall E) Unit => x.pc t) (ha.seen hrun hrun')
  have hpair : (.inCall (.ret r) c : Pc T E (RwCall E)) = .inCall (.ret r') c :=
    hpc.symm.trans (hseen.trans hpc')
  cases hpair
  exact hr.symm.trans hr'

/-- What an unlock by `u` leaves of the two fields, where nobody waits. -/
def unlocked (u : T) (o : Option T) (n : Nat) : Option T × Nat :=
  if o = some u then (none, n) else (o, if o = none then n - 1 else n)

variable (cfg) in
theorem RwQuiet.unlock (h : RwQuiet s o n) (u : T) :
    ∃ s1, step cfg (fxRwlockOpen false) (.op (.unlockWithPolicy u .fifo)) s = some s1 ∧
      RwQuiet s1 (unlocked u o n).1 (unlocked u o n).2 := by
  obtain ⟨hpc, hst, hwq, ho, hn⟩ := h
  have hfree : ∀ t ∈ (some u : Option T), s.Free t := by
    intro t _
    unfold Sys.Free
    rw [hpc t]
    exact hst t
  let r := fxRwlockUnlockWithPolicy u .fifo (s.kern, s.obj)
  have hstep : step cfg (fxRwlockOpen false) (.op (.unlockWithPolicy u .fifo)) s =
      some ⟨r.1, r.2, s.pc, s.base⟩ := if_pos hfree
  have hget : ∀ q, fxSyncWaitBlockGet s.kern (.obj q) .fifo = none := by
    intro q
    unfold fxSyncWaitBlockGet
    rw [hwq q]
  have hr : r.1 = s.kern ∧ r.2.owner = (unlocked u o n).1 ∧ r.2.readers = (unlocked u o n).2 := by
    by_cases hu : o = some u
    · have hown : s.obj.owner = some u := ho.trans hu
      have hnone : r = fxRwlockReaders .fifo (s.kern,
          { s.obj with wr := update s.obj.wr u (s.obj.wr u - 1), owner := none }) := by
        show fxRwlockUnlockWithPolicy u .fifo (s.kern, s.obj) = _
        unfold fxRwlockUnlockWithPolicy
        dsimp only
        rw [if_pos hown, hget .wr]
      rw [hnone, fxRwlockReaders_nothing .fifo (Or.inl (hwq .rd))]
      unfold unlocked
      rw [if_pos hu]
      exact ⟨rfl, rfl, hn⟩
    · have hown : s.obj.owner ≠ some u := fun h => hu (ho.symm.trans h)
      have hmatch : ∀ p : Prop, [Decidable p] →
          (if p then fxSyncWaitBlockGet s.kern (.obj .wr) .fifo else none) = none := by
        intro p _
        rw [hget .wr, ite_self]
      show (fxRwlockUnlockWithPolicy u .fifo (s.kern, s.obj)).1 = _ ∧
        (fxRwlockUnlockWithPolicy u .fifo (s.kern, s.obj)).2.owner = _ ∧
        (fxRwlockUnlockWithPolicy u .fifo (s.kern, s.obj)).2.readers = _
      unfold fxRwlockUnlockWithPolicy unlocked
      dsimp only
      rw [if_neg hown, if_neg hu, hmatch]
      by_cases hf : s.obj.owner = none ∧ 0 < s.obj.readers
      · have hone : o = none := ho.symm.trans hf.1
        rw [if_pos hf, if_pos hone]
        exact ⟨rfl, ho, congrArg (· - 1) hn⟩
      · rw [if_neg hf]
        refine ⟨rfl, ho, hn.trans ?_⟩
        by_cases hone : o = none
        · have hz : n = 0 := Nat.eq_zero_of_not_pos fun h => hf ⟨ho.trans hone, by rwa [hn]⟩
          rw [if_pos hone, hz]
        · rw [if_neg hone]
  refine ⟨_, hstep, hpc, fun t => ?_, fun q => ?_, hr.2.1, hr.2.2⟩
  · show r.1.state t = _
    rw [hr.1]
    exact hst t
  · show r.1.wq _ = _
    rw [hr.1]
    exact hwq q

/-- Readers left over are counted by unlocking until a writer is let in. -/
theorem RwQuiet.readers_eq (h : RwQuiet s none n) (h' : RwQuiet s' none n')
    (ha : Alike (step cfg (fxRwlockOpen false)) (Sys.seen rwlockReport) s s') (t : T) : n = n' := by
  induction n generalizing s s' n' with
  | zero =>
    have hg := h.grantable_iff h' ha t (.wrLock (.timeout 0)) rfl
    exact (hg.mp ⟨rfl, rfl⟩).2.symm
  | succ n ih =>
    have hg := h.grantable_iff h' ha t (.wrLock (.timeout 0)) rfl
    have hne : n' ≠ 0 := fun hz => Nat.succ_ne_zero n (hg.mpr ⟨rfl, hz⟩).2
    obtain ⟨s1, hs1, h1⟩ := h.unlock cfg t
    obtain ⟨s1', hs1', h1'⟩ := h'.unlock cfg t
    have hnext : n = n' - 1 := ih h1 h1' (ha.next hs1 hs1')
    omega

/-- Two locks that look the same agree in both fields. -/
theorem RwQuiet.agree (h : RwQuiet s o n) (h' : RwQuiet s' o' n')
    (ha : Alike (step cfg (fxRwlockOpen false)) (Sys.seen rwlockReport) s s') (t : T) :
    o = o' ∧ n = n' := by
  have hg : o = none ↔ o' = none := h.grantable_iff h' ha t (.rdLock (.timeout 0)) rfl
  cases o with
  | none =>
    obtain rfl : o' = none := hg.mp rfl
    exact ⟨rfl, h.readers_eq h' ha t⟩
  | some u =>
    -- the owner of the first unlocks: the second becomes free only if it has the same owner
    obtain ⟨s1, hs1, h1⟩ := h.unlock cfg u
    obtain ⟨s1', hs1', h1'⟩ := h'.unlock cfg u
    have hself : unlocked u (some u) n = (none, n) := if_pos rfl
    have ha1 := ha.next hs1 hs1'
    rw [hself] at h1
    have hg1 := h1.grantable_iff h1' ha1 t (.rdLock (.timeout 0)) rfl
    have hfree : (unlocked u o' n').1 = none := hg1.mp rfl
    by_cases hu : o' = some u
    · have hself' : unlocked u o' n' = (none, n') := if_pos hu
      rw [hself'] at h1'
      exact ⟨hu.symm, h1.readers_eq h1' ha1 t⟩
    · have hother : (unlocked u o' n').1 = o' := congrArg Prod.fst (if_neg hu)
      have hnone : some u = none := hg.mpr (hother.symm.trans hfree)
      cases hnone

/-- **Two memories of an rwlock cannot be told apart** exactly if they agree in the owner and in
    the number of readers. -/
theorem rwlock_alike_iff (cfg : Config T) (m m' : OldMemory T RwQ (RwlockFields T)) :
    RwlockAlike cfg m m' ↔
      m.fields.owner = m'.fields.owner ∧ m.fields.readers = m'.fields.readers := by
  constructor
  · intro h
    let s : Sys T Empty RwQ Unit (FxRwlock T) (RwCall Empty) :=
      ⟨fxThreadCtor cfg.prioNum cfg.idle, fxRwlockInit .fifo, fun _ => .idle, fun _ => 0⟩
    have hq : ∀ m : OldMemory T RwQ (RwlockFields T),
        RwQuiet (s.withPair (fxRwlockInitOver .fifo (rwlockOver m (s.kern, s.obj))))
          m.fields.owner m.fields.readers := by
      intro m
      refine ⟨fun _ => rfl, fun _ => rfl, fun q => ?_, rfl, rfl⟩
      cases q with
      | rd => rfl
      | wr => rfl
    exact (hq m).agree (hq m') (h Empty false .fifo s) cfg.idle
  · intro ⟨ho, hr⟩ E _ checks policy s
    have h : fxRwlockInitOver policy (rwlockOver m (s.kern, s.obj)) =
        fxRwlockInitOver policy (rwlockOver m' (s.kern, s.obj)) := by
      unfold fxRwlockInitOver rwlockOver
      dsimp only
      rw [waitableInit_putQueue_two, waitableInit_putQueue_two, ho, hr]
    rw [h]
    exact .refl _

end Sperre

/-! ## 6. All of them -/

/-- **What a constructor leaves of the old memory**: the runs that follow, with whatever actions,
    show the same exactly if the two memories are harmless for the kind of object. -/
theorem init_forgets {P : Type} (cfg : Config T) (kind : ObjectKind) (m m' : Memory T P kind) :
    SameRuns cfg kind m m' ↔ Harmless kind m m' := by
  cases kind with
  | sem => exact iff_of_true (sem_alike m m') trivial
  | mutex => exact iff_of_true (mutex_alike m m') trivial
  | event => exact iff_of_true (event_alike m m') trivial
  | evFlags => exact iff_of_true (evFlags_alike m m') trivial
  | msgq => exact iff_of_true (msgq_alike m m') trivial
  | cond => exact iff_of_true (cond_alike m m') trivial
  | barrier => exact iff_of_true (barrier_alike m m') trivial
  | rwlock => exact rwlock_alike_iff cfg m m'
  | timer => exact timer_alike_iff m m'
  | thread => exact thread_alike_iff cfg m m'

/-- What a call is about to return. -/
def Pc.result {C : Type} : Pc T E C → Option ThreadStatus
  | .inCall (.ret r) _ => some r
  | _ => none

/-- **The constructor of an rwlock depends on the old memory.** With a reader left over in it, the
    first call after it, a writer's that does not wait, times out; with none it gets the lock. -/
theorem rwlock_init_keeps :
    let cfg : Config (Fin 2) := ⟨true, 8, 1⟩
    ¬ ∀ (kind : ObjectKind) (m m' : Memory (Fin 2) Unit kind), SameRuns cfg kind m m' := by
  intro cfg h
  let m : Nat → OldMemory (Fin 2) RwQ (RwlockFields (Fin 2)) := fun readers =>
    ⟨fun _ => [], none, readers, .fifo, false⟩
  let s : Sys (Fin 2) Unit RwQ Unit (FxRwlock (Fin 2)) (RwCall Unit) :=
    boot cfg (fxRwlockInit .fifo)
  let start : Nat → Sys (Fin 2) Unit RwQ Unit (FxRwlock (Fin 2)) (RwCall Unit) := fun readers =>
    s.withPair (fxRwlockInitOver .fifo (rwlockOver (m readers) (s.kern, s.obj)))
  let acts : List (Act (Fin 2) Unit (RwCall Unit) (RwOp (Fin 2))) :=
    [.init 0 5 false, .call 0 (.wrLock (.timeout 0)), .go 0]
  have h0 : (run (step cfg (fxRwlockOpen true)) acts (start 0)).map (fun s => (s.pc 0).result) =
      some (some .ok) := by
    decide +kernel
  have h1 : (run (step cfg (fxRwlockOpen true)) acts (start 1)).map (fun s => (s.pc 0).result) =
      some (some .waitTimeout) := by
    decide +kernel
  have ha : Alike (step cfg (fxRwlockOpen true)) (Sys.seen rwlockReport) (start 0) (start 1) :=
    h .rwlock (m 0) (m 1) Unit true .fifo s
  have hsame := congrArg (Option.map fun x : Seen (Fin 2) Unit (RwCall Unit) Unit =>
    (x.pc 0).result) (ha acts)
  rw [Option.map_map, Option.map_map] at hsame
  have hres : some (some ThreadStatus.ok) = some (some .waitTimeout) :=
    h0.symm.trans (hsame.trans h1)
  cases hres

end FxRtos
