/-
  File:      FxRtos/Objects/Rwlock.lean
  Subject:   READER-WRITER LOCKS (fx_rwlock.c). Waiting writers keep new readers out; a writer
             whose wait fails lets the readers in that it kept out (`fxRwlockKickReaders`).

  * `RwOk` -- a writer and readers never hold the lock together, and `readers` counts the read
    locks granted and not released. The accounts `rd` and `wr` are the calls that returned OK,
    less the unlocks; what a call was granted and has not returned yet is on top.
  * `rwlock_excl` -- it holds in every run in which no writer's failed wait lets readers in while
    another writer owns the lock.
  * `rwlock_not_excl` -- a run in which one does: the loop does not look at the owner.
-/
import FxRtos.Kernel.Granted

namespace FxRtos

open Function (update)
open Lib

set_option linter.unusedSectionVars false

/-! ## 1. The code -/

/-- The two waitables, `rd_wtbl` and `wr_wtbl`. -/
inductive RwQ where
  | rd
  | wr
  deriving DecidableEq

/-- The last three fields are not in the code: to whom the read locks counted by `readers` were
    granted, and the locks that calls returned with OK and that were not released since. -/
structure FxRwlock (T : Type) where
  owner : Option T
  readers : Nat
  policy : SyncPolicy
  valid : Bool
  granted : List T
  rd : T → Nat
  wr : T → Nat

/-- A call, with a cancel event or a timeout. -/
inductive RwCall (E : Type) where
  | rdLock (args : WaitArgs E)
  | wrLock (args : WaitArgs E)

variable {T E : Type} [DecidableEq T] [DecidableEq E]

abbrev RwKern (T E : Type) := Kern T E RwQ Unit

/-- `++readers`, for the thread `t`. -/
def FxRwlock.addReader (o : FxRwlock T) (t : T) : FxRwlock T :=
  { o with readers := o.readers + 1, granted := t :: o.granted }

def fxRwlockTestAndWaitReader (me : T) (wait : Bool) (s : RwKern T E × FxRwlock T) :
    Bool × RwKern T E × FxRwlock T :=
  if s.2.owner = none ∧ s.1.wq (.obj .wr) = [] then (true, s.1, s.2.addReader me)
  else (false, if wait then fxSyncWaitStart s.1 (.obj .rd) (me, .main) else s.1, s.2)

def fxRwlockTestAndWaitWriter (me : T) (wait : Bool) (s : RwKern T E × FxRwlock T) :
    Bool × RwKern T E × FxRwlock T :=
  if s.2.owner = none ∧ s.2.readers = 0 then (true, s.1, { s.2 with owner := some me })
  else (false, if wait then fxSyncWaitStart s.1 (.obj .wr) (me, .main) else s.1, s.2)

def fxRwlockInit (policy : SyncPolicy) : FxRwlock T :=
  ⟨none, 0, policy, true, [], fun _ => 0, fun _ => 0⟩

def fxRwlockDeinit (s : RwKern T E × FxRwlock T) : RwKern T E × FxRwlock T :=
  (fxSyncWaitNotifyAll (fxSyncWaitNotifyAll s.1 (.obj .rd) .deleted) (.obj .wr) .deleted,
    { s.2 with valid := false })

/-- The loop that lets readers in until a writer waits or no reader is left, with at most `n`
    rounds. -/
def fxRwlockReadersLoop (policy : SyncPolicy) :
    Nat → RwKern T E × FxRwlock T → RwKern T E × FxRwlock T
  | 0, s => s
  | n + 1, s =>
    match if s.1.wq (.obj .wr) = [] then fxSyncWaitBlockGet s.1 (.obj .rd) policy else none with
    | some wb =>
      fxRwlockReadersLoop policy n (fxSyncWaitNotify s.1 .satisfied wb, s.2.addReader wb.1)
    | none => s

/-- Every round takes a reader out of the queue. -/
def fxRwlockReaders (policy : SyncPolicy) (s : RwKern T E × FxRwlock T) :
    RwKern T E × FxRwlock T :=
  fxRwlockReadersLoop policy (s.1.wq (.obj .rd)).length s

/-- The lock handed over to the writer that the policy selects. -/
def FxRwlock.handOver (k : RwKern T E) (o : FxRwlock T) (wb : Blk T) : RwKern T E × FxRwlock T :=
  (fxSyncWaitNotify k .satisfied wb, { o with owner := some wb.1 })

def fxRwlockUnlockWithPolicy (me : T) (policy : SyncPolicy) (s : RwKern T E × FxRwlock T) :
    RwKern T E × FxRwlock T :=
  if s.2.owner = some me then
    let o := { s.2 with wr := update s.2.wr me (s.2.wr me - 1) }
    match fxSyncWaitBlockGet s.1 (.obj .wr) policy with
    | some wb => o.handOver s.1 wb
    | none => fxRwlockReaders policy (s.1, { o with owner := none })
  else
    let o := { s.2 with
      granted := s.2.granted.erase me
      rd := update s.2.rd me (s.2.rd me - 1) }
    if o.owner = none ∧ 0 < o.readers then
      let o := { o with readers := o.readers - 1 }
      match if o.readers = 0 then fxSyncWaitBlockGet s.1 (.obj .wr) policy else none with
      | some wb => o.handOver s.1 wb
      | none => (s.1, o)
    else (s.1, o)

def fxRwlockKickReaders (s : RwKern T E × FxRwlock T) : RwKern T E × FxRwlock T :=
  fxRwlockReaders s.2.policy s

/-- The ends of the calls: a writer whose wait failed kicks the readers. -/
def fxRwlockLockEnd (me : T) (res : ThreadStatus) (s : RwKern T E × FxRwlock T) :
    RwCall E → RwKern T E × FxRwlock T
  | .rdLock _ =>
    if res = .ok then (s.1, { s.2 with rd := update s.2.rd me (s.2.rd me + 1) }) else s
  | .wrLock _ =>
    if res = .ok then (s.1, { s.2 with wr := update s.2.wr me (s.2.wr me + 1) })
    else fxRwlockKickReaders s

def RwCall.queue : RwCall E → RwQ
  | .rdLock _ => .rd
  | .wrLock _ => .wr

def RwCall.args : RwCall E → WaitArgs E
  | .rdLock args => args
  | .wrLock args => args

/-- The check of the timeout at the start of the timed calls. -/
def WaitArgs.inRange : WaitArgs E → Bool
  | .event _ => true
  | .timeout tout => tout.toNat < 0x7FFFFFFF

inductive RwOp (T : Type) where
  | deinit
  | unlockWithPolicy (me : T) (policy : SyncPolicy)
  | unlock (me : T)

def RwOp.caller : RwOp T → Option T
  | .deinit => none
  | .unlockWithPolicy me _ => some me
  | .unlock me => some me

def RwOp.run : RwOp T → RwKern T E × FxRwlock T → RwKern T E × FxRwlock T
  | .deinit, s => fxRwlockDeinit s
  | .unlockWithPolicy me policy, s => fxRwlockUnlockWithPolicy me policy s
  | .unlock me, s => fxRwlockUnlockWithPolicy me s.2.policy s

/-- Only a thread that holds the lock unlocks it. -/
def RwOp.holds (o : FxRwlock T) (p : RwOp T) : Prop :=
  ∀ me ∈ p.caller, o.owner = some me ∨ 0 < o.rd me

instance (o : FxRwlock T) (p : RwOp T) : Decidable (p.holds o) := by
  unfold RwOp.holds
  infer_instance

def fxRwlock (checks : Bool) : WaitObject T E RwQ Unit (FxRwlock T) (RwCall E) (RwOp T) where
  start _ o _ c :=
    if checks ∧ (o.valid = false ∨ c.args.inRange = false) then none else some c
  waitable c := .obj c.queue
  attr _ := none
  args c := c.args
  testWait me c :=
    match c.queue with
    | .rd => fxRwlockTestAndWaitReader me
    | .wr => fxRwlockTestAndWaitWriter me
  after me c res s := (none, fxRwlockLockEnd me res s c)
  caller p := p.caller
  op p s :=
    if p.holds s.2 then some (if checks ∧ s.2.valid = false then s else p.run s) else none

/-! ## 2. Lawfulness -/

section Ordnung

variable {s : RwKern T E × FxRwlock T} {me : T}

theorem fxRwlockReadersLoop_moves (policy : SyncPolicy) (n : Nat)
    (s : RwKern T E × FxRwlock T) :
    Moves IsObj NoOne s.1 (fxRwlockReadersLoop policy n s).1 := by
  induction n generalizing s with
  | zero => exact .refl
  | succ n ih =>
    unfold fxRwlockReadersLoop
    split
    · rename_i wb hget
      split at hget
      · have h1 : Moves IsObj NoOne s.1 (fxSyncWaitNotify s.1 .satisfied wb) :=
          Moves.wake hget trivial (Or.inl rfl)
        exact h1.trans (ih (_, _))
      · cases hget
    · exact .refl

theorem fxRwlockReaders_moves (policy : SyncPolicy) (k : RwKern T E) (o : FxRwlock T) :
    Moves IsObj NoOne k (fxRwlockReaders policy (k, o)).1 :=
  fxRwlockReadersLoop_moves policy _ (k, o)

theorem fxRwlockUnlockWithPolicy_moves (me : T) (policy : SyncPolicy)
    (s : RwKern T E × FxRwlock T) :
    Moves IsObj NoOne s.1 (fxRwlockUnlockWithPolicy me policy s).1 := by
  unfold fxRwlockUnlockWithPolicy
  split
  · dsimp only
    split
    · rename_i wb hwb
      exact Moves.wake hwb trivial (Or.inl rfl)
    · exact fxRwlockReaders_moves policy s.1 _
  · dsimp only
    split
    · split
      · rename_i wb hwb
        split at hwb
        · exact Moves.wake hwb trivial (Or.inl rfl)
        · cases hwb
      · exact .refl
    · exact .refl

theorem RwOp.run_moves (p : RwOp T) (s : RwKern T E × FxRwlock T) :
    Moves IsObj NoOne s.1 (p.run s).1 := by
  cases p with
  | deinit =>
    have h1 : Moves IsObj NoOne s.1 (fxSyncWaitNotifyAll s.1 (.obj .rd) .deleted) :=
      Moves.notifyAll (w := .obj .rd) trivial (Or.inr rfl) s.1
    exact h1.trans (Moves.notifyAll (w := .obj RwQ.wr) trivial (Or.inr rfl) _)
  | unlockWithPolicy me policy => exact fxRwlockUnlockWithPolicy_moves me policy s
  | unlock me => exact fxRwlockUnlockWithPolicy_moves me _ s

/-- What a call was granted when its test succeeds. -/
def FxRwlock.grant (o : FxRwlock T) (me : T) : RwCall E → FxRwlock T
  | .rdLock _ => o.addReader me
  | .wrLock _ => { o with owner := some me }

/-- The outcomes of the tests. -/
theorem fxRwlockTest_cases (checks : Bool) (me : T) (c : RwCall E) (wait : Bool)
    (s : RwKern T E × FxRwlock T) :
    (s.2.owner = none ∧ (c.queue = .wr → s.2.readers = 0) ∧
      (fxRwlock checks).testWait me c wait s = (true, s.1, s.2.grant me c)) ∨
    (fxRwlock checks).testWait me c wait s =
      (false, if wait then fxSyncWaitStart s.1 (.obj c.queue) (me, .main) else s.1, s.2) := by
  cases c with
  | rdLock args =>
    show _ ∨ fxRwlockTestAndWaitReader me wait s = _
    by_cases h : s.2.owner = none ∧ s.1.wq (.obj .wr) = []
    · exact Or.inl ⟨h.1, nofun, if_pos h⟩
    · exact Or.inr (if_neg h)
  | wrLock args =>
    show _ ∨ fxRwlockTestAndWaitWriter me wait s = _
    by_cases h : s.2.owner = none ∧ s.2.readers = 0
    · exact Or.inl ⟨h.1, fun _ => h.2, if_pos h⟩
    · exact Or.inr (if_neg h)

theorem fxRwlock_lawful (checks : Bool) :
    (fxRwlock checks : WaitObject T E _ _ _ _ _).Lawful where
  testTrue me c wait s s' _ h := by
    rcases fxRwlockTest_cases checks me c wait s with ⟨_, _, e⟩ | e
    all_goals cases h.symm.trans e
    exact .refl
  testPoll me c s s' _ h := by
    rcases fxRwlockTest_cases checks me c false s with ⟨_, _, e⟩ | e
    all_goals cases h.symm.trans e
    exact .refl
  testWait me c s s' _ h := by
    rcases fxRwlockTest_cases checks me c true s with ⟨_, _, e⟩ | e
    all_goals cases h.symm.trans e
    exact ⟨nofun, .refl⟩
  after me c r s := by
    cases c with
    | rdLock args =>
      show Moves IsObj NoOne s.1 (ite _ _ _ : RwKern T E × FxRwlock T).1
      split <;> exact .refl
    | wrLock args =>
      show Moves IsObj NoOne s.1 (ite _ _ _ : RwKern T E × FxRwlock T).1
      split
      · exact .refl
      · exact fxRwlockReaders_moves s.2.policy s.1 s.2
  op p s s' _ _ h := by
    obtain ⟨_, rfl⟩ := taken h
    split
    · exact .refl
    · exact p.run_moves s

end Ordnung

/-! ## 3. Exclusion -/

/-- What a granted call adds to the accounts. -/
def rdPending : Option (RwCall E) → Nat
  | some (.rdLock _) => 1
  | _ => 0

def wrPending : Option (RwCall E) → Nat
  | some (.wrLock _) => 1
  | _ => 0

/-- **Exclusion**, and the accounts of the threads that were not terminated. -/
structure RwOk (k : RwKern T E) (o : FxRwlock T) (pc : T → Pc T E (RwCall E)) : Prop where
  excl : o.owner ≠ none → o.readers = 0
  len : o.granted.length = o.readers
  rd : ∀ t, pc t ≠ .gone → o.granted.count t = o.rd t + rdPending ((pc t).granted k t)
  wr : ∀ t, pc t ≠ .gone →
    (if o.owner = some t then 1 else 0) = o.wr t + wrPending ((pc t).granted k t)

section Ausschluss

variable {checks : Bool} {k k' : RwKern T E} {o : FxRwlock T} {pc pc' : T → Pc T E (RwCall E)}
  {b : Blk T} {me : T}

/-- The same lock, seen after a step that grants nothing. -/
theorem RwOk.same (h : RwOk k o pc)
    (hg : ∀ t, pc' t ≠ .gone → pc t ≠ .gone ∧ (pc' t).granted k' t = (pc t).granted k t) :
    RwOk k' o pc' where
  excl := h.excl
  len := h.len
  rd t ht := by
    rw [(hg t ht).2]
    exact h.rd t (hg t ht).1
  wr t ht := by
    rw [(hg t ht).2]
    exact h.wr t (hg t ht).1

/-- A reader is let in. -/
theorem RwOk.addReader (h : RwOk k o pc)
    (hk : KernOk k fun u => (pc u).phase (fxRwlock checks)) (hb : b ∈ k.wq (.obj .rd))
    (ho : o.owner = none) : RwOk (fxSyncWaitNotify k .satisfied b) (o.addReader b.1) pc := by
  obtain ⟨hmain, ab, c, hpc, hc⟩ := call_of_mem hk hb rfl
  have hold : (pc b.1).granted k b.1 = none := by
    rw [hpc]
    exact granted_of_mem hk hb (phase_ne_entering _)
  have hnew : (pc b.1).granted (fxSyncWaitNotify k .satisfied b) b.1 = some c := by
    rw [hpc]
    exact granted_notify hmain
  cases c with
  | wrLock args => cases hc
  | rdLock args =>
    refine ⟨fun hne => absurd ho hne, congrArg (· + 1) h.len, fun t ht => ?_, fun t ht => ?_⟩
    · by_cases htb : t = b.1
      · subst htb
        have := h.rd b.1 ht
        rw [hold] at this
        rw [hnew]
        show (b.1 :: o.granted).count b.1 = o.rd b.1 + 1
        rw [List.count_cons_self, this]
        rfl
      · rw [granted_notify_ne htb]
        show (b.1 :: o.granted).count t = _
        rw [List.count_cons_of_ne (Ne.symm htb)]
        exact h.rd t ht
    · by_cases htb : t = b.1
      · subst htb
        have := h.wr b.1 ht
        rw [hold] at this
        rw [hnew]
        exact this
      · rw [granted_notify_ne htb]
        exact h.wr t ht

/-- The lock is handed over to a writer. -/
theorem RwOk.handOver (h : RwOk k o pc)
    (hk : KernOk k fun u => (pc u).phase (fxRwlock checks)) (hb : b ∈ k.wq (.obj .wr))
    (ho : o.owner = none) (hr : o.readers = 0) :
    RwOk (o.handOver k b).1 (o.handOver k b).2 pc := by
  obtain ⟨hmain, ab, c, hpc, hc⟩ := call_of_mem hk hb rfl
  have hold : (pc b.1).granted k b.1 = none := by
    rw [hpc]
    exact granted_of_mem hk hb (phase_ne_entering _)
  have hnew : (pc b.1).granted (fxSyncWaitNotify k .satisfied b) b.1 = some c := by
    rw [hpc]
    exact granted_notify hmain
  cases c with
  | rdLock args => cases hc
  | wrLock args =>
    refine ⟨fun _ => hr, h.len, fun t ht => ?_, fun t ht => ?_⟩
    · show o.granted.count t = o.rd t + rdPending ((pc t).granted (fxSyncWaitNotify k _ b) t)
      have := h.rd t ht
      by_cases htb : t = b.1
      · subst htb
        rw [hold] at this
        rw [hnew]
        exact this
      · rw [granted_notify_ne htb]
        exact this
    · show (if some b.1 = some t then 1 else 0) =
        o.wr t + wrPending ((pc t).granted (fxSyncWaitNotify k _ b) t)
      have := h.wr t ht
      rw [ho, if_neg nofun] at this
      by_cases htb : t = b.1
      · subst htb
        rw [hold] at this
        rw [hnew, if_pos rfl]
        exact congrArg (· + 1) this
      · rw [granted_notify_ne htb, if_neg fun e => htb (Option.some.inj e).symm]
        exact this

/-- The readers let in by the loop, while nobody owns the lock. -/
theorem RwOk.readersLoop (policy : SyncPolicy) (n : Nat) (h : RwOk k o pc)
    (hk : KernOk k fun u => (pc u).phase (fxRwlock checks)) (ho : o.owner = none) :
    RwOk (fxRwlockReadersLoop policy n (k, o)).1 (fxRwlockReadersLoop policy n (k, o)).2 pc := by
  induction n generalizing k o with
  | zero => exact h
  | succ n ih =>
    unfold fxRwlockReadersLoop
    split
    · rename_i wb hget
      split at hget
      · have hb := fxSyncWaitBlockGet_mem hget
        exact ih (h.addReader hk hb ho) (hk.notify hb (phase_ne_entering _) (Or.inl rfl)) ho
      · cases hget
    · exact h

/-- The loop does nothing while a writer waits, or no reader does. -/
theorem fxRwlockReaders_nothing (policy : SyncPolicy) {s : RwKern T E × FxRwlock T}
    (h : s.1.wq (.obj .rd) = [] ∨ s.1.wq (.obj .wr) ≠ []) : fxRwlockReaders policy s = s := by
  unfold fxRwlockReaders
  rcases h with h | h
  · rw [h]
    rfl
  · cases (s.1.wq (.obj .rd)).length with
    | zero => rfl
    | succ n =>
      unfold fxRwlockReadersLoop
      rw [if_neg h]

theorem RwOk.readers (policy : SyncPolicy) (h : RwOk k o pc)
    (hk : KernOk k fun u => (pc u).phase (fxRwlock checks)) (ho : o.owner = none) :
    RwOk (fxRwlockReaders policy (k, o)).1 (fxRwlockReaders policy (k, o)).2 pc :=
  h.readersLoop policy _ hk ho

/-- The writer gives the lock up. -/
theorem RwOk.unlockWriter (h : RwOk k o pc) (hidle : pc me = .idle) (ho : o.owner = some me) :
    RwOk k { o with owner := none, wr := update o.wr me (o.wr me - 1) } pc := by
  refine ⟨fun hne => absurd rfl hne, h.len, h.rd, fun t ht => ?_⟩
  have := h.wr t ht
  show 0 = update o.wr me (o.wr me - 1) t + _
  by_cases htm : t = me
  · subst htm
    rw [hidle, if_pos ho] at this
    rw [Function.update_self, hidle]
    change 1 = o.wr t + 0 at this
    show 0 = o.wr t - 1 + 0
    omega
  · rw [ho, if_neg fun e => htm (Option.some.inj e).symm] at this
    rw [Function.update_of_ne htm]
    exact this

/-- A reader gives the lock up. -/
theorem RwOk.unlockReader (h : RwOk k o pc) (hidle : pc me = .idle) (hr : 0 < o.rd me) :
    o.owner = none ∧ 0 < o.readers ∧ RwOk k { o with
      granted := o.granted.erase me
      rd := update o.rd me (o.rd me - 1)
      readers := o.readers - 1 } pc := by
  have hcount := h.rd me (by rw [hidle]; exact nofun)
  rw [hidle] at hcount
  change o.granted.count me = o.rd me + 0 at hcount
  have hmem : me ∈ o.granted := List.count_pos_iff.mp (by omega)
  have hpos : 0 < o.readers := by
    rw [← h.len]
    exact List.length_pos_of_mem hmem
  have ho : o.owner = none := by
    by_contra hne
    have := h.excl hne
    omega
  refine ⟨ho, hpos, fun hne => absurd ho hne, ?_, fun t ht => ?_, h.wr⟩
  · show (o.granted.erase me).length = o.readers - 1
    rw [List.length_erase_of_mem hmem, h.len]
  · have := h.rd t ht
    show (o.granted.erase me).count t = update o.rd me (o.rd me - 1) t + _
    by_cases htm : t = me
    · subst htm
      rw [List.count_erase_self, Function.update_self, hcount, hidle]
      show o.rd t + 0 - 1 = o.rd t - 1 + 0
      omega
    · rw [List.count_erase_of_ne htm, Function.update_of_ne htm]
      exact this

theorem RwOk.unlock (policy : SyncPolicy) (h : RwOk k o pc)
    (hk : KernOk k fun u => (pc u).phase (fxRwlock checks)) (hidle : pc me = .idle)
    (hold : o.owner = some me ∨ 0 < o.rd me) :
    RwOk (fxRwlockUnlockWithPolicy me policy (k, o)).1
      (fxRwlockUnlockWithPolicy me policy (k, o)).2 pc := by
  unfold fxRwlockUnlockWithPolicy
  split
  · rename_i ho
    have h1 := h.unlockWriter hidle ho
    dsimp only
    split
    · rename_i wb hwb
      have hr : o.readers = 0 := h.excl (by rw [show o.owner = some me from ho]; exact nofun)
      exact h1.handOver hk (fxSyncWaitBlockGet_mem hwb) rfl hr
    · exact h1.readers policy hk rfl
  · rename_i hno
    obtain ⟨ho, hpos, h1⟩ := h.unlockReader hidle (hold.resolve_left hno)
    dsimp only
    rw [if_pos ⟨ho, hpos⟩]
    split
    · rename_i wb hwb
      split at hwb
      · rename_i hz
        exact h1.handOver hk (fxSyncWaitBlockGet_mem hwb) ho hz
      · cases hwb
    · exact h1

theorem RwOk.deinit (h : RwOk k o pc)
    (hk : KernOk k fun u => (pc u).phase (fxRwlock checks)) :
    RwOk (fxRwlockDeinit (k, o)).1 (fxRwlockDeinit (k, o)).2 pc := by
  have h1 : Moves IsObj NoOne k (fxSyncWaitNotifyAll k (.obj .rd) .deleted) :=
    Moves.notifyAll (w := .obj RwQ.rd) trivial (Or.inr rfl) k
  have hk1 := h1.kernOk hk fun u hu => absurd hu (phase_ne_entering _)
  have h2 : RwOk k { o with valid := false } pc := ⟨h.excl, h.len, h.rd, h.wr⟩
  exact h2.same fun t ht => ⟨ht, (granted_notifyAll_deleted hk1 .wr t).trans
    (granted_notifyAll_deleted hk .rd t)⟩

/-- A test, in a wait or without waiting: only a success changes the lock. -/
theorem RwOk.test (h : RwOk k o pc) (c : RwCall E) (wait : Bool) {k1 : RwKern T E}
    {p : Bool × RwKern T E × FxRwlock T}
    (hp : p = (fxRwlock checks).testWait me c wait (k1, o))
    (hme : pc me ≠ .gone ∧ (pc me).granted k me = none)
    (hk : ∀ u, u ≠ me → k1.wb (u, .main) = k.wb (u, .main))
    (hk' : ∀ u, u ≠ me → k'.wb (u, .main) = p.2.1.wb (u, .main))
    (hpc : ∀ u, u ≠ me → pc' u = pc u)
    (hnew : (pc' me).granted k' me = if p.1 then some c else none) : RwOk k' p.2.2 pc' := by
  -- the other threads
  have hwait : ∀ u, u ≠ me → p.2.1.wb (u, .main) = k1.wb (u, .main) := by
    intro u hu
    rcases fxRwlockTest_cases checks me c wait (k1, o) with ⟨_, _, e⟩ | e
    · rw [hp, e]
    · rw [hp, e]
      show (ite _ _ _ : RwKern T E).wb (u, .main) = _
      split
      · exact Function.update_of_ne (fun e => hu (congrArg Prod.fst e)) ..
      · rfl
  have hother : ∀ u, u ≠ me → pc' u ≠ .gone →
      pc u ≠ .gone ∧ (pc' u).granted k' u = (pc u).granted k u := by
    intro u hu hg
    rw [hpc u hu] at hg ⊢
    exact ⟨hg, granted_congr ((hk' u hu).trans ((hwait u hu).trans (hk u hu)))⟩
  have hrd := h.rd me hme.1
  have hwr := h.wr me hme.1
  rw [hme.2] at hrd hwr
  rcases fxRwlockTest_cases checks me c wait (k1, o) with ⟨ho, hr, e⟩ | e
  · have e1 : p.1 = true := by rw [hp, e]
    have e2 : p.2.2 = o.grant me c := by rw [hp, e]
    rw [e1, if_pos rfl] at hnew
    rw [e2]
    have ho' : o.owner = none := ho
    cases c with
    | rdLock args =>
      refine ⟨fun hne => absurd ho' hne, congrArg (· + 1) h.len, fun t ht => ?_, fun t ht => ?_⟩
      · show (me :: o.granted).count t = _
        by_cases htm : t = me
        · subst htm
          rw [hnew, List.count_cons_self, hrd]
          rfl
        · rw [List.count_cons_of_ne (Ne.symm htm), (hother t htm ht).2]
          exact h.rd t (hother t htm ht).1
      · by_cases htm : t = me
        · subst htm
          rw [hnew]
          exact hwr
        · rw [(hother t htm ht).2]
          exact h.wr t (hother t htm ht).1
    | wrLock args =>
      refine ⟨fun _ => hr rfl, h.len, fun t ht => ?_, fun t ht => ?_⟩
      · by_cases htm : t = me
        · subst htm
          rw [hnew]
          exact hrd
        · rw [(hother t htm ht).2]
          exact h.rd t (hother t htm ht).1
      · show (if some me = some t then 1 else 0) = _
        by_cases htm : t = me
        · subst htm
          rw [ho', if_neg nofun] at hwr
          rw [hnew, if_pos rfl]
          exact congrArg (· + 1) hwr
        · have := h.wr t (hother t htm ht).1
          rw [ho', if_neg nofun] at this
          rw [if_neg fun e => htm (Option.some.inj e).symm, (hother t htm ht).2]
          exact this
  · have e1 : p.1 = false := by rw [hp, e]
    have e2 : p.2.2 = o := by rw [hp, e]
    rw [e1, if_neg nofun] at hnew
    rw [e2]
    refine ⟨h.excl, h.len, fun t ht => ?_, fun t ht => ?_⟩
    all_goals
      by_cases htm : t = me
      · subst htm
        rw [hnew]
        assumption
      · rw [(hother t htm ht).2]
        first
          | exact h.rd t (hother t htm ht).1
          | exact h.wr t (hother t htm ht).1

/-- The end of a call: what was granted is returned, and a failed writer may kick the readers. -/
theorem RwOk.lockEnd (h : RwOk k o pc) (hk : KernOk k fun u => (pc u).phase (fxRwlock checks))
    {c : RwCall E} {r : ThreadStatus} (hpc : pc me = .inCall (.ret r) c)
    (hkick : c.queue = .wr → r ≠ .ok → o.owner ≠ none →
      k.wq (.obj .rd) = [] ∨ k.wq (.obj .wr) ≠ []) :
    RwOk (fxRwlockLockEnd me r (k, o) c).1 (fxRwlockLockEnd me r (k, o) c).2
      (update pc me .idle) := by
  have hne : pc me ≠ .gone := by rw [hpc]; exact nofun
  have hrd := h.rd me hne
  have hwr := h.wr me hne
  by_cases hok : r = .ok
  · -- the grant moves from the call to the account of the thread
    have hg : (pc me).granted k me = some c := by rw [hpc]; exact if_pos hok
    rw [hg] at hrd hwr
    have hidle : ∀ u, u ≠ me → update pc me .idle u = pc u := fun u hu =>
      Function.update_of_ne hu ..
    cases c with
    | rdLock args =>
      simp only [fxRwlockLockEnd, if_pos hok]
      refine ⟨h.excl, h.len, fun t ht => ?_, fun t ht => ?_⟩
      · show o.granted.count t = update o.rd me (o.rd me + 1) t + _
        by_cases htm : t = me
        · subst htm
          rw [Function.update_self, Function.update_self]
          exact hrd
        · rw [hidle t htm] at ht ⊢
          rw [Function.update_of_ne htm]
          exact h.rd t ht
      · by_cases htm : t = me
        · subst htm
          rw [Function.update_self]
          exact hwr
        · rw [hidle t htm] at ht ⊢
          exact h.wr t ht
    | wrLock args =>
      simp only [fxRwlockLockEnd, if_pos hok]
      refine ⟨h.excl, h.len, fun t ht => ?_, fun t ht => ?_⟩
      · by_cases htm : t = me
        · subst htm
          rw [Function.update_self]
          exact hrd
        · rw [hidle t htm] at ht ⊢
          exact h.rd t ht
      · show (if o.owner = some t then 1 else 0) = update o.wr me (o.wr me + 1) t + _
        by_cases htm : t = me
        · subst htm
          rw [Function.update_self, Function.update_self]
          exact hwr
        · rw [hidle t htm] at ht ⊢
          rw [Function.update_of_ne htm]
          exact h.wr t ht
  · have hidle : ∀ {k : RwKern T E} {o : FxRwlock T}, RwOk k o pc →
        RwOk k o (update pc me .idle) := fun h => h.same fun t ht => by
      by_cases htm : t = me
      · subst htm
        rw [Function.update_self, hpc]
        exact ⟨nofun, (if_neg hok).symm⟩
      · rw [Function.update_of_ne htm] at ht ⊢
        exact ⟨ht, rfl⟩
    cases c with
    | rdLock args =>
      simp only [fxRwlockLockEnd, if_neg hok]
      exact hidle h
    | wrLock args =>
      simp only [fxRwlockLockEnd, if_neg hok, fxRwlockKickReaders]
      by_cases ho : o.owner = none
      · exact hidle (h.readers o.policy hk ho)
      · rw [fxRwlockReaders_nothing o.policy (s := (k, o)) (hkick rfl hok ho)]
        exact hidle h

end Ausschluss

/-- A writer whose wait failed finds no readers to let in while another writer owns the lock. -/
def KickHarmless {A : Type} (s : Sys T E RwQ A (FxRwlock T) (RwCall E)) :
    Act T E (RwCall E) (RwOp T) → Prop
  | .go t =>
    match s.pc t with
    | .inCall (.ret r) (.wrLock _) => r ≠ .ok → s.obj.owner ≠ none →
        s.kern.wq (.obj .rd) = [] ∨ s.kern.wq (.obj .wr) ≠ []
    | _ => True
  | _ => True

instance {A : Type} (s : Sys T E RwQ A (FxRwlock T) (RwCall E)) (a : Act T E (RwCall E) (RwOp T)) :
    Decidable (KickHarmless s a) := by
  unfold KickHarmless
  split
  · split <;> infer_instance
  · infer_instance

section Lauf

variable {cfg : Config T} {checks : Bool}
  {s s' : Sys T E RwQ Unit (FxRwlock T) (RwCall E)}

/-- **One step keeps exclusion.** -/
theorem RwOk.step {a : Act T E (RwCall E) (RwOp T)} (hw : WellFormed (fxRwlock checks) s)
    (h : RwOk s.kern s.obj s.pc) (hg : KickHarmless s a)
    (hs : step cfg (fxRwlock checks) a s = some s') : RwOk s'.kern s'.obj s'.pc := by
  have hobj : ∀ c, IsObj ((fxRwlock checks : WaitObject T E _ _ _ _ _).waitable c) :=
    fun _ => trivial
  have hinCall : ∀ {t stage c}, s.pc t = .inCall stage c → s.pc t ≠ .gone := fun h => by
    rw [h]
    exact nofun
  cases (step_case (fxRwlock_lawful checks) hw hs).1 with
  | quiet t hq =>
    rw [hq.obj]
    exact h.same fun u hu => ⟨fun hgone => hu (hq.gone hgone), hq.granted hobj hw u hu⟩
  | enter t c ab r k ha hpc hr he hs =>
    have hph : s.phases (fxRwlock checks) t = .awake := by rw [Sys.phases, hpc]; rfl
    have ht := (fxRwlock_lawful checks).tested (c := c) (o := s.obj) hw.phases (phases_ne s) hw.ev
      hph hr
    rw [hs]
    refine h.test c true rfl ⟨hinCall hpc, by rw [hpc]; rfl⟩
      (fun u hu => (prepare_view (Ne.symm hu) _).wb .main)
      (fun u hu => (he.view hu).wb .main) (fun u hu => Function.update_of_ne hu ..) ?_
    show (update s.pc t _ t).granted k t = _
    rw [Function.update_self]
    exact he.granted ht.queued
  | poll t c p ha hpc hr hp hs =>
    rw [hs]
    refine h.test c false hp ⟨hinCall hpc, by rw [hpc]; rfl⟩
      (fun u hu => Function.update_of_ne (fun e => hu (congrArg Prod.fst e)) ..)
      (fun _ _ => rfl) (fun u hu => Function.update_of_ne hu ..) ?_
    show (update s.pc t _ t).granted p.2.1 t = _
    rw [Function.update_self]
    cases p.1 with
    | true => rfl
    | false => rfl
  | after t c r ha hpc hr hs =>
    rw [hs]
    refine h.lockEnd hw.phases hpc fun hc hok hown => ?_
    cases c with
    | rdLock args => cases hc
    | wrLock args =>
      subst ha
      simp only [KickHarmless, hpc] at hg
      exact hg hok hown
  | op p ko ha hc ho hs =>
    obtain ⟨hhold, rfl⟩ := taken ho
    rw [hs]
    split
    · exact h
    · cases p with
      | deinit => exact h.deinit hw.phases
      | unlockWithPolicy me policy =>
        exact h.unlock policy hw.phases (hc me rfl).pc (hhold me rfl)
      | unlock me => exact h.unlock s.obj.policy hw.phases (hc me rfl).pc (hhold me rfl)

end Lauf

theorem reach_rwOk {cfg : Config T} {policy : SyncPolicy}
    {s : Sys T E RwQ Unit (FxRwlock T) (RwCall E)}
    (h : Reach (step cfg (fxRwlock cfg.checks)) KickHarmless (boot cfg (fxRwlockInit policy)) s) :
    RwOk s.kern s.obj s.pc := by
  have h0 : RwOk (fxThreadCtor cfg.prioNum cfg.idle : RwKern T E) (fxRwlockInit policy)
      fun _ => .absent :=
    ⟨fun hne => absurd rfl hne, rfl, fun _ _ => rfl, fun _ _ => rfl⟩
  exact Reach.inv_of (J := fun s => RwOk s.kern s.obj s.pc)
    (fun _ hr => reach_wellFormed (fxRwlock_lawful cfg.checks) hr) h0
    (fun _ _ _ hw hj hg hs => hj.step hw hg hs) h

/-- **Exclusion in every run in which no failed writer lets readers in beside an owner.** -/
theorem rwlock_excl {cfg : Config T} {policy : SyncPolicy}
    {s : Sys T E RwQ Unit (FxRwlock T) (RwCall E)}
    (h : Reach (step cfg (fxRwlock cfg.checks)) KickHarmless (boot cfg (fxRwlockInit policy)) s) :
    (s.obj.owner ≠ none → s.obj.readers = 0) ∧ s.obj.readers = s.obj.granted.length ∧
    ∀ t, s.pc t ≠ .gone →
      s.obj.granted.count t = s.obj.rd t + rdPending (s.granted t) ∧
      (if s.obj.owner = some t then 1 else 0) = s.obj.wr t + wrPending (s.granted t) := by
  have hok := reach_rwOk h
  exact ⟨hok.excl, hok.len.symm, fun t ht => ⟨hok.rd t ht, hok.wr t ht⟩⟩

/-- A writer owns the lock, a reader and a writer wait for it, and the kick of a writer that did not
    wait has let nobody in. -/
theorem rwlock_excl_writer :
    let cfg : Config (Fin 5) := ⟨true, 8, 4⟩
    ∃ s : Sys (Fin 5) Unit RwQ Unit (FxRwlock (Fin 5)) (RwCall Unit),
      Reach (step cfg (fxRwlock cfg.checks)) KickHarmless (boot cfg (fxRwlockInit .fifo)) s ∧
      s.obj.owner = some 0 ∧ s.kern.wq (.obj .rd) = [(1, .main)] ∧
      s.kern.wq (.obj .wr) = [(2, .main)] ∧ s.obj.readers = 0 := by
  intro cfg
  let acts : List (Act (Fin 5) Unit (RwCall Unit) (RwOp (Fin 5))) :=
    [.init 0 5 false, .call 0 (.wrLock (.event none)), .go 0, .go 0,
      .init 1 4 false, .call 1 (.rdLock (.event none)), .go 1,
      .init 2 3 false, .call 2 (.wrLock (.event none)), .go 2,
      .init 3 2 false, .call 3 (.wrLock (.timeout 0)), .go 3]
  -- the kick of thread 3
  have h : (runIf (fun s a => decide (KickHarmless s a)) (step cfg (fxRwlock cfg.checks))
      (acts ++ [.go 3]) (boot cfg (fxRwlockInit .fifo))).any (fun s => s.obj.owner = some 0 ∧
        s.kern.wq (.obj .rd) = [(1, .main)] ∧ s.kern.wq (.obj .wr) = [(2, .main)]) = true := by
    decide +kernel
  obtain ⟨s, hr, hp⟩ := exists_of_runIf (fun _ _ hg => of_decide_eq_true hg) h
  obtain ⟨ho, hrd, hwr⟩ := of_decide_eq_true hp
  exact ⟨s, hr, ho, hrd, hwr, (rwlock_excl hr).1 (by rw [ho]; exact nofun)⟩

/-- **A failed writer lets a reader in beside the owner.** Thread 0 owns the lock, thread 1 waits
    for it as a reader, thread 2 tries to get it as a writer without waiting. -/
theorem rwlock_not_excl :
    let cfg : Config (Fin 4) := ⟨true, 8, 3⟩
    ∃ s : Sys (Fin 4) Unit RwQ Unit (FxRwlock (Fin 4)) (RwCall Unit),
      Reach (step cfg (fxRwlock cfg.checks)) Always (boot cfg (fxRwlockInit .fifo)) s ∧
      s.obj.owner = some 0 ∧ s.obj.readers = 1 := by
  intro cfg
  let acts : List (Act (Fin 4) Unit (RwCall Unit) (RwOp (Fin 4))) :=
    [.init 0 5 false, .call 0 (.wrLock (.event none)), .go 0, .go 0,
      .init 1 4 false, .call 1 (.rdLock (.event none)), .go 1,
      .init 2 3 false, .call 2 (.wrLock (.timeout 0)), .go 2, .go 2]
  have h : (run (step cfg (fxRwlock cfg.checks)) acts (boot cfg (fxRwlockInit .fifo))).any
      (fun s => s.obj.owner = some 0 ∧ s.obj.readers = 1) = true := by
    decide +kernel
  obtain ⟨s, hr, hp⟩ := exists_of_run h
  obtain ⟨ho, hn⟩ := of_decide_eq_true hp
  exact ⟨s, hr, ho, hn⟩

end FxRtos
