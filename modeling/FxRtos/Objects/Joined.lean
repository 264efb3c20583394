/-
  File:      FxRtos/Objects/Joined.lean
  Subject:   JOIN AND COMPLETION, FOR EVERY KIND OF OBJECT that threads wait for before they end.

  * `fxRwlock_orderly`, `fxEvFlags_orderly`, `fxEvent_orderly` -- the code of these objects wakes
    only threads in use; for semaphores, message queues, barriers and block pools that is
    `WaitObject.Plain.orderly`, for mutexes and condition variables `fxMutex_orderly`.
  * `JoinsCompleted` -- what a join that returns OK says of the thread, and which completions the
    dispatcher has set, in every run.
  * `joins_completed` -- it holds whatever the threads wait for.
-/
import FxRtos.Kernel.Join
import FxRtos.Objects.Barrier
import FxRtos.Objects.EvFlags
import FxRtos.Objects.Event
import FxRtos.Objects.MsgqDeque
import FxRtos.Objects.PoolPartition
import FxRtos.Objects.ReadySet
import FxRtos.Objects.Rwlock

namespace FxRtos

open Function (update)
open Lib

set_option linter.unusedSectionVars false

/-- Objects that promise nothing of their own data, and may be operated on at any time. -/
abbrev WaitObject.Tidy {T E Q A O C P : Type} [DecidableEq T] [DecidableEq E] [DecidableEq Q]
    (W : WaitObject T E Q A O C P) : Prop := W.Orderly (fun _ _ => True) fun _ _ _ => True

/-! ## 1. The code of the objects -/

section Sperre

variable {T E : Type} [DecidableEq T] [DecidableEq E] {live made : T → Prop}
  {s : RwKern T E × FxRwlock T} {me : T}

/-- The object changed, of which nothing is promised. -/
theorem Tended.anyObject {Q A O : Type} [DecidableEq Q] {s : Kern T E Q A × O}
    (h : Tended (fun _ _ => True) live made s) (o : O) :
    Tended (fun _ _ => True) live made (s.1, o) := ⟨h.sched, h.queued, trivial⟩

/-- Every round of the loop wakes a reader that is queued. -/
theorem Tended.readersLoop (policy : SyncPolicy) (n : Nat)
    (h : Tended (fun _ _ => True) live made s) :
    Tended (fun _ _ => True) live made (fxRwlockReadersLoop policy n s) := by
  induction n generalizing s with
  | zero => exact h
  | succ n ih =>
    unfold fxRwlockReadersLoop
    split
    · rename_i wb hget
      split at hget
      · exact ih ((h.notify (fxSyncWaitBlockGet_mem hget) .satisfied).anyObject _)
      · cases hget
    · exact h

theorem Tended.unlock (policy : SyncPolicy) (h : Tended (fun _ _ => True) live made s) :
    Tended (fun _ _ => True) live made (fxRwlockUnlockWithPolicy me policy s) := by
  have hgive : ∀ {wb : Blk T} (o : FxRwlock T),
      fxSyncWaitBlockGet s.1 (.obj .wr) policy = some wb →
      Tended (fun _ _ => True) live made (o.handOver s.1 wb) := fun o hget =>
    (h.notify (fxSyncWaitBlockGet_mem hget) .satisfied).anyObject _
  unfold fxRwlockUnlockWithPolicy
  dsimp only
  split
  · -- the owner: the next writer, or all readers
    split
    · rename_i wb hget
      exact hgive _ hget
    · exact (h.anyObject _).readersLoop policy _
  · split
    · split
      · rename_i wb hget
        split at hget
        · exact hgive _ hget
        · cases hget
      · exact h.anyObject _
    · exact h.anyObject _

theorem fxRwlock_orderly (checks : Bool) :
    (fxRwlock checks : WaitObject T E _ _ _ _ _).Tidy where
  mono _ _ := trivial
  test {live made s t} c wait _ h hl hm := by
    rcases fxRwlockTest_cases checks t c wait s with ⟨_, _, e⟩ | e
    · rw [e]
      exact h.anyObject _
    · rw [e]
      cases wait with
      | true => exact h.waitStart hl hm .main _
      | false => exact h
  after {live made s t} c r h _ _ := by
    show Tended _ live made (fxRwlockLockEnd t r s c)
    cases c with
    | rdLock args =>
      unfold fxRwlockLockEnd
      dsimp only
      split
      · exact h.anyObject _
      · exact h
    | wrLock args =>
      unfold fxRwlockLockEnd
      dsimp only
      split
      · exact h.anyObject _
      · exact h.readersLoop _ _
  op {live made s s' p} h _ _ hs := by
    obtain ⟨_, rfl⟩ := taken hs
    split
    · exact h
    · cases p with
      | deinit =>
        have h1 := h.notifyAll (.obj .rd) .deleted (Or.inr rfl)
        exact (h1.notifyAll (.obj .wr) .deleted (Or.inr rfl)).anyObject _
      | unlockWithPolicy me policy => exact h.unlock policy
      | unlock me => exact h.unlock _

end Sperre

section Merker

variable {T E : Type} [DecidableEq T] [DecidableEq E] {live made : T → Prop}
  {s : EvfKern T E × EvFlagsMem T}

/-- Blocks of threads in use are notified, which need not be queued any more. -/
theorem Tended.notifyEach {l : List (Blk T)} (h : Tended (fun _ _ => True) live made s)
    (hl : ∀ b ∈ l, live b.1) :
    Tended (fun _ _ => True) live made (FxRtos.notifyEach s.1 l, s.2) := by
  induction l generalizing s with
  | nil => exact h
  | cons b l ih =>
    have h1 : Tended (fun _ _ => True) live made (fxSyncWaitNotify s.1 .satisfied b, s.2) :=
      ⟨h.sched.notify (hl b List.mem_cons_self) .satisfied,
        fun w c hc => h.queued w c (List.mem_of_mem_erase hc), trivial⟩
    exact ih h1 fun c hc => hl c (List.mem_cons_of_mem _ hc)

/-- What the scan takes out of the queue was in it. -/
theorem Tended.setFlags (h : Tended (fun _ _ => True) live made s) (flags : UintFast32)
    (set : Bool) : Tended (fun _ _ => True) live made (fxEvFlagsSet flags set s) := by
  cases set with
  | false => exact h.anyObject _
  | true =>
    obtain ⟨htemp, hkern⟩ := fxEvFlagsScan_spec (s.2.flags ||| flags) s
    have hscan : Tended (fun _ _ => True) live made
        ((fxEvFlagsScan (s.2.flags ||| flags) s).kern, s.2) := by
      rw [hkern]
      refine ⟨?_, fun w b hb => h.queued w b ((unlinkEach_sublist _ _ w).subset hb), trivial⟩
      rw [unlinkEach_sched]
      exact h.sched
    have hcollected : ∀ b ∈ (fxEvFlagsScan (s.2.flags ||| flags) s).temp, live b.1 := by
      intro b hb
      rw [htemp, List.mem_reverse] at hb
      exact (h.queued _ b (List.mem_of_mem_filter hb)).1
    exact (hscan.notifyEach hcollected).anyObject _

theorem fxEvFlags_orderly (checks : Bool) :
    (fxEvFlags checks : WaitObject T E _ _ _ _ _).Tidy where
  mono _ _ := trivial
  test {live made s t} c wait _ h hl hm := by
    show Tended _ live made (fxEvfTestAndWait t wait s).2
    obtain ⟨_, hpassed, hfailed⟩ := fxEvfTestAndWait_spec t wait s
    cases htest : s.1.satisfiedAt s.2.flags (t, .main) with
    | true =>
      have hkern := (hpassed htest).1
      exact ⟨hkern ▸ h.sched, hkern ▸ h.queued, trivial⟩
    | false =>
      rw [hfailed htest]
      cases wait with
      | true => exact h.waitStart hl hm .main _
      | false => exact h
  after _ _ h _ _ := h.anyObject _
  op {live made s s' p} h _ _ hs := by
    cases hs
    split
    · exact h
    · cases p with
      | deinit => exact (h.notifyAll (.obj ()) .deleted (Or.inr rfl)).anyObject _
      | set flags value => exact h.setFlags flags value

theorem fxEvent_orderly (checks : Bool) : (fxEvent checks : WaitObject T E _ _ _ _ _).Tidy where
  mono _ _ := trivial
  test {live made s t} c wait _ h hl hm := by
    show Tended _ live made (threadEventTest (.user c.event) t wait s).2
    rw [threadEventTest_snd]
    split
    · exact h.waitStart hl hm .main _
    · exact h
  after _ _ h _ _ := h
  op {live made s s' p} := nomatch p

end Merker

/-! ## 2. Every run -/

section Lauf

variable {T E Q A O C P : Type} [DecidableEq T] [DecidableEq E] [DecidableEq Q]

/-- **Join and completion**, in every run of threads that wait for an object: a join that returns
    OK finds the thread completed, not the current one, and nothing of it linked; and after the
    dispatcher ran, the completion is set of every thread that has completed, except the current
    one. -/
def JoinsCompleted (cfg : Config T) (W : WaitObject T E Q A O C P)
    (spares : (T → Prop) → P → Kern T E Q A × O → Prop) (o : O) : Prop :=
  ∀ s, Reach (joinStep cfg W) (JoinKeeps cfg spares) (joinBoot cfg o) s →
    (∀ t u s', s.sys.pc t = .inCall (.ret .ok) (.join u) →
      joinStep cfg W (.kernel (.go t)) s = some s' →
      s'.sys.kern.state u = .completed ∧ s'.current ≠ u ∧ s'.sys.Unlinked u) ∧
    ∀ s', joinStep cfg W (.kernel .dispatch) s = some s' → ∀ u, s'.sys.pc u ≠ .absent →
      s'.sys.kern.state u = .completed → u ≠ s'.current →
      s'.sys.kern.ev (.completion u) = true

variable {cfg : Config T} {W : WaitObject T E Q A O C P} {J : (T → Prop) → O → Prop}
  {spares : (T → Prop) → P → Kern T E Q A × O → Prop}

theorem WaitObject.Orderly.joinsCompleted (hO : W.Orderly J spares) (hW : W.Lawful)
    (hN : cfg.prioNum ≤ 1024) {o : O} (ho : J (fun _ => False) o) :
    JoinsCompleted cfg W spares o := by
  intro s hr
  have hok := reach_joinOk hW hO hN ho hr
  exact ⟨fun _ _ _ hpc hs => hok.joined hW hO hN hpc hs,
    fun _ hs _ hu hstate hne => hok.dispatched hW hO hN hs hu hstate hne⟩

/-- **Join and completion, whatever the threads wait for**: semaphores, message queues, barriers,
    block pools, reader-writer locks, event flags, events, or mutexes and condition variables
    besides anything else. A mutex is not deinitialised while its owner is a completed thread
    whose item is unlinked. -/
theorem joins_completed (hN : cfg.prioNum ≤ 1024) (D M V X : Type) [DecidableEq M] [DecidableEq V]
    [DecidableEq X] :
    (∀ o, JoinsCompleted cfg (fxSem cfg.checks : WaitObject T E _ _ _ _ _)
      (fun _ _ _ => True) o) ∧
    (∀ o : FxMsgq T D, JoinsCompleted cfg (fxMsgq cfg.checks : WaitObject T E _ _ _ _ _)
      (fun _ _ _ => True) o) ∧
    (∀ o, JoinsCompleted cfg (fxBarrier cfg.checks : WaitObject T E _ _ _ _ _)
      (fun _ _ _ => True) o) ∧
    (∀ o, JoinsCompleted cfg (fxBlockPool cfg.checks : WaitObject T E _ _ _ _ _)
      (fun _ _ _ => True) o) ∧
    (∀ o, JoinsCompleted cfg (fxRwlock cfg.checks : WaitObject T E _ _ _ _ _)
      (fun _ _ _ => True) o) ∧
    (∀ o, JoinsCompleted cfg (fxEvFlags cfg.checks : WaitObject T E _ _ _ _ _)
      (fun _ _ _ => True) o) ∧
    (∀ o, JoinsCompleted cfg (fxEvent cfg.checks : WaitObject T E _ _ _ _ _)
      (fun _ _ _ => True) o) ∧
    ∀ (ceiling : M → Option Nat) (policies : M → SyncPolicy) (condPolicies : V → SyncPolicy),
      (∀ m, CeilingOk (cfg.prioNum - 1) (ceiling m)) →
      JoinsCompleted cfg (fxMutex cfg.checks : WaitObject T E (SyncQ M V X) _ _ _ _)
        (MutexSpares cfg.checks)
        (mutexBoot (cfg.prioNum - 1) ceiling policies condPolicies) :=
  ⟨fun _ => (fxSem_plain cfg.checks).orderly.joinsCompleted (fxSem_lawful _) hN trivial,
    fun _ => (fxMsgq_plain cfg.checks).orderly.joinsCompleted (fxMsgq_lawful _) hN trivial,
    fun _ => (fxBarrier_plain cfg.checks).orderly.joinsCompleted (fxBarrier_lawful _) hN trivial,
    fun _ => (fxBlockPool_plain cfg.checks).orderly.joinsCompleted (fxBlockPool_lawful _) hN
      trivial,
    fun _ => (fxRwlock_orderly cfg.checks).joinsCompleted (fxRwlock_lawful _) hN trivial,
    fun _ => (fxEvFlags_orderly cfg.checks).joinsCompleted (fxEvFlags_lawful _) hN trivial,
    fun _ => (fxEvent_orderly cfg.checks).joinsCompleted (fxEvent_lawful _) hN trivial,
    fun _ _ _ hc => (fxMutex_orderly cfg.checks).joinsCompleted (fxMutex_lawful _) hN
      (mutexBoot_sound (by omega) hc _)⟩

end Lauf

/-- The system of `joinCfg`, with a mutex whose ceiling is 3. -/
abbrev JoinMutexSys : Type := JoinSys (Fin 3) Unit (SyncQ Unit Unit Unit) Unit
  (MutexWorld (Fin 3) Unit Unit Unit) (MutexCall Unit Unit Unit Unit)

abbrev JoinMutexAct : Type :=
  JoinAct (Fin 3) Unit (MutexCall Unit Unit Unit Unit) (MutexOp (Fin 3) Unit Unit Unit)

def mutexJoinStep : JoinMutexAct → JoinMutexSys → Option JoinMutexSys :=
  joinStep joinCfg (fxMutex joinCfg.checks)

def mutexJoinKeeps : JoinMutexSys → JoinMutexAct → Prop :=
  JoinKeeps joinCfg (MutexSpares joinCfg.checks)

def mutexJoinBoot : JoinMutexSys :=
  joinBoot joinCfg (mutexBoot (joinCfg.prioNum - 1) (fun _ => some 3) (fun _ => .fifo)
    fun _ => .fifo)

/-- Steps that `mutexJoinKeeps` allows: no mutex is deinitialised. -/
def mutexJoinSafe (s : JoinMutexSys) : JoinMutexAct → Bool
  | .kernel (.terminate t) => s.sys.kern.state t ≠ .completed
  | .kernel (.setPrio _ _) | .kernel (.op (.deinit _)) => false
  | _ => true

theorem mutexJoinKeeps_of_safe (s : JoinMutexSys) (a : JoinMutexAct)
    (h : mutexJoinSafe s a = true) : mutexJoinKeeps s a := by
  cases a with
  | kernel a =>
    cases a with
    | terminate t =>
      have hne : s.sys.kern.state t ≠ .completed := of_decide_eq_true h
      exact hne
    | setPrio t p => cases h
    | op p =>
      rintro m rfl
      cases h
    | _ => trivial
  | _ => trivial

/-- The owner of the mutex joins a thread that is terminated while it waits for the mutex, its
    timer armed; or one that ends by itself, whose completion the dispatcher sets. -/
theorem joins_completed_mutex :
    (∃ s s', Reach mutexJoinStep mutexJoinKeeps mutexJoinBoot s ∧
      mutexJoinStep (.kernel (.go 0)) s = some s' ∧
      s'.sys.kern.state 1 = .completed ∧ s'.current ≠ 1 ∧ s'.sys.Unlinked 1) ∧
    ∃ s s', Reach mutexJoinStep mutexJoinKeeps mutexJoinBoot s ∧
      mutexJoinStep (.kernel .dispatch) s = some s' ∧
      s.sys.kern.ev (.completion 1) = false ∧ s'.sys.kern.ev (.completion 1) = true := by
  have hceiling : ∀ m : Unit, CeilingOk (joinCfg.prioNum - 1) (some 3) := fun _ p hp => by
    cases hp
    decide
  have hN : joinCfg.prioNum ≤ 1024 := by decide
  obtain ⟨_, _, _, _, _, _, _, hmutex⟩ := joins_completed (E := Unit) hN Unit Unit Unit Unit
  have hall := hmutex (fun _ => some 3) (fun _ => .fifo) (fun _ => .fifo) hceiling
  constructor
  · have h : (runIf mutexJoinSafe mutexJoinStep
        [.kernel (.init 0 5 false), .kernel (.init 1 10 false), .kernel .dispatch,
          .kernel (.call 0 (.obj (.acquire () (.event none)))), .kernel (.go 0), .kernel (.go 0),
          .kernel (.call 0 (.join 1)), .kernel (.go 0), .kernel .dispatch,
          .kernel (.call 1 (.obj (.acquire () (.timeout 7)))), .kernel (.go 1), .kernel (.go 1),
          .kernel (.go 1), .kernel .dispatch, .kernel (.terminate 1), .kernel .dispatch,
          .kernel (.go 0)] mutexJoinBoot).any
        (fun s => (s.sys.pc 0).joined 1 && (mutexJoinStep (.kernel (.go 0)) s).isSome) = true := by
      decide +kernel
    obtain ⟨s, hr, hp⟩ := exists_of_runIf mutexJoinKeeps_of_safe h
    obtain ⟨hpc, hret⟩ := Bool.and_eq_true_iff.mp hp
    obtain ⟨s', hs'⟩ := Option.isSome_iff_exists.mp hret
    obtain ⟨hstate, hcur, hfree⟩ := (hall s hr).1 0 1 s' (Pc.joined_eq hpc) hs'
    exact ⟨s, s', hr, hs', hstate, hcur, hfree⟩
  · have h : (runIf mutexJoinSafe mutexJoinStep
        [.kernel (.init 0 5 false), .kernel (.init 1 10 false), .kernel .dispatch,
          .kernel (.call 0 (.obj (.acquire () (.event none)))), .kernel (.go 0), .kernel (.go 0),
          .kernel (.call 0 (.join 1)), .kernel (.go 0), .kernel .dispatch, .kernel (.exit 1)]
        mutexJoinBoot).any
        (fun s => s.sys.kern.ev (.completion 1) = false ∧
          (mutexJoinStep (.kernel .dispatch) s).any fun s' =>
            s'.sys.Created 1 ∧ s'.sys.kern.state 1 = .completed ∧ 1 ≠ s'.current) = true := by
      decide +kernel
    obtain ⟨s, hr, hp⟩ := exists_of_runIf mutexJoinKeeps_of_safe h
    obtain ⟨hclear, hdone⟩ := of_decide_eq_true hp
    obtain ⟨s', hs', hdone⟩ := (Option.any_eq_true ..).mp hdone
    obtain ⟨hcreated, hstate, hne⟩ := of_decide_eq_true hdone
    exact ⟨s, s', hr, hs', hclear, (hall s hr).2 s' hs' 1 hcreated.ne hstate hne⟩

end FxRtos
