/-
  File:      FxRtos/Objects/Sem.lean
  Subject:   SEMAPHORES (fx_sem.c). A thread waits only while the counter is zero.
-/
import FxRtos.Kernel.Runs

namespace FxRtos

open Function (update)
open Lib

set_option linter.unusedSectionVars false

structure FxSem where
  semaphore : Nat
  maxCount : Nat
  policy : SyncPolicy
  valid : Bool

variable {T E : Type} [DecidableEq T] [DecidableEq E]

/-- The kernel as an object with one waitable and no attributes sees it. -/
abbrev SemKern (T E : Type) := Kern T E Unit Unit

def fxSemInit (init maxVal : Nat) (policy : SyncPolicy) : FxSem := ⟨init, maxVal, policy, true⟩

def fxSemTestAndWait (me : T) (wait : Bool) (s : SemKern T E × FxSem) :
    Bool × SemKern T E × FxSem :=
  if 0 < s.2.semaphore then (true, s.1, { s.2 with semaphore := s.2.semaphore - 1 })
  else (false, if wait then fxSyncWaitStart s.1 (.obj ()) (me, .main) else s.1, s.2)

def fxSemDeinit (s : SemKern T E × FxSem) : SemKern T E × FxSem :=
  (if s.2.semaphore = 0 then fxSyncWaitNotifyAll s.1 (.obj ()) .deleted else s.1,
    { s.2 with valid := false })

def fxSemReset (s : SemKern T E × FxSem) : SemKern T E × FxSem :=
  (s.1, { s.2 with semaphore := 0 })

def fxSemPostWithPolicy (p : SyncPolicy) (s : SemKern T E × FxSem) : SemKern T E × FxSem :=
  match fxSyncWaitBlockGet s.1 (.obj ()) p with
  | some wb => (fxSyncWaitNotify s.1 .satisfied wb, s.2)
  | none =>
    (s.1, if s.2.semaphore < s.2.maxCount then
      { s.2 with semaphore := s.2.semaphore + 1 } else s.2)

def fxSemPost (s : SemKern T E × FxSem) : SemKern T E × FxSem :=
  fxSemPostWithPolicy s.2.policy s

inductive SemOp where
  | deinit
  | reset
  | postWithPolicy (p : SyncPolicy)
  | post

def SemOp.run : SemOp → SemKern T E × FxSem → SemKern T E × FxSem
  | .deinit => fxSemDeinit
  | .reset => fxSemReset
  | .postWithPolicy p => fxSemPostWithPolicy p
  | .post => fxSemPost

/-- `fx_sem_wait` and `fx_sem_timedwait`, and the operations. With parameter checks a function
    called on a deinitialised semaphore returns at once. -/
def fxSem (checks : Bool) : WaitObject T E Unit Unit FxSem (WaitArgs E) SemOp where
  start _ o _ c := if checks ∧ o.valid = false then none else some c
  waitable _ := .obj ()
  attr _ := none
  args c := c
  testWait me _ := fxSemTestAndWait me
  after _ _ _ s := (none, s)
  caller _ := none
  op p s := some (if checks ∧ s.2.valid = false then s else p.run s)

theorem fxSemPostWithPolicy_moves (p : SyncPolicy) (s : SemKern T E × FxSem) :
    Moves IsObj NoOne s.1 (fxSemPostWithPolicy p s).1 := by
  unfold fxSemPostWithPolicy
  split
  · rename_i wb hwb
    exact Moves.wake hwb trivial (Or.inl rfl)
  · exact .refl

theorem SemOp.run_moves (p : SemOp) (s : SemKern T E × FxSem) :
    Moves IsObj NoOne s.1 (p.run s).1 := by
  cases p with
  | deinit =>
    show Moves IsObj NoOne s.1 (fxSemDeinit s).1
    unfold fxSemDeinit
    dsimp only
    split
    · exact Moves.notifyAll (w := .obj ()) trivial (Or.inr rfl) _
    · exact .refl
  | reset => exact .refl
  | postWithPolicy p => exact fxSemPostWithPolicy_moves p s
  | post => exact fxSemPostWithPolicy_moves _ s

theorem fxSem_lawful (checks : Bool) : (fxSem checks : WaitObject T E _ _ _ _ _).Lawful where
  testTrue me c wait s s' _ h := by
    change fxSemTestAndWait me wait s = (true, s') at h
    unfold fxSemTestAndWait at h
    split at h <;> cases h
    exact .refl
  testPoll me c s s' _ h := by
    change fxSemTestAndWait me false s = (false, s') at h
    unfold fxSemTestAndWait at h
    split at h <;> cases h
    exact .refl
  testWait me c s s' _ h := by
    change fxSemTestAndWait me true s = (false, s') at h
    unfold fxSemTestAndWait at h
    split at h <;> cases h
    exact ⟨nofun, .refl⟩
  after _ _ _ _ := .refl
  op p s s' _ _ h := by
    cases h
    split
    · exact .refl
    · exact p.run_moves s

/-- A waiter means a counter of zero. -/
def SemWaits (s : SemKern T E × FxSem) : Prop := s.1.wq (.obj ()) ≠ [] → s.2.semaphore = 0

theorem fxSemPostWithPolicy_waits {p : SyncPolicy} {s : SemKern T E × FxSem} (h : SemWaits s) :
    SemWaits (fxSemPostWithPolicy p s) := by
  unfold fxSemPostWithPolicy
  split
  · rename_i wb hwb
    exact fun _ => h (List.ne_nil_of_mem (fxSyncWaitBlockGet_mem hwb))
  · rename_i hq
    exact fun hne => absurd (fxSyncWaitBlockGet_none.mp hq) hne

theorem SemOp.run_waits {s : SemKern T E × FxSem} (p : SemOp) (h : SemWaits s) :
    SemWaits (p.run s) := by
  cases p with
  | deinit =>
    intro hne
    refine h fun hq => hne ?_
    show (fxSemDeinit s).1.wq (.obj ()) = []
    unfold fxSemDeinit
    dsimp only
    split
    · exact notifyAll_nil ..
    · exact hq
  | reset => exact fun _ => rfl
  | postWithPolicy p => exact fxSemPostWithPolicy_waits h
  | post => exact fxSemPostWithPolicy_waits h

theorem fxSem_inv (checks : Bool) :
    ObjInv (fxSem checks : WaitObject T E _ _ _ _ _) SemWaits where
  frame k k' o hf h hne := h fun e => hne (List.sublist_nil.mp (e ▸ hf.sub ()))
  test me c wait s ph _ _ h := by
    show SemWaits (fxSemTestAndWait me wait s).2
    unfold fxSemTestAndWait
    split
    · rename_i hpos
      exact fun hne => absurd (h hne) (Nat.ne_of_gt hpos)
    · rename_i hz
      exact fun _ => Nat.eq_zero_of_not_pos hz
  after _ _ _ _ _ _ _ h := h
  op p s s' ph _ _ h e := by
    cases e
    split
    · exact h
    · exact p.run_waits h

end FxRtos
