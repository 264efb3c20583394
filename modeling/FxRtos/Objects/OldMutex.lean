/-
  File:      FxRtos/Objects/OldMutex.lean
  Subject:   MUTEXES OVER OLD MEMORY (fx_mutex.c). Without a priority ceiling `fx_mutex_init`
             leaves the saved parameters of the owner as the memory held them.

  * `FxMutex.forget` -- a mutex without these parameters. Every function does the same to a mutex
    and to what is left of it (`fxMutex_respects`).
-/
import FxRtos.Kernel.SameRuns
import FxRtos.Objects.Mutex

namespace FxRtos

open Function (update)
open Lib

set_option linter.unusedSectionVars false

variable {T E M V X : Type} [DecidableEq T] [DecidableEq E] [DecidableEq M] [DecidableEq V]
  [DecidableEq X]

/-! ## 1. What is left of a mutex -/

/-- The saved parameters are of no use without a ceiling. -/
def FxMutex.forget (mx : FxMutex T) : FxMutex T :=
  { mx with ownerParams := if mx.ceiling.isSome then mx.ownerParams else 0 }

def MutexWorld.forget (o : MutexWorld T M V X) : MutexWorld T M V X :=
  { o with mutex := fun m => (o.mutex m).forget }

/-- The same kernel, and what is left of the mutexes. -/
def forgetParams (s : MutexState T E M V X) : MutexState T E M V X := (s.1, s.2.forget)

/-- What the functions return: the owner of a mutex, the status of a release and of a signal, and
    the result of the last wait on a condition variable. -/
structure MutexReport (T M V : Type) where
  owner : M → Option T
  release : T → M → SyncPolicy → MutexStatus
  signal : V → SyncPolicy → CondStatus
  status : T → Option ThreadStatus

def mutexReport (checks : Bool) (s : MutexState T E M V X) : MutexReport T M V where
  owner m := fxMutexGetOwner checks (s.2.mutex m)
  release me m policy := (fxMutexReleaseWithPolicy checks me m policy s).1
  signal v policy := (fxCondSignalWithPolicy v policy s.1).1
  status := s.2.hist.status

section Vergessen

variable {checks : Bool} {k : MutexKern T E M V X} {o : MutexWorld T M V X} {t me : T} {m : M}
  {mx : FxMutex T} {s : MutexState T E M V X}

theorem forget_setMutex (o : MutexWorld T M V X) (m : M) (mx : FxMutex T) :
    (o.setMutex m mx).forget = o.forget.setMutex m mx.forget := by
  unfold MutexWorld.setMutex MutexWorld.forget
  congr 1
  funext n
  dsimp only
  by_cases hn : n = m
  · rw [hn, Function.update_self, Function.update_self]
  · rw [Function.update_of_ne hn, Function.update_of_ne hn]

theorem applyCeiling_forget (k : MutexKern T E M V X) (t : T) (mx : FxMutex T) :
    fxMutexApplyCeiling k t mx.forget =
      ((fxMutexApplyCeiling k t mx).1, (fxMutexApplyCeiling k t mx).2.forget) := by
  obtain ⟨owner, locks, policy, ceiling, params, valid⟩ := mx
  cases ceiling with
  | none => rfl
  | some p => rfl

theorem own_forget (t : T) (m : M) (s : MutexState T E M V X) :
    fxMutexOwn t m (forgetParams s) = forgetParams (fxMutexOwn t m s) := by
  have hown : ({ (s.2.forget.mutex m) with owner := some t } : FxMutex T) =
      ({ s.2.mutex m with owner := some t } : FxMutex T).forget := rfl
  unfold fxMutexOwn forgetParams
  dsimp only
  rw [hown, applyCeiling_forget, ← forget_setMutex]
  rfl

theorem mutexTest_forget (m : M) (me : T) (wait : Bool) (s : MutexState T E M V X) :
    fxMutexTestAndWait m me wait (forgetParams s) =
      ((fxMutexTestAndWait m me wait s).1, forgetParams (fxMutexTestAndWait m me wait s).2) := by
  have howner : ((forgetParams s).2.mutex m).owner = (s.2.mutex m).owner := rfl
  unfold fxMutexTestAndWait
  dsimp only
  rw [howner]
  by_cases h1 : (s.2.mutex m).owner = none
  · rw [if_pos h1, if_pos h1, own_forget]
  · rw [if_neg h1, if_neg h1]
    by_cases h2 : (s.2.mutex m).owner = some me
    · rw [if_pos h2, if_pos h2]
      unfold forgetParams
      dsimp only
      rw [forget_setMutex]
      rfl
    · rw [if_neg h2, if_neg h2]
      rfl

theorem handOver_forget (me : T) (m : M) (policy : SyncPolicy) (s : MutexState T E M V X) :
    fxMutexHandOver me m policy (forgetParams s) =
      forgetParams (fxMutexHandOver me m policy s) := by
  unfold fxMutexHandOver
  dsimp only [forgetParams]
  cases fxSyncWaitBlockGet s.1 (.obj (.mutex m)) policy with
  | none =>
    dsimp only
    rw [forget_setMutex]
    rfl
  | some wb =>
    have h := own_forget wb.1 m
      (s.1, { s.2 with hist := (s.2.hist.release me m).disown me m })
    have h1 := congrArg Prod.fst h
    have h2 := congrArg Prod.snd h
    exact Prod.ext (congrArg (fxSyncWaitNotify · .satisfied wb) h1) h2

theorem restore_forget (me : T) (mx : FxMutex T) (k : MutexKern T E M V X) :
    fxMutexRestore me mx.forget k = fxMutexRestore me mx k := by
  obtain ⟨owner, locks, policy, ceiling, params, valid⟩ := mx
  cases ceiling with
  | none =>
    unfold fxMutexRestore FxMutex.forget
    simp
  | some p => rfl

theorem releaseLocked_forget (me : T) (m : M) (policy : SyncPolicy) (s : MutexState T E M V X) :
    fxMutexReleaseLocked me m policy (forgetParams s) =
      forgetParams (fxMutexReleaseLocked me m policy s) := by
  have hlocks : ((forgetParams s).2.mutex m).recursiveLocks = (s.2.mutex m).recursiveLocks := rfl
  have hmx : (forgetParams s).2.mutex m = (s.2.mutex m).forget := rfl
  unfold fxMutexReleaseLocked
  dsimp only
  rw [hlocks]
  by_cases h : (s.2.mutex m).recursiveLocks = 0
  · rw [if_pos h, if_pos h, handOver_forget, hmx, restore_forget]
    rfl
  · rw [if_neg h, if_neg h]
    refine Prod.ext rfl ?_
    have hset := forget_setMutex s.2 m
      { s.2.mutex m with recursiveLocks := (s.2.mutex m).recursiveLocks - 1 }
    exact congrArg (fun o : MutexWorld T M V X => { o with hist := s.2.hist.release me m })
      hset.symm

theorem release_forget (checks : Bool) (me : T) (m : M) (policy : SyncPolicy)
    (s : MutexState T E M V X) :
    fxMutexReleaseWithPolicy checks me m policy (forgetParams s) =
      ((fxMutexReleaseWithPolicy checks me m policy s).1,
        forgetParams (fxMutexReleaseWithPolicy checks me m policy s).2) := by
  have howner : ((forgetParams s).2.mutex m).owner = (s.2.mutex m).owner := rfl
  have hvalid : ((forgetParams s).2.mutex m).valid = (s.2.mutex m).valid := rfl
  unfold fxMutexReleaseWithPolicy
  dsimp only
  rw [howner, hvalid]
  by_cases h1 : checks = true ∧ (s.2.mutex m).owner ≠ some me
  · rw [if_pos h1, if_pos h1]
  · rw [if_neg h1, if_neg h1]
    by_cases h2 : checks = true ∧ (s.2.mutex m).valid = false
    · rw [if_pos h2, if_pos h2]
    · rw [if_neg h2, if_neg h2, releaseLocked_forget]

theorem condTest_forget (checks : Bool) (v : V) (me : T) (wait : Bool) (s : MutexState T E M V X) :
    fxCondTestAndWait checks v me wait (forgetParams s) =
      ((fxCondTestAndWait checks v me wait s).1,
        forgetParams (fxCondTestAndWait checks v me wait s).2) := by
  unfold fxCondTestAndWait
  dsimp only [forgetParams]
  cases (s.1.wb (me, .main)).u.getAttr with
  | none => rfl
  | some m =>
    have h := release_forget checks me m (s.2.mutex m).policy
      (if wait then fxSyncWaitStart s.1 (.obj (.cond v)) (me, .main) else s.1, s.2)
    have h2 := congrArg Prod.snd h
    exact Prod.ext rfl h2

theorem deinit_forget (m : M) (s : MutexState T E M V X) :
    fxMutexDeinit m (forgetParams s) = forgetParams (fxMutexDeinit m s) := by
  have hset := forget_setMutex s.2 m { s.2.mutex m with valid := false }
  refine Prod.ext ?_ hset.symm
  have howner : (s.2.forget.mutex m).owner = (s.2.mutex m).owner := rfl
  have hceiling : (s.2.forget.mutex m).ceiling = (s.2.mutex m).ceiling := rfl
  unfold fxMutexDeinit
  dsimp only [forgetParams]
  rw [howner, hceiling]
  cases (s.2.mutex m).owner with
  | none => rfl
  | some owner =>
    dsimp only
    by_cases hc : (s.2.mutex m).ceiling.isSome = true
    · have hp : (s.2.forget.mutex m).ownerParams = (s.2.mutex m).ownerParams := if_pos hc
      rw [if_pos hc, if_pos hc, hp]
    · rw [if_neg hc, if_neg hc]

theorem end_forget (checks : Bool) (me : T) (res : ThreadStatus) (c : MutexCall M V X E)
    (s : MutexState T E M V X) :
    fxMutexEnd checks me res (forgetParams s) c =
      ((fxMutexEnd checks me res s c).1, forgetParams (fxMutexEnd checks me res s c).2) := by
  cases c with
  | acquire m args =>
    unfold fxMutexEnd
    dsimp only
    by_cases h : res = .ok
    · rw [if_pos h, if_pos h]
      rfl
    · rw [if_neg h, if_neg h]
  | condWait v m args depth accepted =>
    have hvalid : ((forgetParams s).2.mutex m).valid = (s.2.mutex m).valid := rfl
    unfold fxMutexEnd
    dsimp only
    rw [hvalid]
    by_cases h : checks = true ∧ (s.2.mutex m).valid = false
    · rw [if_pos h, if_pos h]
      rfl
    · rw [if_neg h, if_neg h]
  | reacquire m condRes depth accepted =>
    unfold fxMutexEnd
    dsimp only
    by_cases h : res = .ok
    · rw [if_pos h, if_pos h]
      rfl
    · rw [if_neg h, if_neg h]
      rfl
  | other x args => rfl

theorem run_forget (p : MutexOp T M V X) (s : MutexState T E M V X) :
    p.run checks (forgetParams s) = (p.run checks s).map forgetParams := by
  have howner : ∀ m, ((forgetParams s).2.mutex m).owner = (s.2.mutex m).owner := fun _ => rfl
  have hvalid : ∀ m, ((forgetParams s).2.mutex m).valid = (s.2.mutex m).valid := fun _ => rfl
  have hcond : (forgetParams s).2.cond = s.2.cond := rfl
  have hrel : ∀ me m policy, (if checks = true ∨ ((forgetParams s).2.mutex m).owner = some me then
      some (fxMutexReleaseWithPolicy checks me m policy (forgetParams s)).2 else none) =
      (if checks = true ∨ (s.2.mutex m).owner = some me then
        some (fxMutexReleaseWithPolicy checks me m policy s).2 else none).map forgetParams := by
    intro me m policy
    rw [howner, release_forget]
    by_cases h : checks = true ∨ (s.2.mutex m).owner = some me
    · rw [if_pos h, if_pos h]
      rfl
    · rw [if_neg h, if_neg h]
      rfl
  have hsig : ∀ v policy, condSignal checks v policy (forgetParams s) =
      forgetParams (condSignal checks v policy s) := by
    intro v policy
    unfold condSignal
    rw [hcond]
    by_cases h : checks = true ∧ (s.2.cond v).valid = false
    · rw [if_pos h, if_pos h]
    · rw [if_neg h, if_neg h]
      rfl
  cases p with
  | releaseWithPolicy me m policy => exact hrel me m policy
  | release me m => exact hrel me m (s.2.mutex m).policy
  | deinit m =>
    unfold MutexOp.run
    dsimp only
    rw [hvalid]
    by_cases h : checks = true ∧ (s.2.mutex m).valid = false
    · rw [if_pos h, if_pos h]
      rfl
    · rw [if_neg h, if_neg h, deinit_forget]
      rfl
  | signalWithPolicy v policy => exact congrArg some (hsig v policy)
  | signal v => exact congrArg some (hsig v (s.2.cond v).policy)
  | broadcast v =>
    unfold MutexOp.run
    dsimp only
    rw [hcond]
    by_cases h : checks = true ∧ (s.2.cond v).valid = false
    · rw [if_pos h, if_pos h]
      rfl
    · rw [if_neg h, if_neg h]
      rfl
  | condDeinit v =>
    unfold MutexOp.run
    dsimp only
    rw [hcond]
    by_cases h : checks = true ∧ (s.2.cond v).valid = false
    · rw [if_pos h, if_pos h]
      rfl
    · rw [if_neg h, if_neg h]
      rfl
  | otherSet x value => rfl
  | otherNotify x wb reason =>
    have hkern : (forgetParams s).1 = s.1 := rfl
    unfold MutexOp.run
    dsimp only
    rw [hkern]
    by_cases h : wb ∈ s.1.wq (.obj (.other x)) ∧ (reason = .satisfied ∨ reason = .deleted)
    · rw [if_pos h, if_pos h]
      rfl
    · rw [if_neg h, if_neg h]
      rfl

end Vergessen

/-! ## 2. No run depends on it -/

theorem samePair_forget {s s' : MutexState T E M V X}
    (h : SamePair (fun o o' => o' = o.forget) s s') : s' = forgetParams s := Prod.ext h.1 h.2

/-- A result and the state after it. -/
theorem forget_pair {B : Type} {r r' : B × MutexState T E M V X}
    (h : r' = (r.1, forgetParams r.2)) :
    r'.1 = r.1 ∧ SamePair (fun o o' => o' = o.forget) r.2 r'.2 := by
  rw [h]
  exact ⟨rfl, rfl, rfl⟩

theorem fxMutex_respects (checks : Bool) :
    Respects (fxMutex checks : WaitObject T E (SyncQ M V X) M _ _ _) (mutexReport checks)
      (fun o o' => o' = o.forget) where
  start k o o' t c h := by
    rw [h]
    cases c with
    | acquire m args => rfl
    | condWait v m args depth accepted => rfl
    | reacquire m res depth accepted => rfl
    | other x args => rfl
  testWait t c wait s s' h := by
    rw [samePair_forget h]
    cases c with
    | acquire m args => exact forget_pair (mutexTest_forget m t wait s)
    | condWait v m args depth accepted => exact forget_pair (condTest_forget checks v t wait s)
    | reacquire m res depth accepted => exact forget_pair (mutexTest_forget m t wait s)
    | other x args =>
      show (otherTestAndWait x t wait (forgetParams s)).1 = (otherTestAndWait x t wait s).1 ∧
        SamePair _ (otherTestAndWait x t wait s).2 (otherTestAndWait x t wait (forgetParams s)).2
      have hother : (forgetParams s).2.other x = s.2.other x := rfl
      unfold otherTestAndWait
      rw [hother]
      by_cases hx : s.2.other x = true
      · rw [if_pos hx, if_pos hx]
        exact ⟨rfl, rfl, rfl⟩
      · rw [if_neg hx, if_neg hx]
        exact ⟨rfl, rfl, rfl⟩
  after t c r s s' h := by
    rw [samePair_forget h]
    exact forget_pair (end_forget checks t r c s)
  op p s s' h := by
    rw [samePair_forget h]
    show Option.Rel _ (p.run checks s) (p.run checks (forgetParams s))
    rw [run_forget]
    cases p.run checks s with
    | none => exact .none
    | some s1 => exact .some ⟨rfl, rfl⟩
  report s s' h := by
    rw [samePair_forget h]
    unfold mutexReport
    congr 1
    funext me m policy
    rw [release_forget]

end FxRtos
