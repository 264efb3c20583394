/-
  File:      FxRtos/Objects/Ceiling.lean
  Subject:   PRIORITY CEILING (fx_mutex.c): what priority the owner of mutexes runs with.

  A mutex with ceiling saves the priority of its new owner, and brings it back at the last
  release. What is saved is the priority at the time of the acquire, so this is an override in
  the sense of `Lib.level`, with the mutexes a thread owns as the stack.

  * `Ceiled` -- each thread runs with the level of the mutexes it owns, and each of these has
    saved the level below it.
  * `Ceiled.acquire`, `Ceiled.giveUp` -- the two moves; a mutex that is handed over makes both.
  * `Nested` -- a mutex is given up if it is the last one acquired, or its release brings back
    the priority the thread has.
  * `ceiling_prio` -- in such runs a thread runs with the smallest of its base priority and the
    ceilings of the mutexes it owns.
-/
import FxRtos.Kernel.InUse
import FxRtos.Lib.Level
import FxRtos.Objects.Cond

namespace FxRtos

open Function (update)
open Lib

set_option linter.unusedSectionVars false

variable {T E M V X : Type} [DecidableEq T] [DecidableEq E] [DecidableEq M] [DecidableEq V]
  [DecidableEq X]

/-! ## 1. The priorities -/

/-- The ceiling of a mutex that has one. -/
def ceilingOf (mutex : M → FxMutex T) (m : M) : Nat := (mutex m).ceiling.getD 0

/-- A thread runs with the level of the mutexes on its stack, which are those with ceiling that
    it owns. A thread that is not `live` is not created yet. -/
structure CeiledAt (mutex : M → FxMutex T) (t : T) (stack : List M) (prio base : Nat)
    (live : Prop) : Prop where
  prio : live → prio = level (ceilingOf mutex) base stack
  saved : Saved (ceilingOf mutex) (fun m => (mutex m).ownerParams) base stack
  mem : ∀ m, m ∈ stack ↔ (mutex m).owner = some t ∧ (mutex m).ceiling.isSome
  nodup : stack.Nodup
  live : ¬ live → stack = []

section Stufen

variable {mutex mutex' : M → FxMutex T} {stack : List M} {prio base : Nat} {live : Prop} {t : T}
  {m : M} {mx : FxMutex T}

theorem ceilingOf_update (hc : mx.ceiling = (mutex m).ceiling) :
    ceilingOf (update mutex m mx) = ceilingOf mutex := by
  funext m'
  unfold ceilingOf
  by_cases hm : m' = m
  · rw [hm, Function.update_self, hc]
  · rw [Function.update_of_ne hm]

/-- The mutex is on the stack of the thread, or would be. -/
def OnStack (mx : FxMutex T) (t : T) : Prop := mx.owner = some t ∧ mx.ceiling.isSome

/-- Nothing changes for the thread. If it was just created, it has no mutex. -/
theorem CeiledAt.same {prio' base' : Nat} {live' : Prop}
    (h : CeiledAt mutex t stack prio base live)
    (hm : ∀ m, (mutex' m).owner = (mutex m).owner ∧ (mutex' m).ceiling = (mutex m).ceiling ∧
      (mutex' m).ownerParams = (mutex m).ownerParams)
    (hl : live → live' ∧ prio' = prio ∧ base' = base) (hn : ¬ live → live' → prio' = base') :
    CeiledAt mutex' t stack prio' base' live' := by
  have hc : ceilingOf mutex' = ceilingOf mutex := funext fun m => congrArg (·.getD 0) (hm m).2.1
  refine ⟨fun hlive => ?_, ?_, fun m => ?_, h.nodup, fun hlive => h.live fun he => hlive (hl he).1⟩
  · by_cases hold : live
    · obtain ⟨_, hp, hb⟩ := hl hold
      rw [hc, hp, hb]
      exact h.prio hold
    · rw [hn hold hlive, h.live hold]
      rfl
  · by_cases hold : live
    · rw [hc, (hl hold).2.2]
      exact h.saved.congr fun m _ => (hm m).2.2
    · rw [h.live hold]
      trivial
  · rw [(hm m).1, (hm m).2.1]
    exact h.mem m

/-- A mutex changes that is not the thread's. -/
theorem CeiledAt.other (h : CeiledAt mutex t stack prio base live)
    (ho : ¬ OnStack (mutex m) t) (hmx : ¬ OnStack mx t) (hc : mx.ceiling = (mutex m).ceiling) :
    CeiledAt (update mutex m mx) t stack prio base live := by
  have hnot : m ∉ stack := fun hm => ho ((h.mem m).mp hm)
  have hne : ∀ m' ∈ stack, m' ≠ m := fun m' hm' e => hnot (by rwa [e] at hm')
  refine ⟨?_, ?_, fun m' => ?_, h.nodup, h.live⟩
  · rw [ceilingOf_update hc]
    exact h.prio
  · rw [ceilingOf_update hc]
    refine h.saved.congr fun m' hm' => ?_
    rw [Function.update_of_ne (hne m' hm')]
  · by_cases hm : m' = m
    · subst hm
      rw [Function.update_self]
      exact iff_of_false hnot hmx
    · rw [Function.update_of_ne hm]
      exact h.mem m'

/-- **A thread becomes the owner** of a mutex with ceiling: it saves its priority, and is raised
    to the ceiling. -/
theorem CeiledAt.push (h : CeiledAt mutex t stack prio base live) (hl : live)
    (ho : (mutex m).owner ≠ some t) (hmx : mx.owner = some t)
    (hc : mx.ceiling = (mutex m).ceiling) (hs : (mutex m).ceiling.isSome)
    (hp : mx.ownerParams = prio) :
    CeiledAt (update mutex m mx) t (m :: stack) (min prio (ceilingOf mutex m)) base live := by
  have hnot : m ∉ stack := fun hm => ho ((h.mem m).mp hm).1
  have hne : ∀ m' ∈ stack, m' ≠ m := fun m' hm' e => hnot (by rwa [e] at hm')
  refine ⟨fun _ => ?_, ⟨?_, ?_⟩, fun m' => ?_, List.nodup_cons.mpr ⟨hnot, h.nodup⟩,
    fun hn => absurd hl hn⟩
  · rw [ceilingOf_update hc, h.prio hl]
    rfl
  · show (update mutex m mx m).ownerParams = _
    rw [ceilingOf_update hc, Function.update_self, hp]
    exact h.prio hl
  · rw [ceilingOf_update hc]
    refine h.saved.congr fun m' hm' => ?_
    rw [Function.update_of_ne (hne m' hm')]
  · by_cases hm : m' = m
    · subst hm
      rw [Function.update_self]
      exact iff_of_true List.mem_cons_self ⟨hmx, hc ▸ hs⟩
    · rw [Function.update_of_ne hm, List.mem_cons, or_iff_right hm]
      exact h.mem m'

/-- **A thread gives up a mutex** with ceiling, and gets back what was saved. This is right
    exactly if the mutex was the last one acquired, or the priority stays as it is. -/
theorem CeiledAt.pop_iff (h : CeiledAt mutex t stack prio base live) (hl : live)
    (ho : (mutex m).owner = some t) (hmx : mx.owner ≠ some t)
    (hc : mx.ceiling = (mutex m).ceiling) (hs : (mutex m).ceiling.isSome) :
    CeiledAt (update mutex m mx) t (stack.erase m) (mutex m).ownerParams base live ↔
      stack.head? = some m ∨ (mutex m).ownerParams = prio := by
  have hm : m ∈ stack := (h.mem m).mpr ⟨ho, hs⟩
  have hnot : m ∉ stack.erase m := fun hm' => (h.nodup.mem_erase_iff.mp hm').1 rfl
  have hsaved : ∀ m' ∈ stack.erase m,
      (update mutex m mx m').ownerParams = (mutex m').ownerParams := fun m' hm' => by
    rw [Function.update_of_ne fun e => hnot (by rwa [e] at hm')]
  rw [h.prio hl, ← h.saved.erase_iff hm]
  constructor
  · intro h'
    refine ⟨?_, ?_⟩
    · rw [← ceilingOf_update hc]
      exact (h'.prio hl).symm
    · rw [← ceilingOf_update hc]
      exact h'.saved.congr fun m' hm' => (hsaved m' hm').symm
  · rintro ⟨hlevel, hsv⟩
    refine ⟨fun _ => ?_, ?_, fun m' => ?_, h.nodup.erase m, fun hn => absurd hl hn⟩
    · rw [ceilingOf_update hc]
      exact hlevel.symm
    · rw [ceilingOf_update hc]
      exact hsv.congr hsaved
    · by_cases hm' : m' = m
      · subst hm'
        rw [Function.update_self]
        exact iff_of_false hnot fun e => hmx e.1
      · rw [Function.update_of_ne hm', List.mem_erase_of_ne hm']
        exact h.mem m'

end Stufen

/-! ## 2. What the code does to the priorities -/

/-- The priorities of all threads, with their base priorities. -/
def Ceiled (base : T → Nat) (live : T → Prop) (s : MutexState T E M V X) : Prop :=
  ∀ t, CeiledAt s.2.mutex t (s.2.hist.stack t) (s.1.prio t) (base t) (live t)

section Code

variable {checks : Bool} {s s' : MutexState T E M V X} {base base' : T → Nat}
  {live live' : T → Prop} {t me : T} {m : M} {mx : FxMutex T} {k : MutexKern T E M V X}
  {policy : SyncPolicy}

/-- The kernel only resumed threads, and the mutexes are the same but for their counters. -/
theorem Ceiled.same (h : Ceiled base live s)
    (hm : ∀ m, (s'.2.mutex m).owner = (s.2.mutex m).owner ∧
      (s'.2.mutex m).ceiling = (s.2.mutex m).ceiling ∧
      (s'.2.mutex m).ownerParams = (s.2.mutex m).ownerParams)
    (hst : s'.2.hist.stack = s.2.hist.stack) (hp : s'.1.prio = s.1.prio) :
    Ceiled base live s' := fun t => by
  rw [hst, hp]
  exact (h t).same hm (fun hl => ⟨hl, rfl, rfl⟩) fun hn hl => absurd hl hn

/-- Only the counter of a mutex changes. -/
theorem Ceiled.counted (h : Ceiled base live s) (m : M) {n : Nat}
    (hm : s'.2.mutex = update s.2.mutex m { s.2.mutex m with recursiveLocks := n })
    (hst : s'.2.hist.stack = s.2.hist.stack) (hp : s'.1.prio = s.1.prio) :
    Ceiled base live s' := by
  refine h.same (fun m' => ?_) hst hp
  rw [hm]
  by_cases hmm : m' = m
  · subst hmm
    rw [Function.update_self]
    exact ⟨rfl, rfl, rfl⟩
  · rw [Function.update_of_ne hmm]
    exact ⟨rfl, rfl, rfl⟩

theorem kernSetPrio_prio (k : MutexKern T E M V X) (t : T) (prio : Nat) :
    (k.setPrio t prio).prio = update k.prio t prio := by
  funext u
  show ((fxSchedItemSetParams k.sched t prio).item u).prio = _
  rw [fxSchedItemSetParams_item]
  by_cases hu : u = t
  · subst hu
    rw [Function.update_self, Function.update_self]
  · rw [Function.update_of_ne hu, Function.update_of_ne hu]
    rfl

theorem notify_prio (k : MutexKern T E M V X) (r : WaitStatus) (b : Blk T) :
    (fxSyncWaitNotify k r b).prio = k.prio := by
  funext u
  show ((fxSyncWaitNotify k r b).sched.item u).prio = _
  rw [fxSyncWaitNotify_sched, fxSchedItemResume_item]
  by_cases hu : u = b.1
  · rw [hu, Function.update_self]
    rfl
  · rw [Function.update_of_ne hu]
    rfl

theorem fxMutexApplyCeiling_prio (k : MutexKern T E M V X) (t : T) (mx : FxMutex T) :
    (fxMutexApplyCeiling k t mx).1.prio = update k.prio t
      (if mx.ceiling.isSome then min (k.prio t) (mx.ceiling.getD 0) else k.prio t) := by
  unfold fxMutexApplyCeiling
  split
  · rename_i c hc
    rw [hc]
    show Kern.prio (ite _ _ _) = update k.prio t (min (k.prio t) c)
    split
    · rename_i hlt
      rw [kernSetPrio_prio, min_eq_right (le_of_lt hlt)]
    · rename_i hlt
      rw [min_eq_left (not_lt.mp hlt), Function.update_eq_self]
  · rename_i hc
    rw [hc]
    exact (Function.update_eq_self ..).symm

theorem fxMutexRestore_prio (me : T) (mx : FxMutex T) (k : MutexKern T E M V X) :
    (fxMutexRestore me mx k).prio =
      update k.prio me (if mx.ceiling.isSome then mx.ownerParams else k.prio me) := by
  unfold fxMutexRestore
  split
  · rename_i h
    rw [kernSetPrio_prio, if_pos h.1]
  · rename_i h
    split
    · rename_i hs
      have he : mx.ownerParams = k.prio me := by
        by_contra hne
        exact h ⟨hs, hne⟩
      rw [he, Function.update_eq_self]
    · rw [Function.update_eq_self]

/-- A mutex just given to a thread. -/
def FxMutex.ownedBy (mx : FxMutex T) (t : T) (prio : Nat) : FxMutex T :=
  { mx with owner := some t, ownerParams := if mx.ceiling.isSome then prio else mx.ownerParams }

theorem fxMutexOwn_mutex (t : T) (m : M) (s : MutexState T E M V X) :
    (fxMutexOwn t m s).2.mutex =
      update s.2.mutex m ((s.2.mutex m).ownedBy t (s.1.prio t)) := by
  show update s.2.mutex m (fxMutexApplyCeiling s.1 t _).2 = _
  rw [fxMutexApplyCeiling_mutex]
  rfl

theorem fxMutexOwn_prio (t : T) (m : M) (s : MutexState T E M V X) :
    (fxMutexOwn t m s).1.prio = update s.1.prio t
      (if (s.2.mutex m).ceiling.isSome then min (s.1.prio t) (ceilingOf s.2.mutex m)
        else s.1.prio t) :=
  fxMutexApplyCeiling_prio s.1 t { s.2.mutex m with owner := some t }

/-- **A free mutex gets an owner.** -/
theorem Ceiled.own (h : Ceiled base live s) (ho : (s.2.mutex m).owner = none) (ht : live t)
    (hm : s'.2.mutex = update s.2.mutex m ((s.2.mutex m).ownedBy t (s.1.prio t)))
    (hst : s'.2.hist.stack = if (s.2.mutex m).ceiling.isSome then
      update s.2.hist.stack t (m :: s.2.hist.stack t) else s.2.hist.stack)
    (hp : s'.1.prio = update s.1.prio t (if (s.2.mutex m).ceiling.isSome then
      min (s.1.prio t) (ceilingOf s.2.mutex m) else s.1.prio t)) : Ceiled base live s' := by
  intro u
  have hno : ∀ u, (s.2.mutex m).owner ≠ some u := fun u => by
    rw [ho]
    exact (Option.some_ne_none u).symm
  have hother : ∀ {u}, u ≠ t ∨ ¬ (s.2.mutex m).ceiling.isSome →
      CeiledAt (update s.2.mutex m ((s.2.mutex m).ownedBy t (s.1.prio t))) u (s.2.hist.stack u)
        (s.1.prio u) (base u) (live u) := by
    intro u hu
    refine (h u).other (fun e => hno u e.1) (fun e => ?_) rfl
    rcases hu with hu | hu
    · exact hu (Option.some.inj e.1).symm
    · exact hu e.2
  rw [hm, hp, hst]
  by_cases hs : (s.2.mutex m).ceiling.isSome
  · rw [if_pos hs, if_pos hs]
    by_cases hut : u = t
    · subst hut
      rw [Function.update_self, Function.update_self]
      exact (h u).push ht (hno u) rfl rfl hs (if_pos hs)
    · rw [Function.update_of_ne hut, Function.update_of_ne hut]
      exact hother (Or.inl hut)
  · rw [if_neg hs, if_neg hs, Function.update_eq_self]
    exact hother (Or.inr hs)

/-- A mutex may be given up with the right priority brought back: it is the last one acquired, or
    the priority stays as it is. -/
def Restores (s : MutexState T E M V X) (me : T) (m : M) : Prop :=
  (s.2.mutex m).ceiling.isSome →
    (s.2.hist.stack me).head? = some m ∨ (s.2.mutex m).ownerParams = s.1.prio me

/-- **A mutex becomes free.** -/
theorem Ceiled.giveUp (h : Ceiled base live s) (ho : (s.2.mutex m).owner = some me)
    (hme : live me) (hr : Restores s me m)
    (hm : s'.2.mutex = update s.2.mutex m { s.2.mutex m with owner := none })
    (hst : s'.2.hist.stack = update s.2.hist.stack me ((s.2.hist.stack me).erase m))
    (hp : s'.1.prio = update s.1.prio me
      (if (s.2.mutex m).ceiling.isSome then (s.2.mutex m).ownerParams else s.1.prio me)) :
    Ceiled base live s' := by
  intro u
  rw [hm, hst, hp]
  by_cases hum : u = me
  · subst hum
    rw [Function.update_self, Function.update_self]
    by_cases hs : (s.2.mutex m).ceiling.isSome
    · rw [if_pos hs]
      exact Iff.mpr ((h u).pop_iff hme ho (Option.some_ne_none u).symm rfl hs) (hr hs)
    · have hnot : m ∉ s.2.hist.stack u := fun e => hs (((h u).mem m).mp e).2
      rw [if_neg hs, List.erase_of_not_mem hnot]
      exact (h u).other (fun e => hs e.2) (fun e => hs e.2) rfl
  · rw [Function.update_of_ne hum, Function.update_of_ne hum]
    refine (h u).other (fun e => ?_) (fun e => Option.some_ne_none u e.1.symm) rfl
    exact hum (Option.some.inj (ho.symm.trans e.1)).symm

/-- **The last release of a mutex**: it becomes free, and then gets the waiter as its owner. -/
theorem Ceiled.releaseLocked (h : Ceiled base live s) (ho : (s.2.mutex m).owner = some me)
    (hme : live me) (hr : (s.2.mutex m).recursiveLocks = 0 → Restores s me m)
    (hq : ∀ b ∈ s.1.wq (.obj (.mutex m)), live b.1 ∧ b.1 ≠ me) :
    Ceiled base live (fxMutexReleaseLocked me m policy s) := by
  unfold fxMutexReleaseLocked
  dsimp only
  split
  · rename_i h0
    let free : MutexState T E M V X := (fxMutexRestore me (s.2.mutex m) s.1,
      { s.2.setMutex m { s.2.mutex m with owner := none } with
        hist := (s.2.hist.release me m).disown me m })
    have hfree : Ceiled base live free :=
      h.giveUp ho hme (hr h0) rfl rfl (fxMutexRestore_prio ..)
    unfold fxMutexHandOver
    dsimp only
    split
    · rename_i wb hget
      obtain ⟨hlive, hne⟩ := hq wb (fxSyncWaitBlockGet_mem hget)
      have hprio : free.1.prio wb.1 = s.1.prio wb.1 := by
        show (fxMutexRestore ..).prio wb.1 = _
        rw [fxMutexRestore_prio, Function.update_of_ne hne]
      have hm : free.2.mutex = update s.2.mutex m { s.2.mutex m with owner := none } := rfl
      have hone : free.2.mutex m = { s.2.mutex m with owner := none } := by
        rw [hm, Function.update_self]
      have hceil : (free.2.mutex m).ceiling = (s.2.mutex m).ceiling := by rw [hone]
      have hof : ceilingOf free.2.mutex = ceilingOf s.2.mutex := ceilingOf_update rfl
      refine hfree.own (by rw [hone]) hlive ?_ ?_ ?_
      · -- the mutex is written once, and not set free first
        rw [hprio, hone, hm, Function.update_idem]
        exact fxMutexOwn_mutex ..
      · rw [hceil]
        rfl
      · have hp : free.1.prio = _ := fxMutexRestore_prio me (s.2.mutex m) s.1
        show (fxMutexRestore me (s.2.mutex m) (fxSyncWaitNotify _ _ wb)).prio = _
        rw [fxMutexRestore_prio, notify_prio, fxMutexOwn_prio, Function.update_of_ne (Ne.symm hne),
          Function.update_comm hne, hprio, hceil, hof, hp]
    · exact hfree.same (fun _ => ⟨rfl, rfl, rfl⟩) rfl rfl
  · exact h.counted m rfl rfl rfl

theorem Ceiled.releaseWithPolicy (h : Ceiled base live s)
    (ho : checks = true ∨ (s.2.mutex m).owner = some me) (hme : live me)
    (hr : (s.2.mutex m).owner = some me → (s.2.mutex m).recursiveLocks = 0 → Restores s me m)
    (hq : ∀ b ∈ s.1.wq (.obj (.mutex m)), live b.1 ∧ b.1 ≠ me) :
    Ceiled base live (fxMutexReleaseWithPolicy checks me m policy s).2 := by
  unfold fxMutexReleaseWithPolicy
  dsimp only
  split
  · exact h
  · rename_i hc
    split
    · exact h
    · have how : (s.2.mutex m).owner = some me := by
        rcases ho with hch | how
        · by_contra hne
          exact hc ⟨hch, hne⟩
        · exact how
      exact h.releaseLocked how hme (hr how) hq

theorem Ceiled.testMutex (h : Ceiled base live s) (hme : live me) (m : M) (wait : Bool) :
    Ceiled base live (fxMutexTestAndWait m me wait s).2 := by
  rcases fxMutexTestAndWait_cases m me wait s with ⟨ho, e⟩ | ⟨_, e⟩ | ⟨_, _, e⟩
  all_goals rw [e]
  · exact h.own ho hme (fxMutexOwn_mutex ..) rfl (fxMutexOwn_prio ..)
  · exact h.counted m rfl rfl rfl
  · refine h.same (fun _ => ⟨rfl, rfl, rfl⟩) rfl ?_
    cases wait <;> rfl

/-- **The test of an object.** -/
theorem Ceiled.test (h : Ceiled base live s) (checks : Bool) (hme : live me)
    (c : MutexCall M V X E) (wait : Bool)
    (hq : ∀ m, ∀ b ∈ s.1.wq (.obj (.mutex m)), live b.1 ∧ b.1 ≠ me)
    (hattr : (s.1.wb (me, .main)).u.getAttr = c.attr)
    (ho : ∀ m ∈ c.attr, (s.2.mutex m).owner = some me)
    (hr : ∀ m ∈ c.attr, (s.2.mutex m).recursiveLocks = 0 → Restores s me m) :
    Ceiled base live (fxMutexTest checks me wait s c).2 := by
  cases c with
  | acquire m args => exact h.testMutex hme m wait
  | reacquire m res depth accepted => exact h.testMutex hme m wait
  | condWait v m args depth accepted =>
    show Ceiled base live (fxCondTestAndWait checks v me wait s).2
    unfold fxCondTestAndWait
    rw [hattr]
    have hstart : Ceiled base live
        (if wait then fxSyncWaitStart s.1 (.obj (.cond v)) (me, .main) else s.1, s.2) := by
      refine h.same (fun _ => ⟨rfl, rfl, rfl⟩) rfl ?_
      cases wait <;> rfl
    refine hstart.releaseWithPolicy (Or.inr (ho m rfl)) hme (fun _ h0 => ?_) fun b hb => ?_
    · have hrm := hr m rfl h0
      cases wait <;> exact hrm
    · refine hq m b ?_
      cases wait with
      | true =>
        rw [← condQueued_wq s.1 v m (me, .main)]
        exact hb
      | false => exact hb
  | other x args =>
    show Ceiled base live (otherTestAndWait x me wait s).2
    unfold otherTestAndWait
    split
    · exact h
    · refine h.same (fun _ => ⟨rfl, rfl, rfl⟩) rfl ?_
      cases wait <;> rfl

/-- **The end of a call.** -/
theorem Ceiled.callEnd (h : Ceiled base live s) (checks : Bool) (me : T) (r : ThreadStatus)
    (c : MutexCall M V X E) : Ceiled base live (fxMutexEnd checks me r s c).2 := by
  refine h.same (fun m => ?_) ?_ ?_
  · rw [fxMutexEnd_mutex]
    exact ⟨rfl, rfl, rfl⟩
  · cases c with
    | condWait v m args depth accepted =>
      simp only [fxMutexEnd]
      split <;> rfl
    | other x args => rfl
    | _ =>
      simp only [fxMutexEnd]
      split <;> rfl
  · rw [fxMutexEnd_kern]

theorem notifyAll_prio (k : MutexKern T E M V X) (w : Wtbl T E (SyncQ M V X)) (r : WaitStatus) :
    (fxSyncWaitNotifyAll k w r).prio = k.prio := funext fun u => notifyLoop_prio _ k u

/-- **An operation.** -/
theorem Ceiled.op (h : Ceiled base live s) {p : MutexOp T M V X} (hrun : p.run checks s = some s')
    (hd : ∀ m, p ≠ .deinit m) (hme : ∀ t ∈ p.caller, live t)
    (hr : ∀ me m policy, p.releases s.2 = some (me, m, policy) → (s.2.mutex m).owner = some me →
      (s.2.mutex m).recursiveLocks = 0 → Restores s me m)
    (hq : ∀ t ∈ p.caller, ∀ m, ∀ b ∈ s.1.wq (.obj (.mutex m)), live b.1 ∧ b.1 ≠ t) :
    Ceiled base live s' := by
  have hkern : ∀ {k : MutexKern T E M V X} {o : MutexWorld T M V X}, k.prio = s.1.prio →
      o.mutex = s.2.mutex → o.hist = s.2.hist → Ceiled base live (k, o) := by
    intro k o hp hm hh
    refine h.same (fun m => ?_) (congrArg History.stack hh) hp
    rw [show (k, o).2.mutex = s.2.mutex from hm]
    exact ⟨rfl, rfl, rfl⟩
  have hsignal : ∀ v policy, Ceiled base live (condSignal checks v policy s) := by
    intro v policy
    unfold condSignal
    split
    · exact h
    · refine hkern ?_ rfl rfl
      unfold fxCondSignalWithPolicy
      split
      · exact notify_prio ..
      · rfl
  cases p with
  | releaseWithPolicy me m policy =>
    obtain ⟨ho, rfl⟩ := taken hrun
    exact h.releaseWithPolicy ho (hme me rfl) (hr me m policy rfl) (hq me rfl m)
  | release me m =>
    obtain ⟨ho, rfl⟩ := taken hrun
    exact h.releaseWithPolicy ho (hme me rfl) (hr me m _ rfl) (hq me rfl m)
  | deinit m => exact absurd rfl (hd m)
  | signalWithPolicy v policy =>
    cases hrun
    exact hsignal v policy
  | signal v =>
    cases hrun
    exact hsignal v _
  | broadcast v =>
    cases hrun
    split
    · exact h
    · exact hkern (notifyAll_prio ..) rfl rfl
  | condDeinit v =>
    cases hrun
    split
    · exact h
    · exact hkern (notifyAll_prio ..) rfl rfl
  | otherSet x value =>
    cases hrun
    exact hkern rfl rfl rfl
  | otherNotify x wb reason =>
    obtain ⟨_, rfl⟩ := taken hrun
    exact hkern (notify_prio ..) rfl rfl

end Code

/-! ## 3. The runs -/

def Act.isSetPrio : Act T E (MutexCall M V X E) (MutexOp T M V X) → Bool
  | .setPrio _ _ => true
  | _ => false

/-- The thread that releases a mutex, and the mutex: an operation, or the test of a wait on a
    condition variable. -/
def released (s : MutexSys T E M V X) :
    Act T E (MutexCall M V X E) (MutexOp T M V X) → Option (T × M)
  | .op p => (p.releases s.obj).map fun x => (x.1, x.2.1)
  | .go t =>
    match s.pc t with
    | .inCall (.enter _) (.condWait _ m _ _ _) => some (t, m)
    | .inCall .poll (.condWait _ m _ _ _) => some (t, m)
    | _ => none
  | _ => none

instance (s : MutexState T E M V X) (me : T) (m : M) : Decidable (Restores s me m) :=
  inferInstanceAs (Decidable (_ → _))

/-- Mutexes are not deinitialised, priorities are not set, and a last release of a mutex with
    ceiling is that of the last one acquired, or brings back the priority the thread has. -/
def Nested (s : MutexSys T E M V X) (a : Act T E (MutexCall M V X E) (MutexOp T M V X)) : Prop :=
  NoDeinit s a ∧ a.isSetPrio = false ∧ ∀ x ∈ released s a,
    (s.obj.mutex x.2).owner = some x.1 → (s.obj.mutex x.2).recursiveLocks = 0 →
      Restores (s.kern, s.obj) x.1 x.2

instance (s : MutexSys T E M V X) (a : Act T E (MutexCall M V X E) (MutexOp T M V X)) :
    Decidable (Nested s a) :=
  inferInstanceAs (Decidable (_ ∧ _ ∧ _))

section Lauf

variable {cfg : Config T} {checks : Bool} {s s' : MutexSys T E M V X} {t u : T} {m : M}
  {a : Act T E (MutexCall M V X E) (MutexOp T M V X)}

/-- A block in the queue of a mutex is one of another thread, which is created. -/
theorem queued_live (hw : WellFormed (fxMutex checks) s) (ht : Awake s.kern t) {b : Blk T}
    (hb : b ∈ s.kern.wq (.obj (.mutex m))) : s.Live b.1 ∧ b.1 ≠ t := by
  obtain ⟨_, ab, c, hpc, _⟩ := call_of_mem hw.kern hb rfl
  refine ⟨fun e => ?_, ht.ne_of_mem hb⟩
  rw [hpc] at e
  cases e

/-- A thread in a call stays a created one. -/
theorem Ceiled.moved {base : T → Nat} {st : MutexState T E M V X} {stage : Stage T E}
    {c : MutexCall M V X E} {p : Pc T E (MutexCall M V X E)} (h : Ceiled base s.Live st)
    (hpc : s.pc t = .inCall stage c) (hp : p ≠ .absent) :
    Ceiled base (Sys.Live ⟨st.1, st.2, update s.pc t p, base⟩ : T → Prop) st := by
  intro u
  refine (h u).same (fun _ => ⟨rfl, rfl, rfl⟩) (fun hl => ⟨?_, rfl, rfl⟩) fun hn => ?_
  · show update s.pc t p u ≠ _
    by_cases hut : u = t
    · subst hut
      rw [Function.update_self]
      exact hp
    · rw [Function.update_of_ne hut]
      exact hl
  · have hut : u ≠ t := by
      rintro rfl
      refine hn fun e => ?_
      rw [hpc] at e
      cases e
    intro hl
    refine absurd ?_ hn
    change update s.pc t p u ≠ _ at hl
    rw [Function.update_of_ne hut] at hl
    exact hl

/-- A step that runs no code of an object creates a thread or leaves it created. -/
theorem Quiet.born (hq : Quiet cfg (fxMutex checks) a s s' t) (u : T) :
    (s.Live u → s'.Live u) ∧
      (¬ s.Live u → s'.Live u → (s'.kern.sched.item u).prio = s'.base u) := by
  have hmoved : ∀ {p q : Pc T E (MutexCall M V X E)}, s.pc u = p → s'.pc u = q → p ≠ .absent →
      q ≠ .absent → (s.Live u → s'.Live u) ∧
        (¬ s.Live u → s'.Live u → (s'.kern.sched.item u).prio = s'.base u) := by
    intro p q hp hq hp' hq'
    unfold Sys.Live
    rw [hp, hq]
    exact ⟨fun _ => hq', fun hn => absurd hp' hn⟩
  by_cases hut : u = t
  · subst hut
    cases hq.move with
    | stay h' _ =>
      unfold Sys.Live
      rw [h']
      exact ⟨id, fun hn hl => absurd hl hn⟩
    | init h0 h' hp =>
      unfold Sys.Live
      rw [h0, h']
      exact ⟨fun hl => absurd rfl hl, fun _ _ => hp⟩
    | gone h0 h' => exact hmoved rfl h' h0 (by intro e; cases e)
    | call _ h0 _ h' => exact hmoved h0 h' (by intro e; cases e) (by intro e; cases e)
    | reset h0 h' => exact hmoved h0 h' (by intro e; cases e) (by intro e; cases e)
    | arm h0 h' => exact hmoved h0 h' (by intro e; cases e) (by intro e; cases e)
    | leave h0 _ h' => exact hmoved h0 h' (by intro e; cases e) (by intro e; cases e)
    | disarm h0 h' => exact hmoved h0 h' (by intro e; cases e) (by intro e; cases e)
  · unfold Sys.Live
    rw [hq.pc u hut]
    exact ⟨id, fun hn hl => absurd hl hn⟩

/-- **A step that runs no code of an object.** -/
theorem Ceiled.quiet (h : Ceiled s.base s.Live (s.kern, s.obj)) (hp : a.isSetPrio = false)
    (hq : Quiet cfg (fxMutex checks) a s s' t) : Ceiled s'.base s'.Live (s'.kern, s'.obj) := by
  have hset : ∀ u p, a ≠ .setPrio u p := fun u p e => by
    rw [e] at hp
    cases hp
  intro u
  obtain ⟨hlive, hborn⟩ := hq.born u
  show CeiledAt s'.obj.mutex u (s'.obj.hist.stack u) _ _ _
  rw [hq.obj]
  exact (h u).same (fun _ => ⟨rfl, rfl, rfl⟩) (fun hl => ⟨hlive hl, hq.prio u hl (hset u)⟩) hborn

/-- A mutex released in a wait on a condition variable. -/
theorem Nested.test {stage : Stage T E} {c : MutexCall M V X E} (hg : Nested s (.go t))
    (hok : CondOk s) (hpc : s.pc t = .inCall stage c) (hst : stage.tests) (hm : m ∈ c.attr) :
    (s.obj.mutex m).owner = some t ∧
      ((s.obj.mutex m).recursiveLocks = 0 → Restores (s.kern, s.obj) t m) := by
  cases c with
  | condWait v m' args depth accepted =>
    cases hm
    have ho := (hok.before hpc hst.untested).1
    refine ⟨ho, hg.2.2 (t, m) ?_ ho⟩
    unfold released
    dsimp only
    rw [hpc]
    cases stage with
    | enter ab => exact rfl
    | poll => exact rfl
    | _ => exact hst.elim
  | _ => cases hm

/-- **One step keeps the priorities.** -/
theorem Ceiled.step (hw : WellFormed (fxMutex cfg.checks) s) (hok : CondOk s)
    (h : Ceiled s.base s.Live (s.kern, s.obj)) (hg : Nested s a)
    (hs : FxRtos.step cfg (fxMutex cfg.checks) a s = some s') :
    Ceiled s'.base s'.Live (s'.kern, s'.obj) := by
  have hlive : ∀ {t stage c}, s.pc t = .inCall stage c → s.Live t := fun hpc e => by
    rw [hpc] at e
    cases e
  cases (step_case (fxMutex_lawful cfg.checks) hw hs).1 with
  | quiet t hq => exact h.quiet hg.2.1 hq
  | enter t c ab r k ha hpc hr he hs' =>
    subst ha hs'
    have hph : s.phases (fxMutex cfg.checks) t = .awake := by rw [Sys.phases, hpc]; rfl
    obtain ⟨_, hprep, _⟩ := prepare_kernOk hw.phases hph hr c.attr
    have h1 : Ceiled s.base s.Live (fxSyncWaiterPrepare s.kern t c.attr, s.obj) := h
    have h2 := h1.test cfg.checks (hlive hpc) c true
      (fun m b hb => queued_live hw (hw.awake hph).1 hb) (by rw [hprep.main]; rfl)
      (fun m hm => (hg.test hok hpc trivial hm).1) fun m hm => (hg.test hok hpc trivial hm).2
    refine Ceiled.moved (h2.same (fun _ => ⟨rfl, rfl, rfl⟩) rfl (funext he.prio)) hpc ?_
    intro e
    cases e
  | poll t c p ha hpc hr hp hs' =>
    subst ha hp hs'
    have hph : s.phases (fxMutex cfg.checks) t = .awake := by rw [Sys.phases, hpc]; rfl
    have h1 : Ceiled s.base s.Live (fxSyncWaitBlockInit s.kern t c.attr, s.obj) := h
    have hattr : ((fxSyncWaitBlockInit s.kern t c.attr).wb (t, .main)).u.getAttr = c.attr := by
      show (update s.kern.wb _ _ _).u.getAttr = _
      rw [Function.update_self]
      rfl
    have h2 := h1.test cfg.checks (hlive hpc) c false
      (fun m b hb => queued_live hw (hw.awake hph).1 hb) hattr
      (fun m hm => (hg.test hok hpc trivial hm).1) fun m hm => (hg.test hok hpc trivial hm).2
    exact h2.moved hpc fun e => by cases e
  | after t c r ha hpc hr hs' =>
    subst hs'
    refine Ceiled.moved (h.callEnd cfg.checks t r c) hpc ?_
    split
    · intro e
      cases e
    · intro e
      cases e
  | op p ko ha hcaller ho hs' =>
    subst ha hs'
    refine Ceiled.op h ho ?_ (fun t ht => ?_) (fun me m policy hp => ?_) fun t ht m b hb => ?_
    · rintro m rfl
      exact hg.1
    · intro e
      rw [(hcaller t ht).pc] at e
      cases e
    · refine hg.2.2 (me, m) ?_
      show _ ∈ (p.releases s.obj).map _
      rw [hp]
      exact rfl
    · exact queued_live hw (hw.awake (hcaller t ht).phase).1 hb

/-- **Priority ceiling**: in every run in which mutexes with ceiling are given up in the reverse
    order of their acquires, or without a change of the priority, a thread runs with the smallest
    of its base priority and the ceilings of the mutexes it owns. -/
theorem ceiling_prio {ceiling : M → Option Nat} {policies : M → SyncPolicy}
    {condPolicies : V → SyncPolicy}
    (h : Reach (FxRtos.step cfg (fxMutex cfg.checks)) Nested
      (boot cfg (mutexBoot (cfg.prioNum - 1) ceiling policies condPolicies)) s)
    (ht : s.pc t ≠ .absent) :
    s.kern.prio t ≤ s.base t ∧
    (∀ m c, (s.obj.mutex m).owner = some t → (s.obj.mutex m).ceiling = some c →
      s.kern.prio t ≤ c) ∧
    (s.kern.prio t = s.base t ∨ ∃ m c, (s.obj.mutex m).owner = some t ∧
      (s.obj.mutex m).ceiling = some c ∧ s.kern.prio t = c) := by
  have hceiled : Ceiled s.base s.Live (s.kern, s.obj) := by
    refine Reach.inv_of (J := fun s => Ceiled s.base s.Live (s.kern, s.obj))
      (K := fun s => WellFormed (fxMutex cfg.checks) s ∧ CondOk s) (fun s hr => ?_) (fun u => ?_)
      (fun s a s' hK hj hg hs => hj.step hK.1 hK.2 hg hs) h
    · have hr' := hr.mono fun _ _ hg => hg.1
      exact ⟨reach_wellFormed (fxMutex_lawful cfg.checks) hr', condOk_reach hr'⟩
    · refine ⟨fun hl => absurd rfl hl, trivial, fun m => ?_, List.nodup_nil, fun _ => rfl⟩
      exact iff_of_false List.not_mem_nil fun e => Option.some_ne_none u e.1.symm
  have hat := hceiled t
  have hprio : s.kern.prio t = _ := hat.prio ht
  have hof : ∀ {m c}, (s.obj.mutex m).ceiling = some c → ceilingOf s.obj.mutex m = c :=
    fun hc => by
      unfold ceilingOf
      rw [hc]
      rfl
  refine ⟨?_, fun m c ho hc => ?_, ?_⟩
  · rw [hprio]
    exact level_le_base _
  · rw [hprio, ← hof hc]
    exact level_le ((hat.mem m).mpr ⟨ho, by rw [hc]; rfl⟩)
  · rcases level_attained (ceilingOf s.obj.mutex) (s.base t)
      (s.obj.hist.stack t) with e | ⟨m, hm, e⟩
    · exact Or.inl (hprio.trans e)
    · obtain ⟨ho, hs⟩ := (hat.mem m).mp hm
      obtain ⟨c, hc⟩ := Option.isSome_iff_exists.mp hs
      exact Or.inr ⟨m, c, ho, hc, (hprio.trans e).trans (hof hc)⟩

end Lauf

/-- One thread, and two mutexes with the ceilings 5 and 3. -/
def ceilingCfg : Config (Fin 2) := ⟨true, 16, 1⟩

def ceilingStep : Act (Fin 2) Unit (MutexCall (Fin 2) Unit Unit Unit)
    (MutexOp (Fin 2) (Fin 2) Unit Unit) → MutexSys (Fin 2) Unit (Fin 2) Unit Unit →
    Option (MutexSys (Fin 2) Unit (Fin 2) Unit Unit) :=
  step ceilingCfg (fxMutex ceilingCfg.checks)

def ceilingBoot : MutexSys (Fin 2) Unit (Fin 2) Unit Unit :=
  boot ceilingCfg (mutexBoot (ceilingCfg.prioNum - 1) (fun m => if m = 0 then some 5 else some 3)
    (fun _ => .fifo) fun _ => .fifo)

/-- Both mutexes are acquired, and the second one is released. -/
theorem ceiling_prio_nested :
    ∃ s, Reach ceilingStep Nested ceilingBoot s ∧ (s.obj.mutex 0).owner = some 0 ∧
      (s.obj.mutex 1).owner = none ∧ s.kern.prio 0 ≤ 5 := by
  have h : (runIf (fun s a => decide (Nested s a)) ceilingStep
      [.init 0 10 false, .call 0 (.acquire 0 (.event none)), .go 0, .go 0,
        .call 0 (.acquire 1 (.event none)), .go 0, .go 0, .op (.release 0 1)] ceilingBoot).any
      (fun s => (s.obj.mutex 0).owner = some 0 ∧ (s.obj.mutex 1).owner = none ∧
        (s.obj.mutex 0).ceiling = some 5 ∧ s.Free 0) = true := by
    decide +kernel
  obtain ⟨s, hr, hp⟩ := exists_of_runIf (G := Nested) (fun _ _ hg => of_decide_eq_true hg) h
  obtain ⟨h0, h1, hc, hf⟩ := of_decide_eq_true hp
  have ht : s.pc 0 ≠ .absent := fun e => by
    rw [hf.pc] at e
    cases e
  exact ⟨s, hr, h0, h1, (ceiling_prio hr ht).2.1 0 5 h0 hc⟩

/-- **Released in the order of their acquires**, the mutexes leave the thread below the ceiling of
    the one it still owns. -/
theorem ceiling_not_kept :
    ∃ s, Reach ceilingStep (fun s a => NoDeinit s a ∧ a.isSetPrio = false) ceilingBoot s ∧
      (s.obj.mutex 1).owner = some 0 ∧ (s.obj.mutex 1).ceiling = some 3 ∧ s.base 0 = 10 ∧
      s.kern.prio 0 = 10 := by
  have h : (runIf (fun s a => decide (NoDeinit s a ∧ a.isSetPrio = false)) ceilingStep
      [.init 0 10 false, .call 0 (.acquire 0 (.event none)), .go 0, .go 0,
        .call 0 (.acquire 1 (.event none)), .go 0, .go 0, .op (.release 0 0)] ceilingBoot).any
      (fun s => (s.obj.mutex 1).owner = some 0 ∧ (s.obj.mutex 1).ceiling = some 3 ∧
        s.base 0 = 10 ∧ s.kern.prio 0 = 10) = true := by
    decide +kernel
  obtain ⟨s, hr, hp⟩ := exists_of_runIf (G := fun s a => NoDeinit s a ∧ a.isSetPrio = false)
    (fun _ _ hg => of_decide_eq_true hg) h
  obtain ⟨ho, hc, hb, hprio⟩ := of_decide_eq_true hp
  exact ⟨s, hr, ho, hc, hb, hprio⟩

end FxRtos
