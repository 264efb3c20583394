/-
  File:      FxRtos/Objects/ReadySet.lean
  Subject:   THE READY QUEUES AND THE STATES OF THE THREADS, in every run of threads and mutexes.

  * `fxMutex_orderly` -- the code of mutexes and condition variables keeps the items of the threads
    in use in the container; a mutex that is deinitialised has to spare the owner that died.
  * `HitsUnlinked` -- the steps that take an item out of the container that is not in it: a thread
    that ended by itself keeps a suspend count of zero.
  * `ready_set` -- in every run without such steps a thread is in the queue of its priority exactly
    when its state is ready, and in no other.
-/
import FxRtos.Objects.Ceiling

namespace FxRtos

open Function (update)
open Lib

set_option linter.unusedSectionVars false

/-! ## 1. The code of mutexes and condition variables -/

section Code

variable {T E M V X : Type} [DecidableEq T] [DecidableEq E] [DecidableEq M] [DecidableEq V]
  [DecidableEq X] {live made : T → Prop} {s s' : MutexState T E M V X} {checks : Bool} {t me : T}
  {m : M}

/-- What a mutex holds: priorities, and a thread that was created. -/
structure FxMutex.Sound (made : T → Prop) (mx : FxMutex T) : Prop where
  params : mx.ownerParams < 1024
  ceiling : ∀ p ∈ mx.ceiling, p < 1024
  owner : ∀ u, mx.owner = some u → made u

def MutexesSound (made : T → Prop) (o : MutexWorld T M V X) : Prop := ∀ m, (o.mutex m).Sound made

/-- One mutex changed. -/
theorem Tended.setMutex (h : Tended MutexesSound live made s) {mx : FxMutex T} (hmx : mx.Sound made)
    {o : MutexWorld T M V X} (ho : o.mutex = update s.2.mutex m mx) :
    Tended MutexesSound live made (s.1, o) := by
  refine ⟨h.sched, h.queued, fun m' => ?_⟩
  show (o.mutex m').Sound made
  rw [ho]
  by_cases hm : m' = m
  · rw [hm, Function.update_self]
    exact hmx
  · rw [Function.update_of_ne hm]
    exact h.obj m'

theorem Tended.world (h : Tended MutexesSound live made s) {o : MutexWorld T M V X}
    (ho : o.mutex = s.2.mutex) : Tended MutexesSound live made (s.1, o) :=
  ⟨h.sched, h.queued, fun m => by
    rw [ho]
    exact h.obj m⟩

/-- A mutex is given to a thread in use: its priority is saved, and may be raised. -/
theorem Tended.own (h : Tended MutexesSound live made s) (hl : live t) (hm : made t) :
    Tended MutexesSound live made (fxMutexOwn t m s) := by
  have hsound := h.obj m
  have hkern : Tended MutexesSound live made
      ((fxMutexApplyCeiling s.1 t { s.2.mutex m with owner := some t }).1, s.2) := by
    unfold fxMutexApplyCeiling
    split
    · rename_i c hc
      dsimp only
      split
      · exact h.setPrio (Or.inl hl) (hsound.ceiling c hc)
      · exact h
    · exact h
  have hmx : (fxMutexApplyCeiling s.1 t { s.2.mutex m with owner := some t }).2.Sound made := by
    rw [fxMutexApplyCeiling_mutex]
    refine ⟨?_, hsound.ceiling, fun u hu => Option.some.inj hu ▸ hm⟩
    show (if _ then s.1.prio t else (s.2.mutex m).ownerParams) < 1024
    split
    · exact h.sched.lt t hl
    · exact hsound.params
  exact hkern.setMutex hmx rfl

theorem Tended.testMutex (h : Tended MutexesSound live made s) (hl : live me) (hm : made me) (m : M)
    (wait : Bool) : Tended MutexesSound live made (fxMutexTestAndWait m me wait s).2 := by
  have hsound := h.obj m
  rcases fxMutexTestAndWait_cases m me wait s with ⟨_, e⟩ | ⟨_, e⟩ | ⟨_, _, e⟩
  all_goals rw [e]
  · exact h.own hl hm
  · have hmx : FxMutex.Sound made { s.2.mutex m with
        recursiveLocks := (s.2.mutex m).recursiveLocks + 1 } :=
      ⟨hsound.params, hsound.ceiling, hsound.owner⟩
    exact h.setMutex hmx rfl
  · cases wait with
    | true => exact h.waitStart hl hm .main _
    | false => exact h

theorem Tended.handOver (h : Tended MutexesSound live made s) (policy : SyncPolicy) :
    Tended MutexesSound live made (fxMutexHandOver me m policy s) := by
  have hsound := h.obj m
  unfold fxMutexHandOver
  dsimp only
  split
  · rename_i wb hget
    have hwb := fxSyncWaitBlockGet_mem hget
    obtain ⟨hl, hm⟩ := h.queued _ wb hwb
    have h1 : Tended MutexesSound live made
        (s.1, { s.2 with hist := (s.2.hist.release me m).disown me m }) :=
      h.world rfl
    have h2 := h1.own hl hm (m := m)
    refine h2.notify (w := .obj (.mutex m)) ?_ .satisfied
    show wb ∈ (fxMutexApplyCeiling s.1 wb.1 _).1.wq _
    rw [fxMutexApplyCeiling_wq]
    exact hwb
  · have hmx : FxMutex.Sound made { s.2.mutex m with owner := none } :=
      ⟨hsound.params, hsound.ceiling, fun u hu => by cases hu⟩
    exact h.setMutex hmx rfl

theorem Tended.release (h : Tended MutexesSound live made s) (hl : live me) (policy : SyncPolicy) :
    Tended MutexesSound live made (fxMutexReleaseWithPolicy checks me m policy s).2 := by
  have hsound := h.obj m
  unfold fxMutexReleaseWithPolicy fxMutexReleaseLocked
  dsimp only
  repeat' split
  · exact h
  · exact h
  · have h1 : Tended MutexesSound live made (fxMutexHandOver me m policy s) := h.handOver policy
    unfold fxMutexRestore
    split
    · exact h1.setPrio (Or.inl hl) hsound.params
    · exact h1
  · have hmx : FxMutex.Sound made { s.2.mutex m with
        recursiveLocks := (s.2.mutex m).recursiveLocks - 1 } :=
      ⟨hsound.params, hsound.ceiling, hsound.owner⟩
    exact h.setMutex hmx rfl

/-- The test of any of the calls. -/
theorem Tended.test (h : Tended MutexesSound live made s) (hl : live me) (hm : made me)
    (wait : Bool) (c : MutexCall M V X E) :
    Tended MutexesSound live made (fxMutexTest checks me wait s c).2 := by
  have hqueued : ∀ w, Tended MutexesSound live made
      (if wait then fxSyncWaitStart s.1 w (me, .main) else s.1, s.2) := fun w => by
    cases wait with
    | true => exact h.waitStart hl hm .main w
    | false => exact h
  cases c with
  | acquire m args => exact h.testMutex hl hm m wait
  | reacquire m res depth accepted => exact h.testMutex hl hm m wait
  | condWait v m args depth accepted =>
    show Tended MutexesSound live made (fxCondTestAndWait checks v me wait s).2
    unfold fxCondTestAndWait
    dsimp only
    split
    · exact (hqueued (.obj (.cond v))).release hl _
    · exact hqueued (.obj (.cond v))
  | other x args =>
    show Tended MutexesSound live made (otherTestAndWait x me wait s).2
    unfold otherTestAndWait
    split
    · exact h
    · exact hqueued (.obj (.other x))

/-- The owner that a deinitialised mutex restores the priority of is in use, or suspended. -/
def MutexSpares (checks : Bool) (live : T → Prop) (p : MutexOp T M V X)
    (s : MutexState T E M V X) : Prop :=
  ∀ m, p = .deinit m → ¬ (checks ∧ (s.2.mutex m).valid = false) →
    (s.2.mutex m).ceiling.isSome → ∀ u, (s.2.mutex m).owner = some u → live u ∨
      ((fxSyncWaitNotifyAll s.1 (.obj (.mutex m)) .deleted).sched.item u).suspendCount ≠ 0

/-- The operations, with the owner of a mutex that is deinitialised not unlinked. -/
theorem Tended.op (h : Tended MutexesSound live made s) {p : MutexOp T M V X}
    (hrun : p.run checks s = some s') (hcaller : ∀ t ∈ p.caller, live t)
    (hdeinit : MutexSpares checks live p s) : Tended MutexesSound live made s' := by
  have hsignal : ∀ v policy, Tended MutexesSound live made (condSignal checks v policy s) := by
    intro v policy
    unfold condSignal
    split
    · exact h
    · unfold fxCondSignalWithPolicy
      split
      · rename_i wb hget
        exact h.notify (fxSyncWaitBlockGet_mem hget) .satisfied
      · exact h
  cases p with
  | releaseWithPolicy me m policy =>
    obtain ⟨_, rfl⟩ := taken hrun
    exact h.release (hcaller me rfl) policy
  | release me m =>
    obtain ⟨_, rfl⟩ := taken hrun
    exact h.release (hcaller me rfl) _
  | deinit m =>
    cases hrun
    split
    · exact h
    · rename_i hvalid
      have hsound := h.obj m
      have h1 := h.notifyAll (.obj (.mutex m)) .deleted (Or.inr rfl)
      unfold fxMutexDeinit
      dsimp only
      have hmx : FxMutex.Sound made { s.2.mutex m with valid := false } :=
        ⟨hsound.params, hsound.ceiling, hsound.owner⟩
      split
      · rename_i u ho
        split
        · rename_i hc
          exact (h1.setPrio (hdeinit m rfl hvalid hc u ho) hsound.params).setMutex hmx rfl
        · exact h1.setMutex hmx rfl
      · exact h1.setMutex hmx rfl
  | signalWithPolicy v policy =>
    cases hrun
    exact hsignal v policy
  | signal v =>
    cases hrun
    exact hsignal v _
  | broadcast v =>
    cases hrun
    split
    · exact h
    · exact h.notifyAll _ .satisfied (Or.inl rfl)
  | condDeinit v =>
    cases hrun
    split
    · exact h
    · exact (h.notifyAll _ .deleted (Or.inr rfl)).world rfl
  | otherSet x value =>
    cases hrun
    exact h.world rfl
  | otherNotify x wb reason =>
    obtain ⟨⟨hb, hr⟩, rfl⟩ := taken hrun
    exact h.notify hb reason

theorem fxMutex_orderly (checks : Bool) :
    (fxMutex checks : WaitObject T E (SyncQ M V X) _ _ _ _).Orderly MutexesSound
      (MutexSpares checks) where
  mono h hm m := ⟨(h m).params, (h m).ceiling, fun u hu => hm u ((h m).owner u hu)⟩
  test c wait _ h hl hm := h.test hl hm wait c
  after {live made s t} c r h hl hm := by
    have hkern : (fxMutexEnd checks t r s c).2.1 = s.1 := fxMutexEnd_kern ..
    have hobj : (fxMutexEnd checks t r s c).2.2.mutex = s.2.mutex := fxMutexEnd_mutex ..
    show Tended MutexesSound live made (fxMutexEnd checks t r s c).2
    refine ⟨hkern ▸ h.sched, hkern ▸ h.queued, fun m => ?_⟩
    rw [hobj]
    exact h.obj m
  op h hcaller hsp hrun := h.op hrun hcaller hsp

end Code

/-! ## 2. The steps -/

/-- The thread has completed, and its suspend count is zero: its item is taken for one that is in
    the container. -/
def Kern.Unlinked {T E Q A : Type} (k : Kern T E Q A) (t : T) : Prop :=
  k.state t = .completed ∧ (k.sched.item t).suspendCount = 0

section Lauf

variable {T E M V X : Type} [DecidableEq T] [DecidableEq E] [DecidableEq M] [DecidableEq V]
  [DecidableEq X] {cfg : Config T} {s s' : MutexSys T E M V X} {t : T}
  {a : Act T E (MutexCall M V X E) (MutexOp T M V X)}

/-- **The steps that go wrong**: a completed thread is terminated for the first time, or the
    priority of one is set, by `fx_thread_set_params` or for the mutex it died with. -/
def HitsUnlinked (cfg : Config T) (s : MutexSys T E M V X) :
    Act T E (MutexCall M V X E) (MutexOp T M V X) → Prop
  | .terminate t => s.kern.isTerminating t = false ∧ s.kern.Unlinked t
  | .setPrio t prio => prio < cfg.prioNum - 1 ∧ s.kern.Unlinked t
  | .op (.deinit m) => ¬ (cfg.checks ∧ (s.obj.mutex m).valid = false) ∧
      (s.obj.mutex m).ceiling.isSome ∧ ∃ u ∈ (s.obj.mutex m).owner, s.kern.Unlinked u
  | _ => False

def SparesUnlinked (cfg : Config T) (s : MutexSys T E M V X)
    (a : Act T E (MutexCall M V X E) (MutexOp T M V X)) : Prop := ¬ HitsUnlinked cfg s a

instance (k : MutexKern T E M V X) (t : T) : Decidable (k.Unlinked t) :=
  inferInstanceAs (Decidable (_ ∧ _))

instance (s : MutexSys T E M V X) (a : Act T E (MutexCall M V X E) (MutexOp T M V X)) :
    Decidable (HitsUnlinked cfg s a) :=
  match a with
  | .terminate t => inferInstanceAs (Decidable (_ ∧ s.kern.Unlinked t))
  | .setPrio t prio => inferInstanceAs (Decidable (prio < cfg.prioNum - 1 ∧ s.kern.Unlinked t))
  | .op (.deinit m) => inferInstanceAs (Decidable (¬ (_ ∧ _) ∧ _ ∧
      ∃ u ∈ (s.obj.mutex m).owner, s.kern.Unlinked u))
  | .op (.releaseWithPolicy _ _ _) | .op (.release _ _) | .op (.signalWithPolicy _ _)
  | .op (.signal _) | .op (.broadcast _) | .op (.condDeinit _) | .op (.otherSet _ _)
  | .op (.otherNotify _ _ _) | .init _ _ _ | .call _ _ | .go _ | .expire _ | .evSet _ | .evReset _
  | .evDeinit _ | .exit _ | .suspend _ | .resume _ | .yield _ | .dispatch => .isFalse id

instance (s : MutexSys T E M V X) (a : Act T E (MutexCall M V X E) (MutexOp T M V X)) :
    Decidable (SparesUnlinked cfg s a) :=
  inferInstanceAs (Decidable (¬ _))

/-- Nothing is touched that was unlinked when its thread ended. -/
theorem SparesUnlinked.spares (hsp : SparesUnlinked cfg s a)
    (h : Enrolled cfg MutexesSound s) (hw : WellFormed (fxMutex cfg.checks) s)
    (hs : FxRtos.step cfg (fxMutex cfg.checks) a s = some s') :
    SparesDead cfg (MutexSpares cfg.checks) s a := by
  -- a thread that was created is in use, suspended, or unlinked
  have hcases : ∀ {t : T}, s.Live t → ¬ s.kern.Unlinked t →
      s.InUse cfg.idle t ∨ (s.kern.sched.item t).suspendCount ≠ 0 := by
    intro t ht hn
    by_contra hne
    obtain ⟨hdead, hcount⟩ := not_or.mp hne
    exact hn ⟨(hw.unused ht hdead).2, not_not.mp hcount⟩
  cases a with
  | terminate t =>
    obtain ⟨hc, _⟩ := taken hs
    cases hterm : s.kern.isTerminating t with
    | true => exact Or.inl hterm
    | false => exact Or.inr (hcases hc.ne fun hu => hsp ⟨hterm, hu⟩)
  | setPrio t prio =>
    obtain ⟨hc, _⟩ := taken hs
    exact fun hprio => hcases hc.ne fun hu => hsp ⟨hprio, hu⟩
  | op p =>
    rintro m rfl hvalid hceil u howner
    by_contra hne
    obtain ⟨hdead, hcount⟩ := not_or.mp hne
    obtain ⟨hawake, hstate⟩ := hw.unused ((h.obj m).owner u howner) hdead
    -- a thread that ended is not woken
    have hm : Moves (fun _ => True) NoOne s.kern
        (fxSyncWaitNotifyAll s.kern (.obj (.mutex m)) .deleted) :=
      Moves.notifyAll (w := .obj (.mutex m)) trivial (Or.inr rfl) s.kern
    have hzero := (hm.spare hawake).count
    rw [not_not.mp hcount] at hzero
    exact hsp ⟨hvalid, hceil, u, howner, hstate, hzero.symm⟩
  | _ => trivial

theorem mutexBoot_sound {prioIdle : Nat} (hN : prioIdle ≤ 1024) {ceiling : M → Option Nat}
    {policies : M → SyncPolicy} {condPolicies : V → SyncPolicy}
    (hc : ∀ m, CeilingOk prioIdle (ceiling m)) (made : T → Prop) :
    MutexesSound made (mutexBoot prioIdle ceiling policies condPolicies :
      MutexWorld T M V X) := by
  refine fun m => ⟨?_, fun p hp => ?_, fun u hu => by cases hu⟩
  · show prioIdle - 1 < 1024
    omega
  · have hlt := hc m p hp
    omega

/-- **The ready queues**: in every run without the steps that go wrong, nothing was removed from
    the container that was not in it, and a thread is in the queue of its priority, once, exactly
    when it is ready, and in no other. -/
theorem ready_set (hN : cfg.prioNum ≤ 1024) {ceiling : M → Option Nat} {policies : M → SyncPolicy}
    {condPolicies : V → SyncPolicy} (hc : ∀ m, CeilingOk (cfg.prioNum - 1) (ceiling m))
    (h : Reach (FxRtos.step cfg (fxMutex cfg.checks)) (SparesUnlinked cfg)
      (boot cfg (mutexBoot (cfg.prioNum - 1) ceiling policies condPolicies)) s) :
    s.kern.sched.gDomain.fault = false ∧ (∀ p, (s.kern.sched.gDomain.priorityQueues p).Nodup) ∧
    ∀ t, t = cfg.idle ∨ s.pc t ≠ .absent → ∀ p, (t ∈ s.kern.sched.gDomain.priorityQueues p ↔
      s.kern.state t = .ready ∧ s.kern.prio t = p) := by
  have hlawful := fxMutex_lawful (T := T) (E := E) (M := M) (V := V) (X := X) cfg.checks
  have horderly := fxMutex_orderly (T := T) (E := E) (M := M) (V := V) (X := X) cfg.checks
  have hroll : OnRoll cfg MutexesSound s :=
    Reach.inv_of (fun _ hr => reach_wellFormed hlawful hr)
      (boot_onRoll horderly hN (mutexBoot_sound (by omega) hc _))
      (fun _ _ _ hw hj hg hs =>
        hj.step hlawful horderly hN hw (hg.spares hj.toEnrolled hw hs) hs) h
  exact ⟨hroll.sched.fault, hroll.sched.mpq.nodup, fun t ht p =>
    hroll.queue_iff (reach_wellFormed hlawful h) ht⟩

end Lauf

/-- One thread, and a mutex with the ceiling 5. -/
def readyStep : Act (Fin 2) Unit (MutexCall Unit Unit Unit Unit) (MutexOp (Fin 2) Unit Unit Unit) →
    MutexSys (Fin 2) Unit Unit Unit Unit → Option (MutexSys (Fin 2) Unit Unit Unit Unit) :=
  step ceilingCfg (fxMutex ceilingCfg.checks)

def readyBoot : MutexSys (Fin 2) Unit Unit Unit Unit :=
  boot ceilingCfg (mutexBoot (ceilingCfg.prioNum - 1) (fun _ => some 5) (fun _ => .fifo)
    fun _ => .fifo)

/-- A thread terminated while it was suspended may be terminated again, and given another
    priority. -/
theorem ready_set_terminated :
    ∃ s, Reach readyStep (SparesUnlinked ceilingCfg) readyBoot s ∧
      s.kern.state 0 = .completed ∧ s.kern.sched.gDomain.fault = false ∧
      0 ∉ s.kern.sched.gDomain.priorityQueues 5 := by
  have h : (runIf (fun s a => decide (SparesUnlinked ceilingCfg s a)) readyStep
      [.init 0 10 true, .terminate 0, .setPrio 0 5, .terminate 0, .dispatch] readyBoot).any
      (fun s => s.kern.state 0 = .completed ∧ s.Created 0) = true := by
    decide +kernel
  obtain ⟨s, hr, hp⟩ := exists_of_runIf (G := SparesUnlinked ceilingCfg)
    (fun _ _ hg => of_decide_eq_true hg) h
  obtain ⟨hstate, hcreated⟩ := of_decide_eq_true hp
  have hceiling : ∀ m : Unit, CeilingOk (ceilingCfg.prioNum - 1) (some 5) := fun _ p hp => by
    cases hp
    decide
  obtain ⟨hfault, _, hq⟩ := ready_set (by decide) hceiling hr
  refine ⟨s, hr, hstate, hfault, fun hm => ?_⟩
  have hready := ((hq 0 (Or.inr hcreated.ne) 5).mp hm).1
  rw [hstate] at hready
  cases hready

/-- **A thread that ended is terminated**: it is removed from the container a second time. -/
theorem unlinked_removed :
    ∃ s, Reach readyStep Always readyBoot s ∧ s.kern.sched.gDomain.fault = true := by
  have h : (run readyStep [.init 0 10 false, .dispatch, .exit 0, .dispatch, .terminate 0]
      readyBoot).any (fun s => decide (s.kern.sched.gDomain.fault = true)) = true := by
    decide +kernel
  obtain ⟨s, hr, hp⟩ := exists_of_run h
  exact ⟨s, hr, of_decide_eq_true hp⟩

end FxRtos
