/-
  File:      FxRtos/Objects/Cond.lean
  Subject:   CONDITION VARIABLES (fx_cond.c): what a wait leaves of the mutex, and that a signal
             finds the waiters.

  * `CondAt` -- what a wait holds of its mutex, by how far it has come. Once the test was run the
    mutex is released once; where the arguments are rejected the test is not run.
  * `ReacqAt` -- the second wait, for the mutex, ends with OK.
  * `condWait_returns` -- the mutex is as it was found exactly if the arguments are accepted.
  * `condWait_atomic` -- with the mutex acquired once at each call, a waiter does not own it, and
    is in the queue until it is woken up.
-/
import FxRtos.Objects.Ownership

namespace FxRtos

open Function (update)
open Lib

set_option linter.unusedSectionVars false

variable {T E M V X : Type} [DecidableEq T] [DecidableEq E] [DecidableEq M] [DecidableEq V]
  [DecidableEq X]

/-! ## 1. One wait -/

/-- What a wait on a condition variable holds of its mutex. -/
def CondAt (held : M → Nat) : Pc T E (MutexCall M V X E) → Prop
  | .inCall (.asleep _) (.condWait _ m _ depth accepted) => accepted = true ∧ held m = depth
  | .inCall (.disarm _) (.condWait _ m _ depth accepted) => accepted = true ∧ held m = depth
  | .inCall (.ret _) (.condWait _ m _ depth accepted) =>
    held m = if accepted then depth else depth + 1
  | .inCall _ (.condWait _ m _ depth accepted) => accepted = true ∧ held m = depth + 1
  | .inCall _ (.reacquire m _ depth accepted) => held m = if accepted then depth else depth + 1
  | _ => True

/-- The wait for the mutex has no abort event, and is not deleted. -/
def ReacqAt (status : WaitStatus) : Pc T E (MutexCall M V X E) → Prop
  | .inCall (.enter ab) (.reacquire ..) => ab = none
  | .inCall (.asleep ab) (.reacquire ..) => ab = none ∧ status ≠ .deleted
  | .inCall (.ret r) (.reacquire ..) => r = .ok
  | .inCall _ (.reacquire ..) => False
  | _ => True

/-- The calls that are no part of a wait on a condition variable. -/
def MutexCall.plain : MutexCall M V X E → Prop
  | .acquire .. => True
  | .other .. => True
  | _ => False

/-- What the main block of a thread was notified with. -/
def Kern.mainStatus {Q A : Type} (k : Kern T E Q A) (t : T) : WaitStatus :=
  (k.wb (t, .main)).u.getStatus

theorem mainStatus_congr {Q A : Type} {k k' : Kern T E Q A} {t : T}
    (h : k'.wb (t, .main) = k.wb (t, .main)) : k'.mainStatus t = k.mainStatus t := by
  unfold Kern.mainStatus
  rw [h]

structure WaitOk (k : MutexKern T E M V X) (o : MutexWorld T M V X) (t : T)
    (p : Pc T E (MutexCall M V X E)) : Prop where
  cond : CondAt (o.hist.held t) p
  reacq : ReacqAt (k.mainStatus t) p

section Warten

variable {cfg : Config T} {checks : Bool} {k k' : MutexKern T E M V X} {o o' : MutexWorld T M V X}
  {t : T} {p : Pc T E (MutexCall M V X E)} {held : M → Nat} {m : M} {v : V} {depth : Nat}
  {accepted : Bool} {args : WaitArgs E} {res r : ThreadStatus}

variable (checks) in
/-- The arguments of a wait are accepted exactly if the wait is not rejected. -/
theorem accepted_iff (args : WaitArgs E) (k : MutexKern T E M V X) :
    args.accepted checks k = true ↔ ∀ r, args.mode checks k ≠ .reject r := by
  cases args with
  | event e =>
    cases e with
    | none => exact iff_of_true rfl fun _ => nofun
    | some e =>
      show (!checks || k.valid e) = true ↔ ∀ r, ite _ _ _ ≠ WaitMode.reject r
      by_cases he : checks = true ∧ k.valid e = false
      · rw [if_pos he, he.1, he.2]
        exact iff_of_false nofun fun h => h _ rfl
      · rw [if_neg he]
        refine iff_of_true ?_ fun _ => nofun
        cases hc : checks with
        | false => rfl
        | true =>
          cases hv : k.valid e with
          | false => exact absurd ⟨hc, hv⟩ he
          | true => rfl
  | timeout ticks =>
    show decide (_ ∨ _) = true ↔ ∀ r, fxThreadTimedwaitMode ticks ≠ _
    rw [decide_eq_true_iff]
    unfold fxThreadTimedwaitMode
    split
    · exact iff_of_true (Or.inl ‹_›) fun _ => nofun
    · split
      · rename_i h0
        refine iff_of_true (Or.inr ?_) fun _ => nofun
        rw [h0]
        decide
      · split
        · exact iff_of_true (Or.inr ‹_›) fun _ => nofun
        · rename_i h1 _ h2
          exact iff_of_false (fun h => h.elim h1 h2) fun h => h _ rfl

/-- At the first stage of a wait the mutex is held once more than `depth`. -/
theorem firstStage_cond {c : MutexCall M V X E} (hc : c = .condWait v m args depth accepted)
    (hv : accepted = args.accepted cfg.checks k) (h : held m = depth + 1) :
    CondAt held (.inCall (firstStage cfg (fxMutex checks) k c) c) := by
  have hacc := accepted_iff cfg.checks args k
  rw [← hv] at hacc
  subst hc
  unfold firstStage
  rw [show (fxMutex checks : WaitObject T E (SyncQ M V X) _ _ _ _).args
    (.condWait v m args depth accepted) = args from rfl]
  cases hm : args.mode cfg.checks k with
  | reject r =>
    have hfalse : accepted = false := by
      cases ha : accepted with
      | false => rfl
      | true => exact absurd hm (hacc.mp ha r)
    rw [hfalse]
    exact h
  | _ =>
    refine ⟨hacc.mpr fun r => ?_, h⟩
    rw [hm]
    exact nofun

/-- After the wait: the timer is cancelled, or the call goes on. -/
theorem afterWait_cond {c : MutexCall M V X E} (hc : c = .condWait v m args depth true)
    (ab : Option (Ev T E)) (h : held m = depth) : CondAt held (.inCall (afterWait ab r) c) := by
  subst hc
  unfold afterWait
  split
  · exact ⟨rfl, h⟩
  · exact h

/-- A thread that did not move. -/
theorem WaitOk.stay (h : WaitOk k o t p) (hh : o'.hist.held t = o.hist.held t)
    (hs : ∀ ab m res depth accepted, p = .inCall (.asleep ab) (.reacquire m res depth accepted) →
      k.mainStatus t ≠ .deleted → k'.mainStatus t ≠ .deleted) : WaitOk k' o' t p where
  cond := by
    rw [hh]
    exact h.cond
  reacq := by
    have hr := h.reacq
    cases p with
    | inCall stage c =>
      cases c with
      | reacquire m res depth accepted =>
        cases stage with
        | asleep ab => exact ⟨hr.1, hs ab m res depth accepted rfl hr.2⟩
        | _ => exact hr
      | _ => cases stage <;> trivial
    | _ => trivial

/-- The other calls. -/
theorem WaitOk.plain {c : MutexCall M V X E} (stage : Stage T E) (h : c.plain) :
    WaitOk k o t (.inCall stage c) := by
  cases c with
  | condWait v m args depth accepted => exact h.elim
  | reacquire m res depth accepted => exact h.elim
  | acquire m args => constructor <;> cases stage <;> trivial
  | other x args => constructor <;> cases stage <;> trivial

/-- In the wait on the condition variable only what is held counts. -/
theorem WaitOk.first {stage : Stage T E} {c : MutexCall M V X E}
    (hc : c = .condWait v m args depth accepted) (h : CondAt (o.hist.held t) (.inCall stage c)) :
    WaitOk k o t (.inCall stage c) := by
  subst hc
  refine ⟨h, ?_⟩
  cases stage <;> trivial

/-- In the wait for the mutex what is held stays the same. -/
theorem reacquire_held {stage : Stage T E} {c : MutexCall M V X E}
    (hc : c = .reacquire m res depth accepted) :
    CondAt held (.inCall stage c) ↔ held m = if accepted then depth else depth + 1 := by
  subst hc
  cases stage <;> rfl

/-! ## 2. What the code changes -/

theorem fxMutexReleaseLocked_held (me : T) (m : M) (policy : SyncPolicy)
    (s : MutexState T E M V X) :
    (fxMutexReleaseLocked me m policy s).2.hist.held = (s.2.hist.release me m).held := by
  unfold fxMutexReleaseLocked fxMutexHandOver
  dsimp only
  split
  · split <;> rfl
  · rfl

theorem fxMutexReleaseWithPolicy_held (checks : Bool) {me : T} (m : M) (policy : SyncPolicy)
    (s : MutexState T E M V X) {u : T} (hu : u ≠ me) :
    (fxMutexReleaseWithPolicy checks me m policy s).2.2.hist.held u = s.2.hist.held u := by
  unfold fxMutexReleaseWithPolicy
  dsimp only
  repeat' split
  · rfl
  · rfl
  · rw [fxMutexReleaseLocked_held]
    exact Function.update_of_ne hu ..

theorem fxMutexTestAndWait_held (m : M) (me : T) (wait : Bool) (s : MutexState T E M V X) :
    (fxMutexTestAndWait m me wait s).2.2.hist.held = s.2.hist.held := by
  rcases fxMutexTestAndWait_cases m me wait s with ⟨_, e⟩ | ⟨_, e⟩ | ⟨_, _, e⟩
  · exact congrArg (·.2.2.hist.held) e
  · exact congrArg (·.2.2.hist.held) e
  · exact congrArg (·.2.2.hist.held) e

/-- Nobody else's account is touched in a test, at the end of a call, or in an operation. -/
theorem fxMutexTest_held (checks : Bool) {me : T} (wait : Bool) (s : MutexState T E M V X)
    (c : MutexCall M V X E) {u : T} (hu : u ≠ me) :
    (fxMutexTest checks me wait s c).2.2.hist.held u = s.2.hist.held u := by
  cases c with
  | acquire m args => exact congrFun (fxMutexTestAndWait_held m me wait s) u
  | reacquire m res depth accepted => exact congrFun (fxMutexTestAndWait_held m me wait s) u
  | condWait v m args depth accepted =>
    show (fxCondTestAndWait checks v me wait s).2.2.hist.held u = _
    unfold fxCondTestAndWait
    dsimp only
    split
    · exact fxMutexReleaseWithPolicy_held checks _ _ (_, s.2) hu
    · rfl
  | other x args =>
    show (otherTestAndWait x me wait s).2.2.hist.held u = _
    unfold otherTestAndWait
    split <;> rfl

theorem fxMutexEnd_held (checks : Bool) {me : T} (res : ThreadStatus) (s : MutexState T E M V X)
    (c : MutexCall M V X E) {u : T} (hu : u ≠ me) :
    (fxMutexEnd checks me res s c).2.2.hist.held u = s.2.hist.held u := by
  cases c with
  | other x args => rfl
  | condWait v m args depth accepted =>
    simp only [fxMutexEnd]
    split <;> rfl
  | _ =>
    simp only [fxMutexEnd]
    split
    · exact Function.update_of_ne hu ..
    · rfl

theorem MutexOp.run_held {p : MutexOp T M V X} {s s' : MutexState T E M V X}
    (h : p.run checks s = some s') {u : T} (hu : u ∉ p.caller) :
    s'.2.hist.held u = s.2.hist.held u := by
  have hsignal : ∀ v policy, (condSignal checks v policy s).2 = s.2 := fun v policy => by
    unfold condSignal
    split <;> rfl
  cases p with
  | releaseWithPolicy me m policy =>
    obtain ⟨_, rfl⟩ := taken h
    exact fxMutexReleaseWithPolicy_held checks m policy s fun e => hu (e ▸ rfl)
  | release me m =>
    obtain ⟨_, rfl⟩ := taken h
    exact fxMutexReleaseWithPolicy_held checks m _ s fun e => hu (e ▸ rfl)
  | deinit m =>
    cases h
    split <;> rfl
  | signalWithPolicy v policy =>
    cases h
    rw [hsignal]
  | signal v =>
    cases h
    rw [hsignal]
  | broadcast v =>
    cases h
    split <;> rfl
  | condDeinit v =>
    cases h
    split <;> rfl
  | otherSet x value =>
    cases h
    rfl
  | otherNotify x wb reason =>
    obtain ⟨_, rfl⟩ := taken h
    rfl

/-- A release notifies nobody but with success. -/
theorem fxMutexReleaseWithPolicy_status (checks : Bool) (me : T) (m : M) (policy : SyncPolicy)
    (s : MutexState T E M V X) (u : T) :
    (fxMutexReleaseWithPolicy checks me m policy s).2.1.mainStatus u = s.1.mainStatus u ∨
      (fxMutexReleaseWithPolicy checks me m policy s).2.1.mainStatus u = .satisfied := by
  have hwb : ∀ {k : MutexKern T E M V X}, k.wb = s.1.wb → k.mainStatus u = s.1.mainStatus u :=
    fun h => mainStatus_congr (congrFun h _)
  unfold fxMutexReleaseWithPolicy
  dsimp only
  split
  · exact Or.inl rfl
  split
  · exact Or.inl rfl
  unfold fxMutexReleaseLocked
  dsimp only
  split
  · unfold fxMutexHandOver
    dsimp only
    split
    · rename_i wb hget
      show Kern.mainStatus (fxMutexRestore me _ (fxSyncWaitNotify _ .satisfied wb)) u = _ ∨ _
      unfold Kern.mainStatus
      rw [fxMutexRestore_wb, fxSyncWaitNotify_wb]
      by_cases hb : (u, Slot.main) = wb
      · rw [hb, Function.update_self]
        exact Or.inr rfl
      · rw [Function.update_of_ne hb]
        exact Or.inl (hwb (fxMutexApplyCeiling_wb ..))
    · exact Or.inl (hwb (fxMutexRestore_wb ..))
  · exact Or.inl rfl

/-- A test does not notify anybody else as deleted. -/
theorem fxMutexTest_status (checks : Bool) {me : T} (wait : Bool) (s : MutexState T E M V X)
    (c : MutexCall M V X E) {u : T} (hu : u ≠ me) (h : s.1.mainStatus u ≠ .deleted) :
    (fxMutexTest checks me wait s c).2.1.mainStatus u ≠ .deleted := by
  have hqueue : ∀ w, (if wait then fxSyncWaitStart s.1 w (me, .main) else s.1).mainStatus u =
      s.1.mainStatus u := by
    intro w
    cases wait with
    | true => exact mainStatus_congr ((waitStart_view (b := (me, .main)) (Ne.symm hu)).wb .main)
    | false => rfl
  have hmutex : ∀ m, (fxMutexTestAndWait m me wait s).2.1.mainStatus u = s.1.mainStatus u := by
    intro m
    rcases fxMutexTestAndWait_cases m me wait s with ⟨_, e⟩ | ⟨_, e⟩ | ⟨_, _, e⟩
    · rw [e]
      exact mainStatus_congr (congrFun (fxMutexApplyCeiling_wb ..) _)
    · rw [e]
    · rw [e]
      exact hqueue _
  cases c with
  | acquire m args => exact fun e => h ((hmutex m).symm.trans e)
  | reacquire m res depth accepted => exact fun e => h ((hmutex m).symm.trans e)
  | condWait v m args depth accepted =>
    show (fxCondTestAndWait checks v me wait s).2.1.mainStatus u ≠ .deleted
    unfold fxCondTestAndWait
    dsimp only
    split
    · rename_i m' _
      rcases fxMutexReleaseWithPolicy_status checks me m' (s.2.mutex m').policy
        (if wait then fxSyncWaitStart s.1 (.obj (.cond v)) (me, .main) else s.1, s.2) u with e | e
      · exact fun e' => h ((hqueue (.obj (.cond v))).symm.trans (e.symm.trans e'))
      · exact fun e' => absurd (e.symm.trans e') nofun
    · exact fun e => h ((hqueue _).symm.trans e)
  | other x args =>
    show (otherTestAndWait x me wait s).2.1.mainStatus u ≠ .deleted
    unfold otherTestAndWait
    split
    · exact h
    · exact fun e => h ((hqueue _).symm.trans e)

/-- An operation but the deinitialisation of a mutex does not notify a waiter of a mutex as
    deleted. -/
theorem MutexOp.run_status {op : MutexOp T M V X} {s s' : MutexState T E M V X}
    {ph : T → Phase T E (SyncQ M V X)} (hk : KernOk s.1 ph) (he : ∀ t, ph t ≠ .entering)
    (hr : op.run checks s = some s') (hd : ∀ m, op ≠ .deinit m) {u : T}
    {ab : Option (Ev T E)} (hu : ph u = .asleep (.obj (.mutex m)) ab)
    (h : s.1.mainStatus u ≠ .deleted) : s'.1.mainStatus u ≠ .deleted := by
  have hx : ∀ t, ph t = .entering → NoOne t := fun t ht => absurd ht (he t)
  -- whatever is done to other queues
  have hother : ∀ {q k'}, q ≠ .mutex m → Moves (· = .obj q) NoOne s.1 k' →
      k'.mainStatus u ≠ .deleted := by
    intro q k' hq hm
    have hp := hk u
    rw [hu] at hp
    obtain ⟨n, hn⟩ := hp
    have hwb : k'.wb (u, .main) = s.1.wb (u, .main) := by
      refine hm.wb hk hx fun w hw e => ?_
      have hmain := hn.main
      have hnone : n .main = none := hn.not_notified (by rw [hw]; exact Option.some_ne_none _)
      rw [hnone] at hmain
      rw [hmain.1] at hw
      exact hq (Wtbl.obj.inj (e.symm.trans (Option.some.inj hw).symm))
    rw [mainStatus_congr hwb]
    exact h
  have hrelease : ∀ me m' policy,
      (fxMutexReleaseWithPolicy checks me m' policy s).2.1.mainStatus u ≠ .deleted := by
    intro me m' policy
    rcases fxMutexReleaseWithPolicy_status checks me m' policy s u with e | e
    · exact fun e' => h (e.symm.trans e')
    · exact fun e' => absurd (e.symm.trans e') nofun
  have hall : ∀ {q : SyncQ M V X} {r : WaitStatus}, r = .satisfied ∨ r = .deleted →
      Moves (· = .obj q) NoOne s.1 (fxSyncWaitNotifyAll s.1 (.obj q) r) := fun hr => by
    refine Moves.notifyAll ?_ hr s.1
    rfl
  have hcond : ∀ v : V, SyncQ.cond (X := X) v ≠ .mutex m := fun _ => nofun
  have hsignal : ∀ v policy, (condSignal checks v policy s).1.mainStatus u ≠ .deleted := by
    intro v policy
    unfold condSignal
    split
    · exact h
    · unfold fxCondSignalWithPolicy
      split
      · rename_i wb hget
        exact hother (hcond v) (Moves.wake hget rfl (Or.inl rfl))
      · exact h
  cases op with
  | releaseWithPolicy me m' policy =>
    obtain ⟨_, rfl⟩ := taken hr
    exact hrelease me m' policy
  | release me m' =>
    obtain ⟨_, rfl⟩ := taken hr
    exact hrelease me m' _
  | deinit m' => exact absurd rfl (hd m')
  | signalWithPolicy v policy =>
    cases hr
    exact hsignal v policy
  | signal v =>
    cases hr
    exact hsignal v _
  | broadcast v =>
    cases hr
    split
    · exact h
    · exact hother (hcond v) (hall (Or.inl rfl))
  | condDeinit v =>
    cases hr
    split
    · exact h
    · exact hother (hcond v) (hall (Or.inr rfl))
  | otherSet x value =>
    cases hr
    exact h
  | otherNotify x wb reason =>
    obtain ⟨⟨hb, hreason⟩, rfl⟩ := taken hr
    have hm : Moves (· = .obj (.other x)) NoOne s.1 (fxSyncWaitNotify s.1 reason wb) :=
      Moves.refl.notify hb rfl not_false hreason
    exact hother (fun e => by cases e) hm

end Warten

/-! ## 3. The runs -/

section Lauf

variable {cfg : Config T} {checks : Bool} {s s' : MutexSys T E M V X} {t : T} {m : M} {v : V}
  {depth : Nat} {accepted : Bool} {args : WaitArgs E} {res r : ThreadStatus}
  {a : Act T E (MutexCall M V X E) (MutexOp T M V X)}

/-- A thread that holds the mutex is its owner, at a depth of one less. -/
theorem Ledger.owner_of_held (hl : Ledger s.obj s.granted (IsGone s.pc)) (hgone : s.pc t ≠ .gone)
    (hg : s.granted t = none) (hh : s.obj.hist.held t m = depth + 1) :
    (s.obj.mutex m).owner = some t ∧ (s.obj.mutex m).recursiveLocks = depth := by
  have he := hl.eq t hgone m
  rw [hg, hh] at he
  by_cases ho : (s.obj.mutex m).owner = some t
  · rw [depth_owner ho] at he
    exact ⟨ho, (Nat.succ.inj he).symm⟩
  · rw [depth_other ho] at he
    cases he

/-- The test of the condition variable releases the mutex once. -/
theorem fxCondTestAndWait_released (st : MutexState T E M V X) (checks wait : Bool) (v : V)
    (hattr : (st.1.wb (t, .main)).u.getAttr = some m) (ho : (st.2.mutex m).owner = some t)
    (hv : (st.2.mutex m).valid = true) :
    (fxCondTestAndWait checks v t wait st).2.2.hist.held t m = st.2.hist.held t m - 1 := by
  unfold fxCondTestAndWait
  rw [hattr]
  show (fxMutexReleaseWithPolicy checks t m _ (_, st.2)).2.2.hist.held t m = _
  unfold fxMutexReleaseWithPolicy
  dsimp only
  rw [hv, if_neg fun h => h.2 ho, if_neg fun h => Bool.noConfusion h.2, fxMutexReleaseLocked_held,
    release_held, if_pos ⟨rfl, rfl⟩]

/-- A wait for a mutex without abort event that was woken up, and not by deletion, ends with OK. -/
theorem leave_ok {k : MutexKern T E M V X} {w : Wtbl T E (SyncQ M V X)}
    (h : PhaseOk k t (.asleep w none)) (hr : k.state t = .ready) (hd : k.mainStatus t ≠ .deleted) :
    (fxThreadWaitObjectLeave k t).1 = .ok := by
  rw [leave_ok_iff h]
  obtain ⟨n, hn⟩ := h
  have habort : n .abort = none := by
    have := hn.abort
    cases hna : n .abort with
    | none => rfl
    | some q =>
      rw [hna] at this
      cases this.2
  have hst := hn.state
  rw [hr] at hst
  have hm := hn.main
  cases hmain : n .main with
  | none =>
    rw [if_pos ⟨hmain, habort⟩] at hst
    cases hst
  | some q =>
    rw [hmain] at hm
    have hq : (k.wb (t, .main)).u.getStatus = q := by rw [hm.1]; rfl
    rcases hn.reason .main q hmain with rfl | rfl
    · exact hq
    · exact absurd hq hd

/-- A call just made. -/
theorem WaitOk.called {c c' : MutexCall M V X E} {k : MutexKern T E M V X}
    (hl : Ledger s.obj s.granted (IsGone s.pc)) (hpc : s.pc t = .idle)
    (hv : ∀ m, (s.obj.mutex m).valid = true)
    (hs : fxMutexStart cfg.checks s.kern s.obj t c = some c') :
    WaitOk k s.obj t (.inCall (firstStage cfg (fxMutex checks) s.kern c') c') := by
  cases c with
  | acquire m args =>
    change (if _ then none else some _) = _ at hs
    obtain ⟨_, hs⟩ := Option.ite_none_left_eq_some.mp hs
    cases hs
    exact WaitOk.plain _ trivial
  | condWait v m args depth accepted =>
    obtain ⟨hc, hs⟩ := Option.ite_none_left_eq_some.mp hs
    cases hs
    have ho : (s.obj.mutex m).owner = some t := by
      by_contra hne
      refine hc (Or.inr ?_)
      unfold fxMutexGetOwner
      rw [hv, if_neg fun h => Bool.noConfusion h.2]
      exact hne
    have hg : s.granted t = none := by
      unfold Sys.granted
      rw [hpc]
      rfl
    have he := hl.eq t (by unfold IsGone; rw [hpc]; intro h; cases h) m
    rw [hg, depth_owner ho] at he
    exact WaitOk.first rfl (firstStage_cond rfl rfl he)
  | reacquire m res depth accepted => cases hs
  | other x args =>
    cases hs
    exact WaitOk.plain _ trivial

/-- A step that runs no code of the object. -/
theorem WaitOk.quiet (hw : WellFormed (fxMutex checks) s) (hc : checks = cfg.checks)
    (hl : Ledger s.obj s.granted (IsGone s.pc)) (hv : ∀ m, (s.obj.mutex m).valid = true)
    (h : ∀ u, WaitOk s.kern s.obj u (s.pc u)) (hq : Quiet cfg (fxMutex checks) a s s' t) (u : T) :
    WaitOk s'.kern s'.obj u (s'.pc u) := by
  subst hc
  rw [hq.obj]
  have hstay : s'.pc u = s.pc u → ((∀ w, (s.kern.wb (u, .main)).waitable = some w → ¬ IsEv w) →
      s'.kern.wb (u, .main) = s.kern.wb (u, .main)) → WaitOk s'.kern s.obj u (s'.pc u) := by
    intro hpc hwb
    rw [hpc]
    refine (h u).stay rfl fun ab m res depth accepted hp hs => ?_
    rw [mainStatus_congr (hwb (asleep_notEv (fxMutex_isObj cfg.checks) hw hp))]
    exact hs
  by_cases hut : u = t
  swap
  · exact hstay (hq.pc u hut) (hq.wb u hut)
  subst hut
  have hu := h u
  cases hq.move with
  | stay h hwb => exact hstay h hwb
  | init _ h' _ => rw [h']; exact ⟨trivial, trivial⟩
  | call _ hpc hs h' => rw [h']; exact WaitOk.called hl hpc hv hs
  | @reset c hpc h' =>
    rw [hpc] at hu
    rw [h']
    cases c with
    | condWait v m args depth accepted => exact WaitOk.first rfl hu.cond
    | reacquire m res depth accepted => exact hu.reacq.elim
    | acquire m args => exact WaitOk.plain _ trivial
    | other x args => exact WaitOk.plain _ trivial
  | @arm c hpc h' =>
    rw [hpc] at hu
    rw [h']
    cases c with
    | condWait v m args depth accepted => exact WaitOk.first rfl hu.cond
    | reacquire m res depth accepted => exact hu.reacq.elim
    | acquire m args => exact WaitOk.plain _ trivial
    | other x args => exact WaitOk.plain _ trivial
  | @leave ab c hpc hr h' =>
    rw [hpc] at hu
    rw [h']
    cases c with
    | condWait v m args depth accepted =>
      obtain ⟨rfl, hheld⟩ := hu.cond
      exact WaitOk.first rfl (afterWait_cond rfl ab hheld)
    | reacquire m res depth accepted =>
      obtain ⟨rfl, hd⟩ := hu.reacq
      have hp := hw.phases u
      rw [Sys.phases, hpc] at hp
      exact ⟨hu.cond, leave_ok hp hr hd⟩
    | acquire m args => exact WaitOk.plain _ trivial
    | other x args => exact WaitOk.plain _ trivial
  | @disarm r c hpc h' =>
    rw [hpc] at hu
    rw [h']
    cases c with
    | condWait v m args depth accepted =>
      obtain ⟨rfl, hheld⟩ := hu.cond
      exact WaitOk.first rfl hheld
    | reacquire m res depth accepted => exact hu.reacq.elim
    | acquire m args => exact WaitOk.plain _ trivial
    | other x args => exact WaitOk.plain _ trivial
  | gone _ h' => rw [h']; exact ⟨trivial, trivial⟩

/-- Entering a wait, for the thread that does. -/
theorem WaitOk.enter (hw : WellFormed (fxMutex checks) s)
    (hl : Ledger s.obj s.granted (IsGone s.pc)) (hv : ∀ m, (s.obj.mutex m).valid = true)
    {c : MutexCall M V X E} {ab : Option (Ev T E)} {k : MutexKern T E M V X}
    {r : Option ThreadStatus} (h : WaitOk s.kern s.obj t (.inCall (.enter ab) c))
    (hpc : s.pc t = .inCall (.enter ab) c) (hr : s.kern.state t = .ready)
    (he : Entered t ab
      (fxMutexTest checks t true (fxSyncWaiterPrepare s.kern t c.attr, s.obj) c) r k) :
    WaitOk k (fxMutexTest checks t true (fxSyncWaiterPrepare s.kern t c.attr, s.obj) c).2.2 t
      (.inCall (r.elim (.asleep ab) (afterWait ab)) c) := by
  have hph : s.phases (fxMutex checks) t = .awake := by rw [Sys.phases, hpc]; rfl
  obtain ⟨hk1, hprep, _⟩ := prepare_kernOk hw.phases hph hr c.attr
  have hg : s.granted t = none := by
    unfold Sys.granted
    rw [hpc]
    rfl
  cases c with
  | acquire m args => exact WaitOk.plain _ trivial
  | other x args => exact WaitOk.plain _ trivial
  | condWait v m args depth accepted =>
    obtain ⟨rfl, hheld⟩ := h.cond
    obtain ⟨ho, _⟩ := hl.owner_of_held (not_gone hpc) hg hheld
    have hattr : ((fxSyncWaiterPrepare s.kern t (some m)).wb (t, .main)).u.getAttr = some m := by
      have hmain := hprep.main
      rw [show MutexCall.attr (.condWait v m args depth true) = some m from rfl] at hmain
      rw [hmain]
      rfl
    have hrel := fxCondTestAndWait_released (fxSyncWaiterPrepare s.kern t (some m), s.obj)
      checks true v hattr ho (hv m)
    have hheld' := hrel.trans (congrArg (· - 1) hheld)
    refine WaitOk.first rfl ?_
    rcases he.result with ⟨_, hp⟩ | ⟨rfl, _, _⟩ | ⟨rfl, _⟩
    · have hfalse := (fxCondTestAndWait_moves (s := (fxSyncWaiterPrepare s.kern t (some m), s.obj))
        checks v true hprep.awake).1
      exact absurd (hfalse.symm.trans hp) Bool.false_ne_true
    · exact afterWait_cond rfl ab hheld'
    · exact ⟨rfl, hheld'⟩
  | reacquire m res depth accepted =>
    have hab : ab = none := h.reacq
    subst hab
    constructor
    · refine (reacquire_held rfl).mpr ?_
      refine Eq.trans ?_ ((reacquire_held rfl).mp h.cond)
      exact congrFun (congrFun (fxMutexTestAndWait_held ..) t) m
    · cases he with
      | passed hp => exact rfl
      | cancelled hp e hab => cases hab
      | alone hp hab =>
        have ht := (fxMutex_lawful (X := X) (V := V) checks).tested
          (c := .reacquire m res depth accepted) (o := s.obj) hw.phases (phases_ne s) hw.ev hph hr
        refine ⟨rfl, fun e => ?_⟩
        have hmain := congrArg (·.u.getStatus) (ht.queued hp).main
        cases hmain.symm.trans e
      | both hp e hab => cases hab

/-- A test without waiting, for the thread that makes it. -/
theorem WaitOk.poll
    (hl : Ledger s.obj s.granted (IsGone s.pc)) (hv : ∀ m, (s.obj.mutex m).valid = true)
    {c : MutexCall M V X E} (h : WaitOk s.kern s.obj t (.inCall .poll c))
    (hpc : s.pc t = .inCall .poll c) (r : ThreadStatus) :
    let p := fxMutexTest checks t false (fxSyncWaitBlockInit s.kern t c.attr, s.obj) c
    WaitOk p.2.1 p.2.2 t (.inCall (.ret r) c) := by
  intro p
  have hg : s.granted t = none := by
    unfold Sys.granted
    rw [hpc]
    rfl
  cases c with
  | acquire m args => exact WaitOk.plain _ trivial
  | other x args => exact WaitOk.plain _ trivial
  | condWait v m args depth accepted =>
    obtain ⟨rfl, hheld⟩ := h.cond
    obtain ⟨ho, _⟩ := hl.owner_of_held (not_gone hpc) hg hheld
    have hattr : ((fxSyncWaitBlockInit s.kern t (some m)).wb (t, .main)).u.getAttr = some m := by
      show (update s.kern.wb _ _ _).u.getAttr = _
      rw [Function.update_self]
      rfl
    have hrel := fxCondTestAndWait_released (fxSyncWaitBlockInit s.kern t (some m), s.obj)
      checks false v hattr ho (hv m)
    exact WaitOk.first rfl (hrel.trans (congrArg (· - 1) hheld))
  | reacquire m res depth accepted => exact h.reacq.elim

variable (cfg) in
/-- The end of a wait, for the thread that returns from it. -/
theorem WaitOk.after (hv : ∀ m, (s.obj.mutex m).valid = true) {c : MutexCall M V X E}
    {p : Pc T E (MutexCall M V X E)} {q : Option (MutexCall M V X E) × MutexState T E M V X}
    (h : WaitOk s.kern s.obj t (.inCall (.ret r) c))
    (hq : fxMutexEnd checks t r (s.kern, s.obj) c = q) (hnone : q.1 = none → p = .idle)
    (hsome : ∀ c', q.1 = some c' → p = .inCall (firstStage cfg (fxMutex checks) q.2.1 c') c') :
    WaitOk q.2.1 q.2.2 t p := by
  cases c with
  | condWait v m args depth accepted =>
    have hq' : q = (some (.reacquire m r depth accepted), s.kern, s.obj) :=
      hq.symm.trans (if_neg fun h => Bool.noConfusion ((hv m).symm.trans h.2))
    subst hq'
    rw [hsome _ rfl]
    exact ⟨h.cond, rfl⟩
  | _ =>
    rw [hnone (congrArg (·.1) hq).symm]
    exact ⟨trivial, trivial⟩

/-- **One step keeps what the waits hold.** -/
theorem WaitOk.step (hc : checks = cfg.checks) (hw : WellFormed (fxMutex checks) s)
    (hl : Ledger s.obj s.granted (IsGone s.pc)) (hv : ∀ m, (s.obj.mutex m).valid = true)
    (h : ∀ u, WaitOk s.kern s.obj u (s.pc u)) (hg : NoDeinit s a)
    (hs : step cfg (fxMutex checks) a s = some s') (u : T) : WaitOk s'.kern s'.obj u (s'.pc u) := by
  cases (step_case (fxMutex_lawful checks) hw hs).1 with
  | quiet t hq => exact WaitOk.quiet hw hc hl hv h hq u
  | enter t c ab r k ha hpc hr he hs =>
    rw [hs]
    show WaitOk k _ u (update s.pc t _ u)
    by_cases hut : u = t
    · subst hut
      rw [Function.update_self]
      exact WaitOk.enter hw hl hv (hpc ▸ h u) hpc hr he
    · rw [Function.update_of_ne hut]
      refine (h u).stay (fxMutexTest_held checks true _ c hut) fun _ _ _ _ _ _ hd => ?_
      rw [mainStatus_congr ((he.view hut).wb .main)]
      refine fxMutexTest_status checks true _ c hut ?_
      rw [mainStatus_congr ((prepare_view (Ne.symm hut) _).wb .main)]
      exact hd
  | poll t c p ha hpc hr hp hs =>
    subst hp
    rw [hs]
    show WaitOk _ _ u (update s.pc t _ u)
    by_cases hut : u = t
    · subst hut
      rw [Function.update_self]
      exact WaitOk.poll hl hv (hpc ▸ h u) hpc _
    · rw [Function.update_of_ne hut]
      refine (h u).stay (fxMutexTest_held checks false _ c hut) fun _ _ _ _ _ _ hd => ?_
      refine fxMutexTest_status checks false _ c hut ?_
      rw [mainStatus_congr (Function.update_of_ne (fun e => hut (congrArg Prod.fst e)) ..)]
      exact hd
  | after t c r ha hpc hr hs =>
    rw [hs]
    show WaitOk _ _ u (update s.pc t _ u)
    by_cases hut : u = t
    · subst hut
      rw [Function.update_self]
      exact WaitOk.after cfg hv (hpc ▸ h u) rfl (fun e => by rw [e]) fun c' e => by rw [e]
    · rw [Function.update_of_ne hut]
      refine (h u).stay (fxMutexEnd_held checks r (s.kern, s.obj) c hut) fun _ _ _ _ _ _ hd => ?_
      rw [show ((fxMutex checks).after t c r (s.kern, s.obj)).2.1 = s.kern from
        fxMutexEnd_kern checks t r (s.kern, s.obj) c]
      exact hd
  | op p ko ha hcaller ho hs =>
    rw [hs]
    show WaitOk ko.1 ko.2 u (s.pc u)
    by_cases hu : u ∈ p.caller
    · rw [(hcaller u hu).pc]
      exact ⟨trivial, trivial⟩
    · refine (h u).stay (MutexOp.run_held ho hu) fun ab m res depth accepted hpc hd => ?_
      have hph : s.phases (fxMutex checks) u = .asleep (.obj (.mutex m)) ab := by
        rw [Sys.phases, hpc]
        rfl
      refine MutexOp.run_status hw.phases (phases_ne s) ho (fun m' hm => ?_) hph hd
      subst hm
      subst ha
      exact hg

/-- What holds in every run without deinitialisation of a mutex. -/
structure CondOk (s : MutexSys T E M V X) : Prop where
  ledger : Ledger s.obj s.granted (IsGone s.pc)
  valid : ∀ m, (s.obj.mutex m).valid = true
  wait : ∀ u, WaitOk s.kern s.obj u (s.pc u)

/-- The stages of a wait before the test of the object is run. -/
def Stage.untested : Stage T E → Prop
  | .reset => True
  | .arm => True
  | .enter _ => True
  | .poll => True
  | _ => False

/-- Until the test is run the thread owns the mutex, as deep as it did when it made the call. -/
theorem CondOk.before (h : CondOk s) {stage : Stage T E}
    (hpc : s.pc t = .inCall stage (.condWait v m args depth accepted)) (hst : stage.untested) :
    (s.obj.mutex m).owner = some t ∧ (s.obj.mutex m).recursiveLocks = depth := by
  have hg : s.granted t = none := by
    unfold Sys.granted
    rw [hpc]
    cases stage <;> first | rfl | exact hst.elim
  refine h.ledger.owner_of_held (not_gone hpc) hg ?_
  have hc := (h.wait t).cond
  rw [hpc] at hc
  cases stage <;> first | exact hc.2 | exact hst.elim

theorem Stage.tests.untested {stage : Stage T E} (h : stage.tests) : stage.untested := by
  cases stage with
  | enter ab => trivial
  | poll => trivial
  | _ => exact h.elim

theorem CondOk.step (hw : WellFormed (fxMutex cfg.checks) s) (h : CondOk s) (hg : NoDeinit s a)
    (hs : step cfg (fxMutex cfg.checks) a s = some s') : CondOk s' where
  ledger := h.ledger.step hw (fun _ _ _ _ _ _ _ hpc hst => Or.inr (h.before hpc hst.untested).1) hs
  valid m := ((step_conf hw hg hs m).2.2).trans (h.valid m)
  wait := WaitOk.step rfl hw h.ledger h.valid h.wait hg hs

theorem condOk_reach {ceiling : M → Option Nat} {policies : M → SyncPolicy}
    {condPolicies : V → SyncPolicy}
    (h : Reach (step cfg (fxMutex cfg.checks)) NoDeinit
      (boot cfg (mutexBoot (cfg.prioNum - 1) ceiling policies condPolicies)) s) : CondOk s := by
  refine Reach.inv_of (J := CondOk) (fun _ hr => reach_wellFormed (fxMutex_lawful _) hr) ?_
    (fun _ _ _ hw hj hg hs => hj.step hw hg hs) h
  exact ⟨⟨fun _ _ => rfl, fun _ _ _ => rfl⟩, fun _ => rfl, fun _ => ⟨trivial, trivial⟩⟩

/-! ## 4. What a wait leaves of the mutex -/

/-- A call of a wait under way: the wait on the condition variable, or the one for the mutex. -/
def InWait (s : MutexSys T E M V X) (t : T) (m : M) (depth : Nat) (accepted : Bool) : Prop :=
  s.pc t = .gone ∨ (∃ stage v args, s.pc t = .inCall stage (.condWait v m args depth accepted)) ∨
    ∃ stage res, s.pc t = .inCall stage (.reacquire m res depth accepted)

/-- A wait stays the same wait until it returns. -/
theorem InWait.step (hw : WellFormed (fxMutex checks) s) (hv : ∀ m, (s.obj.mutex m).valid = true)
    (h : InWait s t m depth accepted) (hs : step cfg (fxMutex checks) a s = some s') :
    InWait s' t m depth accepted ∨ s'.pc t = .idle ∧
      ∃ r res, a = .go t ∧ s.pc t = .inCall (.ret r) (.reacquire m res depth accepted) := by
  have hcase := (step_case (fxMutex_lawful checks) hw hs).1
  rcases h with hpc | ⟨stage, v, args, hpc⟩ | ⟨stage, res, hpc⟩
  · exact Or.inl (Or.inl (gone_stays (fxMutex_lawful checks) hw hs hpc))
  · refine Or.inl ?_
    rcases hcase.callAfter hpc with h | ⟨stage', h⟩ | ⟨r, rfl, rfl⟩
    · exact Or.inl h
    · exact Or.inr (Or.inl ⟨stage', v, args, h⟩)
    · refine Or.inr (Or.inr ?_)
      have hend : fxMutexEnd checks t r (s.kern, s.obj) (.condWait v m args depth accepted) =
          (some (.reacquire m r depth accepted), s.kern, s.obj) :=
        if_neg fun h => Bool.noConfusion ((hv m).symm.trans h.2)
      rw [step_ret hpc hs, advance_next hend]
      exact ⟨_, r, Function.update_self ..⟩
  · rcases hcase.callAfter hpc with h | ⟨stage', h⟩ | ⟨r, rfl, rfl⟩
    · exact Or.inl (Or.inl h)
    · exact Or.inl (Or.inr (Or.inr ⟨stage', res, h⟩))
    · refine Or.inr ⟨?_, r, res, rfl, hpc⟩
      rw [step_ret hpc hs]
      exact Function.update_self ..

/-- The return from a wait. -/
theorem CondOk.returned (hw : WellFormed (fxMutex cfg.checks) s) (h : CondOk s)
    (hpc : s.pc t = .inCall (.ret r) (.reacquire m res depth accepted))
    (hs : FxRtos.step cfg (fxMutex cfg.checks) (.go t) s = some s') :
    (s'.obj.mutex m).owner = some t ∧
      (s'.obj.mutex m).recursiveLocks = if accepted then depth else depth + 1 := by
  have hwait := h.wait t
  rw [hpc] at hwait
  have hok : r = .ok := hwait.reacq
  subst hok
  have h' := h.step hw (show NoDeinit s (.go t) from trivial) hs
  have hs' := step_ret hpc hs
  refine h'.ledger.owner_of_held ?_ ?_ ?_
  · rw [hs']
    show update s.pc t _ t ≠ _
    rw [Function.update_self]
    exact nofun
  · rw [hs']
    show (update s.pc t _ t).granted _ t = none
    rw [Function.update_self]
    rfl
  · rw [hs']
    show (s.obj.hist.acquired t m).held t m = _
    rw [acquired_held, if_pos ⟨rfl, rfl⟩, (reacquire_held rfl).mp hwait.cond]

/-- A wait that was started. -/
theorem condWait_start {k : MutexKern T E M V X} {o : MutexWorld T M V X} {c : MutexCall M V X E}
    {d : Nat} {b : Bool}
    (h : fxMutexStart checks k o t (.condWait v m args d b) = some c) :
    c = .condWait v m args (o.mutex m).recursiveLocks (args.accepted checks k) :=
  (Option.some.inj (Option.ite_none_left_eq_some.mp h).2).symm

/-- **A wait on a condition variable leaves the mutex as it found it** exactly if its arguments are
    accepted. -/
theorem condWait_returns {ceiling : M → Option Nat} {policies : M → SyncPolicy}
    {condPolicies : V → SyncPolicy} {s0 s1 : MutexSys T E M V X}
    (h0 : Reach (step cfg (fxMutex cfg.checks)) NoDeinit
      (boot cfg (mutexBoot (cfg.prioNum - 1) ceiling policies condPolicies)) s0)
    (hcall : step cfg (fxMutex cfg.checks) (.call t (.condWait v m args 0 false)) s0 = some s1) :
    -- the checks reject the call at once
    (¬ s1.Calling t → s1 = s0) ∧
    -- any other call, when it returns
    ∀ s2 s3, Reach (step cfg (fxMutex cfg.checks)) (fun s a => NoDeinit s a ∧ s.Calling t) s1 s2 →
      step cfg (fxMutex cfg.checks) (.go t) s2 = some s3 → s3.pc t = .idle →
      ((s3.obj.mutex m).owner = some t ∧
          (s3.obj.mutex m).recursiveLocks = (s0.obj.mutex m).recursiveLocks ↔
        args.accepted cfg.checks s0.kern = true) := by
  have hlawful := fxMutex_lawful (T := T) (E := E) (M := M) (V := V) (X := X) cfg.checks
  have h1 : Reach (step cfg (fxMutex cfg.checks)) NoDeinit
      (boot cfg (mutexBoot (cfg.prioNum - 1) ceiling policies condPolicies)) s1 :=
    .next _ h0 (show NoDeinit s0 (.call t _) from trivial) hcall
  refine ⟨fun hn => ?_, fun s2 s3 hrun hs hidle => ?_⟩
  · rcases step_call hcall with ⟨_, e⟩ | ⟨c, _, e⟩
    · exact e
    · refine absurd (calling_iff.mpr ?_) hn
      rw [e]
      exact ⟨_, c, Function.update_self ..⟩
  · -- from the call on the wait is the same one
    have hsame : Reach (step cfg (fxMutex cfg.checks)) NoDeinit
        (boot cfg (mutexBoot (cfg.prioNum - 1) ceiling policies condPolicies)) s2 ∧
        (s2.Calling t → InWait s2 t m (s0.obj.mutex m).recursiveLocks
          (args.accepted cfg.checks s0.kern)) := by
      refine Reach.inv (J := fun s => Reach (step cfg (fxMutex cfg.checks)) NoDeinit
        (boot cfg (mutexBoot (cfg.prioNum - 1) ceiling policies condPolicies)) s ∧
        (s.Calling t → InWait s t m (s0.obj.mutex m).recursiveLocks
          (args.accepted cfg.checks s0.kern))) ?_ (fun s a s' hj hg hs => ?_) hrun
      · refine ⟨h1, fun hc => ?_⟩
        rcases step_call hcall with ⟨_, e⟩ | ⟨c, hstart, e⟩
        · rw [e] at hc
          obtain ⟨_, _, hpc⟩ := calling_iff.mp hc
          rw [step_call_idle hcall] at hpc
          cases hpc
        · have hc' := condWait_start (d := 0) (b := false) hstart
          subst hc' e
          exact Or.inr (Or.inl ⟨_, v, args, Function.update_self ..⟩)
      · obtain ⟨hr, hin⟩ := hj
        have hr' := Reach.next a hr hg.1 hs
        refine ⟨hr', fun hc => ?_⟩
        rcases InWait.step (reach_wellFormed hlawful hr) (condOk_reach hr).valid (hin hg.2) hs with
          h | ⟨hpc, _⟩
        · exact h
        · obtain ⟨_, _, hpc'⟩ := calling_iff.mp hc
          rw [hpc] at hpc'
          cases hpc'
    obtain ⟨hr, hin⟩ := hsame
    have hok := condOk_reach hr
    have hw := reach_wellFormed hlawful hr
    rcases InWait.step hw hok.valid (hin (calling_of_go hs)) hs with h | ⟨_, r, res, _, hpc⟩
    · rcases h with h | ⟨_, _, _, h⟩ | ⟨_, _, h⟩ <;> rw [hidle] at h <;> cases h
    · obtain ⟨howner, hrec⟩ := hok.returned hw hpc hs
      rw [hrec]
      cases hacc : args.accepted cfg.checks s0.kern with
      | true => exact iff_of_true ⟨howner, rfl⟩ rfl
      | false => exact iff_of_false (fun h => absurd h.2 (Nat.succ_ne_self _)) nofun

end Lauf

abbrev OneMutexSys := MutexSys (Fin 3) Unit Unit Unit Unit

abbrev OneMutexAct :=
  Act (Fin 3) Unit (MutexCall Unit Unit Unit Unit) (MutexOp (Fin 3) Unit Unit Unit)

/-- One mutex and one condition variable, for the threads 0 and 1. -/
def oneMutexCfg : Config (Fin 3) := ⟨true, 8, 2⟩

def oneMutexStep : OneMutexAct → OneMutexSys → Option OneMutexSys :=
  step oneMutexCfg (fxMutex oneMutexCfg.checks)

def oneMutexBoot : OneMutexSys :=
  boot oneMutexCfg (mutexBoot (oneMutexCfg.prioNum - 1) (fun _ => none) (fun _ => .fifo)
    fun _ => .fifo)

/-- Thread 0 acquires the mutex, waits with `timeout`, runs through `acts` and returns. -/
def waitOnce (timeout : BitVec 32) (acts : List OneMutexAct)
    (p : OneMutexSys → OneMutexSys → Bool) : Bool :=
  (runIf (fun s a => decide (NoDeinit s a)) oneMutexStep
    [.init 0 5 false, .call 0 (.acquire () (.event none)), .go 0, .go 0] oneMutexBoot).any fun s0 =>
  (oneMutexStep (.call 0 (.condWait () () (.timeout timeout) 0 false)) s0).any fun s1 =>
  (runIf (fun s a => decide (NoDeinit s a ∧ s.Calling 0)) oneMutexStep acts s1).any fun s2 =>
  (oneMutexStep (.go 0) s2).any fun s3 => p s0 s3

theorem waitOnce_runs {timeout : BitVec 32} {acts : List OneMutexAct}
    {p : OneMutexSys → OneMutexSys → Bool} (h : waitOnce timeout acts p = true) :
    ∃ s0 s1 s2 s3, Reach oneMutexStep NoDeinit oneMutexBoot s0 ∧
      oneMutexStep (.call 0 (.condWait () () (.timeout timeout) 0 false)) s0 = some s1 ∧
      Reach oneMutexStep (fun s a => NoDeinit s a ∧ s.Calling 0) s1 s2 ∧
      oneMutexStep (.go 0) s2 = some s3 ∧ p s0 s3 = true := by
  obtain ⟨s0, h0, h⟩ := exists_of_runIf (G := NoDeinit) (fun _ _ hg => of_decide_eq_true hg) h
  obtain ⟨s1, h1, h⟩ := (Option.any_eq_true ..).mp h
  obtain ⟨s2, h2, h⟩ := exists_of_runIf (G := fun s a => NoDeinit s a ∧ s.Calling 0)
    (fun _ _ hg => of_decide_eq_true hg) h
  obtain ⟨s3, h3, h⟩ := (Option.any_eq_true ..).mp h
  exact ⟨s0, s1, s2, s3, h0, h1, h2, h3, h⟩

/-- A wait that times out. -/
theorem condWait_returns_timeout :
    ∃ s0 s1 s2 s3, Reach oneMutexStep NoDeinit oneMutexBoot s0 ∧
      oneMutexStep (.call 0 (.condWait () () (.timeout 9) 0 false)) s0 = some s1 ∧
      Reach oneMutexStep (fun s a => NoDeinit s a ∧ s.Calling 0) s1 s2 ∧
      oneMutexStep (.go 0) s2 = some s3 ∧ (s3.obj.mutex ()).owner = some 0 ∧
      (s3.obj.mutex ()).recursiveLocks = (s0.obj.mutex ()).recursiveLocks := by
  have h : waitOnce 9 [.go 0, .go 0, .go 0, .expire 0, .go 0, .go 0, .go 0, .go 0]
      (fun _ s3 => s3.Free 0) = true := by
    decide +kernel
  obtain ⟨s0, s1, s2, s3, h0, h1, h2, h3, hp⟩ := waitOnce_runs h
  exact ⟨s0, s1, s2, s3, h0, h1, h2, h3,
    ((condWait_returns h0 h1).2 s2 s3 h2 h3 (of_decide_eq_true hp).pc).mpr rfl⟩

/-- **A wait that is rejected leaves the mutex acquired once more.** -/
theorem condWait_rejected :
    ∃ s0 s1 s2 s3, Reach oneMutexStep NoDeinit oneMutexBoot s0 ∧
      (s0.obj.mutex ()).owner = some 0 ∧ (s0.obj.mutex ()).recursiveLocks = 0 ∧
      oneMutexStep (.call 0 (.condWait () () (.timeout 0x80000000) 0 false)) s0 = some s1 ∧
      Reach oneMutexStep (fun s a => NoDeinit s a ∧ s.Calling 0) s1 s2 ∧
      oneMutexStep (.go 0) s2 = some s3 ∧ s3.obj.hist.status 0 = some .invalidTimeout ∧
      (s3.obj.mutex ()).owner = some 0 ∧ (s3.obj.mutex ()).recursiveLocks = 1 := by
  have h : waitOnce 0x80000000 [.go 0, .go 0] (fun s0 s3 => (s0.obj.mutex ()).owner = some 0 ∧
      (s0.obj.mutex ()).recursiveLocks = 0 ∧ s3.obj.hist.status 0 = some .invalidTimeout ∧
      (s3.obj.mutex ()).owner = some 0 ∧ (s3.obj.mutex ()).recursiveLocks = 1) = true := by
    decide +kernel
  obtain ⟨s0, s1, s2, s3, h0, h1, h2, h3, hp⟩ := waitOnce_runs h
  obtain ⟨ho, hr, hst, ho', hr'⟩ := of_decide_eq_true hp
  exact ⟨s0, s1, s2, s3, h0, ho, hr, h1, h2, h3, hst, ho', hr'⟩

/-! ## 5. Signals are not lost -/

/-- Who calls a wait, and the mutex. -/
def waitMutex : Act T E (MutexCall M V X E) (MutexOp T M V X) → Option (T × M)
  | .call t (.condWait _ m _ _ _) => some (t, m)
  | _ => none

/-- Mutexes are not deinitialised, and a thread that calls a wait has acquired the mutex once. -/
def WaitShallow (s : MutexSys T E M V X) (a : Act T E (MutexCall M V X E) (MutexOp T M V X)) :
    Prop :=
  NoDeinit s a ∧ ∀ p ∈ waitMutex a,
    (s.obj.mutex p.2).owner = some p.1 → (s.obj.mutex p.2).recursiveLocks = 0

instance (s : MutexSys T E M V X) (a : Act T E (MutexCall M V X E) (MutexOp T M V X)) :
    Decidable (WaitShallow s a) :=
  inferInstanceAs (Decidable (_ ∧ _))

section Signale

variable {cfg : Config T} {checks : Bool} {s s' : MutexSys T E M V X} {t : T} {m : M} {v : V}
  {depth : Nat} {accepted : Bool} {args : WaitArgs E}
  {a : Act T E (MutexCall M V X E) (MutexOp T M V X)}

/-- The waits on condition variables were called with the mutex acquired once. -/
def Shallow (pc : T → Pc T E (MutexCall M V X E)) : Prop :=
  ∀ t stage v m args depth accepted, pc t = .inCall stage (.condWait v m args depth accepted) →
    depth = 0

theorem Shallow.step (hw : WellFormed (fxMutex checks) s)
    (hv : ∀ m, (s.obj.mutex m).valid = true) (h : Shallow s.pc) (hg : WaitShallow s a)
    (hs : step cfg (fxMutex checks) a s = some s') : Shallow s'.pc := by
  intro t stage v m args depth accepted hpc
  rcases (step_case (fxMutex_lawful checks) hw hs).1.callBefore hpc with
    ⟨c, rfl, _, hstart⟩ | ⟨stage0, hpc0⟩ | ⟨r, c, _, hend⟩
  · cases c with
    | condWait v' m' args' d b =>
      obtain ⟨hcond, hc⟩ := Option.ite_none_left_eq_some.mp hstart
      cases hc
      refine hg.2 (t, m) rfl ?_
      by_contra hne
      refine hcond (Or.inr ?_)
      unfold fxMutexGetOwner
      rw [hv, if_neg fun h => Bool.noConfusion h.2]
      exact hne
    | acquire m' args' =>
      cases (Option.ite_none_left_eq_some.mp hstart).2
    | reacquire m' res d b => cases hstart
    | other x args' => cases hstart
  · exact h t stage0 v m args depth accepted hpc0
  · -- what follows a wait is the wait for the mutex
    cases c with
    | condWait v' m' args' d b =>
      change (fxMutexEnd checks t r (s.kern, s.obj) _).1 = _ at hend
      simp only [fxMutexEnd] at hend
      split at hend <;> cases hend
    | _ => cases hend

/-- **A waiter owns the mutex** exactly if it had acquired it more than once. -/
theorem CondOk.owner_iff (h : CondOk s) {ab : Option (Ev T E)}
    (hpc : s.pc t = .inCall (.asleep ab) (.condWait v m args depth accepted)) :
    (s.obj.mutex m).owner = some t ↔ depth ≠ 0 := by
  have he := h.ledger.eq t (not_gone hpc) m
  have hg : unreturned m (s.granted t) = 0 := by
    unfold Sys.granted
    rw [hpc]
    unfold Pc.granted unreturned
    dsimp only
    split
    · exact if_neg nofun
    · exact if_neg nofun
  have hc := (h.wait t).cond
  rw [hpc] at hc
  rw [hg, hc.2, Nat.add_zero] at he
  rw [he]
  by_cases ho : (s.obj.mutex m).owner = some t
  · rw [depth_owner ho]
    exact iff_of_true ho (Nat.succ_ne_zero _)
  · rw [depth_other ho]
    exact iff_of_false ho fun h => h rfl

/-- A block that is not queued any more was notified. -/
theorem asleep_queued {ab : Option (Ev T E)} {c : MutexCall M V X E}
    (hw : WellFormed (fxMutex checks) s) (hpc : s.pc t = .inCall (.asleep ab) c) :
    (t, .main) ∈ s.kern.wq (.obj c.queue) ∨ s.kern.state t = .ready ∧
      (s.kern.mainStatus t = .satisfied ∨ s.kern.mainStatus t = .deleted) := by
  have hp := hw.phases t
  rw [Sys.phases, hpc] at hp
  obtain ⟨n, hn⟩ := hp
  have hm := hn.main
  cases hmain : n .main with
  | none =>
    rw [hmain] at hm
    exact Or.inl ((hn.tied .main).mem_iff.mpr hm.1)
  | some r =>
    rw [hmain] at hm
    have hst : s.kern.mainStatus t = r := by
      unfold Kern.mainStatus
      rw [hm.1]
      rfl
    refine Or.inr ⟨?_, ?_⟩
    · rw [hn.state, if_neg fun h => by rw [hmain] at h; cases h.1]
    · rw [hst]
      exact hn.reason .main r hmain

/-- **The mutex is released and the wait begun at once**, in every run in which each wait is called
    with the mutex acquired once. -/
theorem condWait_atomic {ceiling : M → Option Nat} {policies : M → SyncPolicy}
    {condPolicies : V → SyncPolicy}
    (h : Reach (step cfg (fxMutex cfg.checks)) WaitShallow
      (boot cfg (mutexBoot (cfg.prioNum - 1) ceiling policies condPolicies)) s) :
    -- a thread whose block is queued does not own the mutex
    (∀ v b, b ∈ s.kern.wq (.obj (.cond v)) → ∃ ab m args accepted,
      s.pc b.1 = .inCall (.asleep ab) (.condWait v m args 0 accepted) ∧
      (s.obj.mutex m).owner ≠ some b.1) ∧
    -- until it gives the mutex up a thread owns it, and from then on its block is queued
    (∀ t stage v m args depth accepted,
      s.pc t = .inCall stage (.condWait v m args depth accepted) →
      (stage.untested → (s.obj.mutex m).owner = some t) ∧
      ∀ ab, stage = .asleep ab → (t, .main) ∈ s.kern.wq (.obj (.cond v)) ∨
        s.kern.state t = .ready ∧
          (s.kern.mainStatus t = .satisfied ∨ s.kern.mainStatus t = .deleted)) ∧
    -- while a block is queued a signal releases a waiter
    ∀ v policy, s.kern.wq (.obj (.cond v)) ≠ [] → ∃ wb c,
      s.kern.Selects (.obj (.cond v)) wb policy ∧
      fxCondSignalWithPolicy v policy s.kern = (.ok, fxSyncWaitNotify s.kern .satisfied wb) ∧
      (s.pc wb.1).granted (fxSyncWaitNotify s.kern .satisfied wb) wb.1 = some c := by
  have hreach := h.mono fun _ _ hg => hg.1
  have hw := reach_wellFormed (fxMutex_lawful cfg.checks) hreach
  have hok := condOk_reach hreach
  have hshallow : Shallow s.pc := by
    refine Reach.inv_of (J := fun s => Shallow s.pc) (fun _ hr => ?_) ?_
      (fun s a s' (hK : WellFormed (fxMutex cfg.checks) s ∧ CondOk s) hj hg hs =>
        Shallow.step hK.1 hK.2.valid hj hg hs) h
    · have hr' := hr.mono fun _ _ hg => hg.1
      exact ⟨reach_wellFormed (fxMutex_lawful cfg.checks) hr', condOk_reach hr'⟩
    · intro t stage v m args depth accepted hpc
      cases hpc
  have hcall : ∀ v b, b ∈ s.kern.wq (.obj (.cond v)) → b.2 = .main ∧ ∃ ab m args accepted,
      s.pc b.1 = .inCall (.asleep ab) (.condWait v m args 0 accepted) := by
    intro v b hb
    obtain ⟨hmain, ab, c, hpc, hc⟩ := call_of_mem hw.kern hb rfl
    refine ⟨hmain, ab, ?_⟩
    cases c with
    | condWait v' m args depth accepted =>
      cases Wtbl.obj.inj hc
      obtain rfl := hshallow _ _ _ _ _ _ _ hpc
      exact ⟨m, args, accepted, hpc⟩
    | _ => cases Wtbl.obj.inj hc
  refine ⟨fun v b hb => ?_, fun t stage v m args depth accepted hpc => ⟨fun hst => ?_, ?_⟩,
    fun v policy hne => ?_⟩
  · obtain ⟨_, ab, m, args, accepted, hpc⟩ := hcall v b hb
    exact ⟨ab, m, args, accepted, hpc, fun ho => (hok.owner_iff hpc).mp ho rfl⟩
  · exact (hok.before hpc hst).1
  · rintro ab rfl
    exact asleep_queued hw hpc
  · cases hget : fxSyncWaitBlockGet s.kern (.obj (.cond v)) policy with
    | none => exact absurd (fxSyncWaitBlockGet_none.mp hget) hne
    | some wb =>
      obtain ⟨hmain, ab, m, args, accepted, hpc⟩ := hcall v wb (fxSyncWaitBlockGet_mem hget)
      refine ⟨wb, .condWait v m args 0 accepted, fxSyncWaitBlockGet_spec hget, ?_, ?_⟩
      · unfold fxCondSignalWithPolicy
        rw [hget]
      · rw [hpc]
        exact granted_notify hmain

end Signale

/-- Thread 0 waits, and thread 1 has acquired the mutex in the meantime: its signal wakes thread 0
    up. -/
theorem condWait_atomic_signal :
    ∃ s wb, Reach oneMutexStep WaitShallow oneMutexBoot s ∧ (s.obj.mutex ()).owner = some 1 ∧
      s.kern.wq (.obj (.cond ())) = [(0, .main)] ∧
      fxCondSignalWithPolicy () .fifo s.kern = (.ok, fxSyncWaitNotify s.kern .satisfied wb) := by
  have h : (runIf (fun s a => decide (WaitShallow s a)) oneMutexStep
      [.init 0 5 false, .call 0 (.acquire () (.event none)), .go 0, .go 0,
        .call 0 (.condWait () () (.event none) 0 false), .go 0,
        .init 1 4 false, .call 1 (.acquire () (.event none)), .go 1, .go 1] oneMutexBoot).any
      (fun s => (s.obj.mutex ()).owner = some 1 ∧
        s.kern.wq (.obj (.cond ())) = [(0, .main)]) = true := by
    decide +kernel
  obtain ⟨s, hr, hp⟩ := exists_of_runIf (G := WaitShallow) (fun _ _ hg => of_decide_eq_true hg) h
  obtain ⟨ho, hq⟩ := of_decide_eq_true hp
  obtain ⟨wb, _, _, hsignal, _⟩ := (condWait_atomic hr).2.2 () .fifo (by rw [hq]; exact nofun)
  exact ⟨s, wb, hr, ho, hq, hsignal⟩

/-- **A waiter that had acquired the mutex twice still owns it.** -/
theorem condWait_keeps_mutex :
    ∃ s, Reach oneMutexStep NoDeinit oneMutexBoot s ∧
      s.kern.wq (.obj (.cond ())) = [(0, .main)] ∧ (s.obj.mutex ()).owner = some 0 := by
  have h : (runIf (fun s a => decide (NoDeinit s a)) oneMutexStep
      [.init 0 5 false, .call 0 (.acquire () (.event none)), .go 0, .go 0,
        .call 0 (.acquire () (.event none)), .go 0, .go 0,
        .call 0 (.condWait () () (.event none) 0 false), .go 0] oneMutexBoot).any
      (fun s => s.kern.wq (.obj (.cond ())) = [(0, .main)] ∧
        (s.obj.mutex ()).owner = some 0) = true := by
    decide +kernel
  obtain ⟨s, hr, hp⟩ := exists_of_runIf (G := NoDeinit) (fun _ _ hg => of_decide_eq_true hg) h
  obtain ⟨hq, ho⟩ := of_decide_eq_true hp
  exact ⟨s, hr, hq, ho⟩

end FxRtos
