/-
  File:      FxRtos/Objects/Ownership.lean
  Subject:   WHO HOLDS A MUTEX. The nesting depth that the code keeps in a mutex, beside the
             account of the acquires that were granted and not yet released.

  * `Ledger` -- the account: what a thread was returned, and what its call under way has been
    granted, is the depth of the mutex for the owner and nothing for everybody else.
  * `Ledger.step` -- every step keeps it, whatever becomes of the wait of an acquire.
  * `watchedStep` -- a run with a note of the threads whose call under way changed a mutex.
  * `mutex_ownership` -- the account, failed acquires, and the hand-off of a release.
-/
import FxRtos.Objects.Mutex

namespace FxRtos

open Function (update)
open Lib

set_option linter.unusedSectionVars false

variable {T E M V X : Type} [DecidableEq T] [DecidableEq E] [DecidableEq M] [DecidableEq V]
  [DecidableEq X]

/-! ## 1. The account -/

/-- How often the thread holds a mutex with this owner and this counter. -/
def nesting (owner : Option T) (recursiveLocks : Nat) (t : T) : Nat :=
  if owner = some t then recursiveLocks + 1 else 0

def FxMutex.depth (mx : FxMutex T) (t : T) : Nat := nesting mx.owner mx.recursiveLocks t

/-- The mutex that a call acquires. -/
def MutexCall.acquires : MutexCall M V X E → Option M
  | .acquire m _ => some m
  | .reacquire m _ _ _ => some m
  | _ => none

/-- What a call adds to the account that has been granted and did not return yet. -/
def unreturned (m : M) (g : Option (MutexCall M V X E)) : Nat :=
  if g.bind MutexCall.acquires = some m then 1 else 0

/-- **The account of the mutexes**, for the threads that are not gone. -/
structure Ledger (o : MutexWorld T M V X) (g : T → Option (MutexCall M V X E))
    (gone : T → Prop) : Prop where
  free : ∀ m, (o.mutex m).owner = none → (o.mutex m).recursiveLocks = 0
  eq : ∀ t, ¬ gone t → ∀ m, o.hist.held t m + unreturned m (g t) = (o.mutex m).depth t

section Konto

variable {o o' : MutexWorld T M V X} {g g' : T → Option (MutexCall M V X E)}
  {gone gone' : T → Prop} {m : M} {t : T} {mx : FxMutex T}

theorem release_held (h : History T M) (t u : T) (m m' : M) :
    (h.release t m).held u m' = if u = t ∧ m' = m then h.held u m' - 1 else h.held u m' := by
  show update h.held t (update (h.held t) m _) u m' = _
  by_cases hu : u = t
  · subst hu
    by_cases hm : m' = m
    · subst hm
      simp
    · simp [hm]
  · simp [hu]

theorem acquired_held (h : History T M) (t u : T) (m m' : M) :
    (h.acquired t m).held u m' = if u = t ∧ m' = m then h.held u m' + 1 else h.held u m' := by
  show update h.held t (update (h.held t) m _) u m' = _
  by_cases hu : u = t
  · subst hu
    by_cases hm : m' = m
    · subst hm
      simp
    · simp [hm]
  · simp [hu]

theorem nesting_owner {owner : Option T} {n : Nat} (h : owner = some t) :
    nesting owner n t = n + 1 := if_pos h

theorem nesting_other {owner : Option T} {n : Nat} (h : owner ≠ some t) :
    nesting owner n t = 0 := if_neg h

/-- Of a mutex that `t` owns, another thread holds nothing. -/
theorem nesting_ne {owner : Option T} {n : Nat} (ho : owner = some t) {u : T} (hu : u ≠ t) :
    nesting owner n u = 0 := nesting_other fun e => hu (Option.some.inj (e.symm.trans ho))

theorem depth_owner (h : mx.owner = some t) : mx.depth t = mx.recursiveLocks + 1 := if_pos h

theorem depth_other (h : mx.owner ≠ some t) : mx.depth t = 0 := if_neg h

theorem unreturned_some {c : MutexCall M V X E} (hc : c.acquires = some m) (m' : M) :
    unreturned m' (some c) = if m = m' then 1 else 0 := by
  unfold unreturned
  rw [Option.bind_some, hc]
  simp

/-- The same mutexes, after a step that grants nothing that counts. -/
theorem Ledger.same (h : Ledger o g gone) (hm : o'.mutex = o.mutex)
    (hh : o'.hist.held = o.hist.held)
    (hg : ∀ t, ¬ gone' t → ¬ gone t ∧ ∀ m, unreturned m (g' t) = unreturned m (g t)) :
    Ledger o' g' gone' where
  free m := by rw [hm]; exact h.free m
  eq t ht m := by
    obtain ⟨ht, hp⟩ := hg t ht
    rw [hm, hh, hp]
    exact h.eq t ht m

/-- One mutex changes, and what one thread holds of it. -/
theorem Ledger.change (h : Ledger o g gone) (t : T) (m : M) (mx : FxMutex T)
    (hmx : o'.mutex = update o.mutex m mx) (hfree : mx.owner = none → mx.recursiveLocks = 0)
    (hother : ∀ u, u ≠ t → o'.hist.held u = o.hist.held u ∧
      mx.depth u = (o.mutex m).depth u ∧ g' u = g u)
    (hsame : ∀ m', m' ≠ m → o'.hist.held t m' + unreturned m' (g' t) =
      o.hist.held t m' + unreturned m' (g t))
    (ht : ¬ gone t → o'.hist.held t m + unreturned m (g' t) = mx.depth t) :
    Ledger o' g' gone where
  free m' := by
    rw [hmx]
    by_cases hmm : m' = m
    · rw [hmm, Function.update_self]
      exact hfree
    · rw [Function.update_of_ne hmm]
      exact h.free m'
  eq u hu m' := by
    rw [hmx]
    by_cases hmm : m' = m
    · rw [hmm, Function.update_self]
      by_cases hut : u = t
      · exact hut ▸ ht (hut ▸ hu)
      · obtain ⟨h1, h2, h3⟩ := hother u hut
        rw [h1, h2, h3]
        exact h.eq u hu m
    · rw [Function.update_of_ne hmm, ← h.eq u hu m']
      by_cases hut : u = t
      · exact hut ▸ hsame m' hmm
      · obtain ⟨h1, _, h3⟩ := hother u hut
        rw [h1, h3]

theorem Ledger.setValid (h : Ledger o g gone) (m : M) (valid : Bool) :
    Ledger (o.setMutex m { o.mutex m with valid := valid }) g gone where
  free m' := by
    show (update o.mutex m _ m').owner = none → (update o.mutex m _ m').recursiveLocks = 0
    by_cases hm : m' = m
    · rw [hm, Function.update_self]
      exact h.free m
    · rw [Function.update_of_ne hm]
      exact h.free m'
  eq u hu m' := by
    refine (h.eq u hu m').trans ?_
    show (o.mutex m').depth u = (update o.mutex m _ m').depth u
    by_cases hm : m' = m
    · rw [hm, Function.update_self]
      rfl
    · rw [Function.update_of_ne hm]

/-- A free mutex is given to a thread whose call acquires it. -/
theorem Ledger.own (h : Ledger o g gone) (k : MutexKern T E M V X)
    (ho : (o.mutex m).owner = none) (hg : ∀ m', unreturned m' (g t) = 0)
    {c : MutexCall M V X E} (hc : c.acquires = some m) :
    Ledger (fxMutexOwn t m (k, o)).2 (update g t (some c)) gone := by
  refine h.change t m _ rfl ?_ (fun u hu => ?_) (fun m' hm' => ?_) fun ht => ?_
  · rw [fxMutexApplyCeiling_mutex]
    exact nofun
  · refine ⟨rfl, ?_, Function.update_of_ne hu ..⟩
    rw [fxMutexApplyCeiling_mutex]
    refine (depth_other fun e => hu (Option.some.inj e).symm).trans (depth_other ?_).symm
    rw [ho]
    exact nofun
  · rw [Function.update_self, unreturned_some hc, if_neg (Ne.symm hm'), hg]
    rfl
  · have h1 := h.eq t ht m
    rw [hg, depth_other (by rw [ho]; exact nofun)] at h1
    rw [Function.update_self, unreturned_some hc, if_pos rfl, fxMutexApplyCeiling_mutex]
    refine Eq.trans ?_ (depth_owner rfl).symm
    show o.hist.held t m + 1 = (o.mutex m).recursiveLocks + 1
    rw [h.free m ho]
    exact congrArg (· + 1) h1

/-- The owner acquires the mutex once more. -/
theorem Ledger.deepen (h : Ledger o g gone) (ho : (o.mutex m).owner = some t)
    (hg : ∀ m', unreturned m' (g t) = 0) {c : MutexCall M V X E} (hc : c.acquires = some m) :
    Ledger (o.setMutex m { o.mutex m with recursiveLocks := (o.mutex m).recursiveLocks + 1 })
      (update g t (some c)) gone := by
  refine h.change t m _ rfl (fun hn => absurd (ho.symm.trans hn) nofun) (fun u hu => ?_)
    (fun m' hm' => ?_) fun ht => ?_
  · exact ⟨rfl, (nesting_ne ho hu).trans (nesting_ne ho hu).symm, Function.update_of_ne hu ..⟩
  · rw [Function.update_self, unreturned_some hc, if_neg (Ne.symm hm'), hg]
    rfl
  · have h1 := h.eq t ht m
    rw [hg, depth_owner ho] at h1
    rw [Function.update_self, unreturned_some hc, if_pos rfl]
    exact (congrArg (· + 1) h1).trans (nesting_owner ho).symm

/-- The owner releases the mutex once, and keeps it. -/
theorem Ledger.shallower (h : Ledger o g gone) (ho : (o.mutex m).owner = some t)
    (h0 : (o.mutex m).recursiveLocks ≠ 0) (hg : ∀ m', unreturned m' (g t) = 0) :
    Ledger { o.setMutex m { o.mutex m with recursiveLocks := (o.mutex m).recursiveLocks - 1 } with
      hist := o.hist.release t m } g gone := by
  refine h.change t m _ rfl (fun hn => absurd (ho.symm.trans hn) nofun) (fun u hu => ?_)
    (fun m' hm' => ?_) fun ht => ?_
  · exact ⟨Function.update_of_ne hu .., (nesting_ne ho hu).trans (nesting_ne ho hu).symm, rfl⟩
  · rw [release_held, if_neg fun e => hm' e.2]
  · have h1 := h.eq t ht m
    rw [hg, depth_owner ho] at h1
    rw [release_held, if_pos ⟨rfl, rfl⟩, hg]
    refine Eq.trans ?_ (nesting_owner ho).symm
    show o.hist.held t m - 1 + 0 = (o.mutex m).recursiveLocks - 1 + 1
    omega

/-- The owner gives the mutex up. -/
theorem Ledger.giveUp (h : Ledger o g gone) (ho : (o.mutex m).owner = some t)
    (h0 : (o.mutex m).recursiveLocks = 0) (hg : ∀ m', unreturned m' (g t) = 0) :
    Ledger ({ o with hist := (o.hist.release t m).disown t m }.setMutex m
      { o.mutex m with owner := none }) g gone := by
  refine h.change t m _ rfl (fun _ => h0) (fun u hu => ?_) (fun m' hm' => ?_) fun ht => ?_
  · refine ⟨Function.update_of_ne hu .., ?_, rfl⟩
    exact (nesting_other (Option.some_ne_none u).symm).trans (nesting_ne ho hu).symm
  · show (o.hist.release t m).held t m' + _ = _
    rw [release_held, if_neg fun e => hm' e.2]
  · have h1 := h.eq t ht m
    rw [hg, depth_owner ho, h0] at h1
    show (o.hist.release t m).held t m + _ = _
    rw [release_held, if_pos ⟨rfl, rfl⟩, hg]
    refine Eq.trans ?_ (nesting_other (Option.some_ne_none t).symm).symm
    omega

/-- A call returns what it was granted. -/
theorem Ledger.acquired (h : Ledger o g gone) {c : MutexCall M V X E} (hg : g t = some c)
    (hc : c.acquires = some m) :
    Ledger { o with hist := o.hist.acquired t m } (update g t none) gone := by
  refine h.change t m (o.mutex m) (Function.update_eq_self ..).symm (h.free m) (fun u hu => ?_)
    (fun m' hm' => ?_) fun ht => ?_
  · exact ⟨Function.update_of_ne hu .., rfl, Function.update_of_ne hu ..⟩
  · rw [Function.update_self, hg, unreturned_some hc, if_neg (Ne.symm hm')]
    show (o.hist.acquired t m).held t m' + 0 = _
    rw [acquired_held, if_neg fun e => hm' e.2]
  · have h1 := h.eq t ht m
    rw [hg, unreturned_some hc, if_pos rfl] at h1
    rw [Function.update_self]
    show (o.hist.acquired t m).held t m + 0 = _
    rw [acquired_held, if_pos ⟨rfl, rfl⟩]
    exact h1

end Konto

/-! ## 2. The code -/

/-- What the threads have been granted. -/
def grants (pc : T → Pc T E (MutexCall M V X E)) (k : MutexKern T E M V X) (t : T) :
    Option (MutexCall M V X E) := (pc t).granted k t

def IsGone (pc : T → Pc T E (MutexCall M V X E)) (t : T) : Prop := pc t = .gone

section Code

variable {checks : Bool} {k k' : MutexKern T E M V X} {o : MutexWorld T M V X}
  {ph : T → Phase T E (SyncQ M V X)}
  {pc : T → Pc T E (MutexCall M V X E)} {me t : T} {m : M} {c : MutexCall M V X E}

theorem queue_acquires (h : c.queue = .mutex m) : c.acquires = some m := by
  cases c with
  | acquire m' args => cases h; rfl
  | condWait v m' args depth accepted => cases h
  | reacquire m' res depth accepted => cases h; rfl
  | other x args => cases h

/-- Whoever owned it before. -/
theorem fxMutexOwn_free (t : T) (m : M) (k : MutexKern T E M V X) (o : MutexWorld T M V X) :
    fxMutexOwn t m (k, o.setMutex m { o.mutex m with owner := none }) = fxMutexOwn t m (k, o) := by
  simp [fxMutexOwn, MutexWorld.setMutex, History.own]

/-- **A release by the owner**, with the hand-off to a waiter. -/
theorem Ledger.released (h : Ledger o (grants pc k) (IsGone pc)) (hk : KernOk k ph)
    (hph : ∀ b ∈ k.wq (.obj (.mutex m)), ph b.1 = (pc b.1).phase (fxMutex checks))
    (hme : ∀ m', unreturned m' (grants pc k me) = 0) (ho : (o.mutex m).owner = some me)
    (policy : SyncPolicy) :
    Ledger (fxMutexReleaseLocked me m policy (k, o)).2
      (grants pc (fxMutexReleaseLocked me m policy (k, o)).1) (IsGone pc) := by
  unfold fxMutexReleaseLocked
  dsimp only
  split
  · rename_i h0
    have h1 := h.giveUp ho h0 hme
    unfold fxMutexHandOver
    dsimp only
    split
    · rename_i wb hget
      have hb := fxSyncWaitBlockGet_mem hget
      obtain ⟨hmain, ab, c, hpc, hc⟩ := call_of_mem hk hb (hph wb hb)
      have hne : ph wb.1 ≠ .entering := by
        rw [hph wb hb]
        exact phase_ne_entering _
      have hnone : grants pc k wb.1 = none := by
        unfold grants
        rw [hpc]
        exact granted_of_mem hk hb hne
      have hfree : (({ o with hist := (o.hist.release me m).disown me m }.setMutex m
          { o.mutex m with owner := none }).mutex m).owner = none := by
        show (update o.mutex m _ m).owner = none
        rw [Function.update_self]
      have h2 := h1.own k hfree (fun m' => by rw [hnone]; rfl) (queue_acquires (Wtbl.obj.inj hc))
      rw [show fxMutexOwn wb.1 m _ = _ from fxMutexOwn_free wb.1 m k
        { o with hist := (o.hist.release me m).disown me m }] at h2
      refine h2.same rfl rfl fun u hu => ⟨hu, fun m' => congrArg (unreturned m') ?_⟩
      unfold grants
      rw [granted_congr (congrFun (fxMutexRestore_wb ..) _)]
      by_cases hub : u = wb.1
      · subst hub
        rw [Function.update_self, hpc]
        exact granted_notify hmain
      · rw [Function.update_of_ne hub, granted_notify_ne hub]
        exact granted_congr (congrFun (fxMutexApplyCeiling_wb ..) _)
    · refine h1.same rfl rfl fun u hu => ⟨hu, fun m' => congrArg (unreturned m') ?_⟩
      exact granted_congr (congrFun (fxMutexRestore_wb ..) _)
  · rename_i h0
    exact h.shallower ho h0 hme

/-- A release, by a thread that the code or the caller makes sure is the owner. -/
theorem Ledger.release (h : Ledger o (grants pc k) (IsGone pc)) (hk : KernOk k ph)
    (hph : ∀ b ∈ k.wq (.obj (.mutex m)), ph b.1 = (pc b.1).phase (fxMutex checks))
    (hme : ∀ m', unreturned m' (grants pc k me) = 0)
    (ho : checks = true ∨ (o.mutex m).owner = some me) (policy : SyncPolicy) :
    Ledger (fxMutexReleaseWithPolicy checks me m policy (k, o)).2.2
      (grants pc (fxMutexReleaseWithPolicy checks me m policy (k, o)).2.1) (IsGone pc) := by
  unfold fxMutexReleaseWithPolicy
  dsimp only
  split
  · exact h
  · rename_i hown
    split
    · exact h
    · refine h.released hk hph hme (ho.elim (fun hc => ?_) id) policy
      by_contra hne
      exact hown ⟨hc, hne⟩

/-- A call that acquires nothing counts for nothing. -/
theorem unreturned_call {stage : Stage T E} (hpc : pc t = .inCall stage c) (hc : c.acquires = none)
    (k : MutexKern T E M V X) (m : M) : unreturned m (grants pc k t) = 0 := by
  have hg : grants pc k t = none ∨ grants pc k t = some c := by
    unfold grants
    rw [hpc]
    cases stage with
    | asleep ab => exact (ite_eq_or_eq _ _ _).symm
    | disarm r => exact (ite_eq_or_eq _ _ _).symm
    | ret r => exact (ite_eq_or_eq _ _ _).symm
    | _ => exact Or.inl rfl
  rcases hg with e | e
  · rw [e]
    rfl
  · rw [e]
    unfold unreturned
    rw [Option.bind_some, hc]
    rfl

theorem acquires_none (h : ∀ m, c.queue ≠ .mutex m) : c.acquires = none := by
  cases c with
  | acquire m args => exact absurd rfl (h m)
  | reacquire m res depth accepted => exact absurd rfl (h m)
  | _ => rfl

/-- Notifying the waiters of anything but a mutex grants nothing that counts. -/
theorem unreturned_moves {q : SyncQ M V X} (hq : ∀ m, q ≠ .mutex m)
    (hm : Moves (· = .obj q) NoOne k k') (hk : KernOk k fun u => (pc u).phase (fxMutex checks))
    (u : T) (m : M) : unreturned m (grants pc k' u) = unreturned m (grants pc k u) := by
  induction hm with
  | refl => rfl
  | @notify k' b w r hm hb hw _ _ ih =>
    by_cases hub : u = b.1
    · subst hub
      subst hw
      have hk' := hm.kernOk hk fun v hv => absurd hv (phase_ne_entering _)
      obtain ⟨_, ab, c, hpc, hc⟩ := call_of_mem hk' hb rfl
      have hnone := acquires_none (c := c) fun m => by
        rw [Wtbl.obj.inj hc]
        exact hq m
      rw [unreturned_call hpc hnone, unreturned_call hpc hnone]
    · rw [← ih]
      exact congrArg _ (granted_notify_ne hub ..)
  | setPrio _ _ _ ih => exact ih

/-- The grants, with the test's own thread aside. -/
theorem Ledger.others {g : T → Option (MutexCall M V X E)} {gone : T → Prop}
    {x : Option (MutexCall M V X E)} (h : Ledger o (update g me x) gone)
    (hg : ∀ u, u ≠ me → grants pc k u = g u) : Ledger o (update (grants pc k) me x) gone := by
  refine h.same rfl rfl fun u hu => ⟨hu, fun m => congrArg (unreturned m) ?_⟩
  by_cases hum : u = me
  · rw [hum, Function.update_self, Function.update_self]
  · rw [Function.update_of_ne hum, Function.update_of_ne hum]
    exact hg u hum

/-- **The test of a mutex**: what it grants is on the account. -/
theorem Ledger.testMutex (h : Ledger o (grants pc k) (IsGone pc)) (hme : grants pc k me = none)
    (wait : Bool) (hc : c.acquires = some m) :
    let p := fxMutexTestAndWait m me wait (k, o)
    Ledger p.2.2 (update (grants pc p.2.1) me (if p.1 then some c else none)) (IsGone pc) := by
  intro p
  have hpend : ∀ m', unreturned m' (grants pc k me) = 0 := fun m' => by rw [hme]; rfl
  rcases fxMutexTestAndWait_cases m me wait (k, o) with ⟨ho, e⟩ | ⟨ho, e⟩ | ⟨_, _, e⟩
  · rw [show p = _ from e]
    exact (h.own k ho hpend hc).others fun u _ =>
      granted_congr (congrFun (fxMutexApplyCeiling_wb ..) _)
  · rw [show p = _ from e]
    exact h.deepen ho hpend hc
  · rw [show p = _ from e]
    have h1 : Ledger o (update (grants pc k) me none) (IsGone pc) := by
      rw [← hme, Function.update_eq_self]
      exact h
    refine h1.others fun u hu => granted_congr ?_
    cases wait with
    | true => exact (waitStart_view (Ne.symm hu)).wb .main
    | false => rfl

/-- The test of a condition variable: a release. -/
theorem Ledger.testCond (h : Ledger o (grants pc k) (IsGone pc))
    (hme : ∀ k, grants pc k me = none) (wait : Bool) {v : V} (ha : Awake k me)
    (hattr : (k.wb (me, .main)).u.getAttr = some m)
    (hk : KernOk (if wait then fxSyncWaitStart k (.obj (.cond v)) (me, .main) else k) ph)
    (hph : ∀ u, u ≠ me → ph u = (pc u).phase (fxMutex checks))
    (ho : checks = true ∨ (o.mutex m).owner = some me) :
    let p := fxCondTestAndWait checks v me wait (k, o)
    Ledger p.2.2 (grants pc p.2.1) (IsGone pc) := by
  intro p
  let k1 := if wait then fxSyncWaitStart k (.obj (.cond v)) (me, .main) else k
  have hp : p = (false, (fxMutexRelease checks me m (k1, o)).2) := by
    show fxCondTestAndWait checks v me wait (k, o) = _
    unfold fxCondTestAndWait
    rw [show (k, o).1 = k from rfl, hattr]
  have h1 : Ledger o (grants pc k1) (IsGone pc) := by
    refine h.same rfl rfl fun u hu => ⟨hu, fun m => congrArg (unreturned m) ?_⟩
    by_cases hum : u = me
    · rw [hum, hme, hme]
    · refine granted_congr ?_
      cases wait with
      | true => exact (waitStart_view (Ne.symm hum)).wb .main
      | false => rfl
  rw [hp]
  refine h1.release hk (fun b hb => hph _ ?_) (fun m' => by rw [hme]; rfl) ho _
  refine ha.ne_of_mem (w := .obj (.mutex m)) ?_
  cases wait with
  | true =>
    rw [← condQueued_wq k v m (me, .main)]
    exact hb
  | false => exact hb

/-- **A test**: what it grants is on the account. `k` is the kernel before the thread's blocks
    were prepared for the test. -/
theorem Ledger.test (checks wait : Bool) {k1 : MutexKern T E M V X} {stage : Stage T E}
    (h : Ledger o (grants pc k) (IsGone pc)) (hpc : pc me = .inCall stage c) (hstage : stage.tests)
    (ha : Awake k1 me) (hattr : (k1.wb (me, .main)).u.getAttr = c.attr)
    (hk : KernOk (if wait then fxSyncWaitStart k1 (.obj c.queue) (me, .main) else k1) ph)
    (hph : ∀ u, u ≠ me → ph u = (pc u).phase (fxMutex checks))
    (hwb : ∀ u, u ≠ me → k1.wb (u, .main) = k.wb (u, .main))
    (hcond : ∀ v m args depth accepted, c = .condWait v m args depth accepted →
      checks = true ∨ (o.mutex m).owner = some me) :
    let p := fxMutexTest checks me wait (k1, o) c
    Ledger p.2.2 (update (grants pc p.2.1) me (if p.1 then some c else none)) (IsGone pc) := by
  intro p
  have hme : ∀ k, grants pc k me = none := fun k => by
    unfold grants
    rw [hpc]
    cases stage with
    | enter ab => rfl
    | poll => rfl
    | _ => exact hstage.elim
  have h1 : Ledger o (grants pc k1) (IsGone pc) := by
    refine h.same rfl rfl fun u hu => ⟨hu, fun m => congrArg (unreturned m) ?_⟩
    by_cases hum : u = me
    · rw [hum, hme, hme]
    · exact granted_congr (hwb u hum)
  cases c with
  | acquire m args => exact h1.testMutex (hme k1) wait rfl
  | reacquire m res depth accepted => exact h1.testMutex (hme k1) wait rfl
  | condWait v m args depth accepted =>
    have h2 := h1.testCond hme wait ha hattr hk hph (hcond v m args depth accepted rfl)
    have hp : p.1 = false := (fxCondTestAndWait_moves (s := (k1, o)) checks v wait ha).1
    rw [hp, if_neg nofun, ← hme p.2.1, Function.update_eq_self]
    exact h2
  | other x args =>
    have hwb' : ∀ u, u ≠ me → p.2.1.wb (u, .main) = k1.wb (u, .main) := by
      intro u hu
      show (otherTestAndWait x me wait (k1, o)).2.1.wb (u, .main) = _
      unfold otherTestAndWait
      split
      · rfl
      · cases wait with
        | true => exact (waitStart_view (Ne.symm hu)).wb .main
        | false => rfl
    have ho : p.2.2 = o := by
      show (otherTestAndWait x me wait (k1, o)).2.2 = o
      unfold otherTestAndWait
      split <;> rfl
    rw [ho]
    refine h1.same rfl rfl fun u hu => ⟨hu, fun m => ?_⟩
    by_cases hum : u = me
    · rw [hum, Function.update_self, hme]
      split <;> rfl
    · rw [Function.update_of_ne hum]
      exact congrArg (unreturned m) (granted_congr (hwb' u hum))

/-- **The end of a call** returns what it was granted. -/
theorem Ledger.lockEnd (h : Ledger o (grants pc k) (IsGone pc)) {r : ThreadStatus}
    (hpc : pc me = .inCall (.ret r) c) :
    Ledger (fxMutexEnd checks me r (k, o) c).2.2 (update (grants pc k) me none) (IsGone pc) := by
  -- the account does not change where nothing was granted, or what was does not count
  have hzero : ∀ {o' : MutexWorld T M V X}, o'.mutex = o.mutex → o'.hist.held = o.hist.held →
      (∀ m, unreturned m (grants pc k me) = 0) →
      Ledger o' (update (grants pc k) me none) (IsGone pc) := by
    intro o' hm hh hp
    refine h.same hm hh fun u hu => ⟨hu, fun m => ?_⟩
    by_cases hum : u = me
    · subst hum
      rw [Function.update_self, hp]
      rfl
    · rw [Function.update_of_ne hum]
  have hfail : r ≠ .ok → ∀ m, unreturned m (grants pc k me) = 0 := fun hr m => by
    unfold grants
    rw [hpc, show (Pc.inCall (.ret r) c).granted k me = none from if_neg hr]
    rfl
  have hok : r = .ok → grants pc k me = some c := fun hr => by
    unfold grants
    rw [hpc]
    exact if_pos hr
  cases c with
  | acquire m args =>
    show Ledger (if r = .ok then _ else o) _ _
    split
    · rename_i hr
      exact h.acquired (hok hr) rfl
    · rename_i hr
      exact hzero rfl rfl (hfail hr)
  | reacquire m res depth accepted =>
    show Ledger (if r = .ok then _ else _) _ _
    split
    · rename_i hr
      exact (h.acquired (hok hr) rfl).same rfl rfl fun u hu => ⟨hu, fun _ => rfl⟩
    · rename_i hr
      exact hzero rfl rfl (hfail hr)
  | condWait v m args depth accepted =>
    have hp := unreturned_call hpc rfl k
    simp only [fxMutexEnd]
    split
    · exact hzero rfl rfl hp
    · exact hzero rfl rfl hp
  | other x args => exact hzero rfl rfl (unreturned_call hpc rfl k)

/-- **An operation** called by nobody, or by a thread that is in no call. -/
theorem Ledger.op (h : Ledger o (grants pc k) (IsGone pc))
    (hk : KernOk k fun u => (pc u).phase (fxMutex checks)) {p : MutexOp T M V X}
    (hc : ∀ t ∈ p.caller, pc t = .idle) {s' : MutexState T E M V X}
    (hr : p.run checks (k, o) = some s') : Ledger s'.2 (grants pc s'.1) (IsGone pc) := by
  have hidle : ∀ {t}, pc t = .idle → ∀ m, unreturned m (grants pc k t) = 0 := fun ht m => by
    unfold grants
    rw [ht]
    rfl
  -- the waiters of anything but a mutex
  have hother : ∀ {q : SyncQ M V X} {k' : MutexKern T E M V X} {o' : MutexWorld T M V X},
      (∀ m, q ≠ .mutex m) → Moves (· = .obj q) NoOne k k' → o'.mutex = o.mutex →
      o'.hist.held = o.hist.held → Ledger o' (grants pc k') (IsGone pc) :=
    fun hq hm hmx hh => h.same hmx hh fun u hu => ⟨hu, unreturned_moves hq hm hk u⟩
  have hcond : ∀ (v : V) (m : M), SyncQ.cond (X := X) v ≠ .mutex m := fun _ _ => nofun
  have hall : ∀ {q : SyncQ M V X} {r : WaitStatus}, r = .satisfied ∨ r = .deleted →
      Moves (· = .obj q) NoOne k (fxSyncWaitNotifyAll k (.obj q) r) := fun hr => by
    refine Moves.notifyAll ?_ hr k
    rfl
  have hsignal : ∀ v policy, Ledger (condSignal checks v policy (k, o)).2
      (grants pc (condSignal checks v policy (k, o)).1) (IsGone pc) := by
    intro v policy
    unfold condSignal
    split
    · exact h
    · unfold fxCondSignalWithPolicy
      split
      · rename_i wb hget
        exact hother (hcond v) (Moves.wake hget rfl (Or.inl rfl)) rfl rfl
      · exact h
  cases p with
  | releaseWithPolicy me m policy =>
    obtain ⟨ho, rfl⟩ := taken hr
    exact h.release hk (fun _ _ => rfl) (hidle (hc me rfl)) ho policy
  | release me m =>
    obtain ⟨ho, rfl⟩ := taken hr
    exact h.release hk (fun _ _ => rfl) (hidle (hc me rfl)) ho _
  | deinit m =>
    cases hr
    split
    · exact h
    · have h1 : ∀ k', k'.wb = (fxSyncWaitNotifyAll k (.obj (.mutex m)) .deleted).wb →
          Ledger (o.setMutex m { o.mutex m with valid := false }) (grants pc k') (IsGone pc) := by
        intro k' hk'
        refine (h.setValid m false).same rfl rfl fun u hu =>
          ⟨hu, fun m' => congrArg (unreturned m') ?_⟩
        exact (granted_congr (congrFun hk' _)).trans (granted_notifyAll_deleted hk (.mutex m) u)
      unfold fxMutexDeinit
      dsimp only
      split
      · split
        · exact h1 _ rfl
        · exact h1 _ rfl
      · exact h1 _ rfl
  | signalWithPolicy v policy =>
    cases hr
    exact hsignal v policy
  | signal v =>
    cases hr
    exact hsignal v _
  | broadcast v =>
    cases hr
    split
    · exact h
    · exact hother (hcond v) (hall (Or.inl rfl)) rfl rfl
  | condDeinit v =>
    cases hr
    split
    · exact h
    · exact hother (hcond v) (hall (Or.inr rfl)) rfl rfl
  | otherSet x value =>
    cases hr
    exact h.same rfl rfl fun u hu => ⟨hu, fun _ => rfl⟩
  | otherNotify x wb reason =>
    obtain ⟨⟨hb, hreason⟩, rfl⟩ := taken hr
    have hm : Moves (· = .obj (.other x)) NoOne k (fxSyncWaitNotify k reason wb) :=
      Moves.refl.notify hb rfl not_false hreason
    exact hother (fun m e => by cases e) hm rfl rfl

end Code

/-! ## 3. The runs -/

/-- A thread about to wait on a condition variable owns the mutex, or the code finds out. -/
def CondGuarded (checks : Bool) (o : MutexWorld T M V X)
    (pc : T → Pc T E (MutexCall M V X E)) : Prop :=
  ∀ t stage v m args depth accepted, pc t = .inCall stage (.condWait v m args depth accepted) →
    stage.tests → checks = true ∨ (o.mutex m).owner = some t

section Lauf

variable {cfg : Config T} {checks : Bool}
  {s s' : Sys T E (SyncQ M V X) M (MutexWorld T M V X) (MutexCall M V X E)}

theorem fxMutex_isObj (checks : Bool) (c : MutexCall M V X E) :
    IsObj ((fxMutex checks : WaitObject T E _ _ _ _ _).waitable c) := trivial

/-- **One step keeps the account.** -/
theorem Ledger.step {a : Act T E (MutexCall M V X E) (MutexOp T M V X)}
    (hw : WellFormed (fxMutex checks) s) (h : Ledger s.obj s.granted (IsGone s.pc))
    (hcond : CondGuarded checks s.obj s.pc) (hs : step cfg (fxMutex checks) a s = some s') :
    Ledger s'.obj s'.granted (IsGone s'.pc) := by
  -- the threads that did not move, and the one that did
  have hnext : ∀ {t stage c p o k x}, s.pc t = .inCall stage c →
      Ledger o (update (grants s.pc k) t x) (IsGone s.pc) →
      (∀ u, u ≠ t → ∀ q : Pc T E (MutexCall M V X E),
        q.granted s'.kern u = q.granted k u) →
      s'.obj = o → s'.pc = update s.pc t p → p.granted s'.kern t = x →
      Ledger s'.obj s'.granted (IsGone s'.pc) := by
    intro t stage c p o k x hpc hl hother ho hp hx
    rw [ho]
    refine hl.same rfl rfl fun u hu => ?_
    have hpu : s'.granted u = (update s.pc t p u).granted s'.kern u := by
      unfold Sys.granted
      rw [hp]
    unfold IsGone at hu ⊢
    rw [hp] at hu
    by_cases hut : u = t
    · subst hut
      refine ⟨by rw [hpc]; exact nofun, fun m => congrArg (unreturned m) ?_⟩
      rw [hpu, Function.update_self, Function.update_self, hx]
    · rw [Function.update_of_ne hut] at hu
      refine ⟨hu, fun m => congrArg (unreturned m) ?_⟩
      rw [hpu, Function.update_of_ne hut, Function.update_of_ne hut]
      exact hother u hut _
  have hguard : ∀ {t stage c}, s.pc t = .inCall stage c → stage.tests →
      ∀ v m args depth accepted, c = .condWait v m args depth accepted →
        checks = true ∨ (s.obj.mutex m).owner = some t :=
    fun hpc hst v m args depth accepted e => hcond _ _ v m args depth accepted (e ▸ hpc) hst
  cases (step_case (fxMutex_lawful checks) hw hs).1 with
  | quiet t hq =>
    rw [hq.obj]
    refine h.same rfl rfl fun u hu => ⟨fun hgone => hu (hq.gone hgone), fun m => ?_⟩
    exact congrArg (unreturned m) (hq.granted (fxMutex_isObj checks) hw u hu)
  | enter t c ab r k ha hpc hr he hs =>
    have hph : s.phases (fxMutex checks) t = .awake := by rw [Sys.phases, hpc]; rfl
    have ht := (fxMutex_lawful checks).tested (c := c) (o := s.obj) hw.phases (phases_ne s) hw.ev
      hph hr
    obtain ⟨hk1, hprep, _⟩ := prepare_kernOk hw.phases hph hr c.attr
    have hl := Ledger.test checks true h hpc trivial hprep.awake
      (by rw [hprep.main]; rfl) (queue_kernOk hk1 hprep _) (fun u hu => Function.update_of_ne hu ..)
      (fun u hu => (prepare_view (Ne.symm hu) _).wb .main) (hguard hpc trivial)
    refine hnext hpc hl (fun u hu q => ?_) (by rw [hs]; rfl) (by rw [hs]) ?_
    · rw [hs]
      exact he.granted_other hu q
    · rw [hs]
      exact he.granted ht.queued
  | poll t c p ha hpc hr hp hs =>
    have hph : s.phases (fxMutex checks) t = .awake := by rw [Sys.phases, hpc]; rfl
    obtain ⟨hk1, hawake, _⟩ := blockInit_kernOk hw.phases hph c.attr
    have hl := Ledger.test checks false h hpc trivial hawake
      (by show (update s.kern.wb _ _ _).u.getAttr = _; rw [Function.update_self]; rfl) hk1
      (fun _ _ => rfl)
      (fun u hu => Function.update_of_ne (fun e => hu (congrArg Prod.fst e)) ..)
      (hguard hpc trivial)
    rw [show fxMutexTest checks t false (fxSyncWaitBlockInit s.kern t c.attr, s.obj) c = p
      from hp.symm] at hl
    refine hnext hpc hl (fun u hu q => ?_) (by rw [hs]) (by rw [hs]) ?_
    · rw [hs]
    · cases p.1 with
      | true => rfl
      | false => rfl
  | after t c r ha hpc hr hs =>
    have hkern : ((fxMutex checks).after t c r (s.kern, s.obj)).2.1 = s.kern :=
      fxMutexEnd_kern checks t r (s.kern, s.obj) c
    refine hnext hpc (h.lockEnd hpc) (fun u hu q => ?_) (by rw [hs]; rfl) (by rw [hs]) ?_
    · rw [hs, hkern]
    · split
      · exact firstStage_granted _
      · rfl
  | op p ko ha hc ho hs =>
    rw [hs]
    exact h.op hw.phases (fun t ht => (hc t ht).pc) ho

end Lauf

/-! ## 4. Acquires that fail, and what a release does -/

/-- Whether the owner or the depth of a mutex became another one. -/
def FxMutex.differs (mx mx' : FxMutex T) : Bool :=
  mx.owner ≠ mx'.owner ∨ mx.recursiveLocks ≠ mx'.recursiveLocks

/-- The thread that runs a critical section of its call. -/
def Act.mover {C P : Type} : Act T E C P → Option T
  | .go t => some t
  | _ => none

abbrev MutexSys (T E M V X : Type) :=
  Sys T E (SyncQ M V X) M (MutexWorld T M V X) (MutexCall M V X E)

/-- For each thread, the mutexes that the critical sections of its call under way changed. -/
def watch (a : Act T E (MutexCall M V X E) (MutexOp T M V X)) (s s' : MutexSys T E M V X)
    (changed : T → M → Bool) (t : T) (m : M) : Bool :=
  match s.pc t with
  | .inCall _ _ => changed t m || (a.mover = some t && (s.obj.mutex m).differs (s'.obj.mutex m))
  | _ => false

def watchedStep (cfg : Config T) (a : Act T E (MutexCall M V X E) (MutexOp T M V X))
    (w : MutexSys T E M V X × (T → M → Bool)) : Option (MutexSys T E M V X × (T → M → Bool)) :=
  (step cfg (fxMutex cfg.checks) a w.1).map fun s' => (s', watch a w.1 s' w.2)

/-- An acquire that changed a mutex has been granted. -/
def WatchOk (s : MutexSys T E M V X) (changed : T → M → Bool) : Prop :=
  ∀ t stage m args m', s.pc t = .inCall stage (.acquire m args) → changed t m' = true →
    s.granted t = some (.acquire m args)

section Wache

variable {cfg : Config T} {checks : Bool} {s s' : MutexSys T E M V X} {t : T} {m m' : M}
  {a : Act T E (MutexCall M V X E) (MutexOp T M V X)} {changed : T → M → Bool}

theorem differs_self (mx : FxMutex T) : mx.differs mx = false := by
  unfold FxMutex.differs
  simp

/-- A test that fails leaves the mutexes alone. -/
theorem fxMutexTestAndWait_failed {wait : Bool} {st : MutexState T E M V X}
    (h : (fxMutexTestAndWait m t wait st).1 = false) :
    (fxMutexTestAndWait m t wait st).2.2 = st.2 := by
  rcases fxMutexTestAndWait_cases m t wait st with ⟨_, e⟩ | ⟨_, e⟩ | ⟨_, _, e⟩
  all_goals rw [e] at h ⊢
  · cases h
  · cases h

/-- A critical section of an acquire that changes a mutex grants the call. -/
theorem acquire_changes {args : WaitArgs E} {stage : Stage T E}
    (hw : WellFormed (fxMutex checks) s) (hs : step cfg (fxMutex checks) (.go t) s = some s')
    (hpc : s.pc t = .inCall stage (.acquire m args))
    (hd : (s.obj.mutex m').differs (s'.obj.mutex m') = true) :
    s'.granted t = some (.acquire m args) := by
  have hsame : s'.obj.mutex = s.obj.mutex → s'.granted t = some (.acquire m args) := fun e => by
    rw [e, differs_self] at hd
    cases hd
  cases (step_case (fxMutex_lawful checks) hw hs).1 with
  | quiet u hq => exact hsame (congrArg _ hq.obj)
  | enter u c ab r k ha hpcu hr he hs' =>
    cases ha
    cases hpc.symm.trans hpcu
    have hph : s.phases (fxMutex checks) t = .awake := by rw [Sys.phases, hpc]; rfl
    have ht := (fxMutex_lawful checks).tested (c := .acquire m args) (o := s.obj) hw.phases
      (phases_ne s) hw.ev hph hr
    have hg := he.granted (c := (.acquire m args : MutexCall M V X E)) ht.queued
    cases hp : (fxMutexTestAndWait m t true (fxSyncWaiterPrepare s.kern t none, s.obj)).1 with
    | true =>
      replace hg := hg.trans (if_pos hp)
      rw [hs']
      show (update s.pc t _ t).granted k t = _
      rw [Function.update_self]
      exact hg
    | false =>
      refine hsame ?_
      rw [hs']
      exact congrArg _ (fxMutexTestAndWait_failed hp)
  | poll u c p ha hpcu hr hp hs' =>
    cases ha
    cases hpc.symm.trans hpcu
    cases hp1 : p.1 with
    | true =>
      rw [hs']
      show (update s.pc t _ t).granted p.2.1 t = _
      rw [Function.update_self, hp1]
      rfl
    | false =>
      refine hsame ?_
      rw [hs', hp]
      rw [hp] at hp1
      exact congrArg _ (fxMutexTestAndWait_failed hp1)
  | after u c r ha hpcu hr hs' =>
    refine hsame ?_
    rw [hs']
    exact fxMutexEnd_mutex checks u r (s.kern, s.obj) c
  | op p ko ha => cases ha

/-- **One step keeps the note.** -/
theorem WatchOk.step (hw : WellFormed (fxMutex checks) s) (h : WatchOk s changed)
    (hs : step cfg (fxMutex checks) a s = some s') : WatchOk s' (watch a s s' changed) := by
  intro t stage' m args m' hpc' hch
  have hcase := (step_case (fxMutex_lawful checks) hw hs).1
  unfold watch at hch
  -- the call was under way before, else nothing is noted
  have hpc : ∃ stage, s.pc t = .inCall stage (.acquire m args) := by
    rcases hcase.callBefore hpc' with ⟨_, _, hi, _⟩ | hcall | ⟨r, d, _, hd⟩
    · rw [hi] at hch
      cases hch
    · exact hcall
    · cases d with
      | condWait v m0 args0 depth accepted =>
        change (ite _ _ _ : Option _ × _).1 = _ at hd
        split at hd <;> cases hd
      | _ => cases hd
  obtain ⟨stage, hpc⟩ := hpc
  rw [hpc] at hch
  rcases Bool.or_eq_true_iff.mp hch with hold | hnew
  · rcases granted_stays (fxMutex_isObj checks) (fxMutex_lawful checks) hw hs
      (h t stage m args m' hpc hold) with hg | hg | ⟨rfl, hret⟩
    · rw [hg] at hpc'
      cases hpc'
    · exact hg
    · rw [step_ret hret hs] at hpc'
      change update s.pc t _ t = _ at hpc'
      rw [Function.update_self] at hpc'
      cases hpc'
  · obtain ⟨hmover, hd⟩ := Bool.and_eq_true_iff.mp hnew
    cases a with
    | go u =>
      cases of_decide_eq_true hmover
      exact acquire_changes hw hs hpc hd
    | _ => cases of_decide_eq_true hmover

/-- **A release at depth one** hands the mutex over to the waiter that the policy selects, whose
    call is granted with that, or leaves it free if nobody waits. -/
theorem release_handsOver (hw : WellFormed (fxMutex checks) s) {me : T}
    (ho : (s.obj.mutex m).owner = some me) (h0 : (s.obj.mutex m).recursiveLocks = 0)
    (hv : (s.obj.mutex m).valid = true) (policy : SyncPolicy) :
    let r := fxMutexReleaseWithPolicy checks me m policy (s.kern, s.obj)
    r.1 = .ok ∧ (r.2.2.mutex m).recursiveLocks = 0 ∧
    (s.kern.wq (.obj (.mutex m)) = [] ∧ (r.2.2.mutex m).owner = none ∨
      ∃ wb c, s.kern.Selects (.obj (.mutex m)) wb policy ∧ (r.2.2.mutex m).owner = some wb.1 ∧
        c.acquires = some m ∧ (s.pc wb.1).granted r.2.1 wb.1 = some c) := by
  intro r
  have hr : r = (.ok, fxMutexReleaseLocked me m policy (s.kern, s.obj)) := by
    show fxMutexReleaseWithPolicy checks me m policy (s.kern, s.obj) = _
    unfold fxMutexReleaseWithPolicy
    dsimp only
    rw [hv, if_neg fun h => h.2 ho, if_neg fun h => Bool.noConfusion h.2]
  rw [hr]
  refine ⟨rfl, ?_⟩
  unfold fxMutexReleaseLocked
  dsimp only
  rw [if_pos h0]
  unfold fxMutexHandOver
  dsimp only
  split
  · rename_i wb hget
    have hb := fxSyncWaitBlockGet_mem hget
    obtain ⟨hmain, ab, c, hpc, hc⟩ := call_of_mem hw.kern hb rfl
    refine ⟨?_, Or.inr ⟨wb, c, fxSyncWaitBlockGet_spec hget, ?_,
      queue_acquires (Wtbl.obj.inj hc), ?_⟩⟩
    · show (update s.obj.mutex m _ m).recursiveLocks = 0
      rw [Function.update_self, fxMutexApplyCeiling_mutex]
      exact h0
    · show (update s.obj.mutex m _ m).owner = some wb.1
      rw [Function.update_self, fxMutexApplyCeiling_mutex]
    · rw [granted_congr (congrFun (fxMutexRestore_wb ..) _), hpc]
      exact granted_notify hmain
  · rename_i hget
    refine ⟨?_, Or.inl ⟨fxSyncWaitBlockGet_none.mp hget, ?_⟩⟩
    · show (update s.obj.mutex m _ m).recursiveLocks = 0
      rw [Function.update_self]
      exact h0
    · show (update s.obj.mutex m _ m).owner = none
      rw [Function.update_self]

end Wache

/-- Without the note. -/
theorem watched_reach {cfg : Config T} {s0 s : MutexSys T E M V X} {c0 changed : T → M → Bool}
    (h : Reach (watchedStep cfg) (fun w => NoDeinit w.1) (s0, c0) (s, changed)) :
    Reach (step cfg (fxMutex cfg.checks)) NoDeinit s0 s := by
  refine h.map Prod.fst (fun _ _ hg => hg) fun w a w' hw => ?_
  obtain ⟨s', hs, rfl⟩ := Option.map_eq_some_iff.mp hw
  exact hs

/-- What is not deinitialised stays valid. -/
theorem reach_valid {cfg : Config T} {checks : Bool} {o : MutexWorld T M V X}
    {s : MutexSys T E M V X} (h0 : ∀ m, (o.mutex m).valid = true)
    (h : Reach (step cfg (fxMutex checks)) NoDeinit (boot cfg o) s) (m : M) :
    (s.obj.mutex m).valid = true :=
  Reach.inv_of (J := fun s => ∀ m, (s.obj.mutex m).valid = true)
    (fun _ hr => reach_wellFormed (fxMutex_lawful checks) hr) h0
    (fun _ _ _ hw hj hg hs m => ((step_conf hw hg hs m).2.2).trans (hj m)) h m

/-- **Ownership of mutexes**, in every run without deinitialisation and with parameter checks. -/
theorem mutex_ownership {cfg : Config T} (hchecks : cfg.checks = true) {ceiling : M → Option Nat}
    {policies : M → SyncPolicy} {condPolicies : V → SyncPolicy} {s : MutexSys T E M V X}
    {changed : T → M → Bool}
    (h : Reach (watchedStep cfg) (fun w => NoDeinit w.1)
      (boot cfg (mutexBoot (cfg.prioNum - 1) ceiling policies condPolicies), fun _ _ => false)
      (s, changed)) :
    -- the acquires granted and not released
    (∀ t, s.pc t ≠ .gone → ∀ m, s.obj.hist.held t m + unreturned m (s.granted t) =
      if (s.obj.mutex m).owner = some t then (s.obj.mutex m).recursiveLocks + 1 else 0) ∧
    -- an acquire that fails
    (∀ t r m args, s.pc t = .inCall (.ret r) (.acquire m args) → r ≠ .ok →
      (∀ m', changed t m' = false) ∧
      ∀ s', step cfg (fxMutex cfg.checks) (.go t) s = some s' →
        s'.pc t = .idle ∧ s'.obj.mutex = s.obj.mutex) ∧
    -- a release by another thread than the owner
    (∀ me m policy, (s.obj.mutex m).owner ≠ some me →
      fxMutexReleaseWithPolicy cfg.checks me m policy (s.kern, s.obj) =
        (.wrongOwner, s.kern, s.obj)) ∧
    -- a release at depth one
    (∀ p me m policy s', p.releases s.obj = some (me, m, policy) →
      step cfg (fxMutex cfg.checks) (.op p) s = some s' → (s.obj.mutex m).owner = some me →
      (s.obj.mutex m).recursiveLocks = 0 → (s'.obj.mutex m).recursiveLocks = 0 ∧
      (s.kern.wq (.obj (.mutex m)) = [] ∧ (s'.obj.mutex m).owner = none ∨
        ∃ wb c, s.kern.Selects (.obj (.mutex m)) wb policy ∧
          (s'.obj.mutex m).owner = some wb.1 ∧ c.acquires = some m ∧
          s'.granted wb.1 = some c)) ∧
    -- what was granted is returned
    (∀ t c s', s.granted t = some c → Reach (step cfg (fxMutex cfg.checks)) NoDeinit s s' →
      s'.pc t = .gone ∨ s'.granted t = some c ∨
        ∃ s1 s2, Reach (step cfg (fxMutex cfg.checks)) NoDeinit s s1 ∧
          s1.pc t = .inCall (.ret .ok) c ∧ step cfg (fxMutex cfg.checks) (.go t) s1 = some s2 ∧
          Reach (step cfg (fxMutex cfg.checks)) NoDeinit s2 s') := by
  have hreach := watched_reach h
  have hlawful := fxMutex_lawful (T := T) (E := E) (M := M) (V := V) (X := X) cfg.checks
  have hw := reach_wellFormed hlawful hreach
  have hvalid := reach_valid (fun _ => rfl) hreach
  have hledger : Ledger s.obj s.granted (IsGone s.pc) :=
    Reach.inv_of (J := fun s => Ledger s.obj s.granted (IsGone s.pc))
      (fun _ hr => reach_wellFormed hlawful hr) ⟨fun _ _ => rfl, fun _ _ _ => rfl⟩
      (fun _ _ _ hw hj _ hs => hj.step hw (fun _ _ _ _ _ _ _ _ _ => Or.inl hchecks) hs) hreach
  have hwatch : WatchOk s changed := by
    refine (Reach.inv (J := fun w => WellFormed (fxMutex cfg.checks) w.1 ∧ WatchOk w.1 w.2)
      ⟨boot_wellFormed _, fun _ _ _ _ _ hpc _ => by cases hpc⟩ (fun w a w' hj _ hs => ?_) h).2
    obtain ⟨s', hs', rfl⟩ := Option.map_eq_some_iff.mp hs
    exact ⟨(step_case hlawful hj.1 hs').2, hj.2.step hj.1 hs'⟩
  refine ⟨hledger.eq, fun t r m args hpc hr => ⟨fun m' => ?_, fun s' hs => ?_⟩,
    fun me m policy ho => ?_, fun p me m policy s' hp hs ho h0 => ?_, fun t c s' hg hr => ?_⟩
  · cases hch : changed t m' with
    | false => rfl
    | true =>
      have hg := hwatch t _ m args m' hpc hch
      unfold Sys.granted at hg
      rw [hpc] at hg
      exact absurd (Option.ite_none_right_eq_some.mp hg).1 hr
  · rw [step_ret hpc hs]
    exact ⟨Function.update_self ..,
      fxMutexEnd_mutex cfg.checks t r (s.kern, s.obj) (.acquire m args)⟩
  · exact if_pos ⟨hchecks, ho⟩
  · obtain ⟨hok, h1, h2⟩ := release_handsOver hw ho h0 (hvalid m) policy
    obtain ⟨_, hs⟩ := Option.ite_none_right_eq_some.mp hs
    obtain ⟨ko, hko, rfl⟩ := Option.map_eq_some_iff.mp hs
    rw [show (fxMutex cfg.checks).op p (s.kern, s.obj) = _ from MutexOp.run_releases hp,
      if_pos (Or.inl hchecks)] at hko
    cases hko
    exact ⟨h1, h2⟩
  · exact granted_returns (fxMutex_isObj cfg.checks) hlawful hw hg hr

/-- Thread 0 hands the mutex over to thread 1, whose timeout runs out before it wakes up. -/
theorem mutex_ownership_timeout :
    let cfg : Config (Fin 3) := ⟨true, 8, 2⟩
    ∃ (s : MutexSys (Fin 3) Unit Unit Unit Unit) (changed : Fin 3 → Unit → Bool),
      Reach (watchedStep cfg) (fun w => NoDeinit w.1)
        (boot cfg (mutexBoot (cfg.prioNum - 1) (fun _ => none) (fun _ => .fifo) fun _ => .fifo),
          fun _ _ => false) (s, changed) ∧
      (s.obj.mutex ()).owner = some 1 ∧ s.kern.ev (.timer 1) = true ∧
      s.obj.hist.held 1 () + unreturned () (s.granted 1) = (s.obj.mutex ()).recursiveLocks + 1 := by
  intro cfg
  let acts : List (Act (Fin 3) Unit (MutexCall Unit Unit Unit Unit)
      (MutexOp (Fin 3) Unit Unit Unit)) :=
    [.init 0 5 false, .call 0 (.acquire () (.event none)), .go 0, .go 0,
      .init 1 4 false, .call 1 (.acquire () (.timeout 9)), .go 1, .go 1, .go 1,
      .op (.release 0 ()), .expire 1]
  have h : (runIf (fun w a => decide (NoDeinit w.1 a)) (watchedStep cfg) acts
      (boot cfg (mutexBoot (cfg.prioNum - 1) (fun _ => none) (fun _ => .fifo) fun _ => .fifo),
        fun _ _ => false)).any (fun w => (w.1.obj.mutex ()).owner = some 1 ∧
          w.1.kern.ev (.timer 1) = true ∧
          (w.1.granted 1).bind MutexCall.acquires = some ()) = true := by
    decide +kernel
  obtain ⟨⟨s, changed⟩, hr, hp⟩ := exists_of_runIf
    (G := fun w a => NoDeinit w.1 a) (fun _ _ hg => of_decide_eq_true hg) h
  obtain ⟨ho, he, hgranted⟩ := of_decide_eq_true hp
  have hpc : s.pc 1 ≠ .gone := fun hg => by
    unfold Sys.granted at hgranted
    rw [hg] at hgranted
    cases hgranted
  exact ⟨s, changed, hr, ho, he, ((mutex_ownership rfl hr).1 1 hpc ()).trans (if_pos ho)⟩

end FxRtos
