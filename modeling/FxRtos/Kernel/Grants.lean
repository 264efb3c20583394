/-
  File:      FxRtos/Kernel/Grants.lean
  Subject:   HOW OFTEN A CALL IS GRANTED. An object whose functions wait once and do nothing
             afterwards to the kernel grants a call when its test succeeds, or when its block is
             notified as satisfied. `woken` lists the threads whose calls a step grants.

  * `CodeCase` -- what one step can do, with the code of the object told apart.
  * `Wakes` -- the blocks notified as satisfied, in order, with others dropped in between.
  * `WaitObject.Plain` -- the objects for which this is so.
  * `Plain.grants` -- a step grants exactly the calls in its list, each of them once, and none of
    them had been granted before.
  * `TallyOk.step` -- so what a call was granted is counted right: once if it returns OK, and not
    at all if it returns anything else (`TallyOk.ret`).
  * `AttrOk` -- a queued block holds the attribute of the call of its thread.
-/
import FxRtos.Kernel.Granted

namespace FxRtos

open Function (update)
open Lib

set_option linter.unusedSectionVars false

variable {T E Q A O C P : Type} [DecidableEq T] [DecidableEq E] [DecidableEq Q]
  {cfg : Config T} {W : WaitObject T E Q A O C P} {s s' : Sys T E Q A O C} {t u : T}
  {k k' : Kern T E Q A} {c : C}

/-! ## 1. Critical sections that test the object -/

/-- The critical section in which a call enters its wait. -/
theorem step_enter {ab : Option (Ev T E)} (hpc : s.pc t = .inCall (.enter ab) c)
    (hs : step cfg W (.go t) s = some s') : s.kern.state t = .ready ∧ ∃ r k,
      Entered t ab (W.testWait t c true (fxSyncWaiterPrepare s.kern t (W.attr c), s.obj)) r k ∧
      s' = ⟨k, (W.testWait t c true (fxSyncWaiterPrepare s.kern t (W.attr c), s.obj)).2.2,
        update s.pc t (.inCall (r.elim (.asleep ab) (afterWait ab)) c), s.base⟩ := by
  simp only [step, hpc] at hs
  obtain ⟨hr, rfl⟩ := taken hs
  obtain ⟨he, ho⟩ := entered (W.testWait t c) t (W.attr c) ab (s.kern, s.obj)
  refine ⟨hr, _, _, he, ?_⟩
  rw [← ho]
  unfold advance
  dsimp only
  split <;> rename_i hx <;> rw [hx] <;> rfl

/-- The critical section of a call that only polls. -/
theorem step_poll (hpc : s.pc t = .inCall .poll c) (hs : step cfg W (.go t) s = some s') :
    s.kern.state t = .ready ∧
      s' = ⟨(W.testWait t c false (fxSyncWaitBlockInit s.kern t (W.attr c), s.obj)).2.1,
        (W.testWait t c false (fxSyncWaitBlockInit s.kern t (W.attr c), s.obj)).2.2,
        update s.pc t (.inCall (.ret (if (W.testWait t c false
          (fxSyncWaitBlockInit s.kern t (W.attr c), s.obj)).1 then .ok else .waitTimeout)) c),
        s.base⟩ := by
  simp only [step, hpc] at hs
  obtain ⟨hr, rfl⟩ := taken hs
  exact ⟨hr, rfl⟩

def Pc.runsCode : Pc T E C → Prop
  | .inCall (.ret _) _ => True
  | .inCall stage _ => stage.tests
  | _ => False

/-- Whether the step tests the object, is what follows a wait, or is an operation. -/
def Sys.RunsCode (s : Sys T E Q A O C) (a : Act T E C P) : Prop :=
  match a with
  | .go t => (s.pc t).runsCode
  | .op _ => True
  | _ => False

/-- **What one step can do**, with the code of the object in the cases that say so. -/
inductive CodeCase (cfg : Config T) (W : WaitObject T E Q A O C P) (a : Act T E C P)
    (s s' : Sys T E Q A O C) : Prop where
  | quiet (t : T) (hq : Quiet cfg W a s s' t) (hno : ¬ s.RunsCode a)
  | enter (t : T) (c : C) (ab : Option (Ev T E)) (r : Option ThreadStatus) (k : Kern T E Q A)
      (ha : a = .go t) (hpc : s.pc t = .inCall (.enter ab) c) (hr : s.kern.state t = .ready)
      (he : Entered t ab
        (W.testWait t c true (fxSyncWaiterPrepare s.kern t (W.attr c), s.obj)) r k)
      (hs : s' = ⟨k, (W.testWait t c true
          (fxSyncWaiterPrepare s.kern t (W.attr c), s.obj)).2.2,
        update s.pc t (.inCall (r.elim (.asleep ab) (afterWait ab)) c), s.base⟩)
  | poll (t : T) (c : C) (ha : a = .go t) (hpc : s.pc t = .inCall .poll c)
      (hr : s.kern.state t = .ready)
      (hs : s' = ⟨(W.testWait t c false (fxSyncWaitBlockInit s.kern t (W.attr c), s.obj)).2.1,
        (W.testWait t c false (fxSyncWaitBlockInit s.kern t (W.attr c), s.obj)).2.2,
        update s.pc t (.inCall (.ret (if (W.testWait t c false
          (fxSyncWaitBlockInit s.kern t (W.attr c), s.obj)).1 then .ok else .waitTimeout)) c),
        s.base⟩)
  | after (t : T) (c : C) (r : ThreadStatus) (ha : a = .go t)
      (hpc : s.pc t = .inCall (.ret r) c) (hs : s' = advance cfg W t c s (.ret r))
  | op (p : P) (ko : Kern T E Q A × O) (ha : a = .op p) (hc : ∀ t ∈ W.caller p, s.Free t)
      (ho : W.op p (s.kern, s.obj) = some ko) (hs : s' = ⟨ko.1, ko.2, s.pc, s.base⟩)

theorem code_case {a : Act T E C P} (hW : W.Lawful) (h : WellFormed W s)
    (hs : step cfg W a s = some s') : CodeCase cfg W a s s' := by
  by_cases hcode : s.RunsCode a
  · cases a with
    | go t =>
      cases hpc : s.pc t with
      | inCall stage c =>
        change (s.pc t).runsCode at hcode
        rw [hpc] at hcode
        cases stage with
        | ret r => exact .after t c r rfl hpc (step_ret hpc hs)
        | enter ab =>
          obtain ⟨hr, r, k, he, hs'⟩ := step_enter hpc hs
          exact .enter t c ab r k rfl hpc hr he hs'
        | poll =>
          obtain ⟨hr, hs'⟩ := step_poll hpc hs
          exact .poll t c rfl hpc hr hs'
        | _ => exact hcode.elim
      | _ =>
        simp only [step, hpc] at hs
        cases hs
    | op p =>
      obtain ⟨hc, hs⟩ := Option.ite_none_right_eq_some.mp hs
      obtain ⟨ko, ho, rfl⟩ := Option.map_eq_some_iff.mp hs
      exact .op p ko rfl hc ho rfl
    | _ => exact hcode.elim
  · cases (step_case hW h hs).1 with
    | quiet t hq => exact .quiet t hq hcode
    | enter t c ab r k ha hpc hr he hs' => exact .enter t c ab r k ha hpc hr he hs'
    | poll t c p ha hpc hr hp hs' => exact .poll t c ha hpc hr (hp ▸ hs')
    | after t c r ha hpc hr hs' =>
      rw [ha] at hs
      exact .after t c r ha hpc (step_ret hpc hs)
    | op p ko ha hc ho hs' => exact .op p ko ha hc ho hs'

/-! ## 2. Wakes -/

/-- The threads of the blocks notified as satisfied, in order. Other blocks may be notified as
    deleted. -/
inductive Wakes (ex : T → Prop) (k : Kern T E Q A) : List T → Kern T E Q A → Prop where
  | refl : Wakes ex k [] k
  | wake {k' : Kern T E Q A} {l : List T} {b : Blk T} {q : Q} (h : Wakes ex k l k')
      (hb : b ∈ k'.wq (.obj q)) (hx : ¬ ex b.1) :
      Wakes ex k (l ++ [b.1]) (fxSyncWaitNotify k' .satisfied b)
  | drop {k' : Kern T E Q A} {l : List T} {b : Blk T} {q : Q} (h : Wakes ex k l k')
      (hb : b ∈ k'.wq (.obj q)) (hx : ¬ ex b.1) :
      Wakes ex k l (fxSyncWaitNotify k' .deleted b)

/-- How often the call under way has been granted. -/
def Pc.grants (k : Kern T E Q A) (t : T) (p : Pc T E C) : Nat :=
  if (p.granted k t).isSome then 1 else 0

def Sys.grants (s : Sys T E Q A O C) (t : T) : Nat := (s.pc t).grants s.kern t

/-- The thread has been granted a call, so it is in it. -/
theorem calling_of_grants (h : s.grants u ≠ 0) : ∃ stage c, s.pc u = .inCall stage c := by
  cases hpc : s.pc u with
  | inCall stage c => exact ⟨stage, c, rfl⟩
  | _ =>
    refine absurd ?_ h
    unfold Sys.grants
    rw [hpc]
    rfl

section Wecken

variable {ex : T → Prop} {l : List T} {ph : T → Phase T E Q} {p : Pc T E C}

theorem Wakes.moves (h : Wakes ex k l k') : Moves IsObj ex k k' := by
  induction h with
  | refl => exact .refl
  | @wake k' l b q _ hb hx ih => exact ih.notify (w := .obj q) hb trivial hx (Or.inl rfl)
  | @drop k' l b q _ hb hx ih => exact ih.notify (w := .obj q) hb trivial hx (Or.inr rfl)

theorem Wakes.trans {k'' : Kern T E Q A} {l' : List T} (h1 : Wakes ex k l k')
    (h2 : Wakes ex k' l' k'') : Wakes ex k (l ++ l') k'' := by
  induction h2 with
  | refl => rw [List.append_nil]; exact h1
  | wake _ hb hx ih => rw [← List.append_assoc]; exact ih.wake hb hx
  | drop _ hb hx ih => exact ih.drop hb hx

/-- Waking the block that the policy selects. -/
theorem Wakes.one {policy : SyncPolicy} {q : Q} {b : Blk T}
    (h : fxSyncWaitBlockGet k (.obj q) policy = some b) (hx : ¬ ex b.1) :
    Wakes ex k [b.1] (fxSyncWaitNotify k .satisfied b) :=
  Wakes.refl.wake (fxSyncWaitBlockGet_mem h) hx

/-- Dropping all blocks of a queue. -/
theorem Wakes.dropAll (k : Kern T E Q A) (q : Q) :
    Wakes NoOne k [] (fxSyncWaitNotifyAll k (.obj q) .deleted) := by
  have hloop : ∀ (n : Nat) (k : Kern T E Q A),
      Wakes NoOne k [] (fxSyncWaitNotifyLoop (.obj q) .deleted n k) := by
    intro n
    induction n with
    | zero => exact fun _ => .refl
    | succ n ih =>
      intro k
      unfold fxSyncWaitNotifyLoop
      cases hq : k.wq (.obj q) with
      | nil => exact .refl
      | cons b rest =>
        have hb : b ∈ k.wq (.obj q) := hq ▸ List.mem_cons_self
        exact (Wakes.refl.drop hb not_false).trans (ih _)
  exact hloop _ k

/-- Waking all blocks of a queue. -/
theorem Wakes.wakeAll {q : Q} (hx : ∀ b ∈ k.wq (.obj q), ¬ ex b.1) :
    Wakes ex k ((k.wq (.obj q)).map Prod.fst) (fxSyncWaitNotifyAll k (.obj q) .satisfied) := by
  have hloop : ∀ (l : List (Blk T)) (k : Kern T E Q A), k.wq (.obj q) = l →
      (∀ b ∈ l, ¬ ex b.1) →
      Wakes ex k (l.map Prod.fst) (fxSyncWaitNotifyLoop (.obj q) .satisfied l.length k) := by
    intro l
    induction l with
    | nil => exact fun _ _ _ => .refl
    | cons b rest ih =>
      intro k hq hx
      have hb : b ∈ k.wq (.obj q) := hq ▸ List.mem_cons_self
      have hrest : (fxSyncWaitNotify k .satisfied b).wq (.obj q) = rest := by
        rw [fxSyncWaitNotify_wq, hq, List.erase_cons_head]
      simp only [List.length_cons, fxSyncWaitNotifyLoop, hq]
      exact (Wakes.refl.wake hb (hx b List.mem_cons_self)).trans
        (ih _ hrest fun c hc => hx c (List.mem_cons_of_mem b hc))
  exact hloop _ k rfl hx

theorem Wakes.not_mem (h : Wakes ex k l k') (hu : ex u) : u ∉ l := by
  induction h with
  | refl => exact List.not_mem_nil
  | wake _ _ hx ih =>
    intro hm
    rcases List.mem_append.mp hm with hm | hm
    · exact ih hm
    · exact hx (List.mem_singleton.mp hm ▸ hu)
  | drop _ _ _ ih => exact ih

theorem grants_congr (h : k'.wb (u, .main) = k.wb (u, .main)) : p.grants k' u = p.grants k u := by
  unfold Pc.grants
  rw [granted_congr h]

theorem grants_notify_ne {b : Blk T} (hu : b.1 ≠ u) (r : WaitStatus) (p : Pc T E C) :
    p.grants (fxSyncWaitNotify k r b) u = p.grants k u := by
  unfold Pc.grants
  rw [granted_notify_ne hu.symm]

/-- A call whose block is queued, before and after its notification. -/
theorem grants_notify {q : Q} {b : Blk T} (h : KernOk k ph) (hb : b ∈ k.wq (.obj q))
    (hp : ph b.1 = p.phase W) : p.grants k b.1 = 0 ∧
      p.grants (fxSyncWaitNotify k .satisfied b) b.1 = 1 ∧
      p.grants (fxSyncWaitNotify k .deleted b) b.1 = 0 := by
  have he : ph b.1 ≠ .entering := hp ▸ phase_ne_entering _
  let pc : T → Pc T E C := fun _ => p
  have hpc : ph b.1 = (pc b.1).phase W := hp
  obtain ⟨hmain, ab, c, hpc, _⟩ := call_of_mem h hb hpc
  have hdel : (fxSyncWaitNotify k .deleted b).wb (b.1, .main) = ⟨none, .status .deleted⟩ := by
    rw [fxSyncWaitNotify_wb, ← hmain]
    exact Function.update_self ..
  change p = _ at hpc
  unfold Pc.grants
  rw [hpc, granted_of_mem h hb he, granted_notify hmain]
  refine ⟨rfl, rfl, if_neg ?_⟩
  unfold Pc.granted
  rw [hdel]
  exact Bool.false_ne_true

/-- **What the wakes grant**: one for each time the thread is in the list. -/
theorem Wakes.grants (hm : Wakes ex k l k') (h : KernOk k ph) (he : ∀ t, ph t = .entering → ex t)
    (hp : ph u = p.phase W) : p.grants k' u = p.grants k u + l.count u := by
  induction hm with
  | refl => rfl
  | @wake k' l b q hm hb hx ih =>
    rw [List.count_append, List.count_singleton]
    by_cases hu : b.1 = u
    · subst hu
      obtain ⟨h0, h1, _⟩ := grants_notify (W := W) (hm.moves.kernOk h he) hb hp
      rw [h0] at ih
      rw [h1, beq_self_eq_true, if_pos rfl]
      omega
    · have hne : (b.1 == u) = false := beq_eq_false_iff_ne.mpr hu
      rw [grants_notify_ne hu, ih, hne]
      rfl
  | @drop k' l b q hm hb hx ih =>
    rw [← ih]
    by_cases hu : b.1 = u
    · subst hu
      obtain ⟨h0, _, h1⟩ := grants_notify (W := W) (hm.moves.kernOk h he) hb hp
      rw [h0, h1]
    · exact grants_notify_ne hu _ _

end Wecken

/-! ## 3. Plain objects -/

/-- Whom the code of an object wakes up, besides the thread that runs it: a test that succeeds,
    and an operation. -/
structure Wakers (T E Q A O C P : Type) where
  test : T → C → Kern T E Q A × O → List T
  op : P → Kern T E Q A × O → List T

/-- The functions wait at most once, a test that fails does nothing but queue the caller, and
    what follows the wait leaves the kernel alone. -/
structure WaitObject.Plain (W : WaitObject T E Q A O C P) (wk : Wakers T E Q A O C P) : Prop where
  lawful : W.Lawful
  isObj : ∀ c, IsObj (W.waitable c)
  passed : ∀ t c wait s, Awake s.1 t → (W.testWait t c wait s).1 = true →
    Wakes (· = t) s.1 (wk.test t c s) (W.testWait t c wait s).2.1
  failed : ∀ t c wait s, (W.testWait t c wait s).1 = false → (W.testWait t c wait s).2.1 =
    if wait then fxSyncWaitStart s.1 (W.waitable c) (t, .main) else s.1
  after : ∀ t c r s, (W.after t c r s).1 = none ∧ (W.after t c r s).2.1 = s.1
  op : ∀ p s s', W.op p s = some s' → Wakes NoOne s.1 (wk.op p s) s'.1

/-- The threads whose calls a test grants. -/
def Wakers.tested (wk : Wakers T E Q A O C P) (W : WaitObject T E Q A O C P) (t : T) (c : C)
    (wait : Bool) (st : Kern T E Q A × O) : List T :=
  if (W.testWait t c wait st).1 then wk.test t c st ++ [t] else []

/-- The threads whose calls are granted in the next critical section of a thread. -/
def Wakers.inSection (wk : Wakers T E Q A O C P) (W : WaitObject T E Q A O C P) (t : T)
    (s : Kern T E Q A × O) : Pc T E C → List T
  | .inCall (.enter _) c => wk.tested W t c true (fxSyncWaiterPrepare s.1 t (W.attr c), s.2)
  | .inCall .poll c => wk.tested W t c false (fxSyncWaitBlockInit s.1 t (W.attr c), s.2)
  | _ => []

/-- The threads whose calls a step grants. -/
def Wakers.woken (wk : Wakers T E Q A O C P) (W : WaitObject T E Q A O C P)
    (a : Act T E C P) (s : Sys T E Q A O C) : List T :=
  match a with
  | .go t => wk.inSection W t (s.kern, s.obj) (s.pc t)
  | .op p => wk.op p (s.kern, s.obj)
  | _ => []

section Schlicht

variable {wk : Wakers T E Q A O C P} {a : Act T E C P} {stage' : Stage T E}

theorem grants_zero {p : Pc T E C} (h : p.granted k u = none) : p.grants k u = 0 := by
  unfold Pc.grants
  rw [h]
  rfl

/-- **The test of a call** grants the calls in its list to others, and passes or fails itself. -/
theorem WaitObject.Plain.tested (hp : W.Plain wk) {ph : T → Phase T E Q} (wait : Bool)
    {k : Kern T E Q A} {o : O} (ha : Awake k t) (h : KernOk k ph)
    (he : ∀ v, ph v = .entering → v = t) (hu : u ≠ t) {p : Pc T E C} (hph : ph u = p.phase W) :
    p.grants (W.testWait t c wait (k, o)).2.1 u =
      p.grants k u + (wk.tested W t c wait (k, o)).count u := by
  unfold Wakers.tested
  cases htest : (W.testWait t c wait (k, o)).1 with
  | true =>
    have hw := hp.passed t c wait (k, o) ha htest
    rw [if_pos rfl, hw.grants h he hph, List.count_append, List.count_singleton,
      beq_eq_false_iff_ne.mpr hu.symm]
    rfl
  | false =>
    rw [hp.failed t c wait (k, o) htest, if_neg Bool.false_ne_true, List.count_nil]
    cases wait with
    | true => exact grants_congr ((waitStart_view (Ne.symm hu)).wb .main)
    | false => rfl

/-- Whether the test of the call itself succeeds is what its own grant comes to. -/
theorem WaitObject.Plain.tested_self (hp : W.Plain wk) {wait : Bool} {k : Kern T E Q A} {o : O}
    (ha : Awake k t) : (wk.tested W t c wait (k, o)).count t =
      if (W.testWait t c wait (k, o)).1 then 1 else 0 := by
  unfold Wakers.tested
  cases htest : (W.testWait t c wait (k, o)).1 with
  | true =>
    have hn := (hp.passed t c wait (k, o) ha htest).not_mem (u := t) rfl
    rw [if_pos rfl, List.count_append, List.count_eq_zero_of_not_mem hn, List.count_singleton_self]
    rfl
  | false => rfl

theorem woken_nil (h : ¬ s.RunsCode a) : wk.woken W a s = [] := by
  cases a with
  | go t =>
    change ¬ (s.pc t).runsCode at h
    show wk.inSection W t (s.kern, s.obj) (s.pc t) = []
    cases hpc : s.pc t with
    | inCall stage c =>
      rw [hpc] at h
      cases stage with
      | enter ab => exact absurd trivial h
      | poll => exact absurd trivial h
      | _ => rfl
    | _ => rfl
  | op p => exact absurd trivial h
  | _ => rfl

theorem woken_enter {ab : Option (Ev T E)} (hpc : s.pc t = .inCall (.enter ab) c) :
    wk.woken W (.go t) s =
      wk.tested W t c true (fxSyncWaiterPrepare s.kern t (W.attr c), s.obj) := by
  show wk.inSection W t (s.kern, s.obj) (s.pc t) = _
  rw [hpc]
  rfl

theorem woken_poll (hpc : s.pc t = .inCall .poll c) : wk.woken W (.go t) s =
    wk.tested W t c false (fxSyncWaitBlockInit s.kern t (W.attr c), s.obj) := by
  show wk.inSection W t (s.kern, s.obj) (s.pc t) = _
  rw [hpc]
  rfl

theorem woken_ret {r : ThreadStatus} (hpc : s.pc t = .inCall (.ret r) c) :
    wk.woken W (.go t) s = [] := by
  show wk.inSection W t (s.kern, s.obj) (s.pc t) = _
  rw [hpc]
  rfl

/-- A call is at its end, and the kernel is left alone. -/
theorem WaitObject.Plain.ret (hp : W.Plain wk) (r : ThreadStatus) :
    advance cfg W t c s (.ret r) =
      ⟨s.kern, (W.after t c r (s.kern, s.obj)).2.2, update s.pc t .idle, s.base⟩ := by
  obtain ⟨hnone, hk⟩ := hp.after t c r (s.kern, s.obj)
  simp only [advance]
  cases hx : W.after t c r (s.kern, s.obj) with
  | mk c' ko =>
    obtain ⟨k, o⟩ := ko
    rw [hx] at hnone hk
    cases hnone
    cases hk
    rfl

/-- **What a step grants**: the calls in its list, once for each time they are in it. -/
theorem WaitObject.Plain.grants_step (hp : W.Plain wk) (h : WellFormed W s)
    (hs : step cfg W a s = some s') (hne : s'.pc u ≠ .gone)
    (hret : ∀ r c, a = .go u → s.pc u ≠ .inCall (.ret r) c) :
    s'.grants u = s.grants u + (wk.woken W a s).count u := by
  cases code_case hp.lawful h hs with
  | quiet t hq hno =>
    rw [woken_nil hno]
    have hg := hq.granted hp.isObj h u hne
    unfold Sys.granted at hg
    unfold Sys.grants Pc.grants
    rw [hg]
    rfl
  | after t d r ha hpc hs1 =>
    subst ha
    rw [hp.ret] at hs1
    have hu : u ≠ t := by
      rintro rfl
      exact hret r d rfl hpc
    rw [woken_ret hpc, hs1]
    show (update s.pc t _ u).grants _ u = _
    rw [Function.update_of_ne hu]
    rfl
  | enter t d ab r k ha ht hr he hs1 =>
    subst ha
    have hph : s.phases W t = .awake := by rw [Sys.phases, ht]; rfl
    obtain ⟨hk1, hprep, _⟩ := prepare_kernOk h.phases hph hr (W.attr d)
    have htest := hp.lawful.tested (c := d) (o := s.obj) h.phases (phases_ne s) h.ev hph hr
    rw [woken_enter ht, hs1]
    unfold Sys.grants
    by_cases hut : u = t
    · subst hut
      rw [ht, hp.tested_self hprep.awake, grants_zero (p := .inCall (.enter ab) d) rfl]
      show (update s.pc u _ u).grants k u = _
      rw [Function.update_self]
      unfold Pc.grants
      rw [he.granted htest.queued]
      split <;> rfl
    · have hph' : update (s.phases W) t .entering u = (s.pc u).phase W :=
        Function.update_of_ne hut ..
      have hother := hp.tested (c := d) true (o := s.obj) hprep.awake hk1
        (entering_eq (phases_ne s)) hut hph'
      show (update s.pc t _ u).grants k u = _
      rw [Function.update_of_ne hut, grants_congr ((he.view hut).wb .main), hother]
      rw [grants_congr ((prepare_view (Ne.symm hut) _).wb .main)]
  | poll t d ha ht hr hs1 =>
    subst ha
    have hph : s.phases W t = .awake := by rw [Sys.phases, ht]; rfl
    obtain ⟨hk1, ha, _⟩ := blockInit_kernOk h.phases hph (W.attr d)
    rw [woken_poll ht, hs1]
    unfold Sys.grants
    by_cases hut : u = t
    · subst hut
      rw [ht, hp.tested_self ha, grants_zero (p := .inCall .poll d) rfl]
      show (update s.pc u _ u).grants _ u = _
      rw [Function.update_self]
      cases (W.testWait u d false (fxSyncWaitBlockInit s.kern u (W.attr d), s.obj)).1 <;> rfl
    · have hother := hp.tested (c := d) false (o := s.obj) (p := s.pc u) ha hk1
        (fun v hv => absurd hv (phases_ne s v)) hut rfl
      show (update s.pc t _ u).grants _ u = _
      rw [Function.update_of_ne hut, hother]
      rw [grants_congr (Function.update_of_ne (fun e => hut (congrArg Prod.fst e)) ..)]
  | op p ko ha hc ho hs1 =>
    subst ha
    rw [hs1]
    exact (hp.op p _ ko ho).grants h.phases (fun v hv => absurd hv (phases_ne s v)) rfl

theorem WaitObject.Plain.grants (hp : W.Plain wk) (h : WellFormed W s)
    (hs : step cfg W a s = some s') (hpc' : s'.pc u = .inCall stage' c) :
    s'.grants u = s.grants u + (wk.woken W a s).count u := by
  refine hp.grants_step h hs (not_gone hpc') fun r d ha hpc => ?_
  -- a thread that returns is in no call
  subst ha
  rw [step_ret hpc hs, hp.ret] at hpc'
  change update s.pc u _ u = _ at hpc'
  rw [Function.update_self] at hpc'
  cases hpc'

theorem grants_le (s : Sys T E Q A O C) (u : T) : s.grants u ≤ 1 := by
  unfold Sys.grants Pc.grants
  split
  · exact Nat.le_refl 1
  · exact Nat.zero_le 1

/-! ## 4. The tally -/

/-- Whether the action is a call of the thread. -/
def Act.calls (a : Act T E C P) (u : T) : Bool :=
  match a with
  | .call t _ => t = u
  | _ => false

/-- How often the call a thread has made last was granted, with one more step. -/
def Wakers.tally (wk : Wakers T E Q A O C P) (W : WaitObject T E Q A O C P) (a : Act T E C P)
    (s : Sys T E Q A O C) (n : T → Nat) (u : T) : Nat :=
  (if a.calls u then 0 else n u) + (wk.woken W a s).count u

/-- The tally of every call under way is what the call has been granted. -/
def TallyOk (s : Sys T E Q A O C) (n : T → Nat) : Prop :=
  ∀ u stage c, s.pc u = .inCall stage c → n u = s.grants u

theorem TallyOk.step {n : T → Nat} (hp : W.Plain wk) (h : WellFormed W s) (hn : TallyOk s n)
    (hs : step cfg W a s = some s') : TallyOk s' (wk.tally W a s n) := by
  intro u stage' c hpc'
  have hstep := hp.grants h hs hpc'
  have hzero : s.pc u = .idle → s.grants u = 0 := by
    intro hidle
    refine grants_zero ?_
    rw [hidle]
    rfl
  unfold Wakers.tally
  rw [hstep]
  rcases (step_case hp.lawful h hs).1.callBefore hpc' with ⟨d, rfl, hidle, _⟩ | ⟨stage, hpc⟩ |
    ⟨r, d, _, hnone⟩
  · rw [hzero hidle]
    show (if decide (u = u) = true then 0 else n u) + _ = _
    rw [decide_eq_true rfl, if_pos rfl]
  · have hno : a.calls u = false := by
      cases a with
      | call t d =>
        refine decide_eq_false fun e => ?_
        rw [← e, step_call_idle hs] at hpc
        cases hpc
      | _ => rfl
    rw [hno, hn u stage c hpc]
    rfl
  · rw [(hp.after u d r _).1] at hnone
    cases hnone

theorem grants_ret {r : ThreadStatus} (hpc : s.pc u = .inCall (.ret r) c) :
    s.grants u = if r = .ok then 1 else 0 := by
  unfold Sys.grants Pc.grants
  rw [hpc]
  show (if (if r = .ok then some c else none).isSome then 1 else 0) = _
  by_cases hr : r = .ok
  · rw [if_pos hr, if_pos hr]
    rfl
  · rw [if_neg hr, if_neg hr]
    rfl

/-- **What a call was granted when it returns**: once if it returns OK, not at all otherwise. -/
theorem TallyOk.ret {n : T → Nat} (hn : TallyOk s n) {r : ThreadStatus}
    (hpc : s.pc u = .inCall (.ret r) c) : n u = if r = .ok then 1 else 0 :=
  (hn u _ c hpc).trans (grants_ret hpc)

end Schlicht

/-! ## 5. The attribute of a queued block -/

/-- The main block of the thread left the queues of the objects, or is as it was. -/
def Keeps (u : T) (k k' : Kern T E Q A) : Prop :=
  ∀ q, (u, .main) ∈ k'.wq (.obj q) →
    (u, .main) ∈ k.wq (.obj q) ∧ k'.wb (u, .main) = k.wb (u, .main)

/-- A queued block holds the attribute of the call of its thread. -/
def AttrOk (W : WaitObject T E Q A O C P) (s : Sys T E Q A O C) : Prop :=
  ∀ u ab c q, s.pc u = .inCall (.asleep ab) c → (u, .main) ∈ s.kern.wq (.obj q) →
    (s.kern.wb (u, .main)).u = .attribute (W.attr c)

section Attribut

variable {a : Act T E C P}

theorem Keeps.trans {k'' : Kern T E Q A} (h1 : Keeps u k k') (h2 : Keeps u k' k'') :
    Keeps u k k'' := by
  intro q hq
  obtain ⟨hq', hwb'⟩ := h2 q hq
  obtain ⟨hq, hwb⟩ := h1 q hq'
  exact ⟨hq, hwb'.trans hwb⟩

theorem Frame.keeps (h : Frame k k') (u : T) : Keeps u k k' :=
  fun q hq => ⟨(h.sub q).mem hq, h.wb q _ hq⟩

theorem SameView.keeps (h : SameView u k k') : Keeps u k k' := by
  intro q hq
  refine ⟨?_, h.wb .main⟩
  rw [← List.count_pos_iff] at hq ⊢
  rw [← h.queued]
  exact hq

/-- Nobody falls asleep without code of the object. -/
theorem Quiet.asleep {ab : Option (Ev T E)} (hq : Quiet cfg W a s s' t)
    (hpc : s'.pc u = .inCall (.asleep ab) c) : s.pc u = .inCall (.asleep ab) c := by
  have hafter : ∀ {ab' : Option (Ev T E)} {r d},
      (Pc.inCall (afterWait ab' r) d : Pc T E C) ≠ .inCall (.asleep ab) c := by
    intro ab' r d h
    unfold afterWait at h
    split at h <;> cases h
  have hfirst : ∀ {k0 d}, (Pc.inCall (firstStage cfg W k0 d) d : Pc T E C) ≠
      .inCall (.asleep ab) c := by
    intro k0 d h
    unfold firstStage at h
    split at h <;> cases h
  by_cases hut : u = t
  · subst hut
    cases hq.move with
    | stay h _ => rw [← h, hpc]
    | init _ h _ => rw [hpc] at h; cases h
    | call _ _ _ h => exact absurd (h.symm.trans hpc) hfirst
    | reset _ h => rw [hpc] at h; cases h
    | arm _ h => rw [hpc] at h; cases h
    | leave _ _ h => exact absurd (h.symm.trans hpc) hafter
    | disarm _ h => rw [hpc] at h; cases h
    | gone _ h => rw [hpc] at h; cases h
  · rw [← hq.pc u hut, hpc]

/-- The kernel after the test of another thread's wait. -/
theorem WaitObject.Lawful.keeps (hW : W.Lawful) (h : WellFormed W s)
    (hph : s.phases W t = .awake) (hr : s.kern.state t = .ready) (hu : u ≠ t) (c : C) :
    Keeps u s.kern (W.testWait t c true (fxSyncWaiterPrepare s.kern t (W.attr c), s.obj)).2.1 := by
  obtain ⟨k1, hk1, hv, hm⟩ := hW.testMoves h.phases hph hr c s.obj
  exact (hv u hu).keeps.trans ((Frame.moves hk1 hm (entering_eq (phases_ne s))).keeps u)

theorem AttrOk.step (hW : W.Lawful) (h : WellFormed W s) (hA : AttrOk W s)
    (hs : step cfg W a s = some s') : AttrOk W s' := by
  have hcarry : ∀ {u ab c q}, Keeps u s.kern s'.kern → s.pc u = .inCall (.asleep ab) c →
      (u, .main) ∈ s'.kern.wq (.obj q) → (s'.kern.wb (u, .main)).u = .attribute (W.attr c) := by
    intro u ab c q hk hpc hq
    obtain ⟨hq, hwb⟩ := hk q hq
    rw [hwb]
    exact hA u ab c q hpc hq
  have hmoves : ∀ {ex k'}, Moves IsObj ex s.kern k' → ∀ u, Keeps u s.kern k' := fun hm u =>
    (Frame.moves h.phases hm fun v hv => absurd hv (phases_ne s v)).keeps u
  intro u ab c q hpc' hq
  cases code_case hW h hs with
  | quiet t hquiet hno => exact hcarry (hquiet.frame.keeps u) (hquiet.asleep hpc') hq
  | enter t d ab' r k ha hpc hr he hs1 =>
    have hph : s.phases W t = .awake := by rw [Sys.phases, hpc]; rfl
    have ht := hW.tested (c := d) (o := s.obj) h.phases (phases_ne s) h.ev hph hr
    subst hs1
    change update s.pc t _ u = _ at hpc'
    by_cases hut : u = t
    · subst hut
      rw [Function.update_self] at hpc'
      -- asleep, so the test failed and the block was queued
      have hmain : k.wb (u, .main) = ⟨some (W.waitable d), .attribute (W.attr d)⟩ := by
        cases he with
        | passed hp => unfold afterWait at hpc'; split at hpc' <;> cases hpc'
        | cancelled hp => unfold afterWait at hpc'; split at hpc' <;> cases hpc'
        | alone hp hab => exact (ht.queued hp).main
        | both hp e hab hclear =>
          refine (Function.update_of_ne (main_ne_abort u u) ..).trans ?_
          exact (ht.queued hp).main
      have hc : d = c := by
        cases r with
        | none => cases hpc'; rfl
        | some r =>
          change Pc.inCall (afterWait ab' r) d = _ at hpc'
          unfold afterWait at hpc'
          split at hpc' <;> cases hpc'
      show (k.wb (u, .main)).u = _
      rw [hmain, hc]
    · rw [Function.update_of_ne hut] at hpc'
      exact hcarry ((hW.keeps h hph hr hut d).trans (he.view hut).keeps) hpc' hq
  | poll t d ha hpc hr hs1 =>
    have hph : s.phases W t = .awake := by rw [Sys.phases, hpc]; rfl
    obtain ⟨hk1, _, hf⟩ := blockInit_kernOk h.phases hph (W.attr d)
    have hm := Frame.moves hk1 (hW.poll h hph rfl) fun v hv => absurd hv (phases_ne s v)
    subst hs1
    change update s.pc t _ u = _ at hpc'
    by_cases hut : u = t
    · subst hut
      rw [Function.update_self] at hpc'
      cases hpc'
    · rw [Function.update_of_ne hut] at hpc'
      exact hcarry ((hf.trans hm).keeps u) hpc' hq
  | after t d r ha hpc hs1 =>
    subst ha
    have hkern : s'.kern = (W.after t d r (s.kern, s.obj)).2.1 := by
      rw [hs1]
      simp only [advance]
      split <;> rename_i hx <;> rw [hx]
    have hpcs : u ≠ t → s'.pc u = s.pc u := by
      intro hut
      rw [hs1]
      simp only [advance]
      split <;> exact Function.update_of_ne hut ..
    by_cases hut : u = t
    · subst hut
      rw [hs1] at hpc'
      simp only [advance] at hpc'
      split at hpc'
      · change update s.pc u _ u = _ at hpc'
        rw [Function.update_self] at hpc'
        unfold firstStage at hpc'
        split at hpc' <;> cases hpc'
      · change update s.pc u _ u = _ at hpc'
        rw [Function.update_self] at hpc'
        cases hpc'
    · refine hcarry ?_ ((hpcs hut).symm.trans hpc') hq
      rw [hkern]
      exact hmoves (hW.after t d r (s.kern, s.obj)) u
  | op p ko ha hc ho hs1 =>
    subst hs1
    exact hcarry (hmoves (hW.op p _ ko _ h.phases ho) u) hpc' hq

/-- In every reachable state. -/
theorem reach_attrOk {G : Sys T E Q A O C → Act T E C P → Prop} {o : O} (hW : W.Lawful)
    (h : Reach (step cfg W) G (boot cfg o) s) : AttrOk W s :=
  Reach.inv_of (fun _ hr => reach_wellFormed hW hr) (fun _ _ _ _ hpc => by cases hpc)
    (fun _ _ _ hw hj _ hs => hj.step hW hw hs) h

end Attribut

end FxRtos
