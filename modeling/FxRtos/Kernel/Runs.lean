/-
  File:      FxRtos/Kernel/Runs.lean
  Subject:   WHAT ONE STEP CAN DO, said once for every object: the invariants of the objects are
             derived from this and not from the step function.

  * `Quiet` -- a step that runs no code of the object. At most one thread moves (`PcMove`).
  * `StepCase` -- the other steps: entering a wait, polling, what follows a wait, an operation.
  * `step_case`, `step_wellFormed` -- every step is one of these, and keeps the system well formed.
  * `ObjInv.reach` -- what the code of the object keeps, and does not depend on blocks leaving the
    queues, holds in every reachable state.
-/
import FxRtos.Kernel.Steps

namespace FxRtos

open Function (update)
open Lib

set_option linter.unusedSectionVars false

variable {T E Q A O C P : Type} [DecidableEq T] [DecidableEq E] [DecidableEq Q]
  {cfg : Config T} {W : WaitObject T E Q A O C P} {s s' : Sys T E Q A O C} {t : T}

/-! ## 1. Phases -/

/-- Where the threads are. -/
def Sys.phases (W : WaitObject T E Q A O C P) (s : Sys T E Q A O C) (t : T) : Phase T E Q :=
  (s.pc t).phase W

theorem phases_update (k : Kern T E Q A) (o : O) (p : Pc T E C) (base : T → Nat) :
    Sys.phases W ⟨k, o, update s.pc t p, base⟩ = update (s.phases W) t (p.phase W) := by
  funext u
  show (update s.pc t p u).phase W = _
  by_cases hu : u = t
  · rw [hu, Function.update_self, Function.update_self]
  · rw [Function.update_of_ne hu, Function.update_of_ne hu]
    rfl

theorem phase_ne_entering (p : Pc T E C) : p.phase W ≠ .entering := by
  unfold Pc.phase
  split <;> exact nofun

theorem phases_ne (s : Sys T E Q A O C) (t : T) : s.phases W t ≠ .entering := phase_ne_entering _

theorem firstStage_phase (k : Kern T E Q A) (c : C) :
    (Pc.inCall (firstStage cfg W k c) c).phase W = .awake := by
  unfold firstStage
  split <;> rfl

theorem afterWait_phase (ab : Option (Ev T E)) (r : ThreadStatus) (c : C) :
    (Pc.inCall (afterWait ab r) c).phase W = .awake := by
  unfold afterWait
  split <;> rfl

theorem WellFormed.phases (h : WellFormed W s) : KernOk s.kern (s.phases W) := h.kern

/-- The system moves on: the thread `t` is at `p`, the others are where they were. -/
theorem WellFormed.next (h : WellFormed W s) {k : Kern T E Q A} (o : O) {p : Pc T E C}
    (base : T → Nat) (hk : KernOk k (update (s.phases W) t (p.phase W))) (hev : EvOk k)
    (ht : ∀ u, u ≠ t → k.isTerminating u = true → s.kern.isTerminating u = true)
    (ht' : k.isTerminating t = true → p = .gone) :
    WellFormed W ⟨k, o, update s.pc t p, base⟩ where
  kern := by
    have := phases_update (W := W) (s := s) (t := t) k o p base
    show KernOk k (Sys.phases W ⟨k, o, update s.pc t p, base⟩)
    rw [this]
    exact hk
  ev := hev
  term u hu := by
    show update s.pc t p u = .gone
    by_cases hut : u = t
    · rw [hut, Function.update_self]
      exact ht' (hut ▸ hu)
    · rw [Function.update_of_ne hut]
      exact h.term u (ht u hut hu)

/-- The thread moves to another point of the same phase. -/
theorem WellFormed.calm (h : WellFormed W s) {k : Kern T E Q A} (o : O) {p : Pc T E C}
    (base : T → Nat) (hc : Calm (s.phases W) s.kern k) (hp : s.phases W t = p.phase W)
    (hg : s.pc t = .gone → p = .gone) : WellFormed W ⟨k, o, update s.pc t p, base⟩ := by
  refine h.next o base ?_ (hc.ev h.ev) (fun u _ hu => ?_) fun hu => ?_
  · rw [← hp, Function.update_eq_self]
    exact hc.ok
  · rwa [hc.term] at hu
  · rw [hc.term] at hu
    exact hg (h.term t hu)

/-- No thread moves. -/
theorem WellFormed.stay (h : WellFormed W s) {k : Kern T E Q A} (o : O) (base : T → Nat)
    (hc : KernOk k (s.phases W)) (hev : EvOk k) (ht : k.isTerminating = s.kern.isTerminating) :
    WellFormed W ⟨k, o, s.pc, base⟩ :=
  ⟨hc, hev, fun u hu => h.term u (by rw [← ht]; exact hu)⟩

theorem boot_wellFormed (o : O) : WellFormed W (boot cfg o : Sys T E Q A O C) where
  kern _ := ⟨⟨fun _ _ => rfl, fun _ => rfl⟩, rfl⟩
  ev _ _ := rfl
  term _ h := by cases h

/-! ## 2. The test of the object -/

section Pruefung

variable {ph : T → Phase T E Q} {k : Kern T E Q A} {o : O} {c : C}

/-- The blocks of a thread on its way into a wait are prepared. -/
theorem prepare_kernOk (h : KernOk k ph) (hph : ph t = .awake) (hr : k.state t = .ready)
    (attr : Option A) : KernOk (fxSyncWaiterPrepare k t attr) (update ph t .entering) ∧
      Prepared (fxSyncWaiterPrepare k t attr) t attr ∧ Frame k (fxSyncWaiterPrepare k t attr) := by
  have hp := h t
  rw [hph] at hp
  obtain ⟨ha, _, hst⟩ := hp
  have hprep := prepared ha attr
  have h0 : (k.sched.item t).suspendCount = 0 := by
    obtain ⟨_, h0⟩ | ⟨hs, _⟩ := hst
    · exact h0
    · rw [hr] at hs
      cases hs
  exact ⟨h.one ⟨hprep.awake.tied, hr, h0⟩ fun u hu => prepare_view (Ne.symm hu) attr, hprep,
    Frame.prepare ha attr⟩

/-- The main block of such a thread is queued. -/
theorem queue_kernOk (h : KernOk k (update ph t .entering)) {attr : Option A}
    (hprep : Prepared k t attr) (w : Wtbl T E Q) :
    KernOk (fxSyncWaitStart k w (t, .main)) (update ph t .entering) := by
  have ht := h t
  rw [Function.update_self] at ht
  have := h.one (p := .entering) ⟨(hprep.waitStart w).tied, ht.2⟩
    fun u hu => waitStart_view (Ne.symm hu)
  rwa [Function.update_idem] at this

/-- No other thread is on its way into a wait. -/
theorem entering_eq (he : ∀ u, ph u ≠ .entering) :
    ∀ u, update ph t .entering u = .entering → u = t := fun u hu => by
  by_cases hut : u = t
  · exact hut
  · rw [Function.update_of_ne hut] at hu
    exact absurd hu (he u)

/-- The block of a test without waiting is initialised. -/
theorem blockInit_kernOk (h : KernOk k ph) (hph : ph t = .awake) (attr : Option A) :
    KernOk (fxSyncWaitBlockInit k t attr) ph ∧ Awake (fxSyncWaitBlockInit k t attr) t ∧
      Frame k (fxSyncWaitBlockInit k t attr) := by
  have hp := h t
  rw [hph] at hp
  obtain ⟨ha, hn, hst⟩ := hp
  have hwb : ∀ {b : Blk T}, b ≠ (t, .main) → (fxSyncWaitBlockInit k t attr).wb b = k.wb b :=
    fun hb => Function.update_of_ne hb ..
  have hfree : ∀ slot, ((fxSyncWaitBlockInit k t attr).wb (t, slot)).waitable = none := by
    intro slot
    cases slot with
    | main =>
      show (update k.wb _ _ _).waitable = none
      rw [Function.update_self]
    | abort => rw [hwb (main_ne_abort t t).symm, ha.free]
  have ha' : Awake (fxSyncWaitBlockInit k t attr) t :=
    ⟨fun slot => (ha.tied slot).congr ((hfree slot).trans (ha.free slot).symm) fun _ => rfl, hfree⟩
  refine ⟨fun u => ?_, ha', fun q => List.Sublist.refl _, fun q b hb => hwb fun e => ?_⟩
  · by_cases hu : u = t
    · rw [hu, hph]
      exact ⟨ha', hn, hst⟩
    · exact (h u).view
        ⟨fun slot => hwb fun e => hu (Prod.mk.inj e).1, fun _ _ => rfl, rfl, rfl, rfl⟩
  · exact (ha.tied .main).not_mem (ha.free .main) (e ▸ hb)

/-- The test of a wait moves the kernel, from where the thread's blocks are prepared and its main
    block may be queued. -/
theorem WaitObject.Lawful.testMoves (hW : W.Lawful) (h : KernOk k ph) (hph : ph t = .awake)
    (hr : k.state t = .ready) (c : C) (o : O) :
    ∃ k1, KernOk k1 (update ph t .entering) ∧ (∀ u, u ≠ t → SameView u k k1) ∧
      Moves IsObj (· = t) k1 (W.testWait t c true (fxSyncWaiterPrepare k t (W.attr c), o)).2.1 := by
  obtain ⟨hk1, hprep, _⟩ := prepare_kernOk h hph hr (W.attr c)
  have hv : ∀ u, u ≠ t → SameView u k (fxSyncWaiterPrepare k t (W.attr c)) :=
    fun u hu => prepare_view (Ne.symm hu) _
  cases hp : W.testWait t c true (fxSyncWaiterPrepare k t (W.attr c), o) with
  | mk b ko =>
    cases b with
    | true => exact ⟨_, hk1, hv, hW.testTrue t c true _ ko hprep.awake hp⟩
    | false =>
      obtain ⟨_, hm⟩ := hW.testWait t c _ ko hprep.awake hp
      exact ⟨_, queue_kernOk hk1 hprep _,
        fun u hu => (hv u hu).trans (waitStart_view (Ne.symm hu)), hm⟩

/-- The kernel after the test of a wait, with the thread's blocks as the result says. -/
structure Tested (W : WaitObject T E Q A O C P) (ph : T → Phase T E Q) (t : T) (c : C)
    (k : Kern T E Q A) (p : Bool × Kern T E Q A × O) : Prop where
  ok : KernOk p.2.1 (update ph t .entering)
  evOk : EvOk p.2.1
  term : p.2.1.isTerminating = k.isTerminating
  abort : (p.2.1.wb (t, .abort)).waitable = none
  passed : p.1 = true → Prepared p.2.1 t (W.attr c)
  queued : p.1 = false → Queued p.2.1 t (W.waitable c) (W.attr c)

theorem WaitObject.Lawful.tested (hW : W.Lawful) (h : KernOk k ph) (he : ∀ u, ph u ≠ .entering)
    (hev : EvOk k) (hph : ph t = .awake) (hr : k.state t = .ready) :
    Tested W ph t c k (W.testWait t c true (fxSyncWaiterPrepare k t (W.attr c), o)) := by
  obtain ⟨hk1, hprep, _⟩ := prepare_kernOk h hph hr (W.attr c)
  have hev1 : EvOk (fxSyncWaiterPrepare k t (W.attr c)) := hev
  have hx := entering_eq (t := t) he
  cases hp : W.testWait t c true (fxSyncWaiterPrepare k t (W.attr c), o) with
  | mk r ko =>
    cases r with
    | true =>
      have hm := hW.testTrue t c true _ ko hprep.awake hp
      have hv := hm.view (t := t) rfl
      have hpr := hprep.view hv
      exact ⟨hm.kernOk hk1 hx, hev1.moves hm, hm.isTerminating, by rw [hpr.abort],
        fun _ => hpr, nofun⟩
    | false =>
      obtain ⟨hclear, hm⟩ := hW.testWait t c _ ko hprep.awake hp
      have hq := hprep.waitStart (W.waitable c)
      have hk2 := queue_kernOk hk1 hprep (W.waitable c)
      have hv := hm.view (t := t) rfl
      have hqr := hq.view hv
      exact ⟨hm.kernOk hk2 hx, (hev1.waitStart hclear _).moves hm, hm.isTerminating,
        by rw [hqr.abort], nofun, fun _ => hqr⟩

/-- The phase a thread is in once it has entered a wait. -/
def enterPhase (W : WaitObject T E Q A O C P) (c : C) (ab : Option (Ev T E)) :
    Option ThreadStatus → Phase T E Q
  | some _ => .awake
  | none => .asleep (W.waitable c) ab

theorem Tested.entered {p : Bool × Kern T E Q A × O} (h : Tested W ph t c k p)
    {ab : Option (Ev T E)} {r : Option ThreadStatus} {k' : Kern T E Q A}
    (he : Entered t ab p r k') : KernOk k' (update ph t (enterPhase W c ab r)) := by
  have hview : ∀ u, u ≠ t → SameView u p.2.1 k' := fun u hu => he.view hu
  have ht := h.ok t
  rw [Function.update_self] at ht
  obtain ⟨htied, hst, hcnt⟩ := ht
  have hnum : p.2.1.wbNum t = 2 := by
    cases hp : p.1 with
    | true => exact (h.passed hp).num
    | false => exact (h.queued hp).num
  have hroll : PhaseOk (T := T) (E := E) (Q := Q) (fxSyncWaitRollback p.2.1 t).2 t .awake := by
    obtain ⟨ha, hn, hs, hst', _⟩ := rollback_spec htied hnum
    exact ⟨ha, hn, Or.inl ⟨by rw [hst']; exact hst, by rw [hs]; exact hcnt⟩⟩
  have hone : ∀ q : Phase T E Q, PhaseOk k' t q → KernOk k' (update ph t q) := fun q hq => by
    have := h.ok.one hq hview
    rwa [Function.update_idem] at this
  cases he with
  | passed hp => exact hone _ hroll
  | cancelled hp e hab he => exact hone _ hroll
  | alone hp hab =>
    have hq := h.queued hp
    refine hone _ ⟨fun _ => none, ?_⟩
    exact asleep_sleepOn (W.attr c) hq.tied hq.num hq.main (by rw [hab]; exact hq.abort) hcnt
  | both hp e hab he =>
    have hq := h.queued hp
    have hma := main_ne_abort t t
    refine hone _ ⟨fun _ => none, ?_⟩
    refine asleep_sleepOn (W.attr c) (fun slot => ?_) hq.num ?_ ?_ hcnt
    · cases slot with
      | main => exact (hq.tied .main).waitStart_ne hma
      | abort => exact (hq.tied .abort).waitStart h.abort
    · show update p.2.1.wb _ _ _ = _
      rw [Function.update_of_ne hma, hq.main]
    · show update p.2.1.wb _ _ _ = _
      rw [Function.update_self, hq.abort, hab]
      rfl

end Pruefung

/-! ## 3. The steps -/

/-- How a thread moves in a step that runs no code of the object. -/
inductive PcMove (cfg : Config T) (W : WaitObject T E Q A O C P) (a : Act T E C P)
    (s s' : Sys T E Q A O C) (t : T) : Prop where
  | stay (h : s'.pc t = s.pc t)
      (hwb : (∀ w, (s.kern.wb (t, .main)).waitable = some w → ¬ IsEv w) →
        s'.kern.wb (t, .main) = s.kern.wb (t, .main))
  | init (h : s.pc t = .absent) (h' : s'.pc t = .idle)
      (hp : (s'.kern.sched.item t).prio = s'.base t)
  | call {c c' : C} (ha : a = .call t c) (h : s.pc t = .idle)
      (hs : W.start s.kern s.obj t c = some c')
      (h' : s'.pc t = .inCall (firstStage cfg W s.kern c') c')
  | reset {c : C} (h : s.pc t = .inCall .reset c) (h' : s'.pc t = .inCall .arm c)
  | arm {c : C} (h : s.pc t = .inCall .arm c)
      (h' : s'.pc t = .inCall (.enter (some (.timer t))) c)
  | leave {ab : Option (Ev T E)} {c : C} (h : s.pc t = .inCall (.asleep ab) c)
      (hr : s.kern.state t = .ready)
      (h' : s'.pc t = .inCall (afterWait ab (fxThreadWaitObjectLeave s.kern t).1) c)
  | disarm {r : ThreadStatus} {c : C} (h : s.pc t = .inCall (.disarm r) c)
      (h' : s'.pc t = .inCall (.ret (timedResult r)) c)
  | gone (h : s.pc t ≠ .absent) (h' : s'.pc t = .gone)

/-- A step that runs no code of the object, in which no thread but `t` moves. -/
structure Quiet (cfg : Config T) (W : WaitObject T E Q A O C P) (a : Act T E C P)
    (s s' : Sys T E Q A O C) (t : T) : Prop where
  obj : s'.obj = s.obj
  frame : Frame s.kern s'.kern
  wb : ∀ u, u ≠ t → (∀ w, (s.kern.wb (u, .main)).waitable = some w → ¬ IsEv w) →
    s'.kern.wb (u, .main) = s.kern.wb (u, .main)
  pc : ∀ u, u ≠ t → s'.pc u = s.pc u
  move : PcMove cfg W a s s' t
  prio : ∀ u, s.pc u ≠ .absent → (∀ p, a ≠ .setPrio u p) →
    (s'.kern.sched.item u).prio = (s.kern.sched.item u).prio ∧ s'.base u = s.base u

/-- **What one step can do.** -/
inductive StepCase (cfg : Config T) (W : WaitObject T E Q A O C P) (a : Act T E C P)
    (s s' : Sys T E Q A O C) : Prop where
  | quiet (t : T) (h : Quiet cfg W a s s' t)
  | enter (t : T) (c : C) (ab : Option (Ev T E)) (r : Option ThreadStatus) (k : Kern T E Q A)
      (ha : a = .go t) (hpc : s.pc t = .inCall (.enter ab) c) (hr : s.kern.state t = .ready)
      (he : Entered t ab
        (W.testWait t c true (fxSyncWaiterPrepare s.kern t (W.attr c), s.obj)) r k)
      (hs : s' = ⟨k, (W.testWait t c true
          (fxSyncWaiterPrepare s.kern t (W.attr c), s.obj)).2.2,
        update s.pc t (.inCall (r.elim (.asleep ab) (afterWait ab)) c), s.base⟩)
  | poll (t : T) (c : C) (p : Bool × Kern T E Q A × O) (ha : a = .go t)
      (hpc : s.pc t = .inCall .poll c) (hr : s.kern.state t = .ready)
      (hp : p = W.testWait t c false (fxSyncWaitBlockInit s.kern t (W.attr c), s.obj))
      (hs : s' = ⟨p.2.1, p.2.2,
        update s.pc t (.inCall (.ret (if p.1 then .ok else .waitTimeout)) c), s.base⟩)
  | after (t : T) (c : C) (r : ThreadStatus) (ha : a = .go t)
      (hpc : s.pc t = .inCall (.ret r) c) (hr : s.kern.state t = .ready)
      (hs : s' = ⟨(W.after t c r (s.kern, s.obj)).2.1, (W.after t c r (s.kern, s.obj)).2.2,
        update s.pc t (match (W.after t c r (s.kern, s.obj)).1 with
          | some c' => .inCall (firstStage cfg W (W.after t c r (s.kern, s.obj)).2.1 c') c'
          | none => .idle), s.base⟩)
  | op (p : P) (ko : Kern T E Q A × O) (ha : a = .op p) (hc : ∀ t ∈ W.caller p, s.Free t)
      (ho : W.op p (s.kern, s.obj) = some ko) (hs : s' = ⟨ko.1, ko.2, s.pc, s.base⟩)

section Schritte

variable {a : Act T E C P} {k : Kern T E Q A} {p : Pc T E C} {c : C}

theorem quiet_calm (hc : Calm (s.phases W) s.kern k)
    (hm : PcMove cfg W a s ⟨k, s.obj, update s.pc t p, s.base⟩ t) :
    Quiet cfg W a s ⟨k, s.obj, update s.pc t p, s.base⟩ t where
  obj := rfl
  frame := hc.frame
  wb _ _ hw := hc.wb _ hw
  pc _ hu := Function.update_of_ne hu ..
  move := hm
  prio u _ _ := ⟨hc.prio u, rfl⟩

/-- Every thread stays where it is. -/
theorem quiet_stay (t : T) (hc : Calm (s.phases W) s.kern k) :
    Quiet cfg W a s { s with kern := k } t where
  obj := rfl
  frame := hc.frame
  wb u _ hw := hc.wb (u, .main) hw
  pc _ _ := rfl
  move := .stay rfl fun hw => hc.wb (t, .main) hw
  prio u _ _ := ⟨hc.prio u, rfl⟩

/-- The thread moves to another phase. -/
theorem quiet_turn (hc : Turn (s.phases W) t (p.phase W) s.kern k)
    (hp : ∀ u, (k.sched.item u).prio = (s.kern.sched.item u).prio)
    (hm : PcMove cfg W a s ⟨k, s.obj, update s.pc t p, s.base⟩ t) :
    Quiet cfg W a s ⟨k, s.obj, update s.pc t p, s.base⟩ t where
  obj := rfl
  frame := hc.frame
  wb _ hu hw := hc.wb _ hu hw
  pc _ hu := Function.update_of_ne hu ..
  move := hm
  prio u _ _ := ⟨hp u, rfl⟩

theorem WellFormed.awake (h : WellFormed W s) (hp : s.phases W t = .awake) :
    Awake s.kern t ∧ s.kern.wbNum t = 0 := by
  have := h.phases t
  rw [hp] at this
  exact ⟨this.1, this.2.1⟩

/-- A critical section of a call that runs no code of the object. -/
theorem go_calm (h : WellFormed W s) (hpc : s.pc t = .inCall stage c)
    (hph : s.phases W t = p.phase W) (hc : Calm (s.phases W) s.kern k)
    (hm : PcMove cfg W a s ⟨k, s.obj, update s.pc t p, s.base⟩ t) :
    StepCase cfg W a s ⟨k, s.obj, update s.pc t p, s.base⟩ ∧
      WellFormed W ⟨k, s.obj, update s.pc t p, s.base⟩ :=
  ⟨.quiet t (quiet_calm hc hm), h.calm s.obj s.base hc hph fun hg => by rw [hpc] at hg; cases hg⟩

/-- Code of the object ran, and no thread moved to another phase. -/
theorem WellFormed.code (h : WellFormed W s) {ws : Wtbl T E Q → Prop} {ex : T → Prop}
    {k0 : Kern T E Q A} (hk : KernOk k0 (s.phases W)) (hev : EvOk k0)
    (ht : k0.isTerminating = s.kern.isTerminating) (hm : Moves ws ex k0 k) (o : O)
    (hph : s.phases W t = p.phase W) (hg : s.pc t = .gone → p = .gone) :
    WellFormed W ⟨k, o, update s.pc t p, s.base⟩ := by
  refine h.next o s.base ?_ (hev.moves hm) (fun u _ hu => ?_) fun hu => ?_
  · rw [← hph, Function.update_eq_self]
    exact hm.kernOk hk fun u hu => absurd hu (phases_ne s u)
  · rwa [hm.isTerminating, ht] at hu
  · rw [hm.isTerminating, ht] at hu
    exact hg (h.term t hu)

theorem WaitObject.Lawful.poll (hW : W.Lawful) (h : WellFormed W s)
    (hph : s.phases W t = .awake) {p : Bool × Kern T E Q A × O}
    (hp : p = W.testWait t c false (fxSyncWaitBlockInit s.kern t (W.attr c), s.obj)) :
    Moves IsObj (· = t) (fxSyncWaitBlockInit s.kern t (W.attr c)) p.2.1 := by
  obtain ⟨_, ha, _⟩ := blockInit_kernOk h.phases hph (W.attr c)
  obtain ⟨r, ko⟩ := p
  cases r with
  | true => exact hW.testTrue t c false _ ko ha hp.symm
  | false => exact hW.testPoll t c _ ko ha hp.symm

theorem leave_prio (k : Kern T E Q A) (t u : T) :
    ((fxThreadWaitObjectLeave k t).2.sched.item u).prio = (k.sched.item u).prio := by
  show ((fxSyncWaitRollback k t).2.sched.item u).prio = _
  rw [(rollback_ev k t).2.2.1]

/-- **A critical section of a call.** -/
theorem advance_case (hW : W.Lawful) (h : WellFormed W s) {stage : Stage T E}
    (hpc : s.pc t = .inCall stage c) (hr : s.kern.state t = .ready) :
    StepCase cfg W (.go t) s (advance cfg W t c s stage) ∧
      WellFormed W (advance cfg W t c s stage) := by
  have hph : s.phases W t = (Pc.inCall stage c).phase W := by rw [Sys.phases, hpc]
  have hne : ∀ {q : Pc T E C}, s.pc t = .gone → q = .gone := fun hg => by rw [hpc] at hg; cases hg
  have hterm : ¬ s.kern.isTerminating t = true := fun ht => by
    have := h.term t ht
    rw [hpc] at this
    cases this
  cases stage with
  | reset =>
    exact go_calm h hpc hph (Calm.eventReset h.phases _) (.reset hpc (Function.update_self ..))
  | arm => exact go_calm h hpc hph (Calm.timerSet h.phases t) (.arm hpc (Function.update_self ..))
  | disarm r =>
    exact go_calm h hpc hph (Calm.timerCancel h.phases t) (.disarm hpc (Function.update_self ..))
  | enter ab =>
    obtain ⟨he, ho⟩ := entered (W.testWait t c) t (W.attr c) ab (s.kern, s.obj)
    have ht := hW.tested (c := c) (o := s.obj) h.phases (phases_ne s) h.ev hph hr
    have hs : advance cfg W t c s (.enter ab) =
        ⟨(fxThreadWaitObjectEnter (W.testWait t c) t (W.attr c) ab (s.kern, s.obj)).2.1,
          (W.testWait t c true (fxSyncWaiterPrepare s.kern t (W.attr c), s.obj)).2.2,
          update s.pc t (.inCall ((fxThreadWaitObjectEnter (W.testWait t c) t (W.attr c) ab
            (s.kern, s.obj)).1.elim (.asleep ab) (afterWait ab)) c), s.base⟩ := by
      rw [← ho]
      unfold advance
      dsimp only
      split <;> rename_i hx <;> rw [hx] <;> rfl
    refine ⟨.enter t c ab _ _ rfl hpc hr he hs, ?_⟩
    rw [hs]
    refine h.next _ _ ?_ (he.evOk ht.evOk) (fun u _ hu => ?_) fun hu => ?_
    · have hk := ht.entered he
      rcases he.result with ⟨e, _⟩ | ⟨e, _⟩ | ⟨e, _⟩
      all_goals rw [e] at hk ⊢
      · rw [show (some ThreadStatus.ok).elim (.asleep ab) (afterWait ab) = afterWait ab .ok
          from rfl, afterWait_phase]
        exact hk
      · rw [show (some ThreadStatus.waitCancelled).elim (.asleep ab) (afterWait ab) =
          afterWait ab .waitCancelled from rfl, afterWait_phase]
        exact hk
      · exact hk
    · rwa [he.isTerminating, ht.term] at hu
    · rw [he.isTerminating, ht.term] at hu
      exact absurd hu hterm
  | poll =>
    obtain ⟨hk, _, _⟩ := blockInit_kernOk h.phases hph (W.attr c)
    exact ⟨.poll t c _ rfl hpc hr rfl rfl, h.code hk h.ev rfl (hW.poll h hph rfl) _ hph hne⟩
  | asleep ab =>
    have hp := h.phases t
    rw [hph] at hp
    obtain ⟨n, hn⟩ := hp
    have hcnt : (s.kern.sched.item t).suspendCount = 0 := by
      have h1 := hn.state
      have h2 := hn.count
      rw [hr] at h1
      split at h1
      · cases h1
      · rw [h2, if_neg ‹_›]
    have hturn := Turn.leave h.phases (phases_ne s t) hr hcnt
    refine ⟨.quiet t (quiet_turn ?_ (leave_prio s.kern t)
      (.leave hpc hr (Function.update_self ..))), h.next _ _ ?_ (hturn.ev h.ev) (fun u _ hu => ?_)
      fun hu => ?_⟩
    · rw [afterWait_phase]
      exact hturn
    · rw [afterWait_phase]
      exact hturn.ok
    · rwa [show (fxThreadWaitObjectLeave s.kern t).2.isTerminating = s.kern.isTerminating from
        (rollback_ev s.kern t).2.1] at hu
    · rw [show (fxThreadWaitObjectLeave s.kern t).2.isTerminating = s.kern.isTerminating from
        (rollback_ev s.kern t).2.1] at hu
      exact absurd hu hterm
  | ret r =>
    have hs : advance cfg W t c s (.ret r) = ⟨(W.after t c r (s.kern, s.obj)).2.1,
        (W.after t c r (s.kern, s.obj)).2.2,
        update s.pc t (match (W.after t c r (s.kern, s.obj)).1 with
          | some c' => .inCall (firstStage cfg W (W.after t c r (s.kern, s.obj)).2.1 c') c'
          | none => .idle), s.base⟩ := by
      unfold advance
      dsimp only
      split <;> rename_i hx <;> rw [hx]
    refine ⟨.after t c r rfl hpc hr hs, ?_⟩
    rw [hs]
    refine h.code h.phases h.ev rfl (hW.after t c r (s.kern, s.obj)) _ ?_ hne
    rw [hph]
    split
    · exact (firstStage_phase _ _).symm
    · rfl

/-- A step in which no thread moves. -/
theorem stay_case (t : T) (h : WellFormed W s) (hc : Calm (s.phases W) s.kern k) :
    StepCase cfg W a s { s with kern := k } ∧ WellFormed W { s with kern := k } :=
  ⟨.quiet t (quiet_stay t hc), h.stay s.obj s.base hc.ok (hc.ev h.ev) hc.term⟩

theorem Sys.Free.pc (h : s.Free t) : s.pc t = .idle := by
  unfold Sys.Free at h
  split at h
  · assumption
  · exact h.elim

theorem Sys.Free.ready (h : s.Free t) : s.kern.state t = .ready := by
  have hpc := h.pc
  unfold Sys.Free at h
  rwa [hpc] at h

theorem Sys.Free.phase (h : s.Free t) : s.phases W t = .awake := by
  rw [Sys.phases, h.pc]
  rfl

theorem Sys.Created.ne (h : s.Created t) : s.pc t ≠ .absent := fun hp => by
  unfold Sys.Created at h
  rw [hp] at h
  exact h

theorem not_created (h : ¬ s.Created t) : s.pc t = .absent := by
  unfold Sys.Created at h
  split at h
  · assumption
  · exact absurd trivial h

theorem terminate_case (h : WellFormed W s) (ht : s.pc t ≠ .absent) :
    StepCase cfg W a s { s with
      kern := fxThreadTerminate s.kern t, pc := update s.pc t .gone } ∧
    WellFormed W { s with kern := fxThreadTerminate s.kern t, pc := update s.pc t .gone } := by
  by_cases hterm : s.kern.isTerminating t = true
  · have hg := h.term t hterm
    have hk : fxThreadTerminate s.kern t = s.kern := if_pos hterm
    rw [hk]
    have hph : s.phases W t = (Pc.gone : Pc T E C).phase W := by rw [Sys.phases, hg]
    refine ⟨.quiet t (quiet_calm (Calm.refl h.phases) (.gone ht (Function.update_self ..))), ?_⟩
    exact h.calm s.obj s.base (Calm.refl h.phases) hph fun _ => rfl
  · have hk : fxThreadTerminate s.kern t = fxThreadApcHelperDpc
        { s.kern with isTerminating := update s.kern.isTerminating t true } t := if_neg hterm
    have hsame : KernOk { s.kern with isTerminating := update s.kern.isTerminating t true }
        (s.phases W) := h.phases.same fun u => sched_view rfl rfl rfl rfl rfl
    have hturn := Turn.terminate (t := t) hsame (phases_ne s)
    have hturn' : Turn (s.phases W) t (Pc.phase W .gone) s.kern (fxThreadTerminate s.kern t) := by
      rw [hk]
      have h0 : Frame s.kern
          { s.kern with isTerminating := update s.kern.isTerminating t true } := Frame.of_eq rfl rfl
      exact ⟨hturn.ok, hturn.ev, h0.trans hturn.frame, hturn.wb⟩
    have hprio : ∀ u, ((fxThreadTerminate s.kern t).sched.item u).prio =
        (s.kern.sched.item u).prio := fun u => by
      rw [hk, terminate_prio]
    refine ⟨.quiet t (quiet_turn hturn' hprio (.gone ht (Function.update_self ..))), ?_⟩
    refine h.next s.obj s.base hturn'.ok (hturn'.ev h.ev) (fun u hu he => ?_) fun _ => rfl
    rw [hk, terminate_isTerminating] at he
    exact (Function.update_of_ne hu true s.kern.isTerminating).symm.trans he

theorem exit_case (h : WellFormed W s) (hf : s.Free t) :
    StepCase cfg W a s { s with
      kern := fxThreadExitSync s.kern t, pc := update s.pc t .gone } ∧
    WellFormed W { s with kern := fxThreadExitSync s.kern t, pc := update s.pc t .gone } := by
  obtain ⟨ha, hn⟩ := h.awake hf.phase
  have ht : s.pc t ≠ .absent := by
    rw [hf.pc]
    intro e
    cases e
  have hturn : Turn (s.phases W) t (Pc.phase W .gone) s.kern (fxThreadExitSync s.kern t) :=
    Turn.exitSync h.phases ha hn
  exact ⟨.quiet t (quiet_turn hturn (exitSync_prio s.kern t) (.gone ht (Function.update_self ..))),
    h.next s.obj s.base hturn.ok (hturn.ev h.ev) (fun _ _ => id) fun _ => rfl⟩

theorem init_prio (k : Kern T E Q A) (t : T) (prio : Nat) (susp : Bool) :
    ((fxThreadInitEx k t prio susp).sched.item t).prio = prio ∧
      ∀ u, u ≠ t → (fxThreadInitEx k t prio susp).sched.item u = k.sched.item u := by
  unfold fxThreadInitEx
  dsimp only
  split
  · refine ⟨?_, fun u hu => Function.update_of_ne hu ..⟩
    show (update k.sched.item t (⟨1, prio⟩ : SchedItem) t).prio = prio
    rw [Function.update_self]
  · refine ⟨?_, fun u hu => ?_⟩
    · show ((fxSchedItemResume (fxSchedItemInit k.sched t prio) t).item t).prio = prio
      rw [fxSchedItemResume_item, Function.update_self]
      show (update k.sched.item t (⟨1, prio⟩ : SchedItem) t).prio = prio
      rw [Function.update_self]
    · show (fxSchedItemResume (fxSchedItemInit k.sched t prio) t).item u = _
      rw [fxSchedItemResume_item, Function.update_of_ne hu]
      exact Function.update_of_ne hu ..

theorem init_isTerminating (k : Kern T E Q A) (t : T) (prio : Nat) (susp : Bool) :
    (fxThreadInitEx k t prio susp).isTerminating = update k.isTerminating t false := by
  unfold fxThreadInitEx
  dsimp only
  split <;> rfl

theorem init_case (h : WellFormed W s) (ht : ¬ s.Created t) (prio : Nat) (susp : Bool)
    (hq1 : s.kern.wq (.ev (.completion t)) = []) (hq2 : s.kern.wq (.ev (.timer t)) = []) :
    StepCase cfg W a s ⟨fxThreadInitEx s.kern t prio susp, s.obj, update s.pc t .idle,
      update s.base t prio⟩ ∧
    WellFormed W ⟨fxThreadInitEx s.kern t prio susp, s.obj, update s.pc t .idle,
      update s.base t prio⟩ := by
  have hpc := not_created ht
  have hph : s.phases W t = .absent := by rw [Sys.phases, hpc]; rfl
  obtain ⟨hturn, hwq, hwb⟩ := Turn.init h.phases hph prio susp hq1 hq2
  obtain ⟨hp, hi⟩ := init_prio s.kern t prio susp
  refine ⟨.quiet t ⟨rfl, hturn.frame, fun u hu hw => hturn.wb _ hu hw,
    fun u hu => Function.update_of_ne hu .., .init hpc (Function.update_self ..) ?_,
    fun u hu _ => ?_⟩, ?_⟩
  · show _ = update s.base t prio t
    rw [Function.update_self]
    exact hp
  · have hut : u ≠ t := fun e => hu (e ▸ hpc)
    refine ⟨?_, Function.update_of_ne hut ..⟩
    show ((fxThreadInitEx s.kern t prio susp).sched.item u).prio = _
    rw [hi u hut]
  · refine h.next s.obj _ hturn.ok (hturn.ev h.ev) (fun u hu he => ?_) fun he => ?_
    · rw [init_isTerminating, Function.update_of_ne hu] at he
      exact he
    · rw [init_isTerminating, Function.update_self] at he
      cases he

theorem setPrio_prio (k : Kern T E Q A) (prio : Nat) {u : T} (hu : u ≠ t) :
    ((k.setPrio t prio).sched.item u).prio = (k.sched.item u).prio := by
  show ((fxSchedItemSetParams k.sched t prio).item u).prio = _
  rw [fxSchedItemSetParams_item, Function.update_of_ne hu]

theorem setPrio_case (h : WellFormed W s) (prio : Nat) :
    StepCase cfg W (.setPrio t prio) s { s with
      kern := (fxThreadSetParamsPrio (cfg.prioNum - 1) s.kern t prio).2
      base := if prio < cfg.prioNum - 1 then update s.base t prio else s.base } ∧
    WellFormed W { s with
      kern := (fxThreadSetParamsPrio (cfg.prioNum - 1) s.kern t prio).2
      base := if prio < cfg.prioNum - 1 then update s.base t prio else s.base } := by
  unfold fxThreadSetParamsPrio
  split
  · refine ⟨.quiet t ⟨rfl, Frame.of_eq rfl rfl, fun _ _ _ => rfl, fun _ _ => rfl,
      .stay rfl fun _ => rfl, fun u _ hu => ?_⟩, ?_⟩
    · have hut : u ≠ t := fun e => hu prio (e ▸ rfl)
      exact ⟨setPrio_prio s.kern prio hut, Function.update_of_ne hut ..⟩
    · exact h.stay s.obj _ (h.phases.same fun u => setPrio_view u t prio) h.ev rfl
  · exact stay_case t h (Calm.refl h.phases)

/-- **What one step can do**, and that it keeps the system well formed. -/
theorem step_case (hW : W.Lawful) (h : WellFormed W s) (hs : step cfg W a s = some s') :
    StepCase cfg W a s s' ∧ WellFormed W s' := by
  cases a with
  | init t prio susp =>
    obtain ⟨⟨ht, _, _, hq1, hq2⟩, rfl⟩ := taken hs
    exact init_case h ht prio susp hq1 hq2
  | call t c =>
    obtain ⟨hf, rfl⟩ := taken hs
    cases hst : W.start s.kern s.obj t c with
    | none =>
      exact stay_case t h (Calm.refl h.phases)
    | some c' =>
      refine ⟨.quiet t (quiet_calm (Calm.refl h.phases)
        (.call rfl hf.pc hst (Function.update_self ..))), ?_⟩
      refine h.calm s.obj s.base (Calm.refl h.phases) ?_ fun hg => ?_
      · rw [firstStage_phase]
        exact hf.phase
      · rw [hf.pc] at hg
        cases hg
  | go t =>
    cases hpc : s.pc t with
    | inCall stage c =>
      simp only [step, hpc] at hs
      obtain ⟨hr, rfl⟩ := taken hs
      exact advance_case hW h hpc hr
    | absent => simp [step, hpc] at hs
    | idle => simp [step, hpc] at hs
    | gone => simp [step, hpc] at hs
  | op p =>
    obtain ⟨hc, hs⟩ := Option.ite_none_right_eq_some.mp hs
    obtain ⟨ko, ho, rfl⟩ := Option.map_eq_some_iff.mp hs
    have hm := hW.op p _ ko _ h.phases ho
    refine ⟨.op p ko rfl hc ho rfl, h.stay ko.2 s.base ?_ (h.ev.moves hm) hm.isTerminating⟩
    exact hm.kernOk h.phases fun u hu => absurd hu (phases_ne s u)
  | expire t =>
    obtain ⟨_, rfl⟩ := taken hs
    exact stay_case t h (Calm.timerExpire h.phases (phases_ne s) t)
  | evSet e =>
    cases hs
    exact stay_case cfg.idle h (Calm.eventSet h.phases (phases_ne s) _)
  | evReset e =>
    cases hs
    exact stay_case cfg.idle h (Calm.eventReset h.phases _)
  | evDeinit e =>
    cases hs
    exact stay_case cfg.idle h (Calm.eventDeinit h.phases (phases_ne s) e)
  | terminate t =>
    obtain ⟨hc, rfl⟩ := taken hs
    exact terminate_case h hc.ne
  | exit t =>
    obtain ⟨hf, rfl⟩ := taken hs
    exact exit_case h hf
  | suspend t =>
    obtain ⟨hf, rfl⟩ := taken hs
    exact stay_case t h (Calm.suspend h.phases hf.phase hf.ready)
  | resume t =>
    obtain ⟨_, rfl⟩ := taken hs
    exact stay_case t h (Calm.resume h.phases (phases_ne s) t)
  | yield t =>
    obtain ⟨_, rfl⟩ := taken hs
    exact stay_case t h (Calm.sched h.phases (fxSchedYield_item s.kern.sched t))
  | setPrio t prio =>
    obtain ⟨_, rfl⟩ := taken hs
    exact setPrio_case h prio
  | dispatch =>
    cases hs
    exact stay_case cfg.idle h (Calm.dispatch h.phases (phases_ne s))

/-- In every reachable state the system is well formed. -/
theorem reach_wellFormed (hW : W.Lawful) {G : Sys T E Q A O C → Act T E C P → Prop} {o : O}
    (h : Reach (step cfg W) G (boot cfg o) s) : WellFormed W s :=
  h.inv (boot_wellFormed o) fun _ _ _ hj _ hs => (step_case hW hj hs).2

end Schritte

/-! ## 4. Invariants of an object -/

/-- `J` is kept by the code of the object, whatever the threads are doing, and by every change
    of the kernel in which blocks only leave the queues. -/
structure ObjInv (W : WaitObject T E Q A O C P) (J : Kern T E Q A × O → Prop) : Prop where
  frame : ∀ k k' o, Frame k k' → J (k, o) → J (k', o)
  test : ∀ t c wait s ph, KernOk s.1 ph → (s.1.wb (t, .main)).u = .attribute (W.attr c) → J s →
    J (W.testWait t c wait s).2
  after : ∀ t c r s ph, KernOk s.1 ph → (∀ u, ph u ≠ .entering) → J s → J (W.after t c r s).2
  op : ∀ p s s' ph, KernOk s.1 ph → (∀ u, ph u ≠ .entering) → J s → W.op p s = some s' → J s'

section Objekte

variable {J : Kern T E Q A × O → Prop}

/-- **One step keeps the invariant of the object.** -/
theorem ObjInv.step {a : Act T E C P} (hJ : ObjInv W J) (hW : W.Lawful) (h : WellFormed W s)
    (hj : J (s.kern, s.obj)) (hs : step cfg W a s = some s') : J (s'.kern, s'.obj) := by
  cases (step_case hW h hs).1 with
  | quiet t hq =>
    rw [hq.obj]
    exact hJ.frame _ _ _ hq.frame hj
  | enter t c ab r k ha hpc hr he hs =>
    have hph : s.phases W t = .awake := by rw [Sys.phases, hpc]; rfl
    obtain ⟨hk1, hprep, hf1⟩ := prepare_kernOk h.phases hph hr (W.attr c)
    have ht := hW.tested (c := c) (o := s.obj) h.phases (phases_ne s) h.ev hph hr
    have h1 := hJ.test t c true (_, s.obj) _ hk1
      (congrArg WaitBlock.u hprep.main) (hJ.frame _ _ _ hf1 hj)
    rw [hs]
    exact hJ.frame _ _ _ (he.frame ht.ok.tied ht.abort) h1
  | poll t c p ha hpc hr hp hs =>
    have hph : s.phases W t = .awake := by rw [Sys.phases, hpc]; rfl
    obtain ⟨hk, _, hf⟩ := blockInit_kernOk h.phases hph (W.attr c)
    rw [hs, hp]
    have hattr : ((fxSyncWaitBlockInit s.kern t (W.attr c)).wb (t, .main)).u =
        .attribute (W.attr c) := by
      show (update s.kern.wb _ _ _).u = _
      rw [Function.update_self]
    exact hJ.test t c false (_, s.obj) _ hk hattr (hJ.frame _ _ _ hf hj)
  | after t c r ha hpc hr hs =>
    rw [hs]
    exact hJ.after t c r _ _ h.phases (phases_ne s) hj
  | op p ko ha hc ho hs =>
    rw [hs]
    exact hJ.op p _ ko _ h.phases (phases_ne s) hj ho

/-- **The invariant of the object holds in every reachable state.** -/
theorem ObjInv.reach (hJ : ObjInv W J) (hW : W.Lawful)
    {G : Sys T E Q A O C → Act T E C P → Prop} {o : O}
    (h0 : J (fxThreadCtor cfg.prioNum cfg.idle, o))
    (h : Reach (FxRtos.step cfg W) G (boot cfg o) s) : J (s.kern, s.obj) :=
  Reach.inv_of (J := fun s => J (s.kern, s.obj)) (fun _ hr => reach_wellFormed hW hr) h0
    (fun _ _ _ hw hj _ hs => hJ.step hW hw hj hs) h

end Objekte

end FxRtos
