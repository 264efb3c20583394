/-
  File:      FxRtos/Kernel/Elsewhere.lean
  Subject:   WHAT THE REST OF THE SYSTEM DOES to one thread and to one event.

  * `Elsewhere` -- the thread's blocks are notified, but none that is queued at the event, and the
    event is left alone.
  * `Elsewhere.asleep`, `Elsewhere.spare` -- so a block that waits for the event stays queued, and
    a thread that is awake is not touched at all.
  * `elsewhere_step` -- every step is of that kind, for a thread that it does not concern and an
    event that it does not touch.
-/
import FxRtos.Kernel.Runs

namespace FxRtos

open Function (update)
open Lib

set_option linter.unusedSectionVars false

/-! ## 1. Changes of the kernel -/

section Umgebung

variable {T E Q A : Type} [DecidableEq T] [DecidableEq E] [DecidableEq Q]
  {k k' : Kern T E Q A} {me : T} {w : Wtbl T E Q} {ab : Option (Ev T E)}
  {n : Slot → Option WaitStatus} {ws : Wtbl T E Q → Prop} {ex : T → Prop} {x : Ev T E}

/-- What the rest of the system may do to the kernel, sparing the thread `me` and the event `x`. -/
inductive Elsewhere (x : Ev T E) (me : T) (k : Kern T E Q A) : Kern T E Q A → Prop where
  | refl : Elsewhere x me k k
  | moves {k1 k2 : Kern T E Q A} (h : Elsewhere x me k k1)
      (hm : Moves (· ≠ .ev x) NoOne k1 k2) : Elsewhere x me k k2
  | view {k1 k2 : Kern T E Q A} (h : Elsewhere x me k k1) (hv : SameView me k1 k2)
      (hev : k2.ev x = k1.ev x) : Elsewhere x me k k2

/-- What the blocks of a wait are queued at. -/
def blockTarget (w : Wtbl T E Q) (ab : Option (Ev T E)) : Slot → Option (Wtbl T E Q)
  | .main => some w
  | .abort => ab.map .ev

theorem Asleep.blockAt (h : Asleep k me w ab n) (slot : Slot) :
    BlockAt k (me, slot) (blockTarget w ab slot) (n slot) := by
  cases slot with
  | main => exact h.main
  | abort => exact h.abort

/-- Only a block that waits is notified. -/
theorem Asleep.target_some (h : Asleep k me w ab n) {slot : Slot} (hn : n slot ≠ none) :
    (blockTarget w ab slot).isSome := by
  have hat := h.blockAt slot
  obtain ⟨r, hr⟩ := Option.ne_none_iff_exists'.mp hn
  rw [hr] at hat
  exact hat.2

/-- **A thread asleep stays so under any moves**, and its blocks that are queued elsewhere are not
    notified. -/
theorem Asleep.moves (h : Asleep k me w ab n) (hm : Moves ws ex k k') :
    ∃ n', Asleep k' me w ab n' ∧
      ∀ slot v, blockTarget w ab slot = some v → ¬ ws v → n' slot = n slot := by
  induction hm with
  | refl => exact ⟨n, h, fun _ _ _ _ => rfl⟩
  | @notify k1 b v r _ hb hw _ hr ih =>
    obtain ⟨n1, h1, hn⟩ := ih
    obtain ⟨u, slot⟩ := b
    by_cases hu : u = me
    · subst hu
      have hlinked : (k1.wb (u, slot)).waitable = some v := (h1.tied slot).mem_iff.mp hb
      have hne : (k1.wb (u, slot)).waitable ≠ none := by simp [hlinked]
      refine ⟨_, h1.notify hne hr, fun slot' v' ht hv' => ?_⟩
      by_cases hs : slot' = slot
      · -- the block notified was queued at `v`
        subst hs
        have hat := h1.blockAt slot'
        rw [h1.not_notified hne] at hat
        have he : some v = some v' := hlinked.symm.trans (hat.1.trans ht)
        exact absurd (Option.some.inj he ▸ hw) hv'
      · rw [Function.update_of_ne hs]
        exact hn slot' v' ht hv'
    · exact ⟨n1, h1.view (notify_view hu r), hn⟩
  | setPrio _ t p ih =>
    obtain ⟨n1, h1, hn⟩ := ih
    exact ⟨n1, h1.view (setPrio_view me t p), hn⟩

theorem awake_moves (h : PhaseOk k me (.awake : Phase T E Q)) (hm : Moves ws ex k k') :
    PhaseOk k' me (.awake : Phase T E Q) := h.view (hm.spare h.1)

theorem Elsewhere.ev (h : Elsewhere x me k k') : k'.ev x = k.ev x := by
  induction h with
  | refl => rfl
  | moves _ hm ih => rw [hm.ev, ih]
  | view _ _ hev ih => exact hev.trans ih

theorem Elsewhere.awake (h : Elsewhere x me k k') (hp : PhaseOk k me (.awake : Phase T E Q)) :
    PhaseOk k' me (.awake : Phase T E Q) := by
  induction h with
  | refl => exact hp
  | moves _ hm ih => exact awake_moves ih hm
  | view _ hv _ ih => exact ih.view hv

/-- A block that waits for the event is left alone. -/
theorem Elsewhere.asleep (h : Elsewhere x me k k') (ha : Asleep k me w ab n) :
    ∃ n', Asleep k' me w ab n' ∧
      ∀ slot, blockTarget w ab slot = some (.ev x) → n' slot = n slot := by
  induction h with
  | refl => exact ⟨n, ha, fun _ _ => rfl⟩
  | moves _ hm ih =>
    obtain ⟨n1, h1, hn1⟩ := ih
    obtain ⟨n2, h2, hn2⟩ := h1.moves hm
    exact ⟨n2, h2, fun slot ht => (hn2 slot _ ht fun hne => hne rfl).trans (hn1 slot ht)⟩
  | view _ hv _ ih =>
    obtain ⟨n1, h1, hn1⟩ := ih
    exact ⟨n1, h1.view hv, hn1⟩

/-- A thread that is awake is not touched at all. -/
theorem Elsewhere.spare (h : Elsewhere x me k k') (ha : Awake k me) : SameView me k k' := by
  induction h with
  | refl => exact SameView.refl me k
  | moves _ hm ih => exact ih.trans (hm.spare (ha.view ih))
  | view _ hv _ ih => exact ih.trans hv

theorem Elsewhere.trans {k'' : Kern T E Q A} (h1 : Elsewhere x me k k')
    (h2 : Elsewhere x me k' k'') : Elsewhere x me k k'' := by
  induction h2 with
  | refl => exact h1
  | moves _ hm ih => exact ih.moves hm
  | view _ hv hev ih => exact ih.view hv hev

/-- Another event set. -/
theorem Elsewhere.eventSet (k : Kern T E Q A) {e : Ev T E} (he : e ≠ x) :
    Elsewhere x me k (fxEventInternalSet k e) := by
  unfold fxEventInternalSet
  split
  · exact .refl
  · have hset : Elsewhere x me k { k with ev := update k.ev e true } :=
      Elsewhere.refl.view (sched_view rfl rfl rfl rfl rfl) (Function.update_of_ne (Ne.symm he) ..)
    exact hset.moves (Moves.notifyAll (fun h => he (Wtbl.ev.inj h)) (Or.inl rfl) _)

/-- The thread's own event set. -/
theorem awake_eventSet (h : PhaseOk k me (.awake : Phase T E Q)) (e : Ev T E) :
    PhaseOk (fxEventInternalSet k e) me (.awake : Phase T E Q) := by
  obtain ⟨k1, hm, hk1⟩ := eventSet_moves k e
  have h1 : PhaseOk k1 me (.awake : Phase T E Q) := by
    rcases hk1 with rfl | rfl
    · exact h
    · exact h.view (sched_view rfl rfl rfl rfl rfl)
  exact awake_moves h1 hm

theorem Asleep.eventSet (h : Asleep k me w ab n) (e : Ev T E) :
    ∃ n', Asleep (fxEventInternalSet k e) me w ab n' := by
  obtain ⟨k1, hm, hk1⟩ := eventSet_moves k e
  have h1 : Asleep k1 me w ab n := by
    rcases hk1 with rfl | rfl
    · exact h
    · exact h.view (sched_view rfl rfl rfl rfl rfl)
  obtain ⟨n', h', _⟩ := h1.moves hm
  exact ⟨n', h'⟩

end Umgebung

/-! ## 2. The steps -/

/-- The action is one of the thread's own, or done to it. -/
def Act.concerns {T E C P : Type} (me : T) : Act T E C P → Prop
  | .init t _ _ => t = me
  | .go t => t = me
  | .terminate t => t = me
  | .exit t => t = me
  | .suspend t => t = me
  | .resume t => t = me
  | _ => False

/-- The event is set or reset by the action, or the blocks queued at it are notified. -/
def Act.touches {T E Q A O C P : Type} (s : Sys T E Q A O C) (x : Ev T E) : Act T E C P → Prop
  | .init t _ _ => x = .completion t ∨ x = .timer t
  | .go t => x = .timer t
  | .expire t => x = .timer t
  | .evSet e => x = .user e
  | .evReset e => x = .user e
  | .evDeinit e => x = .user e
  | .terminate t => x = .completion t
  | .dispatch =>
    x = .completion s.kern.sched.active ∧ s.kern.state s.kern.sched.active = .completed
  | _ => False

/-- The event of its timer is touched only by what concerns the thread, and when it expires. -/
theorem Act.touches_timer {T E Q A O C P : Type} {s : Sys T E Q A O C} {me : T}
    {a : Act T E C P} (h : a.touches s (.timer me)) : a.concerns me ∨ a = .expire me := by
  cases a with
  | init t prio susp =>
    rcases h with h | h
    · cases h
    · exact Or.inl (Ev.timer.inj h).symm
  | go t => exact Or.inl (Ev.timer.inj h).symm
  | expire t =>
    obtain rfl : me = t := Ev.timer.inj h
    exact Or.inr rfl
  | dispatch => cases h.1
  | _ => cases h

section Andere

variable {T E Q A O C P : Type} [DecidableEq T] [DecidableEq E] [DecidableEq Q]
  {cfg : Config T} {W : WaitObject T E Q A O C P} {me t : T} {s s' : Sys T E Q A O C}
  {k k' : Kern T E Q A} {ws : Wtbl T E Q → Prop} {ex : T → Prop} {x : Ev T E}

theorem Elsewhere.of_view (hv : SameView me k k') (hev : k'.ev x = k.ev x) :
    Elsewhere x me k k' := Elsewhere.refl.view hv hev

/-- What objects do. -/
theorem Elsewhere.of_moves (hm : Moves IsObj ex k k') : Elsewhere x me k k' := by
  induction hm with
  | refl => exact .refl
  | @notify k1 b w r _ hb hw _ hr ih =>
    have hne : w ≠ .ev x := by
      rintro rfl
      exact hw
    exact ih.moves (Moves.refl.notify hb hne not_false hr)
  | setPrio _ u p ih => exact ih.moves (Moves.refl.setPrio u p)

theorem Elsewhere.rollback (k : Kern T E Q A) (ht : t ≠ me) :
    Elsewhere x me k (fxSyncWaitRollback k t).2 :=
  .of_view (rollback_view ht) (congrFun (rollback_ev k t).1 _)

/-- The test of a wait of another thread. -/
theorem WaitObject.Lawful.test_elsewhere (hW : W.Lawful) (c : C) {s : Kern T E Q A × O}
    (wait : Bool) (ha : Awake s.1 t) (ht : t ≠ me) :
    Elsewhere x me s.1 (W.testWait t c wait s).2.1 := by
  cases hp : W.testWait t c wait s with
  | mk r ko =>
    cases r with
    | true => exact .of_moves (hW.testTrue t c wait s ko ha hp)
    | false =>
      cases wait with
      | true =>
        obtain ⟨_, hm⟩ := hW.testWait t c s ko ha hp
        exact (Elsewhere.of_view (waitStart_view ht) rfl).trans (.of_moves hm)
      | false => exact .of_moves (hW.testPoll t c s ko ha hp)

theorem Entered.elsewhere {ab : Option (Ev T E)} {p : Bool × Kern T E Q A × O}
    {r : Option ThreadStatus} (h : Entered t ab p r k') (ht : t ≠ me) :
    Elsewhere x me p.2.1 k' := by
  cases h with
  | passed _ => exact Elsewhere.rollback _ ht
  | cancelled _ e _ _ => exact Elsewhere.rollback _ ht
  | alone _ _ => exact .of_view (sleepOn_view ht) rfl
  | both _ e _ _ => exact .of_view ((waitStart_view ht).trans (sleepOn_view ht)) rfl

/-- A critical section of a call of another thread. -/
theorem elsewhere_advance (hW : W.Lawful) (h : WellFormed W s) (ht : t ≠ me) {stage : Stage T E}
    {c : C} (hpc : s.pc t = .inCall stage c) (hx : x ≠ .timer t) :
    Elsewhere x me s.kern (advance cfg W t c s stage).kern := by
  have hphase : PhaseOk s.kern t ((Pc.inCall stage c).phase W) := hpc ▸ h.kern t
  cases stage with
  | reset => exact .of_view (sched_view rfl rfl rfl rfl rfl) (Function.update_of_ne hx ..)
  | arm => exact .of_view (sched_view rfl rfl rfl rfl rfl) rfl
  | enter ab =>
    have hprep := prepared hphase.1 (W.attr c)
    have htest : Elsewhere x me (fxSyncWaiterPrepare s.kern t (W.attr c)) _ :=
      hW.test_elsewhere c (s := (fxSyncWaiterPrepare s.kern t (W.attr c), s.obj)) true
        hprep.awake ht
    have hprepared : Elsewhere x me s.kern (fxSyncWaiterPrepare s.kern t (W.attr c)) :=
      .of_view (prepare_view ht (W.attr c)) rfl
    have hall := (hprepared.trans htest).trans
      ((entered (W.testWait t c) t (W.attr c) ab (s.kern, s.obj)).1.elsewhere ht)
    rw [advance_enter]
    exact hall
  | poll =>
    obtain ⟨_, ha, _⟩ := blockInit_kernOk h.phases
      (show s.phases W t = .awake by unfold Sys.phases; rw [hpc]; rfl) (W.attr c)
    have hinit : SameView me s.kern (fxSyncWaitBlockInit s.kern t (W.attr c)) :=
      ⟨fun slot => Function.update_of_ne (ne_blk ht slot) .., fun _ _ => rfl, rfl, rfl, rfl⟩
    exact (Elsewhere.of_view hinit rfl).trans
      (hW.test_elsewhere (s := (fxSyncWaitBlockInit s.kern t (W.attr c), s.obj)) c false ha ht)
  | asleep ab => exact Elsewhere.rollback s.kern ht
  | disarm r => exact .of_view (sched_view rfl rfl rfl rfl rfl) rfl
  | ret r =>
    rw [advance_ret]
    exact .of_moves (hW.after t c r (s.kern, s.obj))

/-- The scheduler on its own. -/
theorem Elsewhere.sched {c : SchedContext T (MpqContainer T)} (hc : c.item = k.sched.item) :
    Elsewhere x me k { k with sched := c } :=
  .of_view (sched_view rfl rfl rfl rfl (congrArg SchedItem.suspendCount (congrFun hc me))) rfl

/-- **Every step that does not concern the thread, and does not touch the event, is the rest of the
    system's.** -/
theorem elsewhere_step (hW : W.Lawful) (h : WellFormed W s) {a : Act T E C P}
    (ha : ¬ a.concerns me) (hx : ¬ a.touches s x) (hs : step cfg W a s = some s') :
    Elsewhere x me s.kern s'.kern := by
  cases a with
  | init t prio susp =>
    obtain ⟨⟨_, _, _, hq1, hq2⟩, rfl⟩ := taken hs
    refine .of_view (init_view (Ne.symm ha) prio susp hq1 hq2) ?_
    obtain ⟨_, _, hev⟩ := init_wb s.kern t prio susp
    rw [hev, Function.update_of_ne fun he => hx (Or.inr he),
      Function.update_of_ne fun he => hx (Or.inl he)]
  | call t c =>
    obtain ⟨_, rfl⟩ := taken hs
    cases W.start s.kern s.obj t c with
    | none => exact .refl
    | some c' => exact .refl
  | go t =>
    cases hpc : s.pc t with
    | inCall stage c =>
      simp only [step, hpc] at hs
      obtain ⟨_, rfl⟩ := taken hs
      exact elsewhere_advance hW h ha hpc hx
    | absent => simp [step, hpc] at hs
    | idle => simp [step, hpc] at hs
    | gone => simp [step, hpc] at hs
  | op p =>
    obtain ⟨_, hs⟩ := Option.ite_none_right_eq_some.mp hs
    obtain ⟨ko, ho, rfl⟩ := Option.map_eq_some_iff.mp hs
    exact .of_moves (hW.op p _ ko _ h.phases ho)
  | expire t =>
    obtain ⟨_, rfl⟩ := taken hs
    have hcancel : Elsewhere x me s.kern (fxTimerCancel s.kern t) :=
      .of_view (sched_view rfl rfl rfl rfl rfl) rfl
    exact hcancel.trans (.eventSet _ (Ne.symm hx))
  | evSet e =>
    cases hs
    exact .eventSet _ (Ne.symm hx)
  | evReset e =>
    cases hs
    refine .of_view (sched_view rfl rfl rfl rfl rfl) ?_
    show update s.kern.ev (.user e) false x = _
    exact Function.update_of_ne hx ..
  | evDeinit e =>
    cases hs
    have hvalid : Elsewhere x me s.kern { s.kern with valid := update s.kern.valid e false } :=
      .of_view (sched_view rfl rfl rfl rfl rfl) rfl
    exact hvalid.moves (Moves.notifyAll (fun he => hx (Wtbl.ev.inj he).symm) (Or.inr rfl) _)
  | terminate t =>
    obtain ⟨_, rfl⟩ := taken hs
    show Elsewhere x me s.kern (fxThreadTerminate s.kern t)
    unfold fxThreadTerminate fxThreadApcHelperDpc
    split
    · exact .refl
    · have hcancel : Elsewhere x me s.kern (fxTimerCancel
          { s.kern with isTerminating := update s.kern.isTerminating t true } t) :=
        .of_view (sched_view rfl rfl rfl rfl rfl) rfl
      have hexit := (hcancel.trans (.rollback _ ha)).trans (.of_view (exitSync_view ha) rfl)
      exact hexit.trans (.eventSet _ (Ne.symm hx))
  | exit t =>
    obtain ⟨_, rfl⟩ := taken hs
    exact .of_view (exitSync_view ha) rfl
  | suspend t =>
    obtain ⟨_, rfl⟩ := taken hs
    exact .of_view (suspend_view ha) rfl
  | resume t =>
    obtain ⟨_, rfl⟩ := taken hs
    refine .of_view (resume_view ha) ?_
    show (fxThreadResume s.kern t).ev x = _
    unfold fxThreadResume
    split <;> rfl
  | yield t =>
    obtain ⟨_, rfl⟩ := taken hs
    exact .sched (fxSchedYield_item s.kern.sched t)
  | setPrio t prio =>
    obtain ⟨_, rfl⟩ := taken hs
    show Elsewhere x me s.kern (fxThreadSetParamsPrio (cfg.prioNum - 1) s.kern t prio).2
    unfold fxThreadSetParamsPrio
    split
    · exact .of_view (setPrio_view me t prio) rfl
    · exact .refl
  | dispatch =>
    cases hs
    have hnext : Elsewhere x me s.kern { s.kern with sched := (fxSchedGetNext s.kern.sched).2 } :=
      .sched (fxSchedGetNext_item s.kern.sched)
    show Elsewhere x me s.kern (fxDispatchHandler s.kern)
    unfold fxDispatchHandler
    dsimp only
    split
    · split
      · rename_i hnew
        exact hnext.trans (.eventSet _ fun he => hx ⟨he.symm, hnew.2⟩)
      · exact hnext
    · exact hnext

end Andere

end FxRtos
