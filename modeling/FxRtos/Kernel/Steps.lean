/-
  File:      FxRtos/Kernel/Steps.lean
  Subject:   CHANGES OF THE KERNEL, as the steps of the system make them.

  * `Calm` -- the kernel changed and every thread is where it was.
  * `Turn` -- the kernel changed and one thread moved to another phase.
  * `Entered` -- how `fx_thread_wait_object_internal` goes on after the test of the object.
-/
import FxRtos.Kernel.Engine

namespace FxRtos

open Function (update)
open Lib

set_option linter.unusedSectionVars false

variable {T E Q A O C P : Type} [DecidableEq T] [DecidableEq E] [DecidableEq Q]

/-! ## 1. Changes of the kernel -/

/-- The kernel changed, and every thread is where it was. -/
structure Calm (ph : T → Phase T E Q) (k k' : Kern T E Q A) : Prop where
  ok : KernOk k' ph
  ev : EvOk k → EvOk k'
  term : k'.isTerminating = k.isTerminating
  frame : Frame k k'
  wb : ∀ b, (∀ w, (k.wb b).waitable = some w → ¬ IsEv w) → k'.wb b = k.wb b
  prio : ∀ u, (k'.sched.item u).prio = (k.sched.item u).prio

section Ruhe

variable {ph : T → Phase T E Q} {k k' : Kern T E Q A} {t : T}

theorem Calm.trans {k'' : Kern T E Q A} (h1 : Calm ph k k') (h2 : Calm ph k' k'') :
    Calm ph k k'' where
  ok := h2.ok
  ev h := h2.ev (h1.ev h)
  term := h2.term.trans h1.term
  frame := h1.frame.trans h2.frame
  wb b hb := (h2.wb b (by rw [h1.wb b hb]; exact hb)).trans (h1.wb b hb)
  prio u := (h2.prio u).trans (h1.prio u)

/-- Blocks, queues and events are left alone. -/
theorem Calm.of_eq (hok : KernOk k' ph) (hwb : k'.wb = k.wb) (hwq : k'.wq = k.wq)
    (hev : ∀ e, k'.ev e = true → k.ev e = true) (ht : k'.isTerminating = k.isTerminating)
    (hp : ∀ u, (k'.sched.item u).prio = (k.sched.item u).prio) : Calm ph k k' where
  ok := hok
  ev h := h.of hev fun e => by rw [hwq]
  term := ht
  frame := Frame.of_eq hwq hwb
  wb b _ := by rw [hwb]
  prio := hp

theorem Calm.refl (h : KernOk k ph) : Calm ph k k :=
  Calm.of_eq h rfl rfl (fun _ => id) rfl fun _ => rfl

theorem Calm.eventReset (h : KernOk k ph) (e : Ev T E) : Calm ph k (fxEventInternalReset k e) := by
  refine Calm.of_eq (h.same fun u => sched_view rfl rfl rfl rfl rfl) rfl rfl (fun e' he' => ?_)
    rfl fun _ => rfl
  by_cases hee : e' = e
  · rw [hee, show (fxEventInternalReset k e).ev e = false from Function.update_self ..] at he'
    cases he'
  · rwa [show (fxEventInternalReset k e).ev e' = k.ev e' from
      Function.update_of_ne hee ..] at he'

theorem Calm.timerSet (h : KernOk k ph) (t : T) : Calm ph k (fxTimerSet k t) :=
  Calm.of_eq (h.same fun _ => sched_view rfl rfl rfl rfl rfl) rfl rfl (fun _ => id) rfl fun _ => rfl

theorem Calm.timerCancel (h : KernOk k ph) (t : T) : Calm ph k (fxTimerCancel k t) :=
  Calm.of_eq (h.same fun _ => sched_view rfl rfl rfl rfl rfl) rfl rfl (fun _ => id) rfl fun _ => rfl

theorem Calm.eventSet (h : KernOk k ph) (he : ∀ t, ph t ≠ .entering) (e : Ev T E) :
    Calm ph k (fxEventInternalSet k e) where
  ok := h.eventSet he e
  ev hev := hev.eventSet e
  term := eventSet_isTerminating k e
  frame := Frame.eventSet h he e
  wb _ hb := eventSet_wb h he e hb
  prio := eventSet_prio k e

theorem Calm.timerExpire (h : KernOk k ph) (he : ∀ t, ph t ≠ .entering) (t : T) :
    Calm ph k (fxTimerExpire k t) :=
  (Calm.timerCancel h t).trans (Calm.eventSet (Calm.timerCancel h t).ok he _)

theorem Calm.eventDeinit (h : KernOk k ph) (he : ∀ t, ph t ≠ .entering) (e : E) :
    Calm ph k (fxEventDeinit k e) := by
  have h0 : Calm ph k { k with valid := update k.valid e false } :=
    Calm.of_eq (h.same fun u => sched_view rfl rfl rfl rfl rfl) rfl rfl (fun _ => id) rfl
      fun _ => rfl
  have hm : Moves IsEv NoOne { k with valid := update k.valid e false } (fxEventDeinit k e) :=
    Moves.notifyAll (w := .ev (.user e)) trivial (Or.inr rfl) _
  have hx : ∀ t, ph t = .entering → NoOne t := fun t ht => absurd ht (he t)
  exact h0.trans ⟨hm.kernOk h0.ok hx, fun hev => hev.moves hm, hm.isTerminating,
    Frame.moves h0.ok hm hx, fun b hb => hm.wb h0.ok hx hb, fun u => notifyLoop_prio ..⟩

/-- A thread that is awake stays so when it is resumed, or suspends itself. -/
theorem Calm.resume (h : KernOk k ph) (he : ∀ t, ph t ≠ .entering) (t : T) :
    Calm ph k (fxThreadResume k t) := by
  by_cases hs : k.state t = .suspended
  · have e : fxThreadResume k t = { k with
        sched := fxSchedItemResume k.sched t, state := update k.state t .ready } := if_pos hs
    refine Calm.of_eq (fun u => ?_) (by rw [e]) (by rw [e]) (fun _ => by rw [e]; exact id)
      (by rw [e]) fun u => ?_
    · by_cases hu : u = t
      · subst hu
        have hp := h u
        cases hph : ph u with
        | absent =>
          rw [hph] at hp
          rw [e]
          exact ⟨⟨hp.1.tied, hp.1.free⟩, hp.2⟩
        | awake =>
          rw [hph] at hp
          obtain ⟨ha, hn, hst⟩ := hp
          rw [hs] at hst
          obtain ⟨hr, _⟩ | ⟨_, hc⟩ := hst
          · cases hr
          · rw [e]
            refine ⟨⟨ha.tied, ha.free⟩, hn, Or.inl ⟨Function.update_self .., ?_⟩⟩
            show ((fxSchedItemResume k.sched u).item u).suspendCount = 0
            rw [fxSchedItemResume_item, Function.update_self, hc]
        | entering => exact absurd hph (he u)
        | asleep w ab =>
          rw [hph] at hp
          obtain ⟨n, hn⟩ := hp
          have := hn.state
          rw [hs] at this
          split at this <;> cases this
        | gone =>
          rw [hph] at hp
          exact absurd (hs.symm.trans hp.2.2) nofun
      · exact (h u).view (resume_view (Ne.symm hu))
    · rw [e]
      show ((fxSchedItemResume k.sched t).item u).prio = _
      rw [fxSchedItemResume_item]
      by_cases hu : u = t
      · rw [hu, Function.update_self]
      · rw [Function.update_of_ne hu]
  · rw [show fxThreadResume k t = k from if_neg hs]
    exact Calm.refl h

theorem Calm.suspend (h : KernOk k ph) (hph : ph t = .awake) (hr : k.state t = .ready) :
    Calm ph k (fxThreadSuspend k t) := by
  refine Calm.of_eq (fun u => ?_) rfl rfl (fun _ => id) rfl fun u => ?_
  · by_cases hu : u = t
    · subst hu
      have hp := h u
      rw [hph] at hp ⊢
      obtain ⟨ha, hn, hst⟩ := hp
      rw [hr] at hst
      obtain ⟨_, hc⟩ | ⟨hs, _⟩ := hst
      · refine ⟨⟨ha.tied, ha.free⟩, hn, Or.inr ⟨Function.update_self .., ?_⟩⟩
        show ((fxSchedItemSuspend k.sched u).item u).suspendCount = 1
        rw [fxSchedItemSuspend_item, Function.update_self, hc]
      · cases hs
    · exact (h u).view (suspend_view (Ne.symm hu))
  · show ((fxSchedItemSuspend k.sched t).item u).prio = _
    rw [fxSchedItemSuspend_item]
    by_cases hu : u = t
    · rw [hu, Function.update_self]
    · rw [Function.update_of_ne hu]

/-- Scheduling on its own changes neither states nor items. -/
theorem Calm.sched (h : KernOk k ph) {c : SchedContext T (MpqContainer T)}
    (hc : c.item = k.sched.item) : Calm ph k { k with sched := c } := by
  refine Calm.of_eq (h.same fun u => sched_view rfl rfl rfl rfl ?_) rfl rfl (fun _ => id) rfl
    fun u => ?_
  · rw [show ({ k with sched := c } : Kern T E Q A).sched.item = k.sched.item from hc]
  · rw [show ({ k with sched := c } : Kern T E Q A).sched.item = k.sched.item from hc]

theorem Calm.dispatch (h : KernOk k ph) (he : ∀ t, ph t ≠ .entering) :
    Calm ph k (fxDispatchHandler k) := by
  have h1 : Calm ph k { k with sched := (fxSchedGetNext k.sched).2 } :=
    Calm.sched h (fxSchedGetNext_item k.sched)
  unfold fxDispatchHandler
  dsimp only
  split
  · split
    · exact h1.trans (Calm.eventSet h1.ok he _)
    · exact h1
  · exact h1

end Ruhe

/-! ## 2. Changes of one thread -/

/-- The kernel changed, and only the thread `t` moved, to the phase `p`. -/
structure Turn (ph : T → Phase T E Q) (t : T) (p : Phase T E Q) (k k' : Kern T E Q A) : Prop where
  ok : KernOk k' (update ph t p)
  ev : EvOk k → EvOk k'
  frame : Frame k k'
  wb : ∀ b, b.1 ≠ t → (∀ w, (k.wb b).waitable = some w → ¬ IsEv w) → k'.wb b = k.wb b

section Wendung

variable {ph : T → Phase T E Q} {k k' : Kern T E Q A} {t : T} {p : Phase T E Q}

theorem Turn.calm {k'' : Kern T E Q A} (h1 : Turn ph t p k k')
    (h2 : Calm (update ph t p) k' k'') : Turn ph t p k k'' where
  ok := h2.ok
  ev h := h2.ev (h1.ev h)
  frame := h1.frame.trans h2.frame
  wb b hb hw := (h2.wb b (by rw [h1.wb b hb hw]; exact hw)).trans (h1.wb b hb hw)

theorem rollback_ev (k : Kern T E Q A) (t : T) : (fxSyncWaitRollback k t).2.ev = k.ev ∧
    (fxSyncWaitRollback k t).2.isTerminating = k.isTerminating ∧
    (fxSyncWaitRollback k t).2.sched = k.sched ∧
    ∀ w, ((fxSyncWaitRollback k t).2.wq w).Sublist (k.wq w) := by
  have hloop : ∀ (slots : List Slot) (k : Kern T E Q A),
      (slots.foldl (fun k slot => fxSyncWaitRollbackOne k (t, slot)) k).ev = k.ev ∧
      (slots.foldl (fun k slot => fxSyncWaitRollbackOne k (t, slot)) k).isTerminating =
        k.isTerminating ∧
      (slots.foldl (fun k slot => fxSyncWaitRollbackOne k (t, slot)) k).sched = k.sched ∧
      ∀ w, ((slots.foldl (fun k slot => fxSyncWaitRollbackOne k (t, slot)) k).wq w).Sublist
        (k.wq w) := by
    intro slots
    induction slots with
    | nil => exact fun k => ⟨rfl, rfl, rfl, fun _ => List.Sublist.refl _⟩
    | cons slot slots ih =>
      intro k
      obtain ⟨h1, h2, h3, h4⟩ := ih (fxSyncWaitRollbackOne k (t, slot))
      have hone : (fxSyncWaitRollbackOne k (t, slot)).ev = k.ev ∧
          (fxSyncWaitRollbackOne k (t, slot)).isTerminating = k.isTerminating ∧
          (fxSyncWaitRollbackOne k (t, slot)).sched = k.sched ∧
          ∀ w, ((fxSyncWaitRollbackOne k (t, slot)).wq w).Sublist (k.wq w) := by
        unfold fxSyncWaitRollbackOne
        split
        · exact ⟨rfl, rfl, rfl, fun _ => List.erase_sublist⟩
        · exact ⟨rfl, rfl, rfl, fun _ => List.Sublist.refl _⟩
      obtain ⟨g1, g2, g3, g4⟩ := hone
      exact ⟨h1.trans g1, h2.trans g2, h3.trans g3, fun w => (h4 w).trans (g4 w)⟩
  exact hloop ([Slot.main, Slot.abort].take (k.wbNum t)) { k with wbNum := update k.wbNum t 0 }

theorem rollback_state (k : Kern T E Q A) (t : T) : (fxSyncWaitRollback k t).2.state = k.state := by
  have hloop : ∀ (slots : List Slot) (k : Kern T E Q A),
      (slots.foldl (fun k slot => fxSyncWaitRollbackOne k (t, slot)) k).state = k.state := by
    intro slots
    induction slots with
    | nil => exact fun _ => rfl
    | cons slot slots ih => exact fun k => (ih _).trans (fxSyncWaitRollbackOne_state k _)
  exact hloop _ { k with wbNum := update k.wbNum t 0 }

theorem rollback_wb_ne (k : Kern T E Q A) (t : T) {b : Blk T} (hb : b.1 ≠ t) :
    (fxSyncWaitRollback k t).2.wb b = k.wb b :=
  (rollback_view (t := b.1) (Ne.symm hb)).wb b.2

/-- Whatever the thread was doing, afterwards none of its blocks is linked. -/
theorem rollback_awake (h : KernOk k ph) (ht : ph t ≠ .entering) :
    Awake (fxSyncWaitRollback k t).2 t ∧ (fxSyncWaitRollback k t).2.wbNum t = 0 := by
  have hzero : Awake k t → k.wbNum t = 0 → Awake (fxSyncWaitRollback k t).2 t ∧
      (fxSyncWaitRollback k t).2.wbNum t = 0 := by
    intro ha hn
    have e : (fxSyncWaitRollback k t).2 = { k with wbNum := update k.wbNum t 0 } := by
      simp [fxSyncWaitRollback, hn]
    rw [e]
    exact ⟨⟨ha.tied, ha.free⟩, Function.update_self ..⟩
  have hp := h t
  cases hph : ph t with
  | absent => rw [hph] at hp; exact hzero hp.1 hp.2
  | awake => rw [hph] at hp; exact hzero hp.1 hp.2.1
  | entering => exact absurd hph ht
  | asleep w ab =>
    rw [hph] at hp
    obtain ⟨n, hn⟩ := hp
    obtain ⟨ha, hz, _⟩ := rollback_spec hn.tied hn.num
    exact ⟨ha, hz⟩
  | gone => rw [hph] at hp; exact hzero hp.1 hp.2.1

/-- A thread woken up leaves its wait. -/
theorem Turn.leave (h : KernOk k ph) (ht : ph t ≠ .entering) (hr : k.state t = .ready)
    (hc : (k.sched.item t).suspendCount = 0) :
    Turn ph t .awake k (fxThreadWaitObjectLeave k t).2 := by
  obtain ⟨hev, _, hs, hq⟩ := rollback_ev k t
  obtain ⟨ha, hn⟩ := rollback_awake h ht
  have hst := congrFun (rollback_state k t) t
  refine ⟨h.one ⟨ha, hn, Or.inl ⟨hst.trans hr, ?_⟩⟩ fun u hu => rollback_view (Ne.symm hu),
    fun h => h.of (fun e he => ?_) fun e => hq _, Frame.rollback h.tied t,
    fun b hb _ => rollback_wb_ne k t hb⟩
  · show ((fxSyncWaitRollback k t).2.sched.item t).suspendCount = 0
    rw [hs]
    exact hc
  · rw [show (fxThreadWaitObjectLeave k t).2.ev = k.ev from hev] at he
    exact he

/-- A thread with no linked block ends. -/
theorem Turn.exitSync (h : KernOk k ph) (ha : Awake k t) (hn : k.wbNum t = 0) :
    Turn ph t .gone k (fxThreadExitSync k t) where
  ok := h.one ⟨⟨ha.tied, ha.free⟩, hn, Function.update_self ..⟩
    fun _ hu => exitSync_view (Ne.symm hu)
  ev := id
  frame := Frame.of_eq rfl rfl
  wb _ _ _ := rfl

theorem exitSync_prio (k : Kern T E Q A) (t u : T) :
    ((fxThreadExitSync k t).sched.item u).prio = (k.sched.item u).prio := by
  show ((fxSchedItemRemove k.sched t).item u).prio = _
  rw [fxSchedItemRemove_item]

/-- Terminating a thread that is not being terminated yet. -/
theorem Turn.terminate (h : KernOk k ph) (he : ∀ t, ph t ≠ .entering) :
    Turn ph t .gone k (fxThreadApcHelperDpc k t) := by
  have hc := Calm.timerCancel h t
  obtain ⟨hev, _, _, hq⟩ := rollback_ev (fxTimerCancel k t) t
  obtain ⟨ha, hn⟩ := rollback_awake hc.ok (he t)
  -- the blocks are cancelled first, the thread leaves the scheduler, and its completion is set
  have h1 : Turn ph t .gone k
      (fxThreadExitSync (fxSyncWaitRollback (fxTimerCancel k t) t).2 t) := by
    refine ⟨?_, fun h => h.of (fun e he => ?_) fun e => hq _, ?_, fun b hb _ => ?_⟩
    · refine h.one ⟨⟨ha.tied, ha.free⟩, hn, Function.update_self ..⟩ fun u hu => ?_
      have hcan : SameView u k (fxTimerCancel k t) := sched_view rfl rfl rfl rfl rfl
      exact (hcan.trans (rollback_view (Ne.symm hu))).trans (exitSync_view (Ne.symm hu))
    · rw [show (fxThreadExitSync (fxSyncWaitRollback (fxTimerCancel k t) t).2 t).ev =
        (fxSyncWaitRollback (fxTimerCancel k t) t).2.ev from rfl, hev] at he
      exact he
    · exact (hc.frame.trans (Frame.rollback hc.ok.tied t)).trans (Frame.of_eq rfl rfl)
    · exact rollback_wb_ne (fxTimerCancel k t) t hb
  refine h1.calm (Calm.eventSet h1.ok (fun u => ?_) _)
  by_cases hu : u = t
  · rw [hu, Function.update_self]
    exact nofun
  · rw [Function.update_of_ne hu]
    exact he u

theorem terminate_prio (k : Kern T E Q A) (t u : T) :
    ((fxThreadApcHelperDpc k t).sched.item u).prio = (k.sched.item u).prio := by
  unfold fxThreadApcHelperDpc
  dsimp only
  rw [eventSet_prio, exitSync_prio, (rollback_ev _ t).2.2.1]
  rfl

theorem terminate_isTerminating (k : Kern T E Q A) (t : T) :
    (fxThreadApcHelperDpc k t).isTerminating = k.isTerminating := by
  unfold fxThreadApcHelperDpc
  dsimp only
  rw [eventSet_isTerminating]
  exact (rollback_ev _ t).2.1

/-- A new thread has empty queues, and the rest of the kernel's are the same. -/
theorem init_wq (prio : Nat) (susp : Bool) (hq1 : k.wq (.ev (.completion t)) = [])
    (hq2 : k.wq (.ev (.timer t)) = []) : (fxThreadInitEx k t prio susp).wq = k.wq := by
  have e : update (update k.wq (.ev (.completion t)) []) (.ev (.timer t)) [] = k.wq := by
    have e1 : update k.wq (.ev (.completion t)) [] = k.wq :=
      Function.update_eq_self_iff.mpr hq1.symm
    rw [e1, Function.update_eq_self_iff.mpr hq2.symm]
  unfold fxThreadInitEx
  dsimp only
  split <;> exact e

theorem init_wb (k : Kern T E Q A) (t : T) (prio : Nat) (susp : Bool) :
    (fxThreadInitEx k t prio susp).wb = k.wb ∧
      (fxThreadInitEx k t prio susp).wbNum = k.wbNum ∧
      (fxThreadInitEx k t prio susp).ev =
        update (update k.ev (.completion t) false) (.timer t) false := by
  unfold fxThreadInitEx
  dsimp only
  split <;> exact ⟨rfl, rfl, rfl⟩

/-- The other threads are left alone. -/
theorem init_view {u : T} (hu : u ≠ t) (prio : Nat) (susp : Bool)
    (hq1 : k.wq (.ev (.completion t)) = []) (hq2 : k.wq (.ev (.timer t)) = []) :
    SameView u k (fxThreadInitEx k t prio susp) := by
  obtain ⟨hwb, hn, _⟩ := init_wb k t prio susp
  refine sched_view hwb (init_wq prio susp hq1 hq2) hn ?_ ?_
  · unfold fxThreadInitEx
    dsimp only
    split
    · exact Function.update_of_ne hu ..
    · exact (Function.update_of_ne hu ..).trans (Function.update_of_ne hu ..)
  · unfold fxThreadInitEx
    dsimp only
    split
    · show (update k.sched.item t _ u).suspendCount = _
      rw [Function.update_of_ne hu]
    · show ((fxSchedItemResume (fxSchedItemInit k.sched t prio) t).item u).suspendCount = _
      rw [fxSchedItemResume_item, Function.update_of_ne hu]
      show (update k.sched.item t _ u).suspendCount = _
      rw [Function.update_of_ne hu]

/-- A new thread. -/
theorem Turn.init (h : KernOk k ph) (hph : ph t = .absent) (prio : Nat) (susp : Bool)
    (hq1 : k.wq (.ev (.completion t)) = []) (hq2 : k.wq (.ev (.timer t)) = []) :
    Turn ph t .awake k (fxThreadInitEx k t prio susp) ∧
      (fxThreadInitEx k t prio susp).wq = k.wq ∧ (fxThreadInitEx k t prio susp).wb = k.wb := by
  have hwq := init_wq prio susp hq1 hq2
  obtain ⟨hwb, hn, hev'⟩ := init_wb k t prio susp
  have hp := h t
  rw [hph] at hp
  refine ⟨⟨h.one ⟨⟨fun slot => (hp.1.tied slot).congr (by rw [hwb]) fun _ => by rw [hwq],
    fun slot => by rw [hwb]; exact hp.1.free slot⟩, by rw [hn]; exact hp.2, ?_⟩
    fun u hu => init_view hu prio susp hq1 hq2,
    fun hev => hev.of (fun e he => ?_) fun _ => by rw [hwq], Frame.of_eq hwq hwb,
    fun _ _ _ => by rw [hwb]⟩, hwq, hwb⟩
  · unfold fxThreadInitEx
    dsimp only
    split
    · refine Or.inr ⟨Function.update_self .., ?_⟩
      show (update k.sched.item t _ t).suspendCount = 1
      rw [Function.update_self]
    · refine Or.inl ⟨Function.update_self .., ?_⟩
      show ((fxSchedItemResume (fxSchedItemInit k.sched t prio) t).item t).suspendCount = 0
      rw [fxSchedItemResume_item, Function.update_self]
      show (update k.sched.item t (⟨1, prio⟩ : SchedItem) t).suspendCount - 1 = 0
      simp
  · rw [hev'] at he
    by_cases h1 : e = .timer t
    · rw [h1, Function.update_self] at he
      cases he
    · rw [Function.update_of_ne h1] at he
      by_cases h2 : e = .completion t
      · rw [h2, Function.update_self] at he
        cases he
      · rwa [Function.update_of_ne h2] at he

end Wendung

/-! ## 3. Entering a wait -/

/-- What follows the test `p` of the object: the wait is skipped, with what is queued cancelled,
    or the thread is put to sleep. -/
inductive Entered (t : T) (ab : Option (Ev T E)) (p : Bool × Kern T E Q A × O) :
    Option ThreadStatus → Kern T E Q A → Prop where
  | passed (h : p.1 = true) : Entered t ab p (some .ok) (fxSyncWaitRollback p.2.1 t).2
  | cancelled (h : p.1 = false) (e : Ev T E) (hab : ab = some e) (he : p.2.1.ev e = true) :
      Entered t ab p (some .waitCancelled) (fxSyncWaitRollback p.2.1 t).2
  | alone (h : p.1 = false) (hab : ab = none) : Entered t ab p none (fxThreadSleepOn p.2.1 t)
  | both (h : p.1 = false) (e : Ev T E) (hab : ab = some e) (he : p.2.1.ev e = false) :
      Entered t ab p none (fxThreadSleepOn (fxSyncWaitStart p.2.1 (.ev e) (t, .abort)) t)

section Eintritt

variable {ph : T → Phase T E Q} {t : T} {w : Wtbl T E Q} {attr : Option A}
  {ab : Option (Ev T E)} {s : Kern T E Q A × O} {r : Option ThreadStatus} {k' : Kern T E Q A}
  {testWait : Bool → Kern T E Q A × O → Bool × Kern T E Q A × O}

theorem entered (testWait : Bool → Kern T E Q A × O → Bool × Kern T E Q A × O) (t : T)
    (attr : Option A) (ab : Option (Ev T E)) (s : Kern T E Q A × O) :
    let p := testWait true (fxSyncWaiterPrepare s.1 t attr, s.2)
    Entered t ab p (fxThreadWaitObjectEnter testWait t attr ab s).1
      (fxThreadWaitObjectEnter testWait t attr ab s).2.1 ∧
    (fxThreadWaitObjectEnter testWait t attr ab s).2.2 = p.2.2 := by
  intro p
  cases hp : testWait true (fxSyncWaiterPrepare s.1 t attr, s.2) with
  | mk r ko =>
    obtain ⟨k1, o1⟩ := ko
    simp only [fxThreadWaitObjectEnter, p, hp]
    cases r with
    | true => exact ⟨.passed rfl, rfl⟩
    | false =>
      cases ab with
      | none => exact ⟨.alone rfl rfl, rfl⟩
      | some e =>
        cases he : k1.ev e with
        | true =>
          simp only [fxEventTestAndWait, he, Bool.true_eq_false, false_and, if_false]
          exact ⟨.cancelled rfl e rfl he, trivial⟩
        | false =>
          simp only [fxEventTestAndWait, he, and_self, if_true]
          exact ⟨.both rfl e rfl he, trivial⟩

/-- The result of entering, and what it says of the test. -/
theorem Entered.result {p : Bool × Kern T E Q A × O} (h : Entered t ab p r k') :
    r = some .ok ∧ p.1 = true ∨ r = some .waitCancelled ∧ p.1 = false ∧ ab ≠ none ∨
      r = none ∧ p.1 = false := by
  cases h with
  | passed h => exact Or.inl ⟨rfl, h⟩
  | cancelled h e hab _ => exact Or.inr (Or.inl ⟨rfl, h, by rw [hab]; exact nofun⟩)
  | alone h _ => exact Or.inr (Or.inr ⟨rfl, h⟩)
  | both h e _ _ => exact Or.inr (Or.inr ⟨rfl, h⟩)

/-- The other threads are left alone. -/
theorem Entered.view {p : Bool × Kern T E Q A × O} (h : Entered t ab p r k') {u : T}
    (hu : u ≠ t) : SameView u p.2.1 k' := by
  cases h with
  | passed h => exact rollback_view (Ne.symm hu)
  | cancelled h e hab he => exact rollback_view (Ne.symm hu)
  | alone h hab => exact sleepOn_view (Ne.symm hu)
  | both h e hab he => exact (waitStart_view (Ne.symm hu)).trans (sleepOn_view (Ne.symm hu))

theorem sleepOn_prio (k : Kern T E Q A) (t u : T) :
    ((fxThreadSleepOn k t).sched.item u).prio = (k.sched.item u).prio := by
  show ((fxSchedItemSuspend k.sched t).item u).prio = _
  rw [fxSchedItemSuspend_item]
  by_cases hu : u = t
  · rw [hu, Function.update_self]
  · rw [Function.update_of_ne hu]

theorem Entered.prio {p : Bool × Kern T E Q A × O} (h : Entered t ab p r k') (u : T) :
    (k'.sched.item u).prio = (p.2.1.sched.item u).prio := by
  cases h with
  | passed h => rw [(rollback_ev _ t).2.2.1]
  | cancelled h e hab he => rw [(rollback_ev _ t).2.2.1]
  | alone h hab => exact sleepOn_prio ..
  | both h e hab he => exact sleepOn_prio ..

theorem Entered.isTerminating {p : Bool × Kern T E Q A × O} (h : Entered t ab p r k') :
    k'.isTerminating = p.2.1.isTerminating := by
  cases h with
  | passed h => exact (rollback_ev _ t).2.1
  | cancelled h e hab he => exact (rollback_ev _ t).2.1
  | alone h hab => rfl
  | both h e hab he => rfl

/-- No object sees it, but for blocks that left its queues. -/
theorem Entered.frame {p : Bool × Kern T E Q A × O} (h : Entered t ab p r k')
    (hk : ∀ b, Tied p.2.1 b) (hab : (p.2.1.wb (t, .abort)).waitable = none) :
    Frame p.2.1 k' := by
  cases h with
  | passed h => exact Frame.rollback hk t
  | cancelled h e _ he => exact Frame.rollback hk t
  | alone h _ => exact Frame.of_eq rfl rfl
  | both h e _ he => exact (Frame.waitEvent (hk _) hab e).trans (Frame.of_eq rfl rfl)

theorem Entered.evOk {p : Bool × Kern T E Q A × O} (h : Entered t ab p r k')
    (hk : EvOk p.2.1) : EvOk k' := by
  have hroll : EvOk (fxSyncWaitRollback p.2.1 t).2 := by
    obtain ⟨hev, _, _, hq⟩ := rollback_ev p.2.1 t
    exact hk.of (fun e he => by rwa [hev] at he) fun e => hq _
  cases h with
  | passed h => exact hroll
  | cancelled h e _ he => exact hroll
  | alone h _ => exact hk
  | both h e _ he => exact hk.waitStart (fun e' h' => by cases h'; exact he) _

/-- The section of a call that enters the wait. -/
theorem advance_enter (cfg : Config T) (W : WaitObject T E Q A O C P) (t : T) (c : C)
    (s : Sys T E Q A O C) (ab : Option (Ev T E)) :
    let e := fxThreadWaitObjectEnter (W.testWait t c) t (W.attr c) ab (s.kern, s.obj)
    advance cfg W t c s (.enter ab) =
      ⟨e.2.1, e.2.2, update s.pc t (.inCall (e.1.elim (.asleep ab) (afterWait ab)) c), s.base⟩ := by
  intro e
  unfold advance
  dsimp only
  cases he : fxThreadWaitObjectEnter (W.testWait t c) t (W.attr c) ab (s.kern, s.obj) with
  | mk r ko =>
    rw [show e = (r, ko) from he]
    cases r <;> rfl

/-- The section of a call that follows the wait. -/
theorem advance_ret (cfg : Config T) (W : WaitObject T E Q A O C P) (t : T) (c : C)
    (s : Sys T E Q A O C) (r : ThreadStatus) :
    let e := W.after t c r (s.kern, s.obj)
    advance cfg W t c s (.ret r) = ⟨e.2.1, e.2.2, update s.pc t
      (e.1.elim .idle fun c' => .inCall (firstStage cfg W e.2.1 c') c'), s.base⟩ := by
  intro e
  unfold advance
  dsimp only
  cases he : W.after t c r (s.kern, s.obj) with
  | mk c' ko =>
    rw [show e = (c', ko) from he]
    cases c' <;> rfl

end Eintritt

end FxRtos
