/-
  File:      FxRtos/Kernel/Moves.lean
  Subject:   WHAT THE REST OF THE KERNEL DOES TO A THREAD. Where each thread is (`Phase`), and the
             moves that objects make on the kernel: notifying blocks and setting priorities.

  * `KernOk` -- every thread is as its phase says: a thread that is not asleep has no linked
    block, a sleeping one is suspended unless it was notified, an awake one is ready with a
    suspend count of zero or suspended with a count of one.
  * `Moves` -- any sequence of notifications and priority changes. It keeps `KernOk`, and touches
    neither the excluded threads nor blocks queued elsewhere.
  * `Frame` -- a change of the kernel that no object sees, but for blocks that left its queues.
-/
import FxRtos.Kernel.Wait
import FxRtos.Lib.FirstMin
import Mathlib.Data.Nat.Basic

namespace FxRtos

open Function (update)
open Lib

set_option linter.unusedSectionVars false

variable {T E Q A O : Type} [DecidableEq T] [DecidableEq E] [DecidableEq Q]

/-! ## 1. Other threads are not touched -/

section Andere

variable {k : Kern T E Q A} {t u : T} {b : Blk T} {w : Wtbl T E Q}

theorem SameView.trans {k' k'' : Kern T E Q A} (h1 : SameView t k k') (h2 : SameView t k' k'') :
    SameView t k k'' :=
  ⟨fun slot => (h2.wb slot).trans (h1.wb slot),
    fun w slot => (h2.queued w slot).trans (h1.queued w slot), h2.wbNum.trans h1.wbNum,
    h2.state.trans h1.state, h2.count.trans h1.count⟩

theorem ne_blk (h : b.1 ≠ t) (slot : Slot) : (t, slot) ≠ b := fun e => h (by rw [← e])

@[simp] theorem waitStart_wq : (fxSyncWaitStart k w b).wq w = k.wq w ++ [b] :=
  Function.update_self ..

theorem waitStart_wq_ne {v : Wtbl T E Q} (h : v ≠ w) : (fxSyncWaitStart k w b).wq v = k.wq v :=
  Function.update_of_ne h ..

theorem waitStart_view (h : b.1 ≠ t) : SameView t k (fxSyncWaitStart k w b) where
  wb slot := Function.update_of_ne (ne_blk h slot) ..
  queued v slot := by
    by_cases hv : v = w
    · rw [hv, waitStart_wq, List.count_append]
      simp [(ne_blk h slot).symm]
    · rw [waitStart_wq_ne hv]
  wbNum := rfl
  state := rfl
  count := rfl

theorem notify_view (h : b.1 ≠ t) (r : WaitStatus) : SameView t k (fxSyncWaitNotify k r b) where
  wb slot := Function.update_of_ne (ne_blk h slot) ..
  queued _ slot := List.count_erase_of_ne (ne_blk h slot)
  wbNum := rfl
  state := Function.update_of_ne h.symm ..
  count := by
    rw [fxSyncWaitNotify_sched, fxSchedItemResume_item, Function.update_of_ne h.symm]

theorem setPrio_view (t u : T) (p : Nat) : SameView t k (k.setPrio u p) where
  wb _ := rfl
  queued _ _ := rfl
  wbNum := rfl
  state := rfl
  count := by
    show ((fxSchedItemSetParams k.sched u p).item t).suspendCount = _
    rw [fxSchedItemSetParams_item]
    by_cases h : t = u
    · rw [h, Function.update_self]
    · rw [Function.update_of_ne h]

theorem prepare_view (h : u ≠ t) (attr : Option A) :
    SameView t k (fxSyncWaiterPrepare k u attr) where
  wb slot := by
    show update (update k.wb _ _) _ _ _ = _
    rw [Function.update_of_ne (ne_blk h slot), Function.update_of_ne (ne_blk h slot)]
  queued _ _ := rfl
  wbNum := Function.update_of_ne h.symm ..
  state := rfl
  count := rfl

theorem rollbackOne_view (h : b.1 ≠ t) : SameView t k (fxSyncWaitRollbackOne k b) where
  wb slot := fxSyncWaitRollbackOne_wb_ne (ne_blk h slot)
  queued w slot := fxSyncWaitRollbackOne_count_ne (ne_blk h slot) w
  wbNum := by rw [fxSyncWaitRollbackOne_wbNum]
  state := by rw [fxSyncWaitRollbackOne_state]
  count := by rw [fxSyncWaitRollbackOne_sched]

theorem rollback_view (h : u ≠ t) : SameView t k (fxSyncWaitRollback k u).2 := by
  have hloop : ∀ (slots : List Slot) (k : Kern T E Q A), SameView t k
      (slots.foldl (fun k slot => fxSyncWaitRollbackOne k (u, slot)) k) := by
    intro slots
    induction slots with
    | nil => exact SameView.refl t
    | cons slot slots ih => exact fun k => (rollbackOne_view h).trans (ih _)
  refine SameView.trans ?_ (hloop _ _)
  exact ⟨fun _ => rfl, fun _ _ => rfl, Function.update_of_ne h.symm .., rfl, rfl⟩

/-- A change of the state and the suspend count of another thread. -/
theorem sched_view {k' : Kern T E Q A} (hwb : k'.wb = k.wb) (hwq : k'.wq = k.wq)
    (hn : k'.wbNum = k.wbNum) (hs : k'.state t = k.state t)
    (hc : (k'.sched.item t).suspendCount = (k.sched.item t).suspendCount) : SameView t k k' :=
  ⟨fun _ => by rw [hwb], fun _ _ => by rw [hwq], by rw [hn], hs, hc⟩

theorem sleepOn_view (h : u ≠ t) : SameView t k (fxThreadSleepOn k u) :=
  sched_view rfl rfl rfl (Function.update_of_ne h.symm ..) (by
    show ((fxSchedItemSuspend k.sched u).item t).suspendCount = _
    rw [fxSchedItemSuspend_item, Function.update_of_ne h.symm])

theorem suspend_view (h : u ≠ t) : SameView t k (fxThreadSuspend k u) :=
  sched_view rfl rfl rfl (Function.update_of_ne h.symm ..) (by
    show ((fxSchedItemSuspend k.sched u).item t).suspendCount = _
    rw [fxSchedItemSuspend_item, Function.update_of_ne h.symm])

theorem resume_view (h : u ≠ t) : SameView t k (fxThreadResume k u) := by
  unfold fxThreadResume
  split
  · refine sched_view rfl rfl rfl (Function.update_of_ne h.symm ..) ?_
    rw [fxSchedItemResume_item, Function.update_of_ne h.symm]
  · exact SameView.refl t k

theorem exitSync_view (h : u ≠ t) : SameView t k (fxThreadExitSync k u) :=
  sched_view rfl rfl rfl (Function.update_of_ne h.symm ..) (by
    show ((fxSchedItemRemove k.sched u).item t).suspendCount = _
    rw [fxSchedItemRemove_item])

end Andere

/-! ## 2. Where the threads are -/

inductive Phase (T E Q : Type) where
  | absent
  | awake
  | entering
  | asleep (w : Wtbl T E Q) (abortEvent : Option (Ev T E))
  | gone

/-- The thread is as its phase says. While it enters a wait its blocks may be linked already. -/
def PhaseOk (k : Kern T E Q A) (t : T) : Phase T E Q → Prop
  | .absent => Awake k t ∧ k.wbNum t = 0
  | .awake => Awake k t ∧ k.wbNum t = 0 ∧
      (k.state t = .ready ∧ (k.sched.item t).suspendCount = 0 ∨
        k.state t = .suspended ∧ (k.sched.item t).suspendCount = 1)
  | .entering => (∀ slot, Tied k (t, slot)) ∧ k.state t = .ready ∧
      (k.sched.item t).suspendCount = 0
  | .asleep w ab => ∃ n, Asleep k t w ab n
  | .gone => Awake k t ∧ k.wbNum t = 0 ∧ k.state t = .completed

def KernOk (k : Kern T E Q A) (ph : T → Phase T E Q) : Prop := ∀ t, PhaseOk k t (ph t)

section Phasen

variable {k k' : Kern T E Q A} {ph : T → Phase T E Q} {t : T} {b : Blk T} {w : Wtbl T E Q}

theorem PhaseOk.view {p : Phase T E Q} (h : PhaseOk k t p) (hv : SameView t k k') :
    PhaseOk k' t p := by
  cases p with
  | absent => exact ⟨h.1.view hv, hv.wbNum.trans h.2⟩
  | awake =>
    refine ⟨h.1.view hv, hv.wbNum.trans h.2.1, ?_⟩
    rw [hv.state, hv.count]
    exact h.2.2
  | entering => exact ⟨fun slot => hv.tied (h.1 slot), hv.state.trans h.2.1, hv.count.trans h.2.2⟩
  | asleep w ab =>
    obtain ⟨n, hn⟩ := h
    exact ⟨n, hn.view hv⟩
  | gone => exact ⟨h.1.view hv, hv.wbNum.trans h.2.1, hv.state.trans h.2.2⟩

theorem PhaseOk.tied {p : Phase T E Q} (h : PhaseOk k t p) (slot : Slot) : Tied k (t, slot) := by
  cases p with
  | absent => exact h.1.tied slot
  | awake => exact h.1.tied slot
  | entering => exact h.1 slot
  | asleep w ab =>
    obtain ⟨n, hn⟩ := h
    exact hn.tied slot
  | gone => exact h.1.tied slot

theorem KernOk.tied (h : KernOk k ph) (b : Blk T) : Tied k b := (h b.1).tied b.2

/-- A queued block belongs to a thread that is asleep, or on its way. -/
theorem KernOk.queued (h : KernOk k ph) (hb : b ∈ k.wq w) :
    ph b.1 = .entering ∨ ∃ v ab, ph b.1 = .asleep v ab := by
  have hw := (h.tied b).mem_iff.mp hb
  have hfree : Awake k b.1 → False := fun ha => by
    have := ha.free b.2
    rw [show ((b.1, b.2) : Blk T) = b from rfl, hw] at this
    cases this
  have hp := h b.1
  cases hph : ph b.1 with
  | absent => rw [hph] at hp; exact (hfree hp.1).elim
  | awake => rw [hph] at hp; exact (hfree hp.1).elim
  | entering => exact Or.inl rfl
  | asleep v ab => exact Or.inr ⟨v, ab, rfl⟩
  | gone => rw [hph] at hp; exact (hfree hp.1).elim

/-- One thread changes, the others are not touched. -/
theorem KernOk.one (h : KernOk k ph) {p : Phase T E Q} (ht : PhaseOk k' t p)
    (hv : ∀ u, u ≠ t → SameView u k k') : KernOk k' (update ph t p) := fun u => by
  by_cases hu : u = t
  · rw [hu, Function.update_self]
    exact ht
  · rw [Function.update_of_ne hu]
    exact (h u).view (hv u hu)

theorem KernOk.same (h : KernOk k ph) (hv : ∀ u, SameView u k k') : KernOk k' ph :=
  fun u => (h u).view (hv u)

/-- **A notification** keeps every thread where it is. -/
theorem KernOk.notify (h : KernOk k ph) (hb : b ∈ k.wq w) (he : ph b.1 ≠ .entering)
    {r : WaitStatus} (hr : r = .satisfied ∨ r = .deleted) :
    KernOk (fxSyncWaitNotify k r b) ph := fun u => by
  by_cases hu : b.1 = u
  · obtain ⟨v, ab, hph⟩ := (h.queued hb).resolve_left he
    subst hu
    have hp := h b.1
    rw [hph] at hp ⊢
    obtain ⟨n, hn⟩ := hp
    have hb' : (k.wb (b.1, b.2)).waitable ≠ none := by
      rw [show ((b.1, b.2) : Blk T) = b from rfl, (h.tied b).mem_iff.mp hb]
      exact nofun
    exact ⟨_, hn.notify hb' hr⟩
  · exact (h u).view (notify_view hu r)

end Phasen

/-! ## 3. Moves -/

/-- Notifications of blocks queued at the waitables `ws`, of threads not excluded by `ex`, and
    priority changes. -/
inductive Moves (ws : Wtbl T E Q → Prop) (ex : T → Prop) (k : Kern T E Q A) :
    Kern T E Q A → Prop where
  | refl : Moves ws ex k k
  | notify {k' : Kern T E Q A} {b : Blk T} {w : Wtbl T E Q} {r : WaitStatus}
      (h : Moves ws ex k k') (hb : b ∈ k'.wq w) (hw : ws w) (hx : ¬ ex b.1)
      (hr : r = .satisfied ∨ r = .deleted) : Moves ws ex k (fxSyncWaitNotify k' r b)
  | setPrio {k' : Kern T E Q A} (h : Moves ws ex k k') (t : T) (p : Nat) :
      Moves ws ex k (k'.setPrio t p)

/-- The waitables of the objects. -/
def IsObj : Wtbl T E Q → Prop
  | .obj _ => True
  | .ev _ => False

def IsEv : Wtbl T E Q → Prop
  | .obj _ => False
  | .ev _ => True

/-- No thread excluded. -/
def NoOne : T → Prop := fun _ => False

section Zuege

variable {ws : Wtbl T E Q → Prop} {ex : T → Prop} {k k' : Kern T E Q A} {ph : T → Phase T E Q}
  {t : T} {w : Wtbl T E Q}

theorem Moves.trans {k'' : Kern T E Q A} (h1 : Moves ws ex k k') (h2 : Moves ws ex k' k'') :
    Moves ws ex k k'' := by
  induction h2 with
  | refl => exact h1
  | notify _ hb hw hx hr ih => exact ih.notify hb hw hx hr
  | setPrio _ t p ih => exact ih.setPrio t p

theorem Moves.view (h : Moves ws ex k k') (ht : ex t) : SameView t k k' := by
  induction h with
  | refl => exact SameView.refl t k
  | notify _ _ _ hx _ ih => exact ih.trans (notify_view (fun e => hx (e ▸ ht)) _)
  | setPrio _ u p ih => exact ih.trans (setPrio_view t u p)

theorem Moves.kernOk (h : KernOk k ph) (hm : Moves ws ex k k')
    (he : ∀ t, ph t = .entering → ex t) : KernOk k' ph := by
  induction hm with
  | refl => exact h
  | notify _ hb _ hx hr ih => exact ih.notify hb (fun e => hx (he _ e)) hr
  | setPrio _ t p ih => exact ih.same fun u => setPrio_view u t p

/-- Queues only get shorter. -/
theorem Moves.sublist (h : Moves ws ex k k') (w : Wtbl T E Q) :
    (k'.wq w).Sublist (k.wq w) := by
  induction h with
  | refl => exact List.Sublist.refl _
  | notify _ _ _ _ _ ih => exact List.erase_sublist.trans ih
  | setPrio _ _ _ ih => exact ih

theorem Moves.ev (h : Moves ws ex k k') : k'.ev = k.ev := by
  induction h with
  | refl => rfl
  | notify _ _ _ _ _ ih => exact ih
  | setPrio _ _ _ ih => exact ih

theorem Moves.isTerminating (h : Moves ws ex k k') : k'.isTerminating = k.isTerminating := by
  induction h with
  | refl => rfl
  | notify _ _ _ _ _ ih => exact ih
  | setPrio _ _ _ ih => exact ih

/-- A block that is not queued at one of the waitables is left as it is. -/
theorem Moves.wb (h : KernOk k ph) (hm : Moves ws ex k k') (he : ∀ t, ph t = .entering → ex t)
    {b : Blk T} (hb : ∀ w, (k.wb b).waitable = some w → ¬ ws w) : k'.wb b = k.wb b := by
  induction hm with
  | refl => rfl
  | @notify k' c w r hm hc hw hx hr ih =>
    by_cases hbc : b = c
    · subst hbc
      have := ((hm.kernOk h he).tied b).mem_iff.mp hc
      rw [ih] at this
      exact absurd hw (hb w this)
    · exact (Function.update_of_ne hbc ..).trans ih
  | setPrio _ _ _ ih => exact ih

/-- Notifying all blocks of a queue is a move. -/
theorem Moves.notifyLoop (hw : ws w) {r : WaitStatus} (hr : r = .satisfied ∨ r = .deleted)
    (n : Nat) (k : Kern T E Q A) : Moves ws NoOne k (fxSyncWaitNotifyLoop w r n k) := by
  induction n generalizing k with
  | zero => exact .refl
  | succ n ih =>
    unfold fxSyncWaitNotifyLoop
    cases hq : k.wq w with
    | nil => exact .refl
    | cons b rest =>
      have hb : b ∈ k.wq w := hq ▸ List.mem_cons_self
      exact (Moves.refl.notify hb hw not_false hr).trans (ih _)

theorem Moves.notifyAll (hw : ws w) {r : WaitStatus} (hr : r = .satisfied ∨ r = .deleted)
    (k : Kern T E Q A) : Moves ws NoOne k (fxSyncWaitNotifyAll k w r) :=
  Moves.notifyLoop hw hr _ k

theorem notifyLoop_nil {r : WaitStatus} (n : Nat) (k : Kern T E Q A)
    (hn : (k.wq w).length ≤ n) : (fxSyncWaitNotifyLoop w r n k).wq w = [] := by
  induction n generalizing k with
  | zero => exact List.length_eq_zero_iff.mp (Nat.le_zero.mp hn)
  | succ n ih =>
    unfold fxSyncWaitNotifyLoop
    cases hq : k.wq w with
    | nil => exact hq
    | cons b rest =>
      refine ih _ ?_
      rw [fxSyncWaitNotify_wq, hq, List.erase_cons_head]
      rw [hq] at hn
      exact Nat.le_of_succ_le_succ hn

/-- Afterwards the queue is empty. -/
theorem notifyAll_nil (k : Kern T E Q A) (w : Wtbl T E Q) (r : WaitStatus) :
    (fxSyncWaitNotifyAll k w r).wq w = [] := notifyLoop_nil _ k (Nat.le_refl _)

theorem fxSyncWaitBlockGet_none {policy : SyncPolicy} :
    fxSyncWaitBlockGet k w policy = none ↔ k.wq w = [] := by
  unfold fxSyncWaitBlockGet
  split
  · rename_i hq
    exact iff_of_true rfl hq
  · rename_i hq
    rw [hq]
    refine iff_of_false ?_ (List.cons_ne_nil _ _)
    split <;> exact nofun

/-- The block that the policy selects: the earliest queued, or the earliest queued of those of
    the highest priority. -/
def Kern.Selects (k : Kern T E Q A) (w : Wtbl T E Q) (b : Blk T) : SyncPolicy → Prop
  | .fifo => ∃ rest, k.wq w = b :: rest
  | .prio => FirstMin k.prioOf (k.wq w) b

/-- **What is released next.** -/
theorem fxSyncWaitBlockGet_spec {policy : SyncPolicy} {b : Blk T}
    (h : fxSyncWaitBlockGet k w policy = some b) : k.Selects w b policy := by
  unfold fxSyncWaitBlockGet at h
  split at h
  · cases h
  · rename_i first rest hq
    cases policy with
    | fifo =>
      cases h
      exact ⟨rest, hq⟩
    | prio =>
      cases h
      show FirstMin _ (k.wq w) _
      rw [hq]
      exact firstMin_scan k.prioOf first rest

theorem fxSyncWaitBlockGet_mem {policy : SyncPolicy} {b : Blk T}
    (h : fxSyncWaitBlockGet k w policy = some b) : b ∈ k.wq w := by
  have hs := fxSyncWaitBlockGet_spec h
  cases policy with
  | fifo =>
    obtain ⟨rest, hq⟩ := hs
    rw [hq]
    exact List.mem_cons_self
  | prio => exact FirstMin.mem hs

/-- Waking the block that the policy selects is a move. -/
theorem Moves.wake {policy : SyncPolicy} {b : Blk T} {r : WaitStatus}
    (h : fxSyncWaitBlockGet k w policy = some b) (hw : ws w)
    (hr : r = .satisfied ∨ r = .deleted) : Moves ws NoOne k (fxSyncWaitNotify k r b) :=
  Moves.refl.notify (fxSyncWaitBlockGet_mem h) hw not_false hr

/-- A block that is queued does not belong to a thread that is awake. -/
theorem Awake.ne_of_mem (h : Awake k t) {b : Blk T} (hb : b ∈ k.wq w) : b.1 ≠ t := by
  rintro rfl
  exact (h.tied b.2).not_mem (h.free b.2) hb

/-- A thread that is awake is not touched by any moves. -/
theorem Moves.spare (hm : Moves ws ex k k') (h : Awake k t) : SameView t k k' := by
  induction hm with
  | refl => exact SameView.refl t k
  | notify _ hb _ _ _ ih => exact ih.trans (notify_view ((h.view ih).ne_of_mem hb) _)
  | setPrio _ u p ih => exact ih.trans (setPrio_view t u p)

/-- The same, from the code of a thread that is awake. -/
theorem Moves.wakeOther {policy : SyncPolicy} {b : Blk T} {r : WaitStatus} (ha : Awake k t)
    (h : fxSyncWaitBlockGet k w policy = some b) (hw : ws w)
    (hr : r = .satisfied ∨ r = .deleted) : Moves ws (· = t) k (fxSyncWaitNotify k r b) :=
  Moves.refl.notify (fxSyncWaitBlockGet_mem h) hw (ha.ne_of_mem (fxSyncWaitBlockGet_mem h)) hr

end Zuege

theorem notifyLoop_prio {w : Wtbl T E Q} {r : WaitStatus} (n : Nat) (k : Kern T E Q A) (u : T) :
    ((fxSyncWaitNotifyLoop w r n k).sched.item u).prio = (k.sched.item u).prio := by
  induction n generalizing k with
  | zero => rfl
  | succ n ih =>
    unfold fxSyncWaitNotifyLoop
    split
    · rfl
    · rename_i b _ _
      rw [ih, fxSyncWaitNotify_sched, fxSchedItemResume_item]
      by_cases h : u = b.1
      · rw [h, Function.update_self]
      · rw [Function.update_of_ne h]

/-- Setting an event is a change of the event and a move. -/
theorem eventSet_moves (k : Kern T E Q A) (e : Ev T E) : ∃ k1, Moves IsEv NoOne k1
    (fxEventInternalSet k e) ∧ (k1 = k ∨ k1 = { k with ev := update k.ev e true }) := by
  unfold fxEventInternalSet
  split
  · exact ⟨k, .refl, Or.inl rfl⟩
  · exact ⟨_, Moves.notifyAll (w := .ev e) trivial (Or.inl rfl) _, Or.inr rfl⟩

theorem eventSet_prio (k : Kern T E Q A) (e : Ev T E) (u : T) :
    ((fxEventInternalSet k e).sched.item u).prio = (k.sched.item u).prio := by
  unfold fxEventInternalSet
  split
  · rfl
  · exact notifyLoop_prio ..

/-! ## 4. What an object sees -/

/-- The queues of the objects only lost blocks, and the blocks left in them are the same. -/
structure Frame (k k' : Kern T E Q A) : Prop where
  sub : ∀ q, (k'.wq (.obj q)).Sublist (k.wq (.obj q))
  wb : ∀ q, ∀ b ∈ k'.wq (.obj q), k'.wb b = k.wb b

section Rahmen

variable {k k' : Kern T E Q A} {t : T} {b : Blk T}

theorem Frame.refl (k : Kern T E Q A) : Frame k k :=
  ⟨fun _ => List.Sublist.refl _, fun _ _ _ => rfl⟩

theorem Frame.trans {k'' : Kern T E Q A} (h1 : Frame k k') (h2 : Frame k' k'') : Frame k k'' :=
  ⟨fun q => (h2.sub q).trans (h1.sub q),
    fun q b hb => (h2.wb q b hb).trans (h1.wb q b ((h2.sub q).mem hb))⟩

/-- Queues and blocks are the same. -/
theorem Frame.of_eq (hwq : k'.wq = k.wq) (hwb : k'.wb = k.wb) : Frame k k' :=
  ⟨fun _ => by rw [hwq], fun _ _ _ => by rw [hwb]⟩

theorem Tied.not_mem_erase {w : Wtbl T E Q} (h : Tied k b) : b ∉ (k.wq w).erase b := by
  rw [← List.count_eq_zero, List.count_erase_self, h w]
  split <;> rfl

theorem Frame.unlink (h : Tied k b) (v : WaitBlock T E Q A) :
    Frame k ((k.unlink b).setWb b v) where
  sub _ := List.erase_sublist
  wb q c hc := by
    have hne : c ≠ b := fun e => (h.not_mem_erase (w := .obj q)) (e ▸ hc)
    exact Function.update_of_ne hne ..

theorem Frame.notify (h : Tied k b) (r : WaitStatus) : Frame k (fxSyncWaitNotify k r b) :=
  (Frame.unlink h ⟨none, .status r⟩).trans (Frame.of_eq rfl rfl)

theorem Frame.moves {ws : Wtbl T E Q → Prop} {ex : T → Prop} {ph : T → Phase T E Q}
    (h : KernOk k ph) (hm : Moves ws ex k k') (he : ∀ t, ph t = .entering → ex t) :
    Frame k k' := by
  induction hm with
  | refl => exact Frame.refl k
  | notify hm _ _ _ _ ih => exact ih.trans (Frame.notify ((hm.kernOk h he).tied _) _)
  | setPrio _ t p ih => exact ih.trans (Frame.of_eq rfl rfl)

theorem Frame.rollbackOne (h : Tied k b) : Frame k (fxSyncWaitRollbackOne k b) := by
  unfold fxSyncWaitRollbackOne
  split
  · exact Frame.unlink h _
  · exact Frame.refl k

theorem Frame.rollback (h : ∀ b, Tied k b) (t : T) : Frame k (fxSyncWaitRollback k t).2 := by
  have hloop : ∀ (slots : List Slot) (k : Kern T E Q A), (∀ b, Tied k b) → Frame k
      (slots.foldl (fun k slot => fxSyncWaitRollbackOne k (t, slot)) k) := by
    intro slots
    induction slots with
    | nil => exact fun k _ => Frame.refl k
    | cons slot slots ih =>
      intro k hk
      refine (Frame.rollbackOne (hk (t, slot))).trans (ih _ fun b => ?_)
      by_cases hb : b = (t, slot)
      · rw [hb]
        exact (hk (t, slot)).rollbackOne
      · exact (hk b).rollbackOne_ne hb
  have h0 : Frame k { k with wbNum := update k.wbNum t 0 } := Frame.of_eq rfl rfl
  exact h0.trans (hloop ([Slot.main, Slot.abort].take (k.wbNum t)) _ h)

/-- Preparing the blocks of a thread that is awake. -/
theorem Frame.prepare (h : Awake k t) (attr : Option A) :
    Frame k (fxSyncWaiterPrepare k t attr) where
  sub _ := List.Sublist.refl _
  wb q b hb := by
    have hne : ∀ slot, b ≠ (t, slot) := fun slot e =>
      (h.tied slot).not_mem (h.free slot) (e ▸ hb)
    show update (update k.wb _ _) _ _ _ = _
    rw [Function.update_of_ne (hne .abort), Function.update_of_ne (hne .main)]

/-- Queueing a block, not linked before, at an event. -/
theorem Frame.waitEvent (h : Tied k b) (hb : (k.wb b).waitable = none) (e : Ev T E) :
    Frame k (fxSyncWaitStart k (.ev e) b) where
  sub q := by
    rw [waitStart_wq_ne (v := .obj q) (w := .ev e) nofun]
  wb q c hc := by
    rw [waitStart_wq_ne (v := .obj q) (w := .ev e) nofun] at hc
    have hne : c ≠ b := fun e => h.not_mem hb (e ▸ hc)
    exact Function.update_of_ne hne ..

end Rahmen

end FxRtos
