/-
  File:      FxRtos/Kernel/Wait.lean
  Subject:   THE WAIT PROTOCOL: one call of `fx_thread_wait_object_internal`, whatever happens to
             the kernel while the thread is asleep.

  * `Tied` -- a block is in the queue of the waitable it names, once, and in no other.
  * `Meanwhile` -- what may happen between suspension and resumption: blocks of the thread are
    notified, in any order, and everything that is not the thread's own changes at will. `n`
    holds what each block was notified with.
  * `Asleep` -- the invariant in between: a block not notified is still queued; the thread is
    suspended once if none was, and ready, with a suspend count of zero, if one was.
  * `waitCall_result` -- what the call returns.
-/
import FxRtos.Kernel.Kern

namespace FxRtos

open Function (update)

set_option linter.unusedSectionVars false

variable {T E Q A O : Type} [DecidableEq T] [DecidableEq E] [DecidableEq Q]

/-! ## 1. Blocks and queues -/

/-- A block is in the queue of the waitable it names, once, and in no other. -/
def Tied (k : Kern T E Q A) (b : Blk T) : Prop :=
  ∀ w, (k.wq w).count b = if (k.wb b).waitable = some w then 1 else 0

section Bloecke

variable {k : Kern T E Q A} {b c : Blk T} {w : Wtbl T E Q}

theorem Tied.mem_iff (h : Tied k b) : b ∈ k.wq w ↔ (k.wb b).waitable = some w := by
  rw [← List.count_pos_iff, h w]
  split <;> simp_all

theorem Tied.not_mem (h : Tied k b) (hb : (k.wb b).waitable = none) : b ∉ k.wq w := by
  rw [h.mem_iff, hb]
  exact nofun

/-- Only what the block holds and where it is queued matters. -/
theorem Tied.congr {k' : Kern T E Q A} (h : Tied k b) (hw : (k'.wb b).waitable = (k.wb b).waitable)
    (hq : ∀ w, (k'.wq w).count b = (k.wq w).count b) : Tied k' b := fun w => by
  rw [hq, hw]
  exact h w

/-- Out of every queue, and naming none. -/
theorem Tied.unlink (h : Tied k b) {v : WaitBlock T E Q A} (hv : v.waitable = none) :
    Tied ((k.unlink b).setWb b v) b := fun w => by
  show ((k.wq w).erase b).count b = if (update k.wb b v b).waitable = some w then 1 else 0
  rw [Function.update_self, hv, List.count_erase_self, h w]
  split <;> rfl

theorem Tied.unlink_ne (h : Tied k c) (hc : c ≠ b) {v : WaitBlock T E Q A} :
    Tied ((k.unlink b).setWb b v) c := by
  refine h.congr ?_ fun w => ?_
  · show (update k.wb b v c).waitable = _
    rw [Function.update_of_ne hc]
  · exact List.count_erase_of_ne hc

theorem Tied.waitStart (h : Tied k b) (hb : (k.wb b).waitable = none) :
    Tied (fxSyncWaitStart k w b) b := fun v => by
  have h0 := h v
  rw [hb] at h0
  show (update k.wq w (k.wq w ++ [b]) v).count b =
    if (update k.wb b ⟨some w, (k.wb b).u⟩ b).waitable = some v then 1 else 0
  rw [Function.update_self]
  by_cases hvw : v = w
  · subst hvw
    rw [Function.update_self, List.count_append, h0]
    simp
  · rw [Function.update_of_ne hvw, h0]
    simp [Ne.symm hvw]

theorem Tied.waitStart_ne (h : Tied k c) (hc : c ≠ b) : Tied (fxSyncWaitStart k w b) c := by
  refine h.congr ?_ fun v => ?_
  · show (update k.wb b _ c).waitable = _
    rw [Function.update_of_ne hc]
  · show (update k.wq w (k.wq w ++ [b]) v).count c = _
    by_cases hvw : v = w
    · subst hvw
      rw [Function.update_self, List.count_append]
      simp [Ne.symm hc]
    · rw [Function.update_of_ne hvw]

end Bloecke

/-! ## 2. What one thread sees -/

/-- Everything of the thread that its wait depends on is the same in `k'` as in `k`. -/
structure SameView (me : T) (k k' : Kern T E Q A) : Prop where
  wb : ∀ slot, k'.wb (me, slot) = k.wb (me, slot)
  queued : ∀ w slot, (k'.wq w).count (me, slot) = (k.wq w).count (me, slot)
  wbNum : k'.wbNum me = k.wbNum me
  state : k'.state me = k.state me
  count : (k'.sched.item me).suspendCount = (k.sched.item me).suspendCount

/-- The thread is awake: none of its blocks is linked. -/
structure Awake (k : Kern T E Q A) (me : T) : Prop where
  tied : ∀ slot, Tied k (me, slot)
  free : ∀ slot, (k.wb (me, slot)).waitable = none

/-- A block that waits for the target, if there is one, or was notified with `r`. -/
def BlockAt (k : Kern T E Q A) (b : Blk T) (target : Option (Wtbl T E Q)) :
    Option WaitStatus → Prop
  | none => (k.wb b).waitable = target ∧ ∃ a, (k.wb b).u = .attribute a
  | some r => k.wb b = ⟨none, .status r⟩ ∧ target.isSome

/-- The thread is asleep on `w`, with an abort event or without; its blocks were notified with
    `n` so far. -/
structure Asleep (k : Kern T E Q A) (me : T) (w : Wtbl T E Q) (abortEvent : Option (Ev T E))
    (n : Slot → Option WaitStatus) : Prop where
  tied : ∀ slot, Tied k (me, slot)
  num : k.wbNum me = 2
  main : BlockAt k (me, .main) (some w) (n .main)
  abort : BlockAt k (me, .abort) (abortEvent.map .ev) (n .abort)
  reason : ∀ slot r, n slot = some r → r = .satisfied ∨ r = .deleted
  count : (k.sched.item me).suspendCount = if n .main = none ∧ n .abort = none then 1 else 0
  state : k.state me = if n .main = none ∧ n .abort = none then .waiting else .ready

/-- What may happen while the thread is asleep. -/
inductive Meanwhile (me : T) (k : Kern T E Q A) :
    (Slot → Option WaitStatus) → Kern T E Q A → Prop where
  | nothing : Meanwhile me k (fun _ => none) k
  | notify {n : Slot → Option WaitStatus} {k' : Kern T E Q A} {slot : Slot} {w : Wtbl T E Q}
      {r : WaitStatus} (h : Meanwhile me k n k') (hb : (me, slot) ∈ k'.wq w)
      (hr : r = .satisfied ∨ r = .deleted) :
      Meanwhile me k (update n slot (some r)) (fxSyncWaitNotify k' r (me, slot))
  | other {n : Slot → Option WaitStatus} {k' k'' : Kern T E Q A} (h : Meanwhile me k n k')
      (hv : SameView me k' k'') : Meanwhile me k n k''

section Sicht

variable {me : T} {k k' : Kern T E Q A} {w : Wtbl T E Q} {ab : Option (Ev T E)}
  {n : Slot → Option WaitStatus}

theorem SameView.refl (me : T) (k : Kern T E Q A) : SameView me k k :=
  ⟨fun _ => rfl, fun _ _ => rfl, rfl, rfl, rfl⟩

theorem SameView.tied (h : SameView me k k') {slot : Slot} (ht : Tied k (me, slot)) :
    Tied k' (me, slot) :=
  ht.congr (by rw [h.wb]) fun w => h.queued w slot

theorem Awake.view (h : Awake k me) (hv : SameView me k k') : Awake k' me :=
  ⟨fun slot => hv.tied (h.tied slot), fun slot => by rw [hv.wb]; exact h.free slot⟩

omit [DecidableEq T] [DecidableEq E] [DecidableEq Q] in
theorem BlockAt.congr {b : Blk T} {target : Option (Wtbl T E Q)} {r : Option WaitStatus}
    (h : BlockAt k b target r) (hb : k'.wb b = k.wb b) : BlockAt k' b target r := by
  cases r with
  | none => exact ⟨by rw [hb]; exact h.1, by rw [hb]; exact h.2⟩
  | some r => exact ⟨hb.trans h.1, h.2⟩

theorem Asleep.view (h : Asleep k me w ab n) (hv : SameView me k k') : Asleep k' me w ab n where
  tied slot := hv.tied (h.tied slot)
  num := hv.wbNum.trans h.num
  main := h.main.congr (hv.wb _)
  abort := h.abort.congr (hv.wb _)
  reason := h.reason
  count := hv.count.trans h.count
  state := hv.state.trans h.state

/-- A linked block was not notified yet. -/
theorem Asleep.not_notified (h : Asleep k me w ab n) {slot : Slot}
    (hb : (k.wb (me, slot)).waitable ≠ none) : n slot = none := by
  cases hn : n slot with
  | none => rfl
  | some r =>
    cases slot with
    | main =>
      have := h.main
      rw [hn] at this
      exact absurd (by rw [this.1]) hb
    | abort =>
      have := h.abort
      rw [hn] at this
      exact absurd (by rw [this.1]) hb

@[simp] theorem fxSyncWaitNotify_wb (k : Kern T E Q A) (r : WaitStatus) (b : Blk T) :
    (fxSyncWaitNotify k r b).wb = update k.wb b ⟨none, .status r⟩ := rfl

@[simp] theorem fxSyncWaitNotify_wq (k : Kern T E Q A) (r : WaitStatus) (b : Blk T)
    (w : Wtbl T E Q) : (fxSyncWaitNotify k r b).wq w = (k.wq w).erase b := rfl

@[simp] theorem fxSyncWaitNotify_sched (k : Kern T E Q A) (r : WaitStatus) (b : Blk T) :
    (fxSyncWaitNotify k r b).sched = fxSchedItemResume k.sched b.1 := rfl

theorem Tied.notify {b : Blk T} (h : Tied k b) (r : WaitStatus) : Tied (fxSyncWaitNotify k r b) b :=
  h.unlink rfl

theorem Tied.notify_ne {b c : Blk T} (h : Tied k c) (hc : c ≠ b) (r : WaitStatus) :
    Tied (fxSyncWaitNotify k r b) c := h.unlink_ne hc

/-- **A notification** of a linked block: it is out of its queue and holds the reason; the
    thread is ready, a second resume being absorbed by its suspend count. -/
theorem Asleep.notify (h : Asleep k me w ab n) {slot : Slot}
    (hb : (k.wb (me, slot)).waitable ≠ none) {r : WaitStatus}
    (hr : r = .satisfied ∨ r = .deleted) :
    Asleep (fxSyncWaitNotify k r (me, slot)) me w ab (update n slot (some r)) := by
  have hn := h.not_notified hb
  have hone : ¬ (update n slot (some r) .main = none ∧ update n slot (some r) .abort = none) := by
    cases slot <;> simp
  have hcount : ((fxSyncWaitNotify k r (me, slot)).sched.item me).suspendCount = 0 := by
    rw [fxSyncWaitNotify_sched, fxSchedItemResume_item, Function.update_self]
    have := h.count
    show (k.sched.item me).suspendCount - 1 = 0
    split at this <;> omega
  refine ⟨fun s => ?_, h.num, ?_, ?_, fun s q hq => ?_, ?_, ?_⟩
  · by_cases hs : s = slot
    · exact hs ▸ (h.tied s).notify r
    · exact (h.tied s).notify_ne (fun e => hs (Prod.mk.inj e).2) r
  · cases slot with
    | main =>
      rw [Function.update_self]
      exact ⟨Function.update_self .., rfl⟩
    | abort => exact h.main.congr (Function.update_of_ne (fun e => by cases e) ..)
  · cases slot with
    | main => exact h.abort.congr (Function.update_of_ne (fun e => by cases e) ..)
    | abort =>
      rw [Function.update_self]
      refine ⟨Function.update_self .., ?_⟩
      have hm := h.abort
      rw [hn] at hm
      rw [Option.isSome_iff_ne_none, ← hm.1]
      exact hb
  · by_cases hs : s = slot
    · subst hs
      rw [Function.update_self] at hq
      exact Option.some.inj hq ▸ hr
    · rw [Function.update_of_ne hs] at hq
      exact h.reason s q hq
  · rw [if_neg hone]
    exact hcount
  · rw [if_neg hone]
    exact Function.update_self ..

/-- **The invariant holds whatever happens meanwhile.** -/
theorem Asleep.meanwhile (h : Asleep k me w ab fun _ => none) (hm : Meanwhile me k n k') :
    Asleep k' me w ab n := by
  induction hm with
  | nothing => exact h
  | notify _ hb hr ih =>
    refine ih.notify ?_ hr
    rw [(ih.tied _).mem_iff.mp hb]
    exact nofun
  | other _ hv ih => exact ih.view hv

end Sicht

/-! ## 3. Cancelling what is still queued -/

section Rollback

variable {k : Kern T E Q A} {b c : Blk T} {t : T}

theorem fxSyncWaitRollbackOne_sched (k : Kern T E Q A) (b : Blk T) :
    (fxSyncWaitRollbackOne k b).sched = k.sched := by
  unfold fxSyncWaitRollbackOne
  split <;> rfl

theorem fxSyncWaitRollbackOne_state (k : Kern T E Q A) (b : Blk T) :
    (fxSyncWaitRollbackOne k b).state = k.state := by
  unfold fxSyncWaitRollbackOne
  split <;> rfl

theorem fxSyncWaitRollbackOne_wbNum (k : Kern T E Q A) (b : Blk T) :
    (fxSyncWaitRollbackOne k b).wbNum = k.wbNum := by
  unfold fxSyncWaitRollbackOne
  split <;> rfl

theorem fxSyncWaitRollbackOne_wb (k : Kern T E Q A) (b : Blk T) :
    (fxSyncWaitRollbackOne k b).wb b =
      if (k.wb b).waitable.isSome then ⟨none, .status .cancelled⟩ else k.wb b := by
  unfold fxSyncWaitRollbackOne
  split
  · exact Function.update_self ..
  · rfl

theorem fxSyncWaitRollbackOne_free (k : Kern T E Q A) (b : Blk T) :
    ((fxSyncWaitRollbackOne k b).wb b).waitable = none := by
  rw [fxSyncWaitRollbackOne_wb]
  split <;> simp_all

theorem fxSyncWaitRollbackOne_wb_ne (hc : c ≠ b) :
    (fxSyncWaitRollbackOne k b).wb c = k.wb c := by
  unfold fxSyncWaitRollbackOne
  split
  · exact Function.update_of_ne hc ..
  · rfl

theorem fxSyncWaitRollbackOne_count_ne (hc : c ≠ b) (w : Wtbl T E Q) :
    ((fxSyncWaitRollbackOne k b).wq w).count c = (k.wq w).count c := by
  unfold fxSyncWaitRollbackOne
  split
  · exact List.count_erase_of_ne hc
  · rfl

theorem Tied.rollbackOne (h : Tied k b) : Tied (fxSyncWaitRollbackOne k b) b := by
  unfold fxSyncWaitRollbackOne
  split
  · exact h.unlink rfl
  · exact h

theorem Tied.rollbackOne_ne (h : Tied k c) (hc : c ≠ b) : Tied (fxSyncWaitRollbackOne k b) c :=
  h.congr (by rw [fxSyncWaitRollbackOne_wb_ne hc]) (fxSyncWaitRollbackOne_count_ne hc)

/-- With both blocks prepared, both are cancelled. -/
theorem fxSyncWaitRollback_two (h : k.wbNum t = 2) : fxSyncWaitRollback k t =
    (2, fxSyncWaitRollbackOne (fxSyncWaitRollbackOne { k with wbNum := update k.wbNum t 0 }
      (t, .main)) (t, .abort)) := by
  simp [fxSyncWaitRollback, h]

theorem main_ne_abort (t u : T) : ((t, Slot.main) : Blk T) ≠ (u, .abort) :=
  fun e => by cases (Prod.mk.inj e).2

/-- **After the rollback** no block of the thread is linked; a block that was queued holds the
    status of a cancelled one, and any other what it held. -/
theorem rollback_spec (ht : ∀ slot, Tied k (t, slot)) (h : k.wbNum t = 2) :
    Awake (fxSyncWaitRollback k t).2 t ∧ (fxSyncWaitRollback k t).2.wbNum t = 0 ∧
      (fxSyncWaitRollback k t).2.sched = k.sched ∧ (fxSyncWaitRollback k t).2.state = k.state ∧
      ∀ slot, (fxSyncWaitRollback k t).2.wb (t, slot) =
        if (k.wb (t, slot)).waitable.isSome then ⟨none, .status .cancelled⟩
        else k.wb (t, slot) := by
  rw [fxSyncWaitRollback_two h]
  have hma := main_ne_abort t t
  have h0 : ∀ slot, Tied { k with wbNum := update k.wbNum t 0 } (t, slot) := ht
  refine ⟨⟨fun slot => ?_, fun slot => ?_⟩, ?_, ?_, ?_, fun slot => ?_⟩
  · cases slot with
    | main => exact (h0 .main).rollbackOne.rollbackOne_ne hma
    | abort => exact ((h0 .abort).rollbackOne_ne hma.symm).rollbackOne
  · cases slot with
    | main =>
      rw [fxSyncWaitRollbackOne_wb_ne hma]
      exact fxSyncWaitRollbackOne_free ..
    | abort => exact fxSyncWaitRollbackOne_free ..
  · rw [fxSyncWaitRollbackOne_wbNum, fxSyncWaitRollbackOne_wbNum]
    exact Function.update_self ..
  · rw [fxSyncWaitRollbackOne_sched, fxSyncWaitRollbackOne_sched]
  · rw [fxSyncWaitRollbackOne_state, fxSyncWaitRollbackOne_state]
  · cases slot with
    | main =>
      rw [fxSyncWaitRollbackOne_wb_ne hma]
      exact fxSyncWaitRollbackOne_wb ..
    | abort =>
      rw [fxSyncWaitRollbackOne_wb, fxSyncWaitRollbackOne_wb_ne hma.symm]

end Rollback

/-! ## 4. One call -/

/-- The test function leaves the thread alone when it succeeds, and queues its main block on
    `w`, and does nothing else to the thread, when it does not. -/
def SkipsOrQueues (testWait : Bool → Kern T E Q A × O → Bool × Kern T E Q A × O) (me : T)
    (w : Wtbl T E Q) (s : Kern T E Q A × O) : Prop :=
  if (testWait true s).1 then SameView me s.1 (testWait true s).2.1
  else SameView me (fxSyncWaitStart s.1 w (me, .main)) (testWait true s).2.1

/-- A call that returns `r` with the kernel in the state `k'`: either the wait was skipped, or
    the thread slept until one of its blocks was notified. -/
inductive WaitCall (testWait : Bool → Kern T E Q A × O → Bool × Kern T E Q A × O) (me : T)
    (attr : Option A) (abortEvent : Option (Ev T E)) (s : Kern T E Q A × O) :
    (Slot → Option WaitStatus) → ThreadStatus → Kern T E Q A → Prop where
  | skipped {r : ThreadStatus} {k : Kern T E Q A} {o : O}
      (h : fxThreadWaitObjectEnter testWait me attr abortEvent s = (some r, k, o)) :
      WaitCall testWait me attr abortEvent s (fun _ => none) r k
  | slept {k1 k2 : Kern T E Q A} {o : O} {n : Slot → Option WaitStatus}
      (h : fxThreadWaitObjectEnter testWait me attr abortEvent s = (none, k1, o))
      (hm : Meanwhile me k1 n k2) (hw : ∃ slot, n slot ≠ none) :
      WaitCall testWait me attr abortEvent s n (fxThreadWaitObjectLeave k2 me).1
        (fxThreadWaitObjectLeave k2 me).2

section Aufruf

variable {testWait : Bool → Kern T E Q A × O → Bool × Kern T E Q A × O} {me : T}
  {w : Wtbl T E Q} {attr : Option A} {ab : Option (Ev T E)} {s : Kern T E Q A × O}
  {n : Slot → Option WaitStatus} {k : Kern T E Q A}

/-- The thread with its blocks prepared for a wait. -/
structure Prepared (k : Kern T E Q A) (me : T) (attr : Option A) : Prop where
  awake : Awake k me
  num : k.wbNum me = 2
  main : k.wb (me, .main) = ⟨none, .attribute attr⟩
  abort : k.wb (me, .abort) = ⟨none, .attribute none⟩

theorem prepared (h : Awake k me) (attr : Option A) :
    Prepared (fxSyncWaiterPrepare k me attr) me attr := by
  have hma := main_ne_abort me me
  have hmain : (fxSyncWaiterPrepare k me attr).wb (me, .main) = ⟨none, .attribute attr⟩ := by
    show update (update k.wb _ _) _ _ _ = _
    rw [Function.update_of_ne hma, Function.update_self]
  have habort : (fxSyncWaiterPrepare k me attr).wb (me, .abort) = ⟨none, .attribute none⟩ :=
    Function.update_self ..
  have hfree : ∀ slot, ((fxSyncWaiterPrepare k me attr).wb (me, slot)).waitable = none := by
    intro slot
    cases slot with
    | main => rw [hmain]
    | abort => rw [habort]
  refine ⟨⟨fun slot => ?_, hfree⟩, Function.update_self .., hmain, habort⟩
  exact (h.tied slot).congr ((hfree slot).trans (h.free slot).symm) fun _ => rfl

theorem Prepared.view {k' : Kern T E Q A} (h : Prepared k me attr) (hv : SameView me k k') :
    Prepared k' me attr :=
  ⟨h.awake.view hv, hv.wbNum.trans h.num, (hv.wb _).trans h.main, (hv.wb _).trans h.abort⟩

/-- The main block queued. -/
structure Queued (k : Kern T E Q A) (me : T) (w : Wtbl T E Q) (attr : Option A) : Prop where
  tied : ∀ slot, Tied k (me, slot)
  num : k.wbNum me = 2
  main : k.wb (me, .main) = ⟨some w, .attribute attr⟩
  abort : k.wb (me, .abort) = ⟨none, .attribute none⟩

theorem Prepared.waitStart (h : Prepared k me attr) (w : Wtbl T E Q) :
    Queued (fxSyncWaitStart k w (me, .main)) me w attr := by
  have hma := main_ne_abort me me
  refine ⟨fun slot => ?_, h.num, ?_, ?_⟩
  · cases slot with
    | main => exact (h.awake.tied .main).waitStart (h.awake.free .main)
    | abort => exact (h.awake.tied .abort).waitStart_ne hma.symm
  · show update k.wb _ _ _ = _
    rw [Function.update_self, h.main]
  · show update k.wb _ _ _ = _
    rw [Function.update_of_ne hma.symm, h.abort]

theorem Queued.view {k' : Kern T E Q A} (h : Queued k me w attr) (hv : SameView me k k') :
    Queued k' me w attr :=
  ⟨fun slot => hv.tied (h.tied slot), hv.wbNum.trans h.num, (hv.wb _).trans h.main,
    (hv.wb _).trans h.abort⟩

/-- Going to sleep. -/
theorem asleep_sleepOn (attr : Option A) (ht : ∀ slot, Tied k (me, slot)) (hnum : k.wbNum me = 2)
    (hmain : k.wb (me, .main) = ⟨some w, .attribute attr⟩)
    (habort : k.wb (me, .abort) = ⟨ab.map .ev, .attribute none⟩)
    (h0 : (k.sched.item me).suspendCount = 0) :
    Asleep (fxThreadSleepOn k me) me w ab fun _ => none where
  tied := ht
  num := hnum
  main := ⟨by rw [show (fxThreadSleepOn k me).wb = k.wb from rfl, hmain], attr,
    by rw [show (fxThreadSleepOn k me).wb = k.wb from rfl, hmain]⟩
  abort := ⟨by rw [show (fxThreadSleepOn k me).wb = k.wb from rfl, habort], none,
    by rw [show (fxThreadSleepOn k me).wb = k.wb from rfl, habort]⟩
  reason _ _ h := by cases h
  count := by
    show ((fxSchedItemSuspend k.sched me).item me).suspendCount = 1
    rw [fxSchedItemSuspend_item, Function.update_self, h0]
  state := Function.update_self ..

/-- **What entering the wait comes to**: skipped, with the thread awake again, or asleep. -/
theorem enter_spec (ab : Option (Ev T E)) (hA : Awake s.1 me)
    (h0 : (s.1.sched.item me).suspendCount = 0)
    (hq : SkipsOrQueues testWait me w (fxSyncWaiterPrepare s.1 me attr, s.2)) :
    let p := testWait true (fxSyncWaiterPrepare s.1 me attr, s.2)
    match fxThreadWaitObjectEnter testWait me attr ab s with
    | (some r, k, _) => Awake k me ∧ k.wbNum me = 0 ∧ (k.sched.item me).suspendCount = 0 ∧
        (p.1 = true ∧ r = .ok ∨
          p.1 = false ∧ r = .waitCancelled ∧ ∃ e, ab = some e ∧ p.2.1.ev e = true)
    | (none, k, _) => Asleep k me w ab (fun _ => none) ∧ p.1 = false ∧
        ∀ e, ab = some e → p.2.1.ev e = false := by
  intro p
  have hprep := prepared hA attr
  have h0' : ((fxSyncWaiterPrepare s.1 me attr).sched.item me).suspendCount = 0 := h0
  cases hp : testWait true (fxSyncWaiterPrepare s.1 me attr, s.2) with
  | mk r ko =>
    obtain ⟨k1, o1⟩ := ko
    simp only [SkipsOrQueues, hp] at hq
    simp only [fxThreadWaitObjectEnter, p, hp]
    cases r with
    | true =>
      have hv : SameView me _ k1 := hq
      have h1 := hprep.view hv
      obtain ⟨ha, hn, hs, _, _⟩ := rollback_spec h1.awake.tied h1.num
      refine ⟨ha, hn, ?_, Or.inl ⟨rfl, rfl⟩⟩
      rw [hs, hv.count]
      exact h0'
    | false =>
      have hv : SameView me _ k1 := hq
      have h1 := (hprep.waitStart w).view hv
      have hc : (k1.sched.item me).suspendCount = 0 := hv.count.trans h0'
      cases ab with
      | none =>
        exact ⟨asleep_sleepOn attr h1.tied h1.num h1.main h1.abort hc, rfl, fun _ h => by cases h⟩
      | some e =>
        cases he : k1.ev e with
        | true =>
          obtain ⟨ha, hn, hs, _, _⟩ := rollback_spec h1.tied h1.num
          simp only [fxEventTestAndWait, he, Bool.true_eq_false, false_and, if_false]
          exact ⟨ha, hn, by rw [hs]; exact hc, Or.inr ⟨trivial, trivial, e, rfl, he⟩⟩
        | false =>
          have hma := main_ne_abort me me
          have hfree : (k1.wb (me, .abort)).waitable = none := by rw [h1.abort]
          simp only [fxEventTestAndWait, he, and_self, if_true]
          refine ⟨asleep_sleepOn attr (fun slot => ?_) h1.num ?_ ?_ hc, trivial, ?_⟩
          · cases slot with
            | main => exact (h1.tied .main).waitStart_ne hma
            | abort => exact (h1.tied .abort).waitStart hfree
          · show update k1.wb _ _ _ = _
            rw [Function.update_of_ne hma, h1.main]
          · show update k1.wb _ _ _ = _
            rw [Function.update_self, h1.abort]
            rfl
          · intro e' h'
            cases h'
            exact he

/-- The status a block holds after the rollback, by what it was notified with. -/
def rolledBackStatus (target : Option (Wtbl T E Q)) : Option WaitStatus → WaitStatus
  | some r => r
  | none => if target.isSome then .cancelled else .inProgress

theorem BlockAt.rolledBack {b : Blk T} {target : Option (Wtbl T E Q)} {r : Option WaitStatus}
    (h : BlockAt k b target r) :
    (if (k.wb b).waitable.isSome then (⟨none, .status .cancelled⟩ : WaitBlock T E Q A)
      else k.wb b).u.getStatus = rolledBackStatus target r := by
  cases r with
  | some r =>
    rw [h.1]
    rfl
  | none =>
    obtain ⟨a, ha⟩ := h.2
    rw [h.1]
    cases target with
    | some w => rfl
    | none =>
      show (k.wb b).u.getStatus = _
      rw [ha]
      rfl

theorem rolledBackStatus_satisfied {target : Option (Wtbl T E Q)} {r : Option WaitStatus} :
    rolledBackStatus target r = .satisfied ↔ r = some .satisfied := by
  cases r with
  | some r => exact (Option.some.injEq ..).symm ▸ Iff.rfl
  | none => cases target <;> simp [rolledBackStatus]

theorem rolledBackStatus_deleted {target : Option (Wtbl T E Q)} {r : Option WaitStatus} :
    rolledBackStatus target r = .deleted ↔ r = some .deleted := by
  cases r with
  | some r => exact (Option.some.injEq ..).symm ▸ Iff.rfl
  | none => cases target <;> simp [rolledBackStatus]

/-- **What a thread woken up returns**, by what its blocks were notified with. -/
theorem leave_spec (h : Asleep k me w ab n) :
    Awake (fxThreadWaitObjectLeave k me).2 me ∧ (fxThreadWaitObjectLeave k me).2.wbNum me = 0 ∧
      (fxThreadWaitObjectLeave k me).2.sched = k.sched ∧
      (fxThreadWaitObjectLeave k me).2.state = k.state ∧
      (fxThreadWaitObjectLeave k me).1 =
        if n .main = some .satisfied then .ok
        else if n .abort = some .satisfied then .waitCancelled
        else if n .main = some .deleted ∨ n .abort = some .deleted then .waitDeleted
        else .waitInterrupted := by
  obtain ⟨ha, hn, hs, hst, hwb⟩ := rollback_spec h.tied h.num
  refine ⟨ha, hn, hs, hst, ?_⟩
  have h2 : (fxSyncWaitRollback k me).1 = 2 := by rw [fxSyncWaitRollback_two h.num]
  rw [show (fxThreadWaitObjectLeave k me).1 = if (fxSyncWaitRollback k me).1 ≠ 0 then
      fxThreadGetWaitStatus ((fxSyncWaitRollback k me).2.wb (me, .main)).u.getStatus
        ((fxSyncWaitRollback k me).2.wb (me, .abort)).u.getStatus
    else .waitInterrupted from rfl, h2, if_pos (by decide), hwb, hwb, h.main.rolledBack,
    h.abort.rolledBack]
  simp only [fxThreadGetWaitStatus, rolledBackStatus_satisfied, rolledBackStatus_deleted]

/-- **The wait protocol.** When the call returns, no block of the thread is linked and its
    counts are zero. It returns OK exactly if the test succeeded at entry or the main block was
    notified as satisfied; else CANCELLED exactly if the abort event was set at entry or its
    block notified as satisfied; else DELETED, and then some block was notified as deleted. -/
theorem waitCall_result (hA : Awake s.1 me) (h0 : (s.1.sched.item me).suspendCount = 0)
    (hq : SkipsOrQueues testWait me w (fxSyncWaiterPrepare s.1 me attr, s.2))
    {r : ThreadStatus} {k' : Kern T E Q A} (hc : WaitCall testWait me attr ab s n r k') :
    let p := testWait true (fxSyncWaiterPrepare s.1 me attr, s.2)
    (∀ slot v, (me, slot) ∉ k'.wq v) ∧ k'.wbNum me = 0 ∧ (k'.sched.item me).suspendCount = 0 ∧
    (r = .ok ↔ p.1 = true ∨ n .main = some .satisfied) ∧
    (r ≠ .ok → (r = .waitCancelled ↔
      (∃ e, ab = some e ∧ p.2.1.ev e = true) ∨ n .abort = some .satisfied)) ∧
    (r ≠ .ok → r ≠ .waitCancelled → r = .waitDeleted ∧ ∃ slot, n slot = some .deleted) ∧
    r ≠ .waitInterrupted := by
  intro p
  have henter := enter_spec ab hA h0 hq
  cases hc with
  | skipped h =>
    rw [h] at henter
    obtain ⟨ha, hn, hcnt, hr⟩ := henter
    refine ⟨fun slot v => (ha.tied slot).not_mem (ha.free slot), hn, hcnt, ?_⟩
    rcases hr with ⟨hp, rfl⟩ | ⟨hp, rfl, e, he⟩
    · simp [p, hp]
    · simp only [p, hp]
      refine ⟨by simp, fun _ => iff_of_true trivial (Or.inl ⟨e, he⟩), by simp, by simp⟩
  | slept h hm hw =>
    rw [h] at henter
    obtain ⟨hasl, hp, habort⟩ := henter
    have hasl := hasl.meanwhile hm
    obtain ⟨ha, hn, hs, _, hr⟩ := leave_spec hasl
    refine ⟨fun slot v => (ha.tied slot).not_mem (ha.free slot), hn, ?_, ?_⟩
    · rw [hs, hasl.count, if_neg]
      rintro ⟨h1, h2⟩
      obtain ⟨slot, hslot⟩ := hw
      cases slot with
      | main => exact hslot h1
      | abort => exact hslot h2
    · have hset : ¬ ∃ e, ab = some e ∧ p.2.1.ev e = true := by
        rintro ⟨e, he, hev⟩
        rw [habort e he] at hev
        cases hev
      -- some block was notified, as satisfied or as deleted
      have hsome : n .main = some .satisfied ∨ n .abort = some .satisfied ∨
          n .main = some .deleted ∨ n .abort = some .deleted := by
        obtain ⟨slot, hslot⟩ := hw
        obtain ⟨q, hq⟩ := Option.ne_none_iff_exists'.mp hslot
        have := hasl.reason slot q hq
        cases slot with
        | main => rcases this with rfl | rfl <;> simp [hq]
        | abort => rcases this with rfl | rfl <;> simp [hq]
      have hp' : p.1 = false := hp
      rw [hr]
      simp only [hp', hset, false_or, Bool.false_eq_true]
      split
      · simp_all
      · split
        · simp_all
        · split
          · rename_i hd
            refine ⟨by simp_all, by simp_all, fun _ _ => ⟨rfl, ?_⟩, by simp⟩
            rcases hd with hd | hd
            · exact ⟨.main, hd⟩
            · exact ⟨.abort, hd⟩
          · simp_all

end Aufruf

/-- The abort event is set first and the main object signalled after it, before the thread
    runs: the main object's status is returned. -/
theorem waitCall_result_both :
    let s : Kern (Fin 3) Unit Unit Unit × Unit := (fxThreadInitEx (fxThreadCtor 8 2) 0 5 false, ())
    ∃ n k', WaitCall (fun _ s => (false, fxSyncWaitStart s.1 (.obj ()) (0, .main), ())) 0 none
      (some (.user ())) s n .ok k' ∧ n .abort = some .satisfied ∧ k'.wbNum 0 = 0 := by
  intro s
  let testWait : Bool → Kern (Fin 3) Unit Unit Unit × Unit →
      Bool × Kern (Fin 3) Unit Unit Unit × Unit :=
    fun _ s => (false, fxSyncWaitStart s.1 (.obj ()) (0, .main), ())
  have hA : Awake s.1 0 := by
    refine ⟨fun slot w => ?_, fun _ => rfl⟩
    show List.count _ (update (update (fun _ => []) _ []) _ [] w) = 0
    rw [Function.update_eq_self_iff.mpr rfl, Function.update_eq_self_iff.mpr rfl]
    rfl
  let k1 := (fxThreadWaitObjectEnter testWait 0 none (some (.user ())) s).2.1
  let k2 := fxSyncWaitNotify k1 .satisfied (0, .abort)
  have h1 : ((0, .abort) : Blk (Fin 3)) ∈ k1.wq (.ev (.user ())) := by decide
  have h2 : ((0, .main) : Blk (Fin 3)) ∈ k2.wq (.obj ()) := by decide
  have hm : Meanwhile 0 k1 _ (fxSyncWaitNotify k2 .satisfied (0, .main)) :=
    .notify (.notify .nothing h1 (Or.inl rfl)) h2 (Or.inl rfl)
  have hc := WaitCall.slept (o := ()) (show fxThreadWaitObjectEnter testWait 0 none
    (some (.user ())) s = (none, k1, ()) from rfl) hm ⟨.main, by simp⟩
  have hq : SkipsOrQueues testWait 0 (.obj ()) (fxSyncWaiterPrepare s.1 0 none, s.2) :=
    SameView.refl 0 _
  obtain ⟨_, hn, _, hok, _⟩ := waitCall_result hA rfl hq hc
  have hr := hok.mpr (Or.inr (by simp))
  rw [hr] at hc
  exact ⟨_, _, hc, by simp, hn⟩

end FxRtos
