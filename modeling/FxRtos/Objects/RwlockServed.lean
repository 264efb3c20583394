/-
  File:      FxRtos/Objects/RwlockServed.lean
  Subject:   WHO WAITS FOR A READER-WRITER LOCK. Readers wait because a writer owns the lock or
             waits for it, writers because somebody holds it.

  * `KickPending` -- a writer whose wait failed has yet to let in the readers it kept out.
  * `TerminateServed` -- a thread terminated does not leave readers behind that only it kept out.
  * `rwlock_served` -- in every run with such terminations only, nobody waits for a lock that is
    there. `rwlock_stranded` -- a run in which the only writer waiting is terminated: its block is
    taken out of the queue by `fx_sync_wait_rollback`, which does not kick anybody.
-/
import FxRtos.Kernel.Grants
import FxRtos.Objects.Rwlock

namespace FxRtos

open Function (update)
open Lib

set_option linter.unusedSectionVars false

variable {T E : Type} [DecidableEq T] [DecidableEq E]

abbrev RwSys (T E : Type) := Sys T E RwQ Unit (FxRwlock T) (RwCall E)

/-! ## 1. The queues -/

/-- Whoever waits has a reason to, or is about to be let in. -/
structure RwServed (k : RwKern T E) (o : FxRwlock T) (kick : Prop) : Prop where
  readers : o.owner = none → k.wq (.obj .wr) = [] → k.wq (.obj .rd) = [] ∨ kick
  writers : o.owner = none → o.readers = 0 → k.wq (.obj .wr) = []

section Schlangen

variable {k : RwKern T E} {o : FxRwlock T} {kick : Prop} {s : RwKern T E × FxRwlock T}

theorem RwServed.owned (h : o.owner ≠ none) : RwServed k o kick :=
  ⟨fun ho => absurd ho h, fun ho => absurd ho h⟩

/-- The loop leaves the owner and the writers alone. -/
theorem fxRwlockReadersLoop_writers (policy : SyncPolicy) (n : Nat)
    (s : RwKern T E × FxRwlock T) :
    (fxRwlockReadersLoop policy n s).2.owner = s.2.owner ∧
      s.2.readers ≤ (fxRwlockReadersLoop policy n s).2.readers ∧
      (fxRwlockReadersLoop policy n s).1.wq (.obj .wr) = s.1.wq (.obj .wr) := by
  induction n generalizing s with
  | zero => exact ⟨rfl, Nat.le_refl _, rfl⟩
  | succ n ih =>
    unfold fxRwlockReadersLoop
    split
    · rename_i wb hget
      split at hget
      · rename_i hwr
        obtain ⟨h1, h2, h3⟩ := ih (fxSyncWaitNotify s.1 .satisfied wb, s.2.addReader wb.1)
        refine ⟨h1, (Nat.le_succ _).trans h2, h3.trans ?_⟩
        rw [fxSyncWaitNotify_wq, hwr]
        rfl
      · cases hget
    · exact ⟨rfl, Nat.le_refl _, rfl⟩

/-- No reader is left where no writer waits: each round takes one out of the queue. -/
theorem fxRwlockReadersLoop_readers (policy : SyncPolicy) (n : Nat)
    (hwr : s.1.wq (.obj .wr) = []) (hn : (s.1.wq (.obj .rd)).length ≤ n) :
    (fxRwlockReadersLoop policy n s).1.wq (.obj .rd) = [] := by
  induction n generalizing s with
  | zero => exact List.length_eq_zero_iff.mp (Nat.le_zero.mp hn)
  | succ n ih =>
    unfold fxRwlockReadersLoop
    split
    · rename_i wb hget
      rw [if_pos hwr] at hget
      have hmem := fxSyncWaitBlockGet_mem hget
      refine ih ?_ ?_
      · show (fxSyncWaitNotify s.1 .satisfied wb).wq _ = []
        rw [fxSyncWaitNotify_wq, hwr]
        rfl
      · show ((fxSyncWaitNotify s.1 .satisfied wb).wq _).length ≤ n
        rw [fxSyncWaitNotify_wq, List.length_erase_of_mem hmem]
        omega
    · rename_i hget
      rw [if_pos hwr] at hget
      exact fxSyncWaitBlockGet_none.mp hget

/-- Letting the readers in settles what was pending. -/
theorem RwServed.kicked (policy : SyncPolicy)
    (h : o.owner = none → o.readers = 0 → k.wq (.obj .wr) = []) :
    RwServed (fxRwlockReaders policy (k, o)).1 (fxRwlockReaders policy (k, o)).2 kick := by
  obtain ⟨ho, hr, hwr⟩ := fxRwlockReadersLoop_writers policy (k.wq (.obj .rd)).length (k, o)
  refine ⟨fun _ hnil => Or.inl ?_, fun hnone hzero => ?_⟩
  · exact fxRwlockReadersLoop_readers policy _ (hwr.symm.trans hnil) (Nat.le_refl _)
  · refine hwr.trans (h (ho.symm.trans hnone) ?_)
    exact Nat.le_zero.mp (hr.trans hzero.le)

theorem RwServed.unlock (me : T) (policy : SyncPolicy) (h : RwServed k o kick) :
    RwServed (fxRwlockUnlockWithPolicy me policy (k, o)).1
      (fxRwlockUnlockWithPolicy me policy (k, o)).2 kick := by
  unfold fxRwlockUnlockWithPolicy
  dsimp only
  split
  · split
    · exact .owned nofun
    · -- no writer waits: the readers are let in
      rename_i hget
      exact .kicked policy fun _ _ => fxSyncWaitBlockGet_none.mp hget
  · split
    · rename_i hfree
      split
      · exact .owned nofun
      · rename_i hget
        refine ⟨h.readers, fun _ hzero => ?_⟩
        change o.readers - 1 = 0 at hzero
        rw [if_pos hzero] at hget
        exact fxSyncWaitBlockGet_none.mp hget
    · exact ⟨h.readers, h.writers⟩

theorem RwServed.deinit : RwServed (fxRwlockDeinit (k, o)).1 (fxRwlockDeinit (k, o)).2 kick := by
  have hwr : (fxRwlockDeinit (k, o)).1.wq (.obj .wr) = [] := notifyAll_nil ..
  refine ⟨fun _ _ => Or.inl ?_, fun _ _ => hwr⟩
  have hm : Moves IsObj NoOne _ (fxRwlockDeinit (k, o)).1 :=
    Moves.notifyAll (w := .obj RwQ.wr) trivial (Or.inr rfl)
      (fxSyncWaitNotifyAll k (.obj .rd) .deleted)
  have hsub := hm.sublist (.obj .rd)
  rw [notifyAll_nil] at hsub
  exact List.sublist_nil.mp hsub

end Schlangen

/-! ## 2. Failed writers, and writers terminated -/

/-- A writer's wait has failed, and the readers are yet to be kicked. -/
def Pc.kicks : Pc T E (RwCall E) → Prop
  | .inCall (.disarm r) (.wrLock _) => r ≠ .ok
  | .inCall (.ret r) (.wrLock _) => r ≠ .ok
  | _ => False

def Sys.KickPending (s : RwSys T E) (t : T) : Prop := (s.pc t).kicks

instance (p : Pc T E (RwCall E)) : Decidable p.kicks := by
  unfold Pc.kicks
  split <;> infer_instance

instance (s : RwSys T E) (t : T) : Decidable (s.KickPending t) :=
  inferInstanceAs (Decidable (s.pc t).kicks)

/-- If a thread is terminated while nobody owns the lock, another writer waits, or no other reader
    does, or another writer's kick is pending. -/
def TerminateServed (s : RwSys T E) (a : Act T E (RwCall E) (RwOp T)) : Prop :=
  match a with
  | .terminate t => s.obj.owner ≠ none ∨ (∃ b ∈ s.kern.wq (.obj .wr), b.1 ≠ t) ∨
      (∀ b ∈ s.kern.wq (.obj .rd), b.1 = t) ∨ ∃ u, u ≠ t ∧ s.KickPending u
  | _ => True

section Schritt

variable {cfg : Config T} {checks : Bool} {s s' : RwSys T E} {t u : T}
  {a : Act T E (RwCall E) (RwOp T)}

theorem kicks_afterWait {ab : Option (Ev T E)} {r : ThreadStatus} {args : WaitArgs E}
    (hr : r ≠ .ok) : (Pc.inCall (afterWait ab r) (.wrLock args) : Pc T E (RwCall E)).kicks := by
  unfold afterWait
  split <;> exact hr

theorem afterWait_ne_asleep {ab ab' : Option (Ev T E)} {r : ThreadStatus} {c d : RwCall E} :
    (Pc.inCall (afterWait ab r) c : Pc T E (RwCall E)) ≠ .inCall (.asleep ab') d := by
  unfold afterWait
  split <;> exact nofun

theorem timedResult_ne_ok {r : ThreadStatus} (hr : r ≠ .ok) : timedResult r ≠ .ok := by
  unfold timedResult
  split
  · exact nofun
  · exact hr

/-- A kick stays pending until the writer returns, or is terminated. -/
theorem kicks_stay (hs : step cfg (fxRwlock checks) a s = some s') (hk : s.KickPending t)
    (hno : ¬ s.RunsCode a) (hterm : a ≠ .terminate t) : s'.KickPending t := by
  unfold Sys.KickPending at hk ⊢
  by_cases hsame : s'.pc t = s.pc t
  · rwa [hsame]
  cases hpc : s.pc t with
  | inCall stage c =>
    rcases mover_of_calling hs (calling_iff.mpr ⟨_, _, hpc⟩) hsame with rfl | rfl
    · change ¬ (s.pc t).runsCode at hno
      rw [hpc] at hk hno
      cases stage with
      | disarm r =>
        cases c with
        | rdLock args => exact hk.elim
        | wrLock args =>
          simp only [step, hpc] at hs
          obtain ⟨_, rfl⟩ := taken hs
          show (update s.pc t _ t).kicks
          rw [Function.update_self]
          exact timedResult_ne_ok hk
      | ret r => exact absurd trivial hno
      | _ => cases c <;> exact hk.elim
    · exact absurd rfl hterm
  | _ =>
    rw [hpc] at hk
    exact hk.elim

/-- A writer that leaves the queue on its own kicks the readers. -/
theorem kicks_leave (hw : WellFormed (fxRwlock checks) s) (hw' : WellFormed (fxRwlock checks) s')
    (hs : step cfg (fxRwlock checks) a s = some s') (hq : Quiet cfg (fxRwlock checks) a s s' t)
    {b : Blk T} (hb : b ∈ s.kern.wq (.obj .wr)) (hb' : b ∉ s'.kern.wq (.obj .wr))
    (hterm : a ≠ .terminate b.1) : s'.KickPending b.1 := by
  have hobj : ∀ c, IsObj ((fxRwlock checks : WaitObject T E _ _ _ _ _).waitable c) :=
    fun _ => trivial
  have hne : s'.pc b.1 ≠ s.pc b.1 := fun he => hb' (hq.queued hw hw' hb he)
  obtain ⟨hmain, ab, c, hpc, hc⟩ := call_of_mem hw.phases hb rfl
  rcases mover_of_calling hs (calling_iff.mpr ⟨_, _, hpc⟩) hne with rfl | rfl
  · cases c with
    | rdLock args => cases hc
    | wrLock args =>
      simp only [step, hpc] at hs
      obtain ⟨_, rfl⟩ := taken hs
      have hpc' : (advance cfg (fxRwlock checks) b.1 (.wrLock args) s (.asleep ab)).pc b.1 =
          .inCall (afterWait ab (fxThreadWaitObjectLeave s.kern b.1).1) (.wrLock args) :=
        Function.update_self ..
      -- the call was not granted, so its wait has failed
      have hg := hq.granted hobj hw b.1 (not_gone hpc')
      unfold Sys.granted at hg
      rw [hpc, granted_of_mem hw.kern hb (phase_ne_entering _), hpc', afterWait_granted] at hg
      unfold Sys.KickPending
      rw [hpc']
      refine kicks_afterWait fun hok => ?_
      rw [if_pos hok] at hg
      cases hg
  · exact absurd rfl hterm

/-- A step without code of the lock. -/
theorem RwServed.quiet (hw : WellFormed (fxRwlock checks) s)
    (hw' : WellFormed (fxRwlock checks) s') (hs : step cfg (fxRwlock checks) a s = some s')
    (hq : Quiet cfg (fxRwlock checks) a s s' t) (hno : ¬ s.RunsCode a) (hg : TerminateServed s a)
    (h : RwServed s.kern s.obj (∃ u, s.KickPending u)) :
    RwServed s'.kern s'.obj (∃ u, s'.KickPending u) := by
  rw [hq.obj]
  refine ⟨fun ho hnil' => ?_, fun ho hz => ?_⟩
  · by_cases hterm : ∃ u, a = .terminate u
    · obtain ⟨u, rfl⟩ := hterm
      have hpc' : s'.pc = update s.pc u .gone := by
        obtain ⟨_, rfl⟩ := taken hs
        rfl
      rcases hg with hown | ⟨b, hb, hne⟩ | hrd | ⟨v, hv, hkick⟩
      · exact absurd ho hown
      · have hstay := hq.queued hw hw' hb (by rw [hpc', Function.update_of_ne hne])
        rw [hnil'] at hstay
        cases hstay
      · refine Or.inl (List.eq_nil_iff_forall_not_mem.mpr fun b hb => ?_)
        obtain ⟨_, _, _, hasl, _⟩ := call_of_mem hw'.phases hb rfl
        rw [hpc', hrd b ((hq.frame.sub _).mem hb), Function.update_self] at hasl
        cases hasl
      · exact Or.inr ⟨v, kicks_stay hs hkick hno fun e => hv (Act.terminate.inj e).symm⟩
    · have hnot : ∀ u, a ≠ .terminate u := fun u hu => hterm ⟨u, hu⟩
      by_cases hnil : s.kern.wq (.obj .wr) = []
      · rcases h.readers ho hnil with hrd | ⟨v, hkick⟩
        · have hsub := hq.frame.sub .rd
          rw [hrd] at hsub
          exact Or.inl (List.sublist_nil.mp hsub)
        · exact Or.inr ⟨v, kicks_stay hs hkick hno (hnot v)⟩
      · obtain ⟨b, hb⟩ := List.exists_mem_of_ne_nil _ hnil
        refine Or.inr ⟨b.1, kicks_leave hw hw' hs hq hb ?_ (hnot _)⟩
        rw [hnil']
        exact List.not_mem_nil
  · have hsub := hq.frame.sub .wr
    rw [h.writers ho hz] at hsub
    exact List.sublist_nil.mp hsub

/-- Another thread's kick is still pending after a step of `t` from a stage in which none is. -/
theorem kicks_other {p : Pc T E (RwCall E)} (ht : ¬ (s.pc t).kicks)
    (h : ∃ u, s.KickPending u) : ∃ u, (update s.pc t p u).kicks := by
  obtain ⟨u, hu⟩ := h
  refine ⟨u, ?_⟩
  rw [Function.update_of_ne]
  · exact hu
  · rintro rfl
    exact ht hu

/-- A test that succeeds lets nobody wait. -/
theorem RwServed.grant {c : RwCall E} {k k' : RwKern T E} {o : FxRwlock T} {kick kick' : Prop}
    (h : RwServed k o kick) (hq : ∀ q, k'.wq (.obj q) = [] ↔ k.wq (.obj q) = [])
    (hk : kick → kick') : RwServed k' (o.grant t c) kick' := by
  cases c with
  | wrLock args => exact .owned nofun
  | rdLock args =>
    refine ⟨fun ho hnil => ?_, fun _ hz => by cases hz⟩
    exact (h.readers ho ((hq .wr).mp hnil)).imp (hq .rd).mpr hk

/-- A test that fails, of a thread that does not go to sleep. -/
theorem RwServed.refuse {k k' : RwKern T E} {o : FxRwlock T} {kick kick' : Prop}
    (h : RwServed k o kick) (hq : ∀ q, k'.wq (.obj q) = [] ↔ k.wq (.obj q) = [])
    (hk : kick → kick') : RwServed k' o kick' :=
  ⟨fun ho hnil => (h.readers ho ((hq .wr).mp hnil)).imp (hq .rd).mpr hk,
    fun ho hz => (hq .wr).mpr (h.writers ho hz)⟩

/-- The queues after a call has been entered, for the threads that wait already. -/
theorem Entered.others {ab : Option (Ev T E)} {p : Bool × RwKern T E × FxRwlock T}
    {r : Option ThreadStatus} {k : RwKern T E} (he : Entered t ab p r k) {b : Blk T}
    (hb : b.1 ≠ t) (w : Wtbl T E RwQ) : b ∈ k.wq w ↔ b ∈ p.2.1.wq w := by
  have hcount := (he.view hb).queued w b.2
  rw [← List.count_pos_iff, ← List.count_pos_iff]
  exact Iff.of_eq (congrArg (0 < ·) hcount)

/-- A thread that does not go to sleep on a queue leaves it empty or not. -/
theorem queue_nil (hw : WellFormed (fxRwlock checks) s) (hw' : WellFormed (fxRwlock checks) s')
    (ht : s.phases (fxRwlock checks) t = .awake) {q : RwQ}
    (hother : ∀ b, b.1 ≠ t → (b ∈ s'.kern.wq (.obj q) ↔ b ∈ s.kern.wq (.obj q)))
    (hno : ∀ ab c, s'.pc t = .inCall (.asleep ab) c → c.queue ≠ q) :
    s'.kern.wq (.obj q) = [] ↔ s.kern.wq (.obj q) = [] := by
  rw [List.eq_nil_iff_forall_not_mem, List.eq_nil_iff_forall_not_mem]
  refine forall_congr' fun b => not_congr ?_
  by_cases hbt : b.1 = t
  · refine iff_of_false (fun hb => ?_) fun hb => (hw.awake ht).1.ne_of_mem hb hbt
    obtain ⟨_, ab, c, hpc, hc⟩ := call_of_mem hw'.phases hb rfl
    rw [hbt] at hpc
    exact hno ab c hpc (by cases hc; rfl)
  · exact hother b hbt

/-- The queues after the test, for the threads that wait already. -/
theorem test_others (c : RwCall E) (wait : Bool) (k : RwKern T E) (o : FxRwlock T) {b : Blk T}
    (hb : b.1 ≠ t) (w : Wtbl T E RwQ) :
    b ∈ ((fxRwlock checks).testWait t c wait (k, o)).2.1.wq w ↔ b ∈ k.wq w := by
  rcases fxRwlockTest_cases checks t c wait (k, o) with ⟨_, _, e⟩ | e
  · rw [e]
  · rw [e]
    cases wait with
    | false => exact Iff.rfl
    | true =>
      show b ∈ (fxSyncWaitStart k (.obj c.queue) (t, .main)).wq w ↔ _
      by_cases hwq : w = .obj c.queue
      · rw [hwq, waitStart_wq, List.mem_append, List.mem_singleton]
        exact or_iff_left fun e => hb (congrArg Prod.fst e)
      · rw [waitStart_wq_ne hwq]

/-- A test that fails: the lock is owned, or a writer has to wait for readers, or a reader for a
    writer that waits. -/
theorem test_refused {c : RwCall E} {wait : Bool} {k : RwKern T E} {o : FxRwlock T}
    (h : ((fxRwlock checks).testWait t c wait (k, o)).1 = false) : o.owner ≠ none ∨
      (c.queue = .wr ∧ o.readers ≠ 0) ∨ (c.queue = .rd ∧ k.wq (.obj .wr) ≠ []) := by
  by_cases ho : o.owner = none
  · refine Or.inr ?_
    cases c with
    | rdLock args =>
      refine Or.inr ⟨rfl, fun hnil => ?_⟩
      have htest : (fxRwlockTestAndWaitReader t wait (k, o)).1 = true := by
        unfold fxRwlockTestAndWaitReader
        rw [if_pos ⟨ho, hnil⟩]
      cases htest.symm.trans h
    | wrLock args =>
      refine Or.inl ⟨rfl, fun hz => ?_⟩
      have htest : (fxRwlockTestAndWaitWriter t wait (k, o)).1 = true := by
        unfold fxRwlockTestAndWaitWriter
        rw [if_pos ⟨ho, hz⟩]
      cases htest.symm.trans h
  · exact Or.inl ho

/-- A writer that sleeps is queued. -/
theorem writer_queued {ab : Option (Ev T E)} {k1 k : RwKern T E} {o : FxRwlock T}
    (he : Entered t ab (false, fxSyncWaitStart k1 (.obj .wr) (t, .main), o) none k) :
    k.wq (.obj .wr) ≠ [] := by
  have hstart : (fxSyncWaitStart k1 (.obj .wr) (t, .main)).wq (.obj .wr) ≠ [] := by
    rw [waitStart_wq]
    exact List.concat_ne_nil _ _
  cases he with
  | alone h hab => exact hstart
  | both h e hab hclear =>
    have hne : (.obj .wr : Wtbl T E RwQ) ≠ .ev e := by
      intro h
      cases h
    show (fxSyncWaitStart (fxSyncWaitStart k1 (.obj .wr) (t, .main)) (.ev e)
      (t, .abort)).wq (.obj .wr) ≠ []
    rw [waitStart_wq_ne hne]
    exact hstart

/-- A test after which the thread does not sleep. -/
theorem RwServed.tested {c : RwCall E} {wait : Bool} {k1 k : RwKern T E} {o : FxRwlock T}
    {kick kick' : Prop} (h : RwServed k1 o kick)
    (hq : ∀ q, k.wq (.obj q) = [] ↔ k1.wq (.obj q) = []) (hk : kick → kick')
    {k2 : RwKern T E} :
    RwServed k ((fxRwlock checks).testWait t c wait (k2, o)).2.2 kick' := by
  rcases fxRwlockTest_cases checks t c wait (k2, o) with ⟨_, _, e⟩ | e
  · rw [e]
    exact h.grant hq hk
  · rw [e]
    exact h.refuse hq hk

/-- A thread that goes to sleep. -/
theorem RwServed.slept {c : RwCall E} {ab : Option (Ev T E)} {k1 k : RwKern T E}
    {o : FxRwlock T} (h : o.owner = none → o.readers = 0 → k1.wq (.obj .wr) = [])
    (he : Entered t ab ((fxRwlock checks).testWait t c true (k1, o)) none k)
    (hq : c.queue = .rd → (k.wq (.obj .wr) = [] ↔ k1.wq (.obj .wr) = [])) {kick : Prop} :
    RwServed k ((fxRwlock checks).testWait t c true (k1, o)).2.2 kick := by
  have hfalse : ((fxRwlock checks).testWait t c true (k1, o)).1 = false := by
    cases he with
    | alone h => exact h
    | both h => exact h
  have hreason := test_refused hfalse
  rcases fxRwlockTest_cases checks t c true (k1, o) with ⟨_, _, e⟩ | e
  · rw [e] at hfalse
    cases hfalse
  rw [e] at he ⊢
  rcases hreason with hown | ⟨hc, hz⟩ | ⟨hc, hne⟩
  · exact .owned hown
  · -- a writer, behind readers
    rw [hc] at he
    exact ⟨fun _ hnil => absurd hnil (writer_queued he), fun _ hzero => absurd hzero hz⟩
  · -- a reader, behind a writer
    refine ⟨fun _ hnil => absurd ((hq hc).mp hnil) hne, fun ho hz => (hq hc).mpr ?_⟩
    exact h ho hz

/-- **One step.** -/
theorem RwServed.step (hw : WellFormed (fxRwlock checks) s) (hg : TerminateServed s a)
    (h : RwServed s.kern s.obj (∃ u, s.KickPending u))
    (hs : step cfg (fxRwlock checks) a s = some s') :
    RwServed s'.kern s'.obj (∃ u, s'.KickPending u) := by
  have hw' := (step_case (fxRwlock_lawful checks) hw hs).2
  cases code_case (fxRwlock_lawful checks) hw hs with
  | quiet t hq hno => exact h.quiet hw hw' hs hq hno hg
  | enter t c ab r k ha hpc hr he hs1 =>
    have hph : s.phases (fxRwlock checks) t = .awake := by rw [Sys.phases, hpc]; rfl
    have hother : ∀ q b, b.1 ≠ t → (b ∈ s'.kern.wq (.obj q) ↔ b ∈ s.kern.wq (.obj q)) := by
      intro q b hb
      rw [hs1]
      exact (he.others hb _).trans (test_others c true _ _ hb _)
    have hpc' : s'.pc t = .inCall (r.elim (.asleep ab) (afterWait ab)) c := by
      rw [hs1]
      exact Function.update_self ..
    have hkick : (∃ u, s.KickPending u) → ∃ u, s'.KickPending u := by
      rw [hs1]
      exact kicks_other (by rw [hpc]; exact not_false)
    cases r with
    | some r =>
      have hnil := fun q => queue_nil hw hw' hph (hother q) fun ab' d hd => by
        rw [hpc'] at hd
        exact absurd hd afterWait_ne_asleep
      rw [hs1] at hnil hkick ⊢
      exact h.tested hnil hkick
    | none =>
      have hnil : c.queue = .rd → (s'.kern.wq (.obj .wr) = [] ↔ s.kern.wq (.obj .wr) = []) := by
        refine fun hc => queue_nil hw hw' hph (hother .wr) fun ab' d hd => ?_
        rw [hpc'] at hd
        cases hd
        rw [hc]
        decide
      rw [hs1] at hnil ⊢
      refine RwServed.slept ?_ he hnil
      exact h.writers
  | poll t c ha hpc hr hs1 =>
    have hph : s.phases (fxRwlock checks) t = .awake := by rw [Sys.phases, hpc]; rfl
    have hnil := fun q => queue_nil hw hw' hph (q := q)
      (fun b hb => by rw [hs1]; exact test_others c false _ _ hb _) fun ab d hd => by
        rw [hs1] at hd
        change update s.pc t _ t = _ at hd
        rw [Function.update_self] at hd
        cases hd
    have hkick : (∃ u, s.KickPending u) → ∃ u, s'.KickPending u := by
      rw [hs1]
      exact kicks_other (by rw [hpc]; exact not_false)
    rw [hs1] at hnil hkick ⊢
    exact h.tested hnil hkick
  | after t c r ha hpc hs1 =>
    have hnext : s' = ⟨(fxRwlockLockEnd t r (s.kern, s.obj) c).1,
        (fxRwlockLockEnd t r (s.kern, s.obj) c).2, update s.pc t .idle, s.base⟩ := hs1
    have hkick : ¬ (s.pc t).kicks → (∃ u, s.KickPending u) → ∃ u, s'.KickPending u := by
      rw [hnext]
      exact kicks_other
    rw [hpc] at hkick
    rw [hnext] at hkick ⊢
    cases c with
    | rdLock args =>
      have hsame := h.refuse (fun _ => Iff.rfl) (hkick not_false)
      simp only [fxRwlockLockEnd]
      split
      · exact ⟨hsame.readers, hsame.writers⟩
      · exact hsame
    | wrLock args =>
      simp only [fxRwlockLockEnd] at hkick ⊢
      split
      · rename_i hok
        have hsame := h.refuse (fun _ => Iff.rfl) (hkick fun hne => hne hok)
        exact ⟨hsame.readers, hsame.writers⟩
      · exact .kicked s.obj.policy h.writers
  | op p ko ha hc ho hs1 =>
    obtain ⟨_, rfl⟩ := taken ho
    rw [hs1]
    split
    · exact h
    · cases p with
      | deinit => exact .deinit
      | unlockWithPolicy me policy => exact h.unlock me policy
      | unlock me => exact h.unlock me s.obj.policy

end Schritt

/-! ## 3. Every run -/

/-- **Nobody waits for a lock that is there**, in every run in which no termination leaves readers
    behind, in every state in which no kick is pending. -/
theorem rwlock_served {cfg : Config T} {policy : SyncPolicy} {s : RwSys T E}
    (h : Reach (step cfg (fxRwlock cfg.checks)) TerminateServed (boot cfg (fxRwlockInit policy)) s)
    (hkick : ∀ t, ¬ s.KickPending t) :
    (s.obj.owner = none → s.kern.wq (.obj .wr) = [] → s.kern.wq (.obj .rd) = []) ∧
    (s.obj.owner = none → s.obj.readers = 0 → s.kern.wq (.obj .wr) = []) ∧
    -- the readers counted are those that hold the lock, where none came in beside an owner
    (Reach (step cfg (fxRwlock cfg.checks)) KickHarmless (boot cfg (fxRwlockInit policy)) s →
      s.obj.readers = s.obj.granted.length) := by
  have hserved : RwServed s.kern s.obj (∃ u, s.KickPending u) := by
    refine Reach.inv_of (J := fun s : RwSys T E => RwServed s.kern s.obj (∃ u, s.KickPending u))
      (K := WellFormed (fxRwlock cfg.checks)) (fun _ hr => ?_) ?_
      (fun _ _ _ hw hj hg hs => hj.step hw hg hs) h
    · exact reach_wellFormed (fxRwlock_lawful cfg.checks) (hr.mono fun _ _ _ => trivial)
    · exact ⟨fun _ _ => Or.inl rfl, fun _ _ => rfl⟩
  refine ⟨fun ho hnil => ?_, hserved.writers, fun hr => (reach_rwOk hr).len.symm⟩
  rcases hserved.readers ho hnil with hrd | ⟨t, ht⟩
  · exact hrd
  · exact absurd ht (hkick t)

/-- Thread 0 reads, the writers 1 and 3 wait, and reader 2 behind them. Thread 1 is terminated,
    which leaves thread 3; its timeout runs out, and it lets thread 2 in. -/
theorem rwlock_served_timeout :
    let cfg : Config (Fin 5) := ⟨true, 8, 4⟩
    ∃ s : RwSys (Fin 5) Unit, Reach (step cfg (fxRwlock cfg.checks)) TerminateServed
        (boot cfg (fxRwlockInit .fifo)) s ∧
      s.kern.isTerminating 1 = true ∧ s.obj.granted = [2, 0] ∧ s.kern.wq (.obj .rd) = [] := by
  intro cfg
  let acts : List (Act (Fin 5) Unit (RwCall Unit) (RwOp (Fin 5))) :=
    [.init 0 5 false, .call 0 (.rdLock (.event none)), .go 0, .go 0,
      .init 1 4 false, .call 1 (.wrLock (.event none)), .go 1,
      .init 2 3 false, .call 2 (.rdLock (.event none)), .go 2,
      .init 3 3 false, .call 3 (.wrLock (.timeout 9)), .go 3, .go 3, .go 3,
      .terminate 1, .expire 3, .go 3, .go 3, .go 3]
  let behind : RwSys (Fin 5) Unit → Act (Fin 5) Unit (RwCall Unit) (RwOp (Fin 5)) → Bool :=
    fun s a => match a with
      | .terminate t => decide (∃ b ∈ s.kern.wq (.obj .wr), b.1 ≠ t)
      | _ => true
  have hbehind : ∀ s a, behind s a = true → TerminateServed s a := by
    intro s a hg
    cases a with
    | terminate t => exact Or.inr (Or.inl (of_decide_eq_true hg))
    | _ => exact trivial
  have h : (runIf behind (step cfg (fxRwlock cfg.checks)) acts
      (boot cfg (fxRwlockInit .fifo))).any (fun s => s.kern.isTerminating 1 = true ∧
        s.obj.granted = [2, 0] ∧ s.obj.owner = none ∧ s.kern.wq (.obj .wr) = [] ∧
        ∀ t, ¬ s.KickPending t) = true := by
    decide +kernel
  obtain ⟨s, hr, hp⟩ := exists_of_runIf hbehind h
  obtain ⟨hterm, hgranted, ho, hwr, hkick⟩ := of_decide_eq_true hp
  exact ⟨s, hr, hterm, hgranted, (rwlock_served hr hkick).1 ho hwr⟩

/-- **A reader is stranded.** It waits behind a writer that is terminated in its wait, and still
    waits when the last reader has given the lock up. -/
theorem rwlock_stranded :
    let cfg : Config (Fin 4) := ⟨true, 8, 3⟩
    ∃ s : RwSys (Fin 4) Unit, Reach (step cfg (fxRwlock cfg.checks)) Always
        (boot cfg (fxRwlockInit .fifo)) s ∧ (∀ t, ¬ s.KickPending t) ∧
      s.obj.owner = none ∧ s.obj.readers = 0 ∧ s.kern.wq (.obj .wr) = [] ∧
      s.kern.wq (.obj .rd) = [(2, .main)] := by
  intro cfg
  let acts : List (Act (Fin 4) Unit (RwCall Unit) (RwOp (Fin 4))) :=
    [.init 0 5 false, .call 0 (.rdLock (.event none)), .go 0, .go 0,
      .init 1 4 false, .call 1 (.wrLock (.event none)), .go 1,
      .init 2 3 false, .call 2 (.rdLock (.event none)), .go 2,
      .terminate 1, .op (.unlock 0)]
  have h : (run (step cfg (fxRwlock cfg.checks)) acts (boot cfg (fxRwlockInit .fifo))).any
      (fun s => (∀ t, ¬ s.KickPending t) ∧ s.obj.owner = none ∧ s.obj.readers = 0 ∧
        s.kern.wq (.obj .wr) = [] ∧ s.kern.wq (.obj .rd) = [(2, .main)]) = true := by
    decide +kernel
  obtain ⟨s, hr, hp⟩ := exists_of_run h
  exact ⟨s, hr, of_decide_eq_true hp⟩

end FxRtos
