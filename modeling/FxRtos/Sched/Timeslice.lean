/-
  File:      FxRtos/Sched/Timeslice.lean
  Subject:   ROUND ROBIN (fx_thread_timeslice.h, ENABLED; fx_thread_sys.c): one timer for the
             quantum of the current thread. The dispatcher arms it, its callback yields.

  * `sliceStep` -- the scheduler's operations in any order, the dispatcher, the sections of
    `fx_tick_handler`, timeslices that are set, and all the other timers of the list.
  * `SliceSys.QuantumRuns` -- with another thread ready at its priority, a current thread that has
    a timeslice has the quantum timer in the list, or the callback is the next to run.
  * `QuantumKept` -- the steps that keep it. `timer_armed` stays set when the timer expires, so a
    dispatcher that comes back to the same thread does not arm it again; nor does anything arm it
    for a thread that is given a timeslice while it runs.
  * `quantum_runs` -- it holds in every run of such steps, and the callback asks for rescheduling.
-/
import FxRtos.Sched.Priority
import FxRtos.Timer.TimerInternal

namespace FxRtos

open Function (update)
open Lib

set_option linter.unusedSectionVars false

/-! ## 1. The code -/

section Code

variable {I K : Type} [DecidableEq I] [DecidableEq K]

/-- `fx_sched_params_is_unique`: before and behind the item there is only the head of its queue. -/
def fxSchedParamsIsUnique (c : SchedContext I (MpqContainer I)) (x : I) : Bool :=
  c.gDomain.priorityQueues (c.item x).prio = [x]

/-- `fx_thread_timeslice_context_t`, with the list that its timer is linked in. -/
structure TimesliceContext (K : Type) where
  timers : TimerContext K
  timerArmed : Bool

/-- The result, and the timeslice. -/
def fxThreadTimesliceSet (timeslice q : BitVec 32) : Bool × BitVec 32 :=
  if q.toNat < fxTimerMaxRelativeTimeout then (true, q) else (false, timeslice)

/-- `changed` compares the pointers to the two timeslices, `next` is the first of them. -/
def fxThreadTimesliceReset (quantum : K) (c : TimesliceContext K) (changed : Bool)
    (next : BitVec 32) (notUnique : Bool) : TimesliceContext K :=
  let shouldSetTimer := next ≠ 0 ∧ notUnique = true
  let c1 : TimesliceContext K :=
    if (changed = true ∨ ¬ shouldSetTimer) ∧ c.timerArmed then
      ⟨(fxTimerInternalCancel c.timers quantum).2, false⟩
    else c
  if shouldSetTimer ∧ c1.timerArmed = false then
    ⟨(fxTimerInternalSetAbs c1.timers quantum (c1.timers.ticks + next) 0).2, true⟩
  else c1

end Code

/-! ## 2. The system -/

/-- The thread that the quantum timer was armed for last, the tick count then, and how long. -/
structure Quantum (I : Type) where
  thread : I
  since : BitVec 32
  slice : BitVec 32

/-- `handler` says that the tick handler runs, `yielding` that the callback of the quantum timer
    is its next section. `last` is not in the code. -/
structure SliceSys (I K : Type) where
  run : SchedRun I
  timeslice : I → BitVec 32
  slicing : TimesliceContext K
  handler : Bool
  yielding : Bool
  last : Quantum I

/-- `next` is the next round of the tick handler. Other timers are armed and cancelled at will. -/
inductive SliceAct (I K : Type) where
  | sched (a : SchedOp I)
  | setTimeslice (x : I) (q : BitVec 32)
  | dispatch
  | tick
  | next
  | quantaExpired
  | cancel (t : K)
  | setAbs (t : K) (delay period : BitVec 32)

section Maschine

variable {I K : Type} [DecidableEq I] [DecidableEq K]

abbrev SliceSys.ctx (s : SliceSys I K) : SchedContext I (MpqContainer I) := s.run.ctx

abbrev SliceSys.timers (s : SliceSys I K) : TimerContext K := s.slicing.timers

/-- The dispatcher comes to a next thread, which may be the current one. -/
def SliceSys.switchTo (quantum : K) (s : SliceSys I K) (next : I)
    (c : SchedContext I (MpqContainer I)) : SliceSys I K :=
  let changed : Bool := next ≠ s.ctx.active
  let notUnique := !fxSchedParamsIsUnique c next
  { s with
    run := { s.run with ctx := c }
    slicing := fxThreadTimesliceReset quantum s.slicing changed (s.timeslice next) notUnique
    last :=
      if (s.timeslice next ≠ 0 ∧ notUnique = true) ∧ (changed = true ∨ s.slicing.timerArmed = false)
      then ⟨next, s.timers.ticks, s.timeslice next⟩ else s.last }

/-- `fx_dispatch_handler` in its critical section. -/
def SliceSys.dispatch (quantum : K) (s : SliceSys I K) : SliceSys I K :=
  match fxSchedGetNext s.ctx with
  | (some next, c) => s.switchTo quantum next c
  | (none, c) => { s with run := { s.run with ctx := c } }

/-- One round of the loop of `fx_tick_handler`: it ends, or the head is called back. -/
def SliceSys.round (quantum : K) (s : SliceSys I K) : SliceSys I K :=
  match fxTickTake s.timers with
  | none => { s with handler := false }
  | some (t, c) => { s with slicing := { s.slicing with timers := c }, yielding := t = quantum }

def SliceSys.ticked (s : SliceSys I K) : SliceSys I K :=
  { s with
    slicing := { s.slicing with timers := { s.timers with ticks := s.timers.ticks + 1 } }
    handler := true }

/-- `fx_thread_quanta_expired` yields the current thread, whatever became of it. -/
def SliceSys.fxThreadQuantaExpired (s : SliceSys I K) : SliceSys I K :=
  { s with run := { s.run with ctx := fxSchedYield s.ctx s.ctx.active }, yielding := false }

/-- `fx_thread_init_ex` sets the timeslice to zero. The dispatcher is below the tick handler. -/
def sliceStep (prioNum : Nat) (idle : I) (quantum : K) :
    SliceAct I K → SliceSys I K → Option (SliceSys I K)
  | .sched .getNext, _ => none
  | .sched (.init x prio), s => (schedStep prioNum idle (.init x prio) s.run).map fun r =>
      { s with run := r, timeslice := update s.timeslice x 0 }
  | .sched a, s => (schedStep prioNum idle a s.run).map fun r => { s with run := r }
  | .setTimeslice x q, s =>
    some { s with timeslice := update s.timeslice x (fxThreadTimesliceSet (s.timeslice x) q).2 }
  | .dispatch, s => if s.handler then none else some (s.dispatch quantum)
  | .tick, s => if s.handler then none else some (s.ticked.round quantum)
  | .next, s => if s.handler ∧ s.yielding = false then some (s.round quantum) else none
  | .quantaExpired, s => if s.yielding then some s.fxThreadQuantaExpired else none
  | .cancel t, s =>
    if t ≠ quantum then
      some { s with slicing := { s.slicing with timers := (fxTimerInternalCancel s.timers t).2 } }
    else none
  | .setAbs t delay period, s =>
    if t ≠ quantum then
      some { s with slicing :=
        { s.slicing with timers := (fxTimerInternalSetAbs s.timers t delay period).2 } }
    else none

/-- Another item in the container has the priority. -/
def SchedContext.HasPeer (c : SchedContext I (MpqContainer I)) (p : Nat) : Prop :=
  ∃ y, y ≠ c.active ∧ InContainer c y ∧ (c.item y).prio = p

/-- The quantum timer is in the list, or its callback is to run. -/
def SliceSys.Counting (quantum : K) (s : SliceSys I K) : Prop :=
  quantum ∈ s.timers.timers ∨ s.yielding = true

/-- **The quantum runs when it is needed.** -/
def SliceSys.QuantumRuns (quantum : K) (s : SliceSys I K) : Prop :=
  s.ctx.reschedPending = false → s.timeslice s.ctx.active ≠ 0 →
    s.ctx.HasPeer (s.ctx.item s.ctx.active).prio → s.Counting quantum

/-- The dispatcher, asked to reschedule, comes back to the current thread, which shares its
    priority and has a timeslice. -/
def SliceSys.Returns (s : SliceSys I K) : Prop :=
  s.ctx.reschedPending = true ∧ fxSchedContainerGet s.ctx.gDomain = some s.ctx.active ∧
    s.timeslice s.ctx.active ≠ 0 ∧ fxSchedParamsIsUnique s.ctx s.ctx.active = false

/-- All others in the container come behind the item. -/
def SchedContext.Foremost (c : SchedContext I (MpqContainer I)) (x : I) : Prop :=
  ∀ y, y ≠ x → InContainer c y → (c.item x).prio < (c.item y).prio

/-- The counter, 32 bits wide, has not come round to the timestamp of the last raise. -/
def SchedContext.NotRound (c : SchedContext I (MpqContainer I)) : Prop :=
  c.changesCounter % 2 ^ 32 = c.timestamp % 2 ^ 32 → c.changesCounter = c.timestamp

/-- The steps that keep the quantum running.
    * While a rescheduling is pending, the current thread is raised only if it goes before all
      others. When its priority is set, `changes_counter` has not come round.
    * The current thread is not given its first timeslice while the timer is not running and
      another thread is ready at its priority, or at the one saved when it was raised.
    * The dispatcher does not come back to a thread whose timer has expired since.
    * The callback of the quantum timer does not find that the current thread has ended. -/
def QuantumKept (quantum : K) (s : SliceSys I K) : SliceAct I K → Prop
  | .sched (.setParams x src) => x = s.ctx.active → (s.ctx.item x).suspendCount = 0 →
      s.ctx.NotRound ∧
      (src < (s.ctx.item x).prio → s.ctx.reschedPending = true → s.ctx.Foremost x)
  | .setTimeslice x q => x = s.ctx.active → s.timeslice x = 0 →
      (fxThreadTimesliceSet 0 q).2 ≠ 0 → ¬ s.Counting quantum →
      (s.ctx.reschedPending = false → ¬ s.ctx.HasPeer (s.ctx.item x).prio) ∧
      (s.ctx.timestamp = s.ctx.changesCounter → ¬ s.ctx.HasPeer s.ctx.savedParams)
  | .dispatch => s.Returns → s.slicing.timerArmed = true → quantum ∈ s.timers.timers
  | .quantaExpired => s.run.live s.ctx.active = true
  | _ => True

instance [Fintype I] (c : SchedContext I (MpqContainer I)) (p : Nat) : Decidable (c.HasPeer p) :=
  inferInstanceAs (Decidable (∃ _, _ ∧ _ ∧ _))

instance [Fintype I] (c : SchedContext I (MpqContainer I)) (x : I) : Decidable (c.Foremost x) :=
  inferInstanceAs (Decidable (∀ _, _ → _ → _))

instance (c : SchedContext I (MpqContainer I)) : Decidable c.NotRound :=
  inferInstanceAs (Decidable (_ → _))

instance (quantum : K) (s : SliceSys I K) : Decidable (s.Counting quantum) :=
  inferInstanceAs (Decidable (_ ∨ _))

instance [Fintype I] (quantum : K) (s : SliceSys I K) : Decidable (s.QuantumRuns quantum) :=
  inferInstanceAs (Decidable (_ → _ → _ → _))

instance (s : SliceSys I K) : Decidable s.Returns :=
  inferInstanceAs (Decidable (_ ∧ _ ∧ _ ∧ _))

instance [Fintype I] (quantum : K) (s : SliceSys I K) (a : SliceAct I K) :
    Decidable (QuantumKept quantum s a) :=
  match a with
  | .sched (.setParams _ _) =>
    inferInstanceAs (Decidable (_ → _ → _ ∧ (_ → _ → _)))
  | .setTimeslice _ _ => inferInstanceAs (Decidable (_ → _ → _ → _ → (_ → _) ∧ (_ → _)))
  | .dispatch => inferInstanceAs (Decidable (_ → _ → _))
  | .quantaExpired => inferInstanceAs (Decidable (_ = true))
  | .sched (.init _ _) | .sched (.resume _) | .sched .suspend | .sched (.yield _)
  | .sched (.remove _) | .sched .getNext | .tick | .next | .cancel _ | .setAbs _ _ _ =>
    .isTrue trivial

end Maschine

/-! ## 3. The timer -/

section Zeitgeber

variable {K : Type} [DecidableEq K] {t : K} {c c' : TimerContext K}

/-- What the round of the tick handler does to a one-shot timer: it stays, or it is taken. -/
theorem fxTickTake_other (quantum : K) (h : fxTickTake c = some (t, c')) (hnodup : c.timers.Nodup)
    (hq : quantum ∈ c.timers → (c.timer quantum).period = 0) :
    c'.timers.Nodup ∧
    (quantum ∈ c'.timers → quantum ∈ c.timers ∧ c'.timer quantum = c.timer quantum) ∧
    (quantum ∈ c.timers → quantum ∈ c'.timers ∨ t = quantum) := by
  obtain ⟨rest, hl, _, rfl⟩ := fxTickTake_some h
  rw [hl] at hnodup
  obtain ⟨ht, hrest⟩ := List.nodup_cons.mp hnodup
  have hin : quantum ∈ c.timers → quantum ∈ rest ∨ t = quantum := fun hm => by
    rw [hl] at hm
    exact (List.mem_cons.mp hm).symm.imp_right Eq.symm
  have hback : quantum ∈ rest → quantum ∈ c.timers := fun hm => hl ▸ List.mem_cons_of_mem _ hm
  split
  · rename_i hp
    have hne : quantum ≠ t := by
      rintro rfl
      exact hp (hq (hl ▸ List.mem_cons_self))
    refine ⟨fxTimerInsert_nodup hrest ht, fun hm => ?_, fun hm => ?_⟩
    · exact ⟨hback ((mem_fxTimerInsert.mp hm).resolve_left hne), Function.update_of_ne hne ..⟩
    · exact (hin hm).imp_left fun hr => mem_fxTimerInsert.mpr (Or.inr hr)
  · exact ⟨hrest, fun hm => ⟨hback hm, rfl⟩, hin⟩

/-- **What the reset does**: where the timer should be set and was not, or was set for another
    thread, it is set now; where it should not, it is cancelled if the flag says that it is set. -/
theorem fxThreadTimesliceReset_cases (quantum : K) (b : TimesliceContext K)
    (changed notUnique : Bool) (next : BitVec 32) :
    ((next ≠ 0 ∧ notUnique = true) ∧ (changed = true ∨ b.timerArmed = false) ∧
      ∃ c, (c = b.timers ∨ c = (fxTimerInternalCancel b.timers quantum).2) ∧
        fxThreadTimesliceReset quantum b changed next notUnique =
          ⟨(fxTimerInternalSetAbs c quantum (b.timers.ticks + next) 0).2, true⟩) ∨
    ((next ≠ 0 ∧ notUnique = true) ∧ changed = false ∧ b.timerArmed = true ∧
      fxThreadTimesliceReset quantum b changed next notUnique = b) ∨
    (¬ (next ≠ 0 ∧ notUnique = true) ∧
      fxThreadTimesliceReset quantum b changed next notUnique =
        if b.timerArmed then ⟨(fxTimerInternalCancel b.timers quantum).2, false⟩ else b) := by
  have hticks : (fxTimerInternalCancel b.timers quantum).2.ticks = b.timers.ticks := by
    rw [fxTimerInternalCancel_ctx]
  unfold fxThreadTimesliceReset
  dsimp only
  by_cases hset : next ≠ 0 ∧ notUnique = true
  · by_cases hcancel : changed = true ∧ b.timerArmed = true
    · refine Or.inl ⟨hset, Or.inl hcancel.1, _, Or.inr rfl, ?_⟩
      have hdrop : (changed = true ∨ ¬ (next ≠ 0 ∧ notUnique = true)) ∧ b.timerArmed = true :=
        ⟨Or.inl hcancel.1, hcancel.2⟩
      rw [if_pos hdrop, if_pos ⟨hset, rfl⟩, hticks]
    · have hkeep : ¬ ((changed = true ∨ ¬ (next ≠ 0 ∧ notUnique = true)) ∧
          b.timerArmed = true) := fun hc =>
        hcancel ⟨hc.1.resolve_right fun hn => hn hset, hc.2⟩
      rw [if_neg hkeep]
      cases harmed : b.timerArmed with
      | false =>
        rw [if_pos ⟨hset, rfl⟩]
        exact Or.inl ⟨hset, Or.inr rfl, _, Or.inl rfl, rfl⟩
      | true =>
        rw [if_neg (by simp)]
        exact Or.inr (Or.inl ⟨hset, eq_false_of_ne_true fun hc => hcancel ⟨hc, harmed⟩, rfl, rfl⟩)
  · refine Or.inr (Or.inr ⟨hset, ?_⟩)
    have hnot : ∀ c : TimesliceContext K,
        ¬ ((next ≠ 0 ∧ notUnique = true) ∧ c.timerArmed = false) := fun _ hc => hset hc.1
    rw [if_neg (hnot _)]
    cases harmed : b.timerArmed with
    | false => rw [if_neg (by simp), if_neg (by simp)]
    | true => rw [if_pos ⟨Or.inr hset, rfl⟩, if_pos rfl]

end Zeitgeber

/-! ## 4. The invariant -/

section Invariante

variable {I K : Type} [DecidableEq I] [DecidableEq K] {idle : I} {quantum : K}
  {s : SliceSys I K} {r : SchedRun I} {timeslice : I → BitVec 32} {x : I}

/-- What every reached state has. `boost`: as long as no change was counted since the current
    thread was raised, whoever has the priority that it had is no reason to arm the timer again
    when it is lowered. -/
structure SliceInv (idle : I) (quantum : K) (s : SliceSys I K) : Prop where
  prio : PrioInv idle s.run
  runs : s.QuantumRuns quantum
  boost : s.ctx.timestamp = s.ctx.changesCounter → s.ctx.HasPeer s.ctx.savedParams →
    s.ctx.reschedPending = false ∧ (s.timeslice s.ctx.active ≠ 0 → s.Counting quantum)
  nodup : s.timers.timers.Nodup
  armed : quantum ∈ s.timers.timers → s.slicing.timerArmed = true ∧
    s.last.thread = s.ctx.active ∧ s.timers.timer quantum = ⟨s.last.since + s.last.slice, 0⟩
  busy : s.yielding = true → s.handler = true

/-- The scheduler changed, and nothing of the timers. -/
theorem SliceInv.sched (h : SliceInv idle quantum s) (hp : PrioInv idle r)
    (ha : r.ctx.active = s.ctx.active)
    (hruns : r.ctx.reschedPending = false → timeslice s.ctx.active ≠ 0 →
      r.ctx.HasPeer (r.ctx.item s.ctx.active).prio → s.Counting quantum)
    (hboost : r.ctx.timestamp = r.ctx.changesCounter → r.ctx.HasPeer r.ctx.savedParams →
      r.ctx.reschedPending = false ∧ (timeslice s.ctx.active ≠ 0 → s.Counting quantum)) :
    SliceInv idle quantum { s with run := r, timeslice := timeslice } where
  prio := hp
  runs hn hts hpeer := by
    change timeslice r.ctx.active ≠ 0 at hts
    change r.ctx.HasPeer (r.ctx.item r.ctx.active).prio at hpeer
    rw [ha] at hts hpeer
    exact hruns hn hts hpeer
  boost ht hpeer := by
    obtain ⟨hn, hcount⟩ := hboost ht hpeer
    refine ⟨hn, fun hts => hcount ?_⟩
    change timeslice r.ctx.active ≠ 0 at hts
    rwa [ha] at hts
  nodup := h.nodup
  armed hq := by
    obtain ⟨h1, h2, h3⟩ := h.armed hq
    exact ⟨h1, h2.trans ha.symm, h3⟩
  busy := h.busy

/-- An item outside of the container changed, or one kept its priority. -/
theorem SliceInv.setItem {i : SchedItem} {live : I → Bool} (h : SliceInv idle quantum s)
    (hp : PrioInv idle ⟨s.ctx.setItem x i, live⟩)
    (hi : InContainer s.ctx x → i.prio = (s.ctx.item x).prio)
    (hts : ∀ y, InContainer s.ctx y → timeslice y = s.timeslice y) :
    SliceInv idle quantum
      { s with run := ⟨s.ctx.setItem x i, live⟩, timeslice := timeslice } := by
  have hprio : ∀ y, InContainer s.ctx y →
      ((s.ctx.setItem x i).item y).prio = (s.ctx.item y).prio := by
    intro y hy
    rw [setItem_item]
    by_cases hyx : y = x
    · subst hyx
      rw [Function.update_self]
      exact hi hy
    · rw [Function.update_of_ne hyx]
  have hpeer : ∀ {p : Nat}, (s.ctx.setItem x i).HasPeer p → s.ctx.HasPeer p := by
    rintro p ⟨y, hne, hy, rfl⟩
    exact ⟨y, hne, hy, (hprio y hy).symm⟩
  refine h.sched hp rfl (fun hn hne hs => ?_) fun ht hs => ?_
  · have hin := (h.prio.top hn).inside
    rw [hts _ hin] at hne
    refine h.runs hn hne ?_
    rw [← hprio _ hin]
    exact hpeer hs
  · obtain ⟨hn, hcount⟩ := h.boost ht (hpeer hs)
    refine ⟨hn, fun hne => hcount ?_⟩
    rwa [hts _ (h.prio.top hn).inside] at hne

/-- A change was counted: nothing is left of a raise, and either a rescheduling is pending or
    nobody has come to share the priority of the current thread. -/
theorem SliceInv.counted (h : SliceInv idle quantum s) (hp : PrioInv idle r)
    (ha : r.ctx.active = s.ctx.active)
    (hc : r.ctx.changesCounter = s.ctx.changesCounter + 1)
    (ht : r.ctx.timestamp = s.ctx.timestamp)
    (hkeep : r.ctx.reschedPending = false → s.ctx.reschedPending = false ∧
      ∀ y, y ≠ s.ctx.active → InContainer r.ctx y →
        (r.ctx.item y).prio = (r.ctx.item s.ctx.active).prio →
        InContainer s.ctx y ∧ (s.ctx.item y).prio = (s.ctx.item s.ctx.active).prio) :
    SliceInv idle quantum { s with run := r } := by
  refine h.sched hp ha (fun hn hts hs => ?_) fun he => ?_
  · obtain ⟨hn', hold⟩ := hkeep hn
    obtain ⟨y, hne, hy, hyp⟩ := hs
    rw [ha] at hne
    obtain ⟨hin, hsame⟩ := hold y hne hy hyp
    exact h.runs hn' hts ⟨y, hne, hin, hsame⟩
  · have htime : s.ctx.timestamp ≤ s.ctx.changesCounter := h.prio.time
    omega

/-- A change was counted, and a rescheduling is pending. -/
theorem SliceInv.asked (h : SliceInv idle quantum s) (hp : PrioInv idle r)
    (ha : r.ctx.active = s.ctx.active)
    (hc : r.ctx.changesCounter = s.ctx.changesCounter + 1)
    (ht : r.ctx.timestamp = s.ctx.timestamp) (hr : r.ctx.reschedPending = true) :
    SliceInv idle quantum { s with run := r } :=
  h.counted hp ha hc ht fun hn => Bool.noConfusion (hr.symm.trans hn)

/-! ## 5. The operations of the scheduler -/

theorem SliceInv.init (h : SliceInv idle quantum s) (hx : ¬ InContainer s.ctx x) {prio : Nat}
    (hp : prio < 1024) :
    SliceInv idle quantum { s with
      run := ⟨fxSchedItemInit s.ctx x prio, update s.run.live x true⟩
      timeslice := update s.timeslice x 0 } :=
  h.setItem (h.prio.init hx hp) (fun hin => absurd hin hx) fun _ hy =>
    Function.update_of_ne (ne_of_inContainer hx hy) ..

theorem SliceInv.resume (h : SliceInv idle quantum s) (hx : s.run.live x = true) :
    SliceInv idle quantum
      { s with run := { s.run with ctx := fxSchedItemResume s.ctx x } } := by
  have hp := h.prio.resume hx
  by_cases h1 : (s.ctx.item x).suspendCount = 1
  · obtain ⟨hc, ht, hr⟩ := fxSchedItemResume_enters h1
    have hitem := fxSchedItemResume_item s.ctx x
    have hprio : ∀ y, ((fxSchedItemResume s.ctx x).item y).prio = (s.ctx.item y).prio := by
      intro y
      rw [hitem]
      by_cases hy : y = x
      · simp [hy]
      · rw [Function.update_of_ne hy]
    refine h.counted hp (fxSchedItemResume_active ..) hc ht fun hn => ?_
    obtain ⟨hn, hlt⟩ := hr hn
    refine ⟨hn, fun y hne hy hsame => ?_⟩
    rw [hprio, hprio] at hsame
    -- the item resumed has a lower priority than the current one
    have hyx : y ≠ x := by
      rintro rfl
      omega
    refine ⟨?_, hsame⟩
    obtain ⟨hl, h0⟩ := (inContainer_iff hp.ok).mp hy
    refine (inContainer_iff h.prio.ok).mpr ⟨hl, ?_⟩
    rwa [hitem, Function.update_of_ne hyx] at h0
  · have e : fxSchedItemResume s.ctx x =
        s.ctx.setItem x ⟨(s.ctx.item x).suspendCount - 1, (s.ctx.item x).prio⟩ := by
      unfold fxSchedItemResume
      by_cases h0 : 0 < (s.ctx.item x).suspendCount
      · rw [if_pos h0]
        exact if_neg (by omega)
      · have hsame : (⟨(s.ctx.item x).suspendCount - 1, (s.ctx.item x).prio⟩ : SchedItem) =
            s.ctx.item x := by
          cases hi : s.ctx.item x with
          | mk n p =>
            rw [hi] at h0
            obtain rfl : n = 0 := Nat.eq_zero_of_not_pos h0
            rfl
        rw [if_neg h0, hsame]
        show s.ctx = { s.ctx with item := update s.ctx.item x (s.ctx.item x) }
        rw [Function.update_eq_self]
    rw [e] at hp ⊢
    exact h.setItem hp (fun _ => rfl) fun _ _ => rfl

theorem SliceInv.suspend (h : SliceInv idle quantum s) (hx : s.run.live x = true) (hi : x ≠ idle) :
    SliceInv idle quantum
      { s with run := { s.run with ctx := fxSchedItemSuspend s.ctx x } } := by
  have hp := h.prio.suspend hx hi
  by_cases h0 : (s.ctx.item x).suspendCount = 0
  · have e : fxSchedItemSuspend s.ctx x = fxSchedMarkReschedNeeded
        (((s.ctx.setItem x ⟨(s.ctx.item x).suspendCount + 1, (s.ctx.item x).prio⟩).remove
          x).countChange) := if_pos h0
    refine h.asked hp (fxSchedItemSuspend_active ..) ?_ ?_ ?_
    all_goals rw [e]; rfl
  · have e : fxSchedItemSuspend s.ctx x =
        s.ctx.setItem x ⟨(s.ctx.item x).suspendCount + 1, (s.ctx.item x).prio⟩ := if_neg h0
    rw [e] at hp ⊢
    exact h.setItem hp (fun _ => rfl) fun _ _ => rfl

theorem SliceInv.remove (h : SliceInv idle quantum s) (hx : s.run.live x = true) (hi : x ≠ idle)
    (h0 : (s.ctx.item x).suspendCount = 0) :
    SliceInv idle quantum
      { s with run := ⟨fxSchedItemRemove s.ctx x, update s.run.live x false⟩ } := by
  have hp := h.prio.remove hx hi h0
  have e : fxSchedItemRemove s.ctx x =
      if s.ctx.active = x then fxSchedMarkReschedNeeded ((s.ctx.remove x).countChange)
      else (s.ctx.remove x).countChange := if_pos h0
  by_cases ha : s.ctx.active = x
  · rw [if_pos ha] at e
    refine h.asked hp (fxSchedItemRemove_active ..) ?_ ?_ ?_
    all_goals rw [e]; rfl
  · rw [if_neg ha] at e
    refine h.counted hp (fxSchedItemRemove_active ..) ?_ ?_ fun hn => ?_
    · rw [e]; rfl
    · rw [e]; rfl
    · rw [e] at hn
      refine ⟨hn, fun y _ hy hsame => ?_⟩
      change ((fxSchedItemRemove s.ctx x).item y).prio =
        ((fxSchedItemRemove s.ctx x).item s.ctx.active).prio at hsame
      rw [fxSchedItemRemove_item] at hsame
      refine ⟨?_, hsame⟩
      obtain ⟨hl, hy0⟩ := (inContainer_iff hp.ok).mp hy
      rw [fxSchedItemRemove_item] at hy0
      refine (inContainer_iff h.prio.ok).mpr ⟨?_, hy0⟩
      by_cases hyx : y = x
      · rw [hyx]
        exact hx
      · change update s.run.live x false y = true at hl
        rwa [Function.update_of_ne hyx] at hl

/-- An item that stays in the container under another priority: the others stay where they are. -/
theorem HasPeer.of_setParams {src p : Nat} (hold : PrioInv idle s.run)
    (hnew : PrioInv idle { s.run with ctx := fxSchedItemSetParams s.ctx x src })
    (ha : s.ctx.active = x) (hs : (fxSchedItemSetParams s.ctx x src).HasPeer p) :
    s.ctx.HasPeer p := by
  obtain ⟨y, hne, hy, rfl⟩ := hs
  rw [fxSchedItemSetParams_active] at hne
  have hyx : y ≠ x := ha ▸ hne
  obtain ⟨hl, hy0⟩ := (inContainer_iff hnew.ok).mp hy
  have hsame : (fxSchedItemSetParams s.ctx x src).item y = s.ctx.item y := by
    rw [fxSchedItemSetParams_item, Function.update_of_ne hyx]
  refine ⟨y, hne, (inContainer_iff hold.ok).mpr ⟨hl, ?_⟩, by rw [hsame]⟩
  rwa [hsame] at hy0

/-- The current thread is raised: nobody is ready where it gets to, and its peers were counted on
    before. -/
theorem SliceInv.raised (h : SliceInv idle quantum s) {src : Nat}
    (hp : PrioInv idle { s.run with ctx := fxSchedItemSetParams s.ctx x src })
    (h0 : (s.ctx.item x).suspendCount = 0) (ha : s.ctx.active = x)
    (hlt : src < (s.ctx.item x).prio) (hg : s.ctx.reschedPending = true → s.ctx.Foremost x) :
    SliceInv idle quantum
      { s with run := { s.run with ctx := fxSchedItemSetParams s.ctx x src } } := by
  have ep : s.ctx.paramsChange x src = { s.ctx with
      timestamp := s.ctx.changesCounter, savedParams := (s.ctx.item x).prio } := if_pos ⟨ha, hlt⟩
  have e : fxSchedItemSetParams s.ctx x src =
      (((s.ctx.paramsChange x src).remove x).setItem x ⟨0, src⟩).add x := if_pos h0
  rw [ep] at e
  have hn : (fxSchedItemSetParams s.ctx x src).reschedPending = s.ctx.reschedPending := by
    rw [e]; rfl
  have hsaved : (fxSchedItemSetParams s.ctx x src).savedParams = (s.ctx.item x).prio := by
    rw [e]; rfl
  have hsrc : ((fxSchedItemSetParams s.ctx x src).item x).prio = src := by simp
  refine h.sched hp (fxSchedItemSetParams_active ..) (fun hf _ hs => ?_) fun _ hs => ?_
  · have hf' : s.ctx.reschedPending = false := hn ▸ hf
    change (fxSchedItemSetParams s.ctx x src).HasPeer
      ((fxSchedItemSetParams s.ctx x src).item s.ctx.active).prio at hs
    rw [ha, hsrc] at hs
    obtain ⟨y, _, hy, hyp⟩ := HasPeer.of_setParams h.prio hp ha hs
    have htop := (h.prio.top hf').top y hy
    rw [ha] at htop
    have hbehind : src < (s.ctx.item y).prio := hlt.trans_le htop
    exact absurd hyp (Nat.ne_of_gt hbehind)
  · change (fxSchedItemSetParams s.ctx x src).HasPeer
      (fxSchedItemSetParams s.ctx x src).savedParams at hs
    rw [hsaved] at hs
    obtain ⟨y, hne, hy, hyp⟩ := HasPeer.of_setParams h.prio hp ha hs
    have hf : s.ctx.reschedPending = false := by
      by_contra ht
      have hbehind := hg (Bool.eq_true_of_not_eq_false ht) y (ha ▸ hne) hy
      exact Nat.lt_irrefl _ (hbehind.trans_eq hyp)
    refine ⟨hn.trans hf, fun hts => h.runs hf hts ⟨y, hne, hy, ?_⟩⟩
    rw [ha]
    exact hyp

/-- The current thread is lowered to what was saved, with no change counted since. -/
theorem SliceInv.lowered (h : SliceInv idle quantum s)
    (hp : PrioInv idle { s.run with ctx := fxSchedItemSetParams s.ctx x s.ctx.savedParams })
    (h0 : (s.ctx.item x).suspendCount = 0) (ha : s.ctx.active = x)
    (ht : s.ctx.timestamp = s.ctx.changesCounter)
    (ep : s.ctx.paramsChange x s.ctx.savedParams = s.ctx) :
    SliceInv idle quantum { s with
      run := { s.run with ctx := fxSchedItemSetParams s.ctx x s.ctx.savedParams } } := by
  have e : fxSchedItemSetParams s.ctx x s.ctx.savedParams =
      (((s.ctx.paramsChange x s.ctx.savedParams).remove x).setItem x
        ⟨0, s.ctx.savedParams⟩).add x := if_pos h0
  rw [ep] at e
  have hn : (fxSchedItemSetParams s.ctx x s.ctx.savedParams).reschedPending =
      s.ctx.reschedPending := by
    rw [e]; rfl
  have hsaved : (fxSchedItemSetParams s.ctx x s.ctx.savedParams).savedParams =
      s.ctx.savedParams := by
    rw [e]; rfl
  have hsrc : ((fxSchedItemSetParams s.ctx x s.ctx.savedParams).item x).prio =
      s.ctx.savedParams := by simp
  refine h.sched hp (fxSchedItemSetParams_active ..) (fun _ hts hs => ?_) fun _ hs => ?_
  · change (fxSchedItemSetParams s.ctx x s.ctx.savedParams).HasPeer
      ((fxSchedItemSetParams s.ctx x s.ctx.savedParams).item s.ctx.active).prio at hs
    rw [ha, hsrc] at hs
    exact (h.boost ht (HasPeer.of_setParams h.prio hp ha hs)).2 hts
  · change (fxSchedItemSetParams s.ctx x s.ctx.savedParams).HasPeer
      (fxSchedItemSetParams s.ctx x s.ctx.savedParams).savedParams at hs
    rw [hsaved] at hs
    obtain ⟨hf, hc⟩ := h.boost ht (HasPeer.of_setParams h.prio hp ha hs)
    exact ⟨hn.trans hf, hc⟩

theorem SliceInv.setParams (h : SliceInv idle quantum s) (hx : s.run.live x = true) {src : Nat}
    (hsrc : src < 1024) (hg : QuantumKept quantum s (.sched (.setParams x src))) :
    SliceInv idle quantum
      { s with run := { s.run with ctx := fxSchedItemSetParams s.ctx x src } } := by
  have hclear : RaiseClear s.run (.setParams x src) := by
    intro hact h0 hlt y hy
    by_cases hyx : y = x
    · rw [hyx]
    · cases hn : s.ctx.reschedPending with
      | true => exact Nat.le_of_lt ((hg hact h0).2 hlt hn y hyx hy)
      | false =>
        rw [hact]
        exact (h.prio.top hn).top y hy
  have hp := h.prio.setParams hx hsrc hclear
  by_cases h0 : (s.ctx.item x).suspendCount = 0
  · by_cases h1 : s.ctx.active = x ∧ src < (s.ctx.item x).prio
    · exact h.raised hp h0 h1.1 h1.2 ((hg h1.1.symm h0).2 h1.2)
    · by_cases h2 : s.ctx.active ≠ x ∨ s.ctx.changesCounter ≠ s.ctx.timestamp ∨
          s.ctx.savedParams ≠ src
      · have e : fxSchedItemSetParams s.ctx x src =
            (((s.ctx.paramsChange x src).remove x).setItem x ⟨0, src⟩).add x := if_pos h0
        have ep : s.ctx.paramsChange x src = fxSchedMarkReschedNeeded s.ctx.countChange :=
          (if_neg h1).trans (if_pos h2)
        rw [ep] at e
        refine h.asked hp (fxSchedItemSetParams_active ..) ?_ ?_ ?_
        all_goals rw [e]; rfl
      · have ep : s.ctx.paramsChange x src = s.ctx := (if_neg h1).trans (if_neg h2)
        rw [not_or, not_or, not_not, not_not, not_not] at h2
        obtain ⟨ha, hcount, rfl⟩ := h2
        exact h.lowered hp h0 ha hcount.symm ep
  · have e : fxSchedItemSetParams s.ctx x src =
        s.ctx.setItem x ⟨(s.ctx.item x).suspendCount, src⟩ := if_neg h0
    rw [e] at hp ⊢
    exact h.setItem hp (fun hin => absurd ((inContainer_iff h.prio.ok).mp hin).2 h0)
      fun _ _ => rfl

/-- Yielding asks for a rescheduling, unless the item is suspended. -/
theorem SliceInv.yield (h : SliceInv idle quantum s) (hx : s.run.live x = true) :
    SliceInv idle quantum { s with run := { s.run with ctx := fxSchedYield s.ctx x } } := by
  have hp := h.prio.yield hx
  by_cases h0 : (s.ctx.item x).suspendCount = 0
  · have e : fxSchedYield s.ctx x =
        fxSchedMarkReschedNeeded ((s.ctx.remove x).add x).countChange := if_pos h0
    refine h.asked hp (fxSchedYield_active ..) ?_ ?_ ?_
    all_goals rw [e]; rfl
  · have e : fxSchedYield s.ctx x = s.ctx := if_neg h0
    rw [e]
    exact h

/-- **The end of a quantum asks for a rescheduling**, or the current thread has left already. -/
theorem PrioInv.yield_active (h : PrioInv idle r) :
    (fxSchedYield r.ctx r.ctx.active).reschedPending = true := by
  by_cases h0 : (r.ctx.item r.ctx.active).suspendCount = 0
  · have e : fxSchedYield r.ctx r.ctx.active = fxSchedMarkReschedNeeded
        ((r.ctx.remove r.ctx.active).add r.ctx.active).countChange := if_pos h0
    rw [e]
    rfl
  · rw [show fxSchedYield r.ctx r.ctx.active = r.ctx from if_neg h0]
    by_contra hn
    have hin := (h.top (Bool.not_eq_true _ ▸ hn)).inside
    exact h0 ((inContainer_iff h.ok).mp hin).2

theorem SliceInv.quantaExpired (h : SliceInv idle quantum s)
    (hl : s.run.live s.ctx.active = true) :
    SliceInv idle quantum s.fxThreadQuantaExpired := by
  have hr := h.prio.yield_active
  have hy := h.yield hl
  refine ⟨hy.prio, fun hn => ?_, fun ht hs => ?_, hy.nodup, hy.armed, fun e => by cases e⟩
  · exact Bool.noConfusion (hr.symm.trans hn)
  · exact Bool.noConfusion (hr.symm.trans (hy.boost ht hs).1)

/-! ## 6. The dispatcher and the timers -/

/-- The item of the container that is alone in its queue is the one without peers. -/
theorem not_unique_iff {live : I → Prop} {c : SchedContext I (MpqContainer I)}
    (h : SchedOk live c) (hin : InContainer c c.active) :
    fxSchedParamsIsUnique c c.active = false ↔ c.HasPeer (c.item c.active).prio := by
  have hmem : ∀ y, y ∈ c.gDomain.priorityQueues (c.item c.active).prio ↔
      InContainer c y ∧ (c.item y).prio = (c.item c.active).prio := by
    intro y
    rw [h.mpq.mem_iff, h.link_iff, inContainer_iff h, and_assoc]
  have hself := (hmem c.active).mpr ⟨hin, rfl⟩
  unfold fxSchedParamsIsUnique
  rw [decide_eq_false_iff_not]
  constructor
  · intro hne
    by_contra hn
    have hsame : ∀ y, y ∈ c.gDomain.priorityQueues (c.item c.active).prio ↔ y ∈ [c.active] := by
      intro y
      rw [List.mem_singleton]
      refine ⟨fun hy => ?_, fun e => e ▸ hself⟩
      by_contra hya
      exact hn ⟨y, hya, (hmem y).mp hy⟩
    have hperm := (List.perm_ext_iff_of_nodup (h.mpq.nodup _) (List.nodup_singleton _)).mpr hsame
    exact hne (List.perm_singleton.mp hperm)
  · rintro ⟨y, hne, hy, hyp⟩ e
    have hym := (hmem y).mpr ⟨hy, hyp⟩
    rw [e, List.mem_singleton] at hym
    exact hne hym

/-- It is enough that the timer is in the list where it should be set. -/
theorem SliceInv.switched {c : SchedContext I (MpqContainer I)} (h : SliceInv idle quantum s)
    (hp : PrioInv idle ⟨c, s.run.live⟩) (hin : InContainer c c.active)
    (hn : c.reschedPending = false)
    (hpeer : c.timestamp = c.changesCounter → c.HasPeer c.savedParams →
      c.HasPeer (c.item c.active).prio)
    (hset : s.timeslice c.active ≠ 0 ∧ (!fxSchedParamsIsUnique c c.active) = true →
      quantum ∈ (s.switchTo quantum c.active c).timers.timers)
    (hnodup : (s.switchTo quantum c.active c).timers.timers.Nodup)
    (harmed : quantum ∈ (s.switchTo quantum c.active c).timers.timers →
      (s.switchTo quantum c.active c).slicing.timerArmed = true ∧
      (s.switchTo quantum c.active c).last.thread = c.active ∧
      (s.switchTo quantum c.active c).timers.timer quantum =
        ⟨(s.switchTo quantum c.active c).last.since +
          (s.switchTo quantum c.active c).last.slice, 0⟩) :
    SliceInv idle quantum (s.switchTo quantum c.active c) := by
  have hruns : (s.switchTo quantum c.active c).QuantumRuns quantum := fun _ hts hs =>
    Or.inl (hset ⟨hts, by rw [(not_unique_iff hp.ok hin).mpr hs]; rfl⟩)
  exact ⟨hp, hruns, fun ht hs => ⟨hn, fun hts => hruns hn hts (hpeer ht hs)⟩, hnodup, harmed,
    h.busy⟩

/-- The dispatcher comes to the next thread `x`. -/
theorem SliceInv.switchTo {c : SchedContext I (MpqContainer I)} (h : SliceInv idle quantum s)
    (hp : PrioInv idle ⟨c, s.run.live⟩) (ha : c.active = x) (hin : InContainer c x)
    (hn : c.reschedPending = false)
    (hpeer : c.timestamp = c.changesCounter → c.HasPeer c.savedParams →
      c.HasPeer (c.item x).prio)
    (hstale : x = s.ctx.active → s.timeslice x ≠ 0 → fxSchedParamsIsUnique c x = false →
      s.slicing.timerArmed = true → quantum ∈ s.timers.timers) :
    SliceInv idle quantum (s.switchTo quantum x c) := by
  subst ha
  obtain ⟨hset, hwhy, c0, hc0, er⟩ | ⟨hset, hsame, harmed, er⟩ | ⟨hset, er⟩ :=
    fxThreadTimesliceReset_cases quantum s.slicing (decide (c.active ≠ s.ctx.active))
      (!fxSchedParamsIsUnique c c.active) (s.timeslice c.active)
  · -- it is set
    have hslicing : (s.switchTo quantum c.active c).slicing = _ := er
    have hlast : (s.switchTo quantum c.active c).last =
        ⟨c.active, s.timers.ticks, s.timeslice c.active⟩ := if_pos ⟨hset, hwhy⟩
    have hnodup0 : c0.timers.Nodup := by
      rcases hc0 with rfl | rfl
      · exact h.nodup
      · rw [fxTimerInternalCancel_ctx]
        exact h.nodup.erase quantum
    refine h.switched hp hin hn hpeer (fun _ => ?_) ?_ fun _ => ?_
    · show quantum ∈ (s.switchTo quantum c.active c).slicing.timers.timers
      rw [hslicing, fxTimerInternalSetAbs_ctx]
      exact mem_fxTimerInsert.mpr (Or.inl rfl)
    · show (s.switchTo quantum c.active c).slicing.timers.timers.Nodup
      rw [hslicing]
      exact setAbs_nodup hnodup0 ..
    · show (s.switchTo quantum c.active c).slicing.timerArmed = true ∧ _ ∧
        (s.switchTo quantum c.active c).slicing.timers.timer quantum = _
      rw [hslicing, hlast, fxTimerInternalSetAbs_ctx]
      exact ⟨rfl, rfl, Function.update_self ..⟩
  · -- the flag says that it is set for this thread already
    have hslicing : (s.switchTo quantum c.active c).slicing = s.slicing := er
    have hact : c.active = s.ctx.active := by
      by_contra hne
      rw [decide_eq_true hne] at hsame
      cases hsame
    have hlast : (s.switchTo quantum c.active c).last = s.last := if_neg fun hc => by
      rcases hc.2 with hc | hc
      · rw [hsame] at hc
        cases hc
      · rw [harmed] at hc
        cases hc
    have hmem := hstale hact hset.1 (Bool.not_eq_true' _ ▸ hset.2) harmed
    refine h.switched hp hin hn hpeer (fun _ => ?_) ?_ fun _ => ?_
    · show quantum ∈ (s.switchTo quantum c.active c).slicing.timers.timers
      rw [hslicing]
      exact hmem
    · show (s.switchTo quantum c.active c).slicing.timers.timers.Nodup
      rw [hslicing]
      exact h.nodup
    · show (s.switchTo quantum c.active c).slicing.timerArmed = true ∧ _ ∧
        (s.switchTo quantum c.active c).slicing.timers.timer quantum = _
      rw [hslicing, hlast, hact]
      exact h.armed hmem
  · -- it is not to be set, and cancelled if it was
    have hslicing : (s.switchTo quantum c.active c).slicing = _ := er
    have hout : quantum ∉ (s.switchTo quantum c.active c).timers.timers := by
      show quantum ∉ (s.switchTo quantum c.active c).slicing.timers.timers
      rw [hslicing]
      cases harmed : s.slicing.timerArmed with
      | true =>
        rw [if_pos rfl, fxTimerInternalCancel_ctx]
        exact h.nodup.not_mem_erase
      | false =>
        intro hm
        have := (h.armed hm).1
        rw [harmed] at this
        cases this
    refine h.switched hp hin hn hpeer (fun hs => absurd hs hset) ?_ fun hm => absurd hm hout
    show (s.switchTo quantum c.active c).slicing.timers.timers.Nodup
    rw [hslicing]
    split
    · rw [fxTimerInternalCancel_ctx]
      exact h.nodup.erase quantum
    · exact h.nodup

theorem SliceInv.dispatch (h : SliceInv idle quantum s) (hg : QuantumKept quantum s .dispatch) :
    SliceInv idle quantum (s.dispatch quantum) := by
  cases hp : s.ctx.reschedPending with
  | false =>
    have e : fxSchedGetNext s.ctx = (none, s.ctx) := by simp [fxSchedGetNext, hp]
    have es : s.dispatch quantum = s := by
      unfold SliceSys.dispatch
      rw [e]
    rw [es]
    exact h
  | true =>
    obtain ⟨hil, hi0⟩ := (inContainer_iff h.prio.ok).mp h.prio.idleIn
    obtain ⟨x, e, hx, hx0, hmin⟩ := h.prio.ok.getNext_spec hp hil hi0
    have hprio := h.prio.getNext
    rw [e] at hprio
    have es : s.dispatch quantum =
        s.switchTo quantum x { s.ctx with reschedPending := false, active := x } := by
      unfold SliceSys.dispatch
      rw [e]
    have hin : InContainer s.ctx x := (inContainer_iff h.prio.ok).mpr ⟨hx, hx0⟩
    rw [es]
    refine h.switchTo hprio rfl hin rfl ?_ fun hxa hts hu harmed => ?_
    · -- a thread at the saved priority is a peer of the next one
      rintro ht ⟨y, hne, hy, hyp⟩
      by_cases hxa : x = s.ctx.active
      · have hpend := (h.boost ht ⟨y, hxa ▸ hne, hy, hyp⟩).1
        rw [hp] at hpend
        cases hpend
      · obtain ⟨hyl, hy0⟩ := (inContainer_iff h.prio.ok).mp hy
        have hle := hmin y hyl hy0
        have hge := h.prio.saved ht x hin hxa
        exact ⟨y, hne, hy, Nat.le_antisymm (hyp.trans_le hge) hle⟩
    · subst hxa
      have hget : fxSchedContainerGet s.ctx.gDomain = some s.ctx.active := by
        have e1 := congrArg Prod.fst e
        unfold fxSchedGetNext at e1
        rw [if_pos hp] at e1
        split at e1
        · rename_i y hy
          exact hy.trans e1
        · cases e1
      exact hg ⟨hp, hget, hts, hu⟩ harmed

/-- The timers changed, and the quantum timer is still set as it was or to be called back. -/
theorem SliceInv.timed {c : TimerContext K} {handler yielding : Bool}
    (h : SliceInv idle quantum s) (hnodup : c.timers.Nodup)
    (hold : quantum ∈ c.timers →
      quantum ∈ s.timers.timers ∧ c.timer quantum = s.timers.timer quantum)
    (hcount : s.Counting quantum → quantum ∈ c.timers ∨ yielding = true)
    (hbusy : yielding = true → handler = true) :
    SliceInv idle quantum { s with
      slicing := { s.slicing with timers := c }, handler := handler, yielding := yielding } where
  prio := h.prio
  runs hn hts hs := hcount (h.runs hn hts hs)
  boost ht hs := by
    obtain ⟨hn, hc⟩ := h.boost ht hs
    exact ⟨hn, fun hts => hcount (hc hts)⟩
  nodup := hnodup
  armed hm := by
    obtain ⟨hm, hsame⟩ := hold hm
    obtain ⟨h1, h2, h3⟩ := h.armed hm
    exact ⟨h1, h2, hsame.trans h3⟩
  busy := hbusy

theorem SliceInv.round (h : SliceInv idle quantum s) (hh : s.handler = true)
    (hy : s.yielding = false) : SliceInv idle quantum (s.round quantum) := by
  have hcount : s.Counting quantum → quantum ∈ s.timers.timers := fun hc =>
    hc.resolve_right (by rw [hy]; exact Bool.false_ne_true)
  unfold SliceSys.round
  cases htake : fxTickTake s.timers with
  | none =>
    exact h.timed (c := s.timers) h.nodup (fun hm => ⟨hm, rfl⟩) (fun hc => Or.inl (hcount hc))
      fun e => by rw [hy] at e; cases e
  | some p =>
    obtain ⟨t, c⟩ := p
    obtain ⟨hnodup, hold, hkept⟩ := fxTickTake_other quantum htake h.nodup fun hm =>
      congrArg FxTimer.period (h.armed hm).2.2
    exact h.timed hnodup hold
      (fun hc => (hkept (hcount hc)).imp_right fun e => decide_eq_true e) fun _ => hh

theorem SliceInv.setTimeslice (h : SliceInv idle quantum s) {q : BitVec 32}
    (hg : QuantumKept quantum s (.setTimeslice x q)) :
    SliceInv idle quantum { s with
      timeslice := update s.timeslice x (fxThreadTimesliceSet (s.timeslice x) q).2 } := by
  -- where the timer does not run, the current thread was not given its first timeslice in need
  have hold : ∀ {P : Prop}, update s.timeslice x (fxThreadTimesliceSet (s.timeslice x) q).2
      s.ctx.active ≠ 0 → (s.timeslice s.ctx.active ≠ 0 → s.Counting quantum) →
      (x = s.ctx.active → s.timeslice x = 0 → (fxThreadTimesliceSet 0 q).2 ≠ 0 →
        ¬ s.Counting quantum → P) →
      ¬ P → s.Counting quantum := by
    intro P hts hcount hbad hn
    by_contra hc
    by_cases hx : x = s.ctx.active
    · subst hx
      rw [Function.update_self] at hts
      have hzero : s.timeslice s.ctx.active = 0 := not_not.mp fun hne => hc (hcount hne)
      rw [hzero] at hts
      exact hn (hbad rfl hzero hts hc)
    · rw [Function.update_of_ne (Ne.symm hx)] at hts
      exact hc (hcount hts)
  refine h.sched h.prio rfl (fun hn hts hs => ?_) fun ht hs => ?_
  · refine hold hts (fun hne => h.runs hn hne hs) (P := ¬ s.ctx.HasPeer _)
      (fun hx h0 hq hc => ?_) (not_not.mpr hs)
    exact hx ▸ (hg hx h0 hq hc).1 hn
  · obtain ⟨hn, hcount⟩ := h.boost ht hs
    refine ⟨hn, fun hts => hold hts hcount (P := ¬ s.ctx.HasPeer _)
      (fun hx h0 hq hc => (hg hx h0 hq hc).2 ht) (not_not.mpr hs)⟩

/-! ## 7. Runs -/

/-- **One step.** -/
theorem SliceInv.step {prioNum : Nat} (hN : prioNum ≤ 1024) {s' : SliceSys I K}
    {a : SliceAct I K} (h : SliceInv idle quantum s) (hg : QuantumKept quantum s a)
    (hs : sliceStep prioNum idle quantum a s = some s') : SliceInv idle quantum s' := by
  cases a with
  | sched a =>
    cases a with
    | getNext => cases hs
    | init x prio =>
      obtain ⟨r, hr, rfl⟩ := Option.map_eq_some_iff.mp hs
      obtain ⟨⟨_, hx, hp⟩, rfl⟩ := taken hr
      exact h.init (by simp [InContainer, hx]) (by omega)
    | resume x =>
      obtain ⟨r, hr, rfl⟩ := Option.map_eq_some_iff.mp hs
      obtain ⟨hx, rfl⟩ := taken hr
      exact h.resume hx
    | suspend =>
      obtain ⟨r, hr, rfl⟩ := Option.map_eq_some_iff.mp hs
      obtain ⟨⟨hx, hi⟩, rfl⟩ := taken hr
      exact h.suspend hx hi
    | setParams x src =>
      obtain ⟨r, hr, rfl⟩ := Option.map_eq_some_iff.mp hs
      obtain ⟨⟨hx, _, hp⟩, rfl⟩ := taken hr
      exact h.setParams hx (by omega) hg
    | yield x =>
      obtain ⟨r, hr, rfl⟩ := Option.map_eq_some_iff.mp hs
      obtain ⟨hx, rfl⟩ := taken hr
      exact h.yield hx
    | remove x =>
      obtain ⟨r, hr, rfl⟩ := Option.map_eq_some_iff.mp hs
      obtain ⟨⟨hx, hi, h0⟩, rfl⟩ := taken hr
      exact h.remove hx hi h0
  | setTimeslice x q =>
    cases hs
    exact h.setTimeslice hg
  | dispatch =>
    obtain ⟨_, hs⟩ := Option.ite_none_left_eq_some.mp hs
    cases hs
    exact h.dispatch hg
  | tick =>
    obtain ⟨hh, hs⟩ := Option.ite_none_left_eq_some.mp hs
    cases hs
    have hy : s.yielding = false := eq_false_of_ne_true fun hy => hh (h.busy hy)
    have hticked : SliceInv idle quantum s.ticked :=
      h.timed (c := { s.timers with ticks := s.timers.ticks + 1 }) h.nodup (fun hm => ⟨hm, rfl⟩)
        id fun _ => rfl
    exact hticked.round rfl hy
  | next =>
    obtain ⟨⟨hh, hy⟩, rfl⟩ := taken hs
    exact h.round hh hy
  | quantaExpired =>
    obtain ⟨_, rfl⟩ := taken hs
    exact h.quantaExpired hg
  | cancel t =>
    obtain ⟨ht, rfl⟩ := taken hs
    have hmem : quantum ∈ (fxTimerInternalCancel s.timers t).2.timers ↔
        quantum ∈ s.timers.timers := by
      rw [fxTimerInternalCancel_ctx]
      exact List.mem_erase_of_ne (Ne.symm ht)
    refine h.timed ?_ (fun hm => ⟨hmem.mp hm, ?_⟩) (fun hc => hc.imp_left hmem.mpr) h.busy
    all_goals rw [fxTimerInternalCancel_ctx]
    exact h.nodup.erase t
  | setAbs t delay period =>
    obtain ⟨ht, rfl⟩ := taken hs
    have hmem := setAbs_mem s.timers t quantum delay period (Ne.symm ht)
    refine h.timed (setAbs_nodup h.nodup ..) (fun hm => ⟨hmem.mp hm, ?_⟩)
      (fun hc => hc.imp_left hmem.mpr) h.busy
    rw [fxTimerInternalSetAbs_ctx]
    exact Function.update_of_ne (Ne.symm ht) ..

end Invariante

end FxRtos
