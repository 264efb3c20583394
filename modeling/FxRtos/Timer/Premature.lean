/-
  File:      FxRtos/Timer/Premature.lean
  Subject:   NO TIMEOUT BEFORE ITS TIME. One thread in `fx_thread_sleep`,
             `fx_thread_timedwait_object` and `fx_thread_delay_until`, one call after the other,
             with its one timer and its one event.

  * `timedStep` -- one critical section of the calls, of the tick handler, or of anything else. The
    tick handler may run between any two of the thread's.
  * `Elsewhere` -- what the rest of the system does to the kernel: it notifies the thread's blocks,
    but never one that waits for its timer, and leaves the timer's event alone. Every step of the
    other threads is of that kind (`elsewhere_step`).
  * `TimedOk` -- the timer is linked only between its arming and its cancelling, for the count of
    the call that armed it, and the event is set no sooner.
  * `timeout_not_premature` -- what a call that ended by its timer can say of the count.
-/
import FxRtos.Kernel.Elsewhere
import FxRtos.Timer.Overdue

namespace FxRtos

open Function (update)
open Lib

set_option linter.unusedSectionVars false

/-! ## 1. The calls -/

/-- A call of one of the three functions, with its arguments; `c` says what is waited for, and
    how. -/
inductive TimedCall (C : Type) where
  | sleep (ticks : BitVec 32)
  | timedwait (c : C) (timeout : BitVec 32)
  | delayUntil (prevWake increment : BitVec 32)
  deriving DecidableEq

/-- A call, the count it was made at, and the count that its timer is for. -/
structure Timing (C : Type) where
  call : TimedCall C
  start : Nat
  due : Int
  deriving DecidableEq

/-- The critical section that comes next. -/
inductive TimedStage (C : Type) where
  | idle
  | reset (i : Timing C)
  | read (i : Timing C)
  | arm (i : Timing C) (timeout : BitVec 32)
  | enter (i : Timing C)
  | poll (i : Timing C)
  | asleep (i : Timing C)
  | cancel (i : Timing C) (r : ThreadStatus)
  | returned (i : Timing C) (r : ThreadStatus) (count : Nat)
  deriving DecidableEq

/-- The system, seen from one thread. `now` is the tick count without wrapping. -/
structure TimedSys (T J E Q A O C : Type) where
  ctx : TimerContext (TimerId T J)
  now : Nat
  handler : Bool
  kern : Kern T E Q A
  obj : O
  stage : TimedStage C

inductive TimedAct (T J E Q A O C : Type) where
  | begin (call : TimedCall C)
  | go
  | tick
  | next
  | cancel (x : TimerId T J)
  | setAbs (x : TimerId T J) (delay period : BitVec 32)
  | other (kern : Kern T E Q A) (obj : O)

section Maschine

variable {T J E Q A O C P : Type} [DecidableEq T] [DecidableEq J] [DecidableEq E] [DecidableEq Q]
  (W : WaitObject T E Q A O C P) (me : T)

/-- How far ahead of the count `now` the timer of a call is set there. -/
def TimedCall.ahead (now : Nat) : TimedCall C → Int
  | .sleep ticks => ticks.toNat
  | .timedwait _ timeout => timeout.toNat
  | .delayUntil prevWake increment => (prevWake + increment - BitVec.ofNat 32 now).toInt

/-- `fx_thread_sleep` up to its first critical section. -/
def sleepEntry (i : Timing C) (now : Nat) (ticks : BitVec 32) : TimedStage C :=
  if ticks.toNat < fxTimerMaxRelativeTimeout ∨ ticks = fxThreadInfiniteTimeout then
    if ticks ≠ 0 then .reset i else .returned i .ok now
  else .returned i .invalidTimeout now

/-- `fx_thread_timedwait_object` up to its first critical section. -/
def timedwaitEntry (i : Timing C) (now : Nat) (timeout : BitVec 32) : TimedStage C :=
  match (fxThreadTimedwaitMode timeout : WaitMode E) with
  | .poll => .poll i
  | .timed => .reset i
  | .reject error => .returned i error now
  | _ => .enter i

/-- `fx_thread_delay_until` up to its first critical section. -/
def delayUntilEntry (i : Timing C) (now : Nat) (increment : BitVec 32) : TimedStage C :=
  if increment.toNat < fxTimerMaxRelativeTimeout then .reset i
  else .returned i .invalidTimeout now

def TimedCall.entry (i : Timing C) (now : Nat) : TimedCall C → TimedStage C
  | .sleep ticks => sleepEntry i now ticks
  | .timedwait _ timeout => timedwaitEntry (E := E) i now timeout
  | .delayUntil _ increment => delayUntilEntry i now increment

/-- What follows the reset of the event: `fx_timer_internal_set_rel` reads the count in a critical
    section of its own. -/
def TimedCall.afterReset (i : Timing C) : TimedCall C → TimedStage C
  | .sleep ticks => if ticks ≠ fxThreadInfiniteTimeout then .read i else .enter i
  | .timedwait _ _ => .read i
  | .delayUntil prevWake increment => .arm i (prevWake + increment)

/-- The argument `delay` of `fx_timer_internal_set_rel`. -/
def TimedCall.delay : TimedCall C → BitVec 32
  | .sleep ticks => ticks
  | .timedwait _ timeout => timeout
  | .delayUntil _ increment => increment

def TimedCall.waitable : TimedCall C → Wtbl T E Q
  | .timedwait c _ => W.waitable c
  | _ => .ev (.timer me)

def TimedCall.attr : TimedCall C → Option A
  | .timedwait c _ => W.attr c
  | _ => none

/-- Only `fx_thread_timedwait_object` has an event to cancel the wait. -/
def TimedCall.abortEvent : TimedCall C → Option (Ev T E)
  | .timedwait _ timeout => if timeout = fxThreadInfiniteTimeout then none else some (.timer me)
  | _ => none

/-- The test function of the timer's event. -/
def timerEventTest (wait : Bool) (s : Kern T E Q A × O) : Bool × Kern T E Q A × O :=
  ((fxEventTestAndWait s.1 (.timer me) (me, .main) wait).1,
    (fxEventTestAndWait s.1 (.timer me) (me, .main) wait).2, s.2)

def TimedCall.testWait : TimedCall C → Bool → Kern T E Q A × O → Bool × Kern T E Q A × O
  | .timedwait c _ => W.testWait me c
  | _ => timerEventTest me

/-- What follows `fx_thread_wait_object_internal`. -/
def TimedCall.afterWait (i : Timing C) (r : ThreadStatus) (now : Nat) :
    TimedCall C → TimedStage C
  | .timedwait _ timeout =>
    if timeout = fxThreadInfiniteTimeout then .returned i r now else .cancel i r
  | _ => .cancel i r

def TimedCall.result (r : ThreadStatus) : TimedCall C → ThreadStatus
  | .timedwait _ _ => timedResult r
  | _ => r

/-- The thread's next critical section. -/
def TimedSys.advance (s : TimedSys T J E Q A O C) : TimedStage C → Option (TimedSys T J E Q A O C)
  | .reset i =>
    some { s with kern := fxEventInternalReset s.kern (.timer me), stage := i.call.afterReset i }
  | .read i =>
    some { s with
      stage := .arm { i with due := s.now + i.call.ahead s.now } (s.ctx.ticks + i.call.delay) }
  | .arm i timeout =>
    some { s with
      ctx := (fxTimerInternalSetAbs s.ctx (.thread me) timeout 0#32).2
      stage := .enter i }
  | .enter i =>
    match fxThreadWaitObjectEnter (i.call.testWait W me) me (i.call.attr W) (i.call.abortEvent me)
        (s.kern, s.obj) with
    | (some r, k, o) => some { s with kern := k, obj := o, stage := i.call.afterWait i r s.now }
    | (none, k, o) => some { s with kern := k, obj := o, stage := .asleep i }
  | .poll i =>
    match i.call.testWait W me false (fxSyncWaitBlockInit s.kern me (i.call.attr W), s.obj) with
    | (ok, k, o) => some { s with
        kern := k
        obj := o
        stage := .returned i (if ok then .ok else .waitTimeout) s.now }
  | .asleep i =>
    some { s with
      kern := (fxThreadWaitObjectLeave s.kern me).2
      stage := i.call.afterWait i (fxThreadWaitObjectLeave s.kern me).1 s.now }
  | .cancel i r =>
    some { s with
      ctx := (fxTimerInternalCancel s.ctx (.thread me)).2
      stage := .returned i (i.call.result r) s.now }
  | _ => none

/-- The thread is in none of the calls. -/
def TimedStage.outside : TimedStage C → Bool
  | .idle => true
  | .returned _ _ _ => true
  | _ => false

def timedStep : TimedAct T J E Q A O C → TimedSys T J E Q A O C → Option (TimedSys T J E Q A O C)
  | .begin call, s =>
    if s.stage.outside ∧ s.kern.state me = .ready then
      some { s with stage := call.entry (E := E) ⟨call, s.now, s.now + call.ahead s.now⟩ s.now }
    else none
  | .go, s => if s.kern.state me = .ready then s.advance W me s.stage else none
  | .tick, s =>
    if s.handler then none else some { s with
      ctx := { s.ctx with ticks := s.ctx.ticks + 1 }
      now := s.now + 1
      handler := true }
  | .next, s =>
    if s.handler then
      match fxTickTake s.ctx with
      | none => some { s with handler := false }
      | some (x, c) => some { s with ctx := c, kern := fxTimerCallback s.kern x }
    else none
  | .cancel x, s =>
    if x ≠ .thread me then some { s with ctx := (fxTimerInternalCancel s.ctx x).2 } else none
  | .setAbs x delay period, s =>
    if x ≠ .thread me then some { s with ctx := (fxTimerInternalSetAbs s.ctx x delay period).2 }
    else none
  | .other kern obj, s => some { s with kern := kern, obj := obj }

/-- A thread that makes a call is awake, and what happens during the call is the rest of the
    system's. Outside of it the thread may do anything else. -/
def TimedKeeps (s : TimedSys T J E Q A O C) : TimedAct T J E Q A O C → Prop
  | .begin _ => PhaseOk s.kern me (.awake : Phase T E Q)
  | .other kern _ => s.stage.outside = false → Elsewhere (.timer me) me s.kern kern
  | _ => True

/-- Any timers of others, any tick count. -/
def timedStart (ctx : TimerContext (TimerId T J)) (kern : Kern T E Q A) (obj : O) :
    TimedSys T J E Q A O C :=
  ⟨ctx, ctx.ticks.toNat, false, kern, obj, .idle⟩

end Maschine

/-! ## 2. How a wait ends -/

section Enden

variable {T E Q A O C P : Type} [DecidableEq T] [DecidableEq E] [DecidableEq Q]
  {W : WaitObject T E Q A O C P} {me : T} {call : TimedCall C} {s : Kern T E Q A × O}
  {k : Kern T E Q A} {r : ThreadStatus} {n : Slot → Option WaitStatus}

/-- The calls of the three functions that arm the timer. -/
def TimedCall.Timed : TimedCall C → Prop
  | .sleep ticks => 0 < ticks.toNat ∧ ticks.toNat < fxTimerMaxRelativeTimeout
  | .timedwait _ timeout => 0 < timeout.toNat ∧ timeout.toNat < fxTimerMaxRelativeTimeout
  | .delayUntil _ increment => increment.toNat < fxTimerMaxRelativeTimeout

/-- A wait ends by its timer with this result, a sleep with any. -/
def TimedCall.EndedByTimer (r : ThreadStatus) : TimedCall C → Prop
  | .timedwait _ _ => r = .waitTimeout
  | _ => True

theorem timerEventTest_view (s : Kern T E Q A × O) :
    SkipsOrQueues (timerEventTest me) me (.ev (.timer me)) s ∧
      (timerEventTest me true s).2.1.ev = s.1.ev := by
  unfold SkipsOrQueues timerEventTest fxEventTestAndWait
  cases he : s.1.ev (.timer me) with
  | true =>
    simp only [if_true, Bool.true_eq_false, false_and, if_false]
    exact ⟨SameView.refl me _, trivial⟩
  | false =>
    simp only [and_self, if_true, Bool.false_eq_true, if_false]
    exact ⟨SameView.refl me _, rfl⟩

/-- **The test of a call's object** leaves the events alone. -/
theorem TimedCall.tested (hW : W.Lawful) (call : TimedCall C) (ha : Awake s.1 me) :
    SkipsOrQueues (call.testWait W me) me (call.waitable W me) s ∧
      (call.testWait W me true s).2.1.ev = s.1.ev := by
  cases call with
  | sleep ticks => exact timerEventTest_view s
  | delayUntil prevWake increment => exact timerEventTest_view s
  | timedwait c timeout =>
    show SkipsOrQueues (W.testWait me c) me (W.waitable c) s ∧ (W.testWait me c true s).2.1.ev = _
    unfold SkipsOrQueues
    cases hp : W.testWait me c true s with
    | mk b s' =>
      cases b with
      | true =>
        have hm := hW.testTrue me c true s s' ha hp
        exact ⟨hm.view rfl, hm.ev⟩
      | false =>
        obtain ⟨_, hm⟩ := hW.testWait me c s s' ha hp
        exact ⟨hm.view rfl, hm.ev⟩

/-- The timer's event, as an event to cancel a wait. -/
theorem TimedCall.abortEvent_eq {e : Ev T E} (h : call.abortEvent me = some e) : e = .timer me := by
  cases call with
  | timedwait c timeout =>
    obtain ⟨_, he⟩ := Option.ite_none_left_eq_some.mp h
    exact (Option.some.inj he).symm
  | sleep ticks => cases h
  | delayUntil prevWake increment => cases h

theorem Entered.ev {t : T} {ab : Option (Ev T E)} {p : Bool × Kern T E Q A × O}
    {r : Option ThreadStatus} (h : Entered t ab p r k) : k.ev = p.2.1.ev := by
  cases h with
  | passed _ => exact (rollback_ev _ t).1
  | cancelled _ e _ _ => exact (rollback_ev _ t).1
  | alone _ _ => rfl
  | both _ e _ _ => rfl

theorem Entered.state {t : T} {ab : Option (Ev T E)} {p : Bool × Kern T E Q A × O}
    (h : Entered t ab p (some r) k) : k.state = p.2.1.state := by
  cases h with
  | passed _ => exact rollback_state ..
  | cancelled _ e _ _ => exact rollback_state ..

/-- **Entering the wait of a call**: it is skipped, with the thread awake again, for the timer only
    if its event was set, or the thread is asleep. -/
theorem TimedCall.entered (hW : W.Lawful) (hp : PhaseOk s.1 me (.awake : Phase T E Q))
    (hr : s.1.state me = .ready) {r : Option ThreadStatus} {o : O}
    (h : fxThreadWaitObjectEnter (call.testWait W me) me (call.attr W) (call.abortEvent me) s =
      (r, k, o)) :
    k.ev = s.1.ev ∧
    (∀ r', r = some r' → PhaseOk k me (.awake : Phase T E Q) ∧
      (call.EndedByTimer (call.result r') → s.1.ev (.timer me) = true)) ∧
    (r = none → Asleep k me (call.waitable W me) (call.abortEvent me) fun _ => none) := by
  obtain ⟨ha, _, hst⟩ := hp
  have h0 : (s.1.sched.item me).suspendCount = 0 := by
    obtain ⟨_, h0⟩ | ⟨hs, _⟩ := hst
    · exact h0
    · rw [hr] at hs
      cases hs
  have hprep := prepared ha (call.attr W)
  obtain ⟨hq, htestev⟩ :=
    call.tested hW hprep.awake (s := (fxSyncWaiterPrepare s.1 me (call.attr W), s.2))
  have hent := (FxRtos.entered (call.testWait W me) me (call.attr W) (call.abortEvent me) s).1
  rw [h] at hent
  have hspec := enter_spec (call.abortEvent me) ha h0 hq
  rw [h] at hspec
  refine ⟨hent.ev.trans htestev, fun r' hr' => ?_, fun hr' => ?_⟩
  · subst hr'
    obtain ⟨hawake, hnum, hcount, hres⟩ := hspec
    have hstate : k.state me = .ready := by
      rw [hent.state]
      unfold SkipsOrQueues at hq
      split at hq
      · exact hq.state.trans hr
      · exact hq.state.trans hr
    refine ⟨⟨hawake, hnum, Or.inl ⟨hstate, hcount⟩⟩, fun hend => ?_⟩
    obtain ⟨htrue, rfl⟩ | ⟨_, rfl, e, hab, he⟩ := hres
    · cases call with
      | sleep ticks => exact htrue
      | delayUntil prevWake increment => exact htrue
      | timedwait c timeout =>
        have hcontra : timedResult .ok = .waitTimeout := hend
        cases hcontra
    · -- the event to cancel the wait is the timer's
      obtain rfl := TimedCall.abortEvent_eq hab
      rw [htestev] at he
      exact he
  · subst hr'
    exact hspec.1

/-- **Leaving the wait**: a call ended by its timer had a block at the timer's event notified. -/
theorem TimedCall.left {n : Slot → Option WaitStatus}
    (ha : Asleep k me (call.waitable W me) (call.abortEvent me) n) (hr : k.state me = .ready) :
    PhaseOk (fxThreadWaitObjectLeave k me).2 me (.awake : Phase T E Q) ∧
    (fxThreadWaitObjectLeave k me).2.ev = k.ev ∧
    (call.EndedByTimer (call.result (fxThreadWaitObjectLeave k me).1) → ∃ slot,
      blockTarget (call.waitable W me) (call.abortEvent me) slot = some (.ev (.timer me)) ∧
        n slot ≠ none) := by
  obtain ⟨hawake, hnum, hs, hst, hres⟩ := leave_spec ha
  have hnone : ¬ (n .main = none ∧ n .abort = none) := fun h => by
    have hw := ha.state
    rw [if_pos h, hr] at hw
    cases hw
  have hcount := ha.count
  rw [if_neg hnone] at hcount
  refine ⟨⟨hawake, hnum, Or.inl ⟨by rw [hst, hr], by rw [hs, hcount]⟩⟩, (rollback_ev k me).1,
    fun hend => ?_⟩
  -- a sleep has but one block to be notified
  have hsleep : call.waitable W me = .ev (.timer me) →
      (call.abortEvent me : Option (Ev T E)) = none → ∃ slot,
      blockTarget (call.waitable W me) (call.abortEvent me) slot = some (.ev (.timer me)) ∧
        n slot ≠ none := by
    intro hw hab
    refine ⟨.main, congrArg some hw, fun hm => hnone ⟨hm, ?_⟩⟩
    by_contra hn
    have := ha.target_some hn
    rw [hab] at this
    cases this
  cases call with
  | sleep ticks => exact hsleep rfl rfl
  | delayUntil prevWake increment => exact hsleep rfl rfl
  | timedwait c timeout =>
    -- the result is a timeout only if the cancel event's block was notified as satisfied
    have hab : n .abort = some .satisfied := by
      have hend' : timedResult (fxThreadWaitObjectLeave k me).1 = .waitTimeout := hend
      rw [hres] at hend'
      by_contra hn
      rw [if_neg hn] at hend'
      split at hend'
      · cases hend'
      · split at hend' <;> cases hend'
    have hn : n .abort ≠ none := by simp [hab]
    refine ⟨.abort, ?_, hn⟩
    obtain ⟨v, hv⟩ := Option.isSome_iff_exists.mp (ha.target_some hn)
    obtain ⟨e, he, rfl⟩ := Option.map_eq_some_iff.mp hv
    rw [hv, TimedCall.abortEvent_eq he]

end Enden

/-! ## 3. The invariant -/

/-- The word `timeout` stands for the number `due`, which is still ahead. -/
def AheadOf (now : Nat) (ticks timeout : BitVec 32) (due : Int) : Prop :=
  now < due → (timeout - ticks).toInt = due - now

theorem AheadOf.tick {now : Nat} {ticks timeout : BitVec 32} {due : Int}
    (h : AheadOf now ticks timeout due) : AheadOf (now + 1) (ticks + 1) timeout due := by
  intro hlt
  have hd := h (by omega)
  have hc := BitVec.toInt_eq_toNat_cond (timeout - ticks)
  have hc' := BitVec.toInt_eq_toNat_cond (timeout - (ticks + 1))
  have ht := timeout.isLt
  have h1 : (1 : BitVec 32).toNat = 1 := rfl
  rw [BitVec.toNat_sub] at hc hc'
  rw [BitVec.toNat_add, h1] at hc'
  omega

/-- **A timer that is due has been waited for.** -/
theorem AheadOf.due {now : Nat} {ticks timeout : BitVec 32} {due : Int}
    (h : AheadOf now ticks timeout due) (hd : fxTimerTimeAfterOrEq ticks timeout = true) :
    due ≤ now := by
  by_contra hlt
  have hpos := h (by omega)
  have hle : (timeout - ticks).toInt ≤ 0 := of_decide_eq_true hd
  omega

section Invariante

variable {T J E Q A O C P : Type} [DecidableEq T] [DecidableEq J] [DecidableEq E] [DecidableEq Q]
  {W : WaitObject T E Q A O C P} {me : T} {now : Nat} {ticks : BitVec 32} {k k' : Kern T E Q A}

/-- The number the timer is for lies where the call wants it, or later. -/
def Timing.Begun (i : Timing C) (now : Nat) : Prop :=
  i.start ≤ now ∧ i.start + i.call.ahead i.start ≤ i.due

/-- **What holds between two critical sections.** -/
def StageOk (W : WaitObject T E Q A O C P) (me : T) (now : Nat) (ticks : BitVec 32)
    (k : Kern T E Q A) : TimedStage C → Prop
  | .idle => True
  | .reset i => PhaseOk k me (.awake : Phase T E Q) ∧ i.Begun now ∧
      (i.call.Timed ∨ i.call = .sleep fxThreadInfiniteTimeout) ∧
      ∀ prevWake increment, i.call = .delayUntil prevWake increment →
        AheadOf now ticks (prevWake + increment) i.due
  | .read i => PhaseOk k me (.awake : Phase T E Q) ∧ i.start ≤ now ∧ i.call.Timed ∧
      (∀ m, i.call.ahead m = i.call.delay.toNat) ∧ k.ev (.timer me) = false
  | .arm i timeout => PhaseOk k me (.awake : Phase T E Q) ∧ i.Begun now ∧ i.call.Timed ∧
      AheadOf now ticks timeout i.due ∧ k.ev (.timer me) = false
  | .enter i => PhaseOk k me (.awake : Phase T E Q) ∧
      (i.call.Timed → i.Begun now ∧ (k.ev (.timer me) = true → i.due ≤ now))
  | .poll i => PhaseOk k me (.awake : Phase T E Q) ∧ ¬ i.call.Timed
  | .asleep i => ∃ n, Asleep k me (i.call.waitable W me) (i.call.abortEvent me) n ∧
      (i.call.Timed → i.Begun now ∧ (k.ev (.timer me) = true → i.due ≤ now) ∧
        ∀ slot, blockTarget (i.call.waitable W me) (i.call.abortEvent me) slot =
          some (.ev (.timer me)) → n slot ≠ none → i.due ≤ now)
  | .cancel i r => PhaseOk k me (.awake : Phase T E Q) ∧
      (i.call.Timed → i.Begun now ∧ (i.call.EndedByTimer (i.call.result r) → i.due ≤ now))
  | .returned i r count => i.call.Timed → i.call.EndedByTimer r →
      i.start + i.call.ahead i.start ≤ count

/-- The call whose timer may be linked. -/
def TimedStage.armed : TimedStage C → Option (Timing C)
  | .enter i => some i
  | .asleep i => some i
  | .cancel i _ => some i
  | _ => none

structure TimedOk (W : WaitObject T E Q A O C P) (me : T) (s : TimedSys T J E Q A O C) : Prop where
  ticks : s.ctx.ticks = BitVec.ofNat 32 s.now
  nodup : s.ctx.timers.Nodup
  linked : .thread me ∈ s.ctx.timers → ∃ i, s.stage.armed = some i ∧ i.call.Timed ∧
    (s.ctx.timer (.thread me)).period = 0 ∧
    AheadOf s.now s.ctx.ticks (s.ctx.timer (.thread me)).timeout i.due
  stage : StageOk W me s.now s.ctx.ticks s.kern s.stage

/-! ## 4. One step -/

theorem Timing.Begun.tick {i : Timing C} (h : i.Begun now) : i.Begun (now + 1) :=
  ⟨Nat.le_succ_of_le h.1, h.2⟩

theorem StageOk.tick {st : TimedStage C} (h : StageOk W me now ticks k st) :
    StageOk W me (now + 1) (ticks + 1) k st := by
  have hle : ∀ {d : Int}, d ≤ now → d ≤ (now + 1 : Nat) := by
    intro d hd
    omega
  cases st with
  | idle => exact h
  | reset i =>
    obtain ⟨hp, hb, ht, hd⟩ := h
    exact ⟨hp, hb.tick, ht, fun p inc hc => (hd p inc hc).tick⟩
  | read i =>
    obtain ⟨hp, hs, ht⟩ := h
    exact ⟨hp, Nat.le_succ_of_le hs, ht⟩
  | arm i timeout =>
    obtain ⟨hp, hb, ht, ha, hev⟩ := h
    exact ⟨hp, hb.tick, ht, ha.tick, hev⟩
  | enter i =>
    obtain ⟨hp, hi⟩ := h
    refine ⟨hp, fun ht => ?_⟩
    obtain ⟨hb, hev⟩ := hi ht
    exact ⟨hb.tick, fun he => hle (hev he)⟩
  | poll i => exact h
  | asleep i =>
    obtain ⟨n, ha, hi⟩ := h
    refine ⟨n, ha, fun ht => ?_⟩
    obtain ⟨hb, hev, hn⟩ := hi ht
    exact ⟨hb.tick, fun he => hle (hev he), fun slot hs hne => hle (hn slot hs hne)⟩
  | cancel i r =>
    obtain ⟨hp, hi⟩ := h
    refine ⟨hp, fun ht => ?_⟩
    obtain ⟨hb, hr⟩ := hi ht
    exact ⟨hb.tick, fun he => hle (hr he)⟩
  | returned i r count => exact h

/-- The rest of the system. -/
theorem StageOk.elsewhere {st : TimedStage C} (h : StageOk W me now ticks k st)
    (hm : Elsewhere (.timer me) me k k') : StageOk W me now ticks k' st := by
  cases st with
  | idle => exact h
  | reset i => exact ⟨hm.awake h.1, h.2⟩
  | read i =>
    obtain ⟨hp, hs, ht, ha, hev⟩ := h
    exact ⟨hm.awake hp, hs, ht, ha, hm.ev.trans hev⟩
  | arm i timeout =>
    obtain ⟨hp, hb, ht, ha, hev⟩ := h
    exact ⟨hm.awake hp, hb, ht, ha, hm.ev.trans hev⟩
  | enter i =>
    obtain ⟨hp, hi⟩ := h
    refine ⟨hm.awake hp, ?_⟩
    rw [hm.ev]
    exact hi
  | poll i => exact ⟨hm.awake h.1, h.2⟩
  | asleep i =>
    obtain ⟨n, ha, hi⟩ := h
    obtain ⟨n', ha', hn'⟩ := hm.asleep ha
    refine ⟨n', ha', fun ht => ?_⟩
    obtain ⟨hb, hev, hn⟩ := hi ht
    refine ⟨hb, by rwa [hm.ev], fun slot hs hne => ?_⟩
    rw [hn' slot hs] at hne
    exact hn slot hs hne
  | cancel i r => exact ⟨hm.awake h.1, h.2⟩
  | returned i r count => exact h

/-- Outside of the calls the thread may be anywhere. -/
theorem StageOk.outside {st : TimedStage C} (h : StageOk W me now ticks k st)
    (ho : st.outside = true) (k' : Kern T E Q A) :
    StageOk W me now ticks k' st ∧ st.armed = none := by
  cases st with
  | idle => exact ⟨h, rfl⟩
  | returned i r count => exact ⟨h, rfl⟩
  | _ => cases ho

/-- The callback of the thread's timer, when the call waited for it. -/
theorem StageOk.fired {st : TimedStage C} (h : StageOk W me now ticks k st) {i : Timing C}
    (hi : st.armed = some i) (hdue : i.due ≤ now) :
    StageOk W me now ticks (fxEventInternalSet k (.timer me)) st := by
  cases st with
  | enter j =>
    cases hi
    exact ⟨awake_eventSet h.1 _, fun ht => ⟨(h.2 ht).1, fun _ => hdue⟩⟩
  | asleep j =>
    cases hi
    obtain ⟨n, ha, hj⟩ := h
    obtain ⟨n', ha'⟩ := ha.eventSet (.timer me)
    exact ⟨n', ha', fun ht => ⟨(hj ht).1, fun _ => hdue, fun _ _ _ => hdue⟩⟩
  | cancel j r =>
    cases hi
    exact ⟨awake_eventSet h.1 _, h.2⟩
  | _ => cases hi

end Invariante

section Schritt

variable {T J E Q A O C P : Type} [DecidableEq T] [DecidableEq J] [DecidableEq E] [DecidableEq Q]
  {W : WaitObject T E Q A O C P} {me : T} {s s' : TimedSys T J E Q A O C}

theorem TimedOk.unlinked (h : TimedOk W me s) (ha : s.stage.armed = none) :
    .thread me ∉ s.ctx.timers := fun hin => by
  obtain ⟨i, hi, _⟩ := h.linked hin
  rw [ha] at hi
  cases hi

/-- A step that leaves the timers alone. -/
theorem TimedOk.move (h : TimedOk W me s) {kern : Kern T E Q A} {obj : O} {handler : Bool}
    {stage : TimedStage C} (hst : StageOk W me s.now s.ctx.ticks kern stage)
    (ha : ∀ i, s.stage.armed = some i → i.call.Timed → stage.armed = some i) :
    TimedOk W me { s with kern := kern, obj := obj, handler := handler, stage := stage } where
  ticks := h.ticks
  nodup := h.nodup
  linked hin := by
    obtain ⟨i, hi, ht, hrest⟩ := h.linked hin
    exact ⟨i, ha i hi ht, ht, hrest⟩
  stage := hst

/-- The first critical section of a call. -/
theorem StageOk.entry {k : Kern T E Q A} {now : Nat} {ticks : BitVec 32}
    (ht : ticks = BitVec.ofNat 32 now) (hp : PhaseOk k me (.awake : Phase T E Q))
    (call : TimedCall C) : StageOk W me now ticks k
      (call.entry (E := E) ⟨call, now, now + call.ahead now⟩ now) := by
  have hbegun : Timing.Begun ⟨call, now, now + call.ahead now⟩ now :=
    ⟨Nat.le_refl _, Int.le_refl _⟩
  cases call with
  | sleep ticks =>
    show StageOk W me _ _ k (sleepEntry _ now ticks)
    unfold sleepEntry
    split
    · rename_i hle
      split
      · rename_i h0
        have hpos : 0 < ticks.toNat := Nat.pos_of_ne_zero fun he => h0 (BitVec.eq_of_toNat_eq he)
        refine ⟨hp, hbegun, ?_, nofun⟩
        rcases hle with hlt | rfl
        · exact Or.inl ⟨hpos, hlt⟩
        · exact Or.inr rfl
      · rename_i h0
        intro htimed
        have h0' : ticks = 0 := not_not.mp h0
        subst h0'
        exact absurd htimed.1 (Nat.lt_irrefl 0)
    · rename_i hle
      exact fun htimed => absurd (Or.inl htimed.2) hle
  | timedwait c timeout =>
    show StageOk W me _ _ k (timedwaitEntry (E := E) _ now timeout)
    unfold timedwaitEntry fxThreadTimedwaitMode
    by_cases hinf : timeout = fxThreadInfiniteTimeout
    · subst hinf
      refine ⟨hp, fun htimed => ?_⟩
      exact absurd htimed.2 (by decide)
    · by_cases h0 : timeout = 0
      · subst h0
        simp only [hinf, if_false, if_true]
        exact ⟨hp, fun htimed => Nat.lt_irrefl 0 htimed.1⟩
      · have hpos : 0 < timeout.toNat :=
          Nat.pos_of_ne_zero fun he => h0 (BitVec.eq_of_toNat_eq he)
        by_cases hlt : timeout.toNat < 0x7FFFFFFF
        · simp only [hinf, h0, hlt, if_false, if_true]
          exact ⟨hp, hbegun, Or.inl ⟨hpos, hlt⟩, nofun⟩
        · simp only [hinf, h0, hlt, if_false]
          exact fun htimed => absurd htimed.2 hlt
  | delayUntil prevWake increment =>
    show StageOk W me _ _ k (delayUntilEntry _ now increment)
    unfold delayUntilEntry
    split
    · rename_i hlt
      refine ⟨hp, hbegun, Or.inl hlt, fun p inc he hahead => ?_⟩
      obtain ⟨rfl, rfl⟩ := TimedCall.delayUntil.inj he
      rw [ht]
      show _ = (now : Int) + (prevWake + increment - BitVec.ofNat 32 now).toInt - now
      omega
    · rename_i hlt
      exact fun htimed => absurd htimed hlt

theorem TimedCall.Timed.delay_lt {call : TimedCall C} (h : call.Timed) :
    call.delay.toNat < fxTimerMaxRelativeTimeout := by
  cases call with
  | sleep ticks => exact h.2
  | timedwait c timeout => exact h.2
  | delayUntil prevWake increment => exact h

/-- After the reset of the event. -/
theorem StageOk.afterReset {k : Kern T E Q A} {now : Nat} {ticks : BitVec 32} {i : Timing C}
    (h : StageOk W me now ticks k (.reset i)) (hev : k.ev (.timer me) = false) :
    StageOk W me now ticks k (i.call.afterReset i) := by
  obtain ⟨call, start, due⟩ := i
  obtain ⟨hp, hb, ht, hd⟩ := h
  cases call with
  | sleep n =>
    show StageOk W me now ticks k (if n ≠ fxThreadInfiniteTimeout then _ else _)
    split
    · rename_i hne
      exact ⟨hp, hb.1, ht.resolve_right fun he => hne (TimedCall.sleep.inj he), fun _ => rfl, hev⟩
    · rename_i he
      obtain rfl := not_not.mp he
      exact ⟨hp, fun htimed => absurd htimed.2 (by decide)⟩
  | timedwait c timeout => exact ⟨hp, hb.1, ht.resolve_right nofun, fun _ => rfl, hev⟩
  | delayUntil prevWake increment =>
    exact ⟨hp, hb, ht.resolve_right nofun, hd prevWake increment rfl, hev⟩

/-- After the wait. -/
theorem StageOk.afterWait {k : Kern T E Q A} {now : Nat} {ticks : BitVec 32} {i : Timing C}
    {r : ThreadStatus} (h : StageOk W me now ticks k (.cancel i r)) :
    StageOk W me now ticks k (i.call.afterWait i r now) ∧
      (i.call.Timed → (i.call.afterWait i r now).armed = some i) := by
  obtain ⟨call, start, due⟩ := i
  cases call with
  | sleep n => exact ⟨h, fun _ => rfl⟩
  | delayUntil prevWake increment => exact ⟨h, fun _ => rfl⟩
  | timedwait c timeout =>
    by_cases hinf : timeout = fxThreadInfiniteTimeout
    · have hnot : ¬ (TimedCall.timedwait c timeout).Timed := fun htimed => by
        subst hinf
        exact absurd htimed.2 (by decide)
      simp only [TimedCall.afterWait, hinf, if_true]
      exact ⟨fun htimed => absurd (hinf ▸ htimed) hnot, fun htimed => absurd (hinf ▸ htimed) hnot⟩
    · simp only [TimedCall.afterWait, hinf, if_false]
      exact ⟨h, fun _ => rfl⟩

/-- **The next critical section of the thread.** -/
theorem TimedOk.advance (hW : W.Lawful) (h : TimedOk W me s) (hr : s.kern.state me = .ready)
    (hs : s.advance W me s.stage = some s') : TimedOk W me s' := by
  have hok := h.stage
  cases hst : s.stage with
  | idle =>
    rw [hst] at hs
    cases hs
  | returned i r count =>
    rw [hst] at hs
    cases hs
  | reset i =>
    rw [hst] at hs hok
    cases hs
    obtain ⟨hp, hrest⟩ := hok
    have hp' : PhaseOk (fxEventInternalReset s.kern (.timer me)) me (.awake : Phase T E Q) :=
      hp.view (sched_view rfl rfl rfl rfl rfl)
    have hnext : StageOk W me s.now s.ctx.ticks (fxEventInternalReset s.kern (.timer me))
        (.reset i) := ⟨hp', hrest⟩
    exact h.move (hnext.afterReset (Function.update_self ..)) (by rw [hst]; nofun)
  | read i =>
    rw [hst] at hs hok
    cases hs
    obtain ⟨hp, hle, ht, hahead, hev⟩ := hok
    refine h.move ⟨hp, ⟨hle, ?_⟩, ht, fun _ => ?_, hev⟩ (by rw [hst]; nofun)
    · show (i.start : Int) + i.call.ahead i.start ≤ s.now + i.call.ahead s.now
      rw [hahead, hahead]
      omega
    · show (s.ctx.ticks + i.call.delay - s.ctx.ticks).toInt = s.now + i.call.ahead s.now - s.now
      have hlt := ht.delay_lt
      have hword : s.ctx.ticks + i.call.delay - s.ctx.ticks = i.call.delay := by
        rw [BitVec.add_comm, BitVec.add_sub_cancel]
      rw [hword, hahead, BitVec.toInt_eq_toNat_cond]
      unfold fxTimerMaxRelativeTimeout at hlt
      omega
  | arm i timeout =>
    rw [hst] at hs hok
    cases hs
    obtain ⟨hp, hb, ht, ha, hev⟩ := hok
    have hfalse : s.kern.ev (.timer me) = true → i.due ≤ s.now := fun he => by
      rw [hev] at he
      cases he
    have htimer : (fxTimerInternalSetAbs s.ctx (.thread me) timeout 0#32).2.timer (.thread me) =
        ⟨timeout, 0#32⟩ := by
      rw [fxTimerInternalSetAbs_ctx]
      exact Function.update_self ..
    have hticks :
        (fxTimerInternalSetAbs s.ctx (.thread me) timeout 0#32).2.ticks = s.ctx.ticks := by
      rw [fxTimerInternalSetAbs_ctx]
      rfl
    refine ⟨hticks.trans h.ticks, setAbs_nodup h.nodup .., fun _ => ⟨i, rfl, ht, ?_, ?_⟩, ?_⟩
    · exact congrArg FxTimer.period htimer
    · rw [htimer, hticks]
      exact ha
    · rw [hticks]
      exact ⟨hp, fun _ => ⟨hb, hfalse⟩⟩
  | enter i =>
    rw [hst] at hs hok
    obtain ⟨hp, hi⟩ := hok
    cases hent : fxThreadWaitObjectEnter (i.call.testWait W me) me (i.call.attr W)
        (i.call.abortEvent me) (s.kern, s.obj) with
    | mk r ko =>
      obtain ⟨k, o⟩ := ko
      obtain ⟨hev, hskip, hsleep⟩ := TimedCall.entered hW hp hr hent
      simp only [TimedSys.advance, hent] at hs
      cases r with
      | some r =>
        cases hs
        obtain ⟨hp', hend⟩ := hskip r rfl
        have hcancel : StageOk W me s.now s.ctx.ticks k (.cancel i r) :=
          ⟨hp', fun ht => ⟨(hi ht).1, fun he => (hi ht).2 (hend he)⟩⟩
        obtain ⟨hnext, harmed⟩ := hcancel.afterWait
        refine h.move hnext fun j hj ht => ?_
        rw [hst] at hj
        cases hj
        exact harmed ht
      | none =>
        cases hs
        refine h.move ⟨_, hsleep rfl, fun ht => ⟨(hi ht).1, ?_, fun _ _ hne => absurd rfl hne⟩⟩
          fun j hj _ => ?_
        · rw [hev]
          exact (hi ht).2
        · rw [hst] at hj
          exact hj
  | poll i =>
    rw [hst] at hs hok
    simp only [TimedSys.advance] at hs
    cases hs
    exact h.move (fun ht => absurd ht hok.2) (by rw [hst]; nofun)
  | asleep i =>
    rw [hst] at hs hok
    cases hs
    obtain ⟨n, ha, hi⟩ := hok
    obtain ⟨hp, hev, hend⟩ := TimedCall.left ha hr
    have hcancel : StageOk W me s.now s.ctx.ticks (fxThreadWaitObjectLeave s.kern me).2
        (.cancel i (fxThreadWaitObjectLeave s.kern me).1) := by
      refine ⟨hp, fun ht => ⟨(hi ht).1, fun he => ?_⟩⟩
      obtain ⟨slot, hslot, hne⟩ := hend he
      exact (hi ht).2.2 slot hslot hne
    obtain ⟨hnext, harmed⟩ := hcancel.afterWait
    refine h.move hnext fun j hj ht => ?_
    rw [hst] at hj
    cases hj
    exact harmed ht
  | cancel i r =>
    rw [hst] at hs hok
    cases hs
    obtain ⟨hp, hi⟩ := hok
    have hctx := fxTimerInternalCancel_ctx s.ctx (.thread me)
    refine ⟨?_, ?_, fun hin => ?_, fun ht hend => ?_⟩
    · rw [hctx]
      exact h.ticks
    · rw [hctx]
      exact h.nodup.erase _
    · rw [hctx] at hin
      exact absurd hin h.nodup.not_mem_erase
    · obtain ⟨hb, hdue⟩ := hi ht
      have := hb.2
      have := hdue hend
      omega

/-- The other timers change. -/
theorem TimedOk.others (h : TimedOk W me s) {ctx : TimerContext (TimerId T J)} {k : Kern T E Q A}
    (hticks : ctx.ticks = s.ctx.ticks) (hn : ctx.timers.Nodup)
    (hin : .thread me ∈ ctx.timers → .thread me ∈ s.ctx.timers)
    (htimer : ctx.timer (.thread me) = s.ctx.timer (.thread me))
    (hk : Elsewhere (.timer me) me s.kern k) :
    TimedOk W me { s with ctx := ctx, kern := k } where
  ticks := hticks.trans h.ticks
  nodup := hn
  linked hl := by
    obtain ⟨i, hi, ht, hp, ha⟩ := h.linked (hin hl)
    refine ⟨i, hi, ht, ?_, ?_⟩
    · rw [htimer]
      exact hp
    · rw [htimer, hticks]
      exact ha
  stage := by
    rw [hticks]
    exact h.stage.elsewhere hk

/-- The tick handler calls back a timer. -/
theorem TimedOk.called (h : TimedOk W me s) {x : TimerId T J} {c : TimerContext (TimerId T J)}
    (ht : fxTickTake s.ctx = some (x, c)) :
    TimedOk W me { s with ctx := c, kern := fxTimerCallback s.kern x } := by
  obtain ⟨rest, hl, hdue, hc⟩ := fxTickTake_some ht
  have hnodup := h.nodup
  rw [hl] at hnodup
  obtain ⟨hx, hrest⟩ := List.nodup_cons.mp hnodup
  by_cases hme : x = .thread me
  · -- the thread's own timer is called back no sooner than it is due, and once
    subst hme
    obtain ⟨i, hi, _, hp, ha⟩ := h.linked (by simp [hl])
    rw [if_neg (not_not.mpr hp)] at hc
    subst hc
    exact ⟨h.ticks, hrest, fun hin => absurd hin hx, h.stage.fired hi (ha.due hdue)⟩
  · have hk : Elsewhere (.timer me) me s.kern (fxTimerCallback s.kern x) := by
      cases x with
      | thread u =>
        exact Elsewhere.eventSet s.kern fun he => hme (congrArg TimerId.thread (Ev.timer.inj he))
      | other j => exact .refl
    have hin : .thread me ∈ rest → .thread me ∈ s.ctx.timers := fun hr => by
      rw [hl]
      exact List.mem_cons_of_mem _ hr
    subst hc
    split
    · refine h.others rfl (fxTimerInsert_nodup hrest hx) (fun hr => ?_)
        (Function.update_of_ne (Ne.symm hme) ..) hk
      exact hin ((mem_fxTimerInsert.mp hr).resolve_left (Ne.symm hme))
    · exact h.others rfl hrest hin rfl hk

/-- **One step.** -/
theorem TimedOk.step (hW : W.Lawful) {a : TimedAct T J E Q A O C} (h : TimedOk W me s)
    (hg : TimedKeeps me s a) (hs : timedStep W me a s = some s') : TimedOk W me s' := by
  cases a with
  | begin call =>
    obtain ⟨⟨hout, _⟩, rfl⟩ := taken hs
    obtain ⟨_, hnone⟩ := h.stage.outside hout s.kern
    exact h.move (StageOk.entry h.ticks hg call) (by rw [hnone]; nofun)
  | go =>
    obtain ⟨hr, hs⟩ := Option.ite_none_right_eq_some.mp hs
    exact h.advance hW hr hs
  | tick =>
    obtain ⟨_, hs⟩ := Option.ite_none_left_eq_some.mp hs
    cases hs
    refine ⟨?_, h.nodup, fun hin => ?_, h.stage.tick⟩
    · show s.ctx.ticks + 1 = BitVec.ofNat 32 (s.now + 1)
      rw [h.ticks, BitVec.ofNat_add]
      rfl
    · obtain ⟨i, hi, ht, hp, ha⟩ := h.linked hin
      exact ⟨i, hi, ht, hp, ha.tick⟩
  | next =>
    obtain ⟨_, hs⟩ := Option.ite_none_right_eq_some.mp hs
    cases ht : fxTickTake s.ctx with
    | none =>
      rw [ht] at hs
      cases hs
      exact h.move h.stage fun _ hi _ => hi
    | some xc =>
      rw [ht] at hs
      cases hs
      exact h.called ht
  | cancel x =>
    obtain ⟨hx, rfl⟩ := taken hs
    rw [fxTimerInternalCancel_ctx]
    exact h.others rfl (h.nodup.erase x) List.mem_of_mem_erase rfl .refl
  | setAbs x delay period =>
    obtain ⟨hx, rfl⟩ := taken hs
    have hmem := (setAbs_mem s.ctx x (.thread me) delay period (Ne.symm hx)).mp
    have hnodup := setAbs_nodup h.nodup x delay period
    rw [fxTimerInternalSetAbs_ctx] at hmem hnodup ⊢
    exact h.others rfl hnodup hmem (Function.update_of_ne (Ne.symm hx) ..) .refl
  | other kern obj =>
    cases hs
    cases hout : s.stage.outside with
    | true =>
      obtain ⟨hst, _⟩ := h.stage.outside hout kern
      exact h.move hst fun _ hi _ => hi
    | false => exact h.move (h.stage.elsewhere (hg hout)) fun _ hi _ => hi

end Schritt

/-! ## 5. Every run -/

section Lauf

variable {T J E Q A O C P : Type} [DecidableEq T] [DecidableEq J] [DecidableEq E] [DecidableEq Q]
  {W : WaitObject T E Q A O C P} {me : T} {ctx : TimerContext (TimerId T J)} {kern : Kern T E Q A}
  {obj : O} {s : TimedSys T J E Q A O C}

theorem timedStart_ok (hn : ctx.timers.Nodup) (hme : .thread me ∉ ctx.timers) :
    TimedOk W me (timedStart ctx kern obj : TimedSys T J E Q A O C) where
  ticks := (BitVec.ofNat_toNat 32 ctx.ticks).symm
  nodup := hn
  linked hin := absurd hin hme
  stage := trivial

/-- **No timeout before its time**, in every run: a call that a thread made at the count `start`
    does not end by its timer before the count at which the timer is due, and when it returns the
    timer is not linked. -/
theorem timeout_not_premature (hW : W.Lawful) (hn : ctx.timers.Nodup)
    (hme : .thread me ∉ ctx.timers)
    (h : Reach (timedStep W me) (TimedKeeps me) (timedStart ctx kern obj) s)
    {i : Timing C} {r : ThreadStatus} {count : Nat} (hret : s.stage = .returned i r count) :
    .thread me ∉ s.ctx.timers ∧
    (i.call.Timed → i.call.EndedByTimer r → i.start + i.call.ahead i.start ≤ count) := by
  have hok : TimedOk W me s := h.inv (J := TimedOk W me) (timedStart_ok hn hme)
    fun _ _ _ hi hg hs => hi.step hW hg hs
  have hstage := hok.stage
  rw [hret] at hstage
  exact ⟨hok.unlinked (by rw [hret]; rfl), hstage⟩

end Lauf

/-- The thread, the tick handler and nothing else. -/
def isAlone {T J E Q A O C : Type} (_ : TimedSys T J E Q A O C) : TimedAct T J E Q A O C → Bool
  | .go => true
  | .tick => true
  | .next => true
  | _ => false

/-- The created thread of `overdueStart` at the count ten, no timer armed. -/
def prematureStart : TimedSys Bool Unit Unit Unit Unit FxSem (WaitArgs Unit) :=
  timedStart ⟨[], 10#32, fun _ => ⟨0, 0⟩⟩ overdueStart.kern overdueStart.obj

/-- It makes a call, and runs alone. -/
def prematureRun (call : TimedCall (WaitArgs Unit))
    (as : List (TimedAct Bool Unit Unit Unit Unit FxSem (WaitArgs Unit))) :
    Option (TimedSys Bool Unit Unit Unit Unit FxSem (WaitArgs Unit)) :=
  (timedStep (fxSem true) false (.begin call) prematureStart).bind
    (runIf isAlone (timedStep (fxSem true) false) as)

theorem exists_of_prematureRun {call : TimedCall (WaitArgs Unit)}
    {as : List (TimedAct Bool Unit Unit Unit Unit FxSem (WaitArgs Unit))}
    {p : TimedSys Bool Unit Unit Unit Unit FxSem (WaitArgs Unit) → Bool}
    (h : (prematureRun call as).any p = true) :
    ∃ s, Reach (timedStep (fxSem true) false) (TimedKeeps false) prematureStart s ∧
      p s = true := by
  obtain ⟨s, hs, hp⟩ := (Option.any_eq_true ..).mp h
  obtain ⟨s1, h1, h2⟩ := Option.bind_eq_some_iff.mp hs
  have hbegin : Reach (timedStep (fxSem true) false) (TimedKeeps false) prematureStart s1 :=
    .next (.begin call) .start (overdueStart_wellFormed.kern false) h1
  refine ⟨s, hbegin.trans (reach_of_runIf (fun s a ha => ?_) h2), hp⟩
  cases a with
  | begin call => cases ha
  | other kern obj => cases ha
  | _ => trivial

/-- A wait of two ticks for a semaphore that nobody posts: one tick is over before the timer is
    armed, and the call ends at the count thirteen. -/
theorem timeout_not_premature_two : ∃ s,
    Reach (timedStep (fxSem true) false) (TimedKeeps false) prematureStart s ∧
    s.stage = .returned ⟨.timedwait (.event none) 2#32, 10, 13⟩ .waitTimeout 13 ∧
    .thread false ∉ s.ctx.timers ∧ (10 : Int) + 2 ≤ 13 := by
  let as : List (TimedAct Bool Unit Unit Unit Unit FxSem (WaitArgs Unit)) :=
    [.go, .tick, .next, .go, .go, .go, .tick, .next, .tick, .next, .next, .go, .go]
  have hrun : (prematureRun (.timedwait (.event none) 2#32) as).any (fun s => decide
      (s.stage = .returned ⟨.timedwait (.event none) 2#32, 10, 13⟩ .waitTimeout 13)) = true := by
    decide +kernel
  obtain ⟨s, hs, hp⟩ := exists_of_prematureRun hrun
  have hret := of_decide_eq_true hp
  obtain ⟨hfree, hcount⟩ :=
    timeout_not_premature (fxSem_lawful true) List.nodup_nil (by decide) hs hret
  exact ⟨s, hs, hret, hfree, hcount ⟨by decide, by decide⟩ rfl⟩

/-- `fx_thread_delay_until` counts from the tick the variable holds: a call at the count ten whose
    variable holds zero is over at the next tick, five ticks or not. -/
theorem delay_until_stale : ∃ s,
    Reach (timedStep (fxSem true) false) (TimedKeeps false) prematureStart s ∧
    s.stage = .returned ⟨.delayUntil 0#32 5#32, 10, 5⟩ .ok 11 ∧
    ¬ (10 + (5#32).toNat ≤ 11) := by
  let as : List (TimedAct Bool Unit Unit Unit Unit FxSem (WaitArgs Unit)) :=
    [.go, .go, .go, .tick, .next, .next, .go, .go]
  have hrun : (prematureRun (.delayUntil 0#32 5#32) as).any (fun s => decide
      (s.stage = .returned ⟨.delayUntil 0#32 5#32, 10, 5⟩ .ok 11)) = true := by
    decide +kernel
  obtain ⟨s, hs, hp⟩ := exists_of_prematureRun hrun
  exact ⟨s, hs, of_decide_eq_true hp, by decide⟩

end FxRtos
