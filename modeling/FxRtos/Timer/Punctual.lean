/-
  File:      FxRtos/Timer/Punctual.lean
  Subject:   TIMERS FIRE EXACTLY ON TIME: runs of arming, cancelling and the tick handler, with
             callbacks that cancel and arm timers themselves.

  * `timerStep` -- one critical section. `fx_timer_internal_set_rel` is two of them, the counter
    read and the timer armed, and others come in between; the tick handler is one for each round of
    its loop. What is armed while the handler runs was also read in that run: the handler is
    interrupt code, and callbacks return before its next round.
  * `Arming` -- the account kept beside the code, in numbers that do not wrap around: when and how a
    timer was armed, and at which ticks it was called back since. `past` keeps the accounts closed
    by a cancel or by arming anew.
  * `Arming.due` -- the first tick-handler run after arming whose count is at or after a deadline.
  * `timers_fire_on_time` -- every run in which what is inserted fits (`RelFits`). It does as long
    as no call has its deadline overtaken between its two sections (`promptly_fits`).
  * `set_rel_skipped` -- a run in which five ticks pass between the two.
-/
import FxRtos.Timer.Alarms
import FxRtos.Lib.Reach

namespace FxRtos

open Function (update)
open Lib

set_option linter.unusedSectionVars false

/-! ## 1. The account -/

/-- A timer whose delay `d` counts from the tick count `t`, armed at the count `armed`, and the
    counts of its callbacks since. -/
structure Arming where
  t : Nat
  d : Nat
  p : Nat
  armed : Nat
  fired : List Nat
  deriving DecidableEq, Repr

def Arming.deadline (a : Arming) (k : Nat) : Nat := a.t + a.d + k * a.p

/-- There is a `k`-th deadline: a one-shot timer has one only. -/
def Arming.HasDeadline (a : Arming) (k : Nat) : Prop := k = 0 ∨ a.p ≠ 0

/-- The count of the first tick-handler run after arming that is at or after the deadline. -/
def Arming.due (a : Arming) (k : Nat) : Nat := max (a.deadline k) (a.armed + 1)

/-- Up to the tick count `n` no callback was made but for a deadline, each in its turn and at
    the tick it was due. -/
def Arming.Sound (a : Arming) (n : Nat) : Prop :=
  ∀ k v, a.fired[k]? = some v → a.HasDeadline k ∧ v = a.due k ∧ v ≤ n

/-- Every deadline due up to the tick count `n` was served. -/
def Arming.Complete (a : Arming) (n : Nat) : Prop :=
  ∀ k, a.HasDeadline k → a.due k ≤ n → k < a.fired.length

/-- An account closed at the count `now`, when the handler had served everything up to `served`. -/
structure ClosedArming where
  arming : Arming
  now : Nat
  served : Nat

/-! ## 2. Runs -/

/-- A call of `fx_timer_internal_set_rel` that has read the counter into its variable `ticks`. The
    count it was read at is `t`. -/
structure RelCall (I : Type) where
  timer : I
  delay : RelTimeout
  period : RelTimeout
  ticks : BitVec 32
  inHandler : Bool
  t : Nat

/-- `handler` says that the tick handler runs, `stray` which timers it called back that were not
    armed. -/
structure TimerSys (I : Type) where
  ctx : TimerContext I
  handler : Bool
  calls : List (RelCall I)
  now : Nat
  arming : I → Option Arming
  past : I → List ClosedArming
  stray : List I

/-- `read` and `arm` are the two sections of `fx_timer_internal_set_rel`; the second is that of the
    `n`-th call that is waiting for it. `next` is the next round of the handler. -/
inductive TimerAct (I : Type) where
  | cancel (x : I)
  | read (x : I) (delay period : RelTimeout)
  | arm (n : Nat)
  | tick
  | next

section Maschine

variable {I : Type} [DecidableEq I]

def RelCall.deadline (c : RelCall I) : Nat := c.t + c.delay.val.toNat

/-- The count that everything due was served up to. -/
def TimerSys.served (s : TimerSys I) : Nat := if s.handler then s.now - 1 else s.now

def TimerSys.close (s : TimerSys I) (x : I) : TimerSys I :=
  { s with
    arming := update s.arming x none
    past := update s.past x
      ((s.arming x).toList.map (fun a => ⟨a, s.now, s.served⟩) ++ s.past x) }

def TimerSys.fire (s : TimerSys I) (x : I) : TimerSys I :=
  match s.arming x with
  | some a =>
    { s with arming := update s.arming x (some { a with fired := a.fired ++ [s.now] }) }
  | none => { s with stray := x :: s.stray }

/-- The second section of a call. -/
def TimerSys.arm (s : TimerSys I) (c : RelCall I) : TimerSys I :=
  { s.close c.timer with
    ctx := (fxTimerInternalSetAbs s.ctx c.timer (c.ticks + c.delay.val) c.period.val).2
    arming := update s.arming c.timer
      (some ⟨c.t, c.delay.val.toNat, c.period.val.toNat, s.now, []⟩) }

/-- One round of the loop of `fx_tick_handler`: it ends, or the head is called back. -/
def TimerSys.round (s : TimerSys I) : TimerSys I :=
  match fxTickTake s.ctx with
  | none => { s with handler := false }
  | some (x, c) => { s.fire x with ctx := c }

def TimerSys.ticked (s : TimerSys I) : TimerSys I :=
  { s with ctx := { s.ctx with ticks := s.ctx.ticks + 1 }, now := s.now + 1, handler := true }

def timerStep : TimerAct I → TimerSys I → Option (TimerSys I)
  | .cancel x, s => some { s.close x with ctx := (fxTimerInternalCancel s.ctx x).2 }
  | .read x delay period, s =>
    some { s with calls := s.calls ++ [⟨x, delay, period, s.ctx.ticks, s.handler, s.now⟩] }
  | .arm n, s =>
    match s.calls[n]? with
    | some c =>
      if c.inHandler = s.handler then some { s.arm c with calls := s.calls.eraseIdx n } else none
    | none => none
  | .tick, s => if s.handler then none else some s.ticked.round
  | .next, s => if s.handler ∧ s.calls.all (!·.inHandler) then some s.round else none

/-- No timer armed, and any tick count, one turn of the counter on. -/
def timerStart (ticks : BitVec 32) : TimerSys I :=
  ⟨⟨[], ticks, fun _ => ⟨0, 0⟩⟩, false, [], ticks.toNat + 2 * halfRange, fun _ => none,
    fun _ => [], []⟩

/-- Callbacks arm timers with a delay of at least one. -/
def CallbackDelays (s : TimerSys I) (a : TimerAct I) : Prop :=
  match a with
  | .read _ delay _ => s.handler = true → 1 ≤ delay.val.toNat
  | _ => True

/-- The next deadline of a timer. -/
def TimerSys.next (s : TimerSys I) (x : I) : Nat :=
  match s.arming x with
  | some a => a.deadline a.fired.length
  | none => 0

/-- The deadline that a round puts back, and among which timers. -/
def TimerSys.reinserts (s : TimerSys I) : Option (List I × Nat) :=
  match s.ctx.timers with
  | x :: rest =>
    if fxTimerTimeAfterOrEq s.ctx.ticks (s.ctx.timer x).timeout ∧ (s.ctx.timer x).period ≠ 0 then
      some (rest, s.next x + (s.ctx.timer x).period.toNat)
    else none
  | [] => none

/-- The deadline that a section inserts, and among which timers. -/
def TimerSys.inserts (s : TimerSys I) : TimerAct I → Option (List I × Nat)
  | .arm n => s.calls[n]?.map fun c => (s.ctx.timers.erase c.timer, c.deadline)
  | .tick => s.ticked.reinserts
  | .next => s.reinserts
  | _ => none

/-- **What is inserted fits**, and is not half the range behind the count. -/
def RelFits (s : TimerSys I) (a : TimerAct I) : Prop :=
  ∀ q ∈ s.inserts a, s.served < q.2 + halfRange ∧ Fits s.next q.1 q.2

instance (s : TimerSys I) (a : TimerAct I) : Decidable (RelFits s a) :=
  inferInstanceAs (Decidable (∀ q ∈ s.inserts a, _ ∧ Fits s.next q.1 q.2))

instance (s : TimerSys I) : (a : TimerAct I) → Decidable (CallbackDelays s a)
  | .read _ delay _ => inferInstanceAs (Decidable (s.handler = true → 1 ≤ delay.val.toNat))
  | .cancel _ => instDecidableTrue
  | .arm _ => instDecidableTrue
  | .tick => instDecidableTrue
  | .next => instDecidableTrue

/-- No call has its deadline overtaken before it arms its timer. -/
def Promptly (s : TimerSys I) (a : TimerAct I) : Prop :=
  match a with
  | .arm n => ∀ c ∈ s.calls[n]?, s.now ≤ c.deadline
  | _ => True

end Maschine

/-! ## 3. The invariant -/

/-- A timer as it is seen by the list: its next deadline. -/
def Arming.alarm (a : Arming) : Alarm := ⟨a.armed + 1, a.deadline a.fired.length, a.p, a.fired⟩

def TimerSys.alarms {I : Type} (s : TimerSys I) : Alarms I :=
  ⟨s.now, fun x => (s.arming x).map Arming.alarm⟩

/-- A call between its two sections: its variable holds the count it was read at. -/
structure CallOk {I : Type} (s : TimerSys I) (c : RelCall I) : Prop where
  ticks : c.ticks = BitVec.ofNat 32 c.t
  past : c.t ≤ s.now
  inHandler : c.inHandler = true → s.handler = true ∧ s.now < c.deadline

structure TimerSysOk {I : Type} (s : TimerSys I) : Prop where
  alarms : AlarmsOk s.served s.ctx s.alarms
  handler : s.handler = true → s.now = s.served + 1
  calls : ∀ c ∈ s.calls, CallOk s c
  sound : ∀ x a, s.arming x = some a → a.Sound s.now
  past : ∀ x, ∀ b ∈ s.past x, b.arming.Sound b.now ∧ b.arming.Complete b.served
  stray : s.stray = []

section Rechnung

variable {a : Arming} {m now : Nat} {t : FxTimer}

theorem Arming.deadline_mono {k l : Nat} (h : k ≤ l) : a.deadline k ≤ a.deadline l :=
  Nat.add_le_add_left (Nat.mul_le_mul_right a.p h) _

theorem Arming.due_mono {k l : Nat} (h : k ≤ l) : a.due k ≤ a.due l :=
  Nat.max_le.mpr ⟨Nat.le_trans (deadline_mono h) (Nat.le_max_left ..), Nat.le_max_right ..⟩

theorem Arming.alarm_fire (a : Arming) (now : Nat) :
    ({ a with fired := a.fired ++ [now] } : Arming).alarm = a.alarm.fire now := by
  simp only [Arming.alarm, Alarm.fire, Arming.deadline, List.length_append, List.length_singleton,
    Nat.add_mul, Nat.one_mul, Nat.add_assoc]

/-- A timer waiting for a deadline not due up to `m` was served all those due up to `m`. -/
theorem AlarmWaits.complete (h : AlarmWaits m t a.alarm) : a.Complete m := fun k _ hk => by
  refine Classical.byContradiction fun hn => ?_
  have hle := Arming.due_mono (a := a) (Nat.le_of_not_lt hn)
  have hdue : m < a.due a.fired.length := h.due
  omega

/-- A one-shot timer that was called back has nothing left to serve. -/
theorem AlarmFired.complete (h : AlarmFired now a.alarm) (n : Nat) : a.Complete n := by
  intro k hk _
  have hp : a.p = 0 := h.period
  have hf : a.fired = [a.alarm.due] := h.fired
  obtain rfl : k = 0 := hk.resolve_right fun hne => hne hp
  rw [hf]
  exact Nat.one_pos

/-- A callback for the next deadline, when it is due. -/
theorem Arming.Sound.fire (hs : a.Sound now) (h : a.HasDeadline a.fired.length)
    (hdue : a.due a.fired.length = now) :
    ({ a with fired := a.fired ++ [now] } : Arming).Sound now := by
  intro k v hv
  have hv : (a.fired ++ [now])[k]? = some v := hv
  rcases Nat.lt_trichotomy k a.fired.length with hk | rfl | hk
  · rw [List.getElem?_append_left hk] at hv
    exact hs k v hv
  · rw [List.getElem?_concat_length] at hv
    obtain rfl := Option.some.inj hv
    exact ⟨h, hdue.symm, Nat.le_refl _⟩
  · rw [List.getElem?_eq_none (by simp; omega)] at hv
    cases hv

theorem Arming.Sound.mono {n : Nat} (hs : a.Sound now) (h : now ≤ n) : a.Sound n := by
  intro k v hv
  obtain ⟨h1, h2, h3⟩ := hs k v hv
  exact ⟨h1, h2, Nat.le_trans h3 h⟩

end Rechnung

/-! ## 4. One step -/

section Schritte

variable {I : Type} [DecidableEq I] {s s' : TimerSys I} {x : I}

theorem alarms_arming {a : Arming} (h : s.arming x = some a) : s.alarms.alarm x = some a.alarm :=
  congrArg (Option.map Arming.alarm) h

theorem alarms_next (s : TimerSys I) : s.alarms.next = s.next := by
  funext x
  cases h : s.arming x with
  | none => simp only [Alarms.next, TimerSys.next, TimerSys.alarms, h, Option.map_none]
  | some a => simp only [Alarms.next, TimerSys.next, TimerSys.alarms, h, Option.map_some,
      Arming.alarm]

theorem alarms_update {q : TimerSys I} {o : Option Arming} (hnow : q.now = s.now)
    (h : q.arming = update s.arming x o) :
    q.alarms = ⟨s.now, update s.alarms.alarm x (o.map Arming.alarm)⟩ := by
  unfold TimerSys.alarms
  rw [hnow, h]
  congr 1
  funext y
  by_cases hy : y = x
  · subst hy
    rw [Function.update_self, Function.update_self]
  · rw [Function.update_of_ne hy, Function.update_of_ne hy]

/-- Everything due was served, of a timer that is linked and of one that is not. -/
theorem TimerSysOk.complete (h : TimerSysOk s) {a : Arming} (ha : s.arming x = some a) :
    a.Complete s.served := by
  by_cases hx : x ∈ s.ctx.timers
  · obtain ⟨b, hb, hw⟩ := h.alarms.waits x hx
    obtain rfl : a.alarm = b := Option.some.inj ((alarms_arming ha).symm.trans hb)
    exact hw.complete
  · exact (h.alarms.fired x _ (alarms_arming ha) hx).complete _

/-- An account closed, right and complete. -/
theorem TimerSysOk.closed (h : TimerSysOk s) (x : I) :
    ∀ y, ∀ b ∈ (s.close x).past y, b.arming.Sound b.now ∧ b.arming.Complete b.served := by
  intro y b hb
  have hb : b ∈ update s.past x _ y := hb
  by_cases hy : y = x
  · subst hy
    rw [Function.update_self] at hb
    rcases List.mem_append.mp hb with hb | hb
    · obtain ⟨a, ha, rfl⟩ := List.mem_map.mp hb
      have ha := Option.mem_toList.mp ha
      exact ⟨h.sound y a ha, h.complete ha⟩
    · exact h.past y b hb
  · rw [Function.update_of_ne hy] at hb
    exact h.past y b hb

theorem TimerSysOk.cancel (h : TimerSysOk s) (x : I) :
    TimerSysOk { s.close x with ctx := (fxTimerInternalCancel s.ctx x).2 } where
  alarms := by
    rw [fxTimerInternalCancel_ctx]
    have hbook : (s.close x).alarms = s.alarms.cancel x :=
      alarms_update (s := s) (q := s.close x) rfl rfl
    have hcan := h.alarms.cancel x
    rw [← hbook] at hcan
    exact hcan
  handler := h.handler
  calls c hc := ⟨(h.calls c hc).ticks, (h.calls c hc).past, (h.calls c hc).inHandler⟩
  sound y a ha := by
    have ha : update s.arming x none y = some a := ha
    by_cases hy : y = x
    · subst hy
      rw [Function.update_self] at ha
      cases ha
    · rw [Function.update_of_ne hy] at ha
      exact h.sound y a ha
  past := h.closed x
  stray := h.stray

theorem TimerSysOk.read (h : TimerSysOk s) {delay period : RelTimeout}
    (hd : s.handler = true → 1 ≤ delay.val.toNat) :
    TimerSysOk { s with
      calls := s.calls ++ [⟨x, delay, period, s.ctx.ticks, s.handler, s.now⟩] } where
  alarms := h.alarms
  handler := h.handler
  calls c hc := by
    rcases List.mem_append.mp hc with hc | hc
    · exact ⟨(h.calls c hc).ticks, (h.calls c hc).past, (h.calls c hc).inHandler⟩
    · obtain rfl := List.mem_singleton.mp hc
      exact ⟨h.alarms.ticks, Nat.le_refl _, fun hh => ⟨hh, Nat.lt_add_of_pos_right (hd hh)⟩⟩
  sound := h.sound
  past := h.past
  stray := h.stray

/-- **The second section**, if what it inserts fits. -/
theorem TimerSysOk.arm (h : TimerSysOk s) {c : RelCall I} (hc : c ∈ s.calls)
    (hown : c.inHandler = s.handler) (hlow : s.served < c.deadline + halfRange)
    (hfit : Fits s.next (s.ctx.timers.erase c.timer) c.deadline) (n : Nat) :
    TimerSysOk { s.arm c with calls := s.calls.eraseIdx n } where
  alarms := by
    obtain ⟨hticks, hpast, hin⟩ := h.calls c hc
    have hlt := c.delay.lt
    have hafter : s.served ≤ s.now := h.alarms.after
    have hbefore : s.now ≤ s.served + 1 := h.alarms.before
    have hv : c.ticks + c.delay.val = BitVec.ofNat 32 c.deadline := by
      unfold RelCall.deadline
      rw [hticks, BitVec.ofNat_add, BitVec.ofNat_toNat, BitVec.setWidth_eq]
    -- outside the handler the next run is the first one, inside it is the one at the deadline
    have hrun : s.served + 1 = s.now + 1 ∨ s.now + 1 ≤ c.deadline := by
      cases hh : s.handler with
      | false =>
        left
        unfold TimerSys.served
        rw [hh]
        rfl
      | true => exact Or.inr (hin (hown.trans hh)).2
    have hbook : (s.arm c).alarms =
        s.alarms.arm c.timer ⟨s.now + 1, c.deadline, c.period.val.toNat, []⟩ := by
      rw [alarms_update (s := s) (q := s.arm c) rfl rfl]
      simp only [Option.map_some, Arming.alarm, Arming.deadline, List.length_nil, Nat.zero_mul,
        Nat.add_zero]
      rfl
    have harm := h.alarms.arm c.timer (f := s.now + 1) hv c.period.lt hlow
      (by unfold RelCall.deadline halfRange; unfold fxTimerMaxRelativeTimeout at hlt; omega)
      (by omega) (by omega) (by rw [alarms_next]; exact hfit)
    rw [← hbook] at harm
    exact harm
  handler := h.handler
  calls b hb := by
    have hb := h.calls b (List.mem_of_mem_eraseIdx hb)
    exact ⟨hb.ticks, hb.past, hb.inHandler⟩
  sound y a ha := by
    have ha : update s.arming c.timer _ y = some a := ha
    by_cases hy : y = c.timer
    · subst hy
      rw [Function.update_self] at ha
      obtain rfl := Option.some.inj ha
      exact fun k v hv => by cases hv
    · rw [Function.update_of_ne hy] at ha
      exact h.sound y a ha
  past := h.closed c.timer
  stray := h.stray

theorem fire_of_arming {a : Arming} (h : s.arming x = some a) : s.fire x = { s with
    arming := update s.arming x (some { a with fired := a.fired ++ [s.now] }) } := by
  unfold TimerSys.fire
  rw [h]

/-- **The head is called back** for the deadline it waited for. -/
theorem TimerSysOk.fire (h : TimerSysOk s) (hh : s.handler = true) {c : TimerContext I}
    (ht : fxTickTake s.ctx = some (x, c))
    (hfit : ∀ q ∈ s.reinserts, Fits s.next q.1 q.2) : TimerSysOk { s.fire x with ctx := c } := by
  obtain ⟨rest, hl, hdue, _⟩ := fxTickTake_some ht
  have hx : x ∈ s.ctx.timers := hl ▸ List.mem_cons_self
  have hn : s.now = s.served + 1 := h.handler hh
  obtain ⟨b, hb, hw⟩ := h.alarms.waits x hx
  obtain ⟨a, ha, rfl⟩ := Option.map_eq_some_iff.mp hb
  have hfire := fire_of_arming ha
  have htake := h.alarms.take hn ht fun rest' hl' hp => by
    have hre : (rest', s.next x + (s.ctx.timer x).period.toNat) ∈ s.reinserts := by
      unfold TimerSys.reinserts
      rw [hl']
      exact Option.mem_def.mpr (if_pos ⟨hdue, hp⟩)
    rw [alarms_next]
    exact hfit _ hre
  have hbook : (s.fire x).alarms = s.alarms.fire x := by
    rw [alarms_update (s := s) (x := x) (q := s.fire x) (by rw [hfire]) (by rw [hfire])]
    unfold Alarms.fire
    rw [alarms_arming ha, Option.map_some, Option.map_some, Arming.alarm_fire]
    rfl
  have hdead : a.deadline a.fired.length ≤ s.served + 1 := by
    have hle := (h.alarms.due_iff hn hx).mp hdue
    rw [Alarms.next_of hb] at hle
    exact hn ▸ hle
  have hhas : a.HasDeadline a.fired.length := by
    by_cases hp : a.p = 0
    · exact Or.inl (by rw [show a.fired = [] from hw.fresh hp]; rfl)
    · exact Or.inr hp
  have hsound := (h.sound x a ha).fire hhas ((hw.due_eq hdead).trans hn.symm)
  rw [hfire] at hbook ⊢
  refine ⟨?_, h.handler, fun c hc => ?_, fun y b hy => ?_, h.past, h.stray⟩
  · rw [← hbook] at htake
    exact htake
  · exact ⟨(h.calls c hc).ticks, (h.calls c hc).past, (h.calls c hc).inHandler⟩
  · have hy : update s.arming x _ y = some b := hy
    by_cases hyx : y = x
    · subst hyx
      rw [Function.update_self] at hy
      obtain rfl := Option.some.inj hy
      exact hsound
    · rw [Function.update_of_ne hyx] at hy
      exact h.sound y b hy

/-- **A round of the handler**, if what it puts back fits. -/
theorem TimerSysOk.round (h : TimerSysOk s) (hh : s.handler = true)
    (hcalls : ∀ c ∈ s.calls, c.inHandler = false)
    (hfit : ∀ q ∈ s.reinserts, Fits s.next q.1 q.2) : TimerSysOk s.round := by
  unfold TimerSys.round
  cases ht : fxTickTake s.ctx with
  | none =>
    have hn : s.now = s.served + 1 := h.handler hh
    have hdone := h.alarms.done hn ht
    rw [← hn] at hdone
    refine ⟨hdone, (fun hf => by cases hf), fun c hc => ?_, h.sound, h.past, h.stray⟩
    refine ⟨(h.calls c hc).ticks, (h.calls c hc).past, fun hin => ?_⟩
    cases (hcalls c hc).symm.trans hin
  | some xc => exact h.fire hh ht hfit

/-- The tick. -/
theorem TimerSysOk.ticked (h : TimerSysOk s) (hh : s.handler = false) :
    TimerSysOk s.ticked ∧ ∀ c ∈ s.calls, c.inHandler = false := by
  have hserved : s.served = s.now := by
    unfold TimerSys.served
    rw [hh]
    rfl
  have hcalls : ∀ c ∈ s.calls, c.inHandler = false := fun c hc =>
    Bool.eq_false_iff.mpr fun hin => by cases hh.symm.trans ((h.calls c hc).inHandler hin).1
  refine ⟨⟨?_, fun _ => rfl, fun c hc => ?_, fun x a ha => ?_, h.past, h.stray⟩, hcalls⟩
  · have hal := h.alarms
    rw [hserved] at hal
    exact hal.tick rfl
  · refine ⟨(h.calls c hc).ticks, Nat.le_succ_of_le (h.calls c hc).past, fun hin => ?_⟩
    cases (hcalls c hc).symm.trans hin
  · exact (h.sound x a ha).mono (Nat.le_succ _)

/-- **One step** whose insertion fits. -/
theorem TimerSysOk.step {a : TimerAct I} (h : TimerSysOk s) (hd : CallbackDelays s a)
    (hfit : RelFits s a) (hs : timerStep a s = some s') : TimerSysOk s' := by
  cases a with
  | cancel x =>
    cases hs
    exact h.cancel x
  | read x delay period =>
    cases hs
    exact h.read hd
  | arm n =>
    cases hc : s.calls[n]? with
    | none => simp [timerStep, hc] at hs
    | some c =>
      simp only [timerStep, hc] at hs
      obtain ⟨hown, rfl⟩ := taken hs
      obtain ⟨hlow, hfits⟩ := hfit (s.ctx.timers.erase c.timer, c.deadline)
        (Option.mem_map.mpr ⟨c, hc, rfl⟩)
      exact h.arm (List.mem_of_getElem? hc) hown hlow hfits n
  | tick =>
    obtain ⟨hh, hs⟩ := Option.ite_none_left_eq_some.mp hs
    cases hs
    obtain ⟨ht, hcalls⟩ := h.ticked (Bool.not_eq_true _ ▸ hh)
    exact ht.round rfl hcalls fun q hq => (hfit q hq).2
  | next =>
    obtain ⟨⟨hh, hall⟩, rfl⟩ := taken hs
    refine h.round hh (fun c hc => ?_) fun q hq => (hfit q hq).2
    have hno := List.all_eq_true.mp hall c hc
    exact Bool.not_eq_true' _ ▸ hno

theorem timerStart_ok (ticks : BitVec 32) : TimerSysOk (timerStart ticks : TimerSys I) := by
  refine ⟨⟨?_, ?_, Nat.le_refl _, Nat.le_succ _, List.nodup_nil, List.Pairwise.nil, fun x hx => ?_,
    fun x a ha => ?_⟩, fun hh => ?_, fun c hc => ?_, fun x a ha => ?_, fun x b hb => ?_, rfl⟩
  · show ticks = BitVec.ofNat 32 (ticks.toNat + 2 * halfRange)
    rw [BitVec.ofNat_add, BitVec.ofNat_toNat, BitVec.setWidth_eq]
    exact (BitVec.add_zero ticks).symm
  · show halfRange ≤ ticks.toNat + 2 * halfRange
    omega
  · cases hx
  · cases ha
  · cases hh
  · cases hc
  · cases ha
  · cases hb

/-! ## 5. The handler ends -/

theorem backlog_erase (c : TimerContext I) (x : I) :
    backlog { c with timers := c.timers.erase x } ≤ backlog c := by
  by_cases hx : x ∈ c.timers
  · have hsum := List.sum_map_erase (fun y => overdue c.ticks (c.timer y).timeout) hx
    unfold backlog
    dsimp only
    omega
  · rw [List.erase_of_not_mem hx]

/-- A timer armed for later adds nothing. -/
theorem backlog_setAbs {c : TimerContext I} (hn : c.timers.Nodup) (x : I) {d p : BitVec 32}
    (h : overdue c.ticks d = 0) : backlog (fxTimerInternalSetAbs c x d p).2 ≤ backlog c := by
  have hctx := fxTimerInternalSetAbs_ctx c x d p
  have hperm : (fxTimerInternalSetAbs c x d p).2.timers.Perm (x :: c.timers.erase x) :=
    hctx ▸ List.perm_orderedInsert ..
  have hticks : (fxTimerInternalSetAbs c x d p).2.ticks = c.ticks := by rw [hctx]; rfl
  have htimer : (fxTimerInternalSetAbs c x d p).2.timer = update c.timer x ⟨d, p⟩ := by
    rw [hctx]
    rfl
  have hrest :
      ((c.timers.erase x).map fun y => overdue c.ticks (update c.timer x ⟨d, p⟩ y).timeout) =
        (c.timers.erase x).map fun y => overdue c.ticks (c.timer y).timeout := by
    refine List.map_congr_left fun y hy => ?_
    rw [Function.update_of_ne (hn.mem_erase_iff.mp hy).1]
  refine Nat.le_trans (Nat.le_of_eq ?_) (backlog_erase c x)
  unfold backlog
  rw [hticks, htimer, (hperm.map _).sum_eq, List.map_cons, List.sum_cons, hrest,
    Function.update_self, h, Nat.zero_add]

/-- **Every round brings the end of the handler nearer**, and nothing puts it off. -/
theorem TimerSysOk.backlog_step {a : TimerAct I} (h : TimerSysOk s) (hh : s.handler = true)
    (hh' : s'.handler = true) (hs : timerStep a s = some s') :
    backlog s'.ctx ≤ backlog s.ctx ∧ (a = .next → backlog s'.ctx < backlog s.ctx) := by
  cases a with
  | cancel x =>
    cases hs
    rw [fxTimerInternalCancel_ctx]
    exact ⟨backlog_erase s.ctx x, nofun⟩
  | read x delay period =>
    cases hs
    exact ⟨Nat.le_refl _, nofun⟩
  | arm n =>
    cases hc : s.calls[n]? with
    | none => simp [timerStep, hc] at hs
    | some c =>
      simp only [timerStep, hc] at hs
      obtain ⟨hown, rfl⟩ := taken hs
      obtain ⟨hticks, hpast, hin⟩ := h.calls c (List.mem_of_getElem? hc)
      have hlate := (hin (hown.trans hh)).2
      have hlt := c.delay.lt
      refine ⟨backlog_setAbs h.alarms.nodup c.timer ?_, nofun⟩
      have hnow : s.ctx.ticks = BitVec.ofNat 32 s.now := h.alarms.ticks
      have hword : c.ticks + c.delay.val = BitVec.ofNat 32 c.deadline := by
        unfold RelCall.deadline
        rw [hticks, BitVec.ofNat_add, BitVec.ofNat_toNat, BitVec.setWidth_eq]
      unfold overdue fxTimerTimeAfterOrEq
      rw [hnow, hword]
      unfold RelCall.deadline at hlate ⊢
      unfold fxTimerMaxRelativeTimeout at hlt
      rw [if_neg fun hle => ?_]
      have hle := (circLe_ofNat (by omega) (by omega)).mp hle
      omega
  | tick =>
    obtain ⟨hno, _⟩ := Option.ite_none_left_eq_some.mp hs
    exact absurd hh hno
  | next =>
    obtain ⟨_, rfl⟩ := taken hs
    unfold TimerSys.round at hh' ⊢
    cases ht : fxTickTake s.ctx with
    | none =>
      rw [ht] at hh'
      cases hh'
    | some xc =>
      have hlt := (h.alarms.serviceable.take ht).2
      exact ⟨Nat.le_of_lt hlt, fun _ => hlt⟩

/-! ## 6. Calls that are not overtaken -/

/-- The deadlines lie in a window of less than half the range of the counter. -/
def TimerSys.Window (s : TimerSys I) : Prop :=
  ∀ x ∈ s.ctx.timers, s.served ≤ s.next x ∧ s.next x < s.now + fxTimerMaxRelativeTimeout

theorem TimerSys.Window.fits (hw : s.Window) (h : TimerSysOk s) {l : List I} (hl : l ⊆ s.ctx.timers)
    {v : Nat} (hlow : s.served ≤ v) (hhigh : v < s.now + fxTimerMaxRelativeTimeout) :
    s.served < v + halfRange ∧ Fits s.next l v := by
  have hbefore : s.now ≤ s.served + 1 := h.alarms.before
  unfold TimerSys.Window at hw
  unfold halfRange Fits fxTimerMaxRelativeTimeout at *
  refine ⟨by omega, fun y hy => ?_, fun y hy hlt => ⟨y, hy, hlt, ?_⟩⟩
  · have hyw := hw y (hl hy)
    unfold halfRange
    omega
  · have hyw := hw y (hl hy)
    unfold halfRange
    omega

theorem next_update {q : TimerSys I} {o : Option Arming} (h : q.arming = update s.arming x o)
    {y : I} (hy : y ≠ x) : q.next y = s.next y := by
  unfold TimerSys.next
  rw [h, Function.update_of_ne hy]

theorem next_of_arming {a : Arming} (h : s.arming x = some a) :
    s.next x = a.deadline a.fired.length := by
  unfold TimerSys.next
  rw [h]

/-- Some timers leave the list. -/
theorem TimerSys.Window.subset {q : TimerSys I} {o : Option Arming} (hw : s.Window)
    (hserved : q.served = s.served) (hnow : q.now = s.now) (h : q.arming = update s.arming x o)
    (hl : ∀ y ∈ q.ctx.timers, y ≠ x → y ∈ s.ctx.timers)
    (hx : x ∈ q.ctx.timers → s.served ≤ q.next x ∧ q.next x < s.now + fxTimerMaxRelativeTimeout) :
    q.Window := by
  intro y hy
  rw [hserved, hnow]
  by_cases hyx : y = x
  · subst hyx
    exact hx hy
  · rw [next_update h hyx]
    exact hw y (hl y hy hyx)

/-- A round: nothing is due any more, or the head waits for its next deadline. -/
theorem TimerSys.Window.round (hw : s.Window) (h : TimerSysOk s) (hh : s.handler = true) :
    (∀ q ∈ s.reinserts, s.served < q.2 + halfRange ∧ Fits s.next q.1 q.2) ∧ s.round.Window := by
  have hn : s.now = s.served + 1 := h.handler hh
  -- the head is due now
  have hhead : ∀ x ∈ s.ctx.timers,
      fxTimerTimeAfterOrEq s.ctx.ticks (s.ctx.timer x).timeout = true →
      s.served ≤ s.next x + (s.ctx.timer x).period.toNat ∧
        s.next x + (s.ctx.timer x).period.toNat < s.now + fxTimerMaxRelativeTimeout := by
    intro x hx hdue
    have hle := (h.alarms.due_iff hn hx).mp hdue
    rw [alarms_next] at hle
    have hshort := h.alarms.serviceable.short x hx
    have hlow := (hw x hx).1
    have hle : s.next x ≤ s.now := hle
    omega
  refine ⟨fun q hq => ?_, ?_⟩
  · unfold TimerSys.reinserts at hq
    cases hl : s.ctx.timers with
    | nil =>
      rw [hl] at hq
      cases hq
    | cons x rest =>
      rw [hl] at hq
      obtain ⟨⟨hdue, _⟩, he⟩ := Option.ite_none_right_eq_some.mp (Option.mem_def.mp hq)
      obtain rfl := Option.some.inj he
      obtain ⟨hlow, hhigh⟩ := hhead x (hl ▸ List.mem_cons_self) hdue
      exact hw.fits h (hl ▸ List.subset_cons_self ..) hlow hhigh
  · unfold TimerSys.round
    cases ht : fxTickTake s.ctx with
    | none =>
      intro y hy
      have hlate := h.alarms.none_due hn ht hy
      rw [alarms_next] at hlate
      have hhigh := (hw y hy).2
      exact ⟨hn ▸ Nat.le_of_lt hlate, hhigh⟩
    | some xc =>
      obtain ⟨x, c⟩ := xc
      obtain ⟨rest, hl, hdue, hc⟩ := fxTickTake_some ht
      have hx : x ∈ s.ctx.timers := hl ▸ List.mem_cons_self
      obtain ⟨b, hb, hwait⟩ := h.alarms.waits x hx
      obtain ⟨a, ha, rfl⟩ := Option.map_eq_some_iff.mp hb
      have hfire := fire_of_arming ha
      have hnext : (s.fire x).next x = s.next x + (s.ctx.timer x).period.toNat := by
        rw [next_of_arming (s := s.fire x) (by rw [hfire]; exact Function.update_self ..),
          next_of_arming ha, hwait.period]
        exact congrArg Alarm.deadline (Arming.alarm_fire a s.now)
      have hmem : ∀ y ∈ c.timers, y ≠ x → y ∈ s.ctx.timers := by
        intro y hy hne
        rw [hl]
        rw [hc] at hy
        split at hy
        · exact List.mem_cons_of_mem x ((mem_fxTimerInsert.mp hy).resolve_left hne)
        · exact List.mem_cons_of_mem x hy
      refine hw.subset (x := x) (q := { s.fire x with ctx := c })
        (o := some { a with fired := a.fired ++ [s.now] }) ?_ ?_ ?_ hmem fun _ => ?_
      · rw [hfire]
        rfl
      · rw [hfire]
      · rw [hfire]
      · show s.served ≤ (s.fire x).next x ∧ (s.fire x).next x < _
        rw [hnext]
        exact hhead x hx hdue

/-- **One step**, without a call overtaken: what it inserts fits. -/
theorem TimerSys.Window.step {a : TimerAct I} (hw : s.Window) (h : TimerSysOk s)
    (hp : Promptly s a) (hs : timerStep a s = some s') : RelFits s a ∧ s'.Window := by
  have hafter : s.served ≤ s.now := h.alarms.after
  cases a with
  | cancel x =>
    cases hs
    refine ⟨nofun, hw.subset (x := x) rfl rfl rfl (fun y hy _ => ?_) fun hy => ?_⟩
    · rw [fxTimerInternalCancel_ctx] at hy
      exact List.mem_of_mem_erase hy
    · rw [fxTimerInternalCancel_ctx] at hy
      exact absurd hy h.alarms.nodup.not_mem_erase
  | read x delay period =>
    cases hs
    exact ⟨nofun, hw⟩
  | arm n =>
    cases hc : s.calls[n]? with
    | none => simp [timerStep, hc] at hs
    | some c =>
      simp only [timerStep, hc] at hs
      obtain ⟨_, rfl⟩ := taken hs
      have hlow : s.now ≤ c.deadline := hp c hc
      have hpast := (h.calls c (List.mem_of_getElem? hc)).past
      have hlt := c.delay.lt
      have hhigh : c.deadline < s.now + fxTimerMaxRelativeTimeout := by
        unfold RelCall.deadline
        omega
      refine ⟨fun q hq => ?_, hw.subset (x := c.timer) rfl rfl rfl (fun y hy hne => ?_) fun _ => ?_⟩
      · obtain ⟨c', hc', rfl⟩ := Option.mem_map.mp hq
        obtain rfl := Option.some.inj (hc.symm.trans hc')
        exact hw.fits h List.erase_subset (Nat.le_trans hafter hlow) hhigh
      · have hy : y ∈ (fxTimerInternalSetAbs s.ctx c.timer _ _).2.timers := hy
        rw [fxTimerInternalSetAbs_ctx] at hy
        exact List.mem_of_mem_erase ((mem_fxTimerInsert.mp hy).resolve_left hne)
      · rw [next_of_arming (Function.update_self ..)]
        show s.served ≤ c.deadline + 0 * _ ∧ c.deadline + 0 * _ < _
        omega
  | tick =>
    obtain ⟨hh, hs⟩ := Option.ite_none_left_eq_some.mp hs
    cases hs
    have hh := Bool.not_eq_true _ ▸ hh
    have hserved : s.ticked.served = s.served := by
      unfold TimerSys.served
      rw [hh]
      rfl
    have hticked : s.ticked.Window := fun y hy => ⟨hserved ▸ (hw y hy).1,
      Nat.lt_of_lt_of_le (hw y hy).2 (Nat.add_le_add_right (Nat.le_succ _) _)⟩
    obtain ⟨hfits, hround⟩ := hticked.round (h.ticked hh).1 rfl
    refine ⟨fun q hq => ?_, hround⟩
    rw [← hserved]
    exact hfits q hq
  | next =>
    obtain ⟨⟨hh, _⟩, rfl⟩ := taken hs
    exact hw.round h hh

end Schritte

/-! ## 7. Every run -/

section Lauf

variable {I : Type} [DecidableEq I] {s : TimerSys I}

/-- **Without a call overtaken, every insertion fits.** -/
theorem promptly_fits {ticks : BitVec 32}
    (h : Reach timerStep (fun s a => CallbackDelays s a ∧ Promptly s a) (timerStart ticks) s) :
    Reach timerStep (fun s a => CallbackDelays s a ∧ RelFits s a) (timerStart ticks) s := by
  have hrun : TimerSysOk s ∧ s.Window ∧
      Reach timerStep (fun s a => CallbackDelays s a ∧ RelFits s a) (timerStart ticks) s := by
    refine h.inv (J := fun s => TimerSysOk s ∧ s.Window ∧ Reach timerStep
      (fun s a => CallbackDelays s a ∧ RelFits s a) (timerStart ticks) s)
      ⟨timerStart_ok ticks, nofun, .start⟩ fun s a s' hi hg hs => ?_
    obtain ⟨hok, hw, hr⟩ := hi
    obtain ⟨hfits, hw'⟩ := hw.step hok hg.2 hs
    exact ⟨hok.step hg.1 hfits hs, hw', hr.next a ⟨hg.1, hfits⟩ hs⟩
  exact hrun.2.2

/-- **Timers fire exactly on time**, in every run in which what is inserted fits: each armed timer
    was called back once for each deadline that was due, at the tick it was due, and not otherwise;
    accounts closed before were right and complete; no timer was called back that was not armed; and
    the tick handler does not call back for ever. -/
theorem timers_fire_on_time {ticks : BitVec 32}
    (h : Reach timerStep (fun s a => CallbackDelays s a ∧ RelFits s a) (timerStart ticks) s) :
    s.ctx.ticks = BitVec.ofNat 32 s.now ∧
    (∀ x a, s.arming x = some a → a.Sound s.now ∧ a.Complete s.served) ∧
    (∀ x, ∀ b ∈ s.past x, b.arming.Sound b.now ∧ b.arming.Complete b.served) ∧
    s.stray = [] ∧
    ∀ (f : Nat → TimerSys I) (acts : Nat → TimerAct I), f 0 = s →
      (∀ n, CallbackDelays (f n) (acts n) ∧ RelFits (f n) (acts n) ∧
        timerStep (acts n) (f n) = some (f (n + 1))) →
      (∀ n, (f n).handler = true) → ∃ m, ∀ n, m ≤ n → acts n ≠ .next := by
  have hok : TimerSysOk s := h.inv (J := TimerSysOk) (timerStart_ok ticks)
    fun _ _ _ hi hg hs => hi.step hg.1 hg.2 hs
  refine ⟨hok.alarms.ticks, fun x a ha => ⟨hok.sound x a ha, hok.complete ha⟩, hok.past, hok.stray,
    fun f acts h0 hsteps hin => ?_⟩
  have hall : ∀ n, TimerSysOk (f n) := by
    intro n
    induction n with
    | zero => exact h0 ▸ hok
    | succ n ih =>
      obtain ⟨hd, hfit, hs⟩ := hsteps n
      exact ih.step hd hfit hs
  have hlower := fun n => (hall n).backlog_step (hin n) (hin (n + 1)) (hsteps n).2.2
  exact finitely_often (g := fun n => backlog (f n).ctx) (fun n => (hlower n).1)
    fun n => (hlower n).2

end Lauf

/-- Executes the actions that satisfy the conditions of the theorem. -/
def runFits (acts : List (TimerAct Nat)) (ticks : BitVec 32) : Option (TimerSys Nat) :=
  runIf (fun s a => decide (CallbackDelays s a ∧ RelFits s a)) timerStep acts (timerStart ticks)

/-- A periodic timer over the wrap-around of the counter, whose first callback arms another one;
    that one is armed again by a call that a tick comes in between. -/
theorem timers_fire_on_time_wrapped : ∃ s : TimerSys Nat,
    Reach timerStep (fun s a => CallbackDelays s a ∧ RelFits s a) (timerStart 0xFFFFFFFE#32) s ∧
    s.ctx.ticks = 3#32 ∧ s.handler = false ∧
    (∃ a, s.arming 0 = some a ∧ a.fired = [0x200000001, 0x200000003]) ∧
    (∃ a, s.arming 1 = some a ∧ a.t + 1 = a.armed ∧ a.fired = [0x200000003]) ∧
    (∀ x a, s.arming x = some a → a.Sound s.now ∧ a.Complete s.served) := by
  let d : Nat → RelTimeout := fun n => ⟨BitVec.ofNat 32 (n % 8), by
    rw [BitVec.toNat_ofNat]
    unfold fxTimerMaxRelativeTimeout
    omega⟩
  let acts : List (TimerAct Nat) :=
    [.read 0 (d 3) (d 2), .arm 0, .tick, .tick, .tick, .read 1 (d 5) (d 0), .arm 0, .next,
      .read 1 (d 2) (d 0), .tick, .arm 0, .tick, .next, .next]
  have hrun : (runFits acts 0xFFFFFFFE#32).any (fun s => s.ctx.ticks = 3#32 ∧ s.handler = false ∧
      (s.arming 0).any (fun a => a.fired = [0x200000001, 0x200000003]) ∧
      (s.arming 1).any (fun a => a.t + 1 = a.armed ∧ a.fired = [0x200000003])) = true := by
    decide +kernel
  obtain ⟨s, hr, hp⟩ := exists_of_runIf (fun _ _ hg => of_decide_eq_true hg) hrun
  obtain ⟨hticks, hh, h0, h1⟩ := of_decide_eq_true hp
  obtain ⟨a, ha, hfa⟩ := (Option.any_eq_true ..).mp h0
  obtain ⟨b, hb, hfb⟩ := (Option.any_eq_true ..).mp h1
  exact ⟨s, hr, hticks, hh, ⟨a, ha, of_decide_eq_true hfa⟩, ⟨b, hb, of_decide_eq_true hfb⟩,
    (timers_fire_on_time hr).2.1⟩

/-- **A timer is skipped**: a call for one tick reads the count 1, and arms its timer at the count
    5, after another one was armed for 0x7FFFFFFE ticks. The next run of the handler is over, and
    did not call it back. -/
theorem set_rel_skipped : ∃ s : TimerSys Nat,
    Reach timerStep CallbackDelays (timerStart 0#32) s ∧ s.handler = false ∧
    ∃ a, s.arming 1 = some a ∧ a.d = 1 ∧ a.due 0 = s.now ∧ ¬ a.Complete s.served := by
  let acts : List (TimerAct Nat) :=
    [.tick, .read 1 ⟨1#32, by decide⟩ ⟨0#32, by decide⟩, .tick, .tick, .tick, .tick,
      .read 0 ⟨0x7FFFFFFE#32, by decide⟩ ⟨0#32, by decide⟩, .arm 1, .arm 0, .tick]
  have hrun : (runIf (fun s a => decide (CallbackDelays s a)) timerStep acts
      (timerStart 0#32)).any (fun s => s.handler = false ∧ (s.arming 1).any (fun a => a.d = 1 ∧
        a.due 0 = s.now ∧ s.served = s.now ∧ a.fired = [])) = true := by
    decide +kernel
  obtain ⟨s, hr, hp⟩ := exists_of_runIf (fun _ _ hg => of_decide_eq_true hg) hrun
  obtain ⟨hh, h1⟩ := of_decide_eq_true hp
  obtain ⟨a, ha, hpa⟩ := (Option.any_eq_true ..).mp h1
  obtain ⟨hd, hdue, hserved, hf⟩ := of_decide_eq_true hpa
  refine ⟨s, hr, hh, a, ha, hd, hdue, fun hc => ?_⟩
  have hlen := hc 0 (Or.inl rfl) (by rw [hdue, hserved])
  rw [hf] at hlen
  cases hlen

end FxRtos
