/-
  File:      FxRtos/Timer/Overdue.lean
  Subject:   NO DEADLINE IS LOST. Timers armed for absolute ticks, which may be over already, and
             threads that wait for theirs in `fx_thread_delay_until`.

  * `alarmStep` -- one critical section: the tick handler is run section by section, and anything
    may happen while it calls back. The rest of the kernel is any system of threads and objects.
  * `overdue_served` -- in every run in which insertions fit, one-shot timers are called back in the
    first run of the handler at or after their deadline, and the threads that wait are resumed.
  * `overdue_lost` -- a run in which a timer three ticks overdue is put behind one that has far to
    go.
-/
import FxRtos.Objects.Sem
import FxRtos.Timer.Alarms

namespace FxRtos

open Function (update)
open Lib

set_option linter.unusedSectionVars false

/-! ## 1. The code, section by section -/

/-- The thread's timer, or another one. -/
inductive TimerId (T J : Type) where
  | thread (t : T)
  | other (j : J)
  deriving DecidableEq

/-- `handler` says that the tick handler runs, `delaying` which threads are in
    `fx_thread_delay_until` and have armed their timers. -/
structure AlarmSys (T J E Q A : Type) where
  ctx : TimerContext (TimerId T J)
  book : Alarms (TimerId T J)
  handler : Bool
  kern : Kern T E Q A
  ph : T → Phase T E Q
  delaying : T → Bool

inductive AlarmAct (T J E Q A : Type) where
  | op (o : AlarmOp (TimerId T J))
  | delayUntil (t : T) (prevWake increment : BitVec 32)
  | delayEnd (t : T)
  | tick
  | next
  | sys (kern : Kern T E Q A) (ph : T → Phase T E Q)

section Maschine

variable {T J E Q A : Type} [DecidableEq T] [DecidableEq J] [DecidableEq E] [DecidableEq Q]

/-- The count that everything due was served up to. -/
def AlarmSys.served (s : AlarmSys T J E Q A) : Nat :=
  if s.handler then s.book.now - 1 else s.book.now

def AlarmSys.exec (s : AlarmSys T J E Q A) (o : AlarmOp (TimerId T J)) : AlarmSys T J E Q A :=
  { s with
    ctx := (o.exec s.served (s.ctx, s.book)).1
    book := (o.exec s.served (s.ctx, s.book)).2 }

/-- The timer of a thread that is in `fx_thread_delay_until` is its own. -/
def AlarmSys.taken (s : AlarmSys T J E Q A) : TimerId T J → Bool
  | .thread t => s.delaying t
  | .other _ => false

/-- The callback of a thread's timer sets its event. -/
def fxTimerCallback (k : Kern T E Q A) : TimerId T J → Kern T E Q A
  | .thread t => fxEventInternalSet k (.timer t)
  | .other _ => k

def Phase.isAwake : Phase T E Q → Bool
  | .awake => true
  | _ => false

/-- `fx_thread_delay_until` up to its wait, with what it leaves in the variable `prev_wake`. -/
def fxThreadDelayUntil (s : AlarmSys T J E Q A) (me : T) (prevWake increment : BitVec 32) :
    BitVec 32 × AlarmSys T J E Q A :=
  if increment.toNat < fxTimerMaxRelativeTimeout then
    (prevWake + increment,
      { ({ s with kern := fxEventInternalReset s.kern (.timer me) }).exec
          (.setAbs (.thread me) (prevWake + increment) oneShot) with
        delaying := update s.delaying me true })
  else (prevWake, s)

/-- One round of the loop of `fx_tick_handler`: it ends, or the head is called back. -/
def fxTickNext (s : AlarmSys T J E Q A) : AlarmSys T J E Q A :=
  match fxTickTake s.ctx with
  | none => { s with handler := false }
  | some (x, c) => { s with ctx := c, book := s.book.fire x, kern := fxTimerCallback s.kern x }

def alarmStep : AlarmAct T J E Q A → AlarmSys T J E Q A → Option (AlarmSys T J E Q A)
  | .op o, s => if s.taken o.timer then none else some (s.exec o)
  | .delayUntil t prevWake increment, s =>
    if s.delaying t = false ∧ (s.ph t).isAwake then
      some (fxThreadDelayUntil s t prevWake increment).2
    else none
  | .delayEnd t, s =>
    if s.delaying t then
      some { s.exec (.cancel (.thread t)) with delaying := update s.delaying t false }
    else none
  | .tick, s =>
    if s.handler then none else some { s with
      ctx := { s.ctx with ticks := s.ctx.ticks + 1 }
      book := { s.book with now := s.book.now + 1 }
      handler := true }
  | .next, s => if s.handler then some (fxTickNext s) else none
  | .sys kern ph, s => some { s with kern := kern, ph := ph }

/-- Everything else in the system keeps the invariants of the kernel, and leaves the event of a
    thread in `fx_thread_delay_until` to its timer. -/
def SysKeeps (s : AlarmSys T J E Q A) (a : AlarmAct T J E Q A) : Prop :=
  match a with
  | .sys kern ph => KernOk kern ph ∧ EvOk kern ∧ (∀ t, ph t ≠ .entering) ∧
      ∀ t, s.delaying t = true → kern.ev (.timer t) = s.kern.ev (.timer t)
  | _ => True

/-- No timer armed, and any tick count, one turn of the counter on. -/
def alarmStart (kern : Kern T E Q A) (ph : T → Phase T E Q) (ticks : BitVec 32) :
    AlarmSys T J E Q A where
  ctx := ⟨[], ticks, fun _ => ⟨0, 0⟩⟩
  book := ⟨ticks.toNat + 2 * halfRange, fun _ => none⟩
  handler := false
  kern := kern
  ph := ph
  delaying _ := false

/-! ## 2. What is inserted -/

/-- The deadline that the next insertion makes, and among which timers. -/
def AlarmSys.inserts (s : AlarmSys T J E Q A) : AlarmAct T J E Q A →
    Option (List (TimerId T J) × Nat)
  | .op o => (o.deadline s.served s.book.now).map (s.ctx.timers.erase o.timer, ·)
  | .delayUntil t prevWake increment =>
    if increment.toNat < fxTimerMaxRelativeTimeout then
      some (s.ctx.timers.erase (.thread t), absolute s.served (prevWake + increment))
    else none
  | .next =>
    match s.ctx.timers with
    | x :: rest =>
      if fxTimerTimeAfterOrEq s.ctx.ticks (s.ctx.timer x).timeout ∧ (s.ctx.timer x).period ≠ 0 then
        some (rest, s.book.next x + (s.ctx.timer x).period.toNat)
      else none
    | [] => none
  | _ => none

/-- **Every insertion fits.** -/
def InsertionFits (s : AlarmSys T J E Q A) (a : AlarmAct T J E Q A) : Prop :=
  ∀ p ∈ s.inserts a, Fits s.book.next p.1 p.2

instance (s : AlarmSys T J E Q A) (a : AlarmAct T J E Q A) : Decidable (InsertionFits s a) :=
  inferInstanceAs (Decidable (∀ p ∈ s.inserts a, Fits s.book.next p.1 p.2))

end Maschine

/-! ## 3. The invariant -/

/-- The timers are served, the kernel is as it should be, and a thread in `fx_thread_delay_until`
    waits for a timer that is armed, or its event is set. -/
structure AlarmSysOk {T J E Q A : Type} [DecidableEq T] [DecidableEq J] [DecidableEq E]
    [DecidableEq Q] (s : AlarmSys T J E Q A) : Prop where
  alarms : AlarmsOk s.served s.ctx s.book
  handler : s.handler = true → s.book.now = s.served + 1
  kern : KernOk s.kern s.ph
  ev : EvOk s.kern
  ph : ∀ t, s.ph t ≠ .entering
  delay : ∀ t, s.delaying t = true → (∃ a, s.book.alarm (.thread t) = some a) ∧
    (.thread t ∈ s.ctx.timers ∨ s.kern.ev (.timer t) = true)

section System

variable {T J E Q A : Type} [DecidableEq T] [DecidableEq J] [DecidableEq E] [DecidableEq Q]
  {s s' : AlarmSys T J E Q A} {t : T}

/-- An operation on one timer leaves the others linked or not, and their accounts. -/
theorem exec_other {I : Type} [DecidableEq I] {m : Nat} (o : AlarmOp I) {c : TimerContext I}
    {r : Alarms I} {y : I} (hy : y ≠ o.timer) :
    (o.exec m (c, r)).2.alarm y = r.alarm y ∧
      (y ∈ c.timers → y ∈ (o.exec m (c, r)).1.timers) := by
  cases o with
  | cancel x =>
    refine ⟨Function.update_of_ne hy .., fun hin => ?_⟩
    show y ∈ (fxTimerInternalCancel c x).2.timers
    rw [fxTimerInternalCancel_ctx]
    exact (List.mem_erase_of_ne hy).mpr hin
  | setRel x delay period =>
    refine ⟨Function.update_of_ne hy .., fun hin => ?_⟩
    show y ∈ (fxTimerInternalSetAbs c x _ _).2.timers
    rw [fxTimerInternalSetAbs_ctx]
    exact (List.mem_orderedInsert _).mpr (Or.inr ((List.mem_erase_of_ne hy).mpr hin))
  | setAbs x delay period =>
    refine ⟨Function.update_of_ne hy .., fun hin => ?_⟩
    show y ∈ (fxTimerInternalSetAbs c x _ _).2.timers
    rw [fxTimerInternalSetAbs_ctx]
    exact (List.mem_orderedInsert _).mpr (Or.inr ((List.mem_erase_of_ne hy).mpr hin))

/-- Arming links the timer. -/
theorem setAbs_linked {I : Type} [DecidableEq I] (c : TimerContext I) (x : I) (d p : BitVec 32) :
    x ∈ (fxTimerInternalSetAbs c x d p).2.timers := by
  rw [fxTimerInternalSetAbs_ctx]
  exact (List.mem_orderedInsert _).mpr (Or.inl rfl)

/-- The event a callback sets is set, and no other is cleared. -/
theorem eventSet_ev {k : Kern T E Q A} {e e' : Ev T E} (h : e' = e ∨ k.ev e' = true) :
    (fxEventInternalSet k e).ev e' = true := by
  unfold fxEventInternalSet
  split
  · rename_i he
    rcases h with rfl | h
    · exact he
    · exact h
  · have hm : Moves IsEv NoOne { k with ev := update k.ev e true }
        (fxSyncWaitNotifyAll { k with ev := update k.ev e true } (.ev e) .satisfied) :=
      Moves.notifyAll (w := .ev e) trivial (Or.inl rfl) _
    rw [hm.ev]
    show update k.ev e true e' = true
    by_cases hee : e' = e
    · rw [hee, Function.update_self]
    · rw [Function.update_of_ne hee]
      exact h.resolve_left hee

theorem AlarmSysOk.exec (h : AlarmSysOk s) {o : AlarmOp (TimerId T J)}
    (hown : s.taken o.timer = false)
    (hfit : ∀ v ∈ o.deadline s.served s.book.now, Fits s.book.next (s.ctx.timers.erase o.timer) v) :
    AlarmSysOk (s.exec o) := by
  have hnow : (s.exec o).book.now = s.book.now := by cases o <;> rfl
  have hserved : (s.exec o).served = s.served := by
    unfold AlarmSys.served
    rw [hnow]
    rfl
  refine ⟨?_, fun hh => ?_, h.kern, h.ev, h.ph, fun t ht => ?_⟩
  · rw [hserved]
    exact h.alarms.exec o hfit
  · rw [hnow, hserved]
    exact h.handler hh
  · have hne : (.thread t : TimerId T J) ≠ o.timer := by
      intro he
      rw [← he] at hown
      cases hown.symm.trans (show s.delaying t = true from ht)
    obtain ⟨halarm, hlinked⟩ := exec_other (m := s.served) o (c := s.ctx) (r := s.book) hne
    obtain ⟨⟨a, ha⟩, hset⟩ := h.delay t ht
    exact ⟨⟨a, halarm.trans ha⟩, hset.imp_left hlinked⟩

theorem AlarmSysOk.delayUntil (h : AlarmSysOk s) {prevWake increment : BitVec 32}
    (hd : s.delaying t = false)
    (hfit : increment.toNat < fxTimerMaxRelativeTimeout → Fits s.book.next
      (s.ctx.timers.erase (.thread t)) (absolute s.served (prevWake + increment))) :
    AlarmSysOk (fxThreadDelayUntil s t prevWake increment).2 := by
  unfold fxThreadDelayUntil
  split
  · rename_i hinc
    have hcalm := Calm.eventReset h.kern (.timer t)
    have h1 : AlarmSysOk { s with kern := fxEventInternalReset s.kern (.timer t) } := by
      refine ⟨h.alarms, h.handler, hcalm.ok, hcalm.ev h.ev, h.ph, fun u hu => ?_⟩
      have hut : (.timer u : Ev T E) ≠ .timer t := by
        intro he
        cases he
        cases hd.symm.trans hu
      obtain ⟨ha, hset⟩ := h.delay u hu
      exact ⟨ha, hset.imp_right fun hev => (Function.update_of_ne hut ..).trans hev⟩
    have h2 := h1.exec (o := .setAbs (.thread t) (prevWake + increment) oneShot) hd
      fun v hv => by
        obtain rfl := Option.some.inj (Option.mem_def.mp hv)
        exact hfit hinc
    refine ⟨h2.alarms, h2.handler, h2.kern, h2.ev, h2.ph, fun u hu => ?_⟩
    by_cases hut : u = t
    · subst hut
      exact ⟨⟨_, Function.update_self ..⟩, Or.inl (setAbs_linked ..)⟩
    · have hu' : s.delaying u = true := (Function.update_of_ne hut ..).symm.trans hu
      exact h2.delay u hu'
  · exact h

/-- The tick handler calls back the timer at the head. -/
theorem AlarmSysOk.called (h : AlarmSysOk s) (hh : s.handler = true) {x : TimerId T J}
    {c : TimerContext (TimerId T J)} (ht : fxTickTake s.ctx = some (x, c))
    (hfit : ∀ rest, s.ctx.timers = x :: rest → (s.ctx.timer x).period ≠ 0 →
      Fits s.book.next rest (s.book.next x + (s.ctx.timer x).period.toNat)) :
    AlarmSysOk { s with ctx := c, book := s.book.fire x, kern := fxTimerCallback s.kern x } := by
  have hn := h.handler hh
  have halarms := h.alarms.take hn ht hfit
  have hkern : KernOk (fxTimerCallback s.kern x) s.ph ∧ EvOk (fxTimerCallback s.kern x) := by
    cases x with
    | thread u => exact ⟨h.kern.eventSet h.ph _, h.ev.eventSet _⟩
    | other j => exact ⟨h.kern, h.ev⟩
  refine ⟨halarms, hh ▸ h.handler, hkern.1, hkern.2, h.ph, fun t hd => ?_⟩
  obtain ⟨⟨a, ha⟩, hset⟩ := h.delay t hd
  obtain ⟨rest, hl, _, hc⟩ := fxTickTake_some ht
  by_cases htx : (.thread t : TimerId T J) = x
  · -- its own timer, whose callback sets the event
    subst htx
    refine ⟨⟨a.fire s.book.now, ?_⟩, Or.inr (eventSet_ev (Or.inl rfl))⟩
    show update s.book.alarm _ _ _ = _
    rw [Function.update_self, ha]
    rfl
  · refine ⟨⟨a, (Function.update_of_ne htx ..).trans ha⟩, ?_⟩
    rcases hset with hin | hev
    · left
      have hrest : .thread t ∈ rest := (List.mem_cons.mp (hl ▸ hin)).resolve_left htx
      show .thread t ∈ c.timers
      rw [hc]
      split
      · exact (List.mem_orderedInsert _).mpr (Or.inr hrest)
      · exact hrest
    · right
      cases x with
      | thread u => exact eventSet_ev (Or.inr hev)
      | other j => exact hev

/-- **One step** whose insertion fits. -/
theorem AlarmSysOk.step {a : AlarmAct T J E Q A} (h : AlarmSysOk s) (hsys : SysKeeps s a)
    (hfit : InsertionFits s a) (hs : alarmStep a s = some s') : AlarmSysOk s' := by
  cases a with
  | op o =>
    simp only [alarmStep] at hs
    split at hs
    · cases hs
    · rename_i hown
      cases hs
      refine h.exec (Bool.eq_false_iff.mpr hown) fun v hv => ?_
      have hins : (s.ctx.timers.erase o.timer, v) ∈ s.inserts (.op o) :=
        Option.mem_map.mpr ⟨v, hv, rfl⟩
      exact hfit _ hins
  | delayUntil t prevWake increment =>
    obtain ⟨⟨hd, _⟩, rfl⟩ := taken hs
    refine h.delayUntil hd fun hinc => ?_
    have hins : (s.ctx.timers.erase (.thread t), absolute s.served (prevWake + increment)) ∈
        s.inserts (.delayUntil t prevWake increment) := Option.mem_def.mpr (if_pos hinc)
    exact hfit _ hins
  | delayEnd t =>
    obtain ⟨hd, rfl⟩ := taken hs
    have hcan := h.alarms.exec (.cancel (.thread t)) fun v hv => by cases hv
    refine ⟨hcan, h.handler, h.kern, h.ev, h.ph, fun u hu => ?_⟩
    by_cases hut : u = t
    · subst hut
      cases (Function.update_self u false s.delaying).symm.trans hu
    · have hu' : s.delaying u = true := (Function.update_of_ne hut ..).symm.trans hu
      have hne : (.thread u : TimerId T J) ≠ .thread t := fun he => hut (TimerId.thread.inj he)
      obtain ⟨halarm, hlinked⟩ :=
        exec_other (m := s.served) (.cancel (.thread t)) (c := s.ctx) (r := s.book) hne
      obtain ⟨⟨a, ha⟩, hset⟩ := h.delay u hu'
      exact ⟨⟨a, halarm.trans ha⟩, hset.imp_left hlinked⟩
  | tick =>
    simp only [alarmStep] at hs
    split at hs
    · cases hs
    · rename_i hh
      cases hs
      have hserved : s.served = s.book.now := if_neg hh
      have hal := h.alarms
      rw [hserved] at hal
      refine ⟨hal.tick rfl, fun _ => rfl, h.kern, h.ev, h.ph, h.delay⟩
  | next =>
    obtain ⟨hh, rfl⟩ := taken hs
    unfold fxTickNext
    cases ht : fxTickTake s.ctx with
    | none =>
      have hn := h.handler hh
      have hal := h.alarms.done hn ht
      rw [← hn] at hal
      exact ⟨hal, (fun hf => by cases hf), h.kern, h.ev, h.ph, h.delay⟩
    | some xc =>
      obtain ⟨x, c⟩ := xc
      obtain ⟨_, _, hdue, _⟩ := fxTickTake_some ht
      refine h.called hh ht fun rest hl hp => ?_
      have hins : (rest, s.book.next x + (s.ctx.timer x).period.toNat) ∈ s.inserts .next := by
        simp only [AlarmSys.inserts, hl]
        exact Option.mem_def.mpr (if_pos ⟨hdue, hp⟩)
      exact hfit _ hins
  | sys kern ph =>
    cases hs
    obtain ⟨hk, hev, hph, hd⟩ := hsys
    refine ⟨h.alarms, h.handler, hk, hev, hph, fun t ht => ?_⟩
    obtain ⟨ha, hset⟩ := h.delay t ht
    exact ⟨ha, hset.imp_right (hd t ht).trans⟩

/-- A thread asleep at an event that is set was made ready. -/
theorem ready_of_event {k : Kern T E Q A} {ph : T → Phase T E Q} (h : KernOk k ph) (hev : EvOk k)
    {e : Ev T E} (hset : k.ev e = true) {ab : Option (Ev T E)} (hp : ph t = .asleep (.ev e) ab) :
    k.state t = .ready := by
  have hphase := h t
  rw [hp] at hphase
  obtain ⟨n, hn⟩ := hphase
  have hmain := hn.main
  have hnone : n .main ≠ none := by
    intro h0
    rw [h0] at hmain
    have hq : (t, Slot.main) ∈ k.wq (.ev e) := (hn.tied .main).mem_iff.mpr hmain.1
    rw [hev e hset] at hq
    cases hq
  rw [hn.state, if_neg fun hboth => hnone hboth.1]

/-- With nothing else going on, the handler ends. -/
theorem fxTickNext_ends (s : AlarmSys T J E Q A) (h : Serviceable s.ctx) :
    ∃ n, (fxTickNext^[n] s).handler = false := by
  induction hn : backlog s.ctx using Nat.strong_induction_on generalizing s with
  | _ b ih =>
    cases ht : fxTickTake s.ctx with
    | none =>
      refine ⟨1, ?_⟩
      show (fxTickNext s).handler = false
      unfold fxTickNext
      rw [ht]
    | some xc =>
      obtain ⟨x, c⟩ := xc
      obtain ⟨hc, hlt⟩ := h.take ht
      have hnext : (fxTickNext s).ctx = c := by
        unfold fxTickNext
        rw [ht]
      obtain ⟨n, hend⟩ := ih _ (hn ▸ hlt) (fxTickNext s) (hnext ▸ hc) (by rw [hnext])
      exact ⟨n + 1, hend⟩

end System

/-! ## 4. Every run -/

section Lauf

variable {T J E Q A O C P : Type} [DecidableEq T] [DecidableEq J] [DecidableEq E] [DecidableEq Q]
  {W : WaitObject T E Q A O C P} {u : Sys T E Q A O C}

/-- The kernel of a system of threads and objects, after any of its steps that leaves the events
    of delaying threads alone. -/
theorem sysKeeps_of_wellFormed {s : AlarmSys T J E Q A} (hu : WellFormed W u)
    (hd : ∀ t, s.delaying t = true → u.kern.ev (.timer t) = s.kern.ev (.timer t)) :
    SysKeeps s (.sys u.kern (u.phases W)) :=
  ⟨hu.phases, hu.ev, phases_ne u, hd⟩

theorem alarmStart_ok (hu : WellFormed W u) (ticks : BitVec 32) :
    AlarmSysOk (alarmStart u.kern (u.phases W) ticks : AlarmSys T J E Q A) := by
  refine ⟨⟨?_, ?_, Nat.le_refl _, Nat.le_succ _, List.nodup_nil, List.Pairwise.nil, fun x hx => ?_,
    fun x a ha => ?_⟩, fun hh => ?_, hu.phases, hu.ev, phases_ne u, fun t ht => ?_⟩
  · show ticks = BitVec.ofNat 32 (ticks.toNat + 2 * halfRange)
    rw [BitVec.ofNat_add, BitVec.ofNat_toNat, BitVec.setWidth_eq]
    exact (BitVec.add_zero ticks).symm
  · show halfRange ≤ ticks.toNat + 2 * halfRange
    omega
  · cases hx
  · cases ha
  · cases hh
  · cases ht

/-- **No deadline is lost**, in every run in which what is inserted fits: between two runs of the
    handler each one-shot timer was called back once, in the first run at or after its deadline, or
    that run is yet to come; and a thread whose time is over does not sleep any more. -/
theorem overdue_served (hu : WellFormed W u) {ticks : BitVec 32} {s : AlarmSys T J E Q A}
    (h : Reach alarmStep (fun s a => SysKeeps s a ∧ InsertionFits s a)
      (alarmStart u.kern (u.phases W) ticks) s) :
    -- the numbers are the ticks of the code, and a deadline lies where its signed distance says
    s.ctx.ticks = BitVec.ofNat 32 s.book.now ∧
    (s.handler = false → ∀ d, (d - s.ctx.ticks).toInt ≠ -halfRange →
      (absolute s.served d : Int) = s.book.now + (d - s.ctx.ticks).toInt) ∧
    -- the timers
    (s.handler = false → ∀ x a, s.book.alarm x = some a → a.period = 0 →
      a.fired = if a.due ≤ s.book.now then [a.due] else []) ∧
    -- the threads in `fx_thread_delay_until`
    (s.handler = false → ∀ t, s.delaying t = true → ∃ a, s.book.alarm (.thread t) = some a ∧
      (a.due ≤ s.book.now → s.kern.ev (.timer t) = true ∧
        ∀ ab, s.ph t = .asleep (.ev (.timer t)) ab → s.kern.state t = .ready)) ∧
    -- the handler ends
    ∃ n, (fxTickNext^[n] s).handler = false := by
  have hok : AlarmSysOk s := h.inv (J := AlarmSysOk) (alarmStart_ok hu ticks)
    fun _ _ _ hi hg hs => hi.step hg.1 hg.2 hs
  have hal := hok.alarms
  -- between two runs everything due up to now was served
  have hserved : s.handler = false → s.served = s.book.now := fun hh => if_neg (by rw [hh]; decide)
  have hlinked : s.handler = false → ∀ x a, s.book.alarm x = some a → x ∈ s.ctx.timers →
      s.book.now < a.due ∧ (a.period = 0 → a.fired = []) := by
    intro hh x a ha hx
    obtain ⟨b, hb, hw⟩ := hal.waits x hx
    obtain rfl := Option.some.inj (hb.symm.trans ha)
    exact ⟨hserved hh ▸ hw.due, hw.fresh⟩
  refine ⟨hal.ticks, fun hh d hd => ?_, fun hh x a ha hp => ?_, fun hh t ht => ?_,
    fxTickNext_ends s hal.serviceable⟩
  · have hepoch := hal.epoch
    rw [hserved hh] at hepoch ⊢
    rw [hal.ticks] at hd ⊢
    exact absolute_eq hepoch hd
  · by_cases hx : x ∈ s.ctx.timers
    · obtain ⟨hlt, hfresh⟩ := hlinked hh x a ha hx
      rw [if_neg (Nat.not_le.mpr hlt)]
      exact hfresh hp
    · have hf := hal.fired x a ha hx
      rw [if_pos hf.due]
      exact hf.fired
  · obtain ⟨⟨a, ha⟩, hset⟩ := hok.delay t ht
    refine ⟨a, ha, fun hdue => ?_⟩
    have hev : s.kern.ev (.timer t) = true :=
      hset.resolve_left fun hin => absurd hdue (Nat.not_le.mpr (hlinked hh _ a ha hin).1)
    exact ⟨hev, fun ab hp => ready_of_event hok.kern hok.ev hev hp⟩

end Lauf

/-- A timer with some way to go, one that is three ticks overdue, and a thread that is late. -/
def overdueRun (delay : RelTimeout) : List (AlarmAct Bool Bool Unit Unit Unit) :=
  [.op (.setRel (.other false) delay oneShot), .op (.setAbs (.other true) 2#32 oneShot),
    .delayUntil false 0#32 2#32, .tick, .next, .next, .next]

/-- Thread `false` has been created. -/
def overdueStart : Sys Bool Unit Unit Unit FxSem (WaitArgs Unit) :=
  ⟨fxThreadInitEx (fxThreadCtor 8 true) false 5 false, fxSemInit 0 1 .fifo,
    update (fun _ => .absent) false .idle, update (fun _ => 0) false 5⟩

theorem overdueStart_wellFormed : WellFormed (fxSem true) overdueStart := by
  let cfg : Config Bool := ⟨true, 8, true⟩
  have hs : step cfg (fxSem true) (.init false 5 false) (boot cfg (fxSemInit 0 1 .fifo)) =
      some overdueStart := rfl
  exact reach_wellFormed (fxSem_lawful true) (Reach.next (G := Always) _ .start trivial hs)

/-- Ten ticks to go: what is overdue is served in the next run. -/
theorem overdue_served_next : ∃ s : AlarmSys Bool Bool Unit Unit Unit,
    Reach alarmStep (fun s a => SysKeeps s a ∧ InsertionFits s a)
      (alarmStart overdueStart.kern (overdueStart.phases (fxSem true)) 5#32) s ∧
    s.ctx.ticks = 6#32 ∧ s.delaying false = true ∧ s.kern.ev (.timer false) = true ∧
    (s.book.alarm (.other true)).map Alarm.fired = some [s.book.now] ∧
    ∀ x a, s.book.alarm x = some a → a.period = 0 →
      a.fired = if a.due ≤ s.book.now then [a.due] else [] := by
  let fits : AlarmSys Bool Bool Unit Unit Unit → AlarmAct Bool Bool Unit Unit Unit →
      Bool := fun s a => match a with
    | .sys _ _ => false
    | a => decide (InsertionFits s a)
  have hfits : ∀ s a, fits s a = true → SysKeeps s a ∧ InsertionFits s a := by
    intro s a hg
    cases a with
    | sys kern ph => cases hg
    | _ => exact ⟨trivial, of_decide_eq_true hg⟩
  have h : (runIf fits alarmStep (overdueRun ⟨10#32, by decide⟩)
      (alarmStart overdueStart.kern (overdueStart.phases (fxSem true)) 5#32)).any (fun s =>
        s.handler = false ∧ s.ctx.ticks = 6#32 ∧ s.delaying false = true ∧
        s.kern.ev (.timer false) = true ∧
        (s.book.alarm (.other true)).map Alarm.fired = some [s.book.now]) = true := by
    decide +kernel
  obtain ⟨s, hr, hp⟩ := exists_of_runIf hfits h
  obtain ⟨hh, ht, hd, hev, hf⟩ := of_decide_eq_true hp
  exact ⟨s, hr, ht, hd, hev, hf, (overdue_served overdueStart_wellFormed hr).2.2.1 hh⟩

/-- **An overdue deadline is lost**: with another timer 0x7FFFFFFE ticks to go, the timer and the
    thread are put behind it, and the next run of the handler serves neither. -/
theorem overdue_lost : ∃ s : AlarmSys Bool Bool Unit Unit Unit,
    Reach alarmStep SysKeeps
      (alarmStart overdueStart.kern (overdueStart.phases (fxSem true)) 5#32) s ∧
    s.handler = false ∧ (∃ a, s.book.alarm (.other true) = some a ∧ a.period = 0 ∧
      a.due = s.book.now ∧ a.fired = []) ∧
    s.delaying false = true ∧ (∃ a, s.book.alarm (.thread false) = some a ∧ a.due = s.book.now) ∧
    s.kern.ev (.timer false) = false := by
  let keeps : AlarmSys Bool Bool Unit Unit Unit → AlarmAct Bool Bool Unit Unit Unit →
      Bool := fun _ a => match a with
    | .sys _ _ => false
    | _ => true
  have hkeeps : ∀ s a, keeps s a = true → SysKeeps s a := by
    intro s a hg
    cases a with
    | sys kern ph => cases hg
    | _ => exact trivial
  have h : (runIf keeps alarmStep ((overdueRun ⟨0x7FFFFFFE#32, by decide⟩).take 5)
      (alarmStart overdueStart.kern (overdueStart.phases (fxSem true)) 5#32)).any (fun s =>
        s.handler = false ∧ (s.book.alarm (.other true)).any (fun a => a.period = 0 ∧
          a.due = s.book.now ∧ a.fired = []) ∧ s.delaying false = true ∧
        (s.book.alarm (.thread false)).any (fun a => a.due = s.book.now) ∧
        s.kern.ev (.timer false) = false) = true := by
    decide +kernel
  obtain ⟨s, hr, hp⟩ := exists_of_runIf hkeeps h
  obtain ⟨hh, ha, hd, hb, hev⟩ := of_decide_eq_true hp
  obtain ⟨a, ha, hpa⟩ := (Option.any_eq_true ..).mp ha
  obtain ⟨b, hb, hpb⟩ := (Option.any_eq_true ..).mp hb
  exact ⟨s, hr, hh, ⟨a, ha, of_decide_eq_true hpa⟩, hd, ⟨b, hb, of_decide_eq_true hpb⟩, hev⟩

end FxRtos
