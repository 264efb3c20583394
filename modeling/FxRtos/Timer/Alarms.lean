/-
  File:      FxRtos/Timer/Alarms.lean
  Subject:   DEADLINES IN THE PAST. The sorted list of timers when deadlines may be over already as
             they are armed, as those of `fx_timer_internal_set_abs`.

  * `absolute` -- a 32-bit tick as a number that does not wrap around, the one within half the
    range of the counter. `Alarm` -- when a timer is due, and the ticks it was called back at.
  * `Fits` -- the comparisons that an insertion makes are between deadlines at most half the range
    apart. A deadline in the past and one far ahead may lie further apart than that.
  * `AlarmsOk` -- the list is sorted by deadlines and everything due was served. Operations and
    rounds of the handler keep it, where they insert something that fits; the handler ends.
-/
import FxRtos.Timer.TimerInternal
import Mathlib.Algebra.BigOperators.Group.List.Basic
import Mathlib.Algebra.Order.Ring.Nat

namespace FxRtos

open Function (update)
open Lib

set_option linter.unusedSectionVars false

/-! ## 1. Deadlines and their account -/

/-- Half the range of the tick counter. -/
def halfRange : Nat := 0x80000000

/-- The number that the tick `d` stands for, seen at the count `m`. -/
def absolute (m : Nat) (d : BitVec 32) : Nat :=
  m + halfRange - (BitVec.ofNat 32 (m + halfRange) - d).toNat

/-- A timer armed: the count of the first run of the handler that can serve it, the next deadline,
    and the counts at which it was called back. -/
structure Alarm where
  first : Nat
  deadline : Nat
  period : Nat
  fired : List Nat
  deriving DecidableEq, Repr

/-- The first run of the handler whose count is at or after the deadline. -/
def Alarm.due (a : Alarm) : Nat := max a.deadline a.first

structure Alarms (I : Type) where
  now : Nat
  alarm : I → Option Alarm

section Rechnung

variable {m : Nat} {d : BitVec 32}

theorem absolute_le (m : Nat) (d : BitVec 32) : absolute m d ≤ m + halfRange := Nat.sub_le ..

theorem lt_absolute (hm : halfRange ≤ m) (d : BitVec 32) : m < absolute m d + halfRange := by
  have := (BitVec.ofNat 32 (m + halfRange) - d).isLt
  unfold absolute
  unfold halfRange at *
  omega

/-- It is the tick it stands for. -/
theorem ofNat_absolute (hm : halfRange ≤ m) (d : BitVec 32) :
    BitVec.ofNat 32 (absolute m d) = d := by
  have hlt := d.isLt
  apply BitVec.eq_of_toNat_eq
  unfold absolute
  unfold halfRange at *
  rw [BitVec.toNat_sub, BitVec.toNat_ofNat, BitVec.toNat_ofNat]
  omega

/-- In other words, it lies where the signed difference says. -/
theorem absolute_eq (hm : halfRange ≤ m) (h : (d - BitVec.ofNat 32 m).toInt ≠ -halfRange) :
    (absolute m d : Int) = m + (d - BitVec.ofNat 32 m).toInt := by
  have hlt := d.isLt
  have htoInt := BitVec.toInt_eq_toNat_cond (d - BitVec.ofNat 32 m)
  rw [BitVec.toNat_sub, BitVec.toNat_ofNat] at htoInt
  unfold absolute
  rw [BitVec.toNat_sub, BitVec.toNat_ofNat]
  unfold halfRange at *
  omega

end Rechnung

/-! ## 2. Operations -/

inductive AlarmOp (I : Type) where
  | cancel (x : I)
  | setRel (x : I) (delay period : RelTimeout)
  | setAbs (x : I) (delay : BitVec 32) (period : RelTimeout)

def AlarmOp.timer {I : Type} : AlarmOp I → I
  | .cancel x => x
  | .setRel x _ _ => x
  | .setAbs x _ _ => x

section Vorgaenge

variable {I : Type} [DecidableEq I]

def Alarms.next (r : Alarms I) (x : I) : Nat :=
  match r.alarm x with
  | some a => a.deadline
  | none => 0

def Alarms.cancel (r : Alarms I) (x : I) : Alarms I := { r with alarm := update r.alarm x none }

def Alarms.arm (r : Alarms I) (x : I) (a : Alarm) : Alarms I :=
  { r with alarm := update r.alarm x (some a) }

/-- A callback: a periodic timer waits for its next deadline. -/
def Alarm.fire (a : Alarm) (now : Nat) : Alarm :=
  { a with deadline := a.deadline + a.period, fired := a.fired ++ [now] }

def Alarms.fire (r : Alarms I) (x : I) : Alarms I :=
  { r with alarm := update r.alarm x ((r.alarm x).map (·.fire r.now)) }

/-- The deadline that an operation arms a timer for. -/
def AlarmOp.deadline (m now : Nat) : AlarmOp I → Option Nat
  | .cancel _ => none
  | .setRel _ delay _ => some (now + delay.val.toNat)
  | .setAbs _ delay _ => some (absolute m delay)

def AlarmOp.exec (m : Nat) : AlarmOp I → TimerContext I × Alarms I → TimerContext I × Alarms I
  | .cancel x, s => ((fxTimerInternalCancel s.1 x).2, s.2.cancel x)
  | .setRel x delay period, s => ((fxTimerInternalSetRel s.1 x delay.val period.val).2,
      s.2.arm x ⟨m + 1, s.2.now + delay.val.toNat, period.val.toNat, []⟩)
  | .setAbs x delay period, s => ((fxTimerInternalSetAbs s.1 x delay period.val).2,
      s.2.arm x ⟨m + 1, absolute m delay, period.val.toNat, []⟩)

/-- A period of zero. -/
def oneShot : RelTimeout := ⟨0#32, by decide⟩

/-- The deadline `v` is less than half the range after every deadline before it, and at most half
    the range before the next one after it. -/
def Fits (key : I → Nat) (l : List I) (v : Nat) : Prop :=
  (∀ y ∈ l, v < key y + halfRange) ∧
    ∀ y ∈ l, v < key y → ∃ z ∈ l, v < key z ∧ key z ≤ v + halfRange

instance (key : I → Nat) (l : List I) (v : Nat) : Decidable (Fits key l v) :=
  inferInstanceAs (Decidable (_ ∧ _))

end Vorgaenge

/-! ## 3. The invariant -/

/-- A linked timer waits for its deadline, which is not due up to the count `m`. -/
structure AlarmWaits (m : Nat) (t : FxTimer) (a : Alarm) : Prop where
  timeout : t.timeout = BitVec.ofNat 32 a.deadline
  period : t.period.toNat = a.period
  short : a.period < fxTimerMaxRelativeTimeout
  low : m < a.deadline + halfRange
  high : a.deadline ≤ m + halfRange
  due : m < a.due
  first : a.first ≤ max (m + 1) a.deadline
  fresh : a.period = 0 → a.fired = []

/-- A one-shot timer that was called back, when it was due. -/
structure AlarmFired (now : Nat) (a : Alarm) : Prop where
  period : a.period = 0
  fired : a.fired = [a.due]
  due : a.due ≤ now

/-- Everything due was served up to the count `m`, and the list is sorted by deadlines. -/
structure AlarmsOk {I : Type} (m : Nat) (c : TimerContext I) (r : Alarms I) : Prop where
  ticks : c.ticks = BitVec.ofNat 32 r.now
  epoch : halfRange ≤ m
  after : m ≤ r.now
  before : r.now ≤ m + 1
  nodup : c.timers.Nodup
  sorted : c.timers.Pairwise fun x y => r.next x ≤ r.next y
  waits : ∀ x ∈ c.timers, ∃ a, r.alarm x = some a ∧ AlarmWaits m (c.timer x) a
  fired : ∀ x a, r.alarm x = some a → x ∉ c.timers → AlarmFired r.now a

section Schritte

variable {I : Type} [DecidableEq I] {m : Nat} {c c' : TimerContext I} {r : Alarms I} {x y : I}
  {a : Alarm} {t : FxTimer}

omit [DecidableEq I] in
theorem Alarms.next_of (h : r.alarm x = some a) : r.next x = a.deadline := by
  unfold Alarms.next
  rw [h]

omit [DecidableEq I] in
theorem Alarms.next_congr {r' : Alarms I} (h : r'.alarm y = r.alarm y) : r'.next y = r.next y := by
  unfold Alarms.next
  rw [h]

theorem Alarms.next_cancel (hy : y ≠ x) : (r.cancel x).next y = r.next y :=
  next_congr (Function.update_of_ne hy ..)

theorem Alarms.next_arm (hy : y ≠ x) : (r.arm x a).next y = r.next y :=
  next_congr (Function.update_of_ne hy ..)

theorem Alarms.next_arm_self : (r.arm x a).next x = a.deadline :=
  next_of (Function.update_self ..)

/-- Off the list. -/
theorem AlarmsOk.cancel (h : AlarmsOk m c r) (x : I) :
    AlarmsOk m { c with timers := c.timers.erase x } (r.cancel x) := by
  have hmem : ∀ y, y ∈ c.timers.erase x ↔ y ≠ x ∧ y ∈ c.timers := fun y =>
    h.nodup.mem_erase_iff
  refine ⟨h.ticks, h.epoch, h.after, h.before, h.nodup.erase x, ?_, fun y hy => ?_,
    fun y b hb hy => ?_⟩
  · refine (h.sorted.sublist List.erase_sublist).imp_of_mem fun {y z} hy hz hle => ?_
    rw [Alarms.next_cancel ((hmem y).mp hy).1, Alarms.next_cancel ((hmem z).mp hz).1]
    exact hle
  · obtain ⟨hne, hy⟩ := (hmem y).mp hy
    obtain ⟨b, hb, hw⟩ := h.waits y hy
    exact ⟨b, (Function.update_of_ne hne ..).trans hb, hw⟩
  · by_cases hyx : y = x
    · subst hyx
      cases (Function.update_self y _ r.alarm).symm.trans hb
    · have hb' : r.alarm y = some b := (Function.update_of_ne hyx ..).symm.trans hb
      exact h.fired y b hb' fun hin => hy ((hmem y).mpr ⟨hyx, hin⟩)

/-- **An insertion that fits keeps the list sorted.** -/
theorem AlarmsOk.insert (h : AlarmsOk m c r) (hx : x ∉ c.timers) (hw : AlarmWaits m t a)
    (hfit : Fits r.next c.timers a.deadline) :
    AlarmsOk m (fxTimerInsert { c with timer := update c.timer x t } x) (r.arm x a) := by
  have hne : ∀ y ∈ c.timers, y ≠ x := fun y hy e => hx (e ▸ hy)
  have hmem : ∀ y, y ∈ (fxTimerInsert { c with timer := update c.timer x t } x).timers ↔
      y = x ∨ y ∈ c.timers := fun y => List.mem_orderedInsert _
  have hself : (r.arm x a).next x = a.deadline := Alarms.next_arm_self
  have hkey : ∀ y ∈ c.timers, (r.arm x a).next y = r.next y :=
    fun y hy => Alarms.next_arm (hne y hy)
  -- the comparison of the words
  have hword : ∀ y ∈ c.timers, circLt (update c.timer x t x).timeout
      (update c.timer x t y).timeout =
      circLt (BitVec.ofNat 32 a.deadline) (BitVec.ofNat 32 (r.next y)) := by
    intro y hy
    obtain ⟨b, hb, hwb⟩ := h.waits y hy
    rw [Function.update_self, Function.update_of_ne (hne y hy), hw.timeout, hwb.timeout,
      Alarms.next_of hb]
  refine ⟨h.ticks, h.epoch, h.after, h.before, ?_, ?_, fun y hy => ?_, fun y b hb hy => ?_⟩
  · exact (List.perm_orderedInsert _ _ _).nodup_iff.mpr (List.nodup_cons.mpr ⟨hx, h.nodup⟩)
  · refine pairwise_orderedInsert_least (fun y hy hle => ?_) (fun y hy hlt hleast => ?_) ?_
    · have hclose := hfit.1 y hy
      show ¬ circLt (update c.timer x t x).timeout (update c.timer x t y).timeout = true
      rw [hself, hkey y hy] at hle
      rw [hword y hy]
      unfold halfRange at hclose
      rw [circLt_ofNat (by omega) (by omega)]
      exact Nat.not_lt.mpr hle
    · show circLt (update c.timer x t x).timeout (update c.timer x t y).timeout = true
      rw [hself, hkey y hy] at hlt
      obtain ⟨z, hz, hxz, hnear⟩ := hfit.2 y hy hlt
      have hyz := hleast z hz (by rw [hself, hkey z hz]; exact hxz)
      rw [hkey y hy, hkey z hz] at hyz
      rw [hword y hy]
      unfold halfRange at hnear
      exact (circLt_ofNat (by omega) (by omega)).mpr hlt
    · refine h.sorted.imp_of_mem fun {y z} hy hz hle => ?_
      rw [hkey y hy, hkey z hz]
      exact hle
  · show ∃ b, (r.arm x a).alarm y = some b ∧ AlarmWaits m (update c.timer x t y) b
    rcases (hmem y).mp hy with rfl | hy
    · exact ⟨a, Function.update_self .., by rw [Function.update_self]; exact hw⟩
    · obtain ⟨b, hb, hwb⟩ := h.waits y hy
      refine ⟨b, (Function.update_of_ne (hne y hy) ..).trans hb, ?_⟩
      rw [Function.update_of_ne (hne y hy)]
      exact hwb
  · have hyx : y ≠ x := fun e => hy ((hmem y).mpr (Or.inl e))
    have hb' : r.alarm y = some b := (Function.update_of_ne hyx ..).symm.trans hb
    exact h.fired y b hb' fun hin => hy ((hmem y).mpr (Or.inr hin))

/-- A timer off the list that was called back for the last time. -/
theorem AlarmsOk.settle (h : AlarmsOk m c r) (hx : x ∉ c.timers) (hf : AlarmFired r.now a) :
    AlarmsOk m c (r.arm x a) := by
  have hne : ∀ y ∈ c.timers, y ≠ x := fun y hy e => hx (e ▸ hy)
  refine ⟨h.ticks, h.epoch, h.after, h.before, h.nodup, ?_, fun y hy => ?_, fun y b hb hy => ?_⟩
  · refine h.sorted.imp_of_mem fun {y z} hy hz hle => ?_
    rw [Alarms.next_arm (hne y hy), Alarms.next_arm (hne z hz)]
    exact hle
  · obtain ⟨b, hb, hwb⟩ := h.waits y hy
    exact ⟨b, (Function.update_of_ne (hne y hy) ..).trans hb, hwb⟩
  · by_cases hyx : y = x
    · subst hyx
      cases (Function.update_self y _ r.alarm).symm.trans hb
      exact hf
    · have hb' : r.alarm y = some b := (Function.update_of_ne hyx ..).symm.trans hb
      exact h.fired y b hb' hy

/-- A timer armed anew. -/
theorem AlarmsOk.arm (h : AlarmsOk m c r) (x : I) {d p : BitVec 32} {v f : Nat}
    (hd : d = BitVec.ofNat 32 v) (hp : p.toNat < fxTimerMaxRelativeTimeout)
    (hlow : m < v + halfRange) (hhigh : v ≤ m + halfRange) (hf : f ≤ max (m + 1) v)
    (hdue : m < max v f) (hfit : Fits r.next (c.timers.erase x) v) :
    AlarmsOk m (fxTimerInternalSetAbs c x d p).2 (r.arm x ⟨f, v, p.toNat, []⟩) := by
  have hnot : x ∉ c.timers.erase x := fun hm => (h.nodup.mem_erase_iff.mp hm).1 rfl
  have hfit' : Fits (r.cancel x).next (c.timers.erase x) v := by
    have hkey : ∀ y ∈ c.timers.erase x, (r.cancel x).next y = r.next y :=
      fun y hy => Alarms.next_cancel fun e => hnot (e ▸ hy)
    refine ⟨fun y hy => ?_, fun y hy hlt => ?_⟩
    · rw [hkey y hy]
      exact hfit.1 y hy
    · rw [hkey y hy] at hlt
      obtain ⟨z, hz, hvz, hzv⟩ := hfit.2 y hy hlt
      exact ⟨z, hz, by rwa [hkey z hz], by rwa [hkey z hz]⟩
  have hw : AlarmWaits m ⟨d, p⟩ ⟨f, v, p.toNat, []⟩ :=
    ⟨hd, rfl, hp, hlow, hhigh, hdue, hf, fun _ => rfl⟩
  have hins := (h.cancel x).insert hnot hw hfit'
  have hbook : (r.cancel x).arm x ⟨f, v, p.toNat, []⟩ = r.arm x ⟨f, v, p.toNat, []⟩ := by
    unfold Alarms.cancel Alarms.arm
    rw [Function.update_idem]
  rw [hbook] at hins
  rw [fxTimerInternalSetAbs_ctx]
  exact hins

omit [DecidableEq I] in
/-- The next run of the handler is yet to come. -/
theorem lt_next_run (m v : Nat) : m < max v (m + 1) :=
  Nat.lt_of_lt_of_le (Nat.lt_succ_self m) (Nat.le_max_right ..)

/-- **An operation** keeps the list sorted, if what it inserts fits. -/
theorem AlarmsOk.exec (h : AlarmsOk m c r) (o : AlarmOp I)
    (hfit : ∀ v ∈ o.deadline m r.now, Fits r.next (c.timers.erase o.timer) v) :
    AlarmsOk m (o.exec m (c, r)).1 (o.exec m (c, r)).2 := by
  cases o with
  | cancel x =>
    show AlarmsOk m (fxTimerInternalCancel c x).2 _
    rw [fxTimerInternalCancel_ctx]
    exact h.cancel x
  | setRel x delay period =>
    have hlt := delay.lt
    have hafter := h.after
    have hbefore := h.before
    unfold fxTimerMaxRelativeTimeout at hlt
    refine h.arm x ?_ period.lt ?_ ?_ (Nat.le_max_left ..) (lt_next_run m _) (hfit _ rfl)
    · rw [h.ticks, BitVec.ofNat_add, BitVec.ofNat_toNat, BitVec.setWidth_eq]
    · show m < r.now + delay.val.toNat + halfRange
      unfold halfRange
      omega
    · show r.now + delay.val.toNat ≤ m + halfRange
      unfold halfRange
      omega
  | setAbs x delay period =>
    exact h.arm x (ofNat_absolute h.epoch delay).symm period.lt (lt_absolute h.epoch delay)
      (absolute_le m delay) (Nat.le_max_left ..) (lt_next_run m _) (hfit _ rfl)

/-! ## 4. The tick handler -/

/-- The tick. -/
theorem AlarmsOk.tick (h : AlarmsOk m c r) (hn : r.now = m) :
    AlarmsOk m { c with ticks := c.ticks + 1 } { r with now := r.now + 1 } := by
  refine ⟨?_, h.epoch, Nat.le_succ_of_le h.after, Nat.succ_le_succ hn.le, h.nodup, h.sorted,
    h.waits, fun x a ha hx => ?_⟩
  · show c.ticks + 1 = BitVec.ofNat 32 (r.now + 1)
    rw [h.ticks, BitVec.ofNat_add]
    rfl
  · have hf := h.fired x a ha hx
    exact ⟨hf.period, hf.fired, Nat.le_succ_of_le hf.due⟩

omit [DecidableEq I] in
/-- The head is due in the code exactly if its deadline has come. -/
theorem AlarmsOk.due_iff (h : AlarmsOk m c r) (hn : r.now = m + 1) (hx : x ∈ c.timers) :
    fxTimerTimeAfterOrEq c.ticks (c.timer x).timeout = true ↔ r.next x ≤ r.now := by
  obtain ⟨a, ha, hw⟩ := h.waits x hx
  have hlow := hw.low
  have hhigh := hw.high
  unfold halfRange at hlow hhigh
  unfold fxTimerTimeAfterOrEq
  rw [hw.timeout, h.ticks, Alarms.next_of ha]
  exact circLe_ofNat (by omega) (by omega)

/-- A timer that is served in the run is due in it. -/
theorem AlarmWaits.due_eq (hw : AlarmWaits m t a) (hd : a.deadline ≤ m + 1) : a.due = m + 1 := by
  have hdue := hw.due
  have hfirst := hw.first
  unfold Alarm.due at *
  omega

/-- **One round of the loop.** -/
theorem AlarmsOk.take (h : AlarmsOk m c r) (hn : r.now = m + 1)
    (ht : fxTickTake c = some (x, c')) (hfit : ∀ rest, c.timers = x :: rest →
      (c.timer x).period ≠ 0 → Fits r.next rest (r.next x + (c.timer x).period.toNat)) :
    AlarmsOk m c' (r.fire x) := by
  obtain ⟨rest, hl, hdue, hc⟩ := fxTickTake_some ht
  have hx : x ∈ c.timers := hl ▸ List.mem_cons_self
  obtain ⟨a, ha, hw⟩ := h.waits x hx
  have hd : a.deadline ≤ m + 1 := by
    rw [← hn, ← Alarms.next_of ha]
    exact (h.due_iff hn hx).mp hdue
  have hxr : x ∉ rest := fun hin => (List.nodup_cons.mp (hl ▸ h.nodup)).1 hin
  -- without the head
  have h0 := h.cancel x
  rw [hl, List.erase_cons_head] at h0
  have hbook : r.fire x = (r.cancel x).arm x (a.fire r.now) := by
    unfold Alarms.fire Alarms.cancel Alarms.arm
    rw [ha, Function.update_idem]
    rfl
  rw [hbook]
  by_cases hp : (c.timer x).period = 0
  · rw [if_neg (not_not.mpr hp)] at hc
    subst hc
    have hzero : a.period = 0 := by rw [← hw.period, hp]; rfl
    have hsame : (a.fire r.now).due = a.due := by
      show max (a.deadline + a.period) a.first = max a.deadline a.first
      rw [hzero, Nat.add_zero]
    have hdue' := hw.due_eq hd
    refine h0.settle hxr ⟨hzero, ?_, ?_⟩
    · show a.fired ++ [r.now] = [(a.fire r.now).due]
      rw [hsame, hdue', hw.fresh hzero, hn]
      rfl
    · rw [hsame, hdue']
      exact hn.ge
  · rw [if_pos hp] at hc
    subst hc
    have hfits := hfit rest hl hp
    rw [Alarms.next_of ha, hw.period] at hfits
    have hlt := hw.short
    have hlow := hw.low
    have hdue' := hw.due
    unfold fxTimerMaxRelativeTimeout at hlt
    have hfirst : a.first ≤ max (m + 1) (a.deadline + a.period) :=
      Nat.le_trans hw.first (max_le_max_left _ (Nat.le_add_right ..))
    refine h0.insert hxr ⟨?_, hw.period, hw.short, ?_, ?_, ?_, hfirst, fun hz => ?_⟩ ?_
    · show _ = BitVec.ofNat 32 (a.deadline + a.period)
      rw [BitVec.ofNat_add, ← hw.timeout, ← hw.period, BitVec.ofNat_toNat, BitVec.setWidth_eq]
    · show m < a.deadline + a.period + halfRange
      omega
    · show a.deadline + a.period ≤ m + halfRange
      unfold halfRange
      omega
    · show m < max (a.deadline + a.period) a.first
      unfold Alarm.due at hdue'
      omega
    · refine absurd ?_ hp
      exact BitVec.eq_of_toNat_eq (hw.period.trans hz)
    · have hkey : ∀ y ∈ rest, (r.cancel x).next y = r.next y :=
        fun y hy => Alarms.next_cancel fun e => hxr (e ▸ hy)
      refine ⟨fun y hy => ?_, fun y hy hlt => ?_⟩
      · rw [hkey y hy]
        exact hfits.1 y hy
      · rw [hkey y hy] at hlt
        obtain ⟨z, hz, hvz, hzv⟩ := hfits.2 y hy hlt
        exact ⟨z, hz, by rwa [hkey z hz], by rwa [hkey z hz]⟩

/-- Where the loop stops, nothing is due any more: the list is sorted. -/
theorem AlarmsOk.none_due (h : AlarmsOk m c r) (hn : r.now = m + 1) (ht : fxTickTake c = none)
    (hy : y ∈ c.timers) : m + 1 < r.next y := by
  unfold fxTickTake at ht
  cases hl : c.timers with
  | nil => simp [hl] at hy
  | cons x rest =>
    simp only [hl] at ht
    have hx : x ∈ c.timers := hl ▸ List.mem_cons_self
    have hxn : r.now < r.next x := by
      refine Nat.lt_of_not_le fun hle => ?_
      rw [if_pos ((h.due_iff hn hx).mpr hle)] at ht
      split at ht <;> cases ht
    have hs := h.sorted
    rw [hl] at hs hy
    rw [hn] at hxn
    rcases List.mem_cons.mp hy with rfl | hy
    · exact hxn
    · exact Nat.lt_of_lt_of_le hxn ((List.pairwise_cons.mp hs).1 y hy)

/-- And everything due was served. -/
theorem AlarmsOk.done (h : AlarmsOk m c r) (hn : r.now = m + 1) (ht : fxTickTake c = none) :
    AlarmsOk (m + 1) c r := by
  refine ⟨h.ticks, Nat.le_succ_of_le h.epoch, hn.ge, Nat.le_succ_of_le hn.le, h.nodup, h.sorted,
    fun y hy => ?_, h.fired⟩
  obtain ⟨a, ha, hw⟩ := h.waits y hy
  have hlate := h.none_due hn ht hy
  rw [Alarms.next_of ha] at hlate
  exact ⟨a, ha, hw.timeout, hw.period, hw.short, Nat.lt_of_lt_of_le hlate (Nat.le_add_right ..),
    Nat.le_trans hw.high (Nat.add_le_add_right (Nat.le_succ m) _),
    Nat.lt_of_lt_of_le hlate (Nat.le_max_left ..),
    Nat.le_trans hw.first (max_le_max_right _ (Nat.le_succ _)), hw.fresh⟩

/-- How far a timer is overdue, in the words of the code. -/
def overdue (ticks timeout : BitVec 32) : Nat :=
  if fxTimerTimeAfterOrEq ticks timeout then (ticks - timeout).toNat + 1 else 0

def backlog (c : TimerContext I) : Nat :=
  (c.timers.map fun x => overdue c.ticks (c.timer x).timeout).sum

/-- The next deadline of a periodic timer is less overdue. -/
theorem overdue_add {ticks timeout p : BitVec 32} (hp : p ≠ 0)
    (hlt : p.toNat < fxTimerMaxRelativeTimeout) (hd : fxTimerTimeAfterOrEq ticks timeout = true) :
    overdue ticks (timeout + p) < overdue ticks timeout := by
  have hpos : 0 < p.toNat :=
    Nat.pos_of_ne_zero fun h => hp (BitVec.eq_of_toNat_eq h)
  unfold overdue
  rw [if_pos hd]
  split
  · rename_i hd'
    unfold fxTimerTimeAfterOrEq circLe at hd hd'
    have h1 := of_decide_eq_true hd
    have h2 := of_decide_eq_true hd'
    have hk := ticks.isLt
    have hu := timeout.isLt
    rw [BitVec.toInt_eq_toNat_cond, BitVec.toNat_sub] at h1 h2
    rw [BitVec.toNat_add] at h2
    rw [BitVec.toNat_sub, BitVec.toNat_sub, BitVec.toNat_add]
    unfold fxTimerMaxRelativeTimeout at hlt
    omega
  · exact Nat.succ_pos _

/-- What the loop needs to end: each timer is linked once, with a short period. -/
structure Serviceable (c : TimerContext I) : Prop where
  nodup : c.timers.Nodup
  short : ∀ x ∈ c.timers, (c.timer x).period.toNat < fxTimerMaxRelativeTimeout

/-- **Every round brings the end of the loop nearer.** -/
theorem Serviceable.take (h : Serviceable c) (ht : fxTickTake c = some (x, c')) :
    Serviceable c' ∧ backlog c' < backlog c := by
  obtain ⟨rest, hl, hdue, hc⟩ := fxTickTake_some ht
  have hx : x ∈ c.timers := hl ▸ List.mem_cons_self
  obtain ⟨hxr, hnd⟩ := List.nodup_cons.mp (hl ▸ h.nodup)
  have hne : ∀ y ∈ rest, y ≠ x := by
    rintro y hy rfl
    exact hxr hy
  have hold : backlog c = overdue c.ticks (c.timer x).timeout +
      (rest.map fun y => overdue c.ticks (c.timer y).timeout).sum := by
    unfold backlog
    rw [hl, List.map_cons, List.sum_cons]
  rw [hold]
  by_cases hp : (c.timer x).period = 0
  · rw [if_neg (not_not.mpr hp)] at hc
    subst hc
    have hone : 0 < overdue c.ticks (c.timer x).timeout := by
      unfold overdue
      rw [if_pos hdue]
      exact Nat.succ_pos _
    refine ⟨⟨hnd, fun y hy => h.short y (hl ▸ List.mem_cons_of_mem x hy)⟩, ?_⟩
    exact Nat.lt_add_of_pos_left hone
  · rw [if_pos hp] at hc
    have hless := overdue_add hp (h.short x hx) hdue
    have hperm : c'.timers.Perm (x :: rest) := hc ▸ List.perm_orderedInsert ..
    have hticks : c'.ticks = c.ticks := by rw [hc]; rfl
    have htimer : c'.timer = update c.timer x
        ⟨(c.timer x).timeout + (c.timer x).period, (c.timer x).period⟩ := by rw [hc]; rfl
    refine ⟨⟨hperm.nodup_iff.mpr (hl ▸ h.nodup), fun y hy => ?_⟩, ?_⟩
    · rw [htimer]
      rcases List.mem_cons.mp (hperm.mem_iff.mp hy) with rfl | hy
      · rw [Function.update_self]
        exact h.short y hx
      · rw [Function.update_of_ne (hne y hy)]
        exact h.short y (hl ▸ List.mem_cons_of_mem x hy)
    · have hrest : (rest.map fun y => overdue c'.ticks (c'.timer y).timeout) =
          rest.map fun y => overdue c.ticks (c.timer y).timeout := by
        refine List.map_congr_left fun y hy => ?_
        rw [hticks, htimer, Function.update_of_ne (hne y hy)]
      unfold backlog
      rw [(hperm.map _).sum_eq, List.map_cons, List.sum_cons, hrest, hticks, htimer,
        Function.update_self]
      exact Nat.add_lt_add_right hless _

omit [DecidableEq I] in
theorem AlarmsOk.serviceable (h : AlarmsOk m c r) : Serviceable c := by
  refine ⟨h.nodup, fun x hx => ?_⟩
  obtain ⟨a, _, hw⟩ := h.waits x hx
  rw [hw.period]
  exact hw.short

end Schritte

end FxRtos
