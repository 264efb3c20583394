/-
  File:      FxRtos/Timer/TimerInternal.lean
  Subject:   THE TIMERS OF THE KERNEL (fx_timer_internal.c, SIMPLE): one list of armed timers,
             sorted by their timeouts, of which the tick handler examines the head.

  * `TimerContext` -- the list, the tick counter and the timers. A timer is linked exactly if
    it is in the list. Ticks and timeouts are 32-bit words and wrap around; the comparison
    `fx_timer_time_after` subtracts modulo 2^32.
  * A critical section is one step; a callback runs between two of them. It may do anything to
    the timers and to the rest of the system `γ`.
  * `fx_timer_internal_set_rel` is two sections: it reads the counter in the first and arms the
    timer in the second. `fxTimerInternalSetRel` is a call that nothing comes between.
  * `Keyed` -- the list sorted by numbers that the timeouts are the residues of. An insertion of a
    number near all others keeps it so.
-/
import FxRtos.Lib.Circular
import Mathlib.Logic.Function.Basic

namespace FxRtos

open Function (update)
open Lib

/-- `fx_timer_internal_t`, without callback and linkage. -/
structure FxTimer where
  timeout : BitVec 32
  period : BitVec 32
  deriving DecidableEq, Repr

structure TimerContext (I : Type) where
  timers : List I
  ticks : BitVec 32
  timer : I → FxTimer

inductive TimerStatus where
  | ok
  | alreadyCancelled
  deriving DecidableEq, Repr

def fxTimerMaxRelativeTimeout : Nat := 0x7FFFFFFF

/-- A delay or a period below `FX_TIMER_MAX_RELATIVE_TIMEOUT`. -/
structure RelTimeout where
  val : BitVec 32
  lt : val.toNat < fxTimerMaxRelativeTimeout

def fxTimerTimeAfter (a b : BitVec 32) : Bool := circLt b a

def fxTimerTimeAfterOrEq (a b : BitVec 32) : Bool := circLe b a

variable {I γ : Type} [DecidableEq I]

omit [DecidableEq I] in
/-- The old count, and the counter set. -/
def fxTimerSetTickCount (c : TimerContext I) (newticks : BitVec 32) :
    BitVec 32 × TimerContext I := (c.ticks, { c with ticks := newticks })

def fxTimerInternalCancel (c : TimerContext I) (x : I) : TimerStatus × TimerContext I :=
  if x ∈ c.timers then (.ok, { c with timers := c.timers.erase x }) else (.alreadyCancelled, c)

omit [DecidableEq I] in
/-- `_fx_timer_insert`: before the first timer whose timeout comes after. -/
def fxTimerInsert (c : TimerContext I) (x : I) : TimerContext I :=
  { c with
    timers := c.timers.orderedInsert
      (fun x t => fxTimerTimeAfter (c.timer t).timeout (c.timer x).timeout) x }

def fxTimerInternalSetAbs (c : TimerContext I) (x : I) (delay period : BitVec 32) :
    TimerStatus × TimerContext I :=
  let c1 := if x ∈ c.timers then { c with timers := c.timers.erase x } else c
  (.ok, fxTimerInsert { c1 with timer := update c1.timer x ⟨delay, period⟩ } x)

/-- Both sections, with the count that the first one reads still there in the second. -/
def fxTimerInternalSetRel (c : TimerContext I) (x : I) (delay period : BitVec 32) :
    TimerStatus × TimerContext I :=
  fxTimerInternalSetAbs c x (c.ticks + delay) period

/-- What the tick handler does to the head of the list before it calls it back: `none` where
    the list is empty or its head is not due. -/
def fxTickTake (c : TimerContext I) : Option (I × TimerContext I) :=
  match c.timers with
  | [] => none
  | item :: rest =>
    let t := c.timer item
    if fxTimerTimeAfterOrEq c.ticks t.timeout then
      let c1 := { c with timers := rest }
      if t.period ≠ 0 then
        some (item, fxTimerInsert
          { c1 with timer := update c1.timer item ⟨t.timeout + t.period, t.period⟩ } item)
      else some (item, c1)
    else none

/-- The loop of `fx_tick_handler`, with fuel: `none` where the fuel ran out. -/
def fxTickLoop (callback : I → TimerContext I × γ → TimerContext I × γ) :
    Nat → TimerContext I × γ → Option (TimerContext I × γ)
  | 0, _ => none
  | fuel + 1, s =>
    match fxTickTake s.1 with
    | none => some s
    | some (item, c) => fxTickLoop callback fuel (callback item (c, s.2))

def fxTickHandler (callback : I → TimerContext I × γ → TimerContext I × γ) (fuel : Nat)
    (s : TimerContext I × γ) : Option (TimerContext I × γ) :=
  fxTickLoop callback fuel ({ s.1 with ticks := s.1.ticks + 1 }, s.2)

theorem fxTimerInternalCancel_ctx (c : TimerContext I) (x : I) :
    (fxTimerInternalCancel c x).2 = { c with timers := c.timers.erase x } := by
  unfold fxTimerInternalCancel
  split
  · rfl
  · rename_i h
    rw [List.erase_of_not_mem h]

theorem fxTimerInternalSetAbs_ctx (c : TimerContext I) (x : I) (d p : BitVec 32) :
    (fxTimerInternalSetAbs c x d p).2 = fxTimerInsert
      { c with timers := c.timers.erase x, timer := update c.timer x ⟨d, p⟩ } x := by
  unfold fxTimerInternalSetAbs
  split
  · rfl
  · rename_i h
    rw [List.erase_of_not_mem h]

/-- What the handler takes is the head, and it is due. -/
theorem fxTickTake_some {x : I} {c c' : TimerContext I} (h : fxTickTake c = some (x, c')) :
    ∃ rest, c.timers = x :: rest ∧ fxTimerTimeAfterOrEq c.ticks (c.timer x).timeout = true ∧
      c' = if (c.timer x).period ≠ 0 then
        fxTimerInsert { c with
          timers := rest
          timer := update c.timer x
            ⟨(c.timer x).timeout + (c.timer x).period, (c.timer x).period⟩ } x
        else { c with timers := rest } := by
  unfold fxTickTake at h
  cases hl : c.timers with
  | nil => simp [hl] at h
  | cons y rest =>
    simp only [hl] at h
    split at h
    · rename_i hd
      split at h
      · rename_i hp
        obtain ⟨rfl, rfl⟩ := Prod.mk.inj (Option.some.inj h)
        exact ⟨rest, rfl, hd, (if_pos hp).symm⟩
      · rename_i hp
        obtain ⟨rfl, rfl⟩ := Prod.mk.inj (Option.some.inj h)
        exact ⟨rest, rfl, hd, (if_neg hp).symm⟩
    · cases h

/-- A list sorted by `key`, of which the timeouts are the residues. -/
structure Keyed (c : TimerContext I) (key : I → Nat) : Prop where
  nodup : c.timers.Nodup
  sorted : c.timers.Pairwise fun x y => key x ≤ key y
  timeout : ∀ x ∈ c.timers, (c.timer x).timeout = BitVec.ofNat 32 (key x)

section Geordnet

variable {c : TimerContext I} {key : I → Nat} {x : I} {v : Nat} {t : FxTimer}

theorem Keyed.erase (h : Keyed c key) (x : I) :
    Keyed { c with timers := c.timers.erase x } key :=
  ⟨h.nodup.erase x, h.sorted.sublist List.erase_sublist,
    fun y hy => h.timeout y (List.mem_of_mem_erase hy)⟩

omit [DecidableEq I] in
theorem mem_fxTimerInsert {y : I} :
    y ∈ (fxTimerInsert c x).timers ↔ y = x ∨ y ∈ c.timers := List.mem_orderedInsert _

omit [DecidableEq I] in
theorem fxTimerInsert_nodup (h : c.timers.Nodup) (hx : x ∉ c.timers) :
    (fxTimerInsert c x).timers.Nodup :=
  (List.perm_orderedInsert _ _ _).nodup_iff.mpr (List.nodup_cons.mpr ⟨hx, h⟩)

theorem setAbs_mem (c : TimerContext I) (x y : I) (d p : BitVec 32) (hy : y ≠ x) :
    y ∈ (fxTimerInternalSetAbs c x d p).2.timers ↔ y ∈ c.timers := by
  rw [fxTimerInternalSetAbs_ctx, mem_fxTimerInsert]
  exact (or_iff_right hy).trans (List.mem_erase_of_ne hy)

theorem setAbs_nodup (h : c.timers.Nodup) (x : I) (d p : BitVec 32) :
    (fxTimerInternalSetAbs c x d p).2.timers.Nodup := by
  rw [fxTimerInternalSetAbs_ctx]
  exact fxTimerInsert_nodup (c := { c with
    timers := c.timers.erase x, timer := update c.timer x ⟨d, p⟩ }) (h.erase x) h.not_mem_erase

/-- **An insertion less than half the range away from everything in the list.** -/
theorem Keyed.insert (h : Keyed c key) (hx : x ∉ c.timers)
    (ht : t.timeout = BitVec.ofNat 32 v)
    (hnear : ∀ y ∈ c.timers, key y < v + 0x80000000 ∧ v < key y + 0x80000000) :
    Keyed (fxTimerInsert { c with timer := update c.timer x t } x) (update key x v) := by
  have hne : ∀ y ∈ c.timers, y ≠ x := fun y hy e => hx (e ▸ hy)
  have hkey : ∀ y ∈ c.timers, update key x v y = key y :=
    fun y hy => Function.update_of_ne (hne y hy) ..
  refine ⟨?_, ?_, fun y hy => ?_⟩
  · exact fxTimerInsert_nodup (c := { c with timer := update c.timer x t }) h.nodup hx
  · refine pairwise_orderedInsert (fun y hy => ?_) ?_
    · obtain ⟨h1, h2⟩ := hnear y hy
      show circLt (update c.timer x t x).timeout (update c.timer x t y).timeout = true ↔ _
      rw [Function.update_self, Function.update_of_ne (hne y hy), ht, h.timeout y hy,
        Function.update_self, hkey y hy]
      exact circLt_ofNat (by omega) (by omega)
    · refine h.sorted.imp_of_mem fun {y z} hy hz hle => ?_
      rwa [hkey y hy, hkey z hz]
  · show (update c.timer x t y).timeout = BitVec.ofNat 32 (update key x v y)
    rcases mem_fxTimerInsert.mp hy with rfl | hy
    · rw [Function.update_self, Function.update_self, ht]
    · rw [Function.update_of_ne (hne y hy), hkey y hy, h.timeout y hy]

end Geordnet

end FxRtos
