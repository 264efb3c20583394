/-
  File:      FxRtos/Objects/BarrierKey.lean
  Subject:   THE SERIAL THREAD OF A BARRIER (fx_barrier.c): which call stores
             `FX_BARRIER_SERIAL_THREAD` through its key pointer.

  * `BarrierEvent`, `keyStep` -- a run with a record of the calls counted, of the openings, and of
    what a call that returns has made of its key. Anybody may write the key variables in between.
  * `SerialOnce` -- each opening is by the last of `n` calls, and of these it alone stores the
    value; the others leave their keys as they were.
  * `barrier_serial` -- the record stays right exactly as long as no other call copies an
    uninitialised `k` that makes a difference.
-/
import FxRtos.Objects.Barrier

namespace FxRtos

open Function (update)
open Lib

set_option linter.unusedSectionVars false

variable {T E : Type} [DecidableEq T] [DecidableEq E]

/-! ## 1. The record -/

/-- `left` is a call that returns `FX_BARR_OK`: whether it was given a key pointer, and the key
    before and after. -/
inductive BarrierEvent (T : Type) where
  | arrived (t : T)
  | opened (t : T)
  | left (t : T) (keyGiven : Bool) (old new : Nat)
  deriving DecidableEq

/-- The calls counted since the last opening; the latest event comes first. -/
def arrivals : List (BarrierEvent T) → Nat
  | [] => 0
  | .arrived _ :: log => arrivals log + 1
  | .opened _ :: _ => 0
  | .left .. :: log => arrivals log

/-- Whether the last call of the thread that was tested is one that opened the barrier. -/
def serial (t : T) : List (BarrierEvent T) → Bool
  | [] => false
  | .arrived u :: log => if u = t then false else serial t log
  | .opened u :: log => if u = t then true else serial t log
  | .left .. :: log => serial t log

/-- **The claim for a record**: a call that opens the barrier is the last of `n`, it stores the
    value through its key pointer, and no other call changes its key. -/
def SerialOnce (n : Nat) : List (BarrierEvent T) → Prop
  | [] => True
  | .arrived _ :: log => SerialOnce n log
  | .opened _ :: log => arrivals log + 1 = n ∧ SerialOnce n log
  | .left t keyGiven old new :: log =>
    (keyGiven = true → new = if serial t log then fxBarrierSerialThread else old) ∧
      SerialOnce n log

/-! ## 2. Runs with a record -/

/-- The event of a test. -/
def FxBarrier.tested (o : FxBarrier T) (t : T) : BarrierEvent T :=
  if o.Last then .opened t else .arrived t

/-- The record after a critical section of `t`. -/
def barrierSection (t : T) (s s' : BarrierSys T E) (log : List (BarrierEvent T)) :
    Pc T E (BarrierCall E) → List (BarrierEvent T)
  | .inCall (.enter _) _ => s.obj.tested t :: log
  | .inCall .poll _ => s.obj.tested t :: log
  | .inCall (.ret .ok) c => .left t c.keyGiven (s.obj.key t) (s'.obj.key t) :: log
  | _ => log

def barrierNote (a : Act T E (BarrierCall E) BarrierOp) (s s' : BarrierSys T E)
    (log : List (BarrierEvent T)) : List (BarrierEvent T) :=
  match a with
  | .go t => barrierSection t s s' log (s.pc t)
  | _ => log

inductive KeyAct (T E : Type) where
  | sys (a : Act T E (BarrierCall E) BarrierOp)
  | writeKey (t : T) (v : Nat)

/-- A step of the system, or a key variable written by somebody else. -/
def keyStep (cfg : Config T) (a : KeyAct T E) (w : BarrierSys T E × List (BarrierEvent T)) :
    Option (BarrierSys T E × List (BarrierEvent T)) :=
  match a with
  | .sys a => (step cfg (fxBarrier cfg.checks) a w.1).map fun s' =>
      (s', barrierNote a w.1 s' w.2)
  | .writeKey t v =>
    some ({ w.1 with obj := { w.1.obj with key := update w.1.obj.key t v } }, w.2)

/-- The call that is about to return `FX_BARR_OK`. -/
def Pc.leaving {C : Type} : Pc T E C → Option C
  | .inCall (.ret .ok) c => some c
  | _ => none

def KeyAct.mover : KeyAct T E → Option T
  | .sys (.go t) => some t
  | _ => none

/-- A call about to return that did not open the barrier does not copy what `k` holds, or the key
    holds it already. -/
def KeyKept (w : BarrierSys T E × List (BarrierEvent T)) (a : KeyAct T E) : Prop :=
  ∀ t ∈ a.mover, ∀ c ∈ (w.1.pc t).leaving, w.1.obj.k t = none → c.keyGiven = true →
    c.writesKey c.stack = true → w.1.obj.key t = c.stack

instance keyKeptDecidable (w : BarrierSys T E × List (BarrierEvent T)) (a : KeyAct T E) :
    Decidable (KeyKept w a) := inferInstanceAs (Decidable (∀ t ∈ a.mover, _))

/-! ## 3. The invariant -/

section Lauf

variable {cfg : Config T} {checks : Bool} {n : Nat} {s s' : BarrierSys T E} {t u : T}
  {log : List (BarrierEvent T)} {c : BarrierCall E} {a : Act T E (BarrierCall E) BarrierOp}
  {ser : Bool} {k : Option Nat} {r : ThreadStatus}

/-- What the variable `k` of a thread holds after its test. -/
def serialKey (ser : Bool) : Option Nat := if ser then some fxBarrierSerialThread else none

/-- What it holds by how far the call has come; `ser` is whether the last test of the thread has
    opened the barrier. -/
def KeyAt (ser : Bool) (k : Option Nat) : Pc T E (BarrierCall E) → Prop
  | .inCall (.asleep _) _ => k = none ∧ ser = false
  | .inCall (.disarm r) _ => r = .ok → k = serialKey ser
  | .inCall (.ret r) _ => r = .ok → k = serialKey ser
  | .gone => True
  | _ => k = none

structure KeyOk (checks : Bool) (n : Nat) (w : BarrierSys T E × List (BarrierEvent T)) :
    Prop where
  well : WellFormed (fxBarrier checks) w.1
  barrier : w.1.obj.barrier = n
  count : w.1.obj.blocked = arrivals w.2
  below : w.1.obj.blocked < n
  key : ∀ t, KeyAt (serial t w.2) (w.1.obj.k t) (w.1.pc t)

theorem KeyAt.firstStage (kern : BarrierKern T E) (c : BarrierCall E) :
    KeyAt ser none (.inCall (firstStage cfg (fxBarrier checks) kern c) c) := by
  have hmode : ∀ r, (c.args.mode cfg.checks kern) = .reject r → r ≠ .ok := by
    intro r h
    cases hc : c.args with
    | event e =>
      rw [hc] at h
      cases e with
      | none => cases h
      | some e =>
        change (if _ then _ else _) = _ at h
        split at h
        · cases h
          decide
        · cases h
    | timeout ticks =>
      rw [hc] at h
      change fxThreadTimedwaitMode ticks = _ at h
      unfold fxThreadTimedwaitMode at h
      split_ifs at h
      cases h
      decide
  unfold FxRtos.firstStage
  split
  · rfl
  · rfl
  · rfl
  · rfl
  · rename_i r hr
    exact fun hok => absurd hok (hmode r hr)

theorem KeyAt.afterWait {ab : Option (Ev T E)} (h : r = .ok → k = serialKey ser) :
    KeyAt ser k (.inCall (afterWait ab r) c) := by
  unfold FxRtos.afterWait
  split <;> exact h

/-- A step that runs no code of the barrier. -/
theorem KeyAt.quiet (hq : Quiet cfg (fxBarrier checks) a s s' t)
    (h : ∀ u, KeyAt (serial u log) (s.obj.k u) (s.pc u)) (u : T) :
    KeyAt (serial u log) (s.obj.k u) (s'.pc u) := by
  by_cases hut : u = t
  · subst hut
    have hu := h u
    cases hq.move with
    | stay h' _ => rwa [h']
    | init h0 h' _ =>
      rw [h0] at hu
      rw [h']
      exact hu
    | call _ h0 _ h' =>
      rw [h0] at hu
      change s.obj.k u = none at hu
      rw [h', hu]
      exact KeyAt.firstStage ..
    | reset h0 h' =>
      rw [h0] at hu
      rw [h']
      exact hu
    | arm h0 h' =>
      rw [h0] at hu
      rw [h']
      exact hu
    | leave h0 _ h' =>
      rw [h0] at hu
      obtain ⟨hk, hser⟩ := hu
      rw [h', hser, hk]
      exact KeyAt.afterWait fun _ => rfl
    | disarm h0 h' =>
      rw [h0] at hu
      rw [h']
      exact fun hr => hu (timedResult_ok.mp hr)
    | gone _ h' =>
      rw [h']
      trivial
  · rw [hq.pc u hut]
    exact h u

theorem barrierNote_quiet (h : ¬ s.RunsCode a) : barrierNote a s s' log = log := by
  cases a with
  | go t =>
    change ¬ (s.pc t).runsCode at h
    show barrierSection t s s' log (s.pc t) = log
    cases hpc : s.pc t with
    | inCall stage c =>
      rw [hpc] at h
      cases stage with
      | enter ab => exact absurd trivial h
      | poll => exact absurd trivial h
      | ret r => exact absurd trivial h
      | _ => rfl
    | _ => rfl
  | _ => rfl

theorem leaving_iff {p : Pc T E (BarrierCall E)} : c ∈ p.leaving ↔ p = .inCall (.ret .ok) c := by
  unfold Pc.leaving
  split
  · rw [Option.mem_some, Pc.inCall.injEq, and_iff_right rfl]
  · rename_i hno
    exact iff_of_false nofun (hno c)

/-- The guard says nothing of a step in which no call returns `FX_BARR_OK`. -/
theorem keyKept_of (h : ∀ t c, a = .go t → s.pc t ≠ .inCall (.ret .ok) c) :
    KeyKept (s, log) (.sys a) := by
  intro t ht c hc
  cases a with
  | go u =>
    cases ht
    exact absurd (leaving_iff.mp hc) (h _ c rfl)
  | _ => cases ht

theorem keyKept_go {p : Pc T E (BarrierCall E)} (hpc : s.pc t = p) (hp : p.leaving = none) :
    KeyKept (s, log) (.sys (.go t)) := by
  refine keyKept_of fun u c hu h => ?_
  cases hu
  rw [← hpc, leaving_iff.mpr h] at hp
  cases hp

theorem keyKept_ret (hpc : s.pc t = .inCall (.ret .ok) c) : KeyKept (s, log) (.sys (.go t)) ↔
    (s.obj.k t = none → c.keyGiven = true → c.writesKey c.stack = true →
      s.obj.key t = c.stack) := by
  constructor
  · exact fun h => h t rfl c (leaving_iff.mpr hpc)
  · intro h u hu d hd
    cases hu
    cases hpc.symm.trans (leaving_iff.mp hd)
    exact h

theorem keyKept_quiet (h : ¬ s.RunsCode a) : KeyKept (s, log) (.sys a) := by
  refine keyKept_of fun t c ha hpc => h ?_
  subst ha
  show (s.pc t).runsCode
  rw [hpc]
  trivial

/-! ## 4. Tests -/

theorem serial_tested (o : FxBarrier T) :
    serial t (o.tested t :: log) = decide o.Last := by
  unfold FxBarrier.tested
  by_cases h : o.Last
  · rw [if_pos h, decide_eq_true h]
    exact if_pos rfl
  · rw [if_neg h, decide_eq_false h]
    exact if_pos rfl

theorem serial_tested_ne {o : FxBarrier T} (hu : u ≠ t) :
    serial u (o.tested t :: log) = serial u log := by
  unfold FxBarrier.tested
  split <;> exact if_neg hu.symm

theorem serialOnce_tested (h : KeyOk checks n (s, log)) :
    SerialOnce n (s.obj.tested t :: log) ↔ SerialOnce n log := by
  unfold FxBarrier.tested
  split
  · rename_i hlast
    have hl : s.obj.blocked + 1 = s.obj.barrier := hlast
    rw [h.barrier, h.count] at hl
    exact and_iff_right hl
  · exact Iff.rfl

/-- **A test**, and the thread after it: `r` is the result it returns with, if it does. -/
theorem KeyOk.test (h : KeyOk checks n (s, log)) {wait : Bool} {kern : BarrierKern T E}
    (hw : WellFormed (fxBarrier checks) s') (hpc : s.obj.k t = none)
    (hobj : s'.obj = (fxBarrierTestAndWait t wait (kern, s.obj)).2.2)
    (ht : ∀ k, (s.obj.Last → k = some fxBarrierSerialThread) → (¬ s.obj.Last → k = none) →
      KeyAt (decide s.obj.Last) k (s'.pc t)) (hu : ∀ u, u ≠ t → s'.pc u = s.pc u) :
    KeyOk checks n (s', s.obj.tested t :: log) := by
  by_cases hlast : s.obj.Last
  · rw [fxBarrierTest_opens hlast] at hobj
    refine ⟨hw, by rw [hobj]; exact h.barrier, ?_, ?_, fun u => ?_⟩
    · rw [hobj]
      unfold FxBarrier.tested
      rw [if_pos hlast]
      rfl
    · rw [hobj]
      exact Nat.zero_lt_of_lt h.below
    · rw [hobj]
      by_cases hut : u = t
      · subst hut
        rw [serial_tested]
        exact ht _ (fun _ => Function.update_self ..) fun hno => absurd hlast hno
      · rw [serial_tested_ne hut, hu u hut]
        show KeyAt _ (update s.obj.k t _ u) _
        rw [Function.update_of_ne hut]
        exact h.key u
  · rw [fxBarrierTest_counts hlast] at hobj
    have hb := h.barrier
    have hlt := h.below
    have hne : s.obj.blocked + 1 ≠ s.obj.barrier := hlast
    refine ⟨hw, by rw [hobj]; exact hb, ?_, ?_, fun u => ?_⟩
    · rw [hobj]
      unfold FxBarrier.tested
      rw [if_neg hlast]
      exact congrArg (· + 1) h.count
    · rw [hobj]
      change s.obj.barrier = n at hb
      change s.obj.blocked < n at hlt
      show s.obj.blocked + 1 < n
      omega
    · rw [hobj]
      by_cases hut : u = t
      · subst hut
        rw [serial_tested]
        exact ht _ (fun h => absurd h hlast) fun _ => hpc
      · rw [serial_tested_ne hut, hu u hut]
        exact h.key u

/-- The thread after a test that may have put it to sleep. -/
theorem KeyAt.entered {ab : Option (Ev T E)} {o : FxBarrier T} {kern kern' : BarrierKern T E}
    {r : Option ThreadStatus} (he : Entered t ab (fxBarrierTestAndWait t true (kern, o)) r kern')
    (hyes : o.Last → k = some fxBarrierSerialThread) (hnot : ¬ o.Last → k = none) :
    KeyAt (decide o.Last) k (.inCall (r.elim (.asleep ab) (FxRtos.afterWait ab)) c) := by
  by_cases hlast : o.Last
  · rw [fxBarrierTest_opens hlast] at he
    rw [decide_eq_true hlast]
    cases he with
    | passed h => exact KeyAt.afterWait fun _ => hyes hlast
    | cancelled h => cases h
    | alone h => cases h
    | both h => cases h
  · rw [fxBarrierTest_counts hlast] at he
    rw [decide_eq_false hlast]
    cases he with
    | passed h => cases h
    | cancelled h => exact KeyAt.afterWait fun hr => nomatch hr
    | alone h => exact ⟨hnot hlast, rfl⟩
    | both h => exact ⟨hnot hlast, rfl⟩

/-! ## 5. Returns -/

/-- **A call that returns `FX_BARR_OK`** has treated its key right exactly if it has opened the
    barrier, or does not copy its `k`, or the key holds it already. -/
theorem barrier_left (hk : s.obj.k t = serialKey ser) :
    (c.keyGiven = true → (fxBarrierEnd t c .ok s.obj).key t =
      if ser then fxBarrierSerialThread else s.obj.key t) ↔
    (s.obj.k t = none → c.keyGiven = true → c.writesKey c.stack = true →
      s.obj.key t = c.stack) := by
  have hserial : c.writesKey fxBarrierSerialThread = true := by
    unfold BarrierCall.writesKey
    split <;> rfl
  unfold fxBarrierEnd
  rw [hk]
  cases ser with
  | true =>
    refine iff_of_true (fun hgiven => ?_) fun h => absurd h (Option.some_ne_none _)
    show (if c.keyGiven = true ∧ ThreadStatus.ok = .ok ∧ c.writesKey fxBarrierSerialThread = true
      then update s.obj.key t fxBarrierSerialThread else s.obj.key) t = fxBarrierSerialThread
    rw [if_pos ⟨hgiven, rfl, hserial⟩, Function.update_self]
  | false =>
    show (_ → (if c.keyGiven = true ∧ ThreadStatus.ok = .ok ∧ c.writesKey c.stack = true
      then update s.obj.key t c.stack else s.obj.key) t = s.obj.key t) ↔ _
    by_cases hw : c.writesKey c.stack = true
    · by_cases hgiven : c.keyGiven = true
      · rw [if_pos ⟨hgiven, rfl, hw⟩, Function.update_self]
        exact ⟨fun h _ _ _ => (h hgiven).symm, fun h _ => (h rfl hgiven hw).symm⟩
      · exact iff_of_true (fun h => absurd h hgiven) fun _ h => absurd h hgiven
    · rw [if_neg fun h => hw h.2.2]
      exact iff_of_true (fun _ => rfl) fun _ _ h => absurd h hw

/-- **One step** keeps the invariant, and the record right exactly if the guard holds. -/
theorem KeyOk.step (h : KeyOk checks n (s, log))
    (hs : step cfg (fxBarrier checks) a s = some s') :
    KeyOk checks n (s', barrierNote a s s' log) ∧
      (SerialOnce n (barrierNote a s s' log) ↔
        KeyKept (s, log) (.sys a) ∧ SerialOnce n log) := by
  have hw' := (step_case (fxBarrier_lawful checks) h.well hs).2
  cases code_case (fxBarrier_lawful checks) h.well hs with
  | quiet t hq hno =>
    rw [barrierNote_quiet hno]
    refine ⟨⟨hw', ?_, ?_, ?_, fun u => ?_⟩, (and_iff_right (keyKept_quiet hno)).symm⟩
    · rw [hq.obj]
      exact h.barrier
    · rw [hq.obj]
      exact h.count
    · rw [hq.obj]
      exact h.below
    · rw [hq.obj]
      exact KeyAt.quiet hq h.key u
  | enter t c ab r kern ha hpc hr he hs1 =>
    subst ha
    have hnote : barrierNote (.go t) s s' log = s.obj.tested t :: log := by
      show barrierSection t s s' log (s.pc t) = _
      rw [hpc]
      rfl
    have hkept : KeyKept (s, log) (.sys (.go t)) := keyKept_go hpc rfl
    have hnone := h.key t
    rw [hpc] at hnone
    rw [hnote]
    refine ⟨h.test hw' hnone (congrArg Sys.obj hs1) (fun k hyes hnot => ?_) fun u hut => ?_,
      (serialOnce_tested h).trans (and_iff_right hkept).symm⟩
    · rw [hs1]
      show KeyAt _ k (update s.pc t _ t)
      rw [Function.update_self]
      exact KeyAt.entered he hyes hnot
    · rw [hs1]
      exact Function.update_of_ne hut ..
  | poll t c ha hpc hr hs1 =>
    subst ha
    have hnote : barrierNote (.go t) s s' log = s.obj.tested t :: log := by
      show barrierSection t s s' log (s.pc t) = _
      rw [hpc]
      rfl
    have hkept : KeyKept (s, log) (.sys (.go t)) := keyKept_go hpc rfl
    have hnone := h.key t
    rw [hpc] at hnone
    rw [hnote]
    refine ⟨h.test hw' hnone (congrArg Sys.obj hs1) (fun k hyes hnot => ?_) fun u hut => ?_,
      (serialOnce_tested h).trans (and_iff_right hkept).symm⟩
    · rw [hs1]
      show KeyAt _ k (update s.pc t (.inCall (.ret (if (fxBarrierTestAndWait t false
        (_, s.obj)).1 then .ok else .waitTimeout)) c) t)
      rw [Function.update_self]
      by_cases hlast : s.obj.Last
      · rw [decide_eq_true hlast]
        exact fun _ => hyes hlast
      · rw [fxBarrierTest_counts hlast]
        exact fun hok => nomatch hok
    · rw [hs1]
      exact Function.update_of_ne hut ..
  | after t c r ha hpc hs1 =>
    subst ha
    rw [(fxBarrier_plain checks).ret] at hs1
    have hobj : s'.obj = fxBarrierEnd t c r s.obj := congrArg Sys.obj hs1
    have hkeys : ∀ u, KeyAt (serial u log) (s'.obj.k u) (s'.pc u) := by
      intro u
      rw [hobj, hs1]
      show KeyAt _ (update s.obj.k t none u) (update s.pc t .idle u)
      by_cases hut : u = t
      · subst hut
        rw [Function.update_self, Function.update_self]
        rfl
      · rw [Function.update_of_ne hut, Function.update_of_ne hut]
        exact h.key u
    have hnote : barrierNote (.go t) s s' log = barrierSection t s s' log (.inCall (.ret r) c) :=
      congrArg (barrierSection t s s' log) hpc
    have hkey := h.key t
    rw [hpc] at hkey
    have hok : KeyOk checks n (s', log) :=
      ⟨hw', by rw [hobj]; exact h.barrier, by rw [hobj]; exact h.count,
        by rw [hobj]; exact h.below, hkeys⟩
    rw [hnote]
    by_cases hr : r = .ok
    · subst hr
      refine ⟨⟨hok.well, hok.barrier, hok.count, hok.below, hok.key⟩, and_congr_left' ?_⟩
      rw [hobj, keyKept_ret hpc]
      exact barrier_left (hkey rfl)
    · have hsame : barrierSection t s s' log (.inCall (.ret r) c) = log := by
        cases r with
        | ok => exact absurd rfl hr
        | _ => rfl
      have hnone : (Pc.inCall (.ret r) c : Pc T E (BarrierCall E)).leaving = none := by
        cases r with
        | ok => exact absurd rfl hr
        | _ => rfl
      rw [hsame]
      exact ⟨hok, (and_iff_right (keyKept_go hpc hnone)).symm⟩
  | op p ko ha hc ho hs1 =>
    subst ha
    have hobj : s'.obj.k = s.obj.k ∧ s'.obj.barrier = s.obj.barrier ∧
        s'.obj.blocked = s.obj.blocked := by
      rw [hs1]
      cases ho
      split <;> exact ⟨rfl, rfl, rfl⟩
    obtain ⟨hk, hbarrier, hblocked⟩ := hobj
    refine ⟨⟨hw', hbarrier.trans h.barrier, hblocked.trans h.count, hblocked ▸ h.below,
      fun u => ?_⟩, (and_iff_right (keyKept_of nofun)).symm⟩
    rw [hk, hs1]
    exact h.key u

theorem fxBarrierTest_key {wait : Bool} {kern : BarrierKern T E} {o : FxBarrier T} :
    (fxBarrierTestAndWait t wait (kern, o)).2.2.key = o.key := by
  by_cases hlast : o.Last
  · rw [fxBarrierTest_opens hlast]
  · rw [fxBarrierTest_counts hlast]

/-- A key changes only where the call it was given to returns `FX_BARR_OK`. -/
theorem key_changed (hw : WellFormed (fxBarrier checks) s)
    (hs : step cfg (fxBarrier checks) a s = some s') (hu : s'.obj.key u ≠ s.obj.key u) :
    ∃ c, a = .go u ∧ s.pc u = .inCall (.ret .ok) c := by
  have hsame : s'.obj.key = s.obj.key → ∃ c, a = .go u ∧ s.pc u = .inCall (.ret .ok) c :=
    fun h => absurd (congrFun h u) hu
  cases code_case (fxBarrier_lawful checks) hw hs with
  | quiet t hq hno => exact hsame (congrArg FxBarrier.key hq.obj)
  | enter t c ab r kern ha hpc hr he hs1 =>
    refine hsame ?_
    rw [hs1]
    exact fxBarrierTest_key
  | poll t c ha hpc hr hs1 =>
    refine hsame ?_
    rw [hs1]
    exact fxBarrierTest_key
  | after t c r ha hpc hs1 =>
    rw [(fxBarrier_plain checks).ret] at hs1
    have hkey : s'.obj.key = (fxBarrierEnd t c r s.obj).key := by
      rw [hs1]
      rfl
    unfold fxBarrierEnd at hkey
    dsimp only at hkey
    split at hkey
    · rename_i hstore
      by_cases hut : u = t
      · subst hut
        obtain ⟨_, rfl, _⟩ := hstore
        exact ⟨c, ha, hpc⟩
      · rw [hkey, Function.update_of_ne hut] at hu
        exact absurd rfl hu
    · exact hsame hkey
  | op p ko ha hc ho hs1 =>
    refine hsame ?_
    rw [hs1]
    cases ho
    split <;> rfl

/-! ## 6. Runs -/

theorem KeyOk.writeKey (h : KeyOk checks n (s, log)) (t : T) (v : Nat) :
    KeyOk checks n ({ s with obj := { s.obj with key := update s.obj.key t v } }, log) :=
  ⟨⟨h.well.kern, h.well.ev, h.well.term⟩, h.barrier, h.count, h.below, h.key⟩

theorem KeyOk.boot (hn : 1 ≤ n) (key : T → Nat) :
    KeyOk checks n ((boot cfg (fxBarrierInit n key) : BarrierSys T E), []) :=
  ⟨boot_wellFormed _, rfl, rfl, hn, fun _ => (rfl : (none : Option Nat) = none)⟩

theorem keyStep_case {w w' : BarrierSys T E × List (BarrierEvent T)} {a : KeyAct T E}
    (h : KeyOk cfg.checks n w) (hs : keyStep cfg a w = some w') :
    KeyOk cfg.checks n w' ∧ (SerialOnce n w'.2 ↔ KeyKept w a ∧ SerialOnce n w.2) := by
  cases a with
  | sys a =>
    obtain ⟨s', hstep, rfl⟩ := Option.map_eq_some_iff.mp hs
    exact h.step hstep
  | writeKey t v =>
    cases hs
    exact ⟨h.writeKey t v, (and_iff_right nofun).symm⟩

end Lauf

/-- **Each opening of a barrier has one serial thread**, in every run in which a call that did not
    open it copies no `k` that makes a difference; the first step that does copy one breaks it. -/
theorem barrier_serial {cfg : Config T} {n : Nat} (hn : 1 ≤ n) {key : T → Nat}
    {w : BarrierSys T E × List (BarrierEvent T)}
    (h : Reach (keyStep cfg) KeyKept (boot cfg (fxBarrierInit n key), []) w) :
    SerialOnce n w.2 ∧
    (∀ a w', keyStep cfg a w = some w' → (SerialOnce n w'.2 ↔ KeyKept w a)) ∧
    ∀ a s' u, step cfg (fxBarrier cfg.checks) a w.1 = some s' →
      s'.obj.key u ≠ w.1.obj.key u → ∃ c, a = .go u ∧ w.1.pc u = .inCall (.ret .ok) c := by
  have hrun : KeyOk cfg.checks n w ∧ SerialOnce n w.2 := by
    refine h.inv (J := fun w => KeyOk cfg.checks n w ∧ SerialOnce n w.2)
      ⟨KeyOk.boot hn key, trivial⟩ fun _ a _ hj hg hs => ?_
    obtain ⟨hok, hiff⟩ := keyStep_case hj.1 hs
    exact ⟨hok, hiff.mpr ⟨hg, hj.2⟩⟩
  refine ⟨hrun.2, fun a w' hs => ?_, fun a s' u hs => key_changed hrun.1.well hs⟩
  exact (keyStep_case hrun.1 hs).2.trans (and_iff_left hrun.2)

/-- Thread 0 arrives, thread 1 opens the barrier, and both return. The one has written its key in
    between, and the other finds its old key in its `k`. -/
theorem barrier_serial_two :
    let cfg : Config (Fin 3) := ⟨true, 8, 2⟩
    ∃ w, Reach (keyStep cfg) KeyKept
        ((boot cfg (fxBarrierInit 2 fun _ => 5) : BarrierSys (Fin 3) Unit), []) w ∧
      w.2.length = 4 ∧ w.1.obj.key 0 = 5 ∧ w.1.obj.key 1 = fxBarrierSerialThread ∧
      SerialOnce 2 w.2 := by
  intro cfg
  let acts : List (KeyAct (Fin 3) Unit) :=
    [.sys (.init 0 5 false), .sys (.call 0 ⟨.timeout 9, true, 5⟩), .sys (.go 0), .sys (.go 0),
      .sys (.go 0), .sys (.init 1 4 false), .sys (.call 1 ⟨.event none, true, 1⟩), .sys (.go 1),
      .writeKey 1 9, .sys (.go 1), .sys (.go 0), .sys (.go 0), .sys (.go 0)]
  have hrun : (runIf (fun w a => decide (KeyKept w a)) (keyStep cfg) acts
      ((boot cfg (fxBarrierInit 2 fun _ => 5) : BarrierSys (Fin 3) Unit), [])).any (fun w =>
        w.2.length = 4 ∧ w.1.obj.key 0 = 5 ∧ w.1.obj.key 1 = fxBarrierSerialThread) = true := by
    decide +kernel
  obtain ⟨w, hr, hp⟩ := exists_of_runIf (G := KeyKept) (fun _ _ hg => of_decide_eq_true hg) hrun
  obtain ⟨hlen, h0, h1⟩ := of_decide_eq_true hp
  exact ⟨w, hr, hlen, h0, h1, (barrier_serial (by decide) hr).1⟩

/-- **Two serial threads**: thread 0, which only waits, has the value in its uninitialised `k`. -/
theorem barrier_two_serial :
    let cfg : Config (Fin 3) := ⟨true, 8, 2⟩
    ∃ w, Reach (keyStep cfg) Always
        ((boot cfg (fxBarrierInit 2 fun _ => 0) : BarrierSys (Fin 3) Unit), []) w ∧
      w.1.obj.key 0 = fxBarrierSerialThread ∧ w.1.obj.key 1 = fxBarrierSerialThread ∧
      w.2 = [.left 0 true 0 1, .left 1 true 0 1, .opened 1, .arrived 0] ∧ ¬ SerialOnce 2 w.2 := by
  intro cfg
  let acts : List (KeyAct (Fin 3) Unit) :=
    [.sys (.init 0 5 false), .sys (.call 0 ⟨.event none, true, 1⟩), .sys (.go 0),
      .sys (.init 1 4 false), .sys (.call 1 ⟨.event none, true, 0⟩), .sys (.go 1), .sys (.go 1),
      .sys (.go 0), .sys (.go 0)]
  have hrun : (run (keyStep cfg) acts
      ((boot cfg (fxBarrierInit 2 fun _ => 0) : BarrierSys (Fin 3) Unit), [])).any (fun w =>
        w.1.obj.key 0 = fxBarrierSerialThread ∧ w.1.obj.key 1 = fxBarrierSerialThread ∧
          w.2 = [.left 0 true 0 1, .left 1 true 0 1, .opened 1, .arrived 0]) = true := by
    decide +kernel
  obtain ⟨w, hr, hp⟩ := exists_of_run hrun
  obtain ⟨h0, h1, hlog⟩ := of_decide_eq_true hp
  refine ⟨w, hr, h0, h1, hlog, fun h => ?_⟩
  rw [hlog] at h
  exact absurd (h.1 rfl) (by decide)

end FxRtos
