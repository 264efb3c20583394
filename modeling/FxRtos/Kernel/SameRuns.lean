/-
  File:      FxRtos/Kernel/SameRuns.lean
  Subject:   TWO RUNS OF THE KERNEL that differ in the memory of one object, and what the threads
             see of them: the results of the calls, who waits, and the order of the ready queues.

  * `Sys.seen` -- a run shows no more of an object than what its functions report.
  * `Respects` -- the functions of an object do the same to the kernel in related memories and
    leave them related. Then so does every run (`Respects.alike`).
-/
import FxRtos.Kernel.Engine
import FxRtos.Lib.TwoRuns

namespace FxRtos

open Function (update)
open Lib

set_option linter.unusedSectionVars false

variable {T E Q A O C P R : Type} [DecidableEq T] [DecidableEq E] [DecidableEq Q]

/-! ## 1. What is seen of a run -/

/-- The results of the calls are in `pc`. A thread released from a wait is ready, and the ready
    queues hold the released threads in their order. `report` is what the functions of the object
    would return. -/
structure Seen (T E C R : Type) where
  pc : T → Pc T E C
  state : T → ThreadState
  ready : Nat → List T
  report : R

def Sys.seen (report : Kern T E Q A × O → R) (s : Sys T E Q A O C) : Seen T E C R :=
  ⟨s.pc, s.kern.state, s.kern.sched.gDomain.priorityQueues, report (s.kern, s.obj)⟩

/-- Two systems that differ in the object only. -/
def SameBut (rel : O → O → Prop) (s s' : Sys T E Q A O C) : Prop :=
  s'.kern = s.kern ∧ s'.pc = s.pc ∧ s'.base = s.base ∧ rel s.obj s'.obj

/-- The same kernel, and memories that are related. -/
def SamePair (rel : O → O → Prop) (s s' : Kern T E Q A × O) : Prop :=
  s'.1 = s.1 ∧ rel s.2 s'.2

/-! ## 2. Objects whose functions cannot tell two memories apart -/

structure Respects (W : WaitObject T E Q A O C P) (report : Kern T E Q A × O → R)
    (rel : O → O → Prop) : Prop where
  start : ∀ k o o' t c, rel o o' → W.start k o' t c = W.start k o t c
  testWait : ∀ t c wait s s', SamePair rel s s' →
    (W.testWait t c wait s').1 = (W.testWait t c wait s).1 ∧
      SamePair rel (W.testWait t c wait s).2 (W.testWait t c wait s').2
  after : ∀ t c r s s', SamePair rel s s' →
    (W.after t c r s').1 = (W.after t c r s).1 ∧
      SamePair rel (W.after t c r s).2 (W.after t c r s').2
  op : ∀ p s s', SamePair rel s s' → Option.Rel (SamePair rel) (W.op p s) (W.op p s')
  report : ∀ s s', SamePair rel s s' → report s' = report s

section Lauf

variable {cfg : Config T} {W : WaitObject T E Q A O C P} {report : Kern T E Q A × O → R}
  {rel : O → O → Prop} {s s' : Sys T E Q A O C} {t : T} {c : C}

omit [DecidableEq T] [DecidableEq E] [DecidableEq Q] in
theorem SameBut.mk {k : Kern T E Q A} {o o' : O} {pc : T → Pc T E C} {base : T → Nat}
    (h : rel o o') : SameBut rel (⟨k, o, pc, base⟩ : Sys T E Q A O C) ⟨k, o', pc, base⟩ :=
  ⟨rfl, rfl, rfl, h⟩

/-- `fx_thread_wait_object_internal` up to the sleep. -/
theorem Respects.enter (hR : Respects W report rel) (t : T) (c : C) (ab : Option (Ev T E))
    {k : Kern T E Q A} {o o' : O} (h : rel o o') :
    ∃ r k1 o1 o1', rel o1 o1' ∧
      fxThreadWaitObjectEnter (W.testWait t c) t (W.attr c) ab (k, o) = (r, k1, o1) ∧
      fxThreadWaitObjectEnter (W.testWait t c) t (W.attr c) ab (k, o') = (r, k1, o1') := by
  have ht := hR.testWait t c true (fxSyncWaiterPrepare k t (W.attr c), o)
    (fxSyncWaiterPrepare k t (W.attr c), o') ⟨rfl, h⟩
  unfold fxThreadWaitObjectEnter
  dsimp only
  generalize W.testWait t c true (fxSyncWaiterPrepare k t (W.attr c), o) = r1 at ht
  generalize W.testWait t c true (fxSyncWaiterPrepare k t (W.attr c), o') = r2 at ht
  obtain ⟨b1, k1, o1⟩ := r1
  obtain ⟨b2, k2, o2⟩ := r2
  obtain ⟨hb, hk, ho⟩ := ht
  dsimp only at hb hk ho
  subst hb hk
  cases b2 with
  | true => exact ⟨_, _, _, _, ho, rfl, rfl⟩
  | false =>
    cases ab with
    | none => exact ⟨_, _, _, _, ho, rfl, rfl⟩
    | some e =>
      dsimp only
      generalize fxEventTestAndWait k2 e (t, .abort) true = r
      obtain ⟨b, k3⟩ := r
      cases b with
      | true => exact ⟨_, _, _, _, ho, rfl, rfl⟩
      | false => exact ⟨_, _, _, _, ho, rfl, rfl⟩

variable (cfg) in
/-- A critical section of a call. -/
theorem Respects.advance (hR : Respects W report rel) (hs : SameBut rel s s') (t : T) (c : C)
    (stage : Stage T E) :
    SameBut rel (advance cfg W t c s stage) (advance cfg W t c s' stage) := by
  obtain ⟨k, o, pc, base⟩ := s
  obtain ⟨k', o', pc', base'⟩ := s'
  obtain ⟨hk, hpc, hbase, ho⟩ := hs
  dsimp only at hk hpc hbase ho
  subst hk hpc hbase
  cases stage with
  | reset => exact .mk ho
  | arm => exact .mk ho
  | enter ab =>
    obtain ⟨r, k1, o1, o1', h1, he, he'⟩ := hR.enter t c ab (k := k') ho
    unfold FxRtos.advance
    dsimp only
    rw [he, he']
    cases r with
    | some r => exact .mk h1
    | none => exact .mk h1
  | poll =>
    have ht := hR.testWait t c false (fxSyncWaitBlockInit k' t (W.attr c), o)
      (fxSyncWaitBlockInit k' t (W.attr c), o') ⟨rfl, ho⟩
    obtain ⟨hb, hk, h2⟩ := ht
    have hpc := congrArg
      (fun ok : Bool => update pc' t (.inCall (.ret (if ok then .ok else .waitTimeout)) c)) hb
    exact ⟨hk, hpc, rfl, h2⟩
  | asleep ab => exact .mk ho
  | disarm r => exact .mk ho
  | ret r =>
    have ht := hR.after t c r (k', o) (k', o') ⟨rfl, ho⟩
    unfold FxRtos.advance
    dsimp only
    generalize W.after t c r (k', o) = r1 at ht
    generalize W.after t c r (k', o') = r2 at ht
    obtain ⟨b1, k1, o1⟩ := r1
    obtain ⟨b2, k2, o2⟩ := r2
    obtain ⟨hb, hk, h2⟩ := ht
    dsimp only at hb hk h2
    subst hb hk
    cases b2 with
    | some c' => exact .mk h2
    | none => exact .mk h2

variable (cfg) in
/-- One action, which is possible in both systems or in none. -/
theorem Respects.step (hR : Respects W report rel) (hs : SameBut rel s s') (a : Act T E C P) :
    Option.Rel (SameBut rel) (step cfg W a s) (step cfg W a s') := by
  have hadv := hR.advance cfg hs
  obtain ⟨k, o, pc, base⟩ := s
  obtain ⟨k', o', pc', base'⟩ := s'
  obtain ⟨hk, hpc, hbase, ho⟩ := hs
  dsimp only at hk hpc hbase ho
  subst hk hpc hbase
  -- an action that leaves the object alone, under a condition on the rest of the system
  have hif : ∀ {p : Prop} [Decidable p] (k : Kern T E Q A) (pc : T → Pc T E C) (base : T → Nat),
      Option.Rel (SameBut rel) (if p then some (⟨k, o, pc, base⟩ : Sys T E Q A O C) else none)
        (if p then some ⟨k, o', pc, base⟩ else none) := by
    intro p _ k pc base
    by_cases hp : p
    · rw [if_pos hp, if_pos hp]
      exact .some (.mk ho)
    · rw [if_neg hp, if_neg hp]
      exact .none
  cases a with
  | init t prio createSuspended => exact hif ..
  | call t c =>
    unfold FxRtos.step
    dsimp only
    rw [hR.start k' o o' t c ho]
    by_cases hf : Sys.Free (⟨k', o, pc', base'⟩ : Sys T E Q A O C) t
    · have hf' : Sys.Free (⟨k', o', pc', base'⟩ : Sys T E Q A O C) t := hf
      rw [if_pos hf, if_pos hf']
      cases W.start k' o t c with
      | some c' => exact .some (.mk ho)
      | none => exact .some (.mk ho)
    · have hf' : ¬ Sys.Free (⟨k', o', pc', base'⟩ : Sys T E Q A O C) t := hf
      rw [if_neg hf, if_neg hf']
      exact .none
  | go t =>
    unfold FxRtos.step
    dsimp only
    cases pc' t with
    | inCall stage c =>
      dsimp only
      by_cases hr : k'.state t = .ready
      · rw [if_pos hr, if_pos hr]
        exact .some (hadv t c stage)
      · rw [if_neg hr, if_neg hr]
        exact .none
    | absent => exact .none
    | idle => exact .none
    | gone => exact .none
  | op p =>
    unfold FxRtos.step
    dsimp only
    by_cases hf : ∀ t ∈ W.caller p, Sys.Free (⟨k', o, pc', base'⟩ : Sys T E Q A O C) t
    · have hf' : ∀ t ∈ W.caller p, Sys.Free (⟨k', o', pc', base'⟩ : Sys T E Q A O C) t := hf
      rw [if_pos hf, if_pos hf']
      have hop := hR.op p (k', o) (k', o') ⟨rfl, ho⟩
      generalize W.op p (k', o) = r1 at hop
      generalize W.op p (k', o') = r2 at hop
      cases hop with
      | some h =>
        obtain ⟨h1, h2⟩ := h
        exact .some ⟨h1, rfl, rfl, h2⟩
      | none => exact .none
    · have hf' : ¬ ∀ t ∈ W.caller p, Sys.Free (⟨k', o', pc', base'⟩ : Sys T E Q A O C) t := hf
      rw [if_neg hf, if_neg hf']
      exact .none
  | expire t => exact hif ..
  | evSet e => exact .some (.mk ho)
  | evReset e => exact .some (.mk ho)
  | evDeinit e => exact .some (.mk ho)
  | terminate t => exact hif ..
  | exit t => exact hif ..
  | suspend t => exact hif ..
  | resume t => exact hif ..
  | yield t => exact hif ..
  | setPrio t prio => exact hif ..
  | dispatch => exact .some (.mk ho)

variable (cfg) in
theorem Respects.bisimulation (hR : Respects W report rel) :
    Bisimulation (FxRtos.step cfg W) (Sys.seen report) (SameBut rel) where
  seen s s' h := by
    obtain ⟨hk, hpc, -, ho⟩ := h
    have hrep := hR.report (s.kern, s.obj) (s'.kern, s'.obj) ⟨hk, ho⟩
    unfold Sys.seen
    rw [hrep, hk, hpc]
  step _ _ h a := hR.step cfg h a

variable (cfg) in
/-- **What the functions cannot tell apart, no run can.** -/
theorem Respects.alike (hR : Respects W report rel) (h : SameBut rel s s') :
    Alike (FxRtos.step cfg W) (Sys.seen report) s s' := (hR.bisimulation cfg).alike h

end Lauf

end FxRtos
