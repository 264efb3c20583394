/-
  File:      FxRtos/Esr/Registered.lean
  Subject:   THE SCHEDULER OF THE ESRS NEVER RUNS OUT OF ITEMS. The bitmap container has no answer
             when it is empty; the idle ESR, in the slot of the lowest priority, keeps it from
             being so.

  * `fxEsrInitAt`, `fxEsrDeinit` -- ESRs come and go. The check of `fx_esr_init` is
    `epl < FX_SCHED_ALG_PRIO_NUM`, which lets in the level of the idle ESR.
  * `IdleKept` -- the idle ESR is in its slot, bits and slots agree, and no other ESR of the idle
    level is ready.
  * `esr_items_registered` -- in a run in which no ESR of the idle level is resumed, there is
    always an item to select; `idle_overwritten`: such an ESR takes the slot, and leaves it empty.
-/
import FxRtos.Esr.Stack
import FxRtos.Sched.Agree
import Mathlib.Data.Fintype.Basic

namespace FxRtos

open Function (update)
open Lib

variable {E F Q M : Type} [DecidableEq E] [DecidableEq Q]

/-! ## 1. Initialization and destruction -/

/-- FX_SCHED_ALG_PRIO_NUM of the ESR configuration. -/
def fxSchedAlgPrioNum : Nat := 32

/-- The system with the magic numbers of the ESRs (`rtp`). -/
structure EsrWorld (E F Q M : Type) where
  sys : EsrSys E F Q M
  valid : E → Bool

/-- `fx_esr_init`, true for FX_ESR_OK. -/
def fxEsrInitAt (w : EsrWorld E F Q M) (e : E) (epl : Nat) : Bool × EsrWorld E F Q M :=
  if epl < fxSchedAlgPrioNum then
    (true,
      { sys := { w.sys.setEsr e (fxEsrInit (w.sys.esr e) epl) with
          sched := fxSchedItemInit w.sys.sched e epl }
        valid := update w.valid e true })
  else (false, w)

def fxEsrDeinit (w : EsrWorld E F Q M) (e : E) : Bool × EsrWorld E F Q M :=
  if w.valid e then
    (true,
      { sys := { w.sys with sched := fxSchedItemRemove w.sys.sched e }
        valid := update w.valid e false })
  else (false, w)

inductive EsrWorldOp (E F Q M : Type) where
  | init (e : E) (epl : Nat)
  | deinit (e : E)
  | run (a : EsrOp E F Q M)

/-- Only inactive ESRs are initialized and destroyed, the idle ESR is not at all; an activation
    of an object that is not an ESR is rejected. -/
def esrWorldStep (cfg : EsrConfig E F) :
    EsrWorldOp E F Q M → EsrWorld E F Q M → Option (EsrWorld E F Q M)
  | .init e epl, w =>
    if e ≠ cfg.idle ∧ (w.sys.esr e).active = false then some (fxEsrInitAt w e epl).2 else none
  | .deinit e, w =>
    if e ≠ cfg.idle ∧ (w.sys.esr e).active = false then some (fxEsrDeinit w e).2 else none
  | .run (.activate e msg), w =>
    if w.valid e then some { w with sys := fxEsrActivate w.sys e msg } else some w
  | .run a, w => (esrStep cfg a w.sys).map fun sys => { w with sys := sys }

/-- `fx_thread_ctor`: the idle ESR, and no other one yet. -/
def esrWorldStart (cfg : EsrConfig E F) (psp : F) (msgq : Q → EsrMsgq E M) : EsrWorld E F Q M where
  sys := esrStart cfg (fun e => if e = cfg.idle then 31 else 0) psp msgq
  valid e := decide (e = cfg.idle)

/-- What the selection needs. -/
structure Selectable (cfg : EsrConfig E F) (w : EsrWorld E F Q M) : Prop where
  map : w.sys.sched.gDomain.itemsMap ≠ 0#32
  slot : ∃ e, w.sys.sched.gDomain.get = some e
  idle : w.sys.sched.gDomain.items 31 = some cfg.idle

/-- Resuming the ESR does not put it into the slot of the idle ESR. -/
def EsrSys.AboveIdle (s : EsrSys E F Q M) (e : E) : Prop :=
  ¬ (s.prio e = 31 ∧ (s.sched.item e).suspendCount = 1)

/-- No activation and no message puts an ESR into the slot of the idle ESR. -/
def SlotLeft (w : EsrWorld E F Q M) : EsrWorldOp E F Q M → Prop
  | .run (.activate e none) => w.valid e = true → w.sys.AboveIdle e
  | .run (.activate e (some _)) =>
    w.valid e = true → (w.sys.esr e).msg.isNone = true → w.sys.AboveIdle e
  | .run (.send q _) =>
    ∀ e, (w.sys.msgq q).items = 0 → w.sys.receiver q = some e → w.sys.AboveIdle e
  | _ => True

instance decidableAboveIdle (s : EsrSys E F Q M) (e : E) : Decidable (s.AboveIdle e) :=
  inferInstanceAs (Decidable (¬ _))

instance decidableSlotLeft [Fintype E] (w : EsrWorld E F Q M) :
    (op : EsrWorldOp E F Q M) → Decidable (SlotLeft w op)
  | .run (.activate e none) => inferInstanceAs (Decidable (w.valid e = true → w.sys.AboveIdle e))
  | .run (.activate e (some _)) => inferInstanceAs (Decidable
      (w.valid e = true → (w.sys.esr e).msg.isNone = true → w.sys.AboveIdle e))
  | .run (.send q _) => inferInstanceAs (Decidable
      (∀ e, (w.sys.msgq q).items = 0 → w.sys.receiver q = some e → w.sys.AboveIdle e))
  | .run (.call _) => isTrue trivial
  | .run (.dispatch _) => isTrue trivial
  | .init _ _ => isTrue trivial
  | .deinit _ => isTrue trivial

/-! ## 2. The slot of the idle ESR -/

/-- Bits and slots agree, and the last slot is the idle item's. -/
structure IdleSlot (idle : E) (b : BitmapContainer E) : Prop where
  bit : ∀ p, p < 32 → b.itemsMap.getLsbD p = (b.items p).isSome
  slot : b.items 31 = some idle

/-- The idle item is in its slot, and no other item of its priority is ready. -/
structure IdleKept (idle : E) (c : SchedContext E (BitmapContainer E)) : Prop where
  domain : IdleSlot idle c.gDomain
  item : c.item idle = ⟨0, 31⟩
  others : ∀ x, x ≠ idle → (c.item x).prio = 31 → (c.item x).suspendCount ≠ 0

section Platz

variable {idle x : E} {b : BitmapContainer E} {c c' : SchedContext E (BitmapContainer E)} {p : Nat}

omit [DecidableEq E] in
theorem IdleSlot.add (h : IdleSlot idle b) (x : E) (hp : p ≠ 31) : IdleSlot idle (b.add x p) := by
  refine ⟨fun q hq => ?_, (Function.update_of_ne (Ne.symm hp) ..).trans h.slot⟩
  show (b.itemsMap ||| 1#32 <<< p).getLsbD q = (update b.items p (some x) q).isSome
  rw [Lib.getLsbD_setBit hq]
  by_cases hqp : q = p
  · simp [hqp]
  · rw [Function.update_of_ne hqp, decide_eq_false (Ne.symm hqp), Bool.or_false, h.bit q hq]

omit [DecidableEq E] in
theorem IdleSlot.remove (h : IdleSlot idle b) (hp : p ≠ 31) : IdleSlot idle (b.remove p) := by
  refine ⟨fun q hq => ?_, (Function.update_of_ne (Ne.symm hp) ..).trans h.slot⟩
  show (b.itemsMap &&& ~~~(1#32 <<< p)).getLsbD q = (update b.items p none q).isSome
  rw [Lib.getLsbD_clearBit hq]
  by_cases hqp : q = p
  · simp [hqp]
  · rw [Function.update_of_ne hqp, decide_eq_true (Ne.symm hqp), Bool.and_true, h.bit q hq]

omit [DecidableEq E] in
/-- With the idle item in its slot there is something to select. -/
theorem IdleSlot.get (h : IdleSlot idle b) : b.itemsMap ≠ 0#32 ∧ ∃ x, b.get = some x := by
  have h31 : b.itemsMap.getLsbD 31 = true := by
    rw [h.bit 31 (by decide), h.slot]
    rfl
  have hne : b.itemsMap ≠ 0#32 := Lib.ne_zero_iff_bit.mpr ⟨31, by decide, h31⟩
  have hsome := h.bit _ (Lib.ctz_lt hne)
  rw [BitVec.getLsbD_true_ctz_of_ne_zero hne] at hsome
  exact ⟨hne, Option.isSome_iff_exists.mp hsome.symm⟩

omit [DecidableEq E] in
theorem IdleKept.congr (h : IdleKept idle c) (hd : c'.gDomain = c.gDomain)
    (hi : c'.item = c.item) : IdleKept idle c' :=
  ⟨hd ▸ h.domain, hi ▸ h.item, hi ▸ h.others⟩

/-- One item changed, not the idle one. -/
theorem IdleKept.change (h : IdleKept idle c) (hx : x ≠ idle) {i : SchedItem}
    (hd : IdleSlot idle c'.gDomain) (hi : c'.item = update c.item x i)
    (h31 : i.prio = 31 → i.suspendCount ≠ 0) : IdleKept idle c' := by
  refine ⟨hd, ?_, fun y hy => ?_⟩
  · rw [hi, Function.update_of_ne (Ne.symm hx)]
    exact h.item
  · rw [hi]
    by_cases hyx : y = x
    · rw [hyx, Function.update_self]
      exact h31
    · rw [Function.update_of_ne hyx]
      exact h.others y hy

theorem IdleKept.resume (h : IdleKept idle c)
    (hx : ¬ ((c.item x).prio = 31 ∧ (c.item x).suspendCount = 1)) :
    IdleKept idle (fxSchedItemResume c x) := by
  by_cases hxi : x = idle
  · -- the idle item is not suspended
    subst hxi
    have h0 : ¬ 0 < (c.item x).suspendCount := by rw [h.item]; exact Nat.lt_irrefl 0
    unfold fxSchedItemResume
    rw [if_neg h0]
    exact h
  · refine h.change hxi ?_ (fxSchedItemResume_item c x) fun h31 => ?_
    · rw [fxSchedItemResume_gDomain]
      split
      · rename_i h1
        exact h.domain.add x fun h31 => hx ⟨h31, h1⟩
      · exact h.domain
    · have h31' : (c.item x).prio = 31 := h31
      have h0 := h.others x hxi h31'
      show (c.item x).suspendCount - 1 ≠ 0
      have h1 : (c.item x).suspendCount ≠ 1 := fun e => hx ⟨h31', e⟩
      omega

theorem IdleKept.suspend (h : IdleKept idle c) (hx : x ≠ idle) :
    IdleKept idle (fxSchedItemSuspend c x) := by
  refine h.change hx ?_ (fxSchedItemSuspend_item c x) fun _ => Nat.succ_ne_zero _
  rw [fxSchedItemSuspend_gDomain]
  split
  · rename_i h0
    exact h.domain.remove fun h31 => h.others x hx h31 h0
  · exact h.domain

theorem IdleKept.remove (h : IdleKept idle c) (hx : x ≠ idle) :
    IdleKept idle (fxSchedItemRemove c x) := by
  have hd : (fxSchedItemRemove c x).gDomain =
      if (c.item x).suspendCount = 0 then c.gDomain.remove (c.item x).prio else c.gDomain :=
    exec_gDomain c (.remove x) nofun
  refine ⟨?_, ?_, ?_⟩
  · rw [hd]
    split
    · rename_i h0
      exact h.domain.remove fun h31 => h.others x hx h31 h0
    · exact h.domain
  · rw [fxSchedItemRemove_item]
    exact h.item
  · rw [fxSchedItemRemove_item]
    exact h.others

theorem IdleKept.init (h : IdleKept idle c) (hx : x ≠ idle) (prio : Nat) :
    IdleKept idle (fxSchedItemInit c x prio) :=
  h.change hx h.domain rfl fun _ => Nat.one_ne_zero

end Platz

/-! ## 3. Steps -/

section Schritt

variable {cfg : EsrConfig E F} {s s' : EsrSys E F Q M} {w w' : EsrWorld E F Q M} {me : E} {q : Q}

omit [DecidableEq Q] in
theorem IdleKept.activate (h : IdleKept cfg.idle s.sched) {e : E} {msg : Option M}
    (ha : msg = none ∨ (s.esr e).msg.isNone = true → s.AboveIdle e) :
    IdleKept cfg.idle (fxEsrActivate s e msg).sched := by
  unfold fxEsrActivate
  split
  · exact h.resume (ha (Or.inl rfl))
  · split
    · rename_i hnone
      exact h.resume (ha (Or.inr hnone))
    · exact h

theorem IdleKept.send (h : IdleKept cfg.idle s.sched) {msg : Option M}
    (ha : ∀ e, (s.msgq q).items = 0 → s.receiver q = some e → s.AboveIdle e) :
    IdleKept cfg.idle (fxMsgqSend s q msg).2.sched := by
  unfold fxMsgqSend
  split
  · exact h
  · split
    · rename_i r hr
      obtain ⟨h0, hr⟩ := Option.ite_none_right_eq_some.mp hr
      exact h.resume (ha r h0 hr)
    · exact h

theorem IdleKept.waitMsg (h : IdleKept cfg.idle s.sched) (hne : me ≠ cfg.idle) :
    IdleKept cfg.idle (fxEsrWaitMsg s me q true).2.sched := by
  have htest : (esrTestAndWaitRecv (s.prepareWb me) me q true).2.sched = s.sched :=
    testAndWaitRecv_sched ..
  have hleave : IdleKept cfg.idle
      ((esrTestAndWaitRecv (s.prepareWb me) me q true).2.leave me).sched := by
    show IdleKept cfg.idle (fxSchedItemSuspend
      (esrTestAndWaitRecv (s.prepareWb me) me q true).2.sched me)
    rw [htest]
    exact h.suspend hne
  show IdleKept cfg.idle (if _ then _ else _ : EsrSys E F Q M).sched
  split
  · -- suspended just before, a ready ESR is none of the idle level
    refine hleave.resume ?_
    rintro ⟨h31, h1⟩
    have hitem : ((esrTestAndWaitRecv (s.prepareWb me) me q true).2.leave me).sched.item me =
        ⟨(s.sched.item me).suspendCount + 1, (s.sched.item me).prio⟩ := by
      show (fxSchedItemSuspend
        (esrTestAndWaitRecv (s.prepareWb me) me q true).2.sched me).item me = _
      rw [htest, fxSchedItemSuspend_item, Function.update_self]
    rw [hitem] at h31 h1
    exact h.others me hne h31 (Nat.succ.inj h1)
  · exact hleave

/-- Every step of an ESR system that brings no ESR of the idle level in. -/
theorem IdleKept.esrStep {a : EsrOp E F Q M} (h : IdleKept cfg.idle s.sched)
    (hsend : ∀ q msg e, a = .send q msg → (s.msgq q).items = 0 → s.receiver q = some e →
      s.AboveIdle e)
    (ha : ∀ e msg, a ≠ .activate e msg) (hs : esrStep cfg a s = some s') :
    IdleKept cfg.idle s'.sched := by
  cases a with
  | activate e msg => exact absurd rfl (ha e msg)
  | send q msg =>
    obtain rfl := Option.some.inj hs
    exact h.send fun e => hsend q msg e rfl
  | dispatch f =>
    obtain rfl := Option.some.inj hs
    rw [dispatch_sched]
    exact h.congr (fxSchedGetNext_gDomain _) (fxSchedGetNext_item _)
  | call c =>
    obtain ⟨me, _, hc⟩ := Option.bind_eq_some_iff.mp hs
    cases c with
    | stub =>
      have hc' : fxEsrStub s me = some s' := hc
      unfold fxEsrStub at hc'
      split at hc'
      · obtain rfl := Option.some.inj hc'
        show IdleKept cfg.idle (s.rollback me).sched
        rw [rollback_sched]
        exact h
      · obtain rfl := Option.some.inj hc'
        exact h
      · cases hc'
    | exit =>
      obtain ⟨⟨_, hne⟩, rfl⟩ := taken hc
      exact h.suspend hne
    | waitMsg q wait =>
      obtain ⟨⟨_, hne⟩, rfl⟩ := taken hc
      cases wait with
      | true => exact h.waitMsg (hne rfl)
      | false =>
        refine h.congr ?_ ?_ <;> rw [show (fxEsrWaitMsg s me q false).2.sched = s.sched from
          testAndWaitRecv_sched ..]
    | raisePl v =>
      obtain ⟨_, rfl⟩ := taken hc
      exact h
    | lowerPl v =>
      obtain ⟨_, rfl⟩ := taken hc
      exact h.congr rfl rfl

theorem IdleKept.worldStep {op : EsrWorldOp E F Q M} (h : IdleKept cfg.idle w.sys.sched)
    (hg : SlotLeft w op) (hs : esrWorldStep cfg op w = some w') :
    IdleKept cfg.idle w'.sys.sched := by
  cases op with
  | init e epl =>
    obtain ⟨⟨hne, _⟩, rfl⟩ := taken hs
    unfold fxEsrInitAt
    split
    · exact h.init hne epl
    · exact h
  | deinit e =>
    obtain ⟨⟨hne, _⟩, rfl⟩ := taken hs
    unfold fxEsrDeinit
    split
    · exact h.remove hne
    · exact h
  | run a =>
    by_cases hact : ∃ e msg, a = .activate e msg
    · obtain ⟨e, msg, rfl⟩ := hact
      have hs' : (if w.valid e then some { w with sys := fxEsrActivate w.sys e msg } else some w) =
          some w' := hs
      by_cases hv : w.valid e = true
      · rw [if_pos hv] at hs'
        obtain rfl := Option.some.inj hs'
        refine h.activate fun hor => ?_
        cases msg with
        | none => exact hg hv
        | some m => exact hg hv (hor.resolve_left nofun)
      · rw [if_neg hv] at hs'
        obtain rfl := Option.some.inj hs'
        exact h
    · have hrun : esrWorldStep cfg (.run a) w =
          (FxRtos.esrStep cfg a w.sys).map fun sys => { w with sys := sys } := by
        cases a with
        | activate e msg => exact absurd ⟨e, msg, rfl⟩ hact
        | send q msg => rfl
        | call c => rfl
        | dispatch f => rfl
      rw [hrun] at hs
      obtain ⟨s1, hs1, rfl⟩ := Option.map_eq_some_iff.mp hs
      refine h.esrStep (fun q msg e ha => ?_) (fun e msg ha => hact ⟨e, msg, ha⟩) hs1
      subst ha
      exact hg e

end Schritt

/-- The constructor puts the idle item into its slot. -/
theorem bitmapCtor_idleKept {idle : E} {prio : E → Nat} (hidle : prio idle = 31) :
    IdleKept idle (bitmapCtor idle prio) := by
  unfold bitmapCtor
  refine ⟨?_, ?_, fun x hx _ => ?_⟩
  · rw [fxSchedItemResume_gDomain, if_pos rfl]
    show IdleSlot idle ((BitmapContainer.init E).add idle (prio idle))
    rw [hidle]
    refine ⟨fun p hp => ?_, ?_⟩
    · show (0#32 ||| 1#32 <<< 31).getLsbD p = (update (fun _ => none) 31 (some idle) p).isSome
      rw [Lib.getLsbD_setBit hp]
      by_cases h31 : p = 31
      · simp [h31]
      · rw [Function.update_of_ne h31, decide_eq_false (Ne.symm h31)]
        simp
    · show update (fun _ => none) 31 (some idle) 31 = some idle
      rw [Function.update_self]
  · rw [fxSchedItemResume_item, Function.update_self]
    show SchedItem.mk (1 - 1) (prio idle) = _
    rw [hidle]
  · rw [fxSchedItemResume_item, Function.update_of_ne hx]
    exact Nat.one_ne_zero

/-- **There is always an item to select**, and the idle ESR is in its own slot, in every run in
    which no ESR of the idle level is resumed. -/
theorem esr_items_registered {cfg : EsrConfig E F} {psp : F} {msgq : Q → EsrMsgq E M}
    {w : EsrWorld E F Q M}
    (hr : Reach (esrWorldStep cfg) SlotLeft (esrWorldStart cfg psp msgq) w) :
    Selectable cfg w := by
  have h0 : IdleKept cfg.idle (esrWorldStart cfg psp msgq : EsrWorld E F Q M).sys.sched := by
    exact bitmapCtor_idleKept (if_pos rfl)
  have h : IdleKept cfg.idle w.sys.sched :=
    hr.inv (J := fun w => IdleKept cfg.idle w.sys.sched) h0 fun _ _ _ hi hg hs => hi.worldStep hg hs
  obtain ⟨hmap, hget⟩ := h.domain.get
  exact ⟨hmap, hget, h.domain.slot⟩

def threeEsrs : EsrConfig (Fin 3) Nat := ⟨Fin.last 2, fun frame => frame - 8⟩

/-- The kernel as it starts, with two objects to be made ESRs of, and no port. -/
def threeObjects : EsrWorld (Fin 3) Nat Empty Nat :=
  esrWorldStart threeEsrs 900 nofun

/-- Two ESRs come, one of them runs to its end and goes. -/
theorem esr_items_registered_gone : ∃ w : EsrWorld (Fin 3) Nat Empty Nat,
    w.valid 0 = false ∧ w.valid 1 = true ∧ Selectable threeEsrs w := by
  have hrun : (runIf (fun w op => decide (SlotLeft w op))
      (esrWorldStep threeEsrs)
      [.init 0 7, .init 1 30, .run (.activate 0 (some 5)), .run (.dispatch 900), .run (.call .stub),
        .run (.call .stub), .run (.call .exit), .run (.dispatch 800), .deinit 0]
      threeObjects).any (fun w => decide (w.valid 0 = false ∧ w.valid 1 = true)) = true := by
    decide +kernel
  obtain ⟨w, hreach, hw⟩ := exists_of_runIf (fun _ _ h => of_decide_eq_true h) hrun
  obtain ⟨h0, h1⟩ := of_decide_eq_true hw
  exact ⟨w, h0, h1, esr_items_registered hreach⟩

/-- **The level of the idle ESR is accepted**: an ESR of EPL 31 is activated, and destroyed before
    it has run. It had taken the slot of the idle ESR, and leaves nothing to select. -/
theorem idle_overwritten : ¬ ∀ w : EsrWorld (Fin 3) Nat Empty Nat,
    Reach (esrWorldStep threeEsrs) Always threeObjects w →
      w.sys.sched.reschedPending = true → Selectable threeEsrs w := by
  intro hall
  have hrun : (run (esrWorldStep threeEsrs)
      [.init 0 31, .run (.activate 0 (some 5)), .run (.dispatch 900), .deinit 0]
      threeObjects).any (fun w => decide (w.sys.sched.reschedPending = true ∧
        w.sys.sched.gDomain.itemsMap = 0#32)) = true := by
    decide +kernel
  obtain ⟨w, hreach, hw⟩ := exists_of_run hrun
  obtain ⟨hp, h0⟩ := of_decide_eq_true hw
  exact (hall w hreach hp).map h0

end FxRtos
