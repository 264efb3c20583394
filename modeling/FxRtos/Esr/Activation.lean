/-
  File:      FxRtos/Esr/Activation.lean
  Subject:   WHAT AN ACTIVATION OF AN IDLE ESR BRINGS ABOUT. `fx_esr_activate` resumes the ESR if
             its `msg` field is empty; empty is what `fx_esr_exit` leaves it, not what
             `fx_esr_wait_msg` and `fx_esr_init` do.

  * `OldEsrs` -- ESRs initialized in any memory. `fx_esr_init` leaves `intr_context`, `msg` and the
    waiter as they were, and the stub rolls the waiter back before it calls the function.
  * `EsrCounted` -- no ESR is suspended more than once, and an active one is not suspended.
  * `activation_takes_effect` -- the ESR comes into the container with the message exactly if its
    field was empty, and is called with it unless a port or a second activation is faster.
-/
import FxRtos.Esr.Mailbox

namespace FxRtos

open Function (update)
open Lib

set_option linter.unusedSectionVars false

variable {E F Q M : Type} [DecidableEq E] [DecidableEq Q]

/-! ## 1. The start, and what an activation is for -/

/-- What an ESR finds in its memory: the fields that `fx_esr_init` leaves and that are read later.
    The wait block is written by `fx_esr_wait_msg` before `waiter.wb` points to it. -/
structure EsrMemory (F M : Type) where
  intrContext : Option F
  msg : Option M
  wbNum : Nat

def EsrMemory.esr (m : EsrMemory F M) : FxEsr F Q M :=
  ⟨0, false, m.intrContext, m.msg, none, .body⟩

/-- `wbNum` is `waiter.wb_num` of the ESRs that neither waited nor were started yet, whose
    `waiter.wb` points to no wait blocks. The system's own `wbWaitable` speaks of the others. -/
structure OldEsrs (E F Q M : Type) where
  sys : EsrSys E F Q M
  wbNum : E → Nat

/-- All ESRs initialized in the memory `old`. -/
def esrStartOver (cfg : EsrConfig E F) (epl : E → Nat) (psp : F) (msgq : Q → EsrMsgq E M)
    (old : E → EsrMemory F M) : OldEsrs E F Q M where
  sys := { esrStart cfg epl psp msgq with esr := esrCtor cfg epl fun e => (old e).esr }
  wbNum e := (old e).wbNum

/-- The ESR whose wait is rolled back. -/
def EsrSys.rolledBack (s : EsrSys E F Q M) : EsrOp E F Q M → Option E
  | .call .stub => s.currentEsr.filter fun me => decide ((s.esr me).pc = .stub)
  | _ => none

/-- The ESR that `fx_sync_waiter_prepare` gives a wait block. -/
def EsrSys.prepared (s : EsrSys E F Q M) : EsrOp E F Q M → Option E
  | .call (.waitMsg _ _) => s.currentEsr
  | _ => none

/-- A rollback of wait blocks that were never prepared follows the old `waiter.wb`, and nothing can
    be said of what comes after it: there is no such step. -/
def oldEsrStep (cfg : EsrConfig E F) (a : EsrOp E F Q M) (s : OldEsrs E F Q M) :
    Option (OldEsrs E F Q M) :=
  if (s.sys.rolledBack a).all fun e => s.wbNum e == 0 then
    (esrStep cfg a s.sys).map fun sys =>
      ⟨sys, fun e => if s.sys.rolledBack a = some e ∨ s.sys.prepared a = some e then 0
        else s.wbNum e⟩
  else none

/-- The item is in the scheduler container. -/
def EsrSys.Queued (s : EsrSys E F Q M) (e : E) : Prop :=
  s.sched.gDomain.items (s.prio e) = some e ∧
    s.sched.gDomain.itemsMap.getLsbD (s.prio e) = true

instance decidableQueued (s : EsrSys E F Q M) (e : E) : Decidable (s.Queued e) :=
  inferInstanceAs (Decidable (_ ∧ _))

/-- The function of `e` has not been called yet, no port delivers to `e`, and `e`, activated
    without a message, is given none. -/
def Unreached (e : E) (m : Option M) (s : EsrSys E F Q M) : EsrOp E F Q M → Prop
  | .send q _ => (s.msgq q).items = 0 → s.receiver q ≠ some e
  | .activate e' m' => m = none → e' = e → m' = none
  | .call .stub => s.currentEsr = some e → (s.esr e).pc ≠ .call
  | _ => True

/-! ## 2. Suspended once -/

/-- Items stay in their slots and none is suspended any further. -/
structure Eased (c c' : SchedContext E (BitmapContainer E)) : Prop where
  slot : SlotOk c → SlotOk c'
  count : ∀ e, (c'.item e).suspendCount ≤ (c.item e).suspendCount

section Planung

variable {c c' : SchedContext E (BitmapContainer E)}

theorem Eased.refl (c : SchedContext E (BitmapContainer E)) : Eased c c :=
  ⟨fun h => h, fun _ => Nat.le_refl _⟩

theorem Eased.congr (hd : c'.gDomain = c.gDomain) (hi : c'.item = c.item) : Eased c c' :=
  ⟨fun h => h.congr hd hi, fun e => by rw [hi]⟩

theorem Eased.resume (c : SchedContext E (BitmapContainer E)) (x : E) :
    Eased c (fxSchedItemResume c x) := by
  refine ⟨fun h => h.itemResume x, fun e => ?_⟩
  rw [fxSchedItemResume_item]
  by_cases he : e = x
  · rw [he, Function.update_self]
    exact Nat.sub_le ..
  · rw [Function.update_of_ne he]

end Planung

variable {cfg : EsrConfig E F} {s s' : EsrSys E F Q M} {me e : E} {q : Q}

theorem eased_activate (s : EsrSys E F Q M) (e : E) (msg : Option M) :
    Eased s.sched (fxEsrActivate s e msg).sched := by
  unfold fxEsrActivate
  split
  · exact .resume s.sched e
  · split
    · exact .resume s.sched e
    · exact .refl s.sched

theorem eased_send (s : EsrSys E F Q M) (q : Q) (msg : Option M) :
    Eased s.sched (fxMsgqSend s q msg).2.sched := by
  unfold fxMsgqSend
  split
  · exact .refl s.sched
  · split
    · exact .resume s.sched _
    · exact .refl s.sched

theorem eased_wait (s : EsrSys E F Q M) (me : E) (q : Q) :
    Eased (fxSchedItemSuspend s.sched me) (fxEsrWaitMsg s me q true).2.sched := by
  have htest : (esrTestAndWaitRecv (s.prepareWb me) me q true).2.sched = s.sched :=
    testAndWaitRecv_sched ..
  have hleave : ((esrTestAndWaitRecv (s.prepareWb me) me q true).2.leave me).sched =
      fxSchedItemSuspend s.sched me := by
    rw [← htest]
    rfl
  show Eased _ (if _ then _ else _ : EsrSys E F Q M).sched
  rw [← hleave]
  split
  · exact .resume _ me
  · exact .refl _

theorem stub_sched (h : fxEsrStub s me = some s') : s'.sched = s.sched := by
  unfold fxEsrStub at h
  split at h
  · obtain rfl := Option.some.inj h
    exact rollback_sched s me
  · obtain rfl := Option.some.inj h
    rfl
  · cases h

/-- What a step can do to the scheduler: only the ESR that leaves the processor is suspended. -/
theorem esr_eased {a : EsrOp E F Q M} (h : esrStep cfg a s = some s') :
    Eased s.sched s'.sched ∨ ∃ me, s.currentEsr = some me ∧ s'.currentEsr = none ∧
      Eased (fxSchedItemSuspend s.sched me) s'.sched := by
  cases a with
  | activate e msg =>
    obtain rfl := Option.some.inj h
    exact .inl (eased_activate s e msg)
  | send q msg =>
    obtain rfl := Option.some.inj h
    exact .inl (eased_send s q msg)
  | dispatch f =>
    obtain rfl := Option.some.inj h
    rw [dispatch_sched]
    exact .inl (.congr (fxSchedGetNext_gDomain _) (fxSchedGetNext_item _))
  | call c =>
    obtain ⟨me, hme, hc⟩ := Option.bind_eq_some_iff.mp h
    cases c with
    | stub =>
      rw [stub_sched hc]
      exact .inl (.refl _)
    | raisePl v =>
      obtain ⟨_, rfl⟩ := taken hc
      exact .inl (.refl _)
    | lowerPl v =>
      obtain ⟨_, rfl⟩ := taken hc
      exact .inl (.congr rfl rfl)
    | exit =>
      obtain ⟨_, rfl⟩ := taken hc
      exact .inr ⟨me, hme, rfl, .refl _⟩
    | waitMsg q wait =>
      obtain ⟨_, rfl⟩ := taken hc
      cases wait with
      | false =>
        rw [show (fxEsrWaitMsg s me q false).2.sched = s.sched from testAndWaitRecv_sched ..]
        exact .inl (.refl _)
      | true =>
        refine .inr ⟨me, hme, ?_, eased_wait s me q⟩
        show (if _ then _ else _ : EsrSys E F Q M).currentEsr = none
        split <;> rfl

/-- No ESR is suspended more than once; an active one, and so the current one, is not. -/
structure EsrCounted (s : EsrSys E F Q M) : Prop where
  slot : SlotOk s.sched
  count : ∀ e, (s.sched.item e).suspendCount ≤ 1
  current : ∀ e, s.currentEsr = some e → (s.esr e).active = true
  ready : ∀ e, (s.esr e).active = true → s.Ready e

theorem EsrCounted.dispatch (h : EsrCounted s) (alloc : F → F) :
    EsrCounted (esrDispatchHandler alloc s) := by
  have hi := dispatch_item alloc s
  have hslot : SlotOk (esrDispatchHandler alloc s).sched := by
    rw [dispatch_sched]
    exact h.slot.congr (fxSchedGetNext_gDomain _) (fxSchedGetNext_item _)
  have hrdy : ∀ e, s.Ready e → (esrDispatchHandler alloc s).Ready e := fun e hr => by
    unfold EsrSys.Ready
    rw [hi]
    exact hr
  refine ⟨hslot, fun e => hi ▸ h.count e, fun e hce => ?_, fun e ha => ?_⟩
  · rcases dispatch_esr h.slot alloc with ⟨he, hc | ⟨n, hc, ha⟩⟩ | ⟨n, f, _, _, hc, he⟩
    · rw [he]
      exact h.current e (hc.symm.trans hce)
    · obtain rfl : n = e := Option.some.inj (hc.symm.trans hce)
      rw [he]
      exact ha
    · obtain rfl : n = e := Option.some.inj (hc.symm.trans hce)
      rw [he, Function.update_self]
  · rcases dispatch_esr h.slot alloc with ⟨he, _⟩ | ⟨n, f, hr, _, _, he⟩
    · rw [he] at ha
      exact hrdy e (h.ready e ha)
    · by_cases hen : e = n
      · rw [hen]
        exact hrdy n hr
      · rw [he, Function.update_of_ne hen] at ha
        exact hrdy e (h.ready e ha)

theorem EsrCounted.step {a : EsrOp E F Q M} (h : EsrCounted s) (hs : esrStep cfg a s = some s') :
    EsrCounted s' := by
  rcases esr_cases hs with ⟨f, rfl, rfl⟩ | ⟨hn, _⟩ | ⟨me, hme, _, hn, _⟩
  · have h' : EsrCounted { s with psp := f } := ⟨h.slot, h.count, h.current, h.ready⟩
    exact h'.dispatch cfg.alloc
  · rcases esr_eased hs with he | ⟨me, hme, hnone, _⟩
    · refine ⟨he.slot h.slot, fun e => (he.count e).trans (h.count e), fun e hce => ?_,
        fun e ha => ?_⟩
      · rw [hn.active]
        exact h.current e (hn.current ▸ hce)
      · exact hn.ready e (h.ready e (hn.active e ▸ ha))
    · -- nobody leaves the processor
      rw [hn.current, hme] at hnone
      cases hnone
  · have hcount : SlotOk s'.sched ∧ ∀ e, (s'.sched.item e).suspendCount ≤ 1 := by
      rcases esr_eased hs with he | ⟨me', hme', _, he⟩
      · exact ⟨he.slot h.slot, fun e => (he.count e).trans (h.count e)⟩
      · refine ⟨he.slot (h.slot.itemSuspend me'), fun e => (he.count e).trans ?_⟩
        rw [fxSchedItemSuspend_item]
        by_cases hem : e = me'
        · have h0 : (s.sched.item me').suspendCount = 0 := h.ready me' (h.current me' hme')
          rw [hem, Function.update_self]
          show (s.sched.item me').suspendCount + 1 ≤ 1
          rw [h0]
        · rw [Function.update_of_ne hem]
          exact h.count e
    refine ⟨hcount.1, hcount.2, fun e hce => ?_, fun e ha => ?_⟩
    · rw [hn.current] at hce
      cases hce
    · obtain ⟨ha, hem⟩ := (hn.active e).mp ha
      exact hn.ready e hem (h.ready e ha)

variable {epl : E → Nat} {psp : F} {msgq : Q → EsrMsgq E M} {old : E → EsrMemory F M}

theorem esrCounted_start : EsrCounted (esrStartOver cfg epl psp msgq old).sys := by
  have hitem : ∀ e, ((esrStartOver cfg epl psp msgq old).sys.sched.item e).suspendCount =
      if e = cfg.idle then 0 else 1 := by
    intro e
    show ((esrStart cfg epl psp msgq).sched.item e).suspendCount = _
    rw [esrStart_item]
    split <;> rfl
  refine ⟨bitmapCtor_slotOk cfg.idle epl, fun e => ?_, fun e he => ?_, fun e ha => ?_⟩
  · rw [hitem]
    split
    · exact Nat.zero_le 1
    · exact Nat.le_refl 1
  · exact decide_eq_true (Option.some.inj he).symm
  · unfold EsrSys.Ready
    rw [hitem, if_pos (of_decide_eq_true ha)]

/-- The priorities are those of the start. -/
theorem prio_step {a : EsrOp E F Q M} (hs : esrStep cfg a s = some s') (e : E) :
    s'.prio e = s.prio e := by
  rcases esr_cases hs with ⟨f, rfl, rfl⟩ | ⟨hn, _⟩ | ⟨me, _, _, hn, _⟩
  · exact dispatch_prio ..
  · exact hn.prio e
  · exact hn.prio e

/-! ## 3. From the activation to the call -/

/-- An ESR activated with `m`, up to the call of its function. -/
structure Awaiting (e : E) (m : Option M) (s : EsrSys E F Q M) : Prop where
  msg : (s.esr e).msg = m
  ready : s.Ready e
  before : (s.esr e).active = true → (s.esr e).pc ≠ .body

theorem Awaiting.congr {m : Option M} (h : Awaiting e m s) (he : s'.esr e = s.esr e)
    (hr : s.Ready e → s'.Ready e) : Awaiting e m s' :=
  ⟨he ▸ h.msg, hr h.ready, fun ha => he ▸ h.before (he ▸ ha)⟩

theorem testAndWaitRecv_other (s : EsrSys E F Q M) (q : Q) (wait : Bool) (he : e ≠ me) :
    (esrTestAndWaitRecv s me q wait).2.esr e = s.esr e := by
  unfold esrTestAndWaitRecv
  split
  · show (if wait then s.waitStart me q else s).esr e = _
    split
    · exact Function.update_of_ne he ..
    · rfl
  · exact Function.update_of_ne he ..

theorem waitMsg_other (s : EsrSys E F Q M) (q : Q) (wait : Bool) (he : e ≠ me) :
    (fxEsrWaitMsg s me q wait).2.esr e = s.esr e := by
  have htest : (esrTestAndWaitRecv (s.prepareWb me) me q wait).2.esr e = s.esr e :=
    (testAndWaitRecv_other _ q wait he).trans (Function.update_of_ne he ..)
  have hleave : ((esrTestAndWaitRecv (s.prepareWb me) me q wait).2.leave me).esr e = s.esr e :=
    (Function.update_of_ne he ..).trans htest
  cases wait with
  | false => exact htest
  | true =>
    show (if _ then _ else _ : EsrSys E F Q M).esr e = _
    split
    · exact hleave
    · exact hleave

/-- A call changes the ESR that makes it, and no other one. -/
theorem esrCall_other {c : EsrCall Q} (hs : esrCall cfg me s c = some s') (he : e ≠ me) :
    s'.esr e = s.esr e := by
  cases c with
  | stub =>
    have hs' : fxEsrStub s me = some s' := hs
    unfold fxEsrStub at hs'
    split at hs'
    · obtain rfl := Option.some.inj hs'
      show update (s.rollback me).esr me _ e = _
      rw [Function.update_of_ne he, rollback_esr, Function.update_of_ne he]
    · obtain rfl := Option.some.inj hs'
      exact Function.update_of_ne he ..
    · cases hs'
  | exit =>
    obtain ⟨_, rfl⟩ := taken hs
    rw [exit_esr, Function.update_of_ne he]
  | raisePl v =>
    obtain ⟨_, rfl⟩ := taken hs
    exact Function.update_of_ne he ..
  | lowerPl v =>
    obtain ⟨_, rfl⟩ := taken hs
    exact Function.update_of_ne he ..
  | waitMsg q wait =>
    obtain ⟨_, rfl⟩ := taken hs
    exact waitMsg_other s q wait he

theorem activate_other (s : EsrSys E F Q M) {e' : E} (m : Option M) (he : e ≠ e') :
    (fxEsrActivate s e' m).esr e = s.esr e := by
  unfold fxEsrActivate
  split
  · rfl
  · split
    · exact Function.update_of_ne he ..
    · rfl

/-- A second activation, the first one with the message `m`. -/
theorem activate_again (s : EsrSys E F Q M) (e : E) (m' : Option M)
    (hm : (s.esr e).msg = none → m' = none) : (fxEsrActivate s e m').esr e = s.esr e := by
  unfold fxEsrActivate
  split
  · rfl
  · rename_i v
    split
    · rename_i hnone
      cases hm (Option.isNone_iff_eq_none.mp hnone)
    · rfl

theorem send_other (s : EsrSys E F Q M) (msg : Option M)
    (hr : (s.msgq q).items = 0 → s.receiver q ≠ some e) :
    (fxMsgqSend s q msg).2.esr e = s.esr e := by
  unfold fxMsgqSend
  split
  · rfl
  · split
    · rename_i r hsome
      obtain ⟨h0, hrec⟩ := Option.ite_none_right_eq_some.mp hsome
      have her : e ≠ r := by
        rintro rfl
        exact hr h0 hrec
      show ((s.setMsg r msg).notify q r).esr e = _
      rw [deliver_esr, Function.update_of_ne her]
    · rfl

/-- The first half of the stub, in which the function is not called yet. -/
theorem Awaiting.stub {m : Option M} (h : Awaiting e m s) (hpc : (s.esr e).pc ≠ .call)
    (hs : fxEsrStub s e = some s') : Awaiting e m s' := by
  have hsched := stub_sched hs
  unfold fxEsrStub at hs
  split at hs
  · obtain rfl := Option.some.inj hs
    have hself : ((s.rollback e).setEsr e { (s.rollback e).esr e with pc := .call }).esr e =
        { s.esr e with wbWaitable := none, pc := .call } := by
      show update (s.rollback e).esr e _ e = _
      rw [Function.update_self, rollback_wait]
    refine ⟨by rw [hself]; exact h.msg, ?_, fun _ => by rw [hself]; exact EsrPc.noConfusion⟩
    unfold EsrSys.Ready
    rw [hsched]
    exact h.ready
  · rename_i hcall
    exact absurd hcall hpc
  · cases hs

/-- **One step before the call**: the message stays. -/
theorem Awaiting.step {a : EsrOp E F Q M} {m : Option M} (h : Awaiting e m s) (hc : EsrCounted s)
    (hg : Unreached e m s a) (hs : esrStep cfg a s = some s') : Awaiting e m s' := by
  cases a with
  | activate e' m' =>
    obtain rfl := Option.some.inj hs
    have hr := (SameNest.activate (s := s) e' m').ready e
    by_cases hee : e = e'
    · subst hee
      exact h.congr (activate_again s e m' fun h0 => hg (h.msg ▸ h0) rfl) hr
    · exact h.congr (activate_other s m' hee) hr
  | send q msg =>
    obtain rfl := Option.some.inj hs
    exact h.congr (send_other s msg hg) ((SameNest.send q msg).ready e)
  | dispatch f =>
    obtain rfl := Option.some.inj hs
    have h' : Awaiting e m { s with psp := f } := ⟨h.msg, h.ready, h.before⟩
    have hr : (esrDispatchHandler cfg.alloc { s with psp := f }).Ready e := by
      unfold EsrSys.Ready
      rw [dispatch_item]
      exact h.ready
    rcases dispatch_esr (s := { s with psp := f }) hc.slot cfg.alloc with
      ⟨he, _⟩ | ⟨n, g, _, _, _, he⟩
    · exact h'.congr (by rw [he]) fun _ => hr
    · by_cases hen : e = n
      · -- it is started
        subst hen
        exact ⟨by rw [he, Function.update_self]; exact h.msg, hr, fun _ => by
          rw [he, Function.update_self]
          exact EsrPc.noConfusion⟩
      · exact h'.congr (by rw [he, Function.update_of_ne hen]) fun _ => hr
  | call c =>
    obtain ⟨me, hme, hcall⟩ := Option.bind_eq_some_iff.mp hs
    by_cases hem : e = me
    · subst hem
      have hpc := h.before (hc.current e hme)
      have hbody : s.inBody e = false := decide_eq_false hpc
      cases c with
      | stub => exact h.stub (hg hme) hcall
      | exit =>
        obtain ⟨⟨hb, _⟩, _⟩ := taken hcall
        rw [hbody] at hb
        cases hb
      | waitMsg q wait =>
        obtain ⟨⟨hb, _⟩, _⟩ := taken hcall
        rw [hbody] at hb
        cases hb
      | raisePl v =>
        obtain ⟨hb, _⟩ := taken hcall
        rw [hbody] at hb
        cases hb
      | lowerPl v =>
        obtain ⟨hb, _⟩ := taken hcall
        rw [hbody] at hb
        cases hb
    · refine h.congr (esrCall_other hcall hem) fun hr => ?_
      rcases esr_cases hs with ⟨f, hf, _⟩ | ⟨hn, _⟩ | ⟨me', hme', _, hn, _⟩
      · cases hf
      · exact hn.ready e hr
      · obtain rfl : me = me' := Option.some.inj (hme.symm.trans hme')
        exact hn.ready e hem hr

/-! ## 4. Activations -/

/-- Resuming an ESR that is suspended once puts it into the container. -/
theorem resume_queued (hlt : s.prio e < 32) (h1 : (s.sched.item e).suspendCount = 1) :
    (s.resume e).Queued e := by
  have hprio : (s.resume e).prio e = s.prio e := (SameNest.resume (s := s) e).prio e
  have hd : (s.resume e).sched.gDomain = s.sched.gDomain.add e (s.prio e) := by
    show (fxSchedItemResume s.sched e).gDomain = _
    rw [fxSchedItemResume_gDomain, if_pos h1]
    rfl
  unfold EsrSys.Queued
  rw [hprio, hd]
  constructor
  · show update s.sched.gDomain.items (s.prio e) (some e) (s.prio e) = some e
    rw [Function.update_self]
  · show (s.sched.gDomain.itemsMap ||| 1#32 <<< s.prio e).getLsbD (s.prio e) = true
    rw [Lib.getLsbD_setBit hlt, decide_eq_true rfl, Bool.or_true]

/-- **What the call itself does**: the ESR comes into the container with the message exactly if its
    field was empty. -/
theorem activate_queued_iff (hs : EsrCounted s) (hlt : s.prio e < 32) (he : ¬ s.Ready e)
    (m : Option M) : (fxEsrActivate s e m).Queued e ∧ ((fxEsrActivate s e m).esr e).msg = m ↔
      (s.esr e).msg = none := by
  have h1 : (s.sched.item e).suspendCount = 1 := by
    have := hs.count e
    have h0 : (s.sched.item e).suspendCount ≠ 0 := he
    omega
  cases m with
  | none =>
    show (s.resume e).Queued e ∧ (s.esr e).msg = none ↔ _
    exact and_iff_right (resume_queued hlt h1)
  | some v =>
    by_cases hnone : (s.esr e).msg = none
    · have hact : fxEsrActivate s e (some v) = (s.setMsg e (some v)).resume e :=
        if_pos (Option.isNone_iff_eq_none.mpr hnone)
      rw [hact]
      refine iff_of_true ⟨resume_queued (s := s.setMsg e (some v)) hlt h1, ?_⟩ hnone
      show (update s.esr e { s.esr e with msg := some v } e).msg = some v
      rw [Function.update_self]
    · have hact : fxEsrActivate s e (some v) = s :=
        if_neg fun h => hnone (Option.isNone_iff_eq_none.mp h)
      rw [hact]
      exact iff_of_false (fun h => he (hs.slot _ e h.1.1).2) hnone

/-- Activated with its field empty. -/
theorem awaiting_activate (cfg : EsrConfig E F) (hs : EsrCounted s) (hlt : s.prio e < 32)
    (he : ¬ s.Ready e) (hmsg : (s.esr e).msg = none) (m : Option M) :
    Awaiting e m (fxEsrActivate s e m) := by
  obtain ⟨hq, hm⟩ := (activate_queued_iff hs hlt he m).mpr hmsg
  have hstep : esrStep cfg (.activate e m) s = some (fxEsrActivate s e m) := rfl
  have hs' := hs.step hstep
  refine ⟨hm, (hs'.slot _ e hq.1).2, fun ha => ?_⟩
  rw [(SameNest.activate (s := s) e m).active] at ha
  exact absurd (hs.ready e ha) he

/-! ## 5. Over old memory -/

section Alt

variable {o o' : OldEsrs E F Q M} {a : EsrOp E F Q M}

theorem oldEsrStep_sys (h : oldEsrStep cfg a o = some o') : esrStep cfg a o.sys = some o'.sys := by
  obtain ⟨_, h⟩ := Option.ite_none_right_eq_some.mp h
  obtain ⟨sys, hs, rfl⟩ := Option.map_eq_some_iff.mp h
  exact hs

/-- Before the function is called no wait is prepared, so what the memory held is still there, or
    there was nothing to roll back. -/
theorem wbNum_step {m : Option M} (h : Awaiting e m o.sys) (hc : EsrCounted o.sys)
    (hs : oldEsrStep cfg a o = some o') : o'.wbNum e = o.wbNum e := by
  obtain ⟨hroll, hs⟩ := Option.ite_none_right_eq_some.mp hs
  obtain ⟨sys, hsys, rfl⟩ := Option.map_eq_some_iff.mp hs
  show (if _ then 0 else o.wbNum e) = o.wbNum e
  split
  · rename_i hor
    rcases hor with hback | hprep
    · rw [hback] at hroll
      exact (beq_iff_eq.mp hroll).symm
    · -- it would be in its function
      cases a with
      | call c =>
        cases c with
        | waitMsg q wait =>
          have hcur : o.sys.currentEsr = some e := hprep
          obtain ⟨me, hme, hcall⟩ := Option.bind_eq_some_iff.mp hsys
          obtain rfl : e = me := Option.some.inj (hcur.symm.trans hme)
          obtain ⟨⟨hb, _⟩, _⟩ := taken hcall
          exact absurd (of_decide_eq_true hb) (h.before (hc.current e hme))
        | _ => cases hprep
      | _ => cases hprep
  · rfl

/-- The stub starts exactly if there is nothing of the old memory to roll back. -/
theorem oldEsrStep_stub (hcur : o.sys.currentEsr = some e) (hpc : (o.sys.esr e).pc = .stub) :
    (oldEsrStep cfg (.call .stub) o).isSome ↔ o.wbNum e = 0 := by
  have hroll : o.sys.rolledBack (.call .stub) = some e := by
    rw [EsrSys.rolledBack, hcur]
    exact Option.filter_some_pos (decide_eq_true hpc)
  have hstub : (esrStep cfg (.call .stub) o.sys).isSome := by
    show (o.sys.currentEsr.bind fun me => fxEsrStub o.sys me).isSome
    rw [hcur, Option.bind_some, fxEsrStub, hpc]
    rfl
  unfold oldEsrStep
  rw [hroll, Option.all_some]
  by_cases h0 : o.wbNum e = 0
  · rw [if_pos (beq_iff_eq.mpr h0), Option.isSome_map]
    exact iff_of_true hstub h0
  · rw [if_neg fun h => h0 (beq_iff_eq.mp h)]
    exact iff_of_false nofun h0

end Alt

/-- **An activation takes effect** exactly where the field is empty: the ESR is in the container
    with its message. It is then called with it, in every run in which no port delivers to it
    before and in which it is given no message after an activation without one, provided that its
    stub can be started; and it can exactly if its waiter counts no wait blocks that old memory
    left. -/
theorem activation_takes_effect (hepl : ∀ e, epl e < 32) {o : OldEsrs E F Q M}
    (hr : Reach (oldEsrStep cfg) Always (esrStartOver cfg epl psp msgq old) o) {e : E}
    (he : ¬ o.sys.Ready e) (m : Option M) :
    ((fxEsrActivate o.sys e m).Queued e ∧ ((fxEsrActivate o.sys e m).esr e).msg = m ↔
      (o.sys.esr e).msg = none) ∧
    ((o.sys.esr e).msg = none → ∀ o', Reach (oldEsrStep cfg) (fun o => Unreached e m o.sys)
        { o with sys := fxEsrActivate o.sys e m } o' →
      ((o'.sys.esr e).active = true → (o'.sys.esr e).pc ≠ .body) ∧
      (o'.sys.currentEsr = some e → (o'.sys.esr e).pc = .stub →
        ((oldEsrStep cfg (.call .stub) o').isSome ↔ o.wbNum e = 0)) ∧
      (o'.sys.currentEsr = some e → (o'.sys.esr e).pc = .call → o'.sys.reads e .stub = m)) := by
  have hcounted : EsrCounted o.sys :=
    hr.inv (J := fun o => EsrCounted o.sys) esrCounted_start
      fun _ _ _ hi _ hs => hi.step (oldEsrStep_sys hs)
  have hprio : o.sys.prio e = epl e := by
    refine hr.inv (J := fun o => o.sys.prio e = epl e) ?_
      fun _ _ _ hi _ hs => (prio_step (oldEsrStep_sys hs) e).trans hi
    show ((esrStart cfg epl psp msgq).sched.item e).prio = _
    rw [esrStart_item]
    split <;> rfl
  have hlt : o.sys.prio e < 32 := hprio ▸ hepl e
  refine ⟨activate_queued_iff hcounted hlt he m, fun hmsg o' hr' => ?_⟩
  obtain ⟨hawait, _, hnum⟩ : Awaiting e m o'.sys ∧ EsrCounted o'.sys ∧ o'.wbNum e = o.wbNum e := by
    refine hr'.inv (J := fun o' => Awaiting e m o'.sys ∧ EsrCounted o'.sys ∧
        o'.wbNum e = o.wbNum e)
      ⟨awaiting_activate cfg hcounted hlt he hmsg m, ?_, rfl⟩ fun _ _ _ hi hg hs => ?_
    · have hstep : esrStep cfg (.activate e m) o.sys = some (fxEsrActivate o.sys e m) := rfl
      exact hcounted.step hstep
    · have hsys := oldEsrStep_sys hs
      exact ⟨hi.1.step hi.2.1 hg hsys, hi.2.1.step hsys, (wbNum_step hi.1 hi.2.1 hs).trans hi.2.2⟩
  refine ⟨hawait.before, fun hcur hpc => ?_, fun _ hpc => ?_⟩
  · rw [oldEsrStep_stub hcur hpc, hnum]
  · unfold EsrSys.reads
    rw [if_pos hpc]
    exact hawait.msg

/-- Four ESRs whose objects lay in zeroed memory, and two ports. -/
def fourIdle : OldEsrs (Fin 4) Nat Bool Nat :=
  esrStartOver fourEsrs fourEpls 0 (fun _ => esrMsgqInit (Fin 4) (fun _ => none) 1 .fifo)
    fun _ => ⟨none, none, 0⟩

/-- An ESR that was called with the message 7 and has exited is activated with 9. -/
theorem activation_takes_effect_again : ∃ o : OldEsrs (Fin 4) Nat Bool Nat,
    (fxEsrActivate o.sys 2 (some 9)).Queued 2 ∧
      ((fxEsrActivate o.sys 2 (some 9)).esr 2).msg = some 9 := by
  have hrun : (run (oldEsrStep fourEsrs)
      [.activate 2 (some 7), .dispatch 900, .call .stub, .call .stub, .call .exit, .dispatch 800]
      fourIdle).any (fun o => decide (¬ o.sys.Ready 2 ∧ (o.sys.esr 2).msg = none)) = true := by
    decide +kernel
  obtain ⟨o, hreach, hs⟩ := exists_of_run hrun
  obtain ⟨hready, hmsg⟩ := of_decide_eq_true hs
  exact ⟨o, (activation_takes_effect (by decide) hreach hready (some 9)).1.mpr hmsg⟩

/-- **An activation gets lost**: the ESR, called with the message 7, waits at an empty port; the 7
    is still in its field, and keeps the 9 out. -/
theorem activation_lost : ¬ ∀ o : OldEsrs (Fin 4) Nat Bool Nat,
    Reach (oldEsrStep fourEsrs) Always fourIdle o → ∀ e m, ¬ o.sys.Ready e →
      (fxEsrActivate o.sys e m).Queued e ∧ ((fxEsrActivate o.sys e m).esr e).msg = m := by
  intro hall
  have hrun : (run (oldEsrStep fourEsrs)
      [.activate 2 (some 7), .dispatch 900, .call .stub, .call .stub, .call (.waitMsg true true),
        .dispatch 800] fourIdle).any (fun o => decide (¬ o.sys.Ready 2 ∧
          ¬ (fxEsrActivate o.sys 2 (some 9)).Queued 2)) = true := by
    decide +kernel
  obtain ⟨o, hreach, hs⟩ := exists_of_run hrun
  obtain ⟨hready, hlost⟩ := of_decide_eq_true hs
  exact hlost (hall o hreach 2 (some 9) hready).1

end FxRtos
