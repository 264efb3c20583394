/-
  File:      FxRtos/Esr/Mailbox.lean
  Subject:   NO ACCEPTED MESSAGE IS OVERWRITTEN. The one `msg` field of an ESR is written by
             `fx_esr_activate` and by the delivery from a port; "subsequent activations will be
             skipped due to non-null message field".

  * Every message carries a serial number, which no code looks at, so that equal values are told
    apart; what is accepted and what is consumed is written down beside the state.
  * `MailKept` -- the two steps that lose the count: a delivery to an ESR that an activation has
    already given a message, its wait block being still queued until its stub runs; and an
    activation without a message of an ESR that waits with its last message left in the field.
  * `message_kept` -- in a run without such steps every accepted message is consumed at most
    once, and until then lies in one place.
-/
import FxRtos.Lib.Books
import FxRtos.Lib.Ring
import FxRtos.Lib.FirstMin
import FxRtos.Esr.Stack
import Mathlib.Data.Fintype.Basic

namespace FxRtos

open Function (update)
open Lib

set_option linter.unusedSectionVars false

variable {E F Q V M : Type} [DecidableEq E] [DecidableEq Q]

/-! ## 1. Numbered messages -/

/-- The operation with its message numbered. -/
def EsrOp.stamp (n : Nat) : EsrOp E F Q V → EsrOp E F Q (V × Nat)
  | .activate e msg => .activate e (msg.map fun v => (v, n))
  | .send q msg => .send q (msg.map fun v => (v, n))
  | .call c => .call c
  | .dispatch f => .dispatch f

/-- The message that an operation gets accepted: stored into an inactive ESR by the
    compare-and-swap, or FX_MSGQ_OK. -/
def EsrSys.accepts (s : EsrSys E F Q M) : EsrOp E F Q M → Option M
  | .activate e msg => if (s.esr e).active = false ∧ (s.esr e).msg.isNone then msg else none
  | .send q msg => if (fxMsgqSend s q msg).1 then msg else none
  | _ => none

/-- The message that the ESR `me` consumes by a call: passed to its function, or delivered to it
    while it runs. -/
def EsrSys.reads (s : EsrSys E F Q M) (me : E) : EsrCall Q → Option M
  | .stub => if (s.esr me).pc = .call then (s.esr me).msg else none
  | .waitMsg q false =>
    if (fxEsrWaitMsg s me q false).1 then ((fxEsrWaitMsg s me q false).2.esr me).msg else none
  | _ => none

def EsrSys.consumes (s : EsrSys E F Q M) : EsrOp E F Q M → Option M
  | .call c => s.currentEsr.bind fun me => s.reads me c
  | _ => none

/-- A step with numbered messages, and the books on them. -/
def postStep (cfg : EsrConfig E F) (a : EsrOp E F Q V)
    (w : EsrSys E F Q (V × Nat) × Books (V × Nat)) :
    Option (EsrSys E F Q (V × Nat) × Books (V × Nat)) :=
  let a' := a.stamp w.2.next
  (esrStep cfg a' w.1).map fun s' => (s', w.2.note (w.1.accepts a') (w.1.consumes a'))

/-- A cell of a port, counted from its front, or the field of an ESR. -/
inductive EsrPlace (E Q : Type) where
  | cell (q : Q) (i : Nat)
  | field (e : E)
  deriving DecidableEq

/-- What lies in a place: in a cell in use, in the `msg` field. -/
def EsrSys.held (s : EsrSys E F Q M) : EsrPlace E Q → Option M
  | .cell q i =>
    if i < (s.msgq q).items then (s.msgq q).buf (((s.msgq q).tail + i) % (s.msgq q).itemsMax)
    else none
  | .field e => (s.esr e).msg

/-- The message in the field of `e` is still to be passed to its function: `e` is about to be
    started, or has been and is in its stub. -/
def EsrSys.Fresh (s : EsrSys E F Q M) (e : E) : Prop :=
  if (s.esr e).active then (s.esr e).pc ≠ .body else s.Ready e

instance (s : EsrSys E F Q M) (e : E) : Decidable (s.Fresh e) := by
  unfold EsrSys.Fresh
  infer_instance

/-- The messages still to be consumed. -/
def EsrSys.stock (s : EsrSys E F Q M) : EsrPlace E Q → Option M
  | .cell q i => s.held (.cell q i)
  | .field e => if s.Fresh e then (s.esr e).msg else none

/-- What a field holds besides. -/
def EsrSys.spent (s : EsrSys E F Q M) (e : E) : Option M :=
  if s.Fresh e then none else (s.esr e).msg

/-- No step writes over a message, and none starts an ESR with a message it has had before. -/
def MailKept (s : EsrSys E F Q M) : EsrOp E F Q V → Prop
  | .activate e none =>
    ¬ ((s.esr e).wbWaitable.isSome ∧ ¬ s.Ready e ∧ (s.esr e).msg.isSome)
  | .send q _ => ∀ r, (s.msgq q).items = 0 → s.receiver q = some r →
    ¬ (s.Ready r ∧ (s.esr r).msg.isSome)
  | _ => True

instance [Fintype E] (s : EsrSys E F Q M) : (a : EsrOp E F Q V) → Decidable (MailKept s a)
  | .activate e none => inferInstanceAs
      (Decidable (¬ ((s.esr e).wbWaitable.isSome ∧ ¬ s.Ready e ∧ (s.esr e).msg.isSome)))
  | .send q _ => inferInstanceAs (Decidable (∀ r, (s.msgq q).items = 0 →
      s.receiver q = some r → ¬ (s.Ready r ∧ (s.esr r).msg.isSome)))
  | .activate _ (some _) => isTrue trivial
  | .call _ => isTrue trivial
  | .dispatch _ => isTrue trivial

/-! ## 2. Who waits where -/

/-- The indices of a port. -/
structure RingOk (x : EsrMsgq E M) : Prop where
  items : x.items ≤ x.itemsMax
  tail : 0 < x.itemsMax → x.tail < x.itemsMax
  head : x.head = (x.tail + x.items) % x.itemsMax

/-- What no message depends on, and every message does: an ESR stands in the queue of the port
    its wait block names, it is off the processor or still in its stub then, and an ESR that is
    suspended without waiting has an empty field. -/
structure MailWf (s : EsrSys E F Q M) : Prop where
  slot : SlotOk s.sched
  count : ∀ e, (s.sched.item e).suspendCount ≤ 1
  current : ∀ e, s.currentEsr = some e → (s.esr e).active = true
  ready : ∀ e, (s.esr e).active = true → s.Ready e
  wait_iff : ∀ e q, (s.esr e).wbWaitable = some q ↔ e ∈ (s.msgq q).recvWq
  nodup : ∀ q, (s.msgq q).recvWq.Nodup
  waiting : ∀ e, (s.esr e).active = true → (s.esr e).wbWaitable ≠ none → (s.esr e).pc = .stub
  quiet : ∀ e, ¬ s.Ready e → (s.esr e).wbWaitable = none → (s.esr e).msg = none
  ring : ∀ q, RingOk (s.msgq q)

variable {cfg : EsrConfig E F} {s s' : EsrSys E F Q M} {me : E} {q : Q}

/-- A step that changes one ESR. -/
theorem MailWf.change (h : MailWf s) (me : E) {x : FxEsr F Q M} (he : s'.esr = update s.esr me x)
    (hslot : SlotOk s'.sched) (hitem : ∀ e, e ≠ me → s'.sched.item e = s.sched.item e)
    (hcount : (s'.sched.item me).suspendCount ≤ 1)
    (hcur : ∀ e, s'.currentEsr = some e → if e = me then x.active = true else s.currentEsr = some e)
    (hready : x.active = true → s'.Ready me)
    (hmine : ∀ q, x.wbWaitable = some q ↔ me ∈ (s'.msgq q).recvWq)
    (hothers : ∀ q e, e ≠ me → (e ∈ (s'.msgq q).recvWq ↔ e ∈ (s.msgq q).recvWq))
    (hnodup : ∀ q, (s'.msgq q).recvWq.Nodup)
    (hwaiting : x.active = true → x.wbWaitable ≠ none → x.pc = .stub)
    (hquiet : ¬ s'.Ready me → x.wbWaitable = none → x.msg = none)
    (hring : ∀ q, RingOk (s'.msgq q)) : MailWf s' := by
  have hself : s'.esr me = x := by rw [he, Function.update_self]
  have hother : ∀ e, e ≠ me → s'.esr e = s.esr e := fun e hne => by
    rw [he, Function.update_of_ne hne]
  have hrdy : ∀ e, e ≠ me → (s'.Ready e ↔ s.Ready e) := fun e hne => by
    unfold EsrSys.Ready
    rw [hitem e hne]
  refine ⟨hslot, fun e => ?_, fun e hc => ?_, fun e ha => ?_, fun e q => ?_, hnodup,
    fun e ha hw => ?_, fun e hr hw => ?_, hring⟩
  · by_cases hem : e = me
    · exact hem ▸ hcount
    · rw [hitem e hem]
      exact h.count e
  · have := hcur e hc
    split at this
    · rename_i hem
      rw [hem, hself]
      exact this
    · rename_i hem
      rw [hother e hem]
      exact h.current e this
  · by_cases hem : e = me
    · rw [hem, hself] at ha
      exact hem ▸ hready ha
    · rw [hother e hem] at ha
      exact (hrdy e hem).mpr (h.ready e ha)
  · by_cases hem : e = me
    · rw [hem, hself]
      exact hmine q
    · rw [hother e hem, h.wait_iff, hothers q e hem]
  · by_cases hem : e = me
    · rw [hem, hself] at ha hw ⊢
      exact hwaiting ha hw
    · rw [hother e hem] at ha hw ⊢
      exact h.waiting e ha hw
  · by_cases hem : e = me
    · rw [hem, hself] at hw ⊢
      rw [hem] at hr
      exact hquiet hr hw
    · rw [hother e hem] at hw ⊢
      exact h.quiet e (fun hr' => hr ((hrdy e hem).mpr hr')) hw

/-- An ESR in its function does not wait. -/
theorem MailWf.not_waiting (h : MailWf s) (hc : s.currentEsr = some me)
    (hb : (s.esr me).pc = .body) : (s.esr me).wbWaitable = none := by
  refine Classical.byContradiction fun hw => ?_
  rw [h.waiting me (h.current me hc) hw] at hb
  cases hb

theorem resume_count_le (h : (s.sched.item me).suspendCount ≤ 1) : (s.resume me).Ready me := by
  unfold EsrSys.Ready
  rw [resume_item, if_pos rfl]
  exact Nat.sub_eq_zero_of_le h

theorem receiver_mem {r : E} (h : s.receiver q = some r) : r ∈ (s.msgq q).recvWq := by
  unfold EsrSys.receiver at h
  split at h
  · cases h
  · rename_i first rest hl _
    obtain rfl := Option.some.inj h
    rw [hl]
    exact List.mem_cons_self
  · rename_i first rest hl _
    obtain rfl := Option.some.inj h
    rw [hl]
    exact (firstMin_scan s.prio first rest).mem

theorem RingOk.put {x : EsrMsgq E M} (h : RingOk x) (hne : x.items ≠ x.itemsMax) (m : Option M) :
    RingOk (x.put m) where
  items := Nat.lt_of_le_of_ne h.items hne
  tail := h.tail
  head := by
    show (x.head + 1) % x.itemsMax = (x.tail + (x.items + 1)) % x.itemsMax
    rw [h.head, Nat.mod_add_mod, Nat.add_assoc]

theorem RingOk.get {x : EsrMsgq E M} (h : RingOk x) (hne : x.items ≠ 0) : RingOk x.get where
  items := (Nat.sub_le ..).trans h.items
  tail hp := Nat.mod_lt _ hp
  head := by
    show x.head = ((x.tail + 1) % x.itemsMax + (x.items - 1)) % x.itemsMax
    rw [h.head, Nat.mod_add_mod]
    congr 1
    omega

theorem MailWf.wake (h : MailWf s) (e : E) (m : Option M) :
    MailWf ((s.setMsg e m).resume e) := by
  refine h.change e rfl (h.slot.itemResume e) (fun x hx => ?_) ?_ (fun x hx => ?_) (fun _ => ?_)
    (h.wait_iff e) (fun _ _ _ => Iff.rfl) h.nodup (h.waiting e) (fun hr => ?_) h.ring
  · rw [resume_item, if_neg hx]
    rfl
  · rw [resume_item, if_pos rfl]
    exact (Nat.sub_le ..).trans (h.count e)
  · split
    · rename_i hxe
      exact hxe ▸ h.current x hx
    · exact hx
  · exact resume_count_le (h.count e)
  · exact absurd (resume_count_le (h.count e)) hr

theorem setMsg_self (s : EsrSys E F Q M) (e : E) : s.setMsg e (s.esr e).msg = s := by
  have : ({ s.esr e with msg := (s.esr e).msg } : FxEsr F Q M) = s.esr e := rfl
  unfold EsrSys.setMsg EsrSys.setEsr
  rw [this, Function.update_eq_self]

theorem MailWf.activate (h : MailWf s) (e : E) (msg : Option M) :
    MailWf (fxEsrActivate s e msg) := by
  unfold fxEsrActivate
  split
  · exact setMsg_self s e ▸ h.wake e (s.esr e).msg
  · split
    · exact h.wake e _
    · exact h

/-- What a delivery does to the ESR that waits. -/
theorem deliver_esr (r : E) (m : Option M) : ((s.setMsg r m).notify q r).esr =
    update s.esr r { s.esr r with msg := m, wbWaitable := none } := by
  show update (update s.esr r { s.esr r with msg := m }) r
    { update s.esr r { s.esr r with msg := m } r with wbWaitable := none } = _
  rw [Function.update_self, Function.update_idem]

theorem recvWq_erase {x : E} {p : Q} : ((update s.msgq q
    { s.msgq q with recvWq := (s.msgq q).recvWq.erase x }) p).recvWq =
      if p = q then (s.msgq q).recvWq.erase x else (s.msgq p).recvWq := by
  by_cases hp : p = q
  · rw [hp, Function.update_self, if_pos rfl]
  · rw [Function.update_of_ne hp, if_neg hp]

theorem ringOk_erase (h : MailWf s) {l : List E} (p : Q) :
    RingOk ((update s.msgq q { s.msgq q with recvWq := l }) p) := by
  by_cases hp : p = q
  · rw [hp, Function.update_self]
    exact ⟨(h.ring q).items, (h.ring q).tail, (h.ring q).head⟩
  · rw [Function.update_of_ne hp]
    exact h.ring p

/-- Taken out of the queue it waits in, an ESR waits nowhere. -/
theorem MailWf.erased (h : MailWf s) {r : E} (hr : (s.esr r).wbWaitable = some q) :
    (∀ p, (none : Option Q) = some p ↔ r ∈ ((update s.msgq q
      { s.msgq q with recvWq := (s.msgq q).recvWq.erase r }) p).recvWq) ∧
    (∀ p e, e ≠ r → (e ∈ ((update s.msgq q
      { s.msgq q with recvWq := (s.msgq q).recvWq.erase r }) p).recvWq ↔
        e ∈ (s.msgq p).recvWq)) ∧
    ∀ p, ((update s.msgq q
      { s.msgq q with recvWq := (s.msgq q).recvWq.erase r }) p).recvWq.Nodup := by
  refine ⟨fun p => iff_of_false (fun e => by cases e) fun hm => ?_, fun p e he => ?_, fun p => ?_⟩
  · rw [recvWq_erase] at hm
    split at hm
    · exact ((h.nodup q).mem_erase_iff.mp hm).1 rfl
    · rename_i hp
      have := (h.wait_iff r p).mpr hm
      rw [hr] at this
      exact hp (Option.some.inj this).symm
  · rw [recvWq_erase]
    split
    · rename_i hp
      rw [List.mem_erase_of_ne he, hp]
    · exact Iff.rfl
  · rw [recvWq_erase]
    split
    · exact (h.nodup q).erase r
    · exact h.nodup p

theorem MailWf.deliver (h : MailWf s) {r : E} (hr : s.receiver q = some r) (m : Option M) :
    MailWf ((s.setMsg r m).notify q r) := by
  obtain ⟨h1, h2, h3⟩ := h.erased ((h.wait_iff r q).mpr (receiver_mem hr))
  refine h.change r (deliver_esr r m) (h.slot.itemResume r) (fun x hx => ?_) ?_ (fun x hx => ?_)
    (fun _ => ?_) h1 h2 h3 (fun _ hw => absurd rfl hw) (fun hn => ?_) (ringOk_erase h)
  · show ((s.resume r).sched.item x) = _
    rw [resume_item, if_neg hx]
  · show ((s.resume r).sched.item r).suspendCount ≤ 1
    rw [resume_item, if_pos rfl]
    exact (Nat.sub_le ..).trans (h.count r)
  · split
    · rename_i hxr
      exact hxr ▸ h.current x hx
    · exact hx
  · exact resume_count_le (h.count r)
  · exact absurd (resume_count_le (h.count r)) hn

/-- A port changed without its queue. -/
theorem MailWf.setMsgq (h : MailWf s) {x : EsrMsgq E M} (hl : x.recvWq = (s.msgq q).recvWq)
    (hx : RingOk x) : MailWf (s.setMsgq q x) := by
  have hwq : ∀ p, (update s.msgq q x p).recvWq = (s.msgq p).recvWq := fun p => by
    by_cases hp : p = q
    · rw [hp, Function.update_self, hl]
    · rw [Function.update_of_ne hp]
  refine ⟨h.slot, h.count, h.current, h.ready, fun e p => ?_, fun p => ?_, h.waiting, h.quiet,
    fun p => ?_⟩
  · show _ ↔ e ∈ (update s.msgq q x p).recvWq
    rw [hwq]
    exact h.wait_iff e p
  · show (update s.msgq q x p).recvWq.Nodup
    rw [hwq]
    exact h.nodup p
  · show RingOk (update s.msgq q x p)
    by_cases hp : p = q
    · rw [hp, Function.update_self]
      exact hx
    · rw [Function.update_of_ne hp]
      exact h.ring p

theorem MailWf.send (h : MailWf s) (q : Q) (m : Option M) : MailWf (fxMsgqSend s q m).2 := by
  unfold fxMsgqSend
  split
  · exact h
  · rename_i hne
    split
    · rename_i r hr
      obtain ⟨_, hr'⟩ := Option.ite_none_right_eq_some.mp hr
      exact h.deliver hr' m
    · exact h.setMsgq rfl ((h.ring q).put hne m)

/-- An active ESR given other fields, that waits nowhere afterwards or as before. -/
theorem MailWf.setActive (h : MailWf s) (ha : (s.esr me).active = true) {x : FxEsr F Q M}
    (hx : x.active = true) (hw : x.wbWaitable = (s.esr me).wbWaitable)
    (hpc : x.wbWaitable ≠ none → x.pc = .stub) : MailWf (s.setEsr me x) := by
  refine h.change me rfl h.slot (fun _ _ => rfl) (h.count me) (fun e he => ?_)
    (fun _ => h.ready me ha) (fun p => ?_) (fun _ _ _ => Iff.rfl) h.nodup (fun _ => hpc)
    (fun hr => absurd (h.ready me ha) hr) h.ring
  · split
    · exact hx
    · exact he
  · rw [hw]
    exact h.wait_iff me p

theorem MailWf.rollback (h : MailWf s) (ha : (s.esr me).active = true) :
    MailWf (s.rollback me) := by
  unfold EsrSys.rollback
  split
  · rename_i p hp
    obtain ⟨h1, h2, h3⟩ := h.erased hp
    refine h.change me rfl h.slot (fun _ _ => rfl) (h.count me) (fun e he => ?_)
      (fun _ => h.ready me ha) h1 h2 h3 (fun _ hw => absurd rfl hw)
      (fun hr => absurd (h.ready me ha) hr) (ringOk_erase h)
    split
    · exact ha
    · exact he
  · exact h

theorem rollback_esr (s : EsrSys E F Q M) (me : E) :
    (s.rollback me).esr = update s.esr me { s.esr me with wbWaitable := none } := by
  unfold EsrSys.rollback
  split
  · rfl
  · rename_i hw
    have : ({ s.esr me with wbWaitable := none } : FxEsr F Q M) = s.esr me := by rw [← hw]
    rw [this, Function.update_eq_self]

theorem rollback_wait (s : EsrSys E F Q M) (me : E) :
    (s.rollback me).esr me = { s.esr me with wbWaitable := none } := by
  rw [rollback_esr, Function.update_self]

theorem MailWf.stub (h : MailWf s) (hc : s.currentEsr = some me)
    (hs : fxEsrStub s me = some s') : MailWf s' := by
  have ha := h.current me hc
  unfold fxEsrStub at hs
  split at hs
  · obtain rfl := Option.some.inj hs
    have hw := rollback_wait s me
    refine (h.rollback ha).setActive ?_ ?_ rfl fun hne => absurd ?_ hne
    · rw [hw]
      exact ha
    · show ((s.rollback me).esr me).active = true
      rw [hw]
      exact ha
    · show ((s.rollback me).esr me).wbWaitable = none
      rw [hw]
  · rename_i hpc
    obtain rfl := Option.some.inj hs
    refine h.setActive ha ha rfl fun hne => absurd (h.waiting me ha hne) ?_
    rw [hpc]
    exact EsrPc.noConfusion
  · cases hs

theorem leave_item (s : EsrSys E F Q M) (me e : E) : (s.leave me).sched.item e =
    if e = me then ⟨(s.sched.item me).suspendCount + 1, s.prio me⟩ else s.sched.item e :=
  suspend_item ..

theorem leave_count (hr : s.Ready me) : ((s.leave me).sched.item me).suspendCount = 1 := by
  have h0 : (s.sched.item me).suspendCount = 0 := hr
  rw [leave_item, if_pos rfl]
  show (s.sched.item me).suspendCount + 1 = 1
  rw [h0]

theorem exit_esr (s : EsrSys E F Q M) (me : E) : (fxEsrExit s me).esr =
    update s.esr me { s.esr me with active := false, msg := none } := by
  show update (update s.esr me { s.esr me with active := false }) me
    { update s.esr me { s.esr me with active := false } me with msg := none } = _
  rw [Function.update_self, Function.update_idem]

theorem MailWf.exit (h : MailWf s) (hc : s.currentEsr = some me) : MailWf (fxEsrExit s me) := by
  refine h.change me (exit_esr s me) (h.slot.itemSuspend me) (fun e he => ?_) ?_
    (fun e he => by cases he) (fun e => by cases e) (fun p => ?_) (fun _ _ _ => Iff.rfl) h.nodup
    (fun e => by cases e) (fun _ _ => rfl) h.ring
  · exact (leave_item s me e).trans (if_neg he)
  · exact Nat.le_of_eq (leave_count (h.ready me (h.current me hc)))
  · show (s.esr me).wbWaitable = some p ↔ _
    exact h.wait_iff me p

theorem prepareWb_eq (h : (s.esr me).wbWaitable = none) : s.prepareWb me = s := by
  have : ({ s.esr me with wbWaitable := none } : FxEsr F Q M) = s.esr me := by rw [← h]
  unfold EsrSys.prepareWb EsrSys.setEsr
  rw [this, Function.update_eq_self]

/-- A message taken from the port into the field of the ESR that runs. -/
theorem MailWf.receive (h : MailWf s) (hc : s.currentEsr = some me)
    (hb : (s.esr me).pc = .body) (hne : (s.msgq q).items ≠ 0) (m : Option M) :
    MailWf ((s.setMsg me m).setMsgq q (s.msgq q).get) := by
  have ha := h.current me hc
  have h1 : MailWf (s.setMsg me m) :=
    h.setActive ha ha rfl fun hw => absurd (h.not_waiting hc hb) hw
  exact h1.setMsgq rfl ((h.ring q).get hne)

theorem MailWf.restart (h : MailWf s) (hc : s.currentEsr = some me) :
    MailWf ((s.leave me).resume me) := by
  have hcount : ((s.leave me).sched.item me).suspendCount = 1 :=
    leave_count (h.ready me (h.current me hc))
  refine h.change me rfl ((h.slot.itemSuspend me).itemResume me) (fun e he => ?_) ?_
    (fun e he => by cases he) (fun e => by cases e) (fun p => ?_) (fun _ _ _ => Iff.rfl) h.nodup
    (fun e => by cases e) (fun hr => ?_) h.ring
  · rw [resume_item, if_neg he, leave_item, if_neg he]
  · rw [resume_item, if_pos rfl, hcount]
    exact Nat.zero_le _
  · exact h.wait_iff me p
  · exact absurd (resume_count_le (Nat.le_of_eq hcount)) hr

theorem MailWf.wait (h : MailWf s) (hc : s.currentEsr = some me)
    (hb : (s.esr me).pc = .body) : MailWf ((s.waitStart me q).leave me) := by
  have hnone := h.not_waiting hc hb
  have hnot : ∀ p, me ∉ (s.msgq p).recvWq := fun p hm => by
    rw [(h.wait_iff me p).mpr hm] at hnone
    cases hnone
  have hwq : ∀ p, ((update s.msgq q
      { s.msgq q with recvWq := (s.msgq q).recvWq ++ [me] }) p).recvWq =
        if p = q then (s.msgq q).recvWq ++ [me] else (s.msgq p).recvWq := fun p => by
    by_cases hp : p = q
    · rw [hp, Function.update_self, if_pos rfl]
    · rw [Function.update_of_ne hp, if_neg hp]
  have hesr : ((s.waitStart me q).leave me).esr =
      update s.esr me { s.esr me with wbWaitable := some q, active := false } := by
    show update (update s.esr me { s.esr me with wbWaitable := some q }) me
      { update s.esr me { s.esr me with wbWaitable := some q } me with active := false } = _
    rw [Function.update_self, Function.update_idem]
  refine h.change me hesr (h.slot.itemSuspend me) (fun e he => ?_) ?_ (fun e he => by cases he)
    (fun e => by cases e) (fun p => ?_) (fun p e he => ?_) (fun p => ?_) (fun e => by cases e)
    (fun _ e => by cases e) (ringOk_erase h)
  · exact (leave_item s me e).trans (if_neg he)
  · exact Nat.le_of_eq (leave_count (h.ready me (h.current me hc)))
  · show some q = some p ↔ me ∈ ((update s.msgq q _) p).recvWq
    rw [hwq]
    by_cases hp : p = q
    · rw [if_pos hp, hp]
      exact iff_of_true rfl (List.mem_append_right _ List.mem_cons_self)
    · rw [if_neg hp]
      exact iff_of_false (fun e => hp (Option.some.inj e).symm) (hnot p)
  · show e ∈ ((update s.msgq q _) p).recvWq ↔ _
    rw [hwq]
    split
    · rename_i hp
      rw [hp, List.mem_append, List.mem_singleton]
      exact or_iff_left he
    · exact Iff.rfl
  · show ((update s.msgq q _) p).recvWq.Nodup
    rw [hwq]
    split
    · exact List.nodup_append.mpr ⟨h.nodup q, List.nodup_singleton me, fun a ha b hb e => by
        rw [List.mem_singleton.mp hb] at e
        exact hnot q (e ▸ ha)⟩
    · exact h.nodup p

/-- The state after a message was taken from the front of a port. -/
def EsrSys.receive (s : EsrSys E F Q M) (me : E) (q : Q) : EsrSys E F Q M :=
  (s.setMsg me ((s.msgq q).buf (s.msgq q).tail)).setMsgq q (s.msgq q).get

theorem waitMsg_empty (hw : (s.esr me).wbWaitable = none) (h0 : (s.msgq q).items = 0)
    (wait : Bool) : fxEsrWaitMsg s me q wait =
      (false, if wait then (s.waitStart me q).leave me else s) := by
  unfold fxEsrWaitMsg esrTestAndWaitRecv
  rw [prepareWb_eq hw, if_pos h0]
  cases wait with
  | false => rfl
  | true => rfl

theorem waitMsg_filled (hw : (s.esr me).wbWaitable = none) (h0 : (s.msgq q).items ≠ 0)
    (wait : Bool) : fxEsrWaitMsg s me q wait =
      (true, if wait then ((s.receive me q).leave me).resume me else s.receive me q) := by
  unfold fxEsrWaitMsg esrTestAndWaitRecv
  rw [prepareWb_eq hw, if_neg h0]
  cases wait with
  | false => rfl
  | true => rfl

theorem MailWf.waitMsg (h : MailWf s) (hc : s.currentEsr = some me)
    (hb : (s.esr me).pc = .body) (q : Q) (wait : Bool) :
    MailWf (fxEsrWaitMsg s me q wait).2 := by
  have hw := h.not_waiting hc hb
  by_cases h0 : (s.msgq q).items = 0
  · rw [waitMsg_empty hw h0]
    cases wait with
    | false => exact h
    | true => exact h.wait hc hb
  · rw [waitMsg_filled hw h0]
    cases wait with
    | false => exact h.receive hc hb h0 _
    | true => exact (h.receive hc hb h0 _).restart hc

/-- What the dispatcher does to the ESRs: nothing, or it starts one that is ready. -/
theorem dispatch_esr (h : SlotOk s.sched) (alloc : F → F) :
    ((esrDispatchHandler alloc s).esr = s.esr ∧
      ((esrDispatchHandler alloc s).currentEsr = s.currentEsr ∨
        ∃ n, (esrDispatchHandler alloc s).currentEsr = some n ∧ (s.esr n).active = true)) ∨
    ∃ n f, s.Ready n ∧ (s.esr n).active = false ∧
      (esrDispatchHandler alloc s).currentEsr = some n ∧
      (esrDispatchHandler alloc s).esr = update s.esr n
        { s.esr n with active := true, intrContext := some f, pc := .stub } := by
  unfold esrDispatchHandler
  simp only
  split
  · exact .inl ⟨rfl, .inl rfl⟩
  · rename_i n hn
    have hr : s.Ready n := h.getNext hn
    split
    · unfold EsrSys.switchTo
      by_cases ha : (s.esr n).active = true
      · rw [if_pos (by exact ha)]
        exact .inl ⟨rfl, .inr ⟨n, rfl, ha⟩⟩
      · rw [if_neg (by exact ha)]
        exact .inr ⟨n, _, hr, Bool.eq_false_iff.mpr ha, rfl, rfl⟩
    · exact .inl ⟨rfl, .inl rfl⟩

theorem dispatch_msgq (alloc : F → F) (s : EsrSys E F Q M) :
    (esrDispatchHandler alloc s).msgq = s.msgq := by
  unfold esrDispatchHandler EsrSys.switchTo
  simp only
  repeat' split
  all_goals rfl

theorem dispatch_item (alloc : F → F) (s : EsrSys E F Q M) :
    (esrDispatchHandler alloc s).sched.item = s.sched.item := by
  rw [dispatch_sched, fxSchedGetNext_item]

theorem MailWf.setPsp (h : MailWf s) (f : F) : MailWf { s with psp := f } :=
  ⟨h.slot, h.count, h.current, h.ready, h.wait_iff, h.nodup, h.waiting, h.quiet, h.ring⟩

theorem MailWf.dispatch (h : MailWf s) (alloc : F → F) : MailWf (esrDispatchHandler alloc s) := by
  have hslot : SlotOk (esrDispatchHandler alloc s).sched := by
    rw [dispatch_sched]
    exact h.slot.congr (fxSchedGetNext_gDomain _) (fxSchedGetNext_item _)
  have hi := dispatch_item alloc s
  have hm := dispatch_msgq alloc s
  have hrdy : ∀ e, (esrDispatchHandler alloc s).Ready e ↔ s.Ready e := fun e => by
    unfold EsrSys.Ready
    rw [hi]
  rcases dispatch_esr h.slot alloc with ⟨he, hc⟩ | ⟨n, f, hr, ha, hc, he⟩
  · refine ⟨hslot, fun e => hi ▸ h.count e, fun e hce => ?_, fun e ha => ?_, fun e p => ?_,
      fun p => hm ▸ h.nodup p, fun e ha hw => ?_, fun e hre hw => ?_, fun p => hm ▸ h.ring p⟩
    · rw [he]
      rcases hc with hc | ⟨n, hc, ha⟩
      · exact h.current e (hc.symm.trans hce)
      · obtain rfl : n = e := Option.some.inj (hc.symm.trans hce)
        exact ha
    · rw [he] at ha
      exact (hrdy e).mpr (h.ready e ha)
    · rw [he, hm]
      exact h.wait_iff e p
    · rw [he] at ha hw ⊢
      exact h.waiting e ha hw
    · rw [he] at hw ⊢
      exact h.quiet e (fun hr => hre ((hrdy e).mpr hr)) hw
  · refine h.change n he hslot (fun e _ => by rw [hi]) (hi ▸ h.count n) (fun e hce => ?_)
      (fun _ => (hrdy n).mpr hr) (fun p => ?_) (fun p e _ => by rw [hm]) (fun p => hm ▸ h.nodup p)
      (fun _ _ => rfl) (fun hn => absurd ((hrdy n).mpr hr) hn) (fun p => hm ▸ h.ring p)
    · obtain rfl : n = e := Option.some.inj (hc.symm.trans hce)
      rw [if_pos rfl]
    · rw [hm]
      exact h.wait_iff n p

theorem MailWf.step {a : EsrOp E F Q M} (h : MailWf s) (hs : esrStep cfg a s = some s') :
    MailWf s' := by
  cases a with
  | activate e msg =>
    obtain rfl := Option.some.inj hs
    exact h.activate e msg
  | send q msg =>
    obtain rfl := Option.some.inj hs
    exact h.send q msg
  | dispatch f =>
    obtain rfl := Option.some.inj hs
    exact (h.setPsp f).dispatch cfg.alloc
  | call c =>
    obtain ⟨me, hme, hc⟩ := Option.bind_eq_some_iff.mp hs
    have ha := h.current me hme
    cases c with
    | stub => exact h.stub hme hc
    | exit =>
      obtain ⟨_, rfl⟩ := taken hc
      exact h.exit hme
    | waitMsg q wait =>
      obtain ⟨⟨hb, _⟩, rfl⟩ := taken hc
      exact h.waitMsg hme (of_decide_eq_true hb) q wait
    | raisePl v =>
      obtain ⟨hb, rfl⟩ := taken hc
      exact h.setActive ha ha rfl fun hw =>
        absurd (h.not_waiting hme (of_decide_eq_true hb)) hw
    | lowerPl v =>
      obtain ⟨hb, rfl⟩ := taken hc
      have h1 : MailWf (fxEsrRaisePl s me v) := h.setActive ha ha rfl fun hw =>
        absurd (h.not_waiting hme (of_decide_eq_true hb)) hw
      exact ⟨h1.slot.congr rfl rfl, h1.count, h1.current, h1.ready, h1.wait_iff, h1.nodup,
        h1.waiting, h1.quiet, h1.ring⟩

/-! ## 3. Where the messages are -/

section Buch

variable {serial : M → Nat} {L : Books M} {acc : Option M}

@[simp] theorem stock_cell (s : EsrSys E F Q M) (q : Q) (i : Nat) :
    s.stock (.cell q i) = s.held (.cell q i) := rfl

theorem stock_field (s : EsrSys E F Q M) (e : E) :
    s.stock (.field e) = if s.Fresh e then (s.esr e).msg else none := rfl

/-- An ESR that a step does not touch. -/
theorem field_congr {e : E} (he : s'.esr e = s.esr e) (hi : s'.sched.item e = s.sched.item e) :
    s'.stock (.field e) = s.stock (.field e) ∧ s'.spent e = s.spent e := by
  have hf : s'.Fresh e ↔ s.Fresh e := by
    unfold EsrSys.Fresh EsrSys.Ready
    rw [he, hi]
  constructor
  · rw [stock_field, stock_field, he]
    exact if_congr hf rfl rfl
  · unfold EsrSys.spent
    rw [he]
    exact if_congr hf rfl rfl

/-- A step at one ESR, and at no cell. -/
structure AtField (me : E) (s s' : EsrSys E F Q M) : Prop where
  cell : ∀ q i, s'.held (.cell q i) = s.held (.cell q i)
  esr : ∀ e, e ≠ me → s'.esr e = s.esr e
  item : ∀ e, e ≠ me → s'.sched.item e = s.sched.item e

theorem AtField.field (h : AtField me s s') {e : E} (he : e ≠ me) :
    s'.stock (.field e) = s.stock (.field e) ∧ s'.spent e = s.spent e :=
  field_congr (h.esr e he) (h.item e he)

/-- Nothing comes in and nothing is read. -/
theorem AtField.same (h : AtField me s s') (hk : Kept serial L s.stock s.spent)
    (hstock : s'.stock (.field me) = s.stock (.field me))
    (hspent : ∀ m, s'.spent me = some m → s.spent me = some m) :
    Kept serial (L.note none none) s'.stock s'.spent := by
  refine hk.same (fun p => ?_) fun e m hm => .inl ?_
  · cases p with
    | cell q i => exact h.cell q i
    | field e =>
      by_cases hem : e = me
      · rw [hem, hstock]
      · exact (h.field hem).1
  · by_cases hem : e = me
    · rw [hem] at hm ⊢
      exact hspent m hm
    · rwa [(h.field hem).2] at hm

/-- A message comes into the field of an ESR that has none to read. -/
theorem AtField.arrive (h : AtField me s s') (hk : Kept serial L s.stock s.spent)
    (hnone : s.stock (.field me) = none)
    (hnew : ∀ m, s'.stock (.field me) = some m → serial m = L.next)
    (hacc : ∀ m, acc = some m → serial m = L.next ∧ s'.stock (.field me) = some m)
    (hspent : ∀ m, s'.spent me = some m →
      s.spent me = some m ∨ (serial m = L.next ∧ acc ≠ some m)) :
    Kept serial (L.note acc none) s'.stock s'.spent := by
  refine hk.note id (fun p => p = .field me) (fun _ _ e e' => e.trans e'.symm) (fun p m hp => ?_)
    (fun _ _ e => e) (fun p m hp => .inl ⟨p, ?_⟩) nofun (fun m hm => ?_) fun e m hm => ?_
  · cases p with
    | cell q i => exact .inl ((h.cell q i).symm.trans hp)
    | field e =>
      by_cases hem : e = me
      · subst hem
        exact .inr ⟨hnew m hp, rfl⟩
      · exact .inl ((h.field hem).1.symm.trans hp)
  · cases p with
    | cell q i => exact (h.cell q i).trans hp
    | field e =>
      have hem : e ≠ me := by
        rintro rfl
        rw [hnone] at hp
        cases hp
      exact (h.field hem).1.trans hp
  · exact ⟨(hacc m hm).1, _, (hacc m hm).2⟩
  · by_cases hem : e = me
    · subst hem
      exact (hspent m hm).imp_right .inr
    · rw [(h.field hem).2] at hm
      exact .inl hm

/-- The message in the field of an ESR is read. -/
theorem AtField.read (h : AtField me s s') (hk : Kept serial L s.stock s.spent)
    (hnone : s'.stock (.field me) = none)
    (hspent : ∀ m, s'.spent me = some m → s.spent me = some m ∨ s.stock (.field me) = some m) :
    Kept serial (L.note none (s.stock (.field me))) s'.stock s'.spent := by
  refine hk.note id (fun _ => False) (fun _ _ hf => hf.elim) (fun p m hp => .inl ?_)
    (fun _ _ e => e) (fun p m hp => ?_) (fun m hm => ⟨⟨_, hm⟩, fun p hp => ?_⟩) nofun
    fun e m hm => ?_
  · cases p with
    | cell q i => exact (h.cell q i).symm.trans hp
    | field e =>
      by_cases hem : e = me
      · rw [hem, hnone] at hp
        cases hp
      · exact (h.field hem).1.symm.trans hp
  · cases p with
    | cell q i => exact .inl ⟨.cell q i, (h.cell q i).trans hp⟩
    | field e =>
      by_cases hem : e = me
      · rw [hem] at hp
        exact .inr hp
      · exact .inl ⟨.field e, (h.field hem).1.trans hp⟩
  · -- it was in the field of this ESR, and in no other place
    cases p with
    | cell q i =>
      have hp' : s.stock (.cell q i) = some m := (h.cell q i).symm.trans hp
      have e := hk.once _ _ m hp' hm
      cases e
    | field e =>
      by_cases hem : e = me
      · rw [hem, hnone] at hp
        cases hp
      · have := hk.once _ _ m ((h.field hem).1.symm.trans hp) hm
        exact hem (EsrPlace.field.inj this)
  · by_cases hem : e = me
    · subst hem
      exact (hspent m hm).imp_right .inl
    · rw [(h.field hem).2] at hm
      exact .inl hm

theorem AtField.refl (me : E) (s : EsrSys E F Q M) : AtField me s s :=
  ⟨fun _ _ => rfl, fun _ _ => rfl, fun _ _ => rfl⟩

theorem AtField.setMsg_resume (e : E) (m : Option M) : AtField e s ((s.setMsg e m).resume e) where
  cell _ _ := rfl
  esr x hx := Function.update_of_ne hx ..
  item x hx := by
    rw [resume_item, if_neg hx]
    rfl

/-- Woken up, an ESR has its message to read, unless it is in its function. -/
theorem fresh_wake (hw : MailWf s) (e : E) (m : Option M) :
    ((s.setMsg e m).resume e).Fresh e ↔ ((s.esr e).active = true → (s.esr e).pc ≠ .body) := by
  unfold EsrSys.Fresh
  show (if (update s.esr e { s.esr e with msg := m } e).active = true then
    (update s.esr e { s.esr e with msg := m } e).pc ≠ .body else _) ↔ _
  rw [Function.update_self]
  show (if (s.esr e).active = true then (s.esr e).pc ≠ .body else _) ↔ _
  split
  · rename_i ha
    exact ⟨fun h _ => h, fun h => h ha⟩
  · rename_i ha
    exact iff_of_true (resume_count_le (hw.count e)) fun h => absurd h ha

theorem setMsg_resume_msg (s : EsrSys E F Q M) (e : E) (m : Option M) :
    (((s.setMsg e m).resume e).esr e).msg = m := by
  show (update s.esr e { s.esr e with msg := m } e).msg = m
  rw [Function.update_self]

/-- An activation without a message wakes no ESR that has an old one in its field. -/
theorem kept_activate_none (hw : MailWf s) (hk : Kept serial L s.stock s.spent) (e : E)
    (hg : ¬ ((s.esr e).wbWaitable.isSome ∧ ¬ s.Ready e ∧ (s.esr e).msg.isSome)) :
    Kept serial (L.note none none) (s.resume e).stock (s.resume e).spent := by
  have hf := fresh_wake hw e (s.esr e).msg
  have hmsg := setMsg_resume_msg s e (s.esr e).msg
  have hat := AtField.setMsg_resume (s := s) e (s.esr e).msg
  rw [setMsg_self] at hf hmsg hat
  have hmono : s.Fresh e → (s.resume e).Fresh e := by
    refine fun h => hf.mpr fun ha => ?_
    unfold EsrSys.Fresh at h
    rwa [if_pos ha] at h
  refine hat.same hk ?_ fun m hm => ?_
  · rw [stock_field, stock_field, hmsg]
    by_cases h : s.Fresh e
    · rw [if_pos h, if_pos (hmono h)]
    · rw [if_neg h]
      split
      · rename_i h'
        -- it was suspended, so its field is empty
        have ha : (s.esr e).active ≠ true := by
          intro ha
          refine h ?_
          unfold EsrSys.Fresh
          rw [if_pos ha]
          exact hf.mp h' ha
        have hr : ¬ s.Ready e := by
          intro hr
          refine h ?_
          unfold EsrSys.Fresh
          rw [if_neg ha]
          exact hr
        cases hwb : (s.esr e).wbWaitable with
        | none => exact hw.quiet e hr hwb
        | some p =>
          refine Option.not_isSome_iff_eq_none.mp fun hsome => hg ⟨?_, hr, hsome⟩
          rw [hwb]
          rfl
      · rfl
  · unfold EsrSys.spent at hm ⊢
    split at hm
    · cases hm
    · rename_i h'
      rw [hmsg] at hm
      rw [if_neg fun h => h' (hmono h)]
      exact hm

/-- The compare-and-swap finds the field empty. -/
theorem kept_activate_some (hw : MailWf s) (hk : Kept serial L s.stock s.spent) (e : E) {m : M}
    (hn : serial m = L.next) (hnone : (s.esr e).msg.isNone) :
    Kept serial (L.note (if (s.esr e).active = false then some m else none) none)
      ((s.setMsg e (some m)).resume e).stock ((s.setMsg e (some m)).resume e).spent := by
  have hf := fresh_wake hw e (some m)
  have hmsg := setMsg_resume_msg s e (some m)
  refine (AtField.setMsg_resume e (some m)).arrive hk ?_ (fun m' hm => ?_) (fun m' hm => ?_)
    fun m' hm => .inr ?_
  · rw [stock_field, Option.isNone_iff_eq_none.mp hnone]
    split <;> rfl
  · rw [stock_field, hmsg] at hm
    obtain ⟨_, e'⟩ := taken hm
    exact e' ▸ hn
  · obtain ⟨ha, rfl⟩ := taken hm
    refine ⟨hn, ?_⟩
    rw [stock_field, hmsg, if_pos (hf.mpr fun ha' => ?_)]
    rw [ha] at ha'
    cases ha'
  · unfold EsrSys.spent at hm
    split at hm
    · cases hm
    · rename_i h'
      rw [hmsg] at hm
      obtain rfl := Option.some.inj hm
      refine ⟨hn, fun hacc => ?_⟩
      obtain ⟨ha, _⟩ := taken hacc
      refine h' (hf.mpr fun ha' => ?_)
      rw [ha] at ha'
      cases ha'

theorem kept_activate (hw : MailWf s) (hk : Kept serial L s.stock s.spent) (e : E)
    (msg : Option M) (hn : ∀ m, msg = some m → serial m = L.next)
    (hg : msg = none →
      ¬ ((s.esr e).wbWaitable.isSome ∧ ¬ s.Ready e ∧ (s.esr e).msg.isSome)) :
    Kept serial (L.note (s.accepts (.activate e msg)) none) (fxEsrActivate s e msg).stock
      (fxEsrActivate s e msg).spent := by
  unfold EsrSys.accepts fxEsrActivate
  cases msg with
  | none =>
    simp only
    rw [ite_self]
    exact kept_activate_none hw hk e (hg rfl)
  | some m =>
    simp only
    by_cases hnone : (s.esr e).msg.isNone
    · rw [if_pos hnone, if_congr (and_iff_left hnone) rfl rfl]
      exact kept_activate_some hw hk e (hn m rfl) hnone
    · rw [if_neg hnone, if_neg fun h => hnone h.2]
      exact (AtField.refl e s).same hk rfl fun _ h => h

/-- A cell depends on the ring of its port only, not on who waits. -/
theorem held_cell_congr (p : Q) (i : Nat) (hb : (s'.msgq p).buf = (s.msgq p).buf)
    (hn : (s'.msgq p).itemsMax = (s.msgq p).itemsMax) (hi : (s'.msgq p).items = (s.msgq p).items)
    (ht : (s'.msgq p).tail = (s.msgq p).tail) :
    s'.held (.cell p i) = s.held (.cell p i) := by
  unfold EsrSys.held
  simp only
  rw [hb, hn, hi, ht]

theorem held_cell_recvWq {l : List E} (h : s'.msgq = update s.msgq q { s.msgq q with recvWq := l })
    (p : Q) (i : Nat) : s'.held (.cell p i) = s.held (.cell p i) := by
  by_cases hp : p = q
  · refine held_cell_congr p i ?_ ?_ ?_ ?_
    all_goals rw [h, hp, Function.update_self]
  · refine held_cell_congr p i ?_ ?_ ?_ ?_
    all_goals rw [h, Function.update_of_ne hp]

theorem kept_deliver (hw : MailWf s) (hk : Kept serial L s.stock s.spent) {r : E}
    (hr : s.receiver q = some r) (msg : Option M) (hn : ∀ m, msg = some m → serial m = L.next)
    (hg : ¬ (s.Ready r ∧ (s.esr r).msg.isSome)) :
    Kept serial (L.note msg none) ((s.setMsg r msg).notify q r).stock
      ((s.setMsg r msg).notify q r).spent := by
  have hwb : (s.esr r).wbWaitable = some q := (hw.wait_iff r q).mpr (receiver_mem hr)
  have hself : ((s.setMsg r msg).notify q r).esr r =
      { s.esr r with msg := msg, wbWaitable := none } := by
    rw [deliver_esr, Function.update_self]
  have hfresh : ((s.setMsg r msg).notify q r).Fresh r := by
    unfold EsrSys.Fresh
    rw [hself]
    show if (s.esr r).active = true then (s.esr r).pc ≠ .body else _
    split
    · rename_i ha
      rw [hw.waiting r ha (by rw [hwb]; exact nofun)]
      exact nofun
    · exact resume_count_le (hw.count r)
  have hstock : ((s.setMsg r msg).notify q r).stock (.field r) = msg := by
    rw [stock_field, if_pos hfresh, hself]
  have hat : AtField r s ((s.setMsg r msg).notify q r) := by
    refine ⟨fun p i => held_cell_recvWq rfl p i, fun x hx => ?_, fun x hx => ?_⟩
    · rw [deliver_esr, Function.update_of_ne hx]
    · exact (resume_item s r x).trans (if_neg hx)
  refine hat.arrive hk ?_ (fun m hm => hn m (hstock.symm.trans hm))
    (fun m hm => ⟨hn m hm, hstock.trans hm⟩) fun m hm => ?_
  · rw [stock_field]
    split
    · rename_i hf
      have hready : s.Ready r := by
        unfold EsrSys.Fresh at hf
        split at hf
        · rename_i ha
          exact hw.ready r ha
        · exact hf
      exact Option.not_isSome_iff_eq_none.mp fun h => hg ⟨hready, h⟩
    · rfl
  · unfold EsrSys.spent at hm
    rw [if_pos hfresh] at hm
    cases hm

theorem field_setMsgq (e : E) (x : EsrMsgq E M) :
    (s.setMsgq q x).stock (.field e) = s.stock (.field e) ∧
      (s.setMsgq q x).spent e = s.spent e := field_congr rfl rfl

/-- A message put into a port lies in the cell behind the last one. -/
theorem held_put (hw : MailWf s) (hne : (s.msgq q).items ≠ (s.msgq q).itemsMax) (msg : Option M)
    (p : Q) (i : Nat) : (s.setMsgq q ((s.msgq q).put msg)).held (.cell p i) =
      if p = q ∧ i = (s.msgq q).items then msg else s.held (.cell p i) := by
  have hr := hw.ring q
  by_cases hp : p = q
  · subst hp
    unfold EsrSys.held
    simp only
    show (if i < (update s.msgq p ((s.msgq p).put msg) p).items then _ else _) = _
    have hself : (s.setMsgq p ((s.msgq p).put msg)).msgq p = (s.msgq p).put msg :=
      Function.update_self ..
    rw [Function.update_self, hself]
    show (if i < (s.msgq p).items + 1 then update (s.msgq p).buf (s.msgq p).head msg
      (((s.msgq p).tail + i) % (s.msgq p).itemsMax) else none) = _
    have hlt := Nat.lt_of_le_of_ne hr.items hne
    by_cases hi : i = (s.msgq p).items
    · rw [hi, if_pos (Nat.lt_succ_self _), if_pos ⟨trivial, rfl⟩, ← hr.head,
        Function.update_self]
    · by_cases hil : i < (s.msgq p).items
      · rw [if_pos (Nat.lt_succ_of_lt hil), if_neg (fun h => hi h.2), if_pos hil, hr.head,
          Function.update_of_ne (ring_cell_ne (hil.trans hlt) hlt hi)]
      · rw [if_neg (show ¬ i < (s.msgq p).items + 1 by omega), if_neg (fun h => hi h.2),
          if_neg hil]
  · rw [if_neg fun h => hp h.1]
    refine held_cell_congr p i ?_ ?_ ?_ ?_
    all_goals exact congrArg _ (Function.update_of_ne hp ..)

theorem kept_put (hw : MailWf s) (hk : Kept serial L s.stock s.spent)
    (hne : (s.msgq q).items ≠ (s.msgq q).itemsMax) (msg : Option M)
    (hn : ∀ m, msg = some m → serial m = L.next) :
    Kept serial (L.note msg none) (s.setMsgq q ((s.msgq q).put msg)).stock
      (s.setMsgq q ((s.msgq q).put msg)).spent := by
  have hcell := held_put hw hne msg
  have hempty : s.held (.cell q (s.msgq q).items) = none := if_neg (Nat.lt_irrefl _)
  refine hk.note id (fun p => p = .cell q (s.msgq q).items) (fun _ _ e e' => e.trans e'.symm)
    (fun p m hp => ?_) (fun _ _ e => e) (fun p m hp => .inl ⟨p, ?_⟩) nofun
    (fun m hm => ⟨hn m hm, .cell q (s.msgq q).items, ?_⟩) fun e m hm => .inl ?_
  · cases p with
    | cell p i =>
      rw [stock_cell, hcell] at hp
      split at hp
      · rename_i h
        obtain ⟨rfl, rfl⟩ := h
        exact .inr ⟨hn m hp, rfl⟩
      · exact .inl hp
    | field e => exact .inl ((field_setMsgq e _).1.symm.trans hp)
  · cases p with
    | cell p i =>
      rw [stock_cell, hcell]
      split
      · rename_i h
        obtain ⟨rfl, rfl⟩ := h
        rw [stock_cell, hempty] at hp
        cases hp
      · exact hp
    | field e => exact (field_setMsgq e _).1.trans hp
  · rw [stock_cell, hcell, if_pos ⟨rfl, rfl⟩, hm]
  · rwa [(field_setMsgq e _).2] at hm

theorem kept_send (hw : MailWf s) (hk : Kept serial L s.stock s.spent) (q : Q) (msg : Option M)
    (hn : ∀ m, msg = some m → serial m = L.next)
    (hg : ∀ r, (s.msgq q).items = 0 → s.receiver q = some r →
      ¬ (s.Ready r ∧ (s.esr r).msg.isSome)) :
    Kept serial (L.note (s.accepts (.send q msg)) none) (fxMsgqSend s q msg).2.stock
      (fxMsgqSend s q msg).2.spent := by
  unfold EsrSys.accepts fxMsgqSend
  simp only
  by_cases hfull : (s.msgq q).items = (s.msgq q).itemsMax
  · simp only [if_pos hfull]
    exact hk.same (fun _ => rfl) fun _ _ h => .inl h
  · simp only [if_neg hfull]
    split
    · rename_i r hr
      obtain ⟨h0, hr'⟩ := Option.ite_none_right_eq_some.mp hr
      exact kept_deliver hw hk hr' msg hn (hg r h0 hr')
    · exact kept_put hw hk hfull msg hn

/-- An ESR that runs, in its function, has read its message. -/
theorem fresh_body (hw : MailWf s) (hc : s.currentEsr = some me) (hb : (s.esr me).pc = .body) :
    ¬ s.Fresh me := by
  unfold EsrSys.Fresh
  rw [if_pos (hw.current me hc), hb]
  exact fun h => h rfl

/-- An ESR that is suspended has nothing to read. -/
theorem fresh_suspended (ha : (s.esr me).active = false) (hr : ¬ s.Ready me) : ¬ s.Fresh me := by
  unfold EsrSys.Fresh
  rw [if_neg (by rw [ha]; exact Bool.false_ne_true)]
  exact hr

theorem stock_none (h : ¬ s.Fresh me) : s.stock (.field me) = none := by
  rw [stock_field, if_neg h]

theorem spent_msg (h : ¬ s.Fresh me) : s.spent me = (s.esr me).msg := by
  unfold EsrSys.spent
  rw [if_neg h]

/-- A step at an ESR that has nothing to read before nor after. -/
theorem AtField.quiet (h : AtField me s s') (hk : Kept serial L s.stock s.spent)
    (hf : ¬ s.Fresh me) (hf' : ¬ s'.Fresh me)
    (hm : ∀ m, (s'.esr me).msg = some m → (s.esr me).msg = some m) :
    Kept serial (L.note none none) s'.stock s'.spent := by
  refine h.same hk ?_ fun m hm' => ?_
  · rw [stock_none hf, stock_none hf']
  · rw [spent_msg hf'] at hm'
    rw [spent_msg hf]
    exact hm m hm'

theorem leave_not_ready (hr : s.Ready me) : ¬ (s.leave me).Ready me := by
  unfold EsrSys.Ready
  rw [leave_count hr]
  exact Nat.one_ne_zero

theorem kept_exit (hw : MailWf s) (hk : Kept serial L s.stock s.spent)
    (hc : s.currentEsr = some me) (hb : (s.esr me).pc = .body) :
    Kept serial (L.note none none) (fxEsrExit s me).stock (fxEsrExit s me).spent := by
  have hself : (fxEsrExit s me).esr me = { s.esr me with active := false, msg := none } := by
    rw [exit_esr, Function.update_self]
  have hat : AtField me s (fxEsrExit s me) := by
    refine ⟨fun _ _ => rfl, fun x hx => ?_, fun x hx => (leave_item s me x).trans (if_neg hx)⟩
    rw [exit_esr, Function.update_of_ne hx]
  refine hat.quiet hk (fresh_body hw hc hb) (fresh_suspended (by rw [hself])
    (leave_not_ready (hw.ready me (hw.current me hc)))) fun m hm => ?_
  rw [hself] at hm
  cases hm

/-- The first half of the stub takes the ESR out of the queue it may still stand in. -/
theorem kept_cancel (hw : MailWf s) (hk : Kept serial L s.stock s.spent)
    (hc : s.currentEsr = some me) (hb : (s.esr me).pc = .stub) :
    Kept serial (L.note none none)
      ((s.rollback me).setEsr me { (s.rollback me).esr me with pc := .call }).stock
      ((s.rollback me).setEsr me { (s.rollback me).esr me with pc := .call }).spent := by
  have ha := hw.current me hc
  have hself : ((s.rollback me).setEsr me { (s.rollback me).esr me with pc := .call }).esr me =
      { s.esr me with wbWaitable := none, pc := .call } := by
    show update (s.rollback me).esr me _ me = _
    rw [Function.update_self, rollback_wait]
  have hat : AtField me s
      ((s.rollback me).setEsr me { (s.rollback me).esr me with pc := .call }) := by
    refine ⟨fun p i => ?_, fun x hx => ?_, fun x hx => ?_⟩
    · show (s.rollback me).held (.cell p i) = _
      unfold EsrSys.rollback
      split
      · exact held_cell_recvWq rfl p i
      · rfl
    · show update (s.rollback me).esr me _ x = _
      rw [Function.update_of_ne hx, rollback_esr, Function.update_of_ne hx]
    · show (s.rollback me).sched.item x = _
      unfold EsrSys.rollback
      split <;> rfl
  have hf : s.Fresh me := by
    unfold EsrSys.Fresh
    rw [if_pos ha, hb]
    exact nofun
  have hf' : ((s.rollback me).setEsr me { (s.rollback me).esr me with pc := .call }).Fresh me := by
    unfold EsrSys.Fresh
    rw [hself, if_pos ha]
    exact nofun
  refine hat.same hk ?_ fun m hm => ?_
  · rw [stock_field, stock_field, if_pos hf, if_pos hf', hself]
  · unfold EsrSys.spent at hm
    rw [if_pos hf'] at hm
    cases hm

/-- The second half passes the message to the function. -/
theorem kept_call (hw : MailWf s) (hk : Kept serial L s.stock s.spent)
    (hc : s.currentEsr = some me) (hb : (s.esr me).pc = .call) :
    Kept serial (L.note none (s.esr me).msg) (s.setEsr me { s.esr me with pc := .body }).stock
      (s.setEsr me { s.esr me with pc := .body }).spent := by
  have ha := hw.current me hc
  have hself : (s.setEsr me { s.esr me with pc := .body }).esr me =
      { s.esr me with pc := .body } := Function.update_self ..
  have hat : AtField me s (s.setEsr me { s.esr me with pc := .body }) :=
    ⟨fun _ _ => rfl, fun x hx => Function.update_of_ne hx .., fun _ _ => rfl⟩
  have hf : s.Fresh me := by
    unfold EsrSys.Fresh
    rw [if_pos ha, hb]
    exact nofun
  have hf' : ¬ (s.setEsr me { s.esr me with pc := .body }).Fresh me := by
    unfold EsrSys.Fresh
    rw [hself, if_pos ha]
    exact fun h => h rfl
  have hmsg : s.stock (.field me) = (s.esr me).msg := by rw [stock_field, if_pos hf]
  rw [← hmsg]
  refine hat.read hk (stock_none hf') fun m hm => .inr ?_
  rw [spent_msg hf', hself] at hm
  exact hmsg.trans hm

/-- Waiting starts: what is left in the field has been read. -/
theorem kept_wait (hw : MailWf s) (hk : Kept serial L s.stock s.spent)
    (hc : s.currentEsr = some me) (hb : (s.esr me).pc = .body) :
    Kept serial (L.note none none) ((s.waitStart me q).leave me).stock
      ((s.waitStart me q).leave me).spent := by
  have hself : ((s.waitStart me q).leave me).esr me =
      { s.esr me with wbWaitable := some q, active := false } := by
    show update (update s.esr me { s.esr me with wbWaitable := some q }) me
      { update s.esr me { s.esr me with wbWaitable := some q } me with active := false } me = _
    rw [Function.update_self, Function.update_self]
  have hat : AtField me s ((s.waitStart me q).leave me) := by
    refine ⟨fun p i => held_cell_recvWq rfl p i, fun x hx => ?_,
      fun x hx => (leave_item (s.waitStart me q) me x).trans (if_neg hx)⟩
    show update (update s.esr me { s.esr me with wbWaitable := some q }) me _ x = _
    rw [Function.update_of_ne hx, Function.update_of_ne hx]
  refine hat.quiet hk (fresh_body hw hc hb) (fresh_suspended (by rw [hself])
    (leave_not_ready (hw.ready me (hw.current me hc)))) fun m hm => ?_
  rw [hself] at hm
  exact hm

/-- Where the place `p` had its message from, when the front of the port `q` is taken. -/
def takenFrom (q : Q) : EsrPlace E Q → EsrPlace E Q
  | .cell p i => if p = q then .cell p (i + 1) else .cell p i
  | .field e => .field e

theorem takenFrom_inj {p p' : EsrPlace E Q} (h : takenFrom q p = takenFrom q p') : p = p' := by
  unfold takenFrom at h
  cases p with
  | cell a i =>
    cases p' with
    | cell b j =>
      simp only at h
      by_cases ha : a = q
      · by_cases hb : b = q
        · rw [if_pos ha, if_pos hb] at h
          obtain ⟨rfl, hij⟩ := EsrPlace.cell.inj h
          rw [Nat.succ.inj hij]
        · rw [if_pos ha, if_neg hb] at h
          exact absurd ((EsrPlace.cell.inj h).1.symm.trans ha) hb
      · by_cases hb : b = q
        · rw [if_neg ha, if_pos hb] at h
          exact absurd ((EsrPlace.cell.inj h).1.trans hb) ha
        · rwa [if_neg ha, if_neg hb] at h
    | field e =>
      simp only at h
      split at h
      · cases h
      · cases h
  | field e =>
    cases p' with
    | cell b j =>
      simp only at h
      split at h
      · cases h
      · cases h
    | field e' => exact h

/-- Every other message moves up. -/
theorem takenFrom_surj {p : EsrPlace E Q} (h : p ≠ .cell q 0) : ∃ p', takenFrom q p' = p := by
  cases p with
  | cell a i =>
    by_cases ha : a = q
    · cases i with
      | zero => exact absurd (ha ▸ rfl) h
      | succ i => exact ⟨.cell a i, if_pos ha⟩
    · exact ⟨.cell a i, if_neg ha⟩
  | field e => exact ⟨.field e, rfl⟩

/-- The cell at the front moves up into no other cell. -/
theorem takenFrom_ne_front {p : EsrPlace E Q} : takenFrom q p ≠ .cell q 0 := by
  unfold takenFrom
  cases p with
  | cell a i =>
    simp only
    split
    · exact fun h => Nat.succ_ne_zero i (EsrPlace.cell.inj h).2
    · rename_i ha
      exact fun h => ha (EsrPlace.cell.inj h).1
  | field e => exact fun h => by cases h

theorem held_get (p : Q) (i : Nat) :
    (s.receive me q).held (.cell p i) = s.held (takenFrom q (.cell p i)) := by
  unfold takenFrom
  simp only
  by_cases hp : p = q
  · subst hp
    rw [if_pos rfl]
    unfold EsrSys.held
    simp only
    have hself : (s.receive me p).msgq p = (s.msgq p).get := Function.update_self ..
    rw [hself]
    show (if i < (s.msgq p).items - 1 then
      (s.msgq p).buf (((((s.msgq p).tail + 1) % (s.msgq p).itemsMax) + i) % (s.msgq p).itemsMax)
      else none) = _
    rw [Nat.mod_add_mod, show (s.msgq p).tail + 1 + i = (s.msgq p).tail + (i + 1) by omega]
    exact if_congr (by omega) rfl rfl
  · rw [if_neg hp]
    have hself : (s.receive me q).msgq p = s.msgq p := Function.update_of_ne hp ..
    refine held_cell_congr p i ?_ ?_ ?_ ?_
    all_goals rw [hself]

/-- The message at the front of a port that is not empty. -/
theorem held_front (hw : MailWf s) (h0 : (s.msgq q).items ≠ 0) :
    s.held (.cell q 0) = (s.msgq q).buf (s.msgq q).tail := by
  have hr := hw.ring q
  have hpos : 0 < (s.msgq q).items := Nat.pos_of_ne_zero h0
  unfold EsrSys.held
  simp only
  rw [if_pos hpos, Nat.add_zero, Nat.mod_eq_of_lt (hr.tail (hpos.trans_le hr.items))]

theorem receive_self (s : EsrSys E F Q M) (me : E) (q : Q) : (s.receive me q).esr me =
    { s.esr me with msg := (s.msgq q).buf (s.msgq q).tail } := Function.update_self ..

theorem receive_stock (hc : ¬ s.Fresh me) (hf : ¬ (s.receive me q).Fresh me) (p : EsrPlace E Q) :
    (s.receive me q).stock p = s.stock (takenFrom q p) := by
  cases p with
  | cell p i =>
    have hcell : ∀ x : EsrPlace E Q, takenFrom q (.cell p i) = x → s.stock x = s.held x := by
      rintro x rfl
      unfold takenFrom
      simp only
      split <;> rfl
    rw [stock_cell, held_get, hcell _ rfl]
  | field e =>
    show _ = s.stock (.field e)
    by_cases hem : e = me
    · rw [hem, stock_none hf, stock_none hc]
    · have hother : (s.receive me q).esr e = s.esr e := Function.update_of_ne hem ..
      exact (field_congr hother rfl).1

/-- **The front of a port delivered to an ESR that runs**, and so consumed. -/
theorem kept_receive (hw : MailWf s) (hk : Kept serial L s.stock s.spent)
    (hc : s.currentEsr = some me) (hb : (s.esr me).pc = .body) (h0 : (s.msgq q).items ≠ 0) :
    Kept serial (L.note none ((s.receive me q).esr me).msg) (s.receive me q).stock
      (s.receive me q).spent := by
  have hfront : (s.msgq q).buf (s.msgq q).tail = s.stock (.cell q 0) := (held_front hw h0).symm
  have hf : ¬ (s.receive me q).Fresh me := by
    unfold EsrSys.Fresh
    rw [receive_self]
    show ¬ if (s.esr me).active = true then (s.esr me).pc ≠ .body else _
    rw [if_pos (hw.current me hc), hb]
    exact fun h => h rfl
  have hstock := receive_stock (q := q) (fresh_body hw hc hb) hf
  rw [receive_self]
  show Kept serial (L.note none ((s.msgq q).buf (s.msgq q).tail)) _ _
  rw [hfront]
  refine hk.note (takenFrom q) (fun _ => False) (fun _ _ h => h.elim)
    (fun p m hp => .inl ((hstock p).symm.trans hp)) (fun _ _ => takenFrom_inj) (fun p m hp => ?_)
    (fun m hm => ⟨⟨.cell q 0, hm⟩, fun p hp => ?_⟩) nofun fun e m hm => ?_
  · by_cases hq : p = .cell q 0
    · exact .inr (hq ▸ hp)
    · obtain ⟨p', rfl⟩ := takenFrom_surj hq
      exact .inl ⟨p', (hstock p').trans hp⟩
  · exact takenFrom_ne_front (hk.once _ _ m ((hstock p).symm.trans hp) hm)
  · by_cases hem : e = me
    · rw [hem, spent_msg hf, receive_self] at hm
      exact .inr (.inl (hfront.symm.trans hm))
    · have hother : (s.receive me q).esr e = s.esr e := Function.update_of_ne hem ..
      rw [(field_congr hother rfl).2] at hm
      exact .inl hm

/-- The same, when the front of the port goes into the field of `me`. -/
def broughtFrom (me : E) (q : Q) (p : EsrPlace E Q) : EsrPlace E Q :=
  if p = .field me then .cell q 0 else takenFrom q p

theorem broughtFrom_inj {p p' : EsrPlace E Q} (h : broughtFrom me q p = broughtFrom me q p') :
    p = p' := by
  unfold broughtFrom at h
  by_cases hp : p = .field me
  · by_cases hp' : p' = .field me
    · rw [hp, hp']
    · rw [if_pos hp, if_neg hp'] at h
      exact absurd h.symm takenFrom_ne_front
  · by_cases hp' : p' = .field me
    · rw [if_neg hp, if_pos hp'] at h
      exact absurd h takenFrom_ne_front
    · rw [if_neg hp, if_neg hp'] at h
      exact takenFrom_inj h

theorem broughtFrom_surj {p : EsrPlace E Q} (h : p ≠ .field me) :
    ∃ p', broughtFrom me q p' = p := by
  by_cases hq : p = .cell q 0
  · exact ⟨.field me, (if_pos rfl).trans hq.symm⟩
  · obtain ⟨p', hp'⟩ := takenFrom_surj hq
    refine ⟨p', (if_neg fun e => h ?_).trans hp'⟩
    rw [← hp', e]
    rfl

/-- The front of a port for an ESR that waits: it is off the processor, and about to be started
    with the message. -/
theorem kept_restart (hw : MailWf s) (hk : Kept serial L s.stock s.spent)
    (hc : s.currentEsr = some me) (hb : (s.esr me).pc = .body) (h0 : (s.msgq q).items ≠ 0) :
    Kept serial (L.note none none) (((s.receive me q).leave me).resume me).stock
      (((s.receive me q).leave me).resume me).spent := by
  have hw1 : MailWf (s.receive me q) := hw.receive hc hb h0 _
  have hf1 : ¬ (s.receive me q).Fresh me := by
    refine fresh_body hw1 hc ?_
    rw [receive_self]
    exact hb
  have hself : (((s.receive me q).leave me).resume me).esr me =
      { s.esr me with msg := (s.msgq q).buf (s.msgq q).tail, active := false } := by
    show update (s.receive me q).esr me _ me = _
    rw [Function.update_self, receive_self]
  have hf : (((s.receive me q).leave me).resume me).Fresh me := by
    unfold EsrSys.Fresh
    rw [hself]
    exact resume_count_le (Nat.le_of_eq (leave_count (hw1.ready me (hw1.current me hc))))
  have hat : AtField me (s.receive me q) (((s.receive me q).leave me).resume me) := by
    refine ⟨fun _ _ => rfl, fun x hx => Function.update_of_ne hx .., fun x hx => ?_⟩
    rw [resume_item, if_neg hx, leave_item, if_neg hx]
  have hstock : ∀ p, (((s.receive me q).leave me).resume me).stock p =
      s.stock (broughtFrom me q p) := by
    intro p
    unfold broughtFrom
    by_cases hp : p = .field me
    · rw [if_pos hp, hp, stock_field, if_pos hf, hself]
      exact (held_front hw h0).symm
    · rw [if_neg hp, ← receive_stock (fresh_body hw hc hb) hf1]
      cases p with
      | cell p i => rfl
      | field e => exact (hat.field fun e' => hp (congrArg _ e')).1
  refine hk.note (broughtFrom me q) (fun _ => False) (fun _ _ h => h.elim)
    (fun p m hp => .inl ((hstock p).symm.trans hp)) (fun _ _ => broughtFrom_inj)
    (fun p m hp => ?_) nofun nofun fun e m hm => .inl ?_
  · have hpm : p ≠ .field me := by
      rintro rfl
      rw [stock_none (fresh_body hw hc hb)] at hp
      cases hp
    obtain ⟨p', hp'⟩ := broughtFrom_surj (q := q) hpm
    exact .inl ⟨p', (hstock p').trans (hp'.symm ▸ hp)⟩
  · by_cases hem : e = me
    · unfold EsrSys.spent at hm
      rw [hem, if_pos hf] at hm
      cases hm
    · have hother : (s.receive me q).esr e = s.esr e := Function.update_of_ne hem ..
      rw [(hat.field hem).2, (field_congr hother rfl).2] at hm
      exact hm

theorem kept_waitMsg (hw : MailWf s) (hk : Kept serial L s.stock s.spent)
    (hc : s.currentEsr = some me) (hb : (s.esr me).pc = .body) (q : Q) (wait : Bool) :
    Kept serial (L.note none (s.reads me (.waitMsg q wait))) (fxEsrWaitMsg s me q wait).2.stock
      (fxEsrWaitMsg s me q wait).2.spent := by
  have hnone := hw.not_waiting hc hb
  cases wait with
  | false =>
    show Kept serial (L.note none (if (fxEsrWaitMsg s me q false).1 then
      ((fxEsrWaitMsg s me q false).2.esr me).msg else none)) _ _
    by_cases h0 : (s.msgq q).items = 0
    · rw [waitMsg_empty hnone h0]
      exact (AtField.refl me s).same hk rfl fun _ h => h
    · rw [waitMsg_filled hnone h0]
      exact kept_receive hw hk hc hb h0
  | true =>
    show Kept serial (L.note none none) _ _
    by_cases h0 : (s.msgq q).items = 0
    · rw [waitMsg_empty hnone h0]
      exact kept_wait hw hk hc hb
    · rw [waitMsg_filled hnone h0]
      exact kept_restart hw hk hc hb h0

/-- A level changes no message. -/
theorem kept_setEpl (hk : Kept serial L s.stock s.spent) (v : Nat) :
    Kept serial (L.note none none) (s.setEsr me { s.esr me with epl := v }).stock
      (s.setEsr me { s.esr me with epl := v }).spent := by
  have hself : (s.setEsr me { s.esr me with epl := v }).esr me = { s.esr me with epl := v } :=
    Function.update_self ..
  have hf : (s.setEsr me { s.esr me with epl := v }).Fresh me ↔ s.Fresh me := by
    unfold EsrSys.Fresh
    rw [hself]
    exact Iff.rfl
  have hat : AtField me s (s.setEsr me { s.esr me with epl := v }) :=
    ⟨fun _ _ => rfl, fun x hx => Function.update_of_ne hx .., fun _ _ => rfl⟩
  refine hat.same hk ?_ fun m hm => ?_
  · rw [stock_field, stock_field, hself]
    exact if_congr hf rfl rfl
  · unfold EsrSys.spent at hm ⊢
    rw [hself, if_congr hf rfl rfl] at hm
    exact hm

/-- The dispatcher starts an ESR with the message it has to read. -/
theorem kept_dispatch (hw : MailWf s) (hk : Kept serial L s.stock s.spent) (alloc : F → F) :
    Kept serial (L.note none none) (esrDispatchHandler alloc s).stock
      (esrDispatchHandler alloc s).spent := by
  have hcell : ∀ q i, (esrDispatchHandler alloc s).held (.cell q i) = s.held (.cell q i) := by
    intro q i
    refine held_cell_congr q i ?_ ?_ ?_ ?_
    all_goals rw [dispatch_msgq]
  have hitem := dispatch_item alloc s
  rcases dispatch_esr hw.slot alloc with ⟨he, _⟩ | ⟨n, f, hr, ha, _, he⟩
  · refine hk.same (fun p => ?_) fun e m hm => .inl ?_
    · cases p with
      | cell q i => exact hcell q i
      | field e => exact (field_congr (congrFun he e) (congrFun hitem e)).1
    · rwa [(field_congr (congrFun he e) (congrFun hitem e)).2] at hm
  · have hself : (esrDispatchHandler alloc s).esr n =
        { s.esr n with active := true, intrContext := some f, pc := .stub } := by
      rw [he, Function.update_self]
    have hat : AtField n s (esrDispatchHandler alloc s) :=
      ⟨hcell, fun x hx => by rw [he, Function.update_of_ne hx], fun x _ => congrFun hitem x⟩
    have hf : s.Fresh n := by
      unfold EsrSys.Fresh
      rw [if_neg (by rw [ha]; exact Bool.false_ne_true)]
      exact hr
    have hf' : (esrDispatchHandler alloc s).Fresh n := by
      unfold EsrSys.Fresh
      rw [hself]
      exact nofun
    refine hat.same hk ?_ fun m hm => ?_
    · rw [stock_field, stock_field, if_pos hf, if_pos hf', hself]
    · unfold EsrSys.spent at hm
      rw [if_pos hf'] at hm
      cases hm

end Buch

/-! ## 4. Runs -/

/-- What every run keeps in which no step writes over a message. -/
def PostOk (w : EsrSys E F Q (V × Nat) × Books (V × Nat)) : Prop :=
  MailWf w.1 ∧ Kept Prod.snd w.2 w.1.stock w.1.spent

theorem kept_call_step {s s' : EsrSys E F Q M} {serial : M → Nat} {L : Books M} (hw : MailWf s)
    (hk : Kept serial L s.stock s.spent) (hc : s.currentEsr = some me) {c : EsrCall Q}
    (hs : esrCall cfg me s c = some s') :
    Kept serial (L.note none (s.reads me c)) s'.stock s'.spent := by
  cases c with
  | stub =>
    have hs' : fxEsrStub s me = some s' := hs
    unfold fxEsrStub at hs'
    show Kept serial (L.note none (if (s.esr me).pc = .call then (s.esr me).msg else none)) _ _
    split at hs'
    · rename_i hpc
      obtain rfl := Option.some.inj hs'
      rw [if_neg (by rw [hpc]; exact nofun)]
      exact kept_cancel hw hk hc hpc
    · rename_i hpc
      obtain rfl := Option.some.inj hs'
      rw [if_pos hpc]
      exact kept_call hw hk hc hpc
    · cases hs'
  | exit =>
    obtain ⟨⟨hb, _⟩, rfl⟩ := taken hs
    exact kept_exit hw hk hc (of_decide_eq_true hb)
  | waitMsg q wait =>
    obtain ⟨⟨hb, _⟩, rfl⟩ := taken hs
    exact kept_waitMsg hw hk hc (of_decide_eq_true hb) q wait
  | raisePl v =>
    obtain ⟨_, rfl⟩ := taken hs
    exact kept_setEpl hk v
  | lowerPl v =>
    obtain ⟨_, rfl⟩ := taken hs
    exact kept_setEpl hk v

theorem PostOk.step {w w' : EsrSys E F Q (V × Nat) × Books (V × Nat)} {a : EsrOp E F Q V}
    (h : PostOk w) (hg : MailKept w.1 a) (hs : postStep cfg a w = some w') : PostOk w' := by
  obtain ⟨hw, hk⟩ := h
  obtain ⟨s', hs', rfl⟩ := Option.map_eq_some_iff.mp hs
  refine ⟨hw.step hs', ?_⟩
  have hserial : ∀ (msg : Option V) (m : V × Nat),
      msg.map (fun v => (v, w.2.next)) = some m → m.2 = w.2.next := by
    intro msg m hm
    obtain ⟨v, _, rfl⟩ := Option.map_eq_some_iff.mp hm
    rfl
  cases a with
  | activate e msg =>
    obtain rfl := Option.some.inj hs'
    refine kept_activate hw hk e _ (hserial msg) fun hnone => ?_
    obtain rfl := Option.map_eq_none_iff.mp hnone
    exact hg
  | send q msg =>
    obtain rfl := Option.some.inj hs'
    exact kept_send hw hk q _ (hserial msg) hg
  | dispatch f =>
    obtain rfl := Option.some.inj hs'
    exact kept_dispatch (hw.setPsp f) hk cfg.alloc
  | call c =>
    obtain ⟨me, hme, hc⟩ := Option.bind_eq_some_iff.mp hs'
    have hcon : w.1.consumes (.call c) = w.1.reads me c := by
      unfold EsrSys.consumes
      rw [hme]
      rfl
    show Kept Prod.snd (w.2.note none (w.1.consumes (.call c))) _ _
    rw [hcon]
    exact kept_call_step hw hk hme hc

variable {epl : E → Nat} {psp : F} {buf : Q → Nat → Option (V × Nat)} {itemsMax : Q → Nat}
  {policy : Q → SyncPolicy}

/-- The start, with ports of any size and policy on buffers with any content. -/
def postStart (cfg : EsrConfig E F) (epl : E → Nat) (psp : F) (buf : Q → Nat → Option (V × Nat))
    (itemsMax : Q → Nat) (policy : Q → SyncPolicy) :
    EsrSys E F Q (V × Nat) × Books (V × Nat) :=
  (esrStart cfg epl psp fun q => esrMsgqInit E (buf q) (itemsMax q) (policy q), Books.empty _)

theorem postOk_start : PostOk (postStart cfg epl psp buf itemsMax policy) := by
  have hitem : ∀ e, ((postStart cfg epl psp buf itemsMax policy).1.sched.item e).suspendCount =
      if e = cfg.idle then 0 else 1 := by
    intro e
    show ((esrStart cfg epl psp _).sched.item e).suspendCount = _
    rw [esrStart_item]
    split <;> rfl
  have hnone : ∀ e, ((postStart cfg epl psp buf itemsMax policy).1.esr e).msg = none :=
    fun _ => rfl
  constructor
  · refine ⟨bitmapCtor_slotOk _ _, fun e => ?_, fun e he => ?_, fun e he => ?_, fun e p => ?_,
      fun _ => List.nodup_nil, fun e _ hw => absurd rfl hw, fun e _ _ => hnone e, fun p => ?_⟩
    · rw [hitem]
      split
      · exact Nat.zero_le _
      · exact Nat.le_refl _
    · exact decide_eq_true (Option.some.inj he).symm
    · unfold EsrSys.Ready
      rw [hitem, if_pos (of_decide_eq_true he)]
    · exact iff_of_false (fun e => by cases e) List.not_mem_nil
    · exact ⟨Nat.zero_le _, fun h => h, (Nat.zero_mod _).symm⟩
  · refine kept_empty Prod.snd (fun p => ?_) fun e => ?_
    · cases p with
      | cell q i =>
        show (if i < 0 then buf q ((0 + i) % itemsMax q) else none) = none
        rw [if_neg (Nat.not_lt_zero i)]
      | field e =>
        rw [stock_field, hnone]
        split <;> rfl
    · unfold EsrSys.spent
      rw [hnone]
      split <;> rfl

/-- **No accepted message is overwritten, where no step writes over one.** In every run of
    activations, sends, waits and exits whose steps are all of that kind, no message is consumed
    twice, and a message that was accepted and has not been consumed lies in one cell of one
    port or in the field of one ESR. -/
theorem message_kept {w : EsrSys E F Q (V × Nat) × Books (V × Nat)}
    (h : Reach (postStep cfg) (fun w a => MailKept w.1 a)
      (postStart cfg epl psp buf itemsMax policy) w) :
    w.2.consumed.Nodup ∧
      ∀ m ∈ w.2.accepted, m ∉ w.2.consumed → ∃! p, w.1.held p = some m := by
  obtain ⟨_, hk⟩ : PostOk w := h.inv postOk_start fun _ _ _ hj hg hs => hj.step hg hs
  refine ⟨hk.nodup, fun m hm hc => hk.unique (fun p m hp => ?_) (fun p m hp => ?_) hm hc⟩
  · cases p with
    | cell q i => exact hp
    | field e =>
      rw [stock_field] at hp
      split at hp
      · exact hp
      · cases hp
  · cases p with
    | cell q i => exact .inl hp
    | field e =>
      by_cases hf : w.1.Fresh e
      · exact .inl ((if_pos hf).trans hp)
      · exact .inr ⟨e, (spent_msg hf).trans hp⟩

/-- Two ports of one cell, no message yet. -/
def fourPosts : EsrSys (Fin 4) Nat Bool (Nat × Nat) × Books (Nat × Nat) :=
  postStart fourEsrs fourEpls 0 (fun _ _ => none) (fun _ => 1) fun _ => .fifo

/-- The ESR of EPL 21 waits at a port; the message sent there lies in its field. -/
theorem message_kept_delivered : ∃ w : EsrSys (Fin 4) Nat Bool (Nat × Nat) × Books (Nat × Nat),
    (w.1.esr 2).msg = some (7, 6) ∧ ∃! p, w.1.held p = some (7, 6) := by
  have hrun : (runIf (fun w a => decide (MailKept w.1 a)) (postStep fourEsrs)
      [.activate 2 none, .dispatch 900, .call .stub, .call .stub, .call (.waitMsg true true),
        .dispatch 800, .send true (some 7)] fourPosts).any (fun w => decide
          ((w.1.esr 2).msg = some (7, 6) ∧ (7, 6) ∈ w.2.accepted ∧ (7, 6) ∉ w.2.consumed)) =
      true := by
    decide +kernel
  obtain ⟨w, hreach, hw⟩ := exists_of_runIf (fun _ _ h => of_decide_eq_true h) hrun
  obtain ⟨hmsg, hacc, hcon⟩ := of_decide_eq_true hw
  exact ⟨w, hmsg, (message_kept hreach).2 _ hacc hcon⟩

/-- **In the code an accepted message is overwritten.** The ESR of EPL 21 waits at a port with an
    empty field. It is activated with the message 7; before it starts, 8 is sent to the port, and
    written over the 7. -/
theorem message_overwritten :
    ¬ ∀ w : EsrSys (Fin 4) Nat Bool (Nat × Nat) × Books (Nat × Nat),
      Reach (postStep fourEsrs) Always fourPosts w → w.2.consumed.Nodup ∧
        ∀ m ∈ w.2.accepted, m ∉ w.2.consumed → ∃! p, w.1.held p = some m := by
  intro hall
  have hrun : (run (postStep fourEsrs)
      [.activate 2 none, .dispatch 900, .call .stub, .call .stub, .call (.waitMsg true true),
        .dispatch 800, .activate 2 (some 7), .send true (some 8)] fourPosts).any (fun w => decide
          ((7, 6) ∈ w.2.accepted ∧ (7, 6) ∉ w.2.consumed ∧ (∀ q, (w.1.msgq q).items = 0) ∧
            ∀ e, (w.1.esr e).msg ≠ some (7, 6))) = true := by
    decide +kernel
  obtain ⟨w, hreach, hw⟩ := exists_of_run hrun
  obtain ⟨hacc, hcon, hitems, hmsg⟩ := of_decide_eq_true hw
  obtain ⟨p, hp, _⟩ := (hall w hreach).2 _ hacc hcon
  cases p with
  | cell q i =>
    unfold EsrSys.held at hp
    simp only at hp
    rw [hitems q] at hp
    cases hp
  | field e => exact hmsg e hp

/-- The other way: an ESR that waits with the message 7 in its field, which it has had, is
    activated without a message, and called with the 7 again. -/
theorem message_consumed_twice : ∃ w : EsrSys (Fin 4) Nat Bool (Nat × Nat) × Books (Nat × Nat),
    Reach (postStep fourEsrs) Always fourPosts w ∧ w.2.accepted.count (7, 0) = 1 ∧
      w.2.consumed.count (7, 0) = 2 := by
  have hrun : (run (postStep fourEsrs)
      [.activate 2 (some 7), .dispatch 900, .call .stub, .call .stub, .call (.waitMsg true true),
        .dispatch 800, .activate 2 none, .dispatch 700, .call .stub, .call .stub] fourPosts).any
      (fun w => decide (w.2.accepted.count (7, 0) = 1 ∧ w.2.consumed.count (7, 0) = 2)) = true := by
    decide +kernel
  obtain ⟨w, hreach, hw⟩ := exists_of_run hrun
  exact ⟨w, hreach, of_decide_eq_true hw⟩

end FxRtos
