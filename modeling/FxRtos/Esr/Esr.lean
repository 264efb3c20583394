/-
  File:      FxRtos/Esr/Esr.lean
  Subject:   EVENT SERVICE ROUTINES (sw/fx_esr.c) and their message ports (fx_msgq_esr.c, with
             fx_msgq_core.c): run-to-completion routines on one stack, over the bitmap scheduler.

  * `EsrSys` -- the module's context (`current_esr`, `virtual_frame`), the process stack pointer
    of HAL_INTR_FRAME, the ESRs, the ports and the scheduler. NULL and the message 0 are `none`.
  * A step is what runs with the scheduler locked: a call of an ESR or of an interrupt handler,
    one of the two halves of `fx_esr_stub`, or the dispatch interrupt. A DPC that activates an
    ESR inside `fx_dispatch_handler` is a step before it: the handler has read by then only
    what no such call changes.
  * The code after `fx_esr_exit` and after a waiting `fx_esr_wait_msg` never runs, so such an
    ESR is not the current one any more. The idle ESR is the loop of `fx_kernel_entry`: it has
    no function to return from, and neither exits nor waits.
-/
import FxRtos.Kernel.Kern
import FxRtos.Sched.Bitmap
import FxRtos.Lib.Reach

namespace FxRtos

open Function (update)
open Lib

/-! ## 1. The data -/

/-- How far an activation has come: before `fx_sync_wait_rollback`, before the call of the
    function, in the function. -/
inductive EsrPc where
  | stub
  | call
  | body
  deriving DecidableEq, Repr

/-- `fx_esr_t`; `sched_item` is in the scheduler. `wbWaitable` is `wb.waitable`. -/
structure FxEsr (F Q M : Type) where
  epl : Nat
  active : Bool
  intrContext : Option F
  msg : Option M
  wbWaitable : Option Q
  pc : EsrPc

/-- `fx_msgq_t` with the queue of `recv_wtbl`; each ESR has one wait block. No ESR ever waits to
    send. -/
structure EsrMsgq (E M : Type) where
  buf : Nat → Option M
  itemsMax : Nat
  items : Nat
  head : Nat
  tail : Nat
  policy : SyncPolicy
  recvWq : List E

structure EsrSys (E F Q M : Type) where
  sched : SchedContext E (BitmapContainer E)
  currentEsr : Option E
  virtualFrame : Option F
  psp : F
  esr : E → FxEsr F Q M
  msgq : Q → EsrMsgq E M

/-- The idle ESR, and `hal_intr_frame_alloc`: the address of a new frame next to a given one. -/
structure EsrConfig (E F : Type) where
  idle : E
  alloc : F → F

variable {E F Q M : Type} [DecidableEq E] [DecidableEq Q]

def EsrSys.setEsr (s : EsrSys E F Q M) (e : E) (x : FxEsr F Q M) : EsrSys E F Q M :=
  { s with esr := update s.esr e x }

def EsrSys.setMsg (s : EsrSys E F Q M) (e : E) (m : Option M) : EsrSys E F Q M :=
  s.setEsr e { s.esr e with msg := m }

def EsrSys.setMsgq (s : EsrSys E F Q M) (q : Q) (x : EsrMsgq E M) : EsrSys E F Q M :=
  { s with msgq := update s.msgq q x }

def EsrSys.resume (s : EsrSys E F Q M) (e : E) : EsrSys E F Q M :=
  { s with sched := fxSchedItemResume s.sched e }

def EsrSys.suspend (s : EsrSys E F Q M) (e : E) : EsrSys E F Q M :=
  { s with sched := fxSchedItemSuspend s.sched e }

/-- The fixed priority of an ESR, the EPL it was initialized with. -/
def EsrSys.prio (s : EsrSys E F Q M) (e : E) : Nat := (s.sched.item e).prio

/-- An ESR the scheduler can select. -/
def EsrSys.Ready (s : EsrSys E F Q M) (e : E) : Prop := (s.sched.item e).suspendCount = 0

instance (s : EsrSys E F Q M) (e : E) : Decidable (s.Ready e) :=
  inferInstanceAs (Decidable (_ = _))

/-! ## 2. Message ports -/

/-- `_fx_sync_wait_block_get` on the queue of receivers. -/
def EsrSys.receiver (s : EsrSys E F Q M) (q : Q) : Option E :=
  match (s.msgq q).recvWq, (s.msgq q).policy with
  | [], _ => none
  | first :: _, .fifo => some first
  | first :: rest, .prio =>
    some (rest.foldl (fun next e => if s.prio e < s.prio next then e else next) first)

/-- `_fx_sync_wait_notify_one` and `fx_sync_waiter_notify`: the wait block is unlinked and the ESR
    resumed. -/
def EsrSys.notify (s : EsrSys E F Q M) (q : Q) (e : E) : EsrSys E F Q M :=
  ((s.setMsgq q { s.msgq q with recvWq := (s.msgq q).recvWq.erase e }).setEsr e
    { s.esr e with wbWaitable := none }).resume e

/-- `_fx_msgq_put_msg` to the back. -/
def EsrMsgq.put (x : EsrMsgq E M) (m : Option M) : EsrMsgq E M :=
  { x with
    buf := update x.buf x.head m
    head := (x.head + 1) % x.itemsMax
    items := x.items + 1 }

/-- The message at the front taken out. -/
def EsrMsgq.get (x : EsrMsgq E M) : EsrMsgq E M :=
  { x with tail := (x.tail + 1) % x.itemsMax, items := x.items - 1 }

/-- `fx_msgq_send`, true for FX_MSGQ_OK: to a waiting receiver, into its `msg`, or into the
    buffer. -/
def fxMsgqSend (s : EsrSys E F Q M) (q : Q) (m : Option M) : Bool × EsrSys E F Q M :=
  if (s.msgq q).items = (s.msgq q).itemsMax then (false, s)
  else
    match if (s.msgq q).items = 0 then s.receiver q else none with
    | some rcvr => (true, (s.setMsg rcvr m).notify q rcvr)
    | none => (true, s.setMsgq q ((s.msgq q).put m))

/-- `_fx_sync_wait_start` with the wait block of the ESR `me`. -/
def EsrSys.waitStart (s : EsrSys E F Q M) (me : E) (q : Q) : EsrSys E F Q M :=
  (s.setMsgq q { s.msgq q with recvWq := (s.msgq q).recvWq ++ [me] }).setEsr me
    { s.esr me with wbWaitable := some q }

/-- `fx_msgq_test_and_wait_recv`, the buffer of the wait block being `me->msg`. -/
def esrTestAndWaitRecv (s : EsrSys E F Q M) (me : E) (q : Q) (wait : Bool) :
    Bool × EsrSys E F Q M :=
  if (s.msgq q).items = 0 then (false, if wait then s.waitStart me q else s)
  else (true, (s.setMsg me ((s.msgq q).buf (s.msgq q).tail)).setMsgq q (s.msgq q).get)

/-- `fx_sync_wait_rollback`. -/
def EsrSys.rollback (s : EsrSys E F Q M) (me : E) : EsrSys E F Q M :=
  match (s.esr me).wbWaitable with
  | some q =>
    (s.setMsgq q { s.msgq q with recvWq := (s.msgq q).recvWq.erase me }).setEsr me
      { s.esr me with wbWaitable := none }
  | none => s

/-! ## 3. The calls -/

/-- `fx_esr_activate`. The compare-and-swap returns the old value of `esr->msg`. -/
def fxEsrActivate (s : EsrSys E F Q M) (e : E) (msg : Option M) : EsrSys E F Q M :=
  match msg with
  | none => s.resume e
  | some m => if (s.esr e).msg.isNone then (s.setMsg e (some m)).resume e else s

/-- What `fx_esr_exit` and a waiting `fx_esr_wait_msg` do alike: the frame that `me` interrupted
    is left for the dispatcher, and `me` is taken off. -/
def EsrSys.leave (s : EsrSys E F Q M) (me : E) : EsrSys E F Q M :=
  { (s.setEsr me { s.esr me with active := false }).suspend me with
    virtualFrame := (s.esr me).intrContext
    currentEsr := none }

def fxEsrExit (s : EsrSys E F Q M) (me : E) : EsrSys E F Q M := (s.leave me).setMsg me none

def fxEsrRaisePl (s : EsrSys E F Q M) (me : E) (newEpl : Nat) : EsrSys E F Q M :=
  s.setEsr me { s.esr me with epl := newEpl }

def fxEsrLowerPl (s : EsrSys E F Q M) (me : E) (newEpl : Nat) : EsrSys E F Q M :=
  { fxEsrRaisePl s me newEpl with sched := fxSchedMarkReschedNeeded s.sched }

/-- The wait block initialized, with no waitable. -/
def EsrSys.prepareWb (s : EsrSys E F Q M) (me : E) : EsrSys E F Q M :=
  s.setEsr me { s.esr me with wbWaitable := none }

/-- `fx_esr_wait_msg`, `fx_msgq_listen`. `fx_sync_is_waiter_satisfied` is false here. -/
def fxEsrWaitMsg (s : EsrSys E F Q M) (me : E) (q : Q) (wait : Bool) : Bool × EsrSys E F Q M :=
  let r := esrTestAndWaitRecv (s.prepareWb me) me q wait
  if wait then (r.1, if r.1 then (r.2.leave me).resume me else r.2.leave me) else r

/-- The two halves of `fx_esr_stub` before the function runs. -/
def fxEsrStub (s : EsrSys E F Q M) (me : E) : Option (EsrSys E F Q M) :=
  match (s.esr me).pc with
  | .stub =>
    let s1 := s.rollback me
    some (s1.setEsr me { s1.esr me with pc := .call })
  | .call => some (s.setEsr me { s.esr me with pc := .body })
  | .body => none

/-- The test of the dispatcher: no current ESR, or one of a weaker level. -/
def EsrSys.preempts (s : EsrSys E F Q M) (next : E) : Bool :=
  s.currentEsr.all fun cur => decide ((s.esr next).epl < (s.esr cur).epl)

/-- The switch to `next`, from the context saved at `frame`. -/
def EsrSys.switchTo (alloc : F → F) (s : EsrSys E F Q M) (next : E) (frame : F) :
    EsrSys E F Q M :=
  if (s.esr next).active then { s with currentEsr := some next, psp := frame }
  else
    { s.setEsr next
        { s.esr next with active := true, intrContext := some frame, pc := .stub } with
      currentEsr := some next
      psp := alloc frame }

/-- `fx_dispatch_handler` of the ESR configuration. -/
def esrDispatchHandler (alloc : F → F) (s : EsrSys E F Q M) : EsrSys E F Q M :=
  let s1 := { s with virtualFrame := none, sched := (fxSchedGetNext s.sched).2 }
  match (fxSchedGetNext s.sched).1 with
  | none => s1
  | some next =>
    if s.preempts next then s1.switchTo alloc next (s.virtualFrame.getD s.psp) else s1

/-! ## 4. The system -/

/-- What the code of the current ESR does next. -/
inductive EsrCall (Q : Type) where
  | stub
  | exit
  | waitMsg (q : Q) (wait : Bool)
  | raisePl (newEpl : Nat)
  | lowerPl (newEpl : Nat)

/-- `activate` and `send` come from anywhere, interrupt handlers included; `dispatch` is the
    software interrupt, which has saved the context of the current ESR at `frame`. -/
inductive EsrOp (E F Q M : Type) where
  | activate (e : E) (msg : Option M)
  | send (q : Q) (msg : Option M)
  | call (c : EsrCall Q)
  | dispatch (frame : F)

/-- A call from within the function of the ESR `me`. -/
def EsrSys.inBody (s : EsrSys E F Q M) (me : E) : Bool := decide ((s.esr me).pc = .body)

def esrCall (cfg : EsrConfig E F) (me : E) (s : EsrSys E F Q M) :
    EsrCall Q → Option (EsrSys E F Q M)
  | .stub => fxEsrStub s me
  | .exit => if s.inBody me ∧ me ≠ cfg.idle then some (fxEsrExit s me) else none
  | .waitMsg q wait =>
    if s.inBody me ∧ (wait = true → me ≠ cfg.idle) then some (fxEsrWaitMsg s me q wait).2
    else none
  | .raisePl newEpl => if s.inBody me then some (fxEsrRaisePl s me newEpl) else none
  | .lowerPl newEpl => if s.inBody me then some (fxEsrLowerPl s me newEpl) else none

def esrStep (cfg : EsrConfig E F) : EsrOp E F Q M → EsrSys E F Q M → Option (EsrSys E F Q M)
  | .activate e msg, s => some (fxEsrActivate s e msg)
  | .send q msg, s => some (fxMsgqSend s q msg).2
  | .call c, s => s.currentEsr.bind fun me => esrCall cfg me s c
  | .dispatch frame, s => some (esrDispatchHandler cfg.alloc { s with psp := frame })

/-- `fx_msgq_init` on a buffer with any content. -/
def esrMsgqInit (E : Type) (buf : Nat → Option M) (itemsMax : Nat) (policy : SyncPolicy) :
    EsrMsgq E M := ⟨buf, itemsMax, 0, 0, 0, policy, []⟩

/-- What `fx_esr_init` writes; the other fields stay as the memory held them. -/
def fxEsrInit (old : FxEsr F Q M) (epl : Nat) : FxEsr F Q M :=
  { old with epl := epl, active := false }

/-- An ESR object in zeroed memory. -/
def FxEsr.zeroed : FxEsr F Q M := ⟨0, false, none, none, none, .body⟩

/-- `fx_esr_init`, and `fx_thread_ctor` for the idle ESR. -/
def esrCtor (cfg : EsrConfig E F) (epl : E → Nat) (old : E → FxEsr F Q M) (e : E) : FxEsr F Q M :=
  { fxEsrInit (old e) (epl e) with active := decide (e = cfg.idle) }

/-- The system with all ESRs and ports initialized, in the idle ESR. The objects lay in zeroed
    memory. -/
def esrStart (cfg : EsrConfig E F) (epl : E → Nat) (psp : F) (msgq : Q → EsrMsgq E M) :
    EsrSys E F Q M where
  sched := bitmapCtor cfg.idle epl
  currentEsr := some cfg.idle
  virtualFrame := none
  psp := psp
  esr := esrCtor cfg epl fun _ => .zeroed
  msgq := msgq

/-- Every ESR has an EPL of its own, and the idle ESR has the idle level. -/
structure EsrLevels (cfg : EsrConfig E F) (epl : E → Nat) : Prop where
  inj : ∀ x y, epl x = epl y → x = y
  idle : epl cfg.idle = 31
  lt : ∀ x, epl x < 32

end FxRtos
