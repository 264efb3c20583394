/-
  File:      FxRtos/Hal/Riscv.lean
  Subject:   INTERRUPTS AND SOFTWARE LEVELS ON RISC-V (hal_cpu_intr1.c, hal_cpu_intr0.S). The
             level `SPL` is a variable; what keeps interrupts out is the enable bit MIE.

  * `Code` -- the code that uses the HAL: threads, the handlers of ticks and interrupts, the
    dispatch handler. It raises to `SPL_SYNC` and lowers back, and requests dispatches.
  * `Activation` -- `hal_intr_handler` or `hal_swi_handler`, with the assembler code around it.
    The activations are stacked on the interrupt stack.
  * `halStep` -- one statement of what runs, or an interrupt: it may be taken wherever MIE is set.
-/
import FxRtos.Lib.Reach
import Mathlib.Logic.Function.Basic

namespace FxRtos

open Function (update)
open Lib

/-! ## 1. The data -/

/-- `spl_t`; `SPL_DISPATCH` is the same value as `SPL_SYNC`. -/
inductive Spl where
  | sync
  | isr
  | low
  deriving DecidableEq, Repr

/-- The next statement in a call of `hal_async_raise_spl` or `hal_async_lower_spl`; `own` if
    neither is called. -/
inductive CallPc where
  | own
  | raiseDisable (spl : Spl)
  | raiseRead (spl : Spl)
  | raiseWrite (spl oldSpl : Spl)
  | lowerDisable (spl : Spl)
  | lowerWrite (spl : Spl)
  | lowerTest (spl : Spl)
  | lowerEnable
  | lowerReturn
  deriving DecidableEq, Repr

/-- Code that uses the HAL: the levels it has to lower to, the innermost first. -/
structure Code where
  saved : List Spl
  pc : CallPc
  deriving DecidableEq, Repr

/-- Code that is at its start, or has lowered everything it raised. -/
def Code.fresh : Code := ⟨[], .own⟩

/-- The next statement of a handler. -/
inductive HandlerPc where
  -- hal_intr_entry and hal_intr_check_swi, up to the call
  | save
  -- hal_intr_handler
  | splRead
  | splWrite
  | cause
  | tickEnable
  | tick (c : Code)
  | tickDisable
  | intr (c : Code)
  | disable
  | testLow
  -- _hal_intr_swi_dispatch
  | loop
  | clear
  | enable
  | dispatch (c : Code)
  | dispatchDisable
  -- hal_intr_handler
  | restore
  -- hal_intr_entry and hal_intr_check_swi, after the call
  | leave
  | setMpie
  | mret
  deriving DecidableEq, Repr

/-- A handler in progress. `prevSpl` is its local variable, once `splRead` has assigned it; for
    `hal_swi_handler` it is the constant `SPL_LOW`. -/
structure Activation where
  swi : Bool
  prevSpl : Spl
  pc : HandlerPc
  deriving DecidableEq, Repr

/-- The bits MIE and MPIE of `mstatus`, the variables of the HAL, and who runs: the innermost
    activation on the interrupt stack, or the thread whose stack is in use. -/
structure Hal (T : Type) where
  mie : Bool
  mpie : Bool
  currentSpl : Spl
  dispatchReq : Bool
  nesting : Nat
  stackFrame : T
  current : T
  thread : T → Code
  stack : List Activation

/-! ## 2. The code -/

variable {T : Type} [DecidableEq T]

/-- One statement of `hal_async_raise_spl` or `hal_async_lower_spl`, and whether it is the call
    of `hal_intr_check_swi`. -/
def halAsyncStep (s : Hal T) (saved : List Spl) : CallPc → Option (Bool × Hal T × Code)
  | .own => none
  | .raiseDisable spl => some (false, { s with mie := false }, ⟨saved, .raiseRead spl⟩)
  | .raiseRead spl => some (false, s, ⟨saved, .raiseWrite spl s.currentSpl⟩)
  | .raiseWrite spl oldSpl => some (false, { s with currentSpl := spl }, ⟨oldSpl :: saved, .own⟩)
  | .lowerDisable spl => some (false, { s with mie := false }, ⟨saved, .lowerWrite spl⟩)
  | .lowerWrite spl => some (false, { s with currentSpl := spl }, ⟨saved, .lowerTest spl⟩)
  | .lowerTest spl =>
    if spl = .low ∧ s.dispatchReq then some (true, s, ⟨saved, .lowerReturn⟩)
    else some (false, s, ⟨saved, if spl ≠ .sync then .lowerEnable else .lowerReturn⟩)
  | .lowerEnable => some (false, { s with mie := true }, ⟨saved, .lowerReturn⟩)
  | .lowerReturn => some (false, s, ⟨saved, .own⟩)

def Hal.setPc (s : Hal T) (a : Activation) (rest : List Activation) (pc : HandlerPc) : Hal T :=
  { s with stack := { a with pc := pc } :: rest }

/-- The assembler code before the handler: the first interrupt saves the pointer to the frame on
    the stack of the thread, and starts at the base of the interrupt stack. -/
def halIntrSave (s : Hal T) (a : Activation) (rest : List Activation) : Hal T :=
  if a.swi then
    { s with nesting := 1, stackFrame := s.current, stack := [{ a with pc := .splWrite }] }
  else if s.nesting = 0 then
    { s with nesting := 1, stackFrame := s.current, stack := [{ a with pc := .splRead }] }
  else { s with nesting := s.nesting + 1, stack := { a with pc := .splRead } :: rest }

/-- The assembler code after the handler: the last one leaves the interrupt stack for the stack
    of the thread that the frame pointer belongs to. -/
def halIntrLeave (s : Hal T) (a : Activation) (rest : List Activation) : Hal T :=
  if a.swi then
    { s with nesting := 0, current := s.stackFrame, stack := [{ a with pc := .setMpie }] }
  else if s.nesting - 1 = 0 then
    { s with nesting := 0, current := s.stackFrame, stack := [{ a with pc := .setMpie }] }
  else { s with nesting := s.nesting - 1, stack := { a with pc := .setMpie } :: rest }

/-- One statement of a handler, where it is not up to the code it has called. -/
def halIntrStep (s : Hal T) (a : Activation) (rest : List Activation) : Option (Hal T) :=
  match a.pc with
  | .save => some (halIntrSave s a rest)
  | .splRead =>
    some { s with stack := { a with prevSpl := s.currentSpl, pc := .splWrite } :: rest }
  | .splWrite =>
    some { s with
      currentSpl := .isr
      stack := { a with pc := if a.swi then .loop else .cause } :: rest }
  | .cause => none
  | .tickEnable => some { s.setPc a rest (.tick .fresh) with mie := true }
  | .tick _ => none
  | .tickDisable => some { s.setPc a rest .disable with mie := false }
  | .intr _ => none
  | .disable => some { s.setPc a rest .testLow with mie := false }
  | .testLow => some (s.setPc a rest (if a.prevSpl = .low then .loop else .restore))
  | .loop => some (s.setPc a rest (if s.dispatchReq then .clear else .restore))
  | .clear => some { s.setPc a rest .enable with dispatchReq := false }
  | .enable => some { s.setPc a rest (.dispatch .fresh) with mie := true }
  | .dispatch _ => none
  | .dispatchDisable => some { s.setPc a rest .loop with mie := false }
  | .restore => some { s.setPc a rest .leave with currentSpl := a.prevSpl }
  | .leave => some (halIntrLeave s a rest)
  | .setMpie => some { s.setPc a rest .mret with mpie := true }
  | .mret => some { s with mie := s.mpie, mpie := true, stack := rest }

/-! ## 3. The machine -/

/-- The code that a handler has called. -/
def HandlerPc.code : HandlerPc → Option Code
  | .tick c => some c
  | .intr c => some c
  | .dispatch c => some c
  | _ => none

def HandlerPc.setCode (c : Code) : HandlerPc → HandlerPc
  | .tick _ => .tick c
  | .intr _ => .intr c
  | .dispatch _ => .dispatch c
  | pc => pc

/-- Where the handler goes on when the code returns. -/
def HandlerPc.after : HandlerPc → HandlerPc
  | .tick _ => .tickDisable
  | .intr _ => .disable
  | .dispatch _ => .dispatchDisable
  | pc => pc

/-- The code that runs, if it is not a handler of the HAL itself. -/
def Hal.code (s : Hal T) : Option Code :=
  match s.stack with
  | [] => some (s.thread s.current)
  | a :: _ => a.pc.code

def Hal.setCode (s : Hal T) (c : Code) : Hal T :=
  match s.stack with
  | [] => { s with thread := update s.thread s.current c }
  | a :: rest => s.setPc a rest (a.pc.setCode c)

/-- An interrupt, or what the code does next: it calls the HAL, it returns to the handler that
    called it, and the dispatch handler switches to the frame of a thread. `cause` is what
    `mcause` says, and `go` the next statement of the HAL. -/
inductive HalAct (T : Type) where
  | interrupt
  | raise
  | lower
  | request
  | finish
  | switch (t : T)
  | cause (timer : Bool)
  | go
  deriving DecidableEq

/-- Requests are made at `SPL_SYNC`, or from interrupt level. -/
def Hal.MayRequest (s : Hal T) : Prop := s.currentSpl = .sync ∨ s.stack ≠ []

instance decidableMayRequest (s : Hal T) : Decidable s.MayRequest :=
  inferInstanceAs (Decidable (_ ∨ _))

def Activation.dispatching (a : Activation) : Bool :=
  match a.pc with
  | .dispatch _ => true
  | _ => false

def halStep : HalAct T → Hal T → Option (Hal T)
  | .interrupt, s =>
    if s.mie then
      some { s with mie := false, mpie := s.mie, stack := ⟨false, .sync, .save⟩ :: s.stack }
    else none
  | .raise, s =>
    match s.code with
    | some ⟨saved, .own⟩ => some (s.setCode ⟨saved, .raiseDisable .sync⟩)
    | _ => none
  | .lower, s =>
    match s.code with
    | some ⟨spl :: saved, .own⟩ => some (s.setCode ⟨saved, .lowerDisable spl⟩)
    | _ => none
  | .request, s =>
    match s.code with
    | some ⟨_, .own⟩ => if s.MayRequest then some { s with dispatchReq := true } else none
    | _ => none
  | .finish, s =>
    match s.stack with
    | [] => none
    | a :: rest => if a.pc.code = some .fresh then some (s.setPc a rest a.pc.after) else none
  | .switch t, s =>
    match s.stack, s.code with
    | a :: _, some ⟨_, .own⟩ => if a.dispatching then some { s with stackFrame := t } else none
    | _, _ => none
  | .cause timer, s =>
    match s.stack with
    | [] => none
    | a :: rest =>
      if a.pc = .cause then
        some (s.setPc a rest (if timer then .tickEnable else .intr .fresh))
      else none
  | .go, s =>
    match s.code, s.stack with
    | some c, _ =>
      (halAsyncStep s c.saved c.pc).map fun r =>
        if r.1 then
          { r.2.1.setCode r.2.2 with
            stack := ⟨true, .low, .save⟩ :: (r.2.1.setCode r.2.2).stack }
        else r.2.1.setCode r.2.2
    | none, a :: rest => halIntrStep s a rest
    | none, [] => none

/-- The start of `fx_kernel_entry`: level `SPL_SYNC`, interrupts disabled, and the level to be
    lowered to `SPL_LOW`. The code of every other thread is still to be started. -/
def halBoot (idle : T) : Hal T where
  mie := false
  mpie := false
  currentSpl := .sync
  dispatchReq := false
  nesting := 0
  stackFrame := idle
  current := idle
  thread := update (fun _ => .fresh) idle ⟨[.low], .own⟩
  stack := []

end FxRtos
