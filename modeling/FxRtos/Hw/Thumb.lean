/-
  File:      FxRtos/Hw/Thumb.lean
  Subject:   THE CORTEX-M PROCESSOR, as far as the assembler files of the ports use it
             (ARMv6-M/hw_cpu.S, ARMv7-M/hw_cpu.S, hal_cpu_intr.S).

  * `Cpu` -- the registers, both stack pointers, the flags in `psr`, the interrupt mask, the
    exclusive monitor and the memory.
  * `Instr`, `exec` -- the instructions. A label is the number of the instruction it stands before.
-/
import FxRtos.Lib.Bits
import FxRtos.Lib.Machine
import FxRtos.Lib.Words

namespace FxRtos.Thumb

open Function (update)
open Lib

/-! ## 1. The processor -/

inductive Reg where
  | r0 | r1 | r2 | r3 | r4 | r5 | r6 | r7 | r8 | r9 | r10 | r11 | r12
  deriving DecidableEq, Repr

/-- The two stacks: MSP and PSP. -/
inductive Stack where
  | main
  | process
  deriving DecidableEq, Repr

/-- What `mrs` and `msr` transfer. -/
inductive Special where
  | sp (k : Stack)
  | primask
  | ipsr
  deriving DecidableEq, Repr

structure Cpu where
  r : Reg → Word
  lr : Word
  -- where the code goes on once it is left
  pc : Word
  psr : Word
  sps : Stack → Word
  -- in an exception handler; in a thread, CONTROL.SPSEL selects the stack
  handler : Bool
  spsel : Bool
  primask : Bool
  -- the exclusive monitor of the processor
  monitor : Bool
  mem : Word → Word

def Cpu.active (c : Cpu) : Stack := if !c.handler && c.spsel then .process else .main

def Cpu.sp (c : Cpu) : Word := c.sps c.active

/-- Bit `i` of the status register. -/
def setFlag (psr : Word) (i : Nat) (b : Bool) : Word :=
  if b then psr ||| 1#32 <<< i else psr &&& ~~~(1#32 <<< i)

/-- N and Z. -/
def nz (v psr : Word) : Word := setFlag (setFlag psr 31 v.msb) 30 (v == 0#32)

def Cpu.z (c : Cpu) : Bool := c.psr.getLsbD 30

def Cpu.set (c : Cpu) (d : Reg) (v : Word) : Cpu := { c with r := update c.r d v }

/-- The result of an addition or subtraction of `x` and `y`, with all four flags. -/
def addFlags (x y psr : Word) : Word :=
  setFlag (setFlag (nz (x + y) psr) 29 (BitVec.uaddOverflow x y)) 28 (BitVec.saddOverflow x y)

def subFlags (x y psr : Word) : Word :=
  setFlag (setFlag (nz (x - y) psr) 29 (!BitVec.usubOverflow x y)) 28 (BitVec.ssubOverflow x y)

/-- The registers `rs` loaded with `ws`. -/
def loadRegs (r : Reg → Word) : List Reg → List Word → Reg → Word
  | d :: rs, w :: ws => loadRegs (update r d w) rs ws
  | _, _ => r

/-- `ws` pushed onto the stack in use. -/
def Cpu.pushWords (c : Cpu) (ws : List Word) : Cpu :=
  let a := c.sp - BitVec.ofNat 32 (4 * ws.length)
  { c with sps := update c.sps c.active a, mem := storeWords c.mem a ws }

/-- The stack in use with `n` words taken off. -/
def Cpu.drop (c : Cpu) (n : Nat) : Cpu :=
  { c with sps := update c.sps c.active (c.sp + BitVec.ofNat 32 (4 * n)) }

/-! ## 2. The instructions -/

/-- The functions that the assembler code calls. -/
inductive Fn where
  | intrFrameSave
  | intrFrameRestore
  | fxIntrHandler
  | fxDispatchHandler
  deriving DecidableEq, Repr

inductive Instr where
  | push (rs : List Reg)
  | pop (rs : List Reg)
  | pushLr
  | popLr
  | popPc
  | bx
  | bl (f : Fn)
  | b (label : Nat)
  | beq (label : Nat)
  | bne (label : Nat)
  | movs (d : Reg) (n : Word)
  | mov (d m : Reg)
  | lsls (d m : Reg)
  | ands (d m : Reg)
  | add (d n m : Reg)
  | addsImm (d n : Reg) (k : Word)
  | subs (d n m : Reg)
  | subsImm (d n : Reg) (k : Word)
  | cmp (n m : Reg)
  | cmpImm (n : Reg) (k : Word)
  | teqImm (n : Reg) (k : Word)
  | clz (d m : Reg)
  | rbit (d m : Reg)
  | ldr (d n : Reg)
  | str (d n : Reg)
  -- stmia n!, ldmia n!, stmdb n!
  | stmia (n : Reg) (rs : List Reg)
  | ldmia (n : Reg) (rs : List Reg)
  | stmdb (n : Reg) (rs : List Reg)
  | ldrex (d n : Reg)
  | strex (d m n : Reg)
  | clrex
  | mrs (d : Reg) (s : Special)
  | msr (s : Special) (n : Reg)
  | cpsid
  | cpsie
  | dmb
  | isb
  -- an instruction in an IT block, executed only if Z has the value `z`
  | cond (z : Bool) (i : Instr)
  deriving Repr

def Special.read (c : Cpu) : Special → Word
  | .sp k => c.sps k
  | .primask => if c.primask then 1#32 else 0#32
  | .ipsr => c.psr &&& 0x1ff#32

/-- A stack pointer is always a multiple of four; the number of the exception is only read. -/
def Special.write (c : Cpu) (v : Word) : Special → Cpu
  | .sp k => { c with sps := update c.sps k (v &&& ~~~3#32) }
  | .primask => { c with primask := v.getLsbD 0 }
  | .ipsr => c

def exec : Instr → Cpu → Flow Fn Cpu
  | .push rs, c => .next (c.pushWords (rs.map c.r))
  | .pop rs, c =>
    .next ({ c with r := loadRegs c.r rs (loadWords c.mem c.sp rs.length) }.drop rs.length)
  | .pushLr, c => .next (c.pushWords [c.lr])
  | .popLr, c => .next ({ c with lr := c.mem c.sp }.drop 1)
  | .popPc, c => .leave ({ c with pc := c.mem c.sp }.drop 1)
  | .bx, c => .leave { c with pc := c.lr }
  | .bl f, c => .call f c
  | .b l, c => .jump l c
  | .beq l, c => if c.z then .jump l c else .next c
  | .bne l, c => if c.z then .next c else .jump l c
  | .movs d n, c => .next { c.set d n with psr := nz n c.psr }
  | .mov d m, c => .next (c.set d (c.r m))
  | .lsls d m, c =>
    let x := c.r d
    let k := (c.r m).toNat % 256
    let carry := if k = 0 then c.psr.getLsbD 29 else decide (k ≤ 32) && x.getLsbD (32 - k)
    .next { c.set d (x <<< k) with psr := setFlag (nz (x <<< k) c.psr) 29 carry }
  | .ands d m, c => .next { c.set d (c.r d &&& c.r m) with psr := nz (c.r d &&& c.r m) c.psr }
  | .add d n m, c => .next (c.set d (c.r n + c.r m))
  | .addsImm d n k, c => .next { c.set d (c.r n + k) with psr := addFlags (c.r n) k c.psr }
  | .subs d n m, c =>
    .next { c.set d (c.r n - c.r m) with psr := subFlags (c.r n) (c.r m) c.psr }
  | .subsImm d n k, c => .next { c.set d (c.r n - k) with psr := subFlags (c.r n) k c.psr }
  | .cmp n m, c => .next { c with psr := subFlags (c.r n) (c.r m) c.psr }
  | .cmpImm n k, c => .next { c with psr := subFlags (c.r n) k c.psr }
  | .teqImm n k, c => .next { c with psr := nz (c.r n ^^^ k) c.psr }
  | .clz d m, c => .next (c.set d (c.r m).clz)
  | .rbit d m, c => .next (c.set d (c.r m).reverse)
  | .ldr d n, c => if Aligned (c.r n) then .next (c.set d (c.mem (c.r n))) else .fault
  | .str d n, c =>
    if Aligned (c.r n) then .next { c with mem := update c.mem (c.r n) (c.r d) } else .fault
  | .stmia n rs, c =>
    if Aligned (c.r n) then
      .next { c.set n (c.r n + BitVec.ofNat 32 (4 * rs.length)) with
        mem := storeWords c.mem (c.r n) (rs.map c.r) }
    else .fault
  | .ldmia n rs, c =>
    if Aligned (c.r n) then
      .next { c with
        r := loadRegs (update c.r n (c.r n + BitVec.ofNat 32 (4 * rs.length))) rs
          (loadWords c.mem (c.r n) rs.length) }
    else .fault
  | .stmdb n rs, c =>
    let a := c.r n - BitVec.ofNat 32 (4 * rs.length)
    if Aligned a then .next { c.set n a with mem := storeWords c.mem a (rs.map c.r) } else .fault
  | .ldrex d n, c =>
    if Aligned (c.r n) then .next { c.set d (c.mem (c.r n)) with monitor := true } else .fault
  | .strex d m n, c =>
    if Aligned (c.r n) then
      if c.monitor then
        .next { c.set d 0#32 with mem := update c.mem (c.r n) (c.r m), monitor := false }
      else .next (c.set d 1#32)
    else .fault
  | .clrex, c => .next { c with monitor := false }
  | .mrs d s, c => .next (c.set d (s.read c))
  | .msr s n, c => .next (s.write c (c.r n))
  | .cpsid, c => .next { c with primask := true }
  | .cpsie, c => .next { c with primask := false }
  | .dmb, c => .next c
  | .isb, c => .next c
  | .cond z i, c => if c.z = z then exec i c else .next c

/-! ## 3. Lemmas -/

@[simp] theorem Cpu.set_self (c : Cpu) (d : Reg) (v : Word) : (c.set d v).r d = v := by
  simp [Cpu.set]

theorem Cpu.set_ne (c : Cpu) {d e : Reg} (v : Word) (h : e ≠ d) : (c.set d v).r e = c.r e := by
  simp [Cpu.set, h]

section Bedingung

variable {r : Reg → Word} {lr pc psr : Word} {sps : Stack → Word} {handler spsel primask : Bool}
  {monitor : Bool} {mem : Word → Word}

/-- Z after an instruction that sets N and Z by `v`. -/
@[simp] theorem Cpu.z_nz (v : Word) :
    (Cpu.mk r lr pc (nz v psr) sps handler spsel primask monitor mem).z = (v == 0#32) := by
  unfold Cpu.z nz setFlag
  cases hv : (v == 0#32) with
  | true =>
    simp only [if_true]
    rw [getLsbD_setBit (by decide), decide_eq_true rfl, Bool.or_true]
  | false =>
    simp only [Bool.false_eq_true, if_false]
    rw [getLsbD_clearBit (by decide), decide_eq_false (fun h => h rfl), Bool.and_false]

/-- A flag other than Z leaves Z as it is. -/
theorem Cpu.z_setFlag {i : Nat} (hi : i ≠ 30) (b : Bool) :
    (Cpu.mk r lr pc (setFlag psr i b) sps handler spsel primask monitor mem).z =
      (Cpu.mk r lr pc psr sps handler spsel primask monitor mem).z := by
  unfold Cpu.z setFlag
  cases b with
  | true =>
    simp only [if_true]
    rw [getLsbD_setBit (by decide), decide_eq_false hi, Bool.or_false]
  | false =>
    simp only [Bool.false_eq_true, if_false]
    rw [getLsbD_clearBit (by decide), decide_eq_true hi, Bool.and_true]

@[simp] theorem Cpu.z_addFlags (x y : Word) :
    (Cpu.mk r lr pc (addFlags x y psr) sps handler spsel primask monitor mem).z =
      (x + y == 0#32) := by
  rw [addFlags, Cpu.z_setFlag (by decide), Cpu.z_setFlag (by decide), Cpu.z_nz]

@[simp] theorem Cpu.z_subFlags (x y : Word) :
    (Cpu.mk r lr pc (subFlags x y psr) sps handler spsel primask monitor mem).z =
      (x - y == 0#32) := by
  rw [subFlags, Cpu.z_setFlag (by decide), Cpu.z_setFlag (by decide), Cpu.z_nz]

end Bedingung

theorem leads_bne {code : List Instr} {pc l : Nat} {c : Cpu} (h : code[pc]? = some (.bne l)) :
    Leads exec code (.before pc c) (.before (if c.z then pc + 1 else l) c) := by
  cases hz : c.z with
  | true => exact Leads.next h (by rw [exec, hz]; rfl)
  | false => exact Leads.jump h (by rw [exec, hz]; rfl)

/-- Registers loaded with the words `f` stored for them. -/
theorem loadRegs_map (ρ f : Reg → Word) (rs : List Reg) (d : Reg) :
    loadRegs ρ rs (rs.map f) d = if d ∈ rs then f d else ρ d := by
  induction rs generalizing ρ with
  | nil => rfl
  | cons e rs ih =>
    rw [List.map_cons, loadRegs, ih]
    by_cases hd : d ∈ rs
    · rw [if_pos hd, if_pos (List.mem_cons_of_mem e hd)]
    · by_cases he : d = e
      · subst he
        rw [if_neg hd, if_pos List.mem_cons_self, Function.update_self]
      · rw [if_neg hd, Function.update_of_ne he,
          if_neg (by rw [List.mem_cons]; exact not_or.mpr ⟨he, hd⟩)]

/-- **What was pushed is popped**: with the words of `rs` still on the stack, the registers `rs` and
    the stack pointer are those of `c` again. -/
theorem exec_pop {c s : Cpu} (rs : List Reg) (hact : s.active = c.active)
    (hsps : s.sps = update c.sps c.active (c.sp - BitVec.ofNat 32 (4 * rs.length)))
    (hmem : loadWords s.mem (c.sp - BitVec.ofNat 32 (4 * rs.length)) rs.length = rs.map c.r) :
    exec (.pop rs) s =
      .next { s with r := fun d => if d ∈ rs then c.r d else s.r d, sps := c.sps } := by
  have hsp : s.sp = c.sp - BitVec.ofNat 32 (4 * rs.length) := by
    rw [Cpu.sp, hsps, hact, Function.update_self]
  have hr : loadRegs s.r rs (rs.map c.r) = fun d => if d ∈ rs then c.r d else s.r d :=
    funext fun d => loadRegs_map s.r c.r rs d
  have hback : update s.sps s.active (s.sp + BitVec.ofNat 32 (4 * rs.length)) = c.sps := by
    rw [hsps, hact, hsp, BitVec.sub_add_cancel, Function.update_idem]
    exact Function.update_eq_self c.active c.sps
  rw [exec, hsp, hmem, hr]
  exact congrArg Flow.next (congrArg (fun f : Stack → Word =>
    { s with r := fun d => if d ∈ rs then c.r d else s.r d, sps := f }) hback)

/-- `c'` differs from `c` in the registers `ds` and the flags only. -/
structure Scratched (ds : List Reg) (c c' : Cpu) : Prop where
  rest : c' = { c with r := c'.r, psr := c'.psr }
  kept : ∀ d, d ∉ ds → c'.r d = c.r d

theorem Scratched.trans {ds : List Reg} {c c' c'' : Cpu} (h : Scratched ds c c')
    (h' : Scratched ds c' c'') : Scratched ds c c'' :=
  ⟨by rw [h'.rest, h.rest], fun d hd => (h'.kept d hd).trans (h.kept d hd)⟩

/-- The two Cortex-M ports of `hw_cpu.S`. -/
inductive Core where
  | v6m
  | v7m
  deriving DecidableEq, Repr

end FxRtos.Thumb
