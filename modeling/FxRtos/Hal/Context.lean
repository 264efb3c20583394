/-
  File:      FxRtos/Hal/Context.lean
  Subject:   THREADS ON THE CORTEX-M (hal_cpu_context.c, hal_intr_frame.c). The registers of a
             thread that does not run are in a frame on its stack, and the context is the address of
             it.

  * `Machine` -- one processor and the contexts of the threads. It runs the current thread, takes
    interrupts to any depth, and switches the context in the software interrupt.
  * `Virtual` -- what the threads see: each has registers of its own.
  * `Machine.Step.refines` -- a step of the machine is a step of the virtual one.
-/
import FxRtos.Hal.SwiEntry

namespace FxRtos.Thumb

open Function (update)
open Lib
open Relation (ReflTransGen)

/-! ## 1. The code in C -/

/-- `hal_cpu_context_t` -/
structure HalCpuContext where
  frame : Word

/-- ARMv6-M and ARMv7-M have Thumb instructions only. -/
def xpsrTBit : Word := 1#32 <<< 24

/-- The sixteen words of `hal_intr_frame_t`, below `base`. -/
def halIntrFrameAlloc (m : Word → Word) (base : Word) : Word × (Word → Word) :=
  let frame := base - 64#32
  (frame, storeWords m frame (List.replicate 15 0#32 ++ [xpsrTBit]))

inductive FrameReg where
  | kerFrameEntry
  | kerFrameArg0
  | usrFrameEntry
  | usrFrameArg0
  deriving DecidableEq, Repr

def halIntrFrameModify (m : Word → Word) (frame : Word) (reg : FrameReg) (val : Word) :
    Word → Word :=
  match reg with
  -- return_addr
  | .kerFrameEntry => update m (frame + 56#32) val
  | .usrFrameEntry => update m (frame + 56#32) val
  -- r0
  | .kerFrameArg0 => update m (frame + 32#32) val
  | .usrFrameArg0 => update m (frame + 32#32) val

def halContextKerCreate (m : Word → Word) (stack entry arg : Word) :
    HalCpuContext × (Word → Word) :=
  let (frame, m) := halIntrFrameAlloc m stack
  let m := halIntrFrameModify m frame .kerFrameEntry entry
  let m := halIntrFrameModify m frame .kerFrameArg0 arg
  (⟨frame⟩, m)

/-! ## 2. The registers of a thread -/

@[ext] structure Regs where
  r : Reg → Word
  lr : Word
  pc : Word
  psr : Word
  sp : Word

def Cpu.regs (c : Cpu) : Regs := ⟨c.r, c.lr, c.pc, c.psr, c.sps .process⟩

/-- The registers in the frame `f`. -/
def savedRegs (k : Core) (m : Word → Word) (f : Word) : Regs where
  r := loadRegs (loadRegs (fun _ => 0#32) (frameRegs k) (loadWords m f 8)) hwSaved
    (loadWords m (f + 32#32) 5)
  lr := m (f + 52#32)
  pc := m (f + 56#32)
  psr := setFlag (m (f + 60#32)) 9 false
  sp := (f + 64#32) ||| if (m (f + 60#32)).getLsbD 9 then 4#32 else 0#32

/-- A thread that has not run yet. -/
def startRegs (stack entry arg : Word) : Regs where
  r := update (fun _ => 0#32) .r0 arg
  lr := 0#32
  pc := entry
  psr := xpsrTBit
  sp := stack

/-- The words below the stack pointer, where a frame goes: sixteen, and one that may be skipped. -/
def Regs.window (t : Regs) (x : Word) : Prop := InBlock (t.sp - 68#32) 17 x

variable {k : Core} {c c' s s' t t' : Cpu} {R : Word → Word → Word → Prop} {top a f p x : Word}
  {m m' : Word → Word} {n : Nat}

/-- Bit 2 set, or there already. -/
theorem or_four (a : Word) : a ||| 4#32 = a ∨ a ||| 4#32 = a + 4#32 := by
  cases h : a.getLsbD 2 with
  | true => exact .inl (setBit_of_set h)
  | false => exact .inr (setBit_eq_add (i := 2) (by decide) h)

theorem savedRegs_sp (k : Core) (m : Word → Word) (f : Word) :
    f = (savedRegs k m f).sp - 64#32 ∨ f = (savedRegs k m f).sp - 68#32 := by
  unfold savedRegs
  cases (m (f + 60#32)).getLsbD 9 with
  | false =>
    left
    simp only [Bool.false_eq_true, if_false, BitVec.or_zero]
    exact (BitVec.add_sub_cancel ..).symm
  | true =>
    obtain e | e := or_four (f + 64#32)
    · left
      simp only [if_true, e]
      exact (BitVec.add_sub_cancel ..).symm
    · right
      simp only [if_true, e]
      bv_omega

/-- The frame is in the window. -/
theorem savedRegs_window (h : InBlock f 16 x) : (savedRegs k m f).window x := by
  unfold Regs.window
  unfold InBlock at *
  obtain e | e := savedRegs_sp k m f
  · bv_omega
  · bv_omega

theorem savedRegs_aligned (h : Aligned (savedRegs k m f).sp) : Aligned f := by
  obtain e | e := savedRegs_sp k m f
  · rw [e]
    exact h.sub 16
  · rw [e]
    exact h.sub 17

theorem savedRegs_congr (h : ∀ x, InBlock f 16 x → m x = m' x) :
    savedRegs k m f = savedRegs k m' f := by
  have hw : ∀ j < 16, m (f + BitVec.ofNat 32 (4 * j)) = m' (f + BitVec.ofNat 32 (4 * j)) :=
    fun j hj => h _ (by unfold InBlock; bv_omega)
  have h1 : loadWords m f 8 = loadWords m' f 8 := loadWords_ext fun j hj => hw j (by omega)
  have h2 : loadWords m (f + 32#32) 5 = loadWords m' (f + 32#32) 5 := loadWords_ext fun j hj => by
    have hj := hw (8 + j) (by omega)
    rwa [← addr_add] at hj
  have h13 := hw 13 (by decide)
  have h14 := hw 14 (by decide)
  have h15 := hw 15 (by decide)
  simp only [Nat.reduceMul] at h13 h14 h15
  simp only [savedRegs, h1, h2, h13, h14, h15]

theorem loadRegs_out {ρ : Reg → Word} {rs : List Reg} {ws : List Word} {d : Reg} (h : d ∉ rs) :
    loadRegs ρ rs ws d = ρ d := by
  induction rs generalizing ρ ws with
  | nil => rfl
  | cons e rs ih =>
    rw [List.mem_cons, not_or] at h
    cases ws with
    | nil => rfl
    | cons w ws => rw [loadRegs, ih h.2, Function.update_of_ne h.1]

/-- Registers that are all different hold what is loaded into them. -/
theorem map_loadRegs {ρ : Reg → Word} {rs : List Reg} {ws : List Word} (h : rs.Nodup)
    (hlen : ws.length = rs.length) : rs.map (loadRegs ρ rs ws) = ws := by
  induction rs generalizing ρ ws with
  | nil => exact (List.eq_nil_of_length_eq_zero hlen).symm
  | cons d rs ih =>
    obtain ⟨hd, h⟩ := List.nodup_cons.mp h
    cases ws with
    | nil => exact absurd hlen (by simp)
    | cons w ws =>
      have htail := ih (ρ := update ρ d w) h (Nat.succ.inj hlen)
      rw [List.map_cons, loadRegs, loadRegs_out hd, Function.update_self, htail]

/-- A thread that runs, with nothing on the main stack. -/
structure Cpu.InThread (top : Word) (c : Cpu) : Prop where
  handler : c.handler = false
  spsel : c.spsel = true
  main : c.sps .main = top
  psr : c.psr.getLsbD 9 = false
  sp : Aligned (c.sps .process)

theorem Cpu.InThread.active (h : c.InThread top) : c.active = .process := by
  simp [Cpu.active, h.handler, h.spsel]

theorem Cpu.InThread.sp_eq (h : c.InThread top) : c.sp = c.sps .process := by
  rw [Cpu.sp, h.active]

/-- Where the frame goes. -/
theorem Cpu.InThread.framed (h : c.InThread top) (hx : InBlock (c.frameAddr - 32#32) 16 x) :
    c.regs.window x := by
  have hsp := h.sp_eq
  unfold Regs.window Cpu.regs
  unfold InBlock at *
  obtain e | e := c.frameAddr_cases
  · rw [e, hsp] at hx
    bv_omega
  · rw [e, hsp] at hx
    bv_omega

theorem mem_frameRegs (k : Core) : ∀ d ∈ calleeSaved, d ∈ frameRegs k := by
  cases k with
  | _ => decide

/-- The frame of the processor comes after the eight words of the software. -/
theorem hwFrame_addr (p : Word) (j : Nat) :
    p + BitVec.ofNat 32 (32 + j) = p + 32#32 + BitVec.ofNat 32 j := by
  rw [BitVec.ofNat_add, BitVec.add_assoc]

/-- The registers of the processor loaded, and the others loaded before. -/
theorem loadRegs_frame {r ρ : Reg → Word} {us ws : List Word} (hr : ∀ d ∈ calleeSaved, ρ d = r d)
    (hus : us = (frameRegs k).map ρ) (hws : ws = hwSaved.map r) :
    loadRegs (loadRegs (fun _ => 0#32) (frameRegs k) us) hwSaved ws = r := by
  funext d
  rw [hws, loadRegs_map]
  by_cases hd : d ∈ hwSaved
  · rw [if_pos hd]
  · have hd := not_mem_hwSaved hd
    rw [if_neg ‹_›, hus, loadRegs_map, if_pos (mem_frameRegs k d hd), hr d hd]

/-- A frame of the processor alone. -/
theorem Cpu.InThread.of_framed (h : c.InThread top) (hx : c.framed x) : c.regs.window x := by
  have hsp := h.sp_eq
  unfold Cpu.framed at hx
  unfold Regs.window Cpu.regs
  unfold InBlock at *
  rw [hsp] at hx
  bv_omega

/-- **What is saved**: the frame that the processor and `hal_swi_entry` have put on the stack. -/
theorem Cpu.InThread.saved (h : c.InThread top) {ρ : Reg → Word}
    (hρ : ∀ d ∈ calleeSaved, ρ d = c.r d)
    (hsw : loadWords m (c.frameAddr - 32#32) 8 = (frameRegs k).map ρ)
    (hhw : loadWords m c.frameAddr 8 = c.hwFrame) :
    savedRegs k m (c.frameAddr - 32#32) = c.regs := by
  have hback : c.frameAddr - 32#32 + 32#32 = c.frameAddr := BitVec.sub_add_cancel ..
  obtain ⟨hregs, hrest⟩ := List.append_inj ((loadWords_append (n := 3) 5).symm.trans hhw)
    (by rw [loadWords_length]; rfl)
  have hrest : m (c.frameAddr + 20#32) = c.lr ∧ m (c.frameAddr + 24#32) = c.pc ∧
      m (c.frameAddr + 28#32) = setFlag c.psr 9 (c.sp.getLsbD 2) := by
    simpa [loadWords, BitVec.add_assoc] using hrest
  have hword : ∀ j : Nat, m (c.frameAddr - 32#32 + BitVec.ofNat 32 (32 + j)) =
      m (c.frameAddr + BitVec.ofNat 32 j) := fun j => by
    rw [hwFrame_addr, hback]
  have h28 : m (c.frameAddr - 32#32 + 60#32) = setFlag c.psr 9 (c.sp.getLsbD 2) :=
    (hword 28).trans hrest.2.2
  have hbit : (setFlag c.psr 9 (c.sp.getLsbD 2)).getLsbD 9 = c.sp.getLsbD 2 := by
    rw [getLsbD_setFlag (by decide), if_pos rfl]
  refine Regs.ext ?_ ((hword 20).trans hrest.1) ((hword 24).trans hrest.2.1) ?_ ?_
  · exact loadRegs_frame hρ hsw (by rw [hback]; exact hregs)
  · simp only [savedRegs, h28]
    exact setFlag_back c.psr _ h.psr
  · have hsp := c.frameAddr_back
    have h64 : c.frameAddr - 32#32 + 64#32 = c.frameAddr + 32#32 := by bv_omega
    simp only [savedRegs, h28, hbit, h64]
    rw [hsp, h.sp_eq]
    rfl

/-- **What is loaded**, by `hal_swi_entry` and by the processor. -/
theorem unstack_regs (hp : c.sps .process = p + 32#32) {ρ : Reg → Word}
    (hr : ∀ d ∈ calleeSaved, c.r d = ρ d)
    (hload : loadWords c.mem p 8 = (frameRegs k).map ρ) (handler spsel : Bool) :
    (c.unstack .process handler spsel).regs = savedRegs k c.mem p := by
  have hnodup : hwSaved.Nodup := by decide
  have hws : loadWords c.mem (p + 32#32) 5 =
      hwSaved.map (loadRegs c.r hwSaved (loadWords c.mem (p + 32#32) 5)) :=
    (map_loadRegs hnodup loadWords_length).symm
  have hword : ∀ j : Nat, p + 32#32 + BitVec.ofNat 32 j = p + BitVec.ofNat 32 (32 + j) :=
    fun j => (hwFrame_addr p j).symm
  have h28 : p + 32#32 + 28#32 = p + 60#32 := hword 28
  have h32 : p + 32#32 + 32#32 = p + 64#32 := hword 32
  have hsps : (c.unstack .process handler spsel).sps .process = (savedRegs k c.mem p).sp := by
    simp only [Cpu.unstack, hp, h28, h32, Function.update_self, savedRegs]
  refine Regs.ext ?_ ?_ ?_ ?_ hsps
  · refine Eq.trans ?_ (loadRegs_frame (fun d hd => ?_) hload hws).symm
    · simp only [Cpu.unstack, Cpu.regs, hp]
    · have hd' : d ∉ hwSaved := fun h => by
        revert d
        decide
      rw [loadRegs_out hd', hr d hd]
  · exact congrArg c.mem ((congrArg (· + 20#32) hp).trans (hword 20))
  · exact congrArg c.mem ((congrArg (· + 24#32) hp).trans (hword 24))
  · simp only [Cpu.unstack, Cpu.regs, hp, h28, savedRegs]

/-- The words of the frame of a thread that has not run yet. -/
def startFrame (entry arg : Word) : List Word :=
  List.replicate 8 0#32 ++ [arg, 0#32, 0#32, 0#32, 0#32, 0#32, entry, xpsrTBit]

theorem halContextKerCreate_mem (m : Word → Word) (stack entry arg : Word) :
    (halContextKerCreate m stack entry arg).2 =
      storeWords m (stack - 64#32) (startFrame entry arg) := by
  have h14 : update (storeWords m (stack - 64#32) (List.replicate 15 0#32 ++ [xpsrTBit]))
      (stack - 64#32 + BitVec.ofNat 32 (4 * 14)) entry =
        storeWords m (stack - 64#32) ((List.replicate 15 0#32 ++ [xpsrTBit]).set 14 entry) :=
    update_storeWords (by decide) (by decide)
  have h8 : update (storeWords m (stack - 64#32)
      ((List.replicate 15 0#32 ++ [xpsrTBit]).set 14 entry))
      (stack - 64#32 + BitVec.ofNat 32 (4 * 8)) arg =
        storeWords m (stack - 64#32) (startFrame entry arg) :=
    update_storeWords (by simp) (by simp)
  rw [← h14] at h8
  exact h8

/-- **A new thread** starts at its entry, with its argument in r0 and its stack empty. -/
theorem halContextKerCreate_regs (k : Core) (m : Word → Word) (stack entry arg : Word) :
    savedRegs k (halContextKerCreate m stack entry arg).2
      (halContextKerCreate m stack entry arg).1.frame = startRegs stack entry arg := by
  have hframe : (halContextKerCreate m stack entry arg).1.frame = stack - 64#32 := rfl
  have hload : loadWords (halContextKerCreate m stack entry arg).2 (stack - 64#32)
      (startFrame entry arg).length = startFrame entry arg := by
    rw [halContextKerCreate_mem]
    exact loadWords_storeWords (by simp [startFrame])
  rw [hframe]
  generalize (halContextKerCreate m stack entry arg).2 = m' at hload
  obtain ⟨hsw, hhw⟩ := List.append_inj ((loadWords_append (n := 8) 8).symm.trans hload)
    (by rw [loadWords_length, List.length_replicate])
  have hhw : loadWords m' (stack - 64#32 + 32#32) (5 + 3) =
      [arg, 0#32, 0#32, 0#32, 0#32] ++ [0#32, entry, xpsrTBit] := hhw
  obtain ⟨hregs, hrest⟩ := List.append_inj ((loadWords_append 5).symm.trans hhw)
    (by rw [loadWords_length]; rfl)
  have hrest : m' (stack - 64#32 + 52#32) = 0#32 ∧ m' (stack - 64#32 + 56#32) = entry ∧
      m' (stack - 64#32 + 60#32) = xpsrTBit := by
    simpa [loadWords, BitVec.add_assoc] using hrest
  have hbit : xpsrTBit.getLsbD 9 = false := by decide
  refine Regs.ext ?_ hrest.1 hrest.2.1 ?_ ?_
  · refine loadRegs_frame (ρ := fun _ => 0#32) (fun d hd => ?_) (hsw.trans ?_) hregs
    · have hne : d ≠ .r0 := fun e => absurd (e ▸ hd) (by decide)
      exact (Function.update_of_ne hne arg fun _ => 0#32).symm
    · cases k with
      | _ => rfl
  · simp only [savedRegs, hrest.2.2]
    rfl
  · simp only [savedRegs, hrest.2.2, hbit]
    exact BitVec.or_zero.trans (BitVec.sub_add_cancel ..)

/-! ## 3. The software interrupt of a thread -/

/-- The thread that the processor returns to. -/
def resumed : Point Fn Cpu → Option Cpu
  | .left s => s.excReturn
  | _ => none

theorem savedRegs_sp_aligned (h : Aligned p) : Aligned (savedRegs k m p).sp := by
  obtain e | e := savedRegs_sp k m p
  · have hsp : (savedRegs k m p).sp = p + 64#32 := by bv_omega
    rw [hsp]
    exact h.add 16
  · have hsp : (savedRegs k m p).sp = p + 68#32 := by bv_omega
    rw [hsp]
    exact h.add 17

theorem Cpu.InThread.taken (hc : c.InThread top) (htop : Aligned top) (h : Taken c s) :
    s.Handles ∧ s.sp = top ∧ s.sps .process = c.frameAddr ∧ s.lr = 0xFFFFFFFD#32 := by
  obtain ⟨hs, hsp⟩ := h.handles (hc.sp_eq ▸ hc.sp) (hc.main ▸ htop)
  have hact := hc.active
  rw [if_neg (by rw [hact]; decide), hc.main] at hsp
  refine ⟨hs, hsp, ?_, ?_⟩
  · rw [h.rest, hact]
    exact Function.update_self Stack.process c.frameAddr c.sps
  · rw [h.rest, Cpu.excReturnCode, hc.handler, hc.spsel]
    rfl

/-- At the call of the dispatch handler, the registers of the thread are in its frame, and nothing
    is written outside of its window. -/
theorem Cpu.InThread.stored (hc : c.InThread top) (htop : Aligned top) (hroom : Room R top top 1)
    (hwin : ∀ x, c.regs.window x → ∀ v w, R x v w → w = v) (ht : Taken c s)
    (hcalled : SwiCalled k R s s') :
    savedRegs k s'.mem (c.frameAddr - 32#32) = c.regs ∧
      ∀ x, ¬ c.regs.window x → Changes R c.mem s'.mem x := by
  obtain ⟨_, hsp, hpsp, _⟩ := hc.taken htop ht
  have hhw : ∀ x, InBlock c.frameAddr 8 x → c.regs.window x := fun x hx =>
    hc.framed (InBlock.within (k := 8) (by rwa [← BitVec.sub_add_cancel c.frameAddr 32#32] at hx)
      (by decide))
  -- the word for lr is open to everybody, those of the window are to nobody
  have hmain : ∀ x, InBlock (top - 4#32) 1 x → ¬ c.regs.window x := fun x hx hin => by
    have := hwin x hin 0#32 1#32 (hroom.free x hx _ _)
    exact absurd this (by decide)
  refine ⟨?_, fun x hx => ?_⟩
  · -- the frame of the processor is not among the words that the code writes
    have hs : ∀ x, InBlock c.frameAddr 8 x → s'.mem x = s.mem x := fun x hx => by
      refine Changes.fixed (hcalled.words x (fun hin => ?_) fun hin => ?_) (hwin x (hhw x hx))
      · rw [hpsp] at hin
        unfold InBlock at *
        bv_omega
      · rw [hsp] at hin
        exact hmain x hin (hhw x hx)
    have hframe : loadWords s'.mem c.frameAddr 8 = c.hwFrame := by
      have hlen : c.hwFrame.length = 8 := c.hwFrame_length
      rw [loadWords_congr (by decide) hs, ht.mem, ← hlen]
      exact loadWords_storeWords (by rw [hlen]; decide)
    have hregs := hcalled.regs
    rw [hpsp] at hregs
    exact hc.saved ht.saved hregs hframe
  · have hout : ¬ InBlock c.frameAddr c.hwFrame.length x := fun hin =>
      hx (hhw x (c.hwFrame_length ▸ hin))
    have hmem : s.mem x = c.mem x := by
      rw [ht.mem, storeWords_out (by rw [c.hwFrame_length]; decide) hout]
    rw [Changes, ← hmem]
    by_cases hm : InBlock (top - 4#32) 1 x
    · exact .single (hroom.free x hm _ _)
    · refine hcalled.words x (fun hin => ?_) (by rwa [hsp])
      rw [hpsp] at hin
      exact hx (hc.framed (hin.mono (by decide)))

/-- The return to the frame at `p`, after `hal_swi_entry` has loaded its half. -/
theorem Cpu.InThread.returned (hc : c.InThread top) (htop : Aligned top) (ht : Taken c s)
    (hp : Aligned p)
    (hrest : c' = { s with
      r := c'.r, lr := c'.lr, pc := s.lr, psr := c'.psr
      sps := update s.sps .process (p + 32#32), monitor := c'.monitor, mem := c'.mem })
    {ρ : Reg → Word} (hr : ∀ d ∈ calleeSaved, c'.r d = ρ d)
    (hload : loadWords c'.mem p 8 = (frameRegs k).map ρ) :
    ∃ t, resumed (.left c') = some t ∧ t.InThread top ∧ t.primask = c.primask ∧
      t.mem = c'.mem ∧ t.regs = savedRegs k t.mem p := by
  obtain ⟨_, _, _, hlr⟩ := hc.taken htop ht
  have hpc : c'.pc = 0xFFFFFFFD#32 := (congrArg Cpu.pc hrest).trans hlr
  have hpsp : c'.sps .process = p + 32#32 :=
    (congrFun (congrArg Cpu.sps hrest) .process).trans
      (Function.update_self Stack.process (p + 32#32) s.sps)
  have hregs := unstack_regs hpsp hr hload false true
  have hback : resumed (.left c') = some (c'.unstack .process false true) := by
    rw [resumed, Cpu.excReturn, hpc, if_neg (by decide), if_neg (by decide), if_pos rfl]
  refine ⟨_, hback, ⟨rfl, rfl, ?_, ?_, ?_⟩, ?_, rfl, hregs⟩
  · refine (congrFun (congrArg Cpu.sps hrest) .main).trans ?_
    have hmain := congrFun (congrArg Cpu.sps ht.rest) .main
    rw [hc.active] at hmain
    exact hmain.trans hc.main
  · exact (getLsbD_setFlag (by decide) _ _).trans (if_pos rfl)
  · have hsp := congrArg Regs.sp hregs
    exact (congrArg Aligned hsp).mpr (savedRegs_sp_aligned hp)
  · have hprimask : s.primask = c.primask := by rw [ht.rest]
    exact (congrArg Cpu.primask hrest).trans hprimask

/-- **A software interrupt**, if the dispatch handler leaves the stack pointer of the threads at
    `p`: the registers of the thread are in its frame, those in the frame `p` are loaded. -/
theorem Cpu.InThread.swi {env : Cpu → Cpu → Prop} {disp : Cpu → Cpu → Prop} {q : Point Fn Cpu}
    (henv : ∀ s s', s.Handles → env s s' → Disturbed R top s s')
    (hc : c.InThread top) (htop : Aligned top) (hroom : Room R top top 1)
    (hwin : ∀ x, c.regs.window x → ∀ v w, R x v w → w = v) (ht : Taken c s) (hp : Aligned p)
    (hheld : ∀ x, InBlock p 16 x → ∀ v w, R x v w → w = v)
    (hdisp : ∀ s1 s2, SwiCalled k R s s1 → disp s1 s2 → Dispatched R top p s1 s2)
    (h : Ends exec (halSwiEntry k) (SwiCall disp) env (.before 0 s) q) :
    ∃ s1 s2 c', SwiCalled k R s s1 ∧ disp s1 s2 ∧ resumed q = some c' ∧ c'.InThread top ∧
      c'.primask = c.primask ∧ c'.regs = savedRegs k c'.mem p ∧
      savedRegs k c'.mem (c.frameAddr - 32#32) = c.regs ∧
      ∀ x, ¬ c.regs.window x → Changes R c.mem c'.mem x := by
  obtain ⟨hs, hsp, hpsp, _⟩ := hc.taken htop ht
  have hcp : Aligned c.sp := hc.sp_eq ▸ hc.sp
  have ha : Apart R top (s.sps .process) s.sp := by
    rw [hsp, hpsp]
    exact ⟨hroom, fun x hx => hwin x (hc.framed (hx.mono (by decide)))⟩
  obtain ⟨s1, s2, hcalled, hd, hload⟩ :=
    halSwiEntry_spec henv hs (hpsp ▸ c.frameAddr_aligned hcp) ha h
  have hd' := hdisp s1 s2 hcalled hd
  have hheld8 : ∀ x, InBlock p 8 x → ∀ v w, R x v w → w = v := fun x hx =>
    hheld x (hx.mono (by decide))
  have hws : (frameRegs k).map (loadRegs (fun _ => 0#32) (frameRegs k) (loadWords s2.mem p 8)) =
      loadWords s2.mem p 8 := by
    cases k with
    | _ => exact map_loadRegs (by decide) loadWords_length
  obtain ⟨c1, rfl, hrest, hr, hwords⟩ := hload p _ hd' hp hheld8 hws.symm
  have hload1 : loadWords c1.mem p 8 =
      (frameRegs k).map (loadRegs (fun _ => 0#32) (frameRegs k) (loadWords s2.mem p 8)) := by
    rw [hws]
    exact loadWords_congr (by decide) fun x hx => Changes.fixed (hwords x) (hheld8 x hx)
  obtain ⟨hsaved, hmem⟩ := hc.stored htop hroom hwin ht hcalled
  obtain ⟨c', hback, hthread, hprimask, hmem', hregs⟩ :=
    hc.returned htop ht hp hrest hr hload1
  -- from the call of the handler on, only others write
  have hlater : ∀ x, Changes R s1.mem c'.mem x := fun x =>
    hmem' ▸ (hd'.others.words x).trans (hwords x)
  refine ⟨s1, s2, c', hcalled, hd, hback, hthread, hprimask, hregs, ?_,
    fun x hx => (hmem x hx).trans (hlater x)⟩
  rw [← hsaved]
  exact savedRegs_congr fun x hx => Changes.fixed (hlater x) (hwin x (hc.framed hx))

/-! ## 4. What the threads see -/

section Faeden

variable {T : Type*}

/-- Where the stacks are: the main one with its words, and one for each thread. -/
structure Layout (T : Type*) where
  top : Word
  words : Nat
  stack : T → Word → Prop
  aligned : Aligned top
  pos : 0 < words
  fits : 4 * words < 2 ^ 32
  apart : ∀ t x, stack t x → ¬ InBlock (top - BitVec.ofNat 32 (4 * words)) words x
  disjoint : ∀ t u x, stack t x → stack u x → t = u

def Layout.main (L : Layout T) (x : Word) : Prop :=
  InBlock (L.top - BitVec.ofNat 32 (4 * L.words)) L.words x

/-- What a thread works on: its registers, the interrupt mask, the memory. -/
structure View where
  regs : Regs
  masked : Bool
  mem : Word → Word

/-- Threads with registers of their own. One that is not created has none. -/
structure Virtual (T : Type*) where
  regs : T → Option Regs
  current : T
  masked : Bool
  mem : Word → Word

/-- The words below the stack pointers of the threads, where frames go. -/
def Virtual.Reserved (v : Virtual T) (x : Word) : Prop := ∃ t r, v.regs t = some r ∧ r.window x

/-- How the kernel and the interrupt handlers write: to the main stack in any way, to words that are
    not reserved in the ways of `R`. -/
def Virtual.Writes (L : Layout T) (R : Word → Word → Word → Prop) (v : Virtual T) (x u w : Word) :
    Prop := L.main x ∨ ¬ v.Reserved x ∧ R x u w

/-- The room on the main stack that a software interrupt needs. -/
theorem Layout.room (L : Layout T) (v : Virtual T) : Room (v.Writes L R) L.top L.top 1 := by
  have hpos := L.pos
  have hfits := L.fits
  refine ⟨by simp, fun x hx _ _ => .inl ?_⟩
  unfold Layout.main InBlock at *
  bv_omega

variable [DecidableEq T]

/-- A thread keeps to its stack, leaves room for a frame there, and keeps the frames of others. -/
structure Virtual.Permits (L : Layout T) (v : Virtual T) (w : View) : Prop where
  sp : Aligned w.regs.sp
  psr : w.regs.psr.getLsbD 9 = false
  window : ∀ x, w.regs.window x → L.stack v.current x
  others : ∀ t r, v.regs t = some r → t ≠ v.current → ∀ x, r.window x → w.mem x = v.mem x

/-- **What happens**, as the threads see it; `prog` are their programs. -/
inductive Virtual.Step (L : Layout T) (R : Word → Word → Word → Prop)
    (prog : T → View → View → Prop) : Virtual T → Virtual T → Prop where
  | run (v : Virtual T) (r : Regs) (w : View) (hr : v.regs v.current = some r)
      (hp : prog v.current ⟨r, v.masked, v.mem⟩ w) (ok : v.Permits L w) :
      Virtual.Step L R prog v
        { v with regs := update v.regs v.current (some w.regs), masked := w.masked, mem := w.mem }
  -- interrupts and the dispatch handler; `t` is the current thread afterwards
  | work (v : Virtual T) (r : Regs) (t : T) (mem : Word → Word)
      (hr : v.regs v.current = some r) (hu : v.masked = false) (ht : (v.regs t).isSome)
      (hm : ∀ x, ¬ r.window x → Changes (v.Writes L R) v.mem mem x) :
      Virtual.Step L R prog v { v with current := t, mem := mem }
  | create (v : Virtual T) (t : T) (stack entry arg : Word) (mem : Word → Word)
      (ht : v.regs t = none) (hw : ∀ x, (startRegs stack entry arg).window x → L.stack t x)
      (hm : ∀ x, ¬ (startRegs stack entry arg).window x → mem x = v.mem x) :
      Virtual.Step L R prog v
        { v with regs := update v.regs t (some (startRegs stack entry arg)), mem := mem }
  | delete (v : Virtual T) (t : T) (ht : t ≠ v.current) :
      Virtual.Step L R prog v { v with regs := update v.regs t none }

/-! ## 5. The machine -/

/-- One processor, and the contexts of the threads. -/
structure Machine (T : Type*) where
  cpu : Cpu
  context : T → HalCpuContext
  created : T → Bool
  current : T

def Machine.regs (k : Core) (m : Machine T) (t : T) : Option Regs :=
  if m.created t then
    some (if t = m.current then m.cpu.regs else savedRegs k m.cpu.mem (m.context t).frame)
  else none

/-- The machine as the threads see it. -/
def Machine.virtual (k : Core) (m : Machine T) : Virtual T :=
  ⟨m.regs k, m.current, m.cpu.primask, m.cpu.mem⟩

/-- How the kernel and the handlers write. -/
def Machine.Writes (k : Core) (L : Layout T) (R : Word → Word → Word → Prop) (m : Machine T) :
    Word → Word → Word → Prop := (m.virtual k).Writes L R

/-- The processor after a step of the thread that it runs. -/
def Cpu.resume (c : Cpu) (w : View) (monitor : Bool) : Cpu :=
  { c with
    r := w.regs.r, lr := w.regs.lr, pc := w.regs.pc, psr := w.regs.psr
    sps := update c.sps .process w.regs.sp, primask := w.masked, monitor := monitor, mem := w.mem }

/-- **A step of the machine**; `none` is a fault. Interrupts are nested at most `n` deep. -/
inductive Machine.Step (k : Core) (L : Layout T) (R : Word → Word → Word → Prop)
    (prog : T → View → View → Prop) (n : Nat) : Machine T → Option (Machine T) → Prop where
  | run (m : Machine T) (w : View) (monitor : Bool)
      (hp : prog m.current ⟨m.cpu.regs, m.cpu.primask, m.cpu.mem⟩ w)
      (ok : (m.virtual k).Permits L w) :
      Machine.Step k L R prog n m (some { m with cpu := m.cpu.resume w monitor })
  | interrupt (m : Machine T) (c : Cpu) (h : Interrupt k (m.Writes k L R) L.top n m.cpu c) :
      Machine.Step k L R prog n m (some { m with cpu := c })
  -- PendSV, where the dispatch handler leaves the current thread
  | stay (m : Machine T) (s : Cpu) (q : Point Fn Cpu) (ht : Taken m.cpu s)
      (he : Ends exec (halSwiEntry k) (SwiCall (Stays (m.Writes k L R) L.top))
        (Interrupt k (m.Writes k L R) L.top n) (.before 0 s) q) :
      Machine.Step k L R prog n m ((resumed q).map fun c => { m with cpu := c })
  -- PendSV, with hal_context_switch
  | switch (m : Machine T) (t : T) (s : Cpu) (old : Word) (q : Point Fn Cpu)
      (hc : m.created t = true) (hne : t ≠ m.current) (ht : Taken m.cpu s)
      (he : Ends exec (halSwiEntry k)
        (SwiCall (Switches (Interrupt k (m.Writes k L R) L.top n) (m.Writes k L R) L.top
          (m.context t).frame old))
        (Interrupt k (m.Writes k L R) L.top n) (.before 0 s) q) :
      Machine.Step k L R prog n m ((resumed q).map fun c =>
        { m with cpu := c, context := update m.context m.current ⟨old⟩, current := t })
  | create (m : Machine T) (t : T) (stack entry arg : Word) (hc : m.created t = false)
      (hs : Aligned stack) (hw : ∀ x, (startRegs stack entry arg).window x → L.stack t x) :
      Machine.Step k L R prog n m (some { m with
        cpu := { m.cpu with mem := (halContextKerCreate m.cpu.mem stack entry arg).2 }
        context := update m.context t (halContextKerCreate m.cpu.mem stack entry arg).1
        created := update m.created t true })
  -- the context of a thread that has ended
  | delete (m : Machine T) (t : T) (ht : t ≠ m.current) :
      Machine.Step k L R prog n m (some { m with created := update m.created t false })

/-- The processor runs the current thread, and the threads are on their stacks. -/
structure Machine.Wf (k : Core) (L : Layout T) (m : Machine T) : Prop where
  thread : m.cpu.InThread L.top
  current : m.created m.current = true
  placed : ∀ t r, m.regs k t = some r → Aligned r.sp ∧ ∀ x, r.window x → L.stack t x

/-- A run; a fault ends it. -/
def Machine.Moves (k : Core) (L : Layout T) (R : Word → Word → Word → Prop)
    (prog : T → View → View → Prop) (n : Nat) (o o' : Option (Machine T)) : Prop :=
  ∃ m, o = some m ∧ Machine.Step k L R prog n m o'

variable {L : Layout T} {prog : T → View → View → Prop} {M M' : Machine T} {i j : T} {r : Regs}
  {o : Option (Machine T)}

theorem Machine.regs_current (h : M.created M.current = true) :
    M.regs k M.current = some M.cpu.regs := by
  rw [Machine.regs, if_pos h, if_pos rfl]

theorem Machine.regs_saved (h : M.created i = true) (hne : i ≠ M.current) :
    M.regs k i = some (savedRegs k M.cpu.mem (M.context i).frame) := by
  rw [Machine.regs, if_pos h, if_neg hne]

theorem Machine.regs_none (h : M.created i = false) : M.regs k i = none := by
  rw [Machine.regs, if_neg (by rw [h]; decide)]

/-- Nobody writes to the words below the stack pointer of a thread. -/
theorem Machine.Wf.held (hm : M.Wf k L) (hr : M.regs k i = some r) (hx : r.window x) (v w : Word)
    (h : M.Writes k L R x v w) : w = v := by
  obtain hmain | ⟨hfree, _⟩ := h
  · exact (L.apart i x ((hm.placed i r hr).2 x hx) hmain).elim
  · exact (hfree ⟨i, r, hr, hx⟩).elim

/-- What the kernel leaves of the frames. -/
theorem Machine.Wf.kept (hm : M.Wf k L)
    (hmem : ∀ x, ¬ M.cpu.regs.window x → Changes (M.Writes k L R) M.cpu.mem m x)
    (hc : M.created i = true) (hne : i ≠ M.current) :
    savedRegs k m (M.context i).frame = savedRegs k M.cpu.mem (M.context i).frame := by
  have hr := M.regs_saved (k := k) hc hne
  have hcur := M.regs_current (k := k) hm.current
  refine savedRegs_congr fun x hx => ?_
  have hx := savedRegs_window (k := k) (m := M.cpu.mem) hx
  -- a word of both windows would be in two stacks
  refine Changes.fixed (hmem x fun hwin => hne ?_) (hm.held hr hx)
  exact L.disjoint i M.current x ((hm.placed i _ hr).2 x hx) ((hm.placed _ _ hcur).2 x hwin)

/-- **The kernel has worked**: the threads keep their registers, whoever is current. -/
theorem Machine.Wf.worked (hm : M.Wf k L) (hu : M.cpu.primask = false)
    (hthread : M'.cpu.InThread L.top) (hmask : M'.cpu.primask = M.cpu.primask)
    (hcreated : M'.created M'.current = true) (hregs : M'.regs k = M.regs k)
    (hmem : ∀ x, ¬ M.cpu.regs.window x → Changes (M.Writes k L R) M.cpu.mem M'.cpu.mem x) :
    M'.Wf k L ∧ Virtual.Step L R prog (M.virtual k) (M'.virtual k) := by
  have hplaced := hm.placed
  rw [← hregs] at hplaced
  refine ⟨⟨hthread, hcreated, hplaced⟩, ?_⟩
  have hcur : M'.regs k M'.current = some M'.cpu.regs := M'.regs_current hcreated
  have hvirtual : M'.virtual k =
      { M.virtual k with current := M'.current, mem := M'.cpu.mem } := by
    rw [Machine.virtual, hregs, hmask]
    rfl
  rw [hvirtual]
  refine .work _ _ _ _ (M.regs_current hm.current) hu ?_ hmem
  have hsome : (M.regs k M'.current).isSome := by
    rw [← hregs, hcur]
    rfl
  exact hsome

/-- The registers of a thread that stay as they are. -/
theorem Machine.regs_congr (hcreated : M'.created i = M.created i) (hcur : M'.current = M.current)
    (hregs : i = M.current → M'.cpu.regs = M.cpu.regs)
    (hcontext : i ≠ M.current → M.created i = true →
      savedRegs k M'.cpu.mem (M'.context i).frame = savedRegs k M.cpu.mem (M.context i).frame) :
    M'.regs k i = M.regs k i := by
  cases hi : M.created i with
  | false => rw [M.regs_none hi, M'.regs_none (hcreated.trans hi)]
  | true =>
    have hi' := hcreated.trans hi
    by_cases hne : i = M.current
    · rw [hne, M.regs_current (hne ▸ hi), ← hregs hne, ← hcur]
      exact M'.regs_current (by rw [hcur, ← hne, hi'])
    · rw [M.regs_saved hi hne, M'.regs_saved hi' (hcur ▸ hne), hcontext hne hi]

/-- A thread that is current and stays so, in a memory that the kernel has left. -/
theorem Machine.Wf.same (hm : M.Wf k L) (hcreated : M'.created = M.created)
    (hcur : M'.current = M.current) (hcontext : M'.context = M.context)
    (hregs : M'.cpu.regs = M.cpu.regs)
    (hmem : ∀ x, ¬ M.cpu.regs.window x → Changes (M.Writes k L R) M.cpu.mem M'.cpu.mem x) :
    M'.regs k = M.regs k := by
  funext i
  refine Machine.regs_congr (congrFun hcreated i) hcur (fun _ => hregs) fun hne hc => ?_
  rw [hcontext, hm.kept hmem hc hne]

theorem Machine.Wf.interruptible (hm : M.Wf k L) (hu : M.cpu.primask = false)
    (hroom : Room (M.Writes k L R) L.top (M.cpu.sps .main) 18) :
    M.cpu.Interruptible (M.Writes k L R) L.top := by
  have ht := hm.thread
  have hsp := ht.sp_eq
  refine ⟨hu, ht.psr, hsp ▸ ht.sp, ht.main ▸ L.aligned, hroom,
    .inl ⟨ht.handler, ht.spsel, fun x hx => ?_⟩⟩
  exact hm.held (M.regs_current hm.current) (ht.of_framed hx)

theorem Machine.Wf.interrupt {c : Cpu} (hm : M.Wf k L)
    (h : Interrupt k (M.Writes k L R) L.top n M.cpu c) :
    ({ M with cpu := c } : Machine T).Wf k L ∧
      Virtual.Step L R prog (M.virtual k) (({ M with cpu := c } : Machine T).virtual k) := by
  obtain ⟨hu, hroom⟩ : M.cpu.primask = false ∧
      Room (M.Writes k L R) L.top (M.cpu.sps .main) 18 := by
    cases n with
    | zero => exact h.elim
    | succ n =>
      obtain ⟨hroom, s, _, ht, _⟩ := h
      exact ⟨ht.unmasked, hroom⟩
  obtain ⟨hc, hwords, _⟩ := h.back (hm.interruptible hu hroom)
  have hregs : c.regs = M.cpu.regs := by rw [hc]; rfl
  have hmask : c.primask = M.cpu.primask := by rw [hc]
  have hmem : ∀ x, ¬ M.cpu.regs.window x → Changes (M.Writes k L R) M.cpu.mem c.mem x :=
    fun x hx => hwords x fun hin => hx (hm.thread.of_framed hin)
  have ht := hm.thread
  have hthread : c.InThread L.top := by
    rw [hc]
    exact ⟨ht.handler, ht.spsel, ht.main, ht.psr, ht.sp⟩
  exact hm.worked hu hthread hmask hm.current (hm.same rfl rfl rfl hregs hmem) hmem

/-- Interrupts in the handler. -/
theorem interrupt_env (k : Core) (R : Word → Word → Word → Prop) (top : Word) (n : Nat) :
    ∀ s s', s.Handles → Interrupt k R top n s s' → Disturbed R top s s' :=
  fun _ _ hs h => h.disturbed hs

theorem Machine.Wf.stay {q : Point Fn Cpu} (hm : M.Wf k L) (ht : Taken M.cpu s)
    (he : Ends exec (halSwiEntry k) (SwiCall (Stays (M.Writes k L R) L.top))
      (Interrupt k (M.Writes k L R) L.top n) (.before 0 s) q) :
    ∃ c, resumed q = some c ∧ ({ M with cpu := c } : Machine T).Wf k L ∧
      Virtual.Step L R prog (M.virtual k) (({ M with cpu := c } : Machine T).virtual k) := by
  have hcur := M.regs_current (k := k) hm.current
  have hthread := hm.thread
  have hwin : ∀ x, M.cpu.regs.window x → ∀ v w, M.Writes k L R x v w → w = v :=
    fun x hx => hm.held hcur hx
  have hp : Aligned (M.cpu.frameAddr - 32#32) :=
    (M.cpu.frameAddr_aligned (hthread.sp_eq ▸ hthread.sp)).sub 8
  obtain ⟨_, hpsp, _⟩ := (hthread.taken L.aligned ht).2
  have henv := interrupt_env k (M.Writes k L R) L.top n
  obtain ⟨s1, s2, c, _, _, hback, hin, hmask, hregs, hsaved, hmem⟩ :=
    hthread.swi henv L.aligned (L.room (M.virtual k)) hwin ht hp
      (fun x hx => hwin x (hthread.framed hx)) (fun s1 s2 hs1 hd => by
        have hd := Ran.dispatched hs1.handles hd
        have hpsp1 : s1.sps .process = M.cpu.frameAddr - 32#32 := by
          rw [hs1.sps, hpsp]
          rfl
        rwa [hpsp1] at hd) he
  rw [hsaved] at hregs
  exact ⟨c, hback, hm.worked ht.unmasked hin hmask hm.current (hm.same rfl rfl rfl hregs hmem) hmem⟩

/-- The contexts exchanged: the registers are where the current thread has them now. -/
theorem Machine.Wf.exchanged (hm : M.Wf k L) (hc : M.created i = true) (hne : i ≠ M.current)
    (hcreated : M'.created = M.created) (hcur : M'.current = i)
    (hcontext : M'.context = update M.context M.current ⟨M.cpu.frameAddr - 32#32⟩)
    (hregs : M'.cpu.regs = savedRegs k M'.cpu.mem (M.context i).frame)
    (hsaved : savedRegs k M'.cpu.mem (M.cpu.frameAddr - 32#32) = M.cpu.regs)
    (hmem : ∀ x, ¬ M.cpu.regs.window x → Changes (M.Writes k L R) M.cpu.mem M'.cpu.mem x) :
    M'.regs k = M.regs k := by
  funext j
  cases hj : M.created j with
  | false => rw [M.regs_none hj, M'.regs_none (hcreated ▸ hj)]
  | true =>
    have hj' : M'.created j = true := hcreated ▸ hj
    by_cases hji : j = i
    · rw [hji, M.regs_saved hc hne, ← hm.kept hmem hc hne, ← hregs, ← hcur]
      exact M'.regs_current (by rw [hcur, ← hji, hj'])
    · rw [M'.regs_saved hj' (hcur ▸ hji), hcontext]
      by_cases hjc : j = M.current
      · rw [hjc, Function.update_self, hsaved, M.regs_current hm.current]
      · rw [Function.update_of_ne hjc, M.regs_saved hj hjc, hm.kept hmem hj hjc]

variable (prog) in
theorem Machine.Wf.switch {old : Word} {q : Point Fn Cpu} (hm : M.Wf k L)
    (hc : M.created i = true) (hne : i ≠ M.current) (ht : Taken M.cpu s)
    (he : Ends exec (halSwiEntry k)
      (SwiCall (Switches (Interrupt k (M.Writes k L R) L.top n) (M.Writes k L R) L.top
        (M.context i).frame old))
      (Interrupt k (M.Writes k L R) L.top n) (.before 0 s) q) :
    ∃ c, resumed q = some c ∧
      ({ M with
        cpu := c, context := update M.context M.current ⟨old⟩, current := i } : Machine T).Wf k L ∧
      Virtual.Step L R prog (M.virtual k) (({ M with
        cpu := c, context := update M.context M.current ⟨old⟩
        current := i } : Machine T).virtual k) := by
  have hcur := M.regs_current (k := k) hm.current
  have hnext := M.regs_saved (k := k) hc hne
  have hthread := hm.thread
  have hwin : ∀ x, M.cpu.regs.window x → ∀ v w, M.Writes k L R x v w → w = v :=
    fun x hx => hm.held hcur hx
  have hp : Aligned (M.context i).frame := savedRegs_aligned (hm.placed i _ hnext).1
  have henv := interrupt_env k (M.Writes k L R) L.top n
  obtain ⟨_, hpsp, _⟩ := (hthread.taken L.aligned ht).2
  obtain ⟨s1, s2, c, hs1, hd, hback, hin, hmask, hregs, hsaved, hmem⟩ :=
    hthread.swi henv L.aligned (L.room (M.virtual k)) hwin ht hp
      (fun x hx => hm.held hnext (savedRegs_window hx))
      (fun s1 s2 hs1 hd => (hd.dispatched henv hs1.handles hp).2) he
  have hold : old = M.cpu.frameAddr - 32#32 := by
    rw [(Switches.dispatched henv hs1.handles hp hd).1, hs1.sps, hpsp]
    rfl
  subst hold
  exact ⟨c, hback, hm.worked ht.unmasked hin hmask hc
    (hm.exchanged hc hne rfl rfl rfl hregs hsaved hmem) hmem⟩

/-- The frame of a thread in a memory that differs only elsewhere. -/
theorem Machine.saved_congr (hc : M.created i = true) (hne : i ≠ M.current)
    (h : ∀ r, M.regs k i = some r → ∀ x, r.window x → m x = M.cpu.mem x) :
    savedRegs k m (M.context i).frame = savedRegs k M.cpu.mem (M.context i).frame :=
  savedRegs_congr fun x hx => h _ (M.regs_saved hc hne) x (savedRegs_window hx)

theorem Machine.Wf.run {w : View} {monitor : Bool} (hm : M.Wf k L)
    (hp : prog M.current ⟨M.cpu.regs, M.cpu.primask, M.cpu.mem⟩ w)
    (ok : (M.virtual k).Permits L w) :
    ({ M with cpu := M.cpu.resume w monitor } : Machine T).Wf k L ∧
      Virtual.Step L R prog (M.virtual k)
        (({ M with cpu := M.cpu.resume w monitor } : Machine T).virtual k) := by
  have hcur := M.regs_current (k := k) hm.current
  have ht := hm.thread
  have hpsp : (M.cpu.resume w monitor).sps .process = w.regs.sp := by simp [Cpu.resume]
  have hregs : (M.cpu.resume w monitor).regs = w.regs := Regs.ext rfl rfl rfl rfl hpsp
  have hmine : ({ M with cpu := M.cpu.resume w monitor } : Machine T).regs k =
      update (M.regs k) M.current (some w.regs) := by
    funext i
    by_cases hi : i = M.current
    · rw [hi, Function.update_self, ← hregs]
      exact Machine.regs_current (M := { M with cpu := M.cpu.resume w monitor }) hm.current
    · rw [Function.update_of_ne hi]
      exact Machine.regs_congr rfl rfl (fun h => (hi h).elim) fun _ hc =>
        M.saved_congr hc hi fun r hr x hx => ok.others i r hr hi x hx
  have hvirtual : ({ M with cpu := M.cpu.resume w monitor } : Machine T).virtual k =
      { M.virtual k with
        regs := update (M.virtual k).regs (M.virtual k).current (some w.regs)
        masked := w.masked, mem := w.mem } := by
    rw [Machine.virtual, hmine]
    rfl
  refine ⟨⟨⟨ht.handler, ht.spsel, ht.main, ok.psr, hpsp ▸ ok.sp⟩, hm.current, fun i r hr => ?_⟩, ?_⟩
  · rw [hmine] at hr
    by_cases hi : i = M.current
    · rw [hi, Function.update_self] at hr
      cases hr
      exact ⟨ok.sp, fun x hx => hi ▸ ok.window x hx⟩
    · rw [Function.update_of_ne hi] at hr
      exact hm.placed i r hr
  · rw [hvirtual]
    exact .run _ _ _ hcur hp ok

theorem halContextKerCreate_out {stack entry arg : Word}
    (hx : ¬ (startRegs stack entry arg).window x) :
    (halContextKerCreate m stack entry arg).2 x = m x := by
  have hlen : (startFrame entry arg).length = 16 := by simp [startFrame]
  rw [halContextKerCreate_mem, storeWords_out (by rw [hlen]; decide)]
  rw [hlen]
  unfold Regs.window startRegs at hx
  unfold InBlock at *
  bv_omega

theorem Machine.Wf.ne_of_free (hm : M.Wf k L) (hc : M.created i = false) : i ≠ M.current := by
  rintro rfl
  rw [hm.current] at hc
  exact absurd hc (by decide)

/-- A thread that is created gets its first registers, the others keep theirs. -/
theorem Machine.Wf.regs_create {stack entry arg : Word} (hm : M.Wf k L) (hc : M.created i = false)
    (hw : ∀ x, (startRegs stack entry arg).window x → L.stack i x)
    (hM : M' = { M with
      cpu := { M.cpu with mem := (halContextKerCreate M.cpu.mem stack entry arg).2 }
      context := update M.context i (halContextKerCreate M.cpu.mem stack entry arg).1
      created := update M.created i true }) :
    M'.regs k = update (M.regs k) i (some (startRegs stack entry arg)) := by
  funext j
  by_cases hj : j = i
  · have hcreated : M'.created i = true := by rw [hM]; exact Function.update_self ..
    have hcur : i ≠ M'.current := by rw [hM]; exact hm.ne_of_free hc
    rw [hj, Function.update_self, M'.regs_saved hcreated hcur, hM]
    simp only [Function.update_self]
    rw [halContextKerCreate_regs]
  · rw [Function.update_of_ne hj]
    refine Machine.regs_congr ?_ (by rw [hM]) (fun _ => by rw [hM]; rfl) fun hjc hcj => ?_
    · rw [hM]
      exact Function.update_of_ne hj ..
    · have hcontext : M'.context j = M.context j := by
        rw [hM]
        exact Function.update_of_ne hj ..
      rw [hcontext]
      refine M.saved_congr hcj hjc fun r hr x hx => ?_
      rw [hM]
      refine halContextKerCreate_out fun hwin => hj ?_
      exact L.disjoint j i x ((hm.placed j r hr).2 x hx) (hw x hwin)

theorem Machine.Wf.create {stack entry arg : Word} (hm : M.Wf k L) (hc : M.created i = false)
    (hs : Aligned stack) (hw : ∀ x, (startRegs stack entry arg).window x → L.stack i x)
    (hM : M' = { M with
      cpu := { M.cpu with mem := (halContextKerCreate M.cpu.mem stack entry arg).2 }
      context := update M.context i (halContextKerCreate M.cpu.mem stack entry arg).1
      created := update M.created i true }) :
    M'.Wf k L ∧ Virtual.Step L R prog (M.virtual k) (M'.virtual k) := by
  have hne := hm.ne_of_free hc
  have hmine : M'.regs k = update (M.regs k) i (some (startRegs stack entry arg)) :=
    hm.regs_create hc hw hM
  have hout : ∀ x, ¬ (startRegs stack entry arg).window x → M'.cpu.mem x = M.cpu.mem x :=
    fun x hx => by
      rw [hM]
      exact halContextKerCreate_out hx
  have hvirtual : M'.virtual k = { M.virtual k with
      regs := update (M.virtual k).regs i (some (startRegs stack entry arg))
      mem := M'.cpu.mem } := by
    rw [Machine.virtual, hmine, hM]
    rfl
  have ht := hm.thread
  refine ⟨⟨?_, ?_, fun j r hr => ?_⟩, ?_⟩
  · rw [hM]
    exact ⟨ht.handler, ht.spsel, ht.main, ht.psr, ht.sp⟩
  · rw [hM]
    exact (Function.update_of_ne hne.symm ..).trans hm.current
  · rw [hmine] at hr
    by_cases hj : j = i
    · rw [hj, Function.update_self] at hr
      cases hr
      exact ⟨hs, hj ▸ hw⟩
    · rw [Function.update_of_ne hj] at hr
      exact hm.placed j r hr
  · rw [hvirtual]
    exact .create _ _ _ _ _ _ (M.regs_none hc) hw hout

theorem Machine.Wf.delete (hm : M.Wf k L) (hne : i ≠ M.current) :
    ({ M with created := update M.created i false } : Machine T).Wf k L ∧
      Virtual.Step L R prog (M.virtual k)
        (({ M with created := update M.created i false } : Machine T).virtual k) := by
  have hmine : ({ M with created := update M.created i false } : Machine T).regs k =
      update (M.regs k) i none := by
    funext j
    by_cases hj : j = i
    · rw [hj, Function.update_self]
      exact Machine.regs_none (Function.update_self ..)
    · rw [Function.update_of_ne hj]
      exact Machine.regs_congr (Function.update_of_ne hj ..) rfl (fun _ => rfl) fun _ _ => rfl
  refine ⟨⟨hm.thread, (Function.update_of_ne hne.symm ..).trans hm.current, fun j r hr => ?_⟩, ?_⟩
  · rw [hmine] at hr
    by_cases hj : j = i
    · rw [hj, Function.update_self] at hr
      cases hr
    · rw [Function.update_of_ne hj] at hr
      exact hm.placed j r hr
  · have hvirtual : ({ M with created := update M.created i false } : Machine T).virtual k =
        { M.virtual k with regs := update (M.virtual k).regs i none } := by
      rw [Machine.virtual, hmine]
      rfl
    rw [hvirtual]
    exact .delete _ _ hne

/-- **A step of the machine is one that the threads see**, and no step is a fault. -/
theorem Machine.Step.refines (hm : M.Wf k L) (h : Machine.Step k L R prog n M o) :
    ∃ M', o = some M' ∧ M'.Wf k L ∧ Virtual.Step L R prog (M.virtual k) (M'.virtual k) := by
  cases h with
  | run w monitor hp ok => exact ⟨_, rfl, hm.run hp ok⟩
  | interrupt c h => exact ⟨_, rfl, hm.interrupt h⟩
  | stay s q ht he =>
    obtain ⟨c, hq, hstay⟩ := hm.stay ht he
    exact ⟨_, by rw [hq]; rfl, hstay⟩
  | switch i s old q hc hne ht he =>
    obtain ⟨c, hq, hswitch⟩ := hm.switch prog hc hne ht he
    exact ⟨_, by rw [hq]; rfl, hswitch⟩
  | create i stack entry arg hc hs hw => exact ⟨_, rfl, hm.create hc hs hw rfl⟩
  | delete i hne => exact ⟨_, rfl, hm.delete hne⟩

/-! ## 6. Switches take place -/

/-- A handler with nothing to do but the switch. -/
theorem exists_switches {env : Cpu → Cpu → Prop}
    (henv : ∀ s s', s.Handles → env s s' → Disturbed R top s s') (hs : s.Handles)
    (hf : Aligned f) : ∃ s', Switches env R top f (s.sps .process) s s' := by
  have hcall := hs.set .r0 f
  have hr0 : (s.set .r0 f).r .r0 = f := s.set_self .r0 f
  have hstraight : ∀ i ∈ hwCpuSetPsp.drop 0, ∀ s, (exec i s).Straight := fun i hi s =>
    exec_straight ((by decide : ∀ i ∈ hwCpuSetPsp, i.straight = true) i hi) s
  obtain ⟨q, hq, ho⟩ := leads_over hstraight (s.set .r0 f)
  have hend : Ends exec hwCpuSetPsp NoCall env (.before 0 (s.set .r0 f)) q := ⟨hq.run, ho⟩
  obtain ⟨s2, rfl, hr, hothers, hrest⟩ := hwCpuSetPsp_spec henv hcall (by rwa [hr0]) hend
  have hmain : update s.sps .main s.sp = s.sps := by
    rw [Cpu.sp, hs.active, Function.update_eq_self]
  have hback : update s2.sps .main s.sp = s2.sps := by
    have hsp : s.sp = s2.sps .main := by
      rw [hrest, Cpu.sp, hs.active]
      rfl
    rw [hsp, Function.update_eq_self]
  have hzero : s.sp - BitVec.ofNat 32 (4 * 0) = s.sp := BitVec.sub_zero _
  have hpsr : s2.psr.getLsbD 9 = false := by
    rw [hrest]
    exact hs.psr
  -- no words of its own on the stack, and the mask as it is
  refine ⟨{ s2 with primask := s.primask }, 0, s, s2, s.lr, s.primask, ⟨?_, fun x hx => ?_⟩,
    ⟨?_, hs.psr, .refl R top s.sp s.mem⟩, hend, hr, ⟨?_, hpsr, .refl R top s.sp s2.mem⟩⟩
  · exact (top - s.sp).isLt
  · exact (Nat.not_lt_zero _ hx).elim
  · rw [hzero, hmain]
  · rw [hback]

/-- **The current thread can be left for any other.** -/
theorem Machine.Wf.switches (hm : M.Wf k L) (hu : M.cpu.primask = false)
    (hc : M.created i = true) (hne : i ≠ M.current) :
    ∃ M', Machine.Step k L R prog n M (some M') ∧ M'.current = i := by
  have hcur := M.regs_current (k := k) hm.current
  have hnext := M.regs_saved (k := k) hc hne
  have hthread := hm.thread
  have ht := taken_enter hu
  obtain ⟨hs, hsp, hpsp, _⟩ := hthread.taken L.aligned ht
  have hf : Aligned (M.context i).frame := savedRegs_aligned (hm.placed i _ hnext).1
  have ha : Apart (M.Writes k L R) L.top (M.cpu.enter.sps .process) M.cpu.enter.sp := by
    rw [hsp, hpsp]
    exact ⟨L.room (M.virtual k), fun x hx =>
      hm.held hcur (hthread.framed (hx.mono (by decide)))⟩
  have henv := interrupt_env k (M.Writes k L R) L.top n
  have hp : Aligned (M.cpu.enter.sps .process) := by
    rw [hpsp]
    exact M.cpu.frameAddr_aligned (hthread.sp_eq ▸ hthread.sp)
  have hends : ∃ q, Ends exec (halSwiEntry k)
      (SwiCall (Switches (Interrupt k (M.Writes k L R) L.top n) (M.Writes k L R) L.top
        (M.context i).frame (M.cpu.enter.sps .process - 32#32)))
      (Interrupt k (M.Writes k L R) L.top n) (.before 0 M.cpu.enter) q :=
    halSwiEntry_ends hs hp ha fun s1 hs1 => by
      have hpsp1 : s1.sps .process = M.cpu.enter.sps .process - 32#32 := by
        rw [hs1.sps]
        rfl
      rw [← hpsp1]
      exact exists_switches henv hs1.handles hf
  obtain ⟨q, he⟩ := hends
  obtain ⟨c, hq, _⟩ := hm.switch prog hc hne ht he
  have hstep : Machine.Step k L R prog n M ((resumed q).map fun c => { M with
      cpu := c, context := update M.context M.current ⟨M.cpu.enter.sps .process - 32#32⟩
      current := i }) := .switch M i _ _ q hc hne ht he
  rw [hq] at hstep
  exact ⟨_, hstep, rfl⟩

/-- **Threads have registers of their own**: whatever interrupts, software interrupts and context
    switches a run of the machine has, it is a run of threads that keep their registers while others
    run, and no step of it is a fault. A thread that has not masked the interrupts can be left for
    any other. -/
theorem context_switch_transparent (k : Core) (L : Layout T) (R : Word → Word → Word → Prop)
    (prog : T → View → View → Prop) (n : Nat) (M : Machine T) (hm : M.Wf k L)
    (o : Option (Machine T)) (h : ReflTransGen (Machine.Moves k L R prog n) (some M) o) :
    ∃ M', o = some M' ∧ M'.Wf k L ∧
      ReflTransGen (Virtual.Step L R prog) (M.virtual k) (M'.virtual k) ∧
      ∀ i, M'.created i = true → i ≠ M'.current → M'.cpu.primask = false →
        ∃ M'', Machine.Moves k L R prog n (some M') (some M'') ∧ M''.current = i := by
  have hrun : ∃ M', o = some M' ∧ M'.Wf k L ∧
      ReflTransGen (Virtual.Step L R prog) (M.virtual k) (M'.virtual k) := by
    induction h with
    | refl => exact ⟨M, rfl, hm, .refl⟩
    | tail _ hmove ih =>
      obtain ⟨M', rfl, hm', hr⟩ := ih
      obtain ⟨_, e, hstep⟩ := hmove
      cases e
      obtain ⟨M'', rfl, hm'', hs⟩ := hstep.refines hm'
      exact ⟨M'', rfl, hm'', hr.tail hs⟩
  obtain ⟨M', e, hm', hr⟩ := hrun
  refine ⟨M', e, hm', hr, fun i hc hne hu => ?_⟩
  obtain ⟨M'', hs, hi⟩ := hm'.switches hu hc hne
  exact ⟨M'', ⟨M', rfl, hs⟩, hi⟩

end Faeden

/-- Two stacks of four kilobytes and the main stack. -/
def sampleLayout : Layout Bool where
  top := 0x20004000#32
  words := 1024
  stack t x := InBlock (if t then 0x20002000#32 else 0x20001000#32) 1024 x
  aligned := by decide
  pos := by decide
  fits := by decide
  apart t x hx := by
    unfold InBlock at *
    cases t with
    | false =>
      simp only [Bool.false_eq_true, if_false] at hx
      bv_omega
    | true =>
      simp only [if_true] at hx
      bv_omega
  disjoint t u x ht hu := by
    unfold InBlock at *
    cases t with
    | false =>
      cases u with
      | false => rfl
      | true =>
        simp only [Bool.false_eq_true, if_false, if_true] at ht hu
        bv_omega
    | true =>
      cases u with
      | false =>
        simp only [Bool.false_eq_true, if_false, if_true] at ht hu
        bv_omega
      | true => rfl

/-- The thread `false` runs, the thread `true` is not created. -/
def sampleMachine : Machine Bool := ⟨sampleCpu, fun _ => ⟨0#32⟩, fun t => !t, false⟩

theorem sampleMachine_wf : sampleMachine.Wf .v7m sampleLayout := by
  refine ⟨⟨rfl, rfl, rfl, by decide, by decide⟩, rfl, fun t r hr => ?_⟩
  cases t with
  | true => cases hr
  | false =>
    have e : sampleCpu.regs = r := Option.some.inj hr
    subst e
    refine ⟨by decide, fun x hx => ?_⟩
    have hsp : sampleCpu.regs.sp = 0x20002000#32 := rfl
    have hstack : sampleLayout.stack false x = InBlock 0x20001000#32 1024 x := rfl
    rw [hstack]
    unfold Regs.window at hx
    rw [hsp] at hx
    unfold InBlock at *
    bv_omega

/-- A thread is created and switched to. -/
theorem context_switch_transparent_sample :
    ∃ M', ReflTransGen (Machine.Moves .v7m sampleLayout (fun _ _ _ => True) (fun _ _ _ => True) 3)
        (some sampleMachine) (some M') ∧ M'.current = true ∧
      ReflTransGen (Virtual.Step sampleLayout (fun _ _ _ => True) (fun _ _ _ => True))
        (sampleMachine.virtual .v7m) (M'.virtual .v7m) := by
  have hwindow : ∀ x, (startRegs 0x20003000#32 0x08000301#32 7#32).window x →
      sampleLayout.stack true x := fun x hx => by
    have hstack : sampleLayout.stack true x = InBlock 0x20002000#32 1024 x := rfl
    rw [hstack]
    unfold Regs.window startRegs at hx
    unfold InBlock at *
    bv_omega
  have hcreate : Machine.Step .v7m sampleLayout (fun _ _ _ => True) (fun _ _ _ => True) 3
      sampleMachine _ :=
    .create sampleMachine true 0x20003000#32 0x08000301#32 7#32 rfl (by decide) hwindow
  have hrun := ReflTransGen.single (r := Machine.Moves .v7m sampleLayout (fun _ _ _ => True)
    (fun _ _ _ => True) 3) ⟨sampleMachine, rfl, hcreate⟩
  obtain ⟨M1, e, _, _, hswitch⟩ := context_switch_transparent .v7m sampleLayout (fun _ _ _ => True)
    (fun _ _ _ => True) 3 sampleMachine sampleMachine_wf _ hrun
  cases e
  obtain ⟨M2, hmove, hcur⟩ := hswitch true rfl (by decide) rfl
  have hrun := hrun.tail hmove
  obtain ⟨_, e, _, hvirtual, _⟩ := context_switch_transparent .v7m sampleLayout (fun _ _ _ => True)
    (fun _ _ _ => True) 3 sampleMachine sampleMachine_wf _ hrun
  cases e
  exact ⟨M2, hrun, hcur, hvirtual⟩

end FxRtos.Thumb
