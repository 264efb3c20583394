/-
  File:      FxRtos/Hw/Exception.lean
  Subject:   EXCEPTIONS OF THE CORTEX-M: what the processor does when it takes an exception and when
             it returns from one, and code in handler mode that is interrupted by others.

  * `Taken`, `Cpu.excReturn` -- the way in and the way out; `Taken.returned` -- they are inverse to
    each other, on either stack.
  * `Disturbed`, `Others` -- what the code of others does to the memory: the words on the main stack
    are kept.
  * `Tracks` -- a state of code with interference beside the same code without; `tracks_follows`
    -- an instruction cannot tell the two apart.
-/
import FxRtos.Hw.Atomic

namespace FxRtos

open Lib
open Relation (ReflTransGen)

/-- The words change in the ways `R` allows for their addresses. -/
def Changes (R : Word → Word → Word → Prop) (m m' : Word → Word) (x : Word) : Prop :=
  ReflTransGen (R x) (m x) (m' x)

end FxRtos

namespace FxRtos.Thumb

open Function (update)
open Lib
open Relation (ReflTransGen)

/-! ## 1. Exceptions -/

/-- The registers that the processor puts on the stack, next to lr, pc and psr. -/
def hwSaved : List Reg := [.r0, .r1, .r2, .r3, .r12]

/-- The registers that a function keeps, and so does the way into an exception. -/
def calleeSaved : List Reg := [.r4, .r5, .r6, .r7, .r8, .r9, .r10, .r11]

/-- The frame is aligned to eight bytes. -/
def Cpu.frameAddr (c : Cpu) : Word := (c.sp - 32#32) &&& ~~~4#32

/-- Bit 9 of the saved psr says that a word was skipped. -/
def Cpu.hwFrame (c : Cpu) : List Word :=
  hwSaved.map c.r ++ [c.lr, c.pc, setFlag c.psr 9 (c.sp.getLsbD 2)]

/-- EXC_RETURN: where to return to, and the stack that the frame is on. -/
def Cpu.excReturnCode (c : Cpu) : Word :=
  if c.handler then 0xFFFFFFF1#32 else if c.spsel then 0xFFFFFFFD#32 else 0xFFFFFFF9#32

/-- **An exception is taken** in `c`. The registers that the processor has saved are undefined. -/
structure Taken (c s : Cpu) : Prop where
  unmasked : c.primask = false
  rest : s = { c with
    r := s.r, lr := c.excReturnCode, pc := s.pc, psr := s.psr,
    sps := update c.sps c.active c.frameAddr, handler := true, spsel := false, monitor := false,
    mem := storeWords c.mem c.frameAddr c.hwFrame }
  saved : ∀ d ∈ calleeSaved, s.r d = c.r d
  psr : s.psr.getLsbD 9 = false

/-- The frame taken off the stack `k`. -/
def Cpu.unstack (c : Cpu) (k : Stack) (handler spsel : Bool) : Cpu :=
  let a := c.sps k
  let psr := c.mem (a + 28#32)
  { c with
    r := loadRegs c.r hwSaved (loadWords c.mem a 5)
    lr := c.mem (a + 20#32)
    pc := c.mem (a + 24#32)
    psr := setFlag psr 9 false
    sps := update c.sps k ((a + 32#32) ||| if psr.getLsbD 9 then 4#32 else 0#32)
    handler := handler, spsel := spsel, monitor := false }

/-- **The return from an exception**, with the code in pc; any other value is a fault. -/
def Cpu.excReturn (c : Cpu) : Option Cpu :=
  if c.pc = 0xFFFFFFF1#32 then some (c.unstack .main true false)
  else if c.pc = 0xFFFFFFF9#32 then some (c.unstack .main false false)
  else if c.pc = 0xFFFFFFFD#32 then some (c.unstack .process false true)
  else none

variable {c c' s s' t t' : Cpu} {R : Word → Word → Word → Prop} {top a x : Word} {n : Nat}

theorem getLsbD_setFlag {i j : Nat} (hj : j < 32) (psr : Word) (b : Bool) :
    (setFlag psr i b).getLsbD j = if i = j then b else psr.getLsbD j := by
  unfold setFlag
  cases b with
  | true =>
    simp only [if_true]
    rw [getLsbD_setBit hj]
    by_cases h : i = j
    · simp [h]
    · simp [h]
  | false =>
    simp only [Bool.false_eq_true, if_false]
    rw [getLsbD_clearBit hj]
    by_cases h : i = j
    · simp [h]
    · simp [h]

theorem setFlag_back (psr : Word) (b : Bool) (h : psr.getLsbD 9 = false) :
    setFlag (setFlag psr 9 b) 9 false = psr := by
  refine BitVec.eq_of_getLsbD_eq fun j hj => ?_
  rw [getLsbD_setFlag hj, getLsbD_setFlag hj]
  by_cases hj9 : 9 = j
  · rw [if_pos hj9, ← hj9, h]
  · rw [if_neg hj9, if_neg hj9]

theorem bit2_add (b : Word) : (b + 32#32).getLsbD 2 = b.getLsbD 2 := by
  have hbit : ∀ b : Word, b.getLsbD 2 = decide (b.toNat / 4 % 2 = 1) := fun b =>
    Nat.testBit_eq_decide_div_mod_eq
  rw [hbit, hbit]
  exact decide_eq_decide.mpr (by bv_omega)

theorem bit2_sub (b : Word) : (b - 32#32).getLsbD 2 = b.getLsbD 2 := by
  rw [← bit2_add, BitVec.sub_add_cancel]

/-- The frame lies below the stack pointer, with the word that may be skipped. -/
theorem Cpu.frameAddr_add (c : Cpu) :
    c.frameAddr + (if c.sp.getLsbD 2 then 4#32 else 0#32) = c.sp - 32#32 := by
  unfold Cpu.frameAddr
  cases hs : c.sp.getLsbD 2 with
  | false =>
    have hid : (c.sp - 32#32) &&& ~~~4#32 = c.sp - 32#32 :=
      clearBit_of_clear (i := 2) ((bit2_sub c.sp).trans hs)
    rw [hid]
    exact BitVec.add_zero _
  | true => exact clearBit_add (i := 2) (by decide) ((bit2_sub c.sp).trans hs)

/-- Where the stack pointer comes back to. -/
theorem Cpu.frameAddr_back (c : Cpu) :
    (c.frameAddr + 32#32) ||| (if c.sp.getLsbD 2 then 4#32 else 0#32) = c.sp := by
  have hadd := c.frameAddr_add
  cases hs : c.sp.getLsbD 2 with
  | false =>
    rw [hs] at hadd
    have h0 : c.frameAddr = c.sp - 32#32 := (BitVec.add_zero _).symm.trans hadd
    rw [h0, BitVec.sub_add_cancel]
    exact BitVec.or_zero
  | true =>
    rw [hs] at hadd
    have hlow : (c.frameAddr + 32#32).getLsbD 2 = false := by
      rw [bit2_add]
      exact (getLsbD_clearBit (i := 2) (by decide)).trans (by simp)
    refine (setBit_eq_add (i := 2) (by decide) hlow).trans ?_
    calc c.frameAddr + 32#32 + 4#32
        = c.frameAddr + 4#32 + 32#32 := by
          rw [BitVec.add_assoc, BitVec.add_assoc, BitVec.add_comm 32#32]
      _ = c.sp - 32#32 + 32#32 := congrArg (· + 32#32) hadd
      _ = c.sp := BitVec.sub_add_cancel ..

theorem Cpu.frameAddr_cases (c : Cpu) :
    c.frameAddr = c.sp - 32#32 ∨ c.frameAddr = c.sp - 36#32 := by
  have hadd := c.frameAddr_add
  cases hs : c.sp.getLsbD 2 with
  | false =>
    rw [hs] at hadd
    exact .inl ((BitVec.add_zero _).symm.trans hadd)
  | true =>
    rw [hs, if_pos rfl] at hadd
    right
    bv_omega

theorem Cpu.frameAddr_aligned (h : Aligned c.sp) : Aligned c.frameAddr := by
  obtain e | e := c.frameAddr_cases
  · rw [e]
    exact h.sub 8
  · rw [e]
    exact h.sub 9

/-- With the word that may be skipped, a frame takes nine words. -/
theorem Cpu.frameAddr_block (h : InBlock c.frameAddr 8 x) : InBlock (c.sp - 36#32) 9 x := by
  unfold InBlock at *
  obtain e | e := c.frameAddr_cases
  · rw [e] at h
    bv_omega
  · rw [e] at h
    bv_omega

theorem not_mem_hwSaved {d : Reg} (h : d ∉ hwSaved) : d ∈ calleeSaved := by
  cases d with
  | r0 => exact absurd (by decide) h
  | r1 => exact absurd (by decide) h
  | r2 => exact absurd (by decide) h
  | r3 => exact absurd (by decide) h
  | r12 => exact absurd (by decide) h
  | _ => decide

/-- A frame taken off the stack that it was put on. -/
theorem unstack_frame {k : Stack} (handler spsel : Bool) (hk : c.active = k)
    (hpsr : c.psr.getLsbD 9 = false) (hsps : s.sps = update c.sps k c.frameAddr)
    (hr : ∀ d ∈ calleeSaved, s.r d = c.r d) (hframe : loadWords s.mem c.frameAddr 8 = c.hwFrame) :
    s.unstack k handler spsel = { c with
      handler := handler, spsel := spsel, primask := s.primask, monitor := false
      mem := s.mem } := by
  have ha : s.sps k = c.frameAddr := by rw [hsps, Function.update_self]
  obtain ⟨hregs, hrest⟩ := List.append_inj ((loadWords_append (n := 3) 5).symm.trans hframe)
    (by rw [loadWords_length]; rfl)
  have hrest : s.mem (c.frameAddr + 20#32) = c.lr ∧ s.mem (c.frameAddr + 24#32) = c.pc ∧
      s.mem (c.frameAddr + 28#32) = setFlag c.psr 9 (c.sp.getLsbD 2) := by
    simpa [loadWords, BitVec.add_assoc] using hrest
  have hbit : (setFlag c.psr 9 (c.sp.getLsbD 2)).getLsbD 9 = c.sp.getLsbD 2 := by
    rw [getLsbD_setFlag (by decide), if_pos rfl]
  have hload : loadRegs s.r hwSaved (hwSaved.map c.r) = c.r := by
    funext d
    rw [loadRegs_map]
    by_cases hd : d ∈ hwSaved
    · rw [if_pos hd]
    · rw [if_neg hd, hr d (not_mem_hwSaved hd)]
  have hback : update s.sps k c.sp = c.sps := by
    rw [hsps, Function.update_idem, Cpu.sp, hk, Function.update_eq_self]
  simp only [Cpu.unstack, ha, hregs, hrest, hload, hbit, c.frameAddr_back, hback,
    setFlag_back c.psr _ hpsr]

/-- **An exception is transparent**: with the frame and the callee-saved registers as they were, the
    return leads back to where it was taken. -/
theorem Taken.returned (h : Taken c s) (hpsr : c.psr.getLsbD 9 = false)
    (hmode : c.handler = true → c.spsel = false) (hpc : s'.pc = c.excReturnCode)
    (hsps : s'.sps = s.sps) (hr : ∀ d ∈ calleeSaved, s'.r d = c.r d) (hm : s'.primask = false)
    (hframe : loadWords s'.mem c.frameAddr 8 = c.hwFrame) :
    s'.excReturn = some { c with mem := s'.mem, monitor := false } := by
  have hsps : s'.sps = update c.sps c.active c.frameAddr := by rw [hsps, h.rest]
  have hu := fun hd sel => unstack_frame hd sel rfl hpsr hsps hr hframe
  have hsame : ∀ hd sel, hd = c.handler → sel = c.spsel →
      s'.unstack c.active hd sel = { c with mem := s'.mem, monitor := false } := by
    rintro hd sel rfl rfl
    rw [hu, hm, ← h.unmasked]
  unfold Cpu.excReturn
  by_cases hh : c.handler = true
  · have hact : c.active = .main := by simp [Cpu.active, hh]
    have hcode : s'.pc = 0xFFFFFFF1#32 := by rw [hpc, Cpu.excReturnCode, hh, if_pos rfl]
    rw [if_pos hcode, ← hact, hsame true false hh.symm (hmode hh).symm]
  · have hh := Bool.eq_false_iff.mpr hh
    by_cases hsel : c.spsel = true
    · have hact : c.active = .process := by simp [Cpu.active, hh, hsel]
      have hcode : s'.pc = 0xFFFFFFFD#32 := by
        rw [hpc, Cpu.excReturnCode, hh, hsel]
        rfl
      rw [hcode, if_neg (by decide), if_neg (by decide), if_pos rfl, ← hact,
        hsame false true hh.symm hsel.symm]
    · have hsel := Bool.eq_false_iff.mpr hsel
      have hact : c.active = .main := by simp [Cpu.active, hsel]
      have hcode : s'.pc = 0xFFFFFFF9#32 := by
        rw [hpc, Cpu.excReturnCode, hh, hsel]
        rfl
      rw [hcode, if_neg (by decide), if_pos rfl, ← hact, hsame false false hh.symm hsel.symm]

/-! ## 2. Code in handler mode -/

/-- Interrupts between two instructions, up to where the code goes on; `top` is the end of the
    stack. Its words are kept, and any other word changes in the ways `R` allows. An exception
    clears the exclusive monitor. -/
structure Disturbed (R : Word → Word → Word → Prop) (top : Word) (c c' : Cpu) : Prop where
  unmasked : c.primask = false
  rest : c' = { c with mem := c'.mem, monitor := false }
  stack : ∀ k, 4 * k < (top - c.sp).toNat →
    c'.mem (c.sp + BitVec.ofNat 32 (4 * k)) = c.mem (c.sp + BitVec.ofNat 32 (4 * k))
  words : ∀ x, Changes R c.mem c'.mem x

/-- The words of a stack in use, from its pointer `a` up to `top`. -/
def Live (top a x : Word) : Prop := (x - a).toNat < (top - a).toNat

/-- What others do to the memory: they keep the words on the stack, and change any other word in the
    ways `R` allows. -/
structure Others (R : Word → Word → Word → Prop) (top a : Word) (m m' : Word → Word) : Prop where
  stack : ∀ x, Aligned x → Live top a x → m' x = m x
  words : ∀ x, Changes R m m' x

/-- A handler, with its stack pointer where it belongs. -/
structure Cpu.Handles (c : Cpu) : Prop where
  handler : c.handler = true
  spsel : c.spsel = false
  psr : c.psr.getLsbD 9 = false
  sp : Aligned c.sp

/-- `s` differs from `t` by what others did to the memory. -/
structure Tracks (R : Word → Word → Word → Prop) (top : Word) (t s : Cpu) : Prop where
  rest : s = { t with mem := s.mem, monitor := s.monitor }
  others : Others R top t.sp t.mem s.mem

/-- Words that others keep. -/
def Held (R : Word → Word → Word → Prop) (top : Word) (t : Cpu) (a : Word) (n : Nat) : Prop :=
  ∀ x, Aligned x → InBlock a n x → Live top t.sp x ∨ ∀ v w, R x v w → w = v

/-- What an instruction needs not to notice the others: it reads words that they keep, and the
    stack does not grow beyond the memory. -/
def Instr.Unnoticing (R : Word → Word → Word → Prop) (top : Word) (t : Cpu) : Instr → Prop
  | .push rs => (top - t.sp).toNat + 4 * rs.length < 2 ^ 32
  | .pushLr => (top - t.sp).toNat + 4 < 2 ^ 32
  | .pop rs => 4 * rs.length ≤ (top - t.sp).toNat
  | .popLr => 4 ≤ (top - t.sp).toNat
  | .ldmia n rs => Held R top t (t.r n) rs.length
  | .stmia _ _ => True
  | .stmdb _ _ => True
  | .mov _ _ => True
  | .subsImm _ _ _ => True
  | .mrs _ _ => True
  | .msr k _ => k = .sp .process
  | .isb => True
  | _ => False

/-- An instruction of a handler that does not notice the others. -/
def Safe (R : Word → Word → Word → Prop) (top : Word) (i : Instr) (t : Cpu) : Prop :=
  t.Handles ∧ i.Unnoticing R top t

theorem Live.mono {b : Word} (h : Live top b x) (hle : (b - a).toNat ≤ (top - a).toNat) :
    Live top a x := by
  unfold Live at *
  bv_omega

theorem Others.refl (R : Word → Word → Word → Prop) (top a : Word) (m : Word → Word) :
    Others R top a m m := ⟨fun _ _ _ => rfl, fun _ => .refl⟩

theorem Others.trans {m m' m'' : Word → Word} (h : Others R top a m m')
    (h' : Others R top a m' m'') : Others R top a m m'' :=
  ⟨fun x hx hl => (h'.stack x hx hl).trans (h.stack x hx hl),
    fun x => (h.words x).trans (h'.words x)⟩

theorem Others.mono {b : Word} {m m' : Word → Word} (h : Others R top a m m')
    (hle : (b - a).toNat ≤ (top - a).toNat) : Others R top b m m' :=
  ⟨fun x hx hl => h.stack x hx (hl.mono hle), h.words⟩

/-- A word that nobody may change. -/
theorem Changes.fixed {m m' : Word → Word} (h : Changes R m m' x)
    (hx : ∀ v w, R x v w → w = v) : m' x = m x := by
  unfold Changes at h
  generalize m' x = w at h
  induction h with
  | refl => rfl
  | tail _ hr ih => exact (hx _ _ hr).trans ih

theorem Others.fixed {m m' : Word → Word} (h : Others R top a m m')
    (hx : ∀ v w, R x v w → w = v) : m' x = m x := Changes.fixed (h.words x) hx

/-- The same words written on both sides. -/
theorem Others.store {m m' : Word → Word} (h : Others R top a m m') (b : Word) (ws : List Word) :
    Others R top a (storeWords m b ws) (storeWords m' b ws) := by
  refine ⟨fun x hx hl => ?_, fun x => ?_⟩
  · exact storeWords_rel (P := fun v w => w = v) (fun _ => rfl) (h.stack x hx hl)
  · exact storeWords_rel (P := fun v w => ReflTransGen (R x) v w) (fun _ => .refl) (h.words x)

/-- Words pushed onto the stack are kept from then on. -/
theorem Others.push {m m' : Word → Word} (h : Others R top a m m') (ha : Aligned a)
    (ws : List Word) (hroom : (top - a).toNat + 4 * ws.length < 2 ^ 32) :
    Others R top (a - BitVec.ofNat 32 (4 * ws.length))
      (storeWords m (a - BitVec.ofNat 32 (4 * ws.length)) ws)
      (storeWords m' (a - BitVec.ofNat 32 (4 * ws.length)) ws) := by
  refine ⟨fun x hx hl => ?_, (h.store _ ws).words⟩
  by_cases hin : InBlock (a - BitVec.ofNat 32 (4 * ws.length)) ws.length x
  · exact storeWords_block (ha.sub ws.length) hx hin
  · refine (h.store _ ws).stack x hx ?_
    unfold Live InBlock at *
    bv_omega

theorem Disturbed.others (h : Disturbed R top s s') (hsp : Aligned s.sp) :
    Others R top s.sp s.mem s'.mem := by
  refine ⟨fun x hx hl => ?_, h.words⟩
  rw [aligned_iff] at hx hsp
  have hk : x = s.sp + BitVec.ofNat 32 (4 * ((x - s.sp).toNat / 4)) := by bv_omega
  unfold Live at hl
  rw [hk]
  exact h.stack _ (by omega)

theorem Tracks.refl (R : Word → Word → Word → Prop) (top : Word) (t : Cpu) : Tracks R top t t :=
  ⟨rfl, .refl R top t.sp t.mem⟩

theorem Tracks.sp (h : Tracks R top t s) : s.sp = t.sp := by
  rw [h.rest]
  rfl

theorem Tracks.handles (h : Tracks R top t s) (ht : t.Handles) : s.Handles := by
  rw [h.rest]
  exact ⟨ht.handler, ht.spsel, ht.psr, ht.sp⟩

theorem Cpu.Handles.active (h : c.Handles) : c.active = .main := by
  simp [Cpu.active, h.handler]

theorem Tracks.disturbed (h : Tracks R top t s) (ht : t.Handles) (hd : Disturbed R top s s') :
    Tracks R top t s' := by
  refine ⟨?_, ?_⟩
  · rw [hd.rest, h.rest]
  · have ho := hd.others (h.sp ▸ ht.sp)
    rw [h.sp] at ho
    exact h.others.trans ho

/-- What the instruction reads on both sides. -/
theorem Tracks.load (h : Tracks R top t s) {b : Word} {k : Nat} (hb : Aligned b)
    (hheld : Held R top t b k) : loadWords s.mem b k = loadWords t.mem b k := by
  refine loadWords_aligned hb fun x hin hx => ?_
  obtain hl | hf := hheld x hx hin
  · exact h.others.stack x hx hl
  · exact h.others.fixed hf

theorem held_live {k : Nat} (hk : 4 * k ≤ (top - t.sp).toNat) : Held R top t t.sp k :=
  fun _ _ hin => .inl (Nat.lt_of_lt_of_le hin hk)

theorem Cpu.pushWords_sp (c : Cpu) (ws : List Word) :
    (c.pushWords ws).sp = c.sp - BitVec.ofNat 32 (4 * ws.length) :=
  Function.update_self c.active _ c.sps

theorem Cpu.drop_sp (c : Cpu) (k : Nat) : (c.drop k).sp = c.sp + BitVec.ofNat 32 (4 * k) :=
  Function.update_self c.active _ c.sps

theorem Tracks.push (h : Tracks R top t s) (hh : t.Handles) (ws : List Word)
    (hroom : (top - t.sp).toNat + 4 * ws.length < 2 ^ 32) :
    Tracks R top (t.pushWords ws) (s.pushWords ws) := by
  obtain ⟨hr, ho⟩ := h
  have hp := ho.push hh.sp ws hroom
  generalize s.mem = m, s.monitor = b at hr hp
  subst hr
  refine ⟨rfl, ?_⟩
  rw [Cpu.pushWords_sp]
  exact hp

theorem Tracks.drop (h : Tracks R top t s) {k : Nat} (hk : 4 * k ≤ (top - t.sp).toNat) :
    Tracks R top (t.drop k) (s.drop k) := by
  obtain ⟨hr, ho⟩ := h
  have hm : Others R top (t.sp + BitVec.ofNat 32 (4 * k)) t.mem s.mem := ho.mono (by bv_omega)
  generalize s.mem = m, s.monitor = b at hr hm
  subst hr
  refine ⟨rfl, ?_⟩
  rw [Cpu.drop_sp]
  exact hm

/-- A store of the same words. -/
theorem Tracks.store (h : Tracks R top t s) (b : Word) (ws : List Word) :
    Tracks R top { t with mem := storeWords t.mem b ws }
      { s with mem := storeWords s.mem b ws } := by
  obtain ⟨hr, ho⟩ := h
  exact ⟨congrArg (fun c => { c with mem := storeWords c.mem b ws }) hr, ho.store b ws⟩

/-- An instruction that changes only registers, and leaves the main stack where it is. -/
theorem Tracks.regs (h : Tracks R top t s) (f : Cpu → Cpu)
    (hf : ∀ c m b, f { c with mem := m, monitor := b } = { f c with mem := m, monitor := b })
    (hmem : (f t).mem = t.mem) (hsp : (f t).sp = t.sp) :
    Tracks R top (f t) (f s) := by
  obtain ⟨hr, ho⟩ := h
  have hfs := hf t s.mem s.monitor
  rw [← hr] at hfs
  rw [hfs]
  refine ⟨rfl, ?_⟩
  rw [hmem, hsp]
  exact ho

/-- **An instruction does not notice the others.** -/
theorem Tracks.exec {i : Instr} (h : Tracks R top t s) (hs : Safe R top i t)
    (he : exec i t = .next t') : ∃ s', exec i s = .next s' ∧ Tracks R top t' s' := by
  obtain ⟨hh, hu⟩ := hs
  have hr : s.r = t.r := by rw [h.rest]
  have hsp := h.sp
  cases i with
  | push rs =>
    cases he
    refine ⟨_, rfl, ?_⟩
    rw [hr]
    exact h.push hh (rs.map t.r) (by rwa [List.length_map])
  | pushLr =>
    cases he
    have hlr : s.lr = t.lr := by rw [h.rest]
    refine ⟨_, rfl, ?_⟩
    rw [hlr]
    exact h.push hh [t.lr] hu
  | pop rs =>
    cases he
    have hw := h.load hh.sp (held_live hu)
    refine ⟨_, rfl, ?_⟩
    rw [hr, hsp, hw]
    exact Tracks.drop (Tracks.regs h
      (fun c => { c with r := loadRegs t.r rs (loadWords t.mem t.sp rs.length) })
      (fun _ _ _ => rfl) rfl rfl) hu
  | popLr =>
    cases he
    have hw := h.load (k := 1) hh.sp (held_live hu)
    have hw : s.mem t.sp = t.mem t.sp := List.head_eq_of_cons_eq hw
    refine ⟨_, rfl, ?_⟩
    rw [hsp, hw]
    exact Tracks.drop (k := 1) (Tracks.regs h (fun c => { c with lr := t.mem t.sp })
      (fun _ _ _ => rfl) rfl rfl) hu
  | ldmia n rs =>
    by_cases ha : Aligned (t.r n)
    · have hw := h.load ha hu
      rw [Thumb.exec, if_pos ha] at he
      cases he
      rw [Thumb.exec, hr, if_pos ha, hw]
      exact ⟨_, rfl, Tracks.regs h
        (fun c => { c with
          r := loadRegs (update t.r n (t.r n + BitVec.ofNat 32 (4 * rs.length))) rs
            (loadWords t.mem (t.r n) rs.length) })
        (fun _ _ _ => rfl) rfl rfl⟩
    · rw [Thumb.exec, if_neg ha] at he
      cases he
  | stmia n rs =>
    by_cases ha : Aligned (t.r n)
    · rw [Thumb.exec, if_pos ha] at he
      cases he
      rw [Thumb.exec, hr, if_pos ha]
      exact ⟨_, rfl, Tracks.regs (h.store (t.r n) (rs.map t.r))
        (fun c => c.set n (t.r n + BitVec.ofNat 32 (4 * rs.length))) (fun _ _ _ => rfl) rfl rfl⟩
    · rw [Thumb.exec, if_neg ha] at he
      cases he
  | stmdb n rs =>
    by_cases ha : Aligned (t.r n - BitVec.ofNat 32 (4 * rs.length))
    · simp only [Thumb.exec, if_pos ha] at he
      cases he
      simp only [Thumb.exec, hr, if_pos ha]
      exact ⟨_, rfl, Tracks.regs (h.store _ (rs.map t.r))
        (fun c => c.set n (t.r n - BitVec.ofNat 32 (4 * rs.length))) (fun _ _ _ => rfl) rfl rfl⟩
    · simp only [Thumb.exec, if_neg ha] at he
      cases he
  | mov d m =>
    cases he
    exact ⟨_, rfl, Tracks.regs h (fun c => c.set d (c.r m)) (fun _ _ _ => rfl) rfl rfl⟩
  | subsImm d n k =>
    cases he
    exact ⟨_, rfl, Tracks.regs h
      (fun c => { c.set d (c.r n - k) with psr := subFlags (c.r n) k c.psr })
      (fun _ _ _ => rfl) rfl rfl⟩
  | mrs d k =>
    cases he
    refine ⟨_, rfl, Tracks.regs h (fun c => c.set d (k.read c)) (fun _ _ _ => ?_) rfl rfl⟩
    cases k with
    | _ => rfl
  | msr k n =>
    cases he
    cases hu
    refine ⟨_, rfl, Tracks.regs h (fun c => Special.write c (c.r n) (.sp .process))
      (fun _ _ _ => rfl) rfl ?_⟩
    simp [Cpu.sp, Cpu.active, Special.write, hh.handler]
  | isb =>
    cases he
    exact ⟨_, rfl, h⟩
  | _ => exact hu.elim

/-- **Others between the instructions of a handler are not noticed.** -/
theorem tracks_follows {env : Cpu → Cpu → Prop}
    (henv : ∀ s s', s.Handles → env s s' → Disturbed R top s s') :
    Follows exec env (Safe R top) (Tracks R top) where
  env _ _ s s' hs ht he := ht.disturbed hs.1 (henv s s' (ht.handles hs.1) he)
  instr _ _ _ _ hs ht he := ht.exec hs he

end FxRtos.Thumb
