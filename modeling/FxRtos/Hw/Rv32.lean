/-
  File:      FxRtos/Hw/Rv32.lean
  Subject:   THE RV32I PROCESSOR, as far as RISC-V/RV32I/hw_cpu.S and hal_cpu_intr0.S use it, and
             COUNTING ZEROS there (hw_cpu_clz, hw_cpu_ctz).

  * `Hart` -- the registers, the machine-mode status registers and the memory.
  * `Instr`, `exec` -- the instructions. A label is the number of the instruction it stands before;
    `sym` gives the addresses of the variables.
  * `Returns` -- what a caller of the two functions may rely on.
-/
import FxRtos.Lib.Bits
import FxRtos.Lib.Machine
import FxRtos.Lib.Words

namespace FxRtos.Rv32

open Function (update)
open Lib

/-! ## 1. The processor -/

inductive Reg where
  | zero | ra | sp | gp | tp
  | t0 | t1 | t2 | t3 | t4 | t5 | t6
  | s0 | s1 | s2 | s3 | s4 | s5 | s6 | s7 | s8 | s9 | s10 | s11
  | a0 | a1 | a2 | a3 | a4 | a5 | a6 | a7
  deriving DecidableEq, Repr

inductive Csr where
  | mstatus
  | mepc
  | mcause
  deriving DecidableEq, Repr

structure Hart where
  x : Reg → Word
  csr : Csr → Word
  -- where the code goes on once it is left
  pc : Word
  mem : Word → Word

/-- The register `zero` reads as zero. -/
def Hart.get (h : Hart) (r : Reg) : Word := if r = .zero then 0#32 else h.x r

def Hart.set (h : Hart) (r : Reg) (v : Word) : Hart := { h with x := update h.x r v }

def Hart.setCsr (h : Hart) (k : Csr) (v : Word) : Hart := { h with csr := update h.csr k v }

/-- `RV_SPEC_MSTATUS_MIE`. -/
abbrev mie : Word := 8#32

/-- Interrupts are enabled. -/
def Hart.mieSet (h : Hart) : Bool := (h.csr .mstatus).getLsbD 3

/-! ## 2. The instructions -/

/-- The variables of the interrupt entry. -/
inductive Sym where
  | nesting
  | stackFrame
  | stack
  deriving DecidableEq, Repr

/-- The functions that the assembler code calls. -/
inductive Fn where
  | halIntrHandler
  | halTrapHandler
  | halSwiHandler
  deriving DecidableEq, Repr

inductive Instr where
  | fence
  | csrr (d : Reg) (k : Csr)
  | csrw (k : Csr) (s : Reg)
  | csrs (k : Csr) (s : Reg)
  | csrrci (d : Reg) (k : Csr) (v : Word)
  | lw (d : Reg) (off : Word) (b : Reg)
  | sw (s : Reg) (off : Word) (b : Reg)
  | mv (d s : Reg)
  | li (d : Reg) (v : Word)
  | la (d : Reg) (s : Sym)
  | add (d s t : Reg)
  | addi (d s : Reg) (v : Word)
  | and (d s t : Reg)
  | srli (d s : Reg) (k : Nat)
  | slli (d s : Reg) (k : Nat)
  | bne (s t : Reg) (label : Nat)
  | bnez (s : Reg) (label : Nat)
  | beqz (s : Reg) (label : Nat)
  | j (label : Nat)
  | jal (f : Fn)
  | ret
  | mret
  deriving Repr

/-- `mret`: MIE takes the value of MPIE, and MPIE is set. -/
def Hart.leaveTrap (h : Hart) : Hart :=
  let m := h.csr .mstatus
  let m' := if m.getLsbD 7 then m ||| mie else m &&& ~~~mie
  { h.setCsr .mstatus (m' ||| 0x80#32) with pc := h.csr .mepc }

def exec (sym : Sym → Word) : Instr → Hart → Flow Fn Hart
  | .fence, h => .next h
  | .csrr d k, h => .next (h.set d (h.csr k))
  | .csrw k s, h => .next (h.setCsr k (h.get s))
  | .csrs k s, h => .next (h.setCsr k (h.csr k ||| h.get s))
  | .csrrci d k v, h => .next ((h.set d (h.csr k)).setCsr k (h.csr k &&& ~~~v))
  | .lw d o b, h =>
    if Aligned (h.get b + o) then .next (h.set d (h.mem (h.get b + o))) else .fault
  | .sw s o b, h =>
    if Aligned (h.get b + o) then .next { h with mem := update h.mem (h.get b + o) (h.get s) }
    else .fault
  | .mv d s, h => .next (h.set d (h.get s))
  | .li d v, h => .next (h.set d v)
  | .la d s, h => .next (h.set d (sym s))
  | .add d s t, h => .next (h.set d (h.get s + h.get t))
  | .addi d s v, h => .next (h.set d (h.get s + v))
  | .and d s t, h => .next (h.set d (h.get s &&& h.get t))
  | .srli d s k, h => .next (h.set d (h.get s >>> k))
  | .slli d s k, h => .next (h.set d (h.get s <<< k))
  | .bne s t l, h => if h.get s = h.get t then .next h else .jump l h
  | .bnez s l, h => if h.get s = 0#32 then .next h else .jump l h
  | .beqz s l, h => if h.get s = 0#32 then .jump l h else .next h
  | .j l, h => .jump l h
  | .jal f, h => .call f h
  | .ret, h => .leave { h with pc := h.get .ra }
  | .mret, h => .leave h.leaveTrap

theorem leads_bnez {sym : Sym → Word} {code : List Instr} {pc l : Nat} {r : Reg} {h : Hart}
    (hi : code[pc]? = some (.bnez r l)) :
    Leads (exec sym) code (.before pc h) (.before (if h.get r = 0#32 then pc + 1 else l) h) := by
  by_cases hz : h.get r = 0#32
  · rw [if_pos hz]
    exact Leads.next hi (by rw [exec, if_pos hz])
  · rw [if_neg hz]
    exact Leads.jump hi (by rw [exec, if_neg hz])

theorem Hart.setCsr_self (h : Hart) (k : Csr) (v : Word) : (h.setCsr k v).csr k = v := by
  simp [Hart.setCsr]

/-! ## 3. Counting zeros -/

def hwCpuClz : List Instr :=
  [.mv .a1 .a0,
   .li .a2 0x80000000#32,
   .li .a0 0#32,
   -- 1
   .and .a3 .a2 .a1,
   .bnez .a3 8,
   .addi .a0 .a0 1#32,
   .srli .a2 .a2 1,
   .bnez .a2 3,
   -- 2
   .ret]

def hwCpuCtz : List Instr :=
  [.mv .a1 .a0,
   .li .a2 1#32,
   .li .a0 0#32,
   -- 1
   .and .a3 .a2 .a1,
   .bnez .a3 8,
   .addi .a0 .a0 1#32,
   .slli .a2 .a2 1,
   .bnez .a2 3,
   -- 2
   .ret]

/-- The registers the two functions use. -/
abbrev scratch : List Reg := [.a0, .a1, .a2, .a3]

/-- `s` differs from `h` in the registers `scratch` only. -/
structure Scratched (h s : Hart) : Prop where
  rest : s = { h with x := s.x }
  kept : ∀ d, d ∉ scratch → s.x d = h.x d

theorem Scratched.trans {h s s' : Hart} (h1 : Scratched h s) (h2 : Scratched s s') :
    Scratched h s' :=
  ⟨by rw [h2.rest, h1.rest], fun d hd => (h2.kept d hd).trans (h1.kept d hd)⟩

variable {sym : Sym → Word} {code : List Instr} {h s : Hart}

variable (sym code) in
/-- The start of the loop: it is left if the bit is set. -/
theorem leads_bitTest (hand : code[3]? = some (.and .a3 .a2 .a1))
    (hbnez : code[4]? = some (.bnez .a3 8)) {i : Nat} (hi : i < 32)
    (hr : s.x .a2 = 1#32 <<< i) :
    ∃ s', Scratched s s' ∧ s'.x .a0 = s.x .a0 ∧ s'.x .a1 = s.x .a1 ∧ s'.x .a2 = s.x .a2 ∧
      Leads (exec sym) code (.before 3 s)
        (.before (if (s.x .a1).getLsbD i then 8 else 5) s') := by
  have l3 : Leads (exec sym) code (.before 3 s) _ := Leads.next hand rfl
  have l4 := l3.trans (leads_bnez hbnez)
  obtain ⟨s', hs, h0, h1, h2, h3, hl⟩ : ∃ s', Scratched s s' ∧ s'.x .a0 = s.x .a0 ∧
      s'.x .a1 = s.x .a1 ∧ s'.x .a2 = s.x .a2 ∧ s'.get .a3 = s.x .a1 &&& 1#32 <<< i ∧
      Leads (exec sym) code (.before 3 s)
        (.before (if s'.get .a3 = 0#32 then 5 else 8) s') := by
    refine ⟨_, ⟨rfl, fun d hd => ?_⟩, ?_, ?_, ?_, ?_, l4⟩
    · simp only [scratch, List.mem_cons, List.not_mem_nil, or_false, not_or] at hd
      simp [Hart.set, hd]
    · simp [Hart.set]
    · simp [Hart.set]
    · simp [Hart.set]
    · simp [Hart.set, Hart.get, hr, BitVec.and_comm]
  rw [h3] at hl
  refine ⟨s', hs, h0, h1, h2, ?_⟩
  have hbit := and_bit_eq_zero (b := s.x .a1) hi
  cases hb : (s.x .a1).getLsbD i with
  | true =>
    rwa [if_neg (by rw [hbit, hb]; decide)] at hl
  | false =>
    rwa [if_pos (hbit.mpr hb)] at hl

/-- The loop of `hw_cpu_clz` goes down from the highest bit; `n` bits are left to try. -/
structure ClzRound (h : Hart) (v : Word) (n : Nat) (s : Hart) : Prop where
  pos : 0 < n
  le : n ≤ 32
  a0 : s.x .a0 = BitVec.ofNat 32 (32 - n)
  a1 : s.x .a1 = v
  a2 : s.x .a2 = 1#32 <<< (n - 1)
  above : ∀ j, n ≤ j → v.getLsbD j = false
  kept : Scratched h s

/-- The end of the loops, with the result in a0. -/
def LoopExit (h : Hart) (v : Word) : Point Fn Hart → Prop
  | .before 8 s => Scratched h s ∧ s.x .a0 = v
  | _ => False

variable (sym) in
theorem clz_round {v : Word} {n : Nat} (hr : ClzRound h v n s) :
    (∃ q, Leads (exec sym) hwCpuClz (.before 3 s) q ∧ LoopExit h v.clz q) ∨
      ∃ m s', m < n ∧ ClzRound h v m s' ∧
        Leads (exec sym) hwCpuClz (.before 3 s) (.before 3 s') := by
  have hpos := hr.pos
  have hle := hr.le
  have hi : n - 1 < 32 := by omega
  obtain ⟨s', hs, h0, h1, h2, hl⟩ := leads_bitTest sym hwCpuClz rfl rfl hi hr.a2
  have hs' := hr.kept.trans hs
  rw [hr.a1] at hl
  cases hb : v.getLsbD (n - 1) with
  | true =>
    rw [hb] at hl
    refine .inl ⟨_, hl, hs', ?_⟩
    have hclz := clz_of_highest hb fun j hj => hr.above j (by omega)
    rw [h0, hr.a0]
    refine BitVec.eq_of_toNat_eq ?_
    rw [hclz, BitVec.toNat_ofNat]
    omega
  | false =>
    rw [hb] at hl
    have l6 := hl.trans (Leads.next (s := s') (i := .addi .a0 .a0 1#32) rfl rfl)
    have l7 := l6.trans (Leads.next (i := .srli .a2 .a2 1) rfl rfl)
    have l8 := l7.trans (leads_bnez (r := .a2) (l := 3) rfl)
    obtain ⟨s2, hs2, hx0, hx1, hx2, hl2⟩ : ∃ s2, Scratched h s2 ∧
        s2.x .a0 = BitVec.ofNat 32 (32 - n) + 1#32 ∧ s2.x .a1 = v ∧
        s2.x .a2 = (1#32 <<< (n - 1)) >>> 1 ∧
        Leads (exec sym) hwCpuClz (.before 3 s)
          (.before (if s2.get .a2 = 0#32 then 8 else 3) s2) := by
      refine ⟨_, hs'.trans ⟨rfl, fun d hd => ?_⟩, ?_, ?_, ?_, l8⟩
      · simp only [scratch, List.mem_cons, List.not_mem_nil, or_false, not_or] at hd
        simp [Hart.set, hd]
      · simp [Hart.set, Hart.get, h0, hr.a0]
      · simp [Hart.set, h1, hr.a1]
      · simp [Hart.set, Hart.get, h2, hr.a2]
    have hget : s2.get .a2 = (1#32 <<< (n - 1)) >>> 1 := hx2
    rw [hget] at hl2
    by_cases hn : n = 1
    · subst hn
      refine .inl ⟨_, hl2, hs2, ?_⟩
      have hzero : v = 0#32 := BitVec.eq_of_getLsbD_eq fun j hj => by
        rw [BitVec.getLsbD_zero]
        cases j with
        | zero => exact hb
        | succ j => exact hr.above _ (by omega)
      rw [hx0, hzero, clz_zero]
      decide
    · obtain ⟨k, rfl⟩ : ∃ k, n = k + 2 := ⟨n - 2, by omega⟩
      have hmask : (1#32 <<< (k + 2 - 1)) >>> 1 = 1#32 <<< k := one_shiftLeft_shiftRight (by omega)
      rw [hmask, if_neg (one_shiftLeft_ne (by omega))] at hl2
      refine .inr ⟨k + 1, s2, by omega,
        ⟨by omega, by omega, ?_, hx1, hx2.trans hmask, fun j hj => ?_, hs2⟩, hl2⟩
      · rw [hx0]
        bv_omega
      · obtain rfl | hlt : j = k + 1 ∨ k + 2 ≤ j := by omega
        · exact hb
        · exact hr.above j hlt

/-- The loop of `hw_cpu_ctz` goes up from the lowest bit, which a0 counts. -/
structure CtzRound (h : Hart) (v : Word) (n : Nat) (s : Hart) : Prop where
  pos : 0 < n
  le : n ≤ 32
  a0 : s.x .a0 = BitVec.ofNat 32 (32 - n)
  a1 : s.x .a1 = v
  a2 : s.x .a2 = 1#32 <<< (32 - n)
  below : ∀ j, j < 32 - n → v.getLsbD j = false
  kept : Scratched h s

variable (sym) in
theorem ctz_round {v : Word} {n : Nat} (hr : CtzRound h v n s) :
    (∃ q, Leads (exec sym) hwCpuCtz (.before 3 s) q ∧ LoopExit h v.ctz q) ∨
      ∃ m s', m < n ∧ CtzRound h v m s' ∧
        Leads (exec sym) hwCpuCtz (.before 3 s) (.before 3 s') := by
  have hpos := hr.pos
  have hle := hr.le
  have hi : 32 - n < 32 := by omega
  obtain ⟨s', hs, h0, h1, h2, hl⟩ := leads_bitTest sym hwCpuCtz rfl rfl hi hr.a2
  have hs' := hr.kept.trans hs
  rw [hr.a1] at hl
  cases hb : v.getLsbD (32 - n) with
  | true =>
    rw [hb] at hl
    refine .inl ⟨_, hl, hs', ?_⟩
    have hctz := ctz_of_lowest hb hr.below
    rw [h0, hr.a0]
    refine BitVec.eq_of_toNat_eq ?_
    rw [hctz, BitVec.toNat_ofNat]
    omega
  | false =>
    rw [hb] at hl
    have l6 := hl.trans (Leads.next (s := s') (i := .addi .a0 .a0 1#32) rfl rfl)
    have l7 := l6.trans (Leads.next (i := .slli .a2 .a2 1) rfl rfl)
    have l8 := l7.trans (leads_bnez (r := .a2) (l := 3) rfl)
    obtain ⟨s2, hs2, hx0, hx1, hx2, hl2⟩ : ∃ s2, Scratched h s2 ∧
        s2.x .a0 = BitVec.ofNat 32 (32 - n) + 1#32 ∧ s2.x .a1 = v ∧
        s2.x .a2 = 1#32 <<< (32 - n + 1) ∧
        Leads (exec sym) hwCpuCtz (.before 3 s)
          (.before (if s2.get .a2 = 0#32 then 8 else 3) s2) := by
      refine ⟨_, hs'.trans ⟨rfl, fun d hd => ?_⟩, ?_, ?_, ?_, l8⟩
      · simp only [scratch, List.mem_cons, List.not_mem_nil, or_false, not_or] at hd
        simp [Hart.set, hd]
      · simp [Hart.set, Hart.get, h0, hr.a0]
      · simp [Hart.set, h1, hr.a1]
      · simp [Hart.set, Hart.get, h2, hr.a2, BitVec.shiftLeft_add]
    have hget : s2.get .a2 = 1#32 <<< (32 - n + 1) := hx2
    rw [hget] at hl2
    have hbelow : ∀ j, j < 32 - (n - 1) → v.getLsbD j = false := fun j hj => by
      obtain rfl | hlt : j = 32 - n ∨ j < 32 - n := by omega
      · exact hb
      · exact hr.below j hlt
    by_cases hn : n = 1
    · subst hn
      refine .inl ⟨_, hl2, hs2, ?_⟩
      have hzero : v = 0#32 := BitVec.eq_of_getLsbD_eq fun j hj => by
        rw [BitVec.getLsbD_zero]
        exact hbelow j hj
      rw [hx0, hzero, ctz_zero]
      decide
    · have hmask : 32 - n + 1 = 32 - (n - 1) := by omega
      rw [hmask, if_neg (one_shiftLeft_ne (by omega))] at hl2
      refine .inr ⟨n - 1, s2, by omega,
        ⟨by omega, by omega, ?_, hx1, hmask ▸ hx2, hbelow, hs2⟩, hl2⟩
      rw [hx0]
      bv_omega

/-- What the caller gets: `v` in a0, and all but the registers a0 to a3 as it was. -/
structure Returns (h : Hart) (v : Word) (h' : Hart) : Prop where
  rest : h' = { h with x := h'.x, pc := h.get .ra }
  a0 : h'.x .a0 = v
  kept : ∀ d, d ∉ scratch → h'.x d = h.x d

variable (sym code) in
/-- The first instructions: the argument goes to a1, the mask to a2, and a0 is cleared. -/
theorem leads_enter {v : Word} (h0 : code[0]? = some (.mv .a1 .a0))
    (h1 : code[1]? = some (.li .a2 v)) (h2 : code[2]? = some (.li .a0 0#32)) :
    ∃ s, Scratched h s ∧ s.x .a0 = 0#32 ∧ s.x .a1 = h.x .a0 ∧ s.x .a2 = v ∧
      Leads (exec sym) code (.before 0 h) (.before 3 s) := by
  have l1 : Leads (exec sym) code (.before 0 h) _ := Leads.next h0 rfl
  have l2 := l1.trans (Leads.next h1 rfl)
  refine ⟨_, ⟨rfl, fun d hd => ?_⟩, ?_, ?_, ?_, l2.trans (Leads.next h2 rfl)⟩
  · simp only [scratch, List.mem_cons, List.not_mem_nil, or_false, not_or] at hd
    simp [Hart.set, hd]
  · simp [Hart.set]
  · simp [Hart.set, Hart.get]
  · simp [Hart.set]

variable (sym code) in
theorem LoopExit.returns {v : Word} {q : Point Fn Hart} (hq : LoopExit h v q)
    (hret : code[8]? = some .ret) :
    ∃ h', Leads (exec sym) code q (.left h') ∧ Returns h v h' := by
  match q, hq with
  | .before 8 s, ⟨hs, ha⟩ =>
    have hra : s.get .ra = h.get .ra := hs.kept .ra (by decide)
    refine ⟨{ s with pc := s.get .ra }, Leads.leave hret rfl, ?_, ha, hs.kept⟩
    rw [hra, hs.rest]

theorem counts_rv32 (sym : Sym → Word) (h : Hart) :
    (∃ h', Leads (exec sym) hwCpuClz (.before 0 h) (.left h') ∧ Returns h (h.x .a0).clz h') ∧
      ∃ h', Leads (exec sym) hwCpuCtz (.before 0 h) (.left h') ∧ Returns h (h.x .a0).ctz h' := by
  constructor
  · obtain ⟨s, hs, h0, h1, h2, l⟩ := leads_enter sym hwCpuClz (h := h) rfl rfl rfl
    obtain ⟨q, lq, hq⟩ := leads_loop (I := ClzRound h (h.x .a0)) (Q := LoopExit h (h.x .a0).clz)
      (fun n s hr => clz_round sym hr) 32 s
      ⟨by decide, Nat.le_refl _, h0, h1, by rw [h2]; decide,
        fun j hj => BitVec.getLsbD_of_ge _ j hj, hs⟩
    obtain ⟨h', lret, hret⟩ := hq.returns sym hwCpuClz rfl
    exact ⟨h', (l.trans lq).trans lret, hret⟩
  · obtain ⟨s, hs, h0, h1, h2, l⟩ := leads_enter sym hwCpuCtz (h := h) rfl rfl rfl
    obtain ⟨q, lq, hq⟩ := leads_loop (I := CtzRound h (h.x .a0)) (Q := LoopExit h (h.x .a0).ctz)
      (fun n s hr => ctz_round sym hr) 32 s
      ⟨by decide, Nat.le_refl _, h0, h1, by rw [h2]; decide,
        fun j hj => (Nat.not_lt_zero j hj).elim, hs⟩
    obtain ⟨h', lret, hret⟩ := hq.returns sym hwCpuCtz rfl
    exact ⟨h', (l.trans lq).trans lret, hret⟩

end FxRtos.Rv32
