/-
  File:      FxRtos/Hw/BitCount.lean
  Subject:   COUNTING ZEROS (hw_cpu_clz, hw_cpu_ctz) on the two Cortex-M ports. ARMv6-M has no
             instruction for it and tries one bit after the other, as RV32I does (Rv32.lean).

  * `hwCpuClz6`, `hwCpuCtz6` -- the functions of ARMv6-M/hw_cpu.S.
  * `hwCpuClz7`, `hwCpuCtz7` -- those of ARMv7-M/hw_cpu.S.
  * `Returns` -- what a caller may rely on: the result is in r0, the other registers, the stack and
    the memory above it are as before, and control is back at the caller.
  * `count_zeros` -- all three ports.
-/
import FxRtos.Hw.Rv32
import FxRtos.Hw.Thumb

namespace FxRtos.Thumb

open Function (update)
open Lib

/-! ## 1. The code -/

def hwCpuClz6 : List Instr :=
  [.push [.r1, .r2, .r3],
   .movs .r1 31#32,
   -- hw_cpu_clz_1
   .movs .r2 1#32,
   .mov .r3 .r0,
   .lsls .r2 .r1,
   .ands .r3 .r2,
   .bne 10,
   .subsImm .r1 .r1 1#32,
   .addsImm .r3 .r1 1#32,
   .bne 2,
   -- hw_cpu_clz_exit
   .addsImm .r1 .r1 1#32,
   .movs .r0 32#32,
   .subs .r0 .r0 .r1,
   .pop [.r1, .r2, .r3],
   .bx]

def hwCpuCtz6 : List Instr :=
  [.push [.r1, .r2, .r3],
   .movs .r1 0#32,
   -- hw_cpu_ctz_1
   .movs .r2 1#32,
   .mov .r3 .r0,
   .lsls .r2 .r1,
   .ands .r3 .r2,
   .bne 10,
   .addsImm .r1 .r1 1#32,
   .cmpImm .r1 32#32,
   .bne 2,
   -- hw_cpu_ctz_exit
   .mov .r0 .r1,
   .pop [.r1, .r2, .r3],
   .bx]

def hwCpuClz7 : List Instr := [.clz .r0 .r0, .bx]

def hwCpuCtz7 : List Instr := [.rbit .r0 .r0, .clz .r0 .r0, .bx]

/-- The function returns `v` to its caller, having used `n` words below its stack pointer. -/
structure Returns (c : Cpu) (v : Word) (n : Nat) (c' : Cpu) : Prop where
  rest : c' = { c.set .r0 v with pc := c.lr, psr := c'.psr, mem := c'.mem }
  mem : ∀ x, ¬ InBlock (c.sp - BitVec.ofNat 32 (4 * n)) n x → c'.mem x = c.mem x

/-! ## 2. One bit tested -/

variable {c s : Cpu} {code : List Instr}

/-- The registers the functions of ARMv6-M push and use. -/
abbrev scratch : List Reg := [.r1, .r2, .r3]

variable (code) in
/-- The five instructions from `hw_cpu_clz_1` or `hw_cpu_ctz_1` on: the loop is left if the bit is
    set. -/
theorem leads_bitTest (h : (code.drop 2).take 5 =
      [.movs .r2 1#32, .mov .r3 .r0, .lsls .r2 .r1, .ands .r3 .r2, .bne 10])
    {i : Nat} (hi : i < 32) (hr : s.r .r1 = BitVec.ofNat 32 i) :
    ∃ s', Scratched scratch s s' ∧ s'.r .r1 = s.r .r1 ∧
      Leads exec code (.before 2 s) (.before (if (s.r .r0).getLsbD i then 10 else 7) s') := by
  have hat : ∀ k, k < 5 → code[2 + k]? = ((code.drop 2).take 5)[k]? := by
    intro k hk
    rw [List.getElem?_take_of_lt hk, List.getElem?_drop]
  rw [h] at hat
  have hk : i % 256 = i := Nat.mod_eq_of_lt (by omega)
  have hbit := and_bit_eq_zero (b := s.r .r0) hi
  have l2 : Leads exec code (.before 2 s) _ := Leads.next (hat 0 (by decide)) rfl
  have l3 := l2.trans (Leads.next (hat 1 (by decide)) rfl)
  have l4 := l3.trans (Leads.next (hat 2 (by decide)) rfl)
  have l5 := l4.trans (Leads.next (hat 3 (by decide)) rfl)
  have l6 := l5.trans (leads_bne (hat 4 (by decide)))
  have h6 : ∃ s', Scratched scratch s s' ∧ s'.r .r1 = s.r .r1 ∧
      s'.z = !(s.r .r0).getLsbD i ∧
      Leads exec code (.before 2 s) (.before (if s'.z then 7 else 10) s') := by
    refine ⟨_, ?_, ?_, ?_, l6⟩
    · refine ⟨rfl, fun d hd => ?_⟩
      simp only [scratch, List.mem_cons, List.not_mem_nil, or_false, not_or] at hd
      simp [Cpu.set, hd]
    · simp [Cpu.set]
    · rw [Bool.eq_iff_iff]
      simp [Cpu.set, hr, hk, hbit]
  obtain ⟨s', hs, h1, hz, hl⟩ := h6
  rw [hz] at hl
  refine ⟨s', hs, h1, ?_⟩
  cases hb : (s.r .r0).getLsbD i with
  | true =>
    rw [hb] at hl
    exact hl
  | false =>
    rw [hb] at hl
    exact hl

/-! ## 3. The loops -/

theorem ofNat_eq_zero {i : Nat} (hi : i < 32) : BitVec.ofNat 32 i = 0#32 ↔ i = 0 := by
  constructor
  · intro h
    have := congrArg BitVec.toNat h
    rw [BitVec.toNat_ofNat, Nat.mod_eq_of_lt (by omega)] at this
    exact this
  · rintro rfl
    rfl

/-- The loop of `hw_cpu_clz` goes down from the highest bit; `n` bits are left to try. -/
structure ClzRound (c : Cpu) (n : Nat) (s : Cpu) : Prop where
  pos : 0 < n
  le : n ≤ 32
  r1 : s.r .r1 = BitVec.ofNat 32 (n - 1)
  above : ∀ j, n ≤ j → (c.r .r0).getLsbD j = false
  kept : Scratched scratch c s

theorem Scratched.r0 (h : Scratched scratch c s) : s.r .r0 = c.r .r0 := h.kept .r0 (by decide)

/-- The end of the loop: `hw_cpu_clz_exit`. -/
def ClzExit (c : Cpu) : Point Fn Cpu → Prop
  | .before 10 s => Scratched scratch c s ∧ s.r .r1 + 1#32 = 32#32 - (c.r .r0).clz
  | _ => False

theorem clz_round {n : Nat} (h : ClzRound c n s) :
    (∃ q, Leads exec hwCpuClz6 (.before 2 s) q ∧ ClzExit c q) ∨
      ∃ m s', m < n ∧ ClzRound c m s' ∧ Leads exec hwCpuClz6 (.before 2 s) (.before 2 s') := by
  obtain ⟨i, rfl⟩ : ∃ i, n = i + 1 := ⟨n - 1, by have := h.pos; omega⟩
  have hi : i < 32 := h.le
  obtain ⟨s', hs, h1, hl⟩ := leads_bitTest hwCpuClz6 rfl hi h.r1
  have hs' := h.kept.trans hs
  rw [h.kept.r0] at hl
  cases hb : (c.r .r0).getLsbD i with
  | true =>
    rw [hb] at hl
    refine .inl ⟨_, hl, hs', ?_⟩
    have hclz := clz_of_highest hb fun j hj => h.above j hj
    rw [h1, h.r1]
    bv_omega
  | false =>
    rw [hb] at hl
    have l8 := hl.trans (Leads.next (s := s') (i := .subsImm .r1 .r1 1#32) rfl rfl)
    have l9 := l8.trans (Leads.next (i := .addsImm .r3 .r1 1#32) rfl rfl)
    have l10 := l9.trans (leads_bne (l := 2) rfl)
    obtain ⟨s2, hs2, hr2, hz2, hl2⟩ : ∃ s2, Scratched scratch c s2 ∧
        s2.r .r1 = BitVec.ofNat 32 i - 1#32 ∧ s2.z = decide (i = 0) ∧
        Leads exec hwCpuClz6 (.before 2 s) (.before (if s2.z then 10 else 2) s2) := by
      refine ⟨_, hs'.trans ⟨rfl, fun d hd => ?_⟩, ?_, ?_, l10⟩
      · simp only [scratch, List.mem_cons, List.not_mem_nil, or_false, not_or] at hd
        simp [Cpu.set, hd]
      · simp [Cpu.set, h1, h.r1]
      · have hend : BitVec.ofNat 32 i - 1#32 + 1#32 = 0#32 ↔ i = 0 := by
          rw [BitVec.sub_add_cancel]
          exact ofNat_eq_zero hi
        rw [Bool.eq_iff_iff]
        simpa [Cpu.set, h1, h.r1] using hend
    rw [hz2] at hl2
    obtain rfl | ⟨k, rfl⟩ : i = 0 ∨ ∃ k, i = k + 1 := by
      cases i with
      | zero => exact .inl rfl
      | succ k => exact .inr ⟨k, rfl⟩
    · refine .inl ⟨_, hl2, hs2, ?_⟩
      have hzero : c.r .r0 = 0#32 := BitVec.eq_of_getLsbD_eq fun j hj => by
        rw [BitVec.getLsbD_zero]
        cases j with
        | zero => exact hb
        | succ j => exact h.above _ (by omega)
      rw [hr2, hzero, clz_zero]
      decide
    · refine .inr ⟨k + 1, s2, by omega, ⟨by omega, by omega, ?_, fun j hj => ?_, hs2⟩, hl2⟩
      · rw [hr2]
        bv_omega
      · obtain rfl | hlt : j = k + 1 ∨ k + 1 + 1 ≤ j := by omega
        · exact hb
        · exact h.above j hlt

/-- The loop of `hw_cpu_ctz` goes up from the lowest bit; `n` bits are left to try. -/
structure CtzRound (c : Cpu) (n : Nat) (s : Cpu) : Prop where
  pos : 0 < n
  le : n ≤ 32
  r1 : s.r .r1 = BitVec.ofNat 32 (32 - n)
  below : ∀ j, j < 32 - n → (c.r .r0).getLsbD j = false
  kept : Scratched scratch c s

/-- The end of the loop: `hw_cpu_ctz_exit`. -/
def CtzExit (c : Cpu) : Point Fn Cpu → Prop
  | .before 10 s => Scratched scratch c s ∧ s.r .r1 = (c.r .r0).ctz
  | _ => False

theorem ctz_round {n : Nat} (h : CtzRound c n s) :
    (∃ q, Leads exec hwCpuCtz6 (.before 2 s) q ∧ CtzExit c q) ∨
      ∃ m s', m < n ∧ CtzRound c m s' ∧ Leads exec hwCpuCtz6 (.before 2 s) (.before 2 s') := by
  have hpos := h.pos
  have hle := h.le
  have hi : 32 - n < 32 := by omega
  obtain ⟨s', hs, h1, hl⟩ := leads_bitTest hwCpuCtz6 rfl hi h.r1
  have hs' := h.kept.trans hs
  rw [h.kept.r0] at hl
  cases hb : (c.r .r0).getLsbD (32 - n) with
  | true =>
    rw [hb] at hl
    refine .inl ⟨_, hl, hs', ?_⟩
    have hctz := ctz_of_lowest hb h.below
    rw [h1, h.r1]
    refine BitVec.eq_of_toNat_eq ?_
    rw [hctz, BitVec.toNat_ofNat]
    omega
  | false =>
    rw [hb] at hl
    have l8 := hl.trans (Leads.next (s := s') (i := .addsImm .r1 .r1 1#32) rfl rfl)
    have l9 := l8.trans (Leads.next (i := .cmpImm .r1 32#32) rfl rfl)
    have l10 := l9.trans (leads_bne (l := 2) rfl)
    obtain ⟨s2, hs2, hr2, hz2, hl2⟩ : ∃ s2, Scratched scratch c s2 ∧
        s2.r .r1 = BitVec.ofNat 32 (32 - n) + 1#32 ∧ s2.z = decide (n = 1) ∧
        Leads exec hwCpuCtz6 (.before 2 s) (.before (if s2.z then 10 else 2) s2) := by
      refine ⟨_, hs'.trans ⟨rfl, fun d hd => ?_⟩, ?_, ?_, l10⟩
      · simp only [scratch, List.mem_cons, List.not_mem_nil, or_false, not_or] at hd
        simp [Cpu.set, hd]
      · simp [Cpu.set, h1, h.r1]
      · have hlast : BitVec.ofNat 32 (32 - n) + 1#32 - 32#32 = 0#32 ↔ n = 1 := by bv_omega
        rw [Bool.eq_iff_iff]
        simp [Cpu.set, h1, h.r1, hlast]
    rw [hz2] at hl2
    have hbelow : ∀ j, j < 32 - (n - 1) → (c.r .r0).getLsbD j = false := fun j hj => by
      obtain rfl | hlt : j = 32 - n ∨ j < 32 - n := by omega
      · exact hb
      · exact h.below j hlt
    by_cases hn : n = 1
    · subst hn
      refine .inl ⟨_, hl2, hs2, ?_⟩
      have hzero : c.r .r0 = 0#32 := BitVec.eq_of_getLsbD_eq fun j hj => by
        rw [BitVec.getLsbD_zero]
        exact hbelow j hj
      rw [hr2, hzero, ctz_zero]
      decide
    · rw [decide_eq_false hn] at hl2
      refine .inr ⟨n - 1, s2, by omega, ⟨by omega, by omega, ?_, hbelow, hs2⟩, hl2⟩
      rw [hr2]
      bv_omega

/-! ## 4. The functions -/

variable (code) in
/-- The way out: the registers are popped, and the result is in r0. -/
theorem leads_popScratch (pc : Nat) (hpop : code[pc]? = some (.pop scratch))
    (hbx : code[pc + 1]? = some .bx)
    (hs : Scratched (.r0 :: scratch) (c.pushWords (scratch.map c.r)) s) :
    ∃ c', Leads exec code (.before pc s) (.left c') ∧ Returns c (s.r .r0) 3 c' := by
  have hmem : s.mem = storeWords c.mem (c.sp - BitVec.ofNat 32 (4 * 3)) (scratch.map c.r) := by
    rw [hs.rest]
    rfl
  have hexec := exec_pop scratch (c := c) (s := s) (by rw [hs.rest]; rfl)
    (by rw [hs.rest]; rfl) (by rw [hmem]; exact loadWords_storeWords (by simp [scratch]))
  refine ⟨_, (Leads.next hpop hexec).trans (Leads.leave hbx rfl), ?_, fun x hx => ?_⟩
  · have hr : (fun d => if d ∈ scratch then c.r d else s.r d) = update c.r .r0 (s.r .r0) := by
      funext d
      by_cases hd : d ∈ scratch
      · rw [if_pos hd, Function.update_of_ne (by rintro rfl; simp [scratch] at hd)]
      · by_cases h0 : d = .r0
        · rw [if_neg hd, h0, Function.update_self]
        · rw [if_neg hd, Function.update_of_ne h0]
          exact hs.kept d (by rw [List.mem_cons]; exact not_or.mpr ⟨h0, hd⟩)
    simp only [hr]
    rw [hs.rest]
    rfl
  · exact (congrFun hmem x).trans (storeWords_out (by simp [scratch]) hx)

theorem sub_sub_word (x y : Word) : x - (x - y) = y := by bv_omega

theorem Scratched.widen (h : Scratched scratch c s) : Scratched (.r0 :: scratch) c s :=
  ⟨h.rest, fun d hd => h.kept d fun hm => hd (List.mem_cons_of_mem _ hm)⟩

variable (code) in
/-- The first instructions: the registers are pushed and r1 set. -/
theorem leads_enter {k : Word} (hpush : code[0]? = some (.push scratch))
    (hmov : code[1]? = some (.movs .r1 k)) :
    ∃ s, Scratched scratch (c.pushWords (scratch.map c.r)) s ∧ s.r .r1 = k ∧
      Leads exec code (.before 0 c) (.before 2 s) := by
  have l1 : Leads exec code (.before 0 c) _ := Leads.next hpush rfl
  refine ⟨_, ⟨rfl, fun d hd => ?_⟩, ?_, l1.trans (Leads.next hmov rfl)⟩
  · have hne : d ≠ .r1 := by
      rintro rfl
      exact hd List.mem_cons_self
    exact Function.update_of_ne hne k c.r
  · exact Function.update_self Reg.r1 k c.r

/-- **`hw_cpu_clz` without the instruction** counts the leading zeros of every word. -/
theorem hwCpuClz6_returns (c : Cpu) :
    ∃ c', Leads exec hwCpuClz6 (.before 0 c) (.left c') ∧ Returns c (c.r .r0).clz 3 c' := by
  obtain ⟨s2, hs2, hr2, l2⟩ := leads_enter hwCpuClz6 (c := c) rfl rfl
  obtain ⟨q, lq, hexit⟩ := leads_loop (I := ClzRound _) (Q := ClzExit _)
    (fun n s h => clz_round h) 32 s2
    ⟨by decide, Nat.le_refl _, hr2, fun j hj => BitVec.getLsbD_of_ge _ j hj, hs2⟩
  match q, hexit with
  | .before 10 s, ⟨hs, hr⟩ =>
    have l11 := (l2.trans lq).trans (Leads.next (i := .addsImm .r1 .r1 1#32) rfl rfl)
    have l12 := l11.trans (Leads.next (i := .movs .r0 32#32) rfl rfl)
    have l13 := l12.trans (Leads.next (i := .subs .r0 .r0 .r1) rfl rfl)
    obtain ⟨s', hs', hr', l13⟩ : ∃ s', Scratched (.r0 :: scratch) s s' ∧
        s'.r .r0 = 32#32 - (s.r .r1 + 1#32) ∧
        Leads exec hwCpuClz6 (.before 0 c) (.before 13 s') := by
      refine ⟨_, ⟨rfl, fun d hd => ?_⟩, ?_, l13⟩
      · simp only [scratch, List.mem_cons, List.not_mem_nil, or_false, not_or] at hd
        simp [Cpu.set, hd]
      · simp [Cpu.set]
    obtain ⟨c', lpop, hret⟩ := leads_popScratch hwCpuClz6 13 (c := c) rfl rfl
      (hs.widen.trans hs')
    refine ⟨c', l13.trans lpop, ?_⟩
    have he : 32#32 - (s.r .r1 + 1#32) = (c.r .r0).clz := by
      rw [hr]
      exact sub_sub_word _ _
    rwa [hr', he] at hret

/-- **`hw_cpu_ctz` without the instruction** counts the trailing zeros of every word. -/
theorem hwCpuCtz6_returns (c : Cpu) :
    ∃ c', Leads exec hwCpuCtz6 (.before 0 c) (.left c') ∧ Returns c (c.r .r0).ctz 3 c' := by
  obtain ⟨s2, hs2, hr2, l2⟩ := leads_enter hwCpuCtz6 (c := c) rfl rfl
  obtain ⟨q, lq, hexit⟩ := leads_loop (I := CtzRound _) (Q := CtzExit _)
    (fun n s h => ctz_round h) 32 s2
    ⟨by decide, Nat.le_refl _, hr2, fun j hj => (Nat.not_lt_zero j hj).elim, hs2⟩
  match q, hexit with
  | .before 10 s, ⟨hs, hr⟩ =>
    have l11 := (l2.trans lq).trans (Leads.next (i := .mov .r0 .r1) rfl rfl)
    obtain ⟨s', hs', hr', l11⟩ : ∃ s', Scratched (.r0 :: scratch) s s' ∧ s'.r .r0 = s.r .r1 ∧
        Leads exec hwCpuCtz6 (.before 0 c) (.before 11 s') := by
      refine ⟨_, ⟨rfl, fun d hd => ?_⟩, ?_, l11⟩
      · simp only [List.mem_cons, not_or] at hd
        simp [Cpu.set, hd]
      · simp [Cpu.set]
    obtain ⟨c', lpop, hret⟩ := leads_popScratch hwCpuCtz6 11 (c := c) rfl rfl
      (hs.widen.trans hs')
    refine ⟨c', l11.trans lpop, ?_⟩
    rwa [hr', hr] at hret

def hwCpuClz : Core → List Instr
  | .v6m => hwCpuClz6
  | .v7m => hwCpuClz7

def hwCpuCtz : Core → List Instr
  | .v6m => hwCpuCtz6
  | .v7m => hwCpuCtz7

theorem counts_cortexM (k : Core) (c : Cpu) :
    (∃ c', Leads exec (hwCpuClz k) (.before 0 c) (.left c') ∧ Returns c (c.r .r0).clz 3 c') ∧
      ∃ c', Leads exec (hwCpuCtz k) (.before 0 c) (.left c') ∧ Returns c (c.r .r0).ctz 3 c' := by
  cases k with
  | v6m => exact ⟨hwCpuClz6_returns c, hwCpuCtz6_returns c⟩
  | v7m =>
    have lz : Leads exec hwCpuClz7 (.before 0 c) _ := Leads.next (i := .clz .r0 .r0) rfl rfl
    have lr : Leads exec hwCpuCtz7 (.before 0 c) _ := Leads.next (i := .rbit .r0 .r0) rfl rfl
    have lt := lr.trans (Leads.next (i := .clz .r0 .r0) rfl rfl)
    refine ⟨⟨_, lz.trans (Leads.leave (i := .bx) rfl rfl), rfl, fun _ _ => rfl⟩,
      ⟨_, lt.trans (Leads.leave (i := .bx) rfl rfl), ?_, fun _ _ => rfl⟩⟩
    simp [Cpu.set, BitVec.ctz_eq_reverse_clz]

end FxRtos.Thumb

namespace FxRtos

open Lib

/-- **Every port counts the zeros of every word**: called in any state, both functions come back
    with the number of leading and of trailing zeros of their argument, 32 for zero, and leave all
    else to their caller as it was. -/
theorem count_zeros :
    (∀ (k : Thumb.Core) (c : Thumb.Cpu),
      (∃ c', Leads Thumb.exec (Thumb.hwCpuClz k) (.before 0 c) (.left c') ∧
        Thumb.Returns c (c.r .r0).clz 3 c') ∧
      ∃ c', Leads Thumb.exec (Thumb.hwCpuCtz k) (.before 0 c) (.left c') ∧
        Thumb.Returns c (c.r .r0).ctz 3 c') ∧
    ∀ (sym : Rv32.Sym → Word) (h : Rv32.Hart),
      (∃ h', Leads (Rv32.exec sym) Rv32.hwCpuClz (.before 0 h) (.left h') ∧
        Rv32.Returns h (h.x .a0).clz h') ∧
      ∃ h', Leads (Rv32.exec sym) Rv32.hwCpuCtz (.before 0 h) (.left h') ∧
        Rv32.Returns h (h.x .a0).ctz h' :=
  ⟨Thumb.counts_cortexM, Rv32.counts_rv32⟩

end FxRtos
