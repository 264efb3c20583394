/-
  File:      FxRtos/Hw/Atomic.lean
  Subject:   THE ATOMIC OPERATIONS (hw_cpu_atomic_swap, hw_cpu_atomic_add, hw_cpu_atomic_cas) of the
             three ports. Interrupts may be taken between any two instructions, and whatever runs
             before the interrupted code goes on may write to the memory, the cell included.

  * `AtomicOp.stores` -- what the operation makes of the value it finds.
  * `Thumb.Interrupted`, `Rv32.Interrupted` -- what happens between two instructions: the registers
    and the words on the stack are kept, and the rest of the memory takes a step of `E`. Since `E`
    may be any relation, words that the code never touches can keep account of what others did.
  * `Atomic` -- the effect of a call: others take steps, the operation takes place on the memory
    they left, in one step of its own, and others go on from there.
  * `Atomic.counted` -- no update is lost. `hwCpuAtomicAdd6_unmasked`, `hwCpuAtomicAdd_unmasked` --
    without the mask one would be.
-/
import FxRtos.Hw.Rv32
import FxRtos.Hw.Thumb
import Mathlib.Data.BitVec
import Mathlib.Tactic.Abel

namespace FxRtos

open Function (update)
open Lib
open Relation (ReflTransGen)

/-! ## 1. The operations -/

inductive AtomicOp where
  | swap
  | add
  | cas
  deriving DecidableEq, Repr

/-- The value stored where `old` is found; `x` and `y` are the second and third argument. An
    unsuccessful comparison stores nothing, which leaves `old`. -/
def AtomicOp.stores (x y old : Word) : AtomicOp → Word
  | .swap => x
  | .add => x + old
  | .cas => if old = x then y else old

/-- What one of the others may make of the memory. -/
abbrev MemStep : Type := (Word → Word) → (Word → Word) → Prop

/-- **One moment in which the operation takes place**: others take the memory to `m1`, where the
    cell holds what is returned; the operation stores; and others go on from there. -/
def Atomic (E : MemStep) (op : AtomicOp) (x y p : Word) (m m' : Word → Word) (v : Word) : Prop :=
  ∃ m1, ReflTransGen E m m1 ∧ m1 p = v ∧ ReflTransGen E (update m1 p (op.stores x y v)) m'

section Bilanz

variable {E : MemStep} {op : AtomicOp} {x y p log v : Word} {m m' : Word → Word}

/-- Others that add to the cell what they add to a word of their own. -/
theorem counted_run (hE : ∀ m m', E m m' → m' p - m p = m' log - m log)
    (h : ReflTransGen E m m') : m' p - m p = m' log - m log := by
  induction h with
  | refl => rw [BitVec.sub_self, BitVec.sub_self]
  | tail _ he ih =>
    rw [← sub_add_sub_cancel, hE _ _ he, ih, sub_add_sub_cancel]

/-- **No update is lost**: what the others have added is in the cell, before the moment or after. -/
theorem Atomic.counted (h : Atomic E op x y p m m' v) (hlog : log ≠ p)
    (hE : ∀ m m', E m m' → m' p - m p = m' log - m log) :
    (v - m p) + (m' p - op.stores x y v) = m' log - m log := by
  obtain ⟨m1, h1, rfl, h2⟩ := h
  have hbefore := counted_run hE h1
  have hafter := counted_run hE h2
  rw [Function.update_self, Function.update_of_ne hlog] at hafter
  rw [hbefore, hafter]
  abel

/-- In particular no addition is. -/
theorem Atomic.add_counted (h : Atomic E .add x y p m m' v) (hlog : log ≠ p)
    (hE : ∀ m m', E m m' → m' p - m p = m' log - m log) :
    m' p = m p + x + (m' log - m log) := by
  rw [← h.counted hlog hE, AtomicOp.stores]
  abel

end Bilanz

/-- Others that increment the cell `p` and count in `log` how often they did. -/
def increments (p log : Word) : MemStep := fun m m' =>
  m' = update (update m p (m p + 1#32)) log (m log + 1#32)

theorem increments.added {p log : Word} {m m' : Word → Word} (h : increments p log m m')
    (hlog : log ≠ p) : m' p - m p = m' log - m log := by
  rw [show m' = _ from h, Function.update_of_ne (Ne.symm hlog), Function.update_self,
    Function.update_self]
  bv_omega

/-! The words of a block that the code has to itself do not count. -/

def hide (b : Word) (n : Nat) (m : Word → Word) : Word → Word :=
  fun x => if InBlock b n x then 0#32 else m x

section Block

variable {b p : Word} {n : Nat} {m m' : Word → Word}

theorem hide_out (h : ¬ InBlock b n p) : hide b n m p = m p := if_neg h

theorem hide_congr (h : ∀ x, ¬ InBlock b n x → m' x = m x) : hide b n m' = hide b n m := by
  funext x
  unfold hide
  by_cases hx : InBlock b n x
  · rw [if_pos hx, if_pos hx]
  · rw [if_neg hx, if_neg hx, h x hx]

theorem hide_update (h : ¬ InBlock b n p) (w : Word) :
    hide b n (update m p w) = update (hide b n m) p w := by
  funext x
  unfold hide
  by_cases hx : x = p
  · subst hx
    rw [if_neg h, Function.update_self, Function.update_self]
  · rw [Function.update_of_ne hx, Function.update_of_ne hx]

end Block

end FxRtos

namespace FxRtos.Thumb

open Function (update)
open Lib
open Relation (ReflTransGen)

/-! ## 2. ARMv6-M: the interrupts are masked -/

def hwCpuAtomicSwap6 : List Instr :=
  [.push [.r2, .r3],
   .dmb,
   .mrs .r2 .primask,
   .cpsid,
   .ldr .r3 .r0,
   .str .r1 .r0,
   .mov .r0 .r3,
   .dmb,
   .msr .primask .r2,
   .pop [.r2, .r3],
   .bx]

def hwCpuAtomicAdd6 : List Instr :=
  [.push [.r2, .r3],
   .dmb,
   .mrs .r2 .primask,
   .cpsid,
   .ldr .r3 .r0,
   .add .r1 .r1 .r3,
   .str .r1 .r0,
   .mov .r0 .r3,
   .dmb,
   .msr .primask .r2,
   .pop [.r2, .r3],
   .bx]

def hwCpuAtomicCas6 : List Instr :=
  [.push [.r3, .r4],
   .dmb,
   .mrs .r4 .primask,
   .cpsid,
   .ldr .r3 .r0,
   .cmp .r3 .r1,
   .bne 8,
   .str .r2 .r0,
   -- hw_cpu_atomic_cas_exit
   .dmb,
   .mov .r0 .r3,
   .msr .primask .r4,
   .pop [.r3, .r4],
   .bx]

/-- The memory without the `n` words below `top`. -/
abbrev outside (top : Word) (n : Nat) (m : Word → Word) : Word → Word :=
  hide (top - BitVec.ofNat 32 (4 * n)) n m

/-- An interrupt between two instructions, up to where the code goes on; `top` is the stack pointer
    the function was called with, and `n` how many words it pushes. An exception clears the
    exclusive monitor. -/
structure Interrupted (E : MemStep) (n : Nat) (top : Word) (c c' : Cpu) : Prop where
  unmasked : c.primask = false
  rest : c' = { c with mem := c'.mem, monitor := false }
  stack : ∀ k, 4 * k < (top - c.sp).toNat →
    c'.mem (c.sp + BitVec.ofNat 32 (4 * k)) = c.mem (c.sp + BitVec.ofNat 32 (4 * k))
  step : E (outside top n c.mem) (outside top n c'.mem)

/-- No function is called. -/
def NoCall (_ : Fn) (_ _ : Cpu) : Prop := False

variable {E : MemStep} {n : Nat} {top : Word} {c c' s s' : Cpu}

/-- Any number of interrupts. -/
structure Later (E : MemStep) (n : Nat) (top : Word) (c c' : Cpu) : Prop where
  rest : c' = { c with mem := c'.mem, monitor := c'.monitor }
  stack : ∀ k, 4 * k < (top - c.sp).toNat →
    c'.mem (c.sp + BitVec.ofNat 32 (4 * k)) = c.mem (c.sp + BitVec.ofNat 32 (4 * k))
  steps : ReflTransGen E (outside top n c.mem) (outside top n c'.mem)

theorem Later.refl (E : MemStep) (n : Nat) (top : Word) (c : Cpu) : Later E n top c c :=
  ⟨rfl, fun _ _ => rfl, .refl⟩

theorem Later.sp (h : Later E n top c c') : c'.sp = c.sp := by
  rw [h.rest]
  rfl

theorem Later.r (h : Later E n top c c') : c'.r = c.r := by rw [h.rest]

theorem Later.primask (h : Later E n top c c') : c'.primask = c.primask := by rw [h.rest]

theorem Later.z (h : Later E n top c c') : c'.z = c.z := by
  rw [h.rest]
  rfl

theorem Later.trans {c'' : Cpu} (h : Later E n top c c') (h' : Later E n top c' c'') :
    Later E n top c c'' := by
  refine ⟨?_, fun k hk => ?_, h.steps.trans h'.steps⟩
  · rw [h'.rest, h.rest]
  · have hs := h'.stack k (by rwa [h.sp])
    rw [h.sp] at hs
    rw [hs, h.stack k hk]

theorem Interrupted.later (h : Interrupted E n top c c') : Later E n top c c' :=
  ⟨by rw [h.rest], h.stack, .single h.step⟩

theorem later_of (h : ReflTransGen (Interrupted E n top) c c') : Later E n top c c' := by
  induction h with
  | refl => exact .refl E n top c
  | tail _ hi ih => exact ih.trans hi.later

/-- Where the stack pointer is with `n` words pushed. -/
abbrev Cpu.below (c : Cpu) (n : Nat) : Word := c.sp - BitVec.ofNat 32 (4 * n)

theorem Cpu.pushWords_map (c : Cpu) (rs : List Reg) (f : Reg → Word) :
    c.pushWords (rs.map f) = { c with
      sps := update c.sps c.active (c.below rs.length)
      mem := storeWords c.mem (c.below rs.length) (rs.map f) } := by
  rw [Cpu.pushWords, List.length_map]

/-- The function called in `c` has the registers `rs` on the stack. -/
structure Pushed (c : Cpu) (rs : List Reg) (s : Cpu) : Prop where
  rest : s = { c with
    r := s.r, psr := s.psr, sps := update c.sps c.active (c.below rs.length),
    primask := s.primask, monitor := s.monitor, mem := s.mem }
  saved : loadWords s.mem (c.below rs.length) rs.length = rs.map c.r

section Maske

variable {rs : List Reg} {m : Reg} {x : Word} {code : List Instr} {q : Point Fn Cpu} {pc : Nat}

theorem Pushed.sp (h : Pushed c rs s) : s.sp = c.below rs.length := by
  rw [h.rest]
  exact Function.update_self c.active _ c.sps

/-- The stack below the caller is what interrupts keep. -/
theorem Pushed.kept (h : Pushed c rs s) (hn : 4 * rs.length < 2 ^ 32)
    (hl : Later E rs.length c.sp s s') :
    loadWords s'.mem (c.below rs.length) rs.length =
      loadWords s.mem (c.below rs.length) rs.length := by
  have hroom : c.sp - c.below rs.length = BitVec.ofNat 32 (4 * rs.length) := by
    rw [Cpu.below]
    bv_omega
  refine loadWords_ext fun k hk => ?_
  have hs := hl.stack k
  rw [h.sp, hroom, BitVec.toNat_ofNat, Nat.mod_eq_of_lt hn] at hs
  exact hs (by omega)

theorem Pushed.later (h : Pushed c rs s) (hn : 4 * rs.length < 2 ^ 32)
    (hl : Later E rs.length c.sp s s') : Pushed c rs s' := by
  refine ⟨?_, (h.kept hn hl).trans h.saved⟩
  rw [hl.rest, h.rest]

theorem Pushed.set (h : Pushed c rs s) (d : Reg) (v : Word) : Pushed c rs (s.set d v) :=
  ⟨congrArg (fun t => t.set d v) h.rest, h.saved⟩

theorem Pushed.mask (h : Pushed c rs s) (b : Bool) : Pushed c rs { s with primask := b } :=
  ⟨congrArg (fun t => { t with primask := b }) h.rest, h.saved⟩

/-- Before the operation, only others have written. -/
def Untouched (E : MemStep) (c : Cpu) (rs : List Reg) (m : Word → Word) : Prop :=
  ReflTransGen E (outside c.sp rs.length c.mem) (outside c.sp rs.length m)

theorem Untouched.later (h : Untouched E c rs s.mem) (hl : Later E rs.length c.sp s s') :
    Untouched E c rs s'.mem := ReflTransGen.trans h hl.steps

variable (rs m) in
/-- **The way in**: the registers are pushed, the mask is read into `m`, the interrupts are
    masked. -/
theorem masked_enter (h0 : code[0]? = some (.push rs)) (h1 : code[1]? = some .dmb)
    (h2 : code[2]? = some (.mrs m .primask)) (h3 : code[3]? = some .cpsid)
    (hn : 4 * rs.length < 2 ^ 32)
    (h : Ends exec code NoCall (Interrupted E rs.length c.sp) (.before 0 c) q) :
    ∃ s, Pushed c rs s ∧ s.r = update c.r m (if c.primask then 1#32 else 0#32) ∧
      s.primask = true ∧ Untouched E c rs s.mem ∧
      Ends exec code NoCall (Interrupted E rs.length c.sp) (.before 4 s) q := by
  have hlen : 4 * (rs.map c.r).length ≤ 2 ^ 32 := by
    rw [List.length_map]
    exact Nat.le_of_lt hn
  -- before the push the stack pointer is the caller's, and no word of the block is kept
  obtain ⟨s0, e0, h⟩ := h.instr
  have l0 := later_of e0
  have p0 : Pushed c rs (s0.pushWords (rs.map s0.r)) := by
    rw [l0.rest, Cpu.pushWords_map]
    refine ⟨rfl, ?_⟩
    have := loadWords_storeWords (m := s0.mem) (a := c.below rs.length) hlen
    rwa [List.length_map] at this
  -- what is pushed is not seen by the others
  have u0 : Untouched E c rs (s0.pushWords (rs.map s0.r)).mem := by
    have hout : outside c.sp rs.length (storeWords s0.mem (c.below rs.length) (rs.map c.r)) =
        outside c.sp rs.length s0.mem := hide_congr fun x hx =>
      storeWords_out hlen (by rwa [List.length_map])
    have hsteps := l0.steps
    rw [← hout] at hsteps
    rw [l0.rest, Cpu.pushWords_map]
    exact hsteps
  rw [execAt_of h0] at h
  obtain ⟨s1, e1, h⟩ := Ends.instr h
  rw [execAt_of h1] at h
  have l1 := later_of e1
  obtain ⟨s2, e2, h⟩ := Ends.instr h
  rw [execAt_of h2] at h
  have l2 := later_of e2
  have p2 := (p0.later hn l1).later hn l2
  have u2 := (u0.later l1).later l2
  obtain ⟨s3, e3, h⟩ := Ends.instr h
  rw [execAt_of h3] at h
  have l3 := later_of e3
  have p3 := (p2.set m (Special.read s2 .primask)).later hn l3
  have u3 : Untouched E c rs s3.mem := Untouched.later (s := s2.set m _) u2 l3
  refine ⟨_, p3.mask true, ?_, rfl, u3, h⟩
  have hr : s2.r = c.r := l2.r.trans (l1.r.trans l0.r)
  have hp : s2.primask = c.primask := l2.primask.trans (l1.primask.trans l0.primask)
  have h3 : s3.r = update s2.r m (if s2.primask then 1#32 else 0#32) := l3.r
  rwa [hr, hp] at h3

/-- What the caller gets back: only r0 and r1 and the flags may differ. -/
structure Back (c : Cpu) (r : Reg → Word) (c' : Cpu) : Prop where
  rest : c' = { c with r := r, pc := c.lr, psr := c'.psr, monitor := c'.monitor, mem := c'.mem }

/-- With the interrupts masked, nothing comes between two instructions. -/
theorem not_interrupted (h : s.primask = true) (s' : Cpu) : ¬ Interrupted E n top s s' :=
    fun hd => by
  have := hd.unmasked
  rw [h] at this
  cases this

/-- **The way out**: the mask is written back from `m`, the registers are popped. -/
theorem masked_leave (h0 : code[pc]? = some (.msr .primask m)) (h1 : code[pc + 1]? = some (.pop rs))
    (h2 : code[pc + 1 + 1]? = some .bx) (hn : 4 * rs.length < 2 ^ 32) (hp : Pushed c rs s)
    (hm : s.r m = if c.primask then 1#32 else 0#32) (hmask : s.primask = true)
    (h : Ends exec code NoCall (Interrupted E rs.length c.sp) (.before pc s) q) :
    ∃ c', q = .left c' ∧ Back c (fun d => if d ∈ rs then c.r d else s.r d) c' ∧
      ReflTransGen E (outside c.sp rs.length s.mem) (outside c.sp rs.length c'.mem) := by
  have hbit : (s.r m).getLsbD 0 = c.primask := by
    rw [hm]
    cases c.primask with
    | true => rfl
    | false => rfl
  have h := h.still (not_interrupted hmask)
  rw [execAt_of h0] at h
  have p0 := hp.mask ((s.r m).getLsbD 0)
  obtain ⟨s1, e1, h⟩ := Ends.instr h
  have l1 := later_of e1
  have p1 := p0.later hn l1
  have hact : s1.active = c.active := by
    rw [p1.rest]
    rfl
  have hpop := exec_pop rs hact (congrArg Cpu.sps p1.rest) p1.saved
  rw [execAt_of h1, hpop] at h
  obtain ⟨s2, e2, h⟩ := Ends.instr h
  have l2 := later_of e2
  rw [execAt_of h2] at h
  refine ⟨_, h.left, ⟨?_⟩, l1.steps.trans l2.steps⟩
  have hr : s1.r = s.r := l1.r
  have hpm : s1.primask = (s.r m).getLsbD 0 := l1.primask
  rw [l2.rest, p1.rest, hr, hpm, hbit]

/-- An instruction with the interrupts masked. -/
theorem masked_step {i : Instr} (h : Ends exec code NoCall (Interrupted E n top) (.before pc s) q)
    (hmask : s.primask = true) (hi : code[pc]? = some i) (he : exec i s = .next s') :
    Ends exec code NoCall (Interrupted E n top) (.before (pc + 1) s') q := by
  have h := h.still (not_interrupted hmask)
  rwa [execAt_of hi, he] at h

theorem masked_bne {l : Nat} {b : Bool}
    (h : Ends exec code NoCall (Interrupted E n top) (.before pc s) q) (hmask : s.primask = true)
    (hi : code[pc]? = some (.bne l)) (hz : s.z = b) :
    Ends exec code NoCall (Interrupted E n top) (.before (if b then pc + 1 else l) s) q := by
  have h := h.still (not_interrupted hmask)
  rw [execAt_of hi, exec, hz] at h
  cases b with
  | true => exact h
  | false => exact h

theorem Pushed.store (h : Pushed c rs s) (hn : 4 * rs.length < 2 ^ 32)
    (hx : ¬ InBlock (c.below rs.length) rs.length x) (w : Word) :
    Pushed c rs { s with mem := update s.mem x w } := by
  refine ⟨congrArg (fun t => { t with mem := update t.mem x w }) h.rest, ?_⟩
  rw [← h.saved]
  refine loadWords_congr (Nat.le_of_lt hn) fun a ha => ?_
  have hne : a ≠ x := fun e => hx (e ▸ ha)
  exact Function.update_of_ne hne w s.mem

end Maske

/-- **The operation as a caller sees it**: r0 is the value found, only r1 and the flags may differ
    otherwise, and but for the `n` words below the stack pointer, all that happened to the memory
    was done by others, except for the one moment at the cell. -/
structure Performs (E : MemStep) (op : AtomicOp) (n : Nat) (c c' : Cpu) : Prop where
  rest : c' = { c with
    r := c'.r, pc := c.lr, psr := c'.psr, monitor := c'.monitor, mem := c'.mem }
  kept : ∀ d, d ≠ .r0 → d ≠ .r1 → c'.r d = c.r d
  atomic : Atomic E op (c.r .r1) (c.r .r2) (c.r .r0) (outside c.sp n c.mem) (outside c.sp n c'.mem)
    (c'.r .r0)

theorem sub_eq_zero_word {x y : Word} : x - y = 0#32 ↔ x = y := by
  constructor
  · intro h
    bv_omega
  · rintro rfl
    exact BitVec.sub_self x

/-- The part with the interrupts masked, from `s` to `t`, for the operation with the cell `p` and
    the arguments `x` and `y`. -/
structure Critical (op : AtomicOp) (x y p : Word) (s t : Cpu) : Prop where
  rest : t = { s with
    r := t.r, psr := t.psr, mem := update s.mem p (op.stores x y (s.mem p)) }
  r0 : t.r .r0 = s.mem p
  kept : ∀ d, d ∉ [Reg.r0, .r1, .r3] → t.r d = s.r d

section Kritisch

variable {x y p : Word} {q : Point Fn Cpu}

theorem hwCpuAtomicSwap6_critical (ha : Aligned p) (hm : s.primask = true) (h0 : s.r .r0 = p)
    (h1 : s.r .r1 = x)
    (h : Ends exec hwCpuAtomicSwap6 NoCall (Interrupted E n top) (.before 4 s) q) :
    ∃ t, Critical .swap x y p s t ∧
      Ends exec hwCpuAtomicSwap6 NoCall (Interrupted E n top) (.before 8 t) q := by
  subst h0 h1
  have h := masked_step (i := .ldr .r3 .r0) h hm rfl (if_pos ha)
  have h := masked_step (i := .str .r1 .r0) h hm rfl (if_pos ha)
  have h := masked_step (i := .mov .r0 .r3) h hm rfl rfl
  have h := masked_step (i := .dmb) h hm rfl rfl
  refine ⟨_, ⟨?_, ?_, fun d hd => ?_⟩, h⟩
  · simp [Cpu.set, AtomicOp.stores]
  · simp [Cpu.set]
  · simp only [List.mem_cons, List.not_mem_nil, or_false, not_or] at hd
    simp [Cpu.set, hd]

theorem hwCpuAtomicAdd6_critical (ha : Aligned p) (hm : s.primask = true) (h0 : s.r .r0 = p)
    (h1 : s.r .r1 = x)
    (h : Ends exec hwCpuAtomicAdd6 NoCall (Interrupted E n top) (.before 4 s) q) :
    ∃ t, Critical .add x y p s t ∧
      Ends exec hwCpuAtomicAdd6 NoCall (Interrupted E n top) (.before 9 t) q := by
  subst h0 h1
  have h := masked_step (i := .ldr .r3 .r0) h hm rfl (if_pos ha)
  have h := masked_step (i := .add .r1 .r1 .r3) h hm rfl rfl
  have h := masked_step (i := .str .r1 .r0) h hm rfl (if_pos ha)
  have h := masked_step (i := .mov .r0 .r3) h hm rfl rfl
  have h := masked_step (i := .dmb) h hm rfl rfl
  refine ⟨_, ⟨?_, ?_, fun d hd => ?_⟩, h⟩
  · simp [Cpu.set, AtomicOp.stores]
  · simp [Cpu.set]
  · simp only [List.mem_cons, List.not_mem_nil, or_false, not_or] at hd
    simp [Cpu.set, hd]

theorem hwCpuAtomicCas6_critical (ha : Aligned p) (hm : s.primask = true) (h0 : s.r .r0 = p)
    (h1 : s.r .r1 = x) (h2 : s.r .r2 = y)
    (h : Ends exec hwCpuAtomicCas6 NoCall (Interrupted E n top) (.before 4 s) q) :
    ∃ t, Critical .cas x y p s t ∧
      Ends exec hwCpuAtomicCas6 NoCall (Interrupted E n top) (.before 10 t) q := by
  subst h0 h1 h2
  have h := masked_step (i := .ldr .r3 .r0) h hm rfl (if_pos ha)
  have h := masked_step (i := .cmp .r3 .r1) h hm rfl rfl
  by_cases he : s.mem (s.r .r0) = s.r .r1
  · have hz : (s.mem (s.r .r0) - s.r .r1 == 0#32) = true := beq_iff_eq.mpr (sub_eq_zero_word.mpr he)
    have h := masked_bne (l := 8) h hm rfl ((Cpu.z_subFlags _ _).trans hz)
    have h := masked_step (i := .str .r2 .r0) h hm rfl (if_pos ha)
    have h := masked_step (i := .dmb) h hm rfl rfl
    have h := masked_step (i := .mov .r0 .r3) h hm rfl rfl
    refine ⟨_, ⟨?_, ?_, fun d hd => ?_⟩, h⟩
    · simp [Cpu.set, AtomicOp.stores, he]
    · simp [Cpu.set]
    · simp only [List.mem_cons, List.not_mem_nil, or_false, not_or] at hd
      simp [Cpu.set, hd]
  · have hz : (s.mem (s.r .r0) - s.r .r1 == 0#32) = false :=
      beq_eq_false_iff_ne.mpr fun e => he (sub_eq_zero_word.mp e)
    have h := masked_bne (l := 8) h hm rfl ((Cpu.z_subFlags _ _).trans hz)
    have h := masked_step (i := .dmb) h hm rfl rfl
    have h := masked_step (i := .mov .r0 .r3) h hm rfl rfl
    refine ⟨_, ⟨?_, ?_, fun d hd => ?_⟩, h⟩
    · simp [Cpu.set, AtomicOp.stores, he, Function.update_eq_self]
    · simp [Cpu.set]
    · simp only [List.mem_cons, List.not_mem_nil, or_false, not_or] at hd
      simp [Cpu.set, hd]

variable {op : AtomicOp} {rs : List Reg} {m : Reg} {code : List Instr} {k : Nat} {t : Cpu}

variable (rs m) in
/-- The three parts of a call together; `m` holds the mask, and r3 is among the pushed registers. -/
theorem Critical.performs (hcrit : Critical op (c.r .r1) (c.r .r2) (c.r .r0) s t)
    (hn : 4 * rs.length < 2 ^ 32) (hmrs : m ∈ rs) (hm3 : m ∉ [Reg.r0, .r1, .r3]) (hr3 : .r3 ∈ rs)
    (hr0 : .r0 ∉ rs) (hb : ¬ InBlock (c.below rs.length) rs.length (c.r .r0))
    (hp : Pushed c rs s) (hr : s.r = update c.r m (if c.primask then 1#32 else 0#32))
    (hm : s.primask = true) (hu : Untouched E c rs s.mem)
    (h0 : code[k]? = some (.msr .primask m)) (h1 : code[k + 1]? = some (.pop rs))
    (h2 : code[k + 1 + 1]? = some .bx)
    (h : Ends exec code NoCall (Interrupted E rs.length c.sp) (.before k t) q) :
    ∃ c', q = .left c' ∧ Performs E op rs.length c c' := by
  have ht : Pushed c rs t := by
    obtain ⟨hrest, hsaved⟩ := hp.store hn hb (op.stores (c.r .r1) (c.r .r2) (s.mem (c.r .r0)))
    refine ⟨?_, ?_⟩
    · rw [hcrit.rest]
      exact congrArg (fun u : Cpu => { u with r := t.r, psr := t.psr }) hrest
    · rw [hcrit.rest]
      exact hsaved
  have hmask : t.r m = if c.primask then 1#32 else 0#32 := by
    rw [hcrit.kept m hm3, hr, Function.update_self]
  have hpm : t.primask = true := by
    rw [hcrit.rest]
    exact hm
  have hmem : t.mem = update s.mem (c.r .r0) (op.stores (c.r .r1) (c.r .r2) (s.mem (c.r .r0))) := by
    rw [hcrit.rest]
  obtain ⟨c', hq, ⟨hrest⟩, hw⟩ := masked_leave h0 h1 h2 hn ht hmask hpm h
  have hcr (d : Reg) : c'.r d = if d ∈ rs then c.r d else t.r d := by rw [hrest]
  have he : c'.r .r0 = s.mem (c.r .r0) := by rw [hcr, if_neg hr0, hcrit.r0]
  refine ⟨c', hq, ⟨?_, fun d hd0 hd1 => ?_, outside c.sp rs.length s.mem, hu, ?_, ?_⟩⟩
  · rw [hrest]
  · rw [hcr]
    by_cases hd : d ∈ rs
    · exact if_pos hd
    · have hd3 : d ≠ .r3 := fun e => hd (e ▸ hr3)
      have hdm : d ≠ m := fun e => hd (e ▸ hmrs)
      have hne : d ∉ [Reg.r0, .r1, .r3] := by simp [hd0, hd1, hd3]
      rw [if_neg hd, hcrit.kept d hne, hr, Function.update_of_ne hdm]
  · rw [he]
    exact hide_out hb
  · rw [hmem, outside, hide_update hb] at hw
    rwa [he]

end Kritisch

def hwCpuAtomic6 : AtomicOp → List Instr
  | .swap => hwCpuAtomicSwap6
  | .add => hwCpuAtomicAdd6
  | .cas => hwCpuAtomicCas6

/-- **The operations of ARMv6-M are atomic**, and a call of them never faults. -/
theorem hwCpuAtomic6_performs (op : AtomicOp) (ha : Aligned (c.r .r0))
    (hb : ¬ InBlock (c.below 2) 2 (c.r .r0)) {q : Point Fn Cpu}
    (h : Ends exec (hwCpuAtomic6 op) NoCall (Interrupted E 2 c.sp) (.before 0 c) q) :
    ∃ c', q = .left c' ∧ Performs E op 2 c c' := by
  cases op with
  | swap =>
    obtain ⟨s, hp, hr, hm, hu, h⟩ :=
      masked_enter [.r2, .r3] .r2 rfl rfl rfl rfl (by decide) h
    obtain ⟨t, hcrit, h⟩ := hwCpuAtomicSwap6_critical (x := c.r .r1) (y := c.r .r2) ha hm
      (by rw [hr]; rfl) (by rw [hr]; rfl) h
    exact hcrit.performs [.r2, .r3] .r2 (by decide) (by decide) (by decide)
      (by decide) (by decide) hb hp hr hm hu rfl rfl rfl h
  | add =>
    obtain ⟨s, hp, hr, hm, hu, h⟩ :=
      masked_enter [.r2, .r3] .r2 rfl rfl rfl rfl (by decide) h
    obtain ⟨t, hcrit, h⟩ := hwCpuAtomicAdd6_critical (x := c.r .r1) (y := c.r .r2) ha hm
      (by rw [hr]; rfl) (by rw [hr]; rfl) h
    exact hcrit.performs [.r2, .r3] .r2 (by decide) (by decide) (by decide)
      (by decide) (by decide) hb hp hr hm hu rfl rfl rfl h
  | cas =>
    obtain ⟨s, hp, hr, hm, hu, h⟩ :=
      masked_enter [.r3, .r4] .r4 rfl rfl rfl rfl (by decide) h
    obtain ⟨t, hcrit, h⟩ := hwCpuAtomicCas6_critical (x := c.r .r1) (y := c.r .r2) ha hm
      (by rw [hr]; rfl) (by rw [hr]; rfl) (by rw [hr]; rfl) h
    exact hcrit.performs [.r3, .r4] .r4 (by decide) (by decide) (by decide)
      (by decide) (by decide) hb hp hr hm hu rfl rfl rfl h

/-! ## 3. ARMv7-M: the store fails if an exception came in between -/

def hwCpuAtomicSwap7 : List Instr :=
  [.push [.r1, .r2, .r3],
   .dmb,
   -- hw_cpu_atomic_swap_1
   .ldrex .r2 .r0,
   .strex .r3 .r1 .r0,
   .cmpImm .r3 1#32,
   .beq 2,
   .clrex,
   .dmb,
   .mov .r0 .r2,
   .pop [.r1, .r2, .r3],
   .bx]

def hwCpuAtomicAdd7 : List Instr :=
  [.push [.r1, .r2, .r3, .r4],
   .dmb,
   -- hw_cpu_atomic_add_1
   .ldrex .r2 .r0,
   .add .r4 .r2 .r1,
   .strex .r3 .r4 .r0,
   .cmpImm .r3 1#32,
   .beq 2,
   .clrex,
   .dmb,
   .mov .r0 .r2,
   .pop [.r1, .r2, .r3, .r4],
   .bx]

def hwCpuAtomicCas7 : List Instr :=
  [.push [.r1, .r2, .r3, .r4],
   .dmb,
   -- hw_cpu_atomic_cas_1
   .ldrex .r3 .r0,
   .cmp .r3 .r1,
   .cond false .clrex,
   .cond false (.mov .r0 .r3),
   .bne 12,
   .strex .r4 .r2 .r0,
   .teqImm .r4 0#32,
   .cond true (.mov .r0 .r3),
   .beq 12,
   .b 2,
   -- hw_cpu_atomic_cas_2
   .dmb,
   .pop [.r1, .r2, .r3, .r4],
   .bx]

section Exklusiv

variable {rs ks : List Reg} {op : AtomicOp} {v : Word}

/-- What holds all the way, once the registers are pushed. -/
structure Base (c : Cpu) (rs : List Reg) (s : Cpu) : Prop where
  pushed : Pushed c rs s
  primask : s.primask = c.primask
  regs : ∀ d, d ∉ rs → d ≠ .r0 → s.r d = c.r d

/-- The arguments `ks` are in place, and only others have written. -/
structure Ready (E : MemStep) (c : Cpu) (rs ks : List Reg) (s : Cpu) : Prop where
  base : Base c rs s
  args : ∀ d, d ∈ ks → s.r d = c.r d
  untouched : Untouched E c rs s.mem

/-- `v` was found at one moment `m1`; as long as the monitor is held, the cell has not changed
    since. -/
structure Loaded (E : MemStep) (c : Cpu) (rs ks : List Reg) (v : Word) (s : Cpu) : Prop where
  base : Base c rs s
  args : ∀ d, d ∈ ks → s.r d = c.r d
  found : ∃ m1, ReflTransGen E (outside c.sp rs.length c.mem) m1 ∧ m1 (c.r .r0) = v ∧
    ReflTransGen E m1 (outside c.sp rs.length s.mem)
  held : s.monitor = true → s.mem (c.r .r0) = v

/-- The operation has taken place where `v` was found. -/
structure Done (E : MemStep) (c : Cpu) (rs : List Reg) (op : AtomicOp) (v : Word) (s : Cpu) :
    Prop where
  base : Base c rs s
  atomic : Atomic E op (c.r .r1) (c.r .r2) (c.r .r0) (outside c.sp rs.length c.mem)
    (outside c.sp rs.length s.mem) v

/-- The store was tried. -/
def Tried (E : MemStep) (c : Cpu) (rs ks : List Reg) (op : AtomicOp) (v : Word) (failed : Bool)
    (s : Cpu) : Prop :=
  if failed then Ready E c rs ks s else Done E c rs op v s

/-! What interrupts leave as it is. -/

theorem Base.later (h : Base c rs s) (hn : 4 * rs.length < 2 ^ 32)
    (hl : Later E rs.length c.sp s s') : Base c rs s' :=
  ⟨h.pushed.later hn hl, hl.primask.trans h.primask,
    fun d hd h0 => (congrFun hl.r d).trans (h.regs d hd h0)⟩

theorem Ready.later (h : Ready E c rs ks s) (hn : 4 * rs.length < 2 ^ 32)
    (hl : Later E rs.length c.sp s s') : Ready E c rs ks s' :=
  ⟨h.base.later hn hl, fun d hd => (congrFun hl.r d).trans (h.args d hd), h.untouched.later hl⟩

theorem Loaded.interrupted (h : Loaded E c rs ks v s) (hn : 4 * rs.length < 2 ^ 32)
    (hi : Interrupted E rs.length c.sp s s') : Loaded E c rs ks v s' := by
  obtain ⟨m1, hbefore, hv, hsince⟩ := h.found
  refine ⟨h.base.later hn hi.later, fun d hk => ?_, ⟨m1, hbefore, hv, ?_⟩, ?_⟩
  · exact (congrFun hi.later.r d).trans (h.args d hk)
  · exact hsince.tail hi.step
  · rw [hi.rest]
    exact fun e => (Bool.false_ne_true e).elim

theorem Done.later (h : Done E c rs op v s) (hn : 4 * rs.length < 2 ^ 32)
    (hl : Later E rs.length c.sp s s') : Done E c rs op v s' := by
  obtain ⟨m1, hbefore, hv, hafter⟩ := h.atomic
  exact ⟨h.base.later hn hl, m1, hbefore, hv, hafter.trans hl.steps⟩

theorem Tried.later {b : Bool} (h : Tried E c rs ks op v b s) (hn : 4 * rs.length < 2 ^ 32)
    (hl : Later E rs.length c.sp s s') : Tried E c rs ks op v b s' := by
  cases b with
  | true => exact Ready.later h hn hl
  | false => exact Done.later h hn hl

/-! What the instructions do. -/

/-- An instruction that changes registers of the function, the flags, the monitor and the cell at
    most. -/
theorem Base.instr (h : Base c rs s) (hn : 4 * rs.length < 2 ^ 32)
    (hb : ¬ InBlock (c.below rs.length) rs.length (c.r .r0))
    (hrest : s' = { s with r := s'.r, psr := s'.psr, monitor := s'.monitor, mem := s'.mem })
    (hr : ∀ d, d ∉ rs → d ≠ .r0 → s'.r d = s.r d) (hm : ∀ x, x ≠ c.r .r0 → s'.mem x = s.mem x) :
    Base c rs s' := by
  refine ⟨⟨?_, ?_⟩, ?_, fun d hd h0 => (hr d hd h0).trans (h.regs d hd h0)⟩
  · rw [hrest, h.pushed.rest]
  · rw [← h.pushed.saved]
    exact loadWords_congr (Nat.le_of_lt hn) fun x hx => hm x fun e => hb (e ▸ hx)
  · rw [hrest]
    exact h.primask

/-- A register of one kind written, one of the other kind read. -/
theorem Cpu.set_out {ds : List Reg} {d e : Reg} (w : Word) (hd : d ∈ ds) (he : e ∉ ds) :
    (s.set d w).r e = s.r e := by
  exact s.set_ne w fun x => he (x ▸ hd)

theorem Cpu.set_in {ds : List Reg} {d e : Reg} (w : Word) (hd : d ∉ ds) (he : e ∈ ds) :
    (s.set d w).r e = s.r e := by
  exact s.set_ne w fun x => hd (x ▸ he)

theorem Later.pushed (hl : Later E rs.length c.sp c s) (hn : 4 * rs.length < 2 ^ 32) :
    Ready E c rs ks (s.pushWords (rs.map s.r)) := by
  have hlen : 4 * (rs.map c.r).length ≤ 2 ^ 32 := by
    rw [List.length_map]
    exact Nat.le_of_lt hn
  have hout : outside c.sp rs.length (storeWords s.mem (c.below rs.length) (rs.map c.r)) =
      outside c.sp rs.length s.mem := hide_congr fun x hx =>
    storeWords_out hlen (by rwa [List.length_map])
  have hsaved := loadWords_storeWords (m := s.mem) (a := c.below rs.length) hlen
  rw [List.length_map] at hsaved
  have hsteps := hl.steps
  rw [← hout] at hsteps
  rw [hl.rest, Cpu.pushWords_map]
  exact ⟨⟨⟨rfl, hsaved⟩, rfl, fun _ _ _ => rfl⟩, fun _ _ => rfl, hsteps⟩

theorem Ready.ldrex (h : Ready E c rs ks s) (hn : 4 * rs.length < 2 ^ 32)
    (hb : ¬ InBlock (c.below rs.length) rs.length (c.r .r0)) {d : Reg} (hd : d ∈ rs) (hk : d ∉ ks) :
    Loaded E c rs ks (s.mem (c.r .r0)) { s.set d (s.mem (c.r .r0)) with monitor := true } := by
  refine ⟨h.base.instr hn hb rfl (fun e he _ => ?_) fun _ _ => rfl, fun e he => ?_,
    ⟨_, h.untouched, hide_out hb, .refl⟩, fun _ => rfl⟩
  · exact Cpu.set_out _ hd he
  · exact (Cpu.set_in _ hk he).trans (h.args e he)

theorem Ready.flags (h : Ready E c rs ks s) (w : Word) : Ready E c rs ks { s with psr := w } :=
  ⟨⟨⟨congrArg (fun t => { t with psr := w }) h.base.pushed.rest, h.base.pushed.saved⟩,
    h.base.primask, h.base.regs⟩, h.args, h.untouched⟩

theorem Done.flags (h : Done E c rs op v s) (w : Word) (b : Bool) :
    Done E c rs op v { s with psr := w, monitor := b } :=
  ⟨⟨⟨congrArg (fun t => { t with psr := w, monitor := b }) h.base.pushed.rest,
    h.base.pushed.saved⟩, h.base.primask, h.base.regs⟩, h.atomic⟩

theorem Tried.flags {b : Bool} (h : Tried E c rs ks op v b s) (w : Word) :
    Tried E c rs ks op v b { s with psr := w } := by
  cases b with
  | true => exact Ready.flags h w
  | false => exact Done.flags h w s.monitor

/-- The value found goes to r0. -/
theorem Done.result (h : Done E c rs op v s) (w : Word) : Done E c rs op v (s.set .r0 w) :=
  ⟨⟨h.base.pushed.set .r0 w, h.base.primask,
    fun d hd h0 => (s.set_ne w h0).trans (h.base.regs d hd h0)⟩, h.atomic⟩

/-- The store takes place only if the monitor is still held, and the cell is then as it was loaded:
    this is the moment. -/
theorem Loaded.strex (h : Loaded E c rs ks v s) (hn : 4 * rs.length < 2 ^ 32)
    (hb : ¬ InBlock (c.below rs.length) rs.length (c.r .r0)) {d m : Reg} (hd : d ∈ rs)
    (hk : d ∉ ks) (h0 : s.r .r0 = c.r .r0) (ha : Aligned (c.r .r0))
    (hm : s.r m = op.stores (c.r .r1) (c.r .r2) v) :
    ∃ s', exec (.strex d m .r0) s = .next s' ∧
      (∃ b : Bool, s'.r d = (if b then 1#32 else 0#32) ∧ Tried E c rs ks op v b s') ∧
      ∀ e, e ≠ d → s'.r e = s.r e := by
  obtain ⟨m1, hbefore, _, hsince⟩ := h.found
  have hrun := hbefore.trans hsince
  rw [exec, h0, if_pos ha]
  cases hmon : s.monitor with
  | true =>
    have hv := h.held hmon
    refine ⟨_, if_pos rfl, ⟨false, Function.update_self d _ s.r, ?_⟩,
      fun e he => Function.update_of_ne he _ s.r⟩
    refine ⟨h.base.instr hn hb rfl (fun e he _ => ?_) fun x hx => ?_, _, hrun, ?_, ?_⟩
    · exact Cpu.set_out _ hd he
    · exact Function.update_of_ne hx _ s.mem
    · exact (hide_out hb).trans hv
    · have hstore : outside c.sp rs.length (update s.mem (c.r .r0) (s.r m)) =
          update (outside c.sp rs.length s.mem) (c.r .r0)
            (op.stores (c.r .r1) (c.r .r2) v) := by
        rw [outside, hide_update hb, hm]
      exact hstore ▸ .refl
  | false =>
    refine ⟨_, if_neg Bool.false_ne_true, ⟨true, Function.update_self d _ s.r, ?_⟩,
      fun e he => Function.update_of_ne he _ s.r⟩
    refine ⟨h.base.instr hn hb rfl (fun e he _ => ?_) fun _ _ => rfl, fun e he => ?_, hrun⟩
    · exact Cpu.set_out _ hd he
    · exact (Cpu.set_in _ hk he).trans (h.args e he)

/-- The registers are popped; what is left is the return. -/
def Popped (E : MemStep) (op : AtomicOp) (n : Nat) (c s : Cpu) : Prop :=
  Performs E op n c { s with pc := c.lr }

theorem Done.pop (h : Done E c rs op v s) (h0 : s.r .r0 = v) (hr0 : .r0 ∉ rs) :
    ∃ s', exec (.pop rs) s = .next s' ∧ Popped E op rs.length c s' := by
  have hact : s.active = c.active := by
    rw [h.base.pushed.rest]
    rfl
  refine ⟨_, exec_pop rs hact (congrArg Cpu.sps h.base.pushed.rest) h.base.pushed.saved,
    ⟨?_, fun d h0 _ => ?_, ?_⟩⟩
  · have hpm := h.base.primask
    rw [h.base.pushed.rest] at hpm ⊢
    rw [hpm]
  · by_cases hd : d ∈ rs
    · exact if_pos hd
    · exact (if_neg hd).trans (h.base.regs d hd h0)
  · have he : (if Reg.r0 ∈ rs then c.r .r0 else s.r .r0) = v := (if_neg hr0).trans h0
    have hat := h.atomic
    rw [← he] at hat
    exact hat

theorem Popped.later (h : Popped E op n c s) (hl : Later E n c.sp s s') : Popped E op n c s' := by
  have hr : s'.r = s.r := hl.r
  obtain ⟨m1, hbefore, hv, hafter⟩ := h.atomic
  refine ⟨?_, fun d h0 h1 => (congrFun hr d).trans (h.kept d h0 h1), m1, hbefore, ?_, ?_⟩
  · have hs := congrArg (fun t => { t with monitor := s'.monitor, mem := s'.mem }) h.rest
    rw [hl.rest]
    exact hs
  · exact hv.trans (congrFun hr .r0).symm
  · have hafter := hafter.trans hl.steps
    rw [show ({ s with pc := c.lr } : Cpu).r .r0 = s'.r .r0 from (congrFun hr .r0).symm] at hafter
    exact hafter

theorem Popped.back (h : Popped E op n c s) : Performs E op n c { s with pc := s.lr } := by
  have hlr := congrArg Cpu.lr h.rest
  have he : ({ s with pc := s.lr } : Cpu) = { s with pc := c.lr } :=
    congrArg (fun w => { s with pc := w }) hlr
  rw [he]
  exact h

/-! What holds before an instruction. The registers named hold the value loaded (`d`), the value to
store (`m`) and the outcome of the store (`f`). -/

inductive Phase where
  | entry
  | ready
  | loaded (d : Reg)
  | prepared (d m : Reg)
  -- Z: the comparison was successful
  | compared (d : Reg)
  | decided (d : Reg)
  | tried (d f : Reg)
  -- Z has the value `b` if the store failed
  | tested (d : Reg) (b : Bool)
  -- Z: the store took place, and the result is in r0
  | returned
  | done (d : Reg)
  | popped
  deriving DecidableEq, Repr

def Phase.Holds (E : MemStep) (c : Cpu) (rs ks : List Reg) (op : AtomicOp)
    (s : Cpu) : Phase → Prop
  | .entry => Later E rs.length c.sp c s
  | .ready => Ready E c rs ks s
  | .loaded d => Loaded E c rs ks (s.r d) s
  | .prepared d m =>
    Loaded E c rs ks (s.r d) s ∧ s.r m = op.stores (c.r .r1) (c.r .r2) (s.r d)
  | .compared d => Loaded E c rs ks (s.r d) s ∧ s.z = decide (s.r d = c.r .r1)
  | .decided d =>
    if s.z then Loaded E c rs ks (s.r d) s ∧ s.r d = c.r .r1 else Done E c rs op (s.r .r0) s
  | .tried d f => ∃ b : Bool, s.r f = (if b then 1#32 else 0#32) ∧ Tried E c rs ks op (s.r d) b s
  | .tested d b => Tried E c rs ks op (s.r d) (s.z == b) s
  | .returned => if s.z then Done E c rs op (s.r .r0) s else Ready E c rs ks s
  | .done d => Done E c rs op (s.r d) s
  | .popped => Popped E op rs.length c s

/-- Interrupts leave every one of them as it is. -/
theorem Phase.Holds.interrupted {ph : Phase} (h : ph.Holds E c rs ks op s)
    (hn : 4 * rs.length < 2 ^ 32) (hd : Interrupted E rs.length c.sp s s') :
    ph.Holds E c rs ks op s' := by
  have hl := hd.later
  have hr := congrFun hl.r
  have hz := hl.z
  cases ph with
  | entry => exact Later.trans h hl
  | ready => exact Ready.later h hn hl
  | loaded d =>
    rw [Phase.Holds, hr]
    exact Loaded.interrupted h hn hd
  | prepared d m =>
    rw [Phase.Holds, hr, hr]
    exact h.imp_left fun h => h.interrupted hn hd
  | compared d =>
    rw [Phase.Holds, hr, hz]
    exact h.imp_left fun h => h.interrupted hn hd
  | decided d =>
    rw [Phase.Holds] at h ⊢
    rw [hr, hr, hz]
    cases hs : s.z with
    | true =>
      rw [hs] at h
      exact And.imp_left (fun h => Loaded.interrupted h hn hd) h
    | false =>
      rw [hs] at h
      exact Done.later h hn hl
  | tried d f =>
    rw [Phase.Holds, hr, hr]
    exact h.imp fun b hb => hb.imp_right fun h => h.later hn hl
  | tested d b =>
    rw [Phase.Holds, hr, hz]
    exact Tried.later h hn hl
  | returned =>
    rw [Phase.Holds] at h ⊢
    rw [hr, hz]
    cases hs : s.z with
    | true =>
      rw [hs] at h
      exact Done.later h hn hl
    | false =>
      rw [hs] at h
      exact Ready.later h hn hl
  | done d =>
    rw [Phase.Holds, hr]
    exact Done.later h hn hl
  | popped => exact Popped.later h hl

/-- The assertions of a function, one before each instruction. -/
def asserts (E : MemStep) (c : Cpu) (rs ks : List Reg) (op : AtomicOp)
    (phases : List Phase) (pc : Nat) (s : Cpu) : Prop :=
  phases[pc]?.elim False fun ph => ph.Holds E c rs ks op s

/-! The steps from one phase to the next. -/

theorem Ready.load (h : Ready E c rs ks s) (hn : 4 * rs.length < 2 ^ 32)
    (hb : ¬ InBlock (c.below rs.length) rs.length (c.r .r0)) (ha : Aligned (c.r .r0)) {d : Reg}
    (hd : d ∈ rs) (hk : d ∉ ks) (h0 : .r0 ∈ ks) :
    ∃ s', exec (.ldrex d .r0) s = .next s' ∧ Loaded E c rs ks (s'.r d) s' := by
  have hl := h.ldrex hn hb hd hk
  rw [exec, h.args .r0 h0, if_pos ha]
  refine ⟨_, rfl, ?_⟩
  rw [show Cpu.r _ d = s.mem (c.r .r0) from s.set_self d _]
  exact hl

/-- The outcome of a store, tested by a comparison with one. -/
theorem tested_one {d f : Reg} (h : (Phase.tried d f).Holds E c rs ks op s) :
    (Phase.tested d true).Holds E c rs ks op
      { s with psr := subFlags (s.r f) 1#32 s.psr } := by
  obtain ⟨b, hf, ht⟩ := h
  have hz : (s.r f - 1#32 == 0#32) = b := by
    rw [hf]
    cases b with
    | true => rfl
    | false => rfl
  show Tried E c rs ks op (s.r d) (Cpu.z _ == true) _
  rw [Cpu.z_subFlags, hz, beq_true]
  exact ht.flags _

theorem beq_tested {d : Reg} (h : (Phase.tested d true).Holds E c rs ks op s) :
    (s.z = true ∧ Ready E c rs ks s) ∨ (s.z = false ∧ Done E c rs op (s.r d) s) := by
  rw [Phase.Holds, beq_true, Tried] at h
  cases hz : s.z with
  | true =>
    rw [hz] at h
    exact .inl ⟨rfl, h⟩
  | false =>
    rw [hz] at h
    exact .inr ⟨rfl, h⟩

theorem prepared_store {d m f : Reg} (h : (Phase.prepared d m).Holds E c rs ks op s)
    (hn : 4 * rs.length < 2 ^ 32) (hb : ¬ InBlock (c.below rs.length) rs.length (c.r .r0))
    (ha : Aligned (c.r .r0)) (hf : f ∈ rs) (hk : f ∉ ks) (hfd : d ≠ f) (h0 : .r0 ∈ ks) :
    ∃ s', exec (.strex f m .r0) s = .next s' ∧ (Phase.tried d f).Holds E c rs ks op s' := by
  obtain ⟨s', hs, ⟨b, h3, ht⟩, hne⟩ := h.1.strex hn hb hf hk (h.1.args .r0 h0) ha h.2
  rw [← hne d hfd] at ht
  exact ⟨s', hs, b, h3, ht⟩

theorem Done.toR0 {d : Reg} (h : Done E c rs op (s.r d) s) :
    Done E c rs op ((s.set .r0 (s.r d)).r .r0) (s.set .r0 (s.r d)) := by
  rw [Cpu.set_self]
  exact h.result _

theorem Loaded.set (h : Loaded E c rs ks v s) {d : Reg} (hd : d ∈ rs) (hk : d ∉ ks) (w : Word) :
    Loaded E c rs ks v (s.set d w) :=
  ⟨⟨h.base.pushed.set d w, h.base.primask,
    fun e he h0 => (Cpu.set_out w hd he).trans (h.base.regs e he h0)⟩,
    fun e he => (Cpu.set_in w hk he).trans (h.args e he), h.found, h.held⟩

theorem Loaded.flags (h : Loaded E c rs ks v s) (w : Word) :
    Loaded E c rs ks v { s with psr := w } :=
  ⟨⟨⟨congrArg (fun t => { t with psr := w }) h.base.pushed.rest, h.base.pushed.saved⟩,
    h.base.primask, h.base.regs⟩, h.args, h.found, h.held⟩

theorem Loaded.drop (h : Loaded E c rs ks v s) : Loaded E c rs ks v { s with monitor := false } :=
  ⟨⟨⟨congrArg (fun t => { t with monitor := false }) h.base.pushed.rest, h.base.pushed.saved⟩,
    h.base.primask, h.base.regs⟩, h.args, h.found,
    fun e => (Bool.false_ne_true e).elim⟩

/-- A comparison that fails is the whole operation: the cell keeps what was found. -/
theorem Loaded.unequal (h : Loaded E c rs ks v s) (hv : v ≠ c.r .r1) : Done E c rs .cas v s := by
  obtain ⟨m1, hbefore, hfound, hsince⟩ := h.found
  refine ⟨h.base, m1, hbefore, hfound, ?_⟩
  have hsame : update m1 (c.r .r0) (AtomicOp.stores (c.r .r1) (c.r .r2) v .cas) = m1 := by
    rw [AtomicOp.stores, if_neg hv, ← hfound]
    exact Function.update_eq_self ..
  rw [hsame]
  exact hsince

theorem asserts_interrupted {phases : List Phase} {pc : Nat}
    (h : asserts E c rs ks op phases pc s) (hn : 4 * rs.length < 2 ^ 32)
    (hd : Interrupted E rs.length c.sp s s') : asserts E c rs ks op phases pc s' := by
  rw [asserts] at h ⊢
  cases hph : phases[pc]? with
  | none =>
    rw [hph] at h
    exact h
  | some ph =>
    rw [hph] at h
    exact Phase.Holds.interrupted h hn hd

/-! The functions with their phases. -/

def swap7Phases : List Phase :=
  [.entry, .ready,
   .ready, .prepared .r2 .r1, .tried .r2 .r3, .tested .r2 true,
   .done .r2, .done .r2, .done .r2, .done .r0, .popped]

def add7Phases : List Phase :=
  [.entry, .ready,
   .ready, .loaded .r2, .prepared .r2 .r4, .tried .r2 .r3, .tested .r2 true,
   .done .r2, .done .r2, .done .r2, .done .r0, .popped]

def cas7Phases : List Phase :=
  [.entry, .ready,
   .ready, .loaded .r3, .compared .r3, .compared .r3, .decided .r3, .prepared .r3 .r2,
   .tried .r3 .r4, .tested .r3 false, .returned, .ready,
   .done .r0, .done .r0, .popped]

theorem swap7_annotated (ha : Aligned (c.r .r0)) (hb : ¬ InBlock (c.below 3) 3 (c.r .r0)) :
    Annotated exec hwCpuAtomicSwap7 NoCall (Interrupted E 3 c.sp)
      (asserts E c [.r1, .r2, .r3] [.r0, .r1] .swap swap7Phases) (fun _ _ _ => False)
      (Performs E .swap 3 c) where
  callee _ _ _ _ h := h.elim
  env pc s s' h hd := asserts_interrupted h (by decide) hd
  instr pc s h := by
    match pc, h with
    | 0, h => exact Later.pushed h (by decide)
    | 1, h => exact h
    | 2, h =>
      obtain ⟨s', hs, hl⟩ := Ready.load h (by decide) hb ha (d := .r2) (by decide) (by decide)
        (by decide)
      rw [execAt_of (i := .ldrex .r2 .r0) rfl, hs]
      exact ⟨hl, hl.args .r1 (by decide)⟩
    | 3, h =>
      obtain ⟨s', hs, ht⟩ := prepared_store (f := .r3) h (by decide) hb ha (by decide) (by decide)
        (by decide) (by decide)
      rw [execAt_of (i := .strex .r3 .r1 .r0) rfl, hs]
      exact ht
    | 4, h => exact tested_one h
    | 5, h =>
      rw [execAt_of (i := .beq 2) rfl, exec]
      obtain ⟨hz, h⟩ | ⟨hz, h⟩ := beq_tested h
      · rw [hz]
        exact h
      · rw [hz]
        exact h
    | 6, h => exact Done.flags h s.psr false
    | 7, h => exact h
    | 8, h => exact Done.toR0 h
    | 9, h =>
      obtain ⟨s', hs, hp⟩ := Done.pop h rfl (by decide)
      rw [execAt_of (i := .pop [.r1, .r2, .r3]) rfl, hs]
      exact hp
    | 10, h => exact Popped.back h

theorem add7_annotated (ha : Aligned (c.r .r0)) (hb : ¬ InBlock (c.below 4) 4 (c.r .r0)) :
    Annotated exec hwCpuAtomicAdd7 NoCall (Interrupted E 4 c.sp)
      (asserts E c [.r1, .r2, .r3, .r4] [.r0, .r1] .add add7Phases) (fun _ _ _ => False)
      (Performs E .add 4 c) where
  callee _ _ _ _ h := h.elim
  env pc s s' h hd := asserts_interrupted h (by decide) hd
  instr pc s h := by
    match pc, h with
    | 0, h => exact Later.pushed h (by decide)
    | 1, h => exact h
    | 2, h =>
      obtain ⟨s', hs, hl⟩ := Ready.load h (by decide) hb ha (d := .r2) (by decide) (by decide)
        (by decide)
      rw [execAt_of (i := .ldrex .r2 .r0) rfl, hs]
      exact hl
    | 3, h =>
      have hr2 := s.set_ne (d := .r4) (e := .r2) (s.r .r2 + s.r .r1) (by decide)
      refine ⟨?_, ?_⟩
      · rw [hr2]
        exact Loaded.set h (by decide) (by decide) _
      · rw [hr2, Cpu.set_self, Loaded.args h .r1 (by decide)]
        exact BitVec.add_comm _ _
    | 4, h =>
      obtain ⟨s', hs, ht⟩ := prepared_store (f := .r3) h (by decide) hb ha (by decide) (by decide)
        (by decide) (by decide)
      rw [execAt_of (i := .strex .r3 .r4 .r0) rfl, hs]
      exact ht
    | 5, h => exact tested_one h
    | 6, h =>
      rw [execAt_of (i := .beq 2) rfl, exec]
      obtain ⟨hz, h⟩ | ⟨hz, h⟩ := beq_tested h
      · rw [hz]
        exact h
      · rw [hz]
        exact h
    | 7, h => exact Done.flags h s.psr false
    | 8, h => exact h
    | 9, h => exact Done.toR0 h
    | 10, h =>
      obtain ⟨s', hs, hp⟩ := Done.pop h rfl (by decide)
      rw [execAt_of (i := .pop [.r1, .r2, .r3, .r4]) rfl, hs]
      exact hp
    | 11, h => exact Popped.back h

theorem exec_cond (i : Instr) (z : Bool) :
    exec (.cond z i) s = if s.z = z then exec i s else .next s := by
  rw [exec]

theorem compared_cmp (h : Loaded E c rs ks (s.r .r3) s) (h1 : .r1 ∈ ks) :
    (Phase.compared .r3).Holds E c rs ks .cas
      { s with psr := subFlags (s.r .r3) (s.r .r1) s.psr } := by
  refine ⟨h.flags _, ?_⟩
  rw [Cpu.z_subFlags, h.args .r1 h1, Bool.eq_iff_iff, beq_iff_eq, decide_eq_true_iff]
  exact sub_eq_zero_word

/-- The result of an unsuccessful comparison goes to r0. -/
theorem decided_move (h : (Phase.compared .r3).Holds E c rs ks .cas s) :
    ∃ s', exec (.cond false (.mov .r0 .r3)) s = .next s' ∧
      (Phase.decided .r3).Holds E c rs ks .cas s' := by
  obtain ⟨hl, hz⟩ := h
  rw [exec_cond]
  by_cases he : s.r .r3 = c.r .r1
  · rw [decide_eq_true he] at hz
    refine ⟨s, by rw [hz]; rfl, ?_⟩
    rw [Phase.Holds, hz]
    exact ⟨hl, he⟩
  · rw [decide_eq_false he] at hz
    refine ⟨s.set .r0 (s.r .r3), by rw [hz]; rfl, ?_⟩
    rw [Phase.Holds, show (s.set .r0 (s.r .r3)).z = false from hz]
    exact (hl.unequal he).toR0

/-- The outcome of a store, tested for zero. -/
theorem tested_zero {d f : Reg} (h : (Phase.tried d f).Holds E c rs ks op s) :
    (Phase.tested d false).Holds E c rs ks op { s with psr := nz (s.r f ^^^ 0#32) s.psr } := by
  obtain ⟨b, hf, ht⟩ := h
  have hz : ((s.r f ^^^ 0#32 == 0#32) == false) = b := by
    rw [hf]
    cases b with
    | true => rfl
    | false => rfl
  show Tried E c rs ks op (s.r d) (Cpu.z _ == false) _
  rw [Cpu.z_nz, hz]
  exact ht.flags _

/-- The result of a store that took place goes to r0. -/
theorem returned_move {d : Reg} (h : (Phase.tested d false).Holds E c rs ks op s) :
    ∃ s', exec (.cond true (.mov .r0 d)) s = .next s' ∧
      Phase.returned.Holds E c rs ks op s' := by
  rw [exec_cond]
  rw [Phase.Holds] at h
  cases hz : s.z with
  | true =>
    rw [hz] at h
    refine ⟨s.set .r0 (s.r d), rfl, ?_⟩
    rw [Phase.Holds, show (s.set .r0 (s.r d)).z = true from hz]
    exact Done.toR0 h
  | false =>
    rw [hz] at h
    refine ⟨s, rfl, ?_⟩
    rw [Phase.Holds, hz]
    exact h

theorem cas7_annotated (ha : Aligned (c.r .r0)) (hb : ¬ InBlock (c.below 4) 4 (c.r .r0)) :
    Annotated exec hwCpuAtomicCas7 NoCall (Interrupted E 4 c.sp)
      (asserts E c [.r1, .r2, .r3, .r4] [.r0, .r1, .r2] .cas cas7Phases) (fun _ _ _ => False)
      (Performs E .cas 4 c) where
  callee _ _ _ _ h := h.elim
  env pc s s' h hd := asserts_interrupted h (by decide) hd
  instr pc s h := by
    match pc, h with
    | 0, h => exact Later.pushed h (by decide)
    | 1, h => exact h
    | 2, h =>
      obtain ⟨s', hs, hl⟩ := Ready.load h (by decide) hb ha (d := .r3) (by decide) (by decide)
        (by decide)
      rw [execAt_of (i := .ldrex .r3 .r0) rfl, hs]
      exact hl
    | 3, h => exact compared_cmp h (by decide)
    | 4, h =>
      rw [execAt_of (i := .cond false .clrex) rfl, exec_cond]
      obtain ⟨hl, hz⟩ := h
      cases hs : s.z with
      | true => exact ⟨hl, hz⟩
      | false => exact ⟨hl.drop, hz⟩
    | 5, h =>
      obtain ⟨s', hs, hd⟩ := decided_move h
      rw [execAt_of (i := .cond false (.mov .r0 .r3)) rfl, hs]
      exact hd
    | 6, h =>
      rw [execAt_of (i := .bne 12) rfl, exec]
      rw [asserts] at h
      change (Phase.decided .r3).Holds E c _ _ _ s at h
      rw [Phase.Holds] at h
      cases hz : s.z with
      | true =>
        rw [hz] at h
        obtain ⟨hl, he⟩ := h
        refine ⟨hl, ?_⟩
        rw [AtomicOp.stores, if_pos he]
        exact hl.args .r2 (by decide)
      | false =>
        rw [hz] at h
        exact h
    | 7, h =>
      obtain ⟨s', hs, ht⟩ := prepared_store (f := .r4) h (by decide) hb ha (by decide) (by decide)
        (by decide) (by decide)
      rw [execAt_of (i := .strex .r4 .r2 .r0) rfl, hs]
      exact ht
    | 8, h => exact tested_zero h
    | 9, h =>
      obtain ⟨s', hs, hr⟩ := returned_move h
      rw [execAt_of (i := .cond true (.mov .r0 .r3)) rfl, hs]
      exact hr
    | 10, h =>
      rw [execAt_of (i := .beq 12) rfl, exec]
      change Phase.returned.Holds E c _ _ _ s at h
      rw [Phase.Holds] at h
      cases hz : s.z with
      | true =>
        rw [hz] at h
        exact h
      | false =>
        rw [hz] at h
        exact h
    | 11, h => exact h
    | 12, h => exact h
    | 13, h =>
      obtain ⟨s', hs, hp⟩ := Done.pop h rfl (by decide)
      rw [execAt_of (i := .pop [.r1, .r2, .r3, .r4]) rfl, hs]
      exact hp
    | 14, h => exact Popped.back h

end Exklusiv

def hwCpuAtomic7 : AtomicOp → List Instr
  | .swap => hwCpuAtomicSwap7
  | .add => hwCpuAtomicAdd7
  | .cas => hwCpuAtomicCas7

/-- How many registers the functions push. -/
def pushed7 : AtomicOp → Nat
  | .swap => 3
  | .add => 4
  | .cas => 4

/-- **The operations of ARMv7-M are atomic**, and a call of them never faults. -/
theorem hwCpuAtomic7_performs (op : AtomicOp) (ha : Aligned (c.r .r0))
    (hb : ¬ InBlock (c.below (pushed7 op)) (pushed7 op) (c.r .r0)) {q : Point Fn Cpu}
    (h : Ends exec (hwCpuAtomic7 op) NoCall (Interrupted E (pushed7 op) c.sp) (.before 0 c) q) :
    ∃ c', q = .left c' ∧ Performs E op (pushed7 op) c c' := by
  cases op with
  | swap => exact (swap7_annotated ha hb).ends (p := .before 0 c) (Later.refl E _ c.sp c) h
  | add => exact (add7_annotated ha hb).ends (p := .before 0 c) (Later.refl E _ c.sp c) h
  | cas => exact (cas7_annotated ha hb).ends (p := .before 0 c) (Later.refl E _ c.sp c) h

def hwCpuAtomic : Core → AtomicOp → List Instr
  | .v6m => hwCpuAtomic6
  | .v7m => hwCpuAtomic7

/-- How many words of the stack a call uses. -/
def stackUse : Core → AtomicOp → Nat
  | .v6m, _ => 2
  | .v7m, op => pushed7 op

/-- A call that nothing disturbs comes back. -/
theorem hwCpuAtomic_leaves (k : Core) (op : AtomicOp) (ha : Aligned (c.r .r0)) :
    (steps exec (hwCpuAtomic k op) 14 (.before 0 c)).isLeft = true := by
  cases k with
  | v6m =>
    cases op with
    | swap =>
      simp [steps, Point.step, execAt, hwCpuAtomic, hwCpuAtomic6, hwCpuAtomicSwap6, exec,
        Flow.point, ha, Cpu.pushWords, Cpu.set, Special.write, Point.isLeft]
    | add =>
      simp [steps, Point.step, execAt, hwCpuAtomic, hwCpuAtomic6, hwCpuAtomicAdd6, exec, Flow.point,
        ha, Cpu.pushWords, Cpu.set, Special.write, Point.isLeft]
    | cas =>
      by_cases he : storeWords c.mem (c.sp - 8#32) [c.r .r3, c.r .r4] (c.r .r0) - c.r .r1 = 0#32
      · simp [steps, Point.step, execAt, hwCpuAtomic, hwCpuAtomic6, hwCpuAtomicCas6, exec,
          Flow.point, ha, he, Cpu.pushWords, Cpu.set, Special.write, Point.isLeft]
      · simp [steps, Point.step, execAt, hwCpuAtomic, hwCpuAtomic6, hwCpuAtomicCas6, exec,
          Flow.point, ha, he, Cpu.pushWords, Cpu.set, Special.write, Point.isLeft]
  | v7m =>
    cases op with
    | swap =>
      simp [steps, Point.step, execAt, hwCpuAtomic, hwCpuAtomic7, hwCpuAtomicSwap7, exec,
        Flow.point, ha, Cpu.pushWords, Cpu.set, Point.isLeft]
    | add =>
      simp [steps, Point.step, execAt, hwCpuAtomic, hwCpuAtomic7, hwCpuAtomicAdd7, exec, Flow.point,
        ha, Cpu.pushWords, Cpu.set, Point.isLeft]
    | cas =>
      by_cases he : storeWords c.mem (c.sp - 16#32) [c.r .r1, c.r .r2, c.r .r3, c.r .r4]
          (c.r .r0) - c.r .r1 = 0#32
      · simp [steps, Point.step, execAt, hwCpuAtomic, hwCpuAtomic7, hwCpuAtomicCas7, exec,
          Flow.point, ha, he, Cpu.pushWords, Cpu.set, Point.isLeft]
      · simp [steps, Point.step, execAt, hwCpuAtomic, hwCpuAtomic7, hwCpuAtomicCas7, exec,
          Flow.point, ha, he, Cpu.pushWords, Cpu.set, Point.isLeft]

/-- **The operations are atomic on both cores**: however a call is interrupted, it never faults, and
    once it is over it has taken place at one moment. A call that is not interrupted comes back. -/
theorem atomic_cortexM (E : MemStep) (k : Core) (op : AtomicOp) (c : Cpu) (ha : Aligned (c.r .r0))
    (hb : ¬ InBlock (c.below (stackUse k op)) (stackUse k op) (c.r .r0)) :
    (steps exec (hwCpuAtomic k op) 14 (.before 0 c)).isLeft = true ∧
      ∀ q, Ends exec (hwCpuAtomic k op) NoCall (Interrupted E (stackUse k op) c.sp)
          (.before 0 c) q →
        ∃ c', q = .left c' ∧ Performs E op (stackUse k op) c c' := by
  refine ⟨hwCpuAtomic_leaves k op ha, fun q h => ?_⟩
  cases k with
  | v6m => exact hwCpuAtomic6_performs op ha hb h
  | v7m => exact hwCpuAtomic7_performs op ha hb h

/-- No addition is lost, if the others add to the cell what they add to a word of their own. -/
theorem Performs.add_counted (h : Performs E .add n c c') {log : Word} (hlog : log ≠ c.r .r0)
    (hp : ¬ InBlock (c.below n) n (c.r .r0)) (hl : ¬ InBlock (c.below n) n log)
    (hE : ∀ m m', E m m' → m' (c.r .r0) - m (c.r .r0) = m' log - m log) :
    c'.mem (c.r .r0) = c.mem (c.r .r0) + c.r .r1 + (c'.mem log - c.mem log) := by
  have hsum := h.atomic.add_counted hlog hE
  rwa [outside, outside, hide_out hp, hide_out hp, hide_out hl, hide_out hl] at hsum

/-- A processor in a thread, with a cell at the start of its RAM. -/
def sampleCpu : Cpu where
  r d := if d = .r0 then 0x20000000#32 else if d = .r1 then 5#32 else 9#32
  lr := 0x08000101#32
  pc := 0x08000200#32
  psr := 0x01000000#32
  sps k := if k = .main then 0x20004000#32 else 0x20002000#32
  handler := false
  spsel := true
  primask := false
  monitor := false
  mem _ := 7#32

/-- A counter that interrupts increment, and a call of `hw_cpu_atomic_add`. They count in the next
    word how often they did. -/
theorem atomic_cortexM_sample :
    (steps exec (hwCpuAtomic .v7m .add) 14 (.before 0 sampleCpu)).isLeft = true ∧
      ∀ q, Ends exec (hwCpuAtomic .v7m .add) NoCall
          (Interrupted (increments 0x20000000#32 0x20000004#32) 4 sampleCpu.sp)
          (.before 0 sampleCpu) q →
        ∃ c', q = .left c' ∧
          Performs (increments 0x20000000#32 0x20000004#32) .add 4 sampleCpu c' ∧
          c'.mem 0x20000000#32 = 7#32 + 5#32 + (c'.mem 0x20000004#32 - 7#32) := by
  obtain ⟨hleft, hends⟩ := atomic_cortexM (increments 0x20000000#32 0x20000004#32) .v7m .add
    sampleCpu (by decide) (by decide)
  refine ⟨hleft, fun q hq => ?_⟩
  obtain ⟨c', hc, hp⟩ := hends q hq
  exact ⟨c', hc, hp, hp.add_counted (by decide) (by decide) (by decide) fun m m' hm =>
    hm.added (by decide)⟩

/-- **The mask is needed**: with a barrier where the interrupts are masked, a call that is
    interrupted after it has loaded the cell loses the increment. -/
theorem hwCpuAtomicAdd6_unmasked : ∃ c',
    Ends exec (hwCpuAtomicAdd6.set 3 .dmb) NoCall
      (Interrupted (increments 0x20000000#32 0x20000004#32) 2 sampleCpu.sp) (.before 0 sampleCpu)
      (.left c') ∧
    ¬ Performs (increments 0x20000000#32 0x20000004#32) .add 2 sampleCpu c' := by
  let pushed : Cpu := sampleCpu.pushWords [9#32, 9#32]
  let loaded : Cpu := (pushed.set .r2 0#32).set .r3 (pushed.mem 0x20000000#32)
  let back : Cpu := { loaded with
    mem := update (update loaded.mem 0x20000000#32 8#32) 0x20000004#32 8#32 }
  have ha : Aligned 0x20000000#32 := by decide
  have hseven : pushed.mem 0x20000000#32 = 7#32 := by decide
  have hload : steps exec (hwCpuAtomicAdd6.set 3 .dmb) 5 (.before 0 sampleCpu) =
      .before 5 loaded := by
    simp [steps, Point.step, execAt, hwCpuAtomicAdd6, exec, Flow.point, sampleCpu, ha,
      Cpu.pushWords, Cpu.set, Special.read, loaded, pushed]
  have hrest : ∃ c', steps exec (hwCpuAtomicAdd6.set 3 .dmb) 7 (.before 5 back) = .left c' ∧
      c'.mem 0x20000000#32 = 5#32 + pushed.mem 0x20000000#32 ∧ c'.mem 0x20000004#32 = 8#32 := by
    simp [steps, Point.step, execAt, hwCpuAtomicAdd6, exec, Flow.point, sampleCpu, ha,
      Cpu.pushWords, Cpu.set, Special.write, loaded, pushed, back, Cpu.drop]
  obtain ⟨c', hend, hcell, hlog⟩ := hrest
  have hintr : Interrupted (increments 0x20000000#32 0x20000004#32) 2 sampleCpu.sp loaded back := by
    have hkeep : ∀ x, x ≠ 0x20000004#32 → x ≠ 0x20000000#32 → back.mem x = loaded.mem x :=
      fun x h1 h2 => (Function.update_of_ne h1 ..).trans (Function.update_of_ne h2 ..)
    refine ⟨rfl, rfl, fun k hk => ?_, ?_⟩
    · rw [show (sampleCpu.sp - loaded.sp).toNat = 8 by decide] at hk
      obtain rfl | rfl : k = 0 ∨ k = 1 := by omega
      · exact hkeep _ (by decide) (by decide)
      · exact hkeep _ (by decide) (by decide)
    · have hcell := hide_update (b := sampleCpu.sp - 8#32) (n := 2) (m := loaded.mem)
        (p := 0x20000000#32) (by decide) 8#32
      have hmem : outside sampleCpu.sp 2 back.mem =
          update (update (outside sampleCpu.sp 2 loaded.mem) 0x20000000#32 8#32)
            0x20000004#32 8#32 :=
        (hide_update (by decide) _).trans (congrArg (fun m => update m _ _) hcell)
      have h1 : outside sampleCpu.sp 2 loaded.mem 0x20000000#32 = 7#32 := by decide
      have h2 : outside sampleCpu.sp 2 loaded.mem 0x20000004#32 = 7#32 := by decide
      rw [increments, hmem, h1, h2]
      rfl
  refine ⟨c', ⟨?_, trivial⟩, fun hp => ?_⟩
  · have h1 : Leads exec (hwCpuAtomicAdd6.set 3 .dmb) (.before 0 sampleCpu) (.before 5 loaded) :=
      ⟨5, hload⟩
    have h2 : Leads exec (hwCpuAtomicAdd6.set 3 .dmb) (.before 5 back) (.left c') := ⟨7, hend⟩
    exact h1.run.trans (.head (.env 5 hintr) h2.run)
  · have hsum : c'.mem 0x20000000#32 = 7#32 + 5#32 + (c'.mem 0x20000004#32 - 7#32) :=
      hp.add_counted (by decide) (by decide) (by decide) fun m m' hm => hm.added (by decide)
    rw [hcell, hlog, hseven] at hsum
    exact absurd hsum (by decide)

end FxRtos.Thumb

namespace FxRtos.Rv32

open Function (update)
open Lib
open Relation (ReflTransGen)

/-! ## 4. RV32I: the interrupts are disabled -/

def hwCpuAtomicCas : List Instr :=
  [.fence,
   .csrrci .t0 .mstatus mie,
   .lw .t1 0#32 .a0,
   .bne .t1 .a1 5,
   .sw .a2 0#32 .a0,
   -- 1
   .csrw .mstatus .t0,
   .fence,
   .mv .a0 .t1,
   .ret]

def hwCpuAtomicSwap : List Instr :=
  [.fence,
   .csrrci .t0 .mstatus mie,
   .lw .t1 0#32 .a0,
   .sw .a1 0#32 .a0,
   .csrw .mstatus .t0,
   .fence,
   .mv .a0 .t1,
   .ret]

def hwCpuAtomicAdd : List Instr :=
  [.fence,
   .csrrci .t0 .mstatus mie,
   .lw .t1 0#32 .a0,
   .add .a1 .a1 .t1,
   .sw .a1 0#32 .a0,
   .csrw .mstatus .t0,
   .fence,
   .mv .a0 .t1,
   .ret]

def hwCpuAtomic : AtomicOp → List Instr
  | .swap => hwCpuAtomicSwap
  | .add => hwCpuAtomicAdd
  | .cas => hwCpuAtomicCas

/-- An interrupt between two instructions, up to where the code goes on. A trap and the return from
    it change the status registers, but MIE is set again. -/
structure Interrupted (E : MemStep) (h h' : Hart) : Prop where
  enabled : h.mieSet = true
  rest : h' = { h with csr := h'.csr, mem := h'.mem }
  mie : h'.mieSet = true
  step : E h.mem h'.mem

/-- No function is called. -/
def NoCall (_ : Fn) (_ _ : Hart) : Prop := False

variable {E : MemStep} {sym : Sym → Word} {h h' s s' t : Hart}
  {code : List Instr} {q : Point Fn Hart} {pc : Nat}

/-- Any number of interrupts. -/
structure Later (E : MemStep) (h h' : Hart) : Prop where
  rest : h' = { h with csr := h'.csr, mem := h'.mem }
  mie : h'.mieSet = h.mieSet
  steps : ReflTransGen E h.mem h'.mem

theorem Later.x (h1 : Later E h h') : h'.x = h.x := by rw [h1.rest]

theorem later_of (h1 : ReflTransGen (Interrupted E) h h') : Later E h h' := by
  induction h1 with
  | refl => exact ⟨rfl, rfl, .refl⟩
  | tail _ hi ih =>
    refine ⟨?_, ?_, ih.steps.tail hi.step⟩
    · rw [hi.rest, ih.rest]
    · rw [hi.mie, ← hi.enabled, ih.mie]

theorem not_interrupted (hm : s.mieSet = false) (s' : Hart) : ¬ Interrupted E s s' := fun hi => by
  have := hi.enabled
  rw [hm] at this
  cases this

/-- An instruction with the interrupts disabled. -/
theorem disabled_step {i : Instr}
    (h1 : Ends (exec sym) code NoCall (Interrupted E) (.before pc s) q) (hm : s.mieSet = false)
    (hi : code[pc]? = some i) (he : exec sym i s = .next s') :
    Ends (exec sym) code NoCall (Interrupted E) (.before (pc + 1) s') q := by
  have h1 := h1.still (not_interrupted hm)
  rwa [execAt_of hi, he] at h1

/-- What the operation returned is in a0; it uses a1, t0 and t1. -/
structure Performs (E : MemStep) (op : AtomicOp) (h h' : Hart) : Prop where
  rest : h' = { h with x := h'.x, csr := h'.csr, pc := h.x .ra, mem := h'.mem }
  mie : h'.mieSet = h.mieSet
  kept : ∀ d, d ∉ [Reg.a0, .a1, .t0, .t1] → h'.x d = h.x d
  atomic : Atomic E op (h.x .a1) (h.x .a2) (h.x .a0) h.mem h'.mem (h'.x .a0)

theorem mieSet_disabled (h : Hart) (v : Word) :
    (h.setCsr .mstatus (v &&& ~~~mie)).mieSet = false := by
  have : (v &&& ~~~(1#32 <<< 3)).getLsbD 3 = false := by
    rw [getLsbD_clearBit (by decide), decide_eq_false (fun e => e rfl), Bool.and_false]
  rw [Hart.mieSet, Hart.setCsr_self]
  exact this

/-- **The way in**: the status is read into t0, the interrupts are disabled. -/
theorem disabled_enter (h0 : code[0]? = some .fence)
    (h1 : code[1]? = some (.csrrci .t0 .mstatus mie))
    (he : Ends (exec sym) code NoCall (Interrupted E) (.before 0 h) q) :
    ∃ s, s = { h with x := s.x, csr := s.csr, mem := s.mem } ∧ (∀ d, d ≠ .t0 → s.x d = h.x d) ∧
      (s.x .t0).getLsbD 3 = h.mieSet ∧ s.mieSet = false ∧ ReflTransGen E h.mem s.mem ∧
      Ends (exec sym) code NoCall (Interrupted E) (.before 2 s) q := by
  obtain ⟨s0, e0, he⟩ := he.instr
  rw [execAt_of h0] at he
  obtain ⟨s1, e1, he⟩ := Ends.instr he
  rw [execAt_of h1] at he
  have l0 := later_of e0
  have l1 := later_of e1
  have hx : s1.x = h.x := l1.x.trans l0.x
  refine ⟨(s1.set .t0 (s1.csr .mstatus)).setCsr .mstatus (s1.csr .mstatus &&& ~~~mie), ?_,
    fun d hd => ?_, ?_, mieSet_disabled _ _, l0.steps.trans l1.steps, he⟩
  · rw [l1.rest, l0.rest]
    rfl
  · exact (Function.update_of_ne hd _ s1.x).trans (congrFun hx d)
  · have ht : (s1.csr .mstatus).getLsbD 3 = h.mieSet := l1.mie.trans l0.mie
    exact ht

/-- **The way out**: the status is written back from t0, and the result goes to a0. -/
theorem disabled_leave (h0 : code[pc]? = some (.csrw .mstatus .t0))
    (h1 : code[pc + 1]? = some .fence) (h2 : code[pc + 1 + 1]? = some (.mv .a0 .t1))
    (h3 : code[pc + 1 + 1 + 1]? = some .ret) (hm : s.mieSet = false)
    (he : Ends (exec sym) code NoCall (Interrupted E) (.before pc s) q) :
    ∃ s', q = .left s' ∧
      s' = { s with x := update s.x .a0 (s.x .t1), csr := s'.csr, pc := s.x .ra, mem := s'.mem } ∧
      s'.mieSet = (s.x .t0).getLsbD 3 ∧ ReflTransGen E s.mem s'.mem := by
  have he := disabled_step he hm h0 rfl
  obtain ⟨s1, e1, he⟩ := Ends.instr he
  rw [execAt_of h1] at he
  obtain ⟨s2, e2, he⟩ := Ends.instr he
  rw [execAt_of h2] at he
  obtain ⟨s3, e3, he⟩ := Ends.instr he
  rw [execAt_of h3] at he
  have l1 := later_of e1
  have l2 := later_of e2
  have l3 := later_of e3
  refine ⟨_, he.left, ?_, ?_, (l1.steps.trans l2.steps).trans l3.steps⟩
  · rw [l3.rest, l2.rest, l1.rest]
    rfl
  · have h1 : s1.mieSet = (s.x .t0).getLsbD 3 := by
      rw [l1.mie, Hart.mieSet, Hart.setCsr_self]
      rfl
    have h2 : (s2.set .a0 (s2.get .t1)).mieSet = s1.mieSet := l2.mie
    exact (l3.mie.trans h2).trans h1

/-- The part with the interrupts disabled, for the operation with the cell `p` and the arguments
    `x` and `y`. -/
structure Critical (op : AtomicOp) (x y p : Word) (s t : Hart) : Prop where
  rest : t = { s with x := t.x, mem := update s.mem p (op.stores x y (s.mem p)) }
  t1 : t.x .t1 = s.mem p
  kept : ∀ d, d ∉ [Reg.a1, .t1] → t.x d = s.x d

section Kritisch

variable {x y p : Word}

theorem exec_lw (ha : Aligned p) (h0 : s.x .a0 = p) :
    exec sym (.lw .t1 0#32 .a0) s = .next (s.set .t1 (s.mem p)) := by
  have hp : s.get .a0 + 0#32 = p := (BitVec.add_zero _).trans h0
  rw [exec, hp, if_pos ha]

theorem exec_sw (ha : Aligned p) (h0 : s.x .a0 = p) (d : Reg) :
    exec sym (.sw d 0#32 .a0) s = .next { s with mem := update s.mem p (s.get d) } := by
  have hp : s.get .a0 + 0#32 = p := (BitVec.add_zero _).trans h0
  rw [exec, hp, if_pos ha]

theorem hwCpuAtomicSwap_critical (ha : Aligned p) (hm : s.mieSet = false) (h0 : s.x .a0 = p)
    (h1 : s.x .a1 = x)
    (he : Ends (exec sym) hwCpuAtomicSwap NoCall (Interrupted E) (.before 2 s) q) :
    ∃ t, Critical .swap x y p s t ∧
      Ends (exec sym) hwCpuAtomicSwap NoCall (Interrupted E) (.before 4 t) q := by
  have he := disabled_step he hm rfl (exec_lw ha h0)
  have he := disabled_step he hm rfl (exec_sw ha (by exact h0) .a1)
  refine ⟨_, ⟨?_, ?_, fun d hd => ?_⟩, he⟩
  · simp [Hart.set, Hart.get, AtomicOp.stores, h1]
  · simp [Hart.set]
  · simp only [List.mem_cons, List.not_mem_nil, or_false, not_or] at hd
    simp [Hart.set, hd]

theorem hwCpuAtomicAdd_critical (ha : Aligned p) (hm : s.mieSet = false) (h0 : s.x .a0 = p)
    (h1 : s.x .a1 = x)
    (he : Ends (exec sym) hwCpuAtomicAdd NoCall (Interrupted E) (.before 2 s) q) :
    ∃ t, Critical .add x y p s t ∧
      Ends (exec sym) hwCpuAtomicAdd NoCall (Interrupted E) (.before 5 t) q := by
  have he := disabled_step he hm rfl (exec_lw ha h0)
  have he := disabled_step (i := .add .a1 .a1 .t1) he hm rfl rfl
  have he := disabled_step he hm rfl (exec_sw ha (by exact h0) .a1)
  refine ⟨_, ⟨?_, ?_, fun d hd => ?_⟩, he⟩
  · simp [Hart.set, Hart.get, AtomicOp.stores, h1]
  · simp [Hart.set]
  · simp only [List.mem_cons, List.not_mem_nil, or_false, not_or] at hd
    simp [Hart.set, hd]

theorem hwCpuAtomicCas_critical (ha : Aligned p) (hm : s.mieSet = false) (h0 : s.x .a0 = p)
    (h1 : s.x .a1 = x) (h2 : s.x .a2 = y)
    (he : Ends (exec sym) hwCpuAtomicCas NoCall (Interrupted E) (.before 2 s) q) :
    ∃ t, Critical .cas x y p s t ∧
      Ends (exec sym) hwCpuAtomicCas NoCall (Interrupted E) (.before 5 t) q := by
  have he := disabled_step he hm rfl (exec_lw ha h0)
  have hcmp : (s.set .t1 (s.mem p)).get .t1 = s.mem p ∧ (s.set .t1 (s.mem p)).get .a1 = x := by
    simp [Hart.set, Hart.get, h1]
  by_cases hx : s.mem p = x
  · have he := disabled_step (i := .bne .t1 .a1 5) he hm rfl
      (by rw [exec, hcmp.1, hcmp.2, if_pos hx])
    have he := disabled_step he hm rfl (exec_sw ha (by exact h0) .a2)
    refine ⟨_, ⟨?_, ?_, fun d hd => ?_⟩, he⟩
    · simp [Hart.set, Hart.get, AtomicOp.stores, hx, h2]
    · simp [Hart.set]
    · simp only [List.mem_cons, List.not_mem_nil, or_false, not_or] at hd
      simp [Hart.set, hd]
  · have he := he.still (not_interrupted (s := s.set .t1 (s.mem p)) hm)
    rw [execAt_of (i := .bne .t1 .a1 5) rfl, exec, hcmp.1, hcmp.2, if_neg hx] at he
    refine ⟨_, ⟨?_, ?_, fun d hd => ?_⟩, he⟩
    · simp [Hart.set, AtomicOp.stores, hx, Function.update_eq_self]
    · simp [Hart.set]
    · simp only [List.mem_cons, List.not_mem_nil, or_false, not_or] at hd
      simp [Hart.set, hd]

/-- The three parts of a call together. -/
theorem Critical.performs {op : AtomicOp}
    (hcrit : Critical op (h.x .a1) (h.x .a2) (h.x .a0) s t)
    (hs : s = { h with x := s.x, csr := s.csr, mem := s.mem })
    (hx : ∀ d, d ≠ .t0 → s.x d = h.x d) (ht0 : (s.x .t0).getLsbD 3 = h.mieSet)
    (hm : s.mieSet = false) (hu : ReflTransGen E h.mem s.mem)
    (h0 : code[pc]? = some (.csrw .mstatus .t0)) (h1 : code[pc + 1]? = some .fence)
    (h2 : code[pc + 1 + 1]? = some (.mv .a0 .t1)) (h3 : code[pc + 1 + 1 + 1]? = some .ret)
    (he : Ends (exec sym) code NoCall (Interrupted E) (.before pc t) q) :
    ∃ h', q = .left h' ∧ Performs E op h h' := by
  have htm : t.mieSet = false := by
    rw [hcrit.rest]
    exact hm
  have hmem : t.mem = update s.mem (h.x .a0) (op.stores (h.x .a1) (h.x .a2) (s.mem (h.x .a0))) := by
    rw [hcrit.rest]
  obtain ⟨h', hq, hrest, hmie, hw⟩ := disabled_leave h0 h1 h2 h3 htm he
  have hxa : h'.x = update t.x .a0 (t.x .t1) := by rw [hrest]
  have hkept : ∀ d, d ∉ [Reg.a0, .a1, .t0, .t1] → h'.x d = h.x d := fun d hd => by
    simp only [List.mem_cons, List.not_mem_nil, or_false, not_or] at hd
    rw [hxa, Function.update_of_ne hd.1, hcrit.kept d (by simp [hd]), hx d hd.2.2.1]
  have hfound : h'.x .a0 = s.mem (h.x .a0) := by rw [hxa, Function.update_self, hcrit.t1]
  refine ⟨h', hq, ⟨?_, ?_, hkept, s.mem, hu, hfound.symm, ?_⟩⟩
  · have hra : t.x .ra = h.x .ra := (hcrit.kept .ra (by decide)).trans (hx .ra (by decide))
    rw [hrest, hra, hcrit.rest, hs]
  · rw [hmie, hcrit.kept .t0 (by decide), ht0]
  · rw [hmem] at hw
    rwa [hfound]

end Kritisch

theorem hwCpuAtomic_leaves (op : AtomicOp) (ha : Aligned (h.x .a0)) :
    (steps (exec sym) (hwCpuAtomic op) 9 (.before 0 h)).isLeft = true := by
  cases op with
  | swap =>
    simp [steps, Point.step, execAt, hwCpuAtomic, hwCpuAtomicSwap, exec, Flow.point, ha, Hart.get,
      Hart.set, Hart.setCsr, Point.isLeft]
  | add =>
    simp [steps, Point.step, execAt, hwCpuAtomic, hwCpuAtomicAdd, exec, Flow.point, ha, Hart.get,
      Hart.set, Hart.setCsr, Point.isLeft]
  | cas =>
    by_cases he : h.mem (h.x .a0) = h.x .a1
    · simp [steps, Point.step, execAt, hwCpuAtomic, hwCpuAtomicCas, exec, Flow.point, ha, he,
        Hart.get, Hart.set, Hart.setCsr, Point.isLeft]
    · simp [steps, Point.step, execAt, hwCpuAtomic, hwCpuAtomicCas, exec, Flow.point, ha, he,
        Hart.get, Hart.set, Hart.setCsr, Point.isLeft]

/-- **The operations of RV32I are atomic**: however a call is interrupted, it never faults, and once
    it is over it has taken place at one moment. A call that is not interrupted comes back. -/
theorem atomic_rv32 (E : MemStep) (sym : Sym → Word) (op : AtomicOp) (h : Hart)
    (ha : Aligned (h.x .a0)) :
    (steps (exec sym) (hwCpuAtomic op) 9 (.before 0 h)).isLeft = true ∧
      ∀ q, Ends (exec sym) (hwCpuAtomic op) NoCall (Interrupted E) (.before 0 h) q →
        ∃ h', q = .left h' ∧ Performs E op h h' := by
  refine ⟨hwCpuAtomic_leaves op ha, fun q he => ?_⟩
  cases op with
  | swap =>
    obtain ⟨s, hs, hx, ht0, hm, hu, he⟩ := disabled_enter rfl rfl he
    obtain ⟨t, hcrit, he⟩ := hwCpuAtomicSwap_critical (y := h.x .a2) ha hm (hx .a0 (by decide))
      (hx .a1 (by decide)) he
    exact hcrit.performs hs hx ht0 hm hu rfl rfl rfl rfl he
  | add =>
    obtain ⟨s, hs, hx, ht0, hm, hu, he⟩ := disabled_enter rfl rfl he
    obtain ⟨t, hcrit, he⟩ := hwCpuAtomicAdd_critical (y := h.x .a2) ha hm (hx .a0 (by decide))
      (hx .a1 (by decide)) he
    exact hcrit.performs hs hx ht0 hm hu rfl rfl rfl rfl he
  | cas =>
    obtain ⟨s, hs, hx, ht0, hm, hu, he⟩ := disabled_enter rfl rfl he
    obtain ⟨t, hcrit, he⟩ := hwCpuAtomicCas_critical ha hm (hx .a0 (by decide))
      (hx .a1 (by decide)) (hx .a2 (by decide)) he
    exact hcrit.performs hs hx ht0 hm hu rfl rfl rfl rfl he

/-- A hart with a cell at the start of its RAM. -/
def sampleHart : Hart where
  x d := if d = .a0 then 0x80000000#32 else if d = .a1 then 5#32 else 9#32
  csr k := if k = .mstatus then 0x1808#32 else 0#32
  pc := 0x20000000#32
  mem _ := 7#32

theorem atomic_rv32_sample :
    (steps (exec fun _ => 0#32) (hwCpuAtomic .add) 9 (.before 0 sampleHart)).isLeft = true ∧
      ∀ q, Ends (exec fun _ => 0#32) (hwCpuAtomic .add) NoCall
          (Interrupted (increments 0x80000000#32 0x80000004#32)) (.before 0 sampleHart) q →
        ∃ h', q = .left h' ∧ Performs (increments 0x80000000#32 0x80000004#32) .add sampleHart h' ∧
          h'.mem 0x80000000#32 = 7#32 + 5#32 + (h'.mem 0x80000004#32 - 7#32) := by
  obtain ⟨hleft, hends⟩ := atomic_rv32 (increments 0x80000000#32 0x80000004#32) (fun _ => 0#32) .add
    sampleHart (by decide)
  refine ⟨hleft, fun q hq => ?_⟩
  obtain ⟨h', hh, hp⟩ := hends q hq
  exact ⟨h', hh, hp, hp.atomic.add_counted (by decide) fun m m' hm => hm.added (by decide)⟩

/-- **The mask is needed**: with a fence where the interrupts are disabled, a call that is
    interrupted after it has loaded the cell loses the increment. -/
theorem hwCpuAtomicAdd_unmasked : ∃ h',
    Ends (exec fun _ => 0#32) (hwCpuAtomicAdd.set 1 .fence) NoCall
      (Interrupted (increments 0x80000000#32 0x80000004#32)) (.before 0 sampleHart) (.left h') ∧
    ¬ Performs (increments 0x80000000#32 0x80000004#32) .add sampleHart h' := by
  let loaded : Hart := sampleHart.set .t1 7#32
  let back : Hart := { loaded with
    mem := update (update loaded.mem 0x80000000#32 8#32) 0x80000004#32 8#32 }
  have ha : Aligned 0x80000000#32 := by decide
  have hload : steps (exec fun _ => 0#32) (hwCpuAtomicAdd.set 1 .fence) 3 (.before 0 sampleHart) =
      .before 3 loaded := by
    simp [steps, Point.step, execAt, hwCpuAtomicAdd, exec, Flow.point, sampleHart, ha, Hart.get,
      loaded]
  have hrest : ∃ h', steps (exec fun _ => 0#32) (hwCpuAtomicAdd.set 1 .fence) 6 (.before 3 back) =
      .left h' ∧ h'.mem 0x80000000#32 = 12#32 ∧ h'.mem 0x80000004#32 = 8#32 := by
    simp [steps, Point.step, execAt, hwCpuAtomicAdd, exec, Flow.point, sampleHart, ha, Hart.get,
      Hart.set, Hart.setCsr, loaded, back]
  obtain ⟨h', hend, hcell, hlog⟩ := hrest
  have hintr : Interrupted (increments 0x80000000#32 0x80000004#32) loaded back :=
    ⟨by decide, rfl, by decide, rfl⟩
  refine ⟨h', ⟨?_, trivial⟩, fun hp => ?_⟩
  · have h1 : Leads (exec fun _ => 0#32) (hwCpuAtomicAdd.set 1 .fence) (.before 0 sampleHart)
        (.before 3 loaded) := ⟨3, hload⟩
    have h2 : Leads (exec fun _ => 0#32) (hwCpuAtomicAdd.set 1 .fence) (.before 3 back)
        (.left h') := ⟨6, hend⟩
    exact h1.run.trans (.head (.env 3 hintr) h2.run)
  · have hsum : h'.mem 0x80000000#32 = 7#32 + 5#32 + (h'.mem 0x80000004#32 - 7#32) :=
      hp.atomic.add_counted (by decide) fun m m' hm => hm.added (by decide)
    rw [hcell, hlog] at hsum
    exact absurd hsum (by decide)

end FxRtos.Rv32
