/-
  File:      FxRtos/Hal/IntrEntry.lean
  Subject:   INTERRUPTS ON THE CORTEX-M (hal_cpu_intr.S: hal_intr_entry, hal_intr_frame_save,
             hal_intr_frame_restore). An interrupt may be interrupted at every instruction by
             others, to any depth.

  * `Interrupt` -- an interrupt from the exception to the return from it, with others nested in it.
  * `halIntrFrameSave_spec`, `halIntrFrameRestore_spec` -- the registers on the stack and back.
  * `Interrupt.disturbed` -- an interrupt in a handler, with all that is nested in it, is one of
    the disturbances that code in handler mode allows for.
-/
import FxRtos.Hw.Exception

namespace FxRtos.Thumb

open Function (update)
open Lib
open Relation (ReflTransGen)

/-! ## 1. The code -/

def halIntrFrameSave : Core → List Instr
  | .v6m =>
    [.push [.r4, .r5, .r6, .r7],
     .mov .r4 .r8,
     .mov .r5 .r9,
     .mov .r6 .r10,
     .mov .r7 .r11,
     .push [.r4, .r5, .r6, .r7],
     .bx]
  | .v7m =>
    [.push [.r4, .r5, .r6, .r7, .r8, .r9, .r10, .r11],
     .bx]

def halIntrFrameRestore : Core → List Instr
  | .v6m =>
    [.pop [.r4, .r5, .r6, .r7],
     .mov .r8 .r4,
     .mov .r9 .r5,
     .mov .r10 .r6,
     .mov .r11 .r7,
     .pop [.r4, .r5, .r6, .r7],
     .bx]
  | .v7m =>
    [.pop [.r4, .r5, .r6, .r7, .r8, .r9, .r10, .r11],
     .bx]

def halIntrEntry : List Instr :=
  [.pushLr,
   .bl .intrFrameSave,
   .bl .fxIntrHandler,
   .bl .intrFrameRestore,
   .popPc]

/-- The order of the registers in `hi_regs`. -/
def frameRegs : Core → List Reg
  | .v6m => [.r8, .r9, .r10, .r11, .r4, .r5, .r6, .r7]
  | .v7m => [.r4, .r5, .r6, .r7, .r8, .r9, .r10, .r11]

/-- Code of a handler has run, and left the stack pointer at `sp`. The words on the stack from `a`
    on are kept. -/
structure Ran (R : Word → Word → Word → Prop) (top a : Word) (c s : Cpu) (sp : Word) : Prop where
  rest : s = { c with
    r := s.r, lr := s.lr, pc := s.pc, psr := s.psr, sps := update c.sps .main sp,
    monitor := s.monitor, mem := s.mem }
  psr : s.psr.getLsbD 9 = false
  others : Others R top a c.mem s.mem

/-- A function of the kernel, which keeps the registers that a function has to keep. -/
structure CCall (R : Word → Word → Word → Prop) (top : Word) (c s : Cpu) : Prop where
  ran : Ran R top c.sp c s c.sp
  saved : ∀ d ∈ calleeSaved, s.r d = c.r d

/-- What `hal_intr_entry` calls, with `env` between the instructions. -/
def IntrCall (k : Core) (R : Word → Word → Word → Prop) (top : Word) (env : Cpu → Cpu → Prop) :
    Fn → Cpu → Cpu → Prop
  | .intrFrameSave, s, s' =>
    ∃ lr, Ends exec (halIntrFrameSave k) NoCall env (.before 0 { s with lr := lr }) (.left s')
  | .intrFrameRestore, s, s' =>
    ∃ lr, Ends exec (halIntrFrameRestore k) NoCall env (.before 0 { s with lr := lr }) (.left s')
  | .fxIntrHandler, s, s' => CCall R top s s'
  | .fxDispatchHandler, _, _ => False

/-- There are `n` words left on the stack below `a`. -/
structure Room (R : Word → Word → Word → Prop) (top a : Word) (n : Nat) : Prop where
  fits : (top - a).toNat + 4 * n < 2 ^ 32
  free : ∀ x, InBlock (a - BitVec.ofNat 32 (4 * n)) n x → ∀ v w, R x v w

/-- **An interrupt** of `c`, from the exception to the return from it; the interrupts nested in it
    are at most `n` deep. -/
def Interrupt (k : Core) (R : Word → Word → Word → Prop) (top : Word) : Nat → Cpu → Cpu → Prop
  | 0, _, _ => False
  | n + 1, c, c' =>
    Room R top (c.sps .main) 18 ∧ ∃ s s', Taken c s ∧
      Ends exec halIntrEntry (IntrCall k R top (Interrupt k R top n)) (Interrupt k R top n)
        (.before 0 s) (.left s') ∧ s'.excReturn = some c'

/-! ## 2. What is on the stack -/

variable {k : Core} {c c' s s' t t' : Cpu} {R : Word → Word → Word → Prop} {top a x : Word}
  {n : Nat} {env : Cpu → Cpu → Prop}

/-- The `n` words on top of the stack. -/
def Cpu.stacked (c : Cpu) (n : Nat) : List Word := loadWords c.mem c.sp n

theorem Cpu.stacked_push (c : Cpu) (ws : List Word) (n : Nat)
    (h : 4 * (ws.length + n) ≤ 2 ^ 32) :
    (c.pushWords ws).stacked (ws.length + n) = ws ++ c.stacked n := by
  rw [Cpu.stacked, Cpu.pushWords_sp]
  exact loadWords_below ws h

theorem Cpu.stacked_add (c : Cpu) (n k : Nat) :
    c.stacked (n + k) = c.stacked n ++ (c.stacked (n + k)).drop n := by
  rw [Cpu.stacked, Cpu.stacked, loadWords_append,
    List.drop_append_of_le_length (Nat.le_of_eq loadWords_length.symm),
    List.drop_eq_nil_of_le (Nat.le_of_eq loadWords_length), List.nil_append]

/-- Others keep what is on the stack. -/
theorem Others.stacked (h : Others R top c.sp c.mem s.mem) (hc : Aligned c.sp) (hsp : s.sp = c.sp)
    (hn : 4 * n ≤ (top - c.sp).toNat) : s.stacked n = c.stacked n := by
  rw [Cpu.stacked, Cpu.stacked, hsp]
  exact loadWords_aligned hc fun x hin hx => h.stack x hx (Nat.lt_of_lt_of_le hin hn)

theorem Room.mono {k : Nat} (h : Room R top a n) (hk : k ≤ n) : Room R top a k := by
  have hf := h.fits
  refine ⟨by omega, fun x hx => h.free x ?_⟩
  unfold InBlock at *
  bv_omega

/-- What is free below a stack is not in use. -/
theorem not_live_below (hfits : (top - a).toNat + 4 * n < 2 ^ 32)
    (hx : InBlock (a - BitVec.ofNat 32 (4 * n)) n x) : ¬ Live top a x := by
  unfold Live InBlock at *
  bv_omega

/-- Words stored where the stack is free. -/
theorem Room.stored (h : Room R top a n) {b : Word} {m : Word → Word} {ws : List Word}
    (hn : ws.length ≤ n)
    (hin : ∀ x, InBlock b ws.length x → InBlock (a - BitVec.ofNat 32 (4 * n)) n x) :
    Others R top a m (storeWords m b ws) := by
  have hf := h.fits
  refine ⟨fun x _ hl => storeWords_out (by omega) fun hx => ?_, fun x => ?_⟩
  · exact not_live_below hf (hin x hx) hl
  · by_cases hx : InBlock b ws.length x
    · exact .single (h.free x (hin x hx) _ _)
    · rw [Changes, storeWords_out (by omega) hx]

theorem Cpu.Handles.set (h : c.Handles) (d : Reg) (v : Word) : (c.set d v).Handles :=
  ⟨h.handler, h.spsel, h.psr, h.sp⟩

theorem Cpu.Handles.push (h : c.Handles) (ws : List Word) : (c.pushWords ws).Handles := by
  refine ⟨h.handler, h.spsel, h.psr, ?_⟩
  rw [Cpu.pushWords_sp]
  exact h.sp.sub ws.length

theorem Cpu.Handles.drop (h : c.Handles) (k : Nat) : (c.drop k).Handles := by
  refine ⟨h.handler, h.spsel, h.psr, ?_⟩
  rw [Cpu.drop_sp]
  exact h.sp.add k

theorem below_below (n k : Nat) : a - BitVec.ofNat 32 (4 * n) - BitVec.ofNat 32 (4 * k) =
    a - BitVec.ofNat 32 (4 * (n + k)) := by
  rw [Nat.mul_add, BitVec.ofNat_add]
  bv_omega

theorem below_le (h : (top - a).toNat + 4 * n < 2 ^ 32) :
    (a - (a - BitVec.ofNat 32 (4 * n))).toNat ≤ (top - (a - BitVec.ofNat 32 (4 * n))).toNat := by
  bv_omega

theorem le_below (h : (top - a).toNat + 4 * n < 2 ^ 32) :
    4 * n ≤ (top - (a - BitVec.ofNat 32 (4 * n))).toNat := by
  bv_omega

theorem Room.below {k : Nat} (h : Room R top a (n + k)) :
    Room R top (a - BitVec.ofNat 32 (4 * n)) k := by
  have hf := h.fits
  refine ⟨by bv_omega, fun x hx => h.free x ?_⟩
  unfold InBlock at *
  bv_omega

theorem Cpu.Handles.push_sps (h : c.Handles) (ws : List Word) :
    (c.pushWords ws).sps = update c.sps .main (c.sp - BitVec.ofNat 32 (4 * ws.length)) := by
  rw [← h.active]
  rfl

theorem Cpu.Handles.drop_sps (h : c.Handles) (k : Nat) :
    (c.drop k).sps = update c.sps .main (c.sp + BitVec.ofNat 32 (4 * k)) := by
  rw [← h.active]
  rfl

section Unterprogramm

variable {q : Point Fn Cpu}

theorem Tracks.r (h : Tracks R top t s) : s.r = t.r := by rw [h.rest]

theorem Tracks.later (ht : t.Handles) (h : Tracks R top t s)
    (henv : ∀ s s', s.Handles → env s s' → Disturbed R top s s') (he : ReflTransGen env s s') :
    Tracks R top t s' := by
  induction he with
  | refl => exact h
  | tail _ hstep ih => exact ih.disturbed ht (henv _ _ (ih.handles ht) hstep)

/-- The handler entered in `c` has the words `ws` on the stack, and is alone. -/
structure Laid (R : Word → Word → Word → Prop) (top : Word) (c t : Cpu) (ws : List Word) :
    Prop where
  handles : t.Handles
  rest : t = { c with
    r := t.r, lr := t.lr, psr := t.psr,
    sps := update c.sps .main (c.sp - BitVec.ofNat 32 (4 * ws.length)), mem := t.mem }
  others : Others R top c.sp c.mem t.mem
  stacked : t.stacked ws.length = ws

section Stapel

variable {ws us : List Word}

theorem Laid.start (R : Word → Word → Word → Prop) (top : Word) (hc : c.Handles) :
    Laid R top c c [] := by
  refine ⟨hc, ?_, .refl R top c.sp c.mem, rfl⟩
  have hsp : c.sp - BitVec.ofNat 32 (4 * 0) = c.sps .main := by
    rw [Cpu.sp, hc.active]
    exact BitVec.sub_zero _
  rw [List.length_nil, hsp, Function.update_eq_self]

theorem Laid.sps (h : Laid R top c t ws) :
    t.sps = update c.sps .main (c.sp - BitVec.ofNat 32 (4 * ws.length)) := congrArg Cpu.sps h.rest

theorem Laid.sp (h : Laid R top c t ws) : t.sp = c.sp - BitVec.ofNat 32 (4 * ws.length) := by
  rw [Cpu.sp, h.handles.active, h.sps, Function.update_self]

theorem Laid.set (h : Laid R top c t ws) (d : Reg) (v : Word) : Laid R top c (t.set d v) ws :=
  ⟨h.handles.set d v, congrArg (fun t => t.set d v) h.rest, h.others, h.stacked⟩

theorem Laid.room {k : Nat} (h : Laid R top c t ws) (hroom : Room R top c.sp (ws.length + k)) :
    Room R top t.sp k := by
  rw [h.sp]
  exact hroom.below

theorem Laid.push (h : Laid R top c t ws) (us : List Word)
    (hroom : Room R top c.sp (ws.length + us.length)) :
    Laid R top c (t.pushWords us) (us ++ ws) := by
  have hf := hroom.fits
  have hsp : t.sp - BitVec.ofNat 32 (4 * us.length) =
      c.sp - BitVec.ofNat 32 (4 * (us ++ ws).length) := by
    rw [h.sp, List.length_append, below_below, Nat.add_comm]
  refine ⟨h.handles.push us, ?_, ?_, ?_⟩
  · have hsps : (t.pushWords us).sps =
        update c.sps .main (c.sp - BitVec.ofNat 32 (4 * (us ++ ws).length)) := by
      rw [h.handles.push_sps, hsp, h.sps, Function.update_idem]
    rw [← hsps]
    exact congrArg (fun u : Cpu => { u with
      sps := (t.pushWords us).sps, mem := (t.pushWords us).mem }) h.rest
  · have hr : Others R top t.sp t.mem
        (storeWords t.mem (t.sp - BitVec.ofNat 32 (4 * us.length)) us) :=
      (h.room hroom).stored (Nat.le_refl _) fun _ hx => hx
    refine h.others.trans (hr.mono ?_)
    rw [h.sp]
    exact below_le (by omega)
  · rw [List.length_append, Cpu.stacked_push t us ws.length (by omega), h.stacked]

/-- The handler has been joined by others. -/
theorem Laid.ran (h : Laid R top c t ws) (ht : Tracks R top t s)
    (hfits : (top - c.sp).toNat + 4 * ws.length < 2 ^ 32) (pc : Word) :
    Ran R top c.sp c { s with pc := pc } (c.sp - BitVec.ofNat 32 (4 * ws.length)) ∧
      s.stacked ws.length = ws := by
  have hsp := h.sp
  refine ⟨⟨?_, ?_, h.others.trans (ht.others.mono ?_)⟩, ?_⟩
  · rw [ht.rest, h.rest]
  · rw [ht.rest]
    exact h.handles.psr
  · rw [hsp]
    exact below_le hfits
  · rw [ht.others.stacked h.handles.sp ht.sp (by rw [hsp]; exact le_below hfits), h.stacked]

end Stapel

theorem halIntrFrameSave_spec (henv : ∀ s s', s.Handles → env s s' → Disturbed R top s s')
    (hc : c.Handles) (hroom : Room R top c.sp 8)
    (h : Ends exec (halIntrFrameSave k) NoCall env (.before 0 c) q) :
    ∃ s, q = .left s ∧ Ran R top c.sp c s (c.sp - 32#32) ∧ s.stacked 8 = (frameRegs k).map c.r := by
  have hfits := hroom.fits
  have hf := tracks_follows henv
  cases k with
  | v6m =>
    have l1 := (Laid.start R top hc).push ([Reg.r4, .r5, .r6, .r7].map c.r)
      (hroom.mono (k := 4) (by decide))
    have l2 := l1.set .r4 (c.r .r8)
    have l3 := l2.set .r5 (c.r .r9)
    have l4 := l3.set .r6 (c.r .r10)
    have l5 := l4.set .r7 (c.r .r11)
    have l6 := l5.push [c.r .r8, c.r .r9, c.r .r10, c.r .r11] hroom
    have hl : Line exec (Safe R top) ((halIntrFrameSave .v6m).take 6) c _ :=
      .cons ⟨hc, (hroom.mono (k := 4) (by decide)).fits⟩ rfl
        (.cons ⟨l1.handles, trivial⟩ rfl
        (.cons ⟨l2.handles, trivial⟩ rfl
        (.cons ⟨l3.handles, trivial⟩ rfl
        (.cons ⟨l4.handles, trivial⟩ rfl
        (.cons ⟨l5.handles, (l5.room (k := 4) hroom).fits⟩ rfl (.nil _))))))
    obtain ⟨s6, k6, h⟩ := h.line hf hl rfl (.refl R top c)
    obtain ⟨s7, e7, h⟩ := h.instr
    obtain ⟨hran, hst⟩ := l6.ran (k6.later l6.handles henv e7) hfits s7.lr
    exact ⟨_, h.left, hran, hst⟩
  | v7m =>
    have l1 := (Laid.start R top hc).push
      ([Reg.r4, .r5, .r6, .r7, .r8, .r9, .r10, .r11].map c.r) hroom
    have hl : Line exec (Safe R top) ((halIntrFrameSave .v7m).take 1) c _ :=
      .cons ⟨hc, hfits⟩ rfl (.nil _)
    obtain ⟨s1, k1, h⟩ := h.line hf hl rfl (.refl R top c)
    obtain ⟨s2, e2, h⟩ := h.instr
    obtain ⟨hran, hst⟩ := l1.ran (k1.later l1.handles henv e2) hfits s2.lr
    exact ⟨_, h.left, hran, hst⟩

/-- The registers `rs` taken off the stack. -/
def Cpu.popped (c : Cpu) (rs : List Reg) : Cpu :=
  { c with r := loadRegs c.r rs (c.stacked rs.length) }.drop rs.length

/-- The handler entered in `c` has taken `n` words off the stack, and is alone. -/
structure Lifted (c t : Cpu) (n : Nat) : Prop where
  handles : t.Handles
  rest : t = { c with r := t.r, sps := update c.sps .main (c.sp + BitVec.ofNat 32 (4 * n)) }

theorem Lifted.start (hc : c.Handles) : Lifted c c 0 := by
  refine ⟨hc, ?_⟩
  have hsp : c.sp + BitVec.ofNat 32 (4 * 0) = c.sps .main := by
    rw [Cpu.sp, hc.active]
    exact BitVec.add_zero _
  rw [hsp, Function.update_eq_self]

theorem Lifted.sps (h : Lifted c t n) :
    t.sps = update c.sps .main (c.sp + BitVec.ofNat 32 (4 * n)) := by rw [h.rest]

theorem Lifted.mem (h : Lifted c t n) : t.mem = c.mem := by rw [h.rest]

theorem Lifted.sp (h : Lifted c t n) : t.sp = c.sp + BitVec.ofNat 32 (4 * n) := by
  rw [Cpu.sp, h.handles.active, h.sps, Function.update_self]

theorem Lifted.set (h : Lifted c t n) (d : Reg) (v : Word) : Lifted c (t.set d v) n :=
  ⟨h.handles.set d v, congrArg (fun t => t.set d v) h.rest⟩

theorem Lifted.pop (h : Lifted c t n) (rs : List Reg) : Lifted c (t.popped rs) (n + rs.length) := by
  have hh := h.handles
  have hr : { t with r := loadRegs t.r rs (t.stacked rs.length) }.Handles :=
    ⟨hh.handler, hh.spsel, hh.psr, hh.sp⟩
  refine ⟨hr.drop rs.length, ?_⟩
  have hsps : (t.popped rs).sps =
      update c.sps .main (c.sp + BitVec.ofNat 32 (4 * (n + rs.length))) := by
    refine (hh.drop_sps rs.length).trans ?_
    rw [h.sp, addr_add, h.sps, Function.update_idem]
  rw [← hsps]
  exact congrArg (fun u : Cpu => { u with r := (t.popped rs).r, sps := (t.popped rs).sps }) h.rest

theorem Lifted.fits {k : Nat} (h : Lifted c t n) (hfits : 4 * (n + k) ≤ (top - c.sp).toNat) :
    4 * k ≤ (top - t.sp).toNat := by
  rw [h.sp]
  bv_omega

/-- What is left on the stack. -/
theorem Lifted.stacked {k : Nat} (h : Lifted c t n) :
    t.stacked k = (c.stacked (n + k)).drop n := by
  rw [Cpu.stacked, Cpu.stacked, h.sp, h.mem, loadWords_append,
    List.drop_append_of_le_length (Nat.le_of_eq loadWords_length.symm),
    List.drop_eq_nil_of_le (Nat.le_of_eq loadWords_length), List.nil_append]

theorem Lifted.ran (h : Lifted c t n) (ht : Tracks R top t s) (pc : Word) :
    Ran R top (c.sp + BitVec.ofNat 32 (4 * n)) c { s with pc := pc }
      (c.sp + BitVec.ofNat 32 (4 * n)) := by
  have ho := ht.others
  refine ⟨?_, ?_, ?_⟩
  · rw [ht.rest, h.rest]
  · rw [ht.rest]
    exact h.handles.psr
  · rwa [h.sp, h.mem] at ho

def lowRegs : List Reg := [.r4, .r5, .r6, .r7]

def highRegs : List Reg := [.r8, .r9, .r10, .r11]

/-- Saved high registers moved from the low ones. -/
def Cpu.raised (c : Cpu) : Cpu :=
  (((c.set .r8 (c.r .r4)).set .r9 (c.r .r5)).set .r10 (c.r .r6)).set .r11 (c.r .r7)

theorem Lifted.raised (h : Lifted c t n) : Lifted c t.raised n :=
  (((h.set .r8 _).set .r9 _).set .r10 _).set .r11 _

theorem Cpu.raised_r (c : Cpu) : c.raised.r .r8 = c.r .r4 ∧ c.raised.r .r9 = c.r .r5 ∧
    c.raised.r .r10 = c.r .r6 ∧ c.raised.r .r11 = c.r .r7 := by
  simp [Cpu.raised, Cpu.set]

/-- The high registers loaded by way of the low ones, and then these. -/
theorem loadRegs_raised {r ρ : Reg → Word} (hc : c.r = loadRegs ρ lowRegs (highRegs.map r))
    {σ : Reg → Word} (hσ : ∀ d ∈ highRegs, σ d = c.raised.r d) {d : Reg} (hd : d ∈ calleeSaved) :
    loadRegs σ lowRegs (lowRegs.map r) d = r d := by
  rw [loadRegs_map]
  by_cases hl : d ∈ lowRegs
  · rw [if_pos hl]
  · have hh : d ∈ highRegs := by
      simp only [calleeSaved, lowRegs, highRegs, List.mem_cons, List.not_mem_nil, or_false,
        not_or] at hd hl ⊢
      simpa [hl] using hd
    obtain ⟨h8, h9, h10, h11⟩ := c.raised_r
    rw [if_neg hl, hσ d hh]
    simp only [highRegs, List.mem_cons, List.not_mem_nil, or_false] at hh
    obtain rfl | rfl | rfl | rfl := hh
    · rw [h8, hc]
      rfl
    · rw [h9, hc]
      rfl
    · rw [h10, hc]
      rfl
    · rw [h11, hc]
      rfl

theorem popped_raised_popped {r : Reg → Word} (hc : c.Handles)
    (hst : c.stacked 8 = (frameRegs .v6m).map r) {d : Reg} (hd : d ∈ calleeSaved) :
    ((c.popped lowRegs).raised.popped lowRegs).r d = r d := by
  obtain ⟨hhigh, hlow⟩ : c.stacked 4 = highRegs.map r ∧ (c.stacked 8).drop 4 = lowRegs.map r :=
    List.append_inj ((c.stacked_add 4 4).symm.trans hst)
      (by rw [Cpu.stacked, loadWords_length]; rfl)
  have l1 := ((Lifted.start hc).pop lowRegs).raised
  have hlast : (c.popped lowRegs).raised.stacked 4 = lowRegs.map r :=
    (l1.stacked (k := 4)).trans hlow
  have hpop : (c.popped lowRegs).r = loadRegs c.r lowRegs (highRegs.map r) := by
    rw [← hhigh]
    rfl
  refine Eq.trans ?_ (loadRegs_raised hpop (fun _ _ => rfl) hd)
  rw [← hlast]
  rfl

theorem halIntrFrameRestore_spec (henv : ∀ s s', s.Handles → env s s' → Disturbed R top s s')
    (hc : c.Handles) {r : Reg → Word} (hst : c.stacked 8 = (frameRegs k).map r)
    (hfits : 32 ≤ (top - c.sp).toNat)
    (h : Ends exec (halIntrFrameRestore k) NoCall env (.before 0 c) q) :
    ∃ s, q = .left s ∧ Ran R top (c.sp + 32#32) c s (c.sp + 32#32) ∧
      ∀ d ∈ calleeSaved, s.r d = r d := by
  have hf := tracks_follows henv
  cases k with
  | v6m =>
    have l1 := (Lifted.start hc).pop lowRegs
    have l2 := l1.set .r8 ((c.popped lowRegs).r .r4)
    have l3 := l2.set .r9 ((c.popped lowRegs).r .r5)
    have l4 := l3.set .r10 ((c.popped lowRegs).r .r6)
    have l5 := l4.set .r11 ((c.popped lowRegs).r .r7)
    have l6 := l1.raised.pop lowRegs
    have hl : Line exec (Safe R top) ((halIntrFrameRestore .v6m).take 6) c
        ((c.popped lowRegs).raised.popped lowRegs) :=
      .cons ⟨hc, Nat.le_trans (by decide) hfits⟩ rfl (.cons ⟨l1.handles, trivial⟩ rfl
        (.cons ⟨l2.handles, trivial⟩ rfl (.cons ⟨l3.handles, trivial⟩ rfl
        (.cons ⟨l4.handles, trivial⟩ rfl (.cons ⟨l5.handles, l5.fits (k := 4) hfits⟩ rfl
        (.nil _))))))
    obtain ⟨s6, k6, h⟩ := h.line hf hl rfl (.refl R top c)
    obtain ⟨s7, e7, h⟩ := h.instr
    have k7 := Tracks.later l6.handles k6 henv e7
    refine ⟨_, h.left, l6.ran k7 s7.lr, fun d hd => ?_⟩
    have hr : s7.r d = r d := (congrFun k7.r d).trans (popped_raised_popped hc hst hd)
    exact hr
  | v7m =>
    have l1 := (Lifted.start hc).pop [.r4, .r5, .r6, .r7, .r8, .r9, .r10, .r11]
    have hl : Line exec (Safe R top) ((halIntrFrameRestore .v7m).take 1) c _ :=
      .cons ⟨hc, hfits⟩ rfl (.nil _)
    obtain ⟨s1, k1, h⟩ := h.line hf hl rfl (.refl R top c)
    obtain ⟨s2, e2, h⟩ := h.instr
    have k2 := Tracks.later l1.handles k1 henv e2
    refine ⟨_, h.left, l1.ran k2 s2.lr, fun d hd => ?_⟩
    have hr : s2.r = loadRegs c.r [.r4, .r5, .r6, .r7, .r8, .r9, .r10, .r11] (c.stacked 8) := by
      rw [k2.rest]
      rfl
    rw [hr, hst]
    exact (loadRegs_map c.r r _ d).trans (if_pos hd)

/-! ## 3. The interrupt -/

theorem Ran.sps {sp : Word} (h : Ran R top a c s sp) : s.sps = update c.sps .main sp := by
  rw [h.rest]

theorem Ran.sp {sp : Word} (h : Ran R top a c s sp) (hc : c.Handles) : s.sp = sp := by
  have hact : s.active = .main := by
    rw [h.rest]
    exact hc.active
  rw [Cpu.sp, hact, h.sps, Function.update_self]

theorem Ran.handles {sp : Word} (h : Ran R top a c s sp) (hc : c.Handles) (hsp : Aligned sp) :
    s.Handles := by
  have hs := h.sp hc
  refine ⟨?_, ?_, h.psr, hs ▸ hsp⟩
  · rw [h.rest]
    exact hc.handler
  · rw [h.rest]
    exact hc.spsel

theorem Ran.mono {b sp : Word} (h : Ran R top b c s sp) (hle : (a - b).toNat ≤ (top - b).toNat) :
    Ran R top a c s sp := ⟨h.rest, h.psr, h.others.mono hle⟩

theorem Ran.trans {sp sp' : Word} (h : Ran R top a c s sp) (h' : Ran R top a s t sp') :
    Ran R top a c t sp' := by
  refine ⟨?_, h'.psr, h.others.trans h'.others⟩
  have hr := h'.rest
  rw [h.rest] at hr
  simp only [Function.update_idem] at hr
  exact hr

theorem Ran.drop {sp : Word} (h : Ran R top a c s sp) (hc : c.Handles) (k : Nat) :
    Ran R top a c (s.drop k) (sp + BitVec.ofNat 32 (4 * k)) := by
  refine ⟨?_, h.psr, h.others⟩
  have hact : s.active = .main := by
    rw [h.rest]
    exact hc.active
  have hsps : (s.drop k).sps = update c.sps .main (sp + BitVec.ofNat 32 (4 * k)) := by
    rw [Cpu.drop, h.sp hc, hact, h.sps, Function.update_idem]
  rw [← hsps]
  exact congrArg (fun u : Cpu => { u with sps := (s.drop k).sps }) h.rest

/-- Only others have run. -/
theorem ran_later (hc : c.Handles) (henv : ∀ s s', s.Handles → env s s' → Disturbed R top s s')
    (he : ReflTransGen env c s) : Ran R top c.sp c s c.sp ∧ s.r = c.r := by
  have ht := (Tracks.refl R top c).later hc henv he
  have hsps : update c.sps .main c.sp = c.sps := by
    rw [Cpu.sp, hc.active, Function.update_eq_self]
  refine ⟨⟨?_, ?_, ht.others⟩, ?_⟩
  · rw [hsps, ht.rest]
  · rw [ht.rest]
    exact hc.psr
  · rw [ht.rest]

/-- A call: others may come before it. -/
theorem ends_bl {f : Fn} {pc : Nat} {code : List Instr} {fn : Fn → Cpu → Cpu → Prop}
    (hc : c.Handles) (henv : ∀ s s', s.Handles → env s s' → Disturbed R top s s')
    (hi : code[pc]? = some (.bl f)) (h : Ends exec code fn env (.before pc c) q) :
    ∃ s s', Ran R top c.sp c s c.sp ∧ s.r = c.r ∧ fn f s s' ∧
      Ends exec code fn env (.before (pc + 1) s') q := by
  obtain ⟨s, he, h⟩ := h.instr
  rw [execAt_of hi] at h
  obtain ⟨s', hcall, h⟩ := Ends.callee h
  obtain ⟨hran, hr⟩ := ran_later hc henv he
  exact ⟨s, s', hran, hr, hcall, h⟩

theorem intrCall_save (henv : ∀ s s', s.Handles → env s s' → Disturbed R top s s')
    (hs : s.Handles) (hroom : Room R top s.sp 8) (h : IntrCall k R top env .intrFrameSave s s') :
    Ran R top s.sp s s' (s.sp - 32#32) ∧ s'.stacked 8 = (frameRegs k).map s.r := by
  obtain ⟨lr, hsave⟩ := h
  have hs' : { s with lr := lr }.Handles := ⟨hs.handler, hs.spsel, hs.psr, hs.sp⟩
  obtain ⟨_, e, hran, hst⟩ := halIntrFrameSave_spec henv hs' hroom hsave
  cases e
  exact ⟨⟨hran.rest, hran.psr, hran.others⟩, hst⟩

theorem intrCall_restore {r : Reg → Word}
    (henv : ∀ s s', s.Handles → env s s' → Disturbed R top s s') (hs : s.Handles)
    (hst : s.stacked 8 = (frameRegs k).map r) (hfits : 32 ≤ (top - s.sp).toNat)
    (h : IntrCall k R top env .intrFrameRestore s s') :
    Ran R top (s.sp + 32#32) s s' (s.sp + 32#32) ∧ ∀ d ∈ calleeSaved, s'.r d = r d := by
  obtain ⟨lr, hrestore⟩ := h
  have hs' : { s with lr := lr }.Handles := ⟨hs.handler, hs.spsel, hs.psr, hs.sp⟩
  obtain ⟨_, e, hran, hr⟩ := halIntrFrameRestore_spec henv hs' hst hfits hrestore
  cases e
  exact ⟨⟨hran.rest, hran.psr, hran.others⟩, hr⟩

/-- The three calls. -/
theorem halIntrEntry_calls (henv : ∀ s s', s.Handles → env s s' → Disturbed R top s s')
    (hc : c.Handles) (hroom : Room R top c.sp 8)
    (h : Ends exec halIntrEntry (IntrCall k R top env) env (.before 1 c) q) :
    ∃ s, Ran R top c.sp c s c.sp ∧ (∀ d ∈ calleeSaved, s.r d = c.r d) ∧
      Ends exec halIntrEntry (IntrCall k R top env) env (.before 4 s) q := by
  have hfits := hroom.fits
  have hz : Aligned (c.sp - 32#32) := hc.sp.sub 8
  -- hal_intr_frame_save
  obtain ⟨s1, s2, r1, hr1, hsave, h⟩ := ends_bl hc henv (f := .intrFrameSave) rfl h
  have hsp1 := r1.sp hc
  have h1 := r1.handles hc hc.sp
  obtain ⟨r2, hst2⟩ := intrCall_save henv h1 (hsp1 ▸ hroom) hsave
  rw [hsp1] at r2
  have h2 := r2.handles h1 hz
  have hsp2 := r2.sp h1
  -- fx_intr_handler
  obtain ⟨s3, s4, r3, _, hfx, h⟩ := ends_bl h2 henv (f := .fxIntrHandler) rfl h
  have h3 := r3.handles h2 (hsp2 ▸ hz)
  have r4 := hfx.ran
  rw [r3.sp h2] at r4
  have h4 := r4.handles h3 (hsp2 ▸ hz)
  -- hal_intr_frame_restore
  obtain ⟨s5, s6, r5, _, hrestore, h⟩ := ends_bl h4 henv (f := .intrFrameRestore) rfl h
  rw [r4.sp h3] at r5
  have r25 := (r3.trans r4).trans r5
  have hsp5 := r5.sp h4
  have h5 := r5.handles h4 (hsp2 ▸ hz)
  have hst5 : s5.stacked 8 = (frameRegs k).map c.r := by
    rw [r25.others.stacked h2.sp hsp5 (by rw [hsp2]; exact le_below (n := 8) hfits), hst2, hr1]
  obtain ⟨r6, hr6⟩ := intrCall_restore henv h5 hst5
    (by rw [hsp5, hsp2]; exact le_below (n := 8) hfits) hrestore
  rw [hsp5, hsp2, BitVec.sub_add_cancel] at r6
  rw [hsp2] at r25
  have r25 := r25.mono (below_le (n := 8) hfits)
  exact ⟨s6, r1.trans (r2.trans (r25.trans r6)), hr6, h⟩

/-- **The code of an interrupt** keeps the registers that a function keeps, and its stack. -/
theorem halIntrEntry_spec (henv : ∀ s s', s.Handles → env s s' → Disturbed R top s s')
    (hc : c.Handles) (hroom : Room R top c.sp 9)
    (h : Ends exec halIntrEntry (IntrCall k R top env) env (.before 0 c) q) :
    ∃ s, q = .left s ∧ Ran R top c.sp c s c.sp ∧ s.pc = c.lr ∧
      ∀ d ∈ calleeSaved, s.r d = c.r d := by
  have hroom1 := hroom.mono (k := 1) (by decide)
  have hy : Aligned (c.sp - 4#32) := hc.sp.sub 1
  -- lr is pushed
  have l1 := (Laid.start R top hc).push [c.lr] hroom1
  have hl : Line exec (Safe R top) (halIntrEntry.take 1) c _ := .cons ⟨hc, hroom1.fits⟩ rfl (.nil _)
  obtain ⟨s0, k0, h⟩ := h.line (tracks_follows henv) hl rfl (.refl R top c)
  obtain ⟨r0, hst0⟩ := l1.ran k0 hroom1.fits s0.pc
  have h0 := r0.handles hc hy
  have hsp0 : s0.sp = c.sp - 4#32 := r0.sp hc
  have hr0 : s0.r = c.r := k0.r
  obtain ⟨s1, r1, hr1, h⟩ := halIntrEntry_calls henv h0 (hsp0 ▸ hroom.below (n := 1)) h
  -- lr is popped into pc
  obtain ⟨s2, e2, h⟩ := h.instr
  have h1 := r1.handles h0 h0.sp
  obtain ⟨r2, hr2⟩ := ran_later h1 henv e2
  rw [r1.sp h0] at r2
  have r12 := r1.trans r2
  have hlr : s2.mem s2.sp = c.lr := by
    have hst : s2.stacked 1 = [c.lr] := by
      rw [r12.others.stacked h0.sp (r12.sp h0) (by rw [hsp0]; exact le_below (n := 1) hroom1.fits)]
      exact hst0
    exact List.head_eq_of_cons_eq hst
  rw [hsp0] at r12
  have r3 := (r0.trans (r12.mono (below_le (n := 1) hroom1.fits))).drop hc 1
  have hback : c.sp - 4#32 + 4#32 = c.sp := BitVec.sub_add_cancel ..
  refine ⟨_, h.left, ⟨?_, r3.psr, r3.others⟩, hlr, fun d hd => ?_⟩
  · have hrest := r3.rest
    rw [show BitVec.ofNat 32 (4 * 1) = 4#32 from rfl, hback] at hrest
    exact congrArg (fun u : Cpu => { u with pc := s2.mem s2.sp }) hrest
  · have hr : s2.r d = c.r d := by rw [hr2, hr1 d hd, hr0]
    exact hr

/-- The handler that the exception starts. -/
theorem Taken.handles (h : Taken c s) (hc : Aligned c.sp) (hm : Aligned (c.sps .main)) :
    s.Handles ∧ s.sp = if c.active = .main then c.frameAddr else c.sps .main := by
  have hact : s.active = .main := by
    rw [h.rest]
    rfl
  have hsp : s.sp = if c.active = .main then c.frameAddr else c.sps .main := by
    rw [Cpu.sp, hact, h.rest]
    by_cases hk : c.active = .main
    · rw [if_pos hk, hk]
      exact Function.update_self Stack.main c.frameAddr c.sps
    · rw [if_neg hk]
      exact Function.update_of_ne (Ne.symm hk) c.frameAddr c.sps
  refine ⟨⟨?_, ?_, h.psr, ?_⟩, hsp⟩
  · rw [h.rest]
  · rw [h.rest]
  · rw [hsp]
    by_cases hk : c.active = .main
    · rw [if_pos hk]
      exact c.frameAddr_aligned hc
    · rwa [if_neg hk]

/-- The frame of an exception on the main stack. -/
theorem Room.frame (h : Room R top c.sp 18) : Room R top c.frameAddr 9 ∧
    ∀ m, Others R top c.sp m (storeWords m c.frameAddr c.hwFrame) := by
  have hf := h.fits
  have hlen : c.hwFrame.length ≤ 18 := by simp [Cpu.hwFrame, hwSaved]
  refine ⟨⟨?_, fun x hx => h.free x ?_⟩, fun m => h.stored hlen fun x hx => ?_⟩
  · obtain e | e := c.frameAddr_cases
    · rw [e]
      bv_omega
    · rw [e]
      bv_omega
  · unfold InBlock at *
    obtain e | e := c.frameAddr_cases
    · rw [e] at hx
      bv_omega
    · rw [e] at hx
      bv_omega
  · have hx := c.frameAddr_block hx
    unfold InBlock at *
    bv_omega

/-- The words below the stack pointer, where the frame of an exception goes. -/
def Cpu.framed (c : Cpu) (x : Word) : Prop := InBlock (c.sp - 36#32) 9 x

/-- A thread on its own stack, or a handler, that can be interrupted. Nobody else writes to the
    frame on the stack of the thread. -/
structure Cpu.Interruptible (R : Word → Word → Word → Prop) (top : Word) (c : Cpu) : Prop where
  unmasked : c.primask = false
  psr : c.psr.getLsbD 9 = false
  sp : Aligned c.sp
  main : Aligned (c.sps .main)
  room : Room R top (c.sps .main) 18
  mode : c.handler = false ∧ c.spsel = true ∧ (∀ x, c.framed x → ∀ v w, R x v w → w = v) ∨
    c.handler = true ∧ c.spsel = false

theorem Cpu.hwFrame_length (c : Cpu) : c.hwFrame.length = 8 := by simp [Cpu.hwFrame, hwSaved]

theorem Cpu.frameAddr_depth (hfits : (top - c.sp).toNat + 36 < 2 ^ 32) :
    32 ≤ (top - c.frameAddr).toNat ∧ (c.sp - c.frameAddr).toNat ≤ (top - c.frameAddr).toNat := by
  obtain e | e := c.frameAddr_cases
  · rw [e]
    bv_omega
  · rw [e]
    bv_omega

theorem Taken.mem (h : Taken c s) : s.mem = storeWords c.mem c.frameAddr c.hwFrame := by
  rw [h.rest]

/-- The handler, its stack, and the frame of what it has interrupted. -/
theorem Cpu.Interruptible.taken (hc : c.Interruptible R top) (h : Taken c s) :
    s.Handles ∧ Room R top s.sp 9 ∧
      ∀ m, Others R top s.sp s.mem m → loadWords m c.frameAddr 8 = c.hwFrame := by
  obtain ⟨hs, hsp⟩ := h.handles hc.sp hc.main
  have hload : loadWords (storeWords c.mem c.frameAddr c.hwFrame) c.frameAddr c.hwFrame.length =
      c.hwFrame := loadWords_storeWords (by rw [c.hwFrame_length]; decide)
  rw [← h.mem, c.hwFrame_length] at hload
  have ha := c.frameAddr_aligned hc.sp
  obtain ⟨hh, hsel, hheld⟩ | ⟨hh, _⟩ := hc.mode
  · have hact : c.active ≠ .main := by simp [Cpu.active, hh, hsel]
    rw [if_neg hact] at hsp
    refine ⟨hs, hsp ▸ hc.room.mono (by decide), fun m hm => ?_⟩
    rw [← hload]
    exact loadWords_aligned ha fun x hin _ => hm.fixed (hheld x (c.frameAddr_block hin))
  · have hact : c.active = .main := by simp [Cpu.active, hh]
    have hroom : Room R top c.sp 18 := by
      rw [Cpu.sp, hact]
      exact hc.room
    have hfits := hroom.fits
    rw [if_pos hact] at hsp
    refine ⟨hs, hsp ▸ hroom.frame.1, fun m hm => ?_⟩
    rw [hsp] at hm
    rw [← hload]
    exact loadWords_aligned ha fun x hin hx =>
      hm.stack x hx (Nat.lt_of_lt_of_le hin (Cpu.frameAddr_depth (by omega)).1)

/-- **The way back**, with any interrupts nested in the handler. -/
theorem Cpu.Interruptible.back (henv : ∀ s s', s.Handles → env s s' → Disturbed R top s s')
    (hc : c.Interruptible R top) (h : Taken c s)
    (he : Ends exec halIntrEntry (IntrCall k R top env) env (.before 0 s) (.left s')) :
    Others R top s.sp s.mem s'.mem ∧
      s'.excReturn = some { c with mem := s'.mem, monitor := false } := by
  obtain ⟨hs, hroom, hframe⟩ := hc.taken h
  obtain ⟨_, e, hran, hpc, hr⟩ := halIntrEntry_spec henv hs hroom he
  cases e
  have hlr : s.lr = c.excReturnCode := by rw [h.rest]
  have hmask : s'.primask = false := by
    rw [hran.rest, h.rest]
    exact hc.unmasked
  have hsps : s'.sps = s.sps := by
    rw [hran.sps, Cpu.sp, hs.active, Function.update_eq_self]
  have hmode : c.handler = true → c.spsel = false := fun e => by
    obtain ⟨hh, _⟩ | ⟨_, hsel⟩ := hc.mode
    · exact absurd (hh.symm.trans e) (by decide)
    · exact hsel
  exact ⟨hran.others, h.returned hc.psr hmode (hpc.trans hlr) hsps
    (fun d hd => (hr d hd).trans (h.saved d hd)) hmask (hframe _ hran.others)⟩

theorem Others.disturbed (hc : c.primask = false) (hsp : Aligned c.sp) {m : Word → Word}
    (h : Others R top c.sp c.mem m) : Disturbed R top c { c with mem := m, monitor := false } := by
  refine ⟨hc, rfl, fun k hk => h.stack _ (hsp.add k) ?_, h.words⟩
  unfold Live
  bv_omega

/-- **An interrupt in a handler**, with all that is nested in it, changes nothing that the handler
    notices. -/
theorem Interrupt.disturbed (hc : c.Handles) (h : Interrupt k R top n c c') :
    Disturbed R top c c' := by
  induction n generalizing c c' with
  | zero => exact h.elim
  | succ n ih =>
    obtain ⟨hroom, s, s', htaken, he, hret⟩ := h
    have hi : c.Interruptible R top := ⟨htaken.unmasked, hc.psr, hc.sp, hc.active ▸ hc.sp, hroom,
      .inr ⟨hc.handler, hc.spsel⟩⟩
    obtain ⟨ho, hr⟩ := hi.back (fun _ _ hh => ih hh) htaken he
    rw [hret] at hr
    cases hr
    have hroom : Room R top c.sp 18 := by rwa [Cpu.sp, hc.active]
    have hfits := hroom.fits
    have hsp := (htaken.handles hc.sp hi.main).2
    rw [if_pos hc.active] at hsp
    rw [hsp, htaken.mem] at ho
    exact Others.disturbed htaken.unmasked hc.sp
      ((hroom.frame.2 c.mem).trans (ho.mono (Cpu.frameAddr_depth (by omega)).2))

/-! ## 4. Without others -/

theorem halIntrFrameSave_leads (k : Core) (c : Cpu) :
    ∃ s, Leads exec (halIntrFrameSave k) (.before 0 c) (.left s) := by
  cases k with
  | v6m => exact ⟨_, 7, rfl⟩
  | v7m => exact ⟨_, 2, rfl⟩

theorem halIntrFrameRestore_leads (k : Core) (c : Cpu) :
    ∃ s, Leads exec (halIntrFrameRestore k) (.before 0 c) (.left s) := by
  cases k with
  | v6m => exact ⟨_, 7, rfl⟩
  | v7m => exact ⟨_, 2, rfl⟩

/-- A handler that does nothing. -/
theorem cCall_refl (hc : c.Handles) : CCall R top c c := by
  have hsps : update c.sps .main c.sp = c.sps := by
    rw [Cpu.sp, hc.active, Function.update_eq_self]
  refine ⟨⟨?_, hc.psr, .refl R top c.sp c.mem⟩, fun _ _ => rfl⟩
  rw [hsps]

theorem halIntrEntry_leaves (henv : ∀ s s', s.Handles → env s s' → Disturbed R top s s')
    (hc : c.Handles) (hroom : Room R top c.sp 9) :
    ∃ s, Ends exec halIntrEntry (IntrCall k R top env) env (.before 0 c) (.left s) := by
  have l1 := (Laid.start R top hc).push [c.lr] (hroom.mono (k := 1) (by decide))
  obtain ⟨s2, hsave⟩ := halIntrFrameSave_leads k (c.pushWords [c.lr])
  have hsave : IntrCall k R top env .intrFrameSave (c.pushWords [c.lr]) s2 :=
    ⟨c.lr, hsave.run, trivial⟩
  obtain ⟨hran, _⟩ := intrCall_save henv l1.handles (l1.room (k := 8) hroom) hsave
  have h2 := hran.handles l1.handles (l1.handles.sp.sub 8)
  obtain ⟨s3, hrestore⟩ := halIntrFrameRestore_leads k s2
  have hrestore : IntrCall k R top env .intrFrameRestore s2 s3 := ⟨s2.lr, hrestore.run, trivial⟩
  have hfx : IntrCall k R top env .fxIntrHandler s2 s2 := cCall_refl h2
  refine ⟨{ s3 with pc := s3.mem s3.sp }.drop 1, ?_, trivial⟩
  exact .head (.instr 0 c) (.head (.instr 1 _) (.head (.callee Fn.intrFrameSave 2 hsave)
    (.head (.instr 2 s2) (.head (.callee Fn.fxIntrHandler 3 hfx) (.head (.instr 3 s2)
    (.head (.callee Fn.intrFrameRestore 4 hrestore) (.single (.instr 4 s3))))))))

/-- The exception, with the other registers as they are. -/
def Cpu.enter (c : Cpu) : Cpu :=
  { c with
    lr := c.excReturnCode, psr := 0#32, sps := update c.sps c.active c.frameAddr, handler := true,
    spsel := false, monitor := false, mem := storeWords c.mem c.frameAddr c.hwFrame }

theorem taken_enter (hm : c.primask = false) : Taken c c.enter :=
  ⟨hm, rfl, fun _ _ => rfl, by simp [Cpu.enter]⟩

/-- An interrupt on the whole, with others nested in it. -/
theorem Interrupt.back (hc : c.Interruptible R top) (h : Interrupt k R top n c c') :
    c' = { c with mem := c'.mem, monitor := false } ∧
      (∀ x, ¬ c.framed x → Changes R c.mem c'.mem x) ∧
      (c.handler = true → Disturbed R top c c') := by
  cases n with
  | zero => exact h.elim
  | succ n =>
    have hd : c.handler = true → Disturbed R top c c' := fun hh => by
      obtain ⟨he, _⟩ | ⟨_, hsel⟩ := hc.mode
      · exact absurd (he.symm.trans hh) (by decide)
      · exact h.disturbed ⟨hh, hsel, hc.psr, hc.sp⟩
    obtain ⟨_, s, s', htaken, he, hret⟩ := h
    obtain ⟨ho, hr⟩ := hc.back (fun _ _ hs h => h.disturbed hs) htaken he
    rw [hret] at hr
    cases hr
    refine ⟨rfl, fun x hx => ?_, hd⟩
    have hw := ho.words x
    have hout : ¬ InBlock c.frameAddr c.hwFrame.length x := fun hin =>
      hx (c.frameAddr_block (c.hwFrame_length ▸ hin))
    rwa [Changes, htaken.mem, storeWords_out (by rw [c.hwFrame_length]; decide) hout] at hw

/-- **Interrupts are transparent**, to threads and to handlers, however deep they are nested: one
    that is taken comes to its end without a fault and returns, registers, flags, mode and both
    stack pointers are as they were, and what has changed in the memory was changed by the
    handlers. -/
theorem interrupt_transparent (k : Core) (R : Word → Word → Word → Prop) (top : Word) (n : Nat)
    (c : Cpu) (hc : c.Interruptible R top) :
    (∃ c', Interrupt k R top (n + 1) c c') ∧
    (∀ s q, Taken c s → Ends exec halIntrEntry (IntrCall k R top (Interrupt k R top n))
      (Interrupt k R top n) (.before 0 s) q → ∃ s' c', q = .left s' ∧ s'.excReturn = some c') ∧
    ∀ c', Interrupt k R top n c c' →
      c' = { c with mem := c'.mem, monitor := false } ∧
      (∀ x, ¬ c.framed x → Changes R c.mem c'.mem x) ∧
      (c.handler = true → Disturbed R top c c') := by
  have henv := fun s s' (hs : s.Handles) (h : Interrupt k R top n s s') => h.disturbed hs
  refine ⟨?_, fun s q ht he => ?_, fun c' h => h.back hc⟩
  · obtain ⟨hs, hroom, _⟩ := hc.taken (taken_enter hc.unmasked)
    obtain ⟨s', he⟩ := halIntrEntry_leaves (k := k) henv hs hroom
    exact ⟨_, hc.room, _, s', taken_enter hc.unmasked, he,
      (hc.back henv (taken_enter hc.unmasked) he).2⟩
  · obtain ⟨hs, hroom, _⟩ := hc.taken ht
    obtain ⟨s', rfl, _⟩ := halIntrEntry_spec henv hs hroom he
    exact ⟨s', _, rfl, (hc.back henv ht he).2⟩

end Unterprogramm

/-- A main stack of four kilobytes, and handlers that write nowhere else. -/
def sampleWrites (x _ _ : Word) : Prop := InBlock 0x20003000#32 1024 x

theorem sampleCpu_interruptible : sampleCpu.Interruptible sampleWrites 0x20004000#32 := by
  refine ⟨rfl, by decide, by decide, by decide, ⟨by decide, fun x hx _ _ => ?_⟩,
    .inl ⟨rfl, rfl, fun x hx _ _ hw => ?_⟩⟩
  · have hsp : sampleCpu.sps .main = 0x20004000#32 := rfl
    rw [hsp] at hx
    unfold sampleWrites InBlock at *
    bv_omega
  · have hsp : sampleCpu.sp = 0x20002000#32 := rfl
    unfold sampleWrites Cpu.framed InBlock at *
    rw [hsp] at hx
    bv_omega

/-- Three levels of interrupts, taken by a thread. -/
theorem interrupt_transparent_sample :
    (∃ c', Interrupt .v6m sampleWrites 0x20004000#32 (3 + 1) sampleCpu c') ∧
      (∀ s q, Taken sampleCpu s → Ends exec halIntrEntry
        (IntrCall .v6m sampleWrites 0x20004000#32 (Interrupt .v6m sampleWrites 0x20004000#32 3))
        (Interrupt .v6m sampleWrites 0x20004000#32 3) (.before 0 s) q →
        ∃ s' c', q = .left s' ∧ s'.excReturn = some c') ∧
      ∀ c', Interrupt .v6m sampleWrites 0x20004000#32 3 sampleCpu c' →
        c' = { sampleCpu with mem := c'.mem, monitor := false } ∧
        (∀ x, ¬ sampleCpu.framed x → Changes sampleWrites sampleCpu.mem c'.mem x) ∧
        (sampleCpu.handler = true → Disturbed sampleWrites 0x20004000#32 sampleCpu c') :=
  interrupt_transparent .v6m sampleWrites 0x20004000#32 3 sampleCpu sampleCpu_interruptible

end FxRtos.Thumb
