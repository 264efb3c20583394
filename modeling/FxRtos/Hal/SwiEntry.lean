/-
  File:      FxRtos/Hal/SwiEntry.lean
  Subject:   THE SOFTWARE INTERRUPT OF THE CORTEX-M (hal_cpu_intr.S: hal_swi_entry; hw_cpu.S:
             hw_cpu_set_psp). It puts the registers of the thread on the stack of the thread, calls
             the dispatch handler, and takes registers off the stack that PSP points to by then.
             Interrupts may be taken between any two instructions.

  * `SwiSaved`, `SwiLoaded` -- what the code before and after the call does, on its own.
  * `Switches` -- the dispatch handler where it switches the context.
  * `halSwiEntry_spec` -- the whole of it, with interrupts; `halSwiEntry_ends` -- it comes to its
    end.
-/
import FxRtos.Hal.IntrEntry

namespace FxRtos.Thumb

open Function (update)
open Lib
open Relation (ReflTransGen)

/-! ## 1. The code -/

def halSwiEntry : Core → List Instr
  | .v6m =>
    [.pushLr,
     .mrs .r0 (.sp .process),
     .subsImm .r0 .r0 16#32,
     .stmia .r0 [.r4, .r5, .r6, .r7],
     .mov .r4 .r8,
     .mov .r5 .r9,
     .mov .r6 .r10,
     .mov .r7 .r11,
     .subsImm .r0 .r0 32#32,
     .stmia .r0 [.r4, .r5, .r6, .r7],
     .subsImm .r0 .r0 16#32,
     .msr (.sp .process) .r0,
     .bl .fxDispatchHandler,
     .mrs .r0 (.sp .process),
     .ldmia .r0 [.r4, .r5, .r6, .r7],
     .mov .r8 .r4,
     .mov .r9 .r5,
     .mov .r10 .r6,
     .mov .r11 .r7,
     .ldmia .r0 [.r4, .r5, .r6, .r7],
     .msr (.sp .process) .r0,
     .popPc]
  | .v7m =>
    [.mrs .r0 (.sp .process),
     .stmdb .r0 [.r4, .r5, .r6, .r7, .r8, .r9, .r10, .r11],
     .msr (.sp .process) .r0,
     .pushLr,
     .bl .fxDispatchHandler,
     .popLr,
     .mrs .r0 (.sp .process),
     .ldmia .r0 [.r4, .r5, .r6, .r7, .r8, .r9, .r10, .r11],
     .msr (.sp .process) .r0,
     .bx]

/-- Where the dispatch handler is called. -/
def swiCall : Core → Nat
  | .v6m => 12
  | .v7m => 4

def hwCpuSetPsp : List Instr :=
  [.mrs .r1 (.sp .process),
   .msr (.sp .process) .r0,
   .mov .r0 .r1,
   .isb,
   .bx]

variable {k : Core} {c c' s s' t t' : Cpu} {R : Word → Word → Word → Prop} {top a x : Word}
  {n : Nat} {env : Cpu → Cpu → Prop}

/-! ## 2. The way in -/

/-- The registers of `c` are on the process stack, lr is on the main stack. -/
structure SwiSaved (k : Core) (c t : Cpu) : Prop where
  handles : t.Handles
  rest : t = { c with
    r := t.r, psr := t.psr,
    sps := update (update c.sps .main (c.sp - 4#32)) .process (c.sps .process - 32#32),
    mem := t.mem }
  regs : loadWords t.mem (c.sps .process - 32#32) 8 = (frameRegs k).map c.r
  lr : t.mem (c.sp - 4#32) = c.lr
  words : ∀ x, ¬ InBlock (c.sps .process - 32#32) 8 x → ¬ InBlock (c.sp - 4#32) 1 x →
    t.mem x = c.mem x

/-- Nothing but registers and memory is different. -/
theorem Cpu.Handles.upd (h : c.Handles) (d : Reg) (v : Word) (m : Word → Word) :
    { c.set d v with mem := m }.Handles := ⟨h.handler, h.spsel, h.psr, h.sp⟩

theorem getLsbD_subFlags (v w psr : Word) : (subFlags v w psr).getLsbD 9 = psr.getLsbD 9 := by
  unfold subFlags nz
  rw [getLsbD_setFlag (by decide), getLsbD_setFlag (by decide), getLsbD_setFlag (by decide),
    getLsbD_setFlag (by decide)]
  rfl

theorem Cpu.Handles.subs (h : c.Handles) (d : Reg) (u v w : Word) :
    { c.set d u with psr := subFlags v w c.psr }.Handles :=
  ⟨h.handler, h.spsel, (getLsbD_subFlags v w c.psr).trans h.psr, h.sp⟩

theorem Cpu.Handles.setPsp (h : c.Handles) (p : Word) :
    { c with sps := update c.sps .process p }.Handles := by
  refine ⟨h.handler, h.spsel, h.psr, ?_⟩
  have hsp : { c with sps := update c.sps .process p }.sp = c.sp := by
    simp [Cpu.sp, Cpu.active, h.handler]
  rw [hsp]
  exact h.sp

theorem aligned_mask (h : Aligned a) : a &&& ~~~3#32 = a := by
  have hsplit : a &&& 3#32 ||| a &&& ~~~3#32 = a := by
    rw [← BitVec.and_or_distrib_left, show 3#32 ||| ~~~3#32 = BitVec.allOnes 32 by decide,
      BitVec.and_allOnes]
  rw [Aligned] at h
  rw [h] at hsplit
  simpa using hsplit

theorem Cpu.Handles.pushLr (h : c.Handles) : c.pushWords [c.lr] = { c with
    sps := update c.sps .main (c.sp - 4#32), mem := storeWords c.mem (c.sp - 4#32) [c.lr] } := by
  rw [← h.active]
  rfl

/-- The word for lr is free, the words for the registers are kept by others. -/
structure Apart (R : Word → Word → Word → Prop) (top p a : Word) : Prop where
  room : Room R top a 1
  held : ∀ x, InBlock (p - 32#32) 8 x → ∀ v w, R x v w → w = v

theorem Apart.disjoint {p : Word} (h : Apart R top p a) (hx : InBlock (a - 4#32) 1 x) :
    ¬ InBlock (p - 32#32) 8 x := fun hin => by
  have := h.held x hin 0#32 1#32 (h.room.free x hx _ _)
  exact absurd this (by decide)

/-- Registers, flags and memory may differ. -/
def Inner (c t : Cpu) : Prop := t = { c with r := t.r, psr := t.psr, mem := t.mem }

theorem Inner.trans (h : Inner c s) (h' : Inner s t) : Inner c t := by
  unfold Inner at *
  rw [h', h]

/-- The words `ws` stored by way of r0. -/
structure Stored (t t' : Cpu) (b : Word) (ws : List Word) : Prop where
  handles : t'.Handles
  inner : Inner t t'
  mem : t'.mem = storeWords t.mem b ws
  r0 : t'.r .r0 = b + BitVec.ofNat 32 (4 * ws.length)
  kept : ∀ d, d ≠ .r0 → t'.r d = t.r d

/-- ARMv6-M has no `stmdb`. -/
theorem line_store (R : Word → Word → Word → Prop) (top : Word) (ht : t.Handles) (n : Word)
    (rs : List Reg) (ha : Aligned (t.r .r0 - n)) (hrs : .r0 ∉ rs) :
    ∃ t', Line exec (Safe R top) [.subsImm .r0 .r0 n, .stmia .r0 rs] t t' ∧
      Stored t t' (t.r .r0 - n) (rs.map t.r) := by
  have h1 := ht.subs .r0 (t.r .r0 - n) (t.r .r0) n
  have hmap : rs.map (t.set .r0 (t.r .r0 - n)).r = rs.map t.r :=
    List.map_congr_left fun d hd => t.set_ne _ fun e => hrs (e ▸ hd)
  have he : exec (.stmia .r0 rs)
      { t.set .r0 (t.r .r0 - n) with psr := subFlags (t.r .r0) n t.psr } =
      .next { { t.set .r0 (t.r .r0 - n) with psr := subFlags (t.r .r0) n t.psr }.set .r0
          (t.r .r0 - n + BitVec.ofNat 32 (4 * rs.length)) with
        mem := storeWords t.mem (t.r .r0 - n) (rs.map t.r) } := by
    rw [← hmap]
    simp [exec, ha, Cpu.set]
  have hl : Line exec (Safe R top) [.subsImm .r0 .r0 n, .stmia .r0 rs] t _ :=
    .cons ⟨ht, trivial⟩ rfl (.cons ⟨h1, trivial⟩ he (.nil _))
  refine ⟨_, hl, h1.upd _ _ _, rfl, rfl, ?_, ?_⟩
  · simp [Cpu.set]
  · intro d hd
    simp [Cpu.set, hd]

/-- The high registers, which only `mov` can read, moved to the low ones. -/
def Cpu.lowered (c : Cpu) : Cpu :=
  (((c.set .r4 (c.r .r8)).set .r5 (c.r .r9)).set .r6 (c.r .r10)).set .r7 (c.r .r11)

theorem inner_lowered (t : Cpu) : Inner t t.lowered := rfl

theorem Cpu.Handles.lowered (h : c.Handles) : c.lowered.Handles :=
  (((h.set .r4 _).set .r5 _).set .r6 _).set .r7 _

theorem line_lowered (ht : t.Handles) :
    Line exec (Safe R top) [.mov .r4 .r8, .mov .r5 .r9, .mov .r6 .r10, .mov .r7 .r11] t t.lowered :=
  .cons ⟨ht, trivial⟩ rfl
    (.cons ⟨ht.set _ _, trivial⟩ rfl
    (.cons ⟨(ht.set _ _).set _ _, trivial⟩ rfl
    (.cons ⟨((ht.set _ _).set _ _).set _ _, trivial⟩ rfl (.nil _))))

/-- PSP set from r0. -/
theorem line_setPsp (R : Word → Word → Word → Prop) (top : Word) (ht : t.Handles)
    (hr : Aligned (t.r .r0)) :
    Line exec (Safe R top) [.msr (.sp .process) .r0] t
      { t with sps := update t.sps .process (t.r .r0) } := by
  refine .cons ⟨ht, rfl⟩ ?_ (.nil _)
  rw [exec, Special.write, aligned_mask hr]

/-- Two blocks of four words, the lower one stored last. -/
theorem store_pair (m : Word → Word) (p : Word) (us ws : List Word) (hu : us.length = 4)
    (hw : ws.length = 4) :
    loadWords (storeWords (storeWords m (p - 16#32) us) (p - 32#32) ws) (p - 32#32) 8 = ws ++ us ∧
      ∀ x, ¬ InBlock (p - 32#32) 8 x →
        storeWords (storeWords m (p - 16#32) us) (p - 32#32) ws x = m x := by
  have hp : p - 32#32 = p - 16#32 - BitVec.ofNat 32 (4 * ws.length) := by
    rw [hw]
    bv_omega
  refine ⟨?_, fun x hx => ?_⟩
  · have hload := loadWords_below (m := storeWords m (p - 16#32) us) (a := p - 16#32) (n := 4) ws
      (by rw [hw]; decide)
    have hus : loadWords (storeWords m (p - 16#32) us) (p - 16#32) us.length = us :=
      loadWords_storeWords (by rw [hu]; decide)
    rw [hu] at hus
    rw [hus, ← hp, hw] at hload
    exact hload
  · rw [storeWords_out (by rw [hw]; decide), storeWords_out (by rw [hu]; decide)]
    · unfold InBlock at *
      rw [hu]
      bv_omega
    · unfold InBlock at *
      rw [hw]
      bv_omega

/-- lr on the main stack, and PSP in r0. -/
theorem line_enter (hc : c.Handles) (hroom : Room R top c.sp 1) :
    ∃ t, Line exec (Safe R top) [.pushLr, .mrs .r0 (.sp .process)] c t ∧ t.Handles ∧
      t.r = update c.r .r0 (c.sps .process) ∧
      t = { c with
        r := t.r, sps := update c.sps .main (c.sp - 4#32)
        mem := storeWords c.mem (c.sp - 4#32) [c.lr] } := by
  have h0 := hc.push [c.lr]
  rw [hc.pushLr] at h0
  exact ⟨_, .cons ⟨hc, hroom.fits⟩ (congrArg Flow.next hc.pushLr)
    (.cons ⟨h0, trivial⟩ rfl (.nil _)), h0.set .r0 (c.sps .process), rfl, rfl⟩

theorem swiSaved_v6m (hc : c.Handles) (hp : Aligned (c.sps .process))
    (ha : Apart R top (c.sps .process) c.sp) :
    ∃ t, Line exec (Safe R top) ((halSwiEntry .v6m).take 12) c t ∧ SwiSaved .v6m c t := by
  obtain ⟨t1, l1, h1, hr1, e1⟩ := line_enter hc ha.room
  have hr0 : t1.r .r0 = c.sps .process := by rw [hr1, Function.update_self]
  -- r4 to r7
  obtain ⟨t2, l2, h2⟩ := line_store R top h1 16#32 lowRegs
    (by rw [hr0]; exact hp.sub 4) (by decide)
  rw [hr0] at h2
  -- r8 to r11
  have h3 := h2.handles.lowered
  have hr0 : t2.lowered.r .r0 = c.sps .process := h2.r0.trans (BitVec.sub_add_cancel ..)
  obtain ⟨t4, l4, h4⟩ := line_store R top h3 32#32 lowRegs
    (by rw [hr0]; exact hp.sub 8) (by decide)
  rw [hr0] at h4
  have hr4 : t4.r .r0 - 16#32 = c.sps .process - 32#32 := by
    rw [h4.r0]
    exact BitVec.add_sub_cancel ..
  have h5 := h4.handles.subs .r0 (t4.r .r0 - 16#32) (t4.r .r0) 16#32
  have l5 : Line exec (Safe R top) [.subsImm .r0 .r0 16#32] t4 _ :=
    .cons ⟨h4.handles, trivial⟩ rfl (.nil _)
  have l6 := line_setPsp R top h5 (by
    rw [Cpu.set_self, hr4]
    exact hp.sub 8)
  have hl := ((((l1.append l2).append (line_lowered h2.handles)).append l4).append l5).append l6
  -- the registers that were stored, and where
  have hk2 : ∀ d, d ≠ .r0 → t2.r d = c.r d := fun d hd => by
    rw [h2.kept d hd, hr1, Function.update_of_ne hd]
  have hw1 : lowRegs.map t1.r = lowRegs.map c.r := by simp [lowRegs, hr1]
  have hw2 : lowRegs.map t2.lowered.r = highRegs.map c.r := by
    simp [lowRegs, highRegs, Cpu.lowered, Cpu.set, hk2]
  have hm1 : t1.mem = storeWords c.mem (c.sp - 4#32) [c.lr] := by rw [e1]
  have hm4 : t4.mem = storeWords (storeWords (storeWords c.mem (c.sp - 4#32) [c.lr])
      (c.sps .process - 16#32) (lowRegs.map c.r)) (c.sps .process - 32#32) (highRegs.map c.r) := by
    have hm2 : t2.lowered.mem = storeWords t1.mem (c.sps .process - 16#32) (lowRegs.map t1.r) :=
      h2.mem
    rw [h4.mem, hw2, hm2, hw1, hm1]
  have hin : Inner t1 t4 := (h2.inner.trans (inner_lowered t2)).trans h4.inner
  obtain ⟨hload, hout⟩ := store_pair (storeWords c.mem (c.sp - 4#32) [c.lr]) (c.sps .process)
    (lowRegs.map c.r) (highRegs.map c.r) rfl rfl
  rw [← hm4] at hload hout
  have hlr : InBlock (c.sp - 4#32) 1 (c.sp - 4#32) := InBlock.head
  refine ⟨_, hl, h5.setPsp _, ?_, hload, ?_, fun x hx hx1 => ?_⟩
  · unfold Inner at hin
    rw [e1] at hin
    rw [Cpu.set_self, hr4]
    exact congrArg (fun u : Cpu => { u with
      r := update t4.r .r0 (c.sps .process - 32#32), psr := subFlags (t4.r .r0) 16#32 t4.psr
      sps := update u.sps .process (c.sps .process - 32#32) }) hin
  · exact (hout _ (ha.disjoint hlr)).trans (Function.update_self ..)
  · exact (hout x hx).trans (storeWords_out (by simp) hx1)

theorem Cpu.Handles.setPsp_sp (h : c.Handles) (p : Word) :
    { c with sps := update c.sps .process p }.sp = c.sp := by
  simp [Cpu.sp, Cpu.active, h.handler]

/-- The registers on the process stack, by `stmdb`. -/
theorem line_stmdb (R : Word → Word → Word → Prop) (top : Word) (hc : c.Handles)
    (hp : Aligned (c.sps .process)) :
    ∃ t, Line exec (Safe R top) ((halSwiEntry .v7m).take 3) c t ∧ t.Handles ∧ t.sp = c.sp ∧
      t = { c with
        r := t.r, psr := t.psr, sps := update c.sps .process (c.sps .process - 32#32)
        mem := storeWords c.mem (c.sps .process - 32#32) ((frameRegs .v7m).map c.r) } := by
  have h1 := hc.set .r0 (c.sps .process)
  have hregs : (frameRegs .v7m).map (c.set .r0 (c.sps .process)).r = (frameRegs .v7m).map c.r := by
    simp [frameRegs, Cpu.set]
  have he : exec (.stmdb .r0 (frameRegs .v7m)) (c.set .r0 (c.sps .process)) =
      .next { (c.set .r0 (c.sps .process)).set .r0 (c.sps .process - 32#32) with
        mem := storeWords c.mem (c.sps .process - 32#32) ((frameRegs .v7m).map c.r) } := by
    have ha : Aligned (c.sps .process - 32#32) := hp.sub 8
    rw [← hregs]
    exact if_pos ha
  have h2 := h1.upd .r0 (c.sps .process - 32#32)
    (storeWords c.mem (c.sps .process - 32#32) ((frameRegs .v7m).map c.r))
  have l3 := line_setPsp R top h2 (hp.sub 8)
  have l1 : Line exec (Safe R top) [.mrs .r0 (.sp .process), .stmdb .r0 (frameRegs .v7m)] c _ :=
    .cons ⟨hc, trivial⟩ rfl (.cons ⟨h1, trivial⟩ he (.nil _))
  exact ⟨_, l1.append l3, h2.setPsp _, h2.setPsp_sp _, rfl⟩

theorem swiSaved_v7m (hc : c.Handles) (hp : Aligned (c.sps .process))
    (ha : Apart R top (c.sps .process) c.sp) :
    ∃ t, Line exec (Safe R top) ((halSwiEntry .v7m).take 4) c t ∧ SwiSaved .v7m c t := by
  obtain ⟨t3, l3, h3, hsp, e3⟩ := line_stmdb R top hc hp
  have hlr3 : t3.lr = c.lr := by rw [e3]
  have hsps : t3.sps = update c.sps .process (c.sps .process - 32#32) := by rw [e3]
  have hmem : t3.mem = storeWords c.mem (c.sps .process - 32#32) ((frameRegs .v7m).map c.r) := by
    rw [e3]
  have hroom : Room R top t3.sp 1 := by
    rw [hsp]
    exact ha.room
  have h4 := h3.push [c.lr]
  have hpush := h3.pushLr
  rw [hlr3] at hpush
  have l4 : Line exec (Safe R top) [.pushLr] t3 _ :=
    .cons ⟨h3, hroom.fits⟩ (congrArg Flow.next h3.pushLr) (.nil _)
  have hlr : InBlock (c.sp - 4#32) 1 (c.sp - 4#32) := InBlock.head
  rw [hpush, hsp] at h4
  rw [hlr3, hsp] at l4
  refine ⟨_, l3.append l4, h4, ?_, ?_, ?_, fun x hx hx1 => ?_⟩
  · have hcomm : update t3.sps .main (c.sp - 4#32) =
        update (update c.sps .main (c.sp - 4#32)) .process (c.sps .process - 32#32) := by
      rw [hsps]
      exact Function.update_comm (by decide) _ _ _
    rw [hcomm]
    exact congrArg (fun u : Cpu => { u with
      lr := c.lr
      sps := update (update c.sps .main (c.sp - 4#32)) .process (c.sps .process - 32#32)
      mem := storeWords t3.mem (c.sp - 4#32) [c.lr] }) e3
  · have hload : loadWords (storeWords c.mem (c.sps .process - 32#32) ((frameRegs .v7m).map c.r))
        (c.sps .process - 32#32) 8 = (frameRegs .v7m).map c.r :=
      loadWords_storeWords (by simp [frameRegs])
    rw [← hmem] at hload
    refine (loadWords_congr (by decide) fun x hx => ?_).trans hload
    exact storeWords_out (by simp) fun h1 => ha.disjoint h1 hx
  · exact Function.update_self ..
  · exact (storeWords_out (by simp) hx1).trans
      ((congrFun hmem x).trans (storeWords_out (by simp [frameRegs]) hx))

theorem swiSaved (k : Core) (hc : c.Handles) (hp : Aligned (c.sps .process))
    (ha : Apart R top (c.sps .process) c.sp) :
    ∃ t, Line exec (Safe R top) ((halSwiEntry k).take (swiCall k)) c t ∧ SwiSaved k c t := by
  cases k with
  | v6m => exact swiSaved_v6m hc hp ha
  | v7m => exact swiSaved_v7m hc hp ha

/-! ## 3. The way out -/

/-- The registers `rs` loaded from `a` on, by way of r0. -/
def Cpu.loaded (c : Cpu) (a : Word) (rs : List Reg) : Cpu :=
  { c with
    r := loadRegs (update c.r .r0 (a + BitVec.ofNat 32 (4 * rs.length))) rs
      (loadWords c.mem a rs.length) }

theorem Cpu.Handles.loaded (h : c.Handles) (a : Word) (rs : List Reg) : (c.loaded a rs).Handles :=
  ⟨h.handler, h.spsel, h.psr, h.sp⟩

theorem Cpu.Handles.raised (h : c.Handles) : c.raised.Handles :=
  (((h.set .r8 _).set .r9 _).set .r10 _).set .r11 _

theorem line_load (R : Word → Word → Word → Prop) (top : Word) (ht : t.Handles) (rs : List Reg)
    (hr : t.r .r0 = a) (ha : Aligned a)
    (hheld : Held R top t a rs.length) :
    Line exec (Safe R top) [.ldmia .r0 rs] t (t.loaded a rs) := by
  have hheld : Held R top t (t.r .r0) rs.length := by rwa [hr]
  refine .cons ⟨ht, hheld⟩ ?_ (.nil _)
  rw [exec, hr, if_pos ha, Cpu.loaded]

theorem line_raised (ht : t.Handles) :
    Line exec (Safe R top) [.mov .r8 .r4, .mov .r9 .r5, .mov .r10 .r6, .mov .r11 .r7] t t.raised :=
  .cons ⟨ht, trivial⟩ rfl
    (.cons ⟨ht.set _ _, trivial⟩ rfl
    (.cons ⟨(ht.set _ _).set _ _, trivial⟩ rfl
    (.cons ⟨((ht.set _ _).set _ _).set _ _, trivial⟩ rfl (.nil _))))

theorem loaded_raised_loaded {r : Reg → Word} (hst : loadWords c.mem a 8 = (frameRegs .v6m).map r)
    {d : Reg} (hd : d ∈ calleeSaved) :
    ((c.loaded a lowRegs).raised.loaded (a + 16#32) lowRegs).r d = r d := by
  obtain ⟨hhigh, hlow⟩ : loadWords c.mem a 4 = highRegs.map r ∧
      loadWords c.mem (a + 16#32) 4 = lowRegs.map r :=
    List.append_inj ((loadWords_append (n := 4) 4).symm.trans hst) (by rw [loadWords_length]; rfl)
  have hload : (c.loaded a lowRegs).r =
      loadRegs (update c.r .r0 (a + 16#32)) lowRegs (highRegs.map r) := by
    rw [← hhigh]
    rfl
  have hout : ∀ d ∈ highRegs, update (c.loaded a lowRegs).raised.r .r0 (a + 16#32 + 16#32) d =
      (c.loaded a lowRegs).raised.r d := fun d hd =>
    Function.update_of_ne (fun e => absurd (e ▸ hd) (by decide)) _ _
  refine Eq.trans ?_ (loadRegs_raised hload hout hd)
  rw [← hlow]
  rfl

/-- Off the process stack come the registers `r`, off the main stack comes where to return to. -/
structure SwiLoaded (R : Word → Word → Word → Prop) (r : Reg → Word) (c c' : Cpu) : Prop where
  rest : c' = { c with
    r := c'.r, lr := c'.lr, pc := c.mem c.sp
    sps := update (update c.sps .main (c.sp + 4#32)) .process (c.sps .process + 32#32)
    monitor := c'.monitor, mem := c'.mem }
  regs : ∀ d ∈ calleeSaved, c'.r d = r d
  words : ∀ x, Changes R c.mem c'.mem x

section Ausgang

variable {r : Reg → Word} {q : Point Fn Cpu} {fn : Fn → Cpu → Cpu → Prop}

theorem live_self (h : 4 ≤ (top - a).toNat) : Live top a a := by
  unfold Live
  bv_omega

theorem swiLoaded_v6m (henv : ∀ s s', s.Handles → env s s' → Disturbed R top s s')
    (hc : c.Handles) (hp : Aligned (c.sps .process))
    (hheld : ∀ x, InBlock (c.sps .process) 8 x → ∀ v w, R x v w → w = v)
    (hlive : 4 ≤ (top - c.sp).toNat)
    (hload : loadWords c.mem (c.sps .process) 8 = (frameRegs .v6m).map r)
    (h : Ends exec (halSwiEntry .v6m) fn env (.before 13 c) q) :
    ∃ c', q = .left c' ∧ SwiLoaded R r c c' := by
  have h1 := hc.set .r0 (c.sps .process)
  have h2 := h1.loaded (c.sps .process) lowRegs
  have h3 := h2.raised
  have h4 := h3.loaded (c.sps .process + 16#32) lowRegs
  have l1 : Line exec (Safe R top) [.mrs .r0 (.sp .process)] c _ :=
    .cons ⟨hc, trivial⟩ rfl (.nil _)
  have l2 := line_load R top h1 lowRegs (a := c.sps .process)
    (Cpu.set_self c .r0 _) hp fun x _ hin => .inr (hheld x (hin.mono (by decide)))
  have hr0 : (((c.set .r0 (c.sps .process)).loaded (c.sps .process) lowRegs).raised).r .r0 =
      c.sps .process + 16#32 := by
    simp [Cpu.raised, Cpu.set, Cpu.loaded, loadRegs, loadWords, lowRegs]
  have l4 := line_load R top h3 lowRegs hr0 (hp.add 4)
    fun x _ hin => .inr (hheld x (InBlock.within (k := 4) hin (by decide)))
  have hr0 : ((((c.set .r0 (c.sps .process)).loaded (c.sps .process) lowRegs).raised).loaded
      (c.sps .process + 16#32) lowRegs).r .r0 = c.sps .process + 32#32 := by
    simp [Cpu.loaded, loadRegs, loadWords, lowRegs, BitVec.add_assoc]
  have l5 := line_setPsp R top h4 (by rw [hr0]; exact hp.add 8)
  have h5 := h4.setPsp (c.sps .process + 32#32)
  have hsp5 := h4.setPsp_sp (c.sps .process + 32#32)
  rw [hr0] at l5
  have hl := (((l1.append l2).append (line_raised h2)).append l4).append l5
  obtain ⟨s, k5, h⟩ := h.line (tracks_follows henv) hl rfl (.refl R top c)
  obtain ⟨s', e5, h⟩ := h.instr
  have k5 := Tracks.later h5 k5 henv e5
  have hsp : s'.sp = c.sp := k5.sp.trans hsp5
  have hpc : s'.mem s'.sp = c.mem c.sp := by
    rw [hsp]
    have hk := k5.others
    rw [hsp5] at hk
    exact hk.stack c.sp hc.sp (live_self hlive)
  have hs' : s' = { c with
      r := s'.r, sps := update c.sps .process (c.sps .process + 32#32), monitor := s'.monitor
      mem := s'.mem } := by
    have hr := k5.r
    have hrest := k5.rest
    rw [← hr] at hrest
    exact hrest
  refine ⟨_, h.left, ?_, fun d hd => ?_, k5.others.words⟩
  · have hsps : ({ s' with pc := s'.mem s'.sp }.drop 1).sps =
        update (update c.sps .main (c.sp + 4#32)) .process (c.sps .process + 32#32) := by
      refine ((k5.handles h5).drop_sps 1).trans ?_
      rw [hsp, congrArg Cpu.sps hs']
      exact Function.update_comm (by decide) _ _ _
    rw [← hsps, ← hpc]
    exact congrArg (fun u : Cpu => { u with
      r := s'.r, lr := s'.lr, pc := s'.mem s'.sp, sps := ({ s' with pc := s'.mem s'.sp }.drop 1).sps
      monitor := s'.monitor, mem := s'.mem }) hs'
  · exact (congrFun k5.r d).trans (loaded_raised_loaded (c := c.set .r0 (c.sps .process)) hload hd)

theorem swiLoaded_v7m (henv : ∀ s s', s.Handles → env s s' → Disturbed R top s s')
    (hc : c.Handles) (hp : Aligned (c.sps .process))
    (hheld : ∀ x, InBlock (c.sps .process) 8 x → ∀ v w, R x v w → w = v)
    (hlive : 4 ≤ (top - c.sp).toNat)
    (hload : loadWords c.mem (c.sps .process) 8 = (frameRegs .v7m).map r)
    (h : Ends exec (halSwiEntry .v7m) fn env (.before 5 c) q) :
    ∃ c', q = .left c' ∧ SwiLoaded R r c c' := by
  have hlr : { c with lr := c.mem c.sp }.Handles := ⟨hc.handler, hc.spsel, hc.psr, hc.sp⟩
  have h1 := hlr.drop 1
  have hsps : ({ c with lr := c.mem c.sp }.drop 1).sps = update c.sps .main (c.sp + 4#32) :=
    hlr.drop_sps 1
  generalize hc1 : { c with lr := c.mem c.sp }.drop 1 = c1 at h1 hsps
  have hpsp : c1.sps .process = c.sps .process := by
    rw [hsps, Function.update_of_ne (by decide)]
  have hmem : c1.mem = c.mem := by rw [← hc1, Cpu.drop]
  have h2 := h1.set .r0 (c.sps .process)
  have h3 := h2.loaded (c.sps .process) (frameRegs .v7m)
  have l1 : Line exec (Safe R top) [.popLr, .mrs .r0 (.sp .process)] c _ :=
    .cons ⟨hc, hlive⟩ (congrArg Flow.next hc1)
      (.cons ⟨h1, trivial⟩ (by rw [exec, Special.read, hpsp]) (.nil _))
  have l2 := line_load R top h2 (frameRegs .v7m) (a := c.sps .process)
    (Cpu.set_self c1 .r0 _) hp fun x _ hin => .inr (hheld x hin)
  have hr0 : ((c1.set .r0 (c.sps .process)).loaded (c.sps .process) (frameRegs .v7m)).r .r0 =
      c.sps .process + 32#32 := by
    simp [Cpu.loaded, loadRegs, loadWords, frameRegs]
  have l3 := line_setPsp R top h3 (by rw [hr0]; exact hp.add 8)
  have h4 := h3.setPsp (c.sps .process + 32#32)
  rw [hr0] at l3
  obtain ⟨s, k4, h⟩ := h.line (tracks_follows henv) ((l1.append l2).append l3) rfl (.refl R top c)
  obtain ⟨s', e4, h⟩ := h.instr
  have k4 := Tracks.later h4 k4 henv e4
  have hs' : { s' with pc := s'.lr } = { c1 with
      r := s'.r, pc := c1.lr, sps := update c1.sps .process (c.sps .process + 32#32)
      monitor := s'.monitor, mem := s'.mem } := by
    have hr := k4.r
    have hrest := k4.rest
    rw [← hr] at hrest
    have hlr : s'.lr = c1.lr := by rw [hrest]; rfl
    rw [hlr]
    exact congrArg (fun u : Cpu => { u with lr := c1.lr, pc := c1.lr }) hrest
  refine ⟨_, h.left, ?_, fun d hd => ?_, fun x => ?_⟩
  · rw [hs', hsps, ← hc1]
    rfl
  · refine (congrFun k4.r d).trans ?_
    have hload1 : loadWords (c1.set .r0 (c.sps .process)).mem (c.sps .process)
        (frameRegs .v7m).length = (frameRegs .v7m).map r := by
      rw [← hload, ← hmem]
      rfl
    exact (congrFun (congrArg (loadRegs _ (frameRegs .v7m)) hload1) d).trans
      ((loadRegs_map _ r _ d).trans (if_pos hd))
  · have hw := k4.others.words x
    rw [← hmem]
    exact hw

theorem swiLoaded (k : Core) (henv : ∀ s s', s.Handles → env s s' → Disturbed R top s s')
    (hc : c.Handles) (hp : Aligned (c.sps .process))
    (hheld : ∀ x, InBlock (c.sps .process) 8 x → ∀ v w, R x v w → w = v)
    (hlive : 4 ≤ (top - c.sp).toNat)
    (hload : loadWords c.mem (c.sps .process) 8 = (frameRegs k).map r)
    (h : Ends exec (halSwiEntry k) fn env (.before (swiCall k + 1) c) q) :
    ∃ c', q = .left c' ∧ SwiLoaded R r c c' := by
  cases k with
  | v6m => exact swiLoaded_v6m henv hc hp hheld hlive hload h
  | v7m => exact swiLoaded_v7m henv hc hp hheld hlive hload h

end Ausgang

/-! ## 4. The dispatch handler -/

/-- The dispatch handler has run, and left the process stack pointer at `p`. -/
structure Dispatched (R : Word → Word → Word → Prop) (top p : Word) (s s' : Cpu) : Prop where
  rest : s' = { s with
    r := s'.r, lr := s'.lr, pc := s'.pc, psr := s'.psr, sps := update s.sps .process p
    monitor := s'.monitor, mem := s'.mem }
  psr : s'.psr.getLsbD 9 = false
  others : Others R top s.sp s.mem s'.mem

/-- `fx_dispatch_handler` where the current thread stays the same. -/
def Stays (R : Word → Word → Word → Prop) (top : Word) (s s' : Cpu) : Prop :=
  Ran R top s.sp s s' s.sp

/-- `fx_dispatch_handler` where it switches the context: with `n` words of its own on the stack, and
    the interrupts masked or not, it calls `hal_intr_frame_switch` for the frame `f`, and gets the
    frame `old`. -/
def Switches (env : Cpu → Cpu → Prop) (R : Word → Word → Word → Prop) (top f old : Word)
    (s s' : Cpu) : Prop :=
  ∃ (n : Nat) (s1 s2 : Cpu) (lr : Word) (masked : Bool), Room R top s.sp n ∧
    Ran R top s.sp s s1 (s.sp - BitVec.ofNat 32 (4 * n)) ∧
    Ends exec hwCpuSetPsp NoCall env
      (.before 0 { s1.set .r0 f with lr := lr, primask := masked }) (.left s2) ∧
    s2.r .r0 = old ∧ Ran R top s.sp { s2 with primask := s.primask } s' s.sp

theorem hwCpuSetPsp_spec {q : Point Fn Cpu}
    (henv : ∀ s s', s.Handles → env s s' → Disturbed R top s s')
    (hc : c.Handles) (hr : Aligned (c.r .r0))
    (h : Ends exec hwCpuSetPsp NoCall env (.before 0 c) q) :
    ∃ s, q = .left s ∧ s.r .r0 = c.sps .process ∧ Others R top c.sp c.mem s.mem ∧
      s = { c with
        r := s.r, pc := s.pc, sps := update c.sps .process (c.r .r0), monitor := s.monitor
        mem := s.mem } := by
  have h1 := hc.set .r1 (c.sps .process)
  have hr0 : (c.set .r1 (c.sps .process)).r .r0 = c.r .r0 := c.set_ne _ (by decide)
  have l1 : Line exec (Safe R top) [.mrs .r1 (.sp .process)] c _ := .cons ⟨hc, trivial⟩ rfl (.nil _)
  have l2 := line_setPsp R top h1 (by rwa [hr0])
  have h2 := h1.setPsp (c.r .r0)
  have hsp2 := h1.setPsp_sp (c.r .r0)
  rw [hr0] at l2
  have h3 := h2.set .r0 (c.sps .process)
  have hr1 : (c.set .r1 (c.sps .process)).r .r1 = c.sps .process := c.set_self _ _
  have l3 : Line exec (Safe R top) [.mov .r0 .r1, .isb] _ _ :=
    .cons ⟨h2, trivial⟩ (by rw [exec, hr1]) (.cons ⟨h3, trivial⟩ rfl (.nil _))
  obtain ⟨s, k3, h⟩ := h.line (tracks_follows henv) ((l1.append l2).append l3) rfl (.refl R top c)
  obtain ⟨s', e3, h⟩ := h.instr
  have k3 := Tracks.later h3 k3 henv e3
  refine ⟨_, h.left, ?_, ?_, ?_⟩
  · exact (congrFun k3.r .r0).trans (Cpu.set_self _ .r0 (c.sps .process))
  · have ho := k3.others
    exact hsp2 ▸ ho
  · have hr := k3.r
    have hrest := k3.rest
    rw [← hr] at hrest
    exact congrArg (fun u : Cpu => { u with pc := s'.lr }) hrest

theorem Ran.dispatched (hc : c.Handles) (h : Stays R top c s) :
    Dispatched R top (c.sps .process) c s := by
  have hsps : update c.sps .main c.sp = update c.sps .process (c.sps .process) := by
    rw [Cpu.sp, hc.active, Function.update_eq_self, Function.update_eq_self]
  refine ⟨?_, h.psr, h.others⟩
  rw [← hsps]
  exact h.rest

/-- **The context switch** leaves PSP at the frame of the next thread, and returns where it was. -/
theorem Switches.dispatched {f old : Word}
    (henv : ∀ s s', s.Handles → env s s' → Disturbed R top s s')
    (hc : c.Handles) (hf : Aligned f) (h : Switches env R top f old c s) :
    old = c.sps .process ∧ Dispatched R top f c s := by
  obtain ⟨n, s1, s2, lr, masked, hroom, r1, hend, hold, r2⟩ := h
  have hfits := hroom.fits
  have h1 := r1.handles hc (hc.sp.sub n)
  have hsp1 := r1.sp hc
  have hcall : { s1.set .r0 f with lr := lr, primask := masked }.Handles :=
    ⟨h1.handler, h1.spsel, h1.psr, h1.sp⟩
  have hr0 : { s1.set .r0 f with lr := lr, primask := masked }.r .r0 = f :=
    Cpu.set_self s1 .r0 f
  obtain ⟨_, e, hr, ho, hrest⟩ := hwCpuSetPsp_spec henv hcall (by rwa [hr0]) hend
  cases e
  rw [hr0] at hrest
  have hpsp : s1.sps .process = c.sps .process := by
    rw [r1.sps, Function.update_of_ne (by decide)]
  have ho : Others R top s1.sp s1.mem s2.mem := ho
  rw [hsp1] at ho
  refine ⟨hold.symm.trans (hr.trans hpsp), ⟨?_, r2.psr, ?_⟩⟩
  · have hsps : update s2.sps .main c.sp = update c.sps .process f := by
      rw [hrest]
      funext k
      cases k with
      | main => exact congrArg c.sps hc.active
      | process => rfl
    have hhandler : s2.handler = c.handler :=
      ((congrArg Cpu.handler hrest).trans hcall.handler).trans hc.handler.symm
    have hspsel : s2.spsel = c.spsel :=
      ((congrArg Cpu.spsel hrest).trans hcall.spsel).trans hc.spsel.symm
    have hback := r2.rest
    simp only [hsps, hhandler, hspsel] at hback
    exact hback
  · exact (r1.others.trans (ho.mono (below_le hfits))).trans r2.others

/-! ## 5. The software interrupt -/

/-- What `hal_swi_entry` calls. -/
def SwiCall (disp : Cpu → Cpu → Prop) : Fn → Cpu → Cpu → Prop
  | .fxDispatchHandler, s, s' => disp s s'
  | .intrFrameSave, _, _ => False
  | .intrFrameRestore, _, _ => False
  | .fxIntrHandler, _, _ => False

/-- The dispatch handler is called, and others may have been there. -/
structure SwiCalled (k : Core) (R : Word → Word → Word → Prop) (c s : Cpu) : Prop where
  handles : s.Handles
  rest : s = { c with
    r := s.r, psr := s.psr,
    sps := update (update c.sps .main (c.sp - 4#32)) .process (c.sps .process - 32#32),
    monitor := s.monitor, mem := s.mem }
  regs : loadWords s.mem (c.sps .process - 32#32) 8 = (frameRegs k).map c.r
  lr : s.mem (c.sp - 4#32) = c.lr
  words : ∀ x, ¬ InBlock (c.sps .process - 32#32) 8 x → ¬ InBlock (c.sp - 4#32) 1 x →
    Changes R c.mem s.mem x

theorem SwiSaved.sp (h : SwiSaved k c t) : t.sp = c.sp - 4#32 := by
  rw [Cpu.sp, h.handles.active, congrArg Cpu.sps h.rest]
  rfl

theorem SwiCalled.sps (h : SwiCalled k R c s) : s.sps =
    update (update c.sps .main (c.sp - 4#32)) .process (c.sps .process - 32#32) :=
  congrArg Cpu.sps h.rest

theorem SwiCalled.sp (h : SwiCalled k R c s) : s.sp = c.sp - 4#32 := by
  rw [Cpu.sp, h.handles.active, h.sps]
  rfl

theorem Dispatched.sps {p : Word} (h : Dispatched R top p s s') :
    s'.sps = update s.sps .process p := congrArg Cpu.sps h.rest

theorem SwiSaved.tracks (h : SwiSaved k c t) (hc : c.Handles) (hp : Aligned (c.sps .process))
    (ha : Apart R top (c.sps .process) c.sp) (ht : Tracks R top t s) : SwiCalled k R c s := by
  have hfits := ha.room.fits
  have ho := ht.others
  rw [h.sp] at ho
  refine ⟨ht.handles h.handles, ?_, ?_, ?_, fun x hx hx1 => ?_⟩
  · have hrest := ht.rest
    rw [h.rest, ← ht.r] at hrest
    have hpsr : s.psr = t.psr := (congrArg Cpu.psr ht.rest :)
    rw [← hpsr] at hrest
    exact hrest
  · rw [← h.regs]
    exact loadWords_aligned (hp.sub 8) fun x hin _ => ho.fixed (ha.held x hin)
  · rw [← h.lr]
    exact ho.stack _ (hc.sp.sub 1) (live_self (le_below (n := 1) hfits))
  · have hw := ho.words x
    rwa [Changes, h.words x hx hx1] at hw

/-- The state after the dispatch handler: `lr` is where it was stored. -/
theorem SwiCalled.dispatched {p : Word} (hcalled : SwiCalled k R c s) (hc : c.Handles)
    (hfits : (top - c.sp).toNat + 4 * 1 < 2 ^ 32) (hd : Dispatched R top p s s') :
    s'.Handles ∧ s'.sps = update (update c.sps .main (c.sp - 4#32)) .process p ∧
      s'.sp = c.sp - 4#32 ∧ s'.mem s'.sp = c.lr := by
  have hsps : s'.sps = update (update c.sps .main (c.sp - 4#32)) .process p := by
    rw [hd.sps, hcalled.sps, Function.update_idem]
  have hh : s'.handler = true := (congrArg Cpu.handler hd.rest).trans hcalled.handles.handler
  have hsp : s'.sp = c.sp - 4#32 := by
    rw [Cpu.sp, Cpu.active, hh, hsps]
    rfl
  refine ⟨⟨hh, (congrArg Cpu.spsel hd.rest).trans hcalled.handles.spsel, hd.psr, ?_⟩, hsps, hsp, ?_⟩
  · rw [hsp]
    exact hc.sp.sub 1
  · rw [hsp, ← hcalled.lr]
    have ho := hd.others
    rw [hcalled.sp] at ho
    exact ho.stack _ (hc.sp.sub 1) (live_self (le_below (n := 1) hfits))

/-- The code before the call, and the call. -/
theorem halSwiEntry_split (k : Core) : (halSwiEntry k).drop 0 =
      (halSwiEntry k).take (swiCall k) ++ (halSwiEntry k).drop (swiCall k) ∧
    0 + ((halSwiEntry k).take (swiCall k)).length = swiCall k ∧
    (halSwiEntry k)[swiCall k]? = some (.bl .fxDispatchHandler) := by
  refine ⟨(List.take_append_drop ..).symm, ?_⟩
  cases k with
  | _ => exact ⟨rfl, rfl⟩

/-- **The software interrupt**: the dispatch handler is called with the registers saved, and the
    registers found on the stack that it leaves are loaded. -/
theorem halSwiEntry_spec {disp : Cpu → Cpu → Prop} {q : Point Fn Cpu}
    (henv : ∀ s s', s.Handles → env s s' → Disturbed R top s s') (hc : c.Handles)
    (hp : Aligned (c.sps .process)) (ha : Apart R top (c.sps .process) c.sp)
    (h : Ends exec (halSwiEntry k) (SwiCall disp) env (.before 0 c) q) :
    ∃ s s', SwiCalled k R c s ∧ disp s s' ∧ ∀ (p : Word) (r : Reg → Word),
      Dispatched R top p s s' → Aligned p → (∀ x, InBlock p 8 x → ∀ v w, R x v w → w = v) →
      loadWords s'.mem p 8 = (frameRegs k).map r →
      ∃ c', q = .left c' ∧ c' = { c with
          r := c'.r, lr := c'.lr, pc := c.lr, psr := c'.psr
          sps := update c.sps .process (p + 32#32), monitor := c'.monitor, mem := c'.mem } ∧
        (∀ d ∈ calleeSaved, c'.r d = r d) ∧ ∀ x, Changes R s'.mem c'.mem x := by
  have hfits := ha.room.fits
  obtain ⟨t, hl, hsaved⟩ := swiSaved k hc hp ha
  obtain ⟨hcode, hpc, hi⟩ := halSwiEntry_split k
  obtain ⟨s1, k1, h⟩ := h.line (tracks_follows henv) hl hcode (.refl R top c)
  rw [hpc] at h
  obtain ⟨s, e1, h⟩ := h.instr
  rw [execAt_of hi] at h
  obtain ⟨s', hdisp, h⟩ := Ends.callee h
  have hcalled := hsaved.tracks hc hp ha (k1.later hsaved.handles henv e1)
  refine ⟨s, s', hcalled, hdisp, fun p r hd hpa hheld hload => ?_⟩
  obtain ⟨h', hsps, hsp, hlr⟩ := hcalled.dispatched hc hfits hd
  have hpsp : s'.sps .process = p := by rw [hd.sps, Function.update_self]
  subst hpsp
  obtain ⟨c', e, hloaded⟩ := swiLoaded k henv h' hpa hheld
    (by rw [hsp]; exact le_below (n := 1) hfits) hload h
  refine ⟨c', e, ?_, hloaded.regs, hloaded.words⟩
  have hback : ∀ v, update (update s'.sps .main (s'.sp + 4#32)) .process v =
      update c.sps .process v := fun v => by
    rw [hsps, hsp, BitVec.sub_add_cancel]
    funext k
    cases k with
    | main => exact congrArg c.sps hc.active
    | process => rfl
  have hprimask : s'.primask = c.primask :=
    (congrArg Cpu.primask hd.rest).trans (congrArg Cpu.primask hcalled.rest :)
  have hrest := hloaded.rest
  simp only [hlr, hback, h'.handler.trans hc.handler.symm, h'.spsel.trans hc.spsel.symm, hprimask]
    at hrest
  have hpsr : c'.psr = s'.psr := (congrArg Cpu.psr hloaded.rest :)
  rw [hpsr]
  exact hrest

/-! ## 6. Without others -/

/-- An instruction after which comes the next one, or the end. -/
def Instr.straight : Instr → Bool
  | .bl _ => false
  | .b _ => false
  | .beq _ => false
  | .bne _ => false
  | .cond _ _ => false
  | _ => true

theorem Flow.straight_ite {P : Prop} [Decidable P] (s : Cpu) :
    (if P then .next s else .fault : Flow Fn Cpu).Straight := by
  by_cases h : P
  · rw [if_pos h]
    trivial
  · rw [if_neg h]
    trivial

theorem exec_straight {i : Instr} (h : i.straight = true) (c : Cpu) : (exec i c).Straight := by
  cases i with
  | bl f => exact absurd h (by simp [Instr.straight])
  | b l => exact absurd h (by simp [Instr.straight])
  | beq l => exact absurd h (by simp [Instr.straight])
  | bne l => exact absurd h (by simp [Instr.straight])
  | cond z i => exact absurd h (by simp [Instr.straight])
  | ldr d n => exact Flow.straight_ite _
  | str d n => exact Flow.straight_ite _
  | stmia n rs => exact Flow.straight_ite _
  | ldmia n rs => exact Flow.straight_ite _
  | stmdb n rs => exact Flow.straight_ite _
  | ldrex d n => exact Flow.straight_ite _
  | strex d m n =>
    unfold exec
    by_cases ha : Aligned (c.r n)
    · rw [if_pos ha]
      cases c.monitor with
      | _ => trivial
    · rw [if_neg ha]
      trivial
  | _ => trivial

/-- The software interrupt comes to its end. -/
theorem halSwiEntry_ends {disp : Cpu → Cpu → Prop} (hc : c.Handles)
    (hp : Aligned (c.sps .process)) (ha : Apart R top (c.sps .process) c.sp)
    (hdisp : ∀ s, SwiCalled k R c s → ∃ s', disp s s') :
    ∃ q, Ends exec (halSwiEntry k) (SwiCall disp) env (.before 0 c) q := by
  obtain ⟨t, hl, hsaved⟩ := swiSaved k hc hp ha
  obtain ⟨s', hs'⟩ := hdisp t (hsaved.tracks hc hp ha (.refl R top t))
  obtain ⟨hcode, hpc, hi⟩ := halSwiEntry_split k
  have hin := hl.leads hcode
  rw [hpc] at hin
  have hout : ∀ i ∈ (halSwiEntry k).drop (swiCall k + 1), i.straight = true := by
    cases k with
    | _ => decide
  have hstraight : ∀ i ∈ (halSwiEntry k).drop (swiCall k + 1), ∀ s, (exec i s).Straight :=
    fun i hi s => exec_straight (hout i hi) s
  obtain ⟨q, hq, ho⟩ := leads_over hstraight s'
  have hcall : CodeMove exec (halSwiEntry k) (SwiCall disp) env (.before (swiCall k) t)
      (.called .fxDispatchHandler (swiCall k + 1) t) := by
    have h : CodeMove exec (halSwiEntry k) (SwiCall disp) env (.before (swiCall k) t)
        (execAt exec (halSwiEntry k) (swiCall k) t) := .instr _ _
    rwa [execAt_of hi] at h
  have hback : SwiCall disp .fxDispatchHandler t s' := hs'
  exact ⟨q, hin.run.trans (.head hcall (.head (.callee _ _ hback) hq.run)), ho⟩

end FxRtos.Thumb
