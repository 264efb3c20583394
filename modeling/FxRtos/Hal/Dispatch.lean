/-
  File:      FxRtos/Hal/Dispatch.lean
  Subject:   NO DISPATCH REQUEST IS LOST. Interrupts stay disabled at `SPL_SYNC`, and at
             `SPL_LOW` they are enabled only when every request has been served.

  * `CodeOk`, `ActOk` -- how level and enable bit stand at each statement; `found` is the level
    at which the handler was entered.
  * `HalOk` -- the innermost activation is at its statement, all others wait where they were
    interrupted, at a statement where interrupts were enabled.
  * `dispatch_requests_kept` -- the levels, the requests and the dispatch handler in every run.
  * `requests_served` -- a request is cleared only on the way into `fx_dispatch_handler`.
-/
import FxRtos.Hal.Riscv

namespace FxRtos

open Function (update)
open Lib

set_option linter.unusedSectionVars false

variable {T : Type} [DecidableEq T]

/-! ## 1. Levels -/

/-- The level of code that has these levels to lower to. -/
def levelOf (base : Spl) : List Spl → Spl
  | [] => base
  | _ :: _ => .sync

/-- Properly nested: each saved level is the one that was left. -/
def SplNested (base : Spl) : List Spl → Prop
  | [] => True
  | spl :: saved => spl = levelOf base saved ∧ SplNested base saved

/-- Code of the level `base` at its statement. -/
def CodeOk (base spl : Spl) (mie : Bool) (c : Code) : Prop :=
  SplNested base c.saved ∧
  match c.pc with
  | .own => spl = levelOf base c.saved ∧ (spl = .sync → mie = false)
  | .raiseDisable new =>
    new = .sync ∧ spl = levelOf base c.saved ∧ (spl = .sync → mie = false)
  | .raiseRead new => new = .sync ∧ spl = levelOf base c.saved ∧ mie = false
  | .raiseWrite new old => new = .sync ∧ old = levelOf base c.saved ∧ mie = false
  | .lowerDisable new => new = levelOf base c.saved ∧ spl = .sync ∧ mie = false
  | .lowerWrite new => new = levelOf base c.saved ∧ spl = .sync ∧ mie = false
  | .lowerTest new => new = levelOf base c.saved ∧ spl = new ∧ mie = false
  | .lowerEnable => c.saved = [] ∧ spl = base ∧ mie = false
  | .lowerReturn => spl = levelOf base c.saved ∧ (spl = .sync → mie = false)

/-- At `SPL_LOW` no request is pending where interrupts are enabled, or are going to be. -/
def Served (s : Hal T) (c : Code) : Prop :=
  (s.mie = true → s.dispatchReq = false) ∧ (c.pc = .lowerEnable → s.dispatchReq = false)

theorem levelOf_ne {base : Spl} {saved : List Spl}
    (hl : levelOf base saved ≠ .sync) : saved = [] := by
  cases saved with
  | nil => rfl
  | cons => exact absurd rfl hl

/-- Where interrupts are enabled, code has lowered everything it raised. -/
theorem CodeOk.enabled {base spl : Spl} {c : Code} (h : CodeOk base spl true c) :
    spl = base ∧ spl ≠ .sync := by
  obtain ⟨saved, pc⟩ := c
  obtain ⟨_, h⟩ := h
  have hopen : spl = levelOf base saved ∧ (spl = .sync → true = false) →
      spl = base ∧ spl ≠ .sync := by
    intro ⟨hl, hm⟩
    have hne : spl ≠ .sync := fun e => Bool.noConfusion (hm e)
    cases saved with
    | nil => exact ⟨hl, hne⟩
    | cons => exact absurd hl hne
  cases pc with
  | own => exact hopen h
  | raiseDisable new => exact hopen h.2
  | lowerReturn => exact hopen h
  | lowerEnable => exact Bool.noConfusion h.2.2
  | _ => exact Bool.noConfusion h.2.2

/-- Interrupts are disabled where the level is `SPL_SYNC`. -/
theorem CodeOk.masked {base spl : Spl} {mie : Bool} {c : Code} (h : CodeOk base spl mie c)
    (hs : spl = .sync) : mie = false := by
  cases mie with
  | false => rfl
  | true => exact absurd hs h.enabled.2

theorem codeOk_fresh {base spl : Spl} (hb : base ≠ .sync) (hs : spl = base) (mie : Bool) :
    CodeOk base spl mie .fresh := ⟨trivial, hs, fun e => absurd (hs.symm.trans e) hb⟩

/-! ## 2. Statements of the code -/

section Aufrufe

variable {s : Hal T} {base : Spl} {saved : List Spl} {pc : CallPc} {r : Bool × Hal T × Code}

/-- A statement of the HAL leaves all but the level and MIE alone. -/
theorem halAsyncStep_frame (h : halAsyncStep s saved pc = some r) :
    r.2.1 = { s with
      mie := r.2.1.mie, currentSpl := r.2.1.currentSpl, dispatchReq := r.2.1.dispatchReq } := by
  cases pc with
  | own => cases h
  | lowerTest spl =>
    simp only [halAsyncStep] at h
    split at h <;> (cases h; rfl)
  | _ => cases h; rfl

/-- **A statement of the HAL** keeps the level of the code. -/
theorem CodeOk.step (hb : base ≠ .sync) (h : CodeOk base s.currentSpl s.mie ⟨saved, pc⟩)
    (hs : halAsyncStep s saved pc = some r) : CodeOk base r.2.1.currentSpl r.2.1.mie r.2.2 := by
  obtain ⟨hn, h⟩ := h
  cases pc with
  | own => cases hs
  | raiseDisable new => cases hs; exact ⟨hn, h.1, h.2.1, rfl⟩
  | raiseRead new => cases hs; exact ⟨hn, h.1, h.2.1, h.2.2⟩
  | raiseWrite new old =>
    cases hs
    refine ⟨⟨h.2.1, hn⟩, h.1, fun _ => h.2.2⟩
  | lowerDisable new => cases hs; exact ⟨hn, h.1, h.2.1, rfl⟩
  | lowerWrite new => cases hs; exact ⟨hn, h.1, rfl, h.2.2⟩
  | lowerTest new =>
    obtain ⟨hnew, hspl, hmie⟩ := h
    simp only [halAsyncStep] at hs
    split at hs
    · cases hs
      exact ⟨hn, hspl.trans hnew, fun _ => hmie⟩
    · cases hs
      split
      · rename_i hne
        have hnil : saved = [] := levelOf_ne (hnew ▸ hne)
        subst hnil
        exact ⟨trivial, rfl, hspl.trans hnew, hmie⟩
      · exact ⟨hn, hspl.trans hnew, fun _ => hmie⟩
  | lowerEnable =>
    cases hs
    obtain ⟨hnil, hspl, _⟩ := h
    change saved = [] at hnil
    subst hnil
    exact ⟨trivial, hspl, fun e => absurd (hspl.symm.trans e) hb⟩
  | lowerReturn => cases hs; exact ⟨hn, h⟩

/-- `hal_intr_check_swi` is called at `SPL_LOW`, with interrupts disabled. -/
theorem CodeOk.swi (h : CodeOk base s.currentSpl s.mie ⟨saved, pc⟩)
    (hs : halAsyncStep s saved pc = some r) (hr : r.1 = true) :
    base = .low ∧ saved = [] ∧ r = (true, s, ⟨[], .lowerReturn⟩) ∧ s.currentSpl = .low ∧
      s.mie = false := by
  obtain ⟨_, h⟩ := h
  cases pc with
  | own => cases hs
  | lowerTest new =>
    obtain ⟨hnew, hspl, hmie⟩ := h
    simp only [halAsyncStep] at hs
    split at hs
    · rename_i hc
      cases hs
      have hlow : levelOf base saved = .low := hnew.symm.trans hc.1
      cases saved with
      | nil => exact ⟨hlow, rfl, rfl, hspl.trans hc.1, hmie⟩
      | cons => cases hlow
    · cases hs
      cases hr
  | _ => cases hs; cases hr

/-- What is served stays served, unless the software interrupt is called. -/
theorem Served.step (h : Served s ⟨saved, pc⟩) (hc : CodeOk .low s.currentSpl s.mie ⟨saved, pc⟩)
    (hs : halAsyncStep s saved pc = some r) (hr : r.1 = false) : Served r.2.1 r.2.2 := by
  obtain ⟨hm, he⟩ := h
  cases pc with
  | own => cases hs
  | lowerTest new =>
    obtain ⟨_, hnew, hspl, hmie⟩ := hc
    simp only [halAsyncStep] at hs
    split at hs
    · cases hs
      cases hr
    · rename_i hno
      cases hs
      refine ⟨hm, fun hpc => ?_⟩
      have hne : new ≠ .sync := by
        intro e
        simp [e] at hpc
      have hnil : saved = [] := levelOf_ne (hnew ▸ hne)
      have hlow : new = .low := by rw [hnew, hnil]; rfl
      exact Bool.eq_false_iff.mpr fun hreq => hno ⟨hlow, hreq⟩
  | lowerEnable => cases hs; exact ⟨fun _ => he rfl, nofun⟩
  | raiseDisable new => cases hs; exact ⟨nofun, nofun⟩
  | lowerDisable new => cases hs; exact ⟨nofun, nofun⟩
  | _ => cases hs; exact ⟨hm, nofun⟩

end Aufrufe

/-! ## 3. Activations -/

/-- An activation at its statement, entered at the level `found`. -/
def ActOk (found spl : Spl) (mie mpie req : Bool) (a : Activation) : Prop :=
  (a.swi = true → found = .low ∧ a.prevSpl = .low) ∧
  match a.pc with
  | .save => mie = false ∧ spl = found
  | .splRead => mie = false ∧ spl = found ∧ a.swi = false
  | .splWrite => mie = false ∧ a.prevSpl = found
  | .cause => mie = false ∧ spl = .isr ∧ a.prevSpl = found
  | .tickEnable => mie = false ∧ spl = .isr ∧ a.prevSpl = found
  | .tick c => CodeOk .isr spl mie c ∧ a.prevSpl = found
  | .tickDisable => spl = .isr ∧ a.prevSpl = found
  | .intr c => CodeOk .isr spl mie c ∧ a.prevSpl = found
  | .disable => spl = .isr ∧ a.prevSpl = found
  | .testLow => mie = false ∧ spl = .isr ∧ a.prevSpl = found
  | .loop => mie = false ∧ spl = .isr ∧ a.prevSpl = found ∧ found = .low
  | .clear => mie = false ∧ spl = .isr ∧ a.prevSpl = found ∧ found = .low
  | .enable => mie = false ∧ spl = .isr ∧ a.prevSpl = found ∧ found = .low
  | .dispatch c => CodeOk .isr spl mie c ∧ a.prevSpl = found ∧ found = .low
  | .dispatchDisable => spl = .isr ∧ a.prevSpl = found ∧ found = .low
  | .restore => mie = false ∧ spl = .isr ∧ a.prevSpl = found ∧ (found = .low → req = false)
  | .leave => mie = false ∧ spl = found ∧ (found = .low → req = false)
  | .setMpie => mie = false ∧ spl = found ∧ (found = .low → req = false)
  | .mret => mie = false ∧ spl = found ∧ (found = .low → req = false) ∧ mpie = true

/-- An activation that was interrupted, to go on at its level with interrupts enabled. -/
def ActWaits (found : Spl) (a : Activation) : Prop :=
  ∀ mpie req, ActOk found .isr true mpie req a

/-- The level of what lies below an activation: of a thread, or of another one. -/
def levelBelow : List Activation → Spl
  | [] => .low
  | _ :: _ => .isr

def AllWait : List Activation → Prop
  | [] => True
  | a :: rest => ActWaits (levelBelow rest) a ∧ AllWait rest

/-- Interrupts are enabled only at the level of the handler, and there it can wait. -/
theorem ActOk.enabled {found spl : Spl} {mpie req : Bool} {a : Activation}
    (h : ActOk found spl true mpie req a) : spl = .isr ∧ ActWaits found a := by
  obtain ⟨swi, prevSpl, pc⟩ := a
  obtain ⟨hswi, h⟩ := h
  cases pc with
  | tick c =>
    obtain ⟨rfl, _⟩ := h.1.enabled
    exact ⟨rfl, fun _ _ => ⟨hswi, h⟩⟩
  | intr c =>
    obtain ⟨rfl, _⟩ := h.1.enabled
    exact ⟨rfl, fun _ _ => ⟨hswi, h⟩⟩
  | dispatch c =>
    obtain ⟨rfl, _⟩ := h.1.enabled
    exact ⟨rfl, fun _ _ => ⟨hswi, h⟩⟩
  | tickDisable =>
    obtain ⟨rfl, hp⟩ := h
    exact ⟨rfl, fun _ _ => ⟨hswi, rfl, hp⟩⟩
  | disable =>
    obtain ⟨rfl, hp⟩ := h
    exact ⟨rfl, fun _ _ => ⟨hswi, rfl, hp⟩⟩
  | dispatchDisable =>
    obtain ⟨rfl, hp⟩ := h
    exact ⟨rfl, fun _ _ => ⟨hswi, rfl, hp⟩⟩
  | _ => exact Bool.noConfusion h.1

/-- A request, or another enable bit saved, changes nothing for an activation that is not about
    to return. -/
theorem ActOk.code {found spl : Spl} {mie mpie req : Bool} {a : Activation} {c : Code}
    (h : ActOk found spl mie mpie req a) (hc : a.pc.code = some c) :
    CodeOk .isr spl mie c ∧ ∀ spl' mie' mpie' req' c', CodeOk .isr spl' mie' c' →
      ActOk found spl' mie' mpie' req' { a with pc := a.pc.setCode c' } := by
  obtain ⟨swi, prevSpl, pc⟩ := a
  obtain ⟨hswi, h⟩ := h
  cases pc with
  | tick d => cases hc; exact ⟨h.1, fun _ _ _ _ _ h' => ⟨hswi, h', h.2⟩⟩
  | intr d => cases hc; exact ⟨h.1, fun _ _ _ _ _ h' => ⟨hswi, h', h.2⟩⟩
  | dispatch d => cases hc; exact ⟨h.1, fun _ _ _ _ _ h' => ⟨hswi, h', h.2⟩⟩
  | _ => cases hc

/-- A thread that was interrupted, or is still to be started. -/
def Parked (c : Code) : Prop := CodeOk .low .low true c

/-- How deep the interrupts are nested at the statement. -/
def HandlerPc.counted : HandlerPc → Nat
  | .save => 0
  | .setMpie => 0
  | .mret => 0
  | _ => 1

/-- **The invariant.** -/
structure HalOk (s : Hal T) : Prop where
  runs : s.stack = [] → CodeOk .low s.currentSpl s.mie (s.thread s.current) ∧
    Served s (s.thread s.current) ∧ s.nesting = 0
  handles : ∀ a rest, s.stack = a :: rest →
    ActOk (levelBelow rest) s.currentSpl s.mie s.mpie s.dispatchReq a ∧ AllWait rest ∧
    s.nesting = rest.length + a.pc.counted
  parked : ∀ t, s.stack ≠ [] ∨ t ≠ s.current → Parked (s.thread t)

theorem halBoot_ok (idle : T) : HalOk (halBoot idle) where
  runs _ := by
    have hidle : (halBoot idle).thread idle = ⟨[.low], .own⟩ := by
      show update (fun _ => Code.fresh) idle ⟨[.low], .own⟩ idle = _
      rw [Function.update_self]
    refine ⟨?_, ⟨nofun, fun hpc => ?_⟩, rfl⟩
    · show CodeOk .low .sync false ((halBoot idle).thread idle)
      rw [hidle]
      exact ⟨⟨rfl, trivial⟩, rfl, fun _ => rfl⟩
    · change ((halBoot idle).thread idle).pc = _ at hpc
      rw [hidle] at hpc
      cases hpc
  handles _ _ h := by cases h
  parked t ht := by
    have hne : t ≠ idle := ht.elim (fun h => absurd rfl h) id
    have ht : (halBoot idle).thread t = .fresh := by
      show update (fun _ => Code.fresh) idle ⟨[.low], .own⟩ t = _
      rw [Function.update_of_ne hne]
    rw [ht]
    exact codeOk_fresh (by decide) rfl true

/-! ## 4. Steps -/

section Schritte

variable {s s' : Hal T} {a : Activation} {rest : List Activation} {c : Code}

theorem ActOk.counted {found spl : Spl} {mpie req : Bool}
    (h : ActOk found spl true mpie req a) : a.pc.counted = 1 := by
  obtain ⟨swi, prevSpl, pc⟩ := a
  cases pc with
  | save => exact Bool.noConfusion h.2.1
  | setMpie => exact Bool.noConfusion h.2.1
  | mret => exact Bool.noConfusion h.2.1
  | _ => rfl

theorem levelBelow_low (h : levelBelow rest = .low) : rest = [] := by
  cases rest with
  | nil => rfl
  | cons => cases h

theorem setCode_code (h : a.pc.code = some c) : a.pc.setCode c = a.pc := by
  obtain ⟨swi, prevSpl, pc⟩ := a
  cases pc with
  | tick d => cases h; rfl
  | intr d => cases h; rfl
  | dispatch d => cases h; rfl
  | _ => cases h

theorem setCode_counted {pc : HandlerPc} (h : pc.code = some c) (c' : Code) :
    (pc.setCode c').counted = pc.counted ∧ pc.after.counted = pc.counted := by
  cases pc with
  | tick d => exact ⟨rfl, rfl⟩
  | intr d => exact ⟨rfl, rfl⟩
  | dispatch d => exact ⟨rfl, rfl⟩
  | _ => cases h

theorem stack_cases (s : Hal T) : s.stack = [] ∨ ∃ a rest, s.stack = a :: rest := by
  cases s.stack with
  | nil => exact Or.inl rfl
  | cons a rest => exact Or.inr ⟨a, rest, rfl⟩

theorem code_nil (h : s.stack = []) : s.code = some (s.thread s.current) := by
  unfold Hal.code
  rw [h]

theorem code_cons (h : s.stack = a :: rest) : s.code = a.pc.code := by
  unfold Hal.code
  rw [h]

theorem setCode_nil (h : s.stack = []) (c : Code) :
    s.setCode c = { s with thread := update s.thread s.current c } := by
  unfold Hal.setCode
  split
  · rfl
  · rename_i hs
    rw [h] at hs
    cases hs

theorem setCode_cons (h : s.stack = a :: rest) (c : Code) :
    s.setCode c = s.setPc a rest (a.pc.setCode c) := by
  unfold Hal.setCode
  split
  · rename_i hs
    rw [h] at hs
    cases hs
  · rename_i hs
    rw [h] at hs
    cases hs
    rfl

/-- The activation moves to another statement. -/
theorem HalOk.move (h : HalOk s) (hs : s.stack = a :: rest) {a' : Activation}
    (hthread : s'.thread = s.thread) (hstack : s'.stack = a' :: rest)
    (hact : ActOk (levelBelow rest) s'.currentSpl s'.mie s'.mpie s'.dispatchReq a')
    (hnest : s'.nesting = rest.length + a'.pc.counted) : HalOk s' where
  runs hnil := by
    rw [hstack] at hnil
    cases hnil
  handles b rest' hb := by
    rw [hstack] at hb
    cases hb
    exact ⟨hact, (h.handles a rest hs).2.1, hnest⟩
  parked t _ := by
    rw [hthread]
    exact h.parked t (Or.inl (by rw [hs]; exact List.cons_ne_nil a rest))

/-- The code of a thread or of a handler goes on. -/
theorem HalOk.code (h : HalOk s) (hc : s.code = some c) {s1 : Hal T} {c' : Code}
    (hs1 : s1 = { s with
      mie := s1.mie, currentSpl := s1.currentSpl, dispatchReq := s1.dispatchReq })
    (hok : ∀ base, base ≠ .sync → CodeOk base s.currentSpl s.mie c →
      CodeOk base s1.currentSpl s1.mie c')
    (hserved : s.stack = [] → CodeOk .low s.currentSpl s.mie c → Served s c → Served s1 c') :
    HalOk (s1.setCode c') := by
  have hthread : s1.thread = s.thread ∧ s1.current = s.current ∧ s1.nesting = s.nesting ∧
      s1.stack = s.stack := by
    rw [hs1]
    exact ⟨rfl, rfl, rfl, rfl⟩
  obtain ⟨hthread, hcur, hn, hst⟩ := hthread
  rcases stack_cases s with hstack | ⟨a, rest, hstack⟩
  · obtain ⟨hrun, hsv, hnest⟩ := h.runs hstack
    rw [code_nil hstack] at hc
    rw [Option.some.inj hc] at hrun hsv
    rw [setCode_nil (hst.trans hstack), hthread, hcur]
    refine ⟨fun _ => ?_, fun _ _ hb => ?_, fun t ht => ?_⟩
    · show CodeOk .low s1.currentSpl s1.mie (update s.thread s.current c' s.current) ∧
        Served _ (update s.thread s.current c' s.current) ∧ s1.nesting = 0
      rw [Function.update_self]
      exact ⟨hok .low (by decide) hrun, hserved hstack hrun hsv, hn.trans hnest⟩
    · change s1.stack = _ at hb
      rw [hst, hstack] at hb
      cases hb
    · change s1.stack ≠ [] ∨ t ≠ s.current at ht
      rw [hst] at ht
      have hne : t ≠ s.current := ht.elim (fun hn => absurd hstack hn) id
      show Parked (update s.thread s.current c' t)
      rw [Function.update_of_ne hne]
      exact h.parked t (Or.inr hne)
  · rw [code_cons hstack] at hc
    obtain ⟨hact, _, hnest⟩ := h.handles a rest hstack
    obtain ⟨hcode, hset⟩ := hact.code hc
    rw [setCode_cons (hst.trans hstack)]
    refine h.move hstack hthread rfl (hset _ _ _ _ _ (hok .isr (by decide) hcode)) ?_
    show s1.nesting = rest.length + (a.pc.setCode c').counted
    rw [(setCode_counted hc c').1]
    exact hn.trans hnest

/-- What runs with interrupts enabled can wait, and interrupts find its level. -/
theorem HalOk.waits (h : HalOk s) (hm : s.mie = true) :
    AllWait s.stack ∧ s.currentSpl = levelBelow s.stack ∧ s.nesting = s.stack.length ∧
      ∀ t, Parked (s.thread t) := by
  rcases stack_cases s with hstack | ⟨a, rest, hstack⟩
  · obtain ⟨hrun, _, hnest⟩ := h.runs hstack
    rw [hm] at hrun
    have hlow : s.currentSpl = .low := hrun.enabled.1
    rw [hstack]
    refine ⟨trivial, hlow, hnest, fun t => ?_⟩
    by_cases ht : t = s.current
    · rw [hlow] at hrun
      exact ht ▸ hrun
    · exact h.parked t (Or.inr ht)
  · obtain ⟨hact, hall, hnest⟩ := h.handles a rest hstack
    rw [hm] at hact
    rw [hact.counted] at hnest
    obtain ⟨hspl, hw⟩ := hact.enabled
    rw [hstack]
    exact ⟨⟨hw, hall⟩, hspl, hnest, fun t => h.parked t (Or.inl (by rw [hstack]; exact nofun))⟩

theorem HalOk.interrupt (h : HalOk s) (hm : s.mie = true) :
    HalOk { s with mie := false, mpie := s.mie, stack := ⟨false, .sync, .save⟩ :: s.stack } := by
  obtain ⟨hall, hspl, hnest, hparked⟩ := h.waits hm
  refine ⟨nofun, fun b rest hb => ?_, fun t _ => hparked t⟩
  cases hb
  exact ⟨⟨nofun, rfl, hspl⟩, hall, hnest⟩

/-- The software interrupt is called by a thread, which waits for its end. -/
theorem HalOk.checkSwi (h : HalOk s) (hc : s.code = some c) {r : Bool × Hal T × Code}
    (hs : halAsyncStep s c.saved c.pc = some r) (hr : r.1 = true) :
    HalOk { r.2.1.setCode r.2.2 with
      stack := ⟨true, .low, .save⟩ :: (r.2.1.setCode r.2.2).stack } := by
  rcases stack_cases s with hstack | ⟨a, rest, hstack⟩
  · obtain ⟨hrun, _, hnest⟩ := h.runs hstack
    rw [code_nil hstack] at hc
    rw [Option.some.inj hc] at hrun
    obtain ⟨_, _, rfl, hspl, hmie⟩ := hrun.swi hs hr
    rw [setCode_nil hstack]
    refine ⟨nofun, fun b rest hb => ?_, fun t _ => ?_⟩
    · change _ :: s.stack = _ at hb
      rw [hstack] at hb
      cases hb
      exact ⟨⟨fun _ => ⟨rfl, rfl⟩, hmie, hspl⟩, trivial, hnest⟩
    · by_cases ht : t = s.current
      · show Parked (update s.thread s.current ⟨[], .lowerReturn⟩ t)
        rw [ht, Function.update_self]
        exact ⟨trivial, rfl, nofun⟩
      · show Parked (update s.thread s.current ⟨[], .lowerReturn⟩ t)
        rw [Function.update_of_ne ht]
        exact h.parked t (Or.inr ht)
  · rw [code_cons hstack] at hc
    obtain ⟨hact, _, _⟩ := h.handles a rest hstack
    obtain ⟨hlow, _⟩ := (hact.code hc).1.swi hs hr
    cases hlow

/-- The first handler starts the interrupt stack, and the count tells it. -/
theorem HalOk.save {swi : Bool} {prevSpl : Spl} (h : HalOk s)
    (hstack : s.stack = ⟨swi, prevSpl, .save⟩ :: rest)
    (hact : ActOk (levelBelow rest) s.currentSpl s.mie s.mpie s.dispatchReq ⟨swi, prevSpl, .save⟩)
    (hnest : s.nesting = rest.length) (hs : halIntrSave s ⟨swi, prevSpl, .save⟩ rest = s') :
    HalOk s' ∧ ∃ a', s'.stack = a' :: rest := by
  obtain ⟨hswi, hmie, hspl⟩ := hact
  unfold halIntrSave at hs
  split at hs
  · rename_i hsw
    obtain ⟨hlow, hprev⟩ := hswi hsw
    have hnil : rest = [] := levelBelow_low hlow
    subst hnil
    subst hs
    exact ⟨h.move hstack rfl rfl ⟨hswi, hmie, hprev.trans hlow.symm⟩ rfl, _, rfl⟩
  · rename_i hsw
    have hfalse : swi = false := Bool.eq_false_iff.mpr hsw
    split at hs
    · rename_i h0
      have hnil : rest = [] := List.length_eq_zero_iff.mp (hnest.symm.trans h0)
      subst hnil
      subst hs
      exact ⟨h.move hstack rfl rfl ⟨hswi, hmie, hspl, hfalse⟩ rfl, _, rfl⟩
    · subst hs
      exact ⟨h.move hstack rfl rfl ⟨hswi, hmie, hspl, hfalse⟩ (congrArg (· + 1) hnest), _, rfl⟩

/-- The last handler goes back to a thread, and the count tells it. -/
theorem HalOk.leave {swi : Bool} {prevSpl : Spl} (h : HalOk s)
    (hstack : s.stack = ⟨swi, prevSpl, .leave⟩ :: rest)
    (hact : ActOk (levelBelow rest) s.currentSpl s.mie s.mpie s.dispatchReq ⟨swi, prevSpl, .leave⟩)
    (hnest : s.nesting = rest.length + 1) (hs : halIntrLeave s ⟨swi, prevSpl, .leave⟩ rest = s') :
    HalOk s' ∧ ∃ a', s'.stack = a' :: rest := by
  obtain ⟨hswi, hact⟩ := hact
  unfold halIntrLeave at hs
  split at hs
  · rename_i hsw
    have hnil : rest = [] := levelBelow_low (hswi hsw).1
    subst hnil
    subst hs
    exact ⟨h.move hstack rfl rfl ⟨hswi, hact⟩ rfl, _, rfl⟩
  · split at hs
    · rename_i h0
      have hnil : rest = [] := List.length_eq_zero_iff.mp (by omega)
      subst hnil
      subst hs
      exact ⟨h.move hstack rfl rfl ⟨hswi, hact⟩ rfl, _, rfl⟩
    · subst hs
      refine ⟨h.move hstack rfl rfl ⟨hswi, hact⟩ ?_, _, rfl⟩
      show s.nesting - 1 = rest.length + 0
      omega

/-- What was interrupted goes on where it was, at the level the handler was entered at. -/
theorem HalOk.mret (h : HalOk s) (hstack : s.stack = a :: rest) (hpc : a.pc = .mret)
    (hs : halIntrStep s a rest = some s') :
    HalOk s' ∧ s'.stack = rest ∧ s.currentSpl = levelBelow rest := by
  obtain ⟨hact, hall, hnest⟩ := h.handles a rest hstack
  obtain ⟨swi, prevSpl, pc⟩ := a
  change pc = _ at hpc
  subst hpc
  obtain ⟨_, _, hspl, hreq, hmpie⟩ := hact
  cases hs
  have hparked : ∀ t, Parked (s.thread t) :=
    fun t => h.parked t (Or.inl (by rw [hstack]; exact List.cons_ne_nil _ rest))
  refine ⟨⟨fun hnil => ?_, fun b rest' hb => ?_, fun t _ => hparked t⟩, rfl, hspl⟩
  · change rest = [] at hnil
    subst hnil
    have hrun : CodeOk .low .low true (s.thread s.current) := hparked s.current
    refine ⟨?_, ⟨fun _ => hreq rfl, fun _ => hreq rfl⟩, hnest⟩
    show CodeOk .low s.currentSpl s.mpie (s.thread s.current)
    rw [hspl, hmpie]
    exact hrun
  · change rest = _ at hb
    subst hb
    have hb : ActOk (levelBelow rest') .isr true true s.dispatchReq b := hall.1 true s.dispatchReq
    refine ⟨?_, hall.2, ?_⟩
    · show ActOk (levelBelow rest') s.currentSpl s.mpie true s.dispatchReq b
      rw [hspl, hmpie]
      exact hb
    · rw [hb.counted]
      exact hnest

/-- **A statement of a handler** other than its last one. -/
theorem HalOk.intrStep (h : HalOk s) (hstack : s.stack = a :: rest) (hpc : a.pc ≠ .mret)
    (hs : halIntrStep s a rest = some s') : HalOk s' ∧ ∃ a', s'.stack = a' :: rest := by
  obtain ⟨hact, _, hnest⟩ := h.handles a rest hstack
  obtain ⟨hswi, hact⟩ := hact
  obtain ⟨swi, prevSpl, pc⟩ := a
  have hmove : ∀ {s1 : Hal T} {a' : Activation}, s1.thread = s.thread → s1.stack = a' :: rest →
      ActOk (levelBelow rest) s1.currentSpl s1.mie s1.mpie s1.dispatchReq a' →
      s1.nesting = rest.length + a'.pc.counted → HalOk s1 ∧ ∃ a', s1.stack = a' :: rest :=
    fun h1 h2 h3 h4 => ⟨h.move hstack h1 h2 h3 h4, _, h2⟩
  cases pc with
  | cause => cases hs
  | tick c => cases hs
  | intr c => cases hs
  | dispatch c => cases hs
  | save => exact h.save hstack ⟨hswi, hact⟩ hnest (Option.some.inj hs)
  | splRead =>
    cases hs
    refine hmove rfl rfl ⟨fun e => ?_, hact.1, hact.2.1⟩ hnest
    cases hact.2.2.symm.trans e
  | splWrite =>
    obtain ⟨hmie, hprev⟩ := hact
    cases hs
    cases swi with
    | true => exact hmove rfl rfl ⟨hswi, hmie, rfl, hprev, (hswi rfl).1⟩ hnest
    | false => exact hmove rfl rfl ⟨hswi, hmie, rfl, hprev⟩ hnest
  | tickEnable =>
    cases hs
    exact hmove rfl rfl ⟨hswi, codeOk_fresh (by decide) hact.2.1 true, hact.2.2⟩ hnest
  | tickDisable => cases hs; exact hmove rfl rfl ⟨hswi, hact⟩ hnest
  | disable => cases hs; exact hmove rfl rfl ⟨hswi, rfl, hact⟩ hnest
  | testLow =>
    obtain ⟨hmie, hspl, hprev⟩ := hact
    change some (s.setPc _ rest (if prevSpl = .low then _ else _)) = _ at hs
    split at hs
    · rename_i hlow
      cases hs
      exact hmove rfl rfl ⟨hswi, hmie, hspl, hprev, hprev.symm.trans hlow⟩ hnest
    · rename_i hlow
      cases hs
      exact hmove rfl rfl ⟨hswi, hmie, hspl, hprev, fun e => absurd (hprev.trans e) hlow⟩ hnest
  | loop =>
    obtain ⟨hmie, hspl, hprev, hfound⟩ := hact
    change some (s.setPc _ rest (if s.dispatchReq = true then _ else _)) = _ at hs
    split at hs
    · cases hs
      exact hmove rfl rfl ⟨hswi, hmie, hspl, hprev, hfound⟩ hnest
    · rename_i hreq
      cases hs
      exact hmove rfl rfl ⟨hswi, hmie, hspl, hprev, fun _ => Bool.eq_false_iff.mpr hreq⟩ hnest
  | clear => cases hs; exact hmove rfl rfl ⟨hswi, hact⟩ hnest
  | enable =>
    cases hs
    exact hmove rfl rfl ⟨hswi, codeOk_fresh (by decide) hact.2.1 true, hact.2.2⟩ hnest
  | dispatchDisable => cases hs; exact hmove rfl rfl ⟨hswi, rfl, hact⟩ hnest
  | restore =>
    obtain ⟨hmie, _, hprev, hreq⟩ := hact
    cases hs
    exact hmove rfl rfl ⟨hswi, hmie, hprev, hreq⟩ hnest
  | leave => exact h.leave hstack ⟨hswi, hact⟩ hnest (Option.some.inj hs)
  | setMpie =>
    cases hs
    exact hmove rfl rfl ⟨hswi, hact.1, hact.2.1, hact.2.2, rfl⟩ hnest
  | mret => exact absurd rfl hpc

theorem setCode_self (h : s.code = some c) : s.setCode c = s := by
  rcases stack_cases s with hstack | ⟨a, rest, hstack⟩
  · rw [code_nil hstack] at h
    rw [setCode_nil hstack, ← Option.some.inj h, Function.update_eq_self]
  · rw [code_cons hstack] at h
    rw [setCode_cons hstack, setCode_code h, Hal.setPc, ← hstack]

theorem ActOk.finish {found spl : Spl} {mie mpie req : Bool}
    (h : ActOk found spl mie mpie req a) (hc : a.pc.code = some .fresh) :
    ActOk found spl mie mpie req { a with pc := a.pc.after } := by
  obtain ⟨swi, prevSpl, pc⟩ := a
  obtain ⟨hswi, h⟩ := h
  cases pc with
  | tick d => cases hc; exact ⟨hswi, h.1.2.1, h.2⟩
  | intr d => cases hc; exact ⟨hswi, h.1.2.1, h.2⟩
  | dispatch d => cases hc; exact ⟨hswi, h.1.2.1, h.2⟩
  | _ => cases hc

theorem HalOk.step {act : HalAct T} (h : HalOk s) (hs : halStep act s = some s') : HalOk s' := by
  cases act with
  | interrupt =>
    obtain ⟨hm, rfl⟩ := taken hs
    exact h.interrupt hm
  | raise =>
    simp only [halStep] at hs
    split at hs
    · rename_i saved hc
      cases hs
      exact h.code hc rfl (fun _ _ hok => ⟨hok.1, rfl, hok.2⟩) fun _ _ hsv => ⟨hsv.1, nofun⟩
    · cases hs
  | lower =>
    simp only [halStep] at hs
    split at hs
    · rename_i spl saved hc
      cases hs
      refine h.code hc rfl (fun _ _ hok => ?_) fun _ _ hsv => ⟨hsv.1, nofun⟩
      exact ⟨hok.1.2, hok.1.1, hok.2.1, hok.2.2 hok.2.1⟩
    · cases hs
  | request =>
    simp only [halStep] at hs
    split at hs
    · rename_i saved hc
      obtain ⟨hmay, rfl⟩ := taken hs
      have hself : ({ s with dispatchReq := true } : Hal T).setCode ⟨saved, .own⟩ = _ :=
        setCode_self hc
      rw [← hself]
      refine h.code hc rfl (fun _ _ hok => hok) fun hnil hok _ => ⟨fun hm => ?_, nofun⟩
      have hsync : s.currentSpl = .sync := hmay.elim id fun hne => absurd hnil hne
      cases (hok.masked hsync).symm.trans hm
    · cases hs
  | finish =>
    simp only [halStep] at hs
    split at hs
    · cases hs
    · rename_i a rest hstack
      obtain ⟨hc, rfl⟩ := taken hs
      obtain ⟨hact, _, hnest⟩ := h.handles a rest hstack
      refine h.move hstack rfl rfl (hact.finish hc) ?_
      show s.nesting = rest.length + a.pc.after.counted
      rw [(setCode_counted hc .fresh).2]
      exact hnest
  | switch t =>
    simp only [halStep] at hs
    split at hs
    · obtain ⟨_, rfl⟩ := taken hs
      exact ⟨h.runs, h.handles, h.parked⟩
    · cases hs
  | cause timer =>
    simp only [halStep] at hs
    split at hs
    · cases hs
    · rename_i a rest hstack
      obtain ⟨hpc, rfl⟩ := taken hs
      obtain ⟨⟨hswi, hact⟩, _, hnest⟩ := h.handles a rest hstack
      rw [hpc] at hact hnest
      obtain ⟨hmie, hspl, hprev⟩ := hact
      cases timer with
      | true => exact h.move hstack rfl rfl ⟨hswi, hmie, hspl, hprev⟩ hnest
      | false =>
        exact h.move hstack rfl rfl ⟨hswi, codeOk_fresh (by decide) hspl s.mie, hprev⟩ hnest
  | go =>
    simp only [halStep] at hs
    split at hs
    · rename_i c hc
      obtain ⟨r, hr, rfl⟩ := Option.map_eq_some_iff.mp hs
      split
      · rename_i hswi
        exact h.checkSwi hc hr hswi
      · rename_i hswi
        exact h.code hc (halAsyncStep_frame hr) (fun _ hb hok => hok.step hb hr)
          fun _ hok hsv => hsv.step hok hr (Bool.eq_false_iff.mpr hswi)
    · rename_i a rest hc hstack
      by_cases hpc : a.pc = .mret
      · exact (h.mret hstack hpc hs).1
      · exact (h.intrStep hstack hpc hs).1
    · cases hs

/-! ## 5. The levels found -/

/-- The statement is the call of `hal_intr_check_swi`. -/
def Hal.callsSwi (s : Hal T) : Bool :=
  match s.code with
  | some c => (halAsyncStep s c.saved c.pc).any fun r => r.1
  | none => false

/-- A handler is about to return from the interrupt. -/
def Hal.returns (s : Hal T) : Bool := s.stack.head?.any fun a => decide (a.pc = .mret)

/-- The levels at which the handlers in progress were entered, noted at their entry. -/
def halNote (act : HalAct T) (s : Hal T) (found : List Spl) : List Spl :=
  match act with
  | .interrupt => s.currentSpl :: found
  | .go => if s.callsSwi then s.currentSpl :: found else if s.returns then found.tail else found
  | _ => found

/-- The level of what lies below, for every activation. -/
def foundBy : List Activation → List Spl
  | [] => []
  | _ :: rest => levelBelow rest :: foundBy rest

theorem foundBy_setCode (s : Hal T) (c : Code) : foundBy (s.setCode c).stack = foundBy s.stack := by
  rcases stack_cases s with hstack | ⟨a, rest, hstack⟩
  · rw [setCode_nil hstack]
  · rw [setCode_cons hstack, hstack]
    rfl

theorem callsSwi_code (hc : s.code = some c) {r : Bool × Hal T × Code}
    (hr : halAsyncStep s c.saved c.pc = some r) : s.callsSwi = r.1 := by
  unfold Hal.callsSwi
  rw [hc]
  dsimp only
  rw [hr]
  rfl

theorem returns_code (hc : s.code = some c) : s.returns = false := by
  unfold Hal.returns
  rcases stack_cases s with hstack | ⟨a, rest, hstack⟩
  · rw [hstack]
    rfl
  · rw [code_cons hstack] at hc
    rw [hstack]
    refine decide_eq_false fun hpc => ?_
    rw [hpc] at hc
    cases hc

/-- The note is the level of what lies below. -/
theorem HalOk.note {act : HalAct T} (h : HalOk s) (hs : halStep act s = some s') :
    halNote act s (foundBy s.stack) = foundBy s'.stack := by
  cases act with
  | interrupt =>
    obtain ⟨hm, rfl⟩ := taken hs
    obtain ⟨_, hspl, _⟩ := h.waits hm
    show s.currentSpl :: foundBy s.stack = levelBelow s.stack :: foundBy s.stack
    rw [hspl]
  | raise =>
    simp only [halStep] at hs
    split at hs
    · cases hs
      exact (foundBy_setCode s _).symm
    · cases hs
  | lower =>
    simp only [halStep] at hs
    split at hs
    · cases hs
      exact (foundBy_setCode s _).symm
    · cases hs
  | request =>
    simp only [halStep] at hs
    split at hs
    · obtain ⟨_, rfl⟩ := taken hs
      rfl
    · cases hs
  | finish =>
    simp only [halStep] at hs
    split at hs
    · cases hs
    · rename_i a rest hstack
      obtain ⟨_, rfl⟩ := taken hs
      rw [hstack]
      rfl
  | switch t =>
    simp only [halStep] at hs
    split at hs
    · obtain ⟨_, rfl⟩ := taken hs
      rfl
    · cases hs
  | cause timer =>
    simp only [halStep] at hs
    split at hs
    · cases hs
    · rename_i a rest hstack
      obtain ⟨_, rfl⟩ := taken hs
      rw [hstack]
      rfl
  | go =>
    simp only [halStep] at hs
    simp only [halNote]
    split at hs
    · rename_i c hc
      obtain ⟨r, hr, rfl⟩ := Option.map_eq_some_iff.mp hs
      rw [callsSwi_code hc hr, returns_code hc, if_neg Bool.false_ne_true]
      cases hcall : r.1 with
      | true =>
        rcases stack_cases s with hstack | ⟨a, rest, hstack⟩
        · obtain ⟨hrun, _⟩ := h.runs hstack
          rw [code_nil hstack] at hc
          rw [Option.some.inj hc] at hrun
          obtain ⟨_, _, rfl, hspl, _⟩ := hrun.swi hr hcall
          rw [if_pos rfl, if_pos rfl, setCode_nil hstack, hspl, hstack]
          rfl
        · rw [code_cons hstack] at hc
          obtain ⟨hact, _⟩ := h.handles a rest hstack
          cases ((hact.code hc).1.swi hr hcall).1
      | false =>
        rw [if_neg Bool.false_ne_true, if_neg Bool.false_ne_true, foundBy_setCode,
          halAsyncStep_frame hr]
    · rename_i a rest hc hstack
      have hno : s.callsSwi = false := by
        unfold Hal.callsSwi
        rw [hc]
      have hret : s.returns = decide (a.pc = .mret) := by
        unfold Hal.returns
        rw [hstack]
        rfl
      rw [hno, hret, if_neg Bool.false_ne_true, hstack]
      by_cases hpc : a.pc = .mret
      · obtain ⟨_, hst, _⟩ := h.mret hstack hpc hs
        rw [decide_eq_true hpc, if_pos rfl, hst]
        rfl
      · obtain ⟨_, a', hst⟩ := h.intrStep hstack hpc hs
        rw [decide_eq_false hpc, if_neg Bool.false_ne_true, hst]
        rfl
    · cases hs

/-! ## 6. Requests -/

/-- `dispatch_req` is cleared, and the next statement but one calls `fx_dispatch_handler`. -/
def Hal.entering (s : Hal T) : Bool := s.stack.head?.any fun a => decide (a.pc = .enable)

/-- Whether a dispatch was requested that `fx_dispatch_handler` was not entered for. -/
def halDue (act : HalAct T) (s : Hal T) (due : Bool) : Bool :=
  match act with
  | .request => true
  | .go => if s.entering then false else due
  | _ => due

theorem entering_cons (h : s.stack = a :: rest) : s.entering = decide (a.pc = .enable) := by
  unfold Hal.entering
  rw [h]
  rfl

theorem entering_code (hc : s.code = some c) : s.entering = false := by
  rcases stack_cases s with hstack | ⟨a, rest, hstack⟩
  · unfold Hal.entering
    rw [hstack]
    rfl
  · rw [code_cons hstack] at hc
    rw [entering_cons hstack]
    refine decide_eq_false fun hpc => ?_
    rw [hpc] at hc
    cases hc

/-- No interrupt is taken there. -/
theorem HalOk.entering (h : HalOk s) (he : s.entering = true) : s.mie = false := by
  rcases stack_cases s with hstack | ⟨a, rest, hstack⟩
  · unfold Hal.entering at he
    rw [hstack] at he
    cases he
  · rw [entering_cons hstack] at he
    obtain ⟨⟨_, hact⟩, _⟩ := h.handles a rest hstack
    rw [of_decide_eq_true he] at hact
    exact hact.1

theorem halAsyncStep_dispatchReq {saved : List Spl} {pc : CallPc} {r : Bool × Hal T × Code}
    (h : halAsyncStep s saved pc = some r) : r.2.1.dispatchReq = s.dispatchReq := by
  cases pc with
  | own => cases h
  | lowerTest spl =>
    simp only [halAsyncStep] at h
    split at h <;> (cases h; rfl)
  | _ => cases h; rfl

theorem setCode_dispatchReq (s : Hal T) (c : Code) : (s.setCode c).dispatchReq = s.dispatchReq := by
  rcases stack_cases s with hstack | ⟨a, rest, hstack⟩
  · rw [setCode_nil hstack]
  · rw [setCode_cons hstack]
    rfl

/-- A statement of a handler that clears a request is followed by the entry. -/
theorem halIntrStep_dispatchReq (hs : halIntrStep s a rest = some s') :
    s'.dispatchReq = s.dispatchReq ∨ s'.entering = true := by
  obtain ⟨swi, prevSpl, pc⟩ := a
  cases pc with
  | clear => cases hs; exact Or.inr rfl
  | save =>
    cases hs
    unfold halIntrSave
    split
    · exact Or.inl rfl
    · split <;> exact Or.inl rfl
  | leave =>
    cases hs
    unfold halIntrLeave
    split
    · exact Or.inl rfl
    · split <;> exact Or.inl rfl
  | cause => cases hs
  | tick c => cases hs
  | intr c => cases hs
  | dispatch c => cases hs
  | _ => cases hs; exact Or.inl rfl

/-- **`dispatch_req` is cleared only on the way into `fx_dispatch_handler`.** -/
theorem HalOk.due {act : HalAct T} {due : Bool} (h : HalOk s)
    (hd : due = true → s.dispatchReq = true ∨ s.entering = true) (hs : halStep act s = some s') :
    halDue act s due = true → s'.dispatchReq = true ∨ s'.entering = true := by
  -- wherever the code of a thread or a handler is, the flag tells
  have hflag : ∀ {c}, s.code = some c → due = true → s.dispatchReq = true := fun hc hdue =>
    (hd hdue).resolve_right fun he => Bool.noConfusion ((entering_code hc).symm.trans he)
  intro hdue
  cases act with
  | interrupt =>
    obtain ⟨hm, rfl⟩ := taken hs
    refine Or.inl ((hd hdue).resolve_right fun he => ?_)
    cases hm.symm.trans (h.entering he)
  | raise =>
    simp only [halStep] at hs
    split at hs
    · rename_i hc
      cases hs
      exact Or.inl ((setCode_dispatchReq ..).trans (hflag hc hdue))
    · cases hs
  | lower =>
    simp only [halStep] at hs
    split at hs
    · rename_i hc
      cases hs
      exact Or.inl ((setCode_dispatchReq ..).trans (hflag hc hdue))
    · cases hs
  | request =>
    simp only [halStep] at hs
    split at hs
    · obtain ⟨_, rfl⟩ := taken hs
      exact Or.inl rfl
    · cases hs
  | finish =>
    simp only [halStep] at hs
    split at hs
    · cases hs
    · rename_i a rest hstack
      obtain ⟨hc, rfl⟩ := taken hs
      exact Or.inl (hflag ((code_cons hstack).trans hc) hdue)
  | switch t =>
    simp only [halStep] at hs
    split at hs
    · rename_i hc
      obtain ⟨_, rfl⟩ := taken hs
      exact Or.inl (hflag hc hdue)
    · cases hs
  | cause timer =>
    simp only [halStep] at hs
    split at hs
    · cases hs
    · rename_i a rest hstack
      obtain ⟨hpc, rfl⟩ := taken hs
      refine Or.inl ((hd hdue).resolve_right fun he => ?_)
      rw [entering_cons hstack, hpc] at he
      cases he
  | go =>
    obtain ⟨hno, hdue⟩ : s.entering = false ∧ due = true := by
      simp only [halDue] at hdue
      split at hdue
      · cases hdue
      · rename_i he
        exact ⟨Bool.eq_false_iff.mpr he, hdue⟩
    have hreq : s.dispatchReq = true :=
      (hd hdue).resolve_right fun he => Bool.noConfusion (hno.symm.trans he)
    simp only [halStep] at hs
    split at hs
    · rename_i c hc
      obtain ⟨r, hr, rfl⟩ := Option.map_eq_some_iff.mp hs
      have hkept : (r.2.1.setCode r.2.2).dispatchReq = true :=
        (setCode_dispatchReq ..).trans ((halAsyncStep_dispatchReq hr).trans hreq)
      split
      · exact Or.inl hkept
      · exact Or.inl hkept
    · exact (halIntrStep_dispatchReq hs).imp_left fun he => he.trans hreq
    · cases hs

end Schritte

/-! ## 7. Runs -/

section Lauf

variable {s : Hal T} {found : List Spl}

theorem dispatching_low {level spl : Spl} {mie mpie req : Bool} {a : Activation}
    (h : ActOk level spl mie mpie req a) (ha : a.dispatching = true) : level = .low := by
  obtain ⟨swi, prevSpl, pc⟩ := a
  cases pc with
  | dispatch c => exact h.2.2.2
  | _ => cases ha

/-- Over a dispatch handler, no other one is entered. -/
theorem dispatching_le {a : Activation} {rest : List Activation} {spl : Spl}
    {mie mpie req : Bool} (ha : ActOk (levelBelow rest) spl mie mpie req a) (hall : AllWait rest) :
    ((a :: rest).filter Activation.dispatching).length ≤ 1 := by
  induction rest generalizing a spl mie mpie req with
  | nil => exact List.length_filter_le _ _
  | cons b rest ih =>
    have hno : ¬ a.dispatching = true := fun hd => by cases dispatching_low ha hd
    rw [List.filter_cons_of_neg hno]
    exact ih (hall.1 true true) hall.2

/-- What runs at `SPL_LOW` with interrupts enabled is a thread. -/
theorem HalOk.served (h : HalOk s) (hlow : s.currentSpl = .low) (hm : s.mie = true) :
    s.dispatchReq = false := by
  have hspl : s.currentSpl = levelBelow s.stack := (h.waits hm).2.1
  have hnil : s.stack = [] := levelBelow_low (hspl.symm.trans hlow)
  exact (h.runs hnil).2.1.1 hm

/-- **Dispatch requests**, in every run of threads, interrupts and dispatch handlers. -/
theorem dispatch_requests_kept {idle : T}
    (h : Reach (noted halStep halNote) Always (halBoot idle, []) (s, found)) :
    -- at `SPL_SYNC` no interrupt is taken
    (s.currentSpl = .sync → s.mie = false) ∧
    -- at `SPL_LOW` every request has been served
    (s.currentSpl = .low → s.mie = true → s.dispatchReq = false) ∧
    -- a handler ends with the level it found
    (s.returns = true → found.head? = some s.currentSpl) ∧
    -- the dispatch handler is not entered twice
    (s.stack.filter Activation.dispatching).length ≤ 1 := by
  obtain ⟨hok, hfound⟩ : HalOk s ∧ found = foundBy s.stack := by
    refine h.inv (J := fun w => HalOk w.1 ∧ w.2 = foundBy w.1.stack)
      ⟨halBoot_ok idle, rfl⟩ fun w a w' hj _ hs => ?_
    obtain ⟨hs, hn⟩ := noted_some hs
    refine ⟨hj.1.step hs, ?_⟩
    rw [hn, hj.2]
    exact hj.1.note hs
  refine ⟨fun hsync => ?_, fun hlow hm => ?_, fun hret => ?_, ?_⟩
  · refine Bool.eq_false_iff.mpr fun hm => ?_
    have hspl : s.currentSpl = levelBelow s.stack := (hok.waits hm).2.1
    rw [hsync] at hspl
    rcases stack_cases s with hstack | ⟨a, rest, hstack⟩
    · rw [hstack] at hspl
      cases hspl
    · rw [hstack] at hspl
      cases hspl
  · exact hok.served hlow hm
  · rcases stack_cases s with hstack | ⟨a, rest, hstack⟩
    · unfold Hal.returns at hret
      rw [hstack] at hret
      cases hret
    · have hpc : a.pc = .mret := by
        unfold Hal.returns at hret
        rw [hstack] at hret
        exact of_decide_eq_true hret
      obtain ⟨s1, hs1⟩ : ∃ s1, halIntrStep s a rest = some s1 := by
        unfold halIntrStep
        rw [hpc]
        exact ⟨_, rfl⟩
      obtain ⟨_, _, hspl⟩ := hok.mret hstack hpc hs1
      rw [hfound, hstack, hspl]
      rfl
  · rcases stack_cases s with hstack | ⟨a, rest, hstack⟩
    · rw [hstack]
      exact Nat.zero_le 1
    · obtain ⟨hact, hall, _⟩ := hok.handles a rest hstack
      rw [hstack]
      exact dispatching_le hact hall

/-- **Every request is served**: it is pending until `fx_dispatch_handler` is about to be entered,
    and where interrupts are enabled at `SPL_LOW`, it has been. -/
theorem requests_served {idle : T} {due : Bool}
    (h : Reach (noted halStep halDue) Always (halBoot idle, false) (s, due)) :
    (due = true → s.dispatchReq = true ∨ s.entering = true ∧ s.mie = false) ∧
    (s.currentSpl = .low → s.mie = true → due = false) := by
  obtain ⟨hok, hdue⟩ : HalOk s ∧ (due = true → s.dispatchReq = true ∨ s.entering = true) := by
    refine h.inv
      (J := fun w => HalOk w.1 ∧ (w.2 = true → w.1.dispatchReq = true ∨ w.1.entering = true))
      ⟨halBoot_ok idle, fun hd => by cases hd⟩ fun w a w' hj _ hs => ?_
    obtain ⟨hs, hn⟩ := noted_some hs
    refine ⟨hj.1.step hs, ?_⟩
    rw [hn]
    exact hj.1.due hj.2 hs
  refine ⟨fun hd => (hdue hd).imp_right fun he => ⟨he, hok.entering he⟩, fun hlow hm => ?_⟩
  refine Bool.eq_false_iff.mpr fun hd => ?_
  rcases hdue hd with hreq | he
  · cases hreq.symm.trans (hok.served hlow hm)
  · cases hm.symm.trans (hok.entering he)

/-- A tick is interrupted by a handler that requests a dispatch; the tick handler serves it on
    its way back, switches to another thread, and ends at the level it found. -/
theorem dispatch_requests_kept_nested : ∃ (s : Hal Bool) (found : List Spl),
    Reach (noted halStep halNote) Always (halBoot false, []) (s, found) ∧ s.returns = true ∧
    s.current = true ∧ s.dispatchReq = false ∧ found.head? = some .low := by
  let acts : List (HalAct Bool) :=
    [.lower, .go, .go, .go, .go, .go, .interrupt, .go, .go, .go, .cause true, .go,
      .interrupt, .go, .go, .go, .cause false, .raise, .go, .go, .go, .request, .lower, .go, .go,
      .go, .go, .go, .finish, .go, .go, .go, .go, .go, .go,
      .finish, .go, .go, .go, .go, .go, .go, .switch true, .finish, .go, .go, .go, .go, .go]
  have hrun : (run (noted halStep halNote) acts (halBoot false, [])).any (fun w =>
      decide (w.1.returns = true ∧ w.1.current = true ∧ w.1.dispatchReq = false ∧
        w.1.currentSpl = .low)) = true := by
    decide +kernel
  obtain ⟨⟨s, found⟩, hreach, hw⟩ := exists_of_run hrun
  obtain ⟨hret, hcur, hreq, hspl⟩ := of_decide_eq_true hw
  have hfound := (dispatch_requests_kept hreach).2.2.1 hret
  change s.currentSpl = _ at hspl
  rw [hspl] at hfound
  exact ⟨s, found, hreach, hret, hcur, hreq, hfound⟩

end Lauf

end FxRtos
