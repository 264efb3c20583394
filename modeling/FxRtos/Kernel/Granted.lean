/-
  File:      FxRtos/Kernel/Granted.lean
  Subject:   WHAT A CALL HAS BEEN GRANTED. A call holds what it waits for from the moment its
             test succeeds or its block is notified as satisfied, although the thread may still
             have to wake up, to cancel its timer and to return.

  * `Pc.granted` -- the call of a thread, if it has been granted.
  * `Quiet.granted` -- no step without code of the object grants anything, or takes it back: a
    timeout or a cancel event that comes after the notification changes nothing.
  * `granted_stays`, `granted_returns` -- a call that has been granted returns OK.
-/
import FxRtos.Kernel.Runs

namespace FxRtos

open Function (update)
open Lib

set_option linter.unusedSectionVars false

variable {T E Q A O C P : Type} [DecidableEq T] [DecidableEq E] [DecidableEq Q]
  {cfg : Config T} {W : WaitObject T E Q A O C P} {s s' : Sys T E Q A O C} {t u : T}
  {k k' : Kern T E Q A} {c : C}

/-! ## 1. The state of a call -/

/-- The call of the thread, if it has been granted what it waits for. -/
def Pc.granted (k : Kern T E Q A) (t : T) : Pc T E C → Option C
  | .inCall (.asleep _) c =>
    if (k.wb (t, .main)).u.getStatus = .satisfied then some c else none
  | .inCall (.disarm r) c => if r = .ok then some c else none
  | .inCall (.ret r) c => if r = .ok then some c else none
  | _ => none

def Sys.granted (s : Sys T E Q A O C) (t : T) : Option C := (s.pc t).granted s.kern t

/-- Only the main block of a thread asleep matters. -/
theorem granted_congr {p : Pc T E C} (h : k'.wb (t, .main) = k.wb (t, .main)) :
    p.granted k' t = p.granted k t := by
  unfold Pc.granted
  rw [h]

theorem afterWait_granted (ab : Option (Ev T E)) (r : ThreadStatus) :
    (Pc.inCall (afterWait ab r) c).granted k t = if r = .ok then some c else none := by
  unfold afterWait
  split <;> rfl

theorem firstStage_granted (k0 : Kern T E Q A) :
    (Pc.inCall (firstStage cfg W k0 c) c).granted k t = none := by
  unfold firstStage
  split
  · rfl
  · rfl
  · rfl
  · rfl
  · -- a wait rejected before it starts
    rename_i r hr
    refine if_neg fun e => ?_
    subst e
    unfold WaitArgs.mode at hr
    split at hr
    · unfold fxThreadWaitMode at hr
      split at hr
      · cases hr
      · split at hr <;> cases hr
    · unfold fxThreadTimedwaitMode at hr
      repeat' split at hr
      all_goals cases hr

theorem timedResult_ok {r : ThreadStatus} : timedResult r = .ok ↔ r = .ok := by
  unfold timedResult
  split
  · rename_i h
    rw [h]
    exact iff_of_false nofun nofun
  · exact Iff.rfl

/-! ## 2. Queues of objects -/

/-- A block in a queue of an object is the main block of a thread asleep on it. -/
theorem KernOk.main_of_mem {ph : T → Phase T E Q} (h : KernOk k ph) {q : Q} {b : Blk T}
    (hb : b ∈ k.wq (.obj q)) (he : ph b.1 ≠ .entering) :
    b.2 = .main ∧ ∃ ab, ph b.1 = .asleep (.obj q) ab := by
  obtain ⟨w, ab, hph⟩ := (h.queued hb).resolve_left he
  have hw : (k.wb b).waitable = some (.obj q) := (h.tied b).mem_iff.mp hb
  have hp := h b.1
  rw [hph] at hp
  obtain ⟨n, hn⟩ := hp
  obtain ⟨u, slot⟩ := b
  have hnone : n slot = none := hn.not_notified (by rw [hw]; exact Option.some_ne_none _)
  cases slot with
  | main =>
    have hm := hn.main
    rw [hnone] at hm
    rw [hm.1] at hw
    exact ⟨rfl, ab, by rw [hph, Option.some.inj hw]⟩
  | abort =>
    have hm := hn.abort
    rw [hnone] at hm
    rw [hm.1] at hw
    cases ab <;> cases hw

/-- The call of a thread whose block is queued. -/
theorem call_of_mem {ph : T → Phase T E Q} {pc : T → Pc T E C} (h : KernOk k ph) {q : Q}
    {b : Blk T} (hb : b ∈ k.wq (.obj q)) (hpc : ph b.1 = (pc b.1).phase W) :
    b.2 = .main ∧ ∃ ab c, pc b.1 = .inCall (.asleep ab) c ∧ W.waitable c = .obj q := by
  obtain ⟨hmain, ab, hph⟩ := h.main_of_mem hb (by rw [hpc]; exact phase_ne_entering _)
  rw [hpc] at hph
  refine ⟨hmain, ?_⟩
  cases hpc : pc b.1 with
  | inCall stage c =>
    rw [hpc] at hph
    cases stage with
    | asleep ab' => exact ⟨ab', c, rfl, (Phase.asleep.inj hph).1⟩
    | _ => cases hph
  | _ =>
    rw [hpc] at hph
    cases hph

/-- Notifying a block as satisfied grants the call of its thread, and no other. -/
theorem granted_notify {b : Blk T} (hb : b.2 = .main) {ab : Option (Ev T E)} :
    (Pc.inCall (.asleep ab) c).granted (fxSyncWaitNotify k .satisfied b) b.1 = some c := by
  have hwb : (fxSyncWaitNotify k .satisfied b).wb (b.1, .main) = ⟨none, .status .satisfied⟩ := by
    rw [fxSyncWaitNotify_wb, ← hb]
    exact Function.update_self ..
  unfold Pc.granted
  rw [hwb]
  rfl

theorem granted_notify_ne {b : Blk T} (hu : u ≠ b.1) (r : WaitStatus) (p : Pc T E C) :
    p.granted (fxSyncWaitNotify k r b) u = p.granted k u :=
  granted_congr (Function.update_of_ne (fun e => hu (congrArg Prod.fst e)) ..)

/-- What is queued has not been granted yet. -/
theorem granted_of_mem {ph : T → Phase T E Q} (h : KernOk k ph) {q : Q} {b : Blk T}
    (hb : b ∈ k.wq (.obj q)) (he : ph b.1 ≠ .entering) {ab : Option (Ev T E)} :
    (Pc.inCall (.asleep ab) c).granted k b.1 = none := by
  obtain ⟨hmain, ab', hph⟩ := h.main_of_mem hb he
  have hp := h b.1
  rw [hph] at hp
  obtain ⟨n, hn⟩ := hp
  have hw : (k.wb (b.1, .main)).waitable = some (.obj q) := by
    rw [← hmain]
    exact (h.tied b).mem_iff.mp hb
  have hnone : n .main = none := hn.not_notified (by rw [hw]; exact Option.some_ne_none _)
  have hm := hn.main
  rw [hnone] at hm
  obtain ⟨_, a, ha⟩ := hm
  refine if_neg ?_
  rw [ha]
  exact nofun

/-- Notifying a block as deleted grants nothing. -/
theorem granted_notify_deleted {pc : T → Pc T E C} (h : KernOk k fun u => (pc u).phase W) {q : Q}
    {b : Blk T} (hb : b ∈ k.wq (.obj q)) (u : T) :
    (pc u).granted (fxSyncWaitNotify k .deleted b) u = (pc u).granted k u := by
  by_cases hu : u = b.1
  · subst hu
    obtain ⟨hmain, ab, c, hpc, _⟩ := call_of_mem h hb rfl
    rw [hpc, granted_of_mem h hb (phase_ne_entering _)]
    have hwb : (fxSyncWaitNotify k .deleted b).wb (b.1, .main) = ⟨none, .status .deleted⟩ := by
      rw [fxSyncWaitNotify_wb, ← hmain]
      exact Function.update_self ..
    refine if_neg ?_
    rw [hwb]
    exact nofun
  · exact granted_notify_ne hu _ _

theorem granted_notifyAll_deleted {pc : T → Pc T E C} (h : KernOk k fun u => (pc u).phase W)
    (q : Q) (u : T) :
    (pc u).granted (fxSyncWaitNotifyAll k (.obj q) .deleted) u = (pc u).granted k u := by
  have hloop : ∀ (n : Nat) (k : Kern T E Q A), (KernOk k fun u => (pc u).phase W) →
      (pc u).granted (fxSyncWaitNotifyLoop (.obj q) .deleted n k) u = (pc u).granted k u := by
    intro n
    induction n with
    | zero => exact fun _ _ => rfl
    | succ n ih =>
      intro k hk
      unfold fxSyncWaitNotifyLoop
      cases hq : k.wq (.obj q) with
      | nil => rfl
      | cons b rest =>
        have hb : b ∈ k.wq (.obj q) := hq ▸ List.mem_cons_self
        have hk' := hk.notify hb (phase_ne_entering _) (Or.inr rfl)
        exact (ih _ hk').trans (granted_notify_deleted hk hb u)
  exact hloop _ k h

/-! ## 3. The steps -/

/-- The main block was notified as satisfied. -/
theorem Asleep.main_satisfied {ab : Option (Ev T E)} {w : Wtbl T E Q}
    {n : Slot → Option WaitStatus} (hn : Asleep k t w ab n) :
    n .main = some .satisfied ↔ (k.wb (t, .main)).u.getStatus = .satisfied := by
  have hm := hn.main
  cases hnm : n .main with
  | none =>
    rw [hnm] at hm
    obtain ⟨_, a, ha⟩ := hm
    rw [ha]
    exact iff_of_false nofun nofun
  | some r =>
    rw [hnm] at hm
    rw [hm.1]
    exact ⟨fun e => Option.some.inj e, fun e => congrArg some e⟩

/-- A thread that wakes up returns OK exactly if it was granted. -/
theorem leave_ok_iff {ab : Option (Ev T E)} {w : Wtbl T E Q} (h : PhaseOk k t (.asleep w ab)) :
    (fxThreadWaitObjectLeave k t).1 = .ok ↔ (k.wb (t, .main)).u.getStatus = .satisfied := by
  obtain ⟨n, hn⟩ := h
  obtain ⟨_, _, _, _, hr⟩ := leave_spec hn
  rw [hr, ← hn.main_satisfied]
  constructor
  · intro h
    by_contra hne
    rw [if_neg hne] at h
    split at h
    · cases h
    · split at h <;> cases h
  · exact fun h => if_pos h

/-- A thread asleep on an object is not queued at an event with its main block. -/
theorem asleep_notEv {ab : Option (Ev T E)} (hobj : ∀ c, IsObj (W.waitable c))
    (h : WellFormed W s) (hpc : s.pc u = .inCall (.asleep ab) c) :
    ∀ w, (s.kern.wb (u, .main)).waitable = some w → ¬ IsEv w := by
  intro w hw
  have hp := h.phases u
  rw [Sys.phases, hpc] at hp
  obtain ⟨n, hn⟩ := hp
  have hm := hn.main
  have hnone : n .main = none := hn.not_notified (by rw [hw]; exact Option.some_ne_none _)
  rw [hnone] at hm
  rw [hm.1] at hw
  have ho := hobj c
  rw [Option.some.inj hw] at ho
  cases w with
  | obj q => exact not_false
  | ev e => exact ho.elim

/-- **A step that runs no code of the object** grants nothing and takes nothing back. -/
theorem Quiet.granted {a : Act T E C P} (hobj : ∀ c, IsObj (W.waitable c)) (h : WellFormed W s)
    (hq : Quiet cfg W a s s' t) (u : T) (hu : s'.pc u ≠ .gone) : s'.granted u = s.granted u := by
  -- a thread that did not move is granted what it was
  have hsame : s'.pc u = s.pc u → ((∀ w, (s.kern.wb (u, .main)).waitable = some w → ¬ IsEv w) →
      s'.kern.wb (u, .main) = s.kern.wb (u, .main)) → s'.granted u = s.granted u := by
    intro hpc hwb
    unfold Sys.granted
    rw [hpc]
    cases hp : s.pc u with
    | inCall stage c =>
      cases stage with
      | asleep ab => exact granted_congr (hwb (asleep_notEv hobj h hp))
      | _ => rfl
    | _ => rfl
  by_cases hut : u = t
  · subst hut
    unfold Sys.granted at hsame ⊢
    cases hq.move with
    | stay h hwb => exact hsame h hwb
    | init h h' _ => rw [h, h']; rfl
    | call _ h hs h' => rw [h, h', firstStage_granted]; rfl
    | reset h h' => rw [h, h']; rfl
    | arm h h' => rw [h, h']; rfl
    | leave h' hr h'' =>
      have hp := h.phases u
      rw [Sys.phases, h'] at hp
      rw [h', h'', afterWait_granted]
      unfold Pc.granted
      simp only [leave_ok_iff hp]
    | disarm h h' =>
      rw [h, h']
      unfold Pc.granted
      simp only [timedResult_ok]
    | gone _ h' => exact absurd h' hu
  · exact hsame (hq.pc u hut) (hq.wb u hut)

theorem Quiet.gone {a : Act T E C P} (hq : Quiet cfg W a s s' t) (hu : s.pc u = .gone) :
    s'.pc u = .gone := by
  by_cases hut : u = t
  · subst hut
    cases hq.move with
    | stay h _ => rw [h, hu]
    | init h _ _ => rw [hu] at h; cases h
    | call _ h _ _ => rw [hu] at h; cases h
    | reset h _ => rw [hu] at h; cases h
    | arm h _ => rw [hu] at h; cases h
    | leave h _ _ => rw [hu] at h; cases h
    | disarm h _ => rw [hu] at h; cases h
    | gone _ h => exact h
  · rw [hq.pc u hut, hu]

/-- Entering a wait grants the call exactly if the test succeeds. -/
theorem Entered.granted {ab : Option (Ev T E)} {p : Bool × Kern T E Q A × O}
    {r : Option ThreadStatus} {attr : Option A} {w : Wtbl T E Q} (h : Entered t ab p r k')
    (hq : p.1 = false → Queued p.2.1 t w attr) :
    (Pc.inCall (r.elim (.asleep ab) (afterWait ab)) c).granted k' t =
      if p.1 then some c else none := by
  have hasleep : p.1 = false → k'.wb (t, .main) = p.2.1.wb (t, .main) →
      (Pc.inCall (.asleep ab) c).granted k' t = none := by
    intro hp hwb
    refine if_neg ?_
    rw [hwb, (hq hp).main]
    exact nofun
  cases h with
  | passed hp => rw [hp]; exact afterWait_granted ab .ok
  | cancelled hp e hab he => rw [hp]; exact afterWait_granted ab .waitCancelled
  | alone hp hab => rw [hp]; exact hasleep hp rfl
  | both hp e hab he =>
    rw [hp]
    exact hasleep hp (Function.update_of_ne (main_ne_abort t t) ..)

theorem Entered.granted_other {ab : Option (Ev T E)} {p : Bool × Kern T E Q A × O}
    {r : Option ThreadStatus} (h : Entered t ab p r k') (hu : u ≠ t) (pc : Pc T E C) :
    pc.granted k' u = pc.granted p.2.1 u := granted_congr ((h.view hu).wb .main)

/-- A call that has been granted is not taken back by whatever an object does. -/
theorem Moves.granted {ws : Wtbl T E Q → Prop} {ex : T → Prop} {ph : T → Phase T E Q}
    {p : Pc T E C} (hm : Moves ws ex k k') (h : KernOk k ph) (he : ∀ t, ph t = .entering → ex t)
    (hp : ph u = p.phase W) (hg : p.granted k u = some c) : p.granted k' u = some c := by
  cases p with
  | inCall stage d =>
    cases stage with
    | asleep ab =>
      have hwb : k'.wb (u, .main) = k.wb (u, .main) := by
        refine Moves.wb h hm he fun w hw => ?_
        have hu := h u
        rw [hp] at hu
        obtain ⟨n, hn⟩ := hu
        have hmain := hn.main
        have hnone : n .main = none := hn.not_notified (by rw [hw]; exact Option.some_ne_none _)
        rw [hnone] at hmain
        obtain ⟨_, a, ha⟩ := hmain
        unfold Pc.granted at hg
        rw [ha] at hg
        cases hg
      rw [granted_congr hwb]
      exact hg
    | _ => exact hg
  | _ => exact hg

/-- **A call stays granted until it returns OK**, whatever is done in between by the threads,
    the timers and the cancel events. -/
theorem granted_stays {a : Act T E C P} (hobj : ∀ c, IsObj (W.waitable c)) (hW : W.Lawful)
    (h : WellFormed W s) (hs : step cfg W a s = some s') (hg : s.granted u = some c) :
    s'.pc u = .gone ∨ s'.granted u = some c ∨ a = .go u ∧ s.pc u = .inCall (.ret .ok) c := by
  have hne : ∀ {t}, (s.pc t).granted s.kern t = none → u ≠ t := by
    rintro t ht rfl
    rw [show s.granted u = none from ht] at hg
    cases hg
  have hpcne : ∀ {t} {p : Pc T E C}, u ≠ t → update s.pc t p u = s.pc u :=
    fun hu => Function.update_of_ne hu ..
  cases (step_case hW h hs).1 with
  | quiet t hq =>
    by_cases hgone : s'.pc u = .gone
    · exact Or.inl hgone
    · refine Or.inr (Or.inl ?_)
      rw [hq.granted hobj h u hgone]
      exact hg
  | enter t d ab r k ha hpc hr he hs =>
    have hu : u ≠ t := hne (by rw [hpc]; rfl)
    have hph : s.phases W t = .awake := by rw [Sys.phases, hpc]; rfl
    obtain ⟨k1, hk1, hv, hm⟩ := hW.testMoves h.phases hph hr d s.obj
    refine Or.inr (Or.inl ?_)
    rw [hs]
    show (update s.pc t _ u).granted k u = some c
    rw [hpcne hu, he.granted_other hu]
    refine hm.granted hk1 (entering_eq (phases_ne s)) (Function.update_of_ne hu ..) ?_
    rw [granted_congr ((hv u hu).wb .main)]
    exact hg
  | poll t d p ha hpc hr hp hs =>
    have hu : u ≠ t := hne (by rw [hpc]; rfl)
    have hph : s.phases W t = .awake := by rw [Sys.phases, hpc]; rfl
    obtain ⟨hk1, _, _⟩ := blockInit_kernOk h.phases hph (W.attr d)
    refine Or.inr (Or.inl ?_)
    rw [hs]
    show (update s.pc t _ u).granted _ u = some c
    rw [hpcne hu]
    refine (hW.poll h hph hp).granted hk1 (fun v hv => absurd hv (phases_ne s v)) rfl ?_
    rw [granted_congr (Function.update_of_ne (fun e => hu (congrArg Prod.fst e)) ..)]
    exact hg
  | after t d r ha hpc hr hs =>
    by_cases hu : u = t
    · subst hu
      refine Or.inr (Or.inr ⟨ha, ?_⟩)
      unfold Sys.granted at hg
      rw [hpc] at hg ⊢
      unfold Pc.granted at hg
      obtain ⟨rfl, hd⟩ := Option.ite_none_right_eq_some.mp hg
      rw [Option.some.inj hd]
    · refine Or.inr (Or.inl ?_)
      rw [hs]
      show (update s.pc t _ u).granted _ u = some c
      rw [hpcne hu]
      exact (hW.after t d r _).granted h.phases (fun v hv => absurd hv (phases_ne s v)) rfl hg
  | op p ko ha hc ho hs =>
    refine Or.inr (Or.inl ?_)
    rw [hs]
    exact (hW.op p _ ko _ h.phases ho).granted h.phases (fun v hv => absurd hv (phases_ne s v))
      rfl hg

theorem gone_stays {a : Act T E C P} (hW : W.Lawful) (h : WellFormed W s)
    (hs : step cfg W a s = some s') (hg : s.pc u = .gone) : s'.pc u = .gone := by
  have hother : ∀ {t stage d} {p : Pc T E C}, s.pc t = .inCall stage d →
      update s.pc t p u = .gone := by
    intro t stage d p hpc
    have hu : u ≠ t := by
      rintro rfl
      rw [hg] at hpc
      cases hpc
    rw [Function.update_of_ne hu]
    exact hg
  cases (step_case hW h hs).1 with
  | quiet t hq => exact hq.gone hg
  | enter t d ab r k ha hpc hr he hs => rw [hs]; exact hother hpc
  | poll t d p ha hpc hr hp hs => rw [hs]; exact hother hpc
  | after t d r ha hpc hr hs => rw [hs]; exact hother hpc
  | op p ko ha hc ho hs => rw [hs]; exact hg

/-- **However a run goes on**, a call that has been granted is still granted, or it returned OK
    on the way, unless its thread was terminated. -/
theorem granted_returns {G : Sys T E Q A O C → Act T E C P → Prop}
    (hobj : ∀ c, IsObj (W.waitable c)) (hW : W.Lawful) (h : WellFormed W s)
    (hg : s.granted u = some c) (hr : Reach (step cfg W) G s s') :
    s'.pc u = .gone ∨ s'.granted u = some c ∨
      ∃ s1 s2, Reach (step cfg W) G s s1 ∧ s1.pc u = .inCall (.ret .ok) c ∧
        step cfg W (.go u) s1 = some s2 ∧ Reach (step cfg W) G s2 s' := by
  have hwell : ∀ {s'}, Reach (step cfg W) G s s' → WellFormed W s' := fun hr =>
    hr.inv h fun _ _ _ hj _ hs => (step_case hW hj hs).2
  induction hr with
  | start => exact Or.inr (Or.inl hg)
  | next a hr hguard hs ih =>
    rcases ih with ih | ih | ⟨s1, s2, h1, hpc, h2, h3⟩
    · exact Or.inl (gone_stays hW (hwell hr) hs ih)
    · rcases granted_stays hobj hW (hwell hr) hs ih with h1 | h1 | ⟨rfl, hpc⟩
      · exact Or.inl h1
      · exact Or.inr (Or.inl h1)
      · exact Or.inr (Or.inr ⟨_, _, hr, hpc, hs, .start⟩)
    · exact Or.inr (Or.inr ⟨s1, s2, h1, hpc, h2, .next a h3 hguard hs⟩)

/-! ## 4. One call -/

/-- A call under way was under way before the step, or follows a wait of the same function, or
    was just made. -/
theorem StepCase.callBefore {a : Act T E C P} {stage : Stage T E} (h : StepCase cfg W a s s')
    (hpc : s'.pc u = .inCall stage c) :
    (∃ d, a = .call u d ∧ s.pc u = .idle ∧ W.start s.kern s.obj u d = some c) ∨
      (∃ stage0, s.pc u = .inCall stage0 c) ∨
      ∃ r d, s.pc u = .inCall (.ret r) d ∧ (W.after u d r (s.kern, s.obj)).1 = some c := by
  -- a thread that enters or leaves a wait stays in its call
  have hmove : ∀ {t stage0 stage1 d}, s.pc t = .inCall stage0 d →
      update s.pc t (.inCall stage1 d) u = .inCall stage c →
      ∃ stage0, s.pc u = .inCall stage0 c := by
    intro t stage0 stage1 d ht hu
    by_cases hut : u = t
    · subst hut
      rw [Function.update_self] at hu
      cases hu
      exact ⟨_, ht⟩
    · rw [Function.update_of_ne hut] at hu
      exact ⟨_, hu⟩
  cases h with
  | quiet t hq =>
    by_cases hut : u = t
    · subst hut
      cases hq.move with
      | stay h _ => exact Or.inr (Or.inl ⟨stage, h ▸ hpc⟩)
      | init h h' _ => rw [h'] at hpc; cases hpc
      | call ha h hs h' => rw [h'] at hpc; cases hpc; exact Or.inl ⟨_, ha, h, hs⟩
      | reset h h' => rw [h'] at hpc; cases hpc; exact Or.inr (Or.inl ⟨_, h⟩)
      | arm h h' => rw [h'] at hpc; cases hpc; exact Or.inr (Or.inl ⟨_, h⟩)
      | leave h _ h' => rw [h'] at hpc; cases hpc; exact Or.inr (Or.inl ⟨_, h⟩)
      | disarm h h' => rw [h'] at hpc; cases hpc; exact Or.inr (Or.inl ⟨_, h⟩)
      | gone _ h' => rw [h'] at hpc; cases hpc
    · exact Or.inr (Or.inl ⟨stage, (hq.pc u hut) ▸ hpc⟩)
  | enter t d ab r k ha ht hr he hs =>
    rw [hs] at hpc
    exact Or.inr (Or.inl (hmove ht hpc))
  | poll t d p ha ht hr hp hs =>
    rw [hs] at hpc
    exact Or.inr (Or.inl (hmove ht hpc))
  | after t d r ha ht hr hs =>
    rw [hs] at hpc
    change update s.pc t _ u = _ at hpc
    by_cases hut : u = t
    · subst hut
      rw [Function.update_self] at hpc
      split at hpc
      · rename_i d' hd'
        cases hpc
        exact Or.inr (Or.inr ⟨r, d, ht, hd'⟩)
      · cases hpc
    · rw [Function.update_of_ne hut] at hpc
      exact Or.inr (Or.inl ⟨stage, hpc⟩)
  | op p ko ha hc ho hs =>
    rw [hs] at hpc
    exact Or.inr (Or.inl ⟨stage, hpc⟩)

/-- A call under way goes on, unless its thread returns from it or is terminated. -/
theorem StepCase.callAfter {a : Act T E C P} {stage : Stage T E} (h : StepCase cfg W a s s')
    (hpc : s.pc u = .inCall stage c) :
    s'.pc u = .gone ∨ (∃ stage', s'.pc u = .inCall stage' c) ∨ ∃ r, stage = .ret r ∧ a = .go u := by
  have hmove : ∀ {t stage0 stage1 d}, s.pc t = .inCall stage0 d →
      ∃ stage', update s.pc t (.inCall stage1 d) u = .inCall stage' c := by
    intro t stage0 stage1 d ht
    by_cases hut : u = t
    · subst hut
      rw [Function.update_self]
      rw [hpc] at ht
      cases ht
      exact ⟨_, rfl⟩
    · rw [Function.update_of_ne hut]
      exact ⟨_, hpc⟩
  cases h with
  | quiet t hq =>
    by_cases hut : u = t
    · subst hut
      cases hq.move with
      | stay h _ => exact Or.inr (Or.inl ⟨_, h.trans hpc⟩)
      | init h _ _ => rw [hpc] at h; cases h
      | call _ h _ _ => rw [hpc] at h; cases h
      | reset h h' => rw [hpc] at h; cases h; exact Or.inr (Or.inl ⟨_, h'⟩)
      | arm h h' => rw [hpc] at h; cases h; exact Or.inr (Or.inl ⟨_, h'⟩)
      | leave h _ h' => rw [hpc] at h; cases h; exact Or.inr (Or.inl ⟨_, h'⟩)
      | disarm h h' => rw [hpc] at h; cases h; exact Or.inr (Or.inl ⟨_, h'⟩)
      | gone _ h' => exact Or.inl h'
    · exact Or.inr (Or.inl ⟨_, (hq.pc u hut).trans hpc⟩)
  | enter t d ab r k ha ht hr he hs => rw [hs]; exact Or.inr (Or.inl (hmove ht))
  | poll t d p ha ht hr hp hs => rw [hs]; exact Or.inr (Or.inl (hmove ht))
  | after t d r ha ht hr hs =>
    by_cases hut : u = t
    · subst hut
      rw [hpc] at ht
      cases ht
      exact Or.inr (Or.inr ⟨r, rfl, ha⟩)
    · rw [hs]
      exact Or.inr (Or.inl ⟨_, (Function.update_of_ne hut ..).trans hpc⟩)
  | op p ko ha hc ho hs => rw [hs]; exact Or.inr (Or.inl ⟨_, hpc⟩)

/-- The stages in which the test of the object is run. -/
def Stage.tests : Stage T E → Prop
  | .enter _ => True
  | .poll => True
  | _ => False

def Pc.isInCall : Pc T E C → Bool
  | .inCall _ _ => true
  | _ => false

/-- The thread has not returned from the call it is in. -/
def Sys.Calling (s : Sys T E Q A O C) (t : T) : Prop := (s.pc t).isInCall = true

instance (s : Sys T E Q A O C) (t : T) : Decidable (s.Calling t) :=
  inferInstanceAs (Decidable (_ = true))

theorem calling_iff : s.Calling u ↔ ∃ stage c, s.pc u = .inCall stage c := by
  unfold Sys.Calling
  cases s.pc u with
  | inCall stage c => exact iff_of_true rfl ⟨stage, c, rfl⟩
  | _ =>
    refine iff_of_false Bool.false_ne_true ?_
    rintro ⟨_, _, h⟩
    cases h

theorem not_gone {stage : Stage T E} (hpc : s.pc u = .inCall stage c) : s.pc u ≠ .gone := by
  intro hgone
  rw [hpc] at hgone
  cases hgone

theorem calling_of_go (hs : step cfg W (.go u) s = some s') : s.Calling u := by
  rw [calling_iff]
  simp only [step] at hs
  split at hs
  · exact ⟨_, _, ‹_›⟩
  · cases hs

theorem step_call_idle (hs : step cfg W (.call u c) s = some s') : s.pc u = .idle :=
  (taken hs).1.pc

/-- A call made: its checks return an error, or it starts. -/
theorem step_call (hs : step cfg W (.call u c) s = some s') :
    W.start s.kern s.obj u c = none ∧ s' = s ∨ ∃ c', W.start s.kern s.obj u c = some c' ∧
      s' = { s with pc := update s.pc u (.inCall (firstStage cfg W s.kern c') c') } := by
  obtain ⟨_, hs⟩ := taken hs
  subst hs
  cases W.start s.kern s.obj u c with
  | none => exact Or.inl ⟨rfl, rfl⟩
  | some c' => exact Or.inr ⟨c', rfl, rfl⟩

/-- The critical section in which a call returns. -/
theorem step_ret {r : ThreadStatus} (hpc : s.pc u = .inCall (.ret r) c)
    (hs : step cfg W (.go u) s = some s') : s' = advance cfg W u c s (.ret r) := by
  simp only [step, hpc] at hs
  exact (taken hs).2.symm

/-- A call that is followed by another one. -/
theorem advance_next {r : ThreadStatus} {c' : C} {k : Kern T E Q A} {o : O}
    (h : W.after u c r (s.kern, s.obj) = (some c', k, o)) :
    advance cfg W u c s (.ret r) =
      ⟨k, o, update s.pc u (.inCall (firstStage cfg W k c') c'), s.base⟩ := by
  simp only [advance]
  rw [h]

/-! ## 5. Who leaves a queue -/

theorem KernOk.nodup {ph : T → Phase T E Q} (h : KernOk k ph) (w : Wtbl T E Q) :
    (k.wq w).Nodup := by
  refine List.nodup_iff_count_le_one.mpr fun b => ?_
  rw [h.tied b w]
  split
  · exact Nat.le_refl 1
  · exact Nat.zero_le 1

/-- Each thread is queued once. -/
theorem queued_nodup {pc : T → Pc T E C} (h : KernOk k fun u => (pc u).phase W) (q : Q) :
    ((k.wq (.obj q)).map Prod.fst).Nodup := by
  refine (h.nodup (.obj q)).map_on fun b hb c hc hbc => ?_
  exact Prod.ext hbc ((call_of_mem h hb rfl).1.trans (call_of_mem h hc rfl).1.symm)

/-- A thread in a call moves only in its own critical sections, and when it is terminated. -/
theorem mover_of_calling {a : Act T E C P} (hs : step cfg W a s = some s') (hc : s.Calling u)
    (hne : s'.pc u ≠ s.pc u) : a = .go u ∨ a = .terminate u := by
  obtain ⟨stage, c, hpc⟩ := calling_iff.mp hc
  have hother : ∀ {t} {p : Pc T E C}, s'.pc = update s.pc t p → u = t := by
    intro t p hup
    by_contra hut
    exact hne (by rw [hup, Function.update_of_ne hut])
  cases a with
  | init t prio susp =>
    obtain ⟨⟨ht, _⟩, rfl⟩ := taken hs
    have hut := hother rfl
    rw [← hut] at ht
    rw [not_created ht] at hpc
    cases hpc
  | call t d =>
    rcases step_call hs with ⟨_, rfl⟩ | ⟨_, _, rfl⟩
    · exact absurd rfl hne
    · have hidle := step_call_idle hs
      rw [← hother rfl, hpc] at hidle
      cases hidle
  | go t =>
    obtain ⟨stage', d, ht⟩ := calling_iff.mp (calling_of_go hs)
    simp only [step, ht] at hs
    obtain ⟨_, rfl⟩ := taken hs
    refine Or.inl (congrArg Act.go ?_)
    by_contra hut
    refine hne ?_
    have hup : ∃ p, (advance cfg W t d s stage').pc = update s.pc t p := by
      cases stage' <;> simp only [advance]
      case enter | poll | ret => split <;> exact ⟨_, rfl⟩
      all_goals exact ⟨_, rfl⟩
    obtain ⟨p, hp⟩ := hup
    rw [hp, Function.update_of_ne (fun e => hut e.symm)]
  | terminate t =>
    obtain ⟨_, rfl⟩ := taken hs
    exact Or.inr (congrArg Act.terminate (hother rfl).symm)
  | exit t =>
    obtain ⟨hf, rfl⟩ := taken hs
    have hidle := hf.pc
    rw [← hother rfl, hpc] at hidle
    cases hidle
  | op p =>
    obtain ⟨_, hs⟩ := Option.ite_none_right_eq_some.mp hs
    obtain ⟨ko, _, rfl⟩ := Option.map_eq_some_iff.mp hs
    exact absurd rfl hne
  | evSet e => cases hs; exact absurd rfl hne
  | evReset e => cases hs; exact absurd rfl hne
  | evDeinit e => cases hs; exact absurd rfl hne
  | dispatch => cases hs; exact absurd rfl hne
  | _ =>
    obtain ⟨_, rfl⟩ := taken hs
    exact absurd rfl hne

/-- A block stays queued while no code of the object runs and its thread does not move. -/
theorem Quiet.queued {a : Act T E C P} (hq : Quiet cfg W a s s' t) (h : WellFormed W s)
    (h' : WellFormed W s') {q : Q} {b : Blk T} (hb : b ∈ s.kern.wq (.obj q))
    (hpc : s'.pc b.1 = s.pc b.1) : b ∈ s'.kern.wq (.obj q) := by
  obtain ⟨hmain, ab, c, hasl, _⟩ := call_of_mem h.phases hb rfl
  have hw : (s.kern.wb b).waitable = some (.obj q) := (h.phases.tied b).mem_iff.mp hb
  obtain ⟨u, slot⟩ := b
  change slot = .main at hmain
  subst hmain
  have hobj : ∀ w, (s.kern.wb (u, .main)).waitable = some w → ¬ IsEv w := by
    intro w hw'
    rw [hw] at hw'
    cases hw'
    exact not_false
  have hwb : s'.kern.wb (u, .main) = s.kern.wb (u, .main) := by
    by_cases hut : u = t
    · subst hut
      change s'.pc u = s.pc u at hpc
      change s.pc u = _ at hasl
      rw [hasl] at hpc
      cases hq.move with
      | stay _ hwb => exact hwb hobj
      | init h _ _ => rw [hasl] at h; cases h
      | call _ h _ _ => rw [hasl] at h; cases h
      | reset h _ => rw [hasl] at h; cases h
      | arm h _ => rw [hasl] at h; cases h
      | leave _ _ h =>
        rw [hpc] at h
        unfold afterWait at h
        split at h <;> cases h
      | disarm h _ => rw [hasl] at h; cases h
      | gone _ h => rw [hpc] at h; cases h
    · exact hq.wb u hut hobj
  exact (h'.phases.tied _).mem_iff.mpr (hwb ▸ hw)

/-- If none of the threads queued moves, the queue is the same. -/
theorem Quiet.queue {a : Act T E C P} (hq : Quiet cfg W a s s' t) (h : WellFormed W s)
    (h' : WellFormed W s') {q : Q}
    (hpc : ∀ b ∈ s.kern.wq (.obj q), s'.pc b.1 = s.pc b.1) :
    s'.kern.wq (.obj q) = s.kern.wq (.obj q) := by
  have hsub : s.kern.wq (.obj q) ⊆ s'.kern.wq (.obj q) :=
    fun b hb => hq.queued h h' hb (hpc b hb)
  exact (hq.frame.sub q).eq_of_length_le
    ((h.phases.nodup _).length_le_of_subset hsub)

end FxRtos
