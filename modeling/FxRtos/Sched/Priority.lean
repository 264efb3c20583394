/-
  File:      FxRtos/Sched/Priority.lean
  Subject:   THE ACTIVE ITEM HAS THE HIGHEST PRIORITY: every sequence of scheduler operations,
             from the idle item initialised, resumed and selected.

  * `SchedOp`, `schedStep` -- the operations in any order. `live` holds the items in use: those
    initialised and not removed since.
  * `TopPriority` -- the active item is in the container, and none in it goes before it.
  * `fxSchedItemSetParams` saves what a raised item had, and a later lowering to the saved value
    asks for no rescheduling. That is sound only if nothing in the container had gone before
    the active item when it was raised (`RaiseClear`): a raise made while a reschedule is
    pending hides the item that waits for it.
-/
import FxRtos.Sched.Sched
import FxRtos.Lib.Reach
import Mathlib.Data.Fintype.Basic

namespace FxRtos

open Function (update)
open Lib

/-! ## 1. Runs of the scheduler -/

inductive SchedOp (I : Type) where
  | init (x : I) (prio : Nat)
  | resume (x : I)
  | suspend
  | setParams (x : I) (src : Nat)
  | yield (x : I)
  | remove (x : I)
  | getNext
  deriving DecidableEq

/-- The scheduler with the items in use. -/
structure SchedRun (I : Type) where
  ctx : SchedContext I (MpqContainer I)
  live : I → Bool

variable {I : Type} [DecidableEq I]

/-- The idle item initialised, resumed and first selected. -/
def schedBoot (prioNum : Nat) (idle : I) : SchedRun I where
  ctx := (fxSchedGetNext
    (fxSchedItemResume (fxSchedItemInitIdle (fxSchedCtor idle) idle (prioNum - 1)) idle)).2
  live := update (fun _ => false) idle true

/-- One operation; `none` where it is not among those considered: only the active item is
    suspended, only an item in the container is removed, the idle item is left alone. -/
def schedStep (prioNum : Nat) (idle : I) : SchedOp I → SchedRun I → Option (SchedRun I)
  | .init x prio, s =>
    if x ≠ idle ∧ s.ctx.gDomain.link x = none ∧ prio < prioNum then
      some ⟨fxSchedItemInit s.ctx x prio, update s.live x true⟩
    else none
  | .resume x, s => if s.live x then some { s with ctx := fxSchedItemResume s.ctx x } else none
  | .suspend, s =>
    if s.live s.ctx.active ∧ s.ctx.active ≠ idle then
      some { s with ctx := fxSchedItemSuspend s.ctx s.ctx.active }
    else none
  | .setParams x src, s =>
    if s.live x ∧ x ≠ idle ∧ src < prioNum then
      some { s with ctx := fxSchedItemSetParams s.ctx x src }
    else none
  | .yield x, s => if s.live x then some { s with ctx := fxSchedYield s.ctx x } else none
  | .remove x, s =>
    if s.live x ∧ x ≠ idle ∧ (s.ctx.item x).suspendCount = 0 then
      some ⟨fxSchedItemRemove s.ctx x, update s.live x false⟩
    else none
  | .getNext, s => some { s with ctx := (fxSchedGetNext s.ctx).2 }

def InContainer (c : SchedContext I (MpqContainer I)) (x : I) : Prop :=
  (c.gDomain.link x).isSome

/-- The active item is in the container, and no item in it has a higher priority. -/
structure TopPriority (c : SchedContext I (MpqContainer I)) : Prop where
  inside : InContainer c c.active
  top : ∀ y, InContainer c y → (c.item c.active).prio ≤ (c.item y).prio

/-- No operation raises the active item while something in the container goes before it. -/
def RaiseClear (s : SchedRun I) : SchedOp I → Prop
  | .setParams x src =>
    x = s.ctx.active → (s.ctx.item x).suspendCount = 0 → src < (s.ctx.item x).prio →
      ∀ y, InContainer s.ctx y → (s.ctx.item x).prio ≤ (s.ctx.item y).prio
  | _ => True

instance {c : SchedContext I (MpqContainer I)} {x : I} : Decidable (InContainer c x) :=
  inferInstanceAs (Decidable (_ = true))

instance [Fintype I] (s : SchedRun I) : (a : SchedOp I) → Decidable (RaiseClear s a)
  | .setParams _ _ => inferInstanceAs (Decidable (_ → _ → _ → ∀ _, _ → _))
  | .init _ _ => .isTrue trivial
  | .resume _ => .isTrue trivial
  | .suspend => .isTrue trivial
  | .yield _ => .isTrue trivial
  | .remove _ => .isTrue trivial
  | .getNext => .isTrue trivial

/-! ## 2. The invariant -/

/-- What every reached state has. `saved` is what makes a skipped reschedule sound: as long as
    no change was counted since a raise, nothing but the active item goes before the priority
    saved there. -/
structure PrioInv (idle : I) (s : SchedRun I) : Prop where
  ok : SchedOk (fun x => s.live x = true) s.ctx
  idleIn : InContainer s.ctx idle
  time : s.ctx.timestamp ≤ s.ctx.changesCounter
  saved : s.ctx.timestamp = s.ctx.changesCounter →
    ∀ y, InContainer s.ctx y → y ≠ s.ctx.active → s.ctx.savedParams ≤ (s.ctx.item y).prio
  top : s.ctx.reschedPending = false → TopPriority s.ctx

section Invariante

variable {idle : I} {s : SchedRun I} {live' : I → Bool} {c' : SchedContext I (MpqContainer I)}

theorem inContainer_iff {live : I → Prop} {c : SchedContext I (MpqContainer I)}
    (h : SchedOk live c) {x : I} : InContainer c x ↔ live x ∧ (c.item x).suspendCount = 0 := by
  unfold InContainer
  rw [Option.isSome_iff_exists]
  constructor
  · rintro ⟨p, hp⟩
    obtain ⟨hl, h0, _⟩ := h.link_iff.mp hp
    exact ⟨hl, h0⟩
  · rintro ⟨hl, h0⟩
    exact ⟨_, h.linked_in hl h0⟩

/-- An operation that leaves alone what is in the container keeps the invariant. -/
theorem PrioInv.outside (h : PrioInv idle s) (ok : SchedOk (fun x => live' x = true) c')
    (hin : ∀ y, InContainer c' y ↔ InContainer s.ctx y)
    (hprio : ∀ y, InContainer s.ctx y → (c'.item y).prio = (s.ctx.item y).prio)
    (ha : c'.active = s.ctx.active) (hr : c'.reschedPending = s.ctx.reschedPending)
    (hc : c'.changesCounter = s.ctx.changesCounter) (ht : c'.timestamp = s.ctx.timestamp)
    (hs : c'.savedParams = s.ctx.savedParams) : PrioInv idle ⟨c', live'⟩ where
  ok := ok
  idleIn := (hin idle).mpr h.idleIn
  time := by simpa only [hc, ht] using h.time
  saved := by
    simp only [hc, ht, hs, ha]
    intro e y hy hne
    rw [hprio y ((hin y).mp hy)]
    exact h.saved e y ((hin y).mp hy) hne
  top := by
    simp only [hr]
    intro e
    obtain ⟨ht1, ht2⟩ := h.top e
    refine ⟨(hin _).mpr (ha ▸ ht1), fun y hy => ?_⟩
    rw [hprio y ((hin y).mp hy), ha, hprio _ ht1]
    exact ht2 y ((hin y).mp hy)

/-- An operation that counts a change leaves nothing saved to rely on. -/
theorem PrioInv.counted (h : PrioInv idle s) (ok : SchedOk (fun x => live' x = true) c')
    (hidle : InContainer c' idle) (hc : c'.changesCounter = s.ctx.changesCounter + 1)
    (ht : c'.timestamp = s.ctx.timestamp) (htop : c'.reschedPending = false → TopPriority c') :
    PrioInv idle ⟨c', live'⟩ where
  ok := ok
  idleIn := hidle
  time := by have := h.time; simp only [hc, ht]; omega
  saved := fun e => by
    have := h.time
    simp only [hc, ht] at e
    omega
  top := htop

/-- Changing an item outside the container, and keeping it there, changes nothing inside. -/
theorem inContainer_update {live : I → Prop} {c c' : SchedContext I (MpqContainer I)}
    (h : SchedOk live c) {live' : I → Prop} (h' : SchedOk live' c') {x : I} {i : SchedItem}
    (hx : ¬ InContainer c x) (hi : i.suspendCount ≠ 0) (hc : c'.item = update c.item x i)
    (hl : ∀ y, y ≠ x → (live' y ↔ live y)) (y : I) : InContainer c' y ↔ InContainer c y := by
  by_cases hyx : y = x
  · subst hyx
    refine iff_of_false (fun hy => hi ?_) hx
    simpa [hc] using ((inContainer_iff h').mp hy).2
  · rw [inContainer_iff h', inContainer_iff h, hc, Function.update_of_ne hyx, hl y hyx]

omit [DecidableEq I] in
theorem ne_of_inContainer {c : SchedContext I (MpqContainer I)} {x y : I}
    (hx : ¬ InContainer c x) (hy : InContainer c y) : y ≠ x := fun e => hx (e ▸ hy)

/-! ## 3. Each operation keeps it -/

theorem PrioInv.init (h : PrioInv idle s) {x : I} (hx : ¬ InContainer s.ctx x)
    {prio : Nat} (hp : prio < 1024) :
    PrioInv idle ⟨fxSchedItemInit s.ctx x prio, update s.live x true⟩ := by
  have ok : SchedOk (fun y => update s.live x true y = true) (fxSchedItemInit s.ctx x prio) := by
    refine h.ok.itemInit (by simpa [InContainer] using hx) hp fun y => ?_
    by_cases hy : y = x
    · simp [hy]
    · simp [hy]
  have hl : ∀ y, y ≠ x → (update s.live x true y = true ↔ s.live y = true) := fun y hy => by
    rw [Function.update_of_ne hy]
  refine h.outside ok (inContainer_update h.ok ok hx Nat.one_ne_zero rfl hl) (fun y hy => ?_)
    rfl rfl rfl rfl rfl
  show (update s.ctx.item x ⟨1, prio⟩ y).prio = _
  rw [Function.update_of_ne (ne_of_inContainer hx hy)]

omit [DecidableEq I] in
theorem inContainer_of_link {c : SchedContext I (MpqContainer I)} {x : I} {p : Nat}
    (h : c.gDomain.link x = some p) : InContainer c x := by
  simp [InContainer, h]

/-- What resuming the last suspension does, beside linking the item: it asks for rescheduling
    unless the active item goes strictly before the resumed one. -/
theorem fxSchedItemResume_enters {c : SchedContext I (MpqContainer I)} {x : I}
    (h1 : (c.item x).suspendCount = 1) :
    (fxSchedItemResume c x).changesCounter = c.changesCounter + 1 ∧
      (fxSchedItemResume c x).timestamp = c.timestamp ∧
      ((fxSchedItemResume c x).reschedPending = false →
        c.reschedPending = false ∧ (c.item c.active).prio < (c.item x).prio) := by
  have hprio : ∀ y, (update c.item x ⟨0, (c.item x).prio⟩ y).prio = (c.item y).prio := by
    intro y
    by_cases hy : y = x
    · simp [hy]
    · rw [Function.update_of_ne hy]
  unfold fxSchedItemResume
  simp only [h1, Nat.one_pos, if_true, Nat.sub_self]
  split
  · refine ⟨rfl, rfl, fun e => ?_⟩
    cases e
  · rename_i hlt
    refine ⟨rfl, rfl, fun e => ⟨e, ?_⟩⟩
    change ¬((update c.item x ⟨0, (c.item x).prio⟩ x).prio =
        (update c.item x ⟨0, (c.item x).prio⟩ c.active).prio ∨
      (update c.item x ⟨0, (c.item x).prio⟩ x).prio <
        (update c.item x ⟨0, (c.item x).prio⟩ c.active).prio) at hlt
    rw [hprio, hprio] at hlt
    omega

theorem PrioInv.resume (h : PrioInv idle s) {x : I} (hx : s.live x = true) :
    PrioInv idle { s with ctx := fxSchedItemResume s.ctx x } := by
  have ok := h.ok.itemResume hx
  rcases Nat.lt_trichotomy (s.ctx.item x).suspendCount 1 with h0 | h1 | h2
  · have e : fxSchedItemResume s.ctx x = s.ctx := if_neg (by omega)
    rw [e]
    exact h
  · -- the item enters the container: every other one stays where it is
    obtain ⟨hc, ht, hr⟩ := fxSchedItemResume_enters (x := x) h1
    have hitem := fxSchedItemResume_item s.ctx x
    rw [h1] at hitem
    have hprio : ∀ y, ((fxSchedItemResume s.ctx x).item y).prio = (s.ctx.item y).prio := by
      intro y
      rw [hitem]
      by_cases hy : y = x
      · simp [hy]
      · rw [Function.update_of_ne hy]
    have hin : ∀ y, InContainer (fxSchedItemResume s.ctx x) y ↔ InContainer s.ctx y ∨ y = x := by
      intro y
      rw [inContainer_iff ok, inContainer_iff h.ok, hitem]
      by_cases hy : y = x
      · simp [hy, hx]
      · simp [hy]
    refine h.counted ok ((hin idle).mpr (Or.inl h.idleIn)) hc ht fun e => ?_
    obtain ⟨hp, hlt⟩ := hr e
    obtain ⟨ha, htop⟩ := h.top hp
    refine ⟨(hin _).mpr (Or.inl (by rw [fxSchedItemResume_active]; exact ha)), fun y hy => ?_⟩
    rw [fxSchedItemResume_active, hprio, hprio]
    rcases (hin y).mp hy with hy | rfl
    · exact htop y hy
    · exact Nat.le_of_lt hlt
  · have hx : ¬ InContainer s.ctx x := fun hc => by
      have := ((inContainer_iff h.ok).mp hc).2
      omega
    have e : fxSchedItemResume s.ctx x =
        s.ctx.setItem x ⟨(s.ctx.item x).suspendCount - 1, (s.ctx.item x).prio⟩ := by
      unfold fxSchedItemResume
      rw [if_pos (by omega)]
      exact if_neg (by omega)
    refine h.outside ok (inContainer_update h.ok ok hx ?_ (fxSchedItemResume_item s.ctx x)
      fun _ _ => Iff.rfl) (fun y hy => ?_) (fxSchedItemResume_active s.ctx x) ?_ ?_ ?_ ?_
    · show (s.ctx.item x).suspendCount - 1 ≠ 0
      omega
    · rw [fxSchedItemResume_item, Function.update_of_ne (ne_of_inContainer hx hy)]
    all_goals rw [e]; rfl

theorem PrioInv.suspend (h : PrioInv idle s) {x : I} (hx : s.live x = true) (hi : x ≠ idle) :
    PrioInv idle { s with ctx := fxSchedItemSuspend s.ctx x } := by
  have ok := h.ok.itemSuspend hx
  have hitem := fxSchedItemSuspend_item s.ctx x
  cases h0 : (s.ctx.item x).suspendCount with
  | zero =>
    -- the item leaves, and rescheduling is asked for
    have e : fxSchedItemSuspend s.ctx x = fxSchedMarkReschedNeeded
        (((s.ctx.setItem x ⟨0 + 1, (s.ctx.item x).prio⟩).remove x).countChange) := by
      unfold fxSchedItemSuspend
      rw [if_pos h0, h0]
    have hidle : InContainer (fxSchedItemSuspend s.ctx x) idle := by
      rw [inContainer_iff ok, hitem, Function.update_of_ne (Ne.symm hi)]
      exact (inContainer_iff h.ok).mp h.idleIn
    refine h.counted ok hidle ?_ ?_ fun hp => ?_
    · rw [e]; rfl
    · rw [e]; rfl
    · rw [e] at hp
      cases hp
  | succ n =>
    have hxo : ¬ InContainer s.ctx x := fun hc => by
      have := ((inContainer_iff h.ok).mp hc).2
      omega
    have e : fxSchedItemSuspend s.ctx x =
        s.ctx.setItem x ⟨(s.ctx.item x).suspendCount + 1, (s.ctx.item x).prio⟩ := by
      unfold fxSchedItemSuspend
      exact if_neg (by omega)
    refine h.outside ok (inContainer_update h.ok ok hxo (Nat.succ_ne_zero _) hitem
      fun _ _ => Iff.rfl) (fun y hy => ?_) (fxSchedItemSuspend_active s.ctx x) ?_ ?_ ?_ ?_
    · rw [hitem, Function.update_of_ne (ne_of_inContainer hxo hy)]
    all_goals rw [e]; rfl

theorem PrioInv.yield (h : PrioInv idle s) {x : I} (hx : s.live x = true) :
    PrioInv idle { s with ctx := fxSchedYield s.ctx x } := by
  have ok := h.ok.yield hx
  by_cases h0 : (s.ctx.item x).suspendCount = 0
  · have e : fxSchedYield s.ctx x =
        fxSchedMarkReschedNeeded ((s.ctx.remove x).add x).countChange := if_pos h0
    have hidle : InContainer (fxSchedYield s.ctx x) idle := by
      rw [inContainer_iff ok, fxSchedYield_item]
      exact (inContainer_iff h.ok).mp h.idleIn
    refine h.counted ok hidle ?_ ?_ fun hp => ?_
    · rw [e]; rfl
    · rw [e]; rfl
    · rw [e] at hp
      cases hp
  · have e : fxSchedYield s.ctx x = s.ctx := if_neg h0
    rw [e]
    exact h

theorem PrioInv.remove (h : PrioInv idle s) {x : I} (hx : s.live x = true) (hi : x ≠ idle)
    (h0 : (s.ctx.item x).suspendCount = 0) :
    PrioInv idle ⟨fxSchedItemRemove s.ctx x, update s.live x false⟩ := by
  have ok : SchedOk (fun y => update s.live x false y = true) (fxSchedItemRemove s.ctx x) := by
    refine h.ok.itemRemove hx fun y => ?_
    by_cases hy : y = x
    · simp [hy]
    · simp [hy]
  have hin : ∀ y, InContainer (fxSchedItemRemove s.ctx x) y ↔ InContainer s.ctx y ∧ y ≠ x := by
    intro y
    rw [inContainer_iff ok, inContainer_iff h.ok, fxSchedItemRemove_item]
    by_cases hy : y = x
    · simp [hy]
    · simp [hy]
  have e : fxSchedItemRemove s.ctx x =
      if s.ctx.active = x then fxSchedMarkReschedNeeded ((s.ctx.remove x).countChange)
      else (s.ctx.remove x).countChange := if_pos h0
  by_cases ha : s.ctx.active = x
  · rw [if_pos ha] at e
    refine h.counted ok ((hin idle).mpr ⟨h.idleIn, Ne.symm hi⟩) ?_ ?_ fun hp => ?_
    · rw [e]; rfl
    · rw [e]; rfl
    · rw [e] at hp
      cases hp
  · rw [if_neg ha] at e
    refine h.counted ok ((hin idle).mpr ⟨h.idleIn, Ne.symm hi⟩) ?_ ?_ fun hp => ?_
    · rw [e]; rfl
    · rw [e]; rfl
    · obtain ⟨hact, htop⟩ := h.top (by rw [e] at hp; exact hp)
      refine ⟨(hin _).mpr ?_, fun y hy => ?_⟩
      · rw [fxSchedItemRemove_active]
        exact ⟨hact, ha⟩
      · rw [fxSchedItemRemove_active, fxSchedItemRemove_item]
        exact htop y ((hin y).mp hy).1

/-- The selected item goes before everything saved: whatever was active when the priority was
    saved is in the container too, or gone. -/
theorem PrioInv.getNext (h : PrioInv idle s) :
    PrioInv idle { s with ctx := (fxSchedGetNext s.ctx).2 } := by
  cases hp : s.ctx.reschedPending with
  | false =>
    have e : (fxSchedGetNext s.ctx).2 = s.ctx := by simp [fxSchedGetNext, hp]
    rw [e]
    exact h
  | true =>
    obtain ⟨hil, hi0⟩ := (inContainer_iff h.ok).mp h.idleIn
    obtain ⟨x, e, hx, hx0, hmin⟩ := h.ok.getNext_spec hp hil hi0
    have ok := h.ok.getNext
    rw [e] at ok ⊢
    have hxin : InContainer s.ctx x := (inContainer_iff h.ok).mpr ⟨hx, hx0⟩
    have htop : ∀ y, InContainer s.ctx y → (s.ctx.item x).prio ≤ (s.ctx.item y).prio := by
      intro y hy
      obtain ⟨hyl, hy0⟩ := (inContainer_iff h.ok).mp hy
      exact hmin y hyl hy0
    refine ⟨ok, h.idleIn, h.time, fun et y hy hne => ?_, fun _ => ⟨hxin, htop⟩⟩
    by_cases hya : y = s.ctx.active
    · -- the item that was active: the selected one goes before it, and is not it
      have hxa : x ≠ s.ctx.active := fun ex => hne (hya.trans ex.symm)
      exact Nat.le_trans (h.saved et x hxin hxa) (htop y hy)
    · exact h.saved et y hy hya

theorem PrioInv.setParams (h : PrioInv idle s) {x : I} (hx : s.live x = true) {src : Nat}
    (hp : src < 1024) (hg : RaiseClear s (.setParams x src)) :
    PrioInv idle { s with ctx := fxSchedItemSetParams s.ctx x src } := by
  have ok := h.ok.itemSetParams (Or.inl hx) hp
  have hitem := fxSchedItemSetParams_item s.ctx x src
  have hprio : ∀ y, y ≠ x → ((fxSchedItemSetParams s.ctx x src).item y).prio =
      (s.ctx.item y).prio := fun y hy => by rw [hitem, Function.update_of_ne hy]
  have hprioX : ((fxSchedItemSetParams s.ctx x src).item x).prio = src := by simp
  by_cases h0 : (s.ctx.item x).suspendCount = 0
  · have hxin : InContainer s.ctx x := (inContainer_iff h.ok).mpr ⟨hx, h0⟩
    have hin : ∀ y, InContainer (fxSchedItemSetParams s.ctx x src) y ↔ InContainer s.ctx y := by
      intro y
      rw [inContainer_iff ok, inContainer_iff h.ok, hitem]
      by_cases hy : y = x
      · simp [hy]
      · simp [hy]
    have hactive := fxSchedItemSetParams_active s.ctx x src
    have e : fxSchedItemSetParams s.ctx x src =
      (((s.ctx.paramsChange x src).remove x).setItem x ⟨0, src⟩).add x := if_pos h0
    by_cases h1 : s.ctx.active = x ∧ src < (s.ctx.item x).prio
    · -- the active item is raised: what it had is saved
      have ep : s.ctx.paramsChange x src = { s.ctx with
          timestamp := s.ctx.changesCounter, savedParams := (s.ctx.item x).prio } := if_pos h1
      rw [ep] at e
      have hclear := hg h1.1.symm h0 h1.2
      refine ⟨ok, (hin idle).mpr h.idleIn, ?_, fun _ y hy hne => ?_, fun hr => ?_⟩
      · rw [e]
        exact Nat.le_refl _
      · rw [hactive, h1.1] at hne
        rw [hprio y hne, e]
        exact hclear y ((hin y).mp hy)
      · refine ⟨(hin _).mpr (by rw [hactive, h1.1]; exact hxin), fun y hy => ?_⟩
        rw [hactive, h1.1, hprioX]
        by_cases hy' : y = x
        · rw [hy', hprioX]
        · rw [hprio y hy']
          exact Nat.le_trans (Nat.le_of_lt h1.2) (hclear y ((hin y).mp hy))
    · by_cases h2 : s.ctx.active ≠ x ∨ s.ctx.changesCounter ≠ s.ctx.timestamp ∨
          s.ctx.savedParams ≠ src
      · have ep : s.ctx.paramsChange x src = fxSchedMarkReschedNeeded s.ctx.countChange :=
          (if_neg h1).trans (if_pos h2)
        rw [ep] at e
        refine h.counted ok ((hin idle).mpr h.idleIn) ?_ ?_ fun hr => ?_
        · rw [e]; rfl
        · rw [e]; rfl
        · rw [e] at hr
          cases hr
      · -- the active item is lowered to what was saved: nothing else goes before that
        have ep : s.ctx.paramsChange x src = s.ctx := (if_neg h1).trans (if_neg h2)
        rw [ep] at e
        obtain ⟨ha, hct, hs⟩ : s.ctx.active = x ∧ s.ctx.changesCounter = s.ctx.timestamp ∧
            s.ctx.savedParams = src := by
          refine ⟨?_, ?_, ?_⟩
          · exact Classical.byContradiction fun hn => h2 (Or.inl hn)
          · exact Classical.byContradiction fun hn => h2 (Or.inr (Or.inl hn))
          · exact Classical.byContradiction fun hn => h2 (Or.inr (Or.inr hn))
        have hothers : ∀ y, InContainer s.ctx y → y ≠ x → src ≤ (s.ctx.item y).prio :=
          fun y hy hne => hs ▸ h.saved hct.symm y hy (ha ▸ hne)
        refine ⟨ok, (hin idle).mpr h.idleIn, ?_, fun _ y hy hne => ?_, fun hr => ?_⟩
        · rw [e]
          exact h.time
        · rw [hactive, ha] at hne
          rw [hprio y hne, e]
          show s.ctx.savedParams ≤ _
          rw [hs]
          exact hothers y ((hin y).mp hy) hne
        · refine ⟨(hin _).mpr (by rw [hactive, ha]; exact hxin), fun y hy => ?_⟩
          rw [hactive, ha, hprioX]
          by_cases hy' : y = x
          · rw [hy', hprioX]
          · rw [hprio y hy']
            exact hothers y ((hin y).mp hy) hy'
  · have hxo : ¬ InContainer s.ctx x := fun hc => h0 ((inContainer_iff h.ok).mp hc).2
    have e : fxSchedItemSetParams s.ctx x src =
        s.ctx.setItem x ⟨(s.ctx.item x).suspendCount, src⟩ := if_neg h0
    refine h.outside ok (inContainer_update h.ok ok hxo (i := ⟨_, src⟩) h0 hitem fun _ _ => Iff.rfl)
      (fun y hy => hprio y (ne_of_inContainer hxo hy)) (fxSchedItemSetParams_active s.ctx x src)
      ?_ ?_ ?_ ?_
    all_goals rw [e]; rfl

/-! ## 4. Runs -/

theorem prioInv_boot {prioNum : Nat} (hN : prioNum ≤ 1024) (h1 : 0 < prioNum) :
    PrioInv idle (schedBoot prioNum idle) := by
  have h0 : SchedOk (fun _ => False) (fxSchedCtor idle) :=
    ⟨mpqInv_init, rfl, fun _ hx => hx.elim, fun _ _ => rfl, fun _ hx => hx.elim⟩
  let c1 := fxSchedItemInitIdle (fxSchedCtor idle) idle (prioNum - 1)
  have ok1 : SchedOk (fun y => update (fun _ => false) idle true y = true) c1 := by
    refine (h0.itemInit (x := idle) rfl (by omega) fun y => ?_).congr rfl rfl
    by_cases hy : y = idle
    · simp [hy]
    · simp [hy]
  have hc1 : c1.item idle = ⟨1, prioNum - 1⟩ := Function.update_self ..
  have ok2 := ok1.itemResume (x := idle) (Function.update_self ..)
  obtain ⟨hc, ht, hr⟩ := fxSchedItemResume_enters (c := c1) (x := idle) (by rw [hc1])
  have hidle : InContainer (fxSchedItemResume c1 idle) idle := by
    refine (inContainer_iff ok2).mpr ⟨Function.update_self .., ?_⟩
    simp [hc1]
  have h2 : PrioInv idle ⟨fxSchedItemResume c1 idle, update (fun _ => false) idle true⟩ := by
    refine ⟨ok2, hidle, ?_, fun e => ?_, fun e => ?_⟩
    · rw [hc, ht]
      exact Nat.zero_le _
    · rw [hc, ht] at e
      cases e
    · exact absurd (hr e).2 (Nat.lt_irrefl _)
  exact h2.getNext

/-- **What one step preserves.** -/
theorem schedStep_prioInv {prioNum : Nat} (hN : prioNum ≤ 1024) {s' : SchedRun I} {a : SchedOp I}
    (h : PrioInv idle s) (hg : RaiseClear s a) (hs : schedStep prioNum idle a s = some s') :
    PrioInv idle s' := by
  cases a with
  | init x prio =>
    obtain ⟨⟨hi, hx, hp⟩, rfl⟩ := taken hs
    exact h.init (by simp [InContainer, hx]) (by omega)
  | resume x =>
    obtain ⟨hx, rfl⟩ := taken hs
    exact h.resume hx
  | suspend =>
    obtain ⟨⟨hx, hi⟩, rfl⟩ := taken hs
    exact h.suspend hx hi
  | setParams x src =>
    obtain ⟨⟨hx, _, hp⟩, rfl⟩ := taken hs
    exact h.setParams hx (by omega) hg
  | yield x =>
    obtain ⟨hx, rfl⟩ := taken hs
    exact h.yield hx
  | remove x =>
    obtain ⟨⟨hx, hi, h0⟩, rfl⟩ := taken hs
    exact h.remove hx hi h0
  | getNext =>
    cases hs
    exact h.getNext

/-- **In every run that raises the active item only while nothing goes before it, whenever no
    reschedule is pending the active item is in the container and none in it goes before it.** -/
theorem topPriority_of_reach {prioNum : Nat} (hN : prioNum ≤ 1024) (h1 : 0 < prioNum) (idle : I)
    {s : SchedRun I} (h : Reach (schedStep prioNum idle) RaiseClear (schedBoot prioNum idle) s)
    (hp : s.ctx.reschedPending = false) : TopPriority s.ctx :=
  (h.inv (prioInv_boot hN h1) fun _ _ _ hi hg hs => schedStep_prioInv hN hi hg hs).top hp

end Invariante

/-- An item raised, lowered back and left alone in between keeps running. -/
theorem topPriority_of_reach_raised : ∃ s, Reach (schedStep 8 (2 : Fin 3)) RaiseClear
    (schedBoot 8 2) s ∧ s.ctx.active = 0 ∧ TopPriority s.ctx := by
  let as : List (SchedOp (Fin 3)) :=
    [.init 0 5, .resume 0, .getNext, .setParams 0 1, .setParams 0 5]
  have h : (runIf (fun s a => decide (RaiseClear s a)) (schedStep 8 2) as (schedBoot 8 2)).any
      (fun s => s.ctx.active = 0 ∧ s.ctx.reschedPending = false) = true := by decide +kernel
  obtain ⟨s, hr, hp⟩ := exists_of_runIf (G := RaiseClear) (fun _ _ => of_decide_eq_true) h
  obtain ⟨ha, hp⟩ := of_decide_eq_true hp
  exact ⟨s, hr, ha, topPriority_of_reach (by decide) (by decide) 2 hr hp⟩

/-- A raise made while a reschedule is pending: item 1 has become ready above the active item 0,
    which is raised above it, selected and lowered again. Nothing asks for rescheduling. -/
theorem topPriority_not_always : ∃ s, Reach (schedStep 8 (2 : Fin 3)) Always (schedBoot 8 2) s ∧
    s.ctx.reschedPending = false ∧ ¬ TopPriority s.ctx := by
  let as : List (SchedOp (Fin 3)) :=
    [.init 0 5, .resume 0, .getNext, .init 1 3, .resume 1, .setParams 0 1, .getNext,
      .setParams 0 5]
  have h : (run (schedStep 8 2) as (schedBoot 8 2)).any (fun s => s.ctx.reschedPending = false ∧
      InContainer s.ctx 1 ∧ (s.ctx.item 1).prio < (s.ctx.item s.ctx.active).prio) = true := by
    decide +kernel
  obtain ⟨s, hr, hp⟩ := exists_of_run h
  obtain ⟨hp, hin, hlt⟩ := of_decide_eq_true hp
  exact ⟨s, hr, hp, fun ht => Nat.not_lt.mpr (ht.top 1 hin) hlt⟩

end FxRtos
