/-
  File:      FxRtos/Sched/Boost.lean
  Subject:   A BOOST AND WHAT IT LEAVES BEHIND: the active item raised by
             `fx_sched_item_set_params` and lowered again with nothing in between.

  * `AtRest` -- what every run of the scheduler keeps, raises at any time included: the idle
    item is ready, and with no reschedule pending the active item is in the container.
  * `SameOrder` -- two states that no continuation tells apart by the items that
    `fx_sched_get_next` returns.
  * The lowering asks for no rescheduling, but it takes the item out of its queue and appends it
    again, behind the peers it stood before (`boosted_ctx`); and the two static variables keep
    what the raise saved there. A boost is invisible exactly if the item was the last of its
    queue and the variables already held these values (`boost_invisible_iff`).
-/
import FxRtos.Sched.Priority
import FxRtos.Lib.TwoRuns
import Mathlib.Data.List.Dedup

namespace FxRtos

open Function (update)
open Lib

variable {I : Type} [DecidableEq I]

/-! ## 1. Runs without a guard -/

/-- What every run keeps, whenever items are raised. -/
structure AtRest (prioNum : Nat) (idle : I) (s : SchedRun I) : Prop where
  ok : SchedOk (fun x => s.live x = true) s.ctx
  lt : ∀ x, s.live x = true → (s.ctx.item x).prio < prioNum
  idleLive : s.live idle = true
  idleItem : s.ctx.item idle = ⟨0, prioNum - 1⟩
  active : s.ctx.reschedPending = false →
    s.live s.ctx.active = true ∧ (s.ctx.item s.ctx.active).suspendCount = 0

section Anstehend

variable {C : Type} [SchedAlg I C] {c : SchedContext I C} {x : I}

theorem fxSchedItemRemove_unasked (h : (fxSchedItemRemove c x).reschedPending = false) :
    c.reschedPending = false ∧ ((c.item x).suspendCount = 0 → c.active ≠ x) := by
  unfold fxSchedItemRemove at h
  by_cases h0 : (c.item x).suspendCount = 0
  · rw [if_pos h0] at h
    by_cases ha : c.active = x
    · simp [ha, fxSchedMarkReschedNeeded] at h
    · simp only [if_neg ha] at h
      exact ⟨h, fun _ => ha⟩
  · rw [if_neg h0] at h
    exact ⟨h, fun e => absurd e h0⟩

theorem fxSchedItemSetParams_unasked {src : Nat}
    (h : (fxSchedItemSetParams c x src).reschedPending = false) : c.reschedPending = false := by
  unfold fxSchedItemSetParams at h
  split at h
  · change (c.paramsChange x src).reschedPending = false at h
    unfold SchedContext.paramsChange at h
    split at h
    · exact h
    · split at h
      · cases h
      · exact h
  · exact h

theorem fxSchedItemSuspend_unasked (h : (fxSchedItemSuspend c x).reschedPending = false) :
    c.reschedPending = false ∧ (c.item x).suspendCount ≠ 0 := by
  unfold fxSchedItemSuspend at h
  split at h
  · cases h
  · rename_i h0
    exact ⟨h, h0⟩

theorem fxSchedItemResume_unasked (h : (fxSchedItemResume c x).reschedPending = false) :
    c.reschedPending = false := by
  unfold fxSchedItemResume at h
  split at h
  · simp only at h
    split at h
    · split at h
      · cases h
      · exact h
    · exact h
  · exact h

omit [DecidableEq I] in
theorem fxSchedYield_unasked (h : (fxSchedYield c x).reschedPending = false) :
    c.reschedPending = false := by
  unfold fxSchedYield at h
  split at h
  · cases h
  · exact h

end Anstehend

section Invariante

variable {prioNum : Nat} {idle x : I} {s s' : SchedRun I}

/-- An operation on one item other than the idle one, which keeps the others as they are. -/
theorem AtRest.changed (h : AtRest prioNum idle s) (hx : x ≠ idle) {i : SchedItem}
    (ok : SchedOk (fun y => s'.live y = true) s'.ctx)
    (hitem : s'.ctx.item = update s.ctx.item x i) (hlt : s'.live x = true → i.prio < prioNum)
    (hlive : ∀ y, y ≠ x → s'.live y = s.live y)
    (hact : s'.ctx.reschedPending = false → s.ctx.reschedPending = false ∧
      s'.ctx.active = s.ctx.active ∧
        (s.ctx.active = x → s.live x = true → (s.ctx.item x).suspendCount = 0 →
          s'.live x = true ∧ i.suspendCount = 0)) :
    AtRest prioNum idle s' := by
  refine ⟨ok, fun y hy => ?_, ?_, ?_, fun hp => ?_⟩
  · by_cases hyx : y = x
    · subst hyx
      rw [hitem, Function.update_self]
      exact hlt hy
    · rw [hitem, Function.update_of_ne hyx]
      exact h.lt y (hlive y hyx ▸ hy)
  · rw [hlive idle (Ne.symm hx)]
    exact h.idleLive
  · rw [hitem, Function.update_of_ne (Ne.symm hx)]
    exact h.idleItem
  · obtain ⟨hp', ha, hkeep⟩ := hact hp
    obtain ⟨hl, h0⟩ := h.active hp'
    rw [ha]
    by_cases hax : s.ctx.active = x
    · rw [hax] at hl h0 ⊢
      rw [hitem, Function.update_self]
      exact hkeep hax hl h0
    · rw [hlive _ hax, hitem, Function.update_of_ne hax]
      exact ⟨hl, h0⟩

/-- An operation that leaves the items as they are. -/
theorem AtRest.kept (h : AtRest prioNum idle s) {c : SchedContext I (MpqContainer I)}
    (ok : SchedOk (fun y => s.live y = true) c) (hitem : c.item = s.ctx.item)
    (hact : c.reschedPending = false →
      s.live c.active = true ∧ (s.ctx.item c.active).suspendCount = 0) :
    AtRest prioNum idle { s with ctx := c } := by
  refine ⟨ok, ?_, h.idleLive, hitem ▸ h.idleItem, fun hp => ?_⟩
  · show ∀ x, s.live x = true → (c.item x).prio < prioNum
    rw [hitem]
    exact h.lt
  · show s.live c.active = true ∧ (c.item c.active).suspendCount = 0
    rw [hitem]
    exact hact hp

theorem AtRest.resume (h : AtRest prioNum idle s) (hx : s.live x = true) :
    AtRest prioNum idle { s with ctx := fxSchedItemResume s.ctx x } := by
  have ok := h.ok.itemResume hx
  by_cases hi : x = idle
  · -- the idle item is never suspended, and resuming it does nothing
    subst hi
    have e : fxSchedItemResume s.ctx x = s.ctx := if_neg (by rw [h.idleItem]; exact Nat.lt_irrefl 0)
    rw [e]
    exact h
  · refine h.changed hi ok (fxSchedItemResume_item s.ctx x) (fun _ => h.lt x hx) (fun _ _ => rfl)
      fun hp => ⟨fxSchedItemResume_unasked hp, fxSchedItemResume_active s.ctx x, fun _ hl h0 => ?_⟩
    exact ⟨hl, by simp [h0]⟩

/-- **What one step preserves.** -/
theorem AtRest.step (hN : prioNum ≤ 1024) (h : AtRest prioNum idle s) {a : SchedOp I}
    (hs : schedStep prioNum idle a s = some s') : AtRest prioNum idle s' := by
  cases a with
  | init x prio =>
    obtain ⟨⟨hi, hx, hp⟩, rfl⟩ := taken hs
    have ok : SchedOk (fun y => update s.live x true y = true) (fxSchedItemInit s.ctx x prio) := by
      refine h.ok.itemInit hx (by omega) fun y => ?_
      by_cases hy : y = x
      · simp [hy]
      · simp [hy]
    refine h.changed hi ok rfl (fun _ => hp) (fun y hy => Function.update_of_ne hy ..)
      fun hpend => ⟨hpend, rfl, fun ha hl h0 => ?_⟩
    have hin := h.ok.linked_in hl h0
    rw [hx] at hin
    cases hin
  | resume x =>
    obtain ⟨hx, rfl⟩ := taken hs
    exact h.resume hx
  | suspend =>
    obtain ⟨⟨hx, hi⟩, rfl⟩ := taken hs
    refine h.changed hi (h.ok.itemSuspend hx) (fxSchedItemSuspend_item s.ctx _)
      (fun _ => h.lt _ hx) (fun _ _ => rfl) fun hp => ?_
    obtain ⟨hp', h0⟩ := fxSchedItemSuspend_unasked hp
    exact ⟨hp', fxSchedItemSuspend_active s.ctx _, fun _ _ h0' => absurd h0' h0⟩
  | setParams x src =>
    obtain ⟨⟨hx, hi, hp⟩, rfl⟩ := taken hs
    refine h.changed hi (h.ok.itemSetParams (Or.inl hx) (by omega))
      (fxSchedItemSetParams_item s.ctx x src) (fun _ => hp) (fun _ _ => rfl) fun hpend => ?_
    exact ⟨fxSchedItemSetParams_unasked hpend, fxSchedItemSetParams_active s.ctx x src,
      fun _ hl h0 => ⟨hl, h0⟩⟩
  | yield x =>
    obtain ⟨hx, rfl⟩ := taken hs
    refine h.kept (h.ok.yield hx) (fxSchedYield_item s.ctx x) fun hp => ?_
    rw [fxSchedYield_active]
    exact h.active (fxSchedYield_unasked hp)
  | remove x =>
    obtain ⟨⟨hx, hi, h0⟩, rfl⟩ := taken hs
    have ok : SchedOk (fun y => update s.live x false y = true) (fxSchedItemRemove s.ctx x) := by
      refine h.ok.itemRemove hx fun y => ?_
      by_cases hy : y = x
      · simp [hy]
      · simp [hy]
    refine h.changed hi (i := s.ctx.item x) ok ?_ (fun _ => h.lt x hx)
      (fun y hy => Function.update_of_ne hy ..) fun hp => ?_
    · rw [Function.update_eq_self]
      exact fxSchedItemRemove_item s.ctx x
    · obtain ⟨hp', ha⟩ := fxSchedItemRemove_unasked hp
      exact ⟨hp', fxSchedItemRemove_active s.ctx x, fun e => absurd e (ha h0)⟩
  | getNext =>
    cases hs
    cases hp : s.ctx.reschedPending with
    | false =>
      have e : (fxSchedGetNext s.ctx).2 = s.ctx := by simp [fxSchedGetNext, hp]
      rw [e]
      exact h
    | true =>
      obtain ⟨y, e, hy, hy0, _⟩ := h.ok.getNext_spec hp h.idleLive (by rw [h.idleItem])
      refine h.kept h.ok.getNext (fxSchedGetNext_item s.ctx) fun _ => ?_
      rw [e]
      exact ⟨hy, hy0⟩

theorem atRest_boot (hN : prioNum ≤ 1024) (h1 : 0 < prioNum) :
    AtRest prioNum idle (schedBoot prioNum idle) := by
  have h : PrioInv idle (schedBoot prioNum idle) := prioInv_boot hN h1
  have hl : (schedBoot prioNum idle).live = update (fun _ => false) idle true := rfl
  have hitem : (schedBoot prioNum idle).ctx.item =
      update (fun _ => ⟨0, 0⟩) idle ⟨0, prioNum - 1⟩ := by
    simp [schedBoot, fxSchedItemInitIdle, fxSchedItemInit, fxSchedCtor]
  refine ⟨h.ok, fun x hx => ?_, ?_, ?_, fun hp => ?_⟩
  · rw [hl] at hx
    obtain rfl : x = idle := Classical.byContradiction fun hne => by
      rw [Function.update_of_ne hne] at hx
      cases hx
    rw [hitem, Function.update_self]
    show prioNum - 1 < prioNum
    omega
  · rw [hl, Function.update_self]
  · rw [hitem, Function.update_self]
  · exact (inContainer_iff h.ok).mp (h.top hp).inside

/-- **What every reached state has.** -/
theorem atRest_of_reach (hN : prioNum ≤ 1024) (h1 : 0 < prioNum)
    (h : Reach (schedStep prioNum idle) Always (schedBoot prioNum idle) s) :
    AtRest prioNum idle s :=
  h.inv (atRest_boot hN h1) fun _ _ _ hi _ hs => hi.step hN hs

end Invariante

/-! ## 2. Which item goes first -/

/-- `u` stands before `v`: in the same queue, or in a queue that goes first. -/
def Before (c : MpqContainer I) (u v : I) : Prop :=
  (∃ p, [u, v].Sublist (c.priorityQueues p)) ∨
    ∃ p q, c.link u = some p ∧ c.link v = some q ∧ p < q

section Reihenfolge

variable {c : MpqContainer I} {u v a : I} {p q : Nat}

omit [DecidableEq I] in
theorem Before.linked (h : MpqLists c) (hb : Before c u v) : ∃ p, c.link u = some p := by
  rcases hb with ⟨p, hb⟩ | ⟨p, _, hu, _⟩
  · exact ⟨p, (h.mem_iff u p).mp (hb.subset (by simp))⟩
  · exact ⟨p, hu⟩

omit [DecidableEq I] in
/-- What stands behind another item is not the one selected. -/
theorem Before.not_first (h : MpqInv c) (hb : Before c u v) : fxSchedContainerGet c ≠ some v := by
  intro e
  obtain ⟨pu, hu⟩ := hb.linked h.toMpqLists
  obtain ⟨x, p, rest, hget, hq, hx, hmin⟩ := fxSchedContainerGet_spec h hu
  obtain rfl : x = v := Option.some.inj (hget.symm.trans e)
  rcases hb with ⟨p', hb⟩ | ⟨pu', q, hu', hv, hlt⟩
  · have hp : p' = p := by
      have hxp := (h.mem_iff x p').mp (hb.subset (by simp))
      exact Option.some.inj (hxp.symm.trans hx)
    have hn := h.nodup p
    rw [hp, hq] at hb
    rw [hq] at hn
    have hnot : x ∉ rest := (List.nodup_cons.mp hn).1
    cases hb with
    | cons _ hb => exact hnot (hb.subset (by simp))
    | cons_cons _ hb => exact hnot (hb.subset (by simp))
  · have := hmin u pu' hu'
    have hqp : q = p := Option.some.inj (hv.symm.trans hx)
    omega

/-- Unlinking a third item changes nothing between two. -/
theorem Before.remove (hb : Before c u v) (ha : c.link a = some q) (hu : u ≠ a) (hv : v ≠ a)
    (p' : Nat) : Before (fxSchedContainerRemove c a p') u v := by
  rcases hb with ⟨p, hb⟩ | ⟨p, r, hup, hvr, hlt⟩
  · refine Or.inl ⟨p, ?_⟩
    rw [fxSchedContainerRemove_priorityQueues ha]
    by_cases hpq : p = q
    · subst hpq
      rw [Function.update_self]
      have he := hb.erase a
      have hkeep : [u, v].erase a = [u, v] :=
        List.erase_of_not_mem (by simp [Ne.symm hu, Ne.symm hv])
      rwa [hkeep] at he
    · rwa [Function.update_of_ne hpq]
  · refine Or.inr ⟨p, r, ?_, ?_, hlt⟩
    · rw [fxSchedContainerRemove_link, Function.update_of_ne hu, hup]
    · rw [fxSchedContainerRemove_link, Function.update_of_ne hv, hvr]

/-- So does linking one. -/
theorem Before.add (hb : Before c u v) (hu : u ≠ a) (hv : v ≠ a) (q : Nat) :
    Before (fxSchedContainerAdd c a q) u v := by
  rcases hb with ⟨p, hb⟩ | ⟨p, r, hup, hvr, hlt⟩
  · refine Or.inl ⟨p, ?_⟩
    rw [fxSchedContainerAdd_priorityQueues]
    by_cases hpq : p = q
    · subst hpq
      rw [Function.update_self]
      exact hb.trans (List.sublist_append_left ..)
    · rwa [Function.update_of_ne hpq]
  · refine Or.inr ⟨p, r, ?_, ?_, hlt⟩
    · rw [fxSchedContainerAdd_link, Function.update_of_ne hu, hup]
    · rw [fxSchedContainerAdd_link, Function.update_of_ne hv, hvr]

/-- An item that is linked now stands behind all those that go no later. -/
theorem before_added (h : MpqLists c) (hu : c.link u = some p) (hpq : p ≤ q) (hne : u ≠ a) :
    Before (fxSchedContainerAdd c a q) u a := by
  by_cases hp : p = q
  · subst hp
    refine Or.inl ⟨p, ?_⟩
    rw [fxSchedContainerAdd_priorityQueues, Function.update_self]
    exact (List.singleton_sublist.mpr ((h.mem_iff u p).mpr hu)).append (List.Sublist.refl [a])
  · refine Or.inr ⟨p, q, ?_, ?_, by omega⟩
    · rw [fxSchedContainerAdd_link, Function.update_of_ne hne, hu]
    · rw [fxSchedContainerAdd_link, Function.update_self]

/-- **The item that stands before all others is the one selected.** -/
theorem getNext_first {prioNum : Nat} {idle : I} {s : SchedRun I} (h : AtRest prioNum idle s)
    (hp : s.ctx.reschedPending = true)
    (hb : ∀ a, InContainer s.ctx a → a ≠ u → Before s.ctx.gDomain u a) :
    (fxSchedGetNext s.ctx).1 = some u := by
  obtain ⟨x, e, hx, hx0, _⟩ := h.ok.getNext_spec hp h.idleLive (by rw [h.idleItem])
  have hget : fxSchedContainerGet s.ctx.gDomain = some x := by
    have hlk := h.ok.linked_in h.idleLive (by rw [h.idleItem])
    obtain ⟨y, _, _, hy, _⟩ := fxSchedContainerGet_spec h.ok.mpq hlk
    have hy' : SchedAlg.containerGet s.ctx.gDomain = some y := hy
    have e1 : (fxSchedGetNext s.ctx).1 = some y := by simp [fxSchedGetNext, hp, hy']
    rw [e] at e1
    exact hy.trans e1.symm
  have hxu : x = u := Classical.byContradiction fun hne =>
    (hb x ((inContainer_iff h.ok).mpr ⟨hx, hx0⟩) hne).not_first h.ok.mpq hget
  rw [e, hxu]

end Reihenfolge

/-! ## 3. What a boost leaves behind -/

/-- The container after an item was moved to another queue and back. -/
def requeued (c : MpqContainer I) (x : I) (p src : Nat) : MpqContainer I :=
  fxSchedContainerAdd (fxSchedContainerRemove (fxSchedContainerAdd (fxSchedContainerRemove c x p)
    x src) x src) x p

section Behaelter

variable {c : MpqContainer I} {x : I} {p src : Nat}

omit [DecidableEq I] in
/-- The bitmaps are determined by the queues. -/
theorem MpqInv.maps_eq {c' : MpqContainer I} (h : MpqInv c) (h' : MpqInv c')
    (hq : c'.priorityQueues = c.priorityQueues) :
    c'.map1 = c.map1 ∧ ∀ i, i < 32 → c'.map2 i = c.map2 i := by
  have h2 : ∀ i, i < 32 → c'.map2 i = c.map2 i := by
    intro i hi
    refine BitVec.eq_of_getLsbD_eq fun j hj => ?_
    rw [Bool.eq_iff_iff, h'.map2_bit i j hi hj, h.map2_bit i j hi hj, hq]
  refine ⟨BitVec.eq_of_getLsbD_eq fun i hi => ?_, h2⟩
  rw [Bool.eq_iff_iff, h'.map1_bit i hi, h.map1_bit i hi, h2 i hi]

/-- The words of the bitmap beyond the last priority are never written. -/
theorem add_map2_beyond (hp : p < 1024) {i : Nat} (hi : 32 ≤ i) :
    (fxSchedContainerAdd c x p).map2 i = c.map2 i :=
  Function.update_of_ne (by omega) ..

theorem remove_map2_beyond (hp : p < 1024) {i : Nat} (hi : 32 ≤ i) :
    (fxSchedContainerRemove c x p).map2 i = c.map2 i := by
  have hu : (c.unlink x).map2 = c.map2 := by
    unfold MpqContainer.unlink
    split <;> rfl
  unfold fxSchedContainerRemove
  split
  · rw [← hu]
    exact Function.update_of_ne (by omega) ..
  · rw [hu]

/-- Taking an item out and linking it again: its queue has it at the end. -/
theorem requeued_priorityQueues (h : MpqLists c) (hx : c.link x = some p) (hne : src ≠ p) :
    (requeued c x p src).priorityQueues =
      update c.priorityQueues p ((c.priorityQueues p).erase x ++ [x]) := by
  have hsrc : x ∉ c.priorityQueues src := fun hm => by
    have e := (h.mem_iff x src).mp hm
    rw [hx] at e
    exact hne (Option.some.inj e).symm
  have hback : (c.priorityQueues src ++ [x]).erase x = c.priorityQueues src := by
    rw [List.erase_append_right _ hsrc]
    simp
  have h1 : (fxSchedContainerAdd (fxSchedContainerRemove c x p) x src).link x = some src := by simp
  funext q
  rw [requeued, fxSchedContainerAdd_priorityQueues, fxSchedContainerRemove_priorityQueues h1,
    fxSchedContainerAdd_priorityQueues, fxSchedContainerRemove_priorityQueues hx]
  by_cases hqp : q = p
  · subst hqp
    simp [Ne.symm hne]
  · by_cases hqs : q = src
    · subst hqs
      simp [hqp, hback]
    · simp [hqp, hqs]

theorem requeued_link (hx : c.link x = some p) : (requeued c x p src).link = c.link := by
  simp only [requeued, fxSchedContainerAdd_link, fxSchedContainerRemove_link,
    Function.update_idem]
  rw [← hx, Function.update_eq_self]

theorem mpqInv_requeued (h : MpqInv c) (hx : c.link x = some p) (hs : src < 1024) :
    MpqInv (requeued c x p src) := by
  have h1 := mpqInv_remove h hx
  have h2 := mpqInv_add h1 (x := x) (p := src) (by simp) hs
  have h3 := mpqInv_remove h2 (x := x) (p := src) (by simp)
  exact mpqInv_add h3 (by simp) (h.lt hx)

/-- The last item of its queue comes back to where it was. -/
theorem requeued_last (h : MpqInv c) (hx : c.link x = some p) (hne : src ≠ p) (hs : src < 1024)
    (hlast : (c.priorityQueues p).getLast? = some x) : requeued c x p src = c := by
  obtain ⟨front, hq⟩ := List.getLast?_eq_some_iff.mp hlast
  have hp := h.lt hx
  have hqs : (requeued c x p src).priorityQueues = c.priorityQueues := by
    rw [requeued_priorityQueues h.toMpqLists hx hne]
    have hnot : x ∉ front := by
      have hn := h.nodup p
      rw [hq] at hn
      exact fun hm => (List.nodup_append.mp hn).2.2 x hm x (by simp) rfl
    have he : (c.priorityQueues p).erase x ++ [x] = c.priorityQueues p := by
      rw [hq, List.erase_append_right _ hnot]
      simp
    rw [he, Function.update_eq_self]
  obtain ⟨h1, h2⟩ := h.maps_eq (mpqInv_requeued h hx hs) hqs
  have hmap2 : (requeued c x p src).map2 = c.map2 := by
    funext i
    by_cases hi : i < 32
    · exact h2 i hi
    · have hi : 32 ≤ i := by omega
      rw [requeued, add_map2_beyond hp hi, remove_map2_beyond hs hi, add_map2_beyond hs hi,
        remove_map2_beyond hp hi]
  have hfault : (requeued c x p src).fault = c.fault := by
    have h1 : (fxSchedContainerAdd (fxSchedContainerRemove c x p) x src).link x = some src := by
      simp
    rw [requeued, fxSchedContainerAdd_fault, fxSchedContainerRemove_fault h1,
      fxSchedContainerAdd_fault, fxSchedContainerRemove_fault hx]
  have hlink : (requeued c x p src).link = c.link := requeued_link hx
  generalize requeued c x p src = c' at hqs h1 hmap2 hlink hfault
  cases c
  cases c'
  simp_all

/-- A peer behind the item stands before it afterwards. -/
theorem before_requeued (h : MpqLists c) (hx : c.link x = some p) (hne : src ≠ p) {y : I}
    (hy : y ∈ c.priorityQueues p) (hyx : y ≠ x) : Before (requeued c x p src) y x := by
  refine Or.inl ⟨p, ?_⟩
  rw [requeued_priorityQueues h hx hne, Function.update_self]
  have hm : y ∈ (c.priorityQueues p).erase x := (List.mem_erase_of_ne hyx).mpr hy
  exact (List.singleton_sublist.mpr hm).append (List.Sublist.refl [x])

end Behaelter

section Hebung

variable {c : SchedContext I (MpqContainer I)} {x : I} {src : Nat}

/-- The active item raised: what it had is saved, and it is linked under the new priority. -/
theorem fxSchedItemSetParams_raised (ha : c.active = x) (h0 : (c.item x).suspendCount = 0)
    (hlt : src < (c.item x).prio) :
    fxSchedItemSetParams c x src = { c with
      timestamp := c.changesCounter
      savedParams := (c.item x).prio
      item := update c.item x ⟨0, src⟩
      gDomain := fxSchedContainerAdd (fxSchedContainerRemove c.gDomain x (c.item x).prio)
        x src } := by
  have e : fxSchedItemSetParams c x src =
      (((c.paramsChange x src).remove x).setItem x ⟨0, src⟩).add x := if_pos h0
  have hraise : c.paramsChange x src = { c with
      timestamp := c.changesCounter, savedParams := (c.item x).prio } := if_pos ⟨ha, hlt⟩
  rw [e, hraise]
  simp [SchedContext.remove, SchedContext.add, SchedContext.setItem, SchedAlg.containerAdd,
    SchedAlg.containerRemove]

/-- Lowered to what was saved, with no change counted since: nothing is asked for. -/
theorem fxSchedItemSetParams_lowered (ha : c.active = x) (h0 : (c.item x).suspendCount = 0)
    (hge : (c.item x).prio ≤ src) (hc : c.changesCounter = c.timestamp)
    (hs : c.savedParams = src) :
    fxSchedItemSetParams c x src = { c with
      item := update c.item x ⟨0, src⟩
      gDomain := fxSchedContainerAdd (fxSchedContainerRemove c.gDomain x (c.item x).prio)
        x src } := by
  have e : fxSchedItemSetParams c x src =
      (((c.paramsChange x src).remove x).setItem x ⟨0, src⟩).add x := if_pos h0
  have hlower : c.paramsChange x src = c := by
    unfold SchedContext.paramsChange
    rw [if_neg fun h => Nat.not_lt.mpr hge h.2, if_neg (by simp [ha, hc, hs])]
  rw [e, hlower]
  simp [SchedContext.remove, SchedContext.add, SchedContext.setItem, SchedAlg.containerAdd,
    SchedAlg.containerRemove]

/-- **The state after a boost**: the item requeued, the two variables set, nothing asked for. -/
theorem boosted_ctx (ha : c.active = x) (h0 : (c.item x).suspendCount = 0)
    (hlt : src < (c.item x).prio) :
    fxSchedItemSetParams (fxSchedItemSetParams c x src) x (c.item x).prio =
      { c with
        timestamp := c.changesCounter
        savedParams := (c.item x).prio
        gDomain := requeued c.gDomain x (c.item x).prio src } := by
  have hitem : update (update c.item x ⟨0, src⟩) x ⟨0, (c.item x).prio⟩ = c.item := by
    rw [Function.update_idem, ← h0]
    exact Function.update_eq_self x c.item
  rw [fxSchedItemSetParams_raised ha h0 hlt, fxSchedItemSetParams_lowered]
  · simp [hitem, requeued]
  · exact ha
  · simp
  · simpa using Nat.le_of_lt hlt
  · rfl
  · rfl

end Hebung

/-! ## 4. Clearing the way to two items -/

/-- The items that `fx_sched_get_next` has returned. -/
def returned : SchedOp I → SchedRun I → List I → List I
  | .getNext, s, out => out ++ (fxSchedGetNext s.ctx).1.toList
  | _, _, out => out

/-- No continuation tells the two states apart by the items that are returned. -/
def SameOrder (prioNum : Nat) (idle : I) (s s' : SchedRun I) : Prop :=
  Alike (noted (schedStep prioNum idle) returned) Prod.snd (s, []) (s', [])

/-- The items of `L` removed, everything else as it was. -/
structure Cleared (L : List I) (s t : SchedRun I) : Prop where
  item : t.ctx.item = s.ctx.item
  active : t.ctx.active = s.ctx.active
  live : ∀ u, t.live u = true ↔ s.live u = true ∧ u ∉ L
  order : ∀ u v, u ∉ L → v ∉ L → Before s.ctx.gDomain u v → Before t.ctx.gDomain u v

/-- Nothing but items of `K` left in the container, everything else as it was. -/
structure Left (prioNum : Nat) (idle : I) (K : List I) (s t : SchedRun I) : Prop where
  settled : AtRest prioNum idle t
  item : t.ctx.item = s.ctx.item
  active : t.ctx.active = s.ctx.active
  within : ∀ a, InContainer t.ctx a → a ∈ K
  order : ∀ u v, u ∈ K → v ∈ K → Before s.ctx.gDomain u v → Before t.ctx.gDomain u v

section Raeumung

variable {prioNum : Nat} {idle : I} {s : SchedRun I}

omit [DecidableEq I] in
theorem Cleared.refl (s : SchedRun I) : Cleared [] s s :=
  ⟨rfl, rfl, fun u => by simp, fun _ _ _ _ hb => hb⟩

/-- One item more. -/
theorem Cleared.cons {a : I} {L : List I} {t : SchedRun I}
    (h : SchedOk (fun x => s.live x = true) s.ctx) (ha : InContainer s.ctx a)
    (ht : Cleared L ⟨fxSchedItemRemove s.ctx a, update s.live a false⟩ t) :
    Cleared (a :: L) s t := by
  obtain ⟨hl, h0⟩ := (inContainer_iff h).mp ha
  have hlk := h.linked_in hl h0
  refine ⟨ht.item.trans (fxSchedItemRemove_item s.ctx a),
    ht.active.trans (fxSchedItemRemove_active s.ctx a), fun u => ?_, fun u v hu hv hb => ?_⟩
  · rw [ht.live u]
    by_cases hua : u = a
    · simp [hua]
    · simp [hua]
  · have hua : u ≠ a := fun e => hu (e ▸ List.mem_cons_self)
    have hva : v ≠ a := fun e => hv (e ▸ List.mem_cons_self)
    refine ht.order u v (fun hm => hu (List.mem_cons_of_mem _ hm))
      (fun hm => hv (List.mem_cons_of_mem _ hm)) ?_
    have e : (fxSchedItemRemove s.ctx a).gDomain =
        fxSchedContainerRemove s.ctx.gDomain a (s.ctx.item a).prio := by
      unfold fxSchedItemRemove
      rw [if_pos h0]
      split <;> rfl
    show Before (fxSchedItemRemove s.ctx a).gDomain u v
    rw [e]
    exact hb.remove hlk hua hva _

/-- **Any items but the idle one can be removed**, and nothing is returned meanwhile. -/
theorem exists_cleared (hN : prioNum ≤ 1024) (L : List I) (h : AtRest prioNum idle s)
    (hn : L.Nodup) (hL : ∀ a ∈ L, InContainer s.ctx a ∧ a ≠ idle) (out : List I) :
    ∃ t, run (noted (schedStep prioNum idle) returned) (L.map .remove) (s, out) = some (t, out) ∧
      AtRest prioNum idle t ∧ Cleared L s t := by
  induction L generalizing s with
  | nil => exact ⟨s, rfl, h, .refl s⟩
  | cons a L ih =>
    obtain ⟨haL, hn⟩ := List.nodup_cons.mp hn
    obtain ⟨ha, hi⟩ := hL a List.mem_cons_self
    obtain ⟨hl, h0⟩ := (inContainer_iff h.ok).mp ha
    have hs : schedStep prioNum idle (.remove a) s =
        some ⟨fxSchedItemRemove s.ctx a, update s.live a false⟩ := if_pos ⟨hl, hi, h0⟩
    have h' := h.step hN hs
    have hL' : ∀ b ∈ L, InContainer (fxSchedItemRemove s.ctx a) b ∧ b ≠ idle := by
      intro b hb
      obtain ⟨hbin, hbi⟩ := hL b (List.mem_cons_of_mem _ hb)
      obtain ⟨hbl, hb0⟩ := (inContainer_iff h.ok).mp hbin
      have hba : b ≠ a := fun e => haL (e ▸ hb)
      refine ⟨(inContainer_iff h'.ok).mpr ⟨?_, ?_⟩, hbi⟩
      · simpa [hba] using hbl
      · simpa using hb0
    obtain ⟨t, ht, hset, hcl⟩ := ih h' hn hL'
    refine ⟨t, ?_, hset, .cons h.ok ha hcl⟩
    have hstep : noted (schedStep prioNum idle) returned (.remove a) (s, out) =
        some (⟨fxSchedItemRemove s.ctx a, update s.live a false⟩, out) := by
      simp [noted, hs, returned]
    rw [List.map_cons, run, hstep]
    exact ht

/-- The items in the container, but for those of `K`, as a list. -/
theorem exists_others (h : SchedOk (fun x => s.live x = true) s.ctx) (K : List I) :
    ∃ L : List I, L.Nodup ∧ ∀ a, a ∈ L ↔ InContainer s.ctx a ∧ a ∉ K := by
  refine ⟨(((List.range 1024).flatMap s.ctx.gDomain.priorityQueues).filter
    fun a => !K.contains a).dedup, List.nodup_dedup _, fun a => ?_⟩
  have hin : InContainer s.ctx a ↔ ∃ p, p < 1024 ∧ a ∈ s.ctx.gDomain.priorityQueues p := by
    unfold InContainer
    rw [Option.isSome_iff_exists]
    constructor
    · intro ⟨p, hp⟩
      exact ⟨p, h.mpq.lt hp, (h.mpq.mem_iff a p).mpr hp⟩
    · intro ⟨p, _, hp⟩
      exact ⟨p, (h.mpq.mem_iff a p).mp hp⟩
  rw [List.mem_dedup, List.mem_filter, List.mem_flatMap, hin]
  simp

/-- All items removed but those of `K`. -/
theorem Cleared.left {t : SchedRun I} {L K : List I} (hcl : Cleared L s t)
    (h : AtRest prioNum idle s) (ht : AtRest prioNum idle t)
    (hL : ∀ a, a ∈ L ↔ InContainer s.ctx a ∧ a ∉ K) : Left prioNum idle K s t := by
  refine ⟨ht, hcl.item, hcl.active, fun a ha => ?_, fun u v hu hv => hcl.order u v ?_ ?_⟩
  · obtain ⟨hl, h0⟩ := (inContainer_iff ht.ok).mp ha
    rw [hcl.item] at h0
    obtain ⟨hls, haL⟩ := (hcl.live a).mp hl
    exact Classical.byContradiction fun hK =>
      haL ((hL a).mpr ⟨(inContainer_iff h.ok).mpr ⟨hls, h0⟩, hK⟩)
  · exact fun hm => ((hL u).mp hm).2 hu
  · exact fun hm => ((hL v).mp hm).2 hv

/-- With two items beside the idle one, yielding to all of its peers selects the first of them. -/
theorem run_yield_idle (hN : prioNum ≤ 1024) {t : SchedRun I} (h : AtRest prioNum idle t)
    {u v : I} (hu : u ≠ idle) (hv : v ≠ idle)
    (hin : ∀ a, InContainer t.ctx a → a = u ∨ a = v ∨ a = idle)
    (hb : Before t.ctx.gDomain u v) (out : List I) :
    ∃ t', run (noted (schedStep prioNum idle) returned) [.yield idle, .getNext] (t, out) =
      some (t', out ++ [u]) := by
  have hlk : t.ctx.gDomain.link idle = some (prioNum - 1) := by
    have e := h.ok.linked_in h.idleLive (by rw [h.idleItem])
    rwa [h.idleItem] at e
  have hs : schedStep prioNum idle (.yield idle) t =
      some { t with ctx := fxSchedYield t.ctx idle } := if_pos h.idleLive
  have e : fxSchedYield t.ctx idle = fxSchedMarkReschedNeeded
      ((t.ctx.remove idle).add idle).countChange := if_pos (by rw [h.idleItem])
  have hg : (fxSchedYield t.ctx idle).gDomain = fxSchedContainerAdd
      (fxSchedContainerRemove t.ctx.gDomain idle (prioNum - 1)) idle (prioNum - 1) := by
    rw [e]
    simp [fxSchedMarkReschedNeeded, SchedContext.countChange, SchedContext.remove,
      SchedContext.add, SchedAlg.containerAdd, SchedAlg.containerRemove, h.idleItem]
  have h' := h.step hN hs
  have hbefore : Before (fxSchedContainerRemove t.ctx.gDomain idle (prioNum - 1)) u v :=
    hb.remove hlk hu hv _
  have hlists := (mpqInv_remove h.ok.mpq hlk).toMpqLists
  obtain ⟨p, hp⟩ := hbefore.linked hlists
  have hle : p ≤ prioNum - 1 := by
    rw [fxSchedContainerRemove_link, Function.update_of_ne hu] at hp
    obtain ⟨hl, _, rfl⟩ := h.ok.link_iff.mp hp
    have := h.lt u hl
    omega
  have hfirst : (fxSchedGetNext (fxSchedYield t.ctx idle)).1 = some u := by
    refine getNext_first h' (by rw [e]; rfl) fun a ha hne => ?_
    show Before (fxSchedYield t.ctx idle).gDomain u a
    rw [hg]
    have ha' : a = idle ∨ a = v := by
      by_cases hai : a = idle
      · exact Or.inl hai
      · have hat : InContainer t.ctx a := by
          change InContainer (fxSchedYield t.ctx idle) a at ha
          unfold InContainer at ha ⊢
          rw [hg, fxSchedContainerAdd_link, fxSchedContainerRemove_link,
            Function.update_of_ne hai, Function.update_of_ne hai] at ha
          exact ha
        rcases hin a hat with rfl | rfl | rfl
        · exact absurd rfl hne
        · exact Or.inr rfl
        · exact Or.inl rfl
    rcases ha' with rfl | rfl
    · exact before_added hlists hp hle hu
    · exact hbefore.add hu hv _
  refine ⟨⟨(fxSchedGetNext (fxSchedYield t.ctx idle)).2, t.live⟩, ?_⟩
  have hs2 : schedStep prioNum idle .getNext { t with ctx := fxSchedYield t.ctx idle } =
      some ⟨(fxSchedGetNext (fxSchedYield t.ctx idle)).2, t.live⟩ := rfl
  simp [run, noted, hs, hs2, returned, hfirst]

/-- Resuming an item suspended once, at least as strong as the active one. -/
theorem fxSchedItemResume_preempts {c : SchedContext I (MpqContainer I)} {z : I} {p : Nat}
    (hz : c.item z = ⟨1, p⟩) (hle : p ≤ (c.item c.active).prio) :
    (fxSchedItemResume c z).reschedPending = true ∧
      (fxSchedItemResume c z).gDomain = fxSchedContainerAdd c.gDomain z p := by
  have hself : update c.item z (⟨0, p⟩ : SchedItem) z = ⟨0, p⟩ := Function.update_self ..
  have hact : p ≤ (update c.item z (⟨0, p⟩ : SchedItem) c.active).prio := by
    by_cases he : c.active = z
    · rw [he, hself]
    · rwa [Function.update_of_ne he]
  unfold fxSchedItemResume
  simp only [hz, Nat.one_pos, if_true, Nat.sub_self]
  split
  · refine ⟨rfl, ?_⟩
    show fxSchedContainerAdd c.gDomain z (update c.item z (⟨0, p⟩ : SchedItem) z).prio = _
    rw [hself]
  · rename_i hne
    refine absurd ?_ hne
    simp only [SchedContext.countChange, SchedContext.add, SchedContext.setItem, hself]
    omega

/-- With two items of the active one's priority, a third one appended behind both selects the
    first of them. -/
theorem Left.run_appended (hN : prioNum ≤ 1024) {K : List I} {t : SchedRun I}
    (hleft : Left prioNum idle K s t) {u v z : I} {p : Nat} (hz : z ≠ idle) (hzK : z ∉ K)
    (hza : z ≠ s.ctx.active) (hup : (s.ctx.item u).prio = p)
    (hap : (s.ctx.item s.ctx.active).prio = p) (hpN : p < prioNum)
    (hin : ∀ a, InContainer t.ctx a → a = u ∨ a = v)
    (hb : Before t.ctx.gDomain u v) (out : List I) :
    ∃ t', run (noted (schedStep prioNum idle) returned) [.init z p, .resume z, .getNext] (t, out) =
      some (t', out ++ [u]) := by
  have h := hleft.settled
  have hu : t.ctx.gDomain.link u = some p := by
    obtain ⟨q, hq⟩ := hb.linked h.ok.mpq.toMpqLists
    have e := (h.ok.link_iff.mp hq).2.2
    rw [hleft.item, hup] at e
    rw [hq, e]
  have hzlink : t.ctx.gDomain.link z = none := by
    have hzout : ¬ InContainer t.ctx z := fun hc => hzK (hleft.within z hc)
    simpa [InContainer] using hzout
  have huz : u ≠ z := fun e => by simp [← e, hu] at hzlink
  let t1 : SchedRun I := ⟨fxSchedItemInit t.ctx z p, update t.live z true⟩
  have hs1 : schedStep prioNum idle (.init z p) t = some t1 := if_pos ⟨hz, hzlink, hpN⟩
  have h1 := h.step hN hs1
  have hitem1 : t1.ctx.item = update t.ctx.item z ⟨1, p⟩ := rfl
  have hact1 : t1.ctx.active = t.ctx.active := rfl
  have hg1 : t1.ctx.gDomain = t.ctx.gDomain := rfl
  have hs2 : schedStep prioNum idle (.resume z) t1 =
      some { t1 with ctx := fxSchedItemResume t1.ctx z } := if_pos (Function.update_self ..)
  have h2 := h1.step hN hs2
  obtain ⟨hpend, hg⟩ := fxSchedItemResume_preempts (c := t1.ctx) (z := z) (p := p)
    (by rw [hitem1, Function.update_self])
    (by rw [hitem1, hact1, hleft.active, Function.update_of_ne (Ne.symm hza), hleft.item, hap])
  have hfirst : (fxSchedGetNext (fxSchedItemResume t1.ctx z)).1 = some u := by
    refine getNext_first h2 hpend fun a ha hne => ?_
    show Before (fxSchedItemResume t1.ctx z).gDomain u a
    rw [hg, hg1]
    by_cases haz : a = z
    · subst haz
      exact before_added h.ok.mpq.toMpqLists hu (Nat.le_refl p) huz
    · have hat : InContainer t.ctx a := by
        change InContainer (fxSchedItemResume t1.ctx z) a at ha
        unfold InContainer at ha ⊢
        rw [hg, hg1, fxSchedContainerAdd_link, Function.update_of_ne haz] at ha
        exact ha
      obtain rfl := (hin a hat).resolve_left hne
      exact hb.add huz haz _
  refine ⟨⟨(fxSchedGetNext (fxSchedItemResume t1.ctx z)).2, t1.live⟩, ?_⟩
  have hs3 : schedStep prioNum idle .getNext { t1 with ctx := fxSchedItemResume t1.ctx z } =
      some ⟨(fxSchedGetNext (fxSchedItemResume t1.ctx z)).2, t1.live⟩ := rfl
  simp [run, noted, hs1, hs2, hs3, returned, hfirst]

end Raeumung

/-! ## 5. When a boost is invisible -/

/-- The state after the active item was raised to `src` and lowered again. -/
def afterBoost (s : SchedRun I) (src : Nat) : SchedRun I where
  ctx := { s.ctx with
    timestamp := s.ctx.changesCounter
    savedParams := (s.ctx.item s.ctx.active).prio
    gDomain := requeued s.ctx.gDomain s.ctx.active (s.ctx.item s.ctx.active).prio src }
  live := s.live

section Unsichtbar

variable {prioNum : Nat} {idle : I} {s s1 s2 : SchedRun I} {src : Nat}

/-- What the raise and the lowering do together, as steps of the scheduler. -/
theorem boosted (h0 : (s.ctx.item s.ctx.active).suspendCount = 0)
    (hlt : src < (s.ctx.item s.ctx.active).prio)
    (h1 : schedStep prioNum idle (.setParams s.ctx.active src) s = some s1)
    (h2 : schedStep prioNum idle (.setParams s.ctx.active (s.ctx.item s.ctx.active).prio) s1 =
      some s2) : s2 = afterBoost s src := by
  obtain ⟨_, rfl⟩ := taken h1
  obtain ⟨_, rfl⟩ := taken h2
  rw [boosted_ctx rfl h0 hlt, afterBoost]

/-- Giving the active item the priority it has asks for rescheduling, unless the two variables
    say that this ends a boost. -/
theorem paramsChange_same (hne : ¬ (s.ctx.timestamp = s.ctx.changesCounter ∧
      s.ctx.savedParams = (s.ctx.item s.ctx.active).prio)) :
    s.ctx.paramsChange s.ctx.active (s.ctx.item s.ctx.active).prio =
      fxSchedMarkReschedNeeded s.ctx.countChange := by
  unfold SchedContext.paramsChange
  rw [if_neg fun h => Nat.lt_irrefl _ h.2, if_pos]
  refine Or.inr (Classical.byContradiction fun hno => hne ?_)
  obtain ⟨hc, hs⟩ := not_or.mp hno
  exact ⟨(Classical.not_not.mp hc).symm, Classical.not_not.mp hs⟩

/-- After a boost, the same priority set once more is taken for the end of that boost: a
    request that the state without the boost would have made is missing. -/
theorem SameOrder.variables (hN : prioNum ≤ 1024) (h : AtRest prioNum idle s)
    (hp : s.ctx.reschedPending = false) (hi : s.ctx.active ≠ idle)
    (hsame : SameOrder prioNum idle s (afterBoost s src)) :
    s.ctx.timestamp = s.ctx.changesCounter ∧
      s.ctx.savedParams = (s.ctx.item s.ctx.active).prio := by
  refine Classical.byContradiction fun hne => ?_
  obtain ⟨hl, h0⟩ := h.active hp
  let a : SchedOp I := .setParams s.ctx.active (s.ctx.item s.ctx.active).prio
  let c1 := fxSchedItemSetParams s.ctx s.ctx.active (s.ctx.item s.ctx.active).prio
  let c2 := fxSchedItemSetParams (afterBoost s src).ctx s.ctx.active
    (s.ctx.item s.ctx.active).prio
  have hstep1 : schedStep prioNum idle a s = some ⟨c1, s.live⟩ := if_pos ⟨hl, hi, h.lt _ hl⟩
  have hstep2 : schedStep prioNum idle a (afterBoost s src) = some ⟨c2, s.live⟩ :=
    if_pos ⟨hl, hi, h.lt _ hl⟩
  have hpend1 : c1.reschedPending = true := by
    have e : c1 = (((s.ctx.paramsChange s.ctx.active (s.ctx.item s.ctx.active).prio).remove
        s.ctx.active).setItem s.ctx.active ⟨0, _⟩).add s.ctx.active := if_pos h0
    rw [e, paramsChange_same hne]
    rfl
  have hpend2 : c2.reschedPending = false := by
    have e : c2 = _ := fxSchedItemSetParams_lowered (c := (afterBoost s src).ctx)
      (x := s.ctx.active) rfl h0 (Nat.le_refl _) rfl rfl
    rw [e]
    exact hp
  have hset1 := h.step hN hstep1
  obtain ⟨y, hy, _⟩ := hset1.ok.getNext_spec hpend1 hset1.idleLive (by rw [hset1.idleItem])
  have hrun1 : run (noted (schedStep prioNum idle) returned) [a, .getNext] (s, []) =
      some (⟨(fxSchedGetNext c1).2, s.live⟩, [y]) := by
    have hg : schedStep prioNum idle .getNext ⟨c1, s.live⟩ =
        some ⟨(fxSchedGetNext c1).2, s.live⟩ := rfl
    simp [a, run, noted, hstep1, hg, returned, hy]
  have hrun2 : run (noted (schedStep prioNum idle) returned) [a, .getNext]
      (afterBoost s src, []) = some (⟨(fxSchedGetNext c2).2, s.live⟩, []) := by
    have hg : schedStep prioNum idle .getNext ⟨c2, s.live⟩ =
        some ⟨(fxSchedGetNext c2).2, s.live⟩ := rfl
    have hnone : (fxSchedGetNext c2).1 = none := by simp [fxSchedGetNext, hpend2]
    simp [a, run, noted, hstep2, hg, returned, hnone]
  cases hsame.seen hrun1 hrun2

theorem afterBoost_in (h : AtRest prioNum idle s) (hp : s.ctx.reschedPending = false) (y : I) :
    InContainer (afterBoost s src).ctx y ↔ InContainer s.ctx y := by
  obtain ⟨hl, h0⟩ := h.active hp
  have e : (afterBoost s src).ctx.gDomain.link = s.ctx.gDomain.link :=
    requeued_link (h.ok.linked_in hl h0)
  unfold InContainer
  rw [e]

/-- Both states with nothing but items of `K` left: the same continuation leads there. -/
theorem exists_left_both (hN : prioNum ≤ 1024) (h : AtRest prioNum idle s)
    (hp : s.ctx.reschedPending = false) (h2 : AtRest prioNum idle (afterBoost s src))
    (K : List I) (hK : idle ∈ K) : ∃ (as : List (SchedOp I)) (t t2 : SchedRun I),
      run (noted (schedStep prioNum idle) returned) as (s, []) = some (t, []) ∧
      run (noted (schedStep prioNum idle) returned) as (afterBoost s src, []) = some (t2, []) ∧
      Left prioNum idle K s t ∧ Left prioNum idle K (afterBoost s src) t2 := by
  obtain ⟨L, hn, hL⟩ := exists_others h.ok K
  have hL2 : ∀ a, a ∈ L ↔ InContainer (afterBoost s src).ctx a ∧ a ∉ K := fun a => by
    rw [afterBoost_in h hp, hL]
  have hidle : ∀ a, a ∈ L → a ≠ idle := fun a ha e => ((hL a).mp ha).2 (e ▸ hK)
  obtain ⟨t, hrun, ht, hcl⟩ := exists_cleared hN L h hn
    (fun a ha => ⟨((hL a).mp ha).1, hidle a ha⟩) []
  obtain ⟨t2, hrun2, ht2, hcl2⟩ := exists_cleared hN L h2 hn
    (fun a ha => ⟨((hL2 a).mp ha).1, hidle a ha⟩) []
  exact ⟨L.map .remove, t, t2, hrun, hrun2, hcl.left h ht hL, hcl2.left h2 ht2 hL2⟩

/-- A peer that stood behind the item goes before it after the boost, and a continuation that
    takes everything else away shows which of the two is first. -/
theorem SameOrder.last (hN : prioNum ≤ 1024) (h : AtRest prioNum idle s)
    (hp : s.ctx.reschedPending = false) (hi : s.ctx.active ≠ idle)
    (hlt : src < (s.ctx.item s.ctx.active).prio)
    (h2 : AtRest prioNum idle (afterBoost s src)) (hz : ∃ z, z ≠ s.ctx.active ∧ z ≠ idle)
    (hsame : SameOrder prioNum idle s (afterBoost s src)) :
    (s.ctx.gDomain.priorityQueues (s.ctx.item s.ctx.active).prio).getLast? =
      some s.ctx.active := by
  obtain ⟨hl, h0⟩ := h.active hp
  have hlk := h.ok.linked_in hl h0
  have hlists := h.ok.mpq.toMpqLists
  obtain ⟨front, rest, hq⟩ := List.append_of_mem ((hlists.mem_iff _ _).mpr hlk)
  cases rest with
  | nil => simp [hq]
  | cons y rest =>
    refine False.elim ?_
    have hsub : [s.ctx.active, y].Sublist
        (s.ctx.gDomain.priorityQueues (s.ctx.item s.ctx.active).prio) := by
      rw [hq]
      exact List.sublist_append_of_sublist_right (by simp)
    have hyx : y ≠ s.ctx.active := fun e => by
      have hn := (hlists.nodup _).sublist hsub
      simp [e] at hn
    have hy : y ∈ s.ctx.gDomain.priorityQueues (s.ctx.item s.ctx.active).prio := by simp [hq]
    have hb : Before s.ctx.gDomain s.ctx.active y := Or.inl ⟨_, hsub⟩
    have hb2 : Before (afterBoost s src).ctx.gDomain y s.ctx.active :=
      before_requeued hlists hlk (by omega) hy hyx
    by_cases hyi : y = idle
    · -- the idle item itself stands behind: a third item asks for the rescheduling
      obtain ⟨z, hzx, hzi⟩ := hz
      have hyp : (s.ctx.item y).prio = (s.ctx.item s.ctx.active).prio :=
        (h.ok.link_iff.mp ((hlists.mem_iff _ _).mp hy)).2.2
      obtain ⟨as, t, t2, hrun, hrun2, ht, ht2⟩ :=
        exists_left_both hN h hp h2 [s.ctx.active, y] (by simp [hyi])
      obtain ⟨w, hw⟩ := ht.run_appended hN hzi (by simp [hzx, hyi, hzi]) hzx rfl rfl (h.lt _ hl)
        (fun a ha => by simpa using ht.within a ha) (ht.order _ _ (by simp) (by simp) hb) []
      obtain ⟨w2, hw2⟩ := ht2.run_appended hN hzi (by simp [hzx, hyi, hzi]) hzx hyp rfl (h.lt _ hl)
        (fun a ha => by simpa [or_comm] using ht2.within a ha)
        (ht2.order _ _ (by simp) (by simp) hb2) []
      have he := hsame.seen ((run_append hrun).trans hw) ((run_append hrun2).trans hw2)
      exact hyx (by simpa using he.symm)
    · obtain ⟨as, t, t2, hrun, hrun2, ht, ht2⟩ :=
        exists_left_both hN h hp h2 [s.ctx.active, y, idle] (by simp)
      obtain ⟨w, hw⟩ := run_yield_idle hN ht.settled hi hyi
        (fun a ha => by simpa using ht.within a ha) (ht.order _ _ (by simp) (by simp) hb) []
      obtain ⟨w2, hw2⟩ := run_yield_idle hN ht2.settled hyi hi
        (fun a ha => by simpa [or_left_comm] using ht2.within a ha)
        (ht2.order _ _ (by simp) (by simp) hb2) []
      have he := hsame.seen ((run_append hrun).trans hw) ((run_append hrun2).trans hw2)
      exact hyx (by simpa using he.symm)

/-- **When a boost is invisible**: no continuation shows by the items returned that the active
    item was raised and lowered again exactly if the item was the last of its queue, and the
    two static variables held already what the raise saves there. -/
theorem boost_invisible_iff (hN : prioNum ≤ 1024) (h0 : 0 < prioNum) (idle x : I) {p : Nat}
    (h : Reach (schedStep prioNum idle) Always (schedBoot prioNum idle) s)
    (hp : s.ctx.reschedPending = false) (hx : s.ctx.active = x) (hpx : (s.ctx.item x).prio = p)
    (hsrc : src < p) (h1 : schedStep prioNum idle (.setParams x src) s = some s1)
    (h2 : schedStep prioNum idle (.setParams x p) s1 = some s2)
    (hz : ∃ z, z ≠ x ∧ z ≠ idle) :
    SameOrder prioNum idle s s2 ↔ s.ctx.timestamp = s.ctx.changesCounter ∧
      s.ctx.savedParams = p ∧ (s.ctx.gDomain.priorityQueues p).getLast? = some x := by
  have hset := atRest_of_reach hN h0 h
  have hset2 := (hset.step hN h1).step hN h2
  have hi : x ≠ idle := (taken h1).1.2.1
  subst hx hpx
  obtain ⟨hl, hc0⟩ := hset.active hp
  rw [boosted hc0 hsrc h1 h2] at hset2 ⊢
  constructor
  · intro hsame
    obtain ⟨ht, hs⟩ := hsame.variables hN hset hp hi
    exact ⟨ht, hs, hsame.last hN hset hp hi hsrc hset2 hz⟩
  · intro ⟨ht, hs, hlast⟩
    have hlk := hset.ok.linked_in hl hc0
    have hsame : afterBoost s src = s := by
      have hlt := hset.lt _ hl
      rw [afterBoost, requeued_last hset.ok.mpq hlk (by omega) (by omega) hlast, ← ht, ← hs]
    rw [hsame]
    exact Alike.refl _

end Unsichtbar

/-- An item alone at its priority, boosted a second time. -/
theorem boost_invisible_twice : ∃ s s1 s2 : SchedRun (Fin 4),
    Reach (schedStep 8 3) Always (schedBoot 8 3) s ∧
      schedStep 8 3 (.setParams 0 1) s = some s1 ∧ schedStep 8 3 (.setParams 0 5) s1 = some s2 ∧
      SameOrder 8 3 s s2 := by
  let as : List (SchedOp (Fin 4)) :=
    [.init 0 5, .resume 0, .getNext, .setParams 0 1, .setParams 0 5]
  have hrun : (run (schedStep 8 3) as (schedBoot 8 3)).any (fun s =>
      decide (s.ctx.reschedPending = false ∧ s.ctx.active = 0 ∧ (s.ctx.item 0).prio = 5 ∧
        s.ctx.timestamp = s.ctx.changesCounter ∧ s.ctx.savedParams = 5 ∧
        (s.ctx.gDomain.priorityQueues 5).getLast? = some 0) &&
      (schedStep 8 3 (.setParams 0 1) s).any fun s1 =>
        (schedStep 8 3 (.setParams 0 5) s1).isSome) = true := by decide +kernel
  obtain ⟨s, hr, hs⟩ := exists_of_run hrun
  obtain ⟨hs, hb⟩ := (Bool.and_eq_true ..).mp hs
  obtain ⟨hp, ha, hpr, ht, hsv, hlast⟩ := of_decide_eq_true hs
  obtain ⟨s1, h1, hb⟩ := (Option.any_eq_true ..).mp hb
  obtain ⟨s2, h2⟩ := Option.isSome_iff_exists.mp hb
  exact ⟨s, s1, s2, hr, h1, h2, (boost_invisible_iff (by decide) (by decide) 3 0 hr hp ha hpr
    (by decide) h1 h2 ⟨1, by decide, by decide⟩).mpr ⟨ht, hsv, hlast⟩⟩

/-- Items 0 and 1 share a priority and 0 is running. Item 2 preempts it and is suspended again:
    without the boost 0 goes on, after the boost 1 is returned in its place. -/
theorem boost_visible : ∃ s s1 s2 : SchedRun (Fin 4),
    Reach (schedStep 8 3) Always (schedBoot 8 3) s ∧ s.ctx.reschedPending = false ∧
      s.ctx.active = 0 ∧ (s.ctx.item 0).prio = 5 ∧
      schedStep 8 3 (.setParams 0 1) s = some s1 ∧ schedStep 8 3 (.setParams 0 5) s1 = some s2 ∧
      ¬ SameOrder 8 3 s s2 := by
  let as : List (SchedOp (Fin 4)) :=
    [.init 0 5, .resume 0, .init 1 5, .resume 1, .getNext]
  let bs : List (SchedOp (Fin 4)) := [.init 2 3, .resume 2, .getNext, .suspend, .getNext]
  have hrun : (run (schedStep 8 3) as (schedBoot 8 3)).any (fun s =>
      decide (s.ctx.reschedPending = false ∧ s.ctx.active = 0 ∧ (s.ctx.item 0).prio = 5 ∧
        (run (noted (schedStep 8 3) returned) bs (s, [])).map Prod.snd = some [2, 0]) &&
      (schedStep 8 3 (.setParams 0 1) s).any fun s1 =>
        (schedStep 8 3 (.setParams 0 5) s1).any fun s2 =>
          decide ((run (noted (schedStep 8 3) returned) bs (s2, [])).map Prod.snd =
            some [2, 1])) = true := by decide +kernel
  obtain ⟨s, hr, hs⟩ := exists_of_run hrun
  obtain ⟨hs, hb⟩ := (Bool.and_eq_true ..).mp hs
  obtain ⟨hp, ha, hpr, hout⟩ := of_decide_eq_true hs
  obtain ⟨s1, h1, hb⟩ := (Option.any_eq_true ..).mp hb
  obtain ⟨s2, h2, hb⟩ := (Option.any_eq_true ..).mp hb
  refine ⟨s, s1, s2, hr, hp, ha, hpr, h1, h2, fun hsame => ?_⟩
  have he := hsame bs
  rw [hout, of_decide_eq_true hb] at he
  cases he

end FxRtos
