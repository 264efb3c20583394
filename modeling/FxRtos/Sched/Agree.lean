/-
  File:      FxRtos/Sched/Agree.lean
  Subject:   THE TWO CONTAINERS AGREE. The uniprocessor scheduler over the bitmap container and
             over the multi-priority queue container, side by side.

  * `SchedOp.onDomain` -- what an operation does to its container. Only `fx_sched_get_next`
    looks at one: `exec_withDomain`.
  * `DomainsAgree` -- every slot holds the item that is linked at its priority; kept where an
    item is added at a free priority, and where a linked item is removed.
  * `containers_agree` -- in every run in which no two items are in the container with one
    priority, both schedulers have the same active item and the same pending flag, and select
    the same item.
-/
import FxRtos.Sched.Bitmap
import FxRtos.Sched.Priority

namespace FxRtos

open Function (update)
open Lib

/-! ## 1. The operations, over any container -/

section Betrieb

variable {I C D : Type} [DecidableEq I] [SchedAlg I C] [SchedAlg I D]

/-- `suspend` is of the active item. -/
def SchedOp.exec (c : SchedContext I C) : SchedOp I → SchedContext I C
  | .init x prio => fxSchedItemInit c x prio
  | .resume x => fxSchedItemResume c x
  | .suspend => fxSchedItemSuspend c c.active
  | .setParams x src => fxSchedItemSetParams c x src
  | .remove x => fxSchedItemRemove c x
  | .yield x => fxSchedYield c x
  | .getNext => (fxSchedGetNext c).2

/-- The same scheduler over another container. -/
def SchedContext.withDomain (c : SchedContext I C) (d : D) : SchedContext I D :=
  ⟨c.reschedPending, c.changesCounter, d, c.active, c.item, c.savedParams, c.timestamp⟩

/-- What an operation does to the container. -/
def SchedOp.onDomain (c : SchedContext I C) (d : D) : SchedOp I → D
  | .init _ _ => d
  | .resume x =>
    if (c.item x).suspendCount = 1 then SchedAlg.containerAdd d x (c.item x).prio else d
  | .suspend =>
    if (c.item c.active).suspendCount = 0 then
      SchedAlg.containerRemove d c.active (c.item c.active).prio
    else d
  | .setParams x src =>
    if (c.item x).suspendCount = 0 then
      SchedAlg.containerAdd (SchedAlg.containerRemove d x (c.item x).prio) x src
    else d
  | .remove x =>
    if (c.item x).suspendCount = 0 then SchedAlg.containerRemove d x (c.item x).prio else d
  | .yield x =>
    if (c.item x).suspendCount = 0 then
      SchedAlg.containerAdd (SchedAlg.containerRemove d x (c.item x).prio) x (c.item x).prio
    else d
  | .getNext => d

section Bausteine

variable (c : SchedContext I C) (d : D) (x : I)

omit [SchedAlg I C] [SchedAlg I D] in
@[simp] theorem setItem_withDomain (i : SchedItem) :
    (c.withDomain d).setItem x i = (c.setItem x i).withDomain d := rfl

omit [DecidableEq I] in
@[simp] theorem remove_withDomain : (c.withDomain d).remove x =
    (c.remove x).withDomain (SchedAlg.containerRemove d x (c.item x).prio) := rfl

omit [DecidableEq I] in
@[simp] theorem add_withDomain : (c.withDomain d).add x =
    (c.add x).withDomain (SchedAlg.containerAdd d x (c.item x).prio) := rfl

omit [DecidableEq I] [SchedAlg I C] [SchedAlg I D] in
@[simp] theorem countChange_withDomain :
    (c.withDomain d).countChange = c.countChange.withDomain d := rfl

omit [DecidableEq I] [SchedAlg I C] [SchedAlg I D] in
@[simp] theorem mark_withDomain :
    fxSchedMarkReschedNeeded (c.withDomain d) = (fxSchedMarkReschedNeeded c).withDomain d := rfl

omit [SchedAlg I C] [SchedAlg I D] in
@[simp] theorem paramsChange_withDomain (src : Nat) :
    (c.withDomain d).paramsChange x src = (c.paramsChange x src).withDomain d := by
  unfold SchedContext.paramsChange
  rw [apply_ite fun e : SchedContext I C => e.withDomain d,
    apply_ite fun e : SchedContext I C => e.withDomain d]
  rfl

omit [DecidableEq I] [SchedAlg I C] [SchedAlg I D] in
@[simp] theorem withDomain_item : (c.withDomain d).item = c.item := rfl

omit [DecidableEq I] in
@[simp] theorem remove_item : (c.remove x).item = c.item := rfl

omit [DecidableEq I] [SchedAlg I C] [SchedAlg I D] in
@[simp] theorem withDomain_active : (c.withDomain d).active = c.active := rfl

end Bausteine

/-- **Only the selection looks at the container.** -/
theorem exec_withDomain (c : SchedContext I C) (d : D) {op : SchedOp I} (hop : op ≠ .getNext) :
    op.exec (c.withDomain d) = (op.exec c).withDomain (op.onDomain c d) := by
  cases op with
  | init x prio => rfl
  | resume x =>
    show fxSchedItemResume (c.withDomain d) x =
      (fxSchedItemResume c x).withDomain (if _ then _ else _)
    unfold fxSchedItemResume
    rw [withDomain_item]
    by_cases hpos : 0 < (c.item x).suspendCount
    · rw [if_pos hpos, if_pos hpos]
      by_cases h1 : (c.item x).suspendCount = 1
      · have h0 : (c.item x).suspendCount - 1 = 0 := by omega
        rw [if_pos h0, if_pos h0, if_pos h1]
        rw [apply_ite fun e : SchedContext I C => e.withDomain _]
        simp only [setItem_withDomain, add_withDomain, setItem_item, Function.update_self]
        rfl
      · rw [if_neg h1]
        simp only
        rw [if_neg (by omega), if_neg (by omega), setItem_withDomain]
    · rw [if_neg hpos, if_neg hpos, if_neg (by omega)]
  | suspend =>
    show fxSchedItemSuspend (c.withDomain d) c.active =
      (fxSchedItemSuspend c c.active).withDomain (if _ then _ else _)
    unfold fxSchedItemSuspend
    rw [withDomain_item]
    by_cases h0 : (c.item c.active).suspendCount = 0
    · simp [h0]
    · simp [h0]
  | setParams x src =>
    show fxSchedItemSetParams (c.withDomain d) x src =
      (fxSchedItemSetParams c x src).withDomain (if _ then _ else _)
    unfold fxSchedItemSetParams
    rw [withDomain_item]
    by_cases h0 : (c.item x).suspendCount = 0
    · simp [h0]
    · simp [h0]
  | remove x =>
    show fxSchedItemRemove (c.withDomain d) x =
      (fxSchedItemRemove c x).withDomain (if _ then _ else _)
    unfold fxSchedItemRemove
    rw [withDomain_item]
    by_cases h0 : (c.item x).suspendCount = 0
    · by_cases ha : c.active = x
      · simp [h0, ha]
      · simp [h0, ha]
    · simp [h0]
  | yield x =>
    show fxSchedYield (c.withDomain d) x = (fxSchedYield c x).withDomain (if _ then _ else _)
    unfold fxSchedYield
    rw [withDomain_item]
    by_cases h0 : (c.item x).suspendCount = 0
    · simp [h0]
    · simp [h0]
  | getNext => exact absurd rfl hop

theorem exec_gDomain (c : SchedContext I C) (op : SchedOp I) (hop : op ≠ .getNext) :
    (op.exec c).gDomain = op.onDomain c c.gDomain :=
  congrArg SchedContext.gDomain (exec_withDomain c c.gDomain hop)

omit [DecidableEq I] in
/-- The selection, where both containers find the same. -/
theorem getNext_withDomain (c : SchedContext I C) (d : D) (hget : c.reschedPending = true →
    SchedAlg.containerGet d = SchedAlg.containerGet c.gDomain) :
    fxSchedGetNext (c.withDomain d) =
      ((fxSchedGetNext c).1, (fxSchedGetNext c).2.withDomain d) := by
  unfold fxSchedGetNext
  by_cases hp : c.reschedPending = true
  · have hp' : (c.withDomain d).reschedPending = true := hp
    have hget' : SchedAlg.containerGet (c.withDomain d).gDomain = _ := hget hp
    rw [if_pos hp, if_pos hp', hget']
    cases SchedAlg.containerGet c.gDomain with
    | none => rfl
    | some x => rfl
  · have hp' : ¬ (c.withDomain d).reschedPending = true := hp
    rw [if_neg hp, if_neg hp']

end Betrieb

/-! ## 2. Slots and queues -/

variable {I : Type} [DecidableEq I]

/-- A slot holds the item that is linked at its priority, and its bit says whether it does. -/
structure DomainsAgree (b : BitmapContainer I) (m : MpqContainer I) : Prop where
  slot : ∀ p x, b.items p = some x ↔ m.link x = some p
  bit : ∀ p, p < 32 → b.itemsMap.getLsbD p = (b.items p).isSome
  lt : ∀ x p, m.link x = some p → p < 32

section Schritte

variable {b : BitmapContainer I} {m : MpqContainer I} {x : I} {p : Nat}

omit [DecidableEq I] in
theorem domainsAgree_init : DomainsAgree (BitmapContainer.init I) (fxSchedContainerInit I) := by
  refine ⟨fun p x => iff_of_false nofun nofun, fun p _ => ?_, nofun⟩
  simp [BitmapContainer.init]

omit [DecidableEq I] in
/-- At most one item has a priority. -/
theorem DomainsAgree.unique (h : DomainsAgree b m) {y : I} (hx : m.link x = some p)
    (hy : m.link y = some p) : x = y :=
  Option.some.inj (((h.slot p x).mpr hx).symm.trans ((h.slot p y).mpr hy))

/-- An item added at a priority that no other item has. -/
theorem DomainsAgree.add (h : DomainsAgree b m) (hp : p < 32) (hx : m.link x = none)
    (hfree : ∀ y, m.link y ≠ some p) : DomainsAgree (b.add x p) (fxSchedContainerAdd m x p) := by
  refine ⟨fun q y => ?_, fun q hq => ?_, fun y q hy => ?_⟩
  · show update b.items p (some x) q = some y ↔ _
    rw [fxSchedContainerAdd_link]
    by_cases hq : q = p
    · subst hq
      rw [Function.update_self]
      by_cases hy : y = x
      · rw [hy, Function.update_self]
        exact iff_of_true rfl rfl
      · rw [Function.update_of_ne hy]
        exact iff_of_false (fun e => hy (Option.some.inj e).symm) (hfree y)
    · rw [Function.update_of_ne hq, h.slot]
      by_cases hy : y = x
      · rw [hy, Function.update_self, hx]
        exact iff_of_false nofun fun e => hq (Option.some.inj e).symm
      · rw [Function.update_of_ne hy]
  · show (b.itemsMap ||| 1#32 <<< p).getLsbD q = (update b.items p (some x) q).isSome
    rw [Lib.getLsbD_setBit hq]
    by_cases hqp : q = p
    · rw [hqp, Function.update_self, decide_eq_true rfl, Bool.or_true]
      rfl
    · rw [Function.update_of_ne hqp, decide_eq_false (Ne.symm hqp), Bool.or_false, h.bit q hq]
  · rw [fxSchedContainerAdd_link] at hy
    by_cases hyx : y = x
    · rw [hyx, Function.update_self] at hy
      cases hy
      exact hp
    · rw [Function.update_of_ne hyx] at hy
      exact h.lt y q hy

/-- A linked item removed. -/
theorem DomainsAgree.remove (h : DomainsAgree b m) (hx : m.link x = some p) :
    DomainsAgree (b.remove p) (fxSchedContainerRemove m x p) := by
  refine ⟨fun q y => ?_, fun q hq => ?_, fun y q hy => ?_⟩
  · show update b.items p none q = some y ↔ _
    rw [fxSchedContainerRemove_link]
    by_cases hy : y = x
    · rw [hy, Function.update_self]
      refine iff_of_false (fun e => ?_) nofun
      by_cases hq : q = p
      · rw [hq, Function.update_self] at e
        cases e
      · rw [Function.update_of_ne hq, h.slot, hx] at e
        exact hq (Option.some.inj e).symm
    · rw [Function.update_of_ne hy]
      by_cases hq : q = p
      · rw [hq, Function.update_self]
        exact iff_of_false nofun fun e => hy (h.unique e hx)
      · rw [Function.update_of_ne hq]
        exact h.slot q y
  · show (b.itemsMap &&& ~~~(1#32 <<< p)).getLsbD q = (update b.items p none q).isSome
    rw [Lib.getLsbD_clearBit hq]
    by_cases hqp : q = p
    · simp [hqp]
    · rw [Function.update_of_ne hqp, decide_eq_true (Ne.symm hqp), Bool.and_true, h.bit q hq]
  · rw [fxSchedContainerRemove_link] at hy
    by_cases hyx : y = x
    · rw [hyx, Function.update_self] at hy
      cases hy
    · rw [Function.update_of_ne hyx] at hy
      exact h.lt y q hy

omit [DecidableEq I] in
/-- **Both searches find the same item.** -/
theorem DomainsAgree.get (h : DomainsAgree b m) (hm : MpqInv m) (hx : m.link x = some p) :
    b.get = fxSchedContainerGet m := by
  obtain ⟨y, q, _, hget, _, hy, hmin⟩ := fxSchedContainerGet_spec hm hx
  rw [hget]
  -- the bit of `q` is set, and no lower one
  have hbit : ∀ z r, m.link z = some r → b.itemsMap.getLsbD r = true := by
    intro z r hz
    rw [h.bit r (h.lt z r hz), (h.slot r z).mpr hz]
    rfl
  have hne : b.itemsMap ≠ 0#32 := Lib.ne_zero_iff_bit.mpr ⟨q, h.lt y q hy, hbit y q hy⟩
  have hsome := h.bit _ (Lib.ctz_lt hne)
  rw [BitVec.getLsbD_true_ctz_of_ne_zero hne] at hsome
  obtain ⟨z, hz⟩ := Option.isSome_iff_exists.mp hsome.symm
  have hle := hmin z _ ((h.slot _ z).mp hz)
  have hge : b.itemsMap.ctz.toNat ≤ q := by
    refine Nat.le_of_not_lt fun hlt => ?_
    have := hbit y q hy
    rw [BitVec.getLsbD_false_of_lt_ctz hlt] at this
    cases this
  unfold BitmapContainer.get
  rw [Nat.le_antisymm hge hle]
  exact (h.slot q y).mpr hy

end Schritte

/-! ## 3. Both schedulers in a run -/

/-- The two schedulers; `mpq.live` are the items initialized and not removed since. -/
structure SchedPair (I : Type) where
  mpq : SchedRun I
  bitmap : SchedContext I (BitmapContainer I)

/-- No item but `x` is in the container with the priority. -/
def SchedPair.Free (s : SchedPair I) (x : I) (prio : Nat) : Prop :=
  ∀ y, y ≠ x → s.mpq.ctx.gDomain.link y ≠ some prio

/-- Priorities are below 32; items are used from their initialization to their removal; and no
    item comes into the container at a priority that is taken there. -/
def SchedPair.Allowed (s : SchedPair I) : SchedOp I → Prop
  | .init x prio => s.mpq.ctx.gDomain.link x = none ∧ prio < 32
  | .resume x => s.mpq.live x = true ∧
    ((s.mpq.ctx.item x).suspendCount = 1 → s.Free x (s.mpq.ctx.item x).prio)
  | .suspend => s.mpq.live s.mpq.ctx.active = true
  | .setParams x src => s.mpq.live x = true ∧ src < 32 ∧
    ((s.mpq.ctx.item x).suspendCount = 0 → s.Free x src)
  | .yield x => s.mpq.live x = true
  | .remove x => s.mpq.live x = true
  | .getNext => s.mpq.ctx.reschedPending = true → ∃ x, InContainer s.mpq.ctx x

/-- The items in use after an operation. -/
def SchedOp.liveAfter (live : I → Bool) : SchedOp I → I → Bool
  | .init x _ => update live x true
  | .remove x => update live x false
  | _ => live

/-- The same operation of both. -/
def pairStep (op : SchedOp I) (s : SchedPair I) : Option (SchedPair I) :=
  some ⟨⟨op.exec s.mpq.ctx, op.liveAfter s.mpq.live⟩, op.exec s.bitmap⟩

/-- Both with the idle item initialized. -/
def pairStart (idle : I) : SchedPair I :=
  let c := fxSchedItemInitIdle (fxSchedCtor idle) idle 31
  ⟨⟨c, update (fun _ => false) idle true⟩, c.withDomain (.init I)⟩

/-- The schedulers differ in their containers only, and these agree. -/
structure PairInv (s : SchedPair I) : Prop where
  ok : SchedOk (fun x => s.mpq.live x = true) s.mpq.ctx
  same : s.bitmap = s.mpq.ctx.withDomain s.bitmap.gDomain
  domains : DomainsAgree s.bitmap.gDomain s.mpq.ctx.gDomain
  lt : ∀ x, s.mpq.live x = true → (s.mpq.ctx.item x).prio < 32

section Lauf

variable {s s' : SchedPair I} {op : SchedOp I} {x : I} {prio : Nat}

theorem pairInv_start (idle : I) : PairInv (pairStart idle) := by
  have hok : SchedOk (fun _ => False) (fxSchedCtor idle) :=
    ⟨mpqInv_init, rfl, nofun, fun _ _ => rfl, nofun⟩
  refine ⟨?_, rfl, domainsAgree_init, fun x hx => ?_⟩
  · refine SchedOk.congr (hok.itemInit rfl (by decide) fun y => ?_) rfl rfl
    show update (fun _ => false) idle true y = true ↔ _
    by_cases hy : y = idle
    · simp [hy]
    · simp [hy]
  · have hx' : update (fun _ => false) idle true x = true := hx
    show (update (fun _ => SchedItem.mk 0 0) idle ⟨1, 31⟩ x).prio < 32
    by_cases hxi : x = idle
    · rw [hxi, Function.update_self]
      decide
    · rw [Function.update_of_ne hxi] at hx'
      cases hx'

/-- An item removed and added again at a priority that no other item has. -/
theorem DomainsAgree.move {b : BitmapContainer I} {m : MpqContainer I} {p : Nat}
    (h : DomainsAgree b m) (hx : m.link x = some p) (hprio : prio < 32)
    (hfree : ∀ y, y ≠ x → m.link y ≠ some prio) :
    DomainsAgree ((b.remove p).add x prio)
      (fxSchedContainerAdd (fxSchedContainerRemove m x p) x prio) := by
  refine (h.remove hx).add hprio ?_ fun y => ?_
  · rw [fxSchedContainerRemove_link, Function.update_self]
  · rw [fxSchedContainerRemove_link]
    by_cases hyx : y = x
    · rw [hyx, Function.update_self]
      exact nofun
    · rw [Function.update_of_ne hyx]
      exact hfree y hyx

/-- What an allowed operation does to both containers. -/
theorem PairInv.onDomain (h : PairInv s) (ha : s.Allowed op) :
    DomainsAgree (op.onDomain s.mpq.ctx s.bitmap.gDomain)
      (op.onDomain s.mpq.ctx s.mpq.ctx.gDomain) := by
  cases op with
  | init x prio => exact h.domains
  | resume x =>
    by_cases h1 : (s.mpq.ctx.item x).suspendCount = 1
    · have hx : s.mpq.ctx.gDomain.link x = none := h.ok.linked_out (by omega)
      simp only [SchedOp.onDomain, if_pos h1]
      refine h.domains.add (h.lt x ha.1) hx fun y => ?_
      by_cases hyx : y = x
      · rw [hyx, hx]
        exact nofun
      · exact ha.2 h1 y hyx
    · simp only [SchedOp.onDomain, if_neg h1]
      exact h.domains
  | suspend =>
    by_cases h0 : (s.mpq.ctx.item s.mpq.ctx.active).suspendCount = 0
    · simp only [SchedOp.onDomain, if_pos h0]
      exact h.domains.remove (h.ok.linked_in ha h0)
    · simp only [SchedOp.onDomain, if_neg h0]
      exact h.domains
  | setParams x src =>
    by_cases h0 : (s.mpq.ctx.item x).suspendCount = 0
    · simp only [SchedOp.onDomain, if_pos h0]
      exact h.domains.move (h.ok.linked_in ha.1 h0) ha.2.1 (ha.2.2 h0)
    · simp only [SchedOp.onDomain, if_neg h0]
      exact h.domains
  | yield x =>
    by_cases h0 : (s.mpq.ctx.item x).suspendCount = 0
    · have hx := h.ok.linked_in ha h0
      simp only [SchedOp.onDomain, if_pos h0]
      exact h.domains.move hx (h.lt x ha) fun y hyx hy => hyx (h.domains.unique hy hx)
    · simp only [SchedOp.onDomain, if_neg h0]
      exact h.domains
  | remove x =>
    by_cases h0 : (s.mpq.ctx.item x).suspendCount = 0
    · simp only [SchedOp.onDomain, if_pos h0]
      exact h.domains.remove (h.ok.linked_in ha h0)
    · simp only [SchedOp.onDomain, if_neg h0]
      exact h.domains
  | getNext => exact h.domains

/-- The items in use stay in order, whatever the container. -/
theorem PairInv.exec_ok (h : PairInv s) (ha : s.Allowed op) :
    SchedOk (fun x => op.liveAfter s.mpq.live x = true) (op.exec s.mpq.ctx) := by
  cases op with
  | init x prio =>
    refine h.ok.itemInit ha.1 (Nat.lt_trans ha.2 (by decide)) fun y => ?_
    show update s.mpq.live x true y = true ↔ _
    by_cases hyx : y = x
    · simp [hyx]
    · simp [hyx]
  | resume x => exact h.ok.itemResume ha.1
  | suspend => exact h.ok.itemSuspend ha
  | setParams x src =>
    exact h.ok.itemSetParams (Or.inl ha.1) (Nat.lt_trans ha.2.1 (by decide))
  | yield x => exact h.ok.yield ha
  | remove x =>
    refine h.ok.itemRemove ha fun y => ?_
    show update s.mpq.live x false y = true ↔ _
    by_cases hyx : y = x
    · simp [hyx]
    · simp [hyx]
  | getNext => exact h.ok.getNext

/-- The priorities of the items in use after an operation. -/
theorem PairInv.exec_lt (h : PairInv s) (ha : s.Allowed op) (x : I)
    (hx : op.liveAfter s.mpq.live x = true) : ((op.exec s.mpq.ctx).item x).prio < 32 := by
  have hother : ∀ y i, s.mpq.live x = true → (y = x → i.prio < 32) →
      (update s.mpq.ctx.item y i x).prio < 32 := by
    intro y i hl hi
    by_cases hxy : x = y
    · rw [hxy, Function.update_self]
      exact hi hxy.symm
    · rw [Function.update_of_ne hxy]
      exact h.lt x hl
  cases op with
  | init y prio =>
    show (update s.mpq.ctx.item y ⟨1, prio⟩ x).prio < 32
    by_cases hxy : x = y
    · rw [hxy, Function.update_self]
      exact ha.2
    · have hx' : update s.mpq.live y true x = true := hx
      rw [Function.update_of_ne hxy] at hx' ⊢
      exact h.lt x hx'
  | resume y =>
    show ((fxSchedItemResume s.mpq.ctx y).item x).prio < 32
    rw [fxSchedItemResume_item]
    exact hother y _ hx fun e => e ▸ h.lt x hx
  | suspend =>
    show ((fxSchedItemSuspend s.mpq.ctx s.mpq.ctx.active).item x).prio < 32
    rw [fxSchedItemSuspend_item]
    exact hother _ _ hx fun e => e ▸ h.lt x hx
  | setParams y src =>
    show ((fxSchedItemSetParams s.mpq.ctx y src).item x).prio < 32
    rw [fxSchedItemSetParams_item]
    exact hother y _ hx fun _ => ha.2.1
  | yield y =>
    show ((fxSchedYield s.mpq.ctx y).item x).prio < 32
    rw [fxSchedYield_item]
    exact h.lt x hx
  | remove y =>
    show ((fxSchedItemRemove s.mpq.ctx y).item x).prio < 32
    rw [fxSchedItemRemove_item]
    have hx' : update s.mpq.live y false x = true := hx
    by_cases hxy : x = y
    · rw [hxy, Function.update_self] at hx'
      cases hx'
    · rw [Function.update_of_ne hxy] at hx'
      exact h.lt x hx'
  | getNext =>
    show ((fxSchedGetNext s.mpq.ctx).2.item x).prio < 32
    rw [fxSchedGetNext_item]
    exact h.lt x hx

/-- The selection, by both. -/
theorem PairInv.getNext (h : PairInv s) (ha : s.Allowed .getNext) : fxSchedGetNext s.bitmap =
    ((fxSchedGetNext s.mpq.ctx).1, (fxSchedGetNext s.mpq.ctx).2.withDomain s.bitmap.gDomain) := by
  rw [h.same]
  refine getNext_withDomain s.mpq.ctx s.bitmap.gDomain fun hp => ?_
  obtain ⟨x, hx⟩ := ha hp
  obtain ⟨p, hp⟩ := Option.isSome_iff_exists.mp hx
  exact h.domains.get h.ok.mpq hp

theorem PairInv.step (h : PairInv s) (ha : s.Allowed op) (hs : pairStep op s = some s') :
    PairInv s' := by
  cases hs
  by_cases hop : op = .getNext
  · subst hop
    have hb : SchedOp.exec s.bitmap .getNext =
        (fxSchedGetNext s.mpq.ctx).2.withDomain s.bitmap.gDomain :=
      congrArg Prod.snd (h.getNext ha)
    refine ⟨h.exec_ok ha, ?_, ?_, h.exec_lt ha⟩
    · show SchedOp.exec s.bitmap .getNext = _
      rw [hb]
      rfl
    · show DomainsAgree (SchedOp.exec s.bitmap .getNext).gDomain
        (fxSchedGetNext s.mpq.ctx).2.gDomain
      rw [hb, fxSchedGetNext_gDomain]
      exact h.domains
  · have hb : op.exec s.bitmap =
        (op.exec s.mpq.ctx).withDomain (op.onDomain s.mpq.ctx s.bitmap.gDomain) := by
      rw [← exec_withDomain s.mpq.ctx s.bitmap.gDomain hop, ← h.same]
    refine ⟨h.exec_ok ha, ?_, ?_, h.exec_lt ha⟩
    · show op.exec s.bitmap = _
      rw [hb]
      rfl
    · show DomainsAgree (op.exec s.bitmap).gDomain (op.exec s.mpq.ctx).gDomain
      rw [hb, exec_gDomain s.mpq.ctx _ hop]
      exact h.onDomain ha

end Lauf

/-- **The two containers agree**: in every run, the schedulers over them have the same active
    item and the same pending flag, and select the same item. -/
theorem containers_agree {idle : I} {s : SchedPair I}
    (hr : Reach pairStep SchedPair.Allowed (pairStart idle) s) :
    s.bitmap.active = s.mpq.ctx.active ∧
    s.bitmap.reschedPending = s.mpq.ctx.reschedPending ∧
    (s.Allowed .getNext → (fxSchedGetNext s.bitmap).1 = (fxSchedGetNext s.mpq.ctx).1) := by
  have h : PairInv s := hr.inv (pairInv_start idle) fun _ _ _ hi hg hs => hi.step hg hs
  refine ⟨?_, ?_, fun ha => congrArg Prod.fst (h.getNext ha)⟩
  · rw [h.same]
    rfl
  · rw [h.same]
    rfl

instance decidablePairAllowed [Fintype I] (s : SchedPair I) :
    (op : SchedOp I) → Decidable (s.Allowed op)
  | .init _ _ => inferInstanceAs (Decidable (_ ∧ _))
  | .resume _ => inferInstanceAs (Decidable (_ ∧ (_ → ∀ _, _ → _)))
  | .suspend => inferInstanceAs (Decidable (_ = _))
  | .setParams _ _ => inferInstanceAs (Decidable (_ ∧ _ ∧ (_ → ∀ _, _ → _)))
  | .yield _ => inferInstanceAs (Decidable (_ = _))
  | .remove _ => inferInstanceAs (Decidable (_ = _))
  | .getNext => inferInstanceAs (Decidable (_ → ∃ _, _))

/-- Item 1 takes the priority that item 0 has left for a stronger one. -/
theorem containers_agree_moved : ∃ s : SchedPair (Fin 3), (s.mpq.ctx.item 1).prio = 5 ∧
    (s.mpq.ctx.item 0).prio = 3 ∧ s.mpq.ctx.active = 0 ∧ s.bitmap.active = s.mpq.ctx.active := by
  have hrun : (runIf (fun s a => decide (SchedPair.Allowed s a)) pairStep
      [.resume 2, .getNext, .init 0 5, .resume 0, .getNext, .setParams 0 3, .init 1 5, .resume 1,
        .getNext] (pairStart (2 : Fin 3))).any (fun s => decide ((s.mpq.ctx.item 1).prio = 5 ∧
      (s.mpq.ctx.item 0).prio = 3 ∧ s.mpq.ctx.active = 0)) = true := by
    decide +kernel
  obtain ⟨s, hreach, hs⟩ := exists_of_runIf (fun _ _ h => of_decide_eq_true h) hrun
  obtain ⟨h1, h0, ha⟩ := of_decide_eq_true hs
  exact ⟨s, h1, h0, ha, (containers_agree hreach).1⟩

end FxRtos
