/-
  File:      FxRtos/Sched/Bitmap.lean
  Subject:   THE BITMAP CONTAINER (fx_sched_alg.h, BITMAP) under the uniprocessor scheduler: one
             slot for each priority, and one word with a bit for each slot in use.

  * `BitmapContainer` -- an instance of FX_SCHED_ALG; `unsigned int` has 32 bits. Adding an item
    overwrites its slot, whoever holds it: the container is for items of distinct priorities.
  * `BitmapOk` -- the items have distinct priorities below 32; a slot is in use exactly if its
    owner is not suspended.
  * `BitmapOk.getNext_spec` -- the item selected is ready, and no ready item is stronger.
-/
import FxRtos.Sched.Sched

namespace FxRtos

open Function (update)

/-! ## 1. The container -/

/-- `fx_sched_container_t` of BITMAP. -/
structure BitmapContainer (I : Type) where
  itemsMap : BitVec 32
  items : Nat → Option I

/-- `fx_sched_container_init`; the items array is expected to be zero. -/
def BitmapContainer.init (I : Type) : BitmapContainer I := ⟨0#32, fun _ => none⟩

variable {I : Type}

/-- `fx_sched_container_add`. -/
def BitmapContainer.add (c : BitmapContainer I) (x : I) (prio : Nat) : BitmapContainer I where
  items := update c.items prio (some x)
  itemsMap := c.itemsMap ||| 1#32 <<< prio

/-- `fx_sched_container_remove`: the slot is cleared, the item itself is not looked at. -/
def BitmapContainer.remove (c : BitmapContainer I) (prio : Nat) : BitmapContainer I where
  items := update c.items prio none
  itemsMap := c.itemsMap &&& ~~~(1#32 <<< prio)

/-- `fx_sched_container_get`: the slot of the lowest bit set. -/
def BitmapContainer.get (c : BitmapContainer I) : Option I := c.items c.itemsMap.ctz.toNat

instance : SchedAlg I (BitmapContainer I) where
  containerAdd := BitmapContainer.add
  containerRemove c _ prio := c.remove prio
  containerGet := BitmapContainer.get

/-- `fx_sched_ctor` and the idle item: initialized, resumed, active from the start. `prio` are
    the priorities of the items, all of them initialized. -/
def bitmapCtor [DecidableEq I] (idle : I) (prio : I → Nat) :
    SchedContext I (BitmapContainer I) :=
  fxSchedItemResume
    { reschedPending := false, changesCounter := 0, gDomain := .init I, active := idle
      item := fun x => ⟨1, prio x⟩, savedParams := 0, timestamp := 0 } idle

/-! ## 2. Items and container agree -/

/-- The container has a slot for every item, the map marks the slots in use, and in use is the
    slot of an item that is not suspended. -/
structure BitmapOk (c : SchedContext I (BitmapContainer I)) : Prop where
  inj : ∀ x y, (c.item x).prio = (c.item y).prio → x = y
  lt : ∀ x, (c.item x).prio < 32
  slot : ∀ p x, c.gDomain.items p = some x ↔
    (c.item x).prio = p ∧ (c.item x).suspendCount = 0
  bit : ∀ p, p < 32 → c.gDomain.itemsMap.getLsbD p = (c.gDomain.items p).isSome

variable {c : SchedContext I (BitmapContainer I)} {x : I}

/-- Only the container and the items matter. -/
theorem BitmapOk.congr {c' : SchedContext I (BitmapContainer I)} (h : BitmapOk c)
    (hd : c'.gDomain = c.gDomain) (hi : c'.item = c.item) : BitmapOk c' := by
  refine ⟨?_, ?_, ?_, ?_⟩
  · rw [hi]; exact h.inj
  · rw [hi]; exact h.lt
  · rw [hd, hi]; exact h.slot
  · rw [hd]; exact h.bit

variable [DecidableEq I]

/-- The count of one item changed, and its slot and bit with it. -/
theorem BitmapOk.reslot (h : BitmapOk c) {c' : SchedContext I (BitmapContainer I)} (n : Nat)
    (hi : c'.item = update c.item x ⟨n, (c.item x).prio⟩)
    (hs : c'.gDomain.items =
      update c.gDomain.items (c.item x).prio (if n = 0 then some x else none))
    (hb : ∀ p, p < 32 → c'.gDomain.itemsMap.getLsbD p =
      if p = (c.item x).prio then decide (n = 0) else c.gDomain.itemsMap.getLsbD p) :
    BitmapOk c' := by
  have hprio : ∀ y, (c'.item y).prio = (c.item y).prio := by
    intro y
    rw [hi]
    by_cases hyx : y = x
    · rw [hyx, Function.update_self]
    · rw [Function.update_of_ne hyx]
  refine ⟨fun y z hyz => h.inj y z ?_, fun y => ?_, fun p y => ?_, fun p hp => ?_⟩
  · exact (hprio y).symm.trans (hyz.trans (hprio z))
  · rw [hprio y]
    exact h.lt y
  · rw [hs, hprio]
    by_cases hpx : p = (c.item x).prio
    · -- its own slot holds it if it is ready, and nobody else
      subst hpx
      rw [Function.update_self]
      constructor
      · intro e
        obtain ⟨h0, e'⟩ := Option.ite_none_right_eq_some.mp e
        obtain rfl := Option.some.inj e'
        rw [hi, Function.update_self]
        exact ⟨rfl, h0⟩
      · rintro ⟨e, e0⟩
        obtain rfl := h.inj y x e
        rw [hi, Function.update_self] at e0
        exact if_pos e0
    · rw [Function.update_of_ne hpx, h.slot]
      refine and_congr_right fun e => ?_
      have hyx : y ≠ x := by
        rintro rfl
        exact hpx e.symm
      rw [hi, Function.update_of_ne hyx]
  · rw [hb p hp, hs]
    by_cases hpx : p = (c.item x).prio
    · subst hpx
      rw [if_pos rfl, Function.update_self]
      by_cases h0 : n = 0
      · simp [h0]
      · simp [h0]
    · rw [if_neg hpx, Function.update_of_ne hpx]
      exact h.bit p hp

/-- Suspending an item that is ready clears its slot. -/
theorem fxSchedItemSuspend_gDomain (c : SchedContext I (BitmapContainer I)) (x : I) :
    (fxSchedItemSuspend c x).gDomain =
      if (c.item x).suspendCount = 0 then c.gDomain.remove (c.item x).prio else c.gDomain := by
  have hd : ((c.setItem x ⟨(c.item x).suspendCount + 1, (c.item x).prio⟩).remove x).gDomain =
      c.gDomain.remove (c.item x).prio := by
    show c.gDomain.remove (update c.item x _ x).prio = _
    rw [Function.update_self]
  unfold fxSchedItemSuspend
  split
  · exact hd
  · rfl

theorem BitmapOk.itemSuspend (h : BitmapOk c) (x : I) : BitmapOk (fxSchedItemSuspend c x) := by
  -- a suspended item has an empty slot already
  have hnone : (c.item x).suspendCount ≠ 0 → c.gDomain.items (c.item x).prio = none := by
    refine fun h0 => Option.eq_none_iff_forall_ne_some.mpr fun y hy => ?_
    obtain ⟨e, e0⟩ := (h.slot _ y).mp hy
    rw [h.inj y x e] at e0
    exact h0 e0
  refine h.reslot (x := x) ((c.item x).suspendCount + 1) (fxSchedItemSuspend_item c x) ?_ ?_
  · rw [fxSchedItemSuspend_gDomain, if_neg (Nat.succ_ne_zero _)]
    split
    · rfl
    · rename_i h0
      rw [← hnone h0, Function.update_eq_self]
  · intro p hp
    rw [fxSchedItemSuspend_gDomain]
    split
    · show (c.gDomain.itemsMap &&& ~~~(1#32 <<< (c.item x).prio)).getLsbD p = _
      rw [Lib.getLsbD_clearBit hp]
      by_cases hpx : p = (c.item x).prio
      · simp [hpx]
      · simp [hpx, Ne.symm hpx]
    · rename_i h0
      split
      · rename_i hpx
        rw [h.bit p hp, hpx, hnone h0]
        rfl
      · rfl

/-- Resuming an item that is suspended once puts it into its slot. -/
theorem fxSchedItemResume_gDomain (c : SchedContext I (BitmapContainer I)) (x : I) :
    (fxSchedItemResume c x).gDomain =
      if (c.item x).suspendCount = 1 then c.gDomain.add x (c.item x).prio else c.gDomain := by
  unfold fxSchedItemResume
  by_cases hpos : 0 < (c.item x).suspendCount
  · rw [if_pos hpos]
    by_cases h1 : (c.item x).suspendCount = 1
    · have h0 : (c.item x).suspendCount - 1 = 0 := by omega
      have hd : ((c.setItem x ⟨(c.item x).suspendCount - 1, (c.item x).prio⟩).add x).gDomain =
          c.gDomain.add x (c.item x).prio := by
        show c.gDomain.add x (update c.item x _ x).prio = _
        rw [Function.update_self]
      rw [if_pos h1, ← hd]
      simp only
      rw [if_pos h0]
      split <;> rfl
    · have h0 : (c.item x).suspendCount - 1 ≠ 0 := by omega
      rw [if_neg h1]
      simp only
      rw [if_neg h0]
      rfl
  · rw [if_neg hpos, if_neg (by omega)]

theorem BitmapOk.itemResume (h : BitmapOk c) (x : I) : BitmapOk (fxSchedItemResume c x) := by
  refine h.reslot (x := x) ((c.item x).suspendCount - 1) (fxSchedItemResume_item c x) ?_ ?_
  · rw [fxSchedItemResume_gDomain]
    split
    · rename_i h1
      rw [h1]
      rfl
    · rename_i h1
      -- nothing is put in: the slot is as it has to be
      refine (Function.update_eq_self_iff.mpr ?_).symm
      split
      · rename_i h0
        exact ((h.slot _ x).mpr ⟨rfl, by omega⟩).symm
      · rename_i h0
        refine (Option.eq_none_iff_forall_ne_some.mpr fun y hy => ?_).symm
        obtain ⟨e, e0⟩ := (h.slot _ y).mp hy
        rw [h.inj y x e] at e0
        omega
  · intro p hp
    rw [fxSchedItemResume_gDomain]
    split
    · rename_i h1
      show (c.gDomain.itemsMap ||| 1#32 <<< (c.item x).prio).getLsbD p = _
      rw [Lib.getLsbD_setBit hp]
      by_cases hpx : p = (c.item x).prio
      · simp [hpx, h1]
      · simp [hpx, Ne.symm hpx]
    · rename_i h1
      split
      · rename_i hpx
        rw [h.bit p hp, hpx, Bool.eq_iff_iff, Option.isSome_iff_exists, decide_eq_true_eq]
        constructor
        · rintro ⟨y, hy⟩
          obtain ⟨e, e0⟩ := (h.slot _ y).mp hy
          rw [h.inj y x e] at e0
          omega
        · intro h0
          exact ⟨x, (h.slot _ x).mpr ⟨rfl, by omega⟩⟩
      · rfl

/-- What the constructor leaves: the idle item in its slot, all others suspended. -/
theorem bitmapCtor_ok {idle : I} {prio : I → Nat} (hinj : ∀ x y, prio x = prio y → x = y)
    (hlt : ∀ x, prio x < 32) : BitmapOk (bitmapCtor idle prio) := by
  refine BitmapOk.itemResume ⟨hinj, hlt, fun p x => ?_, fun p _ => ?_⟩ idle
  · refine iff_of_false (fun e => by cases e) fun ⟨_, e⟩ => ?_
    cases e
  · simp [BitmapContainer.init]

omit [DecidableEq I] in
/-- **The lowest bit set leads to the strongest ready item.** -/
theorem BitmapOk.get_spec (h : BitmapOk c) (h0 : (c.item x).suspendCount = 0) :
    ∃ y, c.gDomain.get = some y ∧ (c.item y).suspendCount = 0 ∧
      ∀ z, (c.item z).suspendCount = 0 → (c.item y).prio ≤ (c.item z).prio := by
  have hbit : ∀ z, (c.item z).suspendCount = 0 →
      c.gDomain.itemsMap.getLsbD (c.item z).prio = true := by
    intro z hz
    rw [h.bit _ (h.lt z), (h.slot _ z).mpr ⟨rfl, hz⟩]
    rfl
  have hne : c.gDomain.itemsMap ≠ 0#32 := Lib.ne_zero_iff_bit.mpr ⟨_, h.lt x, hbit x h0⟩
  have hsome := h.bit _ (Lib.ctz_lt hne)
  rw [BitVec.getLsbD_true_ctz_of_ne_zero hne] at hsome
  obtain ⟨y, hy⟩ := Option.isSome_iff_exists.mp hsome.symm
  obtain ⟨hp, hy0⟩ := (h.slot _ y).mp hy
  refine ⟨y, hy, hy0, fun z hz => ?_⟩
  rw [hp]
  refine Nat.le_of_not_lt fun hlt => ?_
  have := hbit z hz
  rw [BitVec.getLsbD_false_of_lt_ctz hlt] at this
  cases this

omit [DecidableEq I] in
/-- With a reschedule pending, the item selected is the one the container gives. -/
theorem fxSchedGetNext_pending {y : I} (hp : c.reschedPending = true)
    (hy : c.gDomain.get = some y) :
    fxSchedGetNext c = (some y, { c with reschedPending := false, active := y }) := by
  have hy' : SchedAlg.containerGet c.gDomain = some y := hy
  unfold fxSchedGetNext
  rw [if_pos hp, hy']

omit [DecidableEq I] in
theorem BitmapOk.getNext (h : BitmapOk c) : BitmapOk (fxSchedGetNext c).2 := by
  refine h.congr ?_ (fxSchedGetNext_item c)
  unfold fxSchedGetNext
  repeat' split
  all_goals rfl

/-! ## 3. Whatever the priorities -/

/-- A slot holds an item of its priority that is not suspended. Distinct priorities are not
    needed for this. -/
def SlotOk (c : SchedContext I (BitmapContainer I)) : Prop :=
  ∀ p x, c.gDomain.items p = some x → (c.item x).prio = p ∧ (c.item x).suspendCount = 0

omit [DecidableEq I] in
theorem SlotOk.congr {c' : SchedContext I (BitmapContainer I)} (h : SlotOk c)
    (hd : c'.gDomain = c.gDomain) (hi : c'.item = c.item) : SlotOk c' := by
  unfold SlotOk
  rw [hd, hi]
  exact h

theorem SlotOk.itemSuspend (h : SlotOk c) (x : I) : SlotOk (fxSchedItemSuspend c x) := by
  intro p y hy
  rw [fxSchedItemSuspend_gDomain] at hy
  have hyx : y ≠ x ∧ c.gDomain.items p = some y := by
    split at hy
    · by_cases hp : p = (c.item x).prio
      · have hnone : update c.gDomain.items (c.item x).prio none p = some y := hy
        rw [hp, Function.update_self] at hnone
        cases hnone
      · have hy' : update c.gDomain.items (c.item x).prio none p = some y := hy
        rw [Function.update_of_ne hp] at hy'
        refine ⟨?_, hy'⟩
        rintro rfl
        exact hp (h p y hy').1.symm
    · rename_i h0
      refine ⟨?_, hy⟩
      rintro rfl
      exact h0 (h p y hy).2
  rw [fxSchedItemSuspend_item, Function.update_of_ne hyx.1]
  exact h p y hyx.2

theorem SlotOk.itemResume (h : SlotOk c) (x : I) : SlotOk (fxSchedItemResume c x) := by
  intro p y hy
  rw [fxSchedItemResume_gDomain] at hy
  rw [fxSchedItemResume_item]
  have hold : c.gDomain.items p = some y → (update c.item x
      ⟨(c.item x).suspendCount - 1, (c.item x).prio⟩ y).prio = p ∧ (update c.item x
      ⟨(c.item x).suspendCount - 1, (c.item x).prio⟩ y).suspendCount = 0 := by
    intro hy
    obtain ⟨hp, h0⟩ := h p y hy
    by_cases hyx : y = x
    · subst hyx
      rw [Function.update_self]
      exact ⟨hp, by simp [h0]⟩
    · rw [Function.update_of_ne hyx]
      exact ⟨hp, h0⟩
  split at hy
  · rename_i h1
    by_cases hp : p = (c.item x).prio
    · have hy' : update c.gDomain.items (c.item x).prio (some x) p = some y := hy
      rw [hp, Function.update_self] at hy'
      obtain rfl := Option.some.inj hy'
      rw [Function.update_self]
      exact ⟨hp.symm, by simp [h1]⟩
    · have hy' : update c.gDomain.items (c.item x).prio (some x) p = some y := hy
      rw [Function.update_of_ne hp] at hy'
      exact hold hy'
  · exact hold hy

omit [DecidableEq I] in
/-- The item selected is ready. -/
theorem SlotOk.getNext (h : SlotOk c) (hx : (fxSchedGetNext c).1 = some x) :
    (c.item x).suspendCount = 0 := by
  unfold fxSchedGetNext at hx
  split at hx
  · split at hx
    · rename_i y hy
      obtain rfl : y = x := Option.some.inj hx
      exact (h _ y hy).2
    · cases hx
  · cases hx

theorem bitmapCtor_slotOk (idle : I) (prio : I → Nat) : SlotOk (bitmapCtor idle prio) := by
  refine SlotOk.itemResume (fun p x hx => ?_) idle
  cases hx

end FxRtos
