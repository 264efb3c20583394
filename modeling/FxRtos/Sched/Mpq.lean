/-
  File:      FxRtos/Sched/Mpq.lean
  Subject:   THE MULTI-PRIORITY QUEUE CONTAINER (fx_sched_alg.c, MPQ_FIFO) and the queue
             primitives it uses (rtl_queue.c).

  * `MpqContainer` -- one queue of items for each priority, and a two-level bitmap over the
    non-empty ones (`map1` over the words of `map2`). An item's linkage is the queue its
    pointers lead into (`none`: both pointers NULL).
  * `rtl_queue_remove` follows the item's own pointers; on an unlinked item it dereferences
    NULL. The model records that in `fault`, which nothing ever clears.
  * `MpqInv` -- linkage and queues agree, the bitmaps mark exactly the non-empty queues.
  * `fxSchedContainerGet_spec` -- under `MpqInv` the search through the bitmaps finds the
    first item of the lowest non-empty queue.
-/
import FxRtos.Lib.Bits
import Mathlib.Data.List.Nodup
import Mathlib.Logic.Function.Basic

namespace FxRtos

open Function (update)

variable {I : Type} [DecidableEq I]

/-! ## 1. The container -/

/-- `fx_sched_container_t` of MPQ_FIFO, with the linkage of the items. -/
structure MpqContainer (I : Type) where
  priorityQueues : Nat → List I
  map1 : BitVec 32
  map2 : Nat → BitVec 32
  link : I → Option Nat
  fault : Bool

/-- `fx_sched_container_init` on zeroed memory. -/
def fxSchedContainerInit (I : Type) : MpqContainer I where
  priorityQueues _ := []
  map1 := 0#32
  map2 _ := 0#32
  link _ := none
  fault := false

/-- `rtl_enqueue` of an item at a priority queue. -/
def MpqContainer.enqueue (c : MpqContainer I) (prio : Nat) (x : I) : MpqContainer I :=
  { c with
    priorityQueues := update c.priorityQueues prio (c.priorityQueues prio ++ [x])
    link := update c.link x (some prio) }

/-- `rtl_queue_remove`: out of the queue the item's pointers lead into. -/
def MpqContainer.unlink (c : MpqContainer I) (x : I) : MpqContainer I :=
  match c.link x with
  | some q =>
    { c with
      priorityQueues := update c.priorityQueues q ((c.priorityQueues q).erase x)
      link := update c.link x none }
  | none => { c with fault := true }

def fxSchedContainerAdd (c : MpqContainer I) (x : I) (prio : Nat) : MpqContainer I :=
  { c.enqueue prio x with
    map1 := c.map1 ||| 1#32 <<< (prio / 32)
    map2 := update c.map2 (prio / 32) (c.map2 (prio / 32) ||| 1#32 <<< (prio % 32)) }

/-- The bitmap part of `fx_sched_container_remove`. -/
def MpqContainer.clearMaps (c : MpqContainer I) (prio : Nat) : MpqContainer I :=
  let updatedMap2 := c.map2 (prio / 32) &&& ~~~(1#32 <<< (prio % 32))
  { c with
    map2 := update c.map2 (prio / 32) updatedMap2
    map1 := if updatedMap2 = 0#32 then c.map1 &&& ~~~(1#32 <<< (prio / 32)) else c.map1 }

def fxSchedContainerRemove (c : MpqContainer I) (x : I) (prio : Nat) : MpqContainer I :=
  if (c.unlink x).priorityQueues prio = [] then (c.unlink x).clearMaps prio else c.unlink x

/-- `fx_sched_container_get`: the first item of the queue the bitmaps lead to. -/
def fxSchedContainerGet (c : MpqContainer I) : Option I :=
  let map1Index := c.map1.ctz.toNat
  let map2Index := (c.map2 map1Index).ctz.toNat
  (c.priorityQueues (32 * map1Index + map2Index)).head?

/-! ## 2. What the operations do to linkage and queues -/

theorem unlink_linked {c : MpqContainer I} {x : I} {q : Nat} (h : c.link x = some q) :
    c.unlink x = { c with
      priorityQueues := update c.priorityQueues q ((c.priorityQueues q).erase x)
      link := update c.link x none } := by
  simp [MpqContainer.unlink, h]

omit [DecidableEq I] in
@[simp] theorem clearMaps_priorityQueues (c : MpqContainer I) (p : Nat) :
    (c.clearMaps p).priorityQueues = c.priorityQueues := rfl

omit [DecidableEq I] in
@[simp] theorem clearMaps_link (c : MpqContainer I) (p : Nat) : (c.clearMaps p).link = c.link := rfl

omit [DecidableEq I] in
@[simp] theorem clearMaps_fault (c : MpqContainer I) (p : Nat) :
    (c.clearMaps p).fault = c.fault := rfl

@[simp] theorem fxSchedContainerAdd_link (c : MpqContainer I) (x : I) (p : Nat) :
    (fxSchedContainerAdd c x p).link = update c.link x (some p) := rfl

@[simp] theorem fxSchedContainerAdd_priorityQueues (c : MpqContainer I) (x : I) (p : Nat) :
    (fxSchedContainerAdd c x p).priorityQueues =
      update c.priorityQueues p (c.priorityQueues p ++ [x]) := rfl

@[simp] theorem fxSchedContainerAdd_fault (c : MpqContainer I) (x : I) (p : Nat) :
    (fxSchedContainerAdd c x p).fault = c.fault := rfl

/-- An unlinked item has no pointers to follow. -/
theorem unlink_unlinked {c : MpqContainer I} {x : I} (h : c.link x = none) :
    c.unlink x = { c with fault := true } := by
  simp [MpqContainer.unlink, h]

@[simp] theorem unlink_link (c : MpqContainer I) (x : I) :
    (c.unlink x).link = update c.link x none := by
  cases h : c.link x with
  | none => rw [unlink_unlinked h, ← h, Function.update_eq_self]
  | some q => rw [unlink_linked h]

@[simp] theorem fxSchedContainerRemove_link (c : MpqContainer I) (x : I) (p : Nat) :
    (fxSchedContainerRemove c x p).link = update c.link x none := by
  unfold fxSchedContainerRemove
  split <;> simp

theorem fxSchedContainerRemove_priorityQueues {c : MpqContainer I} {x : I} {q : Nat}
    (h : c.link x = some q) (p : Nat) :
    (fxSchedContainerRemove c x p).priorityQueues =
      update c.priorityQueues q ((c.priorityQueues q).erase x) := by
  unfold fxSchedContainerRemove
  split <;> simp [unlink_linked h]

/-- The container is sound as long as what is unlinked was linked. -/
theorem fxSchedContainerRemove_fault {c : MpqContainer I} {x : I} {q : Nat}
    (h : c.link x = some q) (p : Nat) : (fxSchedContainerRemove c x p).fault = c.fault := by
  unfold fxSchedContainerRemove
  split <;> simp [unlink_linked h]

/-- Unlinking an unlinked item is the NULL dereference. -/
theorem fxSchedContainerRemove_unlinked {c : MpqContainer I} {x : I} (h : c.link x = none)
    (p : Nat) : (fxSchedContainerRemove c x p).fault = true := by
  unfold fxSchedContainerRemove
  split <;> simp [unlink_unlinked h]

/-! ## 3. The invariant of the container -/

/-- Linkage and queues agree. -/
structure MpqLists (c : MpqContainer I) : Prop where
  mem_iff : ∀ x p, x ∈ c.priorityQueues p ↔ c.link x = some p
  nodup : ∀ p, (c.priorityQueues p).Nodup
  bound : ∀ p, 1024 ≤ p → c.priorityQueues p = []

/-- Linkage and queues agree, and the bitmaps mark the non-empty queues. -/
structure MpqInv (c : MpqContainer I) : Prop extends MpqLists c where
  map2_bit : ∀ i j, i < 32 → j < 32 →
    ((c.map2 i).getLsbD j = true ↔ c.priorityQueues (32 * i + j) ≠ [])
  map1_bit : ∀ i, i < 32 → (c.map1.getLsbD i = true ↔ c.map2 i ≠ 0#32)

omit [DecidableEq I] in
theorem MpqLists.lt {c : MpqContainer I} (h : MpqLists c) {x : I} {p : Nat}
    (hx : c.link x = some p) : p < 1024 := by
  refine Classical.byContradiction fun hge => ?_
  have hm := (h.mem_iff x p).mpr hx
  simp [h.bound p (by omega)] at hm

omit [DecidableEq I] in
theorem mpqInv_init : MpqInv (fxSchedContainerInit I) where
  mem_iff x p := by simp [fxSchedContainerInit]
  nodup _ := List.nodup_nil
  bound _ _ := rfl
  map2_bit i j _ _ := by simp [fxSchedContainerInit]
  map1_bit i _ := by simp [fxSchedContainerInit]

theorem mpqInv_add {c : MpqContainer I} {x : I} {p : Nat} (h : MpqInv c) (hx : c.link x = none)
    (hp : p < 1024) : MpqInv (fxSchedContainerAdd c x p) where
  mem_iff y q := by
    have hxq : x ∉ c.priorityQueues p := fun hm => by simp [(h.mem_iff x p).mp hm] at hx
    by_cases hq : q = p
    · subst hq
      by_cases hy : y = x
      · simp [hy]
      · simp [hy, h.mem_iff]
    · by_cases hy : y = x
      · subst hy
        have : y ∉ c.priorityQueues q := fun hm => by simp [(h.mem_iff y q).mp hm] at hx
        simp [hq, this, Ne.symm hq]
      · simp [hq, hy, h.mem_iff]
  nodup q := by
    by_cases hq : q = p
    · subst hq
      have hxq : x ∉ c.priorityQueues q := fun hm => by simp [(h.mem_iff x q).mp hm] at hx
      simpa [List.nodup_append, h.nodup q] using fun y hy (e : y = x) => hxq (e ▸ hy)
    · simpa [hq] using h.nodup q
  bound q hq := by
    have hne : q ≠ p := by omega
    simpa [hne] using h.bound q hq
  map2_bit i j hi hj := by
    show (update c.map2 (p / 32) (c.map2 (p / 32) ||| 1#32 <<< (p % 32)) i).getLsbD j = true ↔ _
    by_cases hw : i = p / 32
    · subst hw
      rw [Function.update_self, Lib.getLsbD_setBit hj, Bool.or_eq_true, h.map2_bit _ j hi hj]
      by_cases hjp : p % 32 = j
      · have e : 32 * (p / 32) + j = p := by omega
        simp [hjp, e]
      · have e : 32 * (p / 32) + j ≠ p := by omega
        simp [hjp, e]
    · have e : 32 * i + j ≠ p := by omega
      rw [Function.update_of_ne hw, h.map2_bit i j hi hj]
      simp [e]
  map1_bit i hi := by
    show (c.map1 ||| 1#32 <<< (p / 32)).getLsbD i = true ↔
      update c.map2 (p / 32) (c.map2 (p / 32) ||| 1#32 <<< (p % 32)) i ≠ 0#32
    rw [Lib.getLsbD_setBit hi, Bool.or_eq_true, h.map1_bit i hi]
    by_cases hw : p / 32 = i
    · subst hw
      have hbit : (c.map2 (p / 32) ||| 1#32 <<< (p % 32)).getLsbD (p % 32) = true := by
        rw [Lib.getLsbD_setBit (Nat.mod_lt _ (by decide))]
        simp
      have hne : c.map2 (p / 32) ||| 1#32 <<< (p % 32) ≠ 0#32 :=
        Lib.ne_zero_iff_bit.mpr ⟨_, Nat.mod_lt _ (by decide), hbit⟩
      simp [hne]
    · simp [hw, Ne.symm hw]

theorem mpqLists_unlink {c : MpqContainer I} {x : I} {p : Nat} (h : MpqLists c)
    (hx : c.link x = some p) : MpqLists (c.unlink x) := by
  rw [unlink_linked hx]
  refine ⟨fun y q => ?_, fun q => ?_, fun q hq => ?_⟩
  · show y ∈ update c.priorityQueues p ((c.priorityQueues p).erase x) q ↔
      update c.link x none y = some q
    by_cases hq : q = p
    · subst hq
      rw [Function.update_self, (h.nodup q).mem_erase_iff]
      by_cases hy : y = x
      · simp [hy]
      · simp [hy, h.mem_iff]
    · rw [Function.update_of_ne hq, h.mem_iff]
      by_cases hy : y = x
      · subst hy
        simp [hx, Ne.symm hq]
      · simp [hy]
  · by_cases hq : q = p
    · subst hq
      simpa using (h.nodup q).erase x
    · simpa [hq] using h.nodup q
  · have hne : q ≠ p := by have := h.lt hx; omega
    simpa [hne] using h.bound q hq

omit [DecidableEq I] in
/-- Clearing the bits of an empty queue `p` restores the invariant where only the bit of `p`
    was out of date. -/
theorem mpqInv_clearMaps {c : MpqContainer I} {p : Nat} (h : MpqLists c)
    (he : c.priorityQueues p = [])
    (h2 : ∀ i j, i < 32 → j < 32 → 32 * i + j ≠ p →
      ((c.map2 i).getLsbD j = true ↔ c.priorityQueues (32 * i + j) ≠ []))
    (h1 : ∀ i, i < 32 → (c.map1.getLsbD i = true ↔ c.map2 i ≠ 0#32)) :
    MpqInv (c.clearMaps p) := by
  refine ⟨⟨h.mem_iff, h.nodup, h.bound⟩, fun i j hi hj => ?_, fun i hi => ?_⟩
  · show (update c.map2 (p / 32) (c.map2 (p / 32) &&& ~~~(1#32 <<< (p % 32))) i).getLsbD j = true ↔
      c.priorityQueues (32 * i + j) ≠ []
    by_cases hw : i = p / 32
    · subst hw
      rw [Function.update_self, Lib.getLsbD_clearBit hj, Bool.and_eq_true, decide_eq_true_eq]
      by_cases hjp : p % 32 = j
      · have e : 32 * (p / 32) + j = p := by omega
        simp [hjp, e, he]
      · have e : 32 * (p / 32) + j ≠ p := by omega
        rw [h2 _ j hi hj e]
        simp [hjp]
    · have e : 32 * i + j ≠ p := by omega
      rw [Function.update_of_ne hw]
      exact h2 i j hi hj e
  · show (if c.map2 (p / 32) &&& ~~~(1#32 <<< (p % 32)) = 0#32
        then c.map1 &&& ~~~(1#32 <<< (p / 32)) else c.map1).getLsbD i = true ↔
      update c.map2 (p / 32) (c.map2 (p / 32) &&& ~~~(1#32 <<< (p % 32))) i ≠ 0#32
    by_cases hw : i = p / 32
    · subst hw
      rw [Function.update_self]
      split
      · rename_i h0
        rw [Lib.getLsbD_clearBit hi]
        simp [h0]
      · rename_i h0
        rw [h1 _ hi]
        refine iff_of_true (fun e => h0 ?_) h0
        simp [e]
    · rw [Function.update_of_ne hw, ← h1 i hi]
      split
      · rw [Lib.getLsbD_clearBit hi]
        simp [Ne.symm hw]
      · exact Iff.rfl

theorem mpqInv_remove {c : MpqContainer I} {x : I} {p : Nat} (h : MpqInv c)
    (hx : c.link x = some p) : MpqInv (fxSchedContainerRemove c x p) := by
  have hl := mpqLists_unlink h.toMpqLists hx
  have hQ : (c.unlink x).priorityQueues =
      update c.priorityQueues p ((c.priorityQueues p).erase x) := by rw [unlink_linked hx]
  have hm1 : (c.unlink x).map1 = c.map1 := by rw [unlink_linked hx]
  have hm2 : (c.unlink x).map2 = c.map2 := by rw [unlink_linked hx]
  -- the other queues keep their bits
  have hothers : ∀ i j, i < 32 → j < 32 → 32 * i + j ≠ p →
      (((c.unlink x).map2 i).getLsbD j = true ↔ (c.unlink x).priorityQueues (32 * i + j) ≠ []) := by
    intro i j hi hj e
    rw [hm2, hQ, Function.update_of_ne e]
    exact h.map2_bit i j hi hj
  have hwords : ∀ i, i < 32 →
      ((c.unlink x).map1.getLsbD i = true ↔ (c.unlink x).map2 i ≠ 0#32) := by
    rw [hm1, hm2]
    exact h.map1_bit
  unfold fxSchedContainerRemove
  split
  · rename_i he
    exact mpqInv_clearMaps hl he hothers hwords
  · rename_i he
    refine ⟨hl, fun i j hi hj => ?_, hwords⟩
    by_cases e : 32 * i + j = p
    · have hne : c.priorityQueues p ≠ [] := fun e0 => he (by simp [hQ, e0])
      rw [hm2, h.map2_bit i j hi hj, e]
      exact iff_of_true hne he
    · exact hothers i j hi hj e

omit [DecidableEq I] in
/-- **The search finds the first item of the lowest non-empty queue.** -/
theorem fxSchedContainerGet_spec {c : MpqContainer I} (h : MpqInv c) {y : I} {q : Nat}
    (hy : c.link y = some q) :
    ∃ x p rest, fxSchedContainerGet c = some x ∧ c.priorityQueues p = x :: rest ∧
      c.link x = some p ∧ ∀ z r, c.link z = some r → p ≤ r := by
  have hlt : ∀ z r, c.link z = some r → r < 1024 := fun z r hz => h.lt hz
  -- a linked item's bits are set in both levels
  have hbit : ∀ z r, c.link z = some r → (c.map2 (r / 32)).getLsbD (r % 32) = true := by
    intro z r hz
    rw [h.map2_bit _ _ (by have := hlt z r hz; omega) (Nat.mod_lt _ (by decide)),
      Nat.div_add_mod]
    exact fun e => by simpa [e] using (h.mem_iff z r).mpr hz
  have hword : ∀ z r, c.link z = some r → c.map1.getLsbD (r / 32) = true := by
    intro z r hz
    rw [h.map1_bit _ (by have := hlt z r hz; omega)]
    exact Lib.ne_zero_iff_bit.mpr ⟨_, Nat.mod_lt _ (by decide), hbit z r hz⟩
  have h1 : c.map1 ≠ 0#32 :=
    Lib.ne_zero_iff_bit.mpr ⟨_, by have := hlt y q hy; omega, hword y q hy⟩
  have hi := Lib.ctz_lt h1
  have h2 : c.map2 c.map1.ctz.toNat ≠ 0#32 :=
    (h.map1_bit _ hi).mp (BitVec.getLsbD_true_ctz_of_ne_zero h1)
  have hj := Lib.ctz_lt h2
  have hne := (h.map2_bit _ _ hi hj).mp (BitVec.getLsbD_true_ctz_of_ne_zero h2)
  obtain ⟨x, rest, hx⟩ := List.exists_cons_of_ne_nil hne
  refine ⟨x, _, rest, ?_, hx, (h.mem_iff x _).mp (hx ▸ List.mem_cons_self), fun z r hz => ?_⟩
  · simp only [fxSchedContainerGet, hx, List.head?_cons]
  · -- below the found word, and below the found bit in it, every bit is clear
    have hwle : c.map1.ctz.toNat ≤ r / 32 := by
      refine Nat.le_of_not_lt fun hc => ?_
      have := hword z r hz
      rw [BitVec.getLsbD_false_of_lt_ctz hc] at this
      cases this
    rcases Nat.lt_or_eq_of_le hwle with hlt' | heq
    · omega
    · have hble : (c.map2 c.map1.ctz.toNat).ctz.toNat ≤ r % 32 := by
        refine Nat.le_of_not_lt fun hc => ?_
        have := hbit z r hz
        rw [← heq, BitVec.getLsbD_false_of_lt_ctz hc] at this
        cases this
      omega

end FxRtos
