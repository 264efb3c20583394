/-
  File:      FxRtos/Sched/Sched.lean
  Subject:   THE UNIPROCESSOR SCHEDULER (fx_sched.c, UP_FIFO), over any container that offers
             the operations of FX_SCHED_ALG.

  * `SchedContext` -- `fx_sched_context_t`, the items, and the two static variables of
    `fx_sched_item_set_params` (`savedParams`, `timestamp`).
  * The functions are total: an operation on an item that is not linked shows in the
    container (`MpqContainer.fault`), as in the source.
  * `changes_counter` is unbounded here; in the source it is an `unsigned int`.
-/
import FxRtos.Sched.Mpq

namespace FxRtos

open Function (update)

/-- The operations of the interface FX_SCHED_ALG; an item is passed with its priority. -/
class SchedAlg (I : outParam Type) (C : Type) where
  containerAdd : C → I → Nat → C
  containerRemove : C → I → Nat → C
  containerGet : C → Option I

instance {I : Type} [DecidableEq I] : SchedAlg I (MpqContainer I) where
  containerAdd := fxSchedContainerAdd
  containerRemove := fxSchedContainerRemove
  containerGet := fxSchedContainerGet

/-- `fx_sched_item_t`. -/
structure SchedItem where
  suspendCount : Nat
  prio : Nat
  deriving DecidableEq, Repr

structure SchedContext (I C : Type) where
  reschedPending : Bool
  changesCounter : Nat
  gDomain : C
  active : I
  item : I → SchedItem
  savedParams : Nat
  timestamp : Nat

/-- `fx_sched_ctor` on zeroed memory. Nothing is active before the idle item is. -/
def fxSchedCtor {I : Type} (idle : I) : SchedContext I (MpqContainer I) where
  reschedPending := false
  changesCounter := 0
  gDomain := fxSchedContainerInit I
  active := idle
  item _ := ⟨0, 0⟩
  savedParams := 0
  timestamp := 0

/-! ## 1. The operations -/

section Operationen

variable {I C : Type} [DecidableEq I] [SchedAlg I C]

def SchedContext.setItem (c : SchedContext I C) (x : I) (i : SchedItem) : SchedContext I C :=
  { c with item := update c.item x i }

omit [DecidableEq I] [SchedAlg I C] in
def fxSchedMarkReschedNeeded (c : SchedContext I C) : SchedContext I C :=
  { c with reschedPending := true }

/-- A change of the scheduling state: one more count, and a request to reschedule. -/
def SchedContext.countChange (c : SchedContext I C) : SchedContext I C :=
  { c with changesCounter := c.changesCounter + 1 }

/-- `fx_sched_container_add` of an item under its own priority. -/
def SchedContext.add (c : SchedContext I C) (x : I) : SchedContext I C :=
  { c with gDomain := SchedAlg.containerAdd c.gDomain x (c.item x).prio }

/-- `fx_sched_container_remove` of an item under its own priority. -/
def SchedContext.remove (c : SchedContext I C) (x : I) : SchedContext I C :=
  { c with gDomain := SchedAlg.containerRemove c.gDomain x (c.item x).prio }

/-- `fx_sched_item_init` with specified parameters: the item starts suspended. -/
def fxSchedItemInit (c : SchedContext I C) (x : I) (prio : Nat) : SchedContext I C :=
  c.setItem x ⟨1, prio⟩

/-- `fx_sched_item_init` of the idle item: it is the active one from the start. -/
def fxSchedItemInitIdle (c : SchedContext I C) (x : I) (prioIdle : Nat) : SchedContext I C :=
  { fxSchedItemInit c x prioIdle with active := x }

def fxSchedItemRemove (c : SchedContext I C) (x : I) : SchedContext I C :=
  if (c.item x).suspendCount = 0 then
    let c1 := (c.remove x).countChange
    if c.active = x then fxSchedMarkReschedNeeded c1 else c1
  else c

/-- The part of `fx_sched_item_set_params` that decides whether to reschedule: raising the
    active item saves what it had and when; lowering it again to what was saved, with no change
    counted in between, asks for nothing. -/
def SchedContext.paramsChange (c : SchedContext I C) (x : I) (src : Nat) : SchedContext I C :=
  if c.active = x ∧ src < (c.item x).prio then
    { c with timestamp := c.changesCounter, savedParams := (c.item x).prio }
  else if c.active ≠ x ∨ c.changesCounter ≠ c.timestamp ∨ c.savedParams ≠ src then
    fxSchedMarkReschedNeeded c.countChange
  else c

def fxSchedItemSetParams (c : SchedContext I C) (x : I) (src : Nat) : SchedContext I C :=
  if (c.item x).suspendCount = 0 then
    (((c.paramsChange x src).remove x).setItem x ⟨0, src⟩).add x
  else c.setItem x ⟨(c.item x).suspendCount, src⟩

def fxSchedItemSuspend (c : SchedContext I C) (x : I) : SchedContext I C :=
  let c1 := c.setItem x ⟨(c.item x).suspendCount + 1, (c.item x).prio⟩
  if (c.item x).suspendCount = 0 then fxSchedMarkReschedNeeded (c1.remove x).countChange else c1

def fxSchedItemResume (c : SchedContext I C) (x : I) : SchedContext I C :=
  if 0 < (c.item x).suspendCount then
    let c1 := c.setItem x ⟨(c.item x).suspendCount - 1, (c.item x).prio⟩
    if (c.item x).suspendCount - 1 = 0 then
      let c2 := (c1.add x).countChange
      if (c2.item x).prio = (c2.item c2.active).prio ∨ (c2.item x).prio < (c2.item c2.active).prio
      then fxSchedMarkReschedNeeded c2 else c2
    else c1
  else c

/-- `fx_sched_get_next`: `none` where no rescheduling was asked for. -/
def fxSchedGetNext (c : SchedContext I C) : Option I × SchedContext I C :=
  if c.reschedPending then
    match SchedAlg.containerGet c.gDomain with
    | some x => (some x, { c with reschedPending := false, active := x })
    | none => (none, { c with reschedPending := false })
  else (none, c)

def fxSchedYield (c : SchedContext I C) (x : I) : SchedContext I C :=
  if (c.item x).suspendCount = 0 then
    fxSchedMarkReschedNeeded ((c.remove x).add x).countChange
  else c

end Operationen

/-! ## 2. What each operation does to the items and to the active one -/

section Felder

variable {I C : Type} [DecidableEq I] [SchedAlg I C]

omit [SchedAlg I C] in
@[simp] theorem setItem_item (c : SchedContext I C) (x : I) (i : SchedItem) :
    (c.setItem x i).item = update c.item x i := rfl

omit [SchedAlg I C] in
@[simp] theorem paramsChange_item (c : SchedContext I C) (x : I) (src : Nat) :
    (c.paramsChange x src).item = c.item := by
  unfold SchedContext.paramsChange
  repeat' split
  all_goals rfl

omit [SchedAlg I C] in
@[simp] theorem paramsChange_active (c : SchedContext I C) (x : I) (src : Nat) :
    (c.paramsChange x src).active = c.active := by
  unfold SchedContext.paramsChange
  repeat' split
  all_goals rfl

omit [SchedAlg I C] in
@[simp] theorem paramsChange_gDomain (c : SchedContext I C) (x : I) (src : Nat) :
    (c.paramsChange x src).gDomain = c.gDomain := by
  unfold SchedContext.paramsChange
  repeat' split
  all_goals rfl

@[simp] theorem fxSchedItemRemove_item (c : SchedContext I C) (x : I) :
    (fxSchedItemRemove c x).item = c.item := by
  unfold fxSchedItemRemove
  repeat' split
  all_goals rfl

/-- Setting parameters replaces the priority, in or out of the container. -/
@[simp] theorem fxSchedItemSetParams_item (c : SchedContext I C) (x : I) (src : Nat) :
    (fxSchedItemSetParams c x src).item = update c.item x ⟨(c.item x).suspendCount, src⟩ := by
  unfold fxSchedItemSetParams
  split
  · rename_i h
    rw [h]
    show update (c.paramsChange x src).item x ⟨0, src⟩ = _
    rw [paramsChange_item]
  · rfl

@[simp] theorem fxSchedItemSuspend_item (c : SchedContext I C) (x : I) :
    (fxSchedItemSuspend c x).item =
      update c.item x ⟨(c.item x).suspendCount + 1, (c.item x).prio⟩ := by
  unfold fxSchedItemSuspend
  split <;> rfl

/-- Resuming counts down to zero, and stops there. -/
@[simp] theorem fxSchedItemResume_item (c : SchedContext I C) (x : I) :
    (fxSchedItemResume c x).item =
      update c.item x ⟨(c.item x).suspendCount - 1, (c.item x).prio⟩ := by
  unfold fxSchedItemResume
  by_cases h : 0 < (c.item x).suspendCount
  · simp only [if_pos h]
    repeat' split
    all_goals rfl
  · have e : (⟨(c.item x).suspendCount - 1, (c.item x).prio⟩ : SchedItem) = c.item x := by
      have h0 : (c.item x).suspendCount = 0 := by omega
      cases hi : c.item x with
      | mk n p => simp_all
    rw [if_neg h, e, Function.update_eq_self]

omit [DecidableEq I] in
@[simp] theorem fxSchedYield_item (c : SchedContext I C) (x : I) :
    (fxSchedYield c x).item = c.item := by
  unfold fxSchedYield
  split <;> rfl

omit [DecidableEq I] in
@[simp] theorem fxSchedGetNext_item (c : SchedContext I C) :
    (fxSchedGetNext c).2.item = c.item := by
  unfold fxSchedGetNext
  repeat' split
  all_goals rfl

omit [DecidableEq I] in
theorem fxSchedGetNext_gDomain (c : SchedContext I C) :
    (fxSchedGetNext c).2.gDomain = c.gDomain := by
  unfold fxSchedGetNext
  repeat' split
  all_goals rfl

@[simp] theorem fxSchedItemRemove_active (c : SchedContext I C) (x : I) :
    (fxSchedItemRemove c x).active = c.active := by
  unfold fxSchedItemRemove
  repeat' split
  all_goals rfl

@[simp] theorem fxSchedItemSetParams_active (c : SchedContext I C) (x : I) (src : Nat) :
    (fxSchedItemSetParams c x src).active = c.active := by
  unfold fxSchedItemSetParams
  split
  · exact paramsChange_active c x src
  · rfl

@[simp] theorem fxSchedItemSuspend_active (c : SchedContext I C) (x : I) :
    (fxSchedItemSuspend c x).active = c.active := by
  unfold fxSchedItemSuspend
  split <;> rfl

@[simp] theorem fxSchedItemResume_active (c : SchedContext I C) (x : I) :
    (fxSchedItemResume c x).active = c.active := by
  unfold fxSchedItemResume
  simp only
  repeat' split
  all_goals rfl

omit [DecidableEq I] in
@[simp] theorem fxSchedYield_active (c : SchedContext I C) (x : I) :
    (fxSchedYield c x).active = c.active := by
  unfold fxSchedYield
  split <;> rfl

end Felder

/-! ## 3. The items and the multi-priority queue container -/

/-- **Items and container agree**: an item in use is linked exactly if its suspend count is
    zero, under its own priority; no other item is linked; nothing unlinked was unlinked. -/
structure SchedOk {I : Type} [DecidableEq I] (live : I → Prop)
    (c : SchedContext I (MpqContainer I)) : Prop where
  mpq : MpqInv c.gDomain
  fault : c.gDomain.fault = false
  linked : ∀ x, live x → c.gDomain.link x =
    if (c.item x).suspendCount = 0 then some (c.item x).prio else none
  dead : ∀ x, ¬ live x → c.gDomain.link x = none
  lt : ∀ x, live x → (c.item x).prio < 1024

section Mpq

variable {I : Type} [DecidableEq I] {live live' : I → Prop}
  {c : SchedContext I (MpqContainer I)} {x : I}

theorem SchedOk.linked_in (h : SchedOk live c) (hx : live x) (h0 : (c.item x).suspendCount = 0) :
    c.gDomain.link x = some (c.item x).prio := by
  rw [h.linked x hx, if_pos h0]

theorem SchedOk.linked_out (h : SchedOk live c) (h0 : (c.item x).suspendCount ≠ 0) :
    c.gDomain.link x = none := by
  by_cases hx : live x
  · rw [h.linked x hx, if_neg h0]
  · exact h.dead x hx

/-- Being in the container means being in use and not suspended. -/
theorem SchedOk.link_iff (h : SchedOk live c) {p : Nat} : c.gDomain.link x = some p ↔
    live x ∧ (c.item x).suspendCount = 0 ∧ (c.item x).prio = p := by
  by_cases hx : live x
  · rw [h.linked x hx]
    split <;> simp_all
  · simp [h.dead x hx, hx]

/-- Only the container, the items and their use matter. -/
theorem SchedOk.congr {c' : SchedContext I (MpqContainer I)} (h : SchedOk live c)
    (hd : c'.gDomain = c.gDomain) (hi : c'.item = c.item) : SchedOk live c' := by
  refine ⟨hd ▸ h.mpq, hd ▸ h.fault, ?_, ?_, ?_⟩
  · rw [hd, hi]; exact h.linked
  · rw [hd]; exact h.dead
  · rw [hi]; exact h.lt

/-- An item that is not linked may be given any count other than zero, and be put to use. -/
theorem SchedOk.setItem (h : SchedOk live c) (hx : c.gDomain.link x = none) {i : SchedItem}
    (hi : i.suspendCount ≠ 0) (hp : i.prio < 1024) (hl : ∀ y, live' y → live y ∨ y = x)
    (hl' : ∀ y, live y → live' y ∨ y = x) : SchedOk live' (c.setItem x i) where
  mpq := h.mpq
  fault := h.fault
  linked y hy := by
    show c.gDomain.link y = _
    by_cases hyx : y = x
    · subst hyx
      simp [hx, hi]
    · rw [setItem_item, Function.update_of_ne hyx]
      exact h.linked y ((hl y hy).resolve_right hyx)
  dead y hy := by
    show c.gDomain.link y = none
    by_cases hyx : y = x
    · exact hyx ▸ hx
    · exact h.dead y fun hly => ((hl' y hly).resolve_right hyx |> hy)
  lt y hy := by
    by_cases hyx : y = x
    · subst hyx
      simpa using hp
    · rw [setItem_item, Function.update_of_ne hyx]
      exact h.lt y ((hl y hy).resolve_right hyx)

/-- Unlinking an item leaves the container sound for all the others. -/
theorem SchedOk.unlink (h : SchedOk live c) (hx : live x) (h0 : (c.item x).suspendCount = 0)
    (hl : ∀ y, live' y ↔ live y ∧ y ≠ x) : SchedOk live' (c.remove x) := by
  have hlk := h.linked_in hx h0
  refine ⟨mpqInv_remove h.mpq hlk, ?_, fun y hy => ?_, fun y hy => ?_, fun y hy => ?_⟩
  · exact (fxSchedContainerRemove_fault hlk _).trans h.fault
  · obtain ⟨hly, hne⟩ := (hl y).mp hy
    show (fxSchedContainerRemove c.gDomain x _).link y = _
    rw [fxSchedContainerRemove_link, Function.update_of_ne hne]
    exact h.linked y hly
  · show (fxSchedContainerRemove c.gDomain x _).link y = none
    rw [fxSchedContainerRemove_link]
    by_cases hyx : y = x
    · simp [hyx]
    · rw [Function.update_of_ne hyx]
      exact h.dead y fun hly => hy ((hl y).mpr ⟨hly, hyx⟩)
  · exact h.lt y ((hl y).mp hy).1

/-- Linking an item that is not in use puts it to use, under its priority. -/
theorem SchedOk.link (h : SchedOk live c) (hx : c.gDomain.link x = none)
    (h0 : (c.item x).suspendCount = 0) (hp : (c.item x).prio < 1024)
    (hl : ∀ y, live' y ↔ live y ∨ y = x) : SchedOk live' (c.add x) := by
  refine ⟨mpqInv_add h.mpq hx hp, h.fault, fun y hy => ?_, fun y hy => ?_, fun y hy => ?_⟩
  · show (fxSchedContainerAdd c.gDomain x _).link y = _
    rw [fxSchedContainerAdd_link]
    by_cases hyx : y = x
    · subst hyx
      rw [Function.update_self]
      exact (if_pos h0).symm
    · rw [Function.update_of_ne hyx]
      exact h.linked y (((hl y).mp hy).resolve_right hyx)
  · show (fxSchedContainerAdd c.gDomain x _).link y = none
    have hyx : y ≠ x := fun e => hy ((hl y).mpr (Or.inr e))
    rw [fxSchedContainerAdd_link, Function.update_of_ne hyx]
    exact h.dead y fun hly => hy ((hl y).mpr (Or.inl hly))
  · rcases (hl y).mp hy with hly | rfl
    · exact h.lt y hly
    · exact hp

/-- An item out of use may hold anything. -/
theorem SchedOk.setDead (h : SchedOk live c) (hx : ¬ live x) (i : SchedItem) :
    SchedOk live (c.setItem x i) := by
  have hne : ∀ y, live y → y ≠ x := fun y hy e => hx (e ▸ hy)
  refine ⟨h.mpq, h.fault, fun y hy => ?_, h.dead, fun y hy => ?_⟩
  · rw [setItem_item, Function.update_of_ne (hne y hy)]
    exact h.linked y hy
  · rw [setItem_item, Function.update_of_ne (hne y hy)]
    exact h.lt y hy

theorem SchedOk.itemInit (h : SchedOk live c) (hx : c.gDomain.link x = none) {prio : Nat}
    (hp : prio < 1024) (hl : ∀ y, live' y ↔ live y ∨ y = x) :
    SchedOk live' (fxSchedItemInit c x prio) :=
  h.setItem hx Nat.one_ne_zero hp (fun y => (hl y).mp) fun y hy => Or.inl ((hl y).mpr (Or.inl hy))

theorem SchedOk.itemRemove (h : SchedOk live c) (hx : live x)
    (hl : ∀ y, live' y ↔ live y ∧ y ≠ x) : SchedOk live' (fxSchedItemRemove c x) := by
  unfold fxSchedItemRemove
  split
  · rename_i h0
    have hr := h.unlink hx h0 hl
    split
    · exact hr.congr rfl rfl
    · exact hr.congr rfl rfl
  · rename_i h0
    refine ⟨h.mpq, h.fault, fun y hy => h.linked y ((hl y).mp hy).1, fun y hy => ?_,
      fun y hy => h.lt y ((hl y).mp hy).1⟩
    by_cases hyx : y = x
    · exact hyx ▸ h.linked_out h0
    · exact h.dead y fun hly => hy ((hl y).mpr ⟨hly, hyx⟩)

/-- Setting the parameters of an item in use, or of a suspended one. -/
theorem SchedOk.itemSetParams (h : SchedOk live c) (hx : live x ∨ (c.item x).suspendCount ≠ 0)
    {src : Nat} (hp : src < 1024) : SchedOk live (fxSchedItemSetParams c x src) := by
  unfold fxSchedItemSetParams
  split
  · rename_i h0
    have hlx : live x := hx.resolve_right fun hne => hne h0
    -- out of the container, changed while out of use, and in again
    have h1 : SchedOk live (c.paramsChange x src) := h.congr (by simp) (by simp)
    have h2 : SchedOk (fun y => live y ∧ y ≠ x) ((c.paramsChange x src).remove x) :=
      h1.unlink hlx (by simpa using h0) fun _ => Iff.rfl
    have h3 := h2.setDead (x := x) (fun hn => hn.2 rfl) ⟨0, src⟩
    refine h3.link (h3.dead x fun hn => hn.2 rfl) (by simp) (by simpa using hp) fun y => ?_
    constructor
    · intro hy
      by_cases hyx : y = x
      · exact Or.inr hyx
      · exact Or.inl ⟨hy, hyx⟩
    · rintro (hy | rfl)
      · exact hy.1
      · exact hlx
  · rename_i h0
    by_cases hlx : live x
    · exact h.setItem (h.linked_out h0) h0 hp (fun y hy => Or.inl hy) fun y hy => Or.inl hy
    · exact h.setDead hlx _

theorem SchedOk.itemSuspend (h : SchedOk live c) (hx : live x) :
    SchedOk live (fxSchedItemSuspend c x) := by
  have hp := h.lt x hx
  unfold fxSchedItemSuspend
  split
  · rename_i h0
    -- unlinking and counting up commute: the container does not read the count
    have h1 : SchedOk (fun y => live y ∧ y ≠ x) (c.remove x) :=
      h.unlink hx h0 fun _ => Iff.rfl
    have h2 : SchedOk live
        ((c.remove x).setItem x ⟨(c.item x).suspendCount + 1, (c.item x).prio⟩) :=
      h1.setItem (h1.dead x fun hn => hn.2 rfl) (Nat.succ_ne_zero _) hp
        (fun y hy => by
          by_cases hyx : y = x
          · exact Or.inr hyx
          · exact Or.inl ⟨hy, hyx⟩)
        fun y hy => Or.inl hy.1
    refine h2.congr ?_ rfl
    show SchedAlg.containerRemove c.gDomain x (update c.item x _ x).prio = _
    rw [Function.update_self]
    rfl
  · rename_i h0
    exact h.setItem (h.linked_out h0) (Nat.succ_ne_zero _) hp (fun y hy => Or.inl hy)
      fun y hy => Or.inl hy

theorem SchedOk.itemResume (h : SchedOk live c) (hx : live x) :
    SchedOk live (fxSchedItemResume c x) := by
  have hp := h.lt x hx
  unfold fxSchedItemResume
  split
  · rename_i hpos
    have hout : c.gDomain.link x = none := h.linked_out (by omega)
    simp only
    split
    · rename_i h1
      have h2 : SchedOk (fun y => live y ∧ y ≠ x) c :=
        ⟨h.mpq, h.fault, fun y hy => h.linked y hy.1,
          fun y hy => by
            by_cases hyx : y = x
            · exact hyx ▸ hout
            · exact h.dead y fun hly => hy ⟨hly, hyx⟩,
          fun y hy => h.lt y hy.1⟩
      have h3 := h2.setDead (x := x) (fun hn => hn.2 rfl)
        ⟨(c.item x).suspendCount - 1, (c.item x).prio⟩
      have h4 : SchedOk live ((c.setItem x
          ⟨(c.item x).suspendCount - 1, (c.item x).prio⟩).add x) := by
        refine h3.link hout (by simpa using h1) (by simpa using hp) fun y => ?_
        constructor
        · intro hy
          by_cases hyx : y = x
          · exact Or.inr hyx
          · exact Or.inl ⟨hy, hyx⟩
        · rintro (hy | rfl)
          · exact hy.1
          · exact hx
      split
      · exact h4.congr rfl rfl
      · exact h4.congr rfl rfl
    · rename_i h1
      exact h.setItem hout h1 hp (fun y hy => Or.inl hy) fun y hy => Or.inl hy
  · exact h

theorem SchedOk.yield (h : SchedOk live c) (hx : live x) : SchedOk live (fxSchedYield c x) := by
  unfold fxSchedYield
  split
  · rename_i h0
    have h1 : SchedOk (fun y => live y ∧ y ≠ x) (c.remove x) :=
      h.unlink hx h0 fun _ => Iff.rfl
    have h2 : SchedOk live ((c.remove x).add x) := by
      refine h1.link (h1.dead x fun hn => hn.2 rfl) h0 (h.lt x hx) fun y => ?_
      constructor
      · intro hy
        by_cases hyx : y = x
        · exact Or.inr hyx
        · exact Or.inl ⟨hy, hyx⟩
      · rintro (hy | rfl)
        · exact hy.1
        · exact hx
    exact h2.congr rfl rfl
  · exact h

theorem SchedOk.getNext (h : SchedOk live c) : SchedOk live (fxSchedGetNext c).2 := by
  refine h.congr ?_ (fxSchedGetNext_item c)
  unfold fxSchedGetNext
  repeat' split
  all_goals rfl

/-- **With a reschedule pending and something linked, the item selected is in the container
    and no linked item has a lower priority number.** -/
theorem SchedOk.getNext_spec (h : SchedOk live c) (hp : c.reschedPending = true) {y : I}
    (hy : live y) (h0 : (c.item y).suspendCount = 0) :
    ∃ x, fxSchedGetNext c = (some x, { c with reschedPending := false, active := x }) ∧
      live x ∧ (c.item x).suspendCount = 0 ∧
      ∀ z, live z → (c.item z).suspendCount = 0 → (c.item x).prio ≤ (c.item z).prio := by
  obtain ⟨x, p, rest, hget, _, hlx, hmin⟩ := fxSchedContainerGet_spec h.mpq (h.linked_in hy h0)
  obtain ⟨hl, hx0, rfl⟩ := h.link_iff.mp hlx
  refine ⟨x, ?_, hl, hx0, fun z hz hz0 => hmin z _ (h.linked_in hz hz0)⟩
  have hget' : SchedAlg.containerGet c.gDomain = some x := hget
  simp [fxSchedGetNext, hp, hget']

end Mpq

end FxRtos
