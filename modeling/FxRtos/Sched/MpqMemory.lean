/-
  File:      FxRtos/Sched/MpqMemory.lean
  Subject:   THE MULTI-PRIORITY QUEUE CONTAINER IN MEMORY. The queues of rtl_queue.c are nodes
             linked both ways through their heads; an operation that follows a NULL link is
             `none`.

  * `rtlEnqueue`, `rtlQueueRemove` -- the primitives, link by link; `MpqMemory` the container
    over them.
  * `MpqRefines` -- the links lead through the queues of `MpqContainer` (Sched/Mpq.lean), which
    the scheduler is proved about; every operation keeps that.
  * `mpq_container` -- over any sequence of operations, the queues hold the linked items in the
    order in which they were added, the bitmaps mark the queues that are not empty, and the
    item found is the first one of the lowest priority.
-/
import FxRtos.Lib.Reach
import FxRtos.Lib.Segment
import FxRtos.Sched.Mpq

namespace FxRtos

open Function (update)
open Lib

/-! ## 1. rtl_queue.c -/

/-- The linkages of all nodes; `none` is NULL. -/
structure RtlLinks (α : Type) where
  next : α → Option α
  prev : α → Option α

section Primitive

variable {α : Type} [DecidableEq α]

def rtlQueueInit (q : RtlLinks α) (head : α) : RtlLinks α :=
  ⟨update q.next head (some head), update q.prev head (some head)⟩

def rtlQueueEmpty (q : RtlLinks α) (head : α) : Bool := q.next head = some head

def rtlQueueFirst (q : RtlLinks α) (head : α) : Option α := q.next head

def rtlQueueIsItemLinked (q : RtlLinks α) (item : α) : Bool :=
  (q.next item).isSome && (q.prev item).isSome

/-- Insert item at end of the queue. -/
def rtlEnqueue (q : RtlLinks α) (head item : α) : Option (RtlLinks α) :=
  let next := update q.next item (some head)
  let prev := update q.prev item (q.prev head)
  (prev item).map fun p => ⟨update next p (some item), update prev head (some item)⟩

/-- Extract item from queue. -/
def rtlQueueRemove (q : RtlLinks α) (item : α) : Option (RtlLinks α) :=
  (q.prev item).bind fun p => (q.next item).map fun n =>
    ⟨update (update q.next p (some n)) item none, update (update q.prev n (some p)) item none⟩

end Primitive

/-! ## 2. The container -/

/-- A node: the head of the queue of a priority, or the linkage of an item. -/
inductive QueueNode (I : Type) where
  | head (prio : Nat)
  | item (x : I)
  deriving DecidableEq

/-- `fx_sched_container_t` and the `fx_sched_params_t` of the items. -/
structure MpqMemory (I : Type) where
  links : RtlLinks (QueueNode I)
  map1 : BitVec 32
  map2 : Nat → BitVec 32
  prio : I → Nat

variable {I : Type} [DecidableEq I]

/-- `fx_sched_container_init`, with FX_SCHED_ALG_PRIO_NUM queues, on zeroed memory. -/
def mpqMemoryInit (num : Nat) (prio : I → Nat) : MpqMemory I where
  links := (List.range num).foldl (fun q i => rtlQueueInit q (.head i))
    ⟨fun _ => none, fun _ => none⟩
  map1 := 0#32
  map2 _ := 0#32
  prio := prio

def MpqMemory.add (c : MpqMemory I) (x : I) : Option (MpqMemory I) :=
  let prio := c.prio x
  (rtlEnqueue c.links (.head prio) (.item x)).map fun links => { c with
    links := links
    map1 := c.map1 ||| 1#32 <<< (prio / 32)
    map2 := update c.map2 (prio / 32) (c.map2 (prio / 32) ||| 1#32 <<< (prio % 32)) }

def MpqMemory.remove (c : MpqMemory I) (x : I) : Option (MpqMemory I) :=
  let prio := c.prio x
  (rtlQueueRemove c.links (.item x)).map fun links =>
    if rtlQueueEmpty links (.head prio) then
      let updatedMap2 := c.map2 (prio / 32) &&& ~~~(1#32 <<< (prio % 32))
      { c with
        links := links
        map2 := update c.map2 (prio / 32) updatedMap2
        map1 := if updatedMap2 = 0#32 then c.map1 &&& ~~~(1#32 <<< (prio / 32)) else c.map1 }
    else { c with links := links }

/-- What the first linkage of the queue found belongs to; a head is no item. -/
def MpqMemory.get (c : MpqMemory I) : Option I :=
  let map1Index := c.map1.ctz.toNat
  let map2Index := (c.map2 map1Index).ctz.toNat
  match rtlQueueFirst c.links (.head (32 * map1Index + map2Index)) with
  | some (.item x) => some x
  | _ => none

/-! ## 3. The queues in memory -/

/-- The links lead through the queues of `c`. -/
structure LinksHold (num : Nat) (links : RtlLinks (QueueNode I)) (c : MpqContainer I) : Prop where
  ring : ∀ p, p < num →
    LinkRing links.next links.prev (.head p) ((c.priorityQueues p).map .item)
  unlinked : ∀ x, c.link x = none → links.next (.item x) = none ∧ links.prev (.item x) = none

/-- The memory holds the container `c`. -/
structure MpqRefines (num : Nat) (m : MpqMemory I) (c : MpqContainer I) : Prop where
  links : LinksHold num m.links c
  map1 : m.map1 = c.map1
  map2 : m.map2 = c.map2
  prio : ∀ x p, c.link x = some p → m.prio x = p ∧ p < num

variable {num : Nat} {m : MpqMemory I} {links : RtlLinks (QueueNode I)} {c : MpqContainer I}
  {x y : I} {p q : Nat} {node : QueueNode I}

/-- The nodes of a queue. -/
def MpqContainer.nodes (c : MpqContainer I) (p : Nat) : List (QueueNode I) :=
  .head p :: (c.priorityQueues p).map .item

omit [DecidableEq I] in
theorem nodes_nodup (h : MpqLists c) (p : Nat) : (c.nodes p).Nodup := by
  refine List.nodup_cons.mpr ⟨?_, (h.nodup p).map fun a b e => QueueNode.item.inj e⟩
  rintro hm
  obtain ⟨y, _, e⟩ := List.mem_map.mp hm
  cases e

omit [DecidableEq I] in
theorem item_mem_nodes (h : MpqLists c) : .item x ∈ c.nodes p ↔ c.link x = some p := by
  rw [← h.mem_iff]
  unfold MpqContainer.nodes
  simp

omit [DecidableEq I] in
/-- No node is in two queues. -/
theorem nodes_disjoint (h : MpqLists c) (hpq : q ≠ p) (hn : node ∈ c.nodes q) :
    node ∉ c.nodes p := by
  cases node with
  | head r =>
    unfold MpqContainer.nodes at hn ⊢
    simp only [List.mem_cons, QueueNode.head.injEq, List.mem_map, reduceCtorEq, and_false,
      exists_false, or_false] at hn ⊢
    omega
  | item y =>
    rw [item_mem_nodes h] at hn ⊢
    rw [hn]
    exact fun e => hpq (Option.some.inj e)

theorem rtlQueueEmpty_iff (h : LinksHold num links c) (hl : MpqLists c) (hp : p < num) :
    rtlQueueEmpty links (.head p) = true ↔ c.priorityQueues p = [] := by
  unfold rtlQueueEmpty
  rw [decide_eq_true_iff, (h.ring p hp).empty_iff (List.nodup_cons.mp (nodes_nodup hl p)).1,
    List.map_eq_nil_iff]

/-- The links of empty queues: the heads lead to themselves. -/
def emptyLink (num : Nat) : QueueNode I → Option (QueueNode I)
  | .head p => if p < num then some (.head p) else none
  | .item _ => none

theorem mpqMemoryInit_links (num : Nat) (prio : I → Nat) :
    (mpqMemoryInit num prio).links = ⟨emptyLink num, emptyLink num⟩ := by
  show (List.range num).foldl _ _ = _
  induction num with
  | zero =>
    have hnone : (fun _ => none) = (emptyLink 0 : QueueNode I → Option (QueueNode I)) := by
      funext node
      cases node <;> rfl
    rw [← hnone]
    rfl
  | succ num ih =>
    rw [List.range_succ, List.foldl_append, ih]
    have hupd : update (emptyLink num) (.head num) (some (.head num)) =
        (emptyLink (num + 1) : QueueNode I → Option (QueueNode I)) := by
      funext node
      cases node with
      | item y => rfl
      | head p =>
        by_cases hp : p = num
        · subst hp
          rw [Function.update_self]
          exact (if_pos (Nat.lt_succ_self p)).symm
        · rw [Function.update_of_ne fun e => hp (QueueNode.head.inj e)]
          exact if_congr (by omega) rfl rfl
    exact congrArg₂ RtlLinks.mk hupd hupd

theorem mpqRefines_init (num : Nat) (prio : I → Nat) :
    MpqRefines num (mpqMemoryInit num prio) (fxSchedContainerInit I) where
  links := by
    rw [mpqMemoryInit_links]
    exact ⟨fun p hp => ⟨if_pos hp, if_pos hp⟩, fun x _ => ⟨rfl, rfl⟩⟩
  map1 := rfl
  map2 := rfl
  prio x p hx := by cases hx

omit [DecidableEq I] in
theorem rtlQueueIsItemLinked_iff (h : MpqRefines num m c) (hl : MpqLists c) (x : I) :
    rtlQueueIsItemLinked m.links (.item x) = true ↔ ∃ p, c.link x = some p := by
  unfold rtlQueueIsItemLinked
  cases hx : c.link x with
  | none =>
    rw [(h.links.unlinked x hx).1]
    exact ⟨nofun, fun ⟨_, e⟩ => by cases e⟩
  | some p =>
    obtain ⟨l1, l2, hq⟩ := List.append_of_mem ((hl.mem_iff x p).mpr hx)
    have hr := h.links.ring p (h.prio x p hx).2
    rw [hq, List.map_append, List.map_cons] at hr
    obtain ⟨a, b, ha, hb, _⟩ := hr.neighbours
    rw [ha, hb]
    exact ⟨fun _ => ⟨p, rfl⟩, fun _ => rfl⟩

/-! ## 4. The operations -/

/-- **`rtl_enqueue`** follows no NULL link. -/
theorem LinksHold.enqueue (h : LinksHold num links c) (hl : MpqLists c) (hx : c.link x = none)
    (hp : p < num) : ∃ links', rtlEnqueue links (.head p) (.item x) = some links' ∧
      LinksHold num links' (c.enqueue p x) := by
  have hr := h.ring p hp
  have hxn : ∀ r, QueueNode.item x ∉ c.nodes r := by
    intro r hm
    rw [item_mem_nodes hl, hx] at hm
    cases hm
  obtain ⟨last, hlast, hmem⟩ := hr.last
  have henq : rtlEnqueue links (.head p) (.item x) = some
      ⟨update (update links.next (.item x) (some (.head p))) last (some (.item x)),
        update (update links.prev (.item x) (some last)) (.head p) (some (.item x))⟩ := by
    unfold rtlEnqueue
    simp only [hlast, Function.update_self, Option.map_some]
  -- the nodes whose links change
  have hkeep : ∀ node, node ≠ .item x → node ∉ c.nodes p →
      update (update links.next (.item x) (some (.head p))) last (some (.item x)) node =
        links.next node ∧
      update (update links.prev (.item x) (some last)) (.head p) (some (.item x)) node =
        links.prev node := by
    intro node hnx hnp
    have hnl : node ≠ last := fun e => hnp (e ▸ hmem)
    have hnh : node ≠ .head p := fun e => hnp (e ▸ List.mem_cons_self)
    rw [Function.update_of_ne hnl, Function.update_of_ne hnx, Function.update_of_ne hnh,
      Function.update_of_ne hnx]
    exact ⟨rfl, rfl⟩
  refine ⟨_, henq, fun r hrn => ?_, fun y hy => ?_⟩
  · show LinkRing _ _ _ ((update c.priorityQueues p (c.priorityQueues p ++ [x]) r).map
      QueueNode.item)
    by_cases hrp : r = p
    · subst hrp
      rw [Function.update_self, List.map_append]
      exact hr.enqueue (nodes_nodup hl r) (hxn r) hlast
    · rw [Function.update_of_ne hrp]
      refine (h.ring r hrn).congr fun node hn => hkeep node ?_ (nodes_disjoint hl hrp hn)
      rintro rfl
      exact hxn r hn
  · have hyx : y ≠ x := by
      rintro rfl
      rw [show (c.enqueue p y).link y = some p from Function.update_self ..] at hy
      cases hy
    rw [show (c.enqueue p x).link y = c.link y from Function.update_of_ne hyx ..] at hy
    have hyp : QueueNode.item y ∉ c.nodes p := by
      rw [item_mem_nodes hl, hy]
      exact nofun
    obtain ⟨h1, h2⟩ := hkeep (.item y) (fun e => hyx (QueueNode.item.inj e)) hyp
    exact ⟨h1.trans (h.unlinked y hy).1, h2.trans (h.unlinked y hy).2⟩

/-- **`rtl_queue_remove`** of a linked item. -/
theorem LinksHold.remove (h : LinksHold num links c) (hl : MpqLists c) (hx : c.link x = some p)
    (hp : p < num) : ∃ links', rtlQueueRemove links (.item x) = some links' ∧
      LinksHold num links' (c.unlink x) := by
  have hr := h.ring p hp
  obtain ⟨l1, l2, _, hq, herase⟩ := List.exists_erase_eq ((hl.mem_iff x p).mpr hx)
  have hnd := nodes_nodup hl p
  have hnodes : c.nodes p = .head p :: (l1.map .item ++ .item x :: l2.map .item) := by
    unfold MpqContainer.nodes
    rw [hq, List.map_append, List.map_cons]
  rw [hq, List.map_append, List.map_cons] at hr
  obtain ⟨a, b, ha, hb, hma, hmb⟩ := hr.neighbours
  rw [← hnodes] at hma hmb
  have hrem : rtlQueueRemove links (.item x) = some
      ⟨update (update links.next a (some b)) (.item x) none,
        update (update links.prev b (some a)) (.item x) none⟩ := by
    unfold rtlQueueRemove
    simp only [ha, hb, Option.bind_some, Option.map_some]
  have hkeep : ∀ node, node ∉ c.nodes p →
      update (update links.next a (some b)) (.item x) none node = links.next node ∧
      update (update links.prev b (some a)) (.item x) none node = links.prev node := by
    intro node hnp
    have hnx : node ≠ .item x := fun e => hnp (e ▸ (item_mem_nodes hl).mpr hx)
    have hna : node ≠ a := fun e => hnp (e ▸ hma)
    have hnb : node ≠ b := fun e => hnp (e ▸ hmb)
    rw [Function.update_of_ne hnx, Function.update_of_ne hna, Function.update_of_ne hnx,
      Function.update_of_ne hnb]
    exact ⟨rfl, rfl⟩
  refine ⟨_, hrem, fun r hrn => ?_, fun y hy => ?_⟩
  · rw [unlink_linked hx]
    show LinkRing _ _ _ ((update c.priorityQueues p ((c.priorityQueues p).erase x) r).map
      QueueNode.item)
    by_cases hrp : r = p
    · subst hrp
      rw [Function.update_self, herase, List.map_append]
      rw [hnodes] at hnd
      refine (hr.unlink hnd ha hb).congr fun node hn => ?_
      -- the item itself is no longer in the ring
      have hnx : node ≠ .item x := by
        rintro rfl
        have hout : (QueueNode.item x :: ((.head r :: l1.map .item) ++ l2.map .item)).Nodup :=
          List.nodup_middle.mp hnd
        exact (List.nodup_cons.mp hout).1 hn
      exact ⟨Function.update_of_ne hnx .., Function.update_of_ne hnx ..⟩
    · rw [Function.update_of_ne hrp]
      exact (h.ring r hrn).congr fun node hn => hkeep node (nodes_disjoint hl hrp hn)
  · rw [unlink_link] at hy
    by_cases hyx : y = x
    · subst hyx
      exact ⟨Function.update_self .., Function.update_self ..⟩
    · rw [Function.update_of_ne hyx] at hy
      obtain ⟨h1, h2⟩ := hkeep (.item y) fun hm => by
        rw [item_mem_nodes hl, hy] at hm
        cases hm
      exact ⟨h1.trans (h.unlinked y hy).1, h2.trans (h.unlinked y hy).2⟩

/-- The parameters of an item that is not linked may change. -/
theorem MpqRefines.setPrio (h : MpqRefines num m c) (hx : c.link x = none) (p : Nat) :
    MpqRefines num { m with prio := update m.prio x p } c := by
  refine ⟨h.links, h.map1, h.map2, fun y q hy => ?_⟩
  have hyx : y ≠ x := by
    rintro rfl
    rw [hx] at hy
    cases hy
  exact ⟨(Function.update_of_ne hyx ..).trans (h.prio y q hy).1, (h.prio y q hy).2⟩

/-- `fx_sched_container_add` of an item that is not linked. -/
theorem MpqRefines.add (h : MpqRefines num m c) (hl : MpqLists c) (hx : c.link x = none)
    (hp : m.prio x < num) : ∃ m', m.add x = some m' ∧ m'.prio = m.prio ∧
      MpqRefines num m' (fxSchedContainerAdd c x (m.prio x)) := by
  obtain ⟨links', henq, hlinks⟩ := h.links.enqueue hl hx hp
  refine ⟨{ m with
    links := links'
    map1 := m.map1 ||| 1#32 <<< (m.prio x / 32)
    map2 := update m.map2 (m.prio x / 32)
      (m.map2 (m.prio x / 32) ||| 1#32 <<< (m.prio x % 32)) }, ?_, rfl,
    ⟨hlinks.ring, hlinks.unlinked⟩, ?_, ?_, fun y q hy => ?_⟩
  · unfold MpqMemory.add
    simp only [henq, Option.map_some]
  · rw [h.map1]
    rfl
  · rw [h.map2]
    rfl
  · rw [fxSchedContainerAdd_link] at hy
    by_cases hyx : y = x
    · subst hyx
      rw [Function.update_self] at hy
      cases hy
      exact ⟨rfl, hp⟩
    · rw [Function.update_of_ne hyx] at hy
      exact h.prio y q hy

/-- `fx_sched_container_remove` of a linked item. -/
theorem MpqRefines.remove (h : MpqRefines num m c) (hl : MpqLists c) (hx : c.link x = some p) :
    ∃ m', m.remove x = some m' ∧ m'.prio = m.prio ∧
      MpqRefines num m' (fxSchedContainerRemove c x p) := by
  obtain ⟨hprio, hp⟩ := h.prio x p hx
  obtain ⟨links', hrem, hlinks⟩ := h.links.remove hl hx hp
  have hempty := rtlQueueEmpty_iff hlinks (mpqLists_unlink hl hx) hp
  have hmaps : (c.unlink x).map1 = m.map1 ∧ (c.unlink x).map2 = m.map2 := by
    rw [unlink_linked hx, h.map1, h.map2]
    exact ⟨rfl, rfl⟩
  have hlink : ∀ y q, (c.unlink x).link y = some q → m.prio y = q ∧ q < num := by
    intro y q hy
    rw [unlink_link] at hy
    by_cases hyx : y = x
    · rw [hyx, Function.update_self] at hy
      cases hy
    · rw [Function.update_of_ne hyx] at hy
      exact h.prio y q hy
  unfold MpqMemory.remove fxSchedContainerRemove
  rw [hrem, Option.map_some, hprio]
  by_cases he : (c.unlink x).priorityQueues p = []
  · rw [if_pos he, if_pos (hempty.mpr he)]
    refine ⟨_, rfl, rfl, ⟨hlinks.ring, hlinks.unlinked⟩, ?_, ?_, hlink⟩
    · unfold MpqContainer.clearMaps
      rw [hmaps.1, hmaps.2]
    · unfold MpqContainer.clearMaps
      rw [hmaps.2]
  · rw [if_neg he, if_neg fun e => he (hempty.mp e)]
    exact ⟨_, rfl, rfl, hlinks, hmaps.1.symm, hmaps.2.symm, hlink⟩

/-- Removing an item that is not linked follows a NULL link. -/
theorem MpqRefines.remove_unlinked (h : MpqRefines num m c) (hx : c.link x = none) :
    m.remove x = none := by
  unfold MpqMemory.remove rtlQueueRemove
  rw [(h.links.unlinked x hx).2]
  rfl

omit [DecidableEq I] in
/-- `fx_sched_container_get` on a container that is not empty. -/
theorem MpqRefines.get (h : MpqRefines num m c) (hc : MpqInv c) (hy : c.link y = some q) :
    m.get = fxSchedContainerGet c := by
  obtain ⟨x, _, _, hget, _⟩ := fxSchedContainerGet_spec hc hy
  rw [hget]
  unfold fxSchedContainerGet at hget
  unfold MpqMemory.get
  simp only [h.map1, h.map2] at hget ⊢
  generalize 32 * c.map1.ctz.toNat + (c.map2 c.map1.ctz.toNat).ctz.toNat = i at hget ⊢
  have hx : x ∈ c.priorityQueues i := List.mem_of_mem_head? hget
  have hi := (h.prio x i ((hc.mem_iff x i).mp hx)).2
  have hfirst : rtlQueueFirst m.links (.head i) = some (.item x) := by
    refine (h.links.ring i hi).first.trans ?_
    rw [List.head?_map, hget]
    rfl
  rw [hfirst]

/-! ## 5. Any sequence of operations -/

/-- The container, and the linked items in the order in which they were added. -/
structure MpqSys (I : Type) where
  mem : MpqMemory I
  added : List I

inductive MpqOp (I : Type) where
  | setPrio (x : I) (prio : Nat)
  | add (x : I)
  | remove (x : I)

/-- Parameters are set and added of items that are not linked, linked items are removed. -/
def MpqOp.Allowed (num : Nat) (s : MpqSys I) : MpqOp I → Prop
  | .setPrio x _ => x ∉ s.added
  | .add x => x ∉ s.added ∧ s.mem.prio x < num
  | .remove x => x ∈ s.added

instance decidableAllowed (num : Nat) (s : MpqSys I) : (op : MpqOp I) → Decidable (op.Allowed num s)
  | .setPrio x _ => inferInstanceAs (Decidable (x ∉ s.added))
  | .add x => inferInstanceAs (Decidable (x ∉ s.added ∧ s.mem.prio x < num))
  | .remove x => inferInstanceAs (Decidable (x ∈ s.added))

def MpqOp.exec (s : MpqSys I) : MpqOp I → Option (MpqSys I)
  | .setPrio x prio => some { s with mem := { s.mem with prio := update s.mem.prio x prio } }
  | .add x => (s.mem.add x).map fun mem => ⟨mem, s.added ++ [x]⟩
  | .remove x => (s.mem.remove x).map fun mem => ⟨mem, s.added.erase x⟩

def mpqStep (num : Nat) (op : MpqOp I) (s : MpqSys I) : Option (MpqSys I) :=
  if op.Allowed num s then op.exec s else none

/-- The linked items of a priority, in order. -/
def MpqSys.ofPrio (s : MpqSys I) (p : Nat) : List I := s.added.filter fun x => s.mem.prio x = p

/-- The ghost container behind the memory. -/
structure MpqSysInv (num : Nat) (s : MpqSys I) (c : MpqContainer I) : Prop where
  refines : MpqRefines num s.mem c
  inv : MpqInv c
  nodup : s.added.Nodup
  queue : ∀ p, c.priorityQueues p = s.ofPrio p

section Lauf

variable {s s' : MpqSys I} {op : MpqOp I}

omit [DecidableEq I] in
theorem MpqSysInv.link_iff (h : MpqSysInv num s c) (x : I) (p : Nat) :
    c.link x = some p ↔ x ∈ s.added ∧ s.mem.prio x = p := by
  rw [← h.inv.mem_iff, h.queue]
  unfold MpqSys.ofPrio
  rw [List.mem_filter, decide_eq_true_iff]

omit [DecidableEq I] in
theorem MpqSysInv.unlinked (h : MpqSysInv num s c) (hx : x ∉ s.added) : c.link x = none := by
  cases hl : c.link x with
  | none => rfl
  | some p => exact absurd ((h.link_iff x p).mp hl).1 hx

theorem mpqSysInv_init (num : Nat) (prio : I → Nat) :
    MpqSysInv num ⟨mpqMemoryInit num prio, []⟩ (fxSchedContainerInit I) :=
  ⟨mpqRefines_init num prio, mpqInv_init, List.nodup_nil, fun _ => rfl⟩

theorem MpqSysInv.setPrio (h : MpqSysInv num s c) (hx : x ∉ s.added) (p : Nat) :
    MpqSysInv num { s with mem := { s.mem with prio := update s.mem.prio x p } } c := by
  refine ⟨h.refines.setPrio (h.unlinked hx) p, h.inv, h.nodup, fun q => (h.queue q).trans ?_⟩
  refine List.filter_congr fun y hy => ?_
  have hyx : y ≠ x := fun e => hx (e ▸ hy)
  show _ = decide (update s.mem.prio x p y = q)
  rw [Function.update_of_ne hyx]

theorem MpqSysInv.add (h : MpqSysInv num s c) (hnum : num ≤ 1024) (hx : x ∉ s.added)
    (hp : s.mem.prio x < num) : ∃ m', s.mem.add x = some m' ∧
      MpqSysInv num ⟨m', s.added ++ [x]⟩ (fxSchedContainerAdd c x (s.mem.prio x)) := by
  have hl := h.unlinked hx
  obtain ⟨m', hadd, hprio, href⟩ := h.refines.add h.inv.toMpqLists hl hp
  refine ⟨m', hadd, href, mpqInv_add h.inv hl (Nat.lt_of_lt_of_le hp hnum), ?_, fun q => ?_⟩
  · exact List.nodup_append.mpr ⟨h.nodup, List.nodup_singleton x, fun y hy z hz e =>
      hx (List.mem_singleton.mp hz ▸ e ▸ hy)⟩
  · unfold MpqSys.ofPrio
    rw [List.filter_append, hprio, fxSchedContainerAdd_priorityQueues]
    by_cases hq : q = s.mem.prio x
    · rw [hq, Function.update_self, h.queue]
      simp [MpqSys.ofPrio]
    · rw [Function.update_of_ne hq, h.queue]
      simp [MpqSys.ofPrio, Ne.symm hq]

theorem MpqSysInv.remove (h : MpqSysInv num s c) (hx : x ∈ s.added) :
    ∃ m', s.mem.remove x = some m' ∧
      MpqSysInv num ⟨m', s.added.erase x⟩ (fxSchedContainerRemove c x (s.mem.prio x)) := by
  have hl := (h.link_iff x _).mpr ⟨hx, rfl⟩
  obtain ⟨m', hrem, hprio, href⟩ := h.refines.remove h.inv.toMpqLists hl
  refine ⟨m', hrem, href, mpqInv_remove h.inv hl, h.nodup.erase x, fun q => ?_⟩
  unfold MpqSys.ofPrio
  rw [h.nodup.erase_eq_filter, List.filter_comm, hprio,
    fxSchedContainerRemove_priorityQueues hl]
  by_cases hq : q = s.mem.prio x
  · have hnd : (s.ofPrio (s.mem.prio x)).Nodup := h.nodup.filter _
    rw [hq, Function.update_self, h.queue, hnd.erase_eq_filter]
    rfl
  · rw [Function.update_of_ne hq, h.queue]
    -- no other queue holds it
    refine (List.filter_eq_self.mpr fun y hy => ?_).symm
    have hyq := of_decide_eq_true (List.mem_filter.mp hy).2
    simp only [bne_iff_ne, ne_eq]
    rintro rfl
    exact hq hyq.symm

/-- An operation that is allowed follows no NULL link, and keeps the container. -/
theorem MpqSysInv.exec (h : MpqSysInv num s c) (hnum : num ≤ 1024) (ha : op.Allowed num s) :
    ∃ s' c', op.exec s = some s' ∧ MpqSysInv num s' c' := by
  cases op with
  | setPrio x p => exact ⟨_, c, rfl, h.setPrio ha p⟩
  | add x =>
    obtain ⟨m', hadd, hinv⟩ := h.add hnum ha.1 ha.2
    refine ⟨_, _, ?_, hinv⟩
    unfold MpqOp.exec
    simp only [hadd, Option.map_some]
  | remove x =>
    obtain ⟨m', hrem, hinv⟩ := h.remove ha
    refine ⟨_, _, ?_, hinv⟩
    unfold MpqOp.exec
    simp only [hrem, Option.map_some]

theorem mpqSysInv_reach (hnum : num ≤ 1024) {prio : I → Nat}
    (hr : Reach (mpqStep num) Always ⟨mpqMemoryInit num prio, []⟩ s) :
    ∃ c, MpqSysInv num s c := by
  refine hr.inv (J := fun s => ∃ c, MpqSysInv num s c) ⟨_, mpqSysInv_init num prio⟩ ?_
  rintro s op s' ⟨c, hc⟩ - hs
  unfold mpqStep at hs
  obtain ⟨ha, he⟩ := Option.ite_none_right_eq_some.mp hs
  obtain ⟨s'', c', hexec, hc'⟩ := hc.exec hnum ha
  rw [he] at hexec
  cases hexec
  exact ⟨c', hc'⟩

end Lauf

/-- **The multi-priority queue container**: in every state of a run, every operation that is
    allowed follows no NULL link; the items linked are the ones added; the bitmaps mark the queues
    that are not empty; every queue holds the linked items of its priority in the order in which
    they were added; and the item found is the first added of those with the lowest number. -/
theorem mpq_container (num : Nat) (hnum : num ≤ 1024) (prio : I → Nat) {s : MpqSys I}
    (hr : Reach (mpqStep num) Always ⟨mpqMemoryInit num prio, []⟩ s) :
    (∀ op : MpqOp I, op.Allowed num s → (mpqStep num op s).isSome = true) ∧
    (∀ x, rtlQueueIsItemLinked s.mem.links (.item x) = true ↔ x ∈ s.added) ∧
    (∀ i, i < 32 → (s.mem.map1.getLsbD i = true ↔ s.mem.map2 i ≠ 0#32)) ∧
    (∀ i j, i < 32 → j < 32 → ((s.mem.map2 i).getLsbD j = true ↔
      32 * i + j < num ∧ rtlQueueEmpty s.mem.links (.head (32 * i + j)) = false)) ∧
    (∀ p, p < num →
      LinkRing s.mem.links.next s.mem.links.prev (.head p) ((s.ofPrio p).map .item)) ∧
    (s.added ≠ [] → ∃ x, s.mem.get = some x ∧ x ∈ s.added ∧
      (∀ y ∈ s.added, s.mem.prio x ≤ s.mem.prio y) ∧
      (s.ofPrio (s.mem.prio x)).head? = some x) := by
  obtain ⟨c, h⟩ := mpqSysInv_reach hnum hr
  refine ⟨fun op ha => ?_, fun x => ?_, fun i hi => ?_, fun i j hi hj => ?_, fun p hp => ?_,
    fun hne => ?_⟩
  · obtain ⟨s', _, hexec, _⟩ := h.exec hnum ha
    unfold mpqStep
    rw [if_pos ha, hexec]
    rfl
  · rw [rtlQueueIsItemLinked_iff h.refines h.inv.toMpqLists]
    exact ⟨fun ⟨p, hx⟩ => ((h.link_iff x p).mp hx).1, fun hx => ⟨_, (h.link_iff x _).mpr ⟨hx, rfl⟩⟩⟩
  · rw [h.refines.map1, h.refines.map2]
    exact h.inv.map1_bit i hi
  · rw [h.refines.map2, h.inv.map2_bit i j hi hj, ← Bool.not_eq_true]
    constructor
    · intro hq
      obtain ⟨x, hx⟩ := List.exists_mem_of_ne_nil _ hq
      have hlt := (h.refines.prio x _ ((h.inv.mem_iff x _).mp hx)).2
      exact ⟨hlt, fun he => hq ((rtlQueueEmpty_iff h.refines.links h.inv.toMpqLists hlt).mp he)⟩
    · rintro ⟨hlt, he⟩ hq
      exact he ((rtlQueueEmpty_iff h.refines.links h.inv.toMpqLists hlt).mpr hq)
  · rw [← h.queue]
    exact h.refines.links.ring p hp
  · obtain ⟨y, hy⟩ := List.exists_mem_of_ne_nil _ hne
    have hly := (h.link_iff y _).mpr ⟨hy, rfl⟩
    obtain ⟨x, p, rest, hget, hq, hx, hmin⟩ := fxSchedContainerGet_spec h.inv hly
    obtain ⟨hxa, hxp⟩ := (h.link_iff x p).mp hx
    refine ⟨x, (h.refines.get h.inv hly).trans hget, hxa, fun z hz => ?_, ?_⟩
    · rw [hxp]
      exact hmin z _ ((h.link_iff z _).mpr ⟨hz, rfl⟩)
    · rw [hxp, ← h.queue, hq]
      rfl

/-- Two items behind one of a lower number, in another word of the bitmap. -/
theorem mpq_container_three : ∃ s : MpqSys Nat, s.added = [1, 2, 3] ∧ ∃ x, s.mem.get = some x ∧
    ∀ y ∈ s.added, s.mem.prio x ≤ s.mem.prio y := by
  have hrun : (run (mpqStep 64)
      [.setPrio 1 40, .add 1, .setPrio 0 3, .add 0, .setPrio 2 40, .add 2, .remove 0,
        .setPrio 3 33, .add 3]
      ⟨mpqMemoryInit 64 (fun _ => 0), []⟩).any (fun s => decide (s.added = [1, 2, 3])) = true := by
    decide +kernel
  obtain ⟨s, hreach, hs⟩ := exists_of_run hrun
  have hadded := of_decide_eq_true hs
  obtain ⟨x, hget, _, hmin, _⟩ :=
    (mpq_container 64 (by decide) (fun _ => 0) hreach).2.2.2.2.2 (by rw [hadded]; decide)
  exact ⟨s, hadded, x, hget, hmin⟩

end FxRtos
