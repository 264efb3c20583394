/-
  File:      FxRtos/Lib/Segment.lean
  Subject:   CIRCULAR LISTS LINKED BOTH WAYS. `nx` and `pv` are the links of all nodes, `none`
             where a node has none.

  * `Segment nx pv a l b` -- the links lead from `a` through `l` to `b`, and back.
  * `LinkRing nx pv h l` -- the segment from a head back to itself; only the links of its nodes
    matter.
  * `Segment.retarget` -- another end for a segment: the last link and the link back to it.
  * `LinkRing.enqueue`, `LinkRing.unlink` -- a node put in at the end, a node taken out.
-/
import Mathlib.Data.List.Nodup
import Mathlib.Logic.Function.Basic

namespace FxRtos.Lib

open Function (update)

variable {α : Type*} {nx pv nx' pv' : α → Option α} {a b c h p x : α} {l l1 l2 : List α}

def Segment (nx pv : α → Option α) : α → List α → α → Prop
  | a, [], b => nx a = some b ∧ pv b = some a
  | a, x :: l, b => nx a = some x ∧ pv x = some a ∧ Segment nx pv x l b

def LinkRing (nx pv : α → Option α) (h : α) (l : List α) : Prop := Segment nx pv h l h

theorem segment_append : Segment nx pv a (l1 ++ x :: l2) b ↔
    Segment nx pv a l1 x ∧ Segment nx pv x l2 b := by
  induction l1 generalizing a with
  | nil => exact ⟨fun ⟨h1, h2, h3⟩ => ⟨⟨h1, h2⟩, h3⟩, fun ⟨⟨h1, h2⟩, h3⟩ => ⟨h1, h2, h3⟩⟩
  | cons y l1 ih =>
    constructor
    · rintro ⟨h1, h2, h3⟩
      obtain ⟨h4, h5⟩ := ih.mp h3
      exact ⟨⟨h1, h2, h4⟩, h5⟩
    · rintro ⟨⟨h1, h2, h3⟩, h4⟩
      exact ⟨h1, h2, ih.mpr ⟨h3, h4⟩⟩

/-- Only the links inside the segment matter. -/
theorem Segment.congr (hs : Segment nx pv a l b) (hn : ∀ y, y = a ∨ y ∈ l → nx' y = nx y)
    (hp : ∀ y, y ∈ l ∨ y = b → pv' y = pv y) : Segment nx' pv' a l b := by
  induction l generalizing a with
  | nil => exact ⟨(hn a (Or.inl rfl)).trans hs.1, (hp b (Or.inr rfl)).trans hs.2⟩
  | cons x l ih =>
    obtain ⟨h1, h2, h3⟩ := hs
    refine ⟨(hn a (Or.inl rfl)).trans h1, (hp x (Or.inl List.mem_cons_self)).trans h2, ?_⟩
    refine ih h3 (fun y hy => hn y (Or.inr ?_)) fun y hy => hp y (hy.imp_left ?_)
    · rcases hy with rfl | hy
      · exact List.mem_cons_self
      · exact List.mem_cons_of_mem _ hy
    · exact List.mem_cons_of_mem _

/-- The node in front of the end. -/
theorem Segment.last (hs : Segment nx pv a l b) : ∃ p, pv b = some p ∧ (p = a ∨ p ∈ l) := by
  induction l generalizing a with
  | nil => exact ⟨a, hs.2, Or.inl rfl⟩
  | cons x l ih =>
    obtain ⟨p, hp, hm⟩ := ih hs.2.2
    refine ⟨p, hp, Or.inr ?_⟩
    rcases hm with rfl | hm
    · exact List.mem_cons_self
    · exact List.mem_cons_of_mem _ hm

/-- The node behind the beginning. -/
theorem Segment.first (hs : Segment nx pv a l b) : nx a = some (l.head?.getD b) := by
  cases l with
  | nil => exact hs.1
  | cons x l => exact hs.1

theorem LinkRing.empty_iff (hr : LinkRing nx pv h l) (hh : h ∉ l) : nx h = some h ↔ l = [] := by
  rw [Segment.first hr]
  cases l with
  | nil => exact ⟨fun _ => rfl, fun _ => rfl⟩
  | cons x l =>
    refine ⟨fun e => ?_, nofun⟩
    exact absurd (Option.some.inj e) fun e => hh (e ▸ List.mem_cons_self)

/-- Only the links of the ring's own nodes matter. -/
theorem LinkRing.congr (hr : LinkRing nx pv h l)
    (he : ∀ y ∈ h :: l, nx' y = nx y ∧ pv' y = pv y) : LinkRing nx' pv' h l := by
  refine Segment.congr hr (fun y hy => (he y (List.mem_cons.mpr hy)).1) fun y hy => ?_
  exact (he y (List.mem_cons.mpr hy.symm)).2

theorem LinkRing.last (hr : LinkRing nx pv h l) : ∃ p, pv h = some p ∧ p ∈ h :: l := by
  obtain ⟨p, hp, hm⟩ := Segment.last hr
  exact ⟨p, hp, List.mem_cons.mpr hm⟩

/-- The neighbours of a member lie in the ring. -/
theorem LinkRing.neighbours (hr : LinkRing nx pv h (l1 ++ x :: l2)) : ∃ p n, pv x = some p ∧
    nx x = some n ∧ p ∈ h :: (l1 ++ x :: l2) ∧ n ∈ h :: (l1 ++ x :: l2) := by
  obtain ⟨h1, h2⟩ := segment_append.mp hr
  obtain ⟨p, hp, hm⟩ := h1.last
  refine ⟨p, l2.head?.getD h, hp, h2.first, ?_, ?_⟩
  · rcases hm with rfl | hm
    · exact List.mem_cons_self
    · exact List.mem_cons_of_mem _ (List.mem_append_left _ hm)
  · cases l2 with
    | nil => exact List.mem_cons_self
    | cons y l2 =>
      exact List.mem_cons_of_mem _ (List.mem_append_right _
        (List.mem_cons_of_mem _ List.mem_cons_self))

variable [DecidableEq α]

/-- Another end for a segment. -/
theorem Segment.retarget (hs : Segment nx pv a l b) (hn : (a :: l).Nodup) (hp : pv b = some p)
    (hc : pv' c = some p) (hl : ∀ y ∈ l, pv' y = pv y) :
    Segment (update nx p (some c)) pv' a l c := by
  induction l generalizing a with
  | nil =>
    obtain rfl : a = p := Option.some.inj (hs.2.symm.trans hp)
    exact ⟨Function.update_self .., hc⟩
  | cons x l ih =>
    obtain ⟨h1, h2, h3⟩ := hs
    obtain ⟨ha, hn'⟩ := List.nodup_cons.mp hn
    have hap : a ≠ p := by
      rintro rfl
      obtain ⟨q, hq, hm⟩ := h3.last
      obtain rfl : q = a := Option.some.inj (hq.symm.trans hp)
      rcases hm with rfl | hm
      · exact ha List.mem_cons_self
      · exact ha (List.mem_cons_of_mem _ hm)
    exact ⟨(Function.update_of_ne hap ..).trans h1, (hl x List.mem_cons_self).trans h2,
      ih h3 hn' fun y hy => hl y (List.mem_cons_of_mem _ hy)⟩

/-- **A node put in at the end**: its own links, the link of the last node and the head's link
    back. -/
theorem LinkRing.enqueue (hr : LinkRing nx pv h l) (hn : (h :: l).Nodup) (hx : x ∉ h :: l)
    (hp : pv h = some p) :
    LinkRing (update (update nx x (some h)) p (some x)) (update (update pv x (some p)) h (some x)) h
      (l ++ [x]) := by
  rw [List.mem_cons, not_or] at hx
  obtain ⟨hxh, hxl⟩ := hx
  obtain ⟨hh, _⟩ := List.nodup_cons.mp hn
  obtain ⟨q, hq, hm⟩ := Segment.last hr
  obtain rfl : q = p := Option.some.inj (hq.symm.trans hp)
  have hxq : x ≠ q := by
    rintro rfl
    exact hm.elim hxh hxl
  have hoff : Segment (update nx x (some h)) pv h l h := by
    refine Segment.congr hr (fun y hy => Function.update_of_ne ?_ ..) fun _ _ => rfl
    rintro rfl
    exact hy.elim hxh hxl
  refine segment_append.mpr ⟨hoff.retarget hn hp ?_ fun y hy => ?_, ?_, ?_⟩
  · rw [Function.update_of_ne hxh, Function.update_self]
  · have hyh : y ≠ h := fun e => hh (e ▸ hy)
    have hyx : y ≠ x := fun e => hxl (e ▸ hy)
    rw [Function.update_of_ne hyh, Function.update_of_ne hyx]
  · rw [Function.update_of_ne hxq, Function.update_self]
  · rw [Function.update_self]

/-- **A node taken out**: its neighbours are linked to each other. -/
theorem LinkRing.unlink {n : α} (hr : LinkRing nx pv h (l1 ++ x :: l2))
    (hn : (h :: (l1 ++ x :: l2)).Nodup) (hp : pv x = some p) (hx : nx x = some n) :
    LinkRing (update nx p (some n)) (update pv n (some p)) h (l1 ++ l2) := by
  obtain ⟨h1, h2⟩ := segment_append.mp hr
  have hn1 : (h :: l1).Nodup :=
    hn.sublist (List.Sublist.cons_cons h (List.sublist_append_left l1 (x :: l2)))
  cases l2 with
  | nil =>
    obtain rfl : h = n := Option.some.inj (h2.1.symm.trans hx)
    rw [List.append_nil]
    refine h1.retarget hn1 hp (Function.update_self ..) fun y hy => ?_
    have hyh : y ≠ h := fun e => (List.nodup_cons.mp hn1).1 (e ▸ hy)
    exact Function.update_of_ne hyh ..
  | cons y l2 =>
    obtain ⟨hy, _, h3⟩ := h2
    obtain rfl : y = n := Option.some.inj (hy.symm.trans hx)
    obtain ⟨hh, hn'⟩ := List.nodup_cons.mp hn
    obtain ⟨_, hn2, hdis⟩ := List.nodup_append.mp hn'
    obtain ⟨_, hn3⟩ := List.nodup_cons.mp hn2
    obtain ⟨hy2, _⟩ := List.nodup_cons.mp hn3
    refine segment_append.mpr ⟨?_, h3.congr (fun z hz => ?_) fun z hz => ?_⟩
    · refine h1.retarget hn1 hp (Function.update_self ..) fun z hz => ?_
      have hzy : z ≠ y := hdis z hz y (List.mem_cons_of_mem _ List.mem_cons_self)
      exact Function.update_of_ne hzy ..
    · -- the node in front lies in the first segment
      obtain ⟨q, hq, hm⟩ := h1.last
      obtain rfl : q = p := Option.some.inj (hq.symm.trans hp)
      have hz' : z ∈ x :: y :: l2 := by
        rcases hz with rfl | hz
        · exact List.mem_cons_of_mem _ List.mem_cons_self
        · exact List.mem_cons_of_mem _ (List.mem_cons_of_mem _ hz)
      refine Function.update_of_ne ?_ ..
      rintro rfl
      rcases hm with rfl | hm
      · exact hh (List.mem_append_right _ hz')
      · exact hdis z hm z hz' rfl
    · refine Function.update_of_ne ?_ ..
      rintro rfl
      rcases hz with hz | rfl
      · exact hy2 hz
      · exact hh (List.mem_append_right _ (List.mem_cons_of_mem _ List.mem_cons_self))

end FxRtos.Lib
