/-
  File:      FxRtos/Lib/Linked.lean
  Subject:   DOUBLY LINKED LISTS THAT END IN A SHARED NODE. `nx` and `pv` are the links of all
             nodes; `nil` ends every list on both sides, and its own links hold anything.

  * `Linked nil nx pv p a l` -- from `a` on, behind `p`, the links lead through `l`.
  * `Linked.push`, `Linked.unlink` -- a node put in front, a node taken out.
-/
import Mathlib.Data.List.Nodup
import Mathlib.Logic.Function.Basic

namespace FxRtos.Lib

open Function (update)

variable {α : Type*} {nil : α} {nx pv nx' pv' : α → α} {p a x : α} {l : List α}

def Linked (nil : α) (nx pv : α → α) : α → α → List α → Prop
  | _, a, [] => a = nil
  | p, a, x :: l => a = x ∧ x ≠ nil ∧ pv x = p ∧ Linked nil nx pv x (nx x) l

/-- Only the links of the members matter. -/
theorem Linked.congr (h : Linked nil nx pv p a l)
    (he : ∀ x ∈ l, nx' x = nx x ∧ pv' x = pv x) : Linked nil nx' pv' p a l := by
  induction l generalizing p a with
  | nil => exact h
  | cons x l ih =>
    obtain ⟨ha, hx, hp, hl⟩ := h
    obtain ⟨h1, h2⟩ := he x List.mem_cons_self
    refine ⟨ha, hx, h2.trans hp, ?_⟩
    rw [h1]
    exact ih hl fun y hy => he y (List.mem_cons_of_mem _ hy)

theorem Linked.eq_nil_iff (h : Linked nil nx pv p a l) : a = nil ↔ l = [] := by
  cases l with
  | nil => exact ⟨fun _ => rfl, fun _ => h⟩
  | cons x l =>
    obtain ⟨rfl, hx, _⟩ := h
    exact ⟨fun e => absurd e hx, nofun⟩

/-- What stands in front is `nil` or the first member. -/
theorem Linked.front (h : Linked nil nx pv p a l) : (a = nil ∧ l = []) ∨ a ∈ l := by
  cases l with
  | nil => exact Or.inl ⟨h, rfl⟩
  | cons x l => exact Or.inr (h.1 ▸ List.mem_cons_self)

theorem Linked.not_mem_nil (h : Linked nil nx pv p a l) : nil ∉ l := by
  induction l generalizing p a with
  | nil => exact List.not_mem_nil
  | cons x l ih =>
    obtain ⟨_, hx, _, hl⟩ := h
    rintro (_ | ⟨_, hm⟩)
    · exact hx rfl
    · exact ih hl hm

/-- The neighbours of a member: members themselves, or what stands at the ends. -/
theorem Linked.neighbours {l1 l2 : List α} (h : Linked nil nx pv p a (l1 ++ x :: l2)) :
    (l1 = [] ∧ pv x = p ∨ pv x ∈ l1) ∧ (l2 = [] ∧ nx x = nil ∨ nx x ∈ l2) := by
  induction l1 generalizing p a with
  | nil =>
    obtain ⟨_, _, hp, hl⟩ := h
    refine ⟨Or.inl ⟨rfl, hp⟩, ?_⟩
    rcases hl.front with ⟨e, e'⟩ | hm
    · exact Or.inl ⟨e', e⟩
    · exact Or.inr hm
  | cons y l1 ih =>
    obtain ⟨hp, hn⟩ := ih h.2.2.2
    refine ⟨Or.inr ?_, hn⟩
    rcases hp with ⟨_, e⟩ | hm
    · rw [e]
      exact List.mem_cons_self
    · exact List.mem_cons_of_mem _ hm

variable [DecidableEq α]

/-- A node put in front: its links are set, and the link back of the node that was there. -/
theorem Linked.push (h : Linked nil nx pv nil a l) (hn : l.Nodup) (hx : x ≠ nil) (hxl : x ∉ l) :
    Linked nil (update nx x a) (update (update pv x nil) a x) nil x (x :: l) := by
  have hxa : x ≠ a := by
    rcases h.front with ⟨rfl, _⟩ | ha
    · exact hx
    · exact fun e => hxl (e ▸ ha)
  refine ⟨rfl, hx, ?_, ?_⟩
  · rw [Function.update_of_ne hxa, Function.update_self]
  rw [Function.update_self]
  cases l with
  | nil => exact h
  | cons y l =>
    obtain ⟨rfl, hy, hp, hl⟩ := h
    obtain ⟨hyl, _⟩ := List.nodup_cons.mp hn
    refine ⟨rfl, hy, Function.update_self .., ?_⟩
    rw [Function.update_of_ne (Ne.symm hxa)]
    refine hl.congr fun z hz => ?_
    have hzx : z ≠ x := fun e => hxl (e ▸ List.mem_cons_of_mem _ hz)
    have hzy : z ≠ a := fun e => hyl (e ▸ hz)
    exact ⟨Function.update_of_ne hzx .., by
      rw [Function.update_of_ne hzy, Function.update_of_ne hzx]⟩

/-- A node taken out: its neighbours are linked to each other. Behind a member `p` the list is
    the tail of a longer one. -/
theorem Linked.unlink {l1 l2 : List α} (h : Linked nil nx pv p a (l1 ++ x :: l2))
    (hn : (l1 ++ x :: l2).Nodup) (hp : p ∉ l1 ++ x :: l2) :
    Linked nil (update nx (pv x) (nx x)) (update pv (nx x) (pv x)) p
      (if a = x then nx x else a) (l1 ++ l2) := by
  induction l1 generalizing p a with
  | nil =>
    obtain ⟨rfl, _, hpv, hl⟩ := h
    rw [if_pos rfl, List.nil_append]
    cases l2 with
    | nil => exact hl
    | cons y l2 =>
      obtain ⟨hy, hy0, _, hl2⟩ := hl
      rw [hy]
      obtain ⟨_, hn2⟩ := List.nodup_cons.mp hn
      obtain ⟨hyl, _⟩ := List.nodup_cons.mp hn2
      have hpy : pv a ∉ y :: l2 := fun hm => hp (hpv ▸ List.mem_cons_of_mem _ hm)
      refine ⟨rfl, hy0, ?_, ?_⟩
      · rw [Function.update_self, hpv]
      · have hyp : y ≠ pv a := fun e => hpy (e ▸ List.mem_cons_self)
        rw [Function.update_of_ne hyp]
        refine hl2.congr fun z hz => ?_
        have hzp : z ≠ pv a := fun e => hpy (e ▸ List.mem_cons_of_mem _ hz)
        have hzy : z ≠ y := fun e => hyl (e ▸ hz)
        exact ⟨Function.update_of_ne hzp .., Function.update_of_ne hzy ..⟩
  | cons z l1 ih =>
    obtain ⟨hpre, hpost⟩ := h.neighbours
    obtain ⟨rfl, hz0, hpz, hl⟩ := h
    obtain ⟨hzl, hn'⟩ := List.nodup_cons.mp hn
    have hzx : a ≠ x := fun e => hzl (e ▸ List.mem_append_right _ List.mem_cons_self)
    rw [if_neg hzx]
    have hznx : a ≠ nx x := by
      rcases hpost with ⟨_, e⟩ | hm
      · exact e ▸ hz0
      · exact fun e => hzl (List.mem_append_right _ (List.mem_cons_of_mem _ (e ▸ hm)))
    refine ⟨rfl, hz0, ?_, ?_⟩
    · rw [Function.update_of_ne hznx]
      exact hpz
    have hrec := ih hl hn' hzl
    cases l1 with
    | nil =>
      -- its own link forward is the one that changes
      obtain ⟨hax, _, hxa, _⟩ := hl
      rw [hxa, Function.update_self]
      rw [if_pos hax, hxa] at hrec
      exact hrec
    | cons y l1 =>
      have hya : nx a = y := hl.1
      have hpx : pv x ≠ a := by
        rcases hl.neighbours.1 with ⟨e, _⟩ | hm
        · cases e
        · exact fun e => hzl (e ▸ List.mem_append_left _ hm)
      have hyx : nx a ≠ x := by
        rw [hya]
        intro e
        obtain ⟨hy, _⟩ := List.nodup_cons.mp hn'
        exact hy (e ▸ List.mem_append_right _ List.mem_cons_self)
      rw [Function.update_of_ne (Ne.symm hpx)]
      rwa [if_neg hyx] at hrec

end FxRtos.Lib
