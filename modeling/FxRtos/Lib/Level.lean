/-
  File:      FxRtos/Lib/Level.lean
  Subject:   NESTED OVERRIDES. A value is overridden by the elements of a stack, each of which
             lowers it to its own bound. An element that is put on the stack saves the value as
             it was; to undo an override is to bring back what was saved.

  * `level` -- the value under all overrides: the smallest of the base and the bounds.
  * `Saved` -- each element has saved the level of those below it.
  * `Saved.erase_iff` -- what an element brings back is the level of the others, and they have
    saved the right values, exactly if it is on top or its override does nothing.
-/
import Mathlib.Order.Lattice

namespace FxRtos.Lib

variable {α β : Type*} [LinearOrder β] {bound saved saved' : α → β} {base : β} {l : List α}
  {x : α}

/-- The base lowered to the bound of each element. -/
def level (bound : α → β) (base : β) : List α → β
  | [] => base
  | x :: l => min (level bound base l) (bound x)

theorem level_le_base : ∀ l : List α, level bound base l ≤ base
  | [] => le_refl _
  | _ :: l => le_trans (min_le_left _ _) (level_le_base l)

theorem level_le (hx : x ∈ l) : level bound base l ≤ bound x := by
  induction l with
  | nil => cases hx
  | cons y l ih =>
    rcases List.mem_cons.mp hx with rfl | hx
    · exact min_le_right _ _
    · exact le_trans (min_le_left _ _) (ih hx)

theorem level_attained (bound : α → β) (base : β) : ∀ l : List α, level bound base l = base ∨
    ∃ x ∈ l, level bound base l = bound x
  | [] => Or.inl rfl
  | y :: l => by
    rcases le_total (level bound base l) (bound y) with h | h
    · have he : level bound base (y :: l) = level bound base l := min_eq_left h
      rcases level_attained bound base l with hl | ⟨x, hx, hl⟩
      · exact Or.inl (he.trans hl)
      · exact Or.inr ⟨x, List.mem_cons_of_mem _ hx, he.trans hl⟩
    · exact Or.inr ⟨y, List.mem_cons_self, min_eq_right h⟩

/-- Each element has saved the level below it. -/
def Saved (bound saved : α → β) (base : β) : List α → Prop
  | [] => True
  | x :: l => saved x = level bound base l ∧ Saved bound saved base l

theorem Saved.congr (h : Saved bound saved base l) (hs : ∀ x ∈ l, saved' x = saved x) :
    Saved bound saved' base l := by
  induction l with
  | nil => trivial
  | cons y l ih =>
    exact ⟨(hs y List.mem_cons_self).trans h.1,
      ih h.2 fun x hx => hs x (List.mem_cons_of_mem _ hx)⟩

/-- What was saved is above the level. -/
theorem Saved.level_le (h : Saved bound saved base l) (hx : x ∈ l) :
    level bound base l ≤ saved x := by
  induction l with
  | nil => cases hx
  | cons y l ih =>
    refine le_trans (min_le_left _ _) ?_
    rcases List.mem_cons.mp hx with rfl | hx
    · exact le_of_eq h.1.symm
    · exact ih h.2 hx

/-- **To undo an override** is right exactly if it is the last one, or does nothing. -/
theorem Saved.erase_iff [DecidableEq α] (h : Saved bound saved base l) (hx : x ∈ l) :
    level bound base (l.erase x) = saved x ∧ Saved bound saved base (l.erase x) ↔
      l.head? = some x ∨ saved x = level bound base l := by
  induction l with
  | nil => cases hx
  | cons y l ih =>
    by_cases hxy : y = x
    · subst hxy
      rw [List.erase_cons_head]
      exact iff_of_true ⟨h.1.symm, h.2⟩ (Or.inl rfl)
    · have hx : x ∈ l := (List.mem_cons.mp hx).resolve_left (Ne.symm hxy)
      have hhead : (y :: l).head? ≠ some x := fun e => hxy (Option.some.inj e)
      rw [List.erase_cons_tail (by simpa using hxy), or_iff_right hhead]
      constructor
      · -- the element above has saved the level with `x` and would have to save it without
        rintro ⟨hlevel, hy, _⟩
        have hsame : level bound base (l.erase x) = level bound base l := hy.symm.trans h.1
        rw [← hlevel]
        show min _ _ = min _ _
        rw [hsame]
      · intro hs
        -- the override of `x` does nothing below either
        have hl : saved x = level bound base l := by
          refine le_antisymm ?_ (h.2.level_le hx)
          rw [hs]
          exact min_le_left _ _
        obtain ⟨he, hsaved⟩ := (ih h.2 hx).mpr (Or.inr hl)
        rw [hl] at he
        refine ⟨?_, h.1.trans he.symm, hsaved⟩
        rw [hs]
        show min _ _ = min _ _
        rw [he]

end FxRtos.Lib
