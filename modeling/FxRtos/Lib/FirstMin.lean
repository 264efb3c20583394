/-
  File:      FxRtos/Lib/FirstMin.lean
  Subject:   THE FIRST OF THE SMALLEST. A scan over a list that keeps an element until a smaller
             one comes ends with the first of those for which `f` is smallest.
-/
import Mathlib.Order.Lattice

namespace FxRtos.Lib

variable {α β : Type*} [LinearOrder β] {f : α → β} {l : List α} {x : α}

/-- `x` stands in `l` before all the others that are as small, and none is smaller. -/
def FirstMin (f : α → β) (l : List α) (x : α) : Prop :=
  ∃ pre post, l = pre ++ x :: post ∧ (∀ y ∈ pre, f x < f y) ∧ ∀ y ∈ post, f x ≤ f y

theorem FirstMin.mem (h : FirstMin f l x) : x ∈ l := by
  obtain ⟨pre, post, rfl, _, _⟩ := h
  exact List.mem_append_right _ List.mem_cons_self

theorem FirstMin.le (h : FirstMin f l x) : ∀ y ∈ l, f x ≤ f y := by
  obtain ⟨pre, post, rfl, hpre, hpost⟩ := h
  intro y hy
  rcases List.mem_append.mp hy with hy | hy
  · exact le_of_lt (hpre y hy)
  · rcases List.mem_cons.mp hy with rfl | hy
    · exact le_refl _
    · exact hpost y hy

/-- What the scan has kept is the first of the smallest seen so far. -/
theorem FirstMin.scan (h : FirstMin f l x) (rest : List α) : FirstMin f (l ++ rest)
    (rest.foldl (fun next y => if f y < f next then y else next) x) := by
  induction rest generalizing l x with
  | nil => rwa [List.append_nil]
  | cons y rest ih =>
    rw [List.foldl_cons, ← List.singleton_append, ← List.append_assoc]
    refine ih ?_
    split
    · rename_i hlt
      exact ⟨l, [], rfl, fun z hz => lt_of_lt_of_le hlt (h.le z hz), nofun⟩
    · rename_i hle
      obtain ⟨pre, post, rfl, hpre, hpost⟩ := h
      refine ⟨pre, post ++ [y], by simp, hpre, fun z hz => ?_⟩
      rcases List.mem_append.mp hz with hz | hz
      · exact hpost z hz
      · rw [List.mem_singleton.mp hz]
        exact not_lt.mp hle

theorem firstMin_scan (f : α → β) (x : α) (rest : List α) : FirstMin f (x :: rest)
    (rest.foldl (fun next y => if f y < f next then y else next) x) :=
  FirstMin.scan (l := [x]) ⟨[], [], rfl, nofun, nofun⟩ rest

end FxRtos.Lib
