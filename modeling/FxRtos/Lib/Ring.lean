/-
  File:      FxRtos/Lib/Ring.lean
  Subject:   RING BUFFERS: `items` of the `n` cells of a buffer, read from the cell `tail` on, with
             indices modulo `n`. Putting a message to either end and taking one out, as lists.
-/
import Mathlib.Data.Nat.ModEq
import Mathlib.Data.List.Basic
import Mathlib.Logic.Function.Basic

namespace FxRtos.Lib

open Function (update)

variable {α : Type*} {buf : Nat → α} {n tail items : Nat} {x : α}

/-- What the ring holds, from its front to its back. -/
def ring (n : Nat) (buf : Nat → α) (tail items : Nat) : List α :=
  (List.range items).map fun i => buf ((tail + i) % n)

@[simp] theorem ring_length : (ring n buf tail items).length = items := by
  unfold ring
  rw [List.length_map, List.length_range]

/-- Two cells of a ring are the same only at the same place. -/
theorem ring_cell_ne {i j : Nat} (hi : i < n) (hj : j < n) (hij : i ≠ j) :
    (tail + i) % n ≠ (tail + j) % n := by
  intro h
  have h' : i % n = j % n := Nat.ModEq.add_left_cancel' tail h
  rw [Nat.mod_eq_of_lt hi, Nat.mod_eq_of_lt hj] at h'
  exact hij h'

/-- A cell written behind the last one. -/
theorem ring_append (h : items < n) :
    ring n (update buf ((tail + items) % n) x) tail (items + 1) = ring n buf tail items ++ [x] := by
  unfold ring
  rw [List.range_succ, List.map_append, List.map_singleton, Function.update_self]
  congr 1
  refine List.map_congr_left fun i hi => ?_
  have hlt := List.mem_range.mp hi
  exact Function.update_of_ne (ring_cell_ne (by omega) h (by omega)) ..

/-- A cell written before the first one. -/
theorem ring_cons (h : items < n) :
    ring n (update buf ((tail + (n - 1)) % n) x) ((tail + (n - 1)) % n) (items + 1) =
      x :: ring n buf tail items := by
  -- the old cells are one place further from the new front
  have hshift : ∀ i, ((tail + (n - 1)) % n + (i + 1)) % n = (tail + i) % n := by
    intro i
    rw [Nat.mod_add_mod, show tail + (n - 1) + (i + 1) = tail + i + n by omega, Nat.add_mod_right]
  unfold ring
  rw [List.range_succ_eq_map, List.map_cons, List.map_map, Nat.add_zero, Nat.mod_mod,
    Function.update_self]
  congr 1
  refine List.map_congr_left fun i hi => ?_
  have hlt := List.mem_range.mp hi
  have hne : (tail + i) % n ≠ (tail + (n - 1)) % n := by
    refine ring_cell_ne (by omega) (by omega) ?_
    omega
  show update buf _ x (((tail + (n - 1)) % n + (i + 1)) % n) = _
  rw [hshift, Function.update_of_ne hne]

/-- The first cell taken out. -/
theorem ring_uncons (ht : tail < n) (h : 0 < items) :
    ring n buf tail items = buf tail :: ring n buf ((tail + 1) % n) (items - 1) := by
  obtain ⟨m, rfl⟩ := Nat.exists_eq_succ_of_ne_zero (Nat.ne_of_gt h)
  unfold ring
  rw [Nat.succ_eq_add_one, List.range_succ_eq_map, List.map_cons, List.map_map, Nat.add_zero,
    Nat.mod_eq_of_lt ht, Nat.add_sub_cancel]
  congr 1
  refine List.map_congr_left fun i _ => ?_
  show buf ((tail + (i + 1)) % n) = buf (((tail + 1) % n + i) % n)
  rw [Nat.mod_add_mod, show tail + (i + 1) = tail + 1 + i by omega]

end FxRtos.Lib
