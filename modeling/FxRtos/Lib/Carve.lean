/-
  File:      FxRtos/Lib/Carve.lean
  Subject:   A REGION CUT INTO PIECES of one size, one after the other from its base on.
-/
import Mathlib.Data.List.Pairwise
import Mathlib.Data.List.Range

namespace FxRtos.Lib

variable {base size n x : Nat}

/-- The addresses of `n` pieces. -/
def carve (base size n : Nat) : List Nat := (List.range n).map fun i => base + i * size

@[simp] theorem carve_length : (carve base size n).length = n := by
  unfold carve
  rw [List.length_map, List.length_range]

/-- The first piece, and the pieces behind it. -/
theorem carve_succ : carve base size (n + 1) = base :: carve (base + size) size n := by
  unfold carve
  rw [List.range_succ_eq_map, List.map_cons, List.map_map, Nat.zero_mul, Nat.add_zero]
  congr 1
  refine List.map_congr_left fun i _ => ?_
  show base + (i + 1) * size = base + size + i * size
  rw [Nat.succ_mul]
  omega

theorem mem_carve (h : x ∈ carve base size n) : ∃ i < n, x = base + i * size := by
  obtain ⟨i, hi, rfl⟩ := List.mem_map.mp h
  exact ⟨i, List.mem_range.mp hi, rfl⟩

/-- Every piece ends inside the region. -/
theorem carve_le {total : Nat} (hn : n * size ≤ total) (h : x ∈ carve base size n) :
    base ≤ x ∧ x + size ≤ base + total := by
  obtain ⟨i, hi, rfl⟩ := mem_carve h
  have hmul : (i + 1) * size ≤ n * size := Nat.mul_le_mul_right size hi
  rw [Nat.succ_mul] at hmul
  omega

/-- No two pieces overlap. -/
theorem carve_apart : (carve base size n).Pairwise fun x y => x + size ≤ y ∨ y + size ≤ x := by
  unfold carve
  refine List.pairwise_map.mpr ((List.pairwise_lt_range).imp fun {i j} hij => Or.inl ?_)
  have hmul : (i + 1) * size ≤ j * size := Nat.mul_le_mul_right size hij
  rw [Nat.succ_mul] at hmul
  omega

end FxRtos.Lib
