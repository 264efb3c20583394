/-
  File:      FxRtos/Lib/Circular.lean
  Subject:   THE CIRCULAR ORDER OF MACHINE WORDS. Two words compared by the sign of their
             difference: on the residues of numbers that lie less than half the range apart
             this is the order of the numbers themselves, whatever the words wrapped around.

  * `circLt_ofNat`, `circLe_ofNat` -- the comparison is exact inside such a window.
  * `pairwise_orderedInsert`, `pairwise_orderedInsert_least` -- insertion into a list sorted by a
    key, by any comparison that is exact on the keys it is made on.
  * `compared` -- the elements that the insertion looks at.
-/
import Mathlib.Algebra.Order.Ring.Nat
import Mathlib.Algebra.Order.Ring.Int
import Mathlib.Data.List.Sort

namespace FxRtos.Lib

/-! ## 1. The comparison -/

section Vergleich

variable {w : Nat} {a b : Nat}

/-- `a` lies before `b`: the difference is negative. -/
def circLt (a b : BitVec w) : Bool := decide ((a - b).toInt < 0)

def circLe (a b : BitVec w) : Bool := decide ((a - b).toInt ≤ 0)

/-- The signed difference of the residues is the difference, where that fits. -/
theorem toInt_ofNat_sub_ofNat (h1 : 2 * a < 2 * b + 2 ^ w) (h2 : 2 * b ≤ 2 * a + 2 ^ w) :
    (BitVec.ofNat w a - BitVec.ofNat w b).toInt = (a : Int) - b := by
  rw [BitVec.toInt_sub, BitVec.toInt_ofNat', BitVec.toInt_ofNat', Int.bmod_sub_bmod,
    Int.sub_bmod_bmod]
  have h1' : (2 : Int) * a < 2 * b + (2 ^ w : Nat) := by exact_mod_cast h1
  have h2' : (2 : Int) * b ≤ 2 * a + (2 ^ w : Nat) := by exact_mod_cast h2
  exact Int.bmod_eq_of_le_mul_two (by omega) (by omega)

/-- **Inside a window of half the range the circular order is the order.** -/
theorem circLt_ofNat (h1 : 2 * a < 2 * b + 2 ^ w) (h2 : 2 * b ≤ 2 * a + 2 ^ w) :
    circLt (BitVec.ofNat w a) (BitVec.ofNat w b) = true ↔ a < b := by
  rw [circLt, decide_eq_true_iff, toInt_ofNat_sub_ofNat h1 h2]
  omega

theorem circLe_ofNat (h1 : 2 * a < 2 * b + 2 ^ w) (h2 : 2 * b ≤ 2 * a + 2 ^ w) :
    circLe (BitVec.ofNat w a) (BitVec.ofNat w b) = true ↔ a ≤ b := by
  rw [circLe, decide_eq_true_iff, toInt_ofNat_sub_ofNat h1 h2]
  omega

end Vergleich

/-! ## 2. Sorted insertion -/

section Einfuegen

variable {α : Type*} {r : α → α → Prop} [DecidableRel r] {key : α → Nat} {x : α}

/-- Inserting before the first element of a larger key keeps a list sorted. Only the least of the
    larger ones has to be found larger, since the comparisons stop there. -/
theorem pairwise_orderedInsert_least {l : List α} (hle : ∀ y ∈ l, key y ≤ key x → ¬ r x y)
    (hlt : ∀ y ∈ l, key x < key y → (∀ z ∈ l, key x < key z → key y ≤ key z) → r x y)
    (h : l.Pairwise fun y z => key y ≤ key z) :
    (l.orderedInsert r x).Pairwise fun y z => key y ≤ key z := by
  induction l with
  | nil => exact List.pairwise_singleton _ x
  | cons y l ih =>
    obtain ⟨hy, hl⟩ := List.pairwise_cons.mp h
    rw [List.orderedInsert_cons]
    split
    · rename_i hxy
      have hlt' : key x < key y :=
        Nat.lt_of_not_le fun hyx => hle y List.mem_cons_self hyx hxy
      refine List.pairwise_cons.mpr ⟨fun z hz => ?_, h⟩
      rcases List.mem_cons.mp hz with rfl | hz
      · exact Nat.le_of_lt hlt'
      · exact Nat.le_trans (Nat.le_of_lt hlt') (hy z hz)
    · rename_i hxy
      have hyx : key y ≤ key x := by
        refine Nat.le_of_not_lt fun hlt' => hxy (hlt y List.mem_cons_self hlt' fun z hz _ => ?_)
        rcases List.mem_cons.mp hz with rfl | hz
        · exact Nat.le_refl _
        · exact hy z hz
      refine List.pairwise_cons.mpr ⟨fun z hz => ?_, ih ?_ ?_ hl⟩
      · rcases (List.mem_orderedInsert r).mp hz with rfl | hz
        · exact hyx
        · exact hy z hz
      · exact fun z hz => hle z (List.mem_cons_of_mem y hz)
      · refine fun z hz hxz hleast => hlt z (List.mem_cons_of_mem y hz) hxz fun w hw hxw => ?_
        rcases List.mem_cons.mp hw with rfl | hw
        · omega
        · exact hleast w hw hxw

/-- A comparison that is exact on all keys. -/
theorem pairwise_orderedInsert {l : List α} (hr : ∀ y ∈ l, r x y ↔ key x < key y)
    (h : l.Pairwise fun y z => key y ≤ key z) :
    (l.orderedInsert r x).Pairwise fun y z => key y ≤ key z :=
  pairwise_orderedInsert_least (fun y hy hle hxy => absurd ((hr y hy).mp hxy) (Nat.not_lt.mpr hle))
    (fun y hy hlt _ => (hr y hy).mpr hlt) h

/-- The elements an insertion compares with: it stops at the first that comes after. -/
def compared (r : α → α → Prop) [DecidableRel r] (x : α) : List α → List α
  | [] => []
  | y :: l => y :: if r x y then [] else compared r x l

/-- In a sorted list they are those that no larger one precedes, if the comparison is exact on all
    that have the property. -/
theorem forall_compared {P : α → Prop} {l : List α}
    (hr : ∀ y ∈ l, P y → (r x y ↔ key x < key y))
    (hP : ∀ y ∈ l, ∀ z ∈ l, key y = key z → P y → P z)
    (h : l.Pairwise fun y z => key y ≤ key z) : (∀ y ∈ compared r x l, P y) ↔
      ∀ y ∈ l, (∀ z ∈ l, key x < key z → key y ≤ key z) → P y := by
  induction l with
  | nil => exact iff_of_true nofun nofun
  | cons y l ih =>
    obtain ⟨hy, hl⟩ := List.pairwise_cons.mp h
    have ih := ih (fun z hz => hr z (List.mem_cons_of_mem y hz))
      (fun z hz w hw => hP z (List.mem_cons_of_mem y hz) w (List.mem_cons_of_mem y hw)) hl
    -- the first one is compared, and no larger one precedes it
    have hfirst : ∀ z ∈ y :: l, key x < key z → key y ≤ key z := by
      intro z hz _
      rcases List.mem_cons.mp hz with rfl | hz
      · exact Nat.le_refl _
      · exact hy z hz
    by_cases hPy : P y
    · have hxy := hr y List.mem_cons_self hPy
      unfold compared
      rw [List.forall_mem_cons]
      by_cases hlt : key x < key y
      · -- the insertion stops here, and nothing after it counts but what has the same key
        rw [if_pos (hxy.mpr hlt)]
        refine iff_of_true ⟨hPy, fun z hz => nomatch hz⟩ fun z hz hleast => ?_
        have hzy := hleast y List.mem_cons_self hlt
        have hyz : key y ≤ key z := by
          rcases List.mem_cons.mp hz with rfl | hz
          · exact Nat.le_refl _
          · exact hy z hz
        exact hP y List.mem_cons_self z hz (Nat.le_antisymm hyz hzy) hPy
      · rw [if_neg fun h => hlt (hxy.mp h), ih]
        constructor
        · intro ⟨_, hall⟩ z hz hleast
          rcases List.mem_cons.mp hz with rfl | hz
          · exact hPy
          · exact hall z hz fun w hw => hleast w (List.mem_cons_of_mem y hw)
        · intro hall
          refine ⟨hPy, fun z hz hleast => ?_⟩
          refine hall z (List.mem_cons_of_mem y hz) fun w hw hxw => ?_
          rcases List.mem_cons.mp hw with rfl | hw
          · exact absurd hxw hlt
          · exact hleast w hw hxw
    · refine iff_of_false (fun hall => hPy (hall y ?_)) fun hall =>
        hPy (hall y List.mem_cons_self hfirst)
      unfold compared
      exact List.mem_cons_self

end Einfuegen

end FxRtos.Lib
