/-
  File:      FxRtos/Lib/Bits.lean
  Subject:   ONE BIT OF A WORD. Setting, clearing and finding the lowest set bit of a machine
             word, read bit by bit (`getLsbD`): what a bitmap of flags needs. Tags in the two lowest
             bits of a multiple of four.
-/
import Mathlib.Algebra.Ring.Nat

namespace FxRtos.Lib

variable {w : Nat} {b : BitVec w}

theorem getLsbD_one_shiftLeft {i j : Nat} (hj : j < w) :
    (1#w <<< i).getLsbD j = decide (i = j) := by
  rw [BitVec.getLsbD_shiftLeft]
  by_cases h : i = j
  · subst h
    simp [hj, Nat.zero_lt_of_lt hj]
  · by_cases hlt : j < i
    · simp [hlt, h]
    · have hne : j - i ≠ 0 := by omega
      simp [h, hne]

theorem one_shiftLeft_ne {i : Nat} (hi : i < w) : 1#w <<< i ≠ 0#w := fun h => by
  have := getLsbD_one_shiftLeft (i := i) hi
  rw [h, BitVec.getLsbD_zero, decide_eq_true rfl] at this
  cases this

theorem one_shiftLeft_shiftRight {i : Nat} (hi : i + 1 < w) :
    (1#w <<< (i + 1)) >>> 1 = 1#w <<< i := by
  refine BitVec.eq_of_getLsbD_eq fun j hj => ?_
  rw [BitVec.getLsbD_ushiftRight, getLsbD_one_shiftLeft hj]
  by_cases hlt : 1 + j < w
  · rw [getLsbD_one_shiftLeft hlt]
    exact decide_eq_decide.mpr (by omega)
  · rw [BitVec.getLsbD_of_ge _ _ (Nat.not_lt.mp hlt), decide_eq_false (by omega)]

/-- Setting bit `i` sets that bit and no other. -/
theorem getLsbD_setBit {i j : Nat} (hj : j < w) :
    (b ||| 1#w <<< i).getLsbD j = (b.getLsbD j || decide (i = j)) := by
  rw [BitVec.getLsbD_or, getLsbD_one_shiftLeft hj]

/-- Clearing bit `i` clears that bit and no other. -/
theorem getLsbD_clearBit {i j : Nat} (hj : j < w) :
    (b &&& ~~~(1#w <<< i)).getLsbD j = (b.getLsbD j && decide (i ≠ j)) := by
  rw [BitVec.getLsbD_and, BitVec.getLsbD_not, getLsbD_one_shiftLeft hj]
  simp [hj]

/-- A mask of ones from bit `i` on keeps the bits from there on. -/
theorem getLsbD_from {i j : Nat} (hj : j < w) :
    (b &&& ((~~~0#w) <<< i)).getLsbD j = (b.getLsbD j && decide (i ≤ j)) := by
  rw [BitVec.getLsbD_and, BitVec.getLsbD_shiftLeft, BitVec.getLsbD_not, BitVec.getLsbD_zero]
  have hsub : j - i < w := by omega
  by_cases hij : i ≤ j
  · simp [hj, hsub, hij, Nat.not_lt.mpr hij]
  · simp [hij, Nat.not_le.mp hij]

/-- A word is non-zero exactly if one of its bits is set. -/
theorem ne_zero_iff_bit : b ≠ 0#w ↔ ∃ j, j < w ∧ b.getLsbD j = true := by
  constructor
  · intro h
    exact Classical.byContradiction fun hn => h (BitVec.eq_of_getLsbD_eq fun j hj => by
      simpa using fun hb => hn ⟨j, hj, hb⟩)
  · rintro ⟨j, _, hb⟩ rfl
    simp at hb

theorem ctz_lt (h : b ≠ 0#w) : b.ctz.toNat < w := by
  obtain ⟨j, hj, _⟩ := ne_zero_iff_bit.mp h
  exact Classical.byContradiction fun hge => by
    have := BitVec.getLsbD_true_ctz_of_ne_zero h
    rw [BitVec.getLsbD_of_ge b _ (by omega)] at this
    cases this

/-- The highest set bit by the leading zeros. -/
theorem log2_toNat (h : b ≠ 0#w) : b.toNat.log2 = w - 1 - b.clz.toNat := by
  have hlt : b.clz.toNat < w := by
    have := BitVec.lt_def.mp (BitVec.clz_lt_iff_ne_zero.mpr h)
    simpa using this
  have h0 : b.toNat ≠ 0 := fun e => h (BitVec.eq_of_toNat_eq (by simpa using e))
  refine (Nat.log2_eq_iff h0).mpr
    ⟨BitVec.two_pow_sub_clz_le_toNat_of_ne_zero (by omega) h, ?_⟩
  have := BitVec.toNat_lt_two_pow_sub_clz (x := b)
  rwa [show w - 1 - b.clz.toNat + 1 = w - b.clz.toNat by omega]

/-- Above the highest set bit there is none. -/
theorem getLsbD_log2 (h : b ≠ 0#w) :
    b.getLsbD b.toNat.log2 = true ∧ ∀ j, b.getLsbD j = true → j ≤ b.toNat.log2 := by
  have h0 : b.toNat ≠ 0 := fun e => h (BitVec.eq_of_toNat_eq (by simpa using e))
  refine ⟨Nat.testBit_log2 h0, fun j hj => Nat.not_lt.mp fun hlt => ?_⟩
  have hz : b.toNat.testBit j = false :=
    Nat.testBit_lt_two_pow ((Nat.log2_lt h0).mp hlt)
  rw [show b.getLsbD j = b.toNat.testBit j from rfl, hz] at hj
  cases hj

/-- The lowest set bit alone. -/
theorem getLsbD_lowest {i : Nat} (h : b ≠ 0#w) :
    (b &&& (~~~b + 1#w)).getLsbD i = decide (i = b.ctz.toNat) := by
  have hc := BitVec.getLsbD_true_ctz_of_ne_zero h
  rw [← BitVec.neg_eq_not_add, BitVec.getLsbD_and, BitVec.getLsbD_neg]
  rcases Nat.lt_trichotomy i b.ctz.toNat with hlt | rfl | hlt
  · rw [BitVec.getLsbD_false_of_lt_ctz hlt]
    simp [Nat.ne_of_lt hlt]
  · rw [hc]
    have hnone : ¬ ∃ j < b.ctz.toNat, b.getLsbD j = true := by
      rintro ⟨j, hj, e⟩
      rw [BitVec.getLsbD_false_of_lt_ctz hj] at e
      cases e
    simp [hnone]
  · have hsome : ∃ j < i, b.getLsbD j = true := ⟨_, hlt, hc⟩
    by_cases hi : i < w
    · simp [hsome, hi, Nat.ne_of_gt hlt]
    · simp [BitVec.getLsbD_of_ge b i (Nat.not_lt.mp hi), Nat.ne_of_gt hlt]

theorem clz_lowest (h : b ≠ 0#w) : w - 1 - (b &&& (~~~b + 1#w)).clz.toNat = b.ctz.toNat := by
  have hlt := ctz_lt h
  have hne : b &&& (~~~b + 1#w) ≠ 0#w :=
    ne_zero_iff_bit.mpr ⟨b.ctz.toNat, hlt, by rw [getLsbD_lowest h]; exact decide_eq_true rfl⟩
  have hbit := BitVec.getLsbD_true_clz_of_ne_zero (Nat.zero_lt_of_lt hlt) hne
  rw [getLsbD_lowest h] at hbit
  exact of_decide_eq_true hbit

/-- The test of one bit by a mask. -/
theorem and_bit_eq_zero {i : Nat} (hi : i < w) :
    b &&& 1#w <<< i = 0#w ↔ b.getLsbD i = false := by
  have hbit (j : Nat) (hj : j < w) :
      (b &&& 1#w <<< i).getLsbD j = (b.getLsbD j && decide (i = j)) := by
    rw [BitVec.getLsbD_and, getLsbD_one_shiftLeft hj]
  constructor
  · intro h
    have := hbit i hi
    rwa [h, BitVec.getLsbD_zero, decide_eq_true rfl, Bool.and_true, eq_comm] at this
  · intro h
    refine BitVec.eq_of_getLsbD_eq fun j hj => ?_
    rw [hbit j hj, BitVec.getLsbD_zero]
    by_cases hij : i = j
    · rw [← hij, h, Bool.false_and]
    · rw [decide_eq_false hij, Bool.and_false]

theorem clearBit_of_clear {i : Nat} (h : b.getLsbD i = false) : b &&& ~~~(1#w <<< i) = b := by
  refine BitVec.eq_of_getLsbD_eq fun j hj => ?_
  rw [getLsbD_clearBit hj]
  by_cases hij : i = j
  · rw [← hij, h, Bool.false_and]
  · rw [decide_eq_true hij, Bool.and_true]

theorem setBit_of_set {i : Nat} (h : b.getLsbD i = true) : b ||| 1#w <<< i = b := by
  refine BitVec.eq_of_getLsbD_eq fun j hj => ?_
  rw [getLsbD_setBit hj]
  by_cases hij : i = j
  · rw [← hij, h]
    simp
  · simp [hij]

/-- Setting a bit that is clear is an addition. -/
theorem setBit_eq_add {i : Nat} (hi : i < w) (h : b.getLsbD i = false) :
    b ||| 1#w <<< i = b + 1#w <<< i :=
  (BitVec.add_eq_or_of_and_eq_zero b _ ((and_bit_eq_zero hi).mpr h)).symm

theorem clearBit_add {i : Nat} (hi : i < w) (h : b.getLsbD i = true) :
    (b &&& ~~~(1#w <<< i)) + 1#w <<< i = b := by
  have hclear : (b &&& ~~~(1#w <<< i)).getLsbD i = false := by
    rw [getLsbD_clearBit hi]
    simp
  rw [← setBit_eq_add hi hclear]
  refine BitVec.eq_of_getLsbD_eq fun j hj => ?_
  rw [getLsbD_setBit hj, getLsbD_clearBit hj]
  by_cases hij : i = j
  · rw [← hij, h, Bool.true_and, decide_eq_true rfl, Bool.or_true]
  · rw [decide_eq_true hij, decide_eq_false hij, Bool.and_true, Bool.or_false]

/-- The leading zeros by the highest set bit. -/
theorem clz_of_highest {i : Nat} (hi : b.getLsbD i = true)
    (h : ∀ j, i < j → b.getLsbD j = false) : b.clz.toNat = w - 1 - i := by
  have hiw : i < w := Classical.byContradiction fun hn => by
    rw [BitVec.getLsbD_of_ge b i (Nat.not_lt.mp hn)] at hi
    cases hi
  have hne : b ≠ 0#w := ne_zero_iff_bit.mpr ⟨i, hiw, hi⟩
  obtain ⟨hlog, hmax⟩ := getLsbD_log2 hne
  have hle : b.toNat.log2 ≤ i := Nat.not_lt.mp fun hlt => by
    rw [h _ hlt] at hlog
    cases hlog
  have he := log2_toNat hne
  have hge := hmax i hi
  have hclz : b.clz.toNat < w := by
    have := BitVec.lt_def.mp (BitVec.clz_lt_iff_ne_zero.mpr hne)
    simpa using this
  omega

theorem ctz_of_lowest {i : Nat} (hi : b.getLsbD i = true)
    (h : ∀ j, j < i → b.getLsbD j = false) : b.ctz.toNat = i := by
  have hiw : i < w := Classical.byContradiction fun hn => by
    rw [BitVec.getLsbD_of_ge b i (Nat.not_lt.mp hn)] at hi
    cases hi
  have hne : b ≠ 0#w := ne_zero_iff_bit.mpr ⟨i, hiw, hi⟩
  have hc := BitVec.getLsbD_true_ctz_of_ne_zero hne
  refine Nat.le_antisymm (Nat.not_lt.mp fun hlt => ?_) (Nat.not_lt.mp fun hlt => ?_)
  · rw [BitVec.getLsbD_false_of_lt_ctz hlt] at hi
    cases hi
  · rw [h _ hlt] at hc
    cases hc

theorem clz_zero : (0#w).clz = BitVec.ofNat w w := BitVec.clz_eq_iff_eq_zero.mpr rfl

theorem ctz_zero : (0#w).ctz = BitVec.ofNat w w := by
  rw [BitVec.ctz_eq_reverse_clz]
  exact BitVec.clz_eq_iff_eq_zero.mpr
    (BitVec.eq_of_getLsbD_eq fun j hj => by simp [BitVec.getLsbD_reverse])

/-! A word whose multiple of four `s` carries a tag `r` in its two lowest bits. -/

section Marken

variable {s r q : Nat}

theorem testBit_tag (hs : 4 ∣ s) (hr : r < 4) (j : Nat) :
    (s + r).testBit j = if j < 2 then r.testBit j else s.testBit j := by
  obtain ⟨k, rfl⟩ := hs
  rw [show 4 * k + r = 2 ^ 2 * k + r from rfl, Nat.testBit_two_pow_mul_add k hr]
  split
  · rfl
  · rename_i hj
    rw [show 4 * k = 2 ^ 2 * k from rfl, Nat.testBit_two_pow_mul]
    simp [Nat.not_lt.mp hj]

theorem testBit_small {j : Nat} (hq : q < 4) (hj : ¬ j < 2) : q.testBit j = false :=
  Nat.testBit_lt_two_pow (Nat.lt_of_lt_of_le hq (Nat.pow_le_pow_right (by decide : 0 < 2)
    (Nat.not_lt.mp hj)))

theorem tag_or (hs : 4 ∣ s) (hr : r < 4) (hq : q < 4) : (s + r) ||| q = s + (r ||| q) := by
  have hrq : r ||| q < 4 := Nat.or_lt_two_pow (show r < 2 ^ 2 from hr) hq
  refine Nat.eq_of_testBit_eq fun j => ?_
  rw [Nat.testBit_or, testBit_tag hs hr, testBit_tag hs hrq]
  split
  · exact (Nat.testBit_or ..).symm
  · rename_i hj
    rw [testBit_small hq hj, Bool.or_false]

theorem tag_and (hs : 4 ∣ s) (hr : r < 4) (hq : q < 4) : (s + r) &&& q = r &&& q := by
  refine Nat.eq_of_testBit_eq fun j => ?_
  rw [Nat.testBit_and, Nat.testBit_and, testBit_tag hs hr]
  split
  · rfl
  · rename_i hj
    rw [testBit_small hq hj, Bool.and_false, Bool.and_false]

/-- A mask of ones above the tag, as wide as the word. -/
theorem tag_and_mask {n : Nat} (hs : 4 ∣ s) (hr : r < 4) (hq : q < 4) (hlt : s < 2 ^ (n + 2)) :
    (s + r) &&& (4 * (2 ^ n - 1) + q) = s + (r &&& q) := by
  have hrq : r &&& q < 4 := Nat.lt_of_le_of_lt Nat.and_le_left hr
  refine Nat.eq_of_testBit_eq fun j => ?_
  rw [Nat.testBit_and, testBit_tag hs hr, testBit_tag hs hrq,
    testBit_tag (Nat.dvd_mul_right 4 _) hq]
  split
  · exact (Nat.testBit_and ..).symm
  · rename_i hj
    rw [show 4 * (2 ^ n - 1) = 2 ^ 2 * (2 ^ n - 1) from rfl, Nat.testBit_two_pow_mul,
      Nat.testBit_two_pow_sub_one]
    by_cases hjn : j - 2 < n
    · simp [Nat.not_lt.mp hj, hjn]
    · have hs0 : s.testBit j = false :=
        Nat.testBit_lt_two_pow (Nat.lt_of_lt_of_le hlt
          (Nat.pow_le_pow_right (by decide) (by omega)))
      rw [hs0, Bool.false_and]

end Marken

end FxRtos.Lib
