/-
  File:      FxRtos/Heap/Classes.lean
  Subject:   HEADER WORDS AND SIZE CLASSES of the memory pool: what the bit operations of
             rtl_mem_pool.c compute.

  * `word` -- the size word of a block with its two flags; one lemma for each way the code reads
    or writes it.
  * `tlsfFls_eq`, `tlsfFfs_eq` -- the highest and the lowest set bit.
  * `mappingInsert_lt` -- the class of a size lies inside the table.
  * `mappingSearch_above` -- **good fit**: a block too small for a request is in a class below
    the one the search begins with.
-/
import FxRtos.Lib.Bits
import FxRtos.Heap.Tlsf

namespace FxRtos

open Lib

/-! ## 1. Header words -/

/-- The size word of a block. -/
def word (size : Nat) (free prevFree : Bool) : Nat := size + (free.toNat + 2 * prevFree.toNat)

/-- A size that a header can hold. -/
def Sized (size : Nat) : Prop := 4 ∣ size ∧ size < sizeT

section Kopfwort

variable {s t : Nat} {f p : Bool}

theorem tag_lt (f p : Bool) : f.toNat + 2 * p.toNat < 4 := by
  cases f <;> cases p <;> decide

theorem word_size (hs : Sized s) :
    word s f p &&& bitNot (blkHeaderFreeBit ||| blkHeaderPrevFreeBit) = s := by
  refine (tag_and_mask (n := 30) (q := 0) hs.1 (tag_lt f p) (by decide) hs.2).trans ?_
  rw [Nat.and_zero, Nat.add_zero]

theorem word_flags (hs : Sized s) :
    word s f p &&& (blkHeaderFreeBit ||| blkHeaderPrevFreeBit) = f.toNat + 2 * p.toNat := by
  refine (tag_and hs.1 (tag_lt f p) (by decide)).trans ?_
  cases f <;> cases p <;> decide

theorem word_free (hs : Sized s) : (word s f p &&& blkHeaderFreeBit != 0) = f := by
  rw [show word s f p &&& blkHeaderFreeBit = _ from tag_and hs.1 (tag_lt f p) (by decide)]
  cases f <;> cases p <;> decide

theorem word_prevFree (hs : Sized s) : (word s f p &&& blkHeaderPrevFreeBit != 0) = p := by
  rw [show word s f p &&& blkHeaderPrevFreeBit = _ from tag_and hs.1 (tag_lt f p) (by decide)]
  cases f <;> cases p <;> decide

theorem word_setFree (hs : Sized s) : word s f p ||| blkHeaderFreeBit = word s true p := by
  refine (tag_or hs.1 (tag_lt f p) (by decide)).trans ?_
  cases f <;> cases p <;> rfl

theorem word_setPrevFree (hs : Sized s) : word s f p ||| blkHeaderPrevFreeBit = word s f true := by
  refine (tag_or hs.1 (tag_lt f p) (by decide)).trans ?_
  cases f <;> cases p <;> rfl

theorem word_setUsed (hs : Sized s) : word s f p &&& bitNot blkHeaderFreeBit = word s false p := by
  refine (tag_and_mask (n := 30) (q := 2) hs.1 (tag_lt f p) (by decide) hs.2).trans ?_
  cases f <;> cases p <;> rfl

theorem word_setPrevUsed (hs : Sized s) :
    word s f p &&& bitNot blkHeaderPrevFreeBit = word s f false := by
  refine (tag_and_mask (n := 30) (q := 1) hs.1 (tag_lt f p) (by decide) hs.2).trans ?_
  cases f <;> cases p <;> rfl

/-- Any old word leaves its flags below the new size. -/
theorem or_flags (hs : Sized s) (old : Nat) :
    ∃ f p, s ||| (old &&& (blkHeaderFreeBit ||| blkHeaderPrevFreeBit)) = word s f p := by
  have hold : old &&& (blkHeaderFreeBit ||| blkHeaderPrevFreeBit) < 4 :=
    Nat.lt_of_le_of_lt Nat.and_le_right (by decide)
  generalize old &&& (blkHeaderFreeBit ||| blkHeaderPrevFreeBit) = r at hold ⊢
  have h : s ||| r = s + r := by
    have := tag_or (r := 0) hs.1 (by decide) hold
    rwa [Nat.add_zero, Nat.zero_or] at this
  rw [h]
  match r, hold with
  | 0, _ => exact ⟨false, false, rfl⟩
  | 1, _ => exact ⟨true, false, rfl⟩
  | 2, _ => exact ⟨false, true, rfl⟩
  | 3, _ => exact ⟨true, true, rfl⟩

theorem word_setSize (hs : Sized s) (ht : Sized t) :
    t ||| (word s f p &&& (blkHeaderFreeBit ||| blkHeaderPrevFreeBit)) = word t f p := by
  rw [word_flags hs]
  have := tag_or (r := 0) ht.1 (by decide) (tag_lt f p)
  rwa [Nat.add_zero, Nat.zero_or] at this

theorem word_grow {u : Nat} (hu : Sized (s + 4 + t)) (e : u = t + blkHeaderOverhead) :
    (word s f p + u) % sizeT = word (s + 4 + t) f p := by
  have hlt := tag_lt f p
  obtain ⟨⟨k, hk⟩, hmax⟩ := hu
  unfold word sizeT blkHeaderOverhead at *
  rw [e, Nat.mod_eq_of_lt (by omega)]
  omega

end Kopfwort

/-! ## 2. The highest and the lowest bit -/

theorem tlsfFls_eq {s : Nat} (h0 : s ≠ 0) (hlt : s < sizeT) :
    (tlsfFls (BitVec.ofNat 32 s)).toNat = s.log2 := by
  have hn : (BitVec.ofNat 32 s).toNat = s := by
    rw [BitVec.toNat_ofNat]
    exact Nat.mod_eq_of_lt hlt
  have hne : BitVec.ofNat 32 s ≠ 0#32 := by
    intro e
    rw [e] at hn
    exact h0 hn.symm
  have hlog := log2_toNat hne
  rw [hn] at hlog
  have hclz : (BitVec.ofNat 32 s).clz.toNat < 32 :=
    BitVec.lt_def.mp (BitVec.clz_lt_iff_ne_zero.mpr hne)
  have he : tlsfFls (BitVec.ofNat 32 s) = 32 - ((BitVec.ofNat 32 s).clz.toNat : Int) - 1 := by
    unfold tlsfFls
    rw [if_pos hne]
  rw [he, hlog]
  omega

theorem tlsfFfs_eq {m : BitVec 32} (h : m ≠ 0#32) : (tlsfFfs m).toNat = m.ctz.toNat := by
  have hclz := clz_lowest h
  show ((32 : Int) - ((m &&& (~~~m + 1#32)).clz.toNat : Int) - 1).toNat = _
  omega

/-! ## 3. Requests -/

section Anforderung

variable (cfg : TlsfConfig)

theorem alignUp_eq (n : Nat) : alignUp n alignSize = (n + 3) % sizeT / 4 * 4 := by
  have hlt : (n + 3) % sizeT < sizeT := Nat.mod_lt _ (by decide)
  show (n + 3) % sizeT &&& bitNot 3 = _
  generalize (n + 3) % sizeT = x at hlt ⊢
  have hx : x / 4 * 4 + x % 4 = x := by omega
  have := tag_and_mask (s := x / 4 * 4) (r := x % 4) (q := 0) (n := 30) (Nat.dvd_mul_left 4 _)
    (Nat.mod_lt _ (by decide)) (by decide) (Nat.lt_of_le_of_lt (Nat.div_mul_le_self x 4) hlt)
  rw [hx, Nat.and_zero, Nat.add_zero] at this
  exact this

theorem alignDown_eq (n : Nat) : alignDown n alignSize = n / 4 * 4 := by
  show n - (n &&& 2 ^ 2 - 1) = _
  rw [Nat.and_two_pow_sub_one_eq_mod]
  omega

theorem blkSizeMax_eq : cfg.blkSizeMax = 2 ^ cfg.flIndexMax := Nat.one_shiftLeft _

theorem blkSizeMax_le : cfg.blkSizeMax ≤ 2 ^ 31 := by
  rw [blkSizeMax_eq]
  exact Nat.pow_le_pow_right (by decide) cfg.max_le

/-- What a request is rounded to. -/
theorem adjustRequestSize_cases (n : Nat) :
    adjustRequestSize cfg n alignSize = 0 ∨
    (4 ∣ adjustRequestSize cfg n alignSize ∧ 12 ≤ adjustRequestSize cfg n alignSize ∧
      adjustRequestSize cfg n alignSize < 2 ^ 31 ∧
      (n ≤ 0xFFFFFFFC → n ≤ adjustRequestSize cfg n alignSize)) := by
  unfold adjustRequestSize
  split
  · simp only []
    split
    · rename_i h0 hlt
      have hmax := blkSizeMax_le cfg
      rw [alignUp_eq] at hlt ⊢
      refine Or.inr ⟨?_, Nat.le_max_right .., ?_, fun hn => ?_⟩
      · rcases Nat.le_total ((n + 3) % sizeT / 4 * 4) blkSizeMin with hle | hle
        · rw [Nat.max_eq_right hle]
          decide
        · rw [Nat.max_eq_left hle]
          exact Nat.dvd_mul_left 4 _
      · refine Nat.max_lt.mpr ⟨Nat.lt_of_lt_of_le hlt hmax, by decide⟩
      · refine Nat.le_trans ?_ (Nat.le_max_left ..)
        rw [Nat.mod_eq_of_lt (show n + 3 < sizeT by unfold sizeT; omega)]
        omega
    · exact Or.inl rfl
  · exact Or.inl rfl

end Anforderung

/-! ## 4. Classes -/

/-- The class `p` comes before the class `q` in the table. -/
def ClassLt (p q : Nat × Nat) : Prop := p.1 < q.1 ∨ p.1 = q.1 ∧ p.2 < q.2

section Klasse

variable {cfg : TlsfConfig} {s n : Nat}

theorem xor_top {q k : Nat} (h1 : 2 ^ k ≤ q) (h2 : q < 2 ^ (k + 1)) : q ^^^ 2 ^ k = q - 2 ^ k := by
  have hpos : 0 < 2 ^ k := Nat.two_pow_pos k
  have hdbl : 2 ^ (k + 1) = 2 ^ k * 2 := Nat.pow_succ ..
  have hq : q / 2 ^ k = 1 :=
    (Nat.div_eq_iff hpos).mpr ⟨by omega, by omega⟩
  have hdiv : (q ^^^ 2 ^ k) / 2 ^ k = 0 := by
    rw [Nat.xor_div_two_pow, hq, Nat.div_self hpos, Nat.xor_self]
  have hmod : (q ^^^ 2 ^ k) % 2 ^ k = q % 2 ^ k := by
    rw [Nat.xor_mod_two_pow, Nat.mod_self, Nat.xor_zero]
  have e1 := Nat.div_add_mod (q ^^^ 2 ^ k) (2 ^ k)
  have e2 := Nat.div_add_mod q (2 ^ k)
  rw [hdiv, hmod, Nat.mul_zero, Nat.zero_add] at e1
  rw [hq, Nat.mul_one] at e2
  omega

theorem smallBlockSize_eq : cfg.smallBlockSize = 2 ^ (cfg.slIndexCountLog2 + 2) :=
  Nat.one_shiftLeft _

theorem slIndexCount_eq : cfg.slIndexCount = 2 ^ cfg.slIndexCountLog2 := Nat.one_shiftLeft _

theorem mappingInsert_small (h : s < cfg.smallBlockSize) : mappingInsert cfg s = (0, s / 4) := by
  have hdiv : cfg.smallBlockSize / cfg.slIndexCount = 4 := by
    rw [smallBlockSize_eq, slIndexCount_eq, Nat.pow_add]
    exact Nat.mul_div_cancel_left _ (Nat.two_pow_pos _)
  unfold mappingInsert
  rw [if_pos h, hdiv]

/-- The leading bits of a size: its highest `slIndexCountLog2 + 1` bits. -/
theorem leading_bits (h : cfg.smallBlockSize ≤ s) :
    cfg.slIndexCountLog2 + 2 ≤ s.log2 ∧
    2 ^ cfg.slIndexCountLog2 ≤ s / 2 ^ (s.log2 - cfg.slIndexCountLog2) ∧
    s / 2 ^ (s.log2 - cfg.slIndexCountLog2) < 2 ^ (cfg.slIndexCountLog2 + 1) := by
  rw [smallBlockSize_eq] at h
  have h0 : s ≠ 0 := Nat.ne_of_gt (Nat.lt_of_lt_of_le (Nat.two_pow_pos _) h)
  have hlog := (Nat.le_log2 h0).mpr h
  refine ⟨hlog, ?_, ?_⟩
  · refine (Nat.le_div_iff_mul_le (Nat.two_pow_pos _)).mpr ?_
    rw [← Nat.pow_add,
      show cfg.slIndexCountLog2 + (s.log2 - cfg.slIndexCountLog2) = s.log2 by omega]
    exact Nat.log2_self_le h0
  · refine (Nat.div_lt_iff_lt_mul (Nat.two_pow_pos _)).mpr ?_
    rw [← Nat.pow_add,
      show cfg.slIndexCountLog2 + 1 + (s.log2 - cfg.slIndexCountLog2) = s.log2 + 1 by omega]
    exact Nat.lt_log2_self

theorem mappingInsert_large (h : cfg.smallBlockSize ≤ s) (hlt : s < sizeT) :
    mappingInsert cfg s = (s.log2 - (cfg.slIndexCountLog2 + 1),
      s / 2 ^ (s.log2 - cfg.slIndexCountLog2) - 2 ^ cfg.slIndexCountLog2) := by
  have h0 : s ≠ 0 := by
    rintro rfl
    rw [smallBlockSize_eq] at h
    exact absurd h (Nat.not_le.mpr (Nat.two_pow_pos _))
  obtain ⟨_, h1, h2⟩ := leading_bits h
  unfold mappingInsert
  rw [if_neg (Nat.not_lt.mpr h), tlsfFls_eq h0 hlt]
  simp only [Nat.shiftRight_eq_div_pow, Nat.one_shiftLeft]
  rw [xor_top h1 h2]
  rfl

/-- **The class of a block lies inside the table.** -/
theorem mappingInsert_lt (h : s < 2 ^ cfg.flIndexMax) :
    (mappingInsert cfg s).1 < cfg.flIndexCount ∧ (mappingInsert cfg s).2 < cfg.slIndexCount := by
  rcases Nat.lt_or_ge s cfg.smallBlockSize with hs | hs
  · rw [mappingInsert_small hs]
    refine ⟨Nat.succ_pos _, ?_⟩
    rw [smallBlockSize_eq, Nat.pow_add] at hs
    rw [slIndexCount_eq]
    exact Nat.div_lt_of_lt_mul (by rw [Nat.mul_comm]; exact hs)
  · have hmax : s < sizeT :=
      Nat.lt_of_lt_of_le h (Nat.le_trans (Nat.pow_le_pow_right (by decide) cfg.max_le) (by decide))
    obtain ⟨hlog, h1, h2⟩ := leading_bits hs
    have h0 : s ≠ 0 := by
      rintro rfl
      rw [Nat.log2_zero] at hlog
      omega
    have hfl := (Nat.log2_lt h0).mpr h
    rw [mappingInsert_large hs hmax, slIndexCount_eq]
    rw [Nat.pow_succ] at h2
    unfold TlsfConfig.flIndexCount TlsfConfig.flIndexShift
    exact ⟨by omega, by omega⟩

/-- A large request is rounded up by less than the distance of two classes there. -/
theorem mappingSearch_large (h : cfg.smallBlockSize ≤ n) (hlt : n < 2 ^ 31) :
    n + (2 ^ (n.log2 - cfg.slIndexCountLog2) - 1) < sizeT ∧
      mappingSearch cfg n =
        mappingInsert cfg (n + (2 ^ (n.log2 - cfg.slIndexCountLog2) - 1)) := by
  have h0 : n ≠ 0 := by
    intro e
    rw [e, smallBlockSize_eq] at h
    exact absurd h (Nat.not_le.mpr (Nat.two_pow_pos _))
  have hle : 2 ^ (n.log2 - cfg.slIndexCountLog2) ≤ 2 ^ n.log2 :=
    Nat.pow_le_pow_right (by decide) (Nat.sub_le ..)
  have hself := Nat.log2_self_le h0
  have hwrap : n + (2 ^ (n.log2 - cfg.slIndexCountLog2) - 1) < sizeT := by
    unfold sizeT
    omega
  refine ⟨hwrap, ?_⟩
  unfold mappingSearch
  rw [if_pos h, tlsfFls_eq h0 (Nat.lt_trans hlt (by decide)), Nat.one_shiftLeft]
  simp only [Nat.mod_eq_of_lt hwrap]

/-- **Good fit.** A size below a request is in a class below the one the search begins with. -/
theorem mappingSearch_above (cfg : TlsfConfig) (hn : 4 ∣ n) (hlt : n < 2 ^ 31) (hs : s < n) :
    ClassLt (mappingInsert cfg s) (mappingSearch cfg n) := by
  unfold mappingSearch
  by_cases hsmall : cfg.smallBlockSize ≤ n
  · obtain ⟨hlog, h1, h2⟩ := leading_bits hsmall
    have h0 : n ≠ 0 := Nat.ne_of_gt (Nat.zero_lt_of_lt hs)
    have hmax : n < sizeT := Nat.lt_trans hlt (by decide)
    have hle := Nat.log2_self_le h0
    have hup : n < 2 ^ n.log2 * 2 := by
      rw [← Nat.pow_succ]
      exact Nat.lt_log2_self
    have hl31 : n.log2 < 31 := (Nat.log2_lt h0).mpr hlt
    rw [if_pos hsmall, tlsfFls_eq h0 hmax, Nat.one_shiftLeft]
    -- the distance of two classes, and the request rounded up to a class
    generalize hg : 2 ^ (n.log2 - cfg.slIndexCountLog2) = g at h1 h2 ⊢
    have hgpos : 0 < g := hg ▸ Nat.two_pow_pos _
    have hgle : g ≤ 2 ^ n.log2 := by
      rw [← hg]
      exact Nat.pow_le_pow_right (by decide) (Nat.sub_le ..)
    have h30 : 2 ^ n.log2 ≤ 2 ^ 30 := Nat.pow_le_pow_right (by decide) (by omega)
    have hwrap : n + (g - 1) < sizeT := by
      unfold sizeT
      omega
    show ClassLt (mappingInsert cfg s) (mappingInsert cfg ((n + (g - 1)) % sizeT))
    rw [Nat.mod_eq_of_lt hwrap]
    have hbig : cfg.smallBlockSize ≤ n + (g - 1) := by omega
    have hr0 : n + (g - 1) ≠ 0 := by omega
    rw [mappingInsert_large hbig hwrap]
    have hlogr : n.log2 ≤ (n + (g - 1)).log2 :=
      (Nat.le_log2 hr0).mpr (by omega)
    rcases Nat.lt_or_ge s cfg.smallBlockSize with hss | hss
    · rw [mappingInsert_small hss]
      refine Or.inl ?_
      show 0 < (n + (g - 1)).log2 - (cfg.slIndexCountLog2 + 1)
      omega
    · have hs0 : s ≠ 0 := by
        rintro rfl
        rw [smallBlockSize_eq] at hss
        exact absurd hss (Nat.not_le.mpr (Nat.two_pow_pos _))
      have hlogs : s.log2 ≤ n.log2 := by
        have := (Nat.log2_lt (k := n.log2 + 1) hs0).mpr (by rw [Nat.pow_succ]; omega)
        omega
      obtain ⟨hlogs0, h1s, _⟩ := leading_bits hss
      rw [mappingInsert_large hss (Nat.lt_trans hs hmax)]
      rcases Nat.lt_or_ge s.log2 (n + (g - 1)).log2 with hless | hge
      · refine Or.inl ?_
        show s.log2 - (cfg.slIndexCountLog2 + 1) < (n + (g - 1)).log2 - (cfg.slIndexCountLog2 + 1)
        omega
      · -- all three in one first-level class: the quotients by its distance decide
        have e1 : s.log2 = n.log2 := by omega
        have e2 : (n + (g - 1)).log2 = n.log2 := by omega
        rw [e1, hg] at h1s
        refine Or.inr ⟨?_, ?_⟩
        · show s.log2 - _ = (n + (g - 1)).log2 - _
          rw [e1, e2]
        · show s / 2 ^ (s.log2 - cfg.slIndexCountLog2) - 2 ^ cfg.slIndexCountLog2 <
            (n + (g - 1)) / 2 ^ ((n + (g - 1)).log2 - cfg.slIndexCountLog2) -
              2 ^ cfg.slIndexCountLog2
          rw [e1, e2, hg]
          have hq : s / g + 1 ≤ (n + (g - 1)) / g := by
            rw [← Nat.add_div_right s hgpos]
            exact Nat.div_le_div_right (by omega)
          omega
  · rw [if_neg hsmall]
    have hs' : s < cfg.smallBlockSize := by omega
    rw [mappingInsert_small hs', mappingInsert_small (Nat.not_le.mp hsmall)]
    refine Or.inr ⟨rfl, ?_⟩
    show s / 4 < n / 4
    obtain ⟨k, rfl⟩ := hn
    omega

end Klasse

end FxRtos
