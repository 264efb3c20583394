/-
  File:      FxRtos/Heap/MaxBlk.lean
  Subject:   THE REPORTED MAXIMUM (`rtl_mem_pool_get_max_blk`) against what an allocation gets.

  * `rtlMemPoolGetMaxBlk` -- the beginning of the highest class that has a free block.
  * `classFloor`, `classWidth` -- where a class begins and how far it reaches; the classes lie
    side by side in the order of the table (`classFloor_add_width`).
  * `mappingSearch_reaches` -- a class is searched for a request exactly if it begins at the
    request or above it: rounding up never skips a class that would do.
  * `max_blk_iff` -- an allocation succeeds exactly if the rounded request is no larger than the
    report, as long as the rounding does not wrap around. From 2^32 - 3 on it does, and such a
    request gets BLK_SIZE_MIN bytes whatever was reported.
-/
import FxRtos.Heap.Integrity
import FxRtos.Heap.Indices

namespace FxRtos

open Function (update)
open Lib

/-! ## 1. The report -/

def getMaxChunkAboveSmallSz (cfg : TlsfConfig) (fl sl : Int) : Nat :=
  let subDiv : Nat := 1 <<< (fl + cfg.flIndexShift - cfg.slIndexCountLog2 - 1).toNat
  let first : Nat := 1 <<< (fl + cfg.flIndexShift - 1).toNat
  ((first + subDiv * sl) % sizeT).toNat

def getMaxChunkBelowSmallSz (cfg : TlsfConfig) (sl : Int) : Nat :=
  let step : Nat := cfg.smallBlockSize / cfg.slIndexCount
  (sl * step % sizeT).toNat

def rtlMemPoolGetMaxBlk (cfg : TlsfConfig) (pool : RtlMemPool) : Nat :=
  let fl := tlsfFls pool.flBitmap
  if 0 ≤ fl then
    let sl := tlsfFls (pool.slBitmap fl.toNat)
    if fl ≠ 0 then getMaxChunkAboveSmallSz cfg fl sl else getMaxChunkBelowSmallSz cfg sl
  else 0

/-! ## 2. Where a class begins and ends -/

/-- The smallest size of a class. -/
def classFloor (cfg : TlsfConfig) (c : Nat × Nat) : Nat :=
  if c.1 = 0 then 4 * c.2 else 2 ^ (c.1 + 1) * (2 ^ cfg.slIndexCountLog2 + c.2)

def classWidth (c : Nat × Nat) : Nat := if c.1 = 0 then 4 else 2 ^ (c.1 + 1)

section Klassengrenze

variable {cfg : TlsfConfig} {c d : Nat × Nat} {n : Nat}

/-- The end of a first-level index is the beginning of the next. -/
theorem classFloor_row (cfg : TlsfConfig) (fl sl : Nat) (hsl : sl < cfg.slIndexCount) :
    classFloor cfg (fl, sl) + classWidth (fl, sl) ≤
      2 ^ (fl + 1) * 2 ^ (cfg.slIndexCountLog2 + 1) := by
  rw [slIndexCount_eq] at hsl
  have hdbl : 2 ^ (cfg.slIndexCountLog2 + 1) = 2 ^ cfg.slIndexCountLog2 * 2 := Nat.pow_succ ..
  unfold classFloor classWidth
  by_cases hfl : fl = 0
  · simp only [hfl, if_true]
    omega
  · simp only [hfl, if_false]
    rw [← Nat.mul_succ]
    exact Nat.mul_le_mul_left _ (by omega)

/-- **The classes lie side by side**, in the order of the table. -/
theorem classFloor_add_width (hc : c.2 < cfg.slIndexCount) (h : ClassLt c d) :
    classFloor cfg c + classWidth c ≤ classFloor cfg d := by
  obtain ⟨fl, sl⟩ := c
  obtain ⟨fl', sl'⟩ := d
  rcases h with hlt | ⟨he, hlt⟩
  · -- a later first-level index
    have hlt : fl < fl' := hlt
    refine Nat.le_trans (classFloor_row cfg fl sl hc) ?_
    have hpow : 2 ^ (fl + 1) * 2 ^ (cfg.slIndexCountLog2 + 1) ≤
        2 ^ (fl' + 1) * 2 ^ cfg.slIndexCountLog2 := by
      rw [← Nat.pow_add, ← Nat.pow_add]
      exact Nat.pow_le_pow_right (by decide) (by omega)
    refine Nat.le_trans hpow ?_
    unfold classFloor
    rw [if_neg (show ¬ fl' = 0 by omega)]
    exact Nat.mul_le_mul_left _ (Nat.le_add_right ..)
  · -- a later class of the same first-level index
    have he : fl = fl' := he
    have hlt : sl < sl' := hlt
    subst he
    unfold classFloor classWidth
    by_cases hfl : fl = 0
    · simp only [hfl, if_true]
      omega
    · simp only [hfl, if_false]
      rw [← Nat.mul_succ]
      exact Nat.mul_le_mul_left _ (by omega)

/-- A size is at least as large as the beginning of its class. -/
theorem classFloor_le (cfg : TlsfConfig) (hn : n < sizeT) :
    classFloor cfg (mappingInsert cfg n) ≤ n := by
  rcases Nat.lt_or_ge n cfg.smallBlockSize with hs | hs
  · rw [mappingInsert_small hs]
    show 4 * (n / 4) ≤ n
    omega
  · obtain ⟨hlog, h1, _⟩ := leading_bits hs
    rw [mappingInsert_large hs hn]
    unfold classFloor
    rw [if_neg (show ¬ n.log2 - (cfg.slIndexCountLog2 + 1) = 0 by omega)]
    show 2 ^ (n.log2 - (cfg.slIndexCountLog2 + 1) + 1) * (2 ^ cfg.slIndexCountLog2 +
      (n / 2 ^ (n.log2 - cfg.slIndexCountLog2) - 2 ^ cfg.slIndexCountLog2)) ≤ n
    rw [show n.log2 - (cfg.slIndexCountLog2 + 1) + 1 = n.log2 - cfg.slIndexCountLog2 by omega,
      Nat.add_sub_cancel' h1]
    exact Nat.mul_div_le n _

/-- The beginning of a class is in that class. -/
theorem mappingInsert_floor (hc : InTable cfg c) : mappingInsert cfg (classFloor cfg c) = c := by
  obtain ⟨fl, sl⟩ := c
  obtain ⟨hfl, hsl⟩ := hc
  have hsl : sl < cfg.slIndexCount := hsl
  have hfl : fl < cfg.flIndexCount := hfl
  have hrow := classFloor_row cfg fl sl hsl
  by_cases h0 : fl = 0
  · subst h0
    have hsmall : classFloor cfg (0, sl) < cfg.smallBlockSize := by
      show 4 * sl < _
      rw [slIndexCount_eq] at hsl
      rw [smallBlockSize_eq, Nat.pow_add]
      omega
    rw [mappingInsert_small hsmall]
    show (0, 4 * sl / 4) = (0, sl)
    rw [Nat.mul_div_cancel_left _ (by decide)]
  · have he : classFloor cfg (fl, sl) = 2 ^ (fl + 1) * (2 ^ cfg.slIndexCountLog2 + sl) := if_neg h0
    have hw : classWidth (fl, sl) = 2 ^ (fl + 1) := if_neg h0
    have hpos : 0 < 2 ^ (fl + 1) := Nat.two_pow_pos _
    rw [he, hw, ← Nat.pow_add] at hrow
    have hlow : 2 ^ (fl + 1 + cfg.slIndexCountLog2) ≤ classFloor cfg (fl, sl) := by
      rw [he, Nat.pow_add]
      exact Nat.mul_le_mul_left _ (Nat.le_add_right ..)
    have hne : classFloor cfg (fl, sl) ≠ 0 :=
      Nat.ne_of_gt (Nat.lt_of_lt_of_le (Nat.two_pow_pos _) hlow)
    have hlog : (classFloor cfg (fl, sl)).log2 = fl + 1 + cfg.slIndexCountLog2 := by
      refine (Nat.log2_eq_iff hne).mpr ⟨hlow, ?_⟩
      rw [he, show fl + 1 + cfg.slIndexCountLog2 + 1 = fl + 1 + (cfg.slIndexCountLog2 + 1) by omega]
      omega
    have hlarge : cfg.smallBlockSize ≤ classFloor cfg (fl, sl) := by
      rw [smallBlockSize_eq]
      exact Nat.le_trans (Nat.pow_le_pow_right (by decide) (by omega)) hlow
    have hmax : classFloor cfg (fl, sl) < sizeT := by
      have hcount := flIndexCount_eq cfg
      have hmax := cfg.max_le
      have hle : 2 ^ (fl + 1 + (cfg.slIndexCountLog2 + 1)) ≤ 2 ^ 31 :=
        Nat.pow_le_pow_right (by decide) (by omega)
      rw [he]
      unfold sizeT
      omega
    rw [mappingInsert_large hlarge hmax, hlog,
      show fl + 1 + cfg.slIndexCountLog2 - cfg.slIndexCountLog2 = fl + 1 by omega, he,
      Nat.mul_div_cancel_left _ hpos]
    refine Prod.ext ?_ ?_
    · show fl + 1 + cfg.slIndexCountLog2 - (cfg.slIndexCountLog2 + 1) = fl
      omega
    · exact Nat.add_sub_cancel_left ..

/-- **No class that would do is skipped**: a class is searched for a request exactly if all of
    its sizes are large enough. -/
theorem mappingSearch_reaches (hc : InTable cfg c) (h4 : 4 ∣ n) (hn : n < 2 ^ 31) :
    ¬ ClassLt c (mappingSearch cfg n) ↔ n ≤ classFloor cfg c := by
  constructor
  · intro h
    refine Nat.not_lt.mp fun hlt => h ?_
    have habove := mappingSearch_above cfg h4 hn hlt
    rwa [mappingInsert_floor hc] at habove
  · intro hle h
    have hnext := classFloor_add_width hc.2 h
    have hrow := classFloor_row cfg c.1 c.2 hc.2
    have hwpos : 0 < classWidth c := by
      unfold classWidth
      split
      · decide
      · exact Nat.two_pow_pos _
    by_cases hs : cfg.smallBlockSize ≤ n
    · obtain ⟨hwrap, he⟩ := mappingSearch_large hs hn
      have hfloor := classFloor_le cfg hwrap
      rw [he] at hnext
      -- the request is rounded up by less than the class is wide
      have hround : 2 ^ (n.log2 - cfg.slIndexCountLog2) ≤ classWidth c := by
        have h0 : n ≠ 0 := by
          intro e
          rw [e, smallBlockSize_eq] at hs
          exact absurd hs (Nat.not_le.mpr (Nat.two_pow_pos _))
        rw [← Nat.pow_add] at hrow
        have hlog : n.log2 < c.1 + 1 + (cfg.slIndexCountLog2 + 1) :=
          (Nat.log2_lt h0).mpr (by
            show n < _
            have : classFloor cfg (c.1, c.2) = classFloor cfg c := rfl
            have : classWidth (c.1, c.2) = classWidth c := rfl
            omega)
        by_cases hc0 : c.1 = 0
        · have hlow : classFloor cfg c = 4 * c.2 := if_pos hc0
          have hsl := hc.2
          rw [slIndexCount_eq] at hsl
          rw [smallBlockSize_eq, Nat.pow_add] at hs
          omega
        · have hw : classWidth c = 2 ^ (c.1 + 1) := if_neg hc0
          rw [hw]
          exact Nat.pow_le_pow_right (by decide) (by omega)
      omega
    · have he : mappingSearch cfg n = mappingInsert cfg n := by
        unfold mappingSearch
        rw [if_neg hs]
      have hfloor := classFloor_le cfg (Nat.lt_trans hn (by decide : 2 ^ 31 < sizeT))
      rw [he] at hnext
      omega

end Klassengrenze

/-! ## 3. The highest class with a free block -/

theorem tlsfFls_log2 {m : BitVec 32} (h : m ≠ 0#32) : tlsfFls m = (m.toNat.log2 : Int) := by
  have hlog := log2_toNat h
  have hclz : m.clz.toNat < 32 := BitVec.lt_def.mp (BitVec.clz_lt_iff_ne_zero.mpr h)
  have he : tlsfFls m = 32 - (m.clz.toNat : Int) - 1 := by
    unfold tlsfFls
    rw [if_pos h]
  rw [he, hlog]
  omega

/-- The report computes where the class begins. -/
theorem getMaxChunk_eq (cfg : TlsfConfig) {fl sl : Nat} (hc : InTable cfg (fl, sl)) :
    (if (fl : Int) ≠ 0 then getMaxChunkAboveSmallSz cfg fl sl
      else getMaxChunkBelowSmallSz cfg sl) = classFloor cfg (fl, sl) := by
  have hrow := classFloor_row cfg fl sl hc.2
  have hlt : classFloor cfg (fl, sl) < sizeT := by
    have hcount := flIndexCount_eq cfg
    have hmax := cfg.max_le
    have hfl : fl < cfg.flIndexCount := hc.1
    have hle : 2 ^ (fl + 1 + (cfg.slIndexCountLog2 + 1)) ≤ 2 ^ 31 :=
      Nat.pow_le_pow_right (by decide) (by omega)
    rw [← Nat.pow_add] at hrow
    unfold sizeT
    omega
  by_cases h0 : fl = 0
  · subst h0
    have hdiv : cfg.smallBlockSize / cfg.slIndexCount = 4 := by
      rw [smallBlockSize_eq, slIndexCount_eq, Nat.pow_add]
      exact Nat.mul_div_cancel_left _ (Nat.two_pow_pos _)
    have he : classFloor cfg (0, sl) = 4 * sl := rfl
    rw [if_neg (by simp), he]
    rw [he] at hlt
    unfold getMaxChunkBelowSmallSz
    simp only [hdiv]
    unfold sizeT at *
    omega
  · rw [if_pos (by omega)]
    have he : classFloor cfg (fl, sl) = 2 ^ (fl + 1) * (2 ^ cfg.slIndexCountLog2 + sl) := if_neg h0
    have hsub : ((fl : Int) + cfg.flIndexShift - cfg.slIndexCountLog2 - 1).toNat = fl + 1 := by
      unfold TlsfConfig.flIndexShift
      omega
    have hfirst : ((fl : Int) + cfg.flIndexShift - 1).toNat = fl + 1 + cfg.slIndexCountLog2 := by
      unfold TlsfConfig.flIndexShift
      omega
    rw [Nat.mul_add, ← Nat.pow_add] at he
    rw [he] at hlt ⊢
    unfold getMaxChunkAboveSmallSz
    simp only [hsub, hfirst, Nat.one_shiftLeft]
    rw [← Int.natCast_mul, ← Int.natCast_add, ← Int.natCast_emod, Int.toNat_natCast,
      Nat.mod_eq_of_lt hlt]

section Meldung

variable {cfg : TlsfConfig} {mem : Mem} {pool : RtlMemPool} {null : Nat}
  {avail : Nat → Nat → Prop} {F : Nat → Nat → List Nat}

/-- **The report** is the beginning of the highest class that has a free block, and 0 where none
    has. -/
theorem FreeLists.report (h : FreeLists cfg mem pool avail F) (hA : AvailOk cfg null avail) :
    (rtlMemPoolGetMaxBlk cfg pool = 0 ∧ ∀ i j, F i j = []) ∨
    ∃ fl sl, F fl sl ≠ [] ∧ InTable cfg (fl, sl) ∧
      rtlMemPoolGetMaxBlk cfg pool = classFloor cfg (fl, sl) ∧
      ∀ i j, F i j ≠ [] → ¬ ClassLt (fl, sl) (i, j) := by
  have hbit : ∀ i j, F i j ≠ [] → i < 32 ∧ j < 32 ∧ pool.flBitmap.getLsbD i = true ∧
      (pool.slBitmap i).getLsbD j = true := by
    intro i j hne
    obtain ⟨b, hb⟩ := List.exists_mem_of_ne_nil _ hne
    obtain ⟨hi, hj⟩ := h.index_lt hA hb
    have hi32 := Nat.lt_of_lt_of_le hi (Nat.le_trans (flIndexCount_le cfg) (by decide : 30 ≤ 32))
    have hj32 := Nat.lt_of_lt_of_le hj slIndexCount_le
    exact ⟨hi32, hj32, (h.flBit i hi32).mpr ⟨j, hne⟩, (h.slBit i j hi hj32).mpr hne⟩
  by_cases h0 : pool.flBitmap = 0#32
  · refine Or.inl ⟨?_, fun i j => Classical.byContradiction fun hne => ?_⟩
    · unfold rtlMemPoolGetMaxBlk
      rw [h0]
      rfl
    · have := (hbit i j hne).2.2.1
      rw [h0, BitVec.getLsbD_zero] at this
      cases this
  · obtain ⟨hfl, hflmax⟩ := getLsbD_log2 h0
    have hfls := tlsfFls_log2 h0
    generalize pool.flBitmap.toNat.log2 = fl at hfl hflmax hfls
    obtain ⟨j, hj⟩ := (h.flBit fl (BitVec.lt_of_getLsbD hfl)).mp hfl
    have hflt := (h.index_lt hA (h.head_mem hA hj)).1
    have hrow := (h.slMap_iff hA hflt).mpr ⟨j, hj⟩
    obtain ⟨hsl, hslmax⟩ := getLsbD_log2 hrow
    have hsls := tlsfFls_log2 hrow
    generalize (pool.slBitmap fl).toNat.log2 = sl at hsl hslmax hsls
    have hne := (h.slBit fl sl hflt (BitVec.lt_of_getLsbD hsl)).mp hsl
    have hin : InTable cfg (fl, sl) := h.index_lt hA (h.head_mem hA hne)
    refine Or.inr ⟨fl, sl, hne, hin, ?_, fun i j hij hlt => ?_⟩
    · rw [← getMaxChunk_eq cfg hin]
      unfold rtlMemPoolGetMaxBlk
      simp only [hfls, Int.toNat_natCast, hsls]
      rw [if_pos (Int.natCast_nonneg fl)]
    · obtain ⟨_, _, hi, hj⟩ := hbit i j hij
      rcases hlt with hlt | ⟨he, hlt⟩
      · exact absurd hlt (Nat.not_lt.mpr (hflmax i hi))
      · obtain rfl : fl = i := he
        exact absurd hlt (Nat.not_lt.mpr (hslmax j hj))

end Meldung

/-! ## 4. What an allocation gets -/

theorem ClassLt.trans_not {c d q : Nat × Nat} (h : ClassLt c q) (hd : ¬ ClassLt d q) :
    ClassLt c d := by
  unfold ClassLt at *
  omega

section Zuteilung

variable {cfg : TlsfConfig} {R : List Region} {h : Heap} {A : Shape} {F : Nat → Nat → List Nat}
  {size k : Nat}

/-- An allocation succeeds exactly if some list from the class of the request on has a block. -/
theorem HeapOk.alloc_iff (hO : HeapOk cfg R h A [] Nowhere)
    (hF : FreeLists cfg h.mem h.pool (Avail A []) F) (hnz : ∀ b n, Avail A [] b n → b ≠ 0)
    (hk : adjustRequestSize cfg size alignSize = k) (hk0 : k ≠ 0)
    (hcl : (mappingSearch cfg k).1 < cfg.flIndexCount) :
    (rtlMemPoolAlloc cfg h size).1 ≠ 0 ↔
      ∃ i j, F i j ≠ [] ∧ ¬ ClassLt (i, j) (mappingSearch cfg k) := by
  have hadj := adjustRequestSize_cases cfg size
  rw [hk] at hadj
  obtain ⟨hk4, hk12, hk31, _⟩ := hadj.resolve_left hk0
  rw [rtlMemPoolAlloc_eq, hk]
  rcases hF.search hO.availOk hcl (mappingSearch cfg k).2 with ⟨e, hnone⟩ | ⟨hbF, habove⟩
  · have hzero : (searchSuitableBlock h.pool (mappingSearch cfg k).1
        (mappingSearch cfg k).2).1 = 0 := by rw [e]
    rw [blockLocateFree_none hk0 hzero]
    exact iff_of_false (fun hne => hne rfl) fun ⟨i, j, hne, hge⟩ => hge (hnone i j hne)
  · obtain ⟨n, hav, _⟩ := (hF.mem_iff _ _ _).mp hbF
    obtain ⟨b, fl, sl, hr⟩ : ∃ b fl sl, searchSuitableBlock h.pool (mappingSearch cfg k).1
        (mappingSearch cfg k).2 = (b, fl, sl) := ⟨_, _, _, rfl⟩
    rw [hr] at hbF habove hav
    have hb0 : b ≠ 0 := hnz b n hav
    obtain ⟨_, _, _, hloc, _⟩ := hO.locate hk4 hk12 hk31 hcl hr hb0
    rw [hloc]
    refine iff_of_true ?_ ⟨fl, sl, List.ne_nil_of_mem hbF, habove⟩
    unfold blockPrepareUsed
    rw [if_pos hb0]
    exact Nat.succ_ne_zero _

/-- Compared with the report: the highest class decides. -/
theorem HeapOk.alloc_iff_report (hO : HeapOk cfg R h A [] Nowhere)
    (hF : FreeLists cfg h.mem h.pool (Avail A []) F) (hnz : ∀ b n, Avail A [] b n → b ≠ 0)
    (hk : adjustRequestSize cfg size alignSize = k) (hk0 : k ≠ 0)
    (hcl : (mappingSearch cfg k).1 < cfg.flIndexCount) :
    (rtlMemPoolAlloc cfg h size).1 ≠ 0 ↔ k ≤ rtlMemPoolGetMaxBlk cfg h.pool := by
  have hadj := adjustRequestSize_cases cfg size
  rw [hk] at hadj
  obtain ⟨hk4, hk12, hk31, _⟩ := hadj.resolve_left hk0
  rw [hO.alloc_iff hF hnz hk hk0 hcl]
  rcases hF.report hO.availOk with ⟨hzero, hempty⟩ | ⟨fl, sl, hne, hin, hmax, htop⟩
  · rw [hzero]
    exact iff_of_false (fun ⟨i, j, hne, _⟩ => hne (hempty i j)) (by omega)
  · rw [hmax, ← mappingSearch_reaches hin hk4 hk31]
    constructor
    · intro ⟨i, j, hij, hge⟩ hlt
      exact htop i j hij (hlt.trans_not hge)
    · intro hge
      exact ⟨fl, sl, hne, hge⟩

/-- The report is below BLK_SIZE_MAX. -/
theorem HeapOk.report_lt (hO : HeapOk cfg R h A [] Nowhere)
    (hF : FreeLists cfg h.mem h.pool (Avail A []) F) :
    rtlMemPoolGetMaxBlk cfg h.pool < cfg.blkSizeMax := by
  rw [blkSizeMax_eq]
  rcases hF.report hO.availOk with ⟨hzero, _⟩ | ⟨fl, sl, hne, hin, hmax, _⟩
  · rw [hzero]
    exact Nat.two_pow_pos _
  · obtain ⟨b, hb⟩ := List.exists_mem_of_ne_nil _ hne
    obtain ⟨n, hav, hc⟩ := (hF.mem_iff b fl sl).mp hb
    have hn := hO.availOk.range b n hav
    have hsize : n < sizeT :=
      Nat.lt_of_lt_of_le hn (Nat.le_trans (Nat.pow_le_pow_right (by decide) cfg.max_le) (by decide))
    rw [hmax, ← hc]
    exact Nat.lt_of_le_of_lt (classFloor_le cfg hsize) hn

end Zuteilung

/-! ## 5. Runs -/

/-- The runs considered: no request wraps around, and no block header is at NULL, where C has no
    object: the header of added memory stands BLK_HEADER_OVERHEAD in front of it. -/
def OffNull : HeapSys → HeapOp → Prop
  | _, .alloc size => size ≤ 0xFFFFFFFC
  | _, .addMem base _ => base ≠ blkHeaderOverhead
  | _, _ => True

instance decidableOffNull (s : HeapSys) : (op : HeapOp) → Decidable (OffNull s op)
  | .alloc size => inferInstanceAs (Decidable (size ≤ 0xFFFFFFFC))
  | .addMem base _ => inferInstanceAs (Decidable (base ≠ blkHeaderOverhead))
  | .init => isTrue trivial
  | .free _ => isTrue trivial
  | .write _ _ => isTrue trivial

/-- No free block is in a class where a block for BLK_SIZE_MIN bytes is searched. -/
def NothingLeft (cfg : TlsfConfig) (s : HeapSys) : Prop :=
  ∀ b, s.IsBlock b → blockIsFree s.heap.mem b = true →
    ClassLt (mappingInsert cfg (blockSize s.heap.mem b)) (mappingSearch cfg blkSizeMin)

section Laeufe

variable {cfg : TlsfConfig} {h : Heap} {s s' : HeapSys} {n : Nat}

theorem OffNull.noWrap {op : HeapOp} (hg : OffNull s op) : NoWrap s op := by
  cases op with
  | alloc size => exact hg
  | addMem base bytes => trivial
  | init => trivial
  | free ptr => trivial
  | write addr value => trivial

/-- The first headers are not at NULL. -/
theorem regions_offNull (hr : Reach (heapStep cfg) OffNull (heapStart cfg h) s) :
    ∀ r ∈ s.regions, 4 < r.base := by
  refine hr.inv (J := fun s => ∀ r ∈ s.regions, 4 < r.base) nofun fun s op s' hi hg hs => ?_
  cases op with
  | init =>
    cases hs
    nofun
  | addMem base bytes =>
    obtain ⟨hf, rfl⟩ := taken hs
    generalize rtlMemPoolAddMem cfg s.heap base bytes = res
    obtain ⟨ok, h'⟩ := res
    cases ok with
    | false => exact hi
    | true =>
      intro r hr
      rcases List.mem_cons.mp hr with rfl | hr
      · have h4 : 4 ≤ base := hf.2.1
        have hne : base ≠ 4 := hg
        show 4 < base
        omega
      · exact hi r hr
  | alloc size =>
    obtain ⟨_, rfl⟩ := taken hs
    exact hi
  | free ptr =>
    obtain ⟨_, rfl⟩ := taken hs
    exact hi
  | write addr value =>
    obtain ⟨_, rfl⟩ := taken hs
    exact hi

/-- The request as `adjust_request_size` makes it, without wrapping around. -/
theorem adjustRequestSize_noWrap (h0 : 0 < n) (hn : n ≤ 0xFFFFFFFC) :
    adjustRequestSize cfg n alignSize =
      if (n + 3) / 4 * 4 < cfg.blkSizeMax then max ((n + 3) / 4 * 4) blkSizeMin else 0 := by
  have hal : alignUp n alignSize = (n + 3) / 4 * 4 := by
    rw [alignUp_eq, Nat.mod_eq_of_lt (show n + 3 < sizeT by unfold sizeT; omega)]
  unfold adjustRequestSize
  rw [if_pos (Nat.ne_of_gt h0), hal]

theorem adjustRequestSize_wraps (cfg : TlsfConfig) (hn : 0xFFFFFFFC < n) (hlt : n < sizeT) :
    adjustRequestSize cfg n alignSize = blkSizeMin := by
  have hal : alignUp n alignSize = 0 := by
    rw [alignUp_eq]
    unfold sizeT at *
    omega
  unfold adjustRequestSize
  rw [if_pos (by omega), hal, blkSizeMax_eq]
  simp

/-- **The report against the allocations**: a request succeeds exactly if it is, rounded up, no
    larger than the report, unless it wraps around and something is left in the pool. -/
theorem max_blk_iff (cfg : TlsfConfig) (h : Heap) {s : HeapSys}
    (hr : Reach (heapStep cfg) OffNull (heapStart cfg h) s) {n : Nat} (h0 : 0 < n)
    (hn : n < sizeT) (hcl : ClassInTable cfg n) :
    ((rtlMemPoolAlloc cfg s.heap n).1 ≠ 0 ↔
      max ((n + 3) / 4 * 4) blkSizeMin ≤ rtlMemPoolGetMaxBlk cfg s.heap.pool) ↔
    n ≤ 0xFFFFFFFC ∨ NothingLeft cfg s := by
  obtain ⟨A, hO, _⟩ : HeapInv cfg s :=
    (hr.mono fun _ _ hg => hg.noWrap).inv (heapInv_init cfg h) fun _ _ _ hi hg hs => hi.step hg hs
  obtain ⟨F, hF⟩ := hO.lists
  have hnz : ∀ b n, Avail A [] b n → b ≠ 0 := by
    intro b n hb
    obtain ⟨r, hrm, hh⟩ := hO.shape.home b n hb.1
    have := regions_offNull hr r hrm
    unfold Region.Holds Region.last at hh
    omega
  have hmax := hO.report_lt hF
  by_cases hw : n ≤ 0xFFFFFFFC
  · refine iff_of_true ?_ (Or.inl hw)
    by_cases hbig : (n + 3) / 4 * 4 < cfg.blkSizeMax
    · have hk : adjustRequestSize cfg n alignSize = max ((n + 3) / 4 * 4) blkSizeMin := by
        rw [adjustRequestSize_noWrap h0 hw, if_pos hbig]
      have hk0 : max ((n + 3) / 4 * 4) blkSizeMin ≠ 0 :=
        Nat.ne_of_gt (Nat.lt_of_lt_of_le (by decide) (Nat.le_max_right ..))
      exact hO.alloc_iff_report hF hnz hk hk0 (hk ▸ hcl (hk ▸ hk0))
    · have hk : adjustRequestSize cfg n alignSize = 0 := by
        rw [adjustRequestSize_noWrap h0 hw, if_neg hbig]
      have hnull : (rtlMemPoolAlloc cfg s.heap n).1 = 0 := by
        rw [rtlMemPoolAlloc_eq, hk]
        rfl
      exact iff_of_false (fun hne => hne hnull) (by omega)
  · have hk := adjustRequestSize_wraps cfg (Nat.not_le.mp hw) hn
    have hk0 : blkSizeMin ≠ 0 := by decide
    have hall := hO.alloc_iff hF hnz hk hk0 (hk ▸ hcl (hk ▸ hk0))
    have hmax31 := blkSizeMax_le cfg
    have hno : ¬ max ((n + 3) / 4 * 4) blkSizeMin ≤ rtlMemPoolGetMaxBlk cfg s.heap.pool := by
      have := Nat.le_max_left ((n + 3) / 4 * 4) blkSizeMin
      omega
    rw [hall, iff_false_right hno, or_iff_right hw]
    constructor
    · intro hnone b hb hf
      refine Classical.byContradiction fun hge => hnone ?_
      have hav := (hO.avail_iff b _).mp ⟨hb, hf, rfl⟩
      exact ⟨_, _, List.ne_nil_of_mem ((hF.mem_iff b _ _).mpr ⟨_, hav, rfl⟩), hge⟩
    · intro hleft ⟨i, j, hne, hge⟩
      obtain ⟨b, hb⟩ := List.exists_mem_of_ne_nil _ hne
      obtain ⟨m, hav, hc⟩ := (hF.mem_iff b i j).mp hb
      obtain ⟨hblk, hfree, rfl⟩ := (hO.avail_iff b m).mpr hav
      exact hge (hc ▸ hleft b hblk hfree)

end Laeufe

/-- 1000 bytes left of a region, and a report of 992: a request for 992 succeeds, one for 1000
    does not. -/
theorem max_blk_iff_992 : ∃ s, Reach (heapStep tlsf15) OffNull (heapStart tlsf15 pool1000) s ∧
    (rtlMemPoolAlloc tlsf15 s.heap 992).1 ≠ 0 ∧ (rtlMemPoolAlloc tlsf15 s.heap 1000).1 = 0 := by
  have hrun : (runIf (fun s a => decide (OffNull s a)) (heapStep tlsf15)
      [.addMem 0x2000 1024, .alloc 12] (heapStart tlsf15 pool1000)).any (fun s => decide
        (rtlMemPoolGetMaxBlk tlsf15 s.heap.pool = 992)) = true := by
    decide +kernel
  obtain ⟨s, hreach, hs⟩ := exists_of_runIf (fun _ _ h => of_decide_eq_true h) hrun
  have hmax := of_decide_eq_true hs
  have hok : ∀ n, 0 < n → n ≤ 0xFFFFFFFC → ClassInTable tlsf15 n →
      ((rtlMemPoolAlloc tlsf15 s.heap n).1 ≠ 0 ↔ max ((n + 3) / 4 * 4) blkSizeMin ≤ 992) := by
    intro n h0 hn hc
    rw [← hmax]
    exact (max_blk_iff tlsf15 pool1000 hreach h0
      (Nat.lt_of_le_of_lt hn (by decide)) hc).mpr (Or.inl hn)
  refine ⟨s, hreach, (hok 992 (by decide) (by decide) (by decide)).mpr (by decide), ?_⟩
  exact Classical.byContradiction fun hne =>
    absurd ((hok 1000 (by decide) (by decide) (by decide)).mp hne) (by decide)

/-- **A request that wraps around**: 2^32 - 1 bytes are more than any report, and the allocation
    succeeds. -/
theorem max_blk_wraps : ∃ s, Reach (heapStep tlsf15) OffNull (heapStart tlsf15 pool1000) s ∧
    ClassInTable tlsf15 0xFFFFFFFF ∧ ¬ ((rtlMemPoolAlloc tlsf15 s.heap 0xFFFFFFFF).1 ≠ 0 ↔
      max ((0xFFFFFFFF + 3) / 4 * 4) blkSizeMin ≤ rtlMemPoolGetMaxBlk tlsf15 s.heap.pool) := by
  have hrun : (runIf (fun s a => decide (OffNull s a)) (heapStep tlsf15)
      [.addMem 0x2000 1024] (heapStart tlsf15 pool1000)).any (fun s => decide
        ((rtlMemPoolAlloc tlsf15 s.heap 0xFFFFFFFF).1 ≠ 0 ∧
          rtlMemPoolGetMaxBlk tlsf15 s.heap.pool = 992)) = true := by
    decide +kernel
  obtain ⟨s, hreach, hs⟩ := exists_of_runIf (fun _ _ h => of_decide_eq_true h) hrun
  obtain ⟨hne, hmax⟩ := of_decide_eq_true hs
  refine ⟨s, hreach, by decide, fun h => ?_⟩
  have hle := h.mp hne
  rw [hmax] at hle
  exact absurd hle (by decide)

end FxRtos
