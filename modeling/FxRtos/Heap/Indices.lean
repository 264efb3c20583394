/-
  File:      FxRtos/Heap/Indices.lean
  Subject:   INDEX SAFETY of the memory pool: which elements of `sl_bitmap` and `blocks` the calls
             read or write.

  * `request_inTable_iff` -- a request between the beginning of the last class and BLK_SIZE_MAX
    is rounded up to a class behind the table, which nothing checks.
  * `region_inTable_iff` -- a region of exactly BLK_SIZE_MAX pool bytes is accepted (the test is
    `>`), and its class lies behind the table too.
  * `allocRefs`, `addMemRefs` -- the elements that a call refers to.
  * `tlsf_indices` -- all other sizes are safe, and in runs of them so is every call.
-/
import FxRtos.Heap.Integrity

namespace FxRtos

open Function (update)
open Lib

/-! ## 1. Sizes whose class lies behind the table -/

def InTable (cfg : TlsfConfig) (c : Nat × Nat) : Prop :=
  c.1 < cfg.flIndexCount ∧ c.2 < cfg.slIndexCount

instance decidableInTable (cfg : TlsfConfig) (c : Nat × Nat) : Decidable (InTable cfg c) := by
  unfold InTable
  infer_instance

/-- Where the last class of the table begins. -/
def TlsfConfig.lastClass (cfg : TlsfConfig) : Nat :=
  cfg.blkSizeMax - 1 <<< (cfg.flIndexMax - 1 - cfg.slIndexCountLog2)

/-- A request whose rounded size lies above the beginning of the last class, and is not yet too
    large. -/
def TopRequest (cfg : TlsfConfig) (size : Nat) : Prop :=
  size ≠ 0 ∧ alignUp size alignSize < cfg.blkSizeMax ∧
    cfg.lastClass < max (alignUp size alignSize) blkSizeMin

/-- A region of BLK_SIZE_MAX pool bytes. -/
def TopRegion (cfg : TlsfConfig) (bytes : Nat) : Prop :=
  blkSizeMin ≤ cfg.blkSizeMax ∧ cfg.blkSizeMax + 8 ≤ bytes ∧ bytes < cfg.blkSizeMax + 12

variable {cfg : TlsfConfig} {n bytes size : Nat}

theorem flIndexCount_eq (cfg : TlsfConfig) :
    cfg.flIndexCount + (cfg.slIndexCountLog2 + 1) = cfg.flIndexMax := by
  have := cfg.shift_le
  unfold TlsfConfig.flIndexCount TlsfConfig.flIndexShift
  omega

theorem small_le_max (cfg : TlsfConfig) : cfg.smallBlockSize ≤ 2 ^ cfg.flIndexMax := by
  rw [smallBlockSize_eq]
  exact Nat.pow_le_pow_right (by decide) cfg.shift_le

theorem lt_of_mappingInsert (hn : n < sizeT) (hfl : (mappingInsert cfg n).1 < cfg.flIndexCount) :
    n < 2 ^ cfg.flIndexMax := by
  refine Nat.not_le.mp fun hge => ?_
  have hlarge : cfg.smallBlockSize ≤ n := Nat.le_trans (small_le_max cfg) hge
  have h0 : n ≠ 0 := Nat.ne_of_gt (Nat.lt_of_lt_of_le (Nat.two_pow_pos _) hge)
  have hlog := (Nat.le_log2 h0).mpr hge
  rw [mappingInsert_large hlarge hn] at hfl
  have hfl' : n.log2 - (cfg.slIndexCountLog2 + 1) < cfg.flIndexCount := hfl
  have := flIndexCount_eq cfg
  omega

/-- Only sizes from BLK_SIZE_MAX on have a class behind the table. -/
theorem mappingInsert_lt_iff (hn : n < sizeT) :
    InTable cfg (mappingInsert cfg n) ↔ n < 2 ^ cfg.flIndexMax :=
  ⟨fun h => lt_of_mappingInsert hn h.1, mappingInsert_lt⟩

/-- A search class behind the table is behind its rows. -/
theorem mappingSearch_inTable (hn : n < sizeT)
    (hfl : (mappingSearch cfg n).1 < cfg.flIndexCount) : InTable cfg (mappingSearch cfg n) := by
  unfold mappingSearch at hfl ⊢
  split at hfl
  · rename_i hsmall
    rw [if_pos hsmall]
    exact mappingInsert_lt (lt_of_mappingInsert (Nat.mod_lt _ (by decide)) hfl)
  · rename_i hsmall
    rw [if_neg hsmall]
    exact mappingInsert_lt (lt_of_mappingInsert hn hfl)

/-- **Rounding up to a class** leads out of the table from the last class on. -/
theorem mappingSearch_lt_iff (hshift : cfg.flIndexShift < cfg.flIndexMax) (hn : n < 2 ^ 31) :
    InTable cfg (mappingSearch cfg n) ↔ n ≤ cfg.lastClass := by
  have hmax31 : 2 ^ cfg.flIndexMax ≤ 2 ^ 31 := Nat.pow_le_pow_right (by decide) cfg.max_le
  have hshift' : cfg.slIndexCountLog2 + 2 < cfg.flIndexMax := hshift
  -- the width of the last class, and half of the table
  obtain ⟨w, hw⟩ : ∃ w, w = 2 ^ (cfg.flIndexMax - 1 - cfg.slIndexCountLog2) := ⟨_, rfl⟩
  have hlast : cfg.lastClass = 2 ^ cfg.flIndexMax - w := by
    unfold TlsfConfig.lastClass
    rw [blkSizeMax_eq, Nat.one_shiftLeft, hw]
  have hhalf : 2 ^ cfg.flIndexMax = 2 * 2 ^ (cfg.flIndexMax - 1) := by
    rw [Nat.mul_comm, ← Nat.pow_succ, Nat.succ_eq_add_one,
      show cfg.flIndexMax - 1 + 1 = cfg.flIndexMax by omega]
  have hwle : w ≤ 2 ^ (cfg.flIndexMax - 1) := by
    rw [hw]
    exact Nat.pow_le_pow_right (by decide) (Nat.sub_le ..)
  have hwpos : 0 < w := hw ▸ Nat.two_pow_pos _
  rw [hlast]
  by_cases hsmall : cfg.smallBlockSize ≤ n
  · have h0 : n ≠ 0 := by
      rintro rfl
      rw [smallBlockSize_eq] at hsmall
      exact absurd hsmall (Nat.not_le.mpr (Nat.two_pow_pos _))
    have hup : n < 2 ^ (n.log2 + 1) := Nat.lt_log2_self
    obtain ⟨g, hg⟩ : ∃ g, g = 2 ^ (n.log2 - cfg.slIndexCountLog2) := ⟨_, rfl⟩
    have hgpos : 0 < g := hg ▸ Nat.two_pow_pos _
    have hgle : g ≤ 2 ^ n.log2 := by
      rw [hg]
      exact Nat.pow_le_pow_right (by decide) (Nat.sub_le ..)
    have hnle := Nat.log2_self_le h0
    have hwrap : n + (g - 1) < sizeT := by
      unfold sizeT
      omega
    have hsearch : mappingSearch cfg n = mappingInsert cfg (n + (g - 1)) := by
      unfold mappingSearch
      rw [if_pos hsmall, tlsfFls_eq h0 (by unfold sizeT; omega), Nat.one_shiftLeft, ← hg]
      simp only [Nat.mod_eq_of_lt hwrap]
    rw [hsearch, mappingInsert_lt_iff hwrap]
    rcases Nat.lt_or_ge n (2 ^ cfg.flIndexMax) with hlt | hge
    · have hlog := (Nat.log2_lt h0).mpr hlt
      rcases Nat.lt_or_ge (n.log2 + 1) cfg.flIndexMax with hlow | hhigh
      · -- below the last first-level index there is room to round up
        have h1 : 2 ^ (n.log2 + 1) ≤ 2 ^ (cfg.flIndexMax - 1) :=
          Nat.pow_le_pow_right (by decide) (by omega)
        have h2 : 2 ^ (n.log2 + 1) = 2 ^ n.log2 * 2 := Nat.pow_succ ..
        omega
      · have he : n.log2 = cfg.flIndexMax - 1 := by omega
        have hgw : g = w := by rw [hg, hw, he]
        omega
    · omega
  · have hn' : n < cfg.smallBlockSize := Nat.not_le.mp hsmall
    have hsearch : mappingSearch cfg n = mappingInsert cfg n := by
      unfold mappingSearch
      rw [if_neg hsmall]
    have hhalf' : cfg.smallBlockSize ≤ 2 ^ (cfg.flIndexMax - 1) := by
      rw [smallBlockSize_eq]
      exact Nat.pow_le_pow_right (by decide) (by omega)
    rw [hsearch, mappingInsert_lt_iff (by unfold sizeT; omega)]
    omega

/-! ## 2. Requests and regions -/

/-- **Requests**: the classes lie inside the table, unless the request is at the top. -/
theorem request_inTable_iff (hshift : cfg.flIndexShift < cfg.flIndexMax) (size : Nat) :
    (adjustRequestSize cfg size alignSize ≠ 0 →
      InTable cfg (mappingInsert cfg (adjustRequestSize cfg size alignSize)) ∧
      InTable cfg (mappingSearch cfg (adjustRequestSize cfg size alignSize))) ↔
    ¬ TopRequest cfg size := by
  have hadj : adjustRequestSize cfg size alignSize =
      if size ≠ 0 ∧ alignUp size alignSize < cfg.blkSizeMax then
        max (alignUp size alignSize) blkSizeMin else 0 := by
    unfold adjustRequestSize
    by_cases h0 : size = 0
    · simp [h0]
    · simp only [h0, ne_eq, not_false_eq_true, if_true, true_and]
  have hmax := blkSizeMax_le cfg
  rw [hadj]
  unfold TopRequest
  by_cases hc : size ≠ 0 ∧ alignUp size alignSize < cfg.blkSizeMax
  · rw [if_pos hc]
    obtain ⟨h0, hlt⟩ := hc
    have hk : max (alignUp size alignSize) blkSizeMin < 2 ^ 31 :=
      Nat.max_lt.mpr ⟨by omega, by decide⟩
    have hk0 : max (alignUp size alignSize) blkSizeMin ≠ 0 :=
      Nat.ne_of_gt (Nat.lt_of_lt_of_le (by decide) (Nat.le_max_right ..))
    generalize max (alignUp size alignSize) blkSizeMin = k at hk hk0 ⊢
    have hle : cfg.lastClass < 2 ^ cfg.flIndexMax := by
      have hpos : 0 < 1 <<< (cfg.flIndexMax - 1 - cfg.slIndexCountLog2) := by
        rw [Nat.one_shiftLeft]
        exact Nat.two_pow_pos _
      have := Nat.two_pow_pos cfg.flIndexMax
      unfold TlsfConfig.lastClass
      rw [blkSizeMax_eq]
      omega
    have hsize : k < sizeT := Nat.lt_trans hk (by decide)
    rw [mappingInsert_lt_iff hsize, mappingSearch_lt_iff hshift hk]
    constructor
    · rintro h ⟨_, _, hlast⟩
      exact absurd (h hk0).2 (Nat.not_le.mpr hlast)
    · intro h _
      have hk' : k ≤ cfg.lastClass := Nat.not_lt.mp fun hlast => h ⟨h0, hlt, hlast⟩
      exact ⟨by omega, hk'⟩
  · rw [if_neg hc]
    exact ⟨fun _ h => hc ⟨h.1, h.2.1⟩, fun _ h => absurd rfl h⟩

/-- **Regions**: the class lies inside the table, unless the region is at the top. -/
theorem region_inTable_iff (h : Heap) (base : Nat) (hb : bytes < sizeT) :
    ((rtlMemPoolAddMem cfg h base bytes).1 = true →
      InTable cfg (mappingInsert cfg (poolBytes bytes))) ↔ ¬ TopRegion cfg bytes := by
  have hmax := blkSizeMax_le cfg
  have h4 : ∃ k, cfg.blkSizeMax = 4 * k := by
    have := cfg.shift_le
    refine ⟨2 ^ (cfg.flIndexMax - 2), ?_⟩
    rw [blkSizeMax_eq, show (4 : Nat) = 2 ^ 2 from rfl, ← Nat.pow_add]
    congr 1
    omega
  have hpool : poolBytes bytes = (bytes + (sizeT - 8)) % sizeT / 4 * 4 := alignDown_eq _
  have htop : TopRegion cfg bytes ↔
      blkSizeMin ≤ cfg.blkSizeMax ∧ poolBytes bytes = cfg.blkSizeMax := by
    obtain ⟨k, hk⟩ := h4
    refine and_congr_right fun _ => ?_
    rw [hpool]
    unfold sizeT at *
    omega
  by_cases hacc : poolBytes bytes < blkSizeMin ∨ cfg.blkSizeMax < poolBytes bytes
  · rw [rtlMemPoolAddMem_rejects h hacc, htop]
    exact ⟨fun _ h => by omega, nofun⟩
  · rw [rtlMemPoolAddMem_accepts h base hacc, htop,
      mappingInsert_lt_iff (by unfold sizeT; omega), ← blkSizeMax_eq]
    exact ⟨fun h1 h2 => by have := h1 rfl; omega, fun h1 _ => by omega⟩

/-! ## 3. The elements a call refers to -/

inductive TableRef where
  | slBitmap (fl : Nat)
  | blocks (fl sl : Nat)

def TableRef.InBounds (cfg : TlsfConfig) : TableRef → Prop
  | .slBitmap fl => fl < cfg.flIndexCount
  | .blocks fl sl => InTable cfg (fl, sl)

/-- `remove_free_block` and `insert_free_block`: a list and its bit. -/
def listRefs (c : Nat × Nat) : List TableRef := [.blocks c.1 c.2, .slBitmap c.1]

/-- `search_suitable_block`. -/
def searchRefs (control : RtlMemPool) (fl sl : Nat) : List TableRef :=
  let slMap := control.slBitmap fl &&& ((~~~0#32) <<< sl)
  if slMap = 0#32 then
    let flMap := control.flBitmap &&& ((~~~0#32) <<< (fl + 1))
    if flMap = 0#32 then [.slBitmap fl]
    else
      let i := (tlsfFfs flMap).toNat
      [.slBitmap fl, .slBitmap i, .blocks i (tlsfFfs (control.slBitmap i)).toNat]
  else [.slBitmap fl, .blocks fl (tlsfFfs slMap).toNat]

/-- `block_locate_free`. -/
def locateRefs (cfg : TlsfConfig) (h : Heap) (size : Nat) : List TableRef :=
  if size ≠ 0 then
    let (fl, sl) := mappingSearch cfg size
    let (block, c) := searchSuitableBlock h.pool fl sl
    searchRefs h.pool fl sl ++ if block ≠ 0 then listRefs c else []
  else []

/-- `block_trim_free`. -/
def trimRefs (cfg : TlsfConfig) (h : Heap) (block size : Nat) : List TableRef :=
  if blockCanSplit h.mem block size then
    let (remaining, mem) := blockSplit h.mem block size
    let mem := blockLinkNext mem block
    let mem := blockSetPrevFree mem remaining
    listRefs (mappingInsert cfg (blockSize mem remaining))
  else []

/-- `rtl_mem_pool_alloc`. -/
def allocRefs (cfg : TlsfConfig) (h : Heap) (size : Nat) : List TableRef :=
  let adjust := adjustRequestSize cfg size alignSize
  let (block, h') := blockLocateFree cfg h adjust
  locateRefs cfg h adjust ++ if block ≠ 0 then trimRefs cfg h' block adjust else []

/-- `rtl_mem_pool_add_mem`. -/
def addMemRefs (cfg : TlsfConfig) (h : Heap) (base bytes : Nat) : List TableRef :=
  let size := poolBytes bytes
  if size < blkSizeMin ∨ cfg.blkSizeMax < size then []
  else
    let block := base - blkHeaderOverhead
    let mem := blockSetSize h.mem block size
    let mem := blockSetFree mem block
    let mem := blockSetPrevUsed mem block
    listRefs (mappingInsert cfg (blockSize mem block))

section Zugriffe

variable {h : Heap} {R : List Region} {A : Shape} {c : Nat × Nat} {control : RtlMemPool}
  {ref : TableRef} {base block fl sl k : Nat}

theorem listRefs_inBounds : (∀ ref ∈ listRefs c, ref.InBounds cfg) ↔ InTable cfg c := by
  unfold listRefs
  rw [List.forall_mem_cons, List.forall_mem_singleton]
  exact ⟨fun h => h.1, fun h => ⟨h, h.1⟩⟩

/-- The search refers to the class it begins with, and to the list it finds. -/
theorem searchRefs_cases (hm : ref ∈ searchRefs control fl sl) :
    ref = .slBitmap fl ∨ ref ∈ listRefs (searchSuitableBlock control fl sl).2 := by
  unfold searchRefs at hm
  unfold searchSuitableBlock listRefs
  simp only [] at hm ⊢
  split at hm
  · split at hm
    · exact Or.inl (List.mem_singleton.mp hm)
    · rename_i hsl hfl
      rw [if_pos hsl, if_neg hfl]
      simp only [List.mem_cons, List.not_mem_nil, or_false] at hm ⊢
      tauto
  · rename_i hsl
    rw [if_neg hsl]
    simp only [List.mem_cons, List.not_mem_nil, or_false] at hm ⊢
    tauto

theorem slBitmap_mem_searchRefs (control : RtlMemPool) (fl sl : Nat) :
    .slBitmap fl ∈ searchRefs control fl sl := by
  unfold searchRefs
  simp only []
  split
  · split <;> exact List.mem_cons_self
  · exact List.mem_cons_self

/-- The rest that is cut off is in a class of the table. -/
theorem HeapOk.trimRefs_inBounds {b n : Nat} (hO : HeapOk cfg R h A [b] Nowhere)
    (hb : A.size b = some n) (hf : A.free b = true) (hk : 4 ∣ k ∧ 12 ≤ k) (hkn : k ≤ n) :
    ∀ ref ∈ trimRefs cfg h b k, ref.InBounds cfg := by
  obtain ⟨_, hn4, _⟩ := hO.shape.sized b n hb
  unfold trimRefs
  rw [hO.canSplit hb hkn]
  by_cases hsplit : k + 4 + 12 ≤ n
  · obtain ⟨m, rfl⟩ : ∃ m, n = k + 4 + m := ⟨n - (k + 4), by omega⟩
    have hm : 4 ∣ m ∧ 12 ≤ m := ⟨by omega, by omega⟩
    obtain ⟨hrem, hst, _⟩ := hO.stored.trim hO.shape hO.regions hb hf hk hm
    have hsh := hO.shape.split hb hf hk hm
    have hrest : (A.split b k m).size (b + 4 + k) = some m := cut_rest (by decide)
    simp only [hsplit, decide_true, if_true, hrem]
    rw [hst.size_eq hsh hO.regions hrest]
    exact listRefs_inBounds.mpr (mappingInsert_lt (hsh.bound hO.regions hrest).1)
  · rw [if_neg (by simpa using hsplit)]
    exact nofun

/-- A request whose classes lie in the table refers to nothing outside of it. -/
theorem HeapOk.allocRefs_inBounds (hO : HeapOk cfg R h A [] Nowhere) (size : Nat)
    (hcl : adjustRequestSize cfg size alignSize ≠ 0 →
      InTable cfg (mappingSearch cfg (adjustRequestSize cfg size alignSize))) :
    ∀ ref ∈ allocRefs cfg h size, ref.InBounds cfg := by
  have hadj := adjustRequestSize_cases cfg size
  unfold allocRefs
  simp only []
  generalize adjustRequestSize cfg size alignSize = k at hcl hadj ⊢
  rcases hadj with rfl | ⟨hk4, hk12, hk31, _⟩
  · exact nofun
  have hk0 : k ≠ 0 := by omega
  have hin := hcl hk0
  obtain ⟨b, fl, sl, hr⟩ : ∃ b fl sl, searchSuitableBlock h.pool (mappingSearch cfg k).1
      (mappingSearch cfg k).2 = (b, fl, sl) := ⟨_, _, _, rfl⟩
  -- the list found is the one the search begins with, or the list of a block
  have hfound : InTable cfg (fl, sl) := by
    rcases hO.search hin.1 (mappingSearch cfg k).2 with e | ⟨n, hav, hc, _⟩
    · rw [hr] at e
      rw [(Prod.mk.inj e).2]
      exact hin
    · rw [hr] at hav hc
      have := mappingInsert_lt (hO.availOk.range b n hav)
      rw [hc] at this
      exact this
  refine List.forall_mem_append.mpr ⟨?_, ?_⟩
  · unfold locateRefs
    rw [if_pos hk0]
    simp only [hr]
    refine List.forall_mem_append.mpr ⟨fun ref hm => ?_, ?_⟩
    · rcases searchRefs_cases hm with rfl | hm
      · exact hin.1
      · rw [hr] at hm
        exact listRefs_inBounds.mpr hfound ref hm
    · split
      · exact listRefs_inBounds.mpr hfound
      · exact nofun
  · by_cases hb0 : b = 0
    · rw [blockLocateFree_none hk0 (by rw [hr]; exact hb0)]
      exact nofun
    · obtain ⟨n, hav, hkn, hloc, h1, _⟩ := hO.locate hk4 hk12 hk31 hin.1 hr hb0
      rw [hloc, if_pos hb0]
      exact h1.trimRefs_inBounds hav.1 hav.2.1 ⟨hk4, hk12⟩ hkn

/-- The bitmap of the class that the search begins with is read always. -/
theorem slBitmap_mem_allocRefs (h : Heap) (size : Nat)
    (hk : adjustRequestSize cfg size alignSize ≠ 0) :
    .slBitmap (mappingSearch cfg (adjustRequestSize cfg size alignSize)).1 ∈
      allocRefs cfg h size := by
  unfold allocRefs locateRefs
  simp only [if_pos hk]
  exact List.mem_append_left _ (List.mem_append_left _ (slBitmap_mem_searchRefs ..))

/-- Memory that is rejected is put into no list. -/
theorem addMemRefs_eq (cfg : TlsfConfig) (h : Heap) (base bytes : Nat) :
    addMemRefs cfg h base bytes = if (rtlMemPoolAddMem cfg h base bytes).1 = true then
      listRefs (mappingInsert cfg (poolBytes bytes)) else [] := by
  have hsized : Sized (poolBytes bytes) := by
    unfold poolBytes
    rw [alignDown_eq]
    have := Nat.mod_lt (bytes + (sizeT - 2 * blkHeaderOverhead)) (show 0 < sizeT by decide)
    exact ⟨Nat.dvd_mul_left .., by omega⟩
  unfold addMemRefs
  by_cases hrej : poolBytes bytes < blkSizeMin ∨ cfg.blkSizeMax < poolBytes bytes
  · rw [rtlMemPoolAddMem_rejects h hrej, if_pos hrej]
    rfl
  · rw [rtlMemPoolAddMem_accepts h base hrej, if_neg hrej, if_pos rfl]
    simp only [newHeader h.mem _ hsized]
    unfold blockSize
    rw [Function.update_self, word_size hsized]

end Zugriffe

/-! ## 4. Index safety -/

/-- **Index safety**. A request's classes lie in the table exactly if it is not at the top, and
    so for a region that is accepted; and in every run of requests that do not wrap around, the
    calls refer to elements of `sl_bitmap` and `blocks` for exactly these sizes. -/
theorem tlsf_indices (cfg : TlsfConfig) (hshift : cfg.flIndexShift < cfg.flIndexMax) :
    (∀ size, (adjustRequestSize cfg size alignSize ≠ 0 →
      InTable cfg (mappingInsert cfg (adjustRequestSize cfg size alignSize)) ∧
      InTable cfg (mappingSearch cfg (adjustRequestSize cfg size alignSize))) ↔
      ¬ TopRequest cfg size) ∧
    (∀ h base bytes, bytes < sizeT → (((rtlMemPoolAddMem cfg h base bytes).1 = true →
      InTable cfg (mappingInsert cfg (poolBytes bytes))) ↔ ¬ TopRegion cfg bytes)) ∧
    ∀ h s, Reach (heapStep cfg) NoWrap (heapStart cfg h) s →
      (∀ size, (∀ ref ∈ allocRefs cfg s.heap size, ref.InBounds cfg) ↔ ¬ TopRequest cfg size) ∧
      ∀ base bytes, bytes < sizeT →
        ((∀ ref ∈ addMemRefs cfg s.heap base bytes, ref.InBounds cfg) ↔ ¬ TopRegion cfg bytes) := by
  refine ⟨request_inTable_iff hshift, fun h base bytes hb => region_inTable_iff h base hb,
    fun h s hr => ⟨fun size => ?_, fun base bytes hb => ?_⟩⟩
  · obtain ⟨A, hO, _⟩ := hr.inv (heapInv_init cfg h) fun _ _ _ hi hg hs => hi.step hg hs
    rw [← request_inTable_iff hshift size]
    constructor
    · intro hall hk
      have hfl := hall _ (slBitmap_mem_allocRefs s.heap size hk)
      rcases adjustRequestSize_cases cfg size with h0 | ⟨_, _, hk31, _⟩
      · exact absurd h0 hk
      have hlt : adjustRequestSize cfg size alignSize < sizeT := Nat.lt_trans hk31 (by decide)
      have hin := mappingSearch_inTable hlt hfl
      have hle := (mappingSearch_lt_iff hshift hk31).mp hin
      refine ⟨(mappingInsert_lt_iff hlt).mpr ?_, hin⟩
      have hpos := Nat.two_pow_pos cfg.flIndexMax
      unfold TlsfConfig.lastClass at hle
      rw [blkSizeMax_eq, Nat.one_shiftLeft] at hle
      have := Nat.two_pow_pos (cfg.flIndexMax - 1 - cfg.slIndexCountLog2)
      omega
    · exact fun hcl => hO.allocRefs_inBounds size fun hk => (hcl hk).2
  · rw [← region_inTable_iff s.heap base hb, addMemRefs_eq cfg s.heap base bytes]
    by_cases hacc : (rtlMemPoolAddMem cfg s.heap base bytes).1 = true
    · rw [if_pos hacc, listRefs_inBounds]
      exact ⟨fun h _ => h, fun h => h hacc⟩
    · rw [if_neg hacc]
      exact ⟨fun _ h => absurd h hacc, fun _ => nofun⟩

/-- The shipped configuration: 31744 bytes are safe to ask for, and 32772 to give, also after two
    allocations of which one was freed. -/
theorem tlsf15_indices : ¬ TopRequest tlsf15 31744 ∧ ¬ TopRegion tlsf15 32772 ∧
    InTable tlsf15 (mappingSearch tlsf15 (adjustRequestSize tlsf15 31744 alignSize)) ∧
    InTable tlsf15 (mappingInsert tlsf15 (poolBytes 32772)) ∧
    ∃ s, Reach (heapStep tlsf15) NoWrap (heapStart tlsf15 pool1000) s ∧ s.live.length = 1 ∧
      (∀ ref ∈ allocRefs tlsf15 s.heap 31744, ref.InBounds tlsf15) ∧
      ∀ ref ∈ addMemRefs tlsf15 s.heap 0x4000 32772, ref.InBounds tlsf15 := by
  have hreq : ¬ TopRequest tlsf15 31744 := fun h => absurd h.2.2 (by decide)
  have hreg : ¬ TopRegion tlsf15 32772 := fun h => absurd h.2.1 (by decide)
  obtain ⟨h1, h2, h3⟩ := tlsf_indices tlsf15 (by decide)
  have hrun : (runIf (fun s a => decide (NoWrap s a)) (heapStep tlsf15)
      [.addMem 0x2000 1024, .alloc 100, .alloc 20, .free 0x2004]
      (heapStart tlsf15 pool1000)).any (fun s => decide (s.live.length = 1)) = true := by
    decide +kernel
  obtain ⟨s, hreach, hs⟩ := exists_of_runIf (fun _ _ h => of_decide_eq_true h) hrun
  obtain ⟨halloc, hadd⟩ := h3 pool1000 s hreach
  exact ⟨hreq, hreg, ((h1 31744).mpr hreq (by decide)).2,
    (h2 pool1000 0x2000 32772 (by decide)).mpr hreg (rtlMemPoolAddMem_accepts _ _ (by decide)),
    s, hreach, of_decide_eq_true hs, (halloc 31744).mpr hreq,
    (hadd 0x4000 32772 (by decide)).mpr hreg⟩

/-- **Behind the table**: a region of BLK_SIZE_MAX pool bytes is accepted, and a request of 31745
    bytes is not too large; their classes have the first-level index FL_INDEX_COUNT. -/
theorem tlsf15_behind : ¬ ((∀ bytes, bytes < sizeT →
      (rtlMemPoolAddMem tlsf15 (rtlMemPoolInit tlsf15 pool1000) 0x2000 bytes).1 = true →
        InTable tlsf15 (mappingInsert tlsf15 (poolBytes bytes))) ∨
    ∀ size, size < sizeT → adjustRequestSize tlsf15 size alignSize ≠ 0 →
      InTable tlsf15 (mappingSearch tlsf15 (adjustRequestSize tlsf15 size alignSize))) := by
  rintro (h | h)
  · exact absurd (h 32776 (by decide) (rtlMemPoolAddMem_accepts _ _ (by decide))) (by decide)
  · exact absurd (h 31745 (by decide) (by decide)) (by decide)

end FxRtos
