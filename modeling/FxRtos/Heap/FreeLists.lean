/-
  File:      FxRtos/Heap/FreeLists.lean
  Subject:   THE FREE LISTS AND THEIR BITMAPS. A block is `avail` if it is to stand in a list; the
             lists are doubly linked through the blocks and end in `block_null`
             (Lib/Linked.lean).

  * `AvailOk` -- what the lists need of the blocks: no link of one is a link of another.
  * `FreeLists` -- every available block stands in the list of its class; a bit is set exactly
    for a list that is not empty.
  * `FreeLists.remove`, `FreeLists.insert` -- `remove_free_block` and `insert_free_block`.
  * `FreeLists.search` -- `search_suitable_block` finds a block of a class not below the request.
-/
import FxRtos.Lib.Linked
import FxRtos.Heap.Stored

namespace FxRtos

open Function (update)
open Lib

/-! ## 1. Blocks in lists -/

structure AvailOk (cfg : TlsfConfig) (null : Nat) (avail : Nat → Nat → Prop) : Prop where
  fn : ∀ b n m, avail b n → avail b m → n = m
  range : ∀ b n, avail b n → n < 2 ^ cfg.flIndexMax
  apart : ∀ b c n m, avail b n → avail c m → b ≠ c → b + 16 ≤ c ∨ c + 16 ≤ b
  offNull : ∀ b n, avail b n → null + 12 ≤ b ∨ b + 20 ≤ null

/-- `next_free` and `prev_free`. -/
def linkNext (mem : Mem) (b : Nat) : Nat := mem (b + 8)

def linkPrev (mem : Mem) (b : Nat) : Nat := mem (b + 12)

structure FreeLists (cfg : TlsfConfig) (mem : Mem) (pool : RtlMemPool) (avail : Nat → Nat → Prop)
    (F : Nat → Nat → List Nat) : Prop where
  linked : ∀ fl sl, fl < cfg.flIndexCount → sl < cfg.slIndexCount →
    Linked pool.blockNull (linkNext mem) (linkPrev mem) pool.blockNull (pool.blocks fl sl) (F fl sl)
  mem_iff : ∀ b fl sl, b ∈ F fl sl ↔ ∃ n, avail b n ∧ mappingInsert cfg n = (fl, sl)
  nodup : ∀ fl sl, (F fl sl).Nodup
  slBit : ∀ fl sl, fl < cfg.flIndexCount → sl < 32 →
    ((pool.slBitmap fl).getLsbD sl = true ↔ F fl sl ≠ [])
  flBit : ∀ fl, fl < 32 → (pool.flBitmap.getLsbD fl = true ↔ ∃ sl, F fl sl ≠ [])

/-- One list replaced. -/
def setList (F : Nat → Nat → List Nat) (fl sl : Nat) (l : List Nat) : Nat → Nat → List Nat :=
  update F fl (update (F fl) sl l)

variable {cfg : TlsfConfig} {mem mem' : Mem} {pool pool' : RtlMemPool} {null : Nat}
  {avail avail' : Nat → Nat → Prop} {F : Nat → Nat → List Nat} {b c n m fl sl x : Nat}

theorem update2_self {β : Type*} (f : Nat → Nat → β) (v : β) :
    update f fl (update (f fl) sl v) fl sl = v := by
  rw [Function.update_self, Function.update_self]

theorem update2_of_ne {β : Type*} (f : Nat → Nat → β) (v : β) {i j : Nat} (h : (i, j) ≠ (fl, sl)) :
    update f fl (update (f fl) sl v) i j = f i j := by
  by_cases hi : i = fl
  · subst hi
    rw [Function.update_self, Function.update_of_ne fun e => h (by rw [e])]
  · rw [Function.update_of_ne hi]

/-- A node of the lists: an available block, or the node at their ends. -/
def Node (avail : Nat → Nat → Prop) (null b : Nat) : Prop := b = null ∨ ∃ n, avail b n

/-- No link forward is a link back. -/
theorem AvailOk.links_ne (h : AvailOk cfg null avail) (hb : Node avail null b)
    (hc : Node avail null c) : b + 8 ≠ c + 12 := by
  rcases hb with rfl | ⟨n, hb⟩ <;> rcases hc with rfl | ⟨m, hc⟩
  · omega
  · have := h.offNull c m hc
    omega
  · have := h.offNull b n hb
    omega
  · by_cases hbc : b = c
    · omega
    · have := h.apart b c n m hb hc hbc
      omega

theorem AvailOk.ne_null (h : AvailOk cfg null avail) (hb : avail b n) : b ≠ null := by
  have := h.offNull b n hb
  omega

theorem slIndexCount_le : cfg.slIndexCount ≤ 32 := by
  rw [slIndexCount_eq]
  exact Nat.pow_le_pow_right (by decide) cfg.sl_le

theorem flIndexCount_le (cfg : TlsfConfig) : cfg.flIndexCount ≤ 30 := by
  have := cfg.max_le
  unfold TlsfConfig.flIndexCount TlsfConfig.flIndexShift
  omega

/-! ## 2. Reading the lists -/

section Lesen

variable (h : FreeLists cfg mem pool avail F)

include h

theorem FreeLists.congr_avail (he : ∀ b n, avail' b n ↔ avail b n) :
    FreeLists cfg mem pool avail' F :=
  ⟨h.linked, fun b fl sl => by simp only [h.mem_iff, he], h.nodup, h.slBit, h.flBit⟩

theorem FreeLists.congr_mem
    (he : ∀ b n, avail b n → mem' (b + 8) = mem (b + 8) ∧ mem' (b + 12) = mem (b + 12)) :
    FreeLists cfg mem' pool avail F := by
  refine ⟨fun fl sl hfl hsl => (h.linked fl sl hfl hsl).congr fun b hb => ?_, h.mem_iff, h.nodup,
    h.slBit, h.flBit⟩
  obtain ⟨n, hn, _⟩ := (h.mem_iff b fl sl).mp hb
  exact he b n hn

/-- Only the table has lists. -/
theorem FreeLists.index_lt (hA : AvailOk cfg null avail) (hb : b ∈ F fl sl) :
    fl < cfg.flIndexCount ∧ sl < cfg.slIndexCount := by
  obtain ⟨n, hn, hc⟩ := (h.mem_iff b fl sl).mp hb
  have hlt := mappingInsert_lt (hA.range b n hn)
  rw [hc] at hlt
  exact hlt

theorem FreeLists.slMap_iff (hA : AvailOk cfg null avail) (hfl : fl < cfg.flIndexCount) :
    pool.slBitmap fl ≠ 0#32 ↔ ∃ sl, F fl sl ≠ [] := by
  rw [ne_zero_iff_bit]
  constructor
  · rintro ⟨sl, hsl, hbit⟩
    exact ⟨sl, (h.slBit fl sl hfl hsl).mp hbit⟩
  · rintro ⟨sl, hne⟩
    obtain ⟨b, hb⟩ := List.exists_mem_of_ne_nil _ hne
    have hsl := Nat.lt_of_lt_of_le (h.index_lt hA hb).2 slIndexCount_le
    exact ⟨sl, hsl, (h.slBit fl sl hfl hsl).mpr hne⟩

/-- The head of a list that is not empty. -/
theorem FreeLists.head_mem (hA : AvailOk cfg null avail) (hne : F fl sl ≠ []) :
    pool.blocks fl sl ∈ F fl sl := by
  obtain ⟨b, hb⟩ := List.exists_mem_of_ne_nil _ hne
  obtain ⟨hfl, hsl⟩ := h.index_lt hA hb
  rcases (h.linked fl sl hfl hsl).front with ⟨_, e⟩ | hm
  · exact absurd e hne
  · exact hm

/-- What stands in front of a list is a node. -/
theorem FreeLists.current_node (hfl : fl < cfg.flIndexCount) (hsl : sl < cfg.slIndexCount) :
    Node avail pool.blockNull (pool.blocks fl sl) := by
  rcases (h.linked fl sl hfl hsl).front with ⟨e, _⟩ | hm
  · exact Or.inl e
  · obtain ⟨m, hav, _⟩ := (h.mem_iff _ fl sl).mp hm
    exact Or.inr ⟨m, hav⟩

/-- **`search_suitable_block`**: no block, and no list from the class on has one; or the first
    block of a list not below the class. -/
theorem FreeLists.search (hA : AvailOk cfg null avail) (hfl : fl < cfg.flIndexCount) (sl : Nat) :
    let r := searchSuitableBlock pool fl sl
    (r = (0, fl, sl) ∧ ∀ i j, F i j ≠ [] → ClassLt (i, j) (fl, sl)) ∨
      (r.1 ∈ F r.2.1 r.2.2 ∧ ¬ ClassLt r.2 (fl, sl)) := by
  have hfls : fl + 1 ≤ 32 := by
    have := flIndexCount_le cfg
    omega
  unfold searchSuitableBlock
  simp only []
  split
  · rename_i hslMap
    split
    · rename_i hflMap
      refine Or.inl ⟨rfl, fun i j hne => ?_⟩
      obtain ⟨b, hb⟩ := List.exists_mem_of_ne_nil _ hne
      obtain ⟨hi, hj⟩ := h.index_lt hA hb
      have hi32 : i < 32 := Nat.lt_of_lt_of_le hi (Nat.le_trans (flIndexCount_le cfg) (by decide))
      have hj32 : j < 32 := Nat.lt_of_lt_of_le hj slIndexCount_le
      rcases Nat.lt_trichotomy i fl with hlt | rfl | hlt
      · exact Or.inl hlt
      · -- the same first-level index: its bits from `sl` on are clear
        refine Or.inr ⟨rfl, Nat.not_le.mp fun hle => ?_⟩
        have hbit := (h.slBit i j hi hj32).mpr hne
        refine absurd hslMap (ne_zero_iff_bit.mpr ⟨j, hj32, ?_⟩)
        rw [getLsbD_from hj32, hbit, Bool.true_and, decide_eq_true_eq]
        exact hle
      · have hbit := (h.flBit i hi32).mpr ⟨j, hne⟩
        refine absurd hflMap (ne_zero_iff_bit.mpr ⟨i, hi32, ?_⟩)
        rw [getLsbD_from hi32, hbit, Bool.true_and, decide_eq_true_eq]
        exact hlt
    · -- the first list of the next first-level index that has one
      rename_i hmap
      have hlt := ctz_lt hmap
      have hbit := BitVec.getLsbD_true_ctz_of_ne_zero hmap
      rw [← tlsfFfs_eq hmap] at hlt hbit
      generalize hi : (tlsfFfs (pool.flBitmap &&& ((~~~0#32) <<< (fl + 1)))).toNat = i at hlt hbit ⊢
      rw [getLsbD_from hlt, Bool.and_eq_true, decide_eq_true_eq] at hbit
      obtain ⟨hbit, hle⟩ := hbit
      obtain ⟨j, hj⟩ := (h.flBit i hlt).mp hbit
      have hifl := (h.index_lt hA (h.head_mem hA hj)).1
      have hne := (h.slMap_iff hA hifl).mpr ⟨j, hj⟩
      have hjlt := ctz_lt hne
      have hjbit := BitVec.getLsbD_true_ctz_of_ne_zero hne
      rw [← tlsfFfs_eq hne] at hjlt hjbit
      refine Or.inr ⟨h.head_mem hA ((h.slBit i _ hifl hjlt).mp hjbit), ?_⟩
      rintro (hless | ⟨he, _⟩)
      · exact absurd (show i < fl from hless) (by omega)
      · exact absurd (show i = fl from he) (by omega)
  · -- a list of the same first-level index
    rename_i hmap
    have hlt := ctz_lt hmap
    have hbit := BitVec.getLsbD_true_ctz_of_ne_zero hmap
    rw [← tlsfFfs_eq hmap] at hlt hbit
    rw [getLsbD_from hlt, Bool.and_eq_true, decide_eq_true_eq] at hbit
    obtain ⟨hbit, hle⟩ := hbit
    refine Or.inr ⟨h.head_mem hA ((h.slBit fl _ hfl hlt).mp hbit), ?_⟩
    rintro (hless | ⟨_, hless⟩)
    · exact absurd hless (Nat.lt_irrefl fl)
    · exact absurd hless (Nat.not_lt.mpr hle)

end Lesen

/-! ## 3. One list changed -/

theorem setList_self (F : Nat → Nat → List Nat) (l : List Nat) : setList F fl sl l fl sl = l :=
  update2_self F l

theorem setList_other (F : Nat → Nat → List Nat) (l : List Nat) {i j : Nat}
    (h : (i, j) ≠ (fl, sl)) : setList F fl sl l i j = F i j := update2_of_ne F l h

/-- The list of one class replaced, with its head and its bits; the blocks of the other lists
    keep their links. -/
theorem FreeLists.replace (h : FreeLists cfg mem pool avail F) (l : List Nat) {a : Nat}
    (hA : AvailOk cfg null avail') (hfl : fl < cfg.flIndexCount)
    (hnull : pool'.blockNull = pool.blockNull)
    (hblocks : ∀ i j, pool'.blocks i j = if (i, j) = (fl, sl) then a else pool.blocks i j)
    (hl : Linked pool.blockNull (linkNext mem') (linkPrev mem') pool.blockNull a l)
    (hrest : ∀ i j c, (i, j) ≠ (fl, sl) → c ∈ F i j →
      mem' (c + 8) = mem (c + 8) ∧ mem' (c + 12) = mem (c + 12))
    (hmem : ∀ b i j, b ∈ setList F fl sl l i j ↔ ∃ n, avail' b n ∧ mappingInsert cfg n = (i, j))
    (hn : l.Nodup)
    (hslb : ∀ i j, j < 32 → (pool'.slBitmap i).getLsbD j =
      if (i, j) = (fl, sl) then decide (l ≠ []) else (pool.slBitmap i).getLsbD j)
    (hflb : ∀ i, i < 32 → pool'.flBitmap.getLsbD i =
      if i = fl then decide (pool'.slBitmap fl ≠ 0#32) else pool.flBitmap.getLsbD i) :
    FreeLists cfg mem' pool' avail' (setList F fl sl l) := by
  have hbit : ∀ i j, i < cfg.flIndexCount → j < 32 →
      ((pool'.slBitmap i).getLsbD j = true ↔ setList F fl sl l i j ≠ []) := by
    intro i j hi hj
    rw [hslb i j hj]
    by_cases hij : (i, j) = (fl, sl)
    · cases hij
      rw [if_pos rfl, setList_self]
      exact decide_eq_true_iff
    · rw [if_neg hij, setList_other F l hij]
      exact h.slBit i j hi hj
  refine ⟨fun i j hi hj => ?_, hmem, fun i j => ?_, hbit, fun i hi => ?_⟩
  · rw [hnull, hblocks]
    by_cases hij : (i, j) = (fl, sl)
    · cases hij
      rw [if_pos rfl, setList_self]
      exact hl
    · rw [if_neg hij, setList_other F l hij]
      exact (h.linked i j hi hj).congr fun c hc => hrest i j c hij hc
  · by_cases hij : (i, j) = (fl, sl)
    · cases hij
      rw [setList_self]
      exact hn
    · rw [setList_other F l hij]
      exact h.nodup i j
  · rw [hflb i hi]
    by_cases hif : i = fl
    · subst hif
      rw [if_pos rfl, decide_eq_true_iff, ne_zero_iff_bit]
      constructor
      · rintro ⟨j, hj, hb⟩
        exact ⟨j, (hbit i j hfl hj).mp hb⟩
      · rintro ⟨j, hne⟩
        obtain ⟨c, hc⟩ := List.exists_mem_of_ne_nil _ hne
        obtain ⟨n, hav, hcl⟩ := (hmem c i j).mp hc
        have hlt := (mappingInsert_lt (hA.range c n hav)).2
        rw [hcl] at hlt
        have hj := Nat.lt_of_lt_of_le hlt slIndexCount_le
        exact ⟨j, hj, (hbit i j hfl hj).mpr hne⟩
    · rw [if_neg hif, h.flBit i hi]
      refine exists_congr fun j => ?_
      rw [setList_other F l fun e => hif (Prod.mk.inj e).1]

/-! ## 4. A block taken out -/

/-- The memory after `remove_free_block`. -/
def unlinked (mem : Mem) (b : Nat) : Mem :=
  update (update mem (linkNext mem b + 12) (linkPrev mem b)) (linkPrev mem b + 8) (linkNext mem b)

theorem removeFreeBlock_eq (mem : Mem) (pool : RtlMemPool) (b fl sl : Nat) :
    removeFreeBlock ⟨mem, pool⟩ b fl sl =
      if pool.blocks fl sl = b then
        if linkNext mem b = pool.blockNull then
          ⟨unlinked mem b, (pool.setBlocks fl sl (linkNext mem b)).clearBit fl sl⟩
        else ⟨unlinked mem b, pool.setBlocks fl sl (linkNext mem b)⟩
      else ⟨unlinked mem b, pool⟩ := rfl

section Entfernen

variable (h : FreeLists cfg mem pool avail F) (hA : AvailOk cfg pool.blockNull avail)
  (hb : b ∈ F fl sl)

include h hA hb

/-- The neighbours of a block in its list. -/
theorem FreeLists.neighbours :
    (linkPrev mem b = pool.blockNull ∨ linkPrev mem b ∈ (F fl sl).erase b) ∧
    (linkNext mem b = pool.blockNull ∨ linkNext mem b ∈ (F fl sl).erase b) := by
  obtain ⟨hfl, hsl⟩ := h.index_lt hA hb
  have hL := h.linked fl sl hfl hsl
  have hnd := h.nodup fl sl
  obtain ⟨l1, l2, hl⟩ := List.append_of_mem hb
  rw [hl] at hL hnd
  have hb1 : b ∉ l1 := fun hm => (List.nodup_append.mp hnd).2.2 b hm b List.mem_cons_self rfl
  rw [hl, List.erase_append_right _ hb1, List.erase_cons_head]
  refine ⟨?_, ?_⟩
  · rcases hL.neighbours.1 with ⟨_, e⟩ | hm
    · exact Or.inl e
    · exact Or.inr (List.mem_append_left _ hm)
  · rcases hL.neighbours.2 with ⟨_, e⟩ | hm
    · exact Or.inl e
    · exact Or.inr (List.mem_append_right _ hm)

theorem FreeLists.neighbours_node :
    Node avail pool.blockNull (linkPrev mem b) ∧ Node avail pool.blockNull (linkNext mem b) := by
  have hnode : ∀ c, c ∈ (F fl sl).erase b → Node avail pool.blockNull c := by
    intro c hm
    obtain ⟨m, hm, _⟩ := (h.mem_iff c fl sl).mp (List.mem_of_mem_erase hm)
    exact Or.inr ⟨m, hm⟩
  obtain ⟨h1, h2⟩ := h.neighbours hA hb
  exact ⟨h1.elim Or.inl (hnode _), h2.elim Or.inl (hnode _)⟩

/-- The two links written, and no others. -/
theorem FreeLists.unlinked_links (hc : Node avail pool.blockNull c) :
    linkNext (unlinked mem b) c = update (linkNext mem) (linkPrev mem b) (linkNext mem b) c ∧
    linkPrev (unlinked mem b) c = update (linkPrev mem) (linkNext mem b) (linkPrev mem b) c := by
  obtain ⟨hp, hn⟩ := h.neighbours_node hA hb
  constructor
  · show unlinked mem b (c + 8) = _
    unfold unlinked
    by_cases hcp : c = linkPrev mem b
    · rw [hcp, Function.update_self, Function.update_self]
    · rw [Function.update_of_ne (by omega), Function.update_of_ne (hA.links_ne hc hn),
        Function.update_of_ne hcp]
      rfl
  · show unlinked mem b (c + 12) = _
    unfold unlinked
    rw [Function.update_of_ne (Ne.symm (hA.links_ne hp hc))]
    by_cases hcn : c = linkNext mem b
    · rw [hcn, Function.update_self, Function.update_self]
    · rw [Function.update_of_ne (by omega), Function.update_of_ne hcn]
      rfl

theorem FreeLists.unlinked_linked :
    Linked pool.blockNull (linkNext (unlinked mem b)) (linkPrev (unlinked mem b)) pool.blockNull
      (if pool.blocks fl sl = b then linkNext mem b else pool.blocks fl sl)
      ((F fl sl).erase b) := by
  obtain ⟨hfl, hsl⟩ := h.index_lt hA hb
  have hL := h.linked fl sl hfl hsl
  have hnd := h.nodup fl sl
  have hnil := hL.not_mem_nil
  have hnode : ∀ c, c ∈ (F fl sl).erase b → Node avail pool.blockNull c := by
    intro c hm
    obtain ⟨m, hm, _⟩ := (h.mem_iff c fl sl).mp (List.mem_of_mem_erase hm)
    exact Or.inr ⟨m, hm⟩
  obtain ⟨l1, l2, hl⟩ := List.append_of_mem hb
  rw [hl] at hL hnd hnil hnode ⊢
  have hb1 : b ∉ l1 := fun hm => (List.nodup_append.mp hnd).2.2 b hm b List.mem_cons_self rfl
  rw [List.erase_append_right _ hb1, List.erase_cons_head] at hnode ⊢
  exact (hL.unlink hnd hnil).congr fun c hm => h.unlinked_links hA hb (hnode c hm)

/-- Blocks of other lists keep their links. -/
theorem FreeLists.unlinked_other {i j : Nat} (hij : (i, j) ≠ (fl, sl)) (hc : c ∈ F i j) :
    unlinked mem b (c + 8) = mem (c + 8) ∧ unlinked mem b (c + 12) = mem (c + 12) := by
  obtain ⟨m, hav, hcl⟩ := (h.mem_iff c i j).mp hc
  obtain ⟨e1, e2⟩ := h.unlinked_links hA hb (Or.inr ⟨m, hav⟩)
  obtain ⟨hp, hn⟩ := h.neighbours hA hb
  have hout : c ∉ (F fl sl).erase b := by
    intro hm
    obtain ⟨m', hav', hcl'⟩ := (h.mem_iff c fl sl).mp (List.mem_of_mem_erase hm)
    rw [hA.fn c m m' hav hav', hcl'] at hcl
    exact hij hcl.symm
  have h1 : c ≠ linkPrev mem b := by
    rintro rfl
    exact hp.elim (hA.ne_null hav) hout
  have h2 : c ≠ linkNext mem b := by
    rintro rfl
    exact hn.elim (hA.ne_null hav) hout
  rw [Function.update_of_ne h1] at e1
  rw [Function.update_of_ne h2] at e2
  exact ⟨e1, e2⟩

theorem FreeLists.unlinked_words (hx : unlinked mem b x ≠ mem x) :
    ∃ c, Node avail pool.blockNull c ∧ (x = c + 8 ∨ x = c + 12) := by
  obtain ⟨hp, hn⟩ := h.neighbours_node hA hb
  by_cases h1 : x = linkPrev mem b + 8
  · exact ⟨_, hp, Or.inl h1⟩
  by_cases h2 : x = linkNext mem b + 12
  · exact ⟨_, hn, Or.inr h2⟩
  unfold unlinked at hx
  rw [Function.update_of_ne h1, Function.update_of_ne h2] at hx
  exact absurd rfl hx

/-- Who is in which list afterwards. -/
theorem FreeLists.mem_erase (i j : Nat) : c ∈ setList F fl sl ((F fl sl).erase b) i j ↔
    ∃ m, (avail c m ∧ c ≠ b) ∧ mappingInsert cfg m = (i, j) := by
  by_cases hij : (i, j) = (fl, sl)
  · cases hij
    rw [setList_self, (h.nodup fl sl).mem_erase_iff, h.mem_iff]
    exact ⟨fun ⟨h1, m, h2, h3⟩ => ⟨m, ⟨h2, h1⟩, h3⟩, fun ⟨m, ⟨h2, h1⟩, h3⟩ => ⟨h1, m, h2, h3⟩⟩
  · rw [setList_other F _ hij, h.mem_iff]
    refine exists_congr fun m => ⟨fun ⟨h1, h2⟩ => ⟨⟨h1, ?_⟩, h2⟩, fun ⟨h1, h2⟩ => ⟨h1.1, h2⟩⟩
    rintro rfl
    obtain ⟨n, hn, hc⟩ := (h.mem_iff c fl sl).mp hb
    rw [hA.fn c m n h1 hn, hc] at h2
    exact hij h2.symm

/-- A list that stays occupied keeps its bits. -/
theorem FreeLists.bits_stay (hne : (F fl sl).erase b ≠ []) :
    (∀ i j, j < 32 → (pool.slBitmap i).getLsbD j = if (i, j) = (fl, sl) then
      decide ((F fl sl).erase b ≠ []) else (pool.slBitmap i).getLsbD j) ∧
    (∀ i, i < 32 → pool.flBitmap.getLsbD i =
      if i = fl then decide (pool.slBitmap fl ≠ 0#32) else pool.flBitmap.getLsbD i) := by
  obtain ⟨hfl, _⟩ := h.index_lt hA hb
  have hocc : F fl sl ≠ [] := List.ne_nil_of_mem hb
  refine ⟨fun i j hj => ?_, fun i hi => ?_⟩
  · split
    · rename_i hij
      cases hij
      rw [decide_eq_true hne]
      exact (h.slBit fl sl hfl hj).mpr hocc
    · rfl
  · split
    · rename_i hif
      subst hif
      rw [decide_eq_true ((h.slMap_iff hA hfl).mpr ⟨sl, hocc⟩)]
      exact (h.flBit i hi).mpr ⟨sl, hocc⟩
    · rfl

omit hA in
/-- A list that becomes empty loses its bit, and the last one of its first-level index that
    bit too. -/
theorem FreeLists.bits_clear (hne : (F fl sl).erase b = []) :
    (∀ i j, j < 32 → ((pool.clearBit fl sl).slBitmap i).getLsbD j = if (i, j) = (fl, sl) then
      decide ((F fl sl).erase b ≠ []) else (pool.slBitmap i).getLsbD j) ∧
    (∀ i, i < 32 → (pool.clearBit fl sl).flBitmap.getLsbD i =
      if i = fl then decide ((pool.clearBit fl sl).slBitmap fl ≠ 0#32)
      else pool.flBitmap.getLsbD i) := by
  have hself : (pool.clearBit fl sl).slBitmap fl = pool.slBitmap fl &&& ~~~(1#32 <<< sl) :=
    Function.update_self ..
  refine ⟨fun i j hj => ?_, fun i hi => ?_⟩
  · by_cases hif : i = fl
    · subst hif
      rw [hself, getLsbD_clearBit hj, hne]
      by_cases hjs : sl = j
      · subst hjs
        simp
      · rw [decide_eq_true hjs, Bool.and_true, if_neg fun e => hjs (Prod.mk.inj e).2.symm]
    · have ho : (pool.clearBit fl sl).slBitmap i = pool.slBitmap i := Function.update_of_ne hif ..
      rw [ho, if_neg fun e => hif (Prod.mk.inj e).1]
  · rw [hself]
    show (if pool.slBitmap fl &&& ~~~(1#32 <<< sl) = 0#32 then
      pool.flBitmap &&& ~~~(1#32 <<< fl) else pool.flBitmap).getLsbD i = _
    by_cases hz : pool.slBitmap fl &&& ~~~(1#32 <<< sl) = 0#32
    · rw [if_pos hz, getLsbD_clearBit hi, hz]
      by_cases hif : i = fl
      · subst hif
        simp
      · rw [if_neg hif, decide_eq_true (Ne.symm hif), Bool.and_true]
    · rw [if_neg hz]
      split
      · rename_i hif
        subst hif
        rw [decide_eq_true hz]
        exact (h.flBit i hi).mpr ⟨sl, List.ne_nil_of_mem hb⟩
      · rfl

/-- **`remove_free_block`**: the block leaves its list, the others stay; only links change. -/
theorem FreeLists.remove :
    FreeLists cfg (removeFreeBlock ⟨mem, pool⟩ b fl sl).mem
      (removeFreeBlock ⟨mem, pool⟩ b fl sl).pool
      (fun c m => avail c m ∧ c ≠ b) (setList F fl sl ((F fl sl).erase b)) ∧
    (removeFreeBlock ⟨mem, pool⟩ b fl sl).pool.blockNull = pool.blockNull ∧
    ∀ x, (removeFreeBlock ⟨mem, pool⟩ b fl sl).mem x ≠ mem x →
      ∃ c, Node avail pool.blockNull c ∧ (x = c + 8 ∨ x = c + 12) := by
  have hfl := (h.index_lt hA hb).1
  have hAv : AvailOk cfg pool.blockNull fun c m => avail c m ∧ c ≠ b :=
    ⟨fun c n m h1 h2 => hA.fn c n m h1.1 h2.1, fun c n h1 => hA.range c n h1.1,
      fun c d n m h1 h2 => hA.apart c d n m h1.1 h2.1, fun c n h1 => hA.offNull c n h1.1⟩
  have hlist := h.unlinked_linked hA hb
  have hempty := hlist.eq_nil_iff
  have hnd := (h.nodup fl sl).erase b
  have hmem : ∀ c i j, _ := fun c i j => h.mem_erase hA hb (c := c) i j
  have hrest : ∀ i j c, _ → c ∈ F i j → _ := fun i j c hij hc => h.unlinked_other hA hb hij hc
  have hwords : ∀ x, _ := fun x => h.unlinked_words hA hb (x := x)
  have hblocks : ∀ i j, (pool.setBlocks fl sl (linkNext mem b)).blocks i j =
      if (i, j) = (fl, sl) then linkNext mem b else pool.blocks i j := by
    intro i j
    by_cases hij : (i, j) = (fl, sl)
    · cases hij
      rw [if_pos rfl]
      exact update2_self ..
    · rw [if_neg hij]
      exact update2_of_ne _ _ hij
  rw [removeFreeBlock_eq]
  by_cases hhead : pool.blocks fl sl = b
  · rw [if_pos hhead] at hlist hempty ⊢
    by_cases hlast : linkNext mem b = pool.blockNull
    · obtain ⟨h1, h2⟩ := h.bits_clear hb (hempty.mp hlast)
      rw [if_pos hlast]
      exact ⟨h.replace _ hAv hfl rfl hblocks hlist hrest hmem hnd h1 h2, rfl, hwords⟩
    · obtain ⟨h1, h2⟩ := h.bits_stay hA hb fun e => hlast (hempty.mpr e)
      rw [if_neg hlast]
      exact ⟨h.replace _ hAv hfl rfl hblocks hlist hrest hmem hnd h1 h2, rfl, hwords⟩
  · -- not the head: the list keeps it
    rw [if_neg hhead] at hlist hempty ⊢
    have hne : (F fl sl).erase b ≠ [] := by
      have := h.head_mem hA (List.ne_nil_of_mem hb)
      exact List.ne_nil_of_mem ((List.mem_erase_of_ne hhead).mpr this)
    obtain ⟨h1, h2⟩ := h.bits_stay hA hb hne
    refine ⟨h.replace _ hAv hfl rfl (fun i j => ?_) hlist hrest hmem hnd h1 h2, rfl, hwords⟩
    split
    · rename_i hij
      cases hij
      rfl
    · rfl

end Entfernen

/-! ## 5. A block put in -/

/-- The memory after `insert_free_block`; `current` was the head. -/
def pushed (mem : Mem) (null current b : Nat) : Mem :=
  update (update (update mem (b + 8) current) (b + 12) null) (current + 12) b

section Einfuegen

variable (h : FreeLists cfg mem pool avail F)
  (hA : AvailOk cfg pool.blockNull fun c m => avail c m ∨ (c = b ∧ m = n))
  (hnew : ∀ m, ¬ avail b m) (hc : mappingInsert cfg n = (fl, sl))

include hA

theorem AvailOk.pushed_links {c a : Nat}
    (ha : Node (fun c m => avail c m ∨ (c = b ∧ m = n)) pool.blockNull a)
    (hcN : Node (fun c m => avail c m ∨ (c = b ∧ m = n)) pool.blockNull c) :
    linkNext (pushed mem pool.blockNull a b) c = update (linkNext mem) b a c ∧
    linkPrev (pushed mem pool.blockNull a b) c =
      update (update (linkPrev mem) b pool.blockNull) a b c := by
  have hbN : Node (fun c m => avail c m ∨ (c = b ∧ m = n)) pool.blockNull b :=
    Or.inr ⟨n, Or.inr ⟨rfl, rfl⟩⟩
  constructor
  · show pushed mem pool.blockNull a b (c + 8) = _
    unfold pushed
    rw [Function.update_of_ne (hA.links_ne hcN ha), Function.update_of_ne (hA.links_ne hcN hbN)]
    by_cases hcb : c = b
    · rw [hcb, Function.update_self, Function.update_self]
    · rw [Function.update_of_ne (by omega), Function.update_of_ne hcb]
      rfl
  · show pushed mem pool.blockNull a b (c + 12) = _
    unfold pushed
    by_cases hca : c = a
    · rw [hca, Function.update_self, Function.update_self]
    rw [Function.update_of_ne (by omega), Function.update_of_ne hca]
    by_cases hcb : c = b
    · rw [hcb, Function.update_self, Function.update_self]
    · rw [Function.update_of_ne (by omega), Function.update_of_ne hcb,
        Function.update_of_ne (Ne.symm (hA.links_ne hbN hcN))]
      rfl

include h hnew hc

/-- **`insert_free_block`**: the block stands in front of its list. -/
theorem FreeLists.insert :
    FreeLists cfg (insertFreeBlock ⟨mem, pool⟩ b fl sl).mem
      (insertFreeBlock ⟨mem, pool⟩ b fl sl).pool
      (fun c m => avail c m ∨ (c = b ∧ m = n)) (setList F fl sl (b :: F fl sl)) ∧
    (insertFreeBlock ⟨mem, pool⟩ b fl sl).pool.blockNull = pool.blockNull ∧
    ∀ x, (insertFreeBlock ⟨mem, pool⟩ b fl sl).mem x ≠ mem x →
      ∃ c, Node (fun c m => avail c m ∨ (c = b ∧ m = n)) pool.blockNull c ∧
        (x = c + 8 ∨ x = c + 12) := by
  have hlt := mappingInsert_lt (hA.range b n (Or.inr ⟨rfl, rfl⟩))
  rw [hc] at hlt
  obtain ⟨hfl, hsl⟩ := hlt
  have hsl32 : sl < 32 := Nat.lt_of_lt_of_le hsl slIndexCount_le
  have hL := h.linked fl sl hfl hsl
  have hcur : Node (fun c m => avail c m ∨ (c = b ∧ m = n)) pool.blockNull (pool.blocks fl sl) :=
    (h.current_node hfl hsl).imp_right fun ⟨m, hm⟩ => ⟨m, Or.inl hm⟩
  have hbN : Node (fun c m => avail c m ∨ (c = b ∧ m = n)) pool.blockNull b :=
    Or.inr ⟨n, Or.inr ⟨rfl, rfl⟩⟩
  have hbnull : b ≠ pool.blockNull := hA.ne_null (n := n) (Or.inr ⟨rfl, rfl⟩)
  have hbF : b ∉ F fl sl := by
    intro hm
    obtain ⟨m, hav, _⟩ := (h.mem_iff b fl sl).mp hm
    exact hnew m hav
  have hself : (insertFreeBlock ⟨mem, pool⟩ b fl sl).pool.slBitmap fl =
      pool.slBitmap fl ||| 1#32 <<< sl := Function.update_self ..
  refine ⟨h.replace (a := b) (b :: F fl sl) hA hfl rfl (fun i j => ?_) ?_
    (fun i j c hij hcF => ?_) (fun c i j => ?_) (List.nodup_cons.mpr ⟨hbF, h.nodup fl sl⟩)
    (fun i j hj => ?_) (fun i hi => ?_), rfl, fun x hx => ?_⟩
  · by_cases hij : (i, j) = (fl, sl)
    · cases hij
      rw [if_pos rfl]
      exact update2_self ..
    · rw [if_neg hij]
      exact update2_of_ne _ _ hij
  · refine (hL.push (h.nodup fl sl) hbnull hbF).congr fun c hcm => hA.pushed_links hcur ?_
    rcases List.mem_cons.mp hcm with rfl | hcm
    · exact hbN
    · obtain ⟨m, hav, _⟩ := (h.mem_iff c fl sl).mp hcm
      exact Or.inr ⟨m, Or.inl hav⟩
  · obtain ⟨m, hav, hcl⟩ := (h.mem_iff c i j).mp hcF
    have hcb : c ≠ b := by
      rintro rfl
      exact hnew m hav
    have hccur : c ≠ pool.blocks fl sl := by
      rintro rfl
      rcases hL.front with ⟨e, _⟩ | hm
      · exact hA.ne_null (Or.inl hav) e
      · obtain ⟨m', hav', hcl'⟩ := (h.mem_iff _ fl sl).mp hm
        rw [hA.fn _ m m' (Or.inl hav) (Or.inl hav'), hcl'] at hcl
        exact hij hcl.symm
    obtain ⟨e1, e2⟩ := hA.pushed_links hcur (Or.inr ⟨m, Or.inl hav⟩)
    rw [Function.update_of_ne hcb] at e1
    rw [Function.update_of_ne hccur, Function.update_of_ne hcb] at e2
    exact ⟨e1, e2⟩
  · by_cases hij : (i, j) = (fl, sl)
    · cases hij
      rw [setList_self, List.mem_cons, h.mem_iff]
      constructor
      · rintro (rfl | ⟨m, hav, hcl⟩)
        · exact ⟨n, Or.inr ⟨rfl, rfl⟩, hc⟩
        · exact ⟨m, Or.inl hav, hcl⟩
      · rintro ⟨m, hav | ⟨rfl, _⟩, hcl⟩
        · exact Or.inr ⟨m, hav, hcl⟩
        · exact Or.inl rfl
    · rw [setList_other F _ hij, h.mem_iff]
      refine exists_congr fun m => ⟨fun ⟨h1, h2⟩ => ⟨Or.inl h1, h2⟩, ?_⟩
      rintro ⟨h1 | ⟨rfl, rfl⟩, h2⟩
      · exact ⟨h1, h2⟩
      · exact absurd (h2.symm.trans hc) hij
  · rw [decide_eq_true (List.cons_ne_nil _ _)]
    by_cases hif : i = fl
    · subst hif
      rw [hself, getLsbD_setBit hj]
      by_cases hjs : sl = j
      · subst hjs
        simp
      · rw [decide_eq_false hjs, Bool.or_false, if_neg fun e => hjs (Prod.mk.inj e).2.symm]
    · have ho : (insertFreeBlock ⟨mem, pool⟩ b fl sl).pool.slBitmap i = pool.slBitmap i :=
        Function.update_of_ne hif ..
      rw [ho, if_neg fun e => hif (Prod.mk.inj e).1]
  · show (pool.flBitmap ||| 1#32 <<< fl).getLsbD i = _
    rw [getLsbD_setBit hi, hself]
    by_cases hif : i = fl
    · subst hif
      have hne : pool.slBitmap i ||| 1#32 <<< sl ≠ 0#32 :=
        ne_zero_iff_bit.mpr ⟨sl, hsl32, by rw [getLsbD_setBit hsl32]; simp⟩
      rw [if_pos rfl, decide_eq_true hne, decide_eq_true rfl, Bool.or_true]
    · rw [if_neg hif, decide_eq_false (Ne.symm hif), Bool.or_false]
  · have hx' : pushed mem pool.blockNull (pool.blocks fl sl) b x ≠ mem x := hx
    by_cases h1 : x = pool.blocks fl sl + 12
    · exact ⟨_, hcur, Or.inr h1⟩
    by_cases h2 : x = b + 12
    · exact ⟨b, hbN, Or.inr h2⟩
    by_cases h3 : x = b + 8
    · exact ⟨b, hbN, Or.inl h3⟩
    unfold pushed at hx'
    rw [Function.update_of_ne h1, Function.update_of_ne h2, Function.update_of_ne h3] at hx'
    exact absurd rfl hx'

end Einfuegen

end FxRtos
