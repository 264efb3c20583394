/-
  File:      FxRtos/Heap/Calls.lean
  Subject:   THE CALLS KEEP THE HEAP. What `rtl_mem_pool_init`, `_add_mem`, `_alloc` and `_free` do
             to the shape, the memory and the free lists together.

  * `HeapOk` -- shape, memory and lists agree. `H` are blocks in the hand of a call, which stand
    in no list; `Near` says where two free blocks may stand next to each other meanwhile.
  * `HeapOk.remove`, `HeapOk.insert`, `HeapOk.step` -- a block taken from its list or put into
    it, and a step that writes headers.
  * `HeapOk.alloc`, `HeapOk.free`, `HeapOk.addMem`, `heapOk_init` -- the calls. Each says what
    becomes of the used blocks.
-/
import FxRtos.Heap.FreeLists

namespace FxRtos

open Function (update)
open Lib

/-! ## 1. Shape, memory and lists -/

/-- The free blocks that stand in lists. -/
def Avail (A : Shape) (H : List Nat) (b n : Nat) : Prop :=
  A.size b = some n ∧ A.free b = true ∧ b ∉ H

structure HeapOk (cfg : TlsfConfig) (R : List Region) (h : Heap) (A : Shape) (H : List Nat)
    (Near : Nat → Prop) : Prop where
  regions : RegionsOk cfg h.pool.blockNull R
  shape : ShapeOk R A
  stored : Stored h.mem A
  lists : ∃ F, FreeLists cfg h.mem h.pool (Avail A H) F
  lonely : ∀ b n, A.size b = some n → A.free b = true → A.prevFree b = true → Near b

/-- Between two calls. -/
def Nowhere : Nat → Prop := fun _ => False

/-- The used blocks but `b`, as they were. -/
def UsedKept (A A' : Shape) (b : Nat) : Prop :=
  ∀ c m, A.size c = some m → A.free c = false → c ≠ b → A'.size c = some m ∧ A'.free c = false

variable {cfg : TlsfConfig} {null : Nat} {R : List Region} {A A' : Shape} {h : Heap} {mem' : Mem}
  {H H' : List Nat} {Near Near' : Nat → Prop} {b c n m k fl sl x : Nat}

theorem UsedKept.refl (A : Shape) (b : Nat) : UsedKept A A b := fun _ _ hc hf _ => ⟨hc, hf⟩

theorem UsedKept.trans {A'' : Shape} (h1 : UsedKept A A' b) (h2 : UsedKept A' A'' b) :
    UsedKept A A'' b := fun c m hc hf hne =>
  h2 c m (h1 c m hc hf hne).1 (h1 c m hc hf hne).2 hne

theorem AvailOk.congr {avail avail' : Nat → Nat → Prop} (h : AvailOk cfg null avail)
    (he : ∀ b n, avail' b n ↔ avail b n) : AvailOk cfg null avail' :=
  ⟨fun b n m h1 h2 => h.fn b n m ((he b n).mp h1) ((he b m).mp h2),
    fun b n h1 => h.range b n ((he b n).mp h1),
    fun b c n m h1 h2 => h.apart b c n m ((he b n).mp h1) ((he c m).mp h2),
    fun b n h1 => h.offNull b n ((he b n).mp h1)⟩

/-- What the free lists need of the blocks. -/
theorem ShapeOk.availOk (h : ShapeOk R A) (hR : RegionsOk cfg null R) (H : List Nat) :
    AvailOk cfg null (Avail A H) where
  fn b n m h1 h2 := Option.some.inj (h1.1.symm.trans h2.1)
  range b n h1 := (h.bound hR h1.1).1
  apart b c n m h1 h2 hne := by
    have hn := h.free_pos h1.1 h1.2.1
    have hm := h.free_pos h2.1 h2.2.1
    have := h.tiles.beside h1.1 h2.1 (Ne.symm hne)
    omega
  offNull b n h1 := by
    have hn := h.free_pos h1.1 h1.2.1
    have := h.off_null hR h1.1
    omega

theorem Touches.mono (h : Touches A H x) (hH : ∀ b ∈ H, b ∈ H') : Touches A H' x := by
  rcases h with ⟨b, hb, hx⟩ | hx
  · exact Or.inl ⟨b, hH b hb, hx⟩
  · exact Or.inr hx

/-- A link of a list is a link of the heap. -/
theorem linkWord_of_node (hx : ∃ c, Node (Avail A H) null c ∧ (x = c + 8 ∨ x = c + 12)) :
    LinkWord A null x := by
  obtain ⟨c, rfl | ⟨m, hc, hf, _⟩, e⟩ := hx
  · exact Or.inl e
  · exact Or.inr ⟨c, m, hc, hf, e⟩

/-! ## 2. Steps of a call -/

section Schritte

variable (hO : HeapOk cfg R h A H Near)

include hO

theorem HeapOk.availOk : AvailOk cfg h.pool.blockNull (Avail A H) := hO.shape.availOk hO.regions H

/-- A used block may be in hand as well. -/
theorem HeapOk.hide (hb : A.free b = false) : HeapOk cfg R h A (b :: H) Near := by
  refine ⟨hO.regions, hO.shape, hO.stored, ?_, hO.lonely⟩
  obtain ⟨F, hF⟩ := hO.lists
  refine ⟨F, hF.congr_avail fun c m => and_congr_right fun _ => and_congr_right fun hf => ?_⟩
  have hcb : c ≠ b := by
    rintro rfl
    rw [hb] at hf
    cases hf
  rw [List.mem_cons, not_or]
  exact ⟨fun h => h.2, fun h => ⟨hcb, h⟩⟩

/-- A step that writes headers and the blocks in hand. -/
theorem HeapOk.step (hs : ShapeOk R A') (hst : Stored mem' A')
    (ht : ∀ x, mem' x ≠ h.mem x → Touches A H x)
    (hav : ∀ b n, Avail A' H' b n ↔ Avail A H b n)
    (hl : ∀ b n, A'.size b = some n → A'.free b = true → A'.prevFree b = true → Near' b) :
    HeapOk cfg R { h with mem := mem' } A' H' Near' := by
  refine ⟨hO.regions, hs, hst, ?_, hl⟩
  obtain ⟨F, hF⟩ := hO.lists
  refine ⟨F, (hF.congr_mem fun b n hb => ?_).congr_avail hav⟩
  have hn := hO.shape.free_pos hb.1 hb.2.1
  have hoff : ∀ x, mem' x ≠ h.mem x → x ≠ b + 8 ∧ x ≠ b + 12 := fun x hx =>
    (ht x hx).off_links hO.shape hb.1 hn hb.2.2
  exact ⟨Classical.byContradiction fun hne => (hoff _ hne).1 rfl,
    Classical.byContradiction fun hne => (hoff _ hne).2 rfl⟩

/-- `remove_free_block`: the block is in hand. -/
theorem HeapOk.removeFree (hb : Avail A H b n) (hc : mappingInsert cfg n = (fl, sl)) :
    HeapOk cfg R (removeFreeBlock h b fl sl) A (b :: H) Near ∧
    (removeFreeBlock h b fl sl).pool.blockNull = h.pool.blockNull := by
  obtain ⟨F, hF⟩ := hO.lists
  have hbF : b ∈ F fl sl := (hF.mem_iff b fl sl).mpr ⟨n, hb, hc⟩
  obtain ⟨h1, h2, h3⟩ := hF.remove hO.availOk hbF
  refine ⟨⟨h2.symm ▸ hO.regions, hO.shape, ?_, ?_, hO.lonely⟩, h2⟩
  · exact hO.stored.links hO.shape hO.regions fun x hx => linkWord_of_node (h3 x hx)
  · refine ⟨_, h1.congr_avail fun c m => ?_⟩
    unfold Avail
    rw [List.mem_cons, not_or]
    exact ⟨fun ⟨e1, e2, e3, e4⟩ => ⟨⟨e1, e2, e4⟩, e3⟩, fun ⟨⟨e1, e2, e4⟩, e3⟩ => ⟨e1, e2, e3, e4⟩⟩

/-- `block_remove`. -/
theorem HeapOk.remove (hb : Avail A H b n) :
    HeapOk cfg R (blockRemove cfg h b) A (b :: H) Near ∧
    (blockRemove cfg h b).pool.blockNull = h.pool.blockNull := by
  unfold blockRemove
  rw [hO.stored.size_eq hO.shape hO.regions hb.1]
  exact hO.removeFree hb rfl

end Schritte

/-- `block_insert`: a free block in hand goes into its list. -/
theorem HeapOk.insert (hO : HeapOk cfg R h A (b :: H) Near) (hb : A.size b = some n)
    (hf : A.free b = true) (hH : b ∉ H) :
    HeapOk cfg R (blockInsert cfg h b) A H Near ∧
    (blockInsert cfg h b).pool.blockNull = h.pool.blockNull := by
  obtain ⟨F, hF⟩ := hO.lists
  have he : ∀ c m, (Avail A (b :: H) c m ∨ (c = b ∧ m = n)) ↔ Avail A H c m := by
    intro c m
    unfold Avail
    rw [List.mem_cons, not_or]
    constructor
    · rintro (⟨e1, e2, _, e4⟩ | ⟨rfl, rfl⟩)
      · exact ⟨e1, e2, e4⟩
      · exact ⟨hb, hf, hH⟩
    · rintro ⟨e1, e2, e3⟩
      by_cases hcb : c = b
      · subst hcb
        exact Or.inr ⟨rfl, Option.some.inj (e1.symm.trans hb)⟩
      · exact Or.inl ⟨e1, e2, hcb, e3⟩
  have hA := (hO.shape.availOk hO.regions H).congr he
  have hnew : ∀ m, ¬ Avail A (b :: H) b m := fun m hm => hm.2.2 List.mem_cons_self
  obtain ⟨⟨fl, sl⟩, hcl⟩ : ∃ c, mappingInsert cfg n = c := ⟨_, rfl⟩
  obtain ⟨h1, h2, h3⟩ := hF.insert hA hnew hcl
  unfold blockInsert
  rw [hO.stored.size_eq hO.shape hO.regions hb, hcl]
  refine ⟨⟨h2.symm ▸ hO.regions, hO.shape, ?_, ⟨_, h1.congr_avail fun c m => (he c m).symm⟩,
    hO.lonely⟩, h2⟩
  refine hO.stored.links hO.shape hO.regions fun x hx => ?_
  obtain ⟨c, hc, e⟩ := h3 x hx
  refine linkWord_of_node (H := H) ⟨c, ?_, e⟩
  rcases hc with hc | ⟨m, hc⟩
  · exact Or.inl hc
  · exact Or.inr ⟨m, (he c m).mp hc⟩

/-! ## 3. Freeing -/

/-- A used block marked free, in hand. It may have free neighbours. -/
theorem HeapOk.markAsFree (hO : HeapOk cfg R h A [] Nowhere) (hb : A.size b = some n) (hn : 0 < n)
    (hu : A.free b = false) :
    HeapOk cfg R { h with mem := blockMarkAsFree h.mem b } (A.mark b n true) [b]
      (fun c => c = b ∨ c = b + 4 + n) := by
  obtain ⟨hst, ht⟩ := hO.stored.markAsFree hO.shape hO.regions hb hn
  refine (hO.hide hu).step (hO.shape.mark hb hn true) hst ht (fun c m => ?_) fun c m hc hf hp => ?_
  · refine and_congr_right fun _ => ?_
    show update A.free b true c = true ∧ c ∉ [b] ↔ A.free c = true ∧ c ∉ [b]
    rw [List.mem_singleton]
    by_cases hcb : c = b
    · simp [hcb]
    · rw [Function.update_of_ne hcb]
  · by_cases hcb : c = b
    · exact Or.inl hcb
    by_cases hcz : c = b + 4 + n
    · exact Or.inr hcz
    have hf' : update A.free b true c = true := hf
    have hp' : update A.prevFree (b + 4 + n) true c = true := hp
    rw [Function.update_of_ne hcb] at hf'
    rw [Function.update_of_ne hcz] at hp'
    exact (hO.lonely c m hc hf' hp').elim

/-- Two free blocks in hand joined. -/
theorem HeapOk.absorb {a : Nat} (hO : HeapOk cfg R h A H Near) (ha : A.size a = some n)
    (hb : A.size (a + 4 + n) = some m) (hn : 0 < n) (hm : 0 < m) (hfa : A.free a = true)
    (hfb : A.free (a + 4 + n) = true) (hH : ∀ c, c ∈ H ↔ c = a ∨ c = a + 4 + n)
    (hnear : ∀ c, Near c → c ≠ a → c ≠ a + 4 + n → Near' c)
    (hna : A.prevFree a = true → Near' a) :
    HeapOk cfg R { h with mem := blockAbsorb h.mem a (a + 4 + n) } (A.absorb a n m) [a] Near' := by
  obtain ⟨hst, ht⟩ := hO.stored.absorb hO.shape hO.regions ha hb hn hm hfa hfb
  refine hO.step (hO.shape.absorb hO.regions ha hb hn hm hfa hfb) hst
    (fun x hx => (ht x hx).mono fun c hc => ?_) (fun c y => ?_) fun c y hc hf hp => ?_
  · rw [hH]
    simpa using hc
  · unfold Avail
    rw [List.mem_singleton, hH, not_or]
    constructor
    · rintro ⟨h1, h2, h3⟩
      rcases fuse_cases h1 with ⟨e, _⟩ | ⟨_, h4, h5⟩
      · exact absurd e h3
      · exact ⟨h5, h2, h3, h4⟩
    · rintro ⟨h1, h2, h3, h4⟩
      exact ⟨(fuse_other h3 h4).trans h1, h2, h3⟩
  · rcases fuse_cases hc with ⟨rfl, _⟩ | ⟨h1, h2, h3⟩
    · exact hna hp
    · exact hnear c (hO.lonely c y h3 hf hp) h1 h2

theorem UsedKept.absorb {a : Nat} (hfa : A.free a = true) (hfb : A.free (a + 4 + n) = true) :
    UsedKept A (A.absorb a n m) b := by
  intro c y hc hf _
  have hne : ∀ d, A.free d = true → c ≠ d := by
    rintro d hd rfl
    rw [hf] at hd
    cases hd
  exact ⟨(fuse_other (hne a hfa) (hne _ hfb)).trans hc, hf⟩

/-- `block_merge_prev`: no free block stands before the one in hand. -/
theorem HeapOk.mergePrev (hO : HeapOk cfg R h A [b] fun c => c = b ∨ c = b + 4 + n)
    (hb : A.size b = some n) (hn : 0 < n) (hf : A.free b = true) :
    ∃ a h' A' k, blockMergePrev cfg h b = (a, h') ∧
      HeapOk cfg R h' A' [a] (fun c => c = a + 4 + k) ∧ A'.size a = some k ∧ 0 < k ∧
      A'.free a = true ∧ h'.pool.blockNull = h.pool.blockNull ∧ ∀ d, UsedKept A A' d := by
  have hpf := hO.stored.isPrevFree_eq hO.shape hO.regions hb
  unfold blockMergePrev
  by_cases hp : A.prevFree b = true
  · obtain ⟨a, m, ha, hm, rfl⟩ := hO.shape.behind b n hb hp
    have hfa : A.free a = true := by rw [← hO.shape.follows a m ha hm]; exact hp
    have hprev : blockPrev h.mem (a + 4 + m) = a := hO.stored.footer a m ha hfa
    have hal : A.prevFree a = false := by
      refine Bool.eq_false_iff.mpr fun hpa => ?_
      rcases hO.lonely a m ha hfa hpa with e | e
      · omega
      · omega
    rw [if_pos (hpf.trans hp)]
    simp only [hprev]
    obtain ⟨hrem, hnull⟩ := hO.remove (b := a) ⟨ha, hfa, by simp; omega⟩
    refine ⟨a, _, A.absorb a m n, m + 4 + n, rfl, ?_, fuse_self, by omega, hfa, hnull,
      fun d => .absorb hfa hf⟩
    refine hrem.absorb ha hb hm hn hfa hf (fun c => by simp) (fun c hc h1 h2 => ?_) fun hpa => ?_
    · rcases hc with e | e
      · exact absurd e h2
      · omega
    · rw [hal] at hpa
      cases hpa
  · rw [if_neg (by rw [hpf]; exact hp)]
    refine ⟨b, h, A, n, rfl, ⟨hO.regions, hO.shape, hO.stored, hO.lists, fun c m hc hfc hpc => ?_⟩,
      hb, hn, hf, rfl, fun d => .refl A d⟩
    rcases hO.lonely c m hc hfc hpc with rfl | e
    · exact absurd hpc hp
    · exact e

/-- `block_merge_next`: nor behind it. -/
theorem HeapOk.mergeNext (hO : HeapOk cfg R h A [b] fun c => c = b + 4 + n)
    (hb : A.size b = some n) (hn : 0 < n) (hf : A.free b = true) :
    ∃ h' A' k, blockMergeNext cfg h b = (b, h') ∧ HeapOk cfg R h' A' [b] Nowhere ∧
      A'.size b = some k ∧ A'.free b = true ∧ h'.pool.blockNull = h.pool.blockNull ∧
      ∀ d, UsedKept A A' d := by
  have hbl : A.prevFree b = true → False := by
    intro hp
    have := hO.lonely b n hb hf hp
    omega
  obtain ⟨m, hz⟩ := hO.shape.tiles.next b n hb hn
  have hzf := hO.stored.isFree_eq hO.shape hO.regions hz
  unfold blockMergeNext
  rw [hO.stored.next_eq hO.shape hO.regions hb hn]
  by_cases hfz : A.free (b + 4 + n) = true
  · have hm : 0 < m := by
      have := hO.shape.free_pos hz hfz
      omega
    obtain ⟨hrem, hnull⟩ := hO.remove (b := b + 4 + n) ⟨hz, hfz, by simp; omega⟩
    refine ⟨_, A.absorb b n m, n + 4 + m, if_pos (hzf.trans hfz), ?_, fuse_self, hf, hnull,
      fun d => .absorb hf hfz⟩
    exact hrem.absorb hb hz hn hm hf hfz (fun c => by simp [or_comm])
      (fun c hc _ h2 => absurd hc h2) hbl
  · refine ⟨h, A, n, if_neg (by rw [hzf]; exact hfz),
      ⟨hO.regions, hO.shape, hO.stored, hO.lists, fun c y hc hfc hpc => ?_⟩, hb, hf, rfl,
      fun d => .refl A d⟩
    have := hO.lonely c y hc hfc hpc
    exact hfz (this ▸ hfc)

/-- **`rtl_mem_pool_free`** of a used block. -/
theorem HeapOk.free (hO : HeapOk cfg R h A [] Nowhere) (hb : A.size b = some n) (hn : 0 < n)
    (hu : A.free b = false) :
    ∃ A', HeapOk cfg R (rtlMemPoolFree cfg h (b + 8)) A' [] Nowhere ∧
      (rtlMemPoolFree cfg h (b + 8)).pool.blockNull = h.pool.blockNull ∧ UsedKept A A' b := by
  have hptr : blockFromPtr (b + 8) = b := Nat.add_sub_cancel b 8
  have h1 := hO.markAsFree hb hn hu
  obtain ⟨a, hp2, A2, k, e2, h2, hk, hk0, hf2, hnull2, hu2⟩ :=
    h1.mergePrev hb hn (Function.update_self ..)
  obtain ⟨hp3, A3, y, e3, h3, hy, hf3, hnull3, hu3⟩ := h2.mergeNext hk hk0 hf2
  obtain ⟨h4, hnull4⟩ := h3.insert hy hf3 List.not_mem_nil
  have hfree : rtlMemPoolFree cfg h (b + 8) = blockInsert cfg hp3 a := by
    unfold rtlMemPoolFree
    simp only [hptr, e2, e3]
  rw [hfree]
  refine ⟨A3, h4, hnull4.trans (hnull3.trans hnull2), ?_⟩
  refine UsedKept.trans (fun c m hc hf hne => ?_) (hu3 b)
  exact hu2 b c m hc ((Function.update_of_ne hne ..).trans hf) hne

/-! ## 4. Allocating -/

theorem HeapOk.canSplit (hO : HeapOk cfg R h A H Near) (hb : A.size b = some n) (hkn : k ≤ n) :
    blockCanSplit h.mem b k = decide (k + 4 + 12 ≤ n) := by
  have hmax : n < 2 ^ 31 := Nat.lt_of_lt_of_le (hO.shape.bound hO.regions hb).1
    (Nat.pow_le_pow_right (by decide) cfg.max_le)
  unfold blockCanSplit sizeofBlockHeader
  rw [hO.stored.size_eq hO.shape hO.regions hb,
    Nat.mod_eq_of_lt (show 16 + k < sizeT by unfold sizeT; omega)]
  congr 1
  exact propext (by omega)

/-- `block_trim_free`: the free block in hand is cut to size if the rest makes a block. -/
theorem HeapOk.trim (hO : HeapOk cfg R h A [b] Nowhere) (hb : A.size b = some n)
    (hf : A.free b = true) (hk : 4 ∣ k ∧ 12 ≤ k) (hkn : k ≤ n) :
    ∃ A' m, HeapOk cfg R (blockTrimFree cfg h b k) A' [b] (fun c => c = b + 4 + m) ∧
      A'.size b = some m ∧ k ≤ m ∧ A'.free b = true ∧
      (blockTrimFree cfg h b k).pool.blockNull = h.pool.blockNull ∧ ∀ d, UsedKept A A' d := by
  obtain ⟨_, hn4, _⟩ := hO.shape.sized b n hb
  unfold blockTrimFree
  rw [hO.canSplit hb hkn]
  by_cases hsplit : k + 4 + 12 ≤ n
  · obtain ⟨m, rfl⟩ : ∃ m, n = k + 4 + m := ⟨n - (k + 4), by omega⟩
    have hm : 4 ∣ m ∧ 12 ≤ m := ⟨by omega, by omega⟩
    obtain ⟨hrem, hst, ht⟩ := hO.stored.trim hO.shape hO.regions hb hf hk hm
    have hnone : A.size (b + 4 + k) = none := hO.shape.not_inside hb (by omega) (by omega)
    have h2 : HeapOk cfg R
        ⟨blockSetPrevFree (blockLinkNext (blockSplit h.mem b k).2 b) (b + 4 + k), h.pool⟩
        (A.split b k m) [b + 4 + k, b] (fun c => c = b + 4 + k) := by
      refine hO.step (hO.shape.split hb hf hk hm) hst ht (fun c y => ?_) fun c y hc hfc hpc => ?_
      · unfold Avail
        simp only [List.mem_cons, List.not_mem_nil, or_false, not_or]
        constructor
        · rintro ⟨h1, h2, h3, h4⟩
          rcases cut_cases h1 with ⟨e, _⟩ | ⟨e, _⟩ | ⟨_, _, h5⟩
          · exact absurd e h4
          · exact absurd e h3
          · exact ⟨h5, (Function.update_of_ne h3 ..).symm.trans h2, h4⟩
        · rintro ⟨h1, h2, h3⟩
          have hcr : c ≠ b + 4 + k := by
            rintro rfl
            rw [hnone] at h1
            cases h1
          exact ⟨(cut_other h3 hcr).trans h1, (Function.update_of_ne hcr ..).trans h2, hcr, h3⟩
      · refine Classical.byContradiction fun hcr => ?_
        have hfc' : A.free c = true := (Function.update_of_ne hcr ..).symm.trans hfc
        have hpc' : A.prevFree c = true := (Function.update_of_ne hcr ..).symm.trans hpc
        rcases cut_cases hc with ⟨rfl, _⟩ | ⟨e, _⟩ | ⟨_, _, h5⟩
        · exact hO.lonely c _ hb hfc' hpc'
        · exact hcr e
        · exact hO.lonely c y h5 hfc' hpc'
    obtain ⟨h3, hnull⟩ := h2.insert (b := b + 4 + k) (n := m) (cut_rest (by decide))
      (Function.update_self ..) (by simp; omega)
    simp only [hsplit, decide_true, if_true, hrem]
    have hbr : b ≠ b + 4 + k := by omega
    refine ⟨A.split b k m, k, h3, cut_self, Nat.le_refl k,
      (Function.update_of_ne hbr ..).trans hf, hnull, fun d c y hc hfc _ => ?_⟩
    have hcb : c ≠ b := by
      rintro rfl
      rw [hf] at hfc
      cases hfc
    have hcr : c ≠ b + 4 + k := by
      rintro rfl
      rw [hnone] at hc
      cases hc
    exact ⟨(cut_other hcb hcr).trans hc, (Function.update_of_ne hcr ..).trans hfc⟩
  · rw [if_neg (by simpa using hsplit)]
    exact ⟨A, n, ⟨hO.regions, hO.shape, hO.stored, hO.lists,
      fun c y hc hfc hpc => (hO.lonely c y hc hfc hpc).elim⟩, hb, hkn, hf, rfl, fun d => .refl A d⟩

/-- A free block in hand handed out. -/
theorem HeapOk.markAsUsed (hO : HeapOk cfg R h A [b] fun c => c = b + 4 + n)
    (hb : A.size b = some n) (hn : 0 < n) :
    HeapOk cfg R { h with mem := blockMarkAsUsed h.mem b } (A.mark b n false) [] Nowhere := by
  obtain ⟨hst, ht⟩ := hO.stored.markAsUsed hO.shape hO.regions hb hn
  refine hO.step (hO.shape.mark hb hn false) hst ht (fun c m => ?_) fun c m hc hf hp => ?_
  · refine and_congr_right fun _ => ?_
    show update A.free b false c = true ∧ c ∉ [] ↔ A.free c = true ∧ c ∉ [b]
    rw [List.mem_singleton]
    by_cases hcb : c = b
    · simp [hcb]
    · rw [Function.update_of_ne hcb]
      simp [hcb]
  · have hcb : c ≠ b := by
      rintro rfl
      rw [show (A.mark c n false).free c = false from Function.update_self ..] at hf
      cases hf
    have hcz : c ≠ b + 4 + n := by
      rintro rfl
      rw [show (A.mark b n false).prevFree _ = false from Function.update_self ..] at hp
      cases hp
    exact hcz (hO.lonely c m hc ((Function.update_of_ne hcb ..).symm.trans hf)
      ((Function.update_of_ne hcz ..).symm.trans hp))

theorem rtlMemPoolAlloc_eq (cfg : TlsfConfig) (h : Heap) (size : Nat) :
    rtlMemPoolAlloc cfg h size =
      blockPrepareUsed cfg (blockLocateFree cfg h (adjustRequestSize cfg size alignSize)).2
        (blockLocateFree cfg h (adjustRequestSize cfg size alignSize)).1
        (adjustRequestSize cfg size alignSize) := rfl

/-- The search from a class of the table: nothing, or a block that stands in a list. -/
theorem HeapOk.search (hO : HeapOk cfg R h A [] Nowhere) (hfl : fl < cfg.flIndexCount) (sl : Nat) :
    searchSuitableBlock h.pool fl sl = (0, fl, sl) ∨
    ∃ n, Avail A [] (searchSuitableBlock h.pool fl sl).1 n ∧
      mappingInsert cfg n = (searchSuitableBlock h.pool fl sl).2 ∧
      ¬ ClassLt (searchSuitableBlock h.pool fl sl).2 (fl, sl) := by
  obtain ⟨F, hF⟩ := hO.lists
  rcases hF.search hO.availOk hfl sl with ⟨e, _⟩ | ⟨hbF, habove⟩
  · exact Or.inl e
  · obtain ⟨n, hav, hc⟩ := (hF.mem_iff _ _ _).mp hbF
    exact Or.inr ⟨n, hav, hc, habove⟩

theorem blockLocateFree_none (hk : k ≠ 0)
    (hr : (searchSuitableBlock h.pool (mappingSearch cfg k).1 (mappingSearch cfg k).2).1 = 0) :
    blockLocateFree cfg h k = (0, h) := by
  unfold blockLocateFree
  simp only [hk, ne_eq, not_false_eq_true, if_true, hr, not_true_eq_false, if_false]

/-- `block_locate_free`: the block found is taken from its list, and large enough. -/
theorem HeapOk.locate (hO : HeapOk cfg R h A [] Nowhere) (hk4 : 4 ∣ k) (hk12 : 12 ≤ k)
    (hk31 : k < 2 ^ 31) (hcl : (mappingSearch cfg k).1 < cfg.flIndexCount)
    (hr : searchSuitableBlock h.pool (mappingSearch cfg k).1 (mappingSearch cfg k).2 = (b, fl, sl))
    (hb0 : b ≠ 0) :
    ∃ n, Avail A [] b n ∧ k ≤ n ∧
      blockLocateFree cfg h k = (b, removeFreeBlock h b fl sl) ∧
      HeapOk cfg R (removeFreeBlock h b fl sl) A [b] Nowhere ∧
      (removeFreeBlock h b fl sl).pool.blockNull = h.pool.blockNull := by
  have hk0 : k ≠ 0 := by omega
  have hfound := hO.search hcl (mappingSearch cfg k).2
  rw [hr] at hfound
  rcases hfound with e | ⟨n, hav, hc, habove⟩
  · exact absurd (Prod.mk.inj e).1 hb0
  have hkn : k ≤ n := by
    refine Nat.not_lt.mp fun hlt => habove ?_
    have := mappingSearch_above cfg hk4 hk31 hlt
    rw [hc] at this
    exact this
  obtain ⟨h1, hnull1⟩ := hO.removeFree hav hc
  have hsize : (removeFreeBlock h b fl sl).mem (b + 4) ≠ 0 := by
    rw [h1.stored.header b n hav.1]
    unfold word
    omega
  refine ⟨n, hav, hkn, ?_, h1, hnull1⟩
  unfold blockLocateFree
  simp only [hk0, ne_eq, not_false_eq_true, if_true, hr, hb0]
  rw [if_neg hsize]

/-- **`rtl_mem_pool_alloc`**: nothing happens and NULL is returned, or a block that was free is
    handed out. It is as large as the request, unless rounding up wrapped around. -/
theorem HeapOk.alloc (hO : HeapOk cfg R h A [] Nowhere) (size : Nat)
    (hcl : adjustRequestSize cfg size alignSize ≠ 0 →
      (mappingSearch cfg (adjustRequestSize cfg size alignSize)).1 < cfg.flIndexCount) :
    rtlMemPoolAlloc cfg h size = (0, h) ∨
    ∃ b n A', (rtlMemPoolAlloc cfg h size).1 = b + 8 ∧
      HeapOk cfg R (rtlMemPoolAlloc cfg h size).2 A' [] Nowhere ∧
      (rtlMemPoolAlloc cfg h size).2.pool.blockNull = h.pool.blockNull ∧
      A.free b = true ∧ A'.size b = some n ∧ 0 < n ∧ A'.free b = false ∧
      adjustRequestSize cfg size alignSize ≤ n ∧ UsedKept A A' b := by
  have hadj := adjustRequestSize_cases cfg size
  rw [rtlMemPoolAlloc_eq]
  generalize adjustRequestSize cfg size alignSize = k at hcl hadj ⊢
  rcases hadj with rfl | ⟨hk4, hk12, hk31, _⟩
  · exact Or.inl rfl
  have hk0 : k ≠ 0 := by omega
  obtain ⟨b, fl, sl, hr⟩ : ∃ b fl sl, searchSuitableBlock h.pool (mappingSearch cfg k).1
      (mappingSearch cfg k).2 = (b, fl, sl) := ⟨_, _, _, rfl⟩
  by_cases hb0 : b = 0
  · rw [blockLocateFree_none hk0 (by rw [hr]; exact hb0)]
    exact Or.inl rfl
  obtain ⟨n, hav, hkn, hloc, h1, hnull1⟩ := hO.locate hk4 hk12 hk31 (hcl hk0) hr hb0
  obtain ⟨A2, m, h2, hm, hkm, hf2, hnull2, hu2⟩ := h1.trim hav.1 hav.2.1 ⟨hk4, hk12⟩ hkn
  have h3 := h2.markAsUsed hm (by omega)
  rw [hloc]
  unfold blockPrepareUsed
  rw [if_pos hb0]
  refine Or.inr ⟨b, m, A2.mark b m false, rfl, h3, hnull2.trans hnull1, hav.2.1, hm, by omega,
    Function.update_self .., hkm, fun c y hc hf hne => ?_⟩
  obtain ⟨hc2, hf2⟩ := hu2 b c y hc hf hne
  exact ⟨hc2, (Function.update_of_ne hne ..).trans hf2⟩

/-! ## 5. Adding memory -/

/-- The header of a new block, whatever stood there. -/
theorem newHeader (mem : Mem) (b : Nat) (hn : Sized n) :
    blockSetPrevUsed (blockSetFree (blockSetSize mem b n) b) b =
      update mem (b + 4) (word n true false) := by
  obtain ⟨f, p, h0⟩ := or_flags hn (mem (b + 4))
  rw [blockSetSize_eq, h0]
  unfold blockSetFree blockSetPrevUsed
  simp only [Function.update_idem, Function.update_self, word_setFree hn, word_setPrevUsed hn]

theorem newSentinel (mem : Mem) (b : Nat) :
    blockSetPrevFree (blockSetUsed (blockSetSize mem b 0) b) b =
      update mem (b + 4) (word 0 false true) := by
  have hn : Sized 0 := ⟨Nat.dvd_zero 4, by decide⟩
  obtain ⟨f, p, h0⟩ := or_flags hn (mem (b + 4))
  rw [blockSetSize_eq, h0]
  unfold blockSetUsed blockSetPrevFree
  simp only [Function.update_idem, Function.update_self, word_setUsed hn, word_setPrevFree hn]

theorem rtlMemPoolAddMem_rejects (h : Heap) {base bytes : Nat}
    (hrej : poolBytes bytes < blkSizeMin ∨ cfg.blkSizeMax < poolBytes bytes) :
    rtlMemPoolAddMem cfg h base bytes = (false, h) := by
  unfold rtlMemPoolAddMem
  exact if_pos hrej

theorem rtlMemPoolAddMem_accepts (h : Heap) (base : Nat) {bytes : Nat}
    (hacc : ¬ (poolBytes bytes < blkSizeMin ∨ cfg.blkSizeMax < poolBytes bytes)) :
    (rtlMemPoolAddMem cfg h base bytes).1 = true := by
  unfold rtlMemPoolAddMem
  simp only [if_neg hacc]

/-- `rtl_mem_pool_add_mem` step by step: a block with its header, put into a list; then the
    sentinel behind it. -/
theorem rtlMemPoolAddMem_eq (cfg : TlsfConfig) (h : Heap) (r : Region)
    (hmin : blkSizeMin ≤ poolBytes r.bytes) (hmax : poolBytes r.bytes ≤ cfg.blkSizeMax)
    (hn : Sized (poolBytes r.bytes)) {h1 : Heap} {z : Nat}
    (h1_eq : blockInsert cfg ⟨update h.mem (r.first + 4) (word (poolBytes r.bytes) true false),
      h.pool⟩ r.first = h1) (hz : blockNext h1.mem r.first = z) :
    rtlMemPoolAddMem cfg h r.base r.bytes =
      (true, ⟨update (update h1.mem z r.first) (z + 4) (word 0 false true), h1.pool⟩) := by
  have hfirst : r.base - blkHeaderOverhead = r.first := rfl
  unfold rtlMemPoolAddMem
  rw [if_neg (by omega), hfirst]
  simp only [newHeader h.mem r.first hn, h1_eq, hz, newSentinel]
  unfold blockLinkNext
  rw [hz]

section Zugabe

variable {r : Region} (hO : HeapOk cfg R h A [] Nowhere) (hr : RegionOk cfg h.pool.blockNull r)
  (hap : ∀ q ∈ R, r.Apart q)

include hO hr hap

theorem HeapOk.regions_cons : RegionsOk cfg h.pool.blockNull (r :: R) := by
  refine ⟨fun q hq => ?_, List.pairwise_cons.mpr ⟨hap, hO.regions.apart⟩⟩
  rcases List.mem_cons.mp hq with rfl | hq
  · exact hr
  · exact hO.regions.each q hq

/-- Old blocks are none of the new ones. -/
theorem HeapOk.old_ne (hc : A.size c = some m) :
    c ≠ r.first ∧ c ≠ r.last ∧ (A.addRegion r).size c = some m := by
  obtain ⟨hfl, _, hne⟩ := hr.first_last
  have hoff := (hO.shape.off_region hO.regions hr hap hc).1
  have h1 : c ≠ r.first := by omega
  have h2 : c ≠ r.last := by omega
  exact ⟨h1, h2, (lay_other h1 (hfl.symm ▸ h2)).trans hc⟩

/-- One block more stands in the lists. -/
theorem HeapOk.avail_addRegion (c m : Nat) : Avail (A.addRegion r) [] c m ↔
    Avail A [] c m ∨ (c = r.first ∧ m = poolBytes r.bytes) := by
  obtain ⟨hfl, _, hne⟩ := hr.first_last
  constructor
  · rintro ⟨h1, h2, h3⟩
    have h2' : update (update A.free r.last false) r.first true c = true := h2
    rcases lay_cases h1 with e | ⟨rfl, _⟩ | ⟨e1, e2, e3⟩
    · exact Or.inr e
    · rw [hfl, Function.update_of_ne (Ne.symm hne), Function.update_self] at h2'
      cases h2'
    · rw [hfl] at e2
      rw [Function.update_of_ne e1, Function.update_of_ne e2] at h2'
      exact Or.inl ⟨e3, h2', h3⟩
  · rintro (⟨h1, h2, h3⟩ | ⟨rfl, rfl⟩)
    · obtain ⟨e1, e2, e3⟩ := hO.old_ne hr hap h1
      exact ⟨e3, (Function.update_of_ne e1 ..).trans ((Function.update_of_ne e2 ..).trans h2), h3⟩
    · exact ⟨lay_self, Function.update_self .., List.not_mem_nil⟩

/-- **`rtl_mem_pool_add_mem`** of a region that the call accepts. -/
theorem HeapOk.addMem : (rtlMemPoolAddMem cfg h r.base r.bytes).1 = true ∧
    HeapOk cfg (r :: R) (rtlMemPoolAddMem cfg h r.base r.bytes).2 (A.addRegion r) [] Nowhere ∧
    (rtlMemPoolAddMem cfg h r.base r.bytes).2.pool.blockNull = h.pool.blockNull ∧
    ∀ b, UsedKept A (A.addRegion r) b := by
  obtain ⟨hfl, hfb, hne⟩ := hr.first_last
  have hR := hO.regions_cons hr hap
  have hS := hO.shape.addRegion hO.regions hr hap
  have hself : (A.addRegion r).size r.first = some (poolBytes r.bytes) := lay_self
  have hend : (A.addRegion r).size r.last = some 0 := hS.last r List.mem_cons_self
  have hn : Sized (poolBytes r.bytes) := (hS.bound hR hself).2.1
  have hmin := hr.min
  unfold blkSizeMin at hmin
  have hmax : poolBytes r.bytes ≤ cfg.blkSizeMax := by
    rw [blkSizeMax_eq]
    exact Nat.le_of_lt hr.max
  -- the new block with its header, put into its list
  have hlists : ∃ F, FreeLists cfg
      (update h.mem (r.first + 4) (word (poolBytes r.bytes) true false)) h.pool (Avail A []) F := by
    obtain ⟨F, hF⟩ := hO.lists
    refine ⟨F, hF.congr_mem fun c m hc => ?_⟩
    have h12 := hO.shape.free_pos hc.1 hc.2.1
    have hoff := (hO.shape.off_region hO.regions hr hap hc.1).1
    exact ⟨Function.update_of_ne (by omega) .., Function.update_of_ne (by omega) ..⟩
  obtain ⟨F, hF⟩ := hlists
  have hav := hO.avail_addRegion hr hap
  have hA : AvailOk cfg h.pool.blockNull fun c m =>
      Avail A [] c m ∨ (c = r.first ∧ m = poolBytes r.bytes) :=
    (hS.availOk hR []).congr fun c m => (hav c m).symm
  have hnew : ∀ m, ¬ Avail A [] r.first m := fun m hm => (hO.old_ne hr hap hm.1).1 rfl
  have hsz : blockSize (update h.mem (r.first + 4) (word (poolBytes r.bytes) true false)) r.first =
      poolBytes r.bytes := by
    unfold blockSize
    rw [Function.update_self, word_size hn]
  obtain ⟨⟨fl, sl⟩, hcl⟩ : ∃ c, mappingInsert cfg (poolBytes r.bytes) = c := ⟨_, rfl⟩
  obtain ⟨h1, h2, h3⟩ := hF.insert hA hnew hcl
  have hins : blockInsert cfg ⟨update h.mem (r.first + 4) (word (poolBytes r.bytes) true false),
      h.pool⟩ r.first = insertFreeBlock
      ⟨update h.mem (r.first + 4) (word (poolBytes r.bytes) true false), h.pool⟩ r.first fl sl := by
    unfold blockInsert
    rw [hsz, hcl]
  generalize insertFreeBlock
    ⟨update h.mem (r.first + 4) (word (poolBytes r.bytes) true false), h.pool⟩
    r.first fl sl = h' at h1 h2 h3 hins
  -- only links were written
  have hlink : ∀ x, h'.mem x ≠ update h.mem (r.first + 4) (word (poolBytes r.bytes) true false) x →
      LinkWord (A.addRegion r) h.pool.blockNull x := by
    intro x hx
    obtain ⟨c, hc, e⟩ := h3 x hx
    refine linkWord_of_node (H := []) ⟨c, ?_, e⟩
    exact hc.imp_right fun ⟨m, hm⟩ => ⟨m, (hav c m).mpr hm⟩
  have hkeep : ∀ c y, (A.addRegion r).size c = some y →
      h'.mem (c + 4) = update h.mem (r.first + 4) (word (poolBytes r.bytes) true false) (c + 4) ∧
      ((A.addRegion r).free c = true → h'.mem (c + 4 + y) =
        update h.mem (r.first + 4) (word (poolBytes r.bytes) true false) (c + 4 + y)) := by
    intro c y hc
    exact ⟨Classical.byContradiction fun hx => ((hlink _ hx).off hS hR hc).1 rfl,
      fun hf => Classical.byContradiction fun hx => ((hlink _ hx).off hS hR hc).2 hf rfl⟩
  have hfirst : h'.mem (r.first + 4) = word (poolBytes r.bytes) true false := by
    rw [(hkeep _ _ hself).1, Function.update_self]
  have hnext : blockNext h'.mem r.first = r.last := by
    unfold blockNext blockSize blockToPtr blkStartOffset blkHeaderOverhead
    rw [hfirst, word_size hn]
    omega
  rw [rtlMemPoolAddMem_eq cfg h r hr.min hmax hn hins hnext]
  have hown : Owns r.first (poolBytes r.bytes) r.last := hfl ▸ owns_footer
  have hold : ∀ c y, A.size c = some y → ∀ x, Owns c y x → x ≠ r.first + 4 ∧ x ≠ r.last ∧
      x ≠ r.last + 4 := by
    intro c y hc x hx
    obtain ⟨e1, e2, e3⟩ := hO.old_ne hr hap hc
    refine ⟨?_, ?_, ?_⟩
    · rintro rfl
      exact e1 (hS.owner e3 hself hx owns_header)
    · rintro rfl
      exact e1 (hS.owner e3 hself hx hown)
    · rintro rfl
      exact e2 (hS.owner e3 hend hx owns_header)
  generalize hm : update (update h'.mem r.last r.first) (r.last + 4) (word 0 false true) = mem'
  refine ⟨rfl, ⟨h2.symm ▸ hR, hS, ?_, ?_, fun c y hc hf hp => ?_⟩, h2, fun b c y hc hf _ => ?_⟩
  · show Stored mem' (A.addRegion r)
    rw [← hm]
    refine hO.stored.addRegion hr ?_ ?_ (Function.update_self ..) (fun c y hc => ?_)
      fun c y hc hf => ?_
    · rw [Function.update_of_ne (by omega), Function.update_of_ne (by omega)]
      exact hfirst
    · rw [Function.update_of_ne (by omega), Function.update_self]
    · obtain ⟨e1, e2, e3⟩ := hold c y hc _ owns_header
      rw [Function.update_of_ne e3, Function.update_of_ne e2,
        (hkeep c y (hO.old_ne hr hap hc).2.2).1, Function.update_of_ne e1]
    · obtain ⟨e1, e2, e3⟩ := hold c y hc _ owns_footer
      obtain ⟨g1, g2, g3⟩ := hO.old_ne hr hap hc
      rw [Function.update_of_ne e3, Function.update_of_ne e2, (hkeep c y g3).2
          ((Function.update_of_ne g1 ..).trans ((Function.update_of_ne g2 ..).trans hf)),
        Function.update_of_ne e1]
  · refine ⟨_, (h1.congr_mem fun c y hc => ?_).congr_avail hav⟩
    have hlw : ∀ x, x = c + 8 ∨ x = c + 12 → LinkWord (A.addRegion r) h.pool.blockNull x :=
      fun x e => linkWord_of_node (H := []) ⟨c, Or.inr ⟨y, (hav c y).mpr hc⟩, e⟩
    have hoff : ∀ x, x = c + 8 ∨ x = c + 12 → x ≠ r.last ∧ x ≠ r.last + 4 := by
      intro x e
      refine ⟨?_, ((hlw x e).off hS hR hend).1⟩
      have := ((hlw x e).off hS hR hself).2 (Function.update_self ..)
      rwa [hfl] at this
    obtain ⟨g1, g2⟩ := hoff _ (Or.inl rfl)
    obtain ⟨g3, g4⟩ := hoff _ (Or.inr rfl)
    show mem' (c + 8) = h'.mem (c + 8) ∧ mem' (c + 12) = h'.mem (c + 12)
    rw [← hm]
    exact ⟨(Function.update_of_ne g2 ..).trans (Function.update_of_ne g1 ..),
      (Function.update_of_ne g4 ..).trans (Function.update_of_ne g3 ..)⟩
  · -- the new block has nothing before it, and its sentinel is used
    have hf' : update (update A.free r.last false) r.first true c = true := hf
    have hp' : update (update A.prevFree r.first false) r.last true c = true := hp
    rcases lay_cases hc with ⟨rfl, _⟩ | ⟨rfl, _⟩ | ⟨e1, e2, e3⟩
    · rw [Function.update_of_ne hne, Function.update_self] at hp'
      cases hp'
    · rw [hfl, Function.update_of_ne (Ne.symm hne), Function.update_self] at hf'
      cases hf'
    · rw [hfl] at e2
      rw [Function.update_of_ne e1, Function.update_of_ne e2] at hf'
      rw [Function.update_of_ne e2, Function.update_of_ne e1] at hp'
      exact hO.lonely c y e3 hf' hp'
  · obtain ⟨e1, e2, e3⟩ := hO.old_ne hr hap hc
    exact ⟨e3, (Function.update_of_ne e1 ..).trans ((Function.update_of_ne e2 ..).trans hf)⟩

end Zugabe

/-! ## 6. Initialization -/

def Shape.empty : Shape := ⟨fun _ => none, fun _ => false, fun _ => false⟩

/-- **`rtl_mem_pool_init`** of an object and memory that held anything. -/
theorem heapOk_init (cfg : TlsfConfig) (h : Heap) :
    HeapOk cfg [] (rtlMemPoolInit cfg h) .empty [] Nowhere where
  regions := ⟨nofun, List.Pairwise.nil⟩
  shape := ⟨tiles_empty, nofun, nofun, nofun, nofun, nofun, nofun, fun _ _ => rfl⟩
  stored := ⟨nofun, nofun⟩
  lists := by
    refine ⟨fun _ _ => [], fun fl sl hfl hsl => ?_, fun b fl sl => ?_, fun _ _ => List.nodup_nil,
      fun fl sl hfl hsl => ?_, fun fl hfl => ?_⟩
    · show (if fl < cfg.flIndexCount ∧ sl < cfg.slIndexCount then h.pool.blockNull
        else h.pool.blocks fl sl) = h.pool.blockNull
      exact if_pos ⟨hfl, hsl⟩
    · exact ⟨fun hb => absurd hb List.not_mem_nil, fun ⟨n, hn, _⟩ => nomatch hn.1⟩
    · show (if fl < cfg.flIndexCount then 0#32 else h.pool.slBitmap fl).getLsbD sl = true ↔ _
      rw [if_pos hfl]
      simp
    · show (0#32).getLsbD fl = true ↔ _
      simp
  lonely := nofun

end FxRtos
