/-
  File:      FxRtos/Heap/Integrity.lean
  Subject:   HEAP INTEGRITY over whole runs of the memory pool: initializations, memory added,
             allocations and frees in any order, and users writing what they like into what they
             have been given.

  * `heapStep` -- one call, or one write of a user; `live` are the pointers that users hold, with
    the sizes they asked for.
  * `HeapIntact` -- what is read from the memory: the headers of a region lead from its first
    block to its sentinel, flags and links agree, the free lists hold the free blocks, and what
    users hold does not overlap.
  * `NoWrap` -- no request is so large that rounding it up wraps around: from 2^32 - 3 on,
    `adjust_request_size` makes 0 of it, takes that for a size below BLK_SIZE_MAX and allocates
    BLK_SIZE_MIN bytes.
  * `heap_intact` -- in a run of such requests every state is intact; `heap_overrun`: otherwise
    an allocation is smaller than what was asked for.
-/
import FxRtos.Lib.Reach
import FxRtos.Heap.Calls

namespace FxRtos

open Function (update)
open Lib

/-! ## 1. Runs -/

structure HeapSys where
  heap : Heap
  regions : List Region
  live : List (Nat × Nat)

inductive HeapOp where
  | init
  | addMem (base bytes : Nat)
  | alloc (size : Nat)
  | free (ptr : Nat)
  | write (addr value : Nat)

/-- The start of a run: the first initialization, of an object and memory that held anything. -/
def heapStart (cfg : TlsfConfig) (h : Heap) : HeapSys := ⟨rtlMemPoolInit cfg h, [], []⟩

/-- Memory that may be given to the pool: aligned, not at NULL, beside the pool object and beside
    the memory given before; if the call accepts it, with pool bytes below BLK_SIZE_MAX. -/
def HeapSys.Fresh (cfg : TlsfConfig) (s : HeapSys) (base bytes : Nat) : Prop :=
  4 ∣ base ∧ 4 ≤ base ∧ base + bytes ≤ sizeT ∧
  (s.heap.pool.blockNull + sizeofBlockHeader ≤ base ∨ base + bytes ≤ s.heap.pool.blockNull) ∧
  (∀ q ∈ s.regions, base + bytes ≤ q.base ∨ q.base + q.bytes ≤ base) ∧
  ((rtlMemPoolAddMem cfg s.heap base bytes).1 = true → poolBytes bytes < cfg.blkSizeMax)

instance decidableFreshMem (cfg : TlsfConfig) (s : HeapSys) (base bytes : Nat) :
    Decidable (s.Fresh cfg base bytes) := by
  unfold HeapSys.Fresh
  infer_instance

/-- The class that the search for a request begins with. -/
def ClassInTable (cfg : TlsfConfig) (size : Nat) : Prop :=
  adjustRequestSize cfg size alignSize ≠ 0 →
    (mappingSearch cfg (adjustRequestSize cfg size alignSize)).1 < cfg.flIndexCount

instance decidableClassInTable (cfg : TlsfConfig) (size : Nat) :
    Decidable (ClassInTable cfg size) := by
  unfold ClassInTable
  infer_instance

def HeapSys.given (s : HeapSys) (base bytes : Nat) : Bool × Heap → HeapSys
  | (true, h) => { s with heap := h, regions := ⟨base, bytes⟩ :: s.regions }
  | (false, h) => { s with heap := h }

/-- NULL is nothing to hold. -/
def HeapSys.handed (s : HeapSys) (size : Nat) (r : Nat × Heap) : HeapSys :=
  { s with heap := r.2, live := if r.1 = 0 then s.live else (r.1, size) :: s.live }

def heapStep (cfg : TlsfConfig) : HeapOp → HeapSys → Option HeapSys
  | .init, s => some ⟨rtlMemPoolInit cfg s.heap, [], []⟩
  | .addMem base bytes, s =>
    if s.Fresh cfg base bytes then
      some (s.given base bytes (rtlMemPoolAddMem cfg s.heap base bytes))
    else none
  | .alloc size, s =>
    if size < sizeT ∧ ClassInTable cfg size then
      some (s.handed size (rtlMemPoolAlloc cfg s.heap size))
    else none
  | .free ptr, s =>
    if ptr ∈ s.live.map Prod.fst then
      some { s with
        heap := rtlMemPoolFree cfg s.heap ptr
        live := s.live.filter fun e => e.1 ≠ ptr }
    else none
  | .write addr value, s =>
    if 4 ∣ addr ∧ ∃ e ∈ s.live, e.1 ≤ addr ∧ addr < e.1 + e.2 then
      some { s with heap := { s.heap with mem := update s.heap.mem addr value } }
    else none

/-- No request wraps around when it is rounded up. -/
def NoWrap : HeapSys → HeapOp → Prop
  | _, .alloc size => size ≤ 0xFFFFFFFC
  | _, _ => True

instance decidableNoWrap (s : HeapSys) : (op : HeapOp) → Decidable (NoWrap s op)
  | .alloc size => inferInstanceAs (Decidable (size ≤ 0xFFFFFFFC))
  | .init => isTrue trivial
  | .addMem _ _ => isTrue trivial
  | .free _ => isTrue trivial
  | .write _ _ => isTrue trivial

/-! ## 2. What is read from the memory -/

/-- The size that stands at a header. -/
def headers (mem : Mem) : Nat → Option Nat := fun b => some (blockSize mem b)

/-- A block on the way from the first block of a region to its sentinel. -/
def HeapSys.IsBlock (s : HeapSys) (b : Nat) : Prop :=
  ∃ r ∈ s.regions, ∃ l, Walk 4 (headers s.heap.mem) r.first l r.last ∧ b ∈ l

structure HeapIntact (cfg : TlsfConfig) (s : HeapSys) : Prop where
  chain : ∀ r ∈ s.regions, ∃ l, Walk 4 (headers s.heap.mem) r.first l r.last
  prevFree : ∀ b, s.IsBlock b →
    blockIsPrevFree s.heap.mem (blockNext s.heap.mem b) = blockIsFree s.heap.mem b
  prevPhys : ∀ b, s.IsBlock b → blockIsFree s.heap.mem b = true →
    blockPrev s.heap.mem (blockNext s.heap.mem b) = b
  alone : ∀ b, s.IsBlock b → blockIsFree s.heap.mem b = true →
    blockIsFree s.heap.mem (blockNext s.heap.mem b) = false
  lists : ∃ F, FreeLists cfg s.heap.mem s.heap.pool (fun b n => s.IsBlock b ∧
    blockIsFree s.heap.mem b = true ∧ blockSize s.heap.mem b = n) F
  live : ∀ e ∈ s.live, 4 ∣ e.1 ∧ s.IsBlock (blockFromPtr e.1) ∧
    blockIsFree s.heap.mem (blockFromPtr e.1) = false ∧
    e.2 ≤ blockSize s.heap.mem (blockFromPtr e.1)
  apart : s.live.Pairwise fun e e' => e.1 + e.2 ≤ e'.1 ∨ e'.1 + e'.2 ≤ e.1

/-! ## 3. The invariant of a run -/

/-- What a user holds is a used block, and large enough. -/
def Held (A : Shape) (e : Nat × Nat) : Prop :=
  ∃ b m, e.1 = b + 8 ∧ A.size b = some m ∧ 0 < m ∧ A.free b = false ∧ e.2 ≤ m

def HeapInv (cfg : TlsfConfig) (s : HeapSys) : Prop :=
  ∃ A, HeapOk cfg s.regions s.heap A [] Nowhere ∧ (∀ e ∈ s.live, Held A e) ∧
    (s.live.map Prod.fst).Nodup

variable {cfg : TlsfConfig} {s s' : HeapSys} {A A' : Shape} {R : List Region} {b : Nat}

theorem Held.kept {e : Nat × Nat} (h : Held A e) (hk : UsedKept A A' b) (hne : e.1 ≠ b + 8) :
    Held A' e := by
  obtain ⟨c, m, he, hc, hm, hf, hle⟩ := h
  obtain ⟨hc', hf'⟩ := hk c m hc hf (by omega)
  exact ⟨c, m, he, hc', hm, hf', hle⟩

theorem heapInv_init (cfg : TlsfConfig) (h : Heap) : HeapInv cfg (heapStart cfg h) :=
  ⟨.empty, heapOk_init cfg h, nofun, List.nodup_nil⟩

theorem HeapInv.addMem (h : HeapInv cfg s) {base bytes : Nat} (hf : s.Fresh cfg base bytes) :
    HeapInv cfg (s.given base bytes (rtlMemPoolAddMem cfg s.heap base bytes)) := by
  obtain ⟨A, hO, hheld, hnd⟩ := h
  obtain ⟨r, rfl, rfl⟩ : ∃ r : Region, r.base = base ∧ r.bytes = bytes := ⟨⟨base, bytes⟩, rfl, rfl⟩
  obtain ⟨h4, hb, htop, hbes, hap, hmax⟩ := hf
  by_cases hrej : poolBytes r.bytes < blkSizeMin ∨ cfg.blkSizeMax < poolBytes r.bytes
  · rw [rtlMemPoolAddMem_rejects s.heap hrej]
    exact ⟨A, hO, hheld, hnd⟩
  · have htrue := rtlMemPoolAddMem_accepts s.heap r.base hrej
    have hlt := hmax htrue
    rw [blkSizeMax_eq] at hlt
    have hr : RegionOk cfg s.heap.pool.blockNull r := ⟨h4, hb, htop, hbes, by omega, hlt⟩
    obtain ⟨hok, hO', _, hk⟩ := hO.addMem hr hap
    generalize rtlMemPoolAddMem cfg s.heap r.base r.bytes = res at hok hO' ⊢
    obtain ⟨ok, h'⟩ := res
    obtain rfl : ok = true := hok
    refine ⟨_, hO', fun e hm => ?_, hnd⟩
    obtain ⟨c, m, e1, hc, e2, hfc, e3⟩ := hheld e hm
    obtain ⟨hc', hfc'⟩ := hk (c + 1) c m hc hfc (by omega)
    exact ⟨c, m, e1, hc', e2, hfc', e3⟩

theorem HeapInv.alloc (h : HeapInv cfg s) {size : Nat} (hcl : ClassInTable cfg size)
    (hw : size ≤ 0xFFFFFFFC) :
    HeapInv cfg (s.handed size (rtlMemPoolAlloc cfg s.heap size)) := by
  obtain ⟨A, hO, hheld, hnd⟩ := h
  rcases hO.alloc size hcl with e | ⟨b, n, A', hp, hO', _, hfree, hb, hn, hused, hle, hk⟩
  · rw [e]
    exact ⟨A, hO, hheld, hnd⟩
  · have hne : ∀ e ∈ s.live, e.1 ≠ b + 8 := by
      intro e he heq
      obtain ⟨c, m, e1, hc, e2, hfc, e3⟩ := hheld e he
      have hcb : c = b := by omega
      rw [hcb, hfree] at hfc
      cases hfc
    have hlive : (s.handed size (rtlMemPoolAlloc cfg s.heap size)).live =
        (b + 8, size) :: s.live := by
      show (if _ then _ else _) = _
      rw [if_neg (by omega), hp]
    have hsz : size ≤ n := by
      rcases adjustRequestSize_cases cfg size with h0 | ⟨_, _, _, hge⟩
      · -- a request for nothing
        rw [show size = 0 from ?_]
        · exact Nat.zero_le n
        refine Classical.byContradiction fun hs0 => ?_
        rw [rtlMemPoolAlloc_eq, h0] at hp
        cases hp
      · exact Nat.le_trans (hge hw) hle
    refine ⟨A', hO', fun e he => ?_, ?_⟩
    · rw [hlive] at he
      rcases List.mem_cons.mp he with rfl | he
      · exact ⟨b, n, rfl, hb, hn, hused, hsz⟩
      · exact (hheld e he).kept hk (hne e he)
    · rw [hlive, List.map_cons]
      refine List.nodup_cons.mpr ⟨fun hm => ?_, hnd⟩
      obtain ⟨e, he, heq⟩ := List.mem_map.mp hm
      exact hne e he heq

theorem HeapInv.free (h : HeapInv cfg s) {ptr : Nat} (hp : ptr ∈ s.live.map Prod.fst) :
    HeapInv cfg { s with
      heap := rtlMemPoolFree cfg s.heap ptr
      live := s.live.filter fun e => e.1 ≠ ptr } := by
  obtain ⟨A, hO, hheld, hnd⟩ := h
  obtain ⟨e, he, rfl⟩ := List.mem_map.mp hp
  obtain ⟨b, m, e1, hb, hm, hfb, _⟩ := hheld e he
  obtain ⟨A', hO', _, hk⟩ := hO.free hb hm hfb
  rw [e1]
  refine ⟨A', hO', fun e' he' => ?_, hnd.sublist (List.filter_sublist.map _)⟩
  obtain ⟨hm', hne⟩ := List.mem_filter.mp he'
  exact (hheld e' hm').kept hk (of_decide_eq_true hne)

theorem HeapInv.write (h : HeapInv cfg s) {addr value : Nat}
    (hw : ∃ e ∈ s.live, e.1 ≤ addr ∧ addr < e.1 + e.2) :
    HeapInv cfg { s with heap := { s.heap with mem := update s.heap.mem addr value } } := by
  obtain ⟨A, hO, hheld, hnd⟩ := h
  obtain ⟨e, he, h1, h2⟩ := hw
  obtain ⟨b, m, e1, hb, hm, hfb, hle⟩ := hheld e he
  refine ⟨A, ?_, hheld, hnd⟩
  have hin : Owns b m addr := ⟨by omega, by omega⟩
  refine (hO.hide hfb).step hO.shape (hO.stored.user hO.shape hb hfb (by omega) (by omega) value)
    (fun x hx => ?_) (fun c n => ?_) hO.lonely
  · have hxa : x = addr := Classical.byContradiction fun hne => hx (Function.update_of_ne hne ..)
    exact Or.inl ⟨b, List.mem_cons_self, m, hb, hxa ▸ hin⟩
  · unfold Avail
    rw [List.mem_cons, not_or]
    refine and_congr_right fun _ => and_congr_right fun hf => ?_
    have hcb : c ≠ b := by
      rintro rfl
      rw [hfb] at hf
      cases hf
    exact ⟨fun h => ⟨hcb, h⟩, fun h => h.2⟩

/-- One step. -/
theorem HeapInv.step (h : HeapInv cfg s) {op : HeapOp} (hg : NoWrap s op)
    (hs : heapStep cfg op s = some s') : HeapInv cfg s' := by
  cases op with
  | init =>
    cases hs
    exact heapInv_init cfg s.heap
  | addMem base bytes =>
    obtain ⟨hf, rfl⟩ := taken hs
    exact h.addMem hf
  | alloc size =>
    obtain ⟨⟨_, hcl⟩, rfl⟩ := taken hs
    exact h.alloc hcl hg
  | free ptr =>
    obtain ⟨hp, rfl⟩ := taken hs
    exact h.free hp
  | write addr value =>
    obtain ⟨⟨_, hw⟩, rfl⟩ := taken hs
    exact h.write hw

/-! ## 4. From the invariant to the memory -/

/-- The headers of a region lead to its sentinel, past all of its blocks. -/
theorem HeapOk.walk {h : Heap} (hO : HeapOk cfg R h A [] Nowhere) {r : Region} (hr : r ∈ R) :
    ∃ l, Walk 4 (headers h.mem) r.first l r.last ∧
      ∀ c m, A.size c = some m → r.first ≤ c → c < r.last → c ∈ l := by
  obtain ⟨n, _, hn⟩ := hO.shape.first r hr
  obtain ⟨hfl, hfb, _⟩ := (hO.regions.each r hr).first_last
  have hp := (hO.regions.each r hr).pool.1
  obtain ⟨l, hw, hl⟩ := hO.shape.tiles.exists_walk (by decide) (hO.shape.last r hr) hn (by omega)
    fun c hc h1 h2 => by
      -- a sentinel in this region is its own
      obtain ⟨q, hq, hh, h3, h4⟩ := hO.shape.inside hO.regions hc
      unfold Region.last at *
      have hrq : r = q := hO.regions.same hr hq (x := c + 4) (by omega) (by omega) (by omega)
        (by omega)
      subst hrq
      rcases hh with ⟨_, e⟩ | ⟨e, _⟩
      · exact e
      · cases e
  refine ⟨l, hw.map fun b m hb => ?_, hl⟩
  show some (blockSize h.mem b) = some m
  rw [hO.stored.size_eq hO.shape hO.regions hb]

/-- The blocks read from memory are the blocks of the shape. -/
theorem HeapOk.isBlock_iff (hO : HeapOk cfg s.regions s.heap A [] Nowhere) (b : Nat) :
    s.IsBlock b ↔ ∃ n, A.size b = some n ∧ 0 < n := by
  constructor
  · rintro ⟨r, hr, l, hw, hb⟩
    obtain ⟨n, _, hn⟩ := hO.shape.first r hr
    refine (hO.shape.tiles.walk_of_reads (fun c m hc => ?_) hw hn).mem hb
    show some (blockSize s.heap.mem c) = some m
    rw [hO.stored.size_eq hO.shape hO.regions hc]
  · rintro ⟨n, hb, hn⟩
    obtain ⟨r, hr, hh⟩ := hO.shape.home b n hb
    obtain ⟨hfl, hfb, _⟩ := (hO.regions.each r hr).first_last
    obtain ⟨l, hw, hl⟩ := hO.walk hr
    refine ⟨r, hr, l, hw, hl b n hb ?_ ?_⟩
    · unfold Region.Holds at hh
      omega
    · unfold Region.Holds at hh
      omega

/-- The free blocks read from memory are those that stand in the lists. -/
theorem HeapOk.avail_iff (hO : HeapOk cfg s.regions s.heap A [] Nowhere) (b n : Nat) :
    (s.IsBlock b ∧ blockIsFree s.heap.mem b = true ∧ blockSize s.heap.mem b = n) ↔
      Avail A [] b n := by
  constructor
  · rintro ⟨hb, hf, rfl⟩
    obtain ⟨n, hn, _⟩ := (hO.isBlock_iff b).mp hb
    rw [hO.stored.isFree_eq hO.shape hO.regions hn] at hf
    rw [hO.stored.size_eq hO.shape hO.regions hn]
    exact ⟨hn, hf, List.not_mem_nil⟩
  · rintro ⟨hn, hf, _⟩
    have hpos := hO.shape.free_pos hn hf
    exact ⟨(hO.isBlock_iff b).mpr ⟨n, hn, by omega⟩,
      (hO.stored.isFree_eq hO.shape hO.regions hn).trans hf,
      hO.stored.size_eq hO.shape hO.regions hn⟩

theorem HeapInv.intact (h : HeapInv cfg s) : HeapIntact cfg s := by
  obtain ⟨A, hO, hheld, hnd⟩ := h
  have hnext : ∀ b, s.IsBlock b → ∃ n m, A.size b = some n ∧ 0 < n ∧
      blockNext s.heap.mem b = b + 4 + n ∧ A.size (b + 4 + n) = some m := by
    intro b hb
    obtain ⟨n, hn, hpos⟩ := (hO.isBlock_iff b).mp hb
    obtain ⟨m, hm⟩ := hO.shape.tiles.next b n hn hpos
    exact ⟨n, m, hn, hpos, hO.stored.next_eq hO.shape hO.regions hn hpos, hm⟩
  have hisFree : ∀ b n, A.size b = some n → blockIsFree s.heap.mem b = A.free b := fun b n hb =>
    hO.stored.isFree_eq hO.shape hO.regions hb
  refine ⟨fun r hr => ?_, fun b hb => ?_, fun b hb hf => ?_, fun b hb hf => ?_, ?_,
    fun e he => ?_, ?_⟩
  · obtain ⟨l, hw, _⟩ := hO.walk hr
    exact ⟨l, hw⟩
  · obtain ⟨n, m, hn, hpos, e, hm⟩ := hnext b hb
    rw [e, hO.stored.isPrevFree_eq hO.shape hO.regions hm, hisFree b n hn]
    exact hO.shape.follows b n hn hpos
  · obtain ⟨n, m, hn, hpos, e, hm⟩ := hnext b hb
    rw [hisFree b n hn] at hf
    rw [e]
    exact hO.stored.footer b n hn hf
  · obtain ⟨n, m, hn, hpos, e, hm⟩ := hnext b hb
    rw [hisFree b n hn] at hf
    rw [e, hisFree _ m hm]
    refine Bool.eq_false_iff.mpr fun hf' => ?_
    exact hO.lonely _ m hm hf' ((hO.shape.follows b n hn hpos).trans hf)
  · obtain ⟨F, hF⟩ := hO.lists
    exact ⟨F, hF.congr_avail fun b n => hO.avail_iff b n⟩
  · obtain ⟨b, m, e1, hb, hm, hfb, hle⟩ := hheld e he
    have hptr : blockFromPtr e.1 = b := by
      rw [e1]
      exact Nat.add_sub_cancel b 8
    have hb4 := (hO.shape.sized b m hb).1
    rw [hptr, hisFree b m hb, hO.stored.size_eq hO.shape hO.regions hb]
    exact ⟨by omega, (hO.isBlock_iff b).mpr ⟨m, hb, hm⟩, hfb, hle⟩
  · refine (List.pairwise_map.mp hnd).imp_of_mem fun {e e'} he he' hne => ?_
    obtain ⟨b, m, e1, hb, hm, _, hle⟩ := hheld e he
    obtain ⟨c, k, e2, hc, hk, _, hle'⟩ := hheld e' he'
    have := hO.shape.tiles.beside hb hc (by omega)
    omega

/-! ## 5. Heap integrity -/

/-- **The heap stays intact** in every run whose requests do not wrap around. -/
theorem heap_intact (cfg : TlsfConfig) (h : Heap) {s : HeapSys}
    (hr : Reach (heapStep cfg) NoWrap (heapStart cfg h) s) : HeapIntact cfg s :=
  HeapInv.intact (hr.inv (heapInv_init cfg h) fun _ _ _ hi hg hs => hi.step hg hs)

/-- The shipped configuration. -/
def tlsf15 : TlsfConfig := ⟨15, 4, by decide, by decide, by decide⟩

/-- An object at 0x1000 before its initialization. -/
def pool1000 : Heap := ⟨fun _ => 0xCDCDCDCD, ⟨0x1000, 0#32, fun _ => 0#32, fun _ _ => 0⟩⟩

/-- Two allocations, the first of them written full and freed: the heap is intact, and one of
    them is left. -/
theorem heap_intact_reused : ∃ s, HeapIntact tlsf15 s ∧ s.live.length = 1 := by
  have hrun : (runIf (fun s a => decide (NoWrap s a)) (heapStep tlsf15)
      [.addMem 0x2000 1024, .alloc 100, .alloc 20, .write 0x2004 7, .write 0x2064 9, .free 0x2004]
      (heapStart tlsf15 pool1000)).any (fun s => decide (s.live.length = 1)) = true := by
    decide +kernel
  obtain ⟨s, hreach, hs⟩ := exists_of_runIf (fun _ _ h => of_decide_eq_true h) hrun
  exact ⟨s, heap_intact tlsf15 pool1000 hreach, of_decide_eq_true hs⟩

/-- **A request that wraps around**: 2^32 - 3 bytes are asked for, and 12 are handed out. -/
theorem heap_overrun : ¬ ∀ s, Reach (heapStep tlsf15) Always (heapStart tlsf15 pool1000) s →
    HeapIntact tlsf15 s := by
  intro hall
  have hrun : (run (heapStep tlsf15) [.addMem 0x2000 1024, .alloc 0xFFFFFFFD]
      (heapStart tlsf15 pool1000)).any (fun s => decide
        (∃ e ∈ s.live, blockSize s.heap.mem (blockFromPtr e.1) < e.2)) = true := by
    decide +kernel
  obtain ⟨s, hreach, hs⟩ := exists_of_run hrun
  obtain ⟨e, he, hlt⟩ := of_decide_eq_true hs
  exact absurd ((hall s hreach).live e he).2.2.2 (Nat.not_le.mpr hlt)

end FxRtos
