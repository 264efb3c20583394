/-
  File:      FxRtos/Heap/Shape.lean
  Subject:   THE SHAPE OF THE HEAP, without its memory: which blocks there are, of what size, and
             which of them are free. The regions are runs of tiles (Lib/Tiles.lean) with a head of
             4 bytes.

  * `Region`, `RegionsOk` -- the memory given to the pool.
  * `ShapeOk` -- every region is covered by blocks up to its sentinel; the second flag of a block
    is the first one of the block before it.
  * `Shape.mark`, `Shape.split`, `Shape.absorb`, `Shape.addRegion` -- what the code does to it;
    each keeps `ShapeOk`.
-/
import Mathlib.Data.List.Pairwise
import FxRtos.Lib.Tiles
import FxRtos.Heap.Classes

namespace FxRtos

open Function (update)
open Lib

/-! ## 1. Regions -/

/-- Memory given to `rtl_mem_pool_add_mem`. -/
structure Region where
  base : Nat
  bytes : Nat
  deriving DecidableEq

/-- The header of its first block lies in front, except for the size word. -/
def Region.first (r : Region) : Nat := r.base - blkHeaderOverhead

/-- Its sentinel. -/
def Region.last (r : Region) : Nat := r.base + poolBytes r.bytes

def Region.Apart (r r' : Region) : Prop :=
  r.base + r.bytes ≤ r'.base ∨ r'.base + r'.bytes ≤ r.base

instance : Std.Symm Region.Apart := ⟨fun _ _ h => Or.symm h⟩

/-- A region that a call accepts: aligned memory, not at NULL, beside the pool object. -/
structure RegionOk (cfg : TlsfConfig) (null : Nat) (r : Region) : Prop where
  aligned : 4 ∣ r.base
  base : 4 ≤ r.base
  top : r.base + r.bytes ≤ sizeT
  beside : null + sizeofBlockHeader ≤ r.base ∨ r.base + r.bytes ≤ null
  min : blkSizeMin ≤ poolBytes r.bytes
  max : poolBytes r.bytes < 2 ^ cfg.flIndexMax

structure RegionsOk (cfg : TlsfConfig) (null : Nat) (R : List Region) : Prop where
  each : ∀ r ∈ R, RegionOk cfg null r
  apart : R.Pairwise Region.Apart

variable {cfg : TlsfConfig} {null : Nat} {R : List Region} {r q : Region}

/-- The pool bytes, and the two headers. -/
theorem poolBytes_le {bytes : Nat} (hb : bytes < sizeT) (hmax : poolBytes bytes < 2 ^ 31) :
    poolBytes bytes + 8 ≤ bytes ∧ 4 ∣ poolBytes bytes := by
  unfold poolBytes at *
  rw [alignDown_eq] at *
  unfold blkHeaderOverhead sizeT at *
  omega

theorem RegionOk.pool (h : RegionOk cfg null r) :
    poolBytes r.bytes + 8 ≤ r.bytes ∧ 4 ∣ poolBytes r.bytes := by
  have hb := h.base
  have ht := h.top
  refine poolBytes_le (by omega) (Nat.lt_of_lt_of_le h.max ?_)
  exact Nat.pow_le_pow_right (by decide) cfg.max_le

/-- A cell belongs to one region. -/
theorem RegionsOk.same (h : RegionsOk cfg null R) (hr : r ∈ R) (hq : q ∈ R) {x : Nat}
    (h1 : r.base ≤ x) (h2 : x < r.base + r.bytes) (h3 : q.base ≤ x) (h4 : x < q.base + q.bytes) :
    r = q := by
  refine Classical.byContradiction fun hne => ?_
  have hap := h.apart.forall hr hq hne
  unfold Region.Apart at hap
  omega

/-! ## 2. Shapes -/

structure Shape where
  size : Nat → Option Nat
  free : Nat → Bool
  prevFree : Nat → Bool

/-- The block of `n` bytes at `b` lies in the region, or is its sentinel. -/
def Region.Holds (r : Region) (b n : Nat) : Prop :=
  (n = 0 ∧ b = r.last) ∨ (0 < n ∧ r.base ≤ b + 4 ∧ b + 4 + n ≤ r.last)

structure ShapeOk (R : List Region) (A : Shape) : Prop where
  tiles : Tiles 4 A.size
  sized : ∀ b n, A.size b = some n → 4 ∣ b ∧ 4 ∣ n ∧ (n = 0 ∨ 12 ≤ n)
  home : ∀ b n, A.size b = some n → ∃ r ∈ R, r.Holds b n
  first : ∀ r ∈ R, ∃ n, 0 < n ∧ A.size r.first = some n
  last : ∀ r ∈ R, A.size r.last = some 0
  follows : ∀ b n, A.size b = some n → 0 < n → A.prevFree (b + 4 + n) = A.free b
  behind : ∀ b n, A.size b = some n → A.prevFree b = true →
    ∃ a m, A.size a = some m ∧ 0 < m ∧ b = a + 4 + m
  sentinel : ∀ b, A.size b = some 0 → A.free b = false

/-- The word at `x` belongs to the block of `n` bytes at `b`: its size or its data. -/
def Owns (b n x : Nat) : Prop := b + 4 ≤ x ∧ x < b + 8 + n

variable {A : Shape} {a b c k m n x : Nat}

/-- No words of a block lie outside its region. -/
theorem ShapeOk.inside (h : ShapeOk R A) (hR : RegionsOk cfg null R) (hb : A.size b = some n) :
    ∃ r ∈ R, r.Holds b n ∧ r.base ≤ b + 4 ∧ b + 8 + n ≤ r.base + r.bytes := by
  obtain ⟨r, hr, hh⟩ := h.home b n hb
  have hp := (hR.each r hr).pool.1
  refine ⟨r, hr, hh, ?_⟩
  unfold Region.Holds Region.last at hh
  omega

theorem ShapeOk.owner (h : ShapeOk R A) (ha : A.size a = some n) (hb : A.size b = some m)
    (hax : Owns a n x) (hbx : Owns b m x) : a = b := by
  obtain ⟨h1, h2⟩ := hax
  obtain ⟨h3, h4⟩ := hbx
  exact h.tiles.owner (x := x - 4) ha hb (by omega) (by omega) (by omega) (by omega)

/-- What the classes and the header words are made for. -/
theorem ShapeOk.bound (h : ShapeOk R A) (hR : RegionsOk cfg null R) (hb : A.size b = some n) :
    n < 2 ^ cfg.flIndexMax ∧ Sized n ∧ b + 8 + n ≤ sizeT := by
  obtain ⟨r, hr, hh, _, h2⟩ := h.inside hR hb
  have hmax := (hR.each r hr).max
  have htop := (hR.each r hr).top
  have hmin := (hR.each r hr).min
  obtain ⟨_, h4, _⟩ := h.sized b n hb
  have hn : n < 2 ^ cfg.flIndexMax := by
    refine Nat.lt_of_le_of_lt ?_ hmax
    unfold Region.Holds Region.last at hh
    omega
  exact ⟨hn, ⟨h4, by omega⟩, by omega⟩

/-- Beside the words of `block_null`. -/
theorem ShapeOk.off_null (h : ShapeOk R A) (hR : RegionsOk cfg null R) (hb : A.size b = some n) :
    null + 16 ≤ b + 4 ∨ b + 8 + n ≤ null := by
  obtain ⟨r, hr, _, h1, h2⟩ := h.inside hR hb
  have hbes := (hR.each r hr).beside
  unfold sizeofBlockHeader at hbes
  omega

/-- The block behind another one. -/
theorem ShapeOk.next_inj (h : ShapeOk R A) (ha : A.size a = some n) (hb : A.size b = some m)
    (e : a + 4 + n = b + 4 + m) : a = b := by
  rcases Nat.lt_trichotomy a b with hlt | rfl | hlt
  · have := h.tiles.apart a b n m ha hb hlt
    omega
  · rfl
  · have := h.tiles.apart b a m n hb ha hlt
    omega

theorem ShapeOk.not_inside (h : ShapeOk R A) (ha : A.size a = some n) (h1 : a < c)
    (h2 : c < a + 4 + n) : A.size c = none := by
  refine Option.eq_none_iff_forall_not_mem.mpr fun m hc => ?_
  have := h.tiles.apart a c n m ha hc h1
  omega

/-- No region begins behind a block. -/
theorem ShapeOk.next_ne_first (h : ShapeOk R A) (hR : RegionsOk cfg null R) (hr : r ∈ R)
    (ha : A.size a = some n) (hn : 0 < n) : a + 4 + n ≠ r.first := by
  intro e
  obtain ⟨q, hq, hh, h1, h2⟩ := h.inside hR ha
  have hrok := hR.each r hr
  have hqok := hR.each q hq
  have hrb := hrok.base
  have hrp := hrok.pool.1
  have hqp := hqok.pool.1
  unfold Region.Holds Region.last at hh
  unfold Region.first blkHeaderOverhead at e
  have hrq : r = q := hR.same hr hq (x := r.base) (by omega) (by omega) (by omega) (by omega)
  subst hrq
  omega

/-! ## 3. Marking a block -/

/-- The block of `n` bytes at `b` marked free or used. -/
def Shape.mark (A : Shape) (b n : Nat) (f : Bool) : Shape :=
  { A with free := update A.free b f, prevFree := update A.prevFree (b + 4 + n) f }

theorem ShapeOk.mark (h : ShapeOk R A) (hb : A.size b = some n) (hn : 0 < n) (f : Bool) :
    ShapeOk R (A.mark b n f) where
  tiles := h.tiles
  sized := h.sized
  home := h.home
  first := h.first
  last := h.last
  follows c m hc hm := by
    show update A.prevFree (b + 4 + n) f (c + 4 + m) = update A.free b f c
    by_cases hcb : c = b
    · subst hcb
      obtain rfl := Option.some.inj (hb.symm.trans hc)
      rw [Function.update_self, Function.update_self]
    · rw [Function.update_of_ne hcb, Function.update_of_ne fun e => hcb (h.next_inj hc hb e)]
      exact h.follows c m hc hm
  behind c m hc hp := by
    have hp' : update A.prevFree (b + 4 + n) f c = true := hp
    by_cases hcn : c = b + 4 + n
    · exact ⟨b, n, hb, hn, hcn⟩
    · rw [Function.update_of_ne hcn] at hp'
      exact h.behind c m hc hp'
  sentinel c hc := by
    show update A.free b f c = false
    rw [Function.update_of_ne]
    · exact h.sentinel c hc
    · rintro rfl
      rw [show A.size c = some 0 from hc] at hb
      cases hb
      cases hn

/-! ## 4. Splitting a block -/

/-- The free block of `k + 4 + m` bytes at `b` cut into two free blocks. -/
def Shape.split (A : Shape) (b k m : Nat) : Shape where
  size := cut 4 A.size b k m
  free := update A.free (b + 4 + k) true
  prevFree := update A.prevFree (b + 4 + k) true

theorem ShapeOk.split (h : ShapeOk R A) (hb : A.size b = some (k + 4 + m)) (hf : A.free b = true)
    (hk : 4 ∣ k ∧ 12 ≤ k) (hm : 4 ∣ m ∧ 12 ≤ m) : ShapeOk R (A.split b k m) := by
  have hrest : ∀ c, A.size c ≠ none → c ≠ b + 4 + k := by
    rintro c hc rfl
    exact hc (h.not_inside hb (by omega) (by omega))
  have hother : ∀ c y, A.size c = some y → c ≠ b → cut 4 A.size b k m c = some y := by
    intro c y hc hcb
    rw [cut_other hcb (hrest c (by rw [hc]; exact nofun))]
    exact hc
  obtain ⟨hb4, _, _⟩ := h.sized b _ hb
  refine ⟨h.tiles.cut hb (by decide) (by omega), fun c y hc => ?_, fun c y hc => ?_, fun r hr => ?_,
    fun r hr => ?_, fun c y hc hy => ?_, fun c y hc hp => ?_, fun c hc => ?_⟩
  · rcases cut_cases hc with ⟨rfl, rfl⟩ | ⟨rfl, rfl⟩ | ⟨_, _, hc0⟩
    · exact ⟨hb4, hk.1, Or.inr hk.2⟩
    · obtain ⟨k', rfl⟩ := hk.1
      exact ⟨by omega, hm.1, Or.inr hm.2⟩
    · exact h.sized c y hc0
  · obtain ⟨r, hr, hh⟩ := h.home b _ hb
    unfold Region.Holds at hh
    rcases cut_cases hc with ⟨rfl, rfl⟩ | ⟨rfl, rfl⟩ | ⟨_, _, hc0⟩
    · exact ⟨r, hr, Or.inr (by omega)⟩
    · exact ⟨r, hr, Or.inr (by omega)⟩
    · exact h.home c y hc0
  · obtain ⟨y, hy, he⟩ := h.first r hr
    by_cases e : r.first = b
    · exact ⟨k, by omega, by rw [e]; exact cut_self⟩
    · exact ⟨y, hy, hother _ y he e⟩
  · have hl := h.last r hr
    refine hother _ 0 hl fun e => ?_
    rw [e, hb] at hl
    have := Option.some.inj hl
    omega
  · show update A.prevFree (b + 4 + k) true (c + 4 + y) = update A.free (b + 4 + k) true c
    rcases cut_cases hc with ⟨rfl, rfl⟩ | ⟨rfl, rfl⟩ | ⟨hcb, hcr, hc0⟩
    · rw [Function.update_self, Function.update_of_ne (by omega), hf]
    · have := h.follows b _ hb (by omega)
      rw [Function.update_self, Function.update_of_ne (by omega),
        show b + 4 + k + 4 + y = b + 4 + (k + 4 + y) by omega, this, hf]
    · obtain ⟨y', hy'⟩ := h.tiles.next c y hc0 hy
      rw [Function.update_of_ne hcr,
        Function.update_of_ne (hrest _ (by rw [hy']; exact nofun))]
      exact h.follows c y hc0 hy
  · have hp' : update A.prevFree (b + 4 + k) true c = true := hp
    rcases cut_cases hc with ⟨rfl, rfl⟩ | ⟨rfl, rfl⟩ | ⟨hcb, hcr, hc0⟩
    · rw [Function.update_of_ne (by omega)] at hp'
      obtain ⟨a, y', ha, hy', e⟩ := h.behind _ _ hb hp'
      exact ⟨a, y', hother a y' ha (by omega), hy', e⟩
    · exact ⟨b, k, cut_self, by omega, rfl⟩
    · rw [Function.update_of_ne hcr] at hp'
      obtain ⟨a, y', ha, hy', e⟩ := h.behind c y hc0 hp'
      by_cases hab : a = b
      · -- the block behind the old one is behind the rest now
        subst hab
        obtain rfl := Option.some.inj (hb.symm.trans ha)
        exact ⟨a + 4 + k, m, cut_rest (by decide), by omega, by omega⟩
      · exact ⟨a, y', hother a y' ha hab, hy', e⟩
  · show update A.free (b + 4 + k) true c = false
    rcases cut_cases hc with ⟨rfl, e⟩ | ⟨rfl, e⟩ | ⟨hcb, hcr, hc0⟩
    · omega
    · omega
    · rw [Function.update_of_ne hcr]
      exact h.sentinel c hc0

/-! ## 5. Joining two blocks -/

/-- The free block behind the free block at `a` made a part of it. -/
def Shape.absorb (A : Shape) (a n m : Nat) : Shape := { A with size := fuse 4 A.size a n m }

theorem ShapeOk.absorb (h : ShapeOk R A) (hR : RegionsOk cfg null R) (ha : A.size a = some n)
    (hb : A.size (a + 4 + n) = some m) (hn : 0 < n) (hm : 0 < m) (hfa : A.free a = true)
    (hfb : A.free (a + 4 + n) = true) : ShapeOk R (A.absorb a n m) := by
  have hother : ∀ c y, A.size c = some y → c ≠ a → c ≠ a + 4 + n →
      fuse 4 A.size a n m c = some y := fun c y hc h1 h2 => (fuse_other h1 h2).trans hc
  obtain ⟨ha4, hn4, _⟩ := h.sized a n ha
  obtain ⟨_, hm4, _⟩ := h.sized _ m hb
  refine ⟨h.tiles.fuse ha hb (by decide) hm, fun c y hc => ?_, fun c y hc => ?_, fun r hr => ?_,
    fun r hr => ?_, fun c y hc hy => ?_, fun c y hc hp => ?_, fun c hc => ?_⟩
  · rcases fuse_cases hc with ⟨rfl, rfl⟩ | ⟨_, _, hc0⟩
    · exact ⟨ha4, by omega, by omega⟩
    · exact h.sized c y hc0
  · rcases fuse_cases hc with ⟨rfl, rfl⟩ | ⟨_, _, hc0⟩
    · -- both lie in one region, since they touch
      obtain ⟨r, hr, hh, h1, h2⟩ := h.inside hR ha
      obtain ⟨q, hq, hh', h3, h4⟩ := h.inside hR hb
      have hp := (hR.each r hr).pool.1
      unfold Region.Holds Region.last at hh hh'
      have hrq : r = q := hR.same hr hq (x := c + 4 + n + 4) (by omega) (by omega) (by omega)
        (by omega)
      subst hrq
      refine ⟨r, hr, Or.inr ?_⟩
      unfold Region.last
      omega
    · exact h.home c y hc0
  · obtain ⟨y, hy, he⟩ := h.first r hr
    by_cases e : r.first = a
    · exact ⟨n + 4 + m, by omega, by rw [e]; exact fuse_self⟩
    · exact ⟨y, hy, hother _ y he e (Ne.symm (h.next_ne_first hR hr ha hn))⟩
  · have hl := h.last r hr
    refine hother _ 0 hl (fun e => ?_) fun e => ?_
    · rw [e, ha] at hl
      cases hl
      cases hn
    · rw [e, hb] at hl
      cases hl
      cases hm
  · show A.prevFree (c + 4 + y) = A.free c
    rcases fuse_cases hc with ⟨rfl, rfl⟩ | ⟨_, _, hc0⟩
    · have := h.follows _ m hb hm
      rw [show c + 4 + (n + 4 + m) = c + 4 + n + 4 + m by omega, this, hfa, hfb]
    · exact h.follows c y hc0 hy
  · have hp' : A.prevFree c = true := hp
    rcases fuse_cases hc with ⟨rfl, rfl⟩ | ⟨hca, hcb, hc0⟩
    · obtain ⟨d, y', hd, hy', e⟩ := h.behind c n ha hp'
      exact ⟨d, y', hother d y' hd (by omega) (by omega), hy', e⟩
    · obtain ⟨d, y', hd, hy', e⟩ := h.behind c y hc0 hp'
      by_cases hdb : d = a + 4 + n
      · subst hdb
        obtain rfl := Option.some.inj (hb.symm.trans hd)
        exact ⟨a, n + 4 + m, fuse_self, by omega, by omega⟩
      · by_cases hda : d = a
        · subst hda
          obtain rfl := Option.some.inj (ha.symm.trans hd)
          exact absurd e hcb
        · exact ⟨d, y', hother d y' hd hda hdb, hy', e⟩
  · rcases fuse_cases hc with ⟨rfl, e⟩ | ⟨_, _, hc0⟩
    · omega
    · exact h.sentinel c hc0

/-! ## 6. A new region -/

/-- One free block and its sentinel. -/
def Shape.addRegion (A : Shape) (r : Region) : Shape where
  size := lay 4 A.size r.first (poolBytes r.bytes)
  free := update (update A.free r.last false) r.first true
  prevFree := update (update A.prevFree r.first false) r.last true

theorem RegionOk.first_last (h : RegionOk cfg null r) :
    r.first + 4 + poolBytes r.bytes = r.last ∧ r.first + 4 = r.base ∧ r.first ≠ r.last := by
  have hb := h.base
  have hmin := h.min
  unfold Region.first Region.last blkHeaderOverhead blkSizeMin at *
  omega

/-- The blocks of the other regions lie beside it. -/
theorem ShapeOk.off_region (h : ShapeOk R A) (hR : RegionsOk cfg null R) (hr : RegionOk cfg null r)
    (hap : ∀ q ∈ R, r.Apart q) (hb : A.size b = some n) :
    (b + 4 + n ≤ r.first ∨ r.first + 4 + poolBytes r.bytes + 4 ≤ b) ∧
    (0 < n → b + 4 + n ≠ r.first) := by
  obtain ⟨q, hq, hh, h1, h2⟩ := h.inside hR hb
  have hrb := hr.base
  have hrp := hr.pool.1
  have hqp := (hR.each q hq).pool.1
  have := hap q hq
  unfold Region.Apart at this
  unfold Region.Holds Region.last at hh
  unfold Region.first blkHeaderOverhead
  omega

theorem ShapeOk.addRegion (h : ShapeOk R A) (hR : RegionsOk cfg null R) (hr : RegionOk cfg null r)
    (hap : ∀ q ∈ R, r.Apart q) : ShapeOk (r :: R) (A.addRegion r) := by
  obtain ⟨hfl, hfb, hne⟩ := hr.first_last
  have hold : ∀ c y, A.size c = some y → c ≠ r.first ∧ c ≠ r.last := by
    intro c y hc
    have := (h.off_region hR hr hap hc).1
    omega
  have hother : ∀ c y, A.size c = some y →
      lay 4 A.size r.first (poolBytes r.bytes) c = some y := by
    intro c y hc
    obtain ⟨h1, h2⟩ := hold c y hc
    exact (lay_other h1 (by rw [hfl]; exact h2)).trans hc
  have hmin : 12 ≤ poolBytes r.bytes := hr.min
  have h4 := hr.pool.2
  have hb4 := hr.aligned
  refine ⟨h.tiles.lay (by decide) (fun c y hc => (h.off_region hR hr hap hc).1)
    fun c y hc => (h.off_region hR hr hap hc).2, fun c y hc => ?_, fun c y hc => ?_,
    fun q hq => ?_, fun q hq => ?_, fun c y hc hy => ?_, fun c y hc hp => ?_, fun c hc => ?_⟩
  · rcases lay_cases hc with ⟨rfl, rfl⟩ | ⟨rfl, rfl⟩ | ⟨_, _, hc0⟩
    · exact ⟨by omega, h4, Or.inr hmin⟩
    · exact ⟨by omega, by omega, Or.inl rfl⟩
    · exact h.sized c y hc0
  · rcases lay_cases hc with ⟨rfl, rfl⟩ | ⟨rfl, rfl⟩ | ⟨_, _, hc0⟩
    · exact ⟨r, List.mem_cons_self, Or.inr (by omega)⟩
    · exact ⟨r, List.mem_cons_self, Or.inl ⟨rfl, hfl⟩⟩
    · obtain ⟨q, hq, hh⟩ := h.home c y hc0
      exact ⟨q, List.mem_cons_of_mem _ hq, hh⟩
  · rcases List.mem_cons.mp hq with rfl | hq
    · exact ⟨_, by omega, lay_self⟩
    · obtain ⟨y, hy, he⟩ := h.first q hq
      exact ⟨y, hy, hother _ y he⟩
  · rcases List.mem_cons.mp hq with rfl | hq
    · show lay 4 A.size q.first (poolBytes q.bytes) q.last = some 0
      rw [← hfl]
      exact lay_end (by decide)
    · exact hother _ 0 (h.last q hq)
  · show update (update A.prevFree r.first false) r.last true (c + 4 + y) =
      update (update A.free r.last false) r.first true c
    rcases lay_cases hc with ⟨rfl, rfl⟩ | ⟨rfl, rfl⟩ | ⟨hc1, hc2, hc0⟩
    · rw [hfl, Function.update_self, Function.update_self]
    · cases hy
    · obtain ⟨y', hy'⟩ := h.tiles.next c y hc0 hy
      obtain ⟨h1, h2⟩ := hold _ y' hy'
      rw [hfl] at hc2
      rw [Function.update_of_ne h2, Function.update_of_ne h1, Function.update_of_ne hc1,
        Function.update_of_ne hc2]
      exact h.follows c y hc0 hy
  · have hp' : update (update A.prevFree r.first false) r.last true c = true := hp
    rcases lay_cases hc with ⟨rfl, rfl⟩ | ⟨rfl, rfl⟩ | ⟨hc1, hc2, hc0⟩
    · rw [Function.update_of_ne hne, Function.update_self] at hp'
      cases hp'
    · exact ⟨r.first, _, lay_self, by omega, rfl⟩
    · rw [hfl] at hc2
      rw [Function.update_of_ne hc2, Function.update_of_ne hc1] at hp'
      obtain ⟨d, y', hd, hy', e⟩ := h.behind c y hc0 hp'
      exact ⟨d, y', hother d y' hd, hy', e⟩
  · show update (update A.free r.last false) r.first true c = false
    rcases lay_cases hc with ⟨rfl, e⟩ | ⟨rfl, _⟩ | ⟨hc1, hc2, hc0⟩
    · omega
    · rw [hfl, Function.update_of_ne (Ne.symm hne), Function.update_self]
    · rw [hfl] at hc2
      rw [Function.update_of_ne hc1, Function.update_of_ne hc2]
      exact h.sentinel c hc0

end FxRtos
