/-
  File:      FxRtos/Lib/Tiles.lean
  Subject:   RUNS OF TILES. A tile is a head of `h` cells and a body behind it; one tile stands
             directly behind the other, and a run of them ends with a tile without a body.

  * `Tiles` -- no two tiles overlap, and behind every tile with a body there is another.
  * `cut`, `fuse`, `lay` -- one tile cut into two, two neighbours made one, a new run laid on
    free ground; each keeps `Tiles`.
  * `Walk` -- the tiles passed from a tile to the end of its run; `Tiles.exists_walk`: there is
    such a walk, and it leaves no tile out.
-/
import Mathlib.Logic.Function.Basic
import Mathlib.Data.Option.Basic

namespace FxRtos.Lib

open Function (update)

/-- `T a` is the length of the body of the tile at `a`. -/
structure Tiles (h : Nat) (T : Nat → Option Nat) : Prop where
  apart : ∀ a b n m, T a = some n → T b = some m → a < b → a + h + n ≤ b
  next : ∀ a n, T a = some n → 0 < n → ∃ m, T (a + h + n) = some m

/-- The tile at `a` cut into a tile of `k` and one of `m` behind it. -/
def cut (h : Nat) (T : Nat → Option Nat) (a k m : Nat) : Nat → Option Nat :=
  update (update T (a + h + k) (some m)) a (some k)

/-- The tiles of `n` at `a` and of `m` behind it as one. -/
def fuse (h : Nat) (T : Nat → Option Nat) (a n m : Nat) : Nat → Option Nat :=
  update (update T (a + h + n) none) a (some (n + h + m))

/-- A new run: a tile of `n` at `a`, and its end. -/
def lay (h : Nat) (T : Nat → Option Nat) (a n : Nat) : Nat → Option Nat :=
  update (update T (a + h + n) (some 0)) a (some n)

variable {h a b c k n m x : Nat} {T : Nat → Option Nat}

/-! ## 1. What the operations leave -/

theorem update_cases {α β : Type*} [DecidableEq α] {f : α → Option β} {a c : α} {v : Option β}
    {x : β} (e : update f a v c = some x) : (c = a ∧ v = some x) ∨ (c ≠ a ∧ f c = some x) := by
  by_cases hc : c = a
  · subst hc
    rw [Function.update_self] at e
    exact Or.inl ⟨rfl, e⟩
  · rw [Function.update_of_ne hc] at e
    exact Or.inr ⟨hc, e⟩

theorem cut_cases (e : cut h T a k m c = some x) :
    (c = a ∧ x = k) ∨ (c = a + h + k ∧ x = m) ∨ (c ≠ a ∧ c ≠ a + h + k ∧ T c = some x) := by
  rcases update_cases e with ⟨rfl, e1⟩ | ⟨hc, e1⟩
  · exact Or.inl ⟨rfl, (Option.some.inj e1).symm⟩
  · rcases update_cases e1 with ⟨rfl, e2⟩ | ⟨hc', e2⟩
    · exact Or.inr (Or.inl ⟨rfl, (Option.some.inj e2).symm⟩)
    · exact Or.inr (Or.inr ⟨hc, hc', e2⟩)

theorem cut_self : cut h T a k m a = some k := Function.update_self ..

theorem cut_rest (hh : 0 < h) : cut h T a k m (a + h + k) = some m := by
  unfold cut
  rw [Function.update_of_ne (by omega), Function.update_self]

theorem cut_other (hc : c ≠ a) (hc' : c ≠ a + h + k) : cut h T a k m c = T c := by
  unfold cut
  rw [Function.update_of_ne hc, Function.update_of_ne hc']

theorem fuse_cases (e : fuse h T a n m c = some x) :
    (c = a ∧ x = n + h + m) ∨ (c ≠ a ∧ c ≠ a + h + n ∧ T c = some x) := by
  rcases update_cases e with ⟨rfl, e1⟩ | ⟨hc, e1⟩
  · exact Or.inl ⟨rfl, (Option.some.inj e1).symm⟩
  · rcases update_cases e1 with ⟨_, e2⟩ | ⟨hc', e2⟩
    · cases e2
    · exact Or.inr ⟨hc, hc', e2⟩

theorem fuse_self : fuse h T a n m a = some (n + h + m) := Function.update_self ..

theorem fuse_other (hc : c ≠ a) (hc' : c ≠ a + h + n) : fuse h T a n m c = T c := by
  unfold fuse
  rw [Function.update_of_ne hc, Function.update_of_ne hc']

theorem lay_cases (e : lay h T a n c = some x) :
    (c = a ∧ x = n) ∨ (c = a + h + n ∧ x = 0) ∨ (c ≠ a ∧ c ≠ a + h + n ∧ T c = some x) :=
  cut_cases e

theorem lay_self : lay h T a n a = some n := cut_self

theorem lay_end (hh : 0 < h) : lay h T a n (a + h + n) = some 0 := cut_rest hh

theorem lay_other (hc : c ≠ a) (hc' : c ≠ a + h + n) : lay h T a n c = T c := cut_other hc hc'

/-! ## 2. Tiles stay tiles -/

theorem tiles_empty : Tiles h fun _ => none := ⟨nofun, nofun⟩

/-- A cell belongs to one tile. -/
theorem Tiles.owner (hT : Tiles h T) (ha : T a = some n) (hb : T b = some m) (hax : a ≤ x)
    (hxa : x < a + h + n) (hbx : b ≤ x) (hxb : x < b + h + m) : a = b := by
  rcases Nat.lt_trichotomy a b with hlt | rfl | hlt
  · have := hT.apart a b n m ha hb hlt
    omega
  · rfl
  · have := hT.apart b a m n hb ha hlt
    omega

/-- A tile other than the one at `a` begins behind it or ends before it. -/
theorem Tiles.beside (hT : Tiles h T) (ha : T a = some n) (hb : T b = some m) (hne : b ≠ a) :
    b + h + m ≤ a ∨ a + h + n ≤ b := by
  rcases Nat.lt_or_gt_of_ne hne with hlt | hlt
  · exact Or.inl (hT.apart b a m n hb ha hlt)
  · exact Or.inr (hT.apart a b n m ha hb hlt)

theorem Tiles.cut (hT : Tiles h T) (ha : T a = some (k + h + m)) (hh : 0 < h) (hm : 0 < m) :
    Tiles h (cut h T a k m) := by
  refine ⟨fun c d x y hc hd hlt => ?_, fun c x hc hx => ?_⟩
  · rcases cut_cases hc with ⟨rfl, rfl⟩ | ⟨rfl, rfl⟩ | ⟨hc1, hc2, hc0⟩ <;>
      rcases cut_cases hd with ⟨rfl, rfl⟩ | ⟨rfl, rfl⟩ | ⟨hd1, hd2, hd0⟩
    · omega
    · omega
    · have := hT.apart c d _ y ha hd0 hlt
      omega
    · omega
    · omega
    · have := hT.beside ha hd0 hd1
      omega
    · have := hT.apart c d x _ hc0 ha hlt
      omega
    · have := hT.beside ha hc0 hc1
      omega
    · exact hT.apart c d x y hc0 hd0 hlt
  · rcases cut_cases hc with ⟨rfl, rfl⟩ | ⟨rfl, rfl⟩ | ⟨hc1, hc2, hc0⟩
    · exact ⟨m, cut_rest hh⟩
    · obtain ⟨y, hy⟩ := hT.next a _ ha (by omega)
      rw [show a + h + (k + h + x) = a + h + k + h + x by omega] at hy
      exact ⟨y, by rw [cut_other (by omega) (by omega)]; exact hy⟩
    · obtain ⟨y, hy⟩ := hT.next c x hc0 hx
      by_cases e : c + h + x = a
      · exact ⟨k, by rw [e]; exact cut_self⟩
      · -- behind another tile there is no cut inside the old one
        have := hT.beside ha hc0 hc1
        exact ⟨y, by rw [cut_other e (by omega)]; exact hy⟩

theorem Tiles.fuse (hT : Tiles h T) (ha : T a = some n) (hb : T (a + h + n) = some m) (hh : 0 < h)
    (hm : 0 < m) : Tiles h (fuse h T a n m) := by
  refine ⟨fun c d x y hc hd hlt => ?_, fun c x hc hx => ?_⟩
  · rcases fuse_cases hc with ⟨rfl, rfl⟩ | ⟨hc1, hc2, hc0⟩ <;>
      rcases fuse_cases hd with ⟨rfl, rfl⟩ | ⟨hd1, hd2, hd0⟩
    · omega
    · have h1 := hT.apart c d n y ha hd0 hlt
      have h2 := hT.beside hb hd0 hd2
      omega
    · exact hT.apart c d x n hc0 ha hlt
    · exact hT.apart c d x y hc0 hd0 hlt
  · rcases fuse_cases hc with ⟨rfl, rfl⟩ | ⟨hc1, hc2, hc0⟩
    · obtain ⟨y, hy⟩ := hT.next _ _ hb hm
      rw [show c + h + n + h + m = c + h + (n + h + m) by omega] at hy
      exact ⟨y, by rw [fuse_other (by omega) (by omega)]; exact hy⟩
    · obtain ⟨y, hy⟩ := hT.next c x hc0 hx
      by_cases e : c + h + x = a
      · exact ⟨_, by rw [e]; exact fuse_self⟩
      · -- only the tile at `a` has the swallowed one behind it
        have h1 := hT.beside ha hc0 hc1
        have h2 := hT.beside hb hc0 hc2
        exact ⟨y, by rw [fuse_other e (by omega)]; exact hy⟩

theorem Tiles.lay (hT : Tiles h T) (hh : 0 < h)
    (hfree : ∀ b m, T b = some m → b + h + m ≤ a ∨ a + h + n + h ≤ b)
    (hbehind : ∀ b m, T b = some m → 0 < m → b + h + m ≠ a) : Tiles h (lay h T a n) := by
  refine ⟨fun c d x y hc hd hlt => ?_, fun c x hc hx => ?_⟩
  · rcases lay_cases hc with ⟨rfl, rfl⟩ | ⟨rfl, rfl⟩ | ⟨hc1, hc2, hc0⟩ <;>
      rcases lay_cases hd with ⟨rfl, rfl⟩ | ⟨rfl, rfl⟩ | ⟨hd1, hd2, hd0⟩
    · omega
    · omega
    · have := hfree d y hd0
      omega
    · omega
    · omega
    · have := hfree d y hd0
      omega
    · have := hfree c x hc0
      omega
    · have := hfree c x hc0
      omega
    · exact hT.apart c d x y hc0 hd0 hlt
  · rcases lay_cases hc with ⟨rfl, rfl⟩ | ⟨rfl, rfl⟩ | ⟨hc1, hc2, hc0⟩
    · exact ⟨0, lay_end hh⟩
    · omega
    · obtain ⟨y, hy⟩ := hT.next c x hc0 hx
      have := hfree c x hc0
      have := hfree _ y hy
      exact ⟨y, by rw [lay_other (hbehind c x hc0 hx) (by omega)]; exact hy⟩

/-! ## 3. Walks -/

/-- From the tile at `a` past the tiles `l` to the end `z` of the run. -/
inductive Walk (h : Nat) (T : Nat → Option Nat) : Nat → List Nat → Nat → Prop where
  | stop {z : Nat} (hz : T z = some 0) : Walk h T z [] z
  | tile {a n z : Nat} {l : List Nat} (ha : T a = some n) (hn : 0 < n)
      (hw : Walk h T (a + h + n) l z) : Walk h T a (a :: l) z

/-- What is passed is a tile with a body. -/
theorem Walk.mem {z : Nat} {l : List Nat} (w : Walk h T a l z) (hc : c ∈ l) :
    ∃ n, T c = some n ∧ 0 < n := by
  induction w with
  | stop _ => cases hc
  | tile ha hn _ ih =>
    rcases List.mem_cons.mp hc with rfl | hc
    · exact ⟨_, ha, hn⟩
    · exact ih hc

/-- A walk over other tiles that read the same. -/
theorem Walk.map {z : Nat} {l : List Nat} {T' : Nat → Option Nat} (w : Walk h T a l z)
    (hT : ∀ b n, T b = some n → T' b = some n) : Walk h T' a l z := by
  induction w with
  | stop hz => exact .stop (hT _ _ hz)
  | tile ha hn _ ih => exact .tile (hT _ _ ha) hn ih

/-- A walk over readings that agree on the tiles, from a tile on, is one over the tiles. -/
theorem Tiles.walk_of_reads (hT : Tiles h T) {z : Nat} {l : List Nat} {T' : Nat → Option Nat}
    (hr : ∀ b n, T b = some n → T' b = some n) (w : Walk h T' a l z) (ha : T a = some n) :
    Walk h T a l z := by
  induction w generalizing n with
  | stop hz =>
    obtain rfl := Option.some.inj ((hr _ _ ha).symm.trans hz)
    exact .stop ha
  | tile hb hm _ ih =>
    obtain rfl := Option.some.inj ((hr _ _ ha).symm.trans hb)
    obtain ⟨m, hnext⟩ := hT.next _ _ ha hm
    exact .tile ha hm (ih hnext)

/-- **There is a walk to the end of the run**, and every tile up to there is passed. -/
theorem Tiles.exists_walk (hT : Tiles h T) (hh : 0 < h) {z : Nat} (hz : T z = some 0)
    (ha : T a = some n) (haz : a ≤ z) (hend : ∀ c, T c = some 0 → a ≤ c → c ≤ z → c = z) :
    ∃ l, Walk h T a l z ∧ ∀ c m, T c = some m → a ≤ c → c < z → c ∈ l := by
  -- the walk gets closer to `z` with every tile
  induction hd : z - a using Nat.strongRecOn generalizing a n with
  | _ d ih =>
  rcases Nat.eq_zero_or_pos n with rfl | hn
  · obtain rfl := hend a ha (Nat.le_refl a) haz
    exact ⟨[], .stop hz, fun c m _ h1 h2 => absurd h1 (Nat.not_le.mpr h2)⟩
  · have hlt : a < z := by
      refine Nat.lt_of_le_of_ne haz fun e => ?_
      rw [e, hz] at ha
      cases ha
      cases hn
    have hle := hT.apart a z n 0 ha hz hlt
    obtain ⟨m, hm⟩ := hT.next a n ha hn
    obtain ⟨l, hw, hl⟩ := ih (z - (a + h + n)) (by omega) hm hle
      (fun c hc h1 h2 => hend c hc (by omega) h2) rfl
    refine ⟨a :: l, .tile ha hn hw, fun c x hc h1 h2 => ?_⟩
    rcases Nat.lt_or_eq_of_le h1 with hac | rfl
    · exact List.mem_cons_of_mem _ (hl c x hc (hT.apart a c n x ha hc hac) h2)
    · exact List.mem_cons_self

end FxRtos.Lib
