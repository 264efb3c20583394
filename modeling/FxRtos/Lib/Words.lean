/-
  File:      FxRtos/Lib/Words.lean
  Subject:   WORDS IN MEMORY. A memory of 32-bit words under their byte addresses, which are
             multiples of four; what several words written one after the other leave behind.

  * `storeWords`, `loadWords` -- the words from an address on, in ascending order.
  * `InBlock` -- the addresses of a block of words; it may wrap around at the end of the memory.
  * `loadWords_storeWords`, `storeWords_out` -- the words are read back as they were written, and
    all other words are as they were.
  * `storeWords_rel`, `storeWords_block` -- the same words written to two memories.
-/
import Mathlib.Algebra.Ring.Nat
import Mathlib.Logic.Function.Basic

namespace FxRtos.Lib

open Function (update)

abbrev Word := BitVec 32

/-- A word access needs an address that is a multiple of four. -/
def Aligned (a : Word) : Prop := a &&& 3#32 = 0#32

instance : DecidablePred Aligned := fun a => inferInstanceAs (Decidable (a &&& 3#32 = 0#32))

/-- The words `ws` written from `a` on. -/
def storeWords (m : Word → Word) (a : Word) : List Word → Word → Word
  | [] => m
  | w :: ws => storeWords (update m a w) (a + 4#32) ws

/-- The `n` words from `a` on. -/
def loadWords (m : Word → Word) (a : Word) : Nat → List Word
  | 0 => []
  | n + 1 => m a :: loadWords m (a + 4#32) n

/-- The addresses of the `n` words from `a` on. -/
def InBlock (a : Word) (n : Nat) (x : Word) : Prop := (x - a).toNat < 4 * n

instance (a : Word) (n : Nat) : DecidablePred (InBlock a n) :=
  fun x => inferInstanceAs (Decidable ((x - a).toNat < 4 * n))

variable {m m' : Word → Word} {a x : Word} {ws : List Word} {n : Nat}

theorem InBlock.tail (h : InBlock (a + 4#32) n x) : InBlock a (n + 1) x := by
  unfold InBlock at *
  bv_omega

theorem InBlock.head : InBlock a (n + 1) a := by
  unfold InBlock
  simp

theorem not_inBlock_next (hn : 4 * (n + 1) ≤ 2 ^ 32) : ¬ InBlock (a + 4#32) n a := by
  unfold InBlock
  bv_omega

theorem InBlock.mono {k : Nat} (h : InBlock a n x) (hk : n ≤ k) : InBlock a k x := by
  unfold InBlock at *
  omega

/-- A block within a block, `k` words from its start. -/
theorem InBlock.within {k l : Nat} (h : InBlock (a + BitVec.ofNat 32 (4 * k)) n x)
    (hn : k + n ≤ l) : InBlock a l x := by
  unfold InBlock at *
  bv_omega

theorem storeWords_out (hn : 4 * ws.length ≤ 2 ^ 32) (h : ¬ InBlock a ws.length x) :
    storeWords m a ws x = m x := by
  induction ws generalizing m a with
  | nil => rfl
  | cons w ws ih =>
    have hne : x ≠ a := fun e => h (e ▸ InBlock.head)
    have hle : 4 * (ws.length + 1) ≤ 2 ^ 32 := hn
    rw [storeWords, ih (by omega) fun hin => h hin.tail, Function.update_of_ne hne]

theorem loadWords_congr (hn : 4 * n ≤ 2 ^ 32) (h : ∀ x, InBlock a n x → m x = m' x) :
    loadWords m a n = loadWords m' a n := by
  induction n generalizing a with
  | zero => rfl
  | succ n ih =>
    rw [loadWords, loadWords, h a InBlock.head, ih (by omega) fun x hx => h x hx.tail]

theorem loadWords_storeWords (hn : 4 * ws.length ≤ 2 ^ 32) :
    loadWords (storeWords m a ws) a ws.length = ws := by
  induction ws generalizing m a with
  | nil => rfl
  | cons w ws ih =>
    have hle : 4 * (ws.length + 1) ≤ 2 ^ 32 := hn
    rw [storeWords, List.length_cons, loadWords, ih (by omega),
      storeWords_out (by omega) (not_inBlock_next hle), Function.update_self]

theorem addr_add (k l : Nat) :
    a + BitVec.ofNat 32 (4 * k) + BitVec.ofNat 32 (4 * l) = a + BitVec.ofNat 32 (4 * (k + l)) := by
  rw [BitVec.add_assoc, ← BitVec.ofNat_add, Nat.mul_add]

theorem loadWords_ext
    (h : ∀ k < n, m (a + BitVec.ofNat 32 (4 * k)) = m' (a + BitVec.ofNat 32 (4 * k))) :
    loadWords m a n = loadWords m' a n := by
  induction n generalizing a with
  | zero => rfl
  | succ n ih =>
    have h0 : m a = m' a := by simpa using h 0 (Nat.succ_pos n)
    rw [loadWords, loadWords, h0, ih fun k hk => ?_]
    have hk := h (1 + k) (by omega)
    rwa [← addr_add 1 k] at hk

theorem loadWords_length : (loadWords m a n).length = n := by
  induction n generalizing a with
  | zero => rfl
  | succ n ih => rw [loadWords, List.length_cons, ih]

theorem loadWords_append (k : Nat) :
    loadWords m a (k + n) = loadWords m a k ++ loadWords m (a + BitVec.ofNat 32 (4 * k)) n := by
  induction k generalizing a with
  | zero => simp [loadWords]
  | succ k ih =>
    rw [Nat.succ_add, loadWords, ih, loadWords, List.cons_append,
      show (4#32 : Word) = BitVec.ofNat 32 (4 * 1) from rfl, addr_add, Nat.add_comm 1]

/-- Words written below others, and read from there on. -/
theorem loadWords_below (us : List Word) (hn : 4 * (us.length + n) ≤ 2 ^ 32) :
    loadWords (storeWords m (a - BitVec.ofNat 32 (4 * us.length)) us)
        (a - BitVec.ofNat 32 (4 * us.length)) (us.length + n) = us ++ loadWords m a n := by
  have hlen : 4 * us.length ≤ 2 ^ 32 := by omega
  have hback : a - BitVec.ofNat 32 (4 * us.length) + BitVec.ofNat 32 (4 * us.length) = a :=
    BitVec.sub_add_cancel ..
  rw [loadWords_append, hback, loadWords_storeWords hlen]
  refine congrArg (us ++ ·) (loadWords_congr (by omega) fun x hx => storeWords_out hlen ?_)
  unfold InBlock at *
  bv_omega

/-! ## Alignment -/

theorem aligned_iff : Aligned a ↔ a.toNat % 4 = 0 := by
  have h : (a &&& 3#32).toNat = a.toNat % 4 := by
    rw [BitVec.toNat_and]
    exact Nat.and_two_pow_sub_one_eq_mod a.toNat 2
  rw [← h, Aligned, ← BitVec.toNat_inj]
  rfl

theorem Aligned.add (h : Aligned a) (k : Nat) : Aligned (a + BitVec.ofNat 32 (4 * k)) := by
  rw [aligned_iff] at *
  bv_omega

theorem Aligned.sub (h : Aligned a) (k : Nat) : Aligned (a - BitVec.ofNat 32 (4 * k)) := by
  rw [aligned_iff] at *
  bv_omega

theorem Aligned.ne_of_block (h : Aligned a) (hx : Aligned x) (hin : InBlock a (n + 1) x)
    (hne : x ≠ a) : InBlock (a + 4#32) n x := by
  rw [aligned_iff] at *
  unfold InBlock at *
  bv_omega

theorem loadWords_aligned (ha : Aligned a) (h : ∀ x, InBlock a n x → Aligned x → m x = m' x) :
    loadWords m a n = loadWords m' a n := by
  induction n generalizing a with
  | zero => rfl
  | succ n ih =>
    rw [loadWords, loadWords, h a InBlock.head ha,
      ih (ha.add 1) fun x hx => h x hx.tail]

/-- What holds of a word in the two memories holds after both are written. -/
theorem storeWords_rel {P : Word → Word → Prop} (hP : ∀ v, P v v) (h : P (m x) (m' x)) :
    P (storeWords m a ws x) (storeWords m' a ws x) := by
  induction ws generalizing m m' a with
  | nil => exact h
  | cons w ws ih =>
    refine ih ?_
    by_cases hx : x = a
    · rw [hx, Function.update_self, Function.update_self]
      exact hP w
    · rwa [Function.update_of_ne hx, Function.update_of_ne hx]

/-- A word written before or after others. -/
theorem update_storeWords_out {v : Word} (hn : 4 * ws.length ≤ 2 ^ 32) {b : Word}
    (hb : ¬ InBlock a ws.length b) :
    update (storeWords m a ws) b v = storeWords (update m b v) a ws := by
  funext x
  by_cases hx : x = b
  · rw [hx, Function.update_self, storeWords_out hn hb, Function.update_self]
  · rw [Function.update_of_ne hx]
    exact storeWords_rel (P := fun v w => v = w) (fun _ => rfl) (Function.update_of_ne hx v m).symm

/-- One of the words written over. -/
theorem update_storeWords {v : Word} {i : Nat} (hn : 4 * ws.length ≤ 2 ^ 32) (hi : i < ws.length) :
    update (storeWords m a ws) (a + BitVec.ofNat 32 (4 * i)) v = storeWords m a (ws.set i v) := by
  induction ws generalizing m a i with
  | nil => exact (Nat.not_lt_zero _ hi).elim
  | cons w ws ih =>
    have hle : 4 * (ws.length + 1) ≤ 2 ^ 32 := hn
    cases i with
    | zero =>
      have ha : a + BitVec.ofNat 32 (4 * 0) = a := BitVec.add_zero a
      rw [ha, storeWords, update_storeWords_out (by omega) (not_inBlock_next hle),
        Function.update_idem]
      rfl
    | succ i =>
      have ha : a + BitVec.ofNat 32 (4 * (i + 1)) = a + 4#32 + BitVec.ofNat 32 (4 * i) := by
        rw [Nat.add_comm i, ← addr_add 1 i]
      rw [ha, storeWords, ih (by omega) (Nat.lt_of_succ_lt_succ hi)]
      rfl

/-- A word that is written does not depend on what was there. -/
theorem storeWords_block (ha : Aligned a) (hx : Aligned x) (h : InBlock a ws.length x) :
    storeWords m a ws x = storeWords m' a ws x := by
  induction ws generalizing m m' a with
  | nil => exact (Nat.not_lt_zero _ h).elim
  | cons w ws ih =>
    rw [storeWords, storeWords]
    by_cases he : x = a
    · refine storeWords_rel (P := fun v v' => v = v') (fun _ => rfl) ?_
      rw [he, Function.update_self, Function.update_self]
    · exact ih (ha.add 1) (ha.ne_of_block hx h he)

end FxRtos.Lib
