/-
  File:      FxRtos/Objects/PoolPartition.lean
  Subject:   THE BLOCKS OF A POOL. Every block of the region is free, not carved yet, handed to a
             thread whose call has not returned, or in the hands of a caller.

  * `PoolNotes` -- the pointers handed and not returned yet, and the ones returned and not released.
  * `ReleasesLive` -- what is released is a pointer that a call has returned, and not released
    since.
  * `PoolOk` -- the blocks are divided among these, and the count of free ones is right.
  * `pool_partition` -- in every run; so live allocations are aligned, apart and inside the region.
-/
import FxRtos.Kernel.Grants
import FxRtos.Lib.Carve
import FxRtos.Objects.BlockPool

namespace FxRtos

open Function (update)
open Lib

set_option linter.unusedSectionVars false

variable {T E : Type} [DecidableEq T] [DecidableEq E]

abbrev PoolSys (T E : Type) := Sys T E Unit Unit (FxBlockPool T) (WaitArgs E)

/-! ## 1. The code, by what it hands out -/

/-- The checks of `fx_block_pool_init`, and a rounding that does not wrap. -/
structure PoolInit (basePtr sz blkSz : Nat) : Prop where
  base : basePtr ≠ 0
  pos : 0 < blkSz
  align : basePtr % uintptrSz = 0
  fits : uintptrSz + (blkSz + uintptrSz - 1) / uintptrSz * uintptrSz ≤ sz
  header : 2 * uintptrSz ≤ uintptrSz + (blkSz + uintptrSz - 1) / uintptrSz * uintptrSz
  noWrap : blkSz + 2 * uintptrSz ≤ UInt32.size

/-- `fx_block_pool_avail_blocks`. -/
def fxBlockPoolAvailBlocks (bp : FxBlockPool T) : Nat := bp.freeBlocksNum

/-- The block that a test takes. -/
def FxBlockPool.next (bp : FxBlockPool T) : Option Nat :=
  match bp.freeBlocks with
  | block :: _ => some block
  | [] => if bp.sz ≤ bp.remainingSz then some bp.base else none

/-- The blocks not carved yet. -/
def FxBlockPool.uncarved (bp : FxBlockPool T) : List Nat :=
  carve bp.base bp.sz (bp.remainingSz / bp.sz)

/-- The pointer that an operation releases, and the policy. -/
def PoolOp.releases (bp : FxBlockPool T) : PoolOp → Option (Nat × SyncPolicy)
  | .deinit => none
  | .releaseInternal blockPtr p => some (blockPtr, p)
  | .release blockPtr => some (blockPtr, .ofWord bp.policy)

def fxBlockPoolReleaseWakes (p : SyncPolicy) (k : PoolKern T E) : List T :=
  match fxSyncWaitBlockGet k (.obj ()) p with
  | some wb => [wb.1]
  | none => []

def fxBlockPoolWakers (checks : Bool) :
    Wakers T E Unit Unit (FxBlockPool T) (WaitArgs E) PoolOp where
  test _ _ _ := []
  op p s := if checks ∧ s.2.valid = false then [] else
    match p.releases s.2 with
    | some (_, policy) => fxBlockPoolReleaseWakes policy s.1
    | none => []

section Code

variable {checks wait : Bool} {me : T} {k : PoolKern T E} {bp : FxBlockPool T} {p : SyncPolicy}
  {ptr block : Nat}

theorem PoolOp.run_releases {op : PoolOp} (h : op.releases bp = some (ptr, p)) :
    op.run (k, bp) = fxBlockPoolReleaseInternal ptr p (k, bp) := by
  cases op with
  | deinit => cases h
  | releaseInternal => cases h; rfl
  | release => cases h; rfl

theorem fxBlockPoolTest_none (h : bp.next = none) : fxBlockPoolTest me wait (k, bp) =
    (false, if wait then fxSyncWaitStart k (.obj ()) (me, .main) else k, bp) := by
  unfold FxBlockPool.next at h
  unfold fxBlockPoolTest
  split at h
  · cases h
  · rename_i hfree
    split at h
    · cases h
    · rename_i hsz
      simp only [hfree, if_neg hsz]

/-- A test that takes a block stores its pointer, and leaves the kernel alone. -/
theorem fxBlockPoolTest_some (h : bp.next = some block) :
    (fxBlockPoolTest me wait (k, bp)).1 = true ∧ (fxBlockPoolTest me wait (k, bp)).2.1 = k ∧
      (fxBlockPoolTest me wait (k, bp)).2.2.storage =
        update bp.storage me (block + uintptrSz) := by
  unfold FxBlockPool.next at h
  unfold fxBlockPoolTest
  split at h
  · rename_i hfree
    cases h
    simp only [hfree]
    exact ⟨trivial, trivial, rfl⟩
  · rename_i hfree
    split at h
    · rename_i hsz
      cases h
      simp only [hfree, if_pos hsz]
      exact ⟨trivial, trivial, rfl⟩
    · cases h

theorem fxBlockPoolTest_fst (me : T) (wait : Bool) (k : PoolKern T E) (bp : FxBlockPool T) :
    (fxBlockPoolTest me wait (k, bp)).1 = bp.next.isSome := by
  cases h : bp.next with
  | none => rw [fxBlockPoolTest_none h]; rfl
  | some block => exact (fxBlockPoolTest_some h).1

theorem fxBlockPoolRelease_wakes (ptr : Nat) (p : SyncPolicy) (k : PoolKern T E)
    (bp : FxBlockPool T) : Wakes NoOne k (fxBlockPoolReleaseWakes p k)
      (fxBlockPoolReleaseInternal ptr p (k, bp)).1 := by
  unfold fxBlockPoolReleaseWakes fxBlockPoolReleaseInternal
  dsimp only
  cases hget : fxSyncWaitBlockGet k (.obj ()) p with
  | some wb => exact Wakes.one hget not_false
  | none => exact .refl

theorem fxBlockPool_plain (checks : Bool) :
    (fxBlockPool checks : WaitObject T E _ _ _ _ _).Plain (fxBlockPoolWakers checks) where
  lawful := fxBlockPool_lawful checks
  isObj _ := trivial
  passed t c wait s _ h := by
    obtain ⟨k, bp⟩ := s
    change (fxBlockPoolTest t wait (k, bp)).1 = true at h
    show Wakes _ k [] (fxBlockPoolTest t wait (k, bp)).2.1
    cases hn : bp.next with
    | none =>
      rw [fxBlockPoolTest_none hn] at h
      cases h
    | some block =>
      rw [(fxBlockPoolTest_some hn).2.1]
      exact .refl
  failed t c wait s h := by
    obtain ⟨k, bp⟩ := s
    change (fxBlockPoolTest t wait (k, bp)).1 = false at h
    show (fxBlockPoolTest t wait (k, bp)).2.1 = _
    cases hn : bp.next with
    | none =>
      rw [fxBlockPoolTest_none hn]
      rfl
    | some block =>
      rw [(fxBlockPoolTest_some hn).1] at h
      cases h
  after _ _ _ _ := ⟨rfl, rfl⟩
  op p s s' h := by
    obtain ⟨k, bp⟩ := s
    cases h
    show Wakes NoOne k (if checks ∧ bp.valid = false then [] else _)
      (if checks ∧ bp.valid = false then (k, bp) else p.run (k, bp)).1
    split
    · exact .refl
    · cases hrel : p.releases bp with
      | none =>
        cases p with
        | deinit => exact Wakes.dropAll k ()
        | _ => cases hrel
      | some r =>
        rw [PoolOp.run_releases hrel]
        exact fxBlockPoolRelease_wakes r.1 r.2 k bp

end Code

/-! ## 2. The notes -/

/-- The pointers handed to threads whose calls have not returned yet, and those that calls have
    returned and that were not released since. -/
structure PoolNotes (T : Type) where
  handed : List (T × Nat)
  live : List (T × Nat)

/-- A block taken for a thread. -/
def PoolNotes.hand (g : PoolNotes T) (t : T) (block : Option Nat) : PoolNotes T :=
  match block with
  | some block => { g with handed := (t, block + uintptrSz) :: g.handed }
  | none => g

/-- A call returns the pointer it was handed. -/
def PoolNotes.ret (g : PoolNotes T) (t : T) (ptr : Nat) : PoolNotes T :=
  ⟨g.handed.erase (t, ptr), (t, ptr) :: g.live⟩

/-- A pointer released, to the waiter that the policy selects or to nobody. -/
def PoolNotes.release (g : PoolNotes T) (ptr : Nat) (wb : Option (Blk T)) : PoolNotes T where
  handed := match wb with
    | some wb => (wb.1, ptr) :: g.handed
    | none => g.handed
  live := g.live.eraseP fun x => x.2 = ptr

def poolSection (t : T) (bp : FxBlockPool T) (g : PoolNotes T) :
    Pc T E (WaitArgs E) → PoolNotes T
  | .inCall (.enter _) _ => g.hand t bp.next
  | .inCall .poll _ => g.hand t bp.next
  | .inCall (.ret .ok) _ => g.ret t (bp.storage t)
  | _ => g

def poolNote (checks : Bool) (a : Act T E (WaitArgs E) PoolOp) (s : PoolSys T E)
    (g : PoolNotes T) : PoolNotes T :=
  match a with
  | .go t => poolSection t s.obj g (s.pc t)
  | .op p =>
    if checks ∧ s.obj.valid = false then g
    else match p.releases s.obj with
      | some (ptr, policy) => g.release ptr (fxSyncWaitBlockGet s.kern (.obj ()) policy)
      | none => g
  | _ => g

/-- The pointers out of the pool. -/
def PoolNotes.out (g : PoolNotes T) : List Nat := (g.handed ++ g.live).map Prod.snd

/-- What is released is a pointer that a call has returned, and that was not released since. -/
def ReleasesLive (w : PoolSys T E × PoolNotes T) (a : Act T E (WaitArgs E) PoolOp) : Prop :=
  match a with
  | .op (.releaseInternal ptr _) => ptr ∈ w.2.live.map Prod.snd
  | .op (.release ptr) => ptr ∈ w.2.live.map Prod.snd
  | _ => True

instance (w : PoolSys T E × PoolNotes T) (a : Act T E (WaitArgs E) PoolOp) :
    Decidable (ReleasesLive w a) := by
  cases a with
  | op p => cases p <;> unfold ReleasesLive <;> infer_instance
  | _ => unfold ReleasesLive; infer_instance

/-! ## 3. The blocks -/

/-- The pointers to the free blocks, to those not carved yet and those that are out are the
    pointers to the blocks of the region, and the free ones are counted. -/
structure PoolPart (basePtr sz : Nat) (bp : FxBlockPool T) (out : List Nat) : Prop where
  perm : ((bp.freeBlocks ++ bp.uncarved).map (· + uintptrSz) ++ out).Perm
    ((carve basePtr bp.sz (sz / bp.sz)).map (· + uintptrSz))
  num : bp.freeBlocksNum = bp.freeBlocks.length + bp.remainingSz / bp.sz
  pos : 0 < bp.sz

section Bloecke

variable {basePtr sz : Nat} {bp bp' : FxBlockPool T} {out out' : List Nat} {me : T}
  {k : PoolKern T E} {wait : Bool} {block ptr : Nat} {p : SyncPolicy}

theorem PoolPart.congr (h : PoolPart basePtr sz bp out) (ho : out.Perm out') :
    PoolPart basePtr sz bp out' :=
  ⟨(ho.symm.append_left _).trans h.perm, h.num, h.pos⟩

/-- The caller's variables do not matter. -/
theorem PoolPart.same (h : PoolPart basePtr sz bp out) (hf : bp'.freeBlocks = bp.freeBlocks)
    (hn : bp'.freeBlocksNum = bp.freeBlocksNum) (hs : bp'.sz = bp.sz) (hb : bp'.base = bp.base)
    (hr : bp'.remainingSz = bp.remainingSz) : PoolPart basePtr sz bp' out := by
  refine ⟨?_, by rw [hn, hf, hr, hs]; exact h.num, by rw [hs]; exact h.pos⟩
  unfold FxBlockPool.uncarved
  rw [hf, hs, hb, hr]
  exact h.perm

/-- A block taken is out. -/
theorem PoolPart.take (me : T) (wait : Bool) (k : PoolKern T E) (h : PoolPart basePtr sz bp out)
    (hn : bp.next = some block) :
    PoolPart basePtr sz (fxBlockPoolTest me wait (k, bp)).2.2 ((block + uintptrSz) :: out) := by
  obtain ⟨hperm, hnum, hpos⟩ := h
  unfold FxBlockPool.next at hn
  unfold fxBlockPoolTest
  split at hn
  · rename_i rest hfree
    cases hn
    simp only [hfree]
    refine ⟨?_, ?_, hpos⟩
    · -- the first free block
      refine List.perm_middle.trans (List.Perm.trans ?_ hperm)
      rw [hfree]
      exact List.Perm.refl _
    · show bp.freeBlocksNum - 1 = rest.length + bp.remainingSz / bp.sz
      rw [hnum, hfree, List.length_cons, Nat.add_right_comm, Nat.add_sub_cancel]
  · rename_i hfree
    split at hn
    · rename_i hsz
      cases hn
      simp only [hfree, if_pos hsz]
      have hdiv : bp.remainingSz / bp.sz = (bp.remainingSz - bp.sz) / bp.sz + 1 := by
        rw [Nat.div_eq_sub_div hpos hsz]
      refine ⟨?_, ?_, hpos⟩
      · -- the block carved off
        refine List.perm_middle.trans (List.Perm.trans ?_ hperm)
        unfold FxBlockPool.uncarved
        rw [hfree, hdiv, carve_succ]
        exact List.Perm.refl _
      · show bp.freeBlocksNum - 1 = 0 + (bp.remainingSz - bp.sz) / bp.sz
        rw [hnum, hdiv, hfree]
        exact Nat.add_sub_cancel (0 + _) 1
    · cases hn

/-- A pointer that is out points behind the header of a block. -/
theorem PoolPart.header (h : PoolPart basePtr sz bp out) (hm : ptr ∈ out) : uintptrSz ≤ ptr := by
  have hm' := h.perm.subset (List.mem_append_right _ hm)
  obtain ⟨block, _, rfl⟩ := List.mem_map.mp hm'
  exact Nat.le_add_left ..

/-- A block released to nobody is free. -/
theorem PoolPart.free (h : PoolPart basePtr sz bp (ptr :: out))
    (hget : fxSyncWaitBlockGet k (.obj ()) p = none) :
    PoolPart basePtr sz (fxBlockPoolReleaseInternal ptr p (k, bp)).2 out := by
  have hhdr := h.header List.mem_cons_self
  obtain ⟨hperm, hnum, hpos⟩ := h
  unfold fxBlockPoolReleaseInternal
  simp only [hget]
  refine ⟨?_, ?_, hpos⟩
  · refine List.Perm.trans ?_ hperm
    show ((ptr - uintptrSz + uintptrSz) :: ((bp.freeBlocks ++ bp.uncarved).map _ ++ out)).Perm _
    rw [Nat.sub_add_cancel hhdr]
    exact List.perm_middle.symm
  · show bp.freeBlocksNum + 1 = bp.freeBlocks.length + 1 + _
    rw [hnum]
    exact Nat.add_right_comm ..

/-- A block released to a waiter stays out. -/
theorem PoolPart.handOver {wb : Blk T} (h : PoolPart basePtr sz bp out)
    (hget : fxSyncWaitBlockGet k (.obj ()) p = some wb) :
    PoolPart basePtr sz (fxBlockPoolReleaseInternal ptr p (k, bp)).2 out := by
  unfold fxBlockPoolReleaseInternal
  simp only [hget]
  exact h.same rfl rfl rfl rfl rfl

theorem PoolPart.init (storage : FxBlockPool T) {blkSz : Nat} :
    PoolPart basePtr sz (fxBlockPoolInit storage basePtr sz blkSz) [] := by
  refine ⟨?_, (Nat.zero_add _).symm, Nat.add_pos_left (by decide) _⟩
  rw [List.append_nil]
  exact List.Perm.refl _

end Bloecke

/-! ## 4. The system -/

section Notiz

variable {g : PoolNotes T} {t : T} {block ptr : Nat} {wb : Blk T}

theorem out_ret (h : (t, ptr) ∈ g.handed) : g.out.Perm (g.ret t ptr).out := by
  refine List.Perm.map _ ?_
  refine ((List.perm_cons_erase h).append_right _).trans ?_
  exact List.perm_middle.symm

theorem live_erase (h : ptr ∈ g.live.map Prod.snd) :
    (g.live.map Prod.snd).Perm (ptr :: (g.live.eraseP fun x => x.2 = ptr).map Prod.snd) := by
  obtain ⟨x, hx, rfl⟩ := List.mem_map.mp h
  obtain ⟨a, l1, l2, _, ha, hl, he⟩ :=
    List.exists_of_eraseP (p := fun y => y.2 = x.2) hx (decide_eq_true rfl)
  rw [he, hl, List.map_append, List.map_append, List.map_cons, of_decide_eq_true ha]
  exact List.perm_middle

theorem out_release_none (h : ptr ∈ g.live.map Prod.snd) :
    g.out.Perm (ptr :: (g.release ptr none).out) := by
  unfold PoolNotes.out
  rw [List.map_append, List.map_append]
  exact ((live_erase h).append_left _).trans List.perm_middle

theorem out_release_some (h : ptr ∈ g.live.map Prod.snd) :
    g.out.Perm (g.release ptr (some wb)).out := by
  refine (out_release_none h).trans ?_
  exact List.Perm.refl _

end Notiz

/-- The pointers handed to a thread. -/
def PoolNotes.handedTo (g : PoolNotes T) (t : T) : List (T × Nat) :=
  g.handed.filter fun x => x.1 = t

/-- The blocks are where the notes say, and a call that has been granted was handed the pointer
    in its variable. -/
structure PoolOk (basePtr sz full : Nat) (s : PoolSys T E) (g : PoolNotes T) : Prop where
  part : PoolPart basePtr sz s.obj g.out
  full : s.obj.sz = full
  handed : ∀ t, s.pc t ≠ .gone →
    g.handedTo t = List.replicate (s.grants t) (t, s.obj.storage t)

section Lauf

variable {cfg : Config T} {checks : Bool} {s s' : PoolSys T E} {t u : T} {g : PoolNotes T}
  {a : Act T E (WaitArgs E) PoolOp} {basePtr sz full : Nat}

theorem handedTo_hand {block : Nat} : (g.hand t (some block)).handedTo u =
    if t = u then (t, block + uintptrSz) :: g.handedTo u else g.handedTo u := by
  show (((t, block + uintptrSz) :: g.handed).filter fun x => x.1 = u) = _
  rw [List.filter_cons]
  simp only [decide_eq_true_eq]
  rfl

theorem handedTo_ret {ptr : Nat} : (g.ret t ptr).handedTo u = (g.handedTo u).erase (t, ptr) :=
  List.erase_filter.symm

theorem poolNote_quiet (h : ¬ s.RunsCode a) : poolNote checks a s g = g := by
  cases a with
  | go t =>
    change ¬ (s.pc t).runsCode at h
    show poolSection t s.obj g (s.pc t) = g
    cases hpc : s.pc t with
    | inCall stage c =>
      rw [hpc] at h
      cases stage with
      | enter ab => exact absurd trivial h
      | poll => exact absurd trivial h
      | ret r => exact absurd trivial h
      | _ => rfl
    | _ => rfl
  | op p => exact absurd trivial h
  | _ => rfl

/-- One more thread is handed a pointer. -/
theorem handed_one {storage : T → Nat} {ptr : Nat} {w : T} {l : List (T × Nat)} {n : Nat}
    (hold : l = List.replicate n (u, storage u)) (hle : n + (if w = u then 1 else 0) ≤ 1) :
    (if w = u then (w, ptr) :: l else l) =
      List.replicate (n + if w = u then 1 else 0) (u, update storage w ptr u) := by
  by_cases hu : w = u
  · subst hu
    rw [if_pos rfl] at hle ⊢
    have h0 : n = 0 := by omega
    subst h0
    rw [hold, if_pos rfl, Function.update_self]
    rfl
  · rw [if_neg hu, if_neg hu, Function.update_of_ne (Ne.symm hu), hold]
    rfl

/-- A test, by what it takes. -/
theorem PoolOk.test {c : WaitArgs E} {wait : Bool} {k : PoolKern T E}
    (h : PoolOk basePtr sz full s g)
    (hobj : s'.obj = (fxBlockPoolTest t wait (k, s.obj)).2.2)
    (hgone : ∀ u, s'.pc u ≠ .gone → s.pc u ≠ .gone)
    (hgrants : ∀ u, s'.pc u ≠ .gone → s'.grants u = s.grants u +
      ((fxBlockPoolWakers checks).tested (fxBlockPool checks) t c wait (k, s.obj)).count u) :
    PoolOk basePtr sz full s' (g.hand t s.obj.next) := by
  have htested : (fxBlockPoolWakers checks).tested (fxBlockPool checks) t c wait (k, s.obj) =
      if s.obj.next.isSome then [t] else [] := by
    unfold Wakers.tested
    show (if (fxBlockPoolTest t wait (k, s.obj)).1 then [] ++ [t] else []) = _
    rw [fxBlockPoolTest_fst]
    rfl
  cases hn : s.obj.next with
  | none =>
    rw [fxBlockPoolTest_none hn] at hobj
    rw [hn] at htested
    refine ⟨by rw [hobj]; exact h.part, by rw [hobj]; exact h.full, fun u hu => ?_⟩
    rw [hgrants u hu, htested, hobj]
    exact h.handed u (hgone u hu)
  | some block =>
    have hpart := h.part.take t wait k hn
    have hsz : (fxBlockPoolTest t wait (k, s.obj)).2.2.sz = s.obj.sz := by
      unfold FxBlockPool.next at hn
      unfold fxBlockPoolTest
      split at hn
      · rename_i hfree
        simp only [hfree]
        rfl
      · rename_i hfree
        split at hn
        · rename_i hsz
          simp only [hfree, if_pos hsz]
          rfl
        · cases hn
    rw [hn] at htested
    refine ⟨by rw [hobj]; exact hpart, by rw [hobj, hsz]; exact h.full, fun u hu => ?_⟩
    have hcount : List.count u [t] = if t = u then 1 else 0 := by
      simp only [List.count_singleton, beq_iff_eq]
    have hg := hgrants u hu
    rw [htested, Option.isSome_some, if_pos rfl, hcount] at hg
    have hle := grants_le s' u
    rw [hg] at hle
    rw [handedTo_hand, hg, hobj, (fxBlockPoolTest_some hn).2.2]
    exact handed_one (h.handed u (hgone u hu)) hle

/-- A release of a pointer that is live. -/
theorem PoolOk.release {ptr : Nat} {p : SyncPolicy} (h : PoolOk basePtr sz full s g)
    (hlive : ptr ∈ g.live.map Prod.snd)
    (hobj : s'.obj = (fxBlockPoolReleaseInternal ptr p (s.kern, s.obj)).2)
    (hgone : ∀ u, s'.pc u ≠ .gone → s.pc u ≠ .gone)
    (hgrants : ∀ u, s'.pc u ≠ .gone → s'.grants u = s.grants u +
      (fxBlockPoolReleaseWakes p s.kern).count u) :
    PoolOk basePtr sz full s' (g.release ptr (fxSyncWaitBlockGet s.kern (.obj ()) p)) := by
  have hsz : (fxBlockPoolReleaseInternal ptr p (s.kern, s.obj)).2.sz = s.obj.sz := by
    unfold fxBlockPoolReleaseInternal
    split <;> rfl
  unfold fxBlockPoolReleaseWakes at hgrants
  cases hget : fxSyncWaitBlockGet s.kern (.obj ()) p with
  | none =>
    rw [hget] at hgrants
    have hstorage : s'.obj.storage = s.obj.storage := by
      rw [hobj]
      unfold fxBlockPoolReleaseInternal
      simp only [hget]
    refine ⟨?_, by rw [hobj, hsz]; exact h.full, fun u hu => ?_⟩
    · rw [hobj]
      exact (h.part.congr (out_release_none hlive)).free hget
    · rw [hgrants u hu, hstorage]
      exact h.handed u (hgone u hu)
  | some wb =>
    rw [hget] at hgrants
    have hstorage : s'.obj.storage = update s.obj.storage wb.1 ptr := by
      rw [hobj]
      unfold fxBlockPoolReleaseInternal
      simp only [hget]
    refine ⟨?_, by rw [hobj, hsz]; exact h.full, fun u hu => ?_⟩
    · rw [hobj]
      exact (h.part.congr (out_release_some hlive)).handOver hget
    · have hcount : List.count u [wb.1] = if wb.1 = u then 1 else 0 := by
        simp only [List.count_singleton, beq_iff_eq]
      have hg := hgrants u hu
      have hle := grants_le s' u
      dsimp only at hg
      rw [hcount] at hg
      rw [hg] at hle
      have hto : (g.release ptr (some wb)).handedTo u =
          if wb.1 = u then (wb.1, ptr) :: g.handedTo u else g.handedTo u := by
        show (((wb.1, ptr) :: g.handed).filter fun x => x.1 = u) = _
        rw [List.filter_cons]
        simp only [decide_eq_true_eq]
        rfl
      rw [hto, hg, hstorage]
      exact handed_one (h.handed u (hgone u hu)) hle

/-- The call returns what it was handed, or nothing. -/
theorem PoolOk.ret {r : ThreadStatus} {c : WaitArgs E} (h : PoolOk basePtr sz full s g)
    (hpc : s.pc t = .inCall (.ret r) c) {o : FxBlockPool T}
    (ho : o = ((fxBlockPool checks : WaitObject T E _ _ _ _ _).after t c r (s.kern, s.obj)).2.2) :
    PoolOk basePtr sz full ⟨s.kern, o, update s.pc t .idle, s.base⟩
      (poolSection t s.obj g (s.pc t)) := by
  have hsame : o.storage = s.obj.storage ∧ o.sz = s.obj.sz ∧ ∀ {out},
      PoolPart basePtr sz s.obj out → PoolPart basePtr sz o out := by
    subst ho
    dsimp only [fxBlockPool]
    split
    · exact ⟨rfl, rfl, fun hp => hp.same rfl rfl rfl rfl rfl⟩
    · exact ⟨rfl, rfl, id⟩
  obtain ⟨hstorage, hsz, hpart⟩ := hsame
  have hto := h.handed t (not_gone hpc)
  rw [grants_ret hpc] at hto
  have hidle : Sys.grants (⟨s.kern, o, update s.pc t .idle, s.base⟩ : PoolSys T E) t = 0 := by
    refine grants_zero ?_
    show (update s.pc t _ t).granted _ t = none
    rw [Function.update_self]
    rfl
  have hother : ∀ u, u ≠ t →
      Sys.grants (⟨s.kern, o, update s.pc t .idle, s.base⟩ : PoolSys T E) u = s.grants u := by
    intro u hu
    show (update s.pc t _ u).grants _ u = _
    rw [Function.update_of_ne hu]
    rfl
  have hpcu : ∀ u, u ≠ t → update s.pc t .idle u ≠ .gone → s.pc u ≠ .gone := by
    intro u hu hg
    rwa [Function.update_of_ne hu] at hg
  rw [hpc]
  by_cases hr : r = .ok
  · subst hr
    rw [if_pos rfl] at hto
    have hmem : (t, s.obj.storage t) ∈ g.handed := by
      have hm : (t, s.obj.storage t) ∈ g.handedTo t := by
        rw [hto]
        exact List.mem_singleton_self _
      exact (List.mem_filter.mp hm).1
    refine ⟨hpart (h.part.congr (out_ret hmem)), hsz.trans h.full, fun u hu => ?_⟩
    show (g.ret t (s.obj.storage t)).handedTo u = List.replicate _ (u, o.storage u)
    rw [handedTo_ret, hstorage]
    by_cases hut : u = t
    · subst hut
      rw [hidle, hto]
      exact List.erase_cons_head ..
    · rw [hother u hut, h.handed u (hpcu u hut hu)]
      refine List.erase_of_not_mem fun hm => hut ?_
      exact (Prod.mk.inj (List.eq_of_mem_replicate hm)).1.symm
  · rw [if_neg hr] at hto
    have hnote : poolSection t s.obj g (.inCall (.ret r) c : Pc T E (WaitArgs E)) = g := by
      cases r with
      | ok => exact absurd rfl hr
      | _ => rfl
    rw [hnote]
    refine ⟨hpart h.part, hsz.trans h.full, fun u hu => ?_⟩
    show g.handedTo u = List.replicate _ (u, o.storage u)
    rw [hstorage]
    by_cases hut : u = t
    · subst hut
      rw [hidle, hto]
    · rw [hother u hut]
      exact h.handed u (hpcu u hut hu)

/-- **One step** in which only live pointers are released keeps the partition. -/
theorem PoolOk.step (hw : WellFormed (fxBlockPool checks) s) (h : PoolOk basePtr sz full s g)
    (hg : ReleasesLive (s, g) a) (hs : step cfg (fxBlockPool checks) a s = some s') :
    PoolOk basePtr sz full s' (poolNote checks a s g) := by
  have hplain := fxBlockPool_plain (T := T) (E := E) checks
  have hgone : ∀ u, s'.pc u ≠ .gone → s.pc u ≠ .gone :=
    fun u hu hgone => hu (gone_stays hplain.lawful hw hs hgone)
  -- a step in which nobody returns
  have hgrants : (∀ t r c, a = .go t → s.pc t ≠ .inCall (.ret r) c) → ∀ u, s'.pc u ≠ .gone →
      s'.grants u = s.grants u +
        ((fxBlockPoolWakers checks).woken (fxBlockPool checks) a s).count u :=
    fun hret u hu => hplain.grants_step hw hs hu fun r c ha => hret u r c ha
  cases code_case hplain.lawful hw hs with
  | quiet t hq hno =>
    have hret : ∀ t r c, a = .go t → s.pc t ≠ .inCall (.ret r) c := by
      rintro t r c rfl hpc
      refine hno ?_
      show (s.pc t).runsCode
      rw [hpc]
      trivial
    rw [poolNote_quiet hno]
    refine ⟨by rw [hq.obj]; exact h.part, by rw [hq.obj]; exact h.full, fun u hu => ?_⟩
    rw [hgrants hret u hu, woken_nil hno, hq.obj]
    exact h.handed u (hgone u hu)
  | enter t c ab r k ha hpc hr he hs1 =>
    subst ha
    have hret : ∀ t' r c, (.go t : Act T E (WaitArgs E) PoolOp) = .go t' →
        s.pc t' ≠ .inCall (.ret r) c := by
      rintro t' r c ha hpc'
      cases ha
      rw [hpc] at hpc'
      cases hpc'
    have hg' := hgrants hret
    rw [woken_enter hpc] at hg'
    have hnote : poolNote checks (.go t) s g = g.hand t s.obj.next := by
      show poolSection t s.obj g (s.pc t) = _
      rw [hpc]
      rfl
    rw [hnote]
    exact h.test (by rw [hs1]; rfl) hgone hg'
  | poll t c ha hpc hr hs1 =>
    subst ha
    have hret : ∀ t' r c, (.go t : Act T E (WaitArgs E) PoolOp) = .go t' →
        s.pc t' ≠ .inCall (.ret r) c := by
      rintro t' r c ha hpc'
      cases ha
      rw [hpc] at hpc'
      cases hpc'
    have hg' := hgrants hret
    rw [woken_poll hpc] at hg'
    have hnote : poolNote checks (.go t) s g = g.hand t s.obj.next := by
      show poolSection t s.obj g (s.pc t) = _
      rw [hpc]
      rfl
    rw [hnote]
    exact h.test (by rw [hs1]; rfl) hgone hg'
  | after t c r ha hpc hs1 =>
    subst ha
    rw [hplain.ret] at hs1
    rw [hs1]
    exact h.ret hpc rfl
  | op p ko ha hc ho hs1 =>
    subst ha
    have hg' := hgrants fun t r c ha => by cases ha
    change some (if checks ∧ s.obj.valid = false then _ else _) = some ko at ho
    by_cases hchk : checks ∧ s.obj.valid = false
    · rw [if_pos hchk] at ho
      cases ho
      have hnote : poolNote checks (.op p) s g = g := if_pos hchk
      have hwk : (fxBlockPoolWakers checks).woken (fxBlockPool checks) (.op p) s = [] :=
        if_pos hchk
      rw [hwk] at hg'
      rw [hnote]
      subst hs1
      refine ⟨h.part, h.full, fun u hu => ?_⟩
      rw [hg' u hu]
      exact h.handed u hu
    · rw [if_neg hchk] at ho
      cases ho
      have hwk : (fxBlockPoolWakers checks).woken (fxBlockPool checks) (.op p) s = _ :=
        if_neg hchk
      have hnote : poolNote checks (.op p) s g = _ := if_neg hchk
      rw [hwk] at hg'
      rw [hnote]
      cases hrel : p.releases s.obj with
      | none =>
        simp only [hrel] at hg'
        cases p with
        | deinit =>
          subst hs1
          refine ⟨h.part.same rfl rfl rfl rfl rfl, h.full, fun u hu => ?_⟩
          rw [hg' u hu]
          exact h.handed u hu
        | _ => cases hrel
      | some r =>
        simp only [hrel] at hg'
        have hlive : r.1 ∈ g.live.map Prod.snd := by
          cases p with
          | deinit => cases hrel
          | releaseInternal ptr policy => cases hrel; exact hg
          | release ptr => cases hrel; exact hg
        refine h.release hlive ?_ hgone hg'
        rw [hs1]
        show (p.run (s.kern, s.obj)).2 = _
        rw [PoolOp.run_releases hrel]

end Lauf

/-! ## 5. Every run -/

/-- What fits into a region of word-sized parts is aligned. -/
theorem carve_aligned {basePtr blkSz n x : Nat} (hb : basePtr % uintptrSz = 0)
    (hx : x ∈ carve basePtr (uintptrSz + (blkSz + uintptrSz - 1) / uintptrSz * uintptrSz) n) :
    x % uintptrSz = 0 := by
  obtain ⟨i, _, rfl⟩ := mem_carve hx
  have hsize : uintptrSz + (blkSz + uintptrSz - 1) / uintptrSz * uintptrSz =
      (1 + (blkSz + uintptrSz - 1) / uintptrSz) * uintptrSz := by
    rw [Nat.add_mul, Nat.one_mul]
  rw [hsize, ← Nat.mul_assoc, Nat.add_mul_mod_self_right]
  exact hb

/-- A block has room for what was asked for behind its header. -/
theorem le_fullSz (blkSz : Nat) :
    uintptrSz + blkSz ≤ uintptrSz + (blkSz + uintptrSz - 1) / uintptrSz * uintptrSz := by
  unfold uintptrSz
  omega

/-- Where the pointers that are out point to. -/
theorem PoolPart.out_mem {basePtr sz ptr : Nat} {bp : FxBlockPool T} {out : List Nat}
    (h : PoolPart basePtr sz bp out) (hm : ptr ∈ out) :
    ∃ block ∈ carve basePtr bp.sz (sz / bp.sz), ptr = block + uintptrSz := by
  have hm' := h.perm.subset (List.mem_append_right _ hm)
  obtain ⟨block, hb, rfl⟩ := List.mem_map.mp hm'
  exact ⟨block, hb, rfl⟩

/-- Two pointers that are out belong to different blocks. -/
theorem PoolPart.out_apart {basePtr sz blkSz : Nat} {bp : FxBlockPool T} {out : List Nat}
    (h : PoolPart basePtr sz bp out) (hle : uintptrSz + blkSz ≤ bp.sz) :
    out.Pairwise fun x y => x + blkSz ≤ y ∨ y + blkSz ≤ x := by
  have hall : ((carve basePtr bp.sz (sz / bp.sz)).map (· + uintptrSz)).Pairwise
      fun x y => x + blkSz ≤ y ∨ y + blkSz ≤ x := by
    refine List.pairwise_map.mpr (carve_apart.imp fun {x y} hxy => ?_)
    rcases hxy with hxy | hxy
    · exact Or.inl (by omega)
    · exact Or.inr (by omega)
  have hperm := (h.perm.pairwise_iff fun {x y} hxy => hxy.symm).mpr hall
  exact (List.pairwise_append.mp hperm).2.1

/-- The blocks themselves, for their pointers. -/
theorem PoolPart.blocks {basePtr sz : Nat} {bp : FxBlockPool T} {out : List Nat}
    (h : PoolPart basePtr sz bp out) :
    (bp.freeBlocks ++ bp.uncarved ++ out.map (· - uintptrSz)).Perm
      (carve basePtr bp.sz (sz / bp.sz)) := by
  have hperm := h.perm.map (· - uintptrSz)
  have hcancel : ((· - uintptrSz) ∘ (· + uintptrSz)) = (id : Nat → Nat) := by
    funext x
    exact Nat.add_sub_cancel x uintptrSz
  rw [List.map_append, List.map_map, List.map_map, hcancel, List.map_id, List.map_id] at hperm
  exact hperm

/-- The division of the blocks in every run. -/
theorem reach_poolOk {cfg : Config T} {storage : FxBlockPool T} {basePtr sz blkSz : Nat}
    {s : PoolSys T E} {g : PoolNotes T}
    (h : Reach (noted (step cfg (fxBlockPool cfg.checks)) (poolNote cfg.checks)) ReleasesLive
      (boot cfg (fxBlockPoolInit storage basePtr sz blkSz), ⟨[], []⟩) (s, g)) :
    PoolOk basePtr sz (fxBlockPoolInit storage basePtr sz blkSz).sz s g := by
  have hplain := fxBlockPool_plain (T := T) (E := E) cfg.checks
  have hwell : ∀ s : PoolSys T E, Reach (step cfg (fxBlockPool cfg.checks)) Always
      (boot cfg (fxBlockPoolInit storage basePtr sz blkSz)) s →
      WellFormed (fxBlockPool cfg.checks) s :=
    fun _ hr => reach_wellFormed hplain.lawful hr
  refine Reach.inv_noted (J := PoolOk basePtr sz _) (fun _ _ _ => trivial) hwell ?_
    (fun _ _ _ _ hw hj hg hs => hj.step hw hg hs) h
  exact ⟨PoolPart.init storage, rfl, fun _ _ => rfl⟩

/-- What is out is aligned, inside the region and apart. -/
theorem PoolOk.region {storage : FxBlockPool T} {basePtr sz blkSz : Nat} {s : PoolSys T E}
    {g : PoolNotes T} (h : PoolOk basePtr sz (fxBlockPoolInit storage basePtr sz blkSz).sz s g)
    (halign : basePtr % uintptrSz = 0) :
    (∀ ptr ∈ g.out, ptr % uintptrSz = 0 ∧ basePtr + uintptrSz ≤ ptr ∧
      ptr + blkSz ≤ basePtr + sz) ∧
    g.out.Pairwise fun x y => x + blkSz ≤ y ∨ y + blkSz ≤ x := by
  obtain ⟨hpart, hfull, -⟩ := h
  have hfull' : s.obj.sz = uintptrSz + (blkSz + uintptrSz - 1) / uintptrSz * uintptrSz := hfull
  have hle : uintptrSz + blkSz ≤ s.obj.sz := hfull' ▸ le_fullSz blkSz
  refine ⟨fun ptr hm => ?_, hpart.out_apart hle⟩
  obtain ⟨block, hb, rfl⟩ := hpart.out_mem hm
  obtain ⟨h1, h2⟩ := carve_le (Nat.div_mul_le_self sz s.obj.sz) hb
  rw [hfull'] at hb
  refine ⟨?_, Nat.add_le_add_right h1 _, by omega⟩
  rw [Nat.add_mod_right]
  exact carve_aligned halign hb

/-- **The blocks of a pool are divided** among the free list, the memory not carved yet, the calls
    that were handed one, and the callers, in every run that releases only what is live. -/
theorem pool_partition {cfg : Config T} {storage : FxBlockPool T} {basePtr sz blkSz : Nat}
    (hinit : PoolInit basePtr sz blkSz) {s : PoolSys T E} {g : PoolNotes T}
    (h : Reach (noted (step cfg (fxBlockPool cfg.checks)) (poolNote cfg.checks)) ReleasesLive
      (boot cfg (fxBlockPoolInit storage basePtr sz blkSz), ⟨[], []⟩) (s, g)) :
    -- the blocks
    (s.obj.freeBlocks ++ s.obj.uncarved ++ g.out.map (· - uintptrSz)).Perm
      (carve basePtr s.obj.sz (sz / s.obj.sz)) ∧
    fxBlockPoolAvailBlocks s.obj = s.obj.freeBlocks.length + s.obj.uncarved.length ∧
    -- what is out is aligned, inside the region and apart
    (∀ ptr ∈ g.out, ptr % uintptrSz = 0 ∧ basePtr + uintptrSz ≤ ptr ∧
      ptr + blkSz ≤ basePtr + sz) ∧
    g.out.Pairwise (fun x y => x + blkSz ≤ y ∨ y + blkSz ≤ x) ∧
    -- a call returns what it was handed, and succeeds if it was handed something
    (∀ t r c, s.pc t = .inCall (.ret r) c →
      g.handedTo t = (if r = .ok then [(t, s.obj.storage t)] else []) ∧
      ∀ s', step cfg (fxBlockPool cfg.checks) (.go t) s = some s' → s'.obj.allocatedBlk t =
        if r = .ok then some (s.obj.storage t) else s.obj.allocatedBlk t) := by
  have hplain := fxBlockPool_plain (T := T) (E := E) cfg.checks
  have hok := reach_poolOk h
  obtain ⟨hin, hapart⟩ := hok.region hinit.align
  obtain ⟨hpart, -, hhanded⟩ := hok
  refine ⟨hpart.blocks, ?_, hin, hapart, fun t r c hpc => ⟨?_, ?_⟩⟩
  · unfold fxBlockPoolAvailBlocks FxBlockPool.uncarved
    rw [carve_length]
    exact hpart.num
  · rw [hhanded t (not_gone hpc), grants_ret hpc]
    split <;> rfl
  · intro s' hs
    rw [step_ret hpc hs, hplain.ret]
    show (if r = .ok then _ else s.obj).allocatedBlk t = _
    split
    · exact Function.update_self ..
    · rfl

/-- Two blocks, both allocated by thread 0, which waits for a third; a release hands it the first
    one again, whose timeout runs out before it runs. -/
theorem pool_partition_handed :
    let cfg : Config (Fin 2) := ⟨true, 8, 1⟩
    ∃ (s : PoolSys (Fin 2) Unit) (g : PoolNotes (Fin 2)),
      Reach (noted (step cfg (fxBlockPool cfg.checks)) (poolNote cfg.checks)) ReleasesLive
        (boot cfg (fxBlockPoolInit ⟨0, 0, 0, [], 0, 0#32, false, fun _ => 0, fun _ => none⟩
          1000 24 5), ⟨[], []⟩) (s, g) ∧
      s.kern.ev (.timer 0) = true ∧ g.out = [1004, 1016] ∧ s.obj.allocatedBlk 0 = some 1016 ∧
      (s.obj.freeBlocks ++ s.obj.uncarved ++ g.out.map (· - uintptrSz)).Perm
        (carve 1000 s.obj.sz (24 / s.obj.sz)) := by
  intro cfg
  let acts : List (Act (Fin 2) Unit (WaitArgs Unit) PoolOp) :=
    [.init 0 5 false, .call 0 (.timeout 0), .go 0, .go 0, .call 0 (.timeout 0), .go 0, .go 0,
      .call 0 (.timeout 9), .go 0, .go 0, .go 0, .op (.release 1004), .expire 0]
  have h : (runIf (fun w a => decide (ReleasesLive w a))
      (noted (step cfg (fxBlockPool cfg.checks)) (poolNote cfg.checks)) acts
      (boot cfg (fxBlockPoolInit ⟨0, 0, 0, [], 0, 0#32, false, fun _ => 0, fun _ => none⟩
        1000 24 5), ⟨[], []⟩)).any (fun w =>
        w.1.kern.ev (.timer 0) = true ∧ w.2.out = [1004, 1016] ∧
          w.1.obj.allocatedBlk 0 = some 1016) = true := by
    decide +kernel
  obtain ⟨⟨s, g⟩, hr, hp⟩ := exists_of_runIf (fun _ _ => of_decide_eq_true) h
  obtain ⟨he, hout, hblk⟩ := of_decide_eq_true hp
  have hinit : PoolInit 1000 24 5 := by
    constructor <;> decide
  exact ⟨s, g, hr, he, hout, hblk, (pool_partition hinit hr).1⟩

end FxRtos
