/-
  File:      FxRtos/Objects/BlockPool.lean
  Subject:   BLOCK POOLS (fx_block_pool.c): blocks from a free list, or carved off the memory that
             is left. A block released goes straight to a waiting thread.
-/
import FxRtos.Kernel.Runs

namespace FxRtos

open Function (update)
open Lib

set_option linter.unusedSectionVars false

def SyncPolicy.toWord : SyncPolicy → BitVec 32
  | .fifo => 0#32
  | .prio => 1#32

/-- What `_fx_sync_wait_block_get` makes of the word it is given: it asks for
    `FX_SYNC_POLICY_PRIO` only. -/
def SyncPolicy.ofWord (w : BitVec 32) : SyncPolicy :=
  if w = SyncPolicy.prio.toWord then .prio else .fifo

/-- `base` and the free list hold the addresses of block headers. `storage` is the variable of a
    caller that its attribute points to, `allocatedBlk` what its last successful call left. The
    field `policy` is a word of the memory, since no function writes it. -/
structure FxBlockPool (T : Type) where
  base : Nat
  sz : Nat
  remainingSz : Nat
  freeBlocks : List Nat
  freeBlocksNum : Nat
  policy : BitVec 32
  valid : Bool
  storage : T → Nat
  allocatedBlk : T → Option Nat

variable {T E : Type} [DecidableEq T] [DecidableEq E]

/-- Attributes are the address of the caller's variable, for which the thread stands. -/
abbrev PoolKern (T E : Type) := Kern T E Unit Unit

/-- A block header: the pointer to the pool, or the link of a free block. -/
def uintptrSz : Nat := 4

/-- A block found for the thread `me`. -/
def FxBlockPool.take (bp : FxBlockPool T) (me : T) (block : Nat) : FxBlockPool T :=
  { bp with
    storage := update bp.storage me (block + uintptrSz)
    freeBlocksNum := bp.freeBlocksNum - 1 }

def fxBlockPoolTest (me : T) (wait : Bool) (s : PoolKern T E × FxBlockPool T) :
    Bool × PoolKern T E × FxBlockPool T :=
  match s.2.freeBlocks with
  | block :: rest => (true, s.1, { s.2 with freeBlocks := rest }.take me block)
  | [] =>
    if s.2.sz ≤ s.2.remainingSz then
      (true, s.1, { s.2 with
        base := s.2.base + s.2.sz
        remainingSz := s.2.remainingSz - s.2.sz }.take me s.2.base)
    else (false, if wait then fxSyncWaitStart s.1 (.obj ()) (me, .main) else s.1, s.2)

/-- `fx_block_pool_init` leaves the field `policy` as the storage of the pool had it. -/
def fxBlockPoolInit (storage : FxBlockPool T) (basePtr sz blkSz : Nat) : FxBlockPool T :=
  let roundBlkSz := (blkSz + uintptrSz - 1) / uintptrSz * uintptrSz
  let blockFullSz := uintptrSz + roundBlkSz
  { storage with
    freeBlocks := []
    freeBlocksNum := sz / blockFullSz
    sz := blockFullSz
    base := basePtr
    remainingSz := sz
    valid := true }

def fxBlockPoolDeinit (s : PoolKern T E × FxBlockPool T) : PoolKern T E × FxBlockPool T :=
  (fxSyncWaitNotifyAll s.1 (.obj ()) .deleted, { s.2 with valid := false })

def fxBlockPoolReleaseInternal (blockPtr : Nat) (p : SyncPolicy)
    (s : PoolKern T E × FxBlockPool T) : PoolKern T E × FxBlockPool T :=
  match fxSyncWaitBlockGet s.1 (.obj ()) p with
  | some wb =>
    (fxSyncWaitNotify s.1 .satisfied wb,
      { s.2 with storage := update s.2.storage wb.1 blockPtr })
  | none =>
    (s.1, { s.2 with
      freeBlocks := (blockPtr - uintptrSz) :: s.2.freeBlocks
      freeBlocksNum := s.2.freeBlocksNum + 1 })

inductive PoolOp where
  | deinit
  | releaseInternal (blockPtr : Nat) (p : SyncPolicy)
  | release (blockPtr : Nat)

def PoolOp.run : PoolOp → PoolKern T E × FxBlockPool T → PoolKern T E × FxBlockPool T
  | .deinit, s => fxBlockPoolDeinit s
  | .releaseInternal blockPtr p, s => fxBlockPoolReleaseInternal blockPtr p s
  | .release blockPtr, s => fxBlockPoolReleaseInternal blockPtr (.ofWord s.2.policy) s

/-- `fx_block_pool_alloc` and `fx_block_pool_timedalloc`. -/
def fxBlockPool (checks : Bool) :
    WaitObject T E Unit Unit (FxBlockPool T) (WaitArgs E) PoolOp where
  start _ o _ c := if checks ∧ o.valid = false then none else some c
  waitable _ := .obj ()
  attr _ := some ()
  args c := c
  testWait me _ := fxBlockPoolTest me
  after me _ res s := (none, s.1, if res = .ok then
    { s.2 with allocatedBlk := update s.2.allocatedBlk me (some (s.2.storage me)) } else s.2)
  caller _ := none
  op p s := some (if checks ∧ s.2.valid = false then s else p.run s)

section Vorrat

variable {s : PoolKern T E × FxBlockPool T}

/-- The outcomes of an allocation. -/
theorem fxBlockPoolTest_cases (me : T) (wait : Bool) (s : PoolKern T E × FxBlockPool T) :
    ((fxBlockPoolTest me wait s).1 = true ∧ (fxBlockPoolTest me wait s).2.1 = s.1 ∧
      (s.2.freeBlocks ≠ [] ∨ s.2.sz ≤ s.2.remainingSz)) ∨
    (s.2.freeBlocks = [] ∧ s.2.remainingSz < s.2.sz ∧ fxBlockPoolTest me wait s =
      (false, if wait then fxSyncWaitStart s.1 (.obj ()) (me, .main) else s.1, s.2)) := by
  unfold fxBlockPoolTest
  split
  · rename_i block rest hfree
    exact Or.inl ⟨rfl, rfl, Or.inl (by rw [hfree]; exact List.cons_ne_nil _ _)⟩
  · rename_i hfree
    split
    · rename_i hsz
      exact Or.inl ⟨rfl, rfl, Or.inr hsz⟩
    · rename_i hsz
      exact Or.inr ⟨hfree, Nat.lt_of_not_le hsz, rfl⟩

theorem fxBlockPoolReleaseInternal_moves (blockPtr : Nat) (p : SyncPolicy)
    (s : PoolKern T E × FxBlockPool T) :
    Moves IsObj NoOne s.1 (fxBlockPoolReleaseInternal blockPtr p s).1 := by
  unfold fxBlockPoolReleaseInternal
  split
  · rename_i wb hwb
    exact Moves.wake hwb trivial (Or.inl rfl)
  · exact .refl

theorem PoolOp.run_moves (p : PoolOp) (s : PoolKern T E × FxBlockPool T) :
    Moves IsObj NoOne s.1 (p.run s).1 := by
  cases p with
  | deinit => exact Moves.notifyAll (w := .obj ()) trivial (Or.inr rfl) s.1
  | releaseInternal blockPtr p => exact fxBlockPoolReleaseInternal_moves blockPtr p s
  | release blockPtr => exact fxBlockPoolReleaseInternal_moves blockPtr _ s

theorem fxBlockPool_lawful (checks : Bool) :
    (fxBlockPool checks : WaitObject T E _ _ _ _ _).Lawful where
  testTrue me c wait s s' _ h := by
    rcases fxBlockPoolTest_cases me wait s with ⟨_, hk, _⟩ | ⟨_, _, e⟩
    · rw [show fxBlockPoolTest me wait s = (true, s') from h] at hk
      rw [← show s'.1 = s.1 from hk]
      exact .refl
    · cases (show (true, s') = _ from h.symm.trans e)
  testPoll me c s s' _ h := by
    rcases fxBlockPoolTest_cases me false s with ⟨h1, _⟩ | ⟨_, _, e⟩
    · rw [show fxBlockPoolTest me false s = (false, s') from h] at h1
      cases h1
    · cases (show (false, s') = _ from h.symm.trans e)
      exact .refl
  testWait me c s s' _ h := by
    rcases fxBlockPoolTest_cases me true s with ⟨h1, _⟩ | ⟨_, _, e⟩
    · rw [show fxBlockPoolTest me true s = (false, s') from h] at h1
      cases h1
    · cases (show (false, s') = _ from h.symm.trans e)
      exact ⟨nofun, .refl⟩
  after _ _ _ _ := .refl
  op p s s' _ _ h := by
    cases h
    split
    · exact .refl
    · exact p.run_moves s

/-- A waiter means that no block is free and no memory left for one. -/
def PoolWaits (s : PoolKern T E × FxBlockPool T) : Prop :=
  s.1.wq (.obj ()) ≠ [] → s.2.freeBlocks = [] ∧ s.2.remainingSz < s.2.sz

theorem fxBlockPoolReleaseInternal_waits (blockPtr : Nat) (p : SyncPolicy) (h : PoolWaits s) :
    PoolWaits (fxBlockPoolReleaseInternal blockPtr p s) := by
  unfold fxBlockPoolReleaseInternal
  split
  · rename_i wb hwb
    exact fun _ => h (List.ne_nil_of_mem (fxSyncWaitBlockGet_mem hwb))
  · rename_i hq
    exact fun hne => absurd (fxSyncWaitBlockGet_none.mp hq) hne

theorem PoolOp.run_waits (p : PoolOp) (h : PoolWaits s) : PoolWaits (p.run s) := by
  cases p with
  | deinit => exact fun hne => absurd (notifyAll_nil ..) hne
  | releaseInternal blockPtr p => exact fxBlockPoolReleaseInternal_waits blockPtr p h
  | release blockPtr => exact fxBlockPoolReleaseInternal_waits blockPtr _ h

theorem fxBlockPool_inv (checks : Bool) :
    ObjInv (fxBlockPool checks : WaitObject T E _ _ _ _ _) PoolWaits where
  frame k k' o hf h hne := h fun e => hne (List.sublist_nil.mp (e ▸ hf.sub ()))
  test me c wait s _ _ _ h := by
    show PoolWaits (fxBlockPoolTest me wait s).2
    rcases fxBlockPoolTest_cases me wait s with ⟨_, hk, hfree⟩ | ⟨hfree, hsz, e⟩
    · intro hne
      rw [hk] at hne
      obtain ⟨h1, h2⟩ := h hne
      rcases hfree with hfree | hsz
      · exact absurd h1 hfree
      · exact absurd hsz (Nat.not_le.mpr h2)
    · rw [e]
      exact fun _ => ⟨hfree, hsz⟩
  after _ _ _ s _ _ _ h hne := by
    dsimp only [fxBlockPool]
    split <;> exact h hne
  op p s s' _ _ _ h e := by
    cases e
    split
    · exact h
    · exact p.run_waits h

end Vorrat

end FxRtos
