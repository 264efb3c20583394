/-
  File:      FxRtos/Objects/PoolInit.lean
  Subject:   THE CONSTRUCTOR OF A BLOCK POOL (fx_block_pool.c), in the 32-bit arithmetic of
             `size_t`, and what becomes of its parameters.

  * `fxBlockPoolInitChecked` -- the block size is rounded up and divided by before any parameter is
    checked. It is zero for four block sizes near the top of the type.
  * `pool_sizing` -- the constructor divides by no zero, and a pool it accepts has room for what
    was asked for, exactly if the block size is none of these.
  * `pool_release_policy` -- the default policy is what the memory of the pool held before, any word
    but `FX_SYNC_POLICY_PRIO` being as good as `FX_SYNC_POLICY_FIFO`.
-/
import FxRtos.Objects.PoolPartition

namespace FxRtos

open Function (update)
open Lib

set_option linter.unusedSectionVars false

variable {T E : Type} [DecidableEq T] [DecidableEq E]

/-! ## 1. The code -/

inductive PoolStatus where
  | ok
  | noMem
  | unsupportedPolicy
  | improperAlign
  deriving DecidableEq, Repr

/-- `sizeof(fx_mem_block_t)`: a list linkage. -/
def fxMemBlockSz : BitVec 32 := 8#32

/-- `FX_SYNC_POLICY_MAX`. -/
def fxSyncPolicyMax : BitVec 32 := 2#32

/-- The size of a block with its header. -/
def blockFullSz (blkSz : BitVec 32) : BitVec 32 :=
  4#32 + (blkSz + 4#32 - 1#32) / 4#32 * 4#32

/-- The checks of `fx_block_pool_init`, in their order. -/
def fxBlockPoolInitStatus (basePtr sz blkSz p : BitVec 32) : PoolStatus :=
  if basePtr = 0#32 then .noMem
  else if blkSz = 0#32 then .noMem
  else if ¬ p < fxSyncPolicyMax then .unsupportedPolicy
  else if basePtr &&& 3#32 ≠ 0#32 then .improperAlign
  else if ¬ blockFullSz blkSz ≤ sz then .noMem
  else if ¬ fxMemBlockSz ≤ blockFullSz blkSz then .noMem
  else .ok

/-- `fx_block_pool_init` of a pool in the memory `storage`: `none` where it divides by zero, which
    comes before the checks. The field `policy` is left as it was. -/
def fxBlockPoolInitChecked (storage : FxBlockPool T) (basePtr sz blkSz p : BitVec 32) :
    Option (PoolStatus × FxBlockPool T) :=
  if blockFullSz blkSz = 0#32 then none
  else
    let blkNum := sz / blockFullSz blkSz
    let status := fxBlockPoolInitStatus basePtr sz blkSz p
    some (status,
      if status = .ok then { storage with
        freeBlocks := []
        freeBlocksNum := blkNum.toNat
        sz := (blockFullSz blkSz).toNat
        base := basePtr.toNat
        remainingSz := sz.toNat
        valid := true }
      else storage)

/-! ## 2. Sizes -/

section Groesse

variable {storage bp : FxBlockPool T} {basePtr sz blkSz p : BitVec 32}

/-- The block sizes that make the divisor wrap around to zero. -/
def WrapsToZero (blkSz : BitVec 32) : Prop := 0xFFFFFFF9#32 ≤ blkSz ∧ blkSz ≤ 0xFFFFFFFC#32

theorem blockFullSz_toNat (blkSz : BitVec 32) : (blockFullSz blkSz).toNat =
    (4 + (blkSz.toNat + 3) % 0x100000000 / 4 * 4) % 0x100000000 := by
  unfold blockFullSz
  have h := blkSz.isLt
  simp only [BitVec.toNat_add, BitVec.toNat_mul, BitVec.toNat_udiv, BitVec.toNat_sub,
    BitVec.toNat_ofNat, Nat.reducePow, Nat.reduceMod]
  omega

theorem blockFullSz_eq_zero : blockFullSz blkSz = 0#32 ↔ WrapsToZero blkSz := by
  unfold WrapsToZero
  have h := blkSz.isLt
  rw [← BitVec.toNat_inj, blockFullSz_toNat, BitVec.le_def, BitVec.le_def]
  simp only [BitVec.toNat_ofNat]
  omega

/-- Where a block with a header fits, nothing has wrapped around. -/
theorem blockFullSz_exact (h : fxMemBlockSz ≤ blockFullSz blkSz) :
    blkSz.toNat + 8 ≤ 0x100000000 ∧
      (blockFullSz blkSz).toNat = 4 + (blkSz.toNat + 4 - 1) / 4 * 4 := by
  have hlt := blkSz.isLt
  unfold fxMemBlockSz at h
  rw [BitVec.le_def, blockFullSz_toNat] at h
  rw [blockFullSz_toNat]
  simp only [BitVec.toNat_ofNat] at h
  omega

/-- The checks that an accepted pool has passed. -/
theorem initStatus_ok : fxBlockPoolInitStatus basePtr sz blkSz p = .ok ↔
    basePtr ≠ 0#32 ∧ blkSz ≠ 0#32 ∧ p < fxSyncPolicyMax ∧ basePtr &&& 3#32 = 0#32 ∧
      blockFullSz blkSz ≤ sz ∧ fxMemBlockSz ≤ blockFullSz blkSz := by
  unfold fxBlockPoolInitStatus
  split_ifs <;> simp_all

/-- An accepted pool, in exact arithmetic. -/
theorem initChecked_ok (h : fxBlockPoolInitChecked storage basePtr sz blkSz p = some (.ok, bp)) :
    bp = fxBlockPoolInit storage basePtr.toNat sz.toNat blkSz.toNat ∧
      PoolInit basePtr.toNat sz.toNat blkSz.toNat := by
  unfold fxBlockPoolInitChecked at h
  by_cases hz : blockFullSz blkSz = 0#32
  · rw [if_pos hz] at h
    cases h
  rw [if_neg hz] at h
  have hpair := Option.some.inj h
  have hok : fxBlockPoolInitStatus basePtr sz blkSz p = .ok := congrArg Prod.fst hpair
  have hbp := congrArg Prod.snd hpair
  dsimp only at hbp
  rw [if_pos hok] at hbp
  obtain ⟨hbase, hblk, -, halign, hfit, hhdr⟩ := initStatus_ok.mp hok
  obtain ⟨hwrap, hexact⟩ := blockFullSz_exact hhdr
  have hfit' : (blockFullSz blkSz).toNat ≤ sz.toNat := hfit
  have hhdr' : 8 ≤ (blockFullSz blkSz).toNat := hhdr
  rw [hexact] at hfit' hhdr'
  refine ⟨?_, fun h0 => hbase (BitVec.eq_of_toNat_eq h0), ?_, ?_, hfit', hhdr', hwrap⟩
  · rw [← hbp, BitVec.toNat_udiv, hexact]
    rfl
  · exact Nat.pos_of_ne_zero fun h0 => hblk (BitVec.eq_of_toNat_eq h0)
  · have hmask := congrArg BitVec.toNat halign
    rw [BitVec.toNat_and, show (3#32).toNat = 2 ^ 2 - 1 from rfl,
      Nat.and_two_pow_sub_one_eq_mod] at hmask
    exact hmask

/-- **The claim for one call**: it divides by no zero, and a pool it accepts has whole blocks with
    room for a header and what was asked for, at least one of them, and all inside the region; in
    every run that releases only what is live, so have the pointers handed out. -/
structure PoolSized (E : Type) [DecidableEq E] (cfg : Config T) (storage : FxBlockPool T)
    (basePtr sz blkSz p : BitVec 32) : Prop where
  defined : fxBlockPoolInitChecked storage basePtr sz blkSz p ≠ none
  accepted : ∀ bp, fxBlockPoolInitChecked storage basePtr sz blkSz p = some (.ok, bp) →
    bp.sz % uintptrSz = 0 ∧ blkSz.toNat + uintptrSz ≤ bp.sz ∧ 1 ≤ bp.freeBlocksNum ∧
    bp.freeBlocksNum * bp.sz ≤ sz.toNat ∧
    ∀ (s : PoolSys T E) (g : PoolNotes T),
      Reach (noted (step cfg (fxBlockPool cfg.checks)) (poolNote cfg.checks)) ReleasesLive
        (boot cfg bp, ⟨[], []⟩) (s, g) →
      (∀ ptr ∈ g.out, basePtr.toNat + uintptrSz ≤ ptr ∧
        ptr + blkSz.toNat ≤ basePtr.toNat + sz.toNat) ∧
      g.out.Pairwise fun x y => x + blkSz.toNat ≤ y ∨ y + blkSz.toNat ≤ x

/-- **The constructor sizes a pool right exactly if the size of a block with its header does not
    wrap around to zero.** -/
theorem pool_sizing (E : Type) [DecidableEq E] (cfg : Config T) (storage : FxBlockPool T)
    (basePtr sz blkSz p : BitVec 32) :
    PoolSized E cfg storage basePtr sz blkSz p ↔ ¬ WrapsToZero blkSz := by
  constructor
  · intro h hwrap
    exact h.defined (if_pos (blockFullSz_eq_zero.mpr hwrap))
  · intro hwrap
    refine ⟨?_, fun bp hbp => ?_⟩
    · unfold fxBlockPoolInitChecked
      rw [if_neg fun hz => hwrap (blockFullSz_eq_zero.mp hz)]
      exact Option.some_ne_none _
    · obtain ⟨rfl, hinit⟩ := initChecked_ok hbp
      have hfull : (fxBlockPoolInit storage basePtr.toNat sz.toNat blkSz.toNat).sz =
          uintptrSz + (blkSz.toNat + uintptrSz - 1) / uintptrSz * uintptrSz := rfl
      have hnum : (fxBlockPoolInit storage basePtr.toNat sz.toNat blkSz.toNat).freeBlocksNum =
          sz.toNat / (uintptrSz + (blkSz.toNat + uintptrSz - 1) / uintptrSz * uintptrSz) := rfl
      rw [hnum, hfull]
      have hpos : 0 < uintptrSz + (blkSz.toNat + uintptrSz - 1) / uintptrSz * uintptrSz :=
        Nat.add_pos_left (by decide) _
      refine ⟨?_, ?_, ?_, Nat.div_mul_le_self .., fun s g h => ?_⟩
      · rw [Nat.add_mul_mod_self_right]
        rfl
      · exact (Nat.add_comm blkSz.toNat uintptrSz).le.trans (le_fullSz blkSz.toNat)
      · exact (Nat.one_le_div_iff hpos).mpr hinit.fits
      · obtain ⟨hin, hapart⟩ := (reach_poolOk h).region hinit.align
        exact ⟨fun ptr hm => (hin ptr hm).2, hapart⟩

/-- **A block size that is divided by as zero.** -/
theorem pool_init_divides :
    ¬ PoolSized Unit (⟨true, 8, 1⟩ : Config (Fin 2))
      ⟨0, 0, 0, [], 0, 0#32, false, fun _ => 0, fun _ => none⟩ 0x1000#32 64#32 0xFFFFFFFC#32
      0#32 := by
  intro h
  exact h.defined (if_pos (by decide))

end Groesse

/-! ## 3. The default policy -/

section Vorgabe

variable {storage bp : FxBlockPool T} {k : PoolKern T E} {ptr : Nat} {p : SyncPolicy}

/-- **The claim for one release**: the block goes to the waiter that `p` selects, as
    `fx_block_pool_release_internal` with `p` would do it, and the others stay queued in their
    order. -/
def Honours (p : SyncPolicy) (ptr : Nat) (s : PoolKern T E × FxBlockPool T) : Prop :=
  ∃ wb, s.1.Selects (.obj ()) wb p ∧
    (PoolOp.release ptr).run s = fxBlockPoolReleaseInternal ptr p s ∧
    ((PoolOp.release ptr).run s).2.storage = update s.2.storage wb.1 ptr ∧
    ((PoolOp.release ptr).run s).1.wq (.obj ()) = (s.1.wq (.obj ())).erase wb

/-- Nobody who waits has a higher priority than the first in the queue. -/
def FirstIsTop (k : PoolKern T E) : Prop :=
  ∀ first rest, k.wq (.obj ()) = first :: rest → ∀ b ∈ rest, k.prioOf first ≤ k.prioOf b

/-- Elements of a list are told apart by what is left without them. -/
theorem erase_inj_of_mem {α : Type} [BEq α] [LawfulBEq α] {l : List α} {a b : α} (ha : a ∈ l)
    (h : l.erase a = l.erase b) : a = b := by
  by_contra hne
  have hcount := congrArg (List.count a) h
  rw [List.count_erase_self, List.count_erase_of_ne hne] at hcount
  have hpos := List.count_pos_iff.mpr ha
  omega

theorem honours_iff (hq : k.wq (.obj ()) ≠ []) : Honours p ptr (k, bp) ↔
    fxSyncWaitBlockGet k (.obj ()) (.ofWord bp.policy) = fxSyncWaitBlockGet k (.obj ()) p := by
  have hsome : ∀ policy, ∃ wb, fxSyncWaitBlockGet k (.obj ()) policy = some wb := fun policy =>
    Option.ne_none_iff_exists'.mp fun h => hq (fxSyncWaitBlockGet_none.mp h)
  obtain ⟨wb, hwb⟩ := hsome p
  obtain ⟨wb', hwb'⟩ := hsome (.ofWord bp.policy)
  have hrun : ∀ {policy wb}, fxSyncWaitBlockGet k (.obj ()) policy = some wb →
      fxBlockPoolReleaseInternal ptr policy (k, bp) =
        (fxSyncWaitNotify k .satisfied wb, { bp with storage := update bp.storage wb.1 ptr }) := by
    intro policy wb h
    unfold fxBlockPoolReleaseInternal
    simp only [h]
  constructor
  · intro ⟨_, _, hsame, _⟩
    have hcode : fxBlockPoolReleaseInternal ptr (.ofWord bp.policy) (k, bp) =
        fxBlockPoolReleaseInternal ptr p (k, bp) := hsame
    rw [hrun hwb, hrun hwb'] at hcode
    have hwq := congrArg (fun s : PoolKern T E × FxBlockPool T => s.1.wq (.obj ())) hcode
    have herase : (k.wq (.obj ())).erase wb' = (k.wq (.obj ())).erase wb := hwq
    rw [hwb, hwb', erase_inj_of_mem (fxSyncWaitBlockGet_mem hwb') herase]
  · intro h
    have hcode : (PoolOp.release ptr).run (k, bp) = (fxSyncWaitNotify k .satisfied wb,
        { bp with storage := update bp.storage wb.1 ptr }) := hrun (h.trans hwb)
    refine ⟨wb, fxSyncWaitBlockGet_spec hwb, ?_, ?_, ?_⟩
    · rw [hcode, hrun hwb]
    · rw [hcode]
    · rw [hcode]
      rfl

/-- Both policies select the same waiter exactly if the first one is also a highest one. -/
theorem policies_agree_iff :
    fxSyncWaitBlockGet k (.obj ()) .fifo = fxSyncWaitBlockGet k (.obj ()) .prio ↔
      FirstIsTop k := by
  unfold FirstIsTop fxSyncWaitBlockGet
  cases hq : k.wq (.obj ()) with
  | nil => exact iff_of_true rfl nofun
  | cons first rest =>
    have hmin := firstMin_scan k.prioOf first rest
    dsimp only
    constructor
    · intro h first' rest' hcons b hb
      cases hcons
      have hfirst : first = _ := Option.some.inj h
      rw [← hfirst] at hmin
      exact hmin.le b (List.mem_cons_of_mem first hb)
    · intro h
      have hle := h first rest rfl
      clear hmin hq h
      induction rest with
      | nil => rfl
      | cons b rest ih =>
        rw [List.foldl_cons, if_neg (Nat.not_lt.mpr (hle b List.mem_cons_self))]
        exact ih fun c hc => hle c (List.mem_cons_of_mem b hc)

/-- No function changes the default policy. -/
theorem fxBlockPool_policy (checks : Bool) (policy : BitVec 32) :
    ObjInv (fxBlockPool checks : WaitObject T E _ _ _ _ _) fun s => s.2.policy = policy where
  frame _ _ _ _ h := h
  test me c wait s _ _ _ h := by
    show (fxBlockPoolTest me wait s).2.2.policy = policy
    unfold fxBlockPoolTest
    split
    · exact h
    · split
      · exact h
      · exact h
  after _ _ _ s _ _ _ h := by
    dsimp only [fxBlockPool]
    split <;> exact h
  op p s s' _ _ _ h e := by
    cases e
    split
    · exact h
    · cases p with
      | deinit => exact h
      | releaseInternal blockPtr p =>
        show (fxBlockPoolReleaseInternal blockPtr p s).2.policy = policy
        unfold fxBlockPoolReleaseInternal
        split <;> exact h
      | release blockPtr =>
        show (fxBlockPoolReleaseInternal blockPtr (.ofWord s.2.policy) s).2.policy = policy
        unfold fxBlockPoolReleaseInternal
        split <;> exact h

theorem SyncPolicy.ofWord_eq_iff {w : BitVec 32} :
    SyncPolicy.ofWord w = p ↔ (w = SyncPolicy.prio.toWord ↔ p = .prio) := by
  unfold SyncPolicy.ofWord
  split
  · rename_i h
    exact ⟨fun e => iff_of_true h e.symm, fun e => (e.mp h).symm⟩
  · rename_i h
    cases p with
    | fifo => exact iff_of_true rfl (iff_of_false h nofun)
    | prio => exact ⟨nofun, fun e => absurd (e.mpr rfl) h⟩

/-- **A release honours the policy given to the constructor** exactly if the memory of the pool
    happened to hold `FX_SYNC_POLICY_PRIO` for this one and anything else for the other one, or the
    first waiter is a highest one. -/
theorem pool_release_policy {cfg : Config T} {basePtr sz blkSz : BitVec 32}
    (hinit : fxBlockPoolInitChecked storage basePtr sz blkSz p.toWord = some (.ok, bp))
    {s : PoolSys T E} (h : Reach (step cfg (fxBlockPool cfg.checks)) Always (boot cfg bp) s)
    (hq : s.kern.wq (.obj ()) ≠ []) (ptr : Nat) :
    Honours p ptr (s.kern, s.obj) ↔
      (storage.policy = SyncPolicy.prio.toWord ↔ p = .prio) ∨ FirstIsTop s.kern := by
  have h0 : bp.policy = storage.policy := by
    rw [(initChecked_ok hinit).1]
    rfl
  have hpol : s.obj.policy = storage.policy :=
    (fxBlockPool_policy cfg.checks storage.policy).reach (fxBlockPool_lawful cfg.checks) h0 h
  rw [honours_iff hq, hpol, ← policies_agree_iff, ← SyncPolicy.ofWord_eq_iff]
  generalize SyncPolicy.ofWord storage.policy = policy
  cases policy with
  | fifo =>
    cases p with
    | fifo => exact iff_of_true rfl (Or.inl rfl)
    | prio => exact ⟨Or.inr, fun h => h.resolve_left nofun⟩
  | prio =>
    cases p with
    | fifo => exact ⟨fun h => Or.inr h.symm, fun h => (h.resolve_left nofun).symm⟩
    | prio => exact iff_of_true rfl (Or.inl rfl)

/-- The release goes to a second waiter with more priority, in memory that held the policy. -/
theorem pool_release_second :
    let cfg : Config (Fin 4) := ⟨true, 8, 3⟩
    let old : FxBlockPool (Fin 4) := ⟨0, 0, 0, [], 0, 1#32, false, fun _ => 0, fun _ => none⟩
    ∃ s : PoolSys (Fin 4) Unit,
      Reach (step cfg (fxBlockPool cfg.checks)) Always
        (boot cfg (fxBlockPoolInit old 4096 12 5)) s ∧
      (s.kern.wq (.obj ())).map Prod.fst = [1, 2] ∧ ¬ FirstIsTop s.kern ∧
      (Honours .prio 4100 (s.kern, s.obj) ↔
        (old.policy = SyncPolicy.prio.toWord ↔ SyncPolicy.prio = .prio) ∨ FirstIsTop s.kern) := by
  intro cfg old
  let acts : List (Act (Fin 4) Unit (WaitArgs Unit) PoolOp) :=
    [.init 0 6 false, .call 0 (.timeout 0), .go 0, .go 0, .init 1 5 false, .call 1 (.timeout 9),
      .go 1, .go 1, .go 1, .init 2 3 false, .call 2 (.timeout 9), .go 2, .go 2, .go 2]
  have hrun : (run (step cfg (fxBlockPool cfg.checks)) acts
      (boot cfg (fxBlockPoolInit old 4096 12 5))).any (fun s =>
        (s.kern.wq (.obj ())).map Prod.fst = [1, 2] ∧
          fxSyncWaitBlockGet s.kern (.obj ()) .fifo ≠ fxSyncWaitBlockGet s.kern (.obj ()) .prio) =
      true := by
    decide +kernel
  obtain ⟨s, hr, hp⟩ := exists_of_run hrun
  obtain ⟨hq, hne⟩ := of_decide_eq_true hp
  have hwait : s.kern.wq (.obj ()) ≠ [] := fun h0 => by
    rw [h0] at hq
    cases hq
  have hinit : fxBlockPoolInitChecked old 4096#32 12#32 5#32 SyncPolicy.prio.toWord =
      some (.ok, fxBlockPoolInit old 4096 12 5) := rfl
  have hrelease := pool_release_policy hinit hr hwait 4100
  exact ⟨s, hr, hq, fun h => hne (policies_agree_iff.mpr h), hrelease⟩

/-- **In zeroed memory a pool with `FX_SYNC_POLICY_PRIO` serves its waiters in their order.** -/
theorem pool_init_drops_policy :
    let cfg : Config (Fin 4) := ⟨true, 8, 3⟩
    let old : FxBlockPool (Fin 4) := ⟨0, 0, 0, [], 0, 0#32, false, fun _ => 0, fun _ => none⟩
    ∃ bp, ∃ s : PoolSys (Fin 4) Unit,
      fxBlockPoolInitChecked old 4096#32 12#32 5#32 SyncPolicy.prio.toWord = some (.ok, bp) ∧
      Reach (step cfg (fxBlockPool cfg.checks)) Always (boot cfg bp) s ∧
      s.obj.allocatedBlk 0 = some 4100 ∧ (s.kern.wq (.obj ())).map Prod.fst = [1, 2] ∧
      (s.kern.sched.item 2).prio < (s.kern.sched.item 1).prio ∧
      ¬ Honours .prio 4100 (s.kern, s.obj) := by
  intro cfg old
  let acts : List (Act (Fin 4) Unit (WaitArgs Unit) PoolOp) :=
    [.init 0 6 false, .call 0 (.timeout 0), .go 0, .go 0, .init 1 5 false, .call 1 (.timeout 9),
      .go 1, .go 1, .go 1, .init 2 3 false, .call 2 (.timeout 9), .go 2, .go 2, .go 2]
  have hrun : (run (step cfg (fxBlockPool cfg.checks)) acts
      (boot cfg (fxBlockPoolInit old 4096 12 5))).any (fun s =>
        s.obj.allocatedBlk 0 = some 4100 ∧ (s.kern.wq (.obj ())).map Prod.fst = [1, 2] ∧
          (s.kern.sched.item 2).prio < (s.kern.sched.item 1).prio ∧
          SyncPolicy.ofWord s.obj.policy = .fifo ∧
          fxSyncWaitBlockGet s.kern (.obj ()) .fifo ≠ fxSyncWaitBlockGet s.kern (.obj ()) .prio) =
      true := by
    decide +kernel
  obtain ⟨s, hr, hp⟩ := exists_of_run hrun
  obtain ⟨hblk, hq, hprio, hpol, hne⟩ := of_decide_eq_true hp
  have hwait : s.kern.wq (.obj ()) ≠ [] := fun h0 => by
    rw [h0] at hq
    cases hq
  refine ⟨_, s, rfl, hr, hblk, hq, hprio, fun h => hne ?_⟩
  rw [← hpol]
  exact (honours_iff hwait).mp h

end Vorgabe

end FxRtos
