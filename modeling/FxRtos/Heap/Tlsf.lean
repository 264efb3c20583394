/-
  File:      FxRtos/Heap/Tlsf.lean
  Subject:   THE MEMORY POOL (rtl_mem_pool.c, TLSF), 32-bit. Memory is a function from the
             addresses of its words to their values.

  * A block header at `b` has `prev_phys_block` at `b`, `size` at `b + 4`, `next_free` at `b + 8`
    and `prev_free` at `b + 12`. Its two lowest size bits are the flags.
  * Of the pool object, only `block_null` is written through block pointers; it lies in the same
    memory, the bitmaps and list heads are fields. NULL is 0.
  * `rtlMemPoolInit`, `rtlMemPoolAddMem`, `rtlMemPoolAlloc`, `rtlMemPoolFree` -- the calls.
-/
import Mathlib.Logic.Function.Basic

namespace FxRtos

open Function (update)

/-! ## 1. Configuration and state -/

/-- FL_INDEX_MAX and SL_INDEX_COUNT_LOG2: a word holds a bit for every second-level index, there
    is a first-level index, and BLK_SIZE_MAX fits `size_t`. -/
structure TlsfConfig where
  flIndexMax : Nat
  slIndexCountLog2 : Nat
  sl_le : slIndexCountLog2 ≤ 5
  shift_le : slIndexCountLog2 + 2 ≤ flIndexMax
  max_le : flIndexMax ≤ 31

def alignSize : Nat := 4

def TlsfConfig.slIndexCount (cfg : TlsfConfig) : Nat := 1 <<< cfg.slIndexCountLog2

def TlsfConfig.flIndexShift (cfg : TlsfConfig) : Nat := cfg.slIndexCountLog2 + 2

def TlsfConfig.flIndexCount (cfg : TlsfConfig) : Nat := cfg.flIndexMax - cfg.flIndexShift + 1

def TlsfConfig.smallBlockSize (cfg : TlsfConfig) : Nat := 1 <<< cfg.flIndexShift

def TlsfConfig.blkSizeMax (cfg : TlsfConfig) : Nat := 1 <<< cfg.flIndexMax

abbrev Mem := Nat → Nat

/-- `rtl_mem_pool_t`; `blockNull` is the address of the member `block_null`. -/
structure RtlMemPool where
  blockNull : Nat
  flBitmap : BitVec 32
  slBitmap : Nat → BitVec 32
  blocks : Nat → Nat → Nat

structure Heap where
  mem : Mem
  pool : RtlMemPool

/-! ## 2. Words -/

def blkHeaderFreeBit : Nat := 1
def blkHeaderPrevFreeBit : Nat := 2
def blkHeaderOverhead : Nat := 4
def blkStartOffset : Nat := 8
def blkSizeMin : Nat := 12
def sizeofBlockHeader : Nat := 16

/-- The values of `size_t`. -/
def sizeT : Nat := 0x100000000

/-- `~x` of a word. -/
def bitNot (x : Nat) : Nat := 0xFFFFFFFF ^^^ x

def tlsfFfs (word : BitVec 32) : Int :=
  let reverse := word &&& (~~~word + 1#32)
  let bit : Int := 32 - reverse.clz.toNat
  bit - 1

def tlsfFls (word : BitVec 32) : Int :=
  let bit : Int := if word ≠ 0#32 then 32 - word.clz.toNat else 0
  bit - 1

def alignUp (x align : Nat) : Nat := ((x + (align - 1)) % sizeT) &&& bitNot (align - 1)

def alignDown (x align : Nat) : Nat := x - (x &&& (align - 1))

def adjustRequestSize (cfg : TlsfConfig) (size align : Nat) : Nat :=
  if size ≠ 0 then
    let aligned := alignUp size align
    -- aligned sized must not exceed BLK_SIZE_MAX
    if aligned < cfg.blkSizeMax then max aligned blkSizeMin else 0
  else 0

/-! ## 3. Blocks -/

def blockSize (mem : Mem) (block : Nat) : Nat :=
  mem (block + 4) &&& bitNot (blkHeaderFreeBit ||| blkHeaderPrevFreeBit)

def blockSetSize (mem : Mem) (block size : Nat) : Mem :=
  let oldsize := mem (block + 4)
  update mem (block + 4) (size ||| (oldsize &&& (blkHeaderFreeBit ||| blkHeaderPrevFreeBit)))

def blockIsFree (mem : Mem) (block : Nat) : Bool := mem (block + 4) &&& blkHeaderFreeBit != 0

def blockSetFree (mem : Mem) (block : Nat) : Mem :=
  update mem (block + 4) (mem (block + 4) ||| blkHeaderFreeBit)

def blockSetUsed (mem : Mem) (block : Nat) : Mem :=
  update mem (block + 4) (mem (block + 4) &&& bitNot blkHeaderFreeBit)

def blockIsPrevFree (mem : Mem) (block : Nat) : Bool :=
  mem (block + 4) &&& blkHeaderPrevFreeBit != 0

def blockSetPrevFree (mem : Mem) (block : Nat) : Mem :=
  update mem (block + 4) (mem (block + 4) ||| blkHeaderPrevFreeBit)

def blockSetPrevUsed (mem : Mem) (block : Nat) : Mem :=
  update mem (block + 4) (mem (block + 4) &&& bitNot blkHeaderPrevFreeBit)

def blockFromPtr (ptr : Nat) : Nat := ptr - blkStartOffset

def blockToPtr (block : Nat) : Nat := block + blkStartOffset

def blockPrev (mem : Mem) (block : Nat) : Nat := mem block

def blockNext (mem : Mem) (block : Nat) : Nat :=
  blockToPtr block + (blockSize mem block - blkHeaderOverhead)

/-- Its result is `blockNext`, which the write does not change. -/
def blockLinkNext (mem : Mem) (block : Nat) : Mem := update mem (blockNext mem block) block

def blockMarkAsFree (mem : Mem) (block : Nat) : Mem :=
  let next := blockNext mem block
  let mem := blockLinkNext mem block
  let mem := blockSetPrevFree mem next
  blockSetFree mem block

def blockMarkAsUsed (mem : Mem) (block : Nat) : Mem :=
  let next := blockNext mem block
  let mem := blockSetPrevUsed mem next
  blockSetUsed mem block

def blockCanSplit (mem : Mem) (block size : Nat) : Bool :=
  (sizeofBlockHeader + size) % sizeT ≤ blockSize mem block

def blockSplit (mem : Mem) (block size : Nat) : Nat × Mem :=
  let remaining := blockToPtr block + (size - blkHeaderOverhead)
  let remainSize := blockSize mem block - (size + blkHeaderOverhead)
  let mem := blockSetSize mem remaining remainSize
  let mem := blockSetSize mem block size
  (remaining, blockMarkAsFree mem remaining)

/-- Note: Leaves flags untouched. -/
def blockAbsorb (mem : Mem) (prev block : Nat) : Mem :=
  let mem := update mem (prev + 4)
    ((mem (prev + 4) + (blockSize mem block + blkHeaderOverhead)) % sizeT)
  blockLinkNext mem prev

/-! ## 4. Size classes and free lists -/

/-- The first-level and the second-level index. -/
def mappingInsert (cfg : TlsfConfig) (size : Nat) : Nat × Nat :=
  if size < cfg.smallBlockSize then (0, size / (cfg.smallBlockSize / cfg.slIndexCount))
  else
    let fl := (tlsfFls (BitVec.ofNat 32 size)).toNat
    (fl - (cfg.flIndexShift - 1),
      (size >>> (fl - cfg.slIndexCountLog2)) ^^^ (1 <<< cfg.slIndexCountLog2))

def mappingSearch (cfg : TlsfConfig) (size : Nat) : Nat × Nat :=
  if cfg.smallBlockSize ≤ size then
    let round := (1 <<< ((tlsfFls (BitVec.ofNat 32 size)).toNat - cfg.slIndexCountLog2)) - 1
    mappingInsert cfg ((size + round) % sizeT)
  else mappingInsert cfg size

/-- The block found and the indices of its list. -/
def searchSuitableBlock (control : RtlMemPool) (fl sl : Nat) : Nat × Nat × Nat :=
  let slMap := control.slBitmap fl &&& ((~~~0#32) <<< sl)
  if slMap = 0#32 then
    let flMap := control.flBitmap &&& ((~~~0#32) <<< (fl + 1))
    if flMap = 0#32 then (0, fl, sl)
    else
      let fl := (tlsfFfs flMap).toNat
      let sl := (tlsfFfs (control.slBitmap fl)).toNat
      (control.blocks fl sl, fl, sl)
  else
    let sl := (tlsfFfs slMap).toNat
    (control.blocks fl sl, fl, sl)

def RtlMemPool.setBlocks (control : RtlMemPool) (fl sl block : Nat) : RtlMemPool :=
  { control with blocks := update control.blocks fl (update (control.blocks fl) sl block) }

/-- The bits of an empty list. -/
def RtlMemPool.clearBit (control : RtlMemPool) (fl sl : Nat) : RtlMemPool :=
  let slMap := control.slBitmap fl &&& ~~~(1#32 <<< sl)
  { control with
    slBitmap := update control.slBitmap fl slMap
    -- If the second bitmap is now empty, clear the fl bitmap.
    flBitmap := if slMap = 0#32 then control.flBitmap &&& ~~~(1#32 <<< fl)
      else control.flBitmap }

/-- Remove a free block from the free list. -/
def removeFreeBlock (h : Heap) (block fl sl : Nat) : Heap :=
  let prev := h.mem (block + 12)
  let next := h.mem (block + 8)
  let mem := update h.mem (next + 12) prev
  let mem := update mem (prev + 8) next
  let control := h.pool
  -- If this block is the head of the free list, set new head.
  if control.blocks fl sl = block then
    let control := control.setBlocks fl sl next
    -- If the new head is null, clear the bitmap.
    if next = control.blockNull then ⟨mem, control.clearBit fl sl⟩ else ⟨mem, control⟩
  else ⟨mem, control⟩

def insertFreeBlock (h : Heap) (block fl sl : Nat) : Heap :=
  let control := h.pool
  let current := control.blocks fl sl
  let mem := update h.mem (block + 8) current
  let mem := update mem (block + 12) control.blockNull
  let mem := update mem (current + 12) block
  let control := control.setBlocks fl sl block
  ⟨mem, { control with
    flBitmap := control.flBitmap ||| 1#32 <<< fl
    slBitmap := update control.slBitmap fl (control.slBitmap fl ||| 1#32 <<< sl) }⟩

def blockRemove (cfg : TlsfConfig) (h : Heap) (block : Nat) : Heap :=
  let (fl, sl) := mappingInsert cfg (blockSize h.mem block)
  removeFreeBlock h block fl sl

def blockInsert (cfg : TlsfConfig) (h : Heap) (block : Nat) : Heap :=
  let (fl, sl) := mappingInsert cfg (blockSize h.mem block)
  insertFreeBlock h block fl sl

/-- Merge a just-freed block with an adjacent previous free block. -/
def blockMergePrev (cfg : TlsfConfig) (h : Heap) (block : Nat) : Nat × Heap :=
  if blockIsPrevFree h.mem block then
    let prev := blockPrev h.mem block
    let h := blockRemove cfg h prev
    (prev, { h with mem := blockAbsorb h.mem prev block })
  else (block, h)

/-- Merge a just-freed block with an adjacent free block. -/
def blockMergeNext (cfg : TlsfConfig) (h : Heap) (block : Nat) : Nat × Heap :=
  let next := blockNext h.mem block
  if blockIsFree h.mem next then
    let h := blockRemove cfg h next
    (block, { h with mem := blockAbsorb h.mem block next })
  else (block, h)

/-- Trim any trailing block space off the end of a block, return to pool. -/
def blockTrimFree (cfg : TlsfConfig) (h : Heap) (block size : Nat) : Heap :=
  if blockCanSplit h.mem block size then
    let (remaining, mem) := blockSplit h.mem block size
    let mem := blockLinkNext mem block
    let mem := blockSetPrevFree mem remaining
    blockInsert cfg { h with mem := mem } remaining
  else h

def blockLocateFree (cfg : TlsfConfig) (h : Heap) (size : Nat) : Nat × Heap :=
  if size ≠ 0 then
    let (fl, sl) := mappingSearch cfg size
    let (block, fl, sl) := searchSuitableBlock h.pool fl sl
    if block ≠ 0 then
      let h := removeFreeBlock h block fl sl
      if h.mem (block + 4) = 0 then (0, h) else (block, h)
    else (0, h)
  else (0, h)

def blockPrepareUsed (cfg : TlsfConfig) (h : Heap) (block size : Nat) : Nat × Heap :=
  if block ≠ 0 then
    let h := blockTrimFree cfg h block size
    (blockToPtr block, { h with mem := blockMarkAsUsed h.mem block })
  else (0, h)

/-! ## 5. The calls -/

/-- The object at `pool`, whatever it held before. -/
def rtlMemPoolInit (cfg : TlsfConfig) (h : Heap) : Heap :=
  let null := h.pool.blockNull
  { mem := update (update h.mem (null + 8) null) (null + 12) null
    pool :=
    { blockNull := null
      flBitmap := 0#32
      slBitmap := fun i => if i < cfg.flIndexCount then 0#32 else h.pool.slBitmap i
      blocks := fun i j =>
        if i < cfg.flIndexCount ∧ j < cfg.slIndexCount then null else h.pool.blocks i j } }

def poolBytes (bytes : Nat) : Nat :=
  alignDown ((bytes + (sizeT - 2 * blkHeaderOverhead)) % sizeT) alignSize

def rtlMemPoolAddMem (cfg : TlsfConfig) (h : Heap) (base bytes : Nat) : Bool × Heap :=
  let size := poolBytes bytes
  if size < blkSizeMin ∨ cfg.blkSizeMax < size then (false, h)
  else
    let block := base - blkHeaderOverhead
    let mem := blockSetSize h.mem block size
    let mem := blockSetFree mem block
    let mem := blockSetPrevUsed mem block
    let h := blockInsert cfg { h with mem := mem } block
    let next := blockNext h.mem block
    let mem := blockLinkNext h.mem block
    let mem := blockSetSize mem next 0
    let mem := blockSetUsed mem next
    let mem := blockSetPrevFree mem next
    (true, { h with mem := mem })

/-- The pointer to allocated memory, or NULL. -/
def rtlMemPoolAlloc (cfg : TlsfConfig) (h : Heap) (size : Nat) : Nat × Heap :=
  let adjust := adjustRequestSize cfg size alignSize
  let (block, h) := blockLocateFree cfg h adjust
  blockPrepareUsed cfg h block adjust

def rtlMemPoolFree (cfg : TlsfConfig) (h : Heap) (ptr : Nat) : Heap :=
  let block := blockFromPtr ptr
  let mem := blockMarkAsFree h.mem block
  let (block, h) := blockMergePrev cfg { h with mem := mem } block
  let (block, h) := blockMergeNext cfg h block
  blockInsert cfg h block

end FxRtos
