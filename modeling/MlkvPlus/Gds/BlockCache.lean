import Mathlib.Data.List.AList
import MlkvPlus.Data.Memory

namespace MlkvPlus.Gds

-- Unsigned 64-bit subtraction.
def sub64 (a b : Nat) : Nat :=
  (a + 2 ^ 64 - b) % 2 ^ 64

theorem sub64_of_le (hle : b ≤ a) (hlt : a < 2 ^ 64) : sub64 a b = a - b := by
  unfold sub64
  omega

-- `dData` is the address of the block in the cache pool.
structure CacheBlock where
  blockId : Nat
  dData : Nat
  size : Nat
  accessCount : Nat := 0
  deriving DecidableEq, Repr

structure GPUBlockCache where
  poolAllocated : Bool := true
  pool : Memory
  cacheMap : AList fun _ : Nat => CacheBlock
  slotMap : AList fun _ : Nat => Nat
  -- the back of the vector is the head of the list
  freeSlots : List Nat
  accessCounter : Nat

namespace GPUBlockCache

def BLOCK_SIZE : Nat := 256 * 1024

def MAX_CACHED_BLOCKS : Nat := 512

def create (pool : Memory) : GPUBlockCache where
  pool := pool
  cacheMap := ∅
  slotMap := ∅
  freeSlots := []
  accessCounter := 0

def touch (cache : GPUBlockCache) (blockId : Nat) (block : CacheBlock) : GPUBlockCache :=
  { cache with
    accessCounter := (cache.accessCounter + 1) % 2 ^ 64
    cacheMap := cache.cacheMap.insert blockId
      { block with accessCount := (cache.accessCounter + 1) % 2 ^ 64 } }

-- The address of the cached data and its size; `none` stands for the null pointer.
def tryGet (cache : GPUBlockCache) (fileOffset requestSize : Nat) :
    Option (Nat × Nat) × GPUBlockCache :=
  let blockId := fileOffset / BLOCK_SIZE
  let offsetInBlock := fileOffset % BLOCK_SIZE
  match cache.cacheMap.lookup blockId with
  | none => (none, cache)
  | some block =>
    if block.size < (offsetInBlock + requestSize) % 2 ^ 64 then (none, cache)
    else
      (some (block.dData + offsetInBlock, min requestSize (sub64 block.size offsetInBlock)),
        cache.touch blockId block)

-- The copies out of the blocks `blockId`, `blockId + 1`, ..., into `output`.
def copyBlocks (cache : GPUBlockCache) (requestSize : Nat) :
    Nat → Nat → Nat → Nat → Memory → Memory × GPUBlockCache
  | 0, _, _, _, output => (output, cache)
  | count + 1, blockId, copied, currentOffset, output =>
    let block := (cache.cacheMap.lookup blockId).getD ⟨0, 0, 0, 0⟩
    let blockStart := blockId * BLOCK_SIZE
    let offsetInBlock := sub64 currentOffset blockStart
    let bytesInThisBlock := min (sub64 requestSize copied) (sub64 block.size offsetInBlock)
    copyBlocks (cache.touch blockId block) requestSize count (blockId + 1)
      (copied + bytesInThisBlock) (currentOffset + bytesInThisBlock)
      (output.store copied (cache.pool.read (block.dData + offsetInBlock) bytesInThisBlock))

def tryGetMultiBlock (cache : GPUBlockCache) (fileOffset requestSize : Nat) (output : Memory) :
    Option Memory × GPUBlockCache :=
  if requestSize = 0 then (some output, cache)
  else
    let startBlock := fileOffset / BLOCK_SIZE
    let endOffset := (fileOffset + requestSize - 1) % 2 ^ 64
    let endBlock := endOffset / BLOCK_SIZE
    let requiredBlocks := List.range' startBlock (endBlock + 1 - startBlock)
    if ∀ blockId ∈ requiredBlocks, (cache.cacheMap.lookup blockId).isSome = true then
      let (output, cache) := cache.copyBlocks requestSize (endBlock + 1 - startBlock) startBlock 0
        fileOffset output
      (some output, cache)
    else (none, cache)

-- The first entry with the smallest access count.
def leastRecent : List (Sigma fun _ : Nat => CacheBlock) → Option Nat
  | [] => none
  | first :: rest =>
    some (rest.foldl (fun least entry =>
      if entry.2.accessCount < least.2.accessCount then entry else least) first).1

def evictLRU (cache : GPUBlockCache) : GPUBlockCache :=
  match leastRecent cache.cacheMap.entries with
  | none => cache
  | some evictedBlockId =>
    let slotIdx := (cache.slotMap.lookup evictedBlockId).getD 0
    { cache with
      freeSlots := slotIdx :: cache.freeSlots
      slotMap := cache.slotMap.erase evictedBlockId
      cacheMap := cache.cacheMap.erase evictedBlockId }

def takeSlot (cache : GPUBlockCache) : Nat × GPUBlockCache :=
  match cache.freeSlots with
  | [] => (cache.cacheMap.keys.length, cache)
  | slot :: rest => (slot, { cache with freeSlots := rest })

def put (cache : GPUBlockCache) (fileOffset : Nat) (source : Memory) (size : Nat) :
    GPUBlockCache :=
  if cache.poolAllocated = false then cache
  else
    let blockId := fileOffset / BLOCK_SIZE
    if (cache.cacheMap.lookup blockId).isSome = true then cache
    else
      let cache := if MAX_CACHED_BLOCKS ≤ cache.cacheMap.keys.length then cache.evictLRU else cache
      let (slotIdx, cache) := cache.takeSlot
      if MAX_CACHED_BLOCKS ≤ slotIdx then cache
      else
        let copySize := min size BLOCK_SIZE
        { cache with
          pool := cache.pool.store (slotIdx * BLOCK_SIZE) (source.read 0 copySize)
          accessCounter := (cache.accessCounter + 1) % 2 ^ 64
          cacheMap := cache.cacheMap.insert blockId
            ⟨blockId, slotIdx * BLOCK_SIZE, copySize, (cache.accessCounter + 1) % 2 ^ 64⟩
          slotMap := cache.slotMap.insert blockId slotIdx }

def clear (cache : GPUBlockCache) : GPUBlockCache :=
  { cache with cacheMap := ∅, slotMap := ∅, freeSlots := [], accessCounter := 0 }

end GPUBlockCache

end MlkvPlus.Gds
