import MlkvPlus.Data.Ranges
import MlkvPlus.Dist

namespace MlkvPlus.Dist

open Ranges

def warpSize : Nat := 32

def keyWarpsPerBlock : Nat := 8

structure SelectLauncher where
  smCount : Nat
  maxSharedMemoryPerSm : Nat
  itemsPerGpuPerWarp : Nat

-- `keyBytes` is sizeof(KeyType). A positive number of splits makes the divisor positive.
def SelectLauncher.initialized (smCount sharedMemory keyBytes numSplits : Nat) : SelectLauncher :=
  let maxSharedMemoryPerSm := sharedMemory - 4 * 1024
  let items := maxSharedMemoryPerSm - 4 * keyWarpsPerBlock * numSplits
  let items := items / (numSplits * keyWarpsPerBlock * (keyBytes + 4))
  { smCount := smCount
    maxSharedMemoryPerSm := maxSharedMemoryPerSm
    itemsPerGpuPerWarp := items / 16 * 16 }

-- The part of the shared memory of a block that one warp works in.
structure WarpMemory (κ : Type) where
  keySmem : Nat → κ
  idxSmem : Nat → Nat
  cntSmem : Nat → Nat

-- What a lane knows in one pass of the loop. A lane behind the last key is left with these values.
structure Lane where
  chunkId : Nat := 0
  currLocalIdx : Nat := 0

structure Warp (κ : Type) where
  memory : WarpMemory κ
  lanes : Nat → Lane

-- A warp appends items to a chunk: the chunk, and keys with their indices.
abbrev Flush (κ : Type) := Nat × List (κ × Nat)

section Kernel

variable {κ : Type} (chunkOf : κ → Nat) (items : Nat) (inputKeys : List κ)

-- The place behind the keys that the warp has for the same chunk comes from an atomic counter.
def placeKey (base : Nat) (warp : Warp κ) (lane : Nat) : Warp κ :=
  match inputKeys[base + lane]? with
  | some key =>
    let chunkId := chunkOf key
    let currLocalIdx := warp.memory.cntSmem chunkId
    let offset := chunkId * items + currLocalIdx
    { memory :=
        { keySmem := Function.update warp.memory.keySmem offset key
          idxSmem := Function.update warp.memory.idxSmem offset (base + lane)
          cntSmem := Function.update warp.memory.cntSmem chunkId (currLocalIdx + 1) }
      lanes := Function.update warp.lanes lane ⟨chunkId, currLocalIdx⟩ }
  | none => warp

-- curr_local_idx == ITEMS_PER_GPU_PER_WARP - warpSize in size_t, so never with fewer items
-- than lanes.
def isFull (lane : Lane) : Bool :=
  lane.currLocalIdx + warpSize == items

-- The ballot is emptied from the highest lane down.
def fullChunks (lanes : Nat → Lane) : List Nat :=
  ((List.range warpSize).reverse.filter fun lane => isFull items (lanes lane)).map
    fun lane => (lanes lane).chunkId

-- What the lanes of a warp read of a chunk when they copy it.
def held (memory : WarpMemory κ) (chunk : Nat) : List (κ × Nat) :=
  (List.range (memory.cntSmem chunk)).map fun outputIdx =>
    (memory.keySmem (chunk * items + outputIdx), memory.idxSmem (chunk * items + outputIdx))

def resetCounts (cntSmem : Nat → Nat) (full : List Nat) : Nat → Nat :=
  full.foldl (fun counts chunk => Function.update counts chunk 0) cntSmem

-- One pass of the loop; the lanes reach the counters in the order `lanes`.
def pass (base : Nat) (lanes : List Nat) (memory : WarpMemory κ) :
    List (Flush κ) × WarpMemory κ :=
  let warp := lanes.foldl (placeKey chunkOf items inputKeys base) ⟨memory, fun _ => {}⟩
  let full := fullChunks items warp.lanes
  (full.map fun chunk => (chunk, held items warp.memory chunk),
    { warp.memory with cntSmem := resetCounts warp.memory.cntSmem full })

def passes (lanes : Nat → List Nat) : List Nat → WarpMemory κ → List (Flush κ) × WarpMemory κ
  | [], memory => ([], memory)
  | base :: rest, memory =>
    let (flushes, memory) := pass chunkOf items inputKeys base (lanes base) memory
    let (later, memory) := passes lanes rest memory
    (flushes ++ later, memory)

-- The tail of the kernel: what is left in the chunks.
def flushTail (chunks : Nat) (memory : WarpMemory κ) : List (Flush κ) :=
  ((List.range chunks).filter fun chunk => memory.cntSmem chunk ≠ 0).map fun chunk =>
    (chunk, held items memory chunk)

-- padded_input_size has 32 bits.
def paddedInputSize (numKeys : Nat) : Nat :=
  (numKeys + warpSize - 1) / warpSize * warpSize % 2 ^ 32

-- The threads of a block clear one counter each.
def clearCounts (chunks warp : Nat) (memory : WarpMemory κ) : WarpMemory κ :=
  { memory with
    cntSmem := fun chunk =>
      let counter := warp % keyWarpsPerBlock * chunks + chunk
      if counter < warpSize * keyWarpsPerBlock ∧ counter < chunks * keyWarpsPerBlock then 0
      else memory.cntSmem chunk }

-- The index of the first lane of a warp in its passes. The warps are counted through the blocks,
-- so that thread_idx + blockIdx.x * thread_cnt starts with their number.
def warpBases (smCount numKeys warp : Nat) : List Nat :=
  strided (warpSize * warp) (warpSize * (keyWarpsPerBlock * smCount)) (paddedInputSize numKeys)

def warpFlushes (chunks smCount warp : Nat) (lanes : Nat → List Nat) (memory : WarpMemory κ) :
    List (Flush κ) :=
  let (flushes, memory) := passes chunkOf items inputKeys lanes
    (warpBases smCount inputKeys.length warp) (clearCounts chunks warp memory)
  flushes ++ flushTail items chunks memory

end Kernel

-- One run of selectKernel: the order of the lanes in every pass, what shared memory and the
-- buffers hold before, and the order in which the warps append to the chunks.
structure SelectRun {κ : Type} (launcher : SelectLauncher) (chunks : Nat) (chunkOf : κ → Nat)
    (inputKeys : List κ) where
  lanes : Nat → Nat → List Nat
  lanes_perm : ∀ warp base, (lanes warp base).Perm (List.range warpSize)
  shared : Nat → WarpMemory κ
  buffers : Nat → κ × Nat
  threads : Nat → List (Action Nat (κ × Nat))
  programs : ∀ warp, Program warp
    (if warp < keyWarpsPerBlock * launcher.smCount then
      warpFlushes chunkOf launcher.itemsPerGpuPerWarp inputKeys chunks launcher.smCount warp
        (lanes warp) (shared warp)
    else []) (threads warp)
  run : List (Action Nat (κ × Nat))
  interleaves : Interleaves threads run

namespace SelectRun

variable {κ : Type} {launcher : SelectLauncher} {chunks : Nat} {chunkOf : κ → Nat}
  {inputKeys : List κ}

-- The splits are set to zero before; max_chunk_size is the number of keys.
def finish (run : SelectRun launcher chunks chunkOf inputKeys) : State Nat (κ × Nat) :=
  run.run.foldl (step inputKeys.length) ⟨fun _ => 0, fun _ => 0, run.buffers⟩

def splits (run : SelectRun launcher chunks chunkOf inputKeys) : List Nat :=
  (List.range chunks).map run.finish.count

-- The chunks are copied behind each other.
def copied (run : SelectRun launcher chunks chunkOf inputKeys) : List (κ × Nat) :=
  (List.range chunks).flatMap fun chunk =>
    (List.range (run.finish.count chunk)).map fun place =>
      run.finish.cells (chunk * inputKeys.length + place)

def output (run : SelectRun launcher chunks chunkOf inputKeys) : List κ :=
  run.copied.map Prod.fst

def order (run : SelectRun launcher chunks chunkOf inputKeys) : List Nat :=
  run.copied.map Prod.snd

end SelectRun

end MlkvPlus.Dist
