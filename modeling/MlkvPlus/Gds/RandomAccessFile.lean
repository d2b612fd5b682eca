import MlkvPlus.Gds.BlockCache
import MlkvPlus.Sst

namespace MlkvPlus.Gds

-- The contents of a file; file offsets are signed 64-bit numbers.
abbrev FileContents := { bytes : Bytes // bytes.length < 2 ^ 63 }

-- What cuFileReadAsync does: read up to the end of the file, stop early, or fail.
inductive CuFileRead where
  | complete
  | short (count : Nat)
  | failed (code : Int)
  deriving DecidableEq, Repr

structure ReadEnv where
  buffer : Bool := true
  read : CuFileRead := .complete
  deriving DecidableEq, Repr

-- The same for the host overload, with the texts of its CUDA errors.
structure HostReadEnv where
  bufferError : Option String := none
  read : CuFileRead := .complete
  copyError : Option String := none
  deriving DecidableEq, Repr

structure GDSRandomAccessFile where
  options : GDSOptions
  assertions : Bool
  gdsInitialized : Bool
  fileSize : Nat
  gpuBuffer : Memory
  gpuCache : Option GPUBlockCache

-- How a read goes to the file when the cache does not answer it.
structure ReadPlan where
  readOffset : Nat
  readN : Nat
  offsetInRead : Nat
  needTempBuffer : Bool
  shouldPrefetch : Bool
  deriving DecidableEq, Repr

namespace GDSRandomAccessFile

open GPUBlockCache

def openFile (options : GDSOptions) (assertions : Bool) (contents : FileContents)
    (gpuBuffer pool : Memory) : GDSRandomAccessFile where
  options := options
  assertions := assertions
  gdsInitialized := true
  fileSize := contents.1.length
  gpuBuffer := gpuBuffer
  gpuCache := if options.enableGPUCache = true then some (.create pool) else none

-- The cache answers from one block, or by copying from all blocks of the range.
def readCached (env : ReadEnv) (cache : GPUBlockCache) (gpuBuffer : Memory) (offset n : Nat)
    (scratch : Option Memory) : Option Bytes × Memory × GPUBlockCache :=
  match cache.tryGet offset n with
  | (some (cachedPtr, cachedSize), cache) =>
    if n ≤ cachedSize then (some (cache.pool.read cachedPtr n), gpuBuffer, cache)
    else multiBlock cache
  | (none, cache) => multiBlock cache
where
  multiBlock (cache : GPUBlockCache) : Option Bytes × Memory × GPUBlockCache :=
    match scratch with
    | some scratch =>
      match cache.tryGetMultiBlock offset n scratch with
      | (some output, cache) => (some (output.read 0 n), gpuBuffer, cache)
      | (none, cache) => (none, gpuBuffer, cache)
    | none =>
      if env.buffer = true then
        match cache.tryGetMultiBlock offset n gpuBuffer with
        | (some output, cache) => (some (output.read 0 n), output, cache)
        | (none, cache) => (none, gpuBuffer, cache)
      else (none, gpuBuffer, cache)

def choosePlan (file : GDSRandomAccessFile) (offset n : Nat) (hasScratch : Bool) : ReadPlan :=
  let alignment := file.options.gdsAlignment
  if file.gpuCache.isSome = true ∧ file.options.enableCachePrefetch = true ∧ n < BLOCK_SIZE ∧
      file.options.minReadSizeForCache ≤ n then
    -- small read: the whole cache block that holds its first byte
    let blockStart := offset / BLOCK_SIZE * BLOCK_SIZE
    { readOffset := blockStart
      readN := min BLOCK_SIZE (sub64 file.fileSize blockStart)
      offsetInRead := offset - blockStart
      needTempBuffer := true
      shouldPrefetch := true }
  else if offset % alignment = 0 ∧ n % alignment = 0 then
    { readOffset := offset, readN := n, offsetInRead := 0, needTempBuffer := !hasScratch,
      shouldPrefetch := false }
  else
    let readOffset := offset / alignment * alignment
    let offsetInRead := offset - readOffset
    { readOffset := readOffset
      readN := (offsetInRead + n + alignment - 1) % 2 ^ 64 / alignment * alignment
      offsetInRead := offsetInRead
      needTempBuffer := true
      shouldPrefetch := false }

def alignPlan (alignment : Nat) (plan : ReadPlan) : ReadPlan :=
  let plan := if plan.readOffset % alignment ≠ 0 then
      let alignedOffset := plan.readOffset / alignment * alignment
      { plan with
        offsetInRead := plan.offsetInRead + (plan.readOffset - alignedOffset)
        readOffset := alignedOffset }
    else plan
  if plan.readN % alignment ≠ 0 then
    { plan with readN := (plan.readN + alignment - 1) % 2 ^ 64 / alignment * alignment }
  else plan

-- The bytes cuFileReadAsync puts at the start of the read buffer.
def readData (result : CuFileRead) (contents : Bytes) (plan : ReadPlan) :
    Except Int Bytes :=
  let available := (contents.drop plan.readOffset).take plan.readN
  match result with
  | .complete => .ok available
  | .short count => .ok (available.take count)
  | .failed code => .error code

-- Only a prefetched block is cached, and its size is capped at the block size.
def cacheBlock (cache : Option GPUBlockCache) (plan : ReadPlan) (blockStart : Nat)
    (readBuffer : Memory) (bytesRead : Nat) : Option GPUBlockCache :=
  cache.map fun cache =>
    if 0 < bytesRead ∧ plan.shouldPrefetch = true then
      cache.put blockStart readBuffer (min bytesRead BLOCK_SIZE)
    else cache

def readFile (env : ReadEnv) (contents : FileContents) (file : GDSRandomAccessFile)
    (offset n : Nat) (scratch : Option Memory) :
    Outcome (IOStatus × Bytes) × GDSRandomAccessFile :=
  let alignment := file.options.gdsAlignment
  let plan := alignPlan alignment (file.choosePlan offset n scratch.isSome)
  let blockStart := offset / BLOCK_SIZE * BLOCK_SIZE
  if plan.needTempBuffer = true ∧ env.buffer = false then
    (.returned (.ioError "Failed to ensure GPU buffer", []), file)
  else
    checkedAssert file.assertions (plan.readN % alignment = 0)
      "read_n % options_.GDSAlignment == 0"
      (checkedAssert file.assertions (plan.readOffset % alignment = 0)
        "read_offset % options_.GDSAlignment == 0"
        (match readData env.read contents.1 plan with
        | .error code =>
          (.returned (.ioError ("cuFileRead failed with error: " ++ toString code), []), file)
        | .ok data =>
          let target := if plan.needTempBuffer = true then file.gpuBuffer
            else scratch.getD file.gpuBuffer
          let readBuffer := target.store 0 data
          let actualBytes := min n (sub64 data.length plan.offsetInRead)
          let start := if plan.needTempBuffer = true then plan.offsetInRead else 0
          (.returned (.ok, readBuffer.read start actualBytes), { file with
            gpuBuffer := if plan.needTempBuffer = true then readBuffer else file.gpuBuffer
            gpuCache := cacheBlock file.gpuCache plan blockStart readBuffer data.length })) file)
      file

-- The GPU overload of Read. `scratch` is the caller's buffer; the bytes are those of the
-- returned slice.
def read (env : ReadEnv) (contents : FileContents) (file : GDSRandomAccessFile)
    (offset n : Nat) (scratch : Option Memory) :
    Outcome (IOStatus × Bytes) × GDSRandomAccessFile :=
  if file.gdsInitialized = false then (.returned (.ioError "GDS not initialized", []), file)
  else
    match file.gpuCache with
    | none => file.readFile env contents offset n scratch
    | some cache =>
      match readCached env cache file.gpuBuffer offset n scratch with
      | (some bytes, gpuBuffer, cache) =>
        (.returned (.ok, bytes), { file with gpuBuffer := gpuBuffer, gpuCache := some cache })
      | (none, gpuBuffer, cache) =>
        { file with gpuBuffer := gpuBuffer, gpuCache := some cache }.readFile env contents
          offset n scratch

-- The aligned range around the wanted one.
def hostPlan (alignment offset n : Nat) : ReadPlan :=
  if offset % alignment = 0 ∧ n % alignment = 0 then
    { readOffset := offset, readN := n, offsetInRead := 0, needTempBuffer := true,
      shouldPrefetch := false }
  else
    let readOffset := offset / alignment * alignment
    let offsetInAlignedBlock := offset - readOffset
    { readOffset := readOffset
      readN := (offsetInAlignedBlock + n + alignment - 1) % 2 ^ 64 / alignment * alignment
      offsetInRead := offsetInAlignedBlock
      needTempBuffer := true
      shouldPrefetch := false }

-- Without alignment, `n` stands if nothing behind the start of the range was read.
def hostBytes (alignment offset n bytesRead offsetInAlignedBlock : Nat) : Nat :=
  if offset % alignment = 0 ∧ n % alignment = 0 then min n bytesRead
  else if offsetInAlignedBlock < bytesRead then min n (sub64 bytesRead offsetInAlignedBlock)
  else n

-- The host overload of Read, which does not use the cache.
def readHost (env : HostReadEnv) (contents : FileContents) (file : GDSRandomAccessFile)
    (offset n : Nat) (scratch : Option Memory) :
    Outcome (Sst.Status × Bytes) × GDSRandomAccessFile :=
  let alignment := file.options.gdsAlignment
  let plan := hostPlan alignment offset n
  if file.gdsInitialized = false then (.returned (.ioError "GDS not initialized", []), file)
  else
    match scratch, env.bufferError with
    | none, _ => (.returned (.invalidArgument "scratch buffer is null", []), file)
    | some _, some error =>
      (.returned (.ioError ("Failed to allocate GPU buffer: " ++
        ("Failed to allocate GPU buffer: " ++ error)), []), file)
    | some _, none =>
      checkedAssert file.assertions (plan.readN % alignment = 0)
        "read_n % options_.GDSAlignment == 0"
        (checkedAssert file.assertions (plan.readOffset % alignment = 0)
          "read_offset % options_.GDSAlignment == 0"
          (match readData env.read contents.1 plan with
          | .error code =>
            (.returned (.ioError ("cuFileRead failed with error: " ++ toString code), []), file)
          | .ok data =>
            let file := { file with gpuBuffer := file.gpuBuffer.store 0 data }
            match env.copyError with
            | some error =>
              (.returned (.ioError ("Failed to copy data from GPU to host: " ++ error), []),
                file)
            | none =>
              (.returned (.ok, file.gpuBuffer.read plan.offsetInRead
                (hostBytes alignment offset n data.length plan.offsetInRead)), file))
          file) file

end GDSRandomAccessFile

end MlkvPlus.Gds
