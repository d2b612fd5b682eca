import Mathlib.Logic.Function.Basic
import MlkvPlus.Data.Transition
import MlkvPlus.Gds.RandomAccessFile.Slices
import MlkvPlus.Gds.Table

namespace MlkvPlus.Gds

open Sst (Status GDSGetContext MergeOperator)

def IOStatus.message : IOStatus → String
  | .ok => ""
  | .notFound message | .alreadyExists message | .invalidParam message | .cudaError message
  | .ioError message | .usageError message | .unsupportedError message => message

-- Where a lookup of multiget_gds stands: before the read of a block, before the seek in it,
-- before the copy of the value, or at its end.
inductive Phase where
  | reading (rest : List IndexEntry) (buffer : GDSDataBlockIterDevicePinnedBuffer)
      (context : GDSGetContext Bytes)
  | seeking (block : DeviceSlice) (entry : IndexEntry) (rest : List IndexEntry)
      (buffer : GDSDataBlockIterDevicePinnedBuffer) (context : GDSGetContext Bytes)
  | copying (value : DeviceSlice)
  | finished (result : OperationResult × Option Bytes)

namespace Phase

-- The slice that a lookup still uses.
def slice? : Phase → Option DeviceSlice
  | .seeking block _ _ _ _ => some block
  | .copying value => some value
  | .reading _ _ _ | .finished _ => none

def result? : Phase → Option (OperationResult × Option Bytes)
  | .finished result => some result
  | .reading _ _ _ | .seeking _ _ _ _ _ | .copying _ => none

-- More than the steps that are left.
def left : Phase → Nat
  | .reading rest _ _ => 2 * rest.length + 2
  | .seeking _ _ rest _ _ => 2 * rest.length + 3
  | .copying _ => 1
  | .finished _ => 0

end Phase

-- The lookups of one multiget_gds in one SST file. `buffer` is the pinned buffer of the thread.
structure Lookups (ι : Type) where
  contents : FileContents
  options : GDSOptions
  fileName : String
  trailerSize : Nat
  reader : GDSBlockBasedTableReader
  skipFilters : Bool
  mergeOperator : Option (MergeOperator Bytes)
  fuel : Nat
  user : ι → Bytes
  snapshot : ι → Nat
  buffer : ι → GDSDataBlockIterDevicePinnedBuffer

-- All lookups use the same file object.
structure System (ι : Type) where
  file : GDSRandomAccessFile
  phase : ι → Phase

-- Whose turn it is. EnsureGPUBuffer may allocate the buffer of the file anew.
structure Turn (ι : Type) where
  lookup : ι
  realloc : Option Memory := none

namespace GDSRandomAccessFile

-- EnsureGPUBuffer, which Read calls unless one cached block has the range.
def ensureGPUBuffer (file : GDSRandomAccessFile) (offset n : Nat) (realloc : Option Memory) :
    GDSRandomAccessFile :=
  match file.cachedPtr? offset n with
  | some _ => file
  | none => { file with gpuBuffer := realloc.getD file.gpuBuffer }

end GDSRandomAccessFile

namespace Lookups

variable {ι : Type} (lookups : Lookups ι)

def key (lookup : ι) : Bytes :=
  lookupKey (lookups.user lookup) (lookups.snapshot lookup)

def readSize (handle : BlockHandle) : Nat :=
  handle.size + lookups.trailerSize

-- GDSReadBlock: the slice is that of Read without the trailer.
def gdsReadBlock (file : GDSRandomAccessFile) (handle : BlockHandle) (realloc : Option Memory) :
    Outcome (Except Status DeviceSlice) × GDSRandomAccessFile :=
  let n := lookups.readSize handle
  let file := file.ensureGPUBuffer handle.offset n realloc
  match file.read {} lookups.contents handle.offset n none with
  | (.returned (.ok, bytes), next) =>
    if bytes.length ≠ n then
      (.returned (.error (.corruption ("Truncated block read from " ++ lookups.fileName ++
        " offset " ++ toString handle.offset ++ ", expected " ++ toString n ++
        " bytes, got " ++ toString bytes.length))), next)
    else (.returned (.ok (file.slice handle.offset n handle.size)), next)
  | (.returned (status, _), next) =>
    (.returned (.error (.ioError ("GDS read failed: " ++ status.message))), next)
  | (.threw what, next) => (.threw what, next)
  | (.aborted reason, next) => (.aborted reason, next)

def context (lookup : ι) : GDSGetContext Bytes where
  mergeOperator := lookups.mergeOperator
  userKey := lookups.user lookup
  deviceValue := some []

def start (lookup : ι) : Phase :=
  if lookups.skipFilters = true ∨ lookups.reader.filterMayMatch (lookups.key lookup) = true then
    .reading (lookups.reader.iterSeek (lookups.key lookup)) (lookups.buffer lookup)
      (lookups.context lookup)
  else .finished (.KEY_NOT_FOUND, none)

-- The end of Get in front of the index entries that are left.
def ending (lookup : ι) (left : List IndexEntry) (phase : Phase) : Phase :=
  if lookups.reader.indexStatus (lookups.key lookup) left ≠ .ok then
    .finished (.ROCKSDB_ERROR, none)
  else phase

-- The slice of the value is taken from the iterator where the search has ended; a merge sets
-- none.
def afterSearch (lookup : ι) (block : DeviceSlice) (entry : IndexEntry) (rest : List IndexEntry)
    (search : GDSBlockBasedTableReader.BlockSearch) : Phase :=
  if search.status ≠ .ok then .finished (.ROCKSDB_ERROR, none)
  else if search.done = true then
    lookups.ending lookup (entry :: rest) <|
      if search.context.state = .kFound then
        if search.context.operands = [] then
          .copying (block.part search.iter.valuePtr (toSize search.iter.valueLength))
        else .copying ⟨.gpuBuffer, 0, 0⟩
      else if search.context.state = .kCorrupt then .finished (.ROCKSDB_ERROR, none)
      else .finished (.KEY_NOT_FOUND, none)
  else .reading rest search.iter.toGDSDataBlockIterDevicePinnedBuffer search.context

variable [DecidableEq ι]

def readStep (s : System ι) (turn : Turn ι) (entry : IndexEntry) (rest : List IndexEntry)
    (buffer : GDSDataBlockIterDevicePinnedBuffer) (context : GDSGetContext Bytes) :
    Option (System ι) :=
  match lookups.gdsReadBlock s.file entry.value.handle turn.realloc with
  | (.returned (.ok block), file) =>
    some ⟨file, Function.update s.phase turn.lookup (.seeking block entry rest buffer context)⟩
  | (.returned (.error _), file) =>
    some ⟨file, Function.update s.phase turn.lookup (.finished (.ROCKSDB_ERROR, none))⟩
  | _ => none

-- The seek sees the block through its slice, as the memory is now.
def seekStep (s : System ι) (lookup : ι) (block : DeviceSlice) (entry : IndexEntry)
    (rest : List IndexEntry) (buffer : GDSDataBlockIterDevicePinnedBuffer)
    (context : GDSGetContext Bytes) : Option (System ι) :=
  let reader := { lookups.reader with readBlock := fun _ => .ok (s.file.memoryAt block) }
  match reader.searchBlock lookups.fuel (lookups.key lookup) entry.value.handle buffer context with
  | some (.returned (.ok search)) =>
    let phase := lookups.afterSearch lookup block entry rest search
    some { s with phase := Function.update s.phase lookup phase }
  | some (.returned (.error _)) =>
    some { s with phase := Function.update s.phase lookup (.finished (.ROCKSDB_ERROR, none)) }
  | _ => none

def step (s : System ι) (turn : Turn ι) : Option (System ι) :=
  let advance phase := some { s with phase := Function.update s.phase turn.lookup phase }
  match s.phase turn.lookup with
  | .reading [] _ _ =>
    advance (lookups.ending turn.lookup [] (.finished (.KEY_NOT_FOUND, none)))
  | .reading (entry :: rest) buffer context =>
    if GDSBlockBasedTableReader.fallsBetween (lookups.key turn.lookup) lookups.skipFilters
        entry.value = true then
      advance (lookups.ending turn.lookup (entry :: rest) (.finished (.KEY_NOT_FOUND, none)))
    else lookups.readStep s turn entry rest buffer context
  | .seeking block entry rest buffer context =>
    lookups.seekStep s turn.lookup block entry rest buffer context
  | .copying value => advance (.finished (.SUCCESS, some (s.file.bytesOf value)))
  | .finished _ => none

def machine : Transition.Machine (System ι) (Turn ι) where
  initial s := s.file.Ready lookups.contents lookups.options ∧ s.phase = lookups.start
  step := lookups.step

end Lookups

end MlkvPlus.Gds
