import MlkvPlus.Gwal
import MlkvPlus.WriteBatch

namespace MlkvPlus

open Gds Log

inductive OperationResult where
  | SUCCESS
  | KEY_NOT_FOUND
  | STORAGE_FULL
  | GPU_ALL_FOUND
  | GPU_EVICTED
  | CUDA_ERROR
  | ROCKSDB_ERROR
  | INVALID_PARAMETER
  deriving DecidableEq, Repr

structure StorageConfig where
  enableGdsLog : Bool := false
  enableGdsGetFromSst : Bool := false
  disableWAL : Bool := false
  forceSkipMemtable : Bool := false
  deriving DecidableEq, Repr

-- What a call meets outside of its own code. `keyVariable` is the memory at `&key`
-- in `put`, where `key` is itself a pointer.
structure CallEnv (K : Type) [Scalar K] where
  keyVariable : DeviceBuffer (Scalar.size K)
  walStatus : Bool := true
  headerBuffer : DeviceBuffer kRecyclableHeaderSize
  trailerBuffer : DeviceBuffer trailerBufferSize
  fresh : (size : Nat) → DeviceBuffer size
  fragments : Nat → FragmentEnv := fun _ => {}
  writeStatus : Bool := true

-- `memtable` lists the entries RocksDB was given, with their sequence numbers, and
-- `appended` the payloads that AddRecord returned OK for, with the number of the WAL file.
structure MemDisk where
  lastSequence : Nat
  memtable : List (Nat × WriteBatch.Entry)
  currentWal : Nat
  walFile : Nat
  writer : GWALWriter
  appended : List (Nat × Bytes)
  deriving DecidableEq

def serializeValueArray [Scalar V] (values : Vector V dim) : Bytes :=
  Bytes.fixed 8 dim ++ vectorBytes values

def deserializeValueArray [Scalar V] (raw : Bytes) : List V :=
  (List.range (Bytes.decodeFixed (raw.take 8))).map fun index =>
    Scalar.ofBytes ((raw.drop (8 + index * Scalar.size V)).take (Scalar.size V))

def numbered : Nat → List WriteBatch.Entry → List (Nat × WriteBatch.Entry)
  | _, [] => []
  | sequence, entry :: rest => (sequence, entry) :: numbered (sequence + 1) rest

namespace MemDisk

variable {K V : Type} [Scalar K] [Scalar V] {dim : Nat}

-- The writer is created on the current WAL, which RocksDB leaves empty.
def initializeTree (lastSequence wal : Nat) (assertions : Bool)
    (headerBuffer : DeviceBuffer kRecyclableHeaderSize)
    (trailerBuffer : DeviceBuffer trailerBufferSize) : MemDisk where
  lastSequence := lastSequence
  memtable := []
  currentWal := wal
  walFile := wal
  writer := .create [] assertions headerBuffer trailerBuffer
  appended := []

-- rocksdb::DB::Write, for the entries of a batch.
def write (env : CallEnv K) (s : MemDisk) (batch : List WriteBatch.Entry) : Bool × MemDisk :=
  if env.writeStatus = false then (false, s)
  else (true, { s with
    lastSequence := s.lastSequence + batch.length
    memtable := s.memtable ++ numbered (s.lastSequence + 1) batch })

-- GetCurrentWalFile, and a new writer when the current file is another one.
def selectWriter (env : CallEnv K) (s : MemDisk) : Outcome Unit × MemDisk :=
  if env.walStatus = false then (.threw "Failed to get current wal file", s)
  else if s.walFile = s.currentWal then (.returned (), s)
  else (.returned (), { s with
    walFile := s.currentWal
    writer := .create [] s.writer.dest.assertions env.headerBuffer env.trailerBuffer })

def appendRecord (env : CallEnv K) (s : MemDisk) (payload : Bytes) : Outcome Unit × MemDisk :=
  match s.writer.addRecord env.fragments payload with
  | (.returned .ok, writer) => (.returned (), { s with
      writer := writer
      appended := s.appended ++ [(s.walFile, payload)] })
  | (.returned _, writer) =>
    (.threw "Failed to write generated batch to WAL", { s with writer := writer })
  | (.threw what, writer) => (.threw what, { s with writer := writer })
  | (.aborted reason, writer) => (.aborted reason, { s with writer := writer })

-- The log part of a call, with the sequence number that the call passes down.
def logBatch (env : CallEnv K) (s : MemDisk) (pairs : List (K × Vector V dim))
    (sequenceNumber : Nat) : Outcome Unit × MemDisk :=
  match s.selectWriter env with
  | (.returned (), s') =>
    match WriteBatch.generateTypedWriteBatch env.fresh pairs sequenceNumber with
    | .ok payload => s'.appendRecord env payload
    | .error _ => (.threw "Failed to generate typed write batch", s')
  | ended => ended

-- rocksdb::DB::Put under the bytes at `&key`, the address of the pointer: the entry
-- is stored under the bytes of the pointer, while the log gets the key itself.
def rocksPut (env : CallEnv K) (s : MemDisk) (values : Vector V dim) : Bool × MemDisk :=
  match WriteBatch.put [] env.keyVariable.1 (serializeValueArray values) with
  | .ok batch => s.write env batch
  | .error _ => (false, s)

def put (config : StorageConfig) (env : CallEnv K) (s : MemDisk) (key : K)
    (values : Vector V dim) : Outcome OperationResult × MemDisk :=
  match s.rocksPut env values with
  | (status, s') =>
    let result : OperationResult := if status then .SUCCESS else .ROCKSDB_ERROR
    if config.enableGdsLog = true then
      match s'.logBatch env [(key, values)] s'.lastSequence with
      | (.returned (), s'') => (.returned result, s'')
      | (.threw what, s'') => (.threw what, s'')
      | (.aborted reason, s'') => (.aborted reason, s'')
    else (.returned result, s')

-- The status of WriteBatch::Put is not looked at.
def addPair (batch : List WriteBatch.Entry) (pair : K × Vector V dim) : List WriteBatch.Entry :=
  match WriteBatch.put batch (Scalar.toBytes pair.1) (serializeValueArray pair.2) with
  | .ok batch' => batch'
  | .error _ => batch

def buildBatch (pairs : List (K × Vector V dim)) : List WriteBatch.Entry :=
  pairs.foldl addPair []

def writeBatch (env : CallEnv K) (s : MemDisk) (batch : List WriteBatch.Entry) :
    Outcome OperationResult × MemDisk :=
  match s.write env batch with
  | (true, s') => (.returned .SUCCESS, s')
  | (false, s') => (.threw "Failed to write batch to RocksDB", s')

def multiset (config : StorageConfig) (env : CallEnv K) (s : MemDisk)
    (pairs : List (K × Vector V dim)) : Outcome OperationResult × MemDisk :=
  if pairs.length = 0 then (.threw "RocksDB multiset error", s)
  else if config.enableGdsLog = true then
    match s.logBatch env pairs (s.lastSequence + 1) with
    | (.returned (), s') => s'.writeBatch env (buildBatch pairs)
    | (.threw what, s') => (.threw what, s')
    | (.aborted reason, s') => (.aborted reason, s')
  else s.writeBatch env (buildBatch pairs)

end MemDisk

inductive Call (K V : Type) (dim : Nat) where
  | put (key : K) (values : Vector V dim)
  | multiset (pairs : List (K × Vector V dim))

-- The length of the payload of a call, from the sizes of its pairs.
def Call.payloadSize [Scalar K] [Scalar V] : Call K V dim → Nat
  | .put _ _ =>
    WriteBatch.kWriteBatchHeader + WriteBatch.recordSize (Scalar.size K) (Scalar.size V * dim)
  | .multiset pairs =>
    WriteBatch.kWriteBatchHeader +
      pairs.length * WriteBatch.recordSize (Scalar.size K) (Scalar.size V * dim)

namespace MemDisk

def call [Scalar K] [Scalar V] (config : StorageConfig) (env : CallEnv K) (s : MemDisk) :
    Call K V dim → Outcome OperationResult × MemDisk
  | .put key values => s.put config env key values
  | .multiset pairs => s.multiset config env pairs

-- The log and the memtable grew by the same write: the payload decodes to a sequence
-- number and puts, and these are what RocksDB applied.
def LogAgrees (s s' : MemDisk) : Prop :=
  ∃ wal payload sequenceNumber entries,
    s'.appended = s.appended ++ [(wal, payload)] ∧
    WriteBatch.decode payload = some (sequenceNumber, entries) ∧
    s'.memtable = s.memtable ++ numbered sequenceNumber entries

end MemDisk

end MlkvPlus
