import Mathlib.Data.List.Dedup
import MlkvPlus.Data.Tiered
import MlkvPlus.MemDisk

namespace MlkvPlus

open Tiered

-- RocksDB as a map: what is in the memtables, and what is in the files.
structure RocksDB where
  memtable : Bytes → Option Bytes
  sst : Bytes → Option Bytes

namespace RocksDB

def empty : RocksDB := ⟨fun _ => none, fun _ => none⟩

-- `skipMemtable` is the read option force_skip_memtable.
def get (db : RocksDB) (skipMemtable : Bool) (key : Bytes) : Option Bytes :=
  if skipMemtable = true then db.sst key else overlay db.memtable db.sst key

def write (db : RocksDB) (batch : List (Bytes × Bytes)) : RocksDB :=
  { db with memtable := writeAll db.memtable batch }

def flush (db : RocksDB) : RocksDB :=
  { memtable := fun _ => none, sst := overlay db.memtable db.sst }

end RocksDB

-- The contract of HKV's insert_and_evict: the keys that are not reserved come in, in any
-- order, and entries are dropped at any moment, if anything comes in.
structure Schedule {K W : Type} (reserved : K → Bool) (batch : List (K × W)) where
  events : List (Event K W)
  complete : (inserts events).Perm (batch.filter fun pair => reserved pair.1 = false)
  quiet : inserts events = [] → drops events = []

-- Everything comes in, and then the keys in `dropped` go.
def Schedule.dropping {K W : Type} (reserved : K → Bool) (dropped : List K)
    (batch : List (K × W)) : Schedule reserved batch :=
  let pairs := batch.filter fun pair => reserved pair.1 = false
  { events := insertThenDrop pairs (if pairs.isEmpty then [] else dropped)
    complete := by rw [inserts_insertThenDrop]
    quiet := by
      rw [inserts_insertThenDrop, drops_insertThenDrop]
      intro hpairs
      rw [hpairs]
      rfl }

inductive Fault where
  | noTable
  | afterInsert
  | memdisk (what : String)
  | free (what : String)
  deriving DecidableEq, Repr

-- What a batch write meets outside of its own code.
structure WriteEnv {K : Type} (reserved : K → Bool) (V : Type) (dim : Nat) where
  schedule : (K → Option (Vector V dim)) → (batch : List (K × Vector V dim)) →
    Schedule reserved batch
  fault : Option Fault := none

-- What a read meets: `garbage` is the memory of the unset values, `heap` the memory behind a
-- decoded array, and `keeps` the older entries that stay in the lookup buffer. `allFound` is what
-- check_all_true_kernel says of the found flags, `hostReads` whether the host can read memory of
-- the device, `memtableStatus` whether a read of the memtable tier alone works, and `readStatus`
-- whether any other read of RocksDB does.
structure ReadEnv {K : Type} (reserved : K → Bool) (V : Type) (dim : Nat)
    extends WriteEnv reserved V dim where
  garbage : Nat → Vector V dim
  heap : Nat → V
  allFound : List Bool → Bool := fun found => found.all id
  hostReads : Bool := true
  memtableStatus : K → Bool := fun _ => true
  readStatus : K → Bool := fun _ => true
  keeps : K → Bool := fun _ => true

-- Reads that meet schedules of one kind, and zeros in memory.
def ReadEnv.dropping {K V : Type} [Scalar V] {dim : Nat} (reserved : K → Bool) (dropped : List K)
    (fault : Option Fault) : ReadEnv reserved V dim where
  schedule _ batch := .dropping reserved dropped batch
  fault := fault
  garbage _ := Vector.replicate dim (Scalar.ofBytes [])
  heap _ := Scalar.ofBytes []

inductive PutFault where
  | noTable
  | beforeInsert (what : String)
  | afterInsert (what : String)
  | copy (what : String)
  | log (what : String)
  | free (what : String)
  deriving DecidableEq, Repr

-- What a put of one key meets: `victim` is the entry that HKV drops when the key comes in,
-- `keyVariable` the memory at `&key` in the lower tier's put, where `key` is itself a pointer,
-- and `status` what RocksDB's Put returns.
structure PutEnv {K : Type} [Scalar K] (reserved : K → Bool) (V : Type) (dim : Nat) where
  victim : (K → Option (Vector V dim)) → K → Option K
  keyVariable : DeviceBuffer (Scalar.size K)
  status : Bool := true
  fault : Option PutFault := none

structure DB (K V : Type) (dim : Nat) where
  config : StorageConfig
  initialized : Bool
  gpu : K → Option (Vector V dim)
  buffer : K → Option (Vector V dim)
  rocks : RocksDB

variable {K V : Type} {dim : Nat} [DecidableEq K] [Scalar K] [Scalar V] {reserved : K → Bool}

namespace MemDiskTree

-- One put of a batch, as the bytes RocksDB gets.
def entryOf (pair : K × Vector V dim) : Bytes × Bytes :=
  (Scalar.toBytes pair.1, serializeValueArray pair.2)

-- `dim` values are copied from the decoded array, whatever its length.
def loadVector (heap : Nat → V) (raw : Bytes) : Vector V dim :=
  Vector.ofFn fun index => (deserializeValueArray raw).getD index (heap index)

def multiset (rocks : RocksDB) (pairs : List (K × Vector V dim)) : RocksDB :=
  rocks.write (pairs.map entryOf)

-- The key slice is the memory of the pointer variable.
def put (rocks : RocksDB) (keyVariable : DeviceBuffer (Scalar.size K)) (values : Vector V dim) :
    RocksDB :=
  rocks.write [(keyVariable.1, serializeValueArray values)]

-- The put of an evicted entry, with what can fail in it: the copies to the host throw before
-- RocksDB is called, and the log part throws after it.
def putEvicted (config : StorageConfig) (env : PutEnv reserved V dim) (rocks : RocksDB)
    (values : Vector V dim) : Outcome OperationResult × RocksDB :=
  match env.fault with
  | some (.copy what) => (.threw what, rocks)
  | fault =>
    let rocks' := if env.status = true then put rocks env.keyVariable values else rocks
    match config.enableGdsLog, fault with
    | true, some (.log what) => (.threw what, rocks')
    | _, _ => (.returned (if env.status = true then .SUCCESS else .ROCKSDB_ERROR), rocks')

-- What the memtable tier gives alone. A read of it that fails is taken for a missing key.
def memtableValue (env : ReadEnv reserved V dim) (rocks : RocksDB) (key : K) : Option Bytes :=
  if env.memtableStatus key = true then rocks.memtable (Scalar.toBytes key) else none

-- What RocksDB or the files gave for a key, as a result.
def getResult (env : ReadEnv reserved V dim) : Option Bytes →
    OperationResult × Option (Vector V dim)
  | none => (.KEY_NOT_FOUND, none)
  | some raw => (.SUCCESS, some (loadVector env.heap raw))

-- With the GDS path on, the memtable tier and the files are asked one after the other.
def get (config : StorageConfig) (env : ReadEnv reserved V dim) (rocks : RocksDB) (key : K) :
    OperationResult × Option (Vector V dim) :=
  if config.enableGdsGetFromSst = true then
    match if config.forceSkipMemtable = true then none else memtableValue env rocks key with
    | some raw => getResult env (some raw)
    | none =>
      if env.readStatus key = false then (.ROCKSDB_ERROR, none)
      else getResult env (rocks.sst (Scalar.toBytes key))
  else if env.readStatus key = false then (.ROCKSDB_ERROR, none)
  else getResult env (rocks.get config.forceSkipMemtable (Scalar.toBytes key))

-- The values of keys that RocksDB does not return stay as they were; their found flags are
-- zero, and nobody looks at the flags.
def multiget (env : ReadEnv reserved V dim) (rocks : RocksDB) (keys : List K) :
    List (K × Vector V dim) :=
  keys.mapIdx fun index key =>
    (key, if env.readStatus key = true then
        ((rocks.get false (Scalar.toBytes key)).map (loadVector env.heap)).getD (env.garbage index)
      else env.garbage index)

-- The loop over the keys that are not in the memtable. A key that is the null pointer when
-- taken as one is refused by GetFromSST, and a refusal or an error ends the loop.
def sstValues (env : ReadEnv reserved V dim) (rocks : RocksDB) :
    List (K × Nat) → List (Nat × Vector V dim)
  | [] => []
  | (key, index) :: rest =>
    if Scalar.toBytes key = List.replicate (Scalar.size K) 0 ∨ env.readStatus key = false then []
    else
      match rocks.sst (Scalar.toBytes key) with
      | none => sstValues env rocks rest
      | some raw => (index, loadVector env.heap raw) :: sstValues env rocks rest

-- The keys to look for in the files, with their places. The list is only filled when the
-- memtable is asked.
def neededKeys (config : StorageConfig) (env : ReadEnv reserved V dim) (rocks : RocksDB)
    (keys : List K) : List (K × Nat) :=
  if config.forceSkipMemtable = true then []
  else keys.zipIdx.filter fun entry => (memtableValue env rocks entry.1).isNone

-- For each of them the host reads the key in the array of the device.
def hostFaults (config : StorageConfig) (env : ReadEnv reserved V dim) (rocks : RocksDB)
    (keys : List K) : Prop :=
  env.hostReads = false ∧ neededKeys config env rocks keys ≠ []

instance (config : StorageConfig) (env : ReadEnv reserved V dim) (rocks : RocksDB)
    (keys : List K) : Decidable (hostFaults config env rocks keys) :=
  inferInstanceAs (Decidable (_ ∧ ¬_))

def multigetGds (config : StorageConfig) (env : ReadEnv reserved V dim) (rocks : RocksDB)
    (keys : List K) : List (K × Vector V dim) :=
  let found := sstValues env rocks (neededKeys config env rocks keys)
  keys.mapIdx fun index key =>
    (key, match if config.forceSkipMemtable = true then none else memtableValue env rocks key with
      | some raw => loadVector env.heap raw
      | none => (found.lookup index).getD (env.garbage index))

end MemDiskTree

namespace GPUTreeHkv

-- insert_and_evict with the copies around it: the result, the table and the evicted entries.
def multiset (env : WriteEnv reserved V dim) (table : K → Option (Vector V dim))
    (batch : List (K × Vector V dim)) :
    OperationResult × (K → Option (Vector V dim)) × List (K × Vector V dim) :=
  if env.fault = some .noTable then (.CUDA_ERROR, table, [])
  else if batch = [] then (.SUCCESS, table, [])
  else
    let (table', evicted) := run table (env.schedule table batch).events
    if env.fault = some .afterInsert then (.CUDA_ERROR, table', [])
    else if evicted = [] then (.SUCCESS, table', [])
    else (.GPU_EVICTED, table', evicted)

-- insert_and_evict of one entry. What goes may be the key that came in.
def insertAndEvict (env : PutEnv reserved V dim) (table : K → Option (Vector V dim)) (key : K)
    (values : Vector V dim) : (K → Option (Vector V dim)) × Option (K × Vector V dim) :=
  if reserved key = true then (table, none)
  else
    let inserted := Function.update table key (some values)
    match env.victim table key with
    | none => (inserted, none)
    | some other =>
      (Function.update inserted other none, (inserted other).map fun found => (other, found))

-- Here nothing is caught.
def put (env : PutEnv reserved V dim) (table : K → Option (Vector V dim)) (key : K)
    (values : Vector V dim) :
    Outcome OperationResult × (K → Option (Vector V dim)) × Option (K × Vector V dim) :=
  match env.fault with
  | some .noTable => (.returned .CUDA_ERROR, table, none)
  | some (.beforeInsert what) => (.threw what, table, none)
  | some (.afterInsert what) => (.threw what, (insertAndEvict env table key values).1, none)
  | _ =>
    match insertAndEvict env table key values with
    | (table', none) => (.returned .SUCCESS, table', none)
    | (table', some entry) => (.returned .GPU_EVICTED, table', some entry)

-- insert_or_assign: reserved keys are left out, and the entries of the keys in `current` stay.
def multisetBuffer (env : ReadEnv reserved V dim) (current : List K)
    (buffer : K → Option (Vector V dim)) (pairs : List (K × Vector V dim)) :
    K → Option (Vector V dim) :=
  writeAll (fun key => if key ∈ current ∨ env.keeps key = true then buffer key else none)
    (pairs.filter fun pair => reserved pair.1 = false)

end GPUTreeHkv

namespace DB

def opened (config : StorageConfig) : DB K V dim where
  config := config
  initialized := true
  gpu _ := none
  buffer _ := none
  rocks := .empty

def multiset (env : WriteEnv reserved V dim) (s : DB K V dim) (batch : List (K × Vector V dim)) :
    Outcome OperationResult × DB K V dim :=
  if s.initialized = false then (.threw "DB not initialized", s)
  else if batch = [] then (.returned .SUCCESS, s)
  else
    match GPUTreeHkv.multiset env s.gpu batch with
    | (.CUDA_ERROR, table, _) => (.returned .CUDA_ERROR, { s with gpu := table })
    | (.GPU_EVICTED, table, evicted) =>
      match env.fault with
      | some (.memdisk what) => (.threw what, { s with gpu := table })
      | some (.free what) => (.threw what,
          { s with gpu := table, rocks := MemDiskTree.multiset s.rocks evicted })
      | _ => (.returned .SUCCESS,
          { s with gpu := table, rocks := MemDiskTree.multiset s.rocks evicted })
    | (_, table, _) => (.returned .SUCCESS, { s with gpu := table })

-- The results of the two trees are not looked at, and one entry at most is evicted.
def put (env : PutEnv reserved V dim) (s : DB K V dim) (key : K) (values : Vector V dim) :
    Outcome OperationResult × DB K V dim :=
  if s.initialized = false then (.threw "DB not initialized", s)
  else
    match GPUTreeHkv.put env s.gpu key values with
    | (.returned _, table, none) => (.returned .SUCCESS, { s with gpu := table })
    | (.returned _, table, some entry) =>
      match MemDiskTree.putEvicted s.config env s.rocks entry.2 with
      | (.returned _, rocks) =>
        match env.fault with
        | some (.free what) => (.threw what, { s with gpu := table, rocks := rocks })
        | _ => (.returned .SUCCESS, { s with gpu := table, rocks := rocks })
      | (.threw what, rocks) => (.threw what, { s with gpu := table, rocks := rocks })
      | (.aborted reason, rocks) => (.aborted reason, { s with gpu := table, rocks := rocks })
    | (.threw what, table, _) => (.threw what, { s with gpu := table })
    | (.aborted reason, table, _) => (.aborted reason, { s with gpu := table })

def get (env : ReadEnv reserved V dim) (s : DB K V dim) (key : K) :
    Outcome (OperationResult × Option (Vector V dim)) :=
  if s.initialized = false then .threw "DB not initialized"
  else
    match s.gpu key with
    | some values => .returned (.SUCCESS, some values)
    | none =>
      match MemDiskTree.get s.config env s.rocks key with
      | (.SUCCESS, values) => .returned (.SUCCESS, values)
      | _ => .returned (.KEY_NOT_FOUND, none)

def foundPairs (table : K → Option (Vector V dim)) (keys : List K) : List (K × Vector V dim) :=
  keys.filterMap fun key => (table key).map fun values => (key, values)

def missedKeys (config : StorageConfig) (table : K → Option (Vector V dim)) (keys : List K) :
    List K :=
  let missed := keys.filter fun key => (table key).isNone
  -- the plain path collects the keys in a map, in whatever order
  if config.enableGdsGetFromSst = true then missed else missed.dedup

-- The first step of a batch read that the GPU table cannot answer alone: the pairs it has go
-- to the lookup buffer.
def lookup (env : ReadEnv reserved V dim) (s : DB K V dim) (keys : List K) : DB K V dim :=
  let pairs := foundPairs s.gpu keys
  if pairs = [] then s
  else { s with buffer := GPUTreeHkv.multisetBuffer env [] s.buffer pairs }

-- The second step: the missed keys with what the lower tier gave for them.
def readBack (env : ReadEnv reserved V dim) (s : DB K V dim) (missed : List K) :
    List (K × Vector V dim) :=
  if s.config.enableGdsGetFromSst = true then
    MemDiskTree.multigetGds s.config env s.rocks missed
  else MemDiskTree.multiget env s.rocks missed

-- The last step: all missed keys go to the buffer, and the buffer answers.
def answer (env : ReadEnv reserved V dim) (s : DB K V dim) (keys : List K)
    (pairs : List (K × Vector V dim)) : List (Option (Vector V dim)) × DB K V dim :=
  let buffer := GPUTreeHkv.multisetBuffer env keys s.buffer pairs
  (keys.map buffer, { s with buffer := buffer })

-- The check of the found flags after the lookup in the GPU table.
def saysAllFound (env : ReadEnv reserved V dim) (s : DB K V dim) (keys : List K) : Prop :=
  env.allFound (keys.map fun key => (s.gpu key).isSome) = true

instance (env : ReadEnv reserved V dim) (s : DB K V dim) (keys : List K) :
    Decidable (s.saysAllFound env keys) :=
  inferInstanceAs (Decidable (_ = _))

-- The read of the missed keys ends the process.
def crashes (env : ReadEnv reserved V dim) (s : DB K V dim) (missed : List K) : Prop :=
  s.config.enableGdsGetFromSst = true ∧ MemDiskTree.hostFaults s.config env s.rocks missed

instance (env : ReadEnv reserved V dim) (s : DB K V dim) (missed : List K) :
    Decidable (s.crashes env missed) :=
  inferInstanceAs (Decidable (_ ∧ _))

-- The answer for a key is `none` when its found flag is false. The result of the inner
-- multiset is not looked at.
def multiget (env : ReadEnv reserved V dim) (s : DB K V dim) (keys : List K) :
    Outcome (OperationResult × List (Option (Vector V dim))) × DB K V dim :=
  if s.initialized = false ∨ keys = [] then
    (.threw "DB not initialized or invalid batch size", s)
  else if s.saysAllFound env keys then (.returned (.SUCCESS, keys.map s.gpu), s)
  else if s.crashes env (missedKeys s.config s.gpu keys) then
    (.aborted "segmentation fault", s.lookup env keys)
  else
    let pairs := (s.lookup env keys).readBack env (missedKeys s.config s.gpu keys)
    match (s.lookup env keys).multiset env.toWriteEnv pairs with
    | (.returned _, s') =>
      let (found, s') := s'.answer env keys pairs
      (.returned (.SUCCESS, found), s')
    | (.threw what, s') => (.threw what, s')
    | (.aborted reason, s') => (.aborted reason, s')

end DB

-- A call of a client, or a flush inside RocksDB.
inductive Op (K V : Type) [Scalar K] (dim : Nat) (reserved : K → Bool) where
  | put (env : PutEnv reserved V dim) (key : K) (values : Vector V dim)
  | multiset (env : WriteEnv reserved V dim) (batch : List (K × Vector V dim))
  | get (env : ReadEnv reserved V dim) (key : K)
  | multiget (env : ReadEnv reserved V dim) (keys : List K)
  | flush

namespace DB

def step (s : DB K V dim) : Op K V dim reserved → DB K V dim
  | .put env key values => (s.put env key values).2
  | .multiset env batch => (s.multiset env batch).2
  | .get _ _ => s
  | .multiget env keys => (s.multiget env keys).2
  | .flush => { s with rocks := s.rocks.flush }

def runOps (s : DB K V dim) (ops : List (Op K V dim reserved)) : DB K V dim :=
  ops.foldl step s

end DB

end MlkvPlus
