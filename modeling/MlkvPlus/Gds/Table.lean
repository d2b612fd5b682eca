import Mathlib.Data.List.Infix
import MlkvPlus.Gds.Block
import MlkvPlus.Sst

namespace MlkvPlus.Gds

open Sst (Status ValueType GDSGetContext)

structure BlockHandle where
  offset : Nat
  size : Nat
  deriving DecidableEq, Repr

-- `firstInternalKey` is empty unless the index stores the first keys of the blocks.
structure IndexValue where
  handle : BlockHandle
  firstInternalKey : Bytes := []
  deriving DecidableEq, Repr

-- The separator is not before the last key of the block and before the first key of the next.
structure IndexEntry where
  separator : Bytes
  value : IndexValue
  deriving DecidableEq, Repr

structure ParsedInternalKey where
  userKey : Bytes
  sequence : Nat
  type : ValueType
  deriving DecidableEq, Repr

def valueType? : Nat → Option ValueType
  | 0x0 => some .kTypeDeletion
  | 0x1 => some .kTypeValue
  | 0x2 => some .kTypeMerge
  | 0x7 => some .kTypeSingleDeletion
  | 0xF => some .kTypeRangeDeletion
  | 0x11 => some .kTypeBlobIndex
  | 0x14 => some .kTypeDeletionWithTimestamp
  | 0x16 => some .kTypeWideColumnEntity
  | 0x18 => some .kTypeValuePreferredSeqno
  | _ => none

def parseInternalKey (key : Bytes) : Except Status ParsedInternalKey :=
  if key.length < Device.kInternalKeyTail then
    .error (.corruption "Corrupted Key: Internal Key too small.")
  else
    match valueType? (keyTail key % 256) with
    | some type => .ok { userKey := userKey key, sequence := keyTail key / 256, type }
    | none => .error (.corruption "Corrupted Key")

-- kTypeValuePreferredSeqno, which no type of an entry exceeds.
def kValueTypeForSeek : Nat := 0x18

-- A user key with the sequence number and the type packed behind it.
def packKey (user : Bytes) (sequence type : Nat) : Bytes :=
  user ++ Bytes.fixed 8 (sequence * 256 + type)

-- LookupKey::internal_key
def lookupKey (user : Bytes) (snapshot : Nat) : Bytes :=
  packKey user snapshot kValueTypeForSeek

-- `filterMayMatch` is the full filter, `iterSeek` the index iterator from the first entry that
-- is not before a key, `iterStatus` its status in front of the entries that it has left, and
-- `readBlock` the memory behind the slice that a block read returns.
structure GDSBlockBasedTableReader where
  rocks : Sst.RocksDB Bytes
  assertions : Bool
  comparatorName : String
  filterMayMatch : Bytes → Bool
  iterSeek : Bytes → List IndexEntry
  iterStatus : Bytes → List IndexEntry → Status
  readBlock : BlockHandle → Except Status Memory

namespace GDSBlockBasedTableReader

-- GDSReadBlock, the constructor of DeviceBlock, whose exceptions become a status, and
-- GDSDataBlockIter::Initialize.
def newDataBlockIterator (reader : GDSBlockBasedTableReader) (handle : BlockHandle)
    (buffer : GDSDataBlockIterDevicePinnedBuffer) : Except Status (Memory × GDSDataBlockIter) :=
  match reader.readBlock handle with
  | .error status => .error status
  | .ok data =>
    if handle.size < kRestartSize then
      .error (.notSupported ("[GDS ERROR] Block size " ++ toString handle.size ++
        " is too small to contain footer"))
    else
      match initializeBlockMetadata reader.assertions data (handle.size % 2 ^ 32) with
      | .returned metadata =>
        if "Bytewise".toList <:+: reader.comparatorName.toList then
          .ok (data, ⟨initializeIteratorState metadata, buffer⟩)
        else
          .error (.notSupported ("GDS GPU iterator only supports " ++
            "BytewiseComparator. Current comparator: " ++ reader.comparatorName))
      | .threw what | .aborted what => .error (.notSupported what)

structure BlockSearch where
  status : Status
  done : Bool
  context : GDSGetContext Bytes
  iter : GDSDataBlockIter

-- The saver is called on each entry of the block until it fails or returns false.
def saveBlock (rocks : Sst.RocksDB Bytes) (data : Memory) :
    Nat → GDSDataBlockIter → GDSGetContext Bytes → Option (Outcome BlockSearch)
  | 0, _, _ => none
  | fuel + 1, iter, context =>
    if iter.validFlag = true then
      match parseInternalKey iter.key with
      | .error status => some (.returned ⟨status, false, context, iter⟩)
      | .ok parsed =>
        match GDSGetContext.saveValue rocks context
            ⟨parsed.userKey, parsed.sequence, parsed.type, iter.dValue data⟩ with
        | .returned saved =>
          if saved.readStatus ≠ .ok then
            some (.returned ⟨saved.readStatus, false, saved.context, iter⟩)
          else if saved.more = true then
            saveBlock rocks data fuel (iter.nextKernel data) saved.context
          else some (.returned ⟨.ok, true, saved.context, iter⟩)
        | .threw what => some (.threw what)
        | .aborted reason => some (.aborted reason)
    else some (.returned ⟨.ok, false, context, iter⟩)

def fallsBetween (key : Bytes) (skipFilters : Bool) (value : IndexValue) : Bool :=
  value.firstInternalKey ≠ [] ∧ skipFilters = false ∧
    Device.compareSlices (userKey key) (userKey value.firstInternalKey) = .lt

-- One block: read it, seek, and save from there on.
def searchBlock (reader : GDSBlockBasedTableReader) (fuel : Nat) (key : Bytes)
    (handle : BlockHandle) (buffer : GDSDataBlockIterDevicePinnedBuffer)
    (context : GDSGetContext Bytes) : Option (Outcome (Except Status BlockSearch)) :=
  match reader.newDataBlockIterator handle buffer with
  | .error status => some (.returned (.error status))
  | .ok (data, biter) =>
    match biter.seekKernel data key fuel with
    | none => none
    | some biter =>
      match saveBlock reader.rocks data fuel biter context with
      | none => none
      | some (.returned search) => some (.returned (.ok search))
      | some (.threw what) => some (.threw what)
      | some (.aborted reason) => some (.aborted reason)

-- The status of a search that was not stopped by an error of its own.
def indexStatus (reader : GDSBlockBasedTableReader) (key : Bytes) (left : List IndexEntry) :
    Status :=
  if reader.iterStatus key left = .notFound then .ok else reader.iterStatus key left

def getFrom (reader : GDSBlockBasedTableReader) (fuel : Nat) (key : Bytes) (skipFilters : Bool) :
    List IndexEntry → GDSDataBlockIterDevicePinnedBuffer → GDSGetContext Bytes →
      Option (Outcome (Status × GDSGetContext Bytes))
  | [], _, context => some (.returned (reader.indexStatus key [], context))
  | entry :: rest, buffer, context =>
    if fallsBetween key skipFilters entry.value = true then
      some (.returned (reader.indexStatus key (entry :: rest), context))
    else
      match reader.searchBlock fuel key entry.value.handle buffer context with
      | none => none
      | some (.threw what) => some (.threw what)
      | some (.aborted reason) => some (.aborted reason)
      | some (.returned (.error status)) => some (.returned (status, context))
      | some (.returned (.ok search)) =>
        if search.status ≠ .ok then some (.returned (search.status, search.context))
        else if search.done = true then
          some (.returned (reader.indexStatus key (entry :: rest), search.context))
        else reader.getFrom fuel key skipFilters rest
          search.iter.toGDSDataBlockIterDevicePinnedBuffer search.context

def get (reader : GDSBlockBasedTableReader) (fuel : Nat) (key : Bytes) (skipFilters : Bool)
    (buffer : GDSDataBlockIterDevicePinnedBuffer) (context : GDSGetContext Bytes) :
    Option (Outcome (Status × GDSGetContext Bytes)) :=
  if skipFilters = true ∨ reader.filterMayMatch key = true then
    reader.getFrom fuel key skipFilters (reader.iterSeek key) buffer context
  else some (.returned (.ok, context))

end GDSBlockBasedTableReader

end MlkvPlus.Gds
