import Mathlib.Order.Defs.LinearOrder
import MlkvPlus.Gds.FileSystem
import MlkvPlus.MemDisk

namespace MlkvPlus.Sst

open Gds

inductive ValueType where
  | kTypeDeletion
  | kTypeValue
  | kTypeMerge
  | kTypeSingleDeletion
  | kTypeRangeDeletion
  | kTypeBlobIndex
  | kTypeDeletionWithTimestamp
  | kTypeWideColumnEntity
  | kTypeValuePreferredSeqno
  deriving DecidableEq, Repr

structure Entry (K : Type) where
  userKey : K
  sequence : Nat
  type : ValueType
  value : Bytes
  deriving DecidableEq, Repr

-- Internal keys: user keys ascending, the versions of one key newest first.
def Entry.Before [LinearOrder K] (first second : Entry K) : Prop :=
  first.userKey < second.userKey ∨
    first.userKey = second.userKey ∧ second.sequence < first.sequence

structure SstFile (K : Type) [LinearOrder K] where
  entries : List (Entry K)
  sorted : entries.Pairwise Entry.Before

-- Position at the first internal key that is not before `key` at `snapshot`.
def SstFile.seek [LinearOrder K] (file : SstFile K) (key : K) (snapshot : Nat) :
    List (Entry K) :=
  file.entries.dropWhile fun entry =>
    decide (entry.userKey < key ∨ entry.userKey = key ∧ snapshot < entry.sequence)

inductive Status where
  | ok
  | notFound
  | corruption (message : String)
  | notSupported (message : String)
  | invalidArgument (message : String)
  | ioError (message : String)
  deriving DecidableEq, Repr

def Status.message : Status → String
  | .ok | .notFound => ""
  | .corruption message | .notSupported message | .invalidArgument message | .ioError message =>
    message

-- A file as the FilePicker hands it out, with what opening and reading it gives, and the number
-- of the newest range deletion in it that covers the key, 0 if there is none.
structure PickedFile (K : Type) [LinearOrder K] where
  file : SstFile K
  findTable : Status := .ok
  gdsReader : Bool := true
  readStatus : Status := .ok
  coveringTombstoneSeq : Nat := 0

-- `fullMerge` gets the operands oldest first, `shouldMerge` newest first.
structure MergeOperator (K : Type) where
  fullMerge : K → Option Bytes → List Bytes → Option Bytes
  shouldMerge : List Bytes → Bool

inductive GetState where
  | kNotFound
  | kFound
  | kDeleted
  | kCorrupt
  | kMerge
  | kUnexpectedBlobIndex
  | kMergeOperatorFailed
  deriving DecidableEq, Repr

-- The states in which a lookup goes on to older versions.
def GetState.searches : GetState → Bool
  | .kNotFound | .kMerge => true
  | _ => false

-- A pointer is null when `none`. `operands` is the merge context, oldest operand first.
structure GetContext (K : Type) where
  mergeOperator : Option (MergeOperator K)
  userKey : K
  state : GetState := .kNotFound
  pinnableVal : Option Bytes := none
  operands : List Bytes := []
  doMerge : Bool := true
  maxCoveringTombstoneSeq : Option Nat := none

-- The GDS lookup leaves `pinnableVal` null.
structure GDSGetContext (K : Type) extends GetContext K where
  deviceValue : Option Bytes

-- What a call of SaveValue leaves. `more` asks for the next entry.
structure Saved (C : Type) where
  more : Bool
  context : C
  readStatus : Status := .ok

-- What RocksDB defines elsewhere: the SaveValue of its own lookup, the merges that both contexts
-- inherit, and two formats of values.
structure RocksDB (K : Type) where
  saveValue : GetContext K → Entry K → Outcome (Saved (GetContext K))
  mergeWithNoBaseValue : GetContext K → Outcome (GetContext K)
  mergeWithPlainBaseValue : Bytes → GetContext K → Outcome (GetContext K)
  mergeWithWideColumnBaseValue : Bytes → GetContext K → Outcome (GetContext K)
  parsePackedValueForValue : Bytes → Bytes
  valueOfDefaultColumn : Bytes → Option Bytes

namespace GetContext

-- A range deletion with a higher number covers the entry.
def covers (context : GetContext K) (entry : Entry K) : Bool :=
  context.maxCoveringTombstoneSeq.any fun seq => decide (entry.sequence < seq)

def shouldMerge (context : GetContext K) : Bool :=
  match context.mergeOperator with
  | none => false
  | some operator => operator.shouldMerge context.operands.reverse

end GetContext

namespace GDSGetContext

variable (rocks : RocksDB K) (context : GDSGetContext K)

def withState (state : GetState) : GDSGetContext K :=
  { context with state := state }

def pushOperand (operand : Bytes) : GDSGetContext K :=
  { context with operands := operand :: context.operands }

-- The lookup ends with a merge, which does not know the device value.
def finishMerge (merge : GetContext K → Outcome (GetContext K)) :
    Outcome (Saved (GDSGetContext K)) :=
  (merge { context.toGetContext with state := .kFound }).map fun merged =>
    { more := false, context := { context with toGetContext := merged } }

-- Of a wide-column entity the default column counts.
def saveBaseValue (type : ValueType) (value : Bytes) : Outcome (Saved (GDSGetContext K)) :=
  let unpacked :=
    if type = .kTypeValuePreferredSeqno then rocks.parsePackedValueForValue value else value
  let valueToUse :=
    if type = .kTypeWideColumnEntity then rocks.valueOfDefaultColumn unpacked else some unpacked
  if context.state = .kMerge ∧ context.mergeOperator.isNone = true then
    .aborted "merge_operator_ != nullptr"
  else if context.state = .kMerge ∧ context.doMerge = true then
    context.finishMerge <|
      if type = .kTypeWideColumnEntity then rocks.mergeWithWideColumnBaseValue unpacked
      else rocks.mergeWithPlainBaseValue unpacked
  else if context.doMerge = true ∧ context.deviceValue.isNone = true then
    .returned { more := false, context := context.withState .kFound }
  else
    match valueToUse with
    | none => .returned { more := false, context := context.withState .kCorrupt }
    | some value =>
      if context.doMerge = true then
        .returned
          { more := false, context := { context.withState .kFound with deviceValue := value } }
      else .returned { more := false, context := (context.withState .kFound).pushOperand value }

def saveDeletion : Outcome (Saved (GDSGetContext K)) :=
  if context.state = .kNotFound then
    .returned { more := false, context := context.withState .kDeleted }
  else if context.doMerge = true then context.finishMerge rocks.mergeWithNoBaseValue
  else .returned { more := false, context := context.withState .kFound }

def withOperand (operand : Bytes) : GDSGetContext K :=
  (context.withState .kMerge).pushOperand operand

-- The operator is not content with the operands.
def wantsMore (operand : Bytes) : Bool :=
  !((context.withOperand operand).doMerge && (context.withOperand operand).shouldMerge)

-- A merge operand asks for the next version, unless the operator is content with it.
def saveOperand (operand : Bytes) : Outcome (Saved (GDSGetContext K)) :=
  if context.wantsMore operand = true then
    .returned { more := true, context := context.withOperand operand }
  else (context.withOperand operand).finishMerge rocks.mergeWithNoBaseValue

def saveValue [DecidableEq K] (rocks : RocksDB K) (context : GDSGetContext K) (entry : Entry K) :
    Outcome (Saved (GDSGetContext K)) :=
  if entry.userKey ≠ context.userKey then .returned { more := false, context }
  else if context.state.searches = false then
    .aborted "state_ == kNotFound || state_ == kMerge"
  else if context.covers entry = true then saveDeletion rocks context
  else
    match entry.type with
    | .kTypeValue | .kTypeValuePreferredSeqno | .kTypeWideColumnEntity =>
      saveBaseValue rocks context entry.type entry.value
    | .kTypeBlobIndex =>
      .returned
        { more := false
          context := context.withState .kCorrupt
          readStatus := .notSupported ("GDS SaveValue does not support kTypeBlobIndex - " ++
            "blob values are not supported in GDS mode") }
    | .kTypeDeletion | .kTypeDeletionWithTimestamp | .kTypeSingleDeletion | .kTypeRangeDeletion =>
      saveDeletion rocks context
    | .kTypeMerge => saveOperand rocks context entry.value

end GDSGetContext

-- The saver is called on each entry until it fails or returns false.
def saveEntries (save : C → Entry K → Outcome (Saved C)) (context : C) :
    List (Entry K) → Outcome (Status × C)
  | [] => .returned (.ok, context)
  | entry :: rest =>
    match save context entry with
    | .returned saved =>
      if saved.readStatus ≠ .ok then .returned (saved.readStatus, saved.context)
      else if saved.more = true then saveEntries save saved.context rest
      else .returned (.ok, saved.context)
    | .threw what => .threw what
    | .aborted reason => .aborted reason

section Lookup

variable [LinearOrder K]

-- BlockBasedTable::Get, and with the other saver GDSBlockBasedTableReader::Get.
def SstFile.get (save : C → Entry K → Outcome (Saved C)) (file : SstFile K) (key : K)
    (snapshot : Nat) (context : C) : Outcome (Status × C) :=
  saveEntries save context (file.seek key snapshot)

-- The range deletions of a file count from the file itself on.
def GetContext.cover (context : GetContext K) (seq : Nat) : GetContext K :=
  { context with maxCoveringTombstoneSeq := context.maxCoveringTombstoneSeq.map (max seq) }

def TableCache.get (rocks : RocksDB K) (picked : PickedFile K) (snapshot : Nat)
    (context : GetContext K) : Outcome (Status × GetContext K) :=
  if picked.findTable ≠ .ok then .returned (picked.findTable, context)
  else if picked.readStatus ≠ .ok then
    .returned (picked.readStatus, context.cover picked.coveringTombstoneSeq)
  else
    picked.file.get rocks.saveValue context.userKey snapshot
      (context.cover picked.coveringTombstoneSeq)

-- After the last file: operands without a base are merged on their own.
def Version.finish (context : GetContext K) : Outcome (Status × GetContext K) :=
  if context.state = .kMerge then
    match context.mergeOperator with
    | none =>
      .returned (.invalidArgument "merge_operator is not properly initialized.", context)
    | some operator =>
      match operator.fullMerge context.userKey none context.operands with
      | some result => .returned (.ok,
          { context with pinnableVal := context.pinnableVal.map fun _ => result })
      | none => .returned (.corruption "kMergeOperatorFailed", context)
  else .returned (.notFound, context)

-- One context for all files. Under a range deletion the remaining files have nothing but covered
-- versions.
def Version.search (rocks : RocksDB K) (snapshot : Nat) (context : GetContext K) :
    List (PickedFile K) → Outcome (Status × GetContext K)
  | [] => Version.finish context
  | picked :: rest =>
    if 0 < context.maxCoveringTombstoneSeq.getD 0 then Version.finish context
    else
      match TableCache.get rocks picked snapshot context with
      | .returned (status, context) =>
        if status ≠ .ok then .returned (status, context)
        else
          match context.state with
          | .kNotFound | .kMerge => Version.search rocks snapshot context rest
          | .kFound => .returned (.ok, context)
          | .kDeleted => .returned (.notFound, context)
          | .kCorrupt => .returned (.corruption "corrupted key for ", context)
          | .kUnexpectedBlobIndex =>
            .returned (.notSupported ("Encounter unexpected blob index. Please open DB " ++
              "with ROCKSDB_NAMESPACE::blob_db::BlobDB instead."), context)
          | .kMergeOperatorFailed => .returned (.corruption "kMergeOperatorFailed", context)
      | .threw what => .threw what
      | .aborted reason => .aborted reason

-- What the memtables leave to the files: operands of a merge, and the number of a range deletion.
structure FromMemtables where
  mergeInProgress : Bool := false
  operands : List Bytes := []
  maxCoveringTombstoneSeq : Nat := 0

def Version.context (mergeOperator : Option (MergeOperator K)) (key : K)
    (memtables : FromMemtables) (value : Bytes) : GetContext K where
  mergeOperator
  userKey := key
  state := if memtables.mergeInProgress = true then .kMerge else .kNotFound
  pinnableVal := some value
  operands := memtables.operands
  maxCoveringTombstoneSeq := some memtables.maxCoveringTombstoneSeq

def Version.get (rocks : RocksDB K) (mergeOperator : Option (MergeOperator K))
    (files : List (PickedFile K)) (key : K) (snapshot : Nat) (memtables : FromMemtables)
    (value : Bytes) : Outcome (Status × Bytes) :=
  (Version.search rocks snapshot (Version.context mergeOperator key memtables value) files).map
    fun result => (result.1, result.2.pinnableVal.getD value)

-- A new context for every file, and only two of its states end the search. The result is
-- `value_found`, `io_status` and the value.
def GDSDBAccessor.search (rocks : RocksDB K) (mergeOperator : Option (MergeOperator K)) (key : K)
    (snapshot : Nat) (value : Bytes) : List (PickedFile K) → Outcome (Bool × IOStatus × Bytes)
  | [] => .returned (false, .ok, value)
  | picked :: rest =>
    if picked.findTable ≠ .ok then
      .returned (false, .ioError picked.findTable.message, value)
    else if picked.gdsReader = false then
      .returned (false, .unsupportedError "Table reader is not GDS-enabled", value)
    else if picked.readStatus ≠ .ok then
      .returned (false, .ioError picked.readStatus.message, value)
    else
      match picked.file.get (GDSGetContext.saveValue rocks) key snapshot
          ({ mergeOperator, userKey := key, deviceValue := some value } : GDSGetContext K) with
      | .returned (status, context) =>
        let value := context.deviceValue.getD value
        if status ≠ .ok then .returned (false, .ioError status.message, value)
        else
          match context.state with
          | .kFound => .returned (true, .ok, value)
          | .kCorrupt => .returned (false, .ioError "Corrupted key", value)
          | _ => GDSDBAccessor.search rocks mergeOperator key snapshot value rest
      | .threw what => .threw what
      | .aborted reason => .aborted reason

-- The device copy of a key: its address, null when 0, and its size.
structure KeySlice where
  data : Nat
  size : Nat
  deriving DecidableEq, Repr

def GDSDBAccessor.getFromSST (rocks : RocksDB K) (mergeOperator : Option (MergeOperator K))
    (files : List (PickedFile K)) (key : KeySlice) (hostKey : K) (snapshot : Nat)
    (value : Bytes) : Outcome (OperationResult × Bytes) :=
  if key.size = 0 ∨ key.data = 0 then .returned (.INVALID_PARAMETER, value)
  else
    match GDSDBAccessor.search rocks mergeOperator hostKey snapshot value files with
    | .returned (valueFound, ioStatus, value) =>
      if valueFound = true then .returned (.SUCCESS, value)
      else if ioStatus ≠ .ok then .returned (.ROCKSDB_ERROR, value)
      else .returned (.KEY_NOT_FOUND, value)
    | .threw what => .threw what
    | .aborted reason => .aborted reason

end Lookup

end MlkvPlus.Sst
