import MlkvPlus.Gds.Table.Lookup

namespace MlkvPlus.Gds

open scoped KeyOrder
open Sst (Status GDSGetContext KeySlice MergeOperator)

-- A file as the FilePicker hands it out. `reader` is none if the table reader is not the GDS one,
-- and `buffer` is the pinned memory as the search of the file finds it.
structure TableFile where
  findTable : Status := .ok
  reader : Option GDSBlockBasedTableReader
  skipFilters : Bool := false
  buffer : GDSDataBlockIterDevicePinnedBuffer

namespace GDSDBAccessor

-- The loop over the files, with a new context for each. The result is `value_found`, `io_status`
-- and the value.
def search (fuel : Nat) (mergeOperator : Option (MergeOperator Bytes)) (key : Bytes)
    (snapshot : Nat) (value : Bytes) :
    List TableFile → Option (Outcome (Bool × IOStatus × Bytes))
  | [] => some (.returned (false, .ok, value))
  | file :: rest =>
    if file.findTable ≠ .ok then
      some (.returned (false, .ioError file.findTable.message, value))
    else
      match file.reader with
      | none =>
        some (.returned (false, .unsupportedError "Table reader is not GDS-enabled", value))
      | some reader =>
        match reader.get fuel (lookupKey key snapshot) file.skipFilters file.buffer
            { mergeOperator, userKey := key, deviceValue := some value } with
        | none => none
        | some (.threw what) => some (.threw what)
        | some (.aborted reason) => some (.aborted reason)
        | some (.returned (status, context)) =>
          let value := context.deviceValue.getD value
          if status ≠ .ok then some (.returned (false, .ioError status.message, value))
          else
            match context.state with
            | .kFound => some (.returned (true, .ok, value))
            | .kCorrupt => some (.returned (false, .ioError "Corrupted key", value))
            | _ => search fuel mergeOperator key snapshot value rest

def getFromSST (fuel : Nat) (mergeOperator : Option (MergeOperator Bytes))
    (files : List TableFile) (key : KeySlice) (hostKey : Bytes) (snapshot : Nat)
    (value : Bytes) : Option (Outcome (OperationResult × Bytes)) :=
  if key.size = 0 ∨ key.data = 0 then some (.returned (.INVALID_PARAMETER, value))
  else
    match search fuel mergeOperator hostKey snapshot value files with
    | none => none
    | some (.threw what) => some (.threw what)
    | some (.aborted reason) => some (.aborted reason)
    | some (.returned (valueFound, ioStatus, value)) =>
      if valueFound = true then some (.returned (.SUCCESS, value))
      else if ioStatus ≠ .ok then some (.returned (.ROCKSDB_ERROR, value))
      else some (.returned (.KEY_NOT_FOUND, value))

-- A file whose bytes are those of a well-formed table, and the file of its entries.
structure Stands (rocks : Sst.RocksDB Bytes) (fuel : Nat) (file : TableFile)
    (picked : Sst.PickedFile Bytes) : Prop where
  findTable : file.findTable = picked.findTable
  gdsReader : file.reader.isSome = picked.gdsReader
  readStatus : picked.readStatus = .ok
  serves : ∀ reader, file.reader = some reader → reader.rocks = rocks ∧
    ∃ table, reader.Serves table ∧ picked.file.entries = table.entries ∧
      ∀ block ∈ table.blocks, block.block.items.length + block.block.intervals.length < fuel

variable {rocks : Sst.RocksDB Bytes}

-- On well-formed tables the search is the search of their entries.
theorem search_eq (h : List.Forall₂ (Stands rocks fuel) files picked)
    (mergeOperator : Option (MergeOperator Bytes)) (key : Bytes) (hsnapshot : snapshot < 2 ^ 56)
    (value : Bytes) :
    search fuel mergeOperator key snapshot value files =
      some (Sst.GDSDBAccessor.search rocks mergeOperator key snapshot value picked) := by
  induction h generalizing value with
  | nil => rfl
  | @cons file first files rest hfirst _ ih =>
    rw [search, Sst.GDSDBAccessor.search, hfirst.findTable]
    by_cases hopen : first.findTable ≠ .ok
    · rw [if_pos hopen, if_pos hopen]
    rw [if_neg hopen, if_neg hopen, ← hfirst.gdsReader]
    cases hreader : file.reader with
    | none => rfl
    | some reader =>
      obtain ⟨hrocks, table, hserves, hentries, hfuel⟩ := hfirst.serves reader hreader
      have hget := hserves.get_file hsnapshot file.skipFilters hfuel file.buffer
        { mergeOperator, userKey := key, deviceValue := some value } first.file hentries
      rw [hrocks] at hget
      dsimp only at hget ⊢
      rw [hget, if_neg Bool.noConfusion, if_neg (not_not.mpr hfirst.readStatus)]
      cases first.file.get (@GDSGetContext.saveValue Bytes LinearOrder.toDecidableEq rocks) key
          snapshot { mergeOperator, userKey := key, deviceValue := some value } with
      | threw what => rfl
      | aborted reason => rfl
      | returned result =>
        obtain ⟨status, context⟩ := result
        dsimp only
        split_ifs
        · rfl
        · cases context.state with
          | kFound => rfl
          | kCorrupt => rfl
          | kNotFound => exact ih _
          | kDeleted => exact ih _
          | kMerge => exact ih _
          | kUnexpectedBlobIndex => exact ih _
          | kMergeOperatorFailed => exact ih _

theorem getFromSST_eq (h : List.Forall₂ (Stands rocks fuel) files picked)
    (mergeOperator : Option (MergeOperator Bytes)) (slice : KeySlice) (key : Bytes)
    (hsnapshot : snapshot < 2 ^ 56) (value : Bytes) :
    getFromSST fuel mergeOperator files slice key snapshot value =
      some (Sst.GDSDBAccessor.getFromSST rocks mergeOperator picked slice key snapshot value) := by
  rw [getFromSST, Sst.GDSDBAccessor.getFromSST]
  by_cases hkey : slice.size = 0 ∨ slice.data = 0
  · rw [if_pos hkey, if_pos hkey]
  rw [if_neg hkey, if_neg hkey, search_eq h mergeOperator key hsnapshot value]
  cases Sst.GDSDBAccessor.search rocks mergeOperator key snapshot value picked with
  | returned result =>
    dsimp only
    split
    · rfl
    · split <;> rfl
  | threw what => rfl
  | aborted reason => rfl

end GDSDBAccessor

end MlkvPlus.Gds
