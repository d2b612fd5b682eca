import MlkvPlus.Db
import MlkvPlus.MemDisk.Agreement

namespace MlkvPlus

open Tiered WriteBatch

namespace MemDisk

-- The entries of the memtable as a map: the last one of a key is the one that is read.
def values (s : MemDisk) : Bytes → Option Bytes :=
  writeAll (fun _ => none) (s.memtable.map fun entry => (entry.2.key, entry.2.value))

theorem values_append {s s' : MemDisk} {sequence : Nat} {batch : List Entry}
    (h : s'.memtable = s.memtable ++ numbered sequence batch) :
    s'.values = writeAll s.values (batch.map fun entry => (entry.key, entry.value)) := by
  have hnumbered : (numbered sequence batch).map (fun entry => (entry.2.key, entry.2.value)) =
      batch.map fun entry => (entry.key, entry.value) := by
    conv_rhs => rw [← map_snd_numbered sequence batch, List.map_map]
    rfl
  rw [values, h, List.map_append, writeAll_append, hnumbered]
  rfl

end MemDisk

variable {K V : Type} {dim : Nat} [Scalar K] [Scalar V]

-- What a call of the tree does to RocksDB as a map.
def RocksDB.call (env : CallEnv K) (rocks : RocksDB) : Call K V dim → RocksDB
  | .put _ values => MemDiskTree.put rocks env.keyVariable values
  | .multiset pairs => MemDiskTree.multiset rocks pairs

-- The map's memtable is the memtable of the tree.
def RocksDB.Holds (rocks : RocksDB) (s : MemDisk) : Prop := rocks.memtable = s.values

namespace MemDisk

variable {config : StorageConfig} {env : CallEnv K} {s s' : MemDisk}

theorem rocksPut_written {values : Vector V dim} (h : s.rocksPut env values = (true, s')) :
    s'.memtable = s.memtable ++
      numbered (s.lastSequence + 1) [⟨env.keyVariable.1, serializeValueArray values⟩] := by
  unfold rocksPut at h
  split at h
  · rename_i batch hput
    rw [(write_true h).2, eq_singleton_of_put hput]
  · cases h

theorem put_written {values : Vector V dim}
    (h : s.put config env key values = (.returned .SUCCESS, s')) :
    s'.memtable = s.memtable ++
      numbered (s.lastSequence + 1) [⟨env.keyVariable.1, serializeValueArray values⟩] := by
  by_cases hlog : config.enableGdsLog = true
  · obtain ⟨batch, s₁, hput, hwrite, hlogged⟩ := put_success hlog h
    obtain ⟨_, _, _, hmemtable, _⟩ := logBatch_returned hlogged
    rw [hmemtable, (write_true hwrite).2, eq_singleton_of_put hput]
  · obtain ⟨⟨status, s₁⟩, hrocks⟩ : ∃ written, s.rocksPut env values = written := ⟨_, rfl⟩
    simp only [put, hlog, hrocks] at h
    cases status with
    | false => cases h
    | true =>
      cases h
      exact rocksPut_written hrocks

theorem multiset_written {pairs : List (K × Vector V dim)}
    (h : s.multiset config env pairs = (.returned .SUCCESS, s')) :
    s'.memtable = s.memtable ++ numbered (s.lastSequence + 1) (buildBatch pairs) := by
  by_cases hlog : config.enableGdsLog = true
  · obtain ⟨s₁, _, hlogged, hwrite⟩ := multiset_success hlog h
    obtain ⟨_, _, _, hmemtable, hsequence⟩ := logBatch_returned hlogged
    rw [(write_true hwrite).2, hmemtable, hsequence]
  · rw [multiset, if_neg hlog] at h
    split at h
    · cases h
    · unfold writeBatch at h
      split at h
      · rename_i hwrite
        cases h
        exact (write_true hwrite).2
      · cases h

theorem memtable_selectWriter (env : CallEnv K) (s : MemDisk) :
    (s.selectWriter env).2.memtable = s.memtable := by
  unfold selectWriter
  split
  · rfl
  split
  · rfl
  · rfl

theorem memtable_appendRecord (env : CallEnv K) (s : MemDisk) (payload : Bytes) :
    (s.appendRecord env payload).2.memtable = s.memtable := by
  unfold appendRecord
  split
  · rfl
  · rfl
  · rfl
  · rfl

theorem memtable_logBatch (env : CallEnv K) (s : MemDisk) (pairs : List (K × Vector V dim))
    (sequenceNumber : Nat) : (s.logBatch env pairs sequenceNumber).2.memtable = s.memtable := by
  have hselect := memtable_selectWriter env s
  unfold logBatch
  generalize s.selectWriter env = selected at hselect ⊢
  obtain ⟨outcome, s₁⟩ := selected
  cases outcome with
  | returned =>
    dsimp only
    split
    · rw [memtable_appendRecord]
      exact hselect
    · exact hselect
  | threw what => exact hselect
  | aborted reason => exact hselect

-- Wherever a batch fails, in the log part or in RocksDB, nothing of it is applied.
theorem multiset_failed {pairs : List (K × Vector V dim)}
    (h : s.multiset config env pairs = (outcome, s')) (hfailed : outcome ≠ .returned .SUCCESS) :
    s'.memtable = s.memtable := by
  have hwrite : ∀ {s₁ : MemDisk}, s₁.memtable = s.memtable →
      s₁.writeBatch env (buildBatch pairs) = (outcome, s') → s'.memtable = s.memtable := by
    intro s₁ hsame hbatch
    unfold writeBatch write at hbatch
    split at hbatch
    · cases hbatch
      exact absurd rfl hfailed
    · rename_i hstatus
      split at hstatus
      · cases hstatus
        cases hbatch
        exact hsame
      · cases hstatus
  unfold multiset at h
  split at h
  · cases h
    rfl
  split at h
  · have hlogged := memtable_logBatch env s pairs (s.lastSequence + 1)
    split at h
    · rename_i s₁ hbatch
      rw [hbatch] at hlogged
      exact hwrite hlogged h
    · rename_i hbatch
      rw [hbatch] at hlogged
      cases h
      exact hlogged
    · rename_i hbatch
      rw [hbatch] at hlogged
      cases h
      exact hlogged
  · exact hwrite rfl h

end MemDisk

-- A failing batch write of the tree leaves the map as it was.
theorem RocksDB.Holds.multiset_failed {config : StorageConfig} {env : CallEnv K} {s s' : MemDisk}
    {rocks : RocksDB} {pairs : List (K × Vector V dim)} {outcome : Outcome OperationResult}
    (h : rocks.Holds s) (hcall : s.multiset config env pairs = (outcome, s'))
    (hfailed : outcome ≠ .returned .SUCCESS) : rocks.Holds s' := by
  rw [Holds, MemDisk.values, MemDisk.multiset_failed hcall hfailed]
  exact h

-- A successful call of the tree is the call on the map, if RocksDB takes keys and values of
-- these sizes at all.
theorem RocksDB.Holds.call {config : StorageConfig} {env : CallEnv K} {s s' : MemDisk}
    {rocks : RocksDB} {operation : Call K V dim} (hkey : Scalar.size K < 2 ^ 32)
    (hvalue : 8 + Scalar.size V * dim < 2 ^ 32) (h : rocks.Holds s)
    (hcall : s.call config env operation = (.returned .SUCCESS, s')) :
    (rocks.call env operation).Holds s' := by
  rw [Holds] at h
  cases operation with
  | put key values =>
    rw [Holds, MemDisk.values_append (MemDisk.put_written hcall), ← h]
    rfl
  | multiset pairs =>
    have hentries : (pairs.map MemDisk.entry).map (fun entry => (entry.key, entry.value)) =
        pairs.map MemDiskTree.entryOf := by
      rw [List.map_map]
      rfl
    rw [Holds, MemDisk.values_append (MemDisk.multiset_written hcall), ← h,
      MemDisk.buildBatch_of_accepted hkey hvalue, hentries]
    rfl

end MlkvPlus
