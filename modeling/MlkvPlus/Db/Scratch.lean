import MlkvPlus.Db
import MlkvPlus.MemDisk.Calls
import MlkvPlus.WriteBatch.Threads

namespace MlkvPlus

open Gds Tiered

namespace WriteBatch

-- The place that one thread of a kernel over the pairs uses, in either array.
def pairIndex (numPairs index : Nat) : List Nat :=
  if toSize (toInt32 index) < numPairs then [toSize (toInt32 index)] else []

def pairIndices (numPairs : Nat) : List Nat :=
  (List.range (launchedBlocks numPairs * 256)).flatMap
    (launch numPairs fun _ => pairIndex numPairs)

-- d_record_sizes_: set by the first kernel, read by the scan and by the reduction.
def recordSizesIndices (numPairs : Nat) : List Nat :=
  if numPairs = 0 then []
  else pairIndices numPairs ++ List.range numPairs ++ List.range numPairs

-- d_record_offsets_: set by the scan, read by the second kernel.
def recordOffsetsIndices (numPairs : Nat) : List Nat :=
  if numPairs = 0 then [] else List.range numPairs ++ pairIndices numPairs

theorem lt_of_mem_pairIndices (h : index ∈ pairIndices numPairs) : index < numPairs := by
  obtain ⟨thread, _, hthread⟩ := List.mem_flatMap.mp h
  rw [launch] at hthread
  split at hthread
  case isFalse => cases hthread
  case isTrue =>
    rw [pairIndex] at hthread
    split at hthread
    case isFalse => cases hthread
    case isTrue hlt =>
      rw [List.mem_singleton.mp hthread]
      exact hlt

theorem mem_recordSizesIndices : index ∈ recordSizesIndices numPairs ↔ index < numPairs := by
  rw [recordSizesIndices]
  split
  case isTrue hzero => simp [hzero]
  case isFalse =>
    simp only [List.mem_append, List.mem_range]
    constructor
    · rintro ((hkernel | hscan) | hreduce)
      · exact lt_of_mem_pairIndices hkernel
      · exact hscan
      · exact hreduce
    · exact fun hlt => .inr hlt

theorem mem_recordOffsetsIndices : index ∈ recordOffsetsIndices numPairs ↔ index < numPairs := by
  rw [recordOffsetsIndices]
  split
  case isTrue hzero => simp [hzero]
  case isFalse =>
    simp only [List.mem_append, List.mem_range]
    constructor
    · rintro (hscan | hkernel)
      · exact hscan
      · exact lt_of_mem_pairIndices hkernel
    · exact fun hlt => .inl hlt

-- Both arrays have `maxBatchSize` places.
def ScratchInside (maxBatchSize numPairs : Nat) : Prop :=
  (∀ index ∈ recordSizesIndices numPairs, index < maxBatchSize) ∧
    ∀ index ∈ recordOffsetsIndices numPairs, index < maxBatchSize

theorem scratchInside_iff (maxBatchSize numPairs : Nat) :
    ScratchInside maxBatchSize numPairs ↔ numPairs ≤ maxBatchSize := by
  simp only [ScratchInside, mem_recordSizesIndices, mem_recordOffsetsIndices, and_self]
  constructor
  · intro hinside
    by_contra hlt
    have hself := hinside maxBatchSize (Nat.lt_of_not_le hlt)
    omega
  · intro hle index hindex
    omega

end WriteBatch

section Calls

variable {K V : Type} {dim : Nat} [DecidableEq K] [Scalar K] [Scalar V] {reserved : K → Bool}

-- Whether a multiset of the tree comes to the generator.
def MemDisk.generates (config : StorageConfig) (env : CallEnv K) (s : MemDisk)
    (pairs : List (K × Vector V dim)) : Prop :=
  pairs.length ≠ 0 ∧ config.enableGdsLog = true ∧ (s.selectWriter env).1 = .returned ()

omit [DecidableEq K] [Scalar V] in
theorem MemDisk.generates_iff {config : StorageConfig} {env : CallEnv K} {s : MemDisk}
    {pairs : List (K × Vector V dim)} :
    generates config env s pairs ↔
      pairs ≠ [] ∧ config.enableGdsLog = true ∧ env.walStatus = true := by
  have hwriter : (s.selectWriter env).1 = .returned () ↔ env.walStatus = true := by
    rw [selectWriter]
    cases env.walStatus with
    | false => simp
    | true =>
      simp only [Bool.true_eq_false, if_false, iff_true]
      split
      · rfl
      · rfl
  rw [generates, hwriter, ne_eq, List.length_eq_zero_iff]

namespace DB

-- What a batch write hands to the lower tier: nothing, or all that the GPU table evicted.
def evictedBatch (env : WriteEnv reserved V dim) (s : DB K V dim)
    (batch : List (K × Vector V dim)) : List (K × Vector V dim) :=
  if s.initialized = false ∨ batch = [] then []
  else
    match GPUTreeHkv.multiset env s.gpu batch with
    | (.GPU_EVICTED, _, evicted) => evicted
    | _ => []

theorem multiset_rocks (env : WriteEnv reserved V dim) (s : DB K V dim)
    (batch : List (K × Vector V dim)) :
    (s.multiset env batch).2.rocks = s.rocks ∨
      (s.multiset env batch).2.rocks =
        MemDiskTree.multiset s.rocks (s.evictedBatch env batch) := by
  rw [multiset, evictedBatch]
  by_cases hopen : s.initialized = false
  · rw [if_pos hopen]
    exact .inl rfl
  by_cases hbatch : batch = []
  · rw [if_neg hopen, if_pos hbatch]
    exact .inl rfl
  rw [if_neg hopen, if_neg hbatch, if_neg (not_or.mpr ⟨hopen, hbatch⟩)]
  generalize GPUTreeHkv.multiset env s.gpu batch = inserted
  obtain ⟨result, table, evicted⟩ := inserted
  cases result with
  | GPU_EVICTED =>
    dsimp only
    split
    · exact .inl rfl
    · exact .inr rfl
    · exact .inr rfl
  | _ => exact .inl rfl

omit [Scalar K] [Scalar V] in
theorem evictedBatch_eq (env : WriteEnv reserved V dim) (s : DB K V dim)
    (batch : List (K × Vector V dim)) :
    s.evictedBatch env batch = [] ∨
      s.evictedBatch env batch = (run s.gpu (env.schedule s.gpu batch).events).2 := by
  rw [evictedBatch]
  split
  case isTrue => exact .inl rfl
  case isFalse =>
    rw [GPUTreeHkv.multiset]
    generalize run s.gpu (env.schedule s.gpu batch).events = inserted
    obtain ⟨table, evicted⟩ := inserted
    dsimp only
    split_ifs
    · exact .inl rfl
    · exact .inl rfl
    · exact .inl rfl
    · exact .inl rfl
    · exact .inr rfl

omit [Scalar V] in
-- The generator stays inside its arrays for the batches of at most `maxBatchSize` evicted
-- entries, and for no others: nobody compares the two. HKV evicts one entry for one key at
-- most, so that the size of the batch itself bounds them.
theorem multiset_scratch_iff (maxBatchSize : Nat) (env : WriteEnv reserved V dim)
    (s : DB K V dim) (batch : List (K × Vector V dim)) (callEnv : CallEnv K) (lower : MemDisk) :
    ((lower.generates s.config callEnv (s.evictedBatch env batch) →
        WriteBatch.ScratchInside maxBatchSize (s.evictedBatch env batch).length) ↔
      s.config.enableGdsLog = false ∨ callEnv.walStatus = false ∨
        (s.evictedBatch env batch).length ≤ maxBatchSize) ∧
    ((drops (env.schedule s.gpu batch).events).length ≤
        (inserts (env.schedule s.gpu batch).events).length →
      (s.evictedBatch env batch).length ≤ batch.length) := by
  constructor
  · rw [MemDisk.generates_iff, WriteBatch.scratchInside_iff]
    cases s.config.enableGdsLog with
    | false => simp
    | true =>
      cases callEnv.walStatus with
      | false => simp
      | true =>
        by_cases hevicted : s.evictedBatch env batch = []
        · simp [hevicted]
        · simp [hevicted]
  · intro hcontract
    rcases evictedBatch_eq env s batch with hnil | hrun
    · rw [hnil]
      exact Nat.zero_le _
    · have hdropped := length_dropped_le s.gpu (env.schedule s.gpu batch).events
      have hinserts := (env.schedule s.gpu batch).complete.length_eq
      have hfilter := List.length_filter_le (fun pair => decide (reserved pair.1 = false)) batch
      rw [hrun]
      omega

-- A table with two entries in it, which the two keys of a batch push out.
def pushedOut : DB UInt64 UInt32 1 where
  config := { enableGdsLog := true }
  initialized := true
  gpu key := if key = 1 ∨ key = 2 then some (.replicate 1 5) else none
  buffer _ := none
  rocks := .empty

def pushingEnv : WriteEnv (fun _ : UInt64 => false) UInt32 1 where
  schedule _ batch := .dropping _ [1, 2] batch

theorem multiset_scratch_iff_pushedOut :
    WriteBatch.ScratchInside 2 (pushedOut.evictedBatch pushingEnv [(3, #v[6]), (4, #v[7])]).length ∧
      (pushedOut.evictedBatch pushingEnv [(3, #v[6]), (4, #v[7])]).length ≤ 2 := by
  obtain ⟨hinside, hcontract⟩ := multiset_scratch_iff 2 pushingEnv pushedOut
    [(3, #v[6]), (4, #v[7])] MemDisk.clearedEnv MemDisk.clearedTree
  have hgenerates : MemDisk.clearedTree.generates pushedOut.config MemDisk.clearedEnv
      (pushedOut.evictedBatch pushingEnv [(3, #v[6]), (4, #v[7])]) :=
    MemDisk.generates_iff.mpr ⟨by decide, rfl, rfl⟩
  exact ⟨hinside.mpr (.inr (.inr (by decide))) hgenerates, hcontract (by decide)⟩

-- Two evicted entries and room for one.
theorem multiset_scratch_outside :
    MemDisk.clearedTree.generates pushedOut.config MemDisk.clearedEnv
        (pushedOut.evictedBatch pushingEnv [(3, #v[6]), (4, #v[7])]) ∧
      1 ∈ WriteBatch.recordSizesIndices
        (pushedOut.evictedBatch pushingEnv [(3, #v[6]), (4, #v[7])]).length ∧
      1 ∈ WriteBatch.recordOffsetsIndices
        (pushedOut.evictedBatch pushingEnv [(3, #v[6]), (4, #v[7])]).length ∧
      ¬WriteBatch.ScratchInside 1
        (pushedOut.evictedBatch pushingEnv [(3, #v[6]), (4, #v[7])]).length := by
  rw [MemDisk.generates_iff, WriteBatch.mem_recordSizesIndices,
    WriteBatch.mem_recordOffsetsIndices, WriteBatch.scratchInside_iff]
  decide

end DB

end Calls

end MlkvPlus
