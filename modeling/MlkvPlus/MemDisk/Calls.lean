import MlkvPlus.MemDisk
import MlkvPlus.Gwal.Framing
import MlkvPlus.WriteBatch.Sizes

namespace MlkvPlus.MemDisk

open Gds Log WriteBatch

variable {K V : Type} [Scalar K] [Scalar V] {dim : Nat}

theorem selectWriter_returned {env : CallEnv K} (h : selectWriter env s = (.returned (), s')) :
    s'.appended = s.appended ∧ s'.memtable = s.memtable ∧ s'.lastSequence = s.lastSequence ∧
      s'.walFile = s.currentWal ∧ s'.currentWal = s.currentWal := by
  unfold selectWriter at h
  split at h
  · cases h
  · split at h
    · rename_i hsame
      cases h
      exact ⟨rfl, rfl, rfl, hsame, rfl⟩
    · cases h
      exact ⟨rfl, rfl, rfl, rfl, rfl⟩

theorem appendRecord_returned {env : CallEnv K}
    (h : appendRecord env s payload = (.returned (), s')) :
    ∃ writer, s.writer.addRecord env.fragments payload = (.returned .ok, writer) ∧
      s' = { s with writer := writer, appended := s.appended ++ [(s.walFile, payload)] } := by
  unfold appendRecord at h
  split at h
  · rename_i writer hadd
    cases h
    exact ⟨writer, hadd, rfl⟩
  all_goals cases h

-- One payload went to the file of the current WAL.
structure Appends (s : MemDisk) (payload : Bytes) (s' : MemDisk) : Prop where
  appended : s'.appended = s.appended ++ [(s.currentWal, payload)]
  file : s'.walFile = s.currentWal
  current : s'.currentWal = s.currentWal

theorem logBatch_returned {pairs : List (K × Vector V dim)}
    (h : logBatch env s pairs sequenceNumber = (.returned (), s')) :
    ∃ payload, generateTypedWriteBatch env.fresh pairs sequenceNumber = .ok payload ∧
      Appends s payload s' ∧ s'.memtable = s.memtable ∧ s'.lastSequence = s.lastSequence := by
  unfold logBatch at h
  split at h
  · rename_i s₁ hselect
    obtain ⟨happended, hmemtable, hsequence, hwal, hcurrent⟩ := selectWriter_returned hselect
    split at h
    · rename_i payload hgenerate
      obtain ⟨writer, _, rfl⟩ := appendRecord_returned h
      exact ⟨payload, hgenerate, ⟨by rw [happended, hwal], hwal, hcurrent⟩, hmemtable, hsequence⟩
    · cases h
  · simp_all

theorem write_frame {env : CallEnv K} (h : write env s batch = (status, s')) :
    s'.appended = s.appended ∧ s'.currentWal = s.currentWal ∧ s'.walFile = s.walFile := by
  unfold write at h
  split at h <;> cases h <;> exact ⟨rfl, rfl, rfl⟩

theorem write_true {env : CallEnv K} (h : write env s batch = (true, s')) :
    s'.lastSequence = s.lastSequence + batch.length ∧
      s'.memtable = s.memtable ++ numbered (s.lastSequence + 1) batch := by
  unfold write at h
  split at h
  · cases h
  · cases h
    exact ⟨rfl, rfl⟩

theorem put_success {config : StorageConfig} {env : CallEnv K} {key : K}
    {values : Vector V dim} (hlog : config.enableGdsLog = true)
    (h : put config env s key values = (.returned .SUCCESS, s')) :
    ∃ batch s₁, WriteBatch.put [] env.keyVariable.1 (serializeValueArray values) = .ok batch ∧
      s.write env batch = (true, s₁) ∧
      s₁.logBatch env [(key, values)] s₁.lastSequence = (.returned (), s') := by
  obtain ⟨⟨status, s₁⟩, hrocks⟩ : ∃ written, s.rocksPut env values = written := ⟨_, rfl⟩
  simp only [put, hlog, ite_true, hrocks] at h
  split at h
  · rename_i s₂ hlogged
    cases status with
    | false => cases h
    | true =>
      cases h
      unfold rocksPut at hrocks
      split at hrocks
      · rename_i batch hput
        exact ⟨batch, s₁, hput, hrocks, hlogged⟩
      · cases hrocks
  · cases h
  · cases h

theorem multiset_success {pairs : List (K × Vector V dim)} (hlog : config.enableGdsLog = true)
    (h : multiset config env s pairs = (.returned .SUCCESS, s')) :
    ∃ s₁, 0 < pairs.length ∧ s.logBatch env pairs (s.lastSequence + 1) = (.returned (), s₁) ∧
      s₁.write env (buildBatch pairs) = (true, s') := by
  simp only [multiset, hlog, ite_true] at h
  split at h
  · cases h
  · rename_i hne
    split at h
    · rename_i s₁ hlogged
      unfold writeBatch at h
      split at h
      · rename_i s₂ hwrite
        cases h
        exact ⟨s₁, by omega, hlogged, hwrite⟩
      · cases h
    · cases h
    · cases h

-- A successful call hands one payload to the writer of the current WAL.
theorem call_success {config : StorageConfig} {env : CallEnv K} {operation : Call K V dim}
    (hlog : config.enableGdsLog = true)
    (h : call config env s operation = (.returned .SUCCESS, s')) :
    ∃ payload, Appends s payload s' ∧ payload.length = operation.payloadSize := by
  cases operation with
  | put key values =>
    obtain ⟨batch, s₁, _, hwrite, hlogged⟩ := put_success hlog h
    obtain ⟨hrecords, hcurrent, _⟩ := write_frame hwrite
    obtain ⟨payload, hgenerate, happends, _⟩ := logBatch_returned hlogged
    obtain ⟨_, hgenerate', hlength⟩ :=
      generateTypedWriteBatch_ok env.fresh [(key, values)] s₁.lastSequence (by simp)
    cases hgenerate.symm.trans hgenerate'
    rw [List.length_singleton, Nat.one_mul] at hlength
    refine ⟨payload, ⟨?_, happends.file.trans hcurrent, happends.current.trans hcurrent⟩,
      hlength⟩
    rw [happends.appended, hrecords, hcurrent]
  | multiset pairs =>
    obtain ⟨s₁, hne, hlogged, hwrite⟩ := multiset_success hlog h
    obtain ⟨hrecords, hcurrent, hwal⟩ := write_frame hwrite
    obtain ⟨payload, hgenerate, happends, _⟩ := logBatch_returned hlogged
    obtain ⟨_, hgenerate', hlength⟩ :=
      generateTypedWriteBatch_ok env.fresh pairs (s.lastSequence + 1) hne
    cases hgenerate.symm.trans hgenerate'
    exact ⟨payload, ⟨hrecords.trans happends.appended, hwal.trans happends.file,
      hcurrent.trans happends.current⟩, hlength⟩

theorem appendRecord_ready {env : CallEnv K} (hclean : ∀ index, env.fragments index = {})
    (hready : s.writer.Ready) (payload : Bytes) :
    ∃ writer, s.writer.addRecord env.fragments payload = (.returned .ok, writer) ∧
      appendRecord env s payload = (.returned (), { s with
        writer := writer, appended := s.appended ++ [(s.walFile, payload)] }) := by
  obtain ⟨writer, hadd, _⟩ := GWALWriter.addRecordLoop_accepts GWALWriter.lays_ready env.fragments
    hclean true s.writer hready payload 0 (hready.accepts _)
  exact ⟨writer, hadd, by rw [appendRecord, GWALWriter.addRecord, hadd]⟩

theorem selectWriter_ready {env : CallEnv K} (hwal : env.walStatus = true)
    (hready : s.writer.Ready) :
    ∃ s', selectWriter env s = (.returned (), s') ∧ s'.writer.Ready := by
  have hstatus : ¬env.walStatus = false := by rw [hwal]; decide
  by_cases hsame : s.walFile = s.currentWal
  · exact ⟨s, by rw [selectWriter, if_neg hstatus, if_pos hsame], hready⟩
  · exact ⟨_, by rw [selectWriter, if_neg hstatus, if_neg hsame],
      GWALWriter.ready_create _ env.headerBuffer env.trailerBuffer⟩

theorem logBatch_ready {env : CallEnv K} (hwal : env.walStatus = true)
    (hclean : ∀ index, env.fragments index = {}) (hready : s.writer.Ready)
    (pairs : List (K × Vector V dim)) (hne : 0 < pairs.length) (sequenceNumber : Nat) :
    ∃ s', logBatch env s pairs sequenceNumber = (.returned (), s') := by
  obtain ⟨s₁, hselect, hready'⟩ := selectWriter_ready hwal hready
  obtain ⟨payload, hgenerate, _⟩ :=
    generateTypedWriteBatch_ok env.fresh pairs sequenceNumber hne
  obtain ⟨writer, _, happend⟩ := appendRecord_ready hclean hready' payload
  exact ⟨_, by rw [logBatch, hselect, hgenerate]; exact happend⟩

theorem multiset_ready (config : StorageConfig) (env : CallEnv K) (s : MemDisk)
    (hwal : env.walStatus = true)
    (hclean : ∀ index, env.fragments index = {}) (hwrite : env.writeStatus = true)
    (hready : s.writer.Ready) (pairs : List (K × Vector V dim)) (hne : 0 < pairs.length) :
    ∃ s', multiset config env s pairs = (.returned .SUCCESS, s') := by
  have hbatch (s : MemDisk) : ∃ s', s.writeBatch env (buildBatch pairs) =
      (.returned .SUCCESS, s') := by
    rw [writeBatch, write, if_neg (by rw [hwrite]; decide)]
    exact ⟨_, rfl⟩
  rw [multiset, if_neg (by omega)]
  by_cases hlog : config.enableGdsLog = true
  · obtain ⟨s₁, hlogged⟩ := logBatch_ready hwal hclean hready pairs hne (s.lastSequence + 1)
    rw [if_pos hlog, hlogged]
    exact hbatch s₁
  · rw [if_neg hlog]
    exact hbatch s

-- An environment in which everything succeeds, over cleared memory.
def clearedEnv : CallEnv UInt64 where
  keyVariable := .zeros _
  headerBuffer := .zeros _
  trailerBuffer := .zeros _
  fresh := .zeros

def clearedTree : MemDisk :=
  initializeTree 0 4 true (.zeros _) (.zeros _)

theorem multiset_clearedTree (pairs : List (UInt64 × Vector UInt32 1)) (hne : 0 < pairs.length) :
    ∃ s', clearedTree.call { enableGdsLog := true } clearedEnv (.multiset pairs) =
      (.returned .SUCCESS, s') :=
  multiset_ready { enableGdsLog := true } clearedEnv clearedTree rfl (fun _ => rfl) rfl
    (GWALWriter.ready_create _ _ _) pairs hne

end MlkvPlus.MemDisk
