import MlkvPlus.MemDisk.Calls
import MlkvPlus.Gwal.Replay

namespace MlkvPlus

open Gds Log WriteBatch

namespace MemDisk

def payloads (s : MemDisk) (wal : Nat) : List Bytes :=
  (s.appended.filter fun record => record.1 = wal).map Prod.snd

-- A run of calls whose CUDA calls succeed, with changes of the current WAL between them.
inductive Run (K V : Type) [Scalar K] [Scalar V] (dim : Nat) (config : StorageConfig) :
    MemDisk → Prop where
  | start (lastSequence wal : Nat) (assertions : Bool)
      (headerBuffer : DeviceBuffer kRecyclableHeaderSize)
      (trailerBuffer : DeviceBuffer trailerBufferSize) :
      Run K V dim config (initializeTree lastSequence wal assertions headerBuffer trailerBuffer)
  | call (env : CallEnv K) (operation : Call K V dim) : Run K V dim config s →
      (∀ index, env.fragments index = {}) →
      s.call config env operation = (outcome, s') → Run K V dim config s'
  | newWal (gap : Nat) : Run K V dim config s →
      Run K V dim config { s with currentWal := s.currentWal + gap + 1 }

-- The writer has written the payloads of its file, and later files have none yet.
structure Logged (s : MemDisk) : Prop where
  writer : ∃ assertions headerBuffer trailerBuffer,
    (GWALWriter.create [] assertions headerBuffer trailerBuffer).addRecords
      (s.payloads s.walFile) = (.returned .ok, s.writer)
  file_le : s.walFile ≤ s.currentWal
  appended_le : ∀ record ∈ s.appended, record.1 ≤ s.walFile

theorem Logged.ready (h : Logged s) : s.writer.Ready := by
  obtain ⟨assertions, headerBuffer, trailerBuffer, hadd⟩ := h.writer
  obtain ⟨_, hadd', hready, _⟩ :=
    GWALWriter.addRecords_create assertions headerBuffer trailerBuffer (s.payloads s.walFile)
  cases hadd.symm.trans hadd'
  exact hready

theorem payloads_append (s : MemDisk) (wal : Nat) (payload : Bytes) (writer : GWALWriter) :
    payloads { s with writer := writer, appended := s.appended ++ [(wal, payload)] } wal =
      s.payloads wal ++ [payload] := by
  simp [payloads]

theorem payloads_eq_nil (s : MemDisk) (hle : ∀ record ∈ s.appended, record.1 ≤ file)
    (hlt : file < wal) : s.payloads wal = [] := by
  have hnone : s.appended.filter (fun record => record.1 = wal) = [] := by
    rw [List.filter_eq_nil_iff]
    intro record hmem
    have := hle record hmem
    simp only [decide_eq_true_eq]
    omega
  rw [payloads, hnone, List.map_nil]

variable {K V : Type} [Scalar K] [Scalar V] {dim : Nat}

theorem Logged.selectWriter {env : CallEnv K} (h : Logged s)
    (hselect : selectWriter env s = (outcome, s')) : Logged s' := by
  unfold MemDisk.selectWriter at hselect
  split at hselect
  · cases hselect
    exact h
  · split at hselect
    · cases hselect
      exact h
    · rename_i hother
      cases hselect
      have hlt : s.walFile < s.currentWal := Nat.lt_of_le_of_ne h.file_le hother
      refine ⟨⟨s.writer.dest.assertions, env.headerBuffer, env.trailerBuffer, ?_⟩,
        Nat.le_refl _, ?_⟩
      · have hnil := payloads_eq_nil s h.appended_le hlt
        simp only [payloads] at hnil ⊢
        rw [hnil]
        rfl
      · intro record hmem
        exact Nat.le_trans (h.appended_le record hmem) (Nat.le_of_lt hlt)

theorem Logged.appendRecord {env : CallEnv K} (hclean : ∀ index, env.fragments index = {})
    (h : Logged s) (payload : Bytes) :
    ∃ s', appendRecord env s payload = (.returned (), s') ∧ Logged s' ∧
      s'.payloads s.walFile = s.payloads s.walFile ++ [payload] ∧
      s'.walFile = s.walFile ∧ s'.currentWal = s.currentWal := by
  obtain ⟨assertions, headerBuffer, trailerBuffer, hwritten⟩ := h.writer
  obtain ⟨writer, hadd, happend⟩ := appendRecord_ready hclean h.ready payload
  have hpayloads := payloads_append s s.walFile payload writer
  refine ⟨_, happend, ⟨⟨assertions, headerBuffer, trailerBuffer, ?_⟩, h.file_le, ?_⟩,
    hpayloads, rfl, rfl⟩
  · have hfragments : env.fragments = fun _ => {} := funext hclean
    rw [hfragments] at hadd
    rw [hpayloads, GWALWriter.addRecords, Framing.addAll_concat payload hwritten, hadd]
  · exact List.forall_mem_append.mpr ⟨h.appended_le, List.forall_mem_singleton.mpr le_rfl⟩

theorem Logged.logBatch (hclean : ∀ index, env.fragments index = {}) (h : Logged s)
    {pairs : List (K × Vector V dim)} (hbatch : logBatch env s pairs sequenceNumber = (outcome, s')) :
    Logged s' := by
  unfold MemDisk.logBatch at hbatch
  split at hbatch
  · rename_i s₁ hselect
    have hselected := h.selectWriter hselect
    split at hbatch
    · rename_i payload _
      obtain ⟨s₂, happend, hlogged, _⟩ := hselected.appendRecord hclean payload
      cases hbatch.symm.trans happend
      exact hlogged
    · cases hbatch
      exact hselected
  · exact h.selectWriter hbatch

theorem Logged.write {env : CallEnv K} (h : Logged s)
    (hwrite : write env s batch = (status, s')) : Logged s' := by
  unfold MemDisk.write at hwrite
  split at hwrite <;> cases hwrite
  · exact h
  · exact ⟨h.writer, h.file_le, h.appended_le⟩

theorem Logged.put {config : StorageConfig} {env : CallEnv K}
    (hclean : ∀ index, env.fragments index = {}) (h : Logged s) {key : K}
    {values : Vector V dim} (hput : put config env s key values = (outcome, s')) :
    Logged s' := by
  obtain ⟨⟨status, s₁⟩, hrocks⟩ : ∃ written, s.rocksPut env values = written := ⟨_, rfl⟩
  have hwritten : Logged s₁ := by
    unfold rocksPut at hrocks
    split at hrocks
    · exact h.write hrocks
    · cases hrocks
      exact h
  simp only [MemDisk.put, hrocks] at hput
  split at hput
  · split at hput <;> rename_i hbatch <;> cases hput <;> exact hwritten.logBatch hclean hbatch
  · cases hput
    exact hwritten

theorem Logged.writeBatch {env : CallEnv K} (h : Logged s)
    (hbatch : writeBatch env s batch = (outcome, s')) : Logged s' := by
  unfold MemDisk.writeBatch at hbatch
  split at hbatch <;> rename_i hwrite <;> cases hbatch <;> exact h.write hwrite

theorem Logged.multiset (hclean : ∀ index, env.fragments index = {}) (h : Logged s)
    {pairs : List (K × Vector V dim)} (hset : multiset config env s pairs = (outcome, s')) :
    Logged s' := by
  unfold MemDisk.multiset at hset
  split at hset
  · cases hset
    exact h
  · split at hset
    · split at hset
      · rename_i hbatch
        exact (h.logBatch hclean hbatch).writeBatch hset
      · rename_i hbatch
        cases hset
        exact h.logBatch hclean hbatch
      · rename_i hbatch
        cases hset
        exact h.logBatch hclean hbatch
    · exact h.writeBatch hset

theorem Logged.call {config : StorageConfig} {env : CallEnv K}
    (hclean : ∀ index, env.fragments index = {}) (h : Logged s) {operation : Call K V dim}
    (hcall : s.call config env operation = (outcome, s')) : Logged s' := by
  cases operation with
  | put key values => exact h.put hclean hcall
  | multiset pairs => exact h.multiset hclean hcall

theorem Run.logged {config : StorageConfig} (h : Run K V dim config s) : Logged s := by
  induction h with
  | start lastSequence wal assertions headerBuffer trailerBuffer =>
    exact ⟨⟨assertions, headerBuffer, trailerBuffer, rfl⟩, Nat.le_refl _,
      fun _ hmem => absurd hmem (List.not_mem_nil)⟩
  | call env operation _ hclean hcall ih => exact ih.call hclean hcall
  | newWal gap _ ih => exact ⟨ih.writer, by have := ih.file_le; simp only; omega, ih.appended_le⟩

-- What the reader returns from the file as a crash leaves it.
def Recovers (readerEnv : ReaderEnv) (mode : WALRecoveryMode) (extra : Nat) (s : MemDisk)
    (records : List Bytes) : Prop :=
  ∃ r, Reader.readRecords readerEnv mode (s.writer.dest.disk.length + 1 + extra)
    (s.writer.dest.disk.length + 1 + extra) { file := s.writer.dest.disk } = some (records, r)

theorem Logged.recovers (h : Logged s) (readerEnv : ReaderEnv) (mode : WALRecoveryMode)
    (extra : Nat) :
    Recovers readerEnv mode extra s ((s.payloads s.walFile).take (Framing.intact
      (format.total 0 ((s.payloads s.walFile).map List.length) / 4096 * 4096)
      (format.sizes 0 ((s.payloads s.walFile).map List.length)))) := by
  obtain ⟨assertions, headerBuffer, trailerBuffer, hwritten⟩ := h.writer
  have hlength := GWALWriter.length_contents_addRecords assertions headerBuffer trailerBuffer
    (s.payloads s.walFile)
  rw [hwritten] at hlength
  simp only at hlength
  have halign : s.writer.dest.options.gdsAlignment = 4096 := by rw [h.ready.options]
  have hdisk := h.ready.sound.disk_eq_take
  rw [halign, hlength] at hdisk
  obtain ⟨r, hread, _⟩ := GWALWriter.readRecords_take assertions headerBuffer trailerBuffer
    readerEnv mode (s.payloads s.walFile) _ extra hwritten
  rw [← hdisk] at hread
  rw [Recovers, Framing.Format.total, format.sizes_zero]
  exact ⟨r, hread⟩

-- A crash right after a successful call loses nothing exactly when the framed
-- length of the file has reached a multiple of the alignment with this call.
theorem recovers_all_iff (config : StorageConfig) (env : CallEnv K) (operation : Call K V dim)
    (readerEnv : ReaderEnv) (mode : WALRecoveryMode) (extra : Nat) (s s' : MemDisk)
    (hrun : Run K V dim config s) (hlog : config.enableGdsLog = true)
    (hclean : ∀ index, env.fragments index = {})
    (hcall : s.call config env operation = (.returned .SUCCESS, s')) :
    s'.walFile = s.currentWal ∧
      (∃ payload, s'.payloads s.currentWal = s.payloads s.currentWal ++ [payload]) ∧
      (Recovers readerEnv mode extra s' (s'.payloads s'.walFile) ↔
        4096 ∣ format.total 0
          ((s.payloads s.currentWal).map List.length ++ [operation.payloadSize])) := by
  obtain ⟨payload, ⟨happended, hfile, _⟩, hsize⟩ := call_success hlog hcall
  have hlogged := hrun.logged.call hclean hcall
  have hpayloads : s'.payloads s.currentWal = s.payloads s.currentWal ++ [payload] := by
    simp [payloads, happended]
  refine ⟨hfile, ⟨payload, hpayloads⟩, ?_⟩
  have hrecovers := hlogged.recovers readerEnv mode extra
  have hlengths : (s'.payloads s'.walFile).map List.length =
      (s.payloads s.currentWal).map List.length ++ [operation.payloadSize] := by
    rw [hfile, hpayloads, List.map_append, List.map_singleton, hsize]
  rw [hlengths] at hrecovers
  generalize (s.payloads s.currentWal).map List.length ++ [operation.payloadSize] = lengths
    at hlengths hrecovers ⊢
  have hcount : (s'.payloads s'.walFile).length = (format.sizes 0 lengths).length := by
    rw [format.length_sizes, ← hlengths, List.length_map]
  have hall := Framing.intact_eq_length (format.total 0 lengths / 4096 * 4096)
    (format.sizes 0 lengths)
  have hbound := (Framing.intact_isGreatest (format.total 0 lengths / 4096 * 4096)
    (format.sizes 0 lengths)).1.1
  have hsum : (format.sizes 0 lengths).sum = format.total 0 lengths := rfl
  constructor
  · rintro ⟨r, hread⟩
    obtain ⟨r', hread'⟩ := hrecovers
    have htake := (Prod.mk.inj (Option.some.inj (hread.symm.trans hread'))).1
    have hle := List.take_eq_self_iff _ |>.mp htake.symm
    have := hall.mp (by omega)
    omega
  · intro hdvd
    have hfit := hall.mpr (by omega)
    rw [hfit, ← hcount, List.take_length] at hrecovers
    exact hrecovers

theorem recovers_all_iff_multiset_one :
    ∃ s', clearedTree.call { enableGdsLog := true } clearedEnv
        (.multiset [((7 : UInt64), (#v[1] : Vector UInt32 1))]) = (.returned .SUCCESS, s') ∧
      (Recovers ⟨true, 4, id, fun _ => 0, fun _ => false, fun _ _ => [], fun _ => []⟩
          .kTolerateCorruptedTailRecords 0 s' (s'.payloads s'.walFile) ↔
        4096 ∣ format.total 0 [27]) := by
  obtain ⟨s', h⟩ := multiset_clearedTree [(7, #v[1])] (by decide)
  exact ⟨s', h, (recovers_all_iff { enableGdsLog := true } clearedEnv _ _ _ 0 clearedTree s'
    (.start 0 4 true _ _) rfl (fun _ => rfl) h).2.2⟩

-- One small batch: the call is acknowledged, and nothing of it is read after a crash.
theorem recovers_none_of_multiset_one :
    ∃ s' payload, clearedTree.call { enableGdsLog := true } clearedEnv
        (.multiset [((7 : UInt64), (#v[1] : Vector UInt32 1))]) = (.returned .SUCCESS, s') ∧
      s'.payloads s'.walFile = [payload] ∧
      ∀ readerEnv mode extra, Recovers readerEnv mode extra s' [] ∧
        ¬Recovers readerEnv mode extra s' (s'.payloads s'.walFile) := by
  obtain ⟨s', h⟩ := multiset_clearedTree [(7, #v[1])] (by decide)
  obtain ⟨payload, ⟨happended, hfile, _⟩, hsize⟩ := call_success rfl h
  have hpayloads : s'.payloads s'.walFile = [payload] := by
    rw [hfile, payloads, happended]
    rfl
  have hrun : Run UInt64 UInt32 1 { enableGdsLog := true } clearedTree := .start 0 4 true _ _
  have hlogged : Logged s' := hrun.logged.call (fun _ => rfl) h
  -- the record takes 34 bytes of the 4096 that are staged
  have htotal : format.sizes 0 ([payload].map List.length) = [34] := by
    rw [List.map_singleton, hsize, Framing.Format.sizes, format.size_of_le _ _ (by decide)]
    rfl
  refine ⟨s', payload, h, hpayloads, ?_⟩
  intro readerEnv mode extra
  have hrecovers := hlogged.recovers readerEnv mode extra
  rw [hpayloads, Framing.Format.total, htotal] at hrecovers
  refine ⟨hrecovers, ?_⟩
  rintro ⟨r, hread⟩
  obtain ⟨r', hread'⟩ := hrecovers
  have hrecords := (Prod.mk.inj (Option.some.inj (hread.symm.trans hread'))).1
  rw [hpayloads] at hrecords
  cases hrecords

end MemDisk

end MlkvPlus
