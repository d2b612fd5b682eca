import MlkvPlus.Gds.FileSystem

namespace MlkvPlus.Gds.GDSFileSystem

inductive Call where
  | append (data : Bytes)
  | flush
  deriving DecidableEq, Repr

-- One call, with all allocations and writes below it complete.
def perform (fs : GDSFileSystem) : Call → Outcome IOStatus × GDSFileSystem
  | .append data => fs.appendFromGPU {} data
  | .flush => ((.returned (fs.flush {}).1), (fs.flush {}).2)

-- A failed assertion ends the run.
def runCalls (fs : GDSFileSystem) : List Call → Outcome IOStatus × GDSFileSystem
  | [] => (.returned .ok, fs)
  | call :: rest =>
    match fs.perform call with
    | (.returned _, next) => next.runCalls rest
    | ended => ended

def appendedData : List Call → Bytes
  | [] => []
  | .append data :: rest => data ++ appendedData rest
  | .flush :: rest => appendedData rest

def appended (fs : GDSFileSystem) (data : Bytes) : GDSFileSystem :=
  { fs with
    disk := fs.disk ++ (fs.writeBuffer ++ data).take (fs.alignedWriteSize data)
    fileSize := fs.fileSize + fs.alignedWriteSize data
    writeBuffer := (fs.writeBuffer ++ data).drop (fs.alignedWriteSize data) }

def flushed (fs : GDSFileSystem) : GDSFileSystem :=
  { fs with
    disk := fs.disk ++ fs.writeBuffer
    fileSize := fs.fileSize + fs.writeBuffer.length
    writeBuffer := [] }

-- The append that no assertion stops.
def Accepts (fs : GDSFileSystem) (data : Bytes) : Prop :=
  fs.writeBuffer.length + data.length < fs.options.gdsAlignment ∨
    fs.options.gdsAlignment ∣ fs.fileSize

variable {fs : GDSFileSystem}

theorem alignedWriteSize_le (fs : GDSFileSystem) (data : Bytes) :
    fs.alignedWriteSize data ≤ (fs.writeBuffer ++ data).length := by
  rw [List.length_append]
  exact Nat.div_mul_le_self _ _

theorem length_staged_appended (fs : GDSFileSystem) (data : Bytes) :
    (fs.appended data).writeBuffer.length =
      (fs.writeBuffer.length + data.length) % fs.options.gdsAlignment := by
  have hdiv := Nat.div_add_mod' (fs.writeBuffer.length + data.length) fs.options.gdsAlignment
  rw [appended, List.length_drop, List.length_append, alignedWriteSize]
  omega

theorem length_written_appended (fs : GDSFileSystem) (data : Bytes) :
    ((fs.writeBuffer ++ data).take (fs.alignedWriteSize data)).length =
      fs.alignedWriteSize data := by
  rw [List.length_take, Nat.min_eq_left (fs.alignedWriteSize_le data)]

theorem Dense.appended (hd : Dense fs) (data : Bytes) : (fs.appended data).Dense where
  alignment_pos := hd.alignment_pos
  staged_lt := by
    rw [length_staged_appended]
    exact Nat.mod_lt _ hd.alignment_pos
  initialized := hd.initialized
  disk_length := by
    rw [GDSFileSystem.appended, List.length_append, length_written_appended, hd.disk_length]

theorem Dense.contents_appended (hd : Dense fs) (data : Bytes) :
    (fs.appended data).contents = fs.contents ++ data := by
  rw [(hd.appended data).contents_eq, hd.contents_eq]
  simp only [GDSFileSystem.appended, List.append_assoc, List.take_append_drop]

theorem Dense.flushed (hd : Dense fs) : fs.flushed.Dense where
  alignment_pos := hd.alignment_pos
  staged_lt := hd.alignment_pos
  initialized := hd.initialized
  disk_length := by rw [GDSFileSystem.flushed, List.length_append, hd.disk_length]

theorem Dense.contents_flushed (hd : Dense fs) : fs.flushed.contents = fs.contents := by
  rw [hd.flushed.contents_eq, hd.contents_eq]
  simp only [GDSFileSystem.flushed, List.append_nil]

theorem Dense.bufferedWrite_eq (hd : Dense fs) (data : Bytes)
    (h : fs.assertions = true → fs.Accepts data) :
    fs.bufferedWrite {} data = (.returned .ok, fs.appended data) := by
  by_cases hlt : fs.writeBuffer.length + data.length < fs.options.gdsAlignment
  · have hsize : fs.alignedWriteSize data = 0 := by
      rw [alignedWriteSize, Nat.div_eq_of_lt hlt, Nat.zero_mul]
    rw [bufferedWrite_small {} fs data hlt, copied_of_none rfl, GDSFileSystem.appended, hsize,
      List.take_zero, List.drop_zero, List.append_nil, Nat.add_zero]
  · have hpassed : ¬(fs.assertions = true ∧ ¬fs.fileSize % fs.options.gdsAlignment = 0) :=
      fun ⟨hon, hfile⟩ => hfile (Nat.mod_eq_zero_of_dvd ((h hon).resolve_left hlt))
    rw [bufferedWrite_large {} hd.toStaged data (Nat.le_of_not_lt hlt), if_neg (by simp),
      checkedAssert, if_neg hpassed]
    simp only [CuFileWrite.apply, copied_of_none, ← hd.disk_length, pwrite_length,
      GDSFileSystem.appended]

theorem Dense.perform_append (hd : Dense fs) (data : Bytes)
    (h : fs.assertions = true → fs.Accepts data) :
    fs.perform (.append data) = (.returned .ok, fs.appended data) := by
  rw [perform, appendFromGPU_eq {} fs data hd.initialized, hd.bufferedWrite_eq data h]

theorem Dense.perform_append_aborted (hd : Dense fs) (data : Bytes) (hon : fs.assertions = true)
    (h : ¬fs.Accepts data) : ∃ text, fs.perform (.append data) = (.aborted text, fs) := by
  obtain ⟨hlt, hfile⟩ := not_or.mp h
  have hstopped : fs.assertions = true ∧ ¬fs.fileSize % fs.options.gdsAlignment = 0 :=
    ⟨hon, fun hzero => hfile (Nat.dvd_of_mod_eq_zero hzero)⟩
  rw [perform, appendFromGPU_eq {} fs data hd.initialized,
    bufferedWrite_large {} hd.toStaged data (Nat.le_of_not_lt hlt), if_neg (by simp),
    checkedAssert, if_pos hstopped]
  exact ⟨_, rfl⟩

theorem Dense.perform_flush (hd : Dense fs) :
    fs.perform .flush = (.returned .ok, fs.flushed) := by
  by_cases hstaged : fs.writeBuffer.length = 0
  · have hnil := List.length_eq_zero_iff.mp hstaged
    have hsame : fs.flushed = fs := by
      rw [GDSFileSystem.flushed, hnil, List.append_nil, List.length_nil, Nat.add_zero, ← hnil]
    simp only [perform, flush, hd.initialized, hstaged, if_true, Bool.true_eq_false, if_false,
      hsame]
  · simp only [perform, flush, hd.initialized, hstaged, if_false, Bool.true_eq_false,
      CuFileWrite.apply, GDSFileSystem.flushed, ← hd.disk_length, pwrite_length]

theorem Dense.runCalls (calls : List Call) (hd : Dense fs) (hoff : fs.assertions = false) :
    ∃ next, fs.runCalls calls = (.returned .ok, next) ∧ next.Dense ∧
      next.options = fs.options ∧ next.contents = fs.contents ++ appendedData calls := by
  induction calls generalizing fs with
  | nil => exact ⟨fs, rfl, hd, rfl, (List.append_nil _).symm⟩
  | cons call rest ih =>
    cases call with
    | append data =>
      have hstep := hd.perform_append data fun hon => absurd (hoff.symm.trans hon) (by decide)
      obtain ⟨next, hrun, hdense, hoptions, hcontents⟩ := ih (hd.appended data) hoff
      refine ⟨next, ?_, hdense, hoptions, ?_⟩
      · simp only [GDSFileSystem.runCalls, hstep, hrun]
      · rw [hcontents, hd.contents_appended, appendedData, List.append_assoc]
    | flush =>
      obtain ⟨next, hrun, hdense, hoptions, hcontents⟩ := ih hd.flushed hoff
      refine ⟨next, ?_, hdense, hoptions, ?_⟩
      · simp only [GDSFileSystem.runCalls, hd.perform_flush, hrun]
      · rw [hcontents, hd.contents_flushed, appendedData]

theorem dense_initializeGDS (options : GDSOptions) (assertions : Bool) (file : Bytes)
    (hpos : 0 < options.gdsAlignment) : (initializeGDS options assertions file).Dense where
  alignment_pos := hpos
  staged_lt := hpos
  initialized := rfl
  disk_length := rfl

theorem contents_initializeGDS (options : GDSOptions) (assertions : Bool) (file : Bytes) :
    (initializeGDS options assertions file).contents = file := by
  rw [contents, initializeGDS, List.take_length, List.append_nil]

-- Buffered appends lose, duplicate and reorder nothing.
theorem runCalls_contents (options : GDSOptions) (hpos : 0 < options.gdsAlignment) (file : Bytes)
    (calls : List Call) :
    ∃ fs, (initializeGDS options false file).runCalls calls = (.returned .ok, fs) ∧
      fs.contents = file ++ appendedData calls ∧
      fs.writeBuffer.length < options.gdsAlignment ∧
      fs.close {} = file ++ appendedData calls := by
  obtain ⟨fs, hrun, hdense, hoptions, hcontents⟩ :=
    (dense_initializeGDS options false file hpos).runCalls calls rfl
  rw [contents_initializeGDS] at hcontents
  refine ⟨fs, hrun, hcontents, ?_, hdense.close_eq.trans hcontents⟩
  have hstaged := hdense.staged_lt
  rwa [hoptions] at hstaged

theorem runCalls_contents_small :
    ∃ fs, (initializeGDS { gdsAlignment := 2 } false [1]).runCalls
        [.append [2, 3, 4], .flush, .append []] = (.returned .ok, fs) ∧
      fs.contents = [1, 2, 3, 4] ∧ fs.writeBuffer.length < 2 ∧ fs.close {} = [1, 2, 3, 4] :=
  runCalls_contents { gdsAlignment := 2 } (by decide) [1] [.append [2, 3, 4], .flush, .append []]

-- The offset and the size of the cuFileWrite that the buffered write of a call issues.
def bufferedWrites (fs : GDSFileSystem) : Call → List (Nat × Nat)
  | .append data =>
    if fs.writeBuffer.length + data.length < fs.options.gdsAlignment then []
    else [(fs.fileSize, fs.alignedWriteSize data)]
  | .flush => []

def issuedWrites (fs : GDSFileSystem) : List Call → List (Nat × Nat)
  | [] => []
  | call :: rest => fs.bufferedWrites call ++ (fs.perform call).2.issuedWrites rest

-- What decides about the assertions: `size` bytes in the file at the last Flush, and
-- `pending` bytes appended since then.
def StaysAligned (alignment : Nat) : Nat → Nat → List Call → Prop
  | _, _, [] => True
  | size, pending, .append data :: rest =>
    (pending % alignment + data.length < alignment ∨ alignment ∣ size) ∧
      StaysAligned alignment size (pending + data.length) rest
  | size, pending, .flush :: rest => StaysAligned alignment (size + pending) 0 rest

structure Tracks (fs : GDSFileSystem) (size pending : Nat) : Prop extends fs.Dense where
  staged_eq : fs.writeBuffer.length = pending % fs.options.gdsAlignment
  total_eq : fs.fileSize + fs.writeBuffer.length = size + pending

section Tracks

variable {size pending : Nat}

theorem tracks_initializeGDS (options : GDSOptions) (assertions : Bool) (file : Bytes)
    (hpos : 0 < options.gdsAlignment) :
    (initializeGDS options assertions file).Tracks file.length 0 where
  toDense := dense_initializeGDS options assertions file hpos
  staged_eq := (Nat.zero_mod _).symm
  total_eq := rfl

theorem Tracks.appended (h : Tracks fs size pending) (data : Bytes) :
    (fs.appended data).Tracks size (pending + data.length) where
  toDense := h.toDense.appended data
  staged_eq := by
    rw [length_staged_appended, h.staged_eq, Nat.mod_add_mod]
    rfl
  total_eq := by
    have htotal := h.total_eq
    have hsize := fs.alignedWriteSize_le data
    rw [List.length_append] at hsize
    simp only [GDSFileSystem.appended, List.length_drop, List.length_append]
    omega

theorem Tracks.flushed (h : Tracks fs size pending) : fs.flushed.Tracks (size + pending) 0 where
  toDense := h.toDense.flushed
  staged_eq := (Nat.zero_mod _).symm
  total_eq := h.total_eq

-- All appends since the last Flush have moved `file_size_` by whole units.
theorem Tracks.dvd_fileSize_iff (h : Tracks fs size pending) :
    fs.options.gdsAlignment ∣ fs.fileSize ↔ fs.options.gdsAlignment ∣ size := by
  have htotal := h.total_eq
  have hdiv := Nat.div_add_mod' pending fs.options.gdsAlignment
  rw [h.staged_eq] at htotal
  have hsize : fs.fileSize = size + pending / fs.options.gdsAlignment * fs.options.gdsAlignment :=
    by omega
  rw [hsize]
  exact (Nat.dvd_add_iff_left (Nat.dvd_mul_left _ _)).symm

theorem Tracks.accepts_iff (h : Tracks fs size pending) (data : Bytes) :
    fs.Accepts data ↔ pending % fs.options.gdsAlignment + data.length < fs.options.gdsAlignment ∨
      fs.options.gdsAlignment ∣ size := by
  rw [Accepts, h.staged_eq, h.dvd_fileSize_iff]

theorem Tracks.returned_iff (calls : List Call) (h : Tracks fs size pending)
    (hon : fs.assertions = true) :
    (∃ status next, fs.runCalls calls = (.returned status, next)) ↔
      StaysAligned fs.options.gdsAlignment size pending calls := by
  induction calls generalizing fs size pending with
  | nil => exact iff_of_true ⟨_, _, rfl⟩ trivial
  | cons call rest ih =>
    cases call with
    | append data =>
      by_cases haccepts : fs.Accepts data
      · have hstep := h.toDense.perform_append data fun _ => haccepts
        simp only [GDSFileSystem.runCalls, hstep]
        rw [StaysAligned, and_iff_right ((h.accepts_iff data).mp haccepts)]
        exact ih (h.appended data) hon
      · obtain ⟨text, hstep⟩ := h.toDense.perform_append_aborted data hon haccepts
        simp only [GDSFileSystem.runCalls, hstep]
        refine iff_of_false ?_ fun haligned => haccepts ((h.accepts_iff data).mpr haligned.1)
        rintro ⟨status, next, hreturned⟩
        cases hreturned
    | flush =>
      simp only [GDSFileSystem.runCalls, h.toDense.perform_flush]
      exact ih h.flushed hon

theorem Tracks.aligned_bufferedWrites_iff (h : Tracks fs size pending) (data : Bytes) :
    (∀ write ∈ fs.bufferedWrites (.append data),
      fs.options.gdsAlignment ∣ write.1 ∧ fs.options.gdsAlignment ∣ write.2) ↔
      pending % fs.options.gdsAlignment + data.length < fs.options.gdsAlignment ∨
        fs.options.gdsAlignment ∣ size := by
  rw [← h.accepts_iff data, Accepts, bufferedWrites]
  split
  case isTrue hlt => exact iff_of_true (List.forall_mem_nil _) (Or.inl hlt)
  case isFalse hlt =>
    rw [List.forall_mem_singleton, or_iff_right hlt]
    exact and_iff_left (Nat.dvd_mul_left _ _)

theorem Tracks.aligned_issuedWrites_iff (calls : List Call) (h : Tracks fs size pending)
    (hoff : fs.assertions = false) :
    (∀ write ∈ fs.issuedWrites calls,
      fs.options.gdsAlignment ∣ write.1 ∧ fs.options.gdsAlignment ∣ write.2) ↔
      StaysAligned fs.options.gdsAlignment size pending calls := by
  induction calls generalizing fs size pending with
  | nil => exact iff_of_true (List.forall_mem_nil _) trivial
  | cons call rest ih =>
    rw [issuedWrites, List.forall_mem_append]
    cases call with
    | append data =>
      have hstep := h.toDense.perform_append data fun hon => absurd (hoff.symm.trans hon)
        (by decide)
      rw [h.aligned_bufferedWrites_iff data, hstep, StaysAligned]
      exact and_congr_right fun _ => ih (h.appended data) hoff
    | flush =>
      rw [h.toDense.perform_flush, StaysAligned]
      exact (and_iff_right (List.forall_mem_nil _)).trans (ih h.flushed hoff)

end Tracks

-- The assertions hold, and the writes are aligned, exactly when no whole unit goes to a file
-- whose size at the last Flush is not a multiple of the alignment.
theorem assertions_hold_iff (options : GDSOptions) (hpos : 0 < options.gdsAlignment) (file : Bytes)
    (calls : List Call) :
    ((∃ status fs, (initializeGDS options true file).runCalls calls = (.returned status, fs)) ↔
      StaysAligned options.gdsAlignment file.length 0 calls) ∧
    ((∀ write ∈ (initializeGDS options false file).issuedWrites calls,
        options.gdsAlignment ∣ write.1 ∧ options.gdsAlignment ∣ write.2) ↔
      StaysAligned options.gdsAlignment file.length 0 calls) :=
  ⟨(tracks_initializeGDS options true file hpos).returned_iff calls rfl,
    (tracks_initializeGDS options false file hpos).aligned_issuedWrites_iff calls rfl⟩

theorem assertions_hold_iff_aligned_file :
    (∃ status fs, (initializeGDS { gdsAlignment := 2 } true [1, 1]).runCalls
        [.append [2, 3, 4], .append [5]] = (.returned status, fs)) ∧
      ∀ write ∈ (initializeGDS { gdsAlignment := 2 } false [1, 1]).issuedWrites
        [.append [2, 3, 4], .append [5]], 2 ∣ write.1 ∧ 2 ∣ write.2 := by
  have hiff := assertions_hold_iff { gdsAlignment := 2 } (by decide) [1, 1]
    [.append [2, 3, 4], .append [5]]
  have haligned : StaysAligned 2 2 0 [.append [2, 3, 4], .append [5]] :=
    ⟨Or.inr (by decide), Or.inr (by decide), trivial⟩
  exact ⟨hiff.1.mpr haligned, hiff.2.mpr haligned⟩

-- A Flush in between leaves a file size that the next whole unit does not start at.
theorem append_after_flush_aborts :
    ((initializeGDS {} true []).runCalls
      [.append [7], .flush, .append (List.replicate 4096 7)]).1 =
        .aborted "file_size_ % options_.GDSAlignment == 0" ∧
      (1, 4096) ∈ (initializeGDS {} false []).issuedWrites
        [.append [7], .flush, .append (List.replicate 4096 7)] := by
  decide +kernel

end MlkvPlus.Gds.GDSFileSystem
