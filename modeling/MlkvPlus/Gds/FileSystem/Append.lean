import MlkvPlus.Gwal.Framing

namespace MlkvPlus.Gds

open Log

def CuFileWrite.written (result : CuFileWrite) (size : Nat) : Nat :=
  match result with
  | .complete => size
  | .short count => min count size
  | .failed _ => 0

theorem CuFileWrite.apply_eq (result : CuFileWrite) (file : Bytes) (offset : Nat) (data : Bytes) :
    result.apply file offset data = pwrite file offset (data.take (result.written data.length)) := by
  cases result with
  | complete => rw [apply, written, List.take_length]
  | short count => rw [apply, written, ← List.take_take, List.take_length]
  | failed code => simp [apply, written, pwrite]

theorem CuFileWrite.written_le (result : CuFileWrite) (size : Nat) :
    result.written size ≤ size := by
  cases result with
  | complete => exact Nat.le_refl size
  | short count => exact Nat.min_le_right count size
  | failed code => exact Nat.zero_le size

namespace GDSFileSystem

theorem pwrite_of_le (file data : Bytes) (hle : file.length ≤ offset) (hdata : data ≠ []) :
    pwrite file offset data = file ++ List.replicate (offset - file.length) 0 ++ data := by
  rw [pwrite, if_neg hdata, List.take_of_length_le hle,
    List.drop_eq_nil_of_le (by omega), List.append_nil]

theorem length_pwrite_le (file data : Bytes) (offset : Nat) :
    (pwrite file offset data).length ≤ max file.length (offset + data.length) := by
  unfold pwrite
  split
  · omega
  · simp only [List.length_append, List.length_take, List.length_replicate, List.length_drop]
    omega

-- What the class can be in between two calls: opened on a file, written to and flushed,
-- with any outcome of the calls below it.
inductive Reached : GDSFileSystem → Prop where
  | opened (options : GDSOptions) (assertions : Bool) (file : Bytes)
      (hpos : 0 < options.gdsAlignment) : Reached (initializeGDS options assertions file)
  | written (env : WriteEnv) (data : Bytes) (offset : Nat) (h : Reached fs) :
      Reached (writeFromGPU env fs data offset).2
  | flushed (env : WriteEnv) (h : Reached fs) : Reached (flush env fs).2

-- A short write is counted in full, so the file may be shorter than `file_size_`.
structure Counted (fs : GDSFileSystem) : Prop where
  initialized : fs.gdsInitialized = true
  staged : fs.Staged
  disk_le : fs.disk.length ≤ fs.fileSize

theorem length_apply_le (result : CuFileWrite) (file data : Bytes) (offset size : Nat)
    (hfile : file.length ≤ size) :
    (result.apply file offset data).length ≤ max size (offset + data.length) := by
  have hlength := length_pwrite_le file (data.take (result.written data.length)) offset
  have hwritten := result.written_le data.length
  rw [CuFileWrite.apply_eq]
  rw [List.length_take] at hlength
  omega

theorem Counted.bufferedWrite (hc : Counted fs) (env : WriteEnv) (data : Bytes) :
    (bufferedWrite env fs data).2.Counted := by
  by_cases hlt : fs.writeBuffer.length + data.length < fs.options.gdsAlignment
  · rw [bufferedWrite_small env fs data hlt]
    refine ⟨hc.initialized, ⟨hc.staged.alignment_pos, ?_⟩, hc.disk_le⟩
    rw [List.length_append, length_copied]
    exact hlt
  · obtain ⟨_, hsize, hrest⟩ := alignedWriteSize_bounds hc.staged data (Nat.le_of_not_lt hlt)
    have hnext (result : CuFileWrite) : Counted { fs with
        disk := result.apply fs.disk fs.fileSize
          (env.copied ((fs.writeBuffer ++ data).take (fs.alignedWriteSize data)))
        fileSize := fs.fileSize + fs.alignedWriteSize data
        writeBuffer := env.copied
          ((fs.writeBuffer ++ data).drop (fs.alignedWriteSize data)) } := by
      refine ⟨hc.initialized, ⟨hc.staged.alignment_pos, ?_⟩, ?_⟩
      · rw [length_copied, List.length_drop]
        exact Nat.sub_lt_left_of_lt_add hsize hrest
      · have hlength := length_apply_le result fs.disk
          (env.copied ((fs.writeBuffer ++ data).take (fs.alignedWriteSize data))) fs.fileSize
          fs.fileSize hc.disk_le
        rw [length_copied, List.length_take, Nat.min_eq_left hsize] at hlength
        exact Nat.le_trans hlength (by simp)
    rw [bufferedWrite_large env hc.staged data (Nat.le_of_not_lt hlt)]
    split
    · exact hc
    · unfold checkedAssert
      split
      · exact hc
      · split
        · exact hc
        · exact hnext _

theorem Counted.writeFromGPU (hc : Counted fs) (env : WriteEnv) (data : Bytes) (offset : Nat) :
    (writeFromGPU env fs data offset).2.Counted := by
  have hnext (result : CuFileWrite) : Counted { fs with
      disk := result.apply fs.disk offset data
      fileSize := max fs.fileSize (offset + data.length) } :=
    ⟨hc.initialized, ⟨hc.staged.alignment_pos, hc.staged.staged_lt⟩,
      length_apply_le result fs.disk data offset fs.fileSize hc.disk_le⟩
  unfold GDSFileSystem.writeFromGPU
  split
  · exact hc
  · split
    · exact hc.bufferedWrite env data
    · split
      · exact hc
      · exact hnext _

theorem Counted.flush (hc : Counted fs) (env : WriteEnv) : (flush env fs).2.Counted := by
  have hnext (result : CuFileWrite) : Counted { fs with
      disk := result.apply fs.disk fs.fileSize fs.writeBuffer
      fileSize := fs.fileSize + fs.writeBuffer.length
      writeBuffer := [] } := by
    refine ⟨hc.initialized, ⟨hc.staged.alignment_pos, hc.staged.alignment_pos⟩, ?_⟩
    exact Nat.le_trans
      (length_apply_le result fs.disk fs.writeBuffer fs.fileSize fs.fileSize hc.disk_le) (by simp)
  unfold GDSFileSystem.flush
  split
  · exact hc
  · split
    · exact hc
    · split
      · exact hc
      · exact hnext _

theorem Reached.counted (h : Reached fs) : fs.Counted := by
  induction h with
  | opened options assertions file hpos => exact ⟨rfl, ⟨hpos, hpos⟩, Nat.le_refl _⟩
  | written env data offset h ih => exact ih.writeFromGPU env data offset
  | flushed env h ih => exact ih.flush env

-- The status of an append tells what became of its data, and so does the status of the
-- AddRecord pass that makes it.
structure Honest (env : WriteEnv) (fs : GDSFileSystem) (data : Bytes) : Prop where
  returns : ∃ status fs', appendFromGPU env fs data = (.returned status, fs')
  accepted : ∀ fs', appendFromGPU env fs data = (.returned .ok, fs') →
    fs'.contents = fs.contents ++ data
  passedOn : ∀ (w w' : GWALWriter) (calls : Nat → FragmentEnv) (isBegin : Bool) (left : Bytes),
    w.dest = fs → (calls 0).recordWrite = env → w.blockOffset + kHeaderSize ≤ kBlockSize →
    w.layout.encode ⟨0, .of isBegin (decide (left.length ≤ format.room w.blockOffset)),
      left.take (format.room w.blockOffset)⟩ = data →
    w.addRecordLoop calls isBegin left = (.returned .ok, w') →
    ∃ fs', appendFromGPU env fs data = (.returned .ok, fs')

-- The aligned part of the staged and the new bytes gets to disk in full, behind zeros if
-- an earlier short write has left the file shorter than `file_size_`.
def Delivers (env : WriteEnv) (fs : GDSFileSystem) (data : Bytes) : Prop :=
  fs.writeBuffer.length + data.length < fs.options.gdsAlignment ∨
    env.malloc = true ∧ (fs.assertions = true → fs.options.gdsAlignment ∣ fs.fileSize) ∧
      0 < env.write.written (fs.alignedWriteSize data) ∧
      List.replicate (fs.fileSize - fs.disk.length) 0 ++
        (fs.writeBuffer ++ data).take (env.write.written (fs.alignedWriteSize data)) =
        (fs.writeBuffer ++ data).take (fs.alignedWriteSize data)

theorem contents_large_iff (hc : Counted fs) (result : CuFileWrite) (data : Bytes)
    (hle : fs.options.gdsAlignment ≤ fs.writeBuffer.length + data.length) :
    contents { fs with
        disk := result.apply fs.disk fs.fileSize
          ((fs.writeBuffer ++ data).take (fs.alignedWriteSize data))
        fileSize := fs.fileSize + fs.alignedWriteSize data
        writeBuffer := (fs.writeBuffer ++ data).drop (fs.alignedWriteSize data) } =
      fs.contents ++ data ↔
      0 < result.written (fs.alignedWriteSize data) ∧
        List.replicate (fs.fileSize - fs.disk.length) 0 ++
          (fs.writeBuffer ++ data).take (result.written (fs.alignedWriteSize data)) =
          (fs.writeBuffer ++ data).take (fs.alignedWriteSize data) := by
  obtain ⟨hstaged, hsize, _⟩ := alignedWriteSize_bounds hc.staged data hle
  have hwritten := result.written_le (fs.alignedWriteSize data)
  have hdisk := hc.disk_le
  have htemp : ((fs.writeBuffer ++ data).take (fs.alignedWriteSize data)).length =
      fs.alignedWriteSize data := by
    rw [List.length_take, Nat.min_eq_left hsize]
  have hbefore : fs.contents ++ data = fs.disk ++
      ((fs.writeBuffer ++ data).take (fs.alignedWriteSize data) ++
        (fs.writeBuffer ++ data).drop (fs.alignedWriteSize data)) := by
    rw [contents, List.take_of_length_le hdisk, List.append_assoc, List.take_append_drop]
  rw [hbefore]
  simp only [contents]
  rw [CuFileWrite.apply_eq, htemp, List.take_take, Nat.min_eq_left hwritten]
  by_cases hpos : 0 < result.written (fs.alignedWriteSize data)
  · have hdata : (fs.writeBuffer ++ data).take (result.written (fs.alignedWriteSize data)) ≠ [] := by
      apply List.ne_nil_of_length_pos
      rw [List.length_take]
      omega
    rw [pwrite_of_le fs.disk _ hdisk hdata, List.append_assoc fs.disk, List.take_of_length_le (by
      simp only [List.length_append, List.length_replicate, List.length_take]
      omega), List.append_assoc fs.disk, List.append_cancel_left_eq, List.append_cancel_right_eq]
    exact (and_iff_right hpos).symm
  · -- nothing was written, and something had to be
    rw [Nat.eq_zero_of_not_pos hpos, List.take_zero, pwrite, if_pos rfl,
      List.take_of_length_le (by omega), List.append_cancel_left_eq]
    constructor
    · intro heq
      have hlength := congrArg List.length heq
      rw [List.length_append, htemp] at hlength
      omega
    · intro h
      exact absurd h.1 (Nat.lt_irrefl 0)

end GDSFileSystem

namespace GWALWriter

-- A pass of AddRecord that returns OK got an OK for the append of its fragment.
theorem append_of_addRecordLoop (hoffset : w.blockOffset + kHeaderSize ≤ kBlockSize)
    (h : addRecordLoop calls isBegin w left = (.returned .ok, w')) :
    ∃ dest, w.dest.appendFromGPU (calls 0).recordWrite (w.layout.encode
        ⟨0, .of isBegin (decide (left.length ≤ format.room w.blockOffset)),
          left.take (format.room w.blockOffset)⟩) = (.returned .ok, dest) := by
  obtain ⟨w₁, left', hpass, _⟩ := Framing.Emitter.pass_of_run h
  obtain ⟨w₂, hswitch, hemit⟩ := emit_of_addFragment hpass
  cases (switchBlock_room _ w hoffset).symm.trans hswitch
  obtain ⟨-, dest, happend, _⟩ := emit_returned w hemit
  exact ⟨dest, happend⟩

end GWALWriter

namespace GDSFileSystem

-- A write that fails leaves everything as it was, and is reported as a success.
theorem appendFromGPU_failed (hc : Counted fs) (data : Bytes) (code : Int)
    (hle : fs.options.gdsAlignment ≤ fs.writeBuffer.length + data.length)
    (haligned : fs.fileSize % fs.options.gdsAlignment = 0) :
    appendFromGPU { write := .failed code } fs data = (.returned .ok, fs) := by
  rw [appendFromGPU_eq _ _ _ hc.initialized, bufferedWrite_large _ hc.staged data hle,
    if_neg (by simp), checkedAssert_of_true _ _ _ _ _ haligned]

-- The writer passes the status on, so an OK is honest exactly when the data has arrived.
theorem honest_iff_of_append (happend : appendFromGPU env fs data = (.returned .ok, fs')) :
    Honest env fs data ↔ fs'.contents = fs.contents ++ data := by
  constructor
  · intro hhonest
    exact hhonest.accepted fs' happend
  · intro hcontents
    refine ⟨⟨_, _, happend⟩, ?_, ?_⟩
    · intro fs₁ hok
      cases happend.symm.trans hok
      exact hcontents
    · rintro w w' calls isBegin left rfl rfl hoffset rfl hloop
      exact GWALWriter.append_of_addRecordLoop hoffset hloop

theorem not_honest_of_unchanged (hc : Counted fs)
    (hle : fs.options.gdsAlignment ≤ fs.writeBuffer.length + data.length)
    (happend : appendFromGPU env fs data = (.returned .ok, fs)) : ¬Honest env fs data := by
  rw [honest_iff_of_append happend]
  intro hcontents
  have hdata : data = [] := List.append_right_eq_self.mp hcontents.symm
  have hstaged := hc.staged.staged_lt
  rw [hdata, List.length_nil] at hle
  omega

theorem honest_of_small (hc : Counted fs) (henv : env.junk = none)
    (hlt : fs.writeBuffer.length + data.length < fs.options.gdsAlignment) :
    Honest env fs data := by
  have happend := appendFromGPU_eq env fs data hc.initialized
  rw [bufferedWrite_small env fs data hlt, copied_of_none henv] at happend
  exact (honest_iff_of_append happend).mpr (by simp [contents])

theorem honest_iff_of_write (hc : Counted fs) (henv : env.junk = none)
    (hle : fs.options.gdsAlignment ≤ fs.writeBuffer.length + data.length)
    (hmalloc : ¬env.malloc = false)
    (hassert : ¬(fs.assertions = true ∧ ¬fs.fileSize % fs.options.gdsAlignment = 0)) :
    Honest env fs data ↔
      0 < env.write.written (fs.alignedWriteSize data) ∧
        List.replicate (fs.fileSize - fs.disk.length) 0 ++
          (fs.writeBuffer ++ data).take (env.write.written (fs.alignedWriteSize data)) =
          (fs.writeBuffer ++ data).take (fs.alignedWriteSize data) := by
  have hbuffered := bufferedWrite_large env hc.staged data hle
  simp only [copied_of_none henv] at hbuffered
  rw [if_neg hmalloc, checkedAssert, if_neg hassert] at hbuffered
  have happend := appendFromGPU_eq env fs data hc.initialized
  cases hwrite : env.write with
  | complete =>
    rw [hwrite] at hbuffered
    rw [hbuffered] at happend
    rw [honest_iff_of_append happend, ← contents_large_iff hc .complete data hle]
  | short count =>
    rw [hwrite] at hbuffered
    rw [hbuffered] at happend
    rw [honest_iff_of_append happend, ← contents_large_iff hc (.short count) data hle]
  | failed code =>
    rw [hwrite] at hbuffered
    rw [hbuffered] at happend
    refine iff_of_false (not_honest_of_unchanged hc hle happend) ?_
    rintro ⟨hpos, _⟩
    exact Nat.lt_irrefl 0 hpos

-- AppendFromGPU returns OK whatever happens, so its status is honest exactly when the
-- data gets where the status says.
theorem honest_iff (hfs : Reached fs) (henv : env.junk = none) :
    Honest env fs data ↔ Delivers env fs data := by
  have hc := hfs.counted
  by_cases hlt : fs.writeBuffer.length + data.length < fs.options.gdsAlignment
  · exact iff_of_true (honest_of_small hc henv hlt) (.inl hlt)
  · have hle := Nat.le_of_not_lt hlt
    have hbuffered := bufferedWrite_large env hc.staged data hle
    have happend := appendFromGPU_eq env fs data hc.initialized
    rw [Delivers, or_iff_right hlt]
    by_cases hmalloc : env.malloc = false
    · rw [if_pos hmalloc] at hbuffered
      rw [hbuffered] at happend
      refine iff_of_false (not_honest_of_unchanged hc hle happend) ?_
      rintro ⟨hmalloc', _⟩
      simp [hmalloc] at hmalloc'
    rw [and_iff_right (by simpa using hmalloc)]
    by_cases hassert : fs.assertions = true ∧ ¬fs.fileSize % fs.options.gdsAlignment = 0
    · rw [if_neg hmalloc, checkedAssert, if_pos hassert] at hbuffered
      rw [hbuffered] at happend
      refine iff_of_false ?_ ?_
      · rintro ⟨⟨status, fs', hreturned⟩, _⟩
        cases happend.symm.trans hreturned
      · rintro ⟨haligned, _⟩
        exact hassert.2 (Nat.mod_eq_zero_of_dvd (haligned hassert.1))
    have haligned : fs.assertions = true → fs.options.gdsAlignment ∣ fs.fileSize := by
      intro hassertions
      apply Nat.dvd_of_mod_eq_zero
      by_contra hmod
      exact hassert ⟨hassertions, hmod⟩
    rw [and_iff_right haligned]
    exact honest_iff_of_write hc henv hle hmalloc hassert

theorem honest_below_unit : Honest {} (initializeGDS {} true []) [1, 2, 3] :=
  (honest_iff (.opened {} true [] (by decide)) rfl).mpr (.inl (by decide))

theorem failed_write_returns_ok :
    ∃ fs', appendFromGPU { write := .failed (-5) } (initializeGDS {} true [])
        (List.replicate 4096 1) = (.returned .ok, fs') ∧
      fs'.contents ≠ (initializeGDS {} true []).contents ++ List.replicate 4096 1 := by
  have hc := (Reached.opened {} true [] (by decide)).counted
  refine ⟨_, appendFromGPU_failed hc _ _ ?_ rfl, ?_⟩
  · rw [List.length_replicate]
    decide
  · intro heq
    have hlength := congrArg List.length heq
    rw [List.length_append, List.length_replicate] at hlength
    omega

end GDSFileSystem

end MlkvPlus.Gds
