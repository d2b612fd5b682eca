import MlkvPlus.Data.Bytes

namespace MlkvPlus.Gds

structure GDSOptions where
  gdsAlignment : Nat := 4096
  enableGPUCache : Bool := true
  enableCachePrefetch : Bool := true
  minReadSizeForCache : Nat := 0
  deriving DecidableEq, Repr

inductive IOStatus where
  | ok
  | notFound (message : String)
  | alreadyExists (message : String)
  | invalidParam (message : String)
  | cudaError (message : String)
  | ioError (message : String)
  | usageError (message : String)
  | unsupportedError (message : String)
  deriving DecidableEq, Repr

-- What cuFileWrite does: write everything, stop early, or report an error code.
inductive CuFileWrite where
  | complete
  | short (count : Nat)
  | failed (code : Int)
  deriving DecidableEq, Repr

-- The outcomes of the CUDA calls inside one append. Nothing checks the device copies:
-- `junk` is what the bytes they should have moved turn out to be when they fail.
structure WriteEnv where
  malloc : Bool := true
  write : CuFileWrite := .complete
  junk : Option Bytes := none
  deriving DecidableEq, Repr

def WriteEnv.copied (env : WriteEnv) (data : Bytes) : Bytes :=
  match env.junk with
  | none => data
  | some junk => junk.take data.length ++ List.replicate (data.length - junk.length) 0

-- Writing behind the end fills the gap with zeros; writing nothing changes nothing.
def pwrite (file : Bytes) (offset : Nat) (data : Bytes) : Bytes :=
  if data = [] then file
  else file.take offset ++ List.replicate (offset - file.length) 0 ++ data ++
    file.drop (offset + data.length)

def CuFileWrite.apply (result : CuFileWrite) (file : Bytes) (offset : Nat) (data : Bytes) : Bytes :=
  match result with
  | .complete => pwrite file offset data
  | .short count => pwrite file offset (data.take count)
  | .failed _ => file

-- `writeBuffer` holds the used part of the staging buffer.
structure GDSFileSystem where
  options : GDSOptions
  assertions : Bool
  gdsInitialized : Bool
  disk : Bytes
  fileSize : Nat
  writeBuffer : Bytes
  deriving DecidableEq, Repr

namespace GDSFileSystem

-- The constructor takes the size of the existing file and starts with an empty buffer.
def initializeGDS (options : GDSOptions) (assertions : Bool) (file : Bytes) : GDSFileSystem where
  options := options
  assertions := assertions
  gdsInitialized := true
  disk := file
  fileSize := file.length
  writeBuffer := []

def bufferedWrite (env : WriteEnv) (fs : GDSFileSystem) (data : Bytes) :
    Outcome IOStatus × GDSFileSystem :=
  let totalSize := fs.writeBuffer.length + data.length
  if totalSize < fs.options.gdsAlignment then
    (.returned .ok, { fs with writeBuffer := fs.writeBuffer ++ env.copied data })
  else if env.malloc = false then
    (.returned (.ioError "Failed to allocate temp buffer: "), fs)
  else
    let alignedWriteSize := totalSize / fs.options.gdsAlignment * fs.options.gdsAlignment
    let newDataToWrite := alignedWriteSize - fs.writeBuffer.length
    let tempBuffer := env.copied (fs.writeBuffer ++ data.take newDataToWrite)
    checkedAssert fs.assertions (alignedWriteSize % fs.options.gdsAlignment = 0)
      "aligned_write_size % options_.GDSAlignment == 0"
      (checkedAssert fs.assertions (fs.fileSize % fs.options.gdsAlignment = 0)
        "file_size_ % options_.GDSAlignment == 0"
        (match env.write with
        | .failed code =>
          (.returned (.ioError ("cuFileWrite failed: " ++ toString code)), fs)
        -- a short count is not negative, so it passes for success
        | result => (.returned .ok, { fs with
            disk := result.apply fs.disk fs.fileSize tempBuffer
            fileSize := fs.fileSize + alignedWriteSize
            writeBuffer := env.copied (data.drop newDataToWrite) })) fs) fs

def writeFromGPU (env : WriteEnv) (fs : GDSFileSystem) (data : Bytes) (offset : Nat) :
    Outcome IOStatus × GDSFileSystem :=
  if fs.gdsInitialized = false then
    (.returned (.usageError "CUDA GDS not initialized"), fs)
  else if offset = fs.fileSize then bufferedWrite env fs data
  else match env.write with
    | .failed code => (.returned (.ioError ("cuFileWrite failed: " ++ toString code)), fs)
    | result => (.returned .ok, { fs with
        disk := result.apply fs.disk offset data
        fileSize := max fs.fileSize (offset + data.length) })

-- The status of the write is dropped: the call reports success whatever happened.
def appendFromGPU (env : WriteEnv) (fs : GDSFileSystem) (data : Bytes) :
    Outcome IOStatus × GDSFileSystem :=
  match writeFromGPU env fs data fs.fileSize with
  | (.returned _, fs') => (.returned .ok, fs')
  | ended => ended

def flush (env : WriteEnv) (fs : GDSFileSystem) : IOStatus × GDSFileSystem :=
  if fs.gdsInitialized = false then (.usageError "CUDA GDS not initialized", fs)
  else if fs.writeBuffer.length = 0 then (.ok, fs)
  else match env.write with
    | .failed code => (.ioError ("cuFileWrite failed during flush: " ++ toString code), fs)
    | result => (.ok, { fs with
        disk := result.apply fs.disk fs.fileSize fs.writeBuffer
        fileSize := fs.fileSize + fs.writeBuffer.length
        writeBuffer := [] })

-- The destructor flushes what is still staged; the rest of it frees handles.
def close (env : WriteEnv) (fs : GDSFileSystem) : Bytes :=
  if 0 < fs.writeBuffer.length then (fs.flush env).2.disk else fs.disk

-- Everything accepted so far: the file up to `file_size_`, then the staged bytes.
def contents (fs : GDSFileSystem) : Bytes :=
  fs.disk.take fs.fileSize ++ fs.writeBuffer

-- Between calls less than one unit is staged.
structure Staged (fs : GDSFileSystem) : Prop where
  alignment_pos : 0 < fs.options.gdsAlignment
  staged_lt : fs.writeBuffer.length < fs.options.gdsAlignment

-- Every write so far was complete.
structure Dense (fs : GDSFileSystem) : Prop extends fs.Staged where
  initialized : fs.gdsInitialized = true
  disk_length : fs.disk.length = fs.fileSize

structure Sound (fs : GDSFileSystem) : Prop extends fs.Dense where
  aligned : fs.options.gdsAlignment ∣ fs.fileSize

theorem pwrite_length (file data : Bytes) : pwrite file file.length data = file ++ data := by
  by_cases hnil : data = [] <;> simp [pwrite, hnil]

theorem Dense.contents_eq (hd : Dense fs) : fs.contents = fs.disk ++ fs.writeBuffer := by
  rw [contents, ← hd.disk_length, List.take_length]

theorem sound_initializeGDS (options : GDSOptions) (assertions : Bool)
    (hpos : 0 < options.gdsAlignment) :
    (initializeGDS options assertions []).Sound where
  initialized := rfl
  alignment_pos := hpos
  disk_length := rfl
  aligned := Nat.dvd_zero _
  staged_lt := hpos

-- The file on disk is the longest aligned prefix of what was accepted.
theorem Sound.disk_eq_take (hs : Sound fs) :
    fs.disk = fs.contents.take
      (fs.contents.length / fs.options.gdsAlignment * fs.options.gdsAlignment) := by
  obtain ⟨blocks, hblocks⟩ := hs.aligned
  have hpos := hs.alignment_pos
  have hlen : fs.contents.length = fs.options.gdsAlignment * blocks + fs.writeBuffer.length := by
    rw [hs.contents_eq, List.length_append, hs.disk_length, hblocks]
  have hdiv : fs.contents.length / fs.options.gdsAlignment = blocks := by
    rw [hlen, Nat.mul_add_div hpos, Nat.div_eq_of_lt hs.staged_lt, Nat.add_zero]
  have hsize : blocks * fs.options.gdsAlignment = fs.disk.length := by
    rw [hs.disk_length, hblocks, Nat.mul_comm]
  rw [hdiv, hsize, hs.contents_eq, List.take_left]

theorem copied_of_none (henv : env.junk = none) (data : Bytes) :
    WriteEnv.copied env data = data := by
  simp [WriteEnv.copied, henv]

@[simp] theorem length_copied (env : WriteEnv) (data : Bytes) :
    (env.copied data).length = data.length := by
  unfold WriteEnv.copied
  split
  · rfl
  · rw [List.length_append, List.length_take, List.length_replicate]
    omega

theorem bufferedWrite_small (env : WriteEnv) (fs : GDSFileSystem) (data : Bytes)
    (hlt : fs.writeBuffer.length + data.length < fs.options.gdsAlignment) :
    bufferedWrite env fs data =
      (.returned .ok, { fs with writeBuffer := fs.writeBuffer ++ env.copied data }) := by
  simp [bufferedWrite, hlt]

-- How many of the staged and the new bytes make up whole units.
def alignedWriteSize (fs : GDSFileSystem) (data : Bytes) : Nat :=
  (fs.writeBuffer.length + data.length) / fs.options.gdsAlignment * fs.options.gdsAlignment

theorem alignedWriteSize_bounds (hs : Staged fs) (data : Bytes)
    (hle : fs.options.gdsAlignment ≤ fs.writeBuffer.length + data.length) :
    fs.writeBuffer.length < fs.alignedWriteSize data ∧
      fs.alignedWriteSize data ≤ (fs.writeBuffer ++ data).length ∧
      (fs.writeBuffer ++ data).length < fs.alignedWriteSize data + fs.options.gdsAlignment := by
  have hpos := hs.alignment_pos
  have hstaged := hs.staged_lt
  have hsplit := Nat.div_add_mod' (fs.writeBuffer.length + data.length) fs.options.gdsAlignment
  have hmod := Nat.mod_lt (fs.writeBuffer.length + data.length) hpos
  have hone : fs.options.gdsAlignment ≤ fs.alignedWriteSize data :=
    Nat.le_mul_of_pos_left _ (Nat.div_pos hle hpos)
  unfold alignedWriteSize at hone ⊢
  rw [List.length_append]
  omega

theorem bufferedWrite_large (env : WriteEnv) (hs : Staged fs) (data : Bytes)
    (hle : fs.options.gdsAlignment ≤ fs.writeBuffer.length + data.length) :
    bufferedWrite env fs data =
      if env.malloc = false then
        (.returned (.ioError "Failed to allocate temp buffer: "), fs)
      else checkedAssert fs.assertions (fs.fileSize % fs.options.gdsAlignment = 0)
        "file_size_ % options_.GDSAlignment == 0"
        (match env.write with
        | .failed code =>
          (.returned (.ioError ("cuFileWrite failed: " ++ toString code)), fs)
        | result => (.returned .ok, { fs with
            disk := result.apply fs.disk fs.fileSize
              (env.copied ((fs.writeBuffer ++ data).take (fs.alignedWriteSize data)))
            fileSize := fs.fileSize + fs.alignedWriteSize data
            writeBuffer := env.copied
              ((fs.writeBuffer ++ data).drop (fs.alignedWriteSize data)) })) fs := by
  obtain ⟨hstaged, _, _⟩ := alignedWriteSize_bounds hs data hle
  have hself : fs.alignedWriteSize data % fs.options.gdsAlignment = 0 := Nat.mul_mod_left _ _
  have htake : fs.writeBuffer ++ data.take (fs.alignedWriteSize data - fs.writeBuffer.length) =
      (fs.writeBuffer ++ data).take (fs.alignedWriteSize data) := by
    rw [List.take_append, List.take_of_length_le (Nat.le_of_lt hstaged)]
  have hdrop : data.drop (fs.alignedWriteSize data - fs.writeBuffer.length) =
      (fs.writeBuffer ++ data).drop (fs.alignedWriteSize data) := by
    rw [List.drop_append, List.drop_eq_nil_of_le (Nat.le_of_lt hstaged), List.nil_append]
  rw [← htake, ← hdrop]
  unfold alignedWriteSize at hself ⊢
  simp only [bufferedWrite, Nat.not_lt.mpr hle, ite_false, hself, checkedAssert_of_true]

theorem appendFromGPU_eq (env : WriteEnv) (fs : GDSFileSystem) (data : Bytes)
    (hinit : fs.gdsInitialized = true) :
    appendFromGPU env fs data =
      match bufferedWrite env fs data with
      | (.returned _, fs') => (.returned .ok, fs')
      | ended => ended := by
  simp [appendFromGPU, writeFromGPU, hinit]

theorem appendFromGPU_dense (fs : GDSFileSystem) (hd : Dense fs) (data : Bytes)
    (h : appendFromGPU {} fs data = (.returned .ok, fs')) :
    fs'.Dense ∧ fs'.contents = fs.contents ++ data ∧ fs'.options = fs.options ∧
      fs'.assertions = fs.assertions ∧
      (fs.options.gdsAlignment ∣ fs.fileSize → fs.options.gdsAlignment ∣ fs'.fileSize) := by
  rw [appendFromGPU_eq {} fs data hd.initialized] at h
  by_cases hlt : fs.writeBuffer.length + data.length < fs.options.gdsAlignment
  · rw [bufferedWrite_small {} fs data hlt, copied_of_none rfl] at h
    cases h
    refine ⟨⟨⟨hd.alignment_pos, ?_⟩, hd.initialized, hd.disk_length⟩, ?_, rfl, rfl, id⟩
    · rw [List.length_append]
      exact hlt
    · simp [contents, List.append_assoc]
  · obtain ⟨_, hsize, hrest⟩ := alignedWriteSize_bounds hd.toStaged data (Nat.le_of_not_lt hlt)
    have hwritten : ((fs.writeBuffer ++ data).take (fs.alignedWriteSize data)).length =
        fs.alignedWriteSize data := by
      rw [List.length_take, Nat.min_eq_left hsize]
    have hlen : (fs.disk ++ (fs.writeBuffer ++ data).take (fs.alignedWriteSize data)).length =
        fs.disk.length + fs.alignedWriteSize data := by
      rw [List.length_append, hwritten]
    rw [bufferedWrite_large {} hd.toStaged data (Nat.le_of_not_lt hlt), if_neg (by simp)] at h
    simp only [CuFileWrite.apply, copied_of_none, ← hd.disk_length, pwrite_length] at h
    rw [checkedAssert] at h
    by_cases hassert : fs.assertions = true ∧ ¬fs.disk.length % fs.options.gdsAlignment = 0
    · rw [if_pos hassert] at h
      cases h
    · rw [if_neg hassert] at h
      cases h
      refine ⟨⟨⟨hd.alignment_pos, ?_⟩, hd.initialized, hlen⟩, ?_, rfl, rfl, ?_⟩
      · rw [List.length_drop]
        exact Nat.sub_lt_left_of_lt_add hsize hrest
      · rw [hd.contents_eq]
        simp only [contents]
        rw [← hlen, List.take_length, List.append_assoc, List.take_append_drop, List.append_assoc]
      · intro haligned
        rw [← hd.disk_length] at haligned
        exact Nat.dvd_add haligned (Nat.dvd_mul_left _ _)

-- On an unaligned file the assertion in front of a write lets nothing reach the disk.
theorem fileSize_of_append (fs : GDSFileSystem) (hd : Dense fs) (data : Bytes)
    (hassert : fs.assertions = true) (hunaligned : ¬fs.options.gdsAlignment ∣ fs.fileSize)
    (h : appendFromGPU {} fs data = (.returned .ok, fs')) : fs'.fileSize = fs.fileSize := by
  rw [appendFromGPU_eq {} fs data hd.initialized] at h
  by_cases hlt : fs.writeBuffer.length + data.length < fs.options.gdsAlignment
  · rw [bufferedWrite_small {} fs data hlt] at h
    cases h
    rfl
  · have hfails : fs.assertions = true ∧ ¬fs.fileSize % fs.options.gdsAlignment = 0 :=
      ⟨hassert, fun hmod => hunaligned (Nat.dvd_of_mod_eq_zero hmod)⟩
    rw [bufferedWrite_large {} hd.toStaged data (Nat.le_of_not_lt hlt), if_neg (by simp),
      checkedAssert, if_pos hfails] at h
    cases h

theorem appendFromGPU_accepted (fs : GDSFileSystem) (hd : Dense fs)
    (hstaged : fs.assertions = true → fs.options.gdsAlignment ∣ fs.fileSize ∨
      fs.writeBuffer.length + size < fs.options.gdsAlignment)
    (data : Bytes) (hle : data.length ≤ size) :
    ∃ fs', appendFromGPU {} fs data = (.returned .ok, fs') := by
  rw [appendFromGPU_eq {} fs data hd.initialized]
  by_cases hlt : fs.writeBuffer.length + data.length < fs.options.gdsAlignment
  · rw [bufferedWrite_small {} fs data hlt]
    exact ⟨_, rfl⟩
  · have hassert : ¬(fs.assertions = true ∧ ¬fs.fileSize % fs.options.gdsAlignment = 0) := by
      rintro ⟨hassert, hmod⟩
      obtain haligned | hlt := hstaged hassert
      · exact hmod (Nat.mod_eq_zero_of_dvd haligned)
      · omega
    rw [bufferedWrite_large {} hd.toStaged data (Nat.le_of_not_lt hlt), if_neg (by simp),
      checkedAssert, if_neg hassert]
    exact ⟨_, rfl⟩

-- The destructor brings the file up to everything accepted.
theorem Dense.close_eq (hd : Dense fs) : fs.close {} = fs.contents := by
  rw [hd.contents_eq]
  by_cases hstaged : fs.writeBuffer.length = 0
  · simp [close, List.length_eq_zero_iff.mp hstaged]
  · simp only [close, flush, hd.initialized, hstaged, Nat.pos_of_ne_zero hstaged, ite_true,
      ite_false, Bool.true_eq_false, CuFileWrite.apply]
    rw [← hd.disk_length, pwrite_length]

end GDSFileSystem

end MlkvPlus.Gds
