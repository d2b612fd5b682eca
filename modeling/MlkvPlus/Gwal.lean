import MlkvPlus.Data.Framing.Emitter
import MlkvPlus.Gds.FileSystem
import MlkvPlus.Log.Format

namespace MlkvPlus.Gds

open Log

def trailerBufferSize : Nat := 16

-- The outcomes of the CUDA calls made for one fragment, in the order of the calls.
structure FragmentEnv where
  fillTrailer : Bool := true
  trailerWrite : WriteEnv := {}
  formatHeader : Bool := true
  copyHeader : Bool := true
  copyPayload : Bool := true
  recordWrite : WriteEnv := {}
  synchronize : Bool := true
  deriving DecidableEq, Repr

-- The header of a fragment is made, and both of its parts reach the staging buffer.
structure FragmentEnv.Prepared (env : FragmentEnv) : Prop where
  formatHeader : env.formatHeader = true
  copyHeader : env.copyHeader = true
  copyPayload : env.copyPayload = true

structure GWALWriter where
  blockOffset : Nat
  headerBuffer : DeviceBuffer kRecyclableHeaderSize
  trailerBuffer : DeviceBuffer trailerBufferSize
  gpuBufferSize : Nat
  dest : GDSFileSystem
  deriving DecidableEq

def formatRecordHeaderKernel (buffer : DeviceBuffer kRecyclableHeaderSize) (type : RecordType)
    (fragmentLength : Nat) : DeviceBuffer kRecyclableHeaderSize :=
  ⟨header type fragmentLength ++ buffer.1.drop kHeaderSize, by
    have hlen := buffer.2
    simp only [kRecyclableHeaderSize] at hlen
    simp [header, kHeaderSize, kRecyclableHeaderSize, hlen]⟩

-- Every launched thread clears the byte at its own index.
def fillTrailerKernel (threads size : Nat) (buffer : DeviceBuffer trailerBufferSize) :
    DeviceBuffer trailerBufferSize :=
  ⟨buffer.1.mapIdx fun index byte => if index < threads ∧ index < size then 0 else byte,
    by rw [List.length_mapIdx, buffer.2]⟩

namespace GWALWriter

-- The writer starts at block offset 0 whatever the file already holds. What the
-- freshly allocated device buffers contain is not known.
def create (file : Bytes) (assertions : Bool) (headerBuffer : DeviceBuffer kRecyclableHeaderSize)
    (trailerBuffer : DeviceBuffer trailerBufferSize) : GWALWriter where
  blockOffset := 0
  headerBuffer := headerBuffer
  trailerBuffer := trailerBuffer
  gpuBufferSize := kBlockSize
  dest := .initializeGDS {} assertions file

-- The kernel is launched with a single thread.
def fillTrailerOnGPU (env : FragmentEnv) (w : GWALWriter) (size : Nat) :
    Outcome IOStatus × GWALWriter :=
  if env.fillTrailer = false then (.threw "CUDA error", w)
  else
    let trailerBuffer := fillTrailerKernel 1 size w.trailerBuffer
    match w.dest.appendFromGPU env.trailerWrite (trailerBuffer.1.take size) with
    | (outcome, dest) => (outcome, { w with trailerBuffer := trailerBuffer, dest := dest })

-- Switch to a new block when the rest of this one cannot hold a header.
def switchBlock (env : FragmentEnv) (w : GWALWriter) : Outcome IOStatus × GWALWriter :=
  let leftover : Int := kBlockSize - w.blockOffset
  checkedAssert w.dest.assertions (0 ≤ leftover) "leftover >= 0"
    (if leftover < kHeaderSize then
      if 0 < leftover then
        match w.fillTrailerOnGPU env leftover.toNat with
        | (.returned .ok, w') => (.returned .ok, { w' with blockOffset := 0 })
        | ended => ended
      else (.returned .ok, { w with blockOffset := 0 })
    else (.returned .ok, w)) w

def emitPhysicalRecordFromGPU (env : FragmentEnv) (w : GWALWriter) (type : RecordType)
    (data : Bytes) : Outcome IOStatus × GWALWriter :=
  checkedAssert w.dest.assertions (data.length ≤ 0xffff) "n <= 0xffff"
    (if RecordType.kNoChecksumFullType.code ≤ type.code ∧
        type.code ≤ RecordType.kNoChecksumLastType.code then
      checkedAssert w.dest.assertions (w.blockOffset + kHeaderSize + data.length ≤ kBlockSize)
        "block_offset_ + kHeaderSize + n <= kBlockSize"
        (if env.formatHeader = false then (.threw "CUDA error", w)
        else
          let w' := { w with
            headerBuffer := formatRecordHeaderKernel w.headerBuffer type data.length }
          let totalSize := kHeaderSize + data.length
          if w.gpuBufferSize < totalSize then
            (.returned (.ioError ("Combined header and payload size (" ++ toString totalSize ++
              ") exceeds temp buffer size (" ++ toString w.gpuBufferSize ++ ")")), w')
          else if env.copyHeader = false then
            (.returned (.cudaError "Failed to copy header to temp buffer: "), w')
          else if env.copyPayload = false then
            (.returned (.cudaError "Failed to copy payload to temp buffer: "), w')
          else
            let tempBuffer := w'.headerBuffer.1.take kHeaderSize ++ data
            match w'.dest.appendFromGPU env.recordWrite tempBuffer with
            | (.returned .ok, dest) =>
              -- the bytes are appended before these checks and counted after them
              if env.synchronize = false then (.threw "CUDA error", { w' with dest := dest })
              else (.returned .ok, { w' with
                blockOffset := w.blockOffset + kHeaderSize + data.length
                dest := dest })
            | (outcome, dest) => (outcome, { w' with dest := dest })) w
    else (.returned (.unsupportedError "Have not support recyclable record format"), w)) w

-- One pass of the loop of AddRecord: the next fragment of `left`, and what is left then.
def addFragment (env : FragmentEnv) (isBegin : Bool) (w : GWALWriter) (left : Bytes) :
    Outcome IOStatus × GWALWriter × Bytes :=
  match w.switchBlock env with
  | (.returned .ok, w') =>
    checkedAssert w.dest.assertions ((kHeaderSize : Int) ≤ kBlockSize - w'.blockOffset)
      "kBlockSize - block_offset_ >= header_size_"
      (let avail := kBlockSize - w'.blockOffset - kHeaderSize
      let fragmentLength := if left.length < avail then left.length else avail
      let isEnd := left.length = fragmentLength
      let type : RecordType :=
        if isBegin ∧ isEnd then .kNoChecksumFullType
        else if isBegin then .kNoChecksumFirstType
        else if isEnd then .kNoChecksumLastType
        else .kNoChecksumMiddleType
      match w'.emitPhysicalRecordFromGPU env type (left.take fragmentLength) with
      | (outcome, w'') => (outcome, w'', left.drop fragmentLength)) (w', left)
  | (outcome, w') => (outcome, w', left)

theorem blockOffset_of_switchBlock (h : switchBlock env w = (.returned .ok, w')) :
    w'.blockOffset = format.start w.blockOffset := by
  have hstep := next_of_checkedAssert_returned h
  split at hstep <;> rename_i hleftover <;> simp only [kBlockSize, kHeaderSize] at hleftover
  · have hlt : format.blockSize - w.blockOffset < format.headerSize := by
      simp only [format_blockSize, format_headerSize]
      omega
    rw [format.start_of_lt hlt]
    split at hstep
    · split at hstep
      · cases hstep
        rfl
      · simp_all
    · cases hstep
      rfl
  · have hnot : ¬format.blockSize - w.blockOffset < format.headerSize := by
      simp only [format_blockSize, format_headerSize]
      omega
    rw [format.start_of_not_lt hnot]
    cases hstep
    rfl

theorem emit_returned (w : GWALWriter)
    (h : w.emitPhysicalRecordFromGPU env type data = (.returned .ok, w')) :
    env.Prepared ∧ ∃ dest,
      w.dest.appendFromGPU env.recordWrite (header type data.length ++ data) =
        (.returned .ok, dest) ∧
      w' = { w with
        headerBuffer := formatRecordHeaderKernel w.headerBuffer type data.length
        blockOffset := w.blockOffset + kHeaderSize + data.length
        dest := dest } := by
  have htake : (formatRecordHeaderKernel w.headerBuffer type data.length).1.take kHeaderSize =
      header type data.length := List.take_left' rfl
  have hstep := next_of_checkedAssert_returned h
  split at hstep
  · have hemit := next_of_checkedAssert_returned hstep
    simp only [htake] at hemit
    split at hemit
    · cases hemit
    · rename_i hformat
      split at hemit
      · cases hemit
      · split at hemit
        · cases hemit
        · rename_i hheader
          split at hemit
          · cases hemit
          · rename_i hpayload
            split at hemit
            · rename_i dest happend
              split at hemit
              · cases hemit
              · cases hemit
                simp only [Bool.not_eq_false] at hformat hheader hpayload
                exact ⟨⟨hformat, hheader, hpayload⟩, dest, happend, rfl⟩
            · simp_all
  · cases hstep

theorem blockOffset_of_emit
    (h : emitPhysicalRecordFromGPU env w type data = (.returned .ok, w')) :
    w'.blockOffset = w.blockOffset + kHeaderSize + data.length := by
  obtain ⟨_, _, _, rfl⟩ := emit_returned w h
  rfl

theorem addFragment_progress
    (h : addFragment env isBegin w left = (.returned .ok, w', left')) :
    left' = left.drop (format.room w.blockOffset) ∧
      w'.blockOffset = format.start w.blockOffset + format.headerSize +
        min left.length (format.room w.blockOffset) := by
  unfold addFragment at h
  split at h
  · rename_i w₁ hswitch
    have hoffset := blockOffset_of_switchBlock hswitch
    have hroom : kBlockSize - w₁.blockOffset - kHeaderSize = format.room w.blockOffset := by
      rw [hoffset]
      rfl
    have hstep := next_of_checkedAssert_returned h
    simp only [hroom] at hstep
    generalize hlength : (if left.length < format.room w.blockOffset then left.length
      else format.room w.blockOffset) = length at hstep
    generalize hemit : w₁.emitPhysicalRecordFromGPU env _ (left.take length) = emitted at hstep
    obtain ⟨outcome, w₂⟩ := emitted
    cases hstep
    rw [blockOffset_of_emit hemit, List.length_take, hoffset, kHeaderSize, format_headerSize]
    split at hlength <;> rename_i hlt <;> subst hlength
    · refine ⟨?_, by omega⟩
      rw [List.drop_length, List.drop_eq_nil_of_le (by omega)]
    · exact ⟨rfl, by omega⟩
  · simp_all

theorem addFragment_fuel (h : addFragment env isBegin w left = (.returned .ok, w', left'))
    (hleft : 0 < left'.length) :
    format.fuel w'.blockOffset left'.length < format.fuel w.blockOffset left.length := by
  obtain ⟨hdrop, hoffset⟩ := addFragment_progress h
  have hlen : left'.length = left.length - format.room w.blockOffset := by
    rw [hdrop, List.length_drop]
  -- something is left, so this fragment has filled its block
  have hfull : w'.blockOffset = format.blockSize := by
    rw [hoffset, Nat.min_eq_right (by omega), format.start_add_room]
  rw [hfull, hlen]
  exact format.fuel_drop_lt w.blockOffset left.length (by omega)

-- The loop of AddRecord.
def emitter : Framing.Emitter FragmentEnv GWALWriter (Outcome IOStatus) UInt8 where
  pass := addFragment
  ok := .returned .ok
  fuel w left := format.fuel w.blockOffset left.length
  fuel_lt := addFragment_fuel

def addRecordLoop (env : Nat → FragmentEnv) (isBegin : Bool) (w : GWALWriter) (left : Bytes) :
    Outcome IOStatus × GWALWriter :=
  emitter.run env isBegin w left

def addRecord (env : Nat → FragmentEnv) (w : GWALWriter) (data : Bytes) :
    Outcome IOStatus × GWALWriter :=
  addRecordLoop env true w data

-- Consecutive records, as long as each call returns OK.
def addRecords (w : GWALWriter) (payloads : List Bytes) : Outcome IOStatus × GWALWriter :=
  Framing.addAll (.returned .ok) (fun w data => w.addRecord (fun _ => {}) data) w payloads

end GWALWriter

end MlkvPlus.Gds
