import MlkvPlus.Log.Writer

namespace MlkvPlus.Log.Writer

-- Between calls the offset lies in the block. After an error nothing more is written.
structure Ready (w : Writer) : Prop where
  offset_le : w.blockOffset ≤ kBlockSize
  seenError : w.seenError = false

theorem switchBlock_clean (w : Writer) (hready : w.Ready) :
    ∃ w', w.switchBlock {} = (.returned .ok, w') := by
  have hassert : (0 : Int) ≤ (kBlockSize : Int) - w.blockOffset := by
    have hle := hready.offset_le
    omega
  have hheader : w.headerSize ≤ 11 := by
    unfold headerSize
    split <;> decide
  rw [switchBlock, checkedAssert_of_true _ _ _ _ _ hassert]
  split
  · split
    · rw [checkedAssert_of_true _ _ _ _ _ hheader]
      exact ⟨_, rfl⟩
    · exact ⟨_, rfl⟩
  · exact ⟨_, rfl⟩

theorem emit_clean (crc : Crc32c) (w : Writer) (isBegin isEnd : Bool) (data : Bytes)
    (hfits : w.blockOffset + w.headerSize + data.length ≤ kBlockSize) :
    ∃ w', w.emitPhysicalRecord crc {} (w.fragmentType isBegin isEnd) data =
      (.returned .ok, w') := by
  have hheader : (if isLegacy (w.fragmentType isBegin isEnd) = true then kHeaderSize
      else kRecyclableHeaderSize) = w.headerSize := by
    rw [isLegacy_fragmentType, headerSize]
    cases w.recycleLogFiles <;> rfl
  have hlength : data.length ≤ 0xffff := by
    simp only [kBlockSize] at hfits
    omega
  rw [emitPhysicalRecord, hheader]
  simp only [checkedAssert_of_true _ _ _ _ _ hlength, checkedAssert_of_true _ _ _ _ _ hfits]
  exact ⟨_, rfl⟩

theorem addFragment_clean (crc : Crc32c) (isBegin : Bool) (w : Writer) (hready : w.Ready)
    (left : Bytes) :
    ∃ w' left', addFragment crc {} isBegin w left = (.returned .ok, w', left') := by
  obtain ⟨w₁, hswitch⟩ := switchBlock_clean w hready
  obtain ⟨hsame, -, hoffset⟩ := switchBlock_ok hswitch
  have hadd := w.format.start_add_room w.blockOffset
  rw [← hoffset, format_headerSize, format_blockSize] at hadd
  have hsize : w₁.headerSize = w.headerSize := by
    rw [headerSize, headerSize, hsame.recycleLogFiles]
  have hassert : (w.headerSize : Int) ≤ (kBlockSize : Int) - w₁.blockOffset := by
    simp only [kBlockSize]
    omega
  have hroom : kBlockSize - w₁.blockOffset - w.headerSize = w.format.room w.blockOffset := by
    rw [hoffset]
    rfl
  have htype (isEnd : Bool) : w.fragmentType isBegin isEnd = w₁.fragmentType isBegin isEnd := by
    simp only [fragmentType, hsame.walWithChecksum, hsame.recycleLogFiles]
  simp only [addFragment, hswitch, checkedAssert_of_true _ _ _ _ _ hassert, hroom, htype]
  generalize hlength : (if left.length < w.format.room w.blockOffset then left.length
    else w.format.room w.blockOffset) = length
  have hle : length ≤ w.format.room w.blockOffset := by
    rw [← hlength]
    split <;> omega
  obtain ⟨w', hemit⟩ := emit_clean crc w₁ isBegin (decide (left.length = length))
    (left.take length) (by
      rw [hsize, List.length_take]
      simp only [kBlockSize]
      omega)
  exact ⟨w', _, by rw [hemit]⟩

theorem lays (crc : Crc32c) :
    (emitter crc).Lays (stream crc) (· = {}) SameSettings Ready where
  pass := by
    intro env isBegin w left w' left' _ hready hpass
    obtain ⟨happended, hleft, hoffset⟩ := addFragment_ok hpass
    refine ⟨⟨?_, happended.keeps.seenError.trans hready.seenError⟩, happended, hleft, hoffset⟩
    have hadd := w.format.start_add_room w.blockOffset
    rw [format_blockSize] at hadd
    rw [kBlockSize, hoffset]
    omega

-- AddRecord refines the framing of the log: it appends the fragments of one record.
theorem addRecord_clean (crc : Crc32c) (w : Writer) (data : Bytes) (hready : w.Ready) :
    ∃ w', w.addRecord crc (fun _ => {}) none data = (.returned .ok, w') ∧
      Framing.Emitter.Recorded (stream crc) SameSettings Ready true w data w' := by
  obtain ⟨w', hloop, -, hrecorded⟩ := (lays crc).run_total (fun _ _ => True)
    (fun _ => rfl) (fun _ isBegin w left _ hready _ => by
      obtain ⟨w', left', hpass⟩ := addFragment_clean crc isBegin w hready left
      exact ⟨w', left', hpass, trivial⟩) true hready data 0 trivial
  refine ⟨w', ?_, hrecorded⟩
  have hrun : addRecordLoop crc (fun _ => {}) true w data = (.returned .ok, w') := hloop
  simp only [addRecord, hready.seenError, hrun, Bool.false_eq_true, ite_false, ite_self]

theorem addRecords_clean (crc : Crc32c) (w : Writer) (hready : w.Ready) (payloads : List Bytes) :
    ∃ w', w.addRecords crc payloads = (.returned .ok, w') ∧
      w'.dest = w.dest ++ (w.layout crc).log w.blockOffset payloads := by
  obtain ⟨w', hadd, -, happended⟩ := Framing.addAll_total (fun w _ => SameSettings.refl w)
    (fun _ _ => True) (fun w data _ hready _ => by
      obtain ⟨w', hadd, hrecorded⟩ := addRecord_clean crc w data hready
      exact ⟨w', hadd, trivial, hrecorded⟩) payloads hready trivial
  exact ⟨w', hadd, happended.contents⟩

section NoChecksum

variable (recycleLogFiles : Bool) (logNumber : Nat)

def noChecksumTypeFor : Framing.Kind → RecordType :=
  if recycleLogFiles = true then
    fun
    | .full => .kRecyclableNoChecksumFullType
    | .first => .kRecyclableNoChecksumFirstType
    | .middle => .kRecyclableNoChecksumMiddleType
    | .last => .kRecyclableNoChecksumLastType
  else noChecksumType

-- The layout of logs without checksums: their headers do not depend on the payload.
def noChecksumFrame : Framing.Layout UInt8 where
  toFormat := formatFor recycleLogFiles
  header kind body := Log.header (noChecksumTypeFor recycleLogFiles kind) body.length ++
    if recycleLogFiles = true then Bytes.fixed 4 logNumber else []
  filler := trailer
  header_length _ _ := by cases recycleLogFiles <;> rfl
  filler_length := by cases recycleLogFiles <;> decide

theorem layout_noChecksum (crc : Crc32c) (w : Writer) (hchecksum : w.walWithChecksum = false) :
    w.layout crc = noChecksumFrame w.recycleLogFiles w.logNumber := by
  have hheader (kind : Framing.Kind) (body : Bytes) :
      header crc w.logNumber (w.kindType kind) body =
        (noChecksumFrame w.recycleLogFiles w.logNumber).header kind body := by
    have hkind : w.kindType kind = noChecksumTypeFor w.recycleLogFiles kind := by
      cases kind <;> simp only [kindType, fragmentType, hchecksum, noChecksumTypeFor] <;>
        cases w.recycleLogFiles <;> rfl
    have hzero : isNoChecksum (noChecksumTypeFor w.recycleLogFiles kind) = true := by
      cases w.recycleLogFiles <;> cases kind <;> decide
    have hlegacy : isLegacy (noChecksumTypeFor w.recycleLogFiles kind) = !w.recycleLogFiles := by
      cases w.recycleLogFiles <;> cases kind <;> decide
    rw [hkind]
    simp only [header, hzero, hlegacy, noChecksumFrame, Log.header, ite_true]
    cases w.recycleLogFiles <;> rfl
  simp only [layout, hheader]
  rfl

end NoChecksum

def create (logNumber : Nat) (recycleLogFiles walWithChecksum manualFlush assertions : Bool) :
    Writer :=
  { logNumber, recycleLogFiles, walWithChecksum, manualFlush, assertions }

-- Every list of payloads is accepted, and the file is the log of them.
theorem addRecords_create (crc : Crc32c) (logNumber : Nat)
    (recycleLogFiles manualFlush assertions : Bool) (payloads : List Bytes) :
    ∃ w, (create logNumber recycleLogFiles false manualFlush assertions).addRecords crc payloads =
        (.returned .ok, w) ∧
      w.dest = (noChecksumFrame recycleLogFiles logNumber).log 0 payloads := by
  obtain ⟨w, hadd, hdest⟩ := addRecords_clean crc
    (create logNumber recycleLogFiles false manualFlush assertions) ⟨Nat.zero_le _, rfl⟩ payloads
  rw [layout_noChecksum crc _ rfl] at hdest
  exact ⟨w, hadd, hdest⟩

end MlkvPlus.Log.Writer
