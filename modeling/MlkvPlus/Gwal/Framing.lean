import MlkvPlus.Gwal

namespace MlkvPlus.Gds

open Log

-- Every file write of a pass succeeds, and so do the checks behind the append of its
-- fragment. The CUDA calls before that append may fail.
structure FragmentEnv.Kept (env : FragmentEnv) : Prop where
  trailerWrite : env.trailerWrite = {}
  recordWrite : env.recordWrite = {}
  synchronize : env.synchronize = true

structure FragmentEnv.Complete (env : FragmentEnv) : Prop extends env.Prepared where
  fillTrailer : env.fillTrailer = true

theorem FragmentEnv.Kept.clean : FragmentEnv.Kept {} := ⟨rfl, rfl, rfl⟩

theorem FragmentEnv.Complete.clean : FragmentEnv.Complete {} := ⟨⟨rfl, rfl, rfl⟩, rfl⟩

-- The call returned an error or threw.
def Failed : Outcome IOStatus → Prop
  | .returned status => status ≠ .ok
  | .threw _ => True
  | .aborted _ => False

namespace GWALWriter

-- What the trailer buffer holds once its kernel has run: only the first byte is cleared.
def filler (w : GWALWriter) : Bytes :=
  (fillTrailerKernel 1 1 w.trailerBuffer).1

theorem length_filler (w : GWALWriter) : kHeaderSize ≤ w.filler.length := by
  rw [filler, (fillTrailerKernel 1 1 w.trailerBuffer).2]
  decide

def layout (w : GWALWriter) : Framing.Layout UInt8 :=
  noChecksumLayout w.filler w.length_filler

theorem fillTrailerKernel_eq (buffer : DeviceBuffer trailerBufferSize) (hpos : 0 < size) :
    fillTrailerKernel 1 size buffer = fillTrailerKernel 1 1 buffer := by
  have hiff (index : Nat) : (index < 1 ∧ index < size) ↔ (index < 1 ∧ index < 1) := by omega
  simp only [fillTrailerKernel, hiff]

theorem fillTrailerKernel_idem (buffer : DeviceBuffer trailerBufferSize) :
    fillTrailerKernel 1 1 (fillTrailerKernel 1 1 buffer) = fillTrailerKernel 1 1 buffer := by
  apply Subtype.ext
  apply List.ext_getElem
  · simp [fillTrailerKernel]
  · intro index _ _
    simp only [fillTrailerKernel, List.getElem_mapIdx]
    split <;> rfl

structure Ready (w : GWALWriter) : Prop where
  sound : w.dest.Sound
  options : w.dest.options = {}
  bufferSize : w.gpuBufferSize = kBlockSize
  offset_le : w.blockOffset ≤ kBlockSize

-- What calls that return OK keep. On an unaligned file the assertion in front of a write lets
-- nothing reach the disk.
structure Keeps (w w' : GWALWriter) : Prop where
  dense : w'.dest.Dense
  options : w'.dest.options = w.dest.options
  assertions : w'.dest.assertions = w.dest.assertions
  bufferSize : w'.gpuBufferSize = w.gpuBufferSize
  aligned : w.dest.options.gdsAlignment ∣ w.dest.fileSize →
    w.dest.options.gdsAlignment ∣ w'.dest.fileSize
  unaligned : w.dest.assertions = true → ¬w.dest.options.gdsAlignment ∣ w.dest.fileSize →
    w'.dest.fileSize = w.dest.fileSize

theorem Keeps.refl (hdense : w.dest.Dense) : Keeps w w :=
  ⟨hdense, rfl, rfl, rfl, id, fun _ _ => rfl⟩

instance : IsTrans GWALWriter Keeps where
  trans w w' w'' h h' := by
    refine ⟨h'.dense, h'.options.trans h.options, h'.assertions.trans h.assertions,
      h'.bufferSize.trans h.bufferSize, ?_, ?_⟩
    · intro hdvd
      have hnext := h'.aligned
      rw [h.options] at hnext
      exact hnext (h.aligned hdvd)
    · intro hassert hndvd
      have hsize := h.unaligned hassert hndvd
      rw [← hsize]
      apply h'.unaligned (h.assertions.trans hassert)
      rwa [h.options, hsize]

def stream : Framing.Stream GWALWriter UInt8 where
  layout := layout
  offset := blockOffset
  contents w := w.dest.contents

-- The writer takes so many more bytes: in builds with assertions they go to disk in whole units,
-- or stay in the staging buffer.
structure Accepts (w : GWALWriter) (size : Nat) : Prop where
  dense : w.dest.Dense
  bufferSize : w.gpuBufferSize = kBlockSize
  offset_le : w.blockOffset ≤ kBlockSize
  staged : w.dest.assertions = true → w.dest.options.gdsAlignment ∣ w.dest.fileSize ∨
    w.dest.writeBuffer.length + size < w.dest.options.gdsAlignment

theorem Ready.accepts {w : GWALWriter} (hready : w.Ready) (size : Nat) : w.Accepts size :=
  ⟨hready.sound.toDense, hready.bufferSize, hready.offset_le, fun _ => .inl hready.sound.aligned⟩

theorem Accepts.mono (h : Accepts w size) (hle : size' ≤ size) : w.Accepts size' :=
  ⟨h.dense, h.bufferSize, h.offset_le, fun hassert => (h.staged hassert).imp_right fun hlt => by
    omega⟩

theorem Accepts.appended (h : w.Accepts (data.length + size))
    (happended : stream.Appended Keeps w data w') (hle : w'.blockOffset ≤ kBlockSize) :
    w'.Accepts size := by
  refine ⟨happended.keeps.dense, happended.keeps.bufferSize.trans h.bufferSize, hle, ?_⟩
  rw [happended.keeps.assertions, happended.keeps.options]
  intro hassert
  by_cases haligned : w.dest.options.gdsAlignment ∣ w.dest.fileSize
  · exact .inl (happended.keeps.aligned haligned)
  · -- nothing has reached the disk, so all of it is staged
    have hlength := congrArg List.length happended.contents
    simp only [stream, h.dense.contents_eq, happended.keeps.dense.contents_eq, List.length_append,
      h.dense.disk_length, happended.keeps.dense.disk_length,
      happended.keeps.unaligned hassert haligned] at hlength
    have hlt := (h.staged hassert).resolve_left haligned
    right
    omega

theorem Ready.keeps (hready : w.Ready) (h : Keeps w w') (hle : w'.blockOffset ≤ kBlockSize) :
    w'.Ready where
  sound := ⟨h.dense, h.options ▸ h.aligned hready.sound.aligned⟩
  options := h.options.trans hready.options
  bufferSize := h.bufferSize.trans hready.bufferSize
  offset_le := hle

theorem ready_create (assertions : Bool) (headerBuffer : DeviceBuffer kRecyclableHeaderSize)
    (trailerBuffer : DeviceBuffer trailerBufferSize) :
    (create [] assertions headerBuffer trailerBuffer).Ready where
  sound := GDSFileSystem.sound_initializeGDS {} assertions (by decide)
  options := rfl
  bufferSize := rfl
  offset_le := Nat.zero_le _

theorem appended_of_append {w w' : GWALWriter} (hdense : w.dest.Dense)
    (happend : w.dest.appendFromGPU {} data = (.returned .ok, w'.dest))
    (hsize : w'.gpuBufferSize = w.gpuBufferSize) (hfiller : w'.filler = w.filler) :
    stream.Appended Keeps w data w' := by
  obtain ⟨hdense', hcontents, hoptions, hassertions, haligned⟩ :=
    GDSFileSystem.appendFromGPU_dense w.dest hdense data happend
  refine ⟨⟨hdense', hoptions, hassertions, hsize, haligned, ?_⟩, ?_, hcontents⟩
  · intro hassert hndvd
    exact GDSFileSystem.fileSize_of_append w.dest hdense data hassert hndvd happend
  · simp only [stream, layout, hfiller]

theorem fillTrailerOnGPU_ok (henv : FragmentEnv.Kept env) (hdense : w.dest.Dense)
    (hpos : 0 < size) (h : fillTrailerOnGPU env w size = (.returned .ok, w')) :
    stream.Appended Keeps w (w.filler.take size) w' := by
  unfold fillTrailerOnGPU at h
  split at h
  · cases h
  · simp only [fillTrailerKernel_eq w.trailerBuffer hpos, henv.trailerWrite, Prod.mk.injEq] at h
    obtain ⟨houtcome, rfl⟩ := h
    refine appended_of_append hdense (Prod.ext houtcome rfl) rfl ?_
    simp only [filler, fillTrailerKernel_idem]

theorem switchBlock_ok (henv : FragmentEnv.Kept env) (hdense : w.dest.Dense)
    (h : switchBlock env w = (.returned .ok, w')) :
    stream.Appended Keeps w (w.filler.take (format.padding w.blockOffset)) w' := by
  have hstep := next_of_checkedAssert_returned h
  by_cases hlt : (kBlockSize : Int) - w.blockOffset < kHeaderSize
  · have hnat : format.blockSize - w.blockOffset < format.headerSize := by
      simp only [kBlockSize, kHeaderSize] at hlt
      simp only [format_blockSize, format_headerSize]
      omega
    rw [if_pos hlt] at hstep
    rw [format.padding_of_lt hnat, format_blockSize]
    split at hstep
    · rename_i hpos
      have hsize : ((kBlockSize : Int) - w.blockOffset).toNat = 32768 - w.blockOffset := by
        simp only [kBlockSize]
        omega
      rw [hsize] at hstep
      split at hstep
      · rename_i w₁ hfill
        cases hstep
        simp only [kBlockSize] at hpos
        have hfilled := fillTrailerOnGPU_ok henv hdense (by omega) hfill
        exact ⟨⟨hfilled.keeps.dense, hfilled.keeps.options, hfilled.keeps.assertions,
          hfilled.keeps.bufferSize, hfilled.keeps.aligned, hfilled.keeps.unaligned⟩,
          hfilled.layout, hfilled.contents⟩
      · simp_all
    · rename_i hpos
      cases hstep
      have hzero : 32768 - w.blockOffset = 0 := by
        simp only [kBlockSize] at hpos
        omega
      rw [hzero, List.take_zero]
      exact .nil ⟨hdense, rfl, rfl, rfl, id, fun _ _ => rfl⟩ rfl rfl
  · have hnat : ¬format.blockSize - w.blockOffset < format.headerSize := by
      simp only [kBlockSize, kHeaderSize] at hlt
      simp only [format_blockSize, format_headerSize]
      omega
    rw [if_neg hlt] at hstep
    rw [format.padding_of_not_lt hnat, List.take_zero]
    cases hstep
    exact .nil (.refl hdense) rfl rfl

theorem switchBlock_kept (env : FragmentEnv) (henv : env.Kept) (w : GWALWriter)
    (haccepts : w.Accepts (format.padding w.blockOffset)) :
    (∃ w', w.switchBlock env = (.returned .ok, w')) ∨
    (¬env.Complete ∧ w.switchBlock env = (.threw "CUDA error", w)) := by
  have hoffset := haccepts.offset_le
  have hassert : (0 : Int) ≤ (kBlockSize : Int) - w.blockOffset := by omega
  rw [switchBlock, checkedAssert_of_true _ _ _ _ _ hassert]
  split
  · rename_i hlt
    split
    · by_cases hfill : env.fillTrailer = false
      · refine .inr ⟨fun hc => by simp [hc.fillTrailer] at hfill, ?_⟩
        simp only [fillTrailerOnGPU, hfill, ite_true]
      · have hpadding : ((kBlockSize : Int) - w.blockOffset).toNat =
            format.padding w.blockOffset := by
          rw [format.padding_of_lt (by
            simp only [kBlockSize, kHeaderSize] at hlt
            simp only [format_blockSize, format_headerSize]
            omega), format_blockSize]
          simp only [kBlockSize]
          omega
        obtain ⟨dest, happend⟩ := GDSFileSystem.appendFromGPU_accepted w.dest haccepts.dense
          haccepts.staged ((fillTrailerKernel 1 ((kBlockSize : Int) - w.blockOffset).toNat
            w.trailerBuffer).1.take ((kBlockSize : Int) - w.blockOffset).toNat)
          (by rw [hpadding]; exact List.length_take_le _ _)
        simp only [fillTrailerOnGPU, hfill, henv.trailerWrite, happend]
        exact .inl ⟨_, rfl⟩
    · exact .inl ⟨_, rfl⟩
  · exact .inl ⟨_, rfl⟩

theorem supported_noChecksumType (kind : Framing.Kind) :
    RecordType.kNoChecksumFullType.code ≤ (noChecksumType kind).code ∧
      (noChecksumType kind).code ≤ RecordType.kNoChecksumLastType.code := by
  cases kind <;> decide

theorem emit_ok (henv : FragmentEnv.Kept env) (hdense : w.dest.Dense)
    (h : emitPhysicalRecordFromGPU env w type data = (.returned .ok, w')) :
    stream.Appended Keeps w (header type data.length ++ data) w' := by
  obtain ⟨-, dest, happend, rfl⟩ := emit_returned w h
  rw [henv.recordWrite] at happend
  exact appended_of_append hdense happend rfl rfl

theorem emit_kept (env : FragmentEnv) (henv : env.Kept) (w : GWALWriter)
    (kind : Framing.Kind) (data : Bytes) (haccepts : w.Accepts (kHeaderSize + data.length))
    (hfits : w.blockOffset + kHeaderSize + data.length ≤ kBlockSize) :
    (∃ w', w.emitPhysicalRecordFromGPU env (noChecksumType kind) data = (.returned .ok, w')) ∨
    (¬env.Complete ∧ ∃ outcome buffer, w.emitPhysicalRecordFromGPU env (noChecksumType kind) data =
        (outcome, { w with headerBuffer := buffer }) ∧ Failed outcome) := by
  have hfits' : w.blockOffset + 7 + data.length ≤ 32768 := hfits
  have hlength : data.length ≤ 0xffff := by omega
  have hsize : ¬w.gpuBufferSize < kHeaderSize + data.length := by
    rw [haccepts.bufferSize]
    simp only [kBlockSize, kHeaderSize]
    omega
  obtain ⟨dest, happend⟩ := GDSFileSystem.appendFromGPU_accepted w.dest haccepts.dense
    haccepts.staged ((formatRecordHeaderKernel w.headerBuffer (noChecksumType kind)
      data.length).1.take kHeaderSize ++ data) (by
        rw [List.length_append]
        exact Nat.add_le_add_right (List.length_take_le _ _) _)
  rw [emitPhysicalRecordFromGPU, checkedAssert_of_true _ _ _ _ _ hlength,
    if_pos (supported_noChecksumType kind), checkedAssert_of_true _ _ _ _ _ hfits]
  simp only [hsize, henv.recordWrite, henv.synchronize, happend, Bool.true_eq_false, ite_false]
  by_cases hformat : env.formatHeader = false
  · exact .inr ⟨fun hc => by simp [hc.formatHeader] at hformat, .threw "CUDA error",
      w.headerBuffer, if_pos hformat, trivial⟩
  rw [if_neg hformat]
  by_cases hheader : env.copyHeader = false
  · exact .inr ⟨fun hc => by simp [hc.copyHeader] at hheader, _, _, if_pos hheader,
      by simp [Failed]⟩
  rw [if_neg hheader]
  by_cases hpayload : env.copyPayload = false
  · exact .inr ⟨fun hc => by simp [hc.copyPayload] at hpayload, _, _, if_pos hpayload,
      by simp [Failed]⟩
  rw [if_neg hpayload]
  exact .inl ⟨_, rfl⟩

theorem fragmentType_eq (isBegin : Bool) (isEnd : Prop) [Decidable isEnd] :
    (if isBegin ∧ isEnd then .kNoChecksumFullType
      else if isBegin then .kNoChecksumFirstType
      else if isEnd then .kNoChecksumLastType
      else .kNoChecksumMiddleType : RecordType) =
      noChecksumType (.of isBegin (decide isEnd)) := by
  by_cases hend : isEnd <;> cases isBegin <;> simp [hend, Framing.Kind.of, noChecksumType]

theorem addFragment_eq (hswitch : switchBlock env w = (.returned .ok, w₁)) (isBegin : Bool)
    (left : Bytes) :
    addFragment env isBegin w left =
      ((w₁.emitPhysicalRecordFromGPU env
          (noChecksumType (.of isBegin (decide (left.length ≤ format.room w.blockOffset))))
          (left.take (format.room w.blockOffset))).1,
        (w₁.emitPhysicalRecordFromGPU env
          (noChecksumType (.of isBegin (decide (left.length ≤ format.room w.blockOffset))))
          (left.take (format.room w.blockOffset))).2,
        left.drop (format.room w.blockOffset)) := by
  have hoffset := blockOffset_of_switchBlock hswitch
  have hroom : kBlockSize - w₁.blockOffset - kHeaderSize = format.room w.blockOffset := by
    rw [hoffset]
    rfl
  have hadd := format.start_add_room w.blockOffset
  simp only [← hoffset, format_headerSize, format_blockSize] at hadd
  have hassert : (kHeaderSize : Int) ≤ (kBlockSize : Int) - w₁.blockOffset := by
    simp only [kHeaderSize, kBlockSize]
    omega
  -- the fragment length of the loop is what fits of `left`
  have hlength : (if left.length < format.room w.blockOffset then left.length
      else format.room w.blockOffset) = min left.length (format.room w.blockOffset) := by
    split <;> omega
  have htake : left.take (min left.length (format.room w.blockOffset)) =
      left.take (format.room w.blockOffset) := by
    rw [Nat.min_comm, ← List.take_take, List.take_length]
  have hdrop : left.drop (min left.length (format.room w.blockOffset)) =
      left.drop (format.room w.blockOffset) := by
    by_cases hle : left.length ≤ format.room w.blockOffset
    · rw [Nat.min_eq_left hle, List.drop_length, List.drop_eq_nil_of_le hle]
    · rw [Nat.min_eq_right (by omega)]
  have hend : (left.length = min left.length (format.room w.blockOffset)) ↔
      left.length ≤ format.room w.blockOffset := by omega
  simp only [addFragment, hswitch, hroom, hlength, htake, hdrop, fragmentType_eq, hend,
    checkedAssert_of_true _ _ _ _ _ hassert]

theorem switchBlock_room (env : FragmentEnv) (w : GWALWriter)
    (hoffset : w.blockOffset + kHeaderSize ≤ kBlockSize) :
    w.switchBlock env = (.returned .ok, w) := by
  have hleftover : ¬(kBlockSize : Int) - w.blockOffset < kHeaderSize := by omega
  rw [switchBlock, checkedAssert_of_true _ _ _ _ _ (by omega), if_neg hleftover]

theorem fits_of_switchBlock (hswitch : switchBlock env w = (.returned .ok, w₁)) (left : Bytes) :
    w₁.blockOffset + kHeaderSize + (left.take (format.room w.blockOffset)).length ≤ kBlockSize := by
  have hadd := format.start_add_room w.blockOffset
  simp only [← blockOffset_of_switchBlock hswitch, format_headerSize, format_blockSize] at hadd
  rw [List.length_take]
  simp only [kHeaderSize, kBlockSize]
  omega

theorem emit_of_addFragment (h : addFragment env isBegin w left = (.returned .ok, w', left')) :
    ∃ w₁, switchBlock env w = (.returned .ok, w₁) ∧
      w₁.emitPhysicalRecordFromGPU env
        (noChecksumType (.of isBegin (decide (left.length ≤ format.room w.blockOffset))))
        (left.take (format.room w.blockOffset)) = (.returned .ok, w') := by
  by_cases hswitched : ∃ w₁, switchBlock env w = (.returned .ok, w₁)
  · obtain ⟨w₁, hswitch⟩ := hswitched
    rw [addFragment_eq hswitch] at h
    simp only [Prod.mk.injEq] at h
    exact ⟨w₁, hswitch, Prod.ext h.1 h.2.1⟩
  · unfold addFragment at h
    split at h
    · rename_i w₁ hswitch
      exact absurd ⟨w₁, hswitch⟩ hswitched
    · simp_all

theorem addFragment_ok (henv : FragmentEnv.Kept env) (hdense : w.dest.Dense)
    (h : addFragment env isBegin w left = (.returned .ok, w', left')) :
    stream.Appended Keeps w (w.layout.encode ⟨format.padding w.blockOffset,
      .of isBegin (decide (left.length ≤ format.room w.blockOffset)),
      left.take (format.room w.blockOffset)⟩) w' := by
  obtain ⟨w₁, hswitch, hemit⟩ := emit_of_addFragment h
  have hpadding := switchBlock_ok henv hdense hswitch
  have happended := hpadding.trans (emit_ok henv hpadding.keeps.dense hemit)
  rw [← List.append_assoc] at happended
  exact happended

-- The passes of AddRecord lay the fragments of the log, from every state they keep.
theorem lays (hdense : ∀ {w}, Good w → w.dest.Dense)
    (hgood : ∀ {w w'}, Good w → Keeps w w' → w'.blockOffset ≤ kBlockSize → Good w') :
    emitter.Lays stream FragmentEnv.Kept Keeps Good where
  pass := by
    intro env isBegin w left w' left' henv hw hpass
    have happended := addFragment_ok henv (hdense hw) hpass
    obtain ⟨hleft, hoffset⟩ := addFragment_progress hpass
    refine ⟨hgood hw happended.keeps ?_, happended, hleft, hoffset⟩
    have hadd := format.start_add_room w.blockOffset
    rw [format_blockSize] at hadd
    rw [kBlockSize, hoffset]
    omega

theorem addFragment_accepts (isBegin : Bool) (w : GWALWriter) (left : Bytes) (extra : Nat)
    (haccepts : w.Accepts (format.padding w.blockOffset + format.headerSize +
      min left.length (format.room w.blockOffset) + extra)) :
    ∃ w' left', addFragment {} isBegin w left = (.returned .ok, w', left') ∧ w'.Accepts extra := by
  obtain ⟨w₁, hswitch⟩ := (switchBlock_kept {} .clean w (haccepts.mono (by omega))).resolve_right
    fun h => h.1 .clean
  have hfits := fits_of_switchBlock hswitch left
  have hlength : (left.take (format.room w.blockOffset)).length =
      min left.length (format.room w.blockOffset) := by
    rw [List.length_take, Nat.min_comm]
  have hpadding := switchBlock_ok .clean haccepts.dense hswitch
  have haccepts₁ : w₁.Accepts (kHeaderSize + (left.take (format.room w.blockOffset)).length +
      extra) := by
    have hfiller : (w.filler.take (format.padding w.blockOffset)).length =
        format.padding w.blockOffset := w.layout.length_padding w.blockOffset
    refine Accepts.appended (haccepts.mono ?_) hpadding (Nat.le_trans (by omega) hfits)
    rw [hfiller, hlength]
    simp only [kHeaderSize, format_headerSize]
    omega
  obtain ⟨w', hemit⟩ := (emit_kept {} .clean w₁
    (.of isBegin (decide (left.length ≤ format.room w.blockOffset)))
    (left.take (format.room w.blockOffset)) (haccepts₁.mono (by omega)) hfits).resolve_right
    fun h => h.1 .clean
  refine ⟨w', left.drop (format.room w.blockOffset), by rw [addFragment_eq hswitch, hemit], ?_⟩
  refine Accepts.appended (haccepts₁.mono ?_) (emit_ok .clean hpadding.keeps.dense hemit)
    ((blockOffset_of_emit hemit).trans_le hfits)
  rw [List.length_append]
  exact Nat.le_refl _

-- AddRecord refines the framing of the log: it appends the fragments of one record.
theorem addRecordLoop_accepts (hlays : emitter.Lays stream FragmentEnv.Kept Keeps Good)
    (env : Nat → FragmentEnv) (henv : ∀ index, env index = {}) (isBegin : Bool) (w : GWALWriter)
    (hgood : Good w) (left : Bytes) (extra : Nat)
    (haccepts : w.Accepts (format.size w.blockOffset left.length + extra)) :
    ∃ w', addRecordLoop env isBegin w left = (.returned .ok, w') ∧ w'.Accepts extra ∧
      Framing.Emitter.Recorded stream Keeps Good isBegin w left w' := by
  refine hlays.run_total Accepts ?_ ?_ isBegin hgood left extra haccepts
  · intro index
    rw [henv index]
    exact .clean
  · intro index isBegin w left extra _ haccepts
    rw [henv index]
    exact addFragment_accepts isBegin w left extra haccepts

theorem addRecords_accepts (hlays : emitter.Lays stream FragmentEnv.Kept Keeps Good)
    (hdense : ∀ {w}, Good w → w.dest.Dense) (hgood : Good w) (payloads : List Bytes)
    (haccepts : w.Accepts (format.total w.blockOffset (payloads.map List.length))) :
    ∃ w', w.addRecords payloads = (.returned .ok, w') ∧ Good w' ∧
      stream.Appended Keeps w (w.layout.log w.blockOffset payloads) w' :=
  Framing.addAll_total (fun _ h => Keeps.refl (hdense h)) Accepts
    (fun w data extra hgood haccepts => addRecordLoop_accepts hlays (fun _ => {}) (fun _ => rfl)
      true w hgood data extra haccepts) payloads hgood haccepts

theorem lays_ready : emitter.Lays stream FragmentEnv.Kept Keeps Ready :=
  lays (fun h => h.sound.toDense) Ready.keeps

theorem addRecords_ready {w : GWALWriter} (hready : w.Ready) (payloads : List Bytes) :
    ∃ w', w.addRecords payloads = (.returned .ok, w') ∧ w'.Ready ∧
      w'.dest.contents = w.dest.contents ++ w.layout.log w.blockOffset payloads := by
  obtain ⟨w', hadd, hready', happended⟩ := addRecords_accepts lays_ready
    (fun h => h.sound.toDense) hready payloads (hready.accepts _)
  exact ⟨w', hadd, hready', happended.contents⟩

end GWALWriter

end MlkvPlus.Gds
