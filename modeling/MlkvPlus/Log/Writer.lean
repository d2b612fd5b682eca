import MlkvPlus.Data.Framing.Emitter
import MlkvPlus.Log.Format

namespace MlkvPlus.Log

-- The checksum functions of the log.
structure Crc32c where
  value : Bytes → Nat
  extend : Nat → Bytes → Nat
  combine : Nat → Nat → Nat → Nat
  mask : Nat → Nat
  unmask : Nat → Nat

-- The format of a log whose records carry the shorter or the longer header.
def formatFor (recycleLogFiles : Bool) : Framing.Format where
  blockSize := kBlockSize
  headerSize := if recycleLogFiles = true then kRecyclableHeaderSize else kHeaderSize
  header_pos := by cases recycleLogFiles <;> decide
  header_lt := by cases recycleLogFiles <;> decide

inductive Status where
  | ok
  | ioError (message : String)
  deriving DecidableEq, Repr

-- How the calls on the file made in one pass of AddRecord fail, if they do.
structure AppendEnv where
  trailer : Option String := none
  header : Option String := none
  payload : Option String := none
  deriving DecidableEq, Repr

structure Writer where
  logNumber : Nat
  recycleLogFiles : Bool
  walWithChecksum : Bool
  manualFlush : Bool
  assertions : Bool
  blockOffset : Nat := 0
  dest : Bytes := []
  seenError : Bool := false
  deriving DecidableEq, Repr

namespace Writer

def isNoChecksum (type : RecordType) : Bool :=
  RecordType.kNoChecksumFullType.code ≤ type.code &&
    type.code ≤ RecordType.kRecyclableNoChecksumLastType.code

-- The record types that keep the shorter header.
def isLegacy (type : RecordType) : Bool :=
  type.code < RecordType.kRecyclableFullType.code || type == .kSetCompressionType ||
    type == .kPredecessorWALInfoType || type == .kUserDefinedTimestampSizeType ||
    (RecordType.kNoChecksumFullType.code ≤ type.code &&
      type.code ≤ RecordType.kNoChecksumLastType.code)

-- The checksum covers the type, the log number behind a longer header, and the payload.
def checksum (crc : Crc32c) (logNumber : Nat) (type : RecordType) (data : Bytes) : Nat :=
  let typeCrc := crc.value [type.code]
  let start := if isLegacy type = true then typeCrc
    else crc.extend typeCrc (Bytes.fixed 4 logNumber)
  crc.mask (crc.combine start (crc.value data) data.length)

def header (crc : Crc32c) (logNumber : Nat) (type : RecordType) (data : Bytes) : Bytes :=
  (if isNoChecksum type = true then [0, 0, 0, 0]
    else Bytes.fixed 4 (checksum crc logNumber type data)) ++
  [UInt8.ofNat (data.length &&& 0xff), UInt8.ofNat (data.length >>> 8), type.code] ++
  (if isLegacy type = true then [] else Bytes.fixed 4 logNumber)

def headerSize (w : Writer) : Nat :=
  if w.recycleLogFiles = true then kRecyclableHeaderSize else kHeaderSize

def append (fault : Option String) (w : Writer) (data : Bytes) : Status × Writer :=
  match fault with
  | none => (.ok, { w with dest := w.dest ++ data })
  | some message => (.ioError message, { w with seenError := true })

def fragmentType (w : Writer) (isBegin isEnd : Bool) : RecordType :=
  if w.walWithChecksum = false then
    if isBegin = true ∧ isEnd = true then
      if w.recycleLogFiles = true then .kRecyclableNoChecksumFullType else .kNoChecksumFullType
    else if isBegin = true then
      if w.recycleLogFiles = true then .kRecyclableNoChecksumFirstType else .kNoChecksumFirstType
    else if isEnd = true then
      if w.recycleLogFiles = true then .kRecyclableNoChecksumLastType else .kNoChecksumLastType
    else
      if w.recycleLogFiles = true then .kRecyclableNoChecksumMiddleType else .kNoChecksumMiddleType
  else
    if isBegin = true ∧ isEnd = true then
      if w.recycleLogFiles = true then .kRecyclableFullType else .kFullType
    else if isBegin = true then
      if w.recycleLogFiles = true then .kRecyclableFirstType else .kFirstType
    else if isEnd = true then
      if w.recycleLogFiles = true then .kRecyclableLastType else .kLastType
    else
      if w.recycleLogFiles = true then .kRecyclableMiddleType else .kMiddleType

-- The offset moves on whether or not the file took the bytes.
def emitPhysicalRecord (crc : Crc32c) (env : AppendEnv) (w : Writer) (type : RecordType)
    (data : Bytes) : Outcome Status × Writer :=
  let headerSize := if isLegacy type = true then kHeaderSize else kRecyclableHeaderSize
  checkedAssert w.assertions (data.length ≤ 0xffff) "n <= 0xffff"
    (checkedAssert w.assertions (w.blockOffset + headerSize + data.length ≤ kBlockSize)
      (if isLegacy type = true then "block_offset_ + kHeaderSize + n <= kBlockSize"
        else "block_offset_ + kRecyclableHeaderSize + n <= kBlockSize")
      (match w.append env.header (header crc w.logNumber type data) with
      | (.ok, w') =>
        match w'.append env.payload data with
        | (status, w'') => (.returned status, { w'' with
            blockOffset := w.blockOffset + (headerSize + data.length) })
      | (status, w') => (.returned status, { w' with
          blockOffset := w.blockOffset + (headerSize + data.length) })) w) w

-- The literal behind the trailer: ten zeros and the one that ends a string.
def trailer : Bytes := List.replicate 11 0

-- Switch to a new block when the rest of this one cannot hold a header.
def switchBlock (env : AppendEnv) (w : Writer) : Outcome Status × Writer :=
  let leftover : Int := kBlockSize - w.blockOffset
  checkedAssert w.assertions (0 ≤ leftover) "leftover >= 0"
    (if leftover < w.headerSize then
      if 0 < leftover then
        checkedAssert w.assertions (w.headerSize ≤ 11) "header_size_ <= 11"
          (match w.append env.trailer (trailer.take leftover.toNat) with
          | (.ok, w') => (.returned .ok, { w' with blockOffset := 0 })
          | (status, w') => (.returned status, w')) w
      else (.returned .ok, { w with blockOffset := 0 })
    else (.returned .ok, w)) w

-- One pass of the loop of AddRecord: the next fragment of `left`, and what is left then.
def addFragment (crc : Crc32c) (env : AppendEnv) (isBegin : Bool) (w : Writer) (left : Bytes) :
    Outcome Status × Writer × Bytes :=
  match w.switchBlock env with
  | (.returned .ok, w') =>
    checkedAssert w.assertions ((w.headerSize : Int) ≤ kBlockSize - w'.blockOffset)
      "kBlockSize - block_offset_ >= header_size_"
      (let avail := kBlockSize - w'.blockOffset - w.headerSize
      let fragmentLength := if left.length < avail then left.length else avail
      let isEnd := decide (left.length = fragmentLength)
      match w'.emitPhysicalRecord crc env (w.fragmentType isBegin isEnd)
          (left.take fragmentLength) with
      | (outcome, w'') => (outcome, w'', left.drop fragmentLength)) (w', left)
  | (outcome, w') => (outcome, w', left)

def format (w : Writer) : Framing.Format :=
  formatFor w.recycleLogFiles

@[simp] theorem format_blockSize (w : Writer) : w.format.blockSize = 32768 := rfl

theorem format_headerSize (w : Writer) : w.format.headerSize = w.headerSize := rfl

-- The header written for a fragment has the size the loop reserves for it.
theorem isLegacy_fragmentType (w : Writer) (isBegin isEnd : Bool) :
    isLegacy (w.fragmentType isBegin isEnd) = !w.recycleLogFiles := by
  unfold fragmentType
  cases w.walWithChecksum <;> cases w.recycleLogFiles <;> cases isBegin <;> cases isEnd <;> decide

theorem length_header (crc : Crc32c) (logNumber : Nat) (type : RecordType) (data : Bytes) :
    (header crc logNumber type data).length =
      if isLegacy type = true then kHeaderSize else kRecyclableHeaderSize := by
  unfold header
  cases isNoChecksum type <;> cases isLegacy type <;> rfl

-- The kind of a fragment decides its type.
def kindType (w : Writer) : Framing.Kind → RecordType
  | .full => w.fragmentType true true
  | .first => w.fragmentType true false
  | .middle => w.fragmentType false false
  | .last => w.fragmentType false true

theorem kindType_of (w : Writer) (isBegin isEnd : Bool) :
    w.kindType (.of isBegin isEnd) = w.fragmentType isBegin isEnd := by
  cases isBegin <;> cases isEnd <;> rfl

theorem isLegacy_kindType (w : Writer) (kind : Framing.Kind) :
    isLegacy (w.kindType kind) = !w.recycleLogFiles := by
  cases kind <;> exact w.isLegacy_fragmentType _ _

def layout (crc : Crc32c) (w : Writer) : Framing.Layout UInt8 where
  toFormat := w.format
  header kind body := header crc w.logNumber (w.kindType kind) body
  filler := trailer
  header_length kind body := by
    rw [length_header, isLegacy_kindType, format_headerSize, headerSize]
    cases w.recycleLogFiles <;> rfl
  filler_length := by
    rw [format_headerSize, headerSize]
    split <;> decide

def stream (crc : Crc32c) : Framing.Stream Writer UInt8 where
  layout := layout crc
  offset := blockOffset
  contents := dest

-- What a call that returns OK does not change.
structure SameSettings (w w' : Writer) : Prop where
  logNumber : w'.logNumber = w.logNumber
  recycleLogFiles : w'.recycleLogFiles = w.recycleLogFiles
  walWithChecksum : w'.walWithChecksum = w.walWithChecksum
  seenError : w'.seenError = w.seenError

instance : IsTrans Writer SameSettings where
  trans _ _ _ h h' := ⟨h'.logNumber.trans h.logNumber, h'.recycleLogFiles.trans h.recycleLogFiles,
    h'.walWithChecksum.trans h.walWithChecksum, h'.seenError.trans h.seenError⟩

theorem SameSettings.refl (w : Writer) : SameSettings w w := ⟨rfl, rfl, rfl, rfl⟩

theorem SameSettings.layout (h : SameSettings w w') (crc : Crc32c) :
    w'.layout crc = w.layout crc := by
  have hkind : w'.kindType = w.kindType := by
    funext kind
    cases kind <;> simp only [kindType, fragmentType, h.walWithChecksum, h.recycleLogFiles]
  simp only [Writer.layout, format, hkind, h.logNumber, h.recycleLogFiles]

theorem SameSettings.appended (h : SameSettings w w') (crc : Crc32c)
    (hdest : w'.dest = w.dest ++ data) : (stream crc).Appended SameSettings w data w' :=
  ⟨h, h.layout crc, hdest⟩

theorem append_ok (h : append fault w data = (.ok, w')) :
    w' = { w with dest := w.dest ++ data } := by
  unfold append at h
  split at h <;> cases h
  rfl

theorem switchBlock_ok (h : switchBlock env w = (.returned .ok, w')) :
    SameSettings w w' ∧ w'.dest = w.dest ++ trailer.take (w.format.padding w.blockOffset) ∧
      w'.blockOffset = w.format.start w.blockOffset := by
  have hstep := next_of_checkedAssert_returned h
  by_cases hlt : w.format.blockSize - w.blockOffset < w.format.headerSize
  · rw [w.format.padding_of_lt hlt, w.format.start_of_lt hlt]
    rw [format_headerSize, format_blockSize] at hlt
    rw [if_pos (by simp only [kBlockSize]; omega)] at hstep
    split at hstep
    · rename_i hpos
      have happend := next_of_checkedAssert_returned hstep
      split at happend
      · rename_i w₁ htrailer
        cases happend
        cases append_ok htrailer
        have hsize : ((kBlockSize : Int) - w.blockOffset).toNat =
            w.format.blockSize - w.blockOffset := by
          simp only [kBlockSize, format_blockSize]
          omega
        rw [hsize]
        exact ⟨⟨rfl, rfl, rfl, rfl⟩, rfl, rfl⟩
      · simp_all
    · rename_i hpos
      cases hstep
      have hzero : w.format.blockSize - w.blockOffset = 0 := by
        simp only [kBlockSize] at hpos
        simp only [format_blockSize]
        omega
      rw [hzero, List.take_zero, List.append_nil]
      exact ⟨⟨rfl, rfl, rfl, rfl⟩, rfl, rfl⟩
  · rw [w.format.padding_of_not_lt hlt, w.format.start_of_not_lt hlt]
    have hpos := w.format.header_pos
    rw [format_headerSize] at hlt hpos
    rw [format_blockSize] at hlt
    rw [if_neg (by simp only [kBlockSize]; omega)] at hstep
    cases hstep
    rw [List.take_zero, List.append_nil]
    exact ⟨.refl w, rfl, rfl⟩

theorem emit_ok (h : emitPhysicalRecord crc env w type data = (.returned .ok, w')) :
    SameSettings w w' ∧ w'.dest = w.dest ++ (header crc w.logNumber type data ++ data) ∧
      w'.blockOffset = w.blockOffset +
        ((if isLegacy type = true then kHeaderSize else kRecyclableHeaderSize) + data.length) := by
  have hstep := next_of_checkedAssert_returned (next_of_checkedAssert_returned h)
  split at hstep
  · rename_i w₁ hheader
    cases append_ok hheader
    split at hstep
    rename_i status w₂ hpayload
    cases hstep
    cases append_ok hpayload
    exact ⟨⟨rfl, rfl, rfl, rfl⟩, List.append_assoc _ _ _, rfl⟩
  · simp_all

theorem addFragment_ok (h : addFragment crc env isBegin w left = (.returned .ok, w', left')) :
    (stream crc).Appended SameSettings w ((w.layout crc).encode ⟨w.format.padding w.blockOffset,
        .of isBegin (decide (left.length ≤ w.format.room w.blockOffset)),
        left.take (w.format.room w.blockOffset)⟩) w' ∧
      left' = left.drop (w.format.room w.blockOffset) ∧
      w'.blockOffset = w.format.start w.blockOffset + w.format.headerSize +
        min left.length (w.format.room w.blockOffset) := by
  unfold addFragment at h
  split at h
  · rename_i w₁ hswitch
    obtain ⟨hsame, htrailer, hoffset⟩ := switchBlock_ok hswitch
    have hroom : kBlockSize - w₁.blockOffset - w.headerSize = w.format.room w.blockOffset := by
      rw [hoffset]
      rfl
    have hstep := next_of_checkedAssert_returned h
    simp only [hroom] at hstep
    -- the fragment length of the loop is what fits of `left`
    have hlength : (if left.length < w.format.room w.blockOffset then left.length
        else w.format.room w.blockOffset) = min left.length (w.format.room w.blockOffset) := by
      split <;> omega
    have hend : (left.length = min left.length (w.format.room w.blockOffset)) ↔
        left.length ≤ w.format.room w.blockOffset := by omega
    have htake : left.take (min left.length (w.format.room w.blockOffset)) =
        left.take (w.format.room w.blockOffset) := by
      rw [Nat.min_comm, ← List.take_take, List.take_length]
    simp only [hlength, hend, htake] at hstep
    rw [← kindType_of] at hstep
    generalize hemit : w₁.emitPhysicalRecord crc env _ (left.take _) = emitted at hstep
    obtain ⟨outcome, w₂⟩ := emitted
    cases hstep
    obtain ⟨hsame', hrecord, hafter⟩ := emit_ok hemit
    refine ⟨?_, ?_, ?_⟩
    · refine (IsTrans.trans _ _ _ hsame hsame').appended crc ?_
      rw [hrecord, htrailer, hsame.logNumber, Framing.Layout.encode, List.append_assoc,
        List.append_assoc]
      rfl
    · by_cases hle : left.length ≤ w.format.room w.blockOffset
      · rw [Nat.min_eq_left hle, List.drop_length, List.drop_eq_nil_of_le hle]
      · rw [Nat.min_eq_right (by omega)]
    · rw [hafter, hoffset, kindType_of, isLegacy_fragmentType, List.length_take, Nat.add_assoc,
        Nat.min_comm, format_headerSize, headerSize]
      cases w.recycleLogFiles <;> rfl
  · simp_all

theorem addFragment_fuel (h : addFragment crc env isBegin w left = (.returned .ok, w', left'))
    (hleft : 0 < left'.length) :
    w'.format.fuel w'.blockOffset left'.length < w.format.fuel w.blockOffset left.length := by
  obtain ⟨happended, hdrop, hoffset⟩ := addFragment_ok h
  have hlen : left'.length = left.length - w.format.room w.blockOffset := by
    rw [hdrop, List.length_drop]
  -- something is left, so this fragment has filled its block
  have hfull : w'.blockOffset = w.format.blockSize := by
    rw [hoffset, Nat.min_eq_right (by omega), w.format.start_add_room]
  have hformat : w'.format = w.format := by
    rw [format, format, happended.keeps.recycleLogFiles]
  rw [hformat, hfull, hlen]
  exact w.format.fuel_drop_lt w.blockOffset left.length (by omega)

-- The loop of AddRecord.
def emitter (crc : Crc32c) : Framing.Emitter AppendEnv Writer (Outcome Status) UInt8 where
  pass := addFragment crc
  ok := .returned .ok
  fuel w left := w.format.fuel w.blockOffset left.length
  fuel_lt := addFragment_fuel

def addRecordLoop (crc : Crc32c) (env : Nat → AppendEnv) (isBegin : Bool) (w : Writer)
    (left : Bytes) : Outcome Status × Writer :=
  (emitter crc).run env isBegin w left

def addRecord (crc : Crc32c) (env : Nat → AppendEnv) (flush : Option String) (w : Writer)
    (data : Bytes) : Outcome Status × Writer :=
  if w.seenError = true then (.returned (.ioError "Seen error. Skip writing buffer."), w)
  else
    match addRecordLoop crc env true w data with
    | (.returned .ok, w') =>
      if w.manualFlush = true then (.returned .ok, w')
      else match flush with
        | none => (.returned .ok, w')
        | some message => (.returned (.ioError message), { w' with seenError := true })
    | ended => ended

-- Consecutive records over a file that takes every byte, as long as each call returns OK.
def addRecords (crc : Crc32c) (w : Writer) (payloads : List Bytes) : Outcome Status × Writer :=
  Framing.addAll (.returned .ok) (fun w data => w.addRecord crc (fun _ => {}) none data) w payloads

end Writer

end MlkvPlus.Log
