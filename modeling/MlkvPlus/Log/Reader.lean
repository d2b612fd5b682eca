import MlkvPlus.Log.Format

namespace MlkvPlus.Log

inductive WALRecoveryMode where
  | kTolerateCorruptedTailRecords
  | kAbsoluteConsistency
  | kPointInTimeRecovery
  | kSkipAnyCorruptedRecords
  deriving DecidableEq, Repr

inductive Report where
  | corruption (bytes : Nat) (reason : String)
  | oldLogRecord (bytes : Nat)
  deriving DecidableEq, Repr

-- The codes ReadPhysicalRecord returns besides the record types.
def kEof : UInt8 := kMaxRecordType + 1
def kBadRecord : UInt8 := kMaxRecordType + 2
def kBadHeader : UInt8 := kMaxRecordType + 3
def kOldRecord : UInt8 := kMaxRecordType + 4
def kBadRecordLen : UInt8 := kMaxRecordType + 5
def kBadRecordChecksum : UInt8 := kMaxRecordType + 6

-- The parts of the reader that are not decided here: the checksum functions and
-- the decoders of the records that carry metadata.
structure ReaderEnv where
  checksum : Bool
  logNumber : Nat
  unmask : Nat → Nat
  crc32c : Bytes → Nat
  decodesCompression : Bytes → Bool
  predecessorReports : WALRecoveryMode → Bytes → List String
  timestampReports : Bytes → List String

structure Reader where
  file : Bytes
  buffer : Bytes := []
  eof : Bool := false
  recycled : Bool := false
  firstRecordRead : Bool := false
  compressionTypeRecordRead : Bool := false
  reports : List Report := []
  deriving DecidableEq, Repr

structure Physical where
  code : UInt8
  fragment : Bytes := []
  dropSize : Nat := 0
  deriving DecidableEq, Repr

def isRecyclableType (type : UInt8) : Bool :=
  (RecordType.kRecyclableFullType.code ≤ type && type ≤ RecordType.kRecyclableLastType.code) ||
  (RecordType.kRecyclableNoChecksumFullType.code ≤ type &&
    type ≤ RecordType.kRecyclableNoChecksumLastType.code) ||
  type == RecordType.kRecyclableUserDefinedTimestampSizeType.code ||
  type == RecordType.kRecyclePredecessorWALInfoType.code

def isNoChecksum (type : UInt8) : Bool :=
  RecordType.kNoChecksumFullType.code ≤ type &&
    type ≤ RecordType.kRecyclableNoChecksumLastType.code

namespace Reader

def reportCorruption (r : Reader) (bytes : Nat) (reason : String) : Reader :=
  { r with reports := r.reports ++ [.corruption bytes reason] }

def reportOldLogRecord (r : Reader) (bytes : Nat) : Reader :=
  { r with reports := r.reports ++ [.oldLogRecord bytes] }

def reportCorruptions (r : Reader) (bytes : Nat) (reasons : List String) : Reader :=
  reasons.foldl (fun r reason => r.reportCorruption bytes reason) r

-- Read the next block. At the end of the file there is no more: the result is the
-- code ReadPhysicalRecord then returns.
def readMore (r : Reader) : Option Physical × Reader :=
  if r.eof = false then
    let block := r.file.take kBlockSize
    (none, { r with
      buffer := block
      file := r.file.drop kBlockSize
      eof := decide (block.length < kBlockSize) })
  else if r.buffer.length ≠ 0 then
    (some { code := kBadHeader, dropSize := r.buffer.length }, { r with buffer := [] })
  else (some { code := kEof }, { r with buffer := [] })

-- Behind the header checks: the record is in the buffer, or it is cut short.
def parseBody (env : ReaderEnv) (r : Reader) (headerSize length : Nat) (type : UInt8) :
    Physical × Reader :=
  if r.buffer.length < headerSize + length then
    ({ code := kBadRecordLen, dropSize := r.buffer.length }, { r with buffer := [] })
  else if isRecyclableType type = true ∧
      Bytes.decodeFixed ((r.buffer.drop kHeaderSize).take 4) ≠ env.logNumber then
    ({ code := kOldRecord }, { r with buffer := r.buffer.drop (headerSize + length) })
  else if type = RecordType.kZeroType.code ∧ length = 0 then
    ({ code := kBadRecord }, { r with buffer := [] })
  else if env.checksum = true ∧ isNoChecksum type = false ∧
      env.crc32c ((r.buffer.drop 6).take (length + headerSize - 6)) ≠
        env.unmask (Bytes.decodeFixed (r.buffer.take 4)) then
    ({ code := kBadRecordChecksum, dropSize := r.buffer.length }, { r with buffer := [] })
  else
    ({ code := type, fragment := (r.buffer.drop headerSize).take length },
      { r with buffer := r.buffer.drop (headerSize + length) })

-- One pass of the loop of ReadPhysicalRecord, up to the calls of ReadMore.
def parsePhysicalRecord (env : ReaderEnv) (r : Reader) : Option Physical × Reader :=
  match r.buffer with
  | _ :: _ :: _ :: _ :: a :: b :: type :: _ =>
    let length := a.toNat ||| (b.toNat <<< 8)
    if isRecyclableType type = true then
      -- a recycled log should have started with a recycled record
      if r.firstRecordRead = true ∧ r.recycled = false then (some { code := kBadRecord }, r)
      else
        let r := { r with recycled := true }
        if r.buffer.length < kRecyclableHeaderSize then (none, r)
        else
          let (physical, r) := r.parseBody env kRecyclableHeaderSize length type
          (some physical, r)
    else
      let (physical, r) := r.parseBody env kHeaderSize length type
      (some physical, r)
  | _ => (none, r)

def unread (r : Reader) : Nat :=
  r.file.length + if r.eof then 0 else 1

theorem unread_of_readMore (h : readMore r = (none, r')) : r'.unread < r.unread := by
  unfold readMore at h
  split at h
  · rename_i heof
    cases h
    simp only [unread, List.length_drop, List.length_take, heof, decide_eq_true_eq,
      Bool.false_eq_true, if_false]
    by_cases hlt : min kBlockSize r.file.length < kBlockSize
    · rw [if_pos hlt]
      omega
    · have hpos : 0 < kBlockSize := by decide
      rw [if_neg hlt]
      omega
  · split at h <;> cases h

theorem parse_none (h : parsePhysicalRecord env r = (none, r')) :
    r'.file = r.file ∧ r'.eof = r.eof := by
  unfold parsePhysicalRecord at h
  split at h
  · simp only at h
    split at h
    · split at h
      · cases h
      · split at h
        · cases h
          exact ⟨rfl, rfl⟩
        · cases h
    · cases h
  · cases h
    exact ⟨rfl, rfl⟩

def readPhysicalRecord (env : ReaderEnv) (r : Reader) : Physical × Reader :=
  match hparse : r.parsePhysicalRecord env with
  | (some physical, r') => (physical, r')
  | (none, r') =>
    match hmore : r'.readMore with
    | (some physical, r'') => (physical, r'')
    | (none, r'') =>
      have hlt : r''.unread < r.unread := by
        obtain ⟨hfile, heof⟩ := parse_none hparse
        simpa only [unread, hfile, heof] using unread_of_readMore hmore
      readPhysicalRecord env r''
termination_by r.unread

theorem readPhysicalRecord_parsed (h : parsePhysicalRecord env r = (some physical, r')) :
    r.readPhysicalRecord env = (physical, r') := by
  rw [readPhysicalRecord]
  split <;> simp_all

theorem readPhysicalRecord_more (hparse : parsePhysicalRecord env r = (none, r'))
    (hmore : readMore r' = (none, r'')) :
    r.readPhysicalRecord env = r''.readPhysicalRecord env := by
  rw [readPhysicalRecord]
  split <;> simp_all
  split <;> simp_all

theorem readPhysicalRecord_end (hparse : parsePhysicalRecord env r = (none, r'))
    (hmore : readMore r' = (some physical, r'')) :
    r.readPhysicalRecord env = (physical, r'') := by
  rw [readPhysicalRecord]
  split <;> simp_all
  split <;> simp_all

def isFull (code : UInt8) : Bool :=
  code ∈ [RecordType.kFullType.code, RecordType.kRecyclableFullType.code,
    RecordType.kNoChecksumFullType.code, RecordType.kRecyclableNoChecksumFullType.code]

def isFirst (code : UInt8) : Bool :=
  code ∈ [RecordType.kFirstType.code, RecordType.kRecyclableFirstType.code,
    RecordType.kNoChecksumFirstType.code, RecordType.kRecyclableNoChecksumFirstType.code]

def isMiddle (code : UInt8) : Bool :=
  code ∈ [RecordType.kMiddleType.code, RecordType.kRecyclableMiddleType.code,
    RecordType.kNoChecksumMiddleType.code, RecordType.kRecyclableNoChecksumMiddleType.code]

def isLast (code : UInt8) : Bool :=
  code ∈ [RecordType.kLastType.code, RecordType.kRecyclableLastType.code,
    RecordType.kNoChecksumLastType.code, RecordType.kRecyclableNoChecksumLastType.code]

-- The modes in which an incomplete record at the end is an error.
def reportsTornTail (mode : WALRecoveryMode) : Bool :=
  mode == .kAbsoluteConsistency || mode == .kPointInTimeRecovery

inductive Pass where
  | record (data : Bytes) (r : Reader)
  | stop (r : Reader)
  | next (inFragmentedRecord : Bool) (scratch : Bytes) (r : Reader)
  deriving DecidableEq, Repr

-- Where a bad record ends the fragmented record that it interrupts.
def interrupt (inFragmentedRecord : Bool) (scratch : Bytes) (r : Reader) : Pass :=
  if inFragmentedRecord = true then
    .next false [] (r.reportCorruption scratch.length "error in middle of record")
  else .next false scratch r

def setCompression (env : ReaderEnv) (fragment : Bytes) (r : Reader) : Reader :=
  let r := if r.compressionTypeRecordRead = true then
    r.reportCorruption fragment.length "read multiple SetCompressionType records" else r
  let r := if r.firstRecordRead = true then
    r.reportCorruption fragment.length "SetCompressionType not the first record" else r
  if env.decodesCompression fragment = true then { r with compressionTypeRecordRead := true }
  else r.reportCorruption fragment.length "could not decode SetCompressionType record"

def atEof (mode : WALRecoveryMode) (inFragmentedRecord : Bool) (scratch : Bytes) (r : Reader) :
    Pass :=
  if inFragmentedRecord = true ∧ reportsTornTail mode = true then
    .stop (r.reportCorruption scratch.length "error reading trailing data due to encountering EOF")
  else .stop r

-- The switch of ReadRecord over what ReadPhysicalRecord returned.
def dispatch (env : ReaderEnv) (mode : WALRecoveryMode) (inFragmentedRecord : Bool)
    (scratch : Bytes) (physical : Physical) (r : Reader) : Pass :=
  let partialRecord : Bool := inFragmentedRecord && !scratch.isEmpty
  if isFull physical.code = true then
    let r := if partialRecord = true then
      r.reportCorruption scratch.length "partial record without end(1)" else r
    .record physical.fragment { r with firstRecordRead := true }
  else if isFirst physical.code = true then
    let r := if partialRecord = true then
      r.reportCorruption scratch.length "partial record without end(2)" else r
    .next true physical.fragment r
  else if isMiddle physical.code = true then
    if inFragmentedRecord = false then
      .next false scratch
        (r.reportCorruption physical.fragment.length "missing start of fragmented record(1)")
    else .next true (scratch ++ physical.fragment) r
  else if isLast physical.code = true then
    if inFragmentedRecord = false then
      .next false scratch
        (r.reportCorruption physical.fragment.length "missing start of fragmented record(2)")
    else .record (scratch ++ physical.fragment) { r with firstRecordRead := true }
  else if physical.code = RecordType.kSetCompressionType.code then
    .next inFragmentedRecord [] (r.setCompression env physical.fragment)
  else if physical.code = RecordType.kPredecessorWALInfoType.code ∨
      physical.code = RecordType.kRecyclePredecessorWALInfoType.code then
    .next inFragmentedRecord [] (r.reportCorruptions physical.fragment.length
      (env.predecessorReports mode physical.fragment))
  else if physical.code = RecordType.kUserDefinedTimestampSizeType.code ∨
      physical.code = RecordType.kRecyclableUserDefinedTimestampSizeType.code then
    let r := if partialRecord = true then r.reportCorruption scratch.length
      "user-defined timestamp size record interspersed partial record" else r
    .next inFragmentedRecord [] (r.reportCorruptions physical.fragment.length
      (env.timestampReports physical.fragment))
  else if physical.code = kBadHeader then
    atEof mode inFragmentedRecord scratch (if reportsTornTail mode = true then
      r.reportCorruption physical.dropSize "truncated header" else r)
  else if physical.code = kEof then atEof mode inFragmentedRecord scratch r
  else if physical.code = kOldRecord ∧ mode ≠ .kSkipAnyCorruptedRecords then
    if inFragmentedRecord = true then
      if reportsTornTail mode = true then
        .stop (r.reportCorruption scratch.length
          "error reading trailing data due to encountering old record")
      else .stop r
    else if mode = .kPointInTimeRecovery then .stop (r.reportOldLogRecord scratch.length)
    else .stop r
  else if physical.code = kOldRecord ∨ physical.code = kBadRecord then
    interrupt inFragmentedRecord scratch r
  else if physical.code = kBadRecordLen ∧ r.eof = true then
    if reportsTornTail mode = true then
      .stop (r.reportCorruption physical.dropSize "truncated record body")
    else .stop r
  else if physical.code = kBadRecordLen ∨ physical.code = kBadRecordChecksum then
    if r.recycled = true ∧ mode = .kTolerateCorruptedTailRecords then .stop r
    else if physical.code = kBadRecordLen then
      interrupt inFragmentedRecord scratch
        (r.reportCorruption physical.dropSize "bad record length")
    else
      interrupt inFragmentedRecord scratch
        (r.reportCorruption physical.dropSize "checksum mismatch")
  else if physical.code &&& kRecordTypeSafeIgnoreMask = 0 then
    .next false [] (r.reportCorruption
      (physical.fragment.length + if inFragmentedRecord = true then scratch.length else 0)
      ("unknown record type " ++ toString physical.code))
  else .next false [] r

-- A recyclable type met in a log that did not start with one is returned without
-- being consumed, so the loop of the source need not end: `none` is an exhausted bound.
def readRecordLoop (env : ReaderEnv) (mode : WALRecoveryMode) :
    Nat → Bool → Bytes → Reader → Option (Option Bytes × Reader)
  | 0, _, _, _ => none
  | fuel + 1, inFragmentedRecord, scratch, r =>
    let (physical, r') := r.readPhysicalRecord env
    match dispatch env mode inFragmentedRecord scratch physical r' with
    | .record data r'' => some (some data, r'')
    | .stop r'' => some (none, r'')
    | .next inFragmentedRecord' scratch' r'' =>
      readRecordLoop env mode fuel inFragmentedRecord' scratch' r''

def readRecord (env : ReaderEnv) (mode : WALRecoveryMode) (fuel : Nat) (r : Reader) :
    Option (Option Bytes × Reader) :=
  readRecordLoop env mode fuel false [] r

-- The records ReadRecord yields until it first returns false.
def readRecords (env : ReaderEnv) (mode : WALRecoveryMode) (fuel : Nat) :
    Nat → Reader → Option (List Bytes × Reader)
  | 0, _ => none
  | count + 1, r =>
    match r.readRecord env mode fuel with
    | none => none
    | some (none, r') => some ([], r')
    | some (some data, r') =>
      (readRecords env mode fuel count r').map fun (rest, r'') => (data :: rest, r'')

end Reader

end MlkvPlus.Log
