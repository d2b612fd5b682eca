import MlkvPlus.Log.Reader

namespace MlkvPlus.Log

-- What the reads of a file that another process appends to find, in their order: the contents of
-- the file at that time, or a failure behind some bytes.
abbrev GrowingFile := Nat → Except (Nat × String) Bytes

-- A reader that keeps the fragments of an incomplete record for the next call. `reads` counts the
-- reads of the file.
structure FragmentBufferedReader where
  buffer : Bytes := []
  eof : Bool := false
  readError : Bool := false
  eofOffset : Nat := 0
  endOfBufferOffset : Nat := 0
  lastRecordOffset : Nat := 0
  recycled : Bool := false
  firstRecordRead : Bool := false
  compressionTypeRecordRead : Bool := false
  fragments : Bytes := []
  inFragmentedRecord : Bool := false
  reports : List Report := []
  reads : Nat := 0
  deriving DecidableEq, Repr

namespace FragmentBufferedReader

def reportDrop (r : FragmentBufferedReader) (bytes : Nat) (reason : String) :
    FragmentBufferedReader :=
  { r with reports := r.reports ++ [.corruption bytes reason] }

def reportDrops (r : FragmentBufferedReader) (bytes : Nat) (reasons : List String) :
    FragmentBufferedReader :=
  reasons.foldl (fun r reason => r.reportDrop bytes reason) r

-- The rest of a block of which a part was read.
def unmarkEOFInternal (file : GrowingFile) (r : FragmentBufferedReader) :
    FragmentBufferedReader :=
  let remaining := kBlockSize - r.eofOffset
  match file r.reads with
  | .error (added, status) =>
    let r := { r with
      reads := r.reads + 1
      endOfBufferOffset := r.endOfBufferOffset + added }
    let r := if 0 < added then r.reportDrop added status else r
    { r with readError := true }
  | .ok contents =>
    let read := (contents.drop r.endOfBufferOffset).take remaining
    let r := { r with
      reads := r.reads + 1
      endOfBufferOffset := r.endOfBufferOffset + read.length
      buffer := r.buffer ++ read }
    if read.length < remaining then { r with eof := true, eofOffset := r.eofOffset + read.length }
    else { r with eofOffset := 0 }

def unmarkEOF (file : GrowingFile) (r : FragmentBufferedReader) : FragmentBufferedReader :=
  if r.readError = true then r else unmarkEOFInternal file { r with eof := false }

-- The next block. What is left in the buffer is a trailer to skip.
def readBlock (file : GrowingFile) (r : FragmentBufferedReader) : Bool × FragmentBufferedReader :=
  match file r.reads with
  | .error (added, status) =>
    let r := { r with
      reads := r.reads + 1
      endOfBufferOffset := r.endOfBufferOffset + added
      buffer := [] }
    (false, { r.reportDrop kBlockSize status with readError := true })
  | .ok contents =>
    let block := (contents.drop r.endOfBufferOffset).take kBlockSize
    let r := { r with
      reads := r.reads + 1
      endOfBufferOffset := r.endOfBufferOffset + block.length
      buffer := block }
    if block.length < kBlockSize then (true, { r with eof := true, eofOffset := block.length })
    else (true, r)

def tryReadMore (file : GrowingFile) (r : FragmentBufferedReader) :
    Bool × FragmentBufferedReader :=
  if r.eof = false ∧ r.readError = false then r.readBlock file
  else
    let r := if r.readError = false then r.unmarkEOF file else r
    if r.readError = false then (true, r) else (false, { r with buffer := [] })

-- The loops of TryReadFragment that wait for `need` bytes. They end with false when a read fails
-- or leaves the size of the buffer as it was. `none` is an exhausted bound.
def fill (file : GrowingFile) (need : Nat) :
    Nat → FragmentBufferedReader → Option (Bool × FragmentBufferedReader)
  | 0, _ => none
  | bound + 1, r =>
    if need ≤ r.buffer.length then some (true, r)
    else
      match r.tryReadMore file with
      | (false, r') => some (false, r')
      | (true, r') =>
        if r'.buffer.length = r.buffer.length then some (false, r')
        else fill file need bound r'

-- Behind the checks of the header, with the whole record in the buffer.
def takeFragment (env : ReaderEnv) (r : FragmentBufferedReader) (headerSize length : Nat)
    (type : UInt8) : Physical × FragmentBufferedReader :=
  if type = RecordType.kZeroType.code ∧ length = 0 then
    ({ code := kBadRecord }, { r with buffer := [] })
  else if env.checksum = true ∧ isNoChecksum type = false ∧
      env.crc32c ((r.buffer.drop 6).take (length + headerSize - 6)) ≠
        env.unmask (Bytes.decodeFixed (r.buffer.take 4)) then
    ({ code := kBadRecordChecksum, dropSize := r.buffer.length }, { r with buffer := [] })
  else
    ({ code := type, fragment := (r.buffer.drop headerSize).take length },
      { r with buffer := r.buffer.drop (headerSize + length) })

-- The body of a record, once its header is in the buffer.
def tryReadBody (env : ReaderEnv) (file : GrowingFile) (bound : Nat) (r : FragmentBufferedReader)
    (headerSize length : Nat) (type : UInt8) :
    Option (Option Physical × FragmentBufferedReader) := do
  let (filled, r) ← r.fill file (headerSize + length) bound
  if filled = false then some (none, r)
  else
    let (physical, r) := r.takeFragment env headerSize length type
    some (some physical, r)

-- A recyclable record that is bad or old is left in the buffer.
def tryReadRecyclable (env : ReaderEnv) (file : GrowingFile) (bound : Nat)
    (r : FragmentBufferedReader) (length : Nat) (type : UInt8) :
    Option (Option Physical × FragmentBufferedReader) := do
  if r.firstRecordRead = true ∧ r.recycled = false then
    some (some { code := kBadRecord }, r)
  else
    let (filled, r) ← { r with recycled := true }.fill file kRecyclableHeaderSize bound
    if filled = false then some (none, r)
    else if Bytes.decodeFixed ((r.buffer.drop kHeaderSize).take 4) ≠ env.logNumber then
      some (some { code := kOldRecord }, r)
    else r.tryReadBody env file bound kRecyclableHeaderSize length type

-- The result is `none` where the source returns false.
def tryReadFragment (env : ReaderEnv) (file : GrowingFile) (bound : Nat)
    (r : FragmentBufferedReader) : Option (Option Physical × FragmentBufferedReader) := do
  let (filled, r) ← r.fill file kHeaderSize bound
  if filled = false then some (none, r)
  else
    match r.buffer with
    | _ :: _ :: _ :: _ :: a :: b :: type :: _ =>
      let length := a.toNat ||| (b.toNat <<< 8)
      if isRecyclableType type = true then r.tryReadRecyclable env file bound length type
      else r.tryReadBody env file bound kHeaderSize length type
    | _ => some (none, r)

-- How one pass of the loop of ReadRecord ends. `next` carries prospective_record_offset.
inductive Pass where
  | record (data : Bytes) (r : FragmentBufferedReader)
  | stop (r : FragmentBufferedReader)
  | next (prospective : Nat) (r : FragmentBufferedReader)
  deriving DecidableEq, Repr

def interrupt (r : FragmentBufferedReader) : FragmentBufferedReader :=
  if r.inFragmentedRecord = true then
    { r.reportDrop r.fragments.length "error in middle of record" with
      inFragmentedRecord := false
      fragments := [] }
  else r

def setCompression (env : ReaderEnv) (fragment : Bytes) (r : FragmentBufferedReader) :
    FragmentBufferedReader :=
  if env.decodesCompression fragment = true then { r with compressionTypeRecordRead := true }
  else r.reportDrop fragment.length "could not decode SetCompressionType record"

-- A record that carries metadata starts at the offset at which the call began.
def beginMetadata (offset : Nat) (r : FragmentBufferedReader) : FragmentBufferedReader :=
  { r with fragments := [], lastRecordOffset := offset, inFragmentedRecord := false }

-- The switch of ReadRecord. `offset` is physical_record_offset, which is not advanced in a call.
def dispatch (env : ReaderEnv) (mode : WALRecoveryMode) (offset prospective : Nat)
    (physical : Physical) (r : FragmentBufferedReader) : Pass :=
  let fragment := physical.fragment
  if Reader.isFull physical.code = true then
    let r := if r.inFragmentedRecord = true ∧ r.fragments ≠ [] then
      r.reportDrop r.fragments.length "partial record without end(1)" else r
    .record fragment { r with
      fragments := []
      lastRecordOffset := offset
      firstRecordRead := true
      inFragmentedRecord := false }
  else if Reader.isFirst physical.code = true then
    let r := if r.inFragmentedRecord = true ∨ r.fragments ≠ [] then
      r.reportDrop r.fragments.length "partial record without end(2)" else r
    .next offset { r with fragments := fragment, inFragmentedRecord := true }
  else if Reader.isMiddle physical.code = true then
    if r.inFragmentedRecord = false then
      .next prospective (r.reportDrop fragment.length "missing start of fragmented record(1)")
    else .next prospective { r with fragments := r.fragments ++ fragment }
  else if Reader.isLast physical.code = true then
    if r.inFragmentedRecord = false then
      .next prospective (r.reportDrop fragment.length "missing start of fragmented record(2)")
    else
      .record (r.fragments ++ fragment) { r with
        fragments := []
        lastRecordOffset := prospective
        firstRecordRead := true
        inFragmentedRecord := false }
  else if physical.code = RecordType.kSetCompressionType.code then
    let r := if r.compressionTypeRecordRead = true then
      r.reportDrop fragment.length "read multiple SetCompressionType records" else r
    let r := if r.firstRecordRead = true then
      r.reportDrop fragment.length "SetCompressionType not the first record" else r
    .next offset ((r.beginMetadata offset).setCompression env fragment)
  else if physical.code = RecordType.kPredecessorWALInfoType.code ∨
      physical.code = RecordType.kRecyclePredecessorWALInfoType.code then
    .next offset ((r.beginMetadata offset).reportDrops fragment.length
      (env.predecessorReports mode fragment))
  else if physical.code = RecordType.kUserDefinedTimestampSizeType.code ∨
      physical.code = RecordType.kRecyclableUserDefinedTimestampSizeType.code then
    -- the check for an interrupted record looks at the scratch string, which is empty here
    .next offset ((r.beginMetadata offset).reportDrops fragment.length
      (env.timestampReports fragment))
  else if physical.code = kBadHeader ∨ physical.code = kBadRecord ∨ physical.code = kEof ∨
      physical.code = kOldRecord then
    .next prospective r.interrupt
  else if physical.code = kBadRecordChecksum then
    if r.recycled = true then .stop { r with fragments := [] }
    else .next prospective (r.reportDrop physical.dropSize "checksum mismatch").interrupt
  else
    let r := if physical.code &&& kRecordTypeSafeIgnoreMask = 0 then
      r.reportDrop
        (fragment.length + if r.inFragmentedRecord = true then r.fragments.length else 0)
        ("unknown record type " ++ toString physical.code) else r
    .next prospective { r with inFragmentedRecord := false, fragments := [] }

def readRecordLoop (env : ReaderEnv) (mode : WALRecoveryMode) (file : GrowingFile)
    (bound offset : Nat) :
    Nat → Nat → FragmentBufferedReader → Option (Option Bytes × FragmentBufferedReader)
  | 0, _, _ => none
  | fuel + 1, prospective, r =>
    match r.tryReadFragment env file bound with
    | none => none
    | some (none, r') => some (none, r')
    | some (some physical, r') =>
      match dispatch env mode offset prospective physical r' with
      | .record data r'' => some (some data, r'')
      | .stop r'' => some (none, r'')
      | .next prospective' r'' =>
        readRecordLoop env mode file bound offset fuel prospective' r''

-- One call of ReadRecord. The bounds are for the loops that wait for bytes and for the passes.
def readRecord (env : ReaderEnv) (mode : WALRecoveryMode) (file : GrowingFile) (bound fuel : Nat)
    (r : FragmentBufferedReader) : Option (Option Bytes × FragmentBufferedReader) :=
  readRecordLoop env mode file bound (r.endOfBufferOffset - r.buffer.length) fuel 0 r

-- Several calls: each returns a record or nothing yet.
def readRecords (env : ReaderEnv) (mode : WALRecoveryMode) (file : GrowingFile)
    (bound fuel : Nat) :
    Nat → FragmentBufferedReader → Option (List (Option Bytes) × FragmentBufferedReader)
  | 0, r => some ([], r)
  | calls + 1, r => do
      let (result, r) ← r.readRecord env mode file bound fuel
      let (results, r) ← readRecords env mode file bound fuel calls r
      some (result :: results, r)

end FragmentBufferedReader

end MlkvPlus.Log
