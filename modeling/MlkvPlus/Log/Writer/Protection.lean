import MlkvPlus.Log.Checksum
import MlkvPlus.Log.Reader.Position
import MlkvPlus.Log.Writer.Framing

namespace MlkvPlus.Log

def checksumType : Framing.Kind → RecordType
  | .full => .kFullType
  | .first => .kFirstType
  | .middle => .kMiddleType
  | .last => .kLastType

def physicalRecord (crc : Crc32c) (logNumber : Nat) (kind : Framing.Kind) (data : Bytes) : Bytes :=
  Writer.header crc logNumber (checksumType kind) data ++ data

-- The layout of a log with checksums that is not recycled.
def checksumFrame (crc : Crc32c) (logNumber : Nat) : Framing.Layout UInt8 where
  toFormat := format
  header kind body := Writer.header crc logNumber (checksumType kind) body
  filler := Writer.trailer
  header_length kind body := by cases kind <;> rfl
  filler_length := by decide

theorem encode_checksumFrame (crc : Crc32c) (logNumber : Nat) (piece : Framing.Piece UInt8) :
    (checksumFrame crc logNumber).encode piece = Writer.trailer.take piece.padding ++
      physicalRecord crc logNumber piece.kind piece.body := by
  rw [Framing.Layout.encode, List.append_assoc]
  rfl

theorem Writer.layout_checksum (crc : Crc32c) (w : Writer) (hchecksum : w.walWithChecksum = true)
    (hrecycle : w.recycleLogFiles = false) : w.layout crc = checksumFrame crc w.logNumber := by
  have hkind (kind : Framing.Kind) : w.kindType kind = checksumType kind := by
    cases kind <;> simp only [kindType, fragmentType, hchecksum, hrecycle] <;> rfl
  simp only [layout, hkind, checksumFrame, format, hrecycle]
  rfl

-- The type of a record is the last byte of its shorter header.
def retype (record : Bytes) (byte : UInt8) : Bytes :=
  record.set 6 byte

theorem retype_physicalRecord (hcrc : Crc32c.Lawful crc) (logNumber : Nat) (kind : Framing.Kind)
    (data : Bytes) (byte : UInt8) :
    retype (physicalRecord crc logNumber kind data) byte =
      Bytes.fixed 4 (crc.mask (crc.value ((checksumType kind).code :: data))) ++
        [UInt8.ofNat (data.length &&& 0xff), UInt8.ofNat (data.length >>> 8), byte] ++ data := by
  have hvalue := hcrc.combine_value [(checksumType kind).code] data
  rw [List.singleton_append] at hvalue
  have hchecksum : Writer.checksum crc logNumber (checksumType kind) data =
      crc.mask (crc.value ((checksumType kind).code :: data)) := by
    rw [← hvalue]
    cases kind <;> rfl
  have hheader : Writer.header crc logNumber (checksumType kind) data =
      Bytes.fixed 4 (Writer.checksum crc logNumber (checksumType kind) data) ++
        [UInt8.ofNat (data.length &&& 0xff), UInt8.ofNat (data.length >>> 8),
          (checksumType kind).code] := by
    cases kind <;> rfl
  rw [physicalRecord, hheader, hchecksum]
  rfl

-- Whether a fragment continues the record under way.
def continues : Framing.Kind → Bool
  | .full | .first => false
  | .middle | .last => true

namespace Reader

def pass (env : ReaderEnv) (mode : WALRecoveryMode) (inFragmentedRecord : Bool) (scratch : Bytes)
    (r : Reader) : Pass :=
  let (physical, r') := r.readPhysicalRecord env
  dispatch env mode inFragmentedRecord scratch physical r'

theorem pass_of_read (h : readPhysicalRecord env r = (physical, r')) :
    pass env mode inFragmentedRecord scratch r =
      dispatch env mode inFragmentedRecord scratch physical r' := by
  rw [pass, h]

theorem readRecordLoop_of_pass (env : ReaderEnv) (mode : WALRecoveryMode) (fuel : Nat)
    (inFragmentedRecord : Bool) (scratch : Bytes) (r : Reader) :
    readRecordLoop env mode (fuel + 1) inFragmentedRecord scratch r =
      match pass env mode inFragmentedRecord scratch r with
      | .record data r' => some (some data, r')
      | .stop r' => some (none, r')
      | .next inFragmentedRecord' scratch' r' =>
        readRecordLoop env mode fuel inFragmentedRecord' scratch' r' := rfl

-- The reader has come to a record of the given kind in a log that is intact so far.
structure Facing (kind : Framing.Kind) (record : Bytes) (inFragmentedRecord : Bool)
    (scratch : Bytes) (r : Reader) : Prop where
  buffer : ∃ more, r.buffer = record ++ more
  recycled : r.recycled = false
  fragmented : inFragmentedRecord = continues kind
  scratch : continues kind = false → scratch = []

def Reported (r r' : Reader) : Prop :=
  ∃ bytes reason, .corruption bytes reason ∈ r'.reports.drop r.reports.length

-- The pass gives the record up and reports a corruption.
def Guarded (r : Reader) : Pass → Prop
  | .record _ _ => False
  | .stop r' => Reported r r'
  | .next inFragmentedRecord _ r' => inFragmentedRecord = false ∧ Reported r r'

-- The type bytes under which a record is still protected.
def Detected (kind : Framing.Kind) (data : Bytes) (byte : UInt8) : Prop :=
  if byte = RecordType.kZeroType.code then data ≠ [] ∨ continues kind = true
  else if byte = RecordType.kNoChecksumMiddleType.code ∨
      byte = RecordType.kNoChecksumLastType.code then continues kind = false
  else isRecyclableType byte = false ∧ isNoChecksum byte = false

theorem reported_append (r : Reader) (bytes : Nat) (reason : String) (others : List Report)
    (h : r'.reports = r.reports ++ .corruption bytes reason :: others) : Reported r r' :=
  ⟨bytes, reason, by simp [h]⟩

theorem not_reported_of_eq (h : r'.reports = r.reports) : ¬Reported r r' := by
  rintro ⟨bytes, reason, hmem⟩
  simp [h] at hmem

theorem length_retype (hcrc : crc.Lawful) (logNumber : Nat) (kind : Framing.Kind) (data : Bytes)
    (byte : UInt8) :
    (retype (physicalRecord crc logNumber kind data) byte).length = kHeaderSize + data.length := by
  rw [retype_physicalRecord hcrc]
  simp only [List.length_append, Bytes.length_fixed, List.length_cons, List.length_nil, kHeaderSize]

section Retyped

variable {crc : Crc32c} {kind : Framing.Kind} {data more : Bytes} {byte : UInt8}
variable {r : Reader} {logNumber : Nat} (env : ReaderEnv)
variable (hcrc : crc.Lawful) (hfits : data.length + kHeaderSize ≤ kBlockSize)
variable (hbuffer : r.buffer = retype (physicalRecord crc logNumber kind data) byte ++ more)
include hcrc hfits hbuffer

theorem read_retyped (hrecyclable : isRecyclableType byte = false) :
    r.readPhysicalRecord env = r.parseBody env kHeaderSize data.length byte := by
  have hlt : data.length < 65536 := by
    simp only [kBlockSize] at hfits
    omega
  have hparse : r.parsePhysicalRecord env =
      (some (r.parseBody env kHeaderSize data.length byte).1,
        (r.parseBody env kHeaderSize data.length byte).2) := by
    rw [retype_physicalRecord hcrc] at hbuffer
    simp only [parsePhysicalRecord, hbuffer, Bytes.fixed, List.cons_append, List.nil_append,
      hrecyclable, Bool.false_eq_true, ite_false, header_length, header_length_bytes _ hlt]
  exact readPhysicalRecord_parsed hparse

omit hfits in
theorem length_retyped : ¬r.buffer.length < kHeaderSize + data.length := by
  rw [hbuffer, List.length_append, length_retype hcrc]
  omega

omit hfits in
theorem unmask_stored (henv : env.Verifies crc) :
    env.unmask (Bytes.decodeFixed (r.buffer.take 4)) =
      crc.value ((checksumType kind).code :: data) := by
  have hlt : crc.mask (crc.value ((checksumType kind).code :: data)) < 256 ^ 4 := hcrc.mask_lt _
  rw [hbuffer, retype_physicalRecord hcrc]
  exact (congrArg env.unmask (Bytes.decodeFixed_fixed_of_lt hlt)).trans
    (by rw [henv.unmask, hcrc.unmask_mask])

-- The checksum is over the type byte.
omit hfits in
theorem crc32c_retyped (henv : env.Verifies crc) :
    env.crc32c ((r.buffer.drop 6).take (data.length + kHeaderSize - 6)) =
      crc.value (byte :: data) := by
  have hactual : (r.buffer.drop 6).take (data.length + kHeaderSize - 6) = byte :: data := by
    rw [hbuffer, retype_physicalRecord hcrc]
    exact List.take_left' rfl
  rw [hactual, henv.crc32c]

omit hfits in
theorem fragment_retyped : (r.buffer.drop kHeaderSize).take data.length = data := by
  rw [hbuffer, retype_physicalRecord hcrc]
  exact List.take_left' rfl

omit hfits in
theorem drop_retyped : r.buffer.drop (kHeaderSize + data.length) = more := by
  rw [hbuffer]
  exact List.drop_left' (length_retype hcrc ..)

theorem read_mismatch (henv : env.Verifies crc) (hbyte : byte ≠ (checksumType kind).code)
    (hrecyclable : isRecyclableType byte = false) (hchecksum : isNoChecksum byte = false)
    (hzero : ¬(byte = RecordType.kZeroType.code ∧ data.length = 0)) :
    r.readPhysicalRecord env =
      ({ code := kBadRecordChecksum, dropSize := r.buffer.length }, { r with buffer := [] }) := by
  have hlength := length_retyped hcrc hbuffer
  have hne : env.crc32c ((r.buffer.drop 6).take (data.length + kHeaderSize - 6)) ≠
      env.unmask (Bytes.decodeFixed (r.buffer.take 4)) := by
    rw [unmask_stored env hcrc hbuffer henv, crc32c_retyped env hcrc hbuffer henv]
    exact hcrc.value_ne [] data byte _ hbyte
  rw [read_retyped env hcrc hfits hbuffer hrecyclable]
  simp only [parseBody, hlength, hrecyclable, hzero, hchecksum, henv.checksum, hne, ite_false,
    Bool.false_eq_true, false_and, and_self, ne_eq, not_false_eq_true, ite_true]

-- Without a checksum the record is handed on under its new type.
theorem read_unverified (hrecyclable : isRecyclableType byte = false)
    (hchecksum : isNoChecksum byte = true) :
    r.readPhysicalRecord env =
      ({ code := byte, fragment := data }, { r with buffer := more }) := by
  have hlength := length_retyped hcrc hbuffer
  have hzero : byte ≠ RecordType.kZeroType.code := by
    rintro rfl
    exact absurd hchecksum (by decide)
  rw [read_retyped env hcrc hfits hbuffer hrecyclable]
  simp only [parseBody, hlength, hrecyclable, hzero, hchecksum, fragment_retyped hcrc hbuffer,
    drop_retyped hcrc hbuffer, ite_false, Bool.false_eq_true, Bool.true_eq_false, false_and,
    and_false]

theorem pass_unverified (mode : WALRecoveryMode) (inFragmentedRecord : Bool) (scratch : Bytes)
    (hrecyclable : isRecyclableType byte = false) (hchecksum : isNoChecksum byte = true) :
    pass env mode inFragmentedRecord scratch r =
      dispatch env mode inFragmentedRecord scratch { code := byte, fragment := data }
        { r with buffer := more } :=
  pass_of_read (read_unverified env hcrc hfits hbuffer hrecyclable hchecksum)

theorem read_zero (hbyte : byte = RecordType.kZeroType.code) (hdata : data = []) :
    r.readPhysicalRecord env = ({ code := kBadRecord }, { r with buffer := [] }) := by
  have hlength := length_retyped hcrc hbuffer
  rw [read_retyped env hcrc hfits hbuffer (by rw [hbyte]; decide)]
  subst hbyte hdata
  have hkind : isRecyclableType RecordType.kZeroType.code = false := by decide
  rw [List.length_nil] at hlength
  simp only [parseBody, hlength, hkind, ite_false, Bool.false_eq_true, false_and, List.length_nil,
    and_self, ite_true]

end Retyped

-- The reader has gone past the record, maybe with the rest of the block, and reports a corruption.
structure GoesPast (more : Bytes) (r r' : Reader) : Prop where
  reported : Reported r r'
  buffer : r'.buffer = [] ∨ r'.buffer = more
  file : r'.file = r.file
  eof : r'.eof = r.eof
  recycled : r'.recycled = r.recycled
  reports : r.reports <+: r'.reports

-- A checksum mismatch is reported, whatever the reader is in the middle of.
theorem pass_mismatch (env : ReaderEnv) (mode : WALRecoveryMode) (inFragmentedRecord : Bool)
    (scratch more : Bytes) (r : Reader) (hrecycled : r.recycled = false)
    (hscratch : inFragmentedRecord = false → scratch = [])
    (hread : r.readPhysicalRecord env =
      ({ code := kBadRecordChecksum, dropSize := r.buffer.length }, { r with buffer := [] })) :
    ∃ r', pass env mode inFragmentedRecord scratch r = .next false [] r' ∧ GoesPast more r r' := by
  have hpass : pass env mode inFragmentedRecord scratch r =
      interrupt inFragmentedRecord scratch
        ({ r with buffer := [] }.reportCorruption r.buffer.length "checksum mismatch") := by
    simp only [pass, hread, dispatch, hrecycled]
    rfl
  rw [hpass]
  cases inFragmentedRecord with
  | true =>
    exact ⟨_, rfl, reported_append r r.buffer.length "checksum mismatch"
      [.corruption scratch.length "error in middle of record"] (List.append_assoc _ _ _),
      .inl rfl, rfl, rfl, rfl, (List.prefix_append _ _).trans (List.prefix_append _ _)⟩
  | false =>
    rw [hscratch rfl]
    exact ⟨_, rfl, reported_append r r.buffer.length "checksum mismatch" [] rfl, .inl rfl, rfl,
      rfl, rfl, List.prefix_append _ _⟩

theorem goesPast_report (r : Reader) (more : Bytes) (bytes : Nat) (reason : String)
    {buffer : Bytes} (hbuffer : buffer = [] ∨ buffer = more) :
    GoesPast more r ({ r with buffer := buffer }.reportCorruption bytes reason) :=
  ⟨reported_append r bytes reason [] rfl, hbuffer, rfl, rfl, rfl, List.prefix_append _ _⟩

section Guarded

variable {crc : Crc32c} {env : ReaderEnv} {kind : Framing.Kind} {data : Bytes} {byte : UInt8}
variable (hcrc : crc.Lawful) (henv : env.Verifies crc)
variable (hfits : data.length + kHeaderSize ≤ kBlockSize)
variable (hbyte : byte ≠ (checksumType kind).code)
include hcrc henv hfits hbyte

theorem pass_detected (logNumber : Nat) (hdetected : Detected kind data byte)
    (mode : WALRecoveryMode) {inFragmentedRecord : Bool} {scratch : Bytes} {r : Reader}
    (hrecycled : r.recycled = false) (hfragmented : inFragmentedRecord = continues kind)
    (hscratch : continues kind = false → scratch = [])
    (hbuffer : r.buffer = retype (physicalRecord crc logNumber kind data) byte ++ more) :
    ∃ r', pass env mode inFragmentedRecord scratch r = .next false [] r' ∧ GoesPast more r r' := by
  have hbetween : inFragmentedRecord = false → scratch = [] := hfragmented ▸ hscratch
  unfold Detected at hdetected
  split at hdetected
  · rename_i hzero
    by_cases hdata : data = []
    · -- an empty record of type zero is passed over, but it interrupts a record under way
      have hread := read_zero env hcrc hfits hbuffer hzero hdata
      have hcontinues : inFragmentedRecord = true :=
        hfragmented.trans (hdetected.resolve_left (fun hne => hne hdata))
      refine ⟨_, ?_, goesPast_report r more scratch.length "error in middle of record" (.inl rfl)⟩
      rw [pass_of_read hread, hcontinues]
      rfl
    · have hlength : ¬(byte = RecordType.kZeroType.code ∧ data.length = 0) := by
        rintro ⟨-, hnil⟩
        exact hdata (List.eq_nil_of_length_eq_zero hnil)
      exact pass_mismatch env mode inFragmentedRecord scratch more r hrecycled hbetween
        (read_mismatch env hcrc hfits hbuffer henv hbyte (by rw [hzero]; decide)
          (by rw [hzero]; decide) hlength)
  · split at hdetected
    · rename_i hlate
      -- no record is under way that it could continue
      have hfresh : inFragmentedRecord = false := hfragmented.trans hdetected
      rw [hfresh, hbetween hfresh]
      obtain rfl | rfl := hlate
      · refine ⟨_, ?_, goesPast_report r more data.length "missing start of fragmented record(1)"
          (.inr rfl)⟩
        rw [pass_unverified env hcrc hfits hbuffer mode _ _ (by decide) (by decide)]
        rfl
      · refine ⟨_, ?_, goesPast_report r more data.length "missing start of fragmented record(2)"
          (.inr rfl)⟩
        rw [pass_unverified env hcrc hfits hbuffer mode _ _ (by decide) (by decide)]
        rfl
    · rename_i hnonzero _
      exact pass_mismatch env mode inFragmentedRecord scratch more r hrecycled hbetween
        (read_mismatch env hcrc hfits hbuffer henv hbyte hdetected.1 hdetected.2
          (fun h => hnonzero h.1))

theorem guarded_of_detected (logNumber : Nat) (hdetected : Detected kind data byte)
    (mode : WALRecoveryMode) (inFragmentedRecord : Bool) (scratch : Bytes) (r : Reader)
    (hfacing : Facing kind (retype (physicalRecord crc logNumber kind data) byte)
      inFragmentedRecord scratch r) :
    Guarded r (pass env mode inFragmentedRecord scratch r) := by
  obtain ⟨more, hbuffer⟩ := hfacing.buffer
  obtain ⟨r', hpass, hpast⟩ := pass_detected hcrc henv hfits hbyte logNumber hdetected mode
    hfacing.recycled hfacing.fragmented hfacing.scratch hbuffer
  rw [hpass]
  exact ⟨rfl, hpast.reported⟩

end Guarded

-- The reader of a file that ends with the record.
def atEnd (record : Bytes) : Reader :=
  { file := [], buffer := record, eof := true }

theorem facing_atEnd (kind : Framing.Kind) (record : Bytes) :
    Facing kind record (continues kind) [] (atEnd record) :=
  ⟨⟨[], by simp [atEnd]⟩, rfl, rfl, fun _ => rfl⟩

-- The types without a checksum that are not assigned have the bit that makes them safe
-- to ignore.
theorem dispatch_unassigned (env : ReaderEnv) (mode : WALRecoveryMode) (inFragmentedRecord : Bool)
    (scratch data : Bytes) (byte : UInt8) (r : Reader) (hchecksum : isNoChecksum byte = true)
    (hrecyclable : isRecyclableType byte = false)
    (hother : byte ∉ [RecordType.kNoChecksumFullType.code, RecordType.kNoChecksumFirstType.code,
      RecordType.kNoChecksumMiddleType.code, RecordType.kNoChecksumLastType.code]) :
    dispatch env mode inFragmentedRecord scratch { code := byte, fragment := data } r =
      .next false [] r := by
  have hcodes : ∀ index : Fin 256, isNoChecksum (.ofFin index) = true →
      isRecyclableType (.ofFin index) = false →
      UInt8.ofFin index ∉ [RecordType.kNoChecksumFullType.code,
        RecordType.kNoChecksumFirstType.code, RecordType.kNoChecksumMiddleType.code,
        RecordType.kNoChecksumLastType.code] →
      isFull (.ofFin index) = false ∧ isFirst (.ofFin index) = false ∧
      isMiddle (.ofFin index) = false ∧ isLast (.ofFin index) = false ∧
      UInt8.ofFin index < RecordType.kRecyclableNoChecksumFullType.code ∧
      RecordType.kNoChecksumFullType.code < UInt8.ofFin index ∧
      UInt8.ofFin index &&& kRecordTypeSafeIgnoreMask ≠ 0 := by
    decide +kernel
  have hbyte := hcodes byte.toFin
  rw [UInt8.ofFin_toFin] at hbyte
  obtain ⟨hfull, hfirst, hmiddle, hlast, hlt, hgt, hmask⟩ := hbyte hchecksum hrecyclable hother
  have hne (code : UInt8) (hcode : code < RecordType.kNoChecksumFullType.code ∨
      RecordType.kRecyclableNoChecksumFullType.code < code) : byte ≠ code := by
    rintro rfl
    exact hcode.elim (fun h => UInt8.lt_irrefl _ (UInt8.lt_trans h hgt))
      (fun h => UInt8.lt_irrefl _ (UInt8.lt_trans h hlt))
  have hcompression := hne RecordType.kSetCompressionType.code (.inl (by decide))
  have hinfo := hne RecordType.kPredecessorWALInfoType.code (.inl (by decide))
  have hrecycledInfo := hne RecordType.kRecyclePredecessorWALInfoType.code (.inl (by decide))
  have hsize := hne RecordType.kUserDefinedTimestampSizeType.code (.inl (by decide))
  have hrecycledSize := hne RecordType.kRecyclableUserDefinedTimestampSizeType.code
    (.inl (by decide))
  have hheader := hne kBadHeader (.inr (by decide))
  have heof := hne kEof (.inr (by decide))
  have hold := hne kOldRecord (.inr (by decide))
  have hbad := hne kBadRecord (.inr (by decide))
  have hlength := hne kBadRecordLen (.inr (by decide))
  have hmismatch := hne kBadRecordChecksum (.inr (by decide))
  simp only [dispatch, hfull, hfirst, hmiddle, hlast, hcompression, hinfo, hrecycledInfo, hsize,
    hrecycledSize, hheader, heof, hold, hbad, hlength, hmismatch, hmask, Bool.false_eq_true,
    false_or, false_and, ite_false]

section Lost

variable {crc : Crc32c} {data : Bytes} {byte : UInt8} (env : ReaderEnv) (kind : Framing.Kind)
variable (hcrc : crc.Lawful) (hfits : data.length + kHeaderSize ≤ kBlockSize)
include hcrc hfits

omit hfits in
-- The header of a recycled log is longer than what is left of the file.
theorem parse_recyclable_short (logNumber : Nat) (hrecyclable : isRecyclableType byte = true)
    (hrecord : retype (physicalRecord crc logNumber kind data) byte = record)
    (hshort : record.length < kRecyclableHeaderSize) :
    (atEnd record).parsePhysicalRecord env = (none, { atEnd record with recycled := true }) := by
  rw [retype_physicalRecord hcrc] at hrecord
  simp only [parsePhysicalRecord, atEnd]
  rw [← hrecord] at hshort ⊢
  simp only [Bytes.fixed, List.cons_append, List.nil_append] at hshort ⊢
  simp only [hrecyclable, hshort, ite_true, Bool.false_eq_true, false_and, ite_false]

-- With the longer header the length is too large for what is left of the file.
theorem parse_recyclable_long (logNumber : Nat) (hrecyclable : isRecyclableType byte = true)
    (hrecord : retype (physicalRecord crc logNumber kind data) byte = record)
    (hshort : ¬record.length < kRecyclableHeaderSize) :
    (atEnd record).parsePhysicalRecord env =
      (some { code := kBadRecordLen, dropSize := record.length },
        { atEnd record with recycled := true, buffer := [] }) := by
  have hlt : data.length < 65536 := by
    simp only [kBlockSize] at hfits
    omega
  have hlong : record.length < kRecyclableHeaderSize + data.length := by
    rw [← hrecord, length_retype hcrc]
    simp only [kHeaderSize, kRecyclableHeaderSize]
    omega
  rw [retype_physicalRecord hcrc] at hrecord
  simp only [parsePhysicalRecord, atEnd]
  rw [← hrecord] at hshort hlong ⊢
  simp only [Bytes.fixed, List.cons_append, List.nil_append] at hshort hlong ⊢
  simp only [hrecyclable, hshort, ite_true, Bool.false_eq_true, false_and, ite_false, parseBody,
    header_length, header_length_bytes _ hlt, hlong]

-- Under a recyclable type the record is taken for the torn end of a recycled log.
theorem pass_recyclable (logNumber : Nat) (hrecyclable : isRecyclableType byte = true) :
    ∃ r', pass env .kTolerateCorruptedTailRecords (continues kind) []
        (atEnd (retype (physicalRecord crc logNumber kind data) byte)) = .stop r' ∧
      r'.reports = [] := by
  generalize hrecord : retype (physicalRecord crc logNumber kind data) byte = record
  refine ⟨{ atEnd record with recycled := true, buffer := [] }, ?_, rfl⟩
  by_cases hshort : record.length < kRecyclableHeaderSize
  · have hparse := parse_recyclable_short env kind hcrc logNumber hrecyclable hrecord hshort
    have hmore : ({ atEnd record with recycled := true } : Reader).readMore =
        (some { code := kBadHeader, dropSize := record.length },
          { atEnd record with recycled := true, buffer := [] }) := by
      have hpos : record.length ≠ 0 := by
        rw [← hrecord, length_retype hcrc, kHeaderSize]
        omega
      simp only [readMore, atEnd, Bool.true_eq_false, ite_false, hpos, ne_eq, not_false_eq_true,
        ite_true]
    rw [pass_of_read (readPhysicalRecord_end hparse hmore)]
    cases kind <;> rfl
  · have hparse := parse_recyclable_long env kind hcrc hfits logNumber hrecyclable hrecord hshort
    rw [pass_of_read (readPhysicalRecord_parsed hparse)]
    rfl

theorem lost_of_not_detected (logNumber : Nat) (hlost : ¬Detected kind data byte) :
    ¬Guarded (atEnd (retype (physicalRecord crc logNumber kind data) byte))
      (pass env .kTolerateCorruptedTailRecords (continues kind) []
        (atEnd (retype (physicalRecord crc logNumber kind data) byte))) := by
  generalize hrecord : retype (physicalRecord crc logNumber kind data) byte = record
  have hbuffer : (atEnd record).buffer =
      retype (physicalRecord crc logNumber kind data) byte ++ [] := by
    rw [hrecord, List.append_nil]
    rfl
  unfold Detected at hlost
  split at hlost
  · rename_i hzero
    push Not at hlost
    obtain ⟨hdata, hfresh⟩ := hlost
    rw [pass_of_read (read_zero env hcrc hfits hbuffer hzero hdata), Bool.not_eq_true _ |>.mp hfresh]
    exact fun hguarded => not_reported_of_eq rfl hguarded.2
  · split at hlost
    · rename_i hlate
      rw [Bool.not_eq_false] at hlost
      obtain rfl | rfl := hlate
      · rw [pass_unverified env hcrc hfits hbuffer _ _ _ (by decide) (by decide), hlost]
        exact fun hguarded => absurd hguarded.1 (by decide)
      · rw [pass_unverified env hcrc hfits hbuffer _ _ _ (by decide) (by decide), hlost]
        exact id
    · rename_i hzero hlate
      by_cases hrecyclable : isRecyclableType byte = true
      · obtain ⟨r', hpass, hreports⟩ :=
          pass_recyclable env kind hcrc hfits logNumber hrecyclable
        rw [hrecord] at hpass
        rw [hpass]
        exact not_reported_of_eq hreports
      · rw [Bool.not_eq_true] at hrecyclable
        have hchecksum : isNoChecksum byte = true := by
          rw [← Bool.not_eq_false]
          exact fun h => hlost ⟨hrecyclable, h⟩
        rw [pass_unverified env hcrc hfits hbuffer _ _ _ hrecyclable hchecksum]
        by_cases hfull : byte = RecordType.kNoChecksumFullType.code
        · subst hfull
          exact id
        · by_cases hfirst : byte = RecordType.kNoChecksumFirstType.code
          · subst hfirst
            exact fun hguarded => absurd hguarded.1 (by decide)
          · rw [dispatch_unassigned env _ _ _ _ byte _ hchecksum hrecyclable (by
              push Not at hlate
              simp [hfull, hfirst, hlate])]
            exact fun hguarded => not_reported_of_eq rfl hguarded.2

end Lost

-- In every log, in every recovery mode and wherever the reader is, a record with a
-- changed type byte is given up with a report exactly under the types above.
theorem retyped_guarded_iff (hcrc : Crc32c.Lawful crc) (henv : ReaderEnv.Verifies crc env)
    (logNumber : Nat) (kind : Framing.Kind) (data : Bytes) (byte : UInt8)
    (hfits : data.length + kHeaderSize ≤ kBlockSize) (hbyte : byte ≠ (checksumType kind).code) :
    (∀ mode inFragmentedRecord scratch r,
        Facing kind (retype (physicalRecord crc logNumber kind data) byte) inFragmentedRecord
          scratch r →
        Guarded r (pass env mode inFragmentedRecord scratch r)) ↔ Detected kind data byte := by
  constructor
  · intro hguarded
    by_contra hlost
    exact lost_of_not_detected env kind hcrc hfits logNumber hlost
      (hguarded _ _ _ _ (facing_atEnd kind _))
  · exact guarded_of_detected hcrc henv hfits hbyte logNumber

theorem first_type_guarded : Crc32c.xorSum.Lawful ∧
    Guarded (atEnd (retype (physicalRecord .xorSum 7 .full [1, 2, 3]) 2))
      (pass (.verifying .xorSum 7) .kTolerateCorruptedTailRecords false []
        (atEnd (retype (physicalRecord .xorSum 7 .full [1, 2, 3]) 2))) := by
  refine ⟨Crc32c.xorSum_lawful, (retyped_guarded_iff Crc32c.xorSum_lawful
    (ReaderEnv.verifies_verifying _ 7) 7 .full [1, 2, 3] 2 (by decide) (by decide)).mpr ?_
    _ _ _ _ (facing_atEnd .full _)⟩
  exact ⟨by decide, by decide⟩

-- A file shorter than a block is read at once.
theorem pass_open (env : ReaderEnv) (mode : WALRecoveryMode) (file : Bytes)
    (hlt : file.length < kBlockSize) :
    pass env mode false [] { file := file } = pass env mode false [] (atEnd file) := by
  have hmore : ({ file := file } : Reader).readMore = (none, atEnd file) := by
    simp only [readMore, List.take_of_length_le (Nat.le_of_lt hlt),
      List.drop_eq_nil_of_le (Nat.le_of_lt hlt), decide_eq_true hlt, ite_true, atEnd]
  have hshort : ({ file := file } : Reader).buffer.length < kHeaderSize :=
    show 0 < kHeaderSize by decide
  have hread := readPhysicalRecord_more (parse_short env { file := file } hshort) hmore
  rw [pass, pass, hread]

-- The writer's only record, returned under one type without a checksum and passed over
-- under another.
theorem checksummed_record_lost : ∃ w r r',
    (Writer.create 7 false true false true).addRecords .xorSum [[1, 2, 3]] = (.returned .ok, w) ∧
    readRecord (.verifying .xorSum 7) .kAbsoluteConsistency 2 { file := retype w.dest 140 } =
      some (some [1, 2, 3], r) ∧ r.reports = [] ∧
    readRecord (.verifying .xorSum 7) .kAbsoluteConsistency 2 { file := retype w.dest 141 } =
      some (none, r') ∧ r'.reports = [] := by
  obtain ⟨w, hadd, hlog⟩ := Writer.addRecords_clean .xorSum
    (Writer.create 7 false true false true) ⟨Nat.zero_le _, rfl⟩ [[1, 2, 3]]
  have hdest : w.dest = physicalRecord .xorSum 7 .full [1, 2, 3] := by
    rw [hlog, Writer.layout_checksum _ _ rfl rfl, Framing.Layout.log,
      Framing.Layout.record_of_le _ _ _ _ (by decide), encode_checksumFrame]
    rfl
  have hcrc := Crc32c.xorSum_lawful
  have hfits : [(1 : UInt8), 2, 3].length + kHeaderSize ≤ kBlockSize := by decide
  have hbuffer (byte : UInt8) : (atEnd (retype w.dest byte)).buffer =
      retype (physicalRecord .xorSum 7 .full [1, 2, 3]) byte ++ [] := by
    rw [hdest, List.append_nil]
    rfl
  have hshort (byte : UInt8) : (retype w.dest byte).length < kBlockSize := by
    rw [hdest, retype, List.length_set]
    decide
  have hpass (byte : UInt8) := pass_open (.verifying .xorSum 7) .kAbsoluteConsistency
    (retype w.dest byte) (hshort byte)
  have hreturned := read_unverified (.verifying .xorSum 7) hcrc hfits (hbuffer 140) (by decide)
    (by decide)
  have hskipped := read_unverified (.verifying .xorSum 7) hcrc hfits (hbuffer 141) (by decide)
    (by decide)
  refine ⟨w, { atEnd (retype w.dest 140) with buffer := [], firstRecordRead := true },
    { atEnd (retype w.dest 141) with buffer := [] }, hadd, ?_, rfl, ?_, rfl⟩
  · rw [readRecord, readRecordLoop_of_pass, hpass, pass_of_read hreturned]
    rfl
  · rw [readRecord, readRecordLoop_of_pass, hpass, pass_of_read hskipped,
      dispatch_unassigned _ _ _ _ _ 141 _ (by decide) (by decide) (by decide)]
    have hend := readPhysicalRecord_end (parse_short (.verifying .xorSum 7)
      { atEnd (retype w.dest 141) with buffer := [] } (show 0 < kHeaderSize by decide))
      (show _ = (some { code := kEof }, { atEnd (retype w.dest 141) with buffer := [] }) from rfl)
    simp only [readRecordLoop_of_pass, pass_of_read hend]
    rfl

end Reader

end MlkvPlus.Log
