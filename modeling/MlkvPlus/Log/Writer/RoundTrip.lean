import MlkvPlus.Log.Checksum
import MlkvPlus.Log.Reader.Replay
import MlkvPlus.Log.Writer.Framing

namespace MlkvPlus.Log.Reader

open Writer (noChecksumTypeFor noChecksumFrame)

-- The header of a record of a recycled log.
def recyclableHeader (logNumber : Nat) (kind : Framing.Kind) (length : Nat) : Bytes :=
  header (noChecksumTypeFor true kind) length ++ Bytes.fixed 4 logNumber

theorem length_recyclableHeader (logNumber : Nat) (kind : Framing.Kind) (length : Nat) :
    (recyclableHeader logNumber kind length).length = kRecyclableHeaderSize := rfl

theorem drop_recyclableHeader (logNumber : Nat) (kind : Framing.Kind) (length : Nat) (rest : Bytes) :
    ((recyclableHeader logNumber kind length ++ rest).drop kHeaderSize).take 4 =
      Bytes.fixed 4 logNumber := rfl

-- A recycled log starts with a recyclable record.
def Recycled (r : Reader) : Prop := r.firstRecordRead = true → r.recycled = true

theorem parse_recyclable (env : ReaderEnv) (r : Reader) (kind : Framing.Kind)
    (hrecycled : r.Recycled) (hlt : length < 65536)
    (hbuffer : r.buffer = recyclableHeader logNumber kind length ++ body) :
    r.parsePhysicalRecord env =
      (some ({ r with recycled := true }.parseBody env kRecyclableHeaderSize length
          (noChecksumTypeFor true kind).code).1,
        ({ r with recycled := true }.parseBody env kRecyclableHeaderSize length
          (noChecksumTypeFor true kind).code).2) := by
  have hkind : isRecyclableType (noChecksumTypeFor true kind).code = true := by
    cases kind <;> decide
  have hstart : ¬(r.firstRecordRead = true ∧ r.recycled = false) := by
    rintro ⟨hfirst, hnot⟩
    rw [hrecycled hfirst] at hnot
    cases hnot
  have hlength : ¬r.buffer.length < kRecyclableHeaderSize := by
    rw [hbuffer, List.length_append, length_recyclableHeader]
    omega
  unfold parsePhysicalRecord
  split
  · rename_i a b c d low high type rest hcells
    rw [hcells] at hbuffer
    simp only [recyclableHeader, header, List.cons_append, List.nil_append,
      List.cons.injEq] at hbuffer
    obtain ⟨-, -, -, -, rfl, rfl, rfl, -⟩ := hbuffer
    simp only [hkind, ite_true, hstart, ite_false, hlength, header_length,
      header_length_bytes length hlt]
  · rename_i hshort
    exact absurd hbuffer (hshort _ _ _ _ _ _ _ _)

theorem parseBody_recyclable (env : ReaderEnv) (r : Reader) (kind : Framing.Kind)
    (hlt : logNumber < 2 ^ 32)
    (hbuffer : r.buffer = recyclableHeader logNumber kind body.length ++ body ++ more) :
    r.parseBody env kRecyclableHeaderSize body.length (noChecksumTypeFor true kind).code =
      (if env.logNumber = logNumber then
          { code := (noChecksumTypeFor true kind).code, fragment := body }
        else { code := kOldRecord }, { r with buffer := more }) := by
  have hkind : isRecyclableType (noChecksumTypeFor true kind).code = true := by
    cases kind <;> decide
  have hzero : (noChecksumTypeFor true kind).code ≠ RecordType.kZeroType.code := by
    cases kind <;> decide
  have hchecksum : isNoChecksum (noChecksumTypeFor true kind).code = true := by
    cases kind <;> decide
  have hheader := length_recyclableHeader logNumber kind body.length
  have hfits : ¬r.buffer.length < kRecyclableHeaderSize + body.length := by
    simp only [hbuffer, List.length_append, hheader]
    omega
  have hnumber : Bytes.decodeFixed ((r.buffer.drop kHeaderSize).take 4) = logNumber := by
    rw [hbuffer, List.append_assoc, drop_recyclableHeader, Bytes.decodeFixed_fixed_of_lt hlt]
  have hfragment : (r.buffer.drop kRecyclableHeaderSize).take body.length = body := by
    rw [hbuffer, List.append_assoc, List.drop_left' hheader, List.take_left]
  have hmore : r.buffer.drop (kRecyclableHeaderSize + body.length) = more := by
    rw [hbuffer]
    exact List.drop_left' (by rw [List.length_append, hheader])
  by_cases hsame : env.logNumber = logNumber
  · simp only [parseBody, hfits, hkind, hzero, hchecksum, hfragment, hmore, hnumber, hsame, ite_false,
      ne_eq, not_true_eq_false, Bool.true_eq_false, false_and, and_false, ite_true]
  · have hdiff : logNumber ≠ env.logNumber := fun h => hsame h.symm
    simp only [parseBody, hfits, hkind, hmore, hnumber, hsame, ite_false, ne_eq, hdiff,
      not_false_eq_true, and_self, ite_true]

theorem read_recyclable (env : ReaderEnv) (kind : Framing.Kind) (hlt : logNumber < 2 ^ 32)
    (hfits : offset + kRecyclableHeaderSize + body.length ≤ kBlockSize) (hrecycled : r.Recycled)
    (h : Loaded offset (recyclableHeader logNumber kind body.length ++ body ++ more) r) :
    ∃ r', r.readPhysicalRecord env =
        (if env.logNumber = logNumber then
            { code := (noChecksumTypeFor true kind).code, fragment := body }
          else { code := kOldRecord }, r') ∧
      Loaded (offset + kRecyclableHeaderSize + body.length) more r' ∧ r'.recycled = true ∧
      r'.reports = r.reports := by
  have hframe : offset + (recyclableHeader logNumber kind body.length ++ body).length =
      offset + kRecyclableHeaderSize + body.length := by
    rw [List.length_append, length_recyclableHeader, Nat.add_assoc]
  have hbuffer := h.buffer_append (hframe.trans_le hfits)
  have hlength : body.length < 65536 := by
    simp only [kBlockSize] at hfits
    omega
  have hparse := parse_recyclable env r kind hrecycled hlength
    (hbuffer.trans (List.append_assoc _ _ _))
  rw [parseBody_recyclable env { r with recycled := true } kind hlt hbuffer] at hparse
  refine ⟨_, readPhysicalRecord_parsed hparse, ?_, rfl, rfl⟩
  rw [← hframe]
  exact (h.advance (hframe.trans_le hfits)).congr rfl rfl rfl

theorem SameState.keepsRecycled (h : SameState r r') (hrecycled : r.Recycled) : r'.Recycled := by
  rw [Recycled, h.recycled, h.firstRecordRead]
  exact hrecycled

theorem next_block (env : ReaderEnv) (mode : WALRecoveryMode) (gap rest : Bytes)
    (hgap : gap.length = kBlockSize - offset) (hshort : kBlockSize - offset < kHeaderSize)
    (h : Loaded offset (gap ++ rest) r) :
    ∃ r', Loaded 0 rest r' ∧ SameState r r' ∧ ∀ fuel inFragmentedRecord scratch,
      readRecordLoop env mode fuel inFragmentedRecord scratch r =
        readRecordLoop env mode fuel inFragmentedRecord scratch r' := by
  have hbuffer : r.buffer.length < kHeaderSize := by
    rw [h.buffer, List.length_take]
    omega
  obtain ⟨r', hmore, hloaded, hsame⟩ := readMore_loaded h (by rw [List.length_append]; omega)
  rw [List.drop_left' hgap] at hloaded
  have hread := readPhysicalRecord_more (parse_short env r hbuffer) hmore
  refine ⟨r', hloaded, hsame, ?_⟩
  intro fuel inFragmentedRecord scratch
  cases fuel with
  | zero => rfl
  | succ fuel => rw [readRecordLoop, readRecordLoop, hread]

-- Zeros that could be the shorter header pass for an empty record. Between records that
-- is not reported.
theorem skip_zeros (env : ReaderEnv) (mode : WALRecoveryMode) (rest : Bytes)
    (hlt : kBlockSize - offset < kRecyclableHeaderSize) (hle : kHeaderSize ≤ kBlockSize - offset)
    (h : Loaded offset (Writer.trailer.take (kBlockSize - offset) ++ rest) r) :
    ∃ r', Loaded 0 rest r' ∧ SameState r r' ∧ ∀ fuel,
      readRecordLoop env mode (fuel + 1) false [] r = readRecordLoop env mode fuel false [] r' := by
  have hgap : (Writer.trailer.take (kBlockSize - offset)).length = kBlockSize - offset := by
    rw [List.length_take]
    exact Nat.min_eq_left (Nat.le_of_lt hlt)
  have hbuffer : r.buffer = Writer.trailer.take (kBlockSize - offset) := by
    rw [h.buffer, List.take_left' hgap]
  have hread : r.readPhysicalRecord env = ({ code := kBadRecord }, { r with buffer := [] }) := by
    apply readPhysicalRecord_parsed
    generalize kBlockSize - offset = size at hbuffer hlt hle
    simp only [kRecyclableHeaderSize, kHeaderSize] at hlt hle
    obtain rfl | rfl | rfl | rfl : size = 7 ∨ size = 8 ∨ size = 9 ∨ size = 10 := by omega
    all_goals
      simp only [parsePhysicalRecord, hbuffer, Writer.trailer]
      simp [parseBody, hbuffer, Writer.trailer, kHeaderSize, RecordType.code, isRecyclableType]
  have hloaded : Loaded kBlockSize ([] ++ rest) { r with buffer := [] } := by
    refine ⟨by simp, ?_, ?_⟩
    · simp only [h.file, List.drop_left' hgap, Nat.sub_self, List.drop_zero, List.nil_append]
    · simp only [h.eof, List.length_append, hgap, Nat.sub_self]
      exact decide_eq_decide.mpr (by omega)
  obtain ⟨r', hnext, hsame, hloop⟩ := next_block env mode [] rest (by simp) (by simp [kHeaderSize])
    hloaded
  refine ⟨r', hnext, ⟨hsame.recycled, hsame.firstRecordRead, hsame.reports⟩, ?_⟩
  intro fuel
  rw [readRecordLoop, hread]
  exact hloop fuel false []

-- A fragment that the block has no room for stands at the start of the next one. Zeros are passed
-- over between records only.
theorem enter_block (env : ReaderEnv) (mode : WALRecoveryMode) (inFragmentedRecord : Bool)
    (scratch rest : Bytes) (hgap : kBlockSize - offset < kRecyclableHeaderSize)
    (hbetween : kHeaderSize ≤ kBlockSize - offset → inFragmentedRecord = false ∧ scratch = [])
    (h : Loaded offset (Writer.trailer.take (kBlockSize - offset) ++ rest) r) :
    ∃ r', Loaded 0 rest r' ∧ SameState r r' ∧ ∀ fuel result,
      readRecordLoop env mode fuel inFragmentedRecord scratch r' = some result →
        readRecordLoop env mode (fuel + 1) inFragmentedRecord scratch r = some result := by
  by_cases hshort : kBlockSize - offset < kHeaderSize
  · obtain ⟨r', hloaded, hsame, hloop⟩ := next_block env mode _ _
      (by rw [List.length_take]; exact Nat.min_eq_left (Nat.le_of_lt hgap)) hshort h
    refine ⟨r', hloaded, hsame, ?_⟩
    intro fuel result hresult
    rw [hloop]
    exact readRecordLoop_succ env mode _ _ _ _ hresult
  · obtain ⟨rfl, rfl⟩ := hbetween (Nat.le_of_not_lt hshort)
    obtain ⟨r', hloaded, hsame, hloop⟩ := skip_zeros env mode rest hgap (Nat.le_of_not_lt hshort) h
    refine ⟨r', hloaded, hsame, ?_⟩
    intro fuel result hresult
    rw [hloop]
    exact hresult

theorem dispatch_recyclable (env : ReaderEnv) (mode : WALRecoveryMode) (first last : Bool)
    (scratch body : Bytes) (r : Reader) (hscratch : first = true → scratch = []) :
    dispatch env mode (!first) scratch
        { code := (noChecksumTypeFor true (.of first last)).code, fragment := body } r =
      if last = true then .record (scratch ++ body) { r with firstRecordRead := true }
      else .next true (scratch ++ body) r := by
  cases first with
  | true => cases last <;> simp only [hscratch rfl] <;> rfl
  | false => cases last <;> rfl

section Stream

variable (env : ReaderEnv) (mode : WALRecoveryMode) (hlt : env.logNumber < 2 ^ 32)
include hlt

theorem loop_recyclable (first last : Bool) (scratch : Bytes) (fuel : Nat)
    (hscratch : first = true → scratch = []) (hrecycled : r.Recycled)
    (hfits : offset + kRecyclableHeaderSize + body.length ≤ kBlockSize)
    (h : Loaded offset
      (recyclableHeader env.logNumber (.of first last) body.length ++ body ++ more) r) :
    ∃ r', Loaded (offset + kRecyclableHeaderSize + body.length) more r' ∧ r'.Recycled ∧
      r'.reports = r.reports ∧
      ∀ result, (if last = true then some (some (scratch ++ body), r')
          else readRecordLoop env mode fuel true (scratch ++ body) r') = some result →
        readRecordLoop env mode (fuel + 1) (!first) scratch r = some result := by
  obtain ⟨r₁, hread, hloaded, hrecycled₁, hreports⟩ :=
    read_recyclable env (.of first last) hlt hfits hrecycled h
  rw [if_pos rfl] at hread
  have hloop := readRecordLoop_fragment env mode fuel hread
    (dispatch_recyclable env mode first last scratch body r₁ hscratch)
  cases last with
  | true =>
    refine ⟨{ r₁ with firstRecordRead := true }, hloaded.congr rfl rfl rfl, fun _ => hrecycled₁,
      hreports, ?_⟩
    intro result hresult
    exact hloop.trans hresult
  | false =>
    refine ⟨r₁, hloaded, fun _ => hrecycled₁, hreports, ?_⟩
    intro result hresult
    exact hloop.trans hresult

theorem reads_recyclable : Reads env mode (noChecksumFrame true env.logNumber) Recycled where
  two_le_header := show 2 ≤ kRecyclableHeaderSize by decide
  fragment := by
    intro offset fuel first last body more scratch r hscratch hpadding hroom hrecycled h
    generalize hl : noChecksumFrame true env.logNumber = l at hpadding hroom h ⊢
    have hadd := l.start_add_room offset
    have hheader : l.headerSize = kRecyclableHeaderSize := by rw [← hl]; rfl
    have hblock : l.blockSize = kBlockSize := by rw [← hl]; rfl
    rw [hheader, hblock] at hadd
    have hfits : l.start offset + kRecyclableHeaderSize + body.length ≤ kBlockSize := by omega
    have hencode : l.encode ⟨l.padding offset, .of first last, body⟩ ++ more =
        Writer.trailer.take (l.padding offset) ++
          (recyclableHeader env.logNumber (.of first last) body.length ++ body ++ more) := by
      rw [Framing.Layout.encode, List.append_assoc, List.append_assoc, ← List.append_assoc _ body]
      subst hl
      rfl
    rw [hencode] at h
    rw [hheader]
    by_cases hgap : kBlockSize - offset < kRecyclableHeaderSize
    · have hsize : l.padding offset = kBlockSize - offset := by
        rw [l.padding_of_lt (by rw [hblock, hheader]; exact hgap), hblock]
      have hstart : l.start offset = 0 := l.start_of_lt (by rw [hblock, hheader]; exact hgap)
      rw [hstart] at hfits ⊢
      rw [hsize] at h
      -- only a record that begins is padded
      have hbetween : kHeaderSize ≤ kBlockSize - offset → (!first) = false ∧ scratch = [] := by
        intro hle
        cases first with
        | true => exact ⟨rfl, hscratch rfl⟩
        | false =>
          rw [hpadding rfl] at hsize
          simp only [kHeaderSize] at hle
          omega
      obtain ⟨r₁, hloaded, hsame, hskip⟩ := enter_block env mode (!first) scratch _ hgap hbetween h
      obtain ⟨r', hloaded', hrecycled', hreports, hnext⟩ := loop_recyclable env mode hlt first last
        scratch fuel hscratch (hsame.keepsRecycled hrecycled) hfits hloaded
      refine ⟨r', hloaded', hrecycled', hreports.trans hsame.reports, ?_⟩
      intro result hresult
      exact hskip _ result (hnext result hresult)
    · have hsize : l.padding offset = 0 :=
        l.padding_of_not_lt (by rw [hblock, hheader]; exact hgap)
      have hstart : l.start offset = offset :=
        l.start_of_not_lt (by rw [hblock, hheader]; exact hgap)
      rw [hsize, List.take_zero, List.nil_append] at h
      rw [hstart] at hfits ⊢
      obtain ⟨r', hloaded', hrecycled', hreports, hnext⟩ := loop_recyclable env mode hlt first last
        scratch fuel hscratch hrecycled hfits h
      refine ⟨r', hloaded', hrecycled', hreports, ?_⟩
      intro result hresult
      exact readRecordLoop_succ env mode _ _ _ _ (hnext result hresult)

end Stream

end MlkvPlus.Log.Reader

namespace MlkvPlus.Log.Writer

open Reader

theorem log_recycled_cons (logNumber : Nat) (data : Bytes) (rest : List Bytes) :
    ∃ kind body more, kRecyclableHeaderSize + body.length ≤ kBlockSize ∧
      (noChecksumFrame true logNumber).log kBlockSize (data :: rest) =
        recyclableHeader logNumber kind body.length ++ body ++ more := by
  generalize hl : noChecksumFrame true logNumber = l
  have hadd := l.start_add_room l.blockSize
  have hpadding := l.padding_blockSize
  have hblock : l.blockSize = kBlockSize := by rw [← hl]; rfl
  have hencode (kind : Framing.Kind) (body : Bytes) :
      l.encode ⟨0, kind, body⟩ = recyclableHeader logNumber kind body.length ++ body := by
    rw [← hl]
    rfl
  have hheader : l.headerSize = kRecyclableHeaderSize := by rw [← hl]; rfl
  rw [hheader, hblock] at hadd
  rw [hblock] at hpadding
  rw [Framing.Layout.log]
  by_cases hle : data.length ≤ l.room kBlockSize
  · refine ⟨.of true true, data, l.log (l.after kBlockSize data.length) rest, by omega, ?_⟩
    rw [l.record_of_le kBlockSize true data hle, hpadding, hencode]
  · refine ⟨.of true false, data.take (l.room kBlockSize),
      l.record l.blockSize false (data.drop (l.room kBlockSize)) ++
        l.log (l.after kBlockSize data.length) rest, by rw [List.length_take]; omega, ?_⟩
    rw [l.record_of_lt kBlockSize true data (by omega), hpadding, hencode, List.append_assoc]

theorem readRecords_old (env : ReaderEnv) (logNumber : Nat) (hlt : logNumber < 2 ^ 32)
    (hother : env.logNumber ≠ logNumber) (payloads : List Bytes) (fuel count : Nat) :
    ∃ r, readRecords env .kTolerateCorruptedTailRecords (fuel + 1) (count + 1)
      { file := (noChecksumFrame true logNumber).log kBlockSize payloads } = some ([], r) := by
  have hloaded := loaded_open ((noChecksumFrame true logNumber).log kBlockSize payloads)
  suffices hstop : ∃ r, readRecord env .kTolerateCorruptedTailRecords (fuel + 1)
      { file := (noChecksumFrame true logNumber).log kBlockSize payloads } = some (none, r) by
    obtain ⟨r, hread⟩ := hstop
    exact ⟨r, by simp only [readRecords, hread]⟩
  cases payloads with
  | nil =>
    obtain ⟨r, hread, _⟩ := readRecord_nil env .kTolerateCorruptedTailRecords (fuel + 1)
      (Nat.succ_pos fuel) hloaded
    exact ⟨r, hread⟩
  | cons data rest =>
    obtain ⟨kind, body, more, hfits, hlog⟩ := log_recycled_cons logNumber data rest
    rw [hlog] at hloaded ⊢
    obtain ⟨r₁, hnext, hsame, hloop⟩ := next_block env .kTolerateCorruptedTailRecords [] _
      (by simp) (by simp [kHeaderSize]) hloaded
    have hrecycled : r₁.Recycled := by
      rw [Recycled, hsame.firstRecordRead]
      intro hfirst
      cases hfirst
    obtain ⟨r₂, hread, _⟩ := read_recyclable env kind hlt
      (show 0 + kRecyclableHeaderSize + body.length ≤ kBlockSize by omega) hrecycled hnext
    rw [if_neg hother] at hread
    refine ⟨r₂, ?_⟩
    rw [readRecord, hloop, readRecordLoop, hread]
    rfl

-- What the writer wrote without checksums the reader returns, without a report, in every
-- recovery mode. Under another number the records of a recycled log are not returned.
theorem noChecksum_roundTrip (crc : Crc32c) (logNumber : Nat) (hlt : logNumber < 2 ^ 32)
    (recycleLogFiles manualFlush assertions : Bool) (payloads : List Bytes) :
    ∃ w, (create logNumber recycleLogFiles false manualFlush assertions).addRecords crc payloads =
        (.returned .ok, w) ∧
      (∀ env mode extra, env.logNumber = logNumber →
        ∃ r, readRecords env mode (w.dest.length + 1 + extra) (w.dest.length + 1 + extra)
            { file := w.dest } = some (payloads, r) ∧ r.reports = []) ∧
      (recycleLogFiles = true → ∀ env extra, env.logNumber ≠ logNumber →
        ∃ r, readRecords env .kTolerateCorruptedTailRecords (w.dest.length + 1 + extra)
          (w.dest.length + 1 + extra) { file := w.dest } = some ([], r)) := by
  obtain ⟨w, hadd, hdest⟩ :=
    addRecords_create crc logNumber recycleLogFiles manualFlush assertions payloads
  rw [Framing.Layout.log_zero] at hdest
  refine ⟨w, hadd, ?_, ?_⟩
  · intro env mode extra hsame
    have hloaded := loaded_open w.dest
    have hcount := (noChecksumFrame recycleLogFiles logNumber).count_le_length_log kBlockSize payloads
    rw [hdest] at hloaded ⊢
    cases recycleLogFiles with
    | false =>
      obtain ⟨r, hread, hreports, _⟩ := (reads_noChecksum env mode trailer (by decide) false).whole
        payloads kBlockSize _ _ _ (Nat.lt_of_lt_of_le (Nat.lt_succ_self _) (Nat.le_add_right _ extra))
        (Nat.lt_of_lt_of_le (Nat.lt_succ_of_le hcount) (Nat.le_add_right _ extra)) rfl hloaded
      exact ⟨r, hread, hreports⟩
    | true =>
      subst hsame
      obtain ⟨r, hread, hreports, _⟩ := (reads_recyclable env mode hlt).whole
        payloads kBlockSize _ _ _ (Nat.lt_of_lt_of_le (Nat.lt_succ_self _) (Nat.le_add_right _ extra))
        (Nat.lt_of_lt_of_le (Nat.lt_succ_of_le hcount) (Nat.le_add_right _ extra))
        (by rintro ⟨⟩) hloaded
      exact ⟨r, hread, hreports⟩
  · rintro rfl env extra hother
    rw [hdest, Nat.add_right_comm]
    exact readRecords_old env logNumber hlt hother payloads _ _

theorem noChecksum_roundTrip_recycled : 5 < 2 ^ 32 ∧
    ∃ w, (create 5 true false false true).addRecords .xorSum [[1, 2], []] = (.returned .ok, w) ∧
      (∃ r, readRecords (.verifying .xorSum 5) .kAbsoluteConsistency (w.dest.length + 1)
        (w.dest.length + 1) { file := w.dest } = some ([[1, 2], []], r) ∧ r.reports = []) ∧
      ∃ r, readRecords (.verifying .xorSum 6) .kTolerateCorruptedTailRecords (w.dest.length + 1)
        (w.dest.length + 1) { file := w.dest } = some ([], r) := by
  obtain ⟨w, hadd, hsame, hother⟩ :=
    noChecksum_roundTrip .xorSum 5 (by decide) true false true [[1, 2], []]
  exact ⟨by decide, w, hadd, hsame (.verifying .xorSum 5) .kAbsoluteConsistency 0 rfl,
    hother rfl (.verifying .xorSum 6) 0 (by decide)⟩

end MlkvPlus.Log.Writer
