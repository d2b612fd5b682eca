import MlkvPlus.Log.Reader.Dispatch

namespace MlkvPlus.Log.Reader

-- The reader has used `offset` bytes of its block and `rest` is what follows. The
-- last block read is the short one exactly when `rest` ends inside the block.
structure Loaded (offset : Nat) (rest : Bytes) (r : Reader) : Prop where
  buffer : r.buffer = rest.take (kBlockSize - offset)
  file : r.file = rest.drop (kBlockSize - offset)
  eof : r.eof = decide (rest.length < kBlockSize - offset)

theorem loaded_open (file : Bytes) : Loaded kBlockSize file { file := file } where
  buffer := by simp
  file := by simp
  eof := by simp

theorem Loaded.congr (h : Loaded offset rest r) (hbuffer : r'.buffer = r.buffer)
    (hfile : r'.file = r.file) (heof : r'.eof = r.eof) : Loaded offset rest r' :=
  ⟨hbuffer.trans h.buffer, hfile.trans h.file, heof.trans h.eof⟩

-- What a change of block leaves as it was.
structure SameState (r r' : Reader) : Prop where
  recycled : r'.recycled = r.recycled
  firstRecordRead : r'.firstRecordRead = r.firstRecordRead
  reports : r'.reports = r.reports

theorem SameState.refl (r : Reader) : SameState r r := ⟨rfl, rfl, rfl⟩

theorem SameState.trans (h : SameState r r') (h' : SameState r' r'') : SameState r r'' :=
  ⟨h'.recycled.trans h.recycled, h'.firstRecordRead.trans h.firstRecordRead,
    h'.reports.trans h.reports⟩

section Consume

variable {frame more : Bytes} (hfits : offset + frame.length ≤ kBlockSize)
include hfits

theorem rest_of_block :
    kBlockSize - offset = frame.length + (kBlockSize - (offset + frame.length)) := by
  omega

theorem Loaded.buffer_append (h : Loaded offset (frame ++ more) r) :
    r.buffer = frame ++ more.take (kBlockSize - (offset + frame.length)) := by
  rw [h.buffer, rest_of_block hfits, List.take_length_add_append]

theorem Loaded.advance (h : Loaded offset (frame ++ more) r) :
    Loaded (offset + frame.length) more
      { r with buffer := more.take (kBlockSize - (offset + frame.length)) } where
  buffer := rfl
  file := by
    simp only [h.file]
    rw [rest_of_block hfits, List.drop_length_add_append]
  eof := by
    simp only [h.eof, List.length_append]
    congr 1
    rw [eq_iff_iff]
    omega

end Consume

theorem parse_short (env : ReaderEnv) (r : Reader) (hlt : r.buffer.length < kHeaderSize) :
    r.parsePhysicalRecord env = (none, r) := by
  unfold parsePhysicalRecord
  split
  · rename_i hbuffer
    simp only [hbuffer, List.length_cons, kHeaderSize] at hlt
    omega
  · rfl

theorem readMore_loaded (h : Loaded offset rest r) (hle : kBlockSize - offset ≤ rest.length) :
    ∃ r', r.readMore = (none, r') ∧ Loaded 0 (rest.drop (kBlockSize - offset)) r' ∧
      SameState r r' := by
  have heof : r.eof = false := by
    rw [h.eof]
    exact decide_eq_false (by omega)
  refine ⟨_, if_pos heof, ⟨?_, ?_, ?_⟩, ⟨rfl, rfl, rfl⟩⟩
  · simp only [h.file, Nat.sub_zero]
  · simp only [h.file, Nat.sub_zero]
  · have hiff : min kBlockSize (rest.drop (kBlockSize - offset)).length < kBlockSize ↔
        (rest.drop (kBlockSize - offset)).length < kBlockSize := by omega
    simp only [h.file, List.length_take, hiff, Nat.sub_zero]

theorem skip_trailer (env : ReaderEnv) (h : Loaded offset rest r)
    (htrailer : kBlockSize - offset < kHeaderSize) (hle : kBlockSize - offset ≤ rest.length) :
    ∃ r', Loaded 0 (rest.drop (kBlockSize - offset)) r' ∧ SameState r r' ∧
      r.readPhysicalRecord env = r'.readPhysicalRecord env := by
  have hshort : r.buffer.length < kHeaderSize := by
    rw [h.buffer, List.length_take]
    omega
  obtain ⟨r', hmore, hloaded, hsame⟩ := readMore_loaded h hle
  exact ⟨r', hloaded, hsame, readPhysicalRecord_more (parse_short env r hshort) hmore⟩

-- The ways in which a read meets the end of a log that is cut short.
structure Torn (physical : Physical) (r : Reader) : Prop where
  code : physical.code = kEof ∨ physical.code = kBadHeader ∨
    physical.code = kBadRecordLen ∧ r.eof = true

theorem read_short (env : ReaderEnv) (h : Loaded offset rest r)
    (hshort : rest.length < kHeaderSize) (hlt : rest.length < kBlockSize - offset) :
    ∃ physical r', r.readPhysicalRecord env = (physical, r') ∧ Torn physical r' ∧
      r'.reports = r.reports ∧ (rest = [] → physical.code = kEof ∧ r'.buffer = [] ∧ r'.file = []) := by
  have heof : r.eof = true := by
    rw [h.eof]
    exact decide_eq_true hlt
  have hbuffer : r.buffer = rest := by
    rw [h.buffer, List.take_of_length_le (Nat.le_of_lt hlt)]
  have hfile : r.file = [] := by
    rw [h.file, List.drop_eq_nil_of_le (Nat.le_of_lt hlt)]
  have hparse := parse_short env r (by rw [hbuffer]; exact hshort)
  by_cases hempty : r.buffer.length = 0
  · refine ⟨{ code := kEof }, { r with buffer := [] }, ?_, ⟨.inl rfl⟩, rfl, fun _ => ⟨rfl, rfl, hfile⟩⟩
    exact readPhysicalRecord_end hparse (by simp [readMore, heof, hempty])
  · refine ⟨{ code := kBadHeader, dropSize := r.buffer.length }, { r with buffer := [] }, ?_,
      ⟨.inr (.inl rfl)⟩, rfl, ?_⟩
    · exact readPhysicalRecord_end hparse (by simp [readMore, heof, hempty])
    · intro hnil
      rw [hbuffer, hnil] at hempty
      exact absurd rfl hempty

theorem header_length (low high : UInt8) :
    low.toNat ||| (high.toNat <<< 8) = low.toNat + 256 * high.toNat := by
  have hlow : low.toNat < 2 ^ 8 := low.toNat_lt
  rw [Nat.or_comm, ← Nat.shiftLeft_add_eq_or_of_lt hlow, Nat.shiftLeft_eq]
  omega

theorem parse_header (env : ReaderEnv) (r : Reader) (kind : Framing.Kind) (hlt : length < 65536)
    (hbuffer : r.buffer = header (noChecksumType kind) length ++ body) :
    r.parsePhysicalRecord env =
      (some (r.parseBody env kHeaderSize length (noChecksumType kind).code).1,
        (r.parseBody env kHeaderSize length (noChecksumType kind).code).2) := by
  have hkind : isRecyclableType (noChecksumType kind).code = false := by
    cases kind <;> decide
  simp only [parsePhysicalRecord, hbuffer, header, List.cons_append, List.nil_append, hkind,
    Bool.false_eq_true, ite_false, header_length, header_length_bytes length hlt]

theorem parseBody_complete (env : ReaderEnv) (r : Reader) (kind : Framing.Kind)
    (hbuffer : r.buffer = header (noChecksumType kind) body.length ++ body ++ more) :
    r.parseBody env kHeaderSize body.length (noChecksumType kind).code =
      ({ code := (noChecksumType kind).code, fragment := body }, { r with buffer := more }) := by
  have hkind : isRecyclableType (noChecksumType kind).code = false := by
    cases kind <;> decide
  have hzero : (noChecksumType kind).code ≠ RecordType.kZeroType.code := by
    cases kind <;> decide
  have hchecksum : isNoChecksum (noChecksumType kind).code = true := by
    cases kind <;> decide
  have hheader : (header (noChecksumType kind) body.length).length = kHeaderSize := rfl
  have hfits : ¬r.buffer.length < kHeaderSize + body.length := by
    simp only [hbuffer, List.length_append, hheader]
    omega
  have hfragment : (r.buffer.drop kHeaderSize).take body.length = body := by
    rw [hbuffer, List.append_assoc, List.drop_left' hheader, List.take_left]
  have hmore : r.buffer.drop (kHeaderSize + body.length) = more := by
    rw [hbuffer]
    exact List.drop_left' (by rw [List.length_append, hheader])
  simp only [parseBody, hfits, hkind, hzero, hchecksum, hfragment, hmore, ite_false,
    Bool.false_eq_true, Bool.true_eq_false, false_and, and_false]

theorem parseBody_torn (env : ReaderEnv) (r : Reader) (type : UInt8)
    (hlt : r.buffer.length < kHeaderSize + length) :
    r.parseBody env kHeaderSize length type =
      ({ code := kBadRecordLen, dropSize := r.buffer.length }, { r with buffer := [] }) := by
  simp only [parseBody, hlt, ite_true]

theorem read_fragment (env : ReaderEnv) (kind : Framing.Kind)
    (hfits : offset + kHeaderSize + body.length ≤ kBlockSize)
    (h : Loaded offset (header (noChecksumType kind) body.length ++ body ++ more) r) :
    ∃ r', r.readPhysicalRecord env =
        ({ code := (noChecksumType kind).code, fragment := body }, r') ∧
      Loaded (offset + kHeaderSize + body.length) more r' ∧ SameState r r' := by
  have hframe : offset + (header (noChecksumType kind) body.length ++ body).length =
      offset + kHeaderSize + body.length := by
    rw [List.length_append, Nat.add_assoc]
    rfl
  have hbuffer := h.buffer_append (hframe.trans_le hfits)
  have hlt : body.length < 65536 := by
    simp only [kBlockSize] at hfits
    omega
  have hparse := parse_header env r kind hlt (hbuffer.trans (List.append_assoc _ _ _))
  rw [parseBody_complete env r kind hbuffer] at hparse
  refine ⟨_, readPhysicalRecord_parsed hparse, ?_, ⟨rfl, rfl, rfl⟩⟩
  rw [← hframe]
  exact h.advance (hframe.trans_le hfits)

theorem read_torn_fragment (env : ReaderEnv) (kind : Framing.Kind)
    (hfits : offset + kHeaderSize + body.length ≤ kBlockSize)
    (hcut : cut < kHeaderSize + body.length)
    (h : Loaded offset ((header (noChecksumType kind) body.length ++ body).take cut) r) :
    ∃ physical r', r.readPhysicalRecord env = (physical, r') ∧ Torn physical r' ∧
      r'.reports = r.reports := by
  have hheader : (header (noChecksumType kind) body.length).length = kHeaderSize := rfl
  have hlength : ((header (noChecksumType kind) body.length ++ body).take cut).length = cut := by
    rw [List.length_take, List.length_append, hheader]
    omega
  by_cases hshort : cut < kHeaderSize
  · obtain ⟨physical, r', hread, htorn, hreports, _⟩ :=
      read_short env h (by omega) (by omega)
    exact ⟨physical, r', hread, htorn, hreports⟩
  · have hbuffer : r.buffer =
        header (noChecksumType kind) body.length ++ body.take (cut - kHeaderSize) := by
      rw [h.buffer, List.take_of_length_le (by omega), List.take_append, hheader,
        List.take_of_length_le (by omega)]
    have heof : r.eof = true := by
      rw [h.eof]
      exact decide_eq_true (by omega)
    have hlt : body.length < 65536 := by
      simp only [kBlockSize] at hfits
      omega
    have hparse := parse_header env r kind hlt hbuffer
    have hbody : r.buffer.length < kHeaderSize + body.length := by
      rw [h.buffer, List.length_take, hlength]
      omega
    rw [parseBody_torn env r _ hbody] at hparse
    exact ⟨_, _, readPhysicalRecord_parsed hparse, ⟨.inr (.inr ⟨rfl, heof⟩)⟩, rfl⟩

theorem start_fits {body : Bytes} (hroom : body.length ≤ format.room offset) :
    format.start offset + kHeaderSize + body.length ≤ kBlockSize := by
  have hadd := format.start_add_room offset
  simp only [format_headerSize, format_blockSize] at hadd
  simp only [kHeaderSize, kBlockSize]
  omega

section Piece

variable (env : ReaderEnv) (filler : Bytes) (hfiller : kHeaderSize ≤ filler.length)

theorem skip_padding (h : Loaded offset
    ((noChecksumLayout filler hfiller).filler.take (format.padding offset) ++ rest) r) :
    ∃ r', Loaded (format.start offset) rest r' ∧ SameState r r' ∧
      r.readPhysicalRecord env = r'.readPhysicalRecord env := by
  have hpadding : ((noChecksumLayout filler hfiller).filler.take (format.padding offset)).length =
      format.padding offset := (noChecksumLayout filler hfiller).length_padding offset
  by_cases htrailer : kBlockSize - offset < kHeaderSize
  · have hpad : format.padding offset = kBlockSize - offset := format.padding_of_lt htrailer
    obtain ⟨r', hloaded, hsame, hread⟩ := skip_trailer env h htrailer (by
      rw [List.length_append, hpadding]
      exact Nat.le_trans (Nat.le_of_eq hpad.symm) (Nat.le_add_right _ _))
    rw [List.drop_left' (hpadding.trans hpad)] at hloaded
    rw [format.start_of_lt htrailer]
    exact ⟨r', hloaded, hsame, hread⟩
  · rw [format.padding_of_not_lt htrailer, List.take_zero, List.nil_append] at h
    rw [format.start_of_not_lt htrailer]
    exact ⟨r, h, .refl r, rfl⟩

theorem read_piece (kind : Framing.Kind) (hroom : body.length ≤ format.room offset)
    (h : Loaded offset ((noChecksumLayout filler hfiller).encode
      ⟨format.padding offset, kind, body⟩ ++ more) r) :
    ∃ r', r.readPhysicalRecord env =
        ({ code := (noChecksumType kind).code, fragment := body }, r') ∧
      Loaded (format.start offset + format.headerSize + body.length) more r' ∧
      SameState r r' := by
  simp only [Framing.Layout.encode, List.append_assoc] at h
  obtain ⟨r₁, hloaded, hsame, hread⟩ := skip_padding env filler hfiller h
  rw [← List.append_assoc] at hloaded
  obtain ⟨r', hfragment, hloaded', hsame'⟩ :=
    read_fragment env kind (start_fits hroom) hloaded
  exact ⟨r', hread.trans hfragment, hloaded', hsame.trans hsame'⟩

theorem read_torn_piece (kind : Framing.Kind) (hroom : body.length ≤ format.room offset)
    (hcut : cut < format.padding offset + format.headerSize + body.length)
    (h : Loaded offset (((noChecksumLayout filler hfiller).encode
      ⟨format.padding offset, kind, body⟩).take cut) r) :
    ∃ physical r', r.readPhysicalRecord env = (physical, r') ∧ Torn physical r' ∧
      r'.reports = r.reports := by
  have hpadding : ((noChecksumLayout filler hfiller).filler.take (format.padding offset)).length =
      format.padding offset := (noChecksumLayout filler hfiller).length_padding offset
  have hcut' : cut < format.padding offset + kHeaderSize + body.length := hcut
  simp only [Framing.Layout.encode, List.append_assoc] at h
  by_cases hin : cut < format.padding offset
  · have htrailer : kBlockSize - offset < kHeaderSize := by
      by_contra hlong
      rw [format.padding_of_not_lt hlong] at hin
      exact absurd hin (Nat.not_lt_zero cut)
    have hpad : format.padding offset = kBlockSize - offset := format.padding_of_lt htrailer
    obtain ⟨physical, r', hread, htorn, hreports, _⟩ := read_short env h (by
      rw [List.length_take]
      omega) (by
      rw [List.length_take]
      omega)
    exact ⟨physical, r', hread, htorn, hreports⟩
  · rw [List.take_append, hpadding,
      List.take_of_length_le (hpadding.trans_le (Nat.le_of_not_lt hin))] at h
    obtain ⟨r₁, hloaded, hsame, hread⟩ := skip_padding env filler hfiller h
    obtain ⟨physical, r', hfragment, htorn, hreports'⟩ :=
      read_torn_fragment env kind (start_fits hroom)
        (show cut - format.padding offset < kHeaderSize + body.length by omega) hloaded
    exact ⟨physical, r', hread.trans hfragment, htorn, hreports'.trans hsame.reports⟩

end Piece

end MlkvPlus.Log.Reader
