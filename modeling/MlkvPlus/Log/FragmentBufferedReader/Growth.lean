import MlkvPlus.Log.FragmentBufferedReader.Waiting

namespace MlkvPlus.Log.FragmentBufferedReader

variable {log : Bytes} {seen : Nat → Nat} {offset : Nat} {r : FragmentBufferedReader}

theorem At.consume (h : At log offset (frame ++ more) r) (hframe : frame.length ≤ r.buffer.length) :
    At log (offset + frame.length) more { r with buffer := r.buffer.drop frame.length } := by
  obtain ⟨used, hused, hend⟩ := h.position
  have hfits := h.fits
  have hlength : (r.buffer.drop frame.length).length = r.buffer.length - frame.length :=
    List.length_drop
  have hsum : offset + frame.length + (r.buffer.drop frame.length).length =
      offset + r.buffer.length := by omega
  refine ⟨hsum.trans_le hfits, ?_, ?_, ?_, h.readError, used ++ frame, ?_, ?_⟩
  · obtain ⟨behind, hbehind⟩ := h.buffer
    have hdrop := congrArg (List.drop frame.length) hbehind
    rw [List.drop_left, List.drop_append_of_le_length hframe] at hdrop
    exact ⟨behind, hdrop⟩
  · rw [hsum]
    exact h.eof
  · intro heof
    rw [hsum]
    exact h.eofOffset heof
  · rw [hused, List.append_assoc]
  · dsimp only
    rw [hend, List.length_append]
    omega

theorem At.buffer_eq (h : At log offset (frame ++ more) r) (hframe : frame.length ≤ r.buffer.length)
    :
    r.buffer = frame ++ r.buffer.drop frame.length := by
  obtain ⟨behind, hbehind⟩ := h.buffer
  have htake : r.buffer.take frame.length = frame := by
    have heq := congrArg (List.take frame.length) hbehind
    rwa [List.take_left, List.take_append_of_le_length hframe] at heq
  conv_lhs => rw [← List.take_append_drop frame.length r.buffer, htake]

section Fragment

variable (env : ReaderEnv) (kind : Framing.Kind) {body more : Bytes}

theorem takeFragment_complete
    (hbuffer : r.buffer = header (noChecksumType kind) body.length ++ body ++ more) :
    r.takeFragment env kHeaderSize body.length (noChecksumType kind).code =
      ({ code := (noChecksumType kind).code, fragment := body },
        { r with buffer := r.buffer.drop (kHeaderSize + body.length) }) := by
  have hheader : (header (noChecksumType kind) body.length).length = kHeaderSize := rfl
  have hzero : (noChecksumType kind).code ≠ RecordType.kZeroType.code := by
    cases kind <;> decide
  have hchecksum : isNoChecksum (noChecksumType kind).code = true := by
    cases kind <;> decide
  have hfragment : (r.buffer.drop kHeaderSize).take body.length = body := by
    rw [hbuffer, List.append_assoc, List.drop_left' hheader, List.take_left]
  simp only [takeFragment, hzero, hchecksum, hfragment, Bool.true_eq_false, false_and, and_false,
    if_false]

theorem tryReadBody_fragment (seen : Nat → Nat)
    (h : At log offset (header (noChecksumType kind) body.length ++ body ++ more) r)
    (hfits : offset + kHeaderSize + body.length ≤ kBlockSize) (hbound : kBlockSize < bound) :
    ∃ result r', r.tryReadBody env (growing log seen) bound kHeaderSize body.length
        (noChecksumType kind).code = some (result, r') ∧ Kept r r' ∧
      (result = some { code := (noChecksumType kind).code, fragment := body } ∧
          At log (offset + kHeaderSize + body.length) more r' ∨
        result = none ∧
          At log offset (header (noChecksumType kind) body.length ++ body ++ more) r' ∧
          Short seen (log.length - more.length) r r') := by
  have hheader : (header (noChecksumType kind) body.length).length = kHeaderSize := rfl
  have hframe : (header (noChecksumType kind) body.length ++ body).length =
      kHeaderSize + body.length := by rw [List.length_append, hheader]
  obtain ⟨filled, r₁, hfill, hat, hkept, henough, hshort⟩ :=
    fill_in_block seen (kHeaderSize + body.length) bound h (by omega)
      (by rw [List.length_append, hframe]; omega) (by omega)
  rw [tryReadBody, hfill]
  cases filled with
  | false =>
    have hposition := h.length_log
    refine ⟨none, r₁, rfl, hkept, .inr ⟨rfl, hat, (hshort rfl).mono (Nat.le_refl _)
      (Nat.le_refl _) ?_⟩⟩
    have hfront := h.buffer.length_le
    obtain ⟨used, hused, _⟩ := h.position
    have hlength := congrArg List.length hused
    rw [List.length_append, List.length_append, hframe] at hlength
    rw [List.length_append, hframe]
    omega
  | true =>
    have hbuffer := hat.buffer_eq (by rw [hframe]; exact henough rfl)
    have hconsume := hat.consume (by rw [hframe]; exact henough rfl)
    rw [hframe, ← Nat.add_assoc] at hconsume
    have htake := takeFragment_complete env kind hbuffer
    simp only [Option.bind_eq_bind, Option.bind_some, Bool.true_eq_false, if_false, htake]
    exact ⟨_, _, rfl, ⟨hkept.fragments, hkept.inFragmentedRecord, hkept.reports, hkept.reads⟩,
      .inl ⟨rfl, hconsume⟩⟩

theorem tryReadFragment_header (file : GrowingFile) (bound : Nat)
    (hfill : r.fill file kHeaderSize bound = some (true, r₁)) (hlt : length < 65536)
    (hbuffer : r₁.buffer = header (noChecksumType kind) length ++ behind) :
    r.tryReadFragment env file bound =
      r₁.tryReadBody env file bound kHeaderSize length (noChecksumType kind).code := by
  have hkind : isRecyclableType (noChecksumType kind).code = false := by
    cases kind <;> decide
  simp only [tryReadFragment, hfill, Option.bind_eq_bind, Option.bind_some, Bool.true_eq_false,
    if_false, hbuffer, header, List.cons_append, List.nil_append, hkind, Bool.false_eq_true,
    Reader.header_length, header_length_bytes length hlt]

-- A fragment, with the trailer of a block before it if there is one: it is returned, or a read
-- found the file too short for it and the reader is still before it.
theorem tryReadFragment_piece (seen : Nat → Nat) (hbound : kBlockSize < bound)
    (hroom : body.length ≤ format.room offset)
    (h : At log offset ((noChecksumLayout filler hfiller).encode
      ⟨format.padding offset, kind, body⟩ ++ more) r) :
    ∃ result r', r.tryReadFragment env (growing log seen) bound = some (result, r') ∧ Kept r r' ∧
      (result = some { code := (noChecksumType kind).code, fragment := body } ∧
          At log (format.start offset + kHeaderSize + body.length) more r' ∨
        result = none ∧
          (At log offset ((noChecksumLayout filler hfiller).encode
              ⟨format.padding offset, kind, body⟩ ++ more) r' ∨
            At log (format.start offset) ((noChecksumLayout filler hfiller).encode
              ⟨0, kind, body⟩ ++ more) r') ∧
          Short seen (log.length - more.length) r r') := by
  have hfits := Reader.start_fits hroom
  have hframe : (noChecksumLayout filler hfiller).encode ⟨0, kind, body⟩ =
      header (noChecksumType kind) body.length ++ body := rfl
  have hencode : (noChecksumLayout filler hfiller).encode ⟨format.padding offset, kind, body⟩ =
      filler.take (format.padding offset) ++ (header (noChecksumType kind) body.length ++ body) :=
    List.append_assoc _ _ _
  have hlt : body.length < 65536 := by
    simp only [kBlockSize] at hfits
    omega
  rw [hencode, List.append_assoc] at h ⊢
  rw [hframe]
  have hlength : (header (noChecksumType kind) body.length ++ body ++ more).length =
      kHeaderSize + body.length + more.length := by
    rw [List.length_append, List.length_append]
    rfl
  have hle : kHeaderSize + body.length + more.length ≤ log.length := by
    obtain ⟨used, hused, _⟩ := h.position
    have hsum := congrArg List.length hused
    rw [List.length_append, List.length_append, hlength] at hsum
    omega
  obtain ⟨filled, r₁, hfill, hkept, hfilled, hwaits⟩ := fill_header seen h
    ((noChecksumLayout filler hfiller).length_padding offset)
    (by rw [hlength]; omega) (Nat.lt_trans (by decide) hbound)
  cases filled with
  | false =>
    obtain ⟨hat, hshort⟩ := hwaits rfl
    refine ⟨none, r₁, ?_, hkept, .inr ⟨rfl, hat, hshort.mono (Nat.le_refl _) (Nat.le_refl _) ?_⟩⟩
    · simp only [tryReadFragment, hfill, Option.bind_eq_bind, Option.bind_some, if_true]
    · rw [hlength]
      omega
  | true =>
    obtain ⟨hat, henough⟩ := hfilled rfl
    have hat₁ := hat
    rw [List.append_assoc] at hat₁
    have hbuffer := hat₁.buffer_eq henough
    rw [tryReadFragment_header env kind _ bound hfill hlt hbuffer]
    obtain ⟨result, r', hbody, hkept', hresult⟩ := tryReadBody_fragment env kind seen hat hfits hbound
    refine ⟨result, r', hbody, hkept.trans hkept', hresult.imp_right ?_⟩
    rintro ⟨hnone, hat', hshort⟩
    exact ⟨hnone, .inr hat', hshort.mono hkept.reads (Nat.le_refl _) (Nat.le_refl _)⟩

end Fragment

theorem At.congr (h : At log offset rest r) (hbuffer : r'.buffer = r.buffer) (heof : r'.eof = r.eof)
    (heofOffset : r'.eofOffset = r.eofOffset) (hreadError : r'.readError = r.readError)
    (hend : r'.endOfBufferOffset = r.endOfBufferOffset) : At log offset rest r' := by
  obtain ⟨hfits, hfront, heof', heofOffset', hreadError', hposition⟩ := h
  rw [← hbuffer] at hfits hfront heof' heofOffset' hposition
  rw [← heof] at heof' heofOffset'
  exact ⟨hfits, hfront, heof', fun h => heofOffset.trans (heofOffset' h),
    hreadError.trans hreadError', hend ▸ hposition⟩

theorem dispatch_fragment (env : ReaderEnv) (mode : WALRecoveryMode) (first last : Bool)
    (start prospective : Nat) (body : Bytes) (hin : r.inFragmentedRecord = !first)
    (hfragments : first = true → r.fragments = []) :
    dispatch env mode start prospective
      { code := (noChecksumType (.of first last)).code, fragment := body } r =
      if last = true then
        .record (r.fragments ++ body) { r with
          fragments := []
          lastRecordOffset := if first = true then start else prospective
          firstRecordRead := true
          inFragmentedRecord := false }
      else .next (if first = true then start else prospective)
        { r with fragments := r.fragments ++ body, inFragmentedRecord := true } := by
  cases first with
  | true =>
    have hempty := hfragments rfl
    rw [Bool.not_true] at hin
    cases last with
    | true => simp [dispatch, Framing.Kind.of, noChecksumType, Reader.isFull, hin, hempty]
    | false =>
      simp [dispatch, Framing.Kind.of, noChecksumType, Reader.isFull, Reader.isFirst,
        RecordType.code, hin, hempty]
  | false =>
    rw [Bool.not_false] at hin
    cases last with
    | true =>
      simp [dispatch, Framing.Kind.of, noChecksumType, Reader.isFull, Reader.isFirst,
        Reader.isMiddle, Reader.isLast, RecordType.code, hin]
    | false =>
      simp [dispatch, Framing.Kind.of, noChecksumType, Reader.isFull, Reader.isFirst,
        Reader.isMiddle, RecordType.code, hin]

section Records

variable (env : ReaderEnv) (mode : WALRecoveryMode) (filler : Bytes)
  (hfiller : kHeaderSize ≤ filler.length)

-- The reader is before or inside a record: what it has of it and what is still in the log make up
-- the payload. `next` is the block offset behind the record.
def Before (log payload : Bytes) (next : Nat) (later : List Bytes) (r : FragmentBufferedReader) :
    Prop :=
  ∃ offset first data, payload = r.fragments ++ data ∧ format.after offset data.length = next ∧
    At log offset ((noChecksumLayout filler hfiller).record offset first data ++
      (noChecksumLayout filler hfiller).log next later) r ∧
    r.inFragmentedRecord = (!first) ∧ (first = true → r.fragments = [])

-- The reader is between two records.
structure Between (log : Bytes) (next : Nat) (later : List Bytes) (r : FragmentBufferedReader) :
    Prop where
  position : At log next ((noChecksumLayout filler hfiller).log next later) r
  fragments : r.fragments = []
  inFragmentedRecord : r.inFragmentedRecord = false

theorem before_of_at {first : Bool} {data : Bytes} {next : Nat} {later : List Bytes}
    (hat : At log offset ((noChecksumLayout filler hfiller).record offset first data ++
        (noChecksumLayout filler hfiller).log next later) r ∨
      At log (format.start offset)
        ((noChecksumLayout filler hfiller).record (format.start offset) first data ++
          (noChecksumLayout filler hfiller).log next later) r)
    (hnext : format.after offset data.length = next) (hin : r.inFragmentedRecord = !first)
    (hfragments : first = true → r.fragments = []) :
    Before filler hfiller log (r.fragments ++ data) next later r := by
  rcases hat with hat | hat
  · exact ⟨offset, first, data, rfl, hnext, hat, hin, hfragments⟩
  · exact ⟨format.start offset, first, data, rfl, (format.after_start ..).trans hnext, hat, hin,
      hfragments⟩

theorem Between.before (h : Between filler hfiller log next (data :: later) r) :
    Before filler hfiller log data (format.after next data.length) later r :=
  ⟨next, true, data, by rw [h.fragments, List.nil_append], rfl, h.position, h.inFragmentedRecord,
    fun _ => h.fragments⟩

-- One pass of the loop: the fragment is added to the record, or the call ends and the reader is
-- still before the fragment.
theorem readRecordLoop_piece (seen : Nat → Nat) {bound : Nat} (hbound : kBlockSize < bound)
    (start prospective : Nat) (first last : Bool) {body more : Bytes}
    (hroom : body.length ≤ format.room offset)
    (hat : At log offset ((noChecksumLayout filler hfiller).encode
      ⟨format.padding offset, .of first last, body⟩ ++ more) r)
    (hin : r.inFragmentedRecord = !first) (hfragments : first = true → r.fragments = []) :
    (∃ r₁ prospective', At log (format.start offset + kHeaderSize + body.length) more r₁ ∧
      r₁.reports = r.reports ∧ r.reads ≤ r₁.reads ∧
      r₁.fragments = (if last = true then [] else r.fragments ++ body) ∧
      r₁.inFragmentedRecord = (!last) ∧
      ∀ fuel, readRecordLoop env mode (growing log seen) bound start (fuel + 1) prospective r =
        if last = true then some (some (r.fragments ++ body), r₁)
        else readRecordLoop env mode (growing log seen) bound start fuel prospective' r₁) ∨
    ∃ r₁, Kept r r₁ ∧ Short seen (log.length - more.length) r r₁ ∧
      (At log offset ((noChecksumLayout filler hfiller).encode
          ⟨format.padding offset, .of first last, body⟩ ++ more) r₁ ∨
        At log (format.start offset) ((noChecksumLayout filler hfiller).encode
          ⟨0, .of first last, body⟩ ++ more) r₁) ∧
      ∀ fuel, readRecordLoop env mode (growing log seen) bound start (fuel + 1) prospective r =
        some (none, r₁) := by
  obtain ⟨result, r₁, hread, hkept, ⟨rfl, hat₁⟩ | ⟨rfl, hat₁, hshort⟩⟩ :=
    tryReadFragment_piece env (.of first last) seen hbound hroom hat
  · left
    have hdispatch := dispatch_fragment env mode first last start prospective body
      (hkept.inFragmentedRecord.trans hin) fun hfirst => hkept.fragments.trans (hfragments hfirst)
    rw [hkept.fragments] at hdispatch
    cases last with
    | true =>
      refine ⟨{ r₁ with
        fragments := []
        lastRecordOffset := if first = true then start else prospective
        firstRecordRead := true
        inFragmentedRecord := false }, prospective, hat₁.congr rfl rfl rfl rfl rfl, hkept.reports,
        hkept.reads, rfl, rfl, fun fuel => ?_⟩
      simp only [readRecordLoop, hread, hdispatch, if_true]
    | false =>
      refine ⟨{ r₁ with fragments := r.fragments ++ body, inFragmentedRecord := true },
        if first = true then start else prospective, hat₁.congr rfl rfl rfl rfl rfl,
        hkept.reports, hkept.reads, rfl, rfl, fun fuel => ?_⟩
      simp only [readRecordLoop, hread, hdispatch, Bool.false_eq_true, if_false]
  · right
    exact ⟨r₁, hkept, hshort, hat₁, fun fuel => by rw [readRecordLoop, hread]⟩

theorem readRecordLoop_before (seen : Nat → Nat) {bound : Nat} (hbound : kBlockSize < bound)
    {next : Nat} {later : List Bytes} (start fuel prospective : Nat) (offset : Nat) (first : Bool)
    (data : Bytes) (r : FragmentBufferedReader)
    (hat : At log offset ((noChecksumLayout filler hfiller).record offset first data ++
      (noChecksumLayout filler hfiller).log next later) r)
    (hnext : format.after offset data.length = next) (hin : r.inFragmentedRecord = !first)
    (hfragments : first = true → r.fragments = []) (hfuel : format.fuel offset data.length < fuel) :
    ∃ result r', readRecordLoop env mode (growing log seen) bound start fuel prospective r =
        some (result, r') ∧ r'.reports = r.reports ∧ r.reads ≤ r'.reads ∧
      (result = some (r.fragments ++ data) ∧ Between filler hfiller log next later r' ∨
        result = none ∧ Before filler hfiller log (r.fragments ++ data) next later r' ∧
          Short seen (log.length - ((noChecksumLayout filler hfiller).log next later).length) r r') := by
  obtain ⟨fuel, rfl⟩ := Nat.exists_eq_succ_of_ne_zero (Nat.ne_of_gt (Nat.zero_lt_of_lt hfuel))
  induction offset, first, data using format.pieces_induction generalizing fuel prospective r with
  | last offset first data hle =>
    have hstart := (noChecksumLayout filler hfiller).record_of_le (format.start offset) first data
      (by rwa [format.room_start])
    rw [format.padding_start] at hstart
    rw [(noChecksumLayout filler hfiller).record_of_le offset first data hle] at hat
    rcases readRecordLoop_piece env mode filler hfiller seen hbound start prospective first true
      hle hat hin hfragments with
      ⟨r₁, _, hat₁, hreports, hreads, hempty, hout, hloop⟩ | ⟨r₁, hkept, hshort, hat₁, hloop⟩
    · have hend : format.start offset + kHeaderSize + data.length = next :=
        (format.after_of_le offset data.length hle).symm.trans hnext
      rw [hend] at hat₁
      rw [hloop, if_pos rfl]
      exact ⟨_, r₁, rfl, hreports, hreads, .inl ⟨rfl, hat₁, hempty, hout⟩⟩
    · rw [hloop]
      rw [← hstart, ← (noChecksumLayout filler hfiller).record_of_le offset first data hle] at hat₁
      refine ⟨none, r₁, rfl, hkept.reports, hkept.reads, .inr ⟨rfl, ?_, hshort⟩⟩
      rw [← hkept.fragments]
      exact before_of_at filler hfiller hat₁ hnext (hkept.inFragmentedRecord.trans hin)
        fun hfirst => hkept.fragments.trans (hfragments hfirst)
  | more offset first data hlt ih =>
    have hbody : (data.take (format.room offset)).length = format.room offset := by
      rw [List.length_take, Nat.min_eq_left (Nat.le_of_lt hlt)]
    have hstart := (noChecksumLayout filler hfiller).record_of_lt (format.start offset) first data
      (by rwa [format.room_start])
    rw [format.padding_start, format.room_start] at hstart
    rw [(noChecksumLayout filler hfiller).record_of_lt offset first data hlt, List.append_assoc] at hat
    rcases readRecordLoop_piece env mode filler hfiller seen hbound start prospective first false
      (Nat.le_of_eq hbody) hat hin hfragments with
      ⟨r₁, prospective', hat₁, hreports, hreads, hadded, hinside, hloop⟩ |
      ⟨r₁, hkept, hshort, hat₁, hloop⟩
    · have hend : format.start offset + kHeaderSize + (data.take (format.room offset)).length =
          format.blockSize := by
        rw [hbody]
        exact format.start_add_room offset
      rw [hend] at hat₁
      rw [if_neg (by decide)] at hadded
      have hdrop := format.fuel_drop_lt offset data.length hlt
      have hpos : format.fuel format.blockSize (data.drop (format.room offset)).length < fuel := by
        rw [List.length_drop]
        omega
      obtain ⟨fuel, rfl⟩ := Nat.exists_eq_succ_of_ne_zero (Nat.ne_of_gt (Nat.zero_lt_of_lt hpos))
      obtain ⟨result, r', hrest, hreports', hreads', hresult⟩ := ih prospective' r₁ hat₁
        (by rw [List.length_drop, ← format.after_of_lt offset data.length hlt, hnext])
        hinside (by simp) fuel hpos
      rw [hadded, List.append_assoc, List.take_append_drop] at hresult
      rw [hloop, if_neg (by decide)]
      refine ⟨result, r', hrest, hreports'.trans hreports, hreads.trans hreads',
        hresult.imp_right ?_⟩
      rintro ⟨hnone, hbefore, hshort⟩
      exact ⟨hnone, hbefore, hshort.mono hreads (Nat.le_refl _) (Nat.le_refl _)⟩
    · rw [hloop]
      rw [← List.append_assoc, ← List.append_assoc, ← hstart,
        ← (noChecksumLayout filler hfiller).record_of_lt offset first data hlt] at hat₁
      refine ⟨none, r₁, rfl, hkept.reports, hkept.reads, .inr ⟨rfl, ?_, ?_⟩⟩
      · rw [← hkept.fragments]
        exact before_of_at filler hfiller hat₁ hnext (hkept.inFragmentedRecord.trans hin)
          fun hfirst => hkept.fragments.trans (hfragments hfirst)
      · refine hshort.mono (Nat.le_refl _) (Nat.le_refl _) ?_
        rw [List.length_append]
        omega

end Records

end MlkvPlus.Log.FragmentBufferedReader
