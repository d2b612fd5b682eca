import MlkvPlus.Log.Reader.Frames

namespace MlkvPlus.Log.Reader

theorem dispatch_torn (env : ReaderEnv) (mode : WALRecoveryMode) (inFragmentedRecord : Bool)
    (scratch : Bytes) (htorn : Torn physical r) :
    ∃ r', dispatch env mode inFragmentedRecord scratch physical r = .stop r' := by
  have hatEof (r : Reader) : ∃ r', atEof mode inFragmentedRecord scratch r = .stop r' := by
    unfold atEof
    split <;> exact ⟨_, rfl⟩
  obtain ⟨code, fragment, dropSize⟩ := physical
  obtain hcode | hcode | ⟨hcode, heof⟩ := htorn.code <;> simp only at hcode <;> subst hcode
  · exact hatEof r
  · exact hatEof _
  · simp only [dispatch, heof]
    by_cases hreports : reportsTornTail mode = true
    · exact ⟨_, if_pos hreports⟩
    · exact ⟨r, if_neg hreports⟩

theorem dispatch_fragment (env : ReaderEnv) (mode : WALRecoveryMode) (first last : Bool)
    (scratch body : Bytes) (r : Reader) (hscratch : first = true → scratch = []) :
    dispatch env mode (!first) scratch
        { code := (noChecksumType (.of first last)).code, fragment := body } r =
      if last = true then .record (scratch ++ body) { r with firstRecordRead := true }
      else .next true (scratch ++ body) r := by
  cases first with
  | true => cases last <;> simp only [hscratch rfl] <;> rfl
  | false => cases last <;> rfl

-- Fragments that stand alone in the stream, whatever the state of the reader.
theorem Reads.of_pieces {env : ReaderEnv} {mode : WALRecoveryMode} {l : Framing.Layout UInt8}
    {code : Framing.Kind → UInt8} {recycled : Bool} (htwo : 2 ≤ l.headerSize)
    (hread : ∀ (offset : Nat) (r : Reader) (kind : Framing.Kind) (body more : Bytes),
      r.recycled = recycled → body.length ≤ l.room offset →
      Loaded offset (l.encode ⟨l.padding offset, kind, body⟩ ++ more) r →
      ∃ r', r.readPhysicalRecord env = ({ code := code kind, fragment := body }, r') ∧
        Loaded (l.start offset + l.headerSize + body.length) more r' ∧ SameState r r')
    (hdispatch : ∀ (first last : Bool) (scratch body : Bytes) (r : Reader),
      (first = true → scratch = []) →
      dispatch env mode (!first) scratch { code := code (.of first last), fragment := body } r =
        if last = true then .record (scratch ++ body) { r with firstRecordRead := true }
        else .next true (scratch ++ body) r) :
    Reads env mode l (·.recycled = recycled) where
  two_le_header := htwo
  fragment := by
    intro offset fuel first last body more scratch r hscratch _ hroom hrecycled h
    obtain ⟨r₁, hphysical, hloaded, hsame⟩ :=
      hread offset r (.of first last) body more hrecycled hroom h
    have hloop := readRecordLoop_fragment env mode fuel hphysical
      (hdispatch first last scratch body r₁ hscratch)
    cases last with
    | true =>
      refine ⟨{ r₁ with firstRecordRead := true }, ⟨hloaded.buffer, hloaded.file, hloaded.eof⟩,
        hsame.recycled.trans hrecycled, hsame.reports, ?_⟩
      intro result hresult
      exact readRecordLoop_succ env mode _ _ _ _ (hloop.trans hresult)
    | false =>
      refine ⟨r₁, hloaded, hsame.recycled.trans hrecycled, hsame.reports, ?_⟩
      intro result hresult
      exact readRecordLoop_succ env mode _ _ _ _ (hloop.trans hresult)

section Stream

variable (env : ReaderEnv) (mode : WALRecoveryMode)
variable (filler : Bytes) (hfiller : kHeaderSize ≤ filler.length)

theorem reads_noChecksum (recycled : Bool) :
    Reads env mode (noChecksumLayout filler hfiller) (·.recycled = recycled) :=
  .of_pieces (show 2 ≤ kHeaderSize by decide)
    (fun _ _ kind _ _ _ hroom h => read_piece env filler hfiller kind hroom h)
    (dispatch_fragment env mode)

theorem readRecordLoop_torn (offset : Nat) (first : Bool) (data scratch : Bytes)
    (cut fuel : Nat) (r : Reader) (hscratch : first = true → scratch = [])
    (hcut : cut < format.size offset data.length) (hfuel : cut < fuel)
    (h : Loaded offset (((noChecksumLayout filler hfiller).record offset first data).take cut) r) :
    ∃ r', readRecordLoop env mode fuel (!first) scratch r = some (none, r') := by
  induction offset, first, data using format.pieces_induction generalizing scratch cut fuel r with
  | last offset first data hle =>
    obtain ⟨fuel, rfl⟩ := Nat.exists_eq_succ_of_ne_zero (Nat.ne_of_gt (Nat.zero_lt_of_lt hfuel))
    rw [(noChecksumLayout filler hfiller).record_of_le offset first data hle] at h
    rw [format.size_of_le offset data.length hle] at hcut
    obtain ⟨physical, r₁, hread, htorn, _⟩ := read_torn_piece env filler hfiller
      (.of first true) hle hcut h
    obtain ⟨r', hstop⟩ := dispatch_torn env mode (!first) scratch htorn
    exact ⟨r', by simp only [readRecordLoop, hread, hstop]⟩
  | more offset first data hlt ih =>
    obtain ⟨fuel, rfl⟩ := Nat.exists_eq_succ_of_ne_zero (Nat.ne_of_gt (Nat.zero_lt_of_lt hfuel))
    have hbody : (data.take (format.room offset)).length = format.room offset := by
      rw [List.length_take, Nat.min_eq_left (Nat.le_of_lt hlt)]
    have hencode : ((noChecksumLayout filler hfiller).encode
        ⟨format.padding offset, .of first false, data.take (format.room offset)⟩).length =
        format.padding offset + format.headerSize + format.room offset := by
      rw [(noChecksumLayout filler hfiller).length_encode, hbody]
    rw [(noChecksumLayout filler hfiller).record_of_lt offset first data hlt] at h
    rw [format.size_of_lt offset data.length hlt] at hcut
    have hpos := format.header_pos
    -- the cut is in this fragment, or the fragment is complete and the cut comes later
    by_cases hin : cut < format.padding offset + format.headerSize + format.room offset
    · rw [List.take_append_of_le_length (Nat.le_of_lt (hin.trans_eq hencode.symm))] at h
      rw [← hbody] at hin
      obtain ⟨physical, r₁, hread, htorn, _⟩ := read_torn_piece env filler hfiller
        (.of first false) (Nat.le_of_eq hbody) hin h
      obtain ⟨r', hstop⟩ := dispatch_torn env mode (!first) scratch htorn
      exact ⟨r', by simp only [readRecordLoop, hread, hstop]⟩
    · rw [List.take_append, List.take_of_length_le (hencode.trans_le (Nat.le_of_not_lt hin))] at h
      obtain ⟨r₁, hread, hloaded, _⟩ := read_piece env filler hfiller (.of first false)
        (Nat.le_of_eq hbody) h
      rw [hbody, format.start_add_room] at hloaded
      rw [hencode] at hloaded
      obtain ⟨r', hloop⟩ := ih (scratch ++ data.take (format.room offset)) _ fuel r₁ (by simp)
        (by rw [List.length_drop]; omega) (by omega) hloaded
      refine ⟨r', ?_⟩
      simp only [readRecordLoop, hread, dispatch_fragment env mode first false scratch _ r₁
        hscratch, Bool.false_eq_true, ite_false]
      exact hloop

-- Reading the first `cut` bytes of a log yields the records that lie within them.
theorem readRecords_log (payloads : List Bytes) (offset cut fuel count : Nat) (r : Reader)
    (hfuel : (((noChecksumLayout filler hfiller).log offset payloads).take cut).length < fuel)
    (hcount : (((noChecksumLayout filler hfiller).log offset payloads).take cut).length < count)
    (h : Loaded offset (((noChecksumLayout filler hfiller).log offset payloads).take cut) r) :
    ∃ r', readRecords env mode fuel count r = some (payloads.take
        (Framing.intact cut (format.sizes offset (payloads.map List.length))), r') ∧
      (format.total offset (payloads.map List.length) ≤ cut →
        r'.reports = r.reports ∧ r'.buffer = [] ∧ r'.file = []) := by
  induction payloads generalizing offset cut count r with
  | nil =>
    obtain ⟨count, rfl⟩ :=
      Nat.exists_eq_succ_of_ne_zero (Nat.ne_of_gt (Nat.zero_lt_of_lt hcount))
    rw [Framing.Layout.log, List.take_nil] at h
    obtain ⟨r', hread, hend⟩ := readRecord_nil env mode fuel (Nat.zero_lt_of_lt hfuel) h
    exact ⟨r', by simp only [readRecords, hread, List.take_nil], fun _ => hend⟩
  | cons data rest ih =>
    obtain ⟨count, rfl⟩ :=
      Nat.exists_eq_succ_of_ne_zero (Nat.ne_of_gt (Nat.zero_lt_of_lt hcount))
    have hsize : ((noChecksumLayout filler hfiller).record offset true data).length =
        format.size offset data.length :=
      (noChecksumLayout filler hfiller).length_record offset true data
    have hlog : (noChecksumLayout filler hfiller).log offset (data :: rest) =
        (noChecksumLayout filler hfiller).record offset true data ++
          (noChecksumLayout filler hfiller).log (format.after offset data.length) rest := rfl
    have hheader := format.header_le_size offset data.length
    have hpos := format.header_pos
    rw [hlog] at h hfuel hcount
    rw [List.length_take, List.length_append, hsize] at hfuel hcount
    simp only [List.map_cons, Framing.Format.sizes, Framing.Format.total, List.sum_cons,
      Framing.intact]
    by_cases hle : format.size offset data.length ≤ cut
    · rw [List.take_append, List.take_of_length_le (hsize.trans_le hle), hsize] at h
      obtain ⟨r₁, hread, hloaded, -, hreports⟩ :=
        (reads_noChecksum env mode filler hfiller r.recycled).record offset true data [] _ fuel r
          (fun _ => rfl) (by simp) (show format.size _ _ < fuel by omega) rfl h
      obtain ⟨r', hrest, hend⟩ := ih (format.after offset data.length)
        (cut - format.size offset data.length) count r₁ (by rw [List.length_take]; omega)
        (by rw [List.length_take]; omega) hloaded
      refine ⟨r', ?_, ?_⟩
      · rw [List.nil_append] at hread
        have hrecord : r.readRecord env mode fuel = some (some data, r₁) := hread
        simp only [readRecords, hrecord, hrest, Option.map_some, hle, ite_true,
          List.take_succ_cons]
      · intro htotal
        obtain ⟨hreports', hdone⟩ := hend (by rw [Framing.Format.total]; omega)
        exact ⟨hreports'.trans hreports, hdone⟩
    · rw [List.take_append_of_le_length (by omega)] at h
      obtain ⟨r', hread⟩ := readRecordLoop_torn env mode filler hfiller offset true data []
        cut fuel r (fun _ => rfl) (by omega) (by omega) h
      have hrecord : r.readRecord env mode fuel = some (none, r') := hread
      refine ⟨r', ?_, by omega⟩
      simp only [readRecords, hrecord, hle, ite_false, List.take_zero]

end Stream

end MlkvPlus.Log.Reader
