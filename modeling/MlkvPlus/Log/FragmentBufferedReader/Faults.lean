import MlkvPlus.Log.FragmentBufferedReader.Waiting

namespace MlkvPlus.Log.FragmentBufferedReader

section Frame

-- What reports and the switch of ReadRecord do not touch.
structure SamePlace (r r' : FragmentBufferedReader) : Prop where
  buffer : r'.buffer = r.buffer
  readError : r'.readError = r.readError

variable {r r' r'' : FragmentBufferedReader}

theorem SamePlace.refl (r : FragmentBufferedReader) : SamePlace r r := ⟨rfl, rfl⟩

theorem SamePlace.trans (h : SamePlace r r') (h' : SamePlace r' r'') : SamePlace r r'' :=
  ⟨h'.buffer.trans h.buffer, h'.readError.trans h.readError⟩

theorem samePlace_reportDrop (r : FragmentBufferedReader) (bytes : Nat) (reason : String) :
    SamePlace r (r.reportDrop bytes reason) := ⟨rfl, rfl⟩

theorem samePlace_reportDrops (r : FragmentBufferedReader) (bytes : Nat) (reasons : List String) :
    SamePlace r (r.reportDrops bytes reasons) := by
  induction reasons generalizing r with
  | nil => exact .refl r
  | cons reason rest ih => exact (samePlace_reportDrop r bytes reason).trans (ih _)

theorem samePlace_ite (condition : Prop) [Decidable condition] (h : SamePlace r r')
    (h' : SamePlace r r'') : SamePlace r (if condition then r' else r'') := by
  split
  · exact h
  · exact h'

theorem samePlace_interrupt (r : FragmentBufferedReader) : SamePlace r r.interrupt :=
  samePlace_ite _ ⟨rfl, rfl⟩ (.refl r)

theorem samePlace_setCompression (env : ReaderEnv) (fragment : Bytes) (r : FragmentBufferedReader) :
    SamePlace r (r.setCompression env fragment) :=
  samePlace_ite _ ⟨rfl, rfl⟩ (samePlace_reportDrop ..)

theorem samePlace_beginMetadata (start : Nat) (r : FragmentBufferedReader) :
    SamePlace r (r.beginMetadata start) := ⟨rfl, rfl⟩

-- The state behind a pass.
def Pass.reader : Pass → FragmentBufferedReader
  | .record _ r => r
  | .stop r => r
  | .next _ r => r

theorem Pass.samePlace_ite (condition : Prop) [Decidable condition] {first second : Pass}
    (h : SamePlace r first.reader) (h' : SamePlace r second.reader) :
    SamePlace r (if condition then first else second).reader := by
  split
  · exact h
  · exact h'

theorem samePlace_dispatch (env : ReaderEnv) (mode : WALRecoveryMode) (start prospective : Nat)
    (physical : Physical) (r : FragmentBufferedReader) :
    SamePlace r (dispatch env mode start prospective physical r).reader := by
  -- one case for each branch of the switch, in its order
  have hreport : ∀ (condition : Prop) [Decidable condition] (bytes : Nat) (reason : String),
      SamePlace r (if condition then r.reportDrop bytes reason else r) := fun condition _ _ _ =>
    samePlace_ite condition (samePlace_reportDrop ..) (.refl r)
  refine Pass.samePlace_ite _ ((hreport ..).trans ⟨rfl, rfl⟩) ?_
  refine Pass.samePlace_ite _ ((hreport ..).trans ⟨rfl, rfl⟩) ?_
  refine Pass.samePlace_ite _ (Pass.samePlace_ite _ ⟨rfl, rfl⟩ ⟨rfl, rfl⟩) ?_
  refine Pass.samePlace_ite _ (Pass.samePlace_ite _ ⟨rfl, rfl⟩ ⟨rfl, rfl⟩) ?_
  refine Pass.samePlace_ite _ ?_ ?_
  · have hmultiple := hreport (r.compressionTypeRecordRead = true) physical.fragment.length
      "read multiple SetCompressionType records"
    have hnotFirst := samePlace_ite
      ((if r.compressionTypeRecordRead = true then r.reportDrop physical.fragment.length
        "read multiple SetCompressionType records" else r).firstRecordRead = true)
      (hmultiple.trans (samePlace_reportDrop _ physical.fragment.length
        "SetCompressionType not the first record")) hmultiple
    exact (hnotFirst.trans (samePlace_beginMetadata start _)).trans
      (samePlace_setCompression env physical.fragment _)
  refine Pass.samePlace_ite _ ((samePlace_beginMetadata start r).trans
    (samePlace_reportDrops ..)) ?_
  refine Pass.samePlace_ite _ ((samePlace_beginMetadata start r).trans
    (samePlace_reportDrops ..)) ?_
  refine Pass.samePlace_ite _ (samePlace_interrupt r) ?_
  refine Pass.samePlace_ite _ (Pass.samePlace_ite _ ⟨rfl, rfl⟩
    ((samePlace_reportDrop ..).trans (samePlace_interrupt _))) ?_
  exact (hreport ..).trans ⟨rfl, rfl⟩

end Frame

section ReadError

variable {env : ReaderEnv} {mode : WALRecoveryMode} {file : GrowingFile} {bound : Nat}
  {r r' : FragmentBufferedReader}

-- A reader that had a failed read has nothing left in its buffer.
def ErrorEmpties (r : FragmentBufferedReader) : Prop :=
  r.readError = true → r.buffer = []

theorem SamePlace.errorEmpties (h : SamePlace r r') (hr : ErrorEmpties r) : ErrorEmpties r' := by
  intro herror
  rw [h.readError] at herror
  rw [h.buffer]
  exact hr herror

theorem tryReadMore_errorEmpties (file : GrowingFile) (r : FragmentBufferedReader) :
    ErrorEmpties (r.tryReadMore file).2 := by
  unfold tryReadMore
  split
  case isTrue hopen =>
    intro herror
    unfold readBlock at herror ⊢
    cases hread : file r.reads with
    | error failure => rfl
    | ok contents =>
      rw [hread] at herror
      dsimp only at herror
      split at herror
      all_goals exact absurd (hopen.2.symm.trans herror) (by decide)
  case isFalse =>
    dsimp only
    generalize (if r.readError = false then r.unmarkEOF file else r) = next
    split
    case isTrue hok =>
      intro herror
      exact absurd (hok.symm.trans herror) (by decide)
    case isFalse => exact fun _ => rfl

theorem fill_errorEmpties (hr : ErrorEmpties r) (h : r.fill file need bound = some (filled, r')) :
    ErrorEmpties r' := by
  induction bound generalizing r with
  | zero => cases h
  | succ bound ih =>
    rw [fill] at h
    split at h
    · cases h
      exact hr
    · have hmore := tryReadMore_errorEmpties file r
      generalize r.tryReadMore file = more at h hmore
      obtain ⟨ok, r₁⟩ := more
      cases ok with
      | false =>
        cases h
        exact hmore
      | true =>
        dsimp only at h
        split at h
        · cases h
          exact hmore
        · exact ih hmore h

theorem takeFragment_errorEmpties (env : ReaderEnv) (headerSize length : Nat) (type : UInt8)
    (hr : ErrorEmpties r) : ErrorEmpties (r.takeFragment env headerSize length type).2 := by
  unfold takeFragment
  split
  · exact fun _ => rfl
  · split
    · exact fun _ => rfl
    · intro herror
      dsimp only at herror ⊢
      rw [hr herror, List.drop_nil]

theorem tryReadBody_errorEmpties (hr : ErrorEmpties r)
    (h : r.tryReadBody env file bound headerSize length type = some (result, r')) :
    ErrorEmpties r' := by
  obtain ⟨⟨filled, r₁⟩, hfill, h⟩ := Option.bind_eq_some_iff.mp h
  have hempties := fill_errorEmpties hr hfill
  dsimp only at h
  split at h
  · cases h
    exact hempties
  · cases h
    exact takeFragment_errorEmpties env headerSize length type hempties

theorem tryReadRecyclable_errorEmpties (hr : ErrorEmpties r)
    (h : r.tryReadRecyclable env file bound length type = some (result, r')) : ErrorEmpties r' := by
  unfold tryReadRecyclable at h
  split at h
  · cases h
    exact hr
  · obtain ⟨⟨filled, r₁⟩, hfill, h⟩ := Option.bind_eq_some_iff.mp h
    have hempties := fill_errorEmpties (r := { r with recycled := true }) hr hfill
    dsimp only at h
    split at h
    · cases h
      exact hempties
    · split at h
      · cases h
        exact hempties
      · exact tryReadBody_errorEmpties hempties h

theorem tryReadFragment_errorEmpties (hr : ErrorEmpties r)
    (h : r.tryReadFragment env file bound = some (result, r')) : ErrorEmpties r' := by
  obtain ⟨⟨filled, r₁⟩, hfill, h⟩ := Option.bind_eq_some_iff.mp h
  have hempties := fill_errorEmpties hr hfill
  dsimp only at h
  split at h
  · cases h
    exact hempties
  · split at h
    · split at h
      · exact tryReadRecyclable_errorEmpties hempties h
      · exact tryReadBody_errorEmpties hempties h
    · cases h
      exact hempties

theorem readRecordLoop_errorEmpties (hr : ErrorEmpties r)
    (h : readRecordLoop env mode file bound start fuel prospective r = some (result, r')) :
    ErrorEmpties r' := by
  induction fuel generalizing r prospective with
  | zero => cases h
  | succ fuel ih =>
    rw [readRecordLoop] at h
    split at h
    · cases h
    case h_2 r₁ hread =>
      cases h
      exact tryReadFragment_errorEmpties hr hread
    case h_3 physical r₁ hread =>
      have hempties := tryReadFragment_errorEmpties hr hread
      have hplace := samePlace_dispatch env mode start prospective physical r₁
      generalize dispatch env mode start prospective physical r₁ = pass at h hplace
      cases pass with
      | record data r₂ =>
        cases h
        exact hplace.errorEmpties hempties
      | stop r₂ =>
        cases h
        exact hplace.errorEmpties hempties
      | next prospective' r₂ => exact ih (hplace.errorEmpties hempties) h

theorem readRecords_errorEmpties (hr : ErrorEmpties r)
    (h : readRecords env mode file bound fuel calls r = some (results, r')) : ErrorEmpties r' := by
  induction calls generalizing r results with
  | zero =>
    cases h
    exact hr
  | succ calls ih =>
    obtain ⟨⟨result, r₁⟩, hread, h⟩ := Option.bind_eq_some_iff.mp h
    obtain ⟨⟨later, r₂⟩, hlater, h⟩ := Option.bind_eq_some_iff.mp h
    cases h
    exact ih (readRecordLoop_errorEmpties hr hread) hlater

theorem readRecord_of_error (hfuel : 0 < fuel) (hbound : 0 < bound) (herror : r.readError = true)
    (hempty : r.buffer = []) : r.readRecord env mode file bound fuel = some (none, r) := by
  obtain ⟨fuel, rfl⟩ := Nat.exists_eq_succ_of_ne_zero (Nat.ne_of_gt hfuel)
  obtain ⟨bound, rfl⟩ := Nat.exists_eq_succ_of_ne_zero (Nat.ne_of_gt hbound)
  have hsame : { r with buffer := [] } = r := by
    cases r
    cases hempty
    rfl
  have hmore : r.tryReadMore file = (false, r) := by
    rw [tryReadMore, if_neg (by simp [herror])]
    dsimp only
    rw [if_neg (by simp [herror]), if_neg (by simp [herror]), hsame]
  have hfill : r.fill file kHeaderSize (bound + 1) = some (false, r) := by
    rw [fill, hempty, if_neg (by decide), hmore]
  simp only [readRecord, readRecordLoop, tryReadFragment, hfill, Option.bind_eq_bind,
    Option.bind_some, if_true]

-- Whatever the file does: once a read has failed, no later call reads the file again or returns
-- a record.
theorem readRecords_after_error (file : GrowingFile) (calls : Nat) {fuel : Nat}
    {results : List (Option Bytes)}
    (h : readRecords env mode file bound fuel calls {} = some (results, r))
    (herror : r.readError = true) (hfuel : 0 < fuel) (hbound : 0 < bound) (file' : GrowingFile)
    (later : Nat) :
    readRecords env mode file' bound fuel later r = some (List.replicate later none, r) := by
  have hempty := readRecords_errorEmpties (fun herror => by cases herror) h herror
  induction later with
  | zero => rfl
  | succ later ih =>
    simp only [readRecords, readRecord_of_error hfuel hbound herror hempty, ih,
      Option.bind_eq_bind, Option.bind_some, List.replicate_succ]

theorem readRecords_after_io_error :
    let env : ReaderEnv := ⟨true, 3, id, fun _ => 0, fun _ => true, fun _ _ => [], fun _ => []⟩
    ∃ r, readRecords env .kAbsoluteConsistency (fun _ => .error (0, "IO error")) 8 8 1 {} =
        some ([none], r) ∧ r.readError = true ∧
      ∀ file' later, readRecords env .kAbsoluteConsistency file' 8 8 later r =
        some (List.replicate later none, r) :=
  ⟨_, rfl, rfl, readRecords_after_error (fun _ => .error (0, "IO error")) 1 rfl rfl (by decide)
    (by decide)⟩

end ReadError

section OldRecord

variable {env : ReaderEnv} {r : FragmentBufferedReader}

-- A record of an earlier use of the log file is met but not used up: it is met again.
theorem tryReadFragment_old (file : GrowingFile) (bound : Nat) (hchecksum : checksum.length = 4)
    (hlogNumber : logNumber.length = 4) (htype : isRecyclableType type = true)
    (hold : Bytes.decodeFixed logNumber ≠ env.logNumber)
    (hbuffer : r.buffer = checksum ++ [low, high, type] ++ logNumber ++ behind) :
    ∃ code r', r.tryReadFragment env file (bound + 1) = some (some { code := code }, r') ∧
      (code = kBadRecord ∨ code = kOldRecord) ∧ r'.buffer = r.buffer := by
  obtain ⟨a, b, c, d, rfl⟩ : ∃ a b c d, checksum = [a, b, c, d] := by
    match checksum, hchecksum with
    | [a, b, c, d], _ => exact ⟨a, b, c, d, rfl⟩
  have hlength : kRecyclableHeaderSize ≤ r.buffer.length := by
    simp only [hbuffer, List.length_append, List.length_cons, List.length_nil, hlogNumber]
    rw [kRecyclableHeaderSize]
    omega
  have hheader : r.fill file kHeaderSize (bound + 1) = some (true, r) :=
    fill_enough (Nat.le_trans (by decide) hlength) (Nat.succ_pos _)
  have hnumber : (r.buffer.drop kHeaderSize).take 4 = logNumber := by
    have hfront : ([a, b, c, d] ++ [low, high, type]).length = kHeaderSize := rfl
    rw [hbuffer, List.append_assoc, List.drop_left' hfront, ← hlogNumber, List.take_left]
  have hread : r.tryReadFragment env file (bound + 1) =
      r.tryReadRecyclable env file (bound + 1) (low.toNat ||| (high.toNat <<< 8)) type := by
    simp only [tryReadFragment, hheader, Option.bind_eq_bind, Option.bind_some, Bool.true_eq_false,
      if_false, hbuffer, List.cons_append, List.nil_append, htype, if_true]
  rw [hread, tryReadRecyclable]
  split
  · exact ⟨kBadRecord, r, rfl, .inl rfl, rfl⟩
  · have hfill : { r with recycled := true }.fill file kRecyclableHeaderSize (bound + 1) =
        some (true, { r with recycled := true }) := fill_enough hlength (Nat.succ_pos _)
    refine ⟨kOldRecord, { r with recycled := true }, ?_, .inr rfl, rfl⟩
    simp only [hfill, Option.bind_eq_bind, Option.bind_some, Bool.true_eq_false, if_false, hnumber,
      if_pos hold]

-- So ReadRecord does not return, however long the reader waits.
theorem readRecord_old_diverges {checksum logNumber behind : Bytes} {low high type : UInt8}
    (hchecksum : checksum.length = 4) (hlogNumber : logNumber.length = 4)
    (htype : isRecyclableType type = true) (hold : Bytes.decodeFixed logNumber ≠ env.logNumber)
    (hbuffer : r.buffer = checksum ++ [low, high, type] ++ logNumber ++ behind)
    (mode : WALRecoveryMode) (file : GrowingFile) (bound fuel : Nat) :
    r.readRecord env mode file bound fuel = none := by
  rw [readRecord]
  generalize r.endOfBufferOffset - r.buffer.length = start
  generalize 0 = prospective
  induction fuel generalizing r prospective with
  | zero => rfl
  | succ fuel ih =>
    cases bound with
    | zero => rfl
    | succ bound =>
      obtain ⟨code, r', hread, hcode, hsame⟩ := tryReadFragment_old file bound
        hchecksum hlogNumber htype hold hbuffer
      have hdispatch : dispatch env mode start prospective { code := code } r' =
          .next prospective r'.interrupt := by
        rcases hcode with rfl | rfl <;> rfl
      simp only [readRecordLoop, hread, hdispatch]
      apply ih
      rw [(samePlace_interrupt r').buffer, hsame, hbuffer]

theorem readRecord_old_diverges_number_four :
    let env : ReaderEnv := ⟨true, 4, id, fun _ => 0, fun _ => true, fun _ _ => [], fun _ => []⟩
    let r : FragmentBufferedReader :=
      { buffer := [0, 0, 0, 0] ++ [1, 0, RecordType.kRecyclableFullType.code] ++ [3, 0, 0, 0] ++ [9] }
    ∀ mode file bound fuel, r.readRecord env mode file bound fuel = none :=
  readRecord_old_diverges rfl rfl (by decide) (by decide) rfl

end OldRecord

end MlkvPlus.Log.FragmentBufferedReader
