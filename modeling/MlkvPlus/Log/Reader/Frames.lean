import MlkvPlus.Log.Reader.Position

namespace MlkvPlus.Log.Reader

theorem dispatch_eof (env : ReaderEnv) (mode : WALRecoveryMode) (scratch : Bytes) (r : Reader)
    (hcode : physical.code = kEof) : dispatch env mode false scratch physical r = .stop r := by
  obtain ⟨code, fragment, dropSize⟩ := physical
  subst hcode
  rfl

theorem readRecordLoop_congr (env : ReaderEnv) (mode : WALRecoveryMode)
    (hread : readPhysicalRecord env r = readPhysicalRecord env r') (fuel : Nat)
    (inFragmentedRecord : Bool) (scratch : Bytes) :
    readRecordLoop env mode fuel inFragmentedRecord scratch r =
      readRecordLoop env mode fuel inFragmentedRecord scratch r' := by
  cases fuel with
  | zero => rfl
  | succ fuel => simp only [readRecordLoop, hread]

section Stream

variable (env : ReaderEnv) (mode : WALRecoveryMode)

theorem readRecord_nil (fuel : Nat) (hfuel : 0 < fuel) (h : Loaded offset [] r) :
    ∃ r', r.readRecord env mode fuel = some (none, r') ∧ r'.reports = r.reports ∧
      r'.buffer = [] ∧ r'.file = [] := by
  obtain ⟨fuel, rfl⟩ := Nat.exists_eq_succ_of_ne_zero (Nat.ne_of_gt hfuel)
  have hread : ∃ physical r', r.readPhysicalRecord env = (physical, r') ∧
      physical.code = kEof ∧ r'.reports = r.reports ∧ r'.buffer = [] ∧ r'.file = [] := by
    by_cases hend : kBlockSize - offset = 0
    · -- the block is used up: the next read finds the file empty
      obtain ⟨r₁, hloaded, hsame, hskip⟩ := skip_trailer env h (by rw [hend]; decide)
        (Nat.le_of_eq hend)
      obtain ⟨physical, r', hshort, _, hreports', hnil⟩ :=
        read_short env hloaded (by simp [kHeaderSize]) (by simp [kBlockSize])
      obtain ⟨hcode, hbuffer, hfile⟩ := hnil (by simp)
      exact ⟨physical, r', hskip.trans hshort, hcode, hreports'.trans hsame.reports, hbuffer, hfile⟩
    · obtain ⟨physical, r', hshort, _, hreports, hnil⟩ :=
        read_short env h (by decide) (Nat.pos_of_ne_zero hend)
      obtain ⟨hcode, hbuffer, hfile⟩ := hnil rfl
      exact ⟨physical, r', hshort, hcode, hreports, hbuffer, hfile⟩
  obtain ⟨physical, r', hread, hcode, hreports, hbuffer, hfile⟩ := hread
  refine ⟨r', ?_, hreports, hbuffer, hfile⟩
  simp only [readRecord, readRecordLoop, hread, dispatch_eof env mode [] r' hcode]

theorem readRecordLoop_succ (fuel : Nat) (inFragmentedRecord : Bool) (scratch : Bytes)
    (r : Reader)
    (h : readRecordLoop env mode fuel inFragmentedRecord scratch r = some result) :
    readRecordLoop env mode (fuel + 1) inFragmentedRecord scratch r = some result := by
  induction fuel generalizing inFragmentedRecord scratch r with
  | zero => cases h
  | succ fuel ih =>
    rw [readRecordLoop] at h ⊢
    generalize r.readPhysicalRecord env = read at h ⊢
    dsimp only at h ⊢
    generalize dispatch env mode inFragmentedRecord scratch read.1 read.2 = pass at h ⊢
    cases pass with
    | record data r' => exact h
    | stop r' => exact h
    | next inFragmentedRecord' scratch' r' => exact ih _ _ _ h

theorem readRecordLoop_fragment (fuel : Nat) (hread : r.readPhysicalRecord env = (physical, r₁))
    (hdispatch : dispatch env mode (!first) scratch physical r₁ =
      if last = true then .record (scratch ++ body) { r₁ with firstRecordRead := true }
      else .next true (scratch ++ body) r₁) :
    readRecordLoop env mode (fuel + 1) (!first) scratch r =
      if last = true then some (some (scratch ++ body), { r₁ with firstRecordRead := true })
      else readRecordLoop env mode fuel true (scratch ++ body) r₁ := by
  rw [readRecordLoop, hread]
  dsimp only
  rw [hdispatch]
  cases last <;> rfl

-- The fragments of a layout are read one by one. `Good` is what holds of the reader
-- between them. Nothing pads a fragment that continues a record.
structure Reads (l : Framing.Layout UInt8) (Good : Reader → Prop) : Prop where
  two_le_header : 2 ≤ l.headerSize
  fragment : ∀ (offset fuel : Nat) (first last : Bool) (body more scratch : Bytes) (r : Reader),
    (first = true → scratch = []) → (first = false → l.padding offset = 0) →
    body.length ≤ l.room offset → Good r →
    Loaded offset (l.encode ⟨l.padding offset, .of first last, body⟩ ++ more) r →
    ∃ r', Loaded (l.start offset + l.headerSize + body.length) more r' ∧ Good r' ∧
      r'.reports = r.reports ∧
      ∀ result, (if last = true then some (some (scratch ++ body), r')
          else readRecordLoop env mode fuel true (scratch ++ body) r') = some result →
        readRecordLoop env mode (fuel + 2) (!first) scratch r = some result

variable {env mode} {l : Framing.Layout UInt8} {Good : Reader → Prop}

theorem Reads.record (hreads : Reads env mode l Good) (offset : Nat) (first : Bool)
    (data scratch more : Bytes) (fuel : Nat) (r : Reader) (hscratch : first = true → scratch = [])
    (hpadding : first = false → l.padding offset = 0) (hfuel : l.size offset data.length < fuel)
    (hgood : Good r) (h : Loaded offset (l.record offset first data ++ more) r) :
    ∃ r', readRecordLoop env mode fuel (!first) scratch r = some (some (scratch ++ data), r') ∧
      Loaded (l.after offset data.length) more r' ∧ Good r' ∧ r'.reports = r.reports := by
  have htwo := hreads.two_le_header
  have hheader := l.header_le_size offset data.length
  obtain ⟨fuel, rfl⟩ := Nat.exists_eq_add_of_le' (show 2 ≤ fuel by omega)
  induction offset, first, data using l.pieces_induction generalizing scratch fuel r with
  | last offset first data hle =>
    rw [l.record_of_le offset first data hle] at h
    obtain ⟨r', hloaded, hgood', hreports, hloop⟩ := hreads.fragment offset fuel first true data
      more scratch r hscratch hpadding hle hgood h
    rw [l.after_of_le offset data.length hle]
    exact ⟨r', hloop _ (if_pos rfl), hloaded, hgood', hreports⟩
  | more offset first data hlt ih =>
    have hbody : (data.take (l.room offset)).length = l.room offset := by
      rw [List.length_take, Nat.min_eq_left (Nat.le_of_lt hlt)]
    rw [l.record_of_lt offset first data hlt, List.append_assoc] at h
    obtain ⟨r₁, hloaded, hgood₁, hreports, hloop⟩ := hreads.fragment offset fuel first false
      (data.take (l.room offset)) _ scratch r hscratch hpadding (Nat.le_of_eq hbody) hgood h
    rw [hbody, l.start_add_room] at hloaded
    rw [l.size_of_lt offset data.length hlt] at hfuel
    have hrest := l.header_le_size l.blockSize (data.drop (l.room offset)).length
    rw [List.length_drop] at hrest
    obtain ⟨fuel, rfl⟩ := Nat.exists_eq_add_of_le' (show 2 ≤ fuel by omega)
    obtain ⟨r', hrecord, hloaded', hgood', hreports'⟩ := ih
      (scratch ++ data.take (l.room offset)) r₁ (by simp) (fun _ => l.padding_blockSize) hgood₁
      hloaded (by rw [List.length_drop]; exact hrest) fuel (by rw [List.length_drop]; omega)
    rw [List.append_assoc, List.take_append_drop] at hrecord
    rw [List.length_drop, ← l.after_of_lt offset data.length hlt] at hloaded'
    refine ⟨r', hloop _ ?_, hloaded', hgood', hreports'.trans hreports⟩
    rw [if_neg (by decide)]
    exact hrecord

-- The records of a log are read before whatever follows it.
theorem Reads.records (hreads : Reads env mode l Good) (payloads : List Bytes)
    (offset fuel count : Nat) (more : Bytes) (r : Reader)
    (hfuel : (l.log offset payloads).length < fuel) (hgood : Good r)
    (h : Loaded offset (l.log offset payloads ++ more) r) :
    ∃ r', Loaded (l.finish offset (payloads.map List.length)) more r' ∧ Good r' ∧
      r'.reports = r.reports ∧
      (r.firstRecordRead = true ∨ payloads ≠ [] → r'.firstRecordRead = true) ∧
      readRecords env mode fuel (payloads.length + count) r =
        (readRecords env mode fuel count r').map fun (rest, r'') => (payloads ++ rest, r'') := by
  induction payloads generalizing offset r with
  | nil =>
    refine ⟨r, h, hgood, rfl, fun hread => hread.resolve_right (absurd rfl), ?_⟩
    rw [List.length_nil, Nat.zero_add]
    simp
  | cons data rest ih =>
    have hsize := l.length_record offset true data
    rw [Framing.Layout.log, List.length_append, hsize] at hfuel
    rw [Framing.Layout.log, List.append_assoc] at h
    obtain ⟨r₁, hread, hloaded, hgood₁, hreports⟩ := hreads.record offset true data [] _ fuel r
      (fun _ => rfl) (by simp) (by omega) hgood h
    obtain ⟨r', hloaded', hgood', hreports', hfirst, hnext⟩ := ih _ r₁ (by omega) hgood₁ hloaded
    have hrecord : r.readRecord env mode fuel = some (some data, r₁) := hread
    refine ⟨r', hloaded', hgood', hreports'.trans hreports, ?_, ?_⟩
    · intro _
      exact hfirst (.inl (firstRecordRead_of_readRecordLoop hread))
    · rw [List.length_cons, Nat.succ_add, readRecords, hrecord]
      dsimp only
      rw [hnext, Option.map_map]
      rfl

theorem Reads.whole (hreads : Reads env mode l Good) (payloads : List Bytes)
    (offset fuel count : Nat) (r : Reader) (hfuel : (l.log offset payloads).length < fuel)
    (hcount : payloads.length < count) (hgood : Good r)
    (h : Loaded offset (l.log offset payloads) r) :
    ∃ r', readRecords env mode fuel count r = some (payloads, r') ∧ r'.reports = r.reports ∧
      r'.buffer = [] ∧ r'.file = [] := by
  obtain ⟨more, rfl⟩ := Nat.exists_eq_add_of_le (Nat.succ_le_of_lt hcount)
  rw [← List.append_nil (Framing.Layout.log _ _ _)] at h
  obtain ⟨r₁, hloaded, -, hreports, -, hnext⟩ := hreads.records payloads offset fuel (more + 1) []
    r hfuel hgood h
  obtain ⟨r', hread, hreports', hend⟩ :=
    readRecord_nil env mode fuel (Nat.zero_lt_of_lt hfuel) hloaded
  refine ⟨r', ?_, hreports'.trans hreports, hend⟩
  rw [Nat.succ_add, ← Nat.add_succ, hnext]
  simp only [readRecords, hread, Option.map_some, List.append_nil]

end Stream

end MlkvPlus.Log.Reader
