import MlkvPlus.Data.Framing.Tail
import MlkvPlus.Log.Reader.Replay
import MlkvPlus.Log.Writer.Protection

namespace MlkvPlus.Log.Reader

section Returns

variable (env : ReaderEnv) (mode : WALRecoveryMode)

-- What ReadRecord returns, whatever the bound on its passes, if it is large enough.
def Returns (inFragmentedRecord : Bool) (scratch : Bytes) (r : Reader)
    (result : Option Bytes × Reader) : Prop :=
  ∃ bound, ∀ fuel, bound ≤ fuel →
    readRecordLoop env mode fuel inFragmentedRecord scratch r = some result

def ReturnsAll (r : Reader) (result : List Bytes × Reader) : Prop :=
  ∃ bound, ∀ fuel count, bound ≤ fuel → bound ≤ count →
    readRecords env mode fuel count r = some result

variable {env mode} {inFragmentedRecord : Bool} {scratch : Bytes} {r r₁ : Reader}

theorem readRecordLoop_mono (hle : fuel ≤ fuel')
    (h : readRecordLoop env mode fuel inFragmentedRecord scratch r = some result) :
    readRecordLoop env mode fuel' inFragmentedRecord scratch r = some result := by
  induction fuel', hle using Nat.le_induction with
  | base => exact h
  | succ fuel' _ ih => exact readRecordLoop_succ env mode fuel' inFragmentedRecord scratch r ih

theorem Returns.of_loop
    (h : readRecordLoop env mode fuel inFragmentedRecord scratch r = some result) :
    Returns env mode inFragmentedRecord scratch r result :=
  ⟨fuel, fun _ hle => readRecordLoop_mono hle h⟩

-- The loop goes on from another state.
def LeadsTo (env : ReaderEnv) (mode : WALRecoveryMode) (inFragmentedRecord : Bool)
    (scratch : Bytes) (r : Reader) (inFragmentedRecord' : Bool) (scratch' : Bytes)
    (r' : Reader) : Prop :=
  ∀ result, Returns env mode inFragmentedRecord' scratch' r' result →
    Returns env mode inFragmentedRecord scratch r result

theorem LeadsTo.of_pass
    (h : pass env mode inFragmentedRecord scratch r = .next inFragmentedRecord' scratch' r') :
    LeadsTo env mode inFragmentedRecord scratch r inFragmentedRecord' scratch' r' := by
  rintro result ⟨bound, hbound⟩
  refine ⟨bound + 1, fun fuel hle => ?_⟩
  obtain ⟨fuel, rfl⟩ := Nat.exists_eq_add_of_le' (Nat.le_trans (Nat.le_add_left 1 bound) hle)
  rw [readRecordLoop_of_pass, h]
  exact hbound fuel (by omega)

theorem ReturnsAll.of_leadsTo (hleads : LeadsTo env mode false [] r false [] r')
    (h : ReturnsAll env mode r' result) : ReturnsAll env mode r result := by
  obtain ⟨bound, hbound⟩ := h
  cases hfirst : r'.readRecord env mode (bound + 1) with
  | none =>
    have hnone := hbound (bound + 1) (bound + 1) (by omega) (by omega)
    rw [readRecords, hfirst] at hnone
    cases hnone
  | some first =>
    have hreturns : Returns env mode false [] r' first := .of_loop hfirst
    obtain ⟨bound', hsame⟩ := hleads first hreturns
    obtain ⟨bound'', hother⟩ := hreturns
    refine ⟨bound + bound' + bound'' + 1, fun fuel count hfuel hcount => ?_⟩
    have hresult := hbound fuel count (by omega) (by omega)
    obtain ⟨count, rfl⟩ := Nat.exists_eq_add_of_le' (show 1 ≤ count by omega)
    have hr : r.readRecord env mode fuel = some first := hsame fuel (by omega)
    have hr' : r'.readRecord env mode fuel = some first := hother fuel (by omega)
    rw [readRecords, hr'] at hresult
    rw [readRecords, hr]
    exact hresult

theorem readRecords_mono (hfuel : fuel ≤ fuel') (hcount : count ≤ count')
    (h : readRecords env mode fuel count r = some result) :
    readRecords env mode fuel' count' r = some result := by
  induction count generalizing r count' result with
  | zero => cases h
  | succ count ih =>
    obtain ⟨count', rfl⟩ := Nat.exists_eq_add_of_le' (Nat.le_trans (Nat.le_add_left 1 count) hcount)
    rw [readRecords] at h ⊢
    cases hfirst : r.readRecord env mode fuel with
    | none =>
      rw [hfirst] at h
      cases h
    | some first =>
      have hfirst' : r.readRecord env mode fuel' = some first := readRecordLoop_mono hfuel hfirst
      rw [hfirst] at h
      rw [hfirst']
      obtain ⟨data, r'⟩ := first
      cases data with
      | none => exact h
      | some data =>
        obtain ⟨rest, hrest, hresult⟩ := Option.map_eq_some_iff.mp h
        exact Option.map_eq_some_iff.mpr ⟨rest, ih (by omega) hrest, hresult⟩

theorem ReturnsAll.of_readRecords (h : readRecords env mode fuel count r = some result) :
    ReturnsAll env mode r result :=
  ⟨fuel + count, fun _ _ hfuel hcount => readRecords_mono (by omega) (by omega) h⟩

theorem ReturnsAll.cons (hfirst : Returns env mode false [] r (some data, r₁))
    (h : ReturnsAll env mode r₁ (records, r')) : ReturnsAll env mode r (data :: records, r') := by
  obtain ⟨bound, hbound⟩ := hfirst
  obtain ⟨bound', hbound'⟩ := h
  refine ⟨bound + bound' + 1, fun fuel count hfuel hcount => ?_⟩
  obtain ⟨count, rfl⟩ := Nat.exists_eq_add_of_le' (show 1 ≤ count by omega)
  have hread : r.readRecord env mode fuel = some (some data, r₁) := hbound fuel (by omega)
  rw [readRecords, hread]
  dsimp only
  rw [hbound' fuel count (by omega) (by omega)]
  rfl

theorem LeadsTo.trans (h : LeadsTo env mode inFragmentedRecord scratch r middle scratch' r')
    (h' : LeadsTo env mode middle scratch' r' last scratch'' r'') :
    LeadsTo env mode inFragmentedRecord scratch r last scratch'' r'' :=
  fun result hresult => h result (h' result hresult)

end Returns

-- The reader is between records, at `offset` of what is left of the log.
structure Resumes (env : ReaderEnv) (mode : WALRecoveryMode) (inFragmentedRecord : Bool)
    (scratch : Bytes) (r : Reader) (offset : Nat) (rest : Bytes) (r' : Reader) : Prop where
  leads : LeadsTo env mode inFragmentedRecord scratch r false [] r'
  loaded : Loaded offset rest r'
  recycled : r'.recycled = r.recycled
  reports : r.reports <+: r'.reports

theorem Resumes.trans (h : Resumes env mode inFragmentedRecord scratch r middle more r₁)
    (h' : Resumes env mode false [] r₁ offset rest r') :
    Resumes env mode inFragmentedRecord scratch r offset rest r' :=
  ⟨h.leads.trans h'.leads, h'.loaded, h'.recycled.trans h.recycled, h.reports.trans h'.reports⟩

section Intact

variable {crc : Crc32c} {env : ReaderEnv} {kind : Framing.Kind} {data more : Bytes}
  {r : Reader} {logNumber : Nat}

theorem retype_self :
    retype (physicalRecord crc logNumber kind data) (checksumType kind).code =
      physicalRecord crc logNumber kind data := by
  cases kind <;> rfl

theorem read_intact (hcrc : crc.Lawful) (henv : env.Verifies crc)
    (hfits : data.length + kHeaderSize ≤ kBlockSize)
    (hbuffer : r.buffer = physicalRecord crc logNumber kind data ++ more) :
    r.readPhysicalRecord env =
      ({ code := (checksumType kind).code, fragment := data }, { r with buffer := more }) := by
  have hrecyclable : isRecyclableType (checksumType kind).code = false := by
    cases kind <;> decide
  have hzero : (checksumType kind).code ≠ RecordType.kZeroType.code := by
    cases kind <;> decide
  rw [← retype_self] at hbuffer
  have hlength := length_retyped hcrc hbuffer
  have hmatch : env.crc32c ((r.buffer.drop 6).take (data.length + kHeaderSize - 6)) =
      env.unmask (Bytes.decodeFixed (r.buffer.take 4)) :=
    (crc32c_retyped env hcrc hbuffer henv).trans (unmask_stored env hcrc hbuffer henv).symm
  rw [read_retyped env hcrc hfits hbuffer hrecyclable]
  simp only [parseBody, hlength, hrecyclable, hzero, hmatch, fragment_retyped hcrc hbuffer,
    drop_retyped hcrc hbuffer, ite_false, Bool.false_eq_true, false_and, and_false, ne_eq,
    not_true_eq_false]

end Intact

section Log

variable {crc : Crc32c} {env : ReaderEnv} (hcrc : crc.Lawful) (henv : env.Verifies crc)
  (mode : WALRecoveryMode) (logNumber : Nat)
include hcrc henv

theorem read_intact_piece {offset : Nat} {body more : Bytes} {r : Reader} (kind : Framing.Kind)
    (hroom : body.length ≤ format.room offset)
    (h : Loaded offset ((checksumFrame crc logNumber).encode
      ⟨format.padding offset, kind, body⟩ ++ more) r) :
    ∃ r', r.readPhysicalRecord env =
        ({ code := (checksumType kind).code, fragment := body }, r') ∧
      Loaded (format.start offset + kHeaderSize + body.length) more r' ∧ SameState r r' := by
  rw [encode_checksumFrame, List.append_assoc] at h
  obtain ⟨r₁, hloaded, hsame, hskip⟩ := skip_padding env Writer.trailer (by decide) h
  have hstart := start_fits hroom
  have hlength : (physicalRecord crc logNumber kind body).length = kHeaderSize + body.length := by
    rw [← retype_self, length_retype hcrc]
  have hfits : format.start offset + (physicalRecord crc logNumber kind body).length ≤
      kBlockSize := by omega
  have hread := read_intact hcrc henv (by omega) (hloaded.buffer_append hfits)
  have hadvance := hloaded.advance hfits
  rw [hlength, ← Nat.add_assoc] at hadvance
  rw [hlength, ← Nat.add_assoc] at hread
  exact ⟨_, hskip.trans hread, hadvance, hsame.recycled, hsame.firstRecordRead, hsame.reports⟩

omit hcrc henv in
theorem dispatch_intact (first last : Bool) (scratch body : Bytes) (r : Reader)
    (hscratch : first = true → scratch = []) :
    dispatch env mode (!first) scratch
        { code := (checksumType (.of first last)).code, fragment := body } r =
      if last = true then .record (scratch ++ body) { r with firstRecordRead := true }
      else .next true (scratch ++ body) r := by
  cases first with
  | true => cases last <;> simp only [hscratch rfl] <;> rfl
  | false => cases last <;> rfl

theorem reads_checksum (recycled : Bool) :
    Reads env mode (checksumFrame crc logNumber) (·.recycled = recycled) :=
  .of_pieces (show 2 ≤ kHeaderSize by decide)
    (fun _ _ kind _ _ _ hroom h => read_intact_piece hcrc henv logNumber kind hroom h)
    (dispatch_intact mode)

theorem leadsTo_intact {offset : Nat} {first : Bool} {body scratch more : Bytes} {r : Reader}
    (hscratch : first = true → scratch = []) (hroom : body.length ≤ format.room offset)
    (h : Loaded offset ((checksumFrame crc logNumber).encode
      ⟨format.padding offset, .of first false, body⟩ ++ more) r) :
    ∃ r', LeadsTo env mode (!first) scratch r true (scratch ++ body) r' ∧
      Loaded (format.start offset + kHeaderSize + body.length) more r' ∧ SameState r r' := by
  obtain ⟨r', hread, hloaded, hsame⟩ := read_intact_piece hcrc henv logNumber _ hroom h
  refine ⟨r', .of_pass ?_, hloaded, hsame⟩
  rw [pass_of_read hread, dispatch_intact mode first false scratch body r' hscratch]
  rfl

theorem resumes_orphan {offset : Nat} {body more : Bytes} {r : Reader} (last : Bool)
    (hroom : body.length ≤ format.room offset)
    (h : Loaded offset ((checksumFrame crc logNumber).encode
      ⟨format.padding offset, .of false last, body⟩ ++ more) r) :
    ∃ r', Resumes env mode false [] r
      (format.start offset + kHeaderSize + body.length) more r' := by
  obtain ⟨r₁, hread, hloaded, hsame⟩ := read_intact_piece hcrc henv logNumber _ hroom h
  have hpass : ∃ reason, pass env mode false [] r =
      .next false [] (r₁.reportCorruption body.length reason) := by
    rw [pass_of_read hread]
    cases last with
    | true => exact ⟨"missing start of fragmented record(2)", rfl⟩
    | false => exact ⟨"missing start of fragmented record(1)", rfl⟩
  obtain ⟨reason, hpass⟩ := hpass
  refine ⟨_, .of_pass hpass, hloaded.congr rfl rfl rfl, hsame.recycled, ?_⟩
  rw [← hsame.reports]
  exact List.prefix_append _ _

theorem resumes_orphans {offset : Nat} {data more : Bytes} {r : Reader}
    (h : Loaded offset ((checksumFrame crc logNumber).record offset false data ++ more) r) :
    ∃ r', Resumes env mode false [] r (format.after offset data.length) more r' := by
  generalize hfirst : false = first at h
  induction offset, first, data using format.pieces_induction generalizing r with
  | last offset first data hle =>
    subst hfirst
    rw [(checksumFrame crc logNumber).record_of_le offset false data hle] at h
    rw [format.after_of_le offset data.length hle]
    exact resumes_orphan hcrc henv mode logNumber true hle h
  | more offset first data hlt ih =>
    subst hfirst
    have hbody : (data.take (format.room offset)).length = format.room offset := by
      rw [List.length_take, Nat.min_eq_left (Nat.le_of_lt hlt)]
    rw [(checksumFrame crc logNumber).record_of_lt offset false data hlt, List.append_assoc] at h
    obtain ⟨r₁, hresumes⟩ :=
      resumes_orphan hcrc henv mode logNumber false (Nat.le_of_eq hbody) h
    have hloaded := hresumes.loaded
    have hend : format.start offset + kHeaderSize + format.room offset = format.blockSize :=
      format.start_add_room offset
    rw [hbody, hend] at hloaded
    obtain ⟨r', hrest⟩ := ih rfl hloaded
    rw [List.length_drop, ← format.after_of_lt offset data.length hlt] at hrest
    exact ⟨r', hresumes.trans hrest⟩

-- The later records of a log are returned, those that lie whole in what is left.
theorem returnsAll_tail {offset : Nat} {stream : Bytes} {records : List Bytes} {r : Reader}
    (htail : (checksumFrame crc logNumber).Tail records offset stream)
    (hrecycled : r.recycled = false) (h : Loaded offset stream r) :
    ∃ later r', later <:+ records ∧ ReturnsAll env mode r (later, r') ∧
      r.reports <+: r'.reports := by
  have hlog {offset : Nat} {later : List Bytes} {r : Reader} (hrecycled : r.recycled = false)
      (h : Loaded offset ((checksumFrame crc logNumber).log offset later) r) :
      ∃ r', ReturnsAll env mode r (later, r') ∧ r.reports <+: r'.reports := by
    obtain ⟨r', hread, hreports, -⟩ := (reads_checksum hcrc henv mode logNumber false).whole later
      offset _ _ r (Nat.lt_succ_self _) (Nat.lt_succ_self _) hrecycled h
    exact ⟨r', .of_readRecords hread, hreports ▸ List.prefix_refl _⟩
  obtain ⟨later, hlater, rfl | ⟨-, data, rfl⟩⟩ := htail
  · obtain ⟨r', hall, hreports⟩ := hlog hrecycled h
    exact ⟨later, r', hlater, hall, hreports⟩
  · obtain ⟨r₁, hresumes⟩ := resumes_orphans hcrc henv mode logNumber h
    obtain ⟨r', hall, hreports⟩ := hlog (hresumes.recycled.trans hrecycled) hresumes.loaded
    exact ⟨later, r', hlater, hall.of_leadsTo hresumes.leads, hresumes.reports.trans hreports⟩

theorem returnsAll_front (front : List Bytes) (hrecycled : r.recycled = false)
    (h : Loaded offset ((checksumFrame crc logNumber).log offset front ++ more) r) :
    ∃ r', Loaded (format.finish offset (front.map List.length)) more r' ∧ r'.recycled = false ∧
      r'.reports = r.reports ∧ ∀ records last, ReturnsAll env mode r' (records, last) →
        ReturnsAll env mode r (front ++ records, last) := by
  induction front generalizing offset r with
  | nil => exact ⟨r, h, hrecycled, rfl, fun _ _ hall => hall⟩
  | cons data rest ih =>
    rw [Framing.Layout.log, List.append_assoc] at h
    obtain ⟨r₁, hread, hloaded, hrecycled₁, hreports⟩ :=
      (reads_checksum hcrc henv mode logNumber false).record offset true data [] _ _ r
        (fun _ => rfl) (by simp) (Nat.lt_succ_self _) hrecycled h
    obtain ⟨r', hloaded', hrecycled', hreports', hnext⟩ := ih hrecycled₁ hloaded
    refine ⟨r', hloaded', hrecycled', hreports'.trans hreports, fun records last hall => ?_⟩
    exact .cons (.of_loop hread) (hnext records last hall)

end Log

-- The type bytes of the fragments of a record: where they stand, and the fragments.
def typeBytes : List (Framing.Piece UInt8) → List (Nat × Framing.Piece UInt8)
  | [] => []
  | piece :: rest => (piece.padding + 6, piece) ::
      (typeBytes rest).map fun (index, later) =>
        (piece.padding + kHeaderSize + piece.body.length + index, later)

theorem typeBytes_lt {offset index : Nat} {first : Bool} {data : Bytes}
    {piece : Framing.Piece UInt8}
    (h : (index, piece) ∈ typeBytes (format.pieces offset first data)) :
    index < format.size offset data.length := by
  have hheader : format.headerSize = kHeaderSize := rfl
  induction offset, first, data using format.pieces_induction generalizing index with
  | last offset first data hle =>
    rw [format.pieces_of_le offset first data hle, typeBytes, typeBytes, List.map_nil,
      List.mem_singleton] at h
    obtain ⟨rfl, rfl⟩ := Prod.mk.inj h
    rw [format.size_of_le offset data.length hle, hheader]
    simp only [kHeaderSize]
    omega
  | more offset first data hlt ih =>
    rw [format.pieces_of_lt offset first data hlt, typeBytes, List.mem_cons] at h
    rw [format.size_of_lt offset data.length hlt, hheader, ← List.length_drop]
    obtain hhere | hlater := h
    · obtain ⟨rfl, rfl⟩ := Prod.mk.inj hhere
      simp only [kHeaderSize]
      omega
    · obtain ⟨⟨index', later⟩, hmem, heq⟩ := List.mem_map.mp hlater
      obtain ⟨rfl, rfl⟩ := Prod.mk.inj heq
      have hrest := ih hmem
      simp only [List.length_take, Nat.min_eq_left (Nat.le_of_lt hlt)]
      omega

theorem continues_of (first last : Bool) : continues (.of first last) = !first := by
  cases first <;> cases last <;> rfl

theorem Reported.of_reports (h : Reported r₁ r₂) (hbefore : r₁.reports = r.reports)
    (hafter : r₂.reports <+: r'.reports) : Reported r r' := by
  obtain ⟨bytes, reason, hmem⟩ := h
  obtain ⟨others, hothers⟩ := hafter
  refine ⟨bytes, reason, ?_⟩
  rw [← hothers, ← hbefore, List.drop_append]
  exact List.mem_append_left _ hmem

theorem Loaded.dropBlock (h : Loaded offset rest r) (hbuffer : r'.buffer = [])
    (hfile : r'.file = r.file) (heof : r'.eof = r.eof) :
    ∃ offset', Loaded offset' (rest.drop (kBlockSize - offset)) r' ∧
      (offset' = kBlockSize ∨ rest.drop (kBlockSize - offset) = []) := by
  by_cases hle : kBlockSize - offset ≤ rest.length
  · refine ⟨kBlockSize, ⟨?_, ?_, ?_⟩, .inl rfl⟩
    · rw [hbuffer, Nat.sub_self, List.take_zero]
    · rw [hfile, h.file, Nat.sub_self, List.drop_zero]
    · rw [heof, h.eof, Nat.sub_self]
      exact decide_eq_decide.mpr ⟨fun hlt => by omega, fun hlt => absurd hlt (Nat.not_lt_zero _)⟩
  · have hnil : rest.drop (kBlockSize - offset) = [] := List.drop_eq_nil_of_le (by omega)
    rw [hnil]
    refine ⟨offset, ⟨?_, ?_, ?_⟩, .inr rfl⟩
    · rw [hbuffer, List.take_nil]
    · rw [hfile, h.file, hnil, List.drop_nil]
    · rw [heof, h.eof, List.length_nil]
      exact decide_eq_decide.mpr ⟨fun _ => by omega, fun _ => by omega⟩

theorem set_encode (crc : Crc32c) (logNumber offset : Nat) (kind : Framing.Kind) (body : Bytes)
    (byte : UInt8) :
    ((checksumFrame crc logNumber).encode ⟨format.padding offset, kind, body⟩).set
        (format.padding offset + 6) byte =
      Writer.trailer.take (format.padding offset) ++
        retype (physicalRecord crc logNumber kind body) byte := by
  have hpadding : (Writer.trailer.take (format.padding offset)).length = format.padding offset :=
    (checksumFrame crc logNumber).length_padding offset
  rw [encode_checksumFrame]
  dsimp only
  rw [List.set_append_right _ _ (by omega), hpadding, Nat.add_sub_cancel_left, retype]

section Damaged

variable {crc : Crc32c} {env : ReaderEnv} (hcrc : crc.Lawful) (henv : env.Verifies crc)
  (mode : WALRecoveryMode) (logNumber : Nat) {byte : UInt8} {rest : List Bytes}
include hcrc henv

-- The reader goes on behind a retyped fragment or with the next block.
theorem resumes_detected {offset : Nat} {kind : Framing.Kind} {body scratch more : Bytes}
    {r : Reader} (hroom : body.length ≤ format.room offset)
    (hbyte : byte ≠ (checksumType kind).code) (hdetected : Detected kind body byte)
    (hscratch : continues kind = false → scratch = []) (hrecycled : r.recycled = false)
    (hkept : (checksumFrame crc logNumber).Tail rest
      (format.start offset + kHeaderSize + body.length) more)
    (hdropped : (checksumFrame crc logNumber).Tail rest kBlockSize
      (more.drop (kBlockSize - (format.start offset + kHeaderSize + body.length))))
    (h : Loaded offset (Writer.trailer.take (format.padding offset) ++
      (retype (physicalRecord crc logNumber kind body) byte ++ more)) r) :
    ∃ offset' stream r', Resumes env mode (continues kind) scratch r offset' stream r' ∧
      (checksumFrame crc logNumber).Tail rest offset' stream ∧ Reported r r' := by
  obtain ⟨r₁, hloaded, hsame, hskip⟩ := skip_padding env Writer.trailer (by decide) h
  have hstart := start_fits hroom
  have hlength := length_retype hcrc logNumber kind body byte
  have hfits : format.start offset +
      (retype (physicalRecord crc logNumber kind body) byte).length ≤ kBlockSize := by omega
  have hadvance := hloaded.advance hfits
  have hfront := hloaded.buffer_append hfits
  rw [hlength, ← Nat.add_assoc] at hadvance hfront
  obtain ⟨r', hpass, hpast⟩ := pass_detected hcrc henv (by omega) hbyte logNumber hdetected mode
    (hsame.recycled.trans hrecycled) rfl hscratch hfront
  have hleads : LeadsTo env mode (continues kind) scratch r false [] r' :=
    .of_pass (by rw [pass, hskip]; exact hpass)
  have hrecycled' := hpast.recycled.trans hsame.recycled
  have hreported := hpast.reported.of_reports hsame.reports (List.prefix_refl _)
  have hreports : r.reports <+: r'.reports := hsame.reports ▸ hpast.reports
  obtain hbuffer | hbuffer := hpast.buffer
  · obtain ⟨offset', hnext, hend⟩ := hadvance.dropBlock hbuffer hpast.file hpast.eof
    refine ⟨offset', _, r', ⟨hleads, hnext, hrecycled', hreports⟩, ?_, hreported⟩
    obtain rfl | hnil := hend
    · exact hdropped
    · rw [hnil]
      exact Framing.Layout.tail_nil _ rest offset'
  · exact ⟨_, more, r', ⟨hleads, hadvance.congr hbuffer hpast.file hpast.eof, hrecycled',
      hreports⟩, hkept, hreported⟩

-- A change of one type byte is detected wherever the fragment stands in its record.
theorem resumes_retyped {offset index : Nat} {first : Bool} {data scratch : Bytes}
    {piece : Framing.Piece UInt8} {r : Reader}
    (hindex : (index, piece) ∈ typeBytes (format.pieces offset first data))
    (hbyte : byte ≠ (checksumType piece.kind).code)
    (hdetected : Detected piece.kind piece.body byte)
    (hscratch : (!first) = false → scratch = []) (hrecycled : r.recycled = false)
    (h : Loaded offset (((checksumFrame crc logNumber).record offset first data).set index byte ++
      (checksumFrame crc logNumber).log (format.after offset data.length) rest) r) :
    ∃ offset' stream r', Resumes env mode (!first) scratch r offset' stream r' ∧
      (checksumFrame crc logNumber).Tail rest offset' stream ∧ Reported r r' := by
  induction offset, first, data using format.pieces_induction generalizing scratch index r with
  | last offset first data hle =>
    rw [format.pieces_of_le offset first data hle, typeBytes, typeBytes, List.map_nil,
      List.mem_singleton] at hindex
    obtain ⟨rfl, rfl⟩ := Prod.mk.inj hindex
    have hrecord : (checksumFrame crc logNumber).record offset first data =
        (checksumFrame crc logNumber).encode ⟨format.padding offset, .of first true, data⟩ :=
      (checksumFrame crc logNumber).record_of_le offset first data hle
    have hafter : format.after offset data.length =
        format.start offset + kHeaderSize + data.length :=
      format.after_of_le offset data.length hle
    have hdropped := (checksumFrame crc logNumber).tail_drop_log (start_fits hle) rest
    dsimp only at h hbyte hdetected
    rw [hrecord, hafter, set_encode, List.append_assoc] at h
    rw [← continues_of first true] at hscratch ⊢
    exact resumes_detected hcrc henv mode logNumber hle hbyte hdetected hscratch hrecycled
      (Framing.Layout.tail_log _ rest _) hdropped h
  | more offset first data hlt ih =>
    have hbody : (data.take (format.room offset)).length = format.room offset := by
      rw [List.length_take, Nat.min_eq_left (Nat.le_of_lt hlt)]
    have hend : format.start offset + kHeaderSize + (data.take (format.room offset)).length =
        kBlockSize := by
      rw [hbody]
      exact format.start_add_room offset
    have hrecord : (checksumFrame crc logNumber).record offset first data =
        (checksumFrame crc logNumber).encode
          ⟨format.padding offset, .of first false, data.take (format.room offset)⟩ ++
          (checksumFrame crc logNumber).record kBlockSize false
            (data.drop (format.room offset)) :=
      (checksumFrame crc logNumber).record_of_lt offset first data hlt
    have hencode : ((checksumFrame crc logNumber).encode
        ⟨format.padding offset, .of first false, data.take (format.room offset)⟩).length =
        format.padding offset + kHeaderSize + (data.take (format.room offset)).length :=
      (checksumFrame crc logNumber).length_encode offset (.of first false) _
    rw [format.pieces_of_lt offset first data hlt, typeBytes, List.mem_cons] at hindex
    rw [hrecord, format.after_of_lt offset data.length hlt, ← List.length_drop] at h
    obtain hhere | hlater := hindex
    · obtain ⟨rfl, rfl⟩ := Prod.mk.inj hhere
      dsimp only at h hbyte hdetected
      have htail := (checksumFrame crc logNumber).tail_record rest
        (data.drop (format.room offset))
      rw [List.set_append_left _ _ (by rw [hencode, kHeaderSize]; omega), set_encode,
        List.append_assoc, List.append_assoc] at h
      rw [← continues_of first false] at hscratch ⊢
      refine resumes_detected hcrc henv mode logNumber (Nat.le_of_eq hbody) hbyte hdetected
        hscratch hrecycled ?_ ?_ h
      · rw [hend]
        exact htail
      · rw [hend, Nat.sub_self, List.drop_zero]
        exact htail
    · obtain ⟨⟨index', later⟩, hmem, heq⟩ := List.mem_map.mp hlater
      obtain ⟨rfl, rfl⟩ := Prod.mk.inj heq
      dsimp only at h
      rw [List.set_append_right _ _ (by rw [hencode]; omega), hencode, Nat.add_sub_cancel_left,
        List.append_assoc] at h
      obtain ⟨r₁, hleads, hloaded, hsame⟩ := leadsTo_intact hcrc henv mode logNumber
        (fun hfirst => hscratch (by rw [hfirst]; rfl)) (Nat.le_of_eq hbody) h
      rw [hend] at hloaded
      obtain ⟨offset', stream, r', hresumes, htail, hreported⟩ := ih
        hmem (fun hfirst => absurd hfirst (by decide)) (hsame.recycled.trans hrecycled) hloaded
      exact ⟨offset', stream, r', ⟨hleads.trans hresumes.leads, hresumes.loaded,
        hresumes.recycled.trans hsame.recycled, hsame.reports ▸ hresumes.reports⟩, htail,
        hreported.of_reports hsame.reports (List.prefix_refl _)⟩

theorem returnsAll_retyped {offset index : Nat} {front : List Bytes} {data : Bytes}
    {piece : Framing.Piece UInt8} {r : Reader}
    (hindex : (index, piece) ∈
      typeBytes (format.pieces (format.finish offset (front.map List.length)) true data))
    (hbyte : byte ≠ (checksumType piece.kind).code)
    (hdetected : Detected piece.kind piece.body byte) (hrecycled : r.recycled = false)
    (h : Loaded offset (((checksumFrame crc logNumber).log offset (front ++ data :: rest)).set
      (format.total offset (front.map List.length) + index) byte) r) :
    ∃ later r', later <:+ rest ∧ ReturnsAll env mode r (front ++ later, r') ∧ Reported r r' := by
  have hset := (checksumFrame crc logNumber).set_log (typeBytes_lt hindex) rest byte
  obtain ⟨r₁, hloaded, hrecycled₁, hreports, hfront⟩ := returnsAll_front hcrc henv mode logNumber
    front hrecycled (Eq.mp (congrArg (Loaded offset · r) hset) h)
  obtain ⟨offset', stream, r₂, hresumes, htail, hreported⟩ := resumes_retyped hcrc henv mode
    logNumber hindex hbyte hdetected (fun _ => rfl) hrecycled₁ hloaded
  obtain ⟨later, r', hlater, hall, hmore⟩ := returnsAll_tail hcrc henv mode logNumber htail
    (hresumes.recycled.trans hrecycled₁) hresumes.loaded
  exact ⟨later, r', hlater, hfront later r' (hall.of_leadsTo hresumes.leads),
    hreported.of_reports hreports hmore⟩

-- A file of the writer whose only damage is a type byte that is detected: the records in
-- front of the damaged one are returned, then only later ones, and a corruption is reported.
theorem readRecords_retyped (manualFlush assertions : Bool) (front : List Bytes) (data : Bytes)
    (hindex : (index, piece) ∈
      typeBytes (format.pieces (format.finish 0 (front.map List.length)) true data))
    (hbyte : byte ≠ (checksumType piece.kind).code)
    (hdetected : Detected piece.kind piece.body byte) :
    ∃ w, (Writer.create logNumber false true manualFlush assertions).addRecords crc
        (front ++ data :: rest) = (.returned .ok, w) ∧
      ∃ later r', later <:+ rest ∧ ReturnsAll env mode
        { file := w.dest.set (format.total 0 (front.map List.length) + index) byte }
        (front ++ later, r') ∧ ∃ bytes reason, .corruption bytes reason ∈ r'.reports := by
  obtain ⟨w, hadd, hdest⟩ := Writer.addRecords_clean crc
    (Writer.create logNumber false true manualFlush assertions) ⟨Nat.zero_le _, rfl⟩
    (front ++ data :: rest)
  rw [Writer.layout_checksum crc _ rfl rfl] at hdest
  refine ⟨w, hadd, ?_⟩
  have hfile : w.dest.set (format.total 0 (front.map List.length) + index) byte =
      ((checksumFrame crc logNumber).log kBlockSize (front ++ data :: rest)).set
        (format.total kBlockSize (front.map List.length) + index) byte := by
    rw [hdest, format.total_zero]
    exact congrArg (List.set · _ byte) ((checksumFrame crc logNumber).log_zero _)
  rw [format.pieces_finish_zero] at hindex
  rw [hfile]
  exact returnsAll_retyped hcrc henv mode logNumber hindex hbyte hdetected rfl (loaded_open _)

end Damaged

end MlkvPlus.Log.Reader
