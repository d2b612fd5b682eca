import MlkvPlus.Log.Reader.Cost
import MlkvPlus.Log.Reader.Replay

namespace MlkvPlus.Log.Reader

theorem Loaded.left_eq (h : Loaded offset rest r) : r.left = rest.length := by
  rw [left, h.buffer, h.file, ← List.length_append, List.take_append_drop]

theorem Loaded.buffer_le (h : Loaded offset rest r) : r.buffer.length ≤ kBlockSize := by
  rw [h.buffer, List.length_take]
  omega

-- What a reader knows besides its place.
structure Plain (r : Reader) : Prop where
  firstRecordRead : r.firstRecordRead = true
  recycled : r.recycled = false

theorem Plain.same (h : Plain r) (hsame : SameState r r') : Plain r' :=
  ⟨hsame.firstRecordRead.trans h.firstRecordRead, hsame.recycled.trans h.recycled⟩

section Window

variable {env : ReaderEnv} {mode : WALRecoveryMode} {r r' : Reader}

theorem buffer_of_take (htake : r.buffer.take kHeaderSize = [a, b, c, d, low, high, type]) :
    ∃ rest, r.buffer = a :: b :: c :: d :: low :: high :: type :: rest := by
  have hsplit := List.take_append_drop kHeaderSize r.buffer
  rw [htake] at hsplit
  exact ⟨r.buffer.drop kHeaderSize, hsplit.symm⟩

-- A recyclable type is neither accepted nor consumed.
theorem readRecordLoop_stuck (hplain : Plain r) (hrecyclable : isRecyclableType type = true)
    (htake : r.buffer.take kHeaderSize = [a, b, c, d, low, high, type]) (fuel : Nat)
    (inFragmentedRecord : Bool) (scratch : Bytes) :
    readRecordLoop env mode fuel inFragmentedRecord scratch r = none := by
  obtain ⟨rest, hbuffer⟩ := buffer_of_take htake
  induction fuel generalizing r inFragmentedRecord scratch with
  | zero => rfl
  | succ fuel ih =>
    have hread : r.readPhysicalRecord env = ({ code := kBadRecord }, r) := by
      apply readPhysicalRecord_parsed
      simp only [parsePhysicalRecord, hbuffer, hrecyclable, hplain.firstRecordRead,
        hplain.recycled, and_self, ite_true]
    have hdispatch : dispatch env mode inFragmentedRecord scratch { code := kBadRecord } r =
        interrupt inFragmentedRecord scratch r := rfl
    simp only [readRecordLoop, hread, hdispatch]
    cases inFragmentedRecord with
    | true =>
      exact ih (r := r.reportCorruption scratch.length "error in middle of record")
        ⟨hplain.firstRecordRead, hplain.recycled⟩ htake false [] hbuffer
    | false => exact ih hplain htake false scratch hbuffer

-- When nothing can be dropped, a first fragment holds data, and leaves some of it for another.
theorem first_of_readRecordLoop (hblock : r.buffer.length ≤ kBlockSize)
    (hleft : r.left + scratch.length < format.size format.blockSize data.length)
    (hloop : readRecordLoop env mode fuel true scratch r = some (some data, r')) :
    0 < scratch.length ∧ kBlockSize - kHeaderSize < data.length := by
  obtain ⟨-, count, sum, hpos, hsum, hdata, hcost⟩ := readRecordLoop_paid hblock hloop
  rw [held, if_pos rfl] at hdata
  constructor
  · by_contra hzero
    have hsize := format.size_le_of_count hpos
      (show data.length ≤ (kBlockSize - kHeaderSize) * count by omega)
    have hheader : format.headerSize * count = kHeaderSize * count := rfl
    omega
  · -- what fits into one fragment leaves no room for the header of a second
    by_contra hshort
    have hsize := format.size_le_of_count Nat.one_pos
      (show data.length ≤ (kBlockSize - kHeaderSize) * 1 by omega)
    have hheader : format.headerSize * 1 = kHeaderSize := rfl
    have hcount : kHeaderSize * 1 ≤ kHeaderSize * count := Nat.mul_le_mul_left _ hpos
    omega

-- With too little left to drop a header's worth of it, the record must begin right here.
theorem begins_of_readRecordLoop (hplain : Plain r)
    (htake : r.buffer.take kHeaderSize = [a, b, c, d, low, high, type])
    (hblock : r.buffer.length ≤ kBlockSize)
    (hleft : r.left < format.size format.blockSize data.length + kHeaderSize)
    (hloop : readRecordLoop env mode fuel false scratch r = some (some data, r')) :
    isRecyclableType type = false ∧
      (isFull type = true ∧ low.toNat + 256 * high.toNat = data.length ∨
        isFirst type = true ∧ 0 < low.toNat + 256 * high.toNat ∧
          kBlockSize - kHeaderSize < data.length) := by
  have hrecyclable : isRecyclableType type = false := by
    rw [← Bool.not_eq_true]
    intro hrecyclable
    rw [readRecordLoop_stuck hplain hrecyclable htake] at hloop
    cases hloop
  refine ⟨hrecyclable, ?_⟩
  obtain ⟨rest, hbuffer⟩ := buffer_of_take htake
  obtain ⟨fuel, rfl⟩ := exists_fuel hloop
  have hparse : r.parsePhysicalRecord env =
      (some (r.parseBody env kHeaderSize (low.toNat + 256 * high.toNat) type).1,
        (r.parseBody env kHeaderSize (low.toNat + 256 * high.toNat) type).2) := by
    simp only [parsePhysicalRecord, hbuffer, hrecyclable, Bool.false_eq_true, ite_false,
      header_length]
  have hread := readPhysicalRecord_parsed hparse
  have hlength : kHeaderSize ≤ r.buffer.length := by
    rw [hbuffer]
    simp only [List.length_cons, kHeaderSize]
    omega
  obtain ⟨physical, r₁, hphysical, hpass⟩ := readRecordLoop_cases hloop
  obtain ⟨buffer, hr₁, hbody⟩ := parseBody_cases (hread.symm.trans hphysical)
  have hblock₁ : buffer.length ≤ kBlockSize := by
    obtain ⟨-, hbuffer⟩ | ⟨-, -, -, hbuffer⟩ := hbody <;> omega
  have hleft₁ : r₁.left = buffer.length + r.file.length := by rw [hr₁, left]
  rw [left] at hleft
  obtain hends | ⟨inFragmentedRecord, scratch', r₂, hgoes, hnext⟩ := hpass
  · obtain ⟨hfull, hdata⟩ | ⟨-, hfragmented, -⟩ := hends.record
    · obtain ⟨hcode, -⟩ | ⟨-, hcode, hfragment, -⟩ := hbody
      · rw [isFragment, hfull] at hcode
        cases hcode
      · exact .inl ⟨hcode ▸ hfull, by rw [hdata, hfragment]⟩
    · cases hfragmented
  · have hleft₂ : r₂.left = r₁.left := by rw [left, left, hgoes.place.buffer, hgoes.place.file]
    have hblock₂ : r₂.buffer.length ≤ kBlockSize := by
      rw [hgoes.place.buffer, hr₁]
      exact hblock₁
    cases inFragmentedRecord with
    | false =>
      have hcost := size_le_of_readRecordLoop hblock₂ hnext
      rw [held, if_neg (by decide), Nat.sub_zero] at hcost
      obtain ⟨-, hbuffer⟩ | ⟨-, -, -, hbuffer⟩ := hbody <;> omega
    | true =>
      obtain ⟨hfirst, rfl⟩ | ⟨-, hfragmented, -⟩ | ⟨hfragmented, -⟩ := hgoes.record rfl
      · obtain ⟨hcode, -⟩ | ⟨hle, hcode, hfragment, hlen⟩ := hbody
        · rw [isFragment, hfirst, Bool.or_true] at hcode
          cases hcode
        · obtain ⟨hpos, hlong⟩ := first_of_readRecordLoop hblock₂ (by omega) hnext
          exact .inr ⟨hcode ▸ hfirst, hfragment ▸ hpos, hlong⟩
      · cases hfragmented
      · cases hfragmented

theorem code_of_isFull (hfull : isFull code = true) (hrecyclable : isRecyclableType code = false) :
    code.toNat = 1 ∨ code.toNat = 140 := by
  simp only [isFull, List.mem_cons, List.not_mem_nil, or_false, decide_eq_true_eq] at hfull
  obtain rfl | rfl | rfl | rfl := hfull
  · exact .inl rfl
  · exact absurd hrecyclable (by decide)
  · exact .inr rfl
  · exact absurd hrecyclable (by decide)

theorem code_of_isFirst (hfirst : isFirst code = true)
    (hrecyclable : isRecyclableType code = false) : code.toNat = 2 ∨ code.toNat = 150 := by
  simp only [isFirst, List.mem_cons, List.not_mem_nil, or_false, decide_eq_true_eq] at hfirst
  obtain rfl | rfl | rfl | rfl := hfirst
  · exact .inl rfl
  · exact absurd hrecyclable (by decide)
  · exact .inr rfl
  · exact absurd hrecyclable (by decide)

-- A header that is read up to six bytes too early is not the begin of a record: where its length
-- is taken for a type, the length read with it does not match.
theorem not_begins_early (hplain : Plain r)
    (htake : r.buffer.take kHeaderSize =
      (front ++ header (noChecksumType kind) length).take kHeaderSize)
    (hfront : 0 < front.length) (hshort : front.length < kHeaderSize)
    (hlength : length ≤ data.length ∧ (front.length = 1 → data.length ≤ length + 1) ∧
      length ≤ kBlockSize - kHeaderSize ∨ length = kBlockSize - kHeaderSize)
    (hblock : r.buffer.length ≤ kBlockSize)
    (hleft : r.left < format.size format.blockSize data.length + kHeaderSize) :
    readRecordLoop env mode fuel false scratch r ≠ some (some data, r') := by
  intro hloop
  simp only [kBlockSize, kHeaderSize] at hlength
  have hlow := low_byte length
  have hhigh := high_byte (show length < 65536 by omega)
  have hbegins {a b c d low high type : UInt8} (h : (front ++ header (noChecksumType kind)
      length).take kHeaderSize = [a, b, c, d, low, high, type]) :=
    begins_of_readRecordLoop hplain (htake.trans h) hblock hleft hloop
  -- the type is read from the checksum of the header, where it is zero, or from its length
  have hzero {a b c d low high : UInt8} (h : (front ++ header (noChecksumType kind)
      length).take kHeaderSize = [a, b, c, d, low, high, 0]) : False := by
    obtain ⟨-, ⟨hfull, -⟩ | ⟨hfirst, -⟩⟩ := hbegins h
    · exact absurd hfull (by decide)
    · exact absurd hfirst (by decide)
  rcases front with - | ⟨x, - | ⟨y, - | ⟨z, - | ⟨u, - | ⟨v, - | ⟨w, rest⟩⟩⟩⟩⟩⟩
  · exact absurd hfront (Nat.lt_irrefl 0)
  · simp only [List.length_singleton, forall_const] at hlength
    obtain ⟨hrecyclable, ⟨hfull, hdata⟩ | ⟨hfirst, -, hdata⟩⟩ := hbegins rfl
    · have hcode := code_of_isFull hfull hrecyclable
      rw [hhigh] at hcode
      rw [hlow, show (0 : UInt8).toNat = 0 from rfl] at hdata
      omega
    · have hcode := code_of_isFirst hfirst hrecyclable
      rw [hhigh] at hcode
      simp only [kBlockSize, kHeaderSize] at hdata
      omega
  · obtain ⟨hrecyclable, ⟨hfull, hdata⟩ | ⟨-, hpos, -⟩⟩ := hbegins rfl
    · have hcode := code_of_isFull hfull hrecyclable
      rw [hlow] at hcode
      rw [show (0 : UInt8).toNat = 0 from rfl] at hdata
      omega
    · exact absurd hpos (by decide)
  · exact hzero rfl
  · exact hzero rfl
  · exact hzero rfl
  · have hrest : rest = [] := by
      rw [← List.length_eq_zero_iff]
      simp only [List.length_cons, kHeaderSize] at hshort
      omega
    rw [hrest] at hzero
    exact hzero rfl

end Window

section Straddling

variable {env : ReaderEnv} {mode : WALRecoveryMode} {r r' : Reader} {body more : Bytes}

-- A fragment that runs over the end of a block of the reader's: what the block holds of it is
-- dropped, and so is the record under way if its header could be read.
theorem next_block_of_straddling (kind : Framing.Kind) (hoffset : offset < kBlockSize)
    (hcross : kBlockSize < offset + kHeaderSize + body.length) (hlength : body.length < 65536)
    (h : Loaded offset (header (noChecksumType kind) body.length ++ body ++ more) r)
    (hloop : readRecordLoop env mode fuel inFragmentedRecord scratch r = some (some data, r')) :
    ∃ fuel' inFragmentedRecord' scratch' r₀,
      readRecordLoop env mode fuel' inFragmentedRecord' scratch' r₀ = some (some data, r') ∧
      Loaded 0 ((header (noChecksumType kind) body.length ++ body ++ more).drop
        (kBlockSize - offset)) r₀ ∧
      (Plain r → Plain r₀) ∧ held inFragmentedRecord' scratch' ≤ held inFragmentedRecord scratch ∧
      (inFragmentedRecord = false → inFragmentedRecord' = false) := by
  have hheader : (header (noChecksumType kind) body.length).length = kHeaderSize := rfl
  have hrest : kBlockSize - offset ≤
      (header (noChecksumType kind) body.length ++ body ++ more).length := by
    rw [List.length_append, List.length_append, hheader]
    omega
  by_cases hshort : kBlockSize - offset < kHeaderSize
  · obtain ⟨r₀, hloaded, hsame, hread⟩ := skip_trailer env h hshort hrest
    rw [readRecordLoop_congr env mode hread] at hloop
    exact ⟨fuel, inFragmentedRecord, scratch, r₀, hloop, hloaded, fun hplain => hplain.same hsame,
      Nat.le_refl _, id⟩
  · obtain ⟨fuel, rfl⟩ := exists_fuel hloop
    -- the length of the record does not fit into the rest of the block
    have hbuffer : r.buffer = header (noChecksumType kind) body.length ++
        (body ++ more).take (kBlockSize - offset - kHeaderSize) := by
      rw [h.buffer, List.append_assoc, List.take_append, hheader, List.take_of_length_le (by omega)]
    have hparse := parse_header env r kind hlength hbuffer
    rw [parseBody_torn env r _ (by
      rw [hbuffer, List.length_append, hheader, List.length_take, List.length_append]
      omega)] at hparse
    obtain ⟨physical, r₁, hread, hpass⟩ := readRecordLoop_cases hloop
    cases (readPhysicalRecord_parsed hparse).symm.trans hread
    obtain hends | ⟨inFragmentedRecord', scratch', r₂, hgoes, hnext⟩ := hpass
    · obtain ⟨hfull, -⟩ | ⟨hlast, -⟩ := hends.record
      · exact absurd hfull (by simp only; decide)
      · exact absurd hlast (by simp only; decide)
    · have hloaded : Loaded kBlockSize ((header (noChecksumType kind) body.length ++ body ++
          more).drop (kBlockSize - offset)) r₂ := by
        refine ⟨?_, ?_, ?_⟩
        · rw [hgoes.place.buffer, Nat.sub_self, List.take_zero]
        · rw [hgoes.place.file, h.file, Nat.sub_self, List.drop_zero]
        · rw [hgoes.place.eof, h.eof, Nat.sub_self]
          exact decide_eq_decide.mpr (by omega)
      obtain ⟨r₀, hloaded₀, hsame, hread₀⟩ := skip_trailer env hloaded (by simp [kHeaderSize])
        (by simp)
      rw [Nat.sub_self, List.drop_zero] at hloaded₀
      rw [readRecordLoop_congr env mode hread₀] at hnext
      refine ⟨fuel, inFragmentedRecord', scratch', r₀, hnext, hloaded₀, ?_, ?_, ?_⟩
      · intro hplain
        exact Plain.same ⟨hgoes.place.firstRecordRead.trans hplain.firstRecordRead,
          hgoes.place.recycled.trans hplain.recycled⟩ hsame
      · cases inFragmentedRecord' with
        | false => exact Nat.zero_le _
        | true =>
          obtain ⟨hfirst, -⟩ | ⟨hmiddle, -⟩ | ⟨-, rfl⟩ := hgoes.record rfl
          · exact absurd hfirst (by simp only; decide)
          · exact absurd hmiddle (by simp only; decide)
          · exact Nat.zero_le _
      · intro hnot
        cases inFragmentedRecord' with
        | false => rfl
        | true =>
          obtain ⟨hfirst, -⟩ | ⟨-, hfragmented, -⟩ | ⟨hfragmented, -⟩ := hgoes.record rfl
          · exact absurd hfirst (by simp only; decide)
          · exact hfragmented.symm.trans hnot
          · exact hfragmented.symm.trans hnot

theorem size_le_of_straddling (kind : Framing.Kind) (hoffset : offset < kBlockSize)
    (hcross : kBlockSize < offset + kHeaderSize + body.length) (hlength : body.length < 65536)
    (h : Loaded offset (header (noChecksumType kind) body.length ++ body ++ more) r)
    (hloop : readRecordLoop env mode fuel inFragmentedRecord scratch r = some (some data, r')) :
    format.size format.blockSize (data.length - held inFragmentedRecord scratch) + r'.left +
      (kBlockSize - offset) ≤ r.left := by
  obtain ⟨fuel', inFragmentedRecord', scratch', r₀, hnext, hloaded, -, hheld, -⟩ :=
    next_block_of_straddling kind hoffset hcross hlength h hloop
  have hcost := size_le_of_readRecordLoop hloaded.buffer_le hnext
  have hmono := format.size_add_le (data.length - held inFragmentedRecord scratch)
    (data.length - held inFragmentedRecord' scratch' -
      (data.length - held inFragmentedRecord scratch))
  rw [Nat.add_sub_of_le (by omega)] at hmono
  have hheader : (header (noChecksumType kind) body.length).length = kHeaderSize := rfl
  rw [hloaded.left_eq, List.length_drop] at hcost
  rw [h.left_eq]
  simp only [List.length_append, hheader] at hcost ⊢
  omega

end Straddling

-- The reader of a log that goes on behind `shift` bytes, where a block of the reader's has begun
-- already: what follows was written at the offset `offset` of the new writer's block.
structure Behind (shift offset : Nat) (rest : Bytes) (r : Reader) : Prop extends Plain r where
  position : ∃ place, place ≤ kBlockSize ∧ place ≡ shift + offset [MOD kBlockSize] ∧
    Loaded place rest r

theorem Behind.congr (h : Behind shift offset rest r) (hmod : offset' ≡ offset [MOD kBlockSize]) :
    Behind shift offset' rest r := by
  obtain ⟨place, hle, hplace, hloaded⟩ := h.position
  exact ⟨h.toPlain, place, hle, hplace.trans (hmod.symm.add_left shift), hloaded⟩

theorem Behind.enter (env : ReaderEnv) (mode : WALRecoveryMode) (h : Behind shift offset rest r) :
    ∃ r₀, Loaded ((shift + offset) % kBlockSize) rest r₀ ∧ Plain r₀ ∧
      ∀ fuel inFragmentedRecord scratch,
        readRecordLoop env mode fuel inFragmentedRecord scratch r =
          readRecordLoop env mode fuel inFragmentedRecord scratch r₀ := by
  obtain ⟨place, hle, hmod, hloaded⟩ := h.position
  by_cases hlt : place < kBlockSize
  · have hplace : (shift + offset) % kBlockSize = place := Eq.trans hmod.symm (Nat.mod_eq_of_lt hlt)
    exact ⟨r, hplace ▸ hloaded, h.toPlain, fun _ _ _ => rfl⟩
  · have hend : place = kBlockSize := by omega
    subst hend
    have hplace : (shift + offset) % kBlockSize = 0 := Eq.trans hmod.symm (Nat.mod_self _)
    obtain ⟨r₀, hloaded₀, hsame, hread⟩ := skip_trailer env hloaded (by simp [kHeaderSize])
      (by simp)
    rw [Nat.sub_self, List.drop_zero] at hloaded₀
    exact ⟨r₀, hplace ▸ hloaded₀, h.toPlain.same hsame, readRecordLoop_congr env mode hread⟩

section Shifted

variable (env : ReaderEnv) (mode : WALRecoveryMode)
variable (filler : Bytes) (hfiller : kHeaderSize ≤ filler.length)

-- A record is its padding, the header of its first fragment with what it holds, and the rest.
theorem record_split (offset : Nat) (first : Bool) (data more : Bytes) :
    (noChecksumLayout filler hfiller).record offset first data ++ more =
      filler.take (format.padding offset) ++
        (header (noChecksumType (.of first (decide (data.length ≤ format.room offset))))
            (data.take (format.room offset)).length ++ data.take (format.room offset) ++
          ((if data.length ≤ format.room offset then [] else
            (noChecksumLayout filler hfiller).record format.blockSize false
              (data.drop (format.room offset))) ++ more)) := by
  rw [(noChecksumLayout filler hfiller).record_eq, Framing.Layout.encode]
  simp only [List.append_assoc]

theorem record_frame (hpad : format.padding offset = 0) (first : Bool) (data more : Bytes) :
    (noChecksumLayout filler hfiller).record offset first data ++ more =
      header (noChecksumType (.of first (decide (data.length ≤ format.room offset))))
          (data.take (format.room offset)).length ++ data.take (format.room offset) ++
        ((if data.length ≤ format.room offset then [] else
          (noChecksumLayout filler hfiller).record format.blockSize false
            (data.drop (format.room offset))) ++ more) := by
  rw [record_split, hpad, List.take_zero, List.nil_append]

theorem loop_behind (first last : Bool) (scratch : Bytes) (hscratch : first = true → scratch = [])
    (hfits : (shift + offset) % kBlockSize + kHeaderSize + body.length ≤ kBlockSize)
    (h : Behind shift offset
      (header (noChecksumType (.of first last)) body.length ++ body ++ more) r) :
    ∃ r', Behind shift (offset + kHeaderSize + body.length) more r' ∧ ∀ fuel,
      readRecordLoop env mode (fuel + 1) (!first) scratch r =
        if last = true then some (some (scratch ++ body), r')
        else readRecordLoop env mode fuel true (scratch ++ body) r' := by
  obtain ⟨r₀, hloaded, hplain, hloop⟩ := h.enter env mode
  obtain ⟨r', hread, hloaded', hsame⟩ := read_fragment env (.of first last) hfits hloaded
  have hplain' := hplain.same hsame
  have hdispatch := dispatch_fragment env mode first last scratch body r' hscratch
  refine ⟨r', ⟨hplain', _, hfits, ?_, hloaded'⟩, ?_⟩
  · rw [Nat.add_assoc, Nat.add_assoc offset, ← Nat.add_assoc shift]
    exact (Nat.mod_modEq _ _).add_right _
  · intro fuel
    have hread' : { r' with firstRecordRead := true } = r' := by
      rw [← hplain'.firstRecordRead]
    rw [hloop, readRecordLoop_fragment env mode fuel hread hdispatch, hread']

theorem start_modEq_of_padding (hle : offset ≤ kBlockSize) (hpad : format.padding offset = 0) :
    format.start offset ≡ offset [MOD kBlockSize] := by
  have hmod := format.start_modEq hle
  rw [hpad, Nat.add_zero] at hmod
  exact hmod

theorem loop_first (hle : offset ≤ kBlockSize) (hpad : format.padding offset = 0)
    (hfits : (shift + format.start offset) % kBlockSize + kHeaderSize +
      min data.length (format.room offset) ≤ kBlockSize)
    (h : Behind shift offset ((noChecksumLayout filler hfiller).record offset true data ++ more) r) :
    ∃ r', Behind shift (format.start offset + kHeaderSize + min data.length (format.room offset))
        ((if data.length ≤ format.room offset then [] else
          (noChecksumLayout filler hfiller).record format.blockSize false
            (data.drop (format.room offset))) ++ more) r' ∧ ∀ fuel,
      readRecordLoop env mode (fuel + 1) false [] r =
        if data.length ≤ format.room offset then some (some data, r')
        else readRecordLoop env mode fuel true (data.take (format.room offset)) r' := by
  have hlength : (data.take (format.room offset)).length = min data.length (format.room offset) := by
    rw [List.length_take, Nat.min_comm]
  rw [record_frame filler hfiller hpad] at h
  rw [← hlength] at hfits ⊢
  obtain ⟨r', hbehind, hloop⟩ := loop_behind env mode true _ [] (fun _ => rfl) hfits
    (h.congr (start_modEq_of_padding hle hpad))
  refine ⟨r', hbehind, ?_⟩
  intro fuel
  refine (hloop fuel).trans ?_
  by_cases hall : data.length ≤ format.room offset
  · rw [if_pos (decide_eq_true hall), if_pos hall, List.take_of_length_le hall, List.nil_append]
  · rw [if_neg (by simpa using hall), if_neg hall, List.nil_append]

theorem readRecord_inStep (hstep : format.InStep shift offset data.length)
    (hle : offset ≤ kBlockSize)
    (h : Behind shift offset ((noChecksumLayout filler hfiller).record offset true data ++ more) r) :
    ∃ r', (∀ extra, r.readRecord env mode (extra + 2) = some (some data, r')) ∧
      Behind shift (format.after offset data.length) more r' := by
  obtain ⟨hpad, hfirst, hsecond⟩ := hstep
  obtain ⟨r₁, hbehind, hloop⟩ := loop_first env mode filler hfiller hle hpad hfirst h
  by_cases hall : data.length ≤ format.room offset
  · rw [if_pos hall, List.nil_append, Nat.min_eq_left hall] at hbehind
    rw [format.after_of_le offset data.length hall]
    refine ⟨r₁, ?_, hbehind⟩
    intro extra
    rw [readRecord, hloop, if_pos hall]
  · have hlt : format.room offset < data.length := Nat.lt_of_not_le hall
    have hrest : (data.drop (format.room offset)).length ≤ format.room format.blockSize := by
      rw [List.length_drop, format.room_blockSize]
      have hfits := hsecond hlt
      omega
    have hstart : format.start offset + kHeaderSize + format.room offset = kBlockSize :=
      format.start_add_room offset
    rw [if_neg hall, Nat.min_eq_right (Nat.le_of_lt hlt), hstart,
      record_frame filler hfiller format.padding_blockSize, if_pos hrest, List.nil_append,
      decide_eq_true hrest, List.take_of_length_le hrest] at hbehind
    obtain ⟨r₂, hbehind₂, hloop₂⟩ := loop_behind env mode false true
      (data.take (format.room offset)) (by simp) (by
        rw [Nat.add_mod_right, List.length_drop]
        exact hsecond hlt) hbehind
    refine ⟨r₂, ?_, hbehind₂.congr ?_⟩
    · intro extra
      rw [readRecord, hloop, if_neg hall]
      refine (hloop₂ extra).trans ?_
      rw [if_pos rfl, List.take_append_drop]
    · rw [format.after_of_lt offset data.length hlt, ← List.length_drop,
        format.after_of_le _ _ hrest, format.start_blockSize, Nat.zero_add, Nat.add_assoc]
      exact (Nat.add_modEq_left).symm

theorem Behind.left_eq (h : Behind shift offset rest r) : r.left = rest.length := by
  obtain ⟨_, _, _, hloaded⟩ := h.position
  exact hloaded.left_eq

theorem length_record_append (offset : Nat) (first : Bool) (data more : Bytes) :
    ((noChecksumLayout filler hfiller).record offset first data ++ more).length =
      format.size offset data.length + more.length := by
  rw [List.length_append]
  exact congrArg (· + _) ((noChecksumLayout filler hfiller).length_record offset first data)

variable {env mode}

theorem next_block_of_first (hle : offset ≤ kBlockSize) (hpad : format.padding offset = 0)
    (hcross : kBlockSize < (shift + format.start offset) % kBlockSize + kHeaderSize +
      min data.length (format.room offset))
    (h : Behind shift offset ((noChecksumLayout filler hfiller).record offset true data ++ more) r)
    (hread : r.readRecord env mode fuel = some (some data', r')) :
    ∃ fuel' scratch r₀, readRecordLoop env mode fuel' false scratch r₀ = some (some data', r') ∧
      Loaded 0 (((noChecksumLayout filler hfiller).record offset true data ++ more).drop
        (kBlockSize - (shift + format.start offset) % kBlockSize)) r₀ ∧ Plain r₀ := by
  have hlength : (data.take (format.room offset)).length = min data.length (format.room offset) := by
    rw [List.length_take, Nat.min_comm]
  have hroom := format.start_add_room offset
  have hblock : kBlockSize = 32768 := rfl
  simp only [format_headerSize, format_blockSize] at hroom
  obtain ⟨r₀, hloaded, hplain, hloop⟩ :=
    (h.congr (start_modEq_of_padding hle hpad)).enter env mode
  rw [readRecord, hloop] at hread
  rw [record_frame filler hfiller hpad] at hloaded ⊢
  obtain ⟨fuel', inFragmentedRecord', scratch, r₁, hnext, hloaded₁, hplain₁, -, hfragmented⟩ :=
    next_block_of_straddling _ (Nat.mod_lt _ (by decide)) (by rw [hlength]; exact hcross)
      (by rw [hlength]; omega) hloaded hread
  cases hfragmented rfl
  exact ⟨fuel', scratch, r₁, hnext, hloaded₁, hplain₁ hplain⟩

theorem size_lt_of_second (hshift : ¬kBlockSize ∣ shift) (hle : offset ≤ kBlockSize)
    (hpad : format.padding offset = 0)
    (hfits : (shift + format.start offset) % kBlockSize + kHeaderSize +
      min data.length (format.room offset) ≤ kBlockSize)
    (hlt : format.room offset < data.length)
    (hcross : kBlockSize < shift % kBlockSize + kHeaderSize + (data.length - format.room offset))
    (h : Behind shift offset ((noChecksumLayout filler hfiller).record offset true data ++ more) r)
    (hread : r.readRecord env mode fuel = some (some data', r'))
    (hdata : data'.length = data.length) :
    format.size offset data.length + r'.left < r.left := by
  obtain ⟨fuel, rfl⟩ := exists_fuel hread
  have hstart : format.start offset + kHeaderSize + format.room offset = kBlockSize :=
    format.start_add_room offset
  have hpos : 0 < shift % kBlockSize := by
    rw [Nat.pos_iff_ne_zero]
    exact fun hzero => hshift (Nat.dvd_of_mod_eq_zero hzero)
  obtain ⟨r₁, hbehind, hloop⟩ := loop_first env mode filler hfiller hle hpad hfits h
  rw [readRecord, hloop, if_neg (Nat.not_le.mpr hlt)] at hread
  rw [if_neg (Nat.not_le.mpr hlt), Nat.min_eq_right (Nat.le_of_lt hlt), hstart] at hbehind
  obtain ⟨r₂, hloaded, -, hloop₂⟩ := hbehind.enter env mode
  rw [hloop₂] at hread
  have hleft := hloaded.left_eq
  rw [length_record_append, List.length_drop] at hleft
  rw [Nat.add_mod_right, record_frame filler hfiller format.padding_blockSize] at hloaded
  have hbody : ((data.drop (format.room offset)).take (format.room format.blockSize)).length =
      min (kBlockSize - kHeaderSize) (data.length - format.room offset) := by
    rw [List.length_take, List.length_drop, format.room_blockSize]
    rfl
  have hblock : kBlockSize = 32768 := rfl
  have hheader : kHeaderSize = 7 := rfl
  have hcost := size_le_of_straddling _ (Nat.mod_lt _ (by decide)) (by rw [hbody]; omega)
    (by rw [hbody]; omega) hloaded hread
  have hheld : held true (data.take (format.room offset)) = format.room offset := by
    rw [held, if_pos rfl, List.length_take, Nat.min_eq_left (Nat.le_of_lt hlt)]
  have hmod := Nat.mod_lt shift (show 0 < kBlockSize by decide)
  rw [hheld, hdata] at hcost
  rw [h.left_eq, length_record_append, format.size_of_lt offset data.length hlt, hpad]
  omega

-- A record that takes the fewest fragments. What the reader drops of it is missing in the end.
theorem size_lt_of_not_inStep (hshift : ¬kBlockSize ∣ shift) (hle : offset ≤ kBlockSize)
    (hnot : ¬format.InStep shift offset data.length)
    (htight : format.size offset data.length = format.size format.blockSize data.length)
    (h : Behind shift offset ((noChecksumLayout filler hfiller).record offset true data ++ more) r)
    (hread : r.readRecord env mode fuel = some (some data', r'))
    (hdata : data'.length = data.length) :
    format.size offset data.length + r'.left < r.left := by
  have hpad : format.padding offset = 0 := by
    by_contra hpos
    have hsize := format.size_of_padding_pos offset data.length (Nat.pos_of_ne_zero hpos)
    omega
  have hmod := Nat.mod_lt (shift + format.start offset) (show 0 < kBlockSize by decide)
  by_cases hfits : (shift + format.start offset) % kBlockSize + kHeaderSize +
      min data.length (format.room offset) ≤ kBlockSize
  · have hsecond : ¬(format.room offset < data.length →
        shift % kBlockSize + kHeaderSize + (data.length - format.room offset) ≤ kBlockSize) :=
      fun hsecond => hnot ⟨hpad, hfits, hsecond⟩
    push Not at hsecond
    exact size_lt_of_second filler hfiller hshift hle hpad hfits hsecond.1 hsecond.2 h hread hdata
  · obtain ⟨fuel', scratch, r₀, hloop, hloaded, -⟩ :=
      next_block_of_first filler hfiller hle hpad (Nat.lt_of_not_le hfits) h hread
    have hcost := size_le_of_readRecordLoop hloaded.buffer_le hloop
    have hheader : kHeaderSize ≤ format.size offset data.length :=
      format.header_le_size offset data.length
    have hseven : kHeaderSize = 7 := rfl
    rw [hloaded.left_eq, List.length_drop, length_record_append, held, if_neg (by decide),
      Nat.sub_zero, hdata] at hcost
    rw [h.left_eq, length_record_append]
    omega

theorem of_padding_pos (hpad : 0 < format.padding offset) :
    kBlockSize - offset < kHeaderSize ∧ format.padding offset = kBlockSize - offset ∧
      format.room offset = kBlockSize - kHeaderSize := by
  have hshort : format.blockSize - offset < format.headerSize := by
    by_contra hlong
    rw [format.padding_of_not_lt hlong] at hpad
    exact absurd hpad (Nat.lt_irrefl 0)
  refine ⟨hshort, format.padding_of_lt hshort, ?_⟩
  rw [Framing.Format.room, format.start_of_lt hshort]
  rfl

-- A reader in front of the padding takes its bytes for a header.
theorem not_begins_in_padding (hskip : skip < format.padding offset) (hplain : Plain r)
    (hblock : r.buffer.length ≤ kBlockSize)
    (htake : r.buffer.take kHeaderSize =
      (((noChecksumLayout filler hfiller).record offset true data).drop skip).take kHeaderSize)
    (hleft : r.left ≤ format.size offset data.length) :
    readRecordLoop env mode fuel false [] r ≠ some (some data, r') := by
  have hsize : kBlockSize = 32768 := rfl
  have hheader : kHeaderSize = 7 := rfl
  have hpad := Nat.zero_lt_of_lt hskip
  obtain ⟨hshort, hpadding, hroom⟩ := of_padding_pos hpad
  have hpaid := format.size_of_padding_pos offset data.length hpad
  have hge : format.padding offset + kHeaderSize + data.length ≤ format.size offset data.length :=
    format.size_ge offset data.length
  have hbody : (data.take (format.room offset)).length = min (format.room offset) data.length :=
    List.length_take
  have hfill : (filler.take (format.padding offset)).length = format.padding offset := by
    rw [List.length_take]
    omega
  have hrecord := record_split filler hfiller offset true data []
  rw [List.append_nil, List.append_nil, List.append_assoc (header _ _)] at hrecord
  rw [hrecord, List.drop_append_of_le_length (by omega), ← List.append_assoc,
    List.take_append_of_le_length] at htake
  · refine not_begins_early hplain htake ?_ ?_ ?_ hblock (by omega)
    · rw [List.length_drop, hfill]
      omega
    · rw [List.length_drop, hfill]
      omega
    · omega
  · rw [List.length_append, List.length_drop, hfill]
    exact Nat.le_add_left _ _

-- Reading goes wrong whatever the bytes of the record are, if it is cut no more often than needed.
-- For the others there are bytes with which it goes wrong: types that the reader refuses.
theorem lost_of_padding (hshift : ¬kBlockSize ∣ shift) (hle : offset ≤ kBlockSize)
    (hpad : 0 < format.padding offset)
    (h : Behind shift offset ((noChecksumLayout filler hfiller).record offset true data) r) :
    r.readRecord env mode fuel ≠ some (some data, r') := by
  intro hread
  have hblock : kBlockSize = 32768 := rfl
  have hheader : kHeaderSize = 7 := rfl
  obtain ⟨hshort, hpadding, -⟩ := of_padding_pos hpad
  have hsize := format.size_of_padding_pos offset data.length hpad
  have hge : format.padding offset + kHeaderSize + data.length ≤ format.size offset data.length :=
    format.size_ge offset data.length
  obtain ⟨r₀, hloaded, hplain, hloop⟩ := h.enter env mode
  rw [readRecord, hloop] at hread
  have hlength : ((noChecksumLayout filler hfiller).record offset true data).length =
      format.size offset data.length := (noChecksumLayout filler hfiller).length_record ..
  have hmod := Nat.mod_lt (shift + offset) (show 0 < kBlockSize by decide)
  by_cases hlong : kHeaderSize ≤ kBlockSize - (shift + offset) % kBlockSize
  · refine not_begins_in_padding filler hfiller hpad hplain hloaded.buffer_le ?_ ?_ hread
    · rw [hloaded.buffer, List.take_take, Nat.min_eq_left hlong, List.drop_zero]
    · rw [hloaded.left_eq, hlength]
  · obtain ⟨r₁, hloaded₁, hsame, hread₁⟩ := skip_trailer env hloaded (Nat.lt_of_not_le hlong)
      (by rw [hlength]; omega)
    rw [readRecordLoop_congr env mode hread₁] at hread
    have hleft := hloaded₁.left_eq
    rw [List.length_drop, hlength] at hleft
    obtain hlt | hge := Nat.lt_or_ge (kBlockSize - (shift + offset) % kBlockSize)
      (format.padding offset)
    · refine not_begins_in_padding filler hfiller hlt (hplain.same hsame) hloaded₁.buffer_le ?_
        (by omega) hread
      rw [hloaded₁.buffer, List.take_take, Nat.min_eq_left (by decide)]
    · have hcost := size_le_of_readRecordLoop hloaded₁.buffer_le hread
      rw [hleft, held, if_neg (by decide), Nat.sub_zero] at hcost
      have hplace : (shift + offset) % kBlockSize = offset := by omega
      refine hshift ?_
      have hmodEq : shift + offset ≡ 0 + offset [MOD kBlockSize] := by
        rw [Nat.zero_add, Nat.ModEq, hplace, Nat.mod_eq_of_lt (by omega)]
      exact Nat.modEq_zero_iff_dvd.mp (Nat.ModEq.add_right_cancel' offset hmodEq)

-- The last of seven bytes that start in the header lies in the body.
theorem exists_window (x : UInt8) (kind : Framing.Kind) (length : Nat) (tail : Bytes)
    (hpos : 0 < skip) (hle : skip ≤ kHeaderSize) (hcount : skip ≤ count) :
    ∃ a b c d low high, ((header (noChecksumType kind) length ++ List.replicate count x ++
      tail).drop skip).take kHeaderSize = [a, b, c, d, low, high, x] := by
  obtain ⟨count, rfl⟩ := Nat.exists_eq_add_of_le' hcount
  have hcases : skip = 1 ∨ skip = 2 ∨ skip = 3 ∨ skip = 4 ∨ skip = 5 ∨ skip = 6 ∨ skip = 7 := by
    rw [kHeaderSize] at hle
    omega
  obtain rfl | rfl | rfl | rfl | rfl | rfl | rfl := hcases <;> exact ⟨_, _, _, _, _, _, rfl⟩

theorem lost_of_first (hle : offset ≤ kBlockSize) (hpad : format.padding offset = 0)
    (hcross : kBlockSize < (shift + format.start offset) % kBlockSize + kHeaderSize +
      min length (format.room offset)) (hrecyclable : isRecyclableType x = true)
    (h : Behind shift offset
      ((noChecksumLayout filler hfiller).record offset true (List.replicate length x)) r) :
    r.readRecord env mode fuel ≠ some (some (List.replicate length x), r') := by
  intro hread
  have hblock : kBlockSize = 32768 := rfl
  have hheader : kHeaderSize = 7 := rfl
  have hmod := Nat.mod_lt (shift + format.start offset) (show 0 < kBlockSize by decide)
  have hlength := length_record_append filler hfiller offset true (List.replicate length x) []
  rw [← List.append_nil ((noChecksumLayout filler hfiller).record offset true _)] at h
  obtain ⟨fuel', scratch, r₀, hloop, hloaded, hplain⟩ :=
    next_block_of_first filler hfiller hle hpad (by rw [List.length_replicate]; exact hcross) h hread
  have hcost := size_le_of_readRecordLoop hloaded.buffer_le hloop
  have hleft := hloaded.left_eq
  have hge : format.padding format.blockSize + kHeaderSize + length ≤
    format.size format.blockSize length := format.size_ge format.blockSize length
  rw [held, if_neg (by decide), Nat.sub_zero, List.length_replicate] at hcost
  rw [List.length_drop, hlength, List.length_replicate, List.length_nil, Nat.add_zero] at hleft
  generalize hskip : kBlockSize - (shift + format.start offset) % kBlockSize = skip at *
  obtain hmore | hone := Nat.lt_or_ge (format.room offset) length
  swap
  · have hsize : format.size offset length = format.padding offset + kHeaderSize + length :=
      format.size_of_le offset length hone
    omega
  have hsize : format.size offset length ≤ kHeaderSize + format.size format.blockSize length :=
    format.size_le_of_padding offset length hpad
  have hbuffer : r₀.buffer.take kHeaderSize =
      (((noChecksumLayout filler hfiller).record offset true (List.replicate length x) ++ []).drop
        skip).take kHeaderSize := by
    rw [hloaded.buffer, List.take_take, Nat.min_eq_left (by decide)]
  rw [record_frame filler hfiller hpad, List.take_replicate, List.length_replicate,
    List.length_replicate, Nat.min_eq_left (Nat.le_of_lt hmore),
    if_neg (Nat.not_le.mpr hmore)] at hbuffer
  obtain hbehind | hbody := Nat.lt_or_ge (format.room offset) skip
  · -- the type is read from the header of the second fragment
    have hfront : (header (noChecksumType (.of true (decide (length ≤ format.room offset))))
        (format.room offset) ++ List.replicate (format.room offset) x).length =
        kHeaderSize + format.room offset := by
      rw [List.length_append, List.length_replicate]
      rfl
    rw [List.drop_append_of_le_length (by omega), List.drop_replicate,
      record_frame filler hfiller format.padding_blockSize, List.append_assoc (header _ _),
      ← List.append_assoc (List.drop _ _), List.take_append_of_le_length] at hbuffer
    · have hlength₂ : (List.take (format.room format.blockSize)
          (List.replicate (length - format.room offset) x)).length =
          min (kBlockSize - kHeaderSize) (length - format.room offset) := by
        rw [List.length_take, List.length_replicate, format.room_blockSize]
        rfl
      refine not_begins_early hplain hbuffer ?_ ?_ ?_ hloaded.buffer_le ?_ hloop
      · rw [List.length_drop, hfront]
        omega
      · rw [List.length_drop, hfront]
        omega
      · rw [hlength₂, List.length_replicate, List.length_drop, hfront]
        omega
      · rw [List.length_replicate]
        omega
    · rw [List.length_append]
      exact Nat.le_add_left _ _
  · -- the type is read from the body
    obtain ⟨a, b, c, d, low, high, hwindow⟩ := exists_window x
      (.of true (decide (length ≤ format.room offset))) (format.room offset) _ (by omega) (by omega)
      hbody
    rw [readRecordLoop_stuck hplain hrecyclable (hbuffer.trans hwindow)] at hloop
    cases hloop

theorem lost_of_not_inStep (hshift : ¬kBlockSize ∣ shift) (hle : offset ≤ kBlockSize)
    (hnot : ¬format.InStep shift offset length) (hrecyclable : isRecyclableType x = true)
    (h : Behind shift offset
      ((noChecksumLayout filler hfiller).record offset true (List.replicate length x)) r) :
    r.readRecord env mode fuel ≠ some (some (List.replicate length x), r') := by
  obtain hpad | hpad := Nat.eq_zero_or_pos (format.padding offset)
  · by_cases hfits : (shift + format.start offset) % kBlockSize + kHeaderSize +
        min length (format.room offset) ≤ kBlockSize
    · intro hread
      have hsecond : ¬(format.room offset < length →
          shift % kBlockSize + kHeaderSize + (length - format.room offset) ≤ kBlockSize) :=
        fun hsecond => hnot ⟨hpad, hfits, hsecond⟩
      push Not at hsecond
      rw [← List.append_nil ((noChecksumLayout filler hfiller).record offset true _)] at h
      have hcost := size_lt_of_second filler hfiller hshift hle hpad
        (by rw [List.length_replicate]; exact hfits)
        (by rw [List.length_replicate]; exact hsecond.1)
        (by rw [List.length_replicate]; exact hsecond.2) h hread rfl
      rw [h.left_eq, length_record_append, List.length_nil] at hcost
      omega
    · exact lost_of_first filler hfiller hle hpad (Nat.lt_of_not_le hfits) hrecyclable h
  · exact lost_of_padding filler hfiller hshift hle hpad h

theorem readRecord_of_readRecords
    (h : readRecords env mode fuel count r = some (data :: rest, r')) :
    ∃ count' r₁, r.readRecord env mode fuel = some (some data, r₁) ∧
      readRecords env mode fuel count' r₁ = some (rest, r') := by
  cases count with
  | zero => cases h
  | succ count =>
    rw [readRecords] at h
    split at h
    · cases h
    · cases h
    · rename_i data' r₁ hread
      obtain ⟨⟨rest', r₂⟩, hrest, hresult⟩ := Option.map_eq_some_iff.mp h
      cases hresult
      exact ⟨count, r₁, hread, hrest⟩

theorem after_le (offset length : Nat) : format.after offset length ≤ kBlockSize :=
  (format.after_bounds offset length).2

theorem readRecords_inStep (records : List Bytes) (hfuel : 2 ≤ fuel)
    (hcount : records.length < count) (hle : offset ≤ kBlockSize)
    (hall : format.AllInStep shift offset (records.map List.length))
    (h : Behind shift offset ((noChecksumLayout filler hfiller).log offset records) r) :
    ∃ r', readRecords env mode fuel count r = some (records, r') := by
  obtain ⟨count, rfl⟩ := Nat.exists_eq_succ_of_ne_zero (Nat.ne_of_gt (Nat.zero_lt_of_lt hcount))
  induction records generalizing offset count r with
  | nil =>
    obtain ⟨_, _, _, hloaded⟩ := h.position
    obtain ⟨r', hread, -⟩ := readRecord_nil env mode fuel (by omega) hloaded
    exact ⟨r', by rw [readRecords, hread]⟩
  | cons data rest ih =>
    obtain ⟨extra, rfl⟩ := Nat.exists_eq_add_of_le' hfuel
    obtain ⟨count, rfl⟩ := Nat.exists_eq_succ_of_ne_zero
      (Nat.ne_of_gt (Nat.zero_lt_of_lt (Nat.lt_of_succ_lt_succ hcount)))
    obtain ⟨hfirst, hrest⟩ := hall
    obtain ⟨r₁, hread, hbehind⟩ := readRecord_inStep env mode filler hfiller hfirst hle h
    obtain ⟨r', hnext⟩ := ih (after_le offset data.length) hrest hbehind count
      (Nat.lt_of_succ_lt_succ hcount)
    exact ⟨r', by rw [readRecords, hread]; dsimp only; rw [hnext]; rfl⟩

-- A record out of step is lost, where its bytes are types that the reader refuses.
theorem not_readRecords_of_not_inStep (records : List Bytes) (hshift : ¬kBlockSize ∣ shift)
    (hfuel : 2 ≤ fuel) (hle : offset ≤ kBlockSize) (hrecyclable : isRecyclableType x = true)
    (hall : format.AllInStep shift offset (records.map List.length))
    (hnot : ¬format.InStep shift (format.finish offset (records.map List.length)) length)
    (h : Behind shift offset ((noChecksumLayout filler hfiller).log offset
      (records ++ [List.replicate length x])) r) :
    readRecords env mode fuel count r ≠ some (records ++ [List.replicate length x], r') := by
  intro hread
  induction records generalizing offset count r with
  | nil =>
    obtain ⟨_, r₁, hfirst, -⟩ := readRecord_of_readRecords hread
    rw [List.nil_append, Framing.Layout.log, Framing.Layout.log, List.append_nil] at h
    exact lost_of_not_inStep filler hfiller hshift hle hnot hrecyclable h hfirst
  | cons data rest ih =>
    obtain ⟨extra, rfl⟩ := Nat.exists_eq_add_of_le' hfuel
    obtain ⟨_, r₁, hfirst, hrest⟩ := readRecord_of_readRecords hread
    obtain ⟨r₂, hread₂, hbehind⟩ := readRecord_inStep env mode filler hfiller hall.1 hle h
    rw [hread₂] at hfirst
    cases hfirst
    exact ih (after_le offset data.length) hall.2 hnot hbehind hrest

-- Where nothing is wasted, each record that is read back is in step.
theorem allInStep_of_readRecords (records : List Bytes) (hshift : ¬kBlockSize ∣ shift)
    (hfuel : 2 ≤ fuel) (hle : offset ≤ kBlockSize)
    (htight : format.Tight offset (records.map List.length))
    (h : Behind shift offset ((noChecksumLayout filler hfiller).log offset records) r)
    (hread : readRecords env mode fuel count r = some (records, r')) :
    format.AllInStep shift offset (records.map List.length) := by
  induction records generalizing offset count r with
  | nil => exact trivial
  | cons data rest ih =>
    obtain ⟨extra, rfl⟩ := Nat.exists_eq_add_of_le' hfuel
    obtain ⟨_, r₁, hfirst, hrest⟩ := readRecord_of_readRecords hread
    rw [List.map_cons, format.tight_cons] at htight
    have hinStep : format.InStep shift offset data.length := by
      by_contra hnot
      have hcost := size_lt_of_not_inStep filler hfiller hshift hle hnot htight.1 h hfirst rfl
      obtain ⟨_, _, _, hloaded⟩ := h.position
      have hneed := sizes_le_of_readRecords (readRecordLoop_paid hloaded.buffer_le hfirst).1 hrest
      have hmore : ((noChecksumLayout filler hfiller).log (format.after offset data.length)
          rest).length = format.total (format.after offset data.length) (rest.map List.length) :=
        (noChecksumLayout filler hfiller).length_log _ rest
      rw [h.left_eq, Framing.Layout.log, length_record_append] at hcost
      have htotal := htight.2
      rw [Framing.Format.Tight, List.map_map] at htotal
      exact absurd (Nat.lt_of_le_of_lt hneed (Nat.lt_of_add_lt_add_left hcost))
        (Nat.not_lt.mpr (hmore.trans htotal).le)
    obtain ⟨r₂, hread₂, hbehind⟩ := readRecord_inStep env mode filler hfiller hinStep hle h
    rw [hread₂] at hfirst
    cases hfirst
    exact ⟨hinStep, ih (after_le offset data.length) htight.2 hbehind hrest⟩

end Shifted

end MlkvPlus.Log.Reader
