import MlkvPlus.Log.FragmentBufferedReader
import MlkvPlus.Log.Reader.Position

namespace MlkvPlus.Log.FragmentBufferedReader

-- A log that grows while it is read: read number `k` finds its first `seen k` bytes.
def growing (log : Bytes) (seen : Nat → Nat) : GrowingFile :=
  fun read => .ok (log.take (seen read))

-- `offset` bytes of the block are used up, `rest` is what follows in the log, and the buffer holds
-- the next bytes of the block, up to where the file ended.
structure At (log : Bytes) (offset : Nat) (rest : Bytes) (r : FragmentBufferedReader) : Prop where
  fits : offset + r.buffer.length ≤ kBlockSize
  buffer : r.buffer <+: rest
  eof : r.eof = decide (offset + r.buffer.length < kBlockSize)
  eofOffset : r.eof = true → r.eofOffset = offset + r.buffer.length
  readError : r.readError = false
  position : ∃ used, log = used ++ rest ∧ r.endOfBufferOffset = used.length + r.buffer.length

theorem at_open (log : Bytes) : At log kBlockSize log {} where
  fits := Nat.le_refl _
  buffer := List.nil_prefix
  eof := by simp
  eofOffset h := by cases h
  readError := rfl
  position := ⟨[], rfl, rfl⟩

-- Waiting for bytes leaves the record that is being put together alone.
structure Kept (r r' : FragmentBufferedReader) : Prop where
  fragments : r'.fragments = r.fragments
  inFragmentedRecord : r'.inFragmentedRecord = r.inFragmentedRecord
  reports : r'.reports = r.reports
  reads : r.reads ≤ r'.reads

theorem Kept.refl (r : FragmentBufferedReader) : Kept r r := ⟨rfl, rfl, rfl, Nat.le_refl _⟩

theorem Kept.trans (h : Kept r r') (h' : Kept r' r'') : Kept r r'' :=
  ⟨h'.fragments.trans h.fragments, h'.inFragmentedRecord.trans h.inFragmentedRecord,
    h'.reports.trans h.reports, h.reads.trans h'.reads⟩

-- A read between two states found fewer than `need` bytes of the log.
def Short (seen : Nat → Nat) (need : Nat) (r r' : FragmentBufferedReader) : Prop :=
  ∃ read, r.reads ≤ read ∧ read < r'.reads ∧ seen read < need

theorem Short.mono (h : Short seen need r₁ r₂) (hfirst : r.reads ≤ r₁.reads)
    (hlast : r₂.reads ≤ r'.reads) (hneed : need ≤ need') : Short seen need' r r' := by
  obtain ⟨read, hle, hlt, hseen⟩ := h
  exact ⟨read, hfirst.trans hle, Nat.lt_of_lt_of_le hlt hlast, Nat.lt_of_lt_of_le hseen hneed⟩

section Growth

variable {log : Bytes} {seen : Nat → Nat} {offset : Nat} {rest : Bytes}
  {r : FragmentBufferedReader}

theorem At.length_log (h : At log offset rest r) :
    r.endOfBufferOffset + rest.length = log.length + r.buffer.length := by
  obtain ⟨used, rfl, hend⟩ := h.position
  rw [hend, List.length_append]
  omega

theorem At.read_eq (h : At log offset rest r) (visible size : Nat) :
    ((log.take visible).drop r.endOfBufferOffset).take size =
      (rest.drop r.buffer.length).take (min size (visible - r.endOfBufferOffset)) := by
  obtain ⟨used, rfl, hend⟩ := h.position
  rw [hend, List.drop_take, ← List.drop_drop, List.drop_left, List.take_take]

theorem At.buffer_append (h : At log offset rest r) (size : Nat) :
    r.buffer ++ (rest.drop r.buffer.length).take size <+: rest := by
  obtain ⟨more, rfl⟩ := h.buffer
  rw [List.drop_left]
  exact (List.prefix_append_right_inj _).mpr (List.take_prefix _ _)

-- At the end of the file the rest of the block is waited for.
theorem tryReadMore_eof (seen : Nat → Nat) (h : At log offset rest r) (heof : r.eof = true) :
    ∃ r', r.tryReadMore (growing log seen) = (true, r') ∧ At log offset rest r' ∧ Kept r r' ∧
      r'.reads = r.reads + 1 ∧
      r'.buffer.length = r.buffer.length + min (rest.length - r.buffer.length)
        (min (kBlockSize - (offset + r.buffer.length)) (seen r.reads - r.endOfBufferOffset)) := by
  have hlt : offset + r.buffer.length < kBlockSize := by
    rw [h.eof] at heof
    exact of_decide_eq_true heof
  have hread := h.read_eq (seen r.reads) (kBlockSize - (offset + r.buffer.length))
  have hfront := h.buffer_append
    (min (kBlockSize - (offset + r.buffer.length)) (seen r.reads - r.endOfBufferOffset))
  rw [← hread] at hfront
  have hlength := congrArg List.length hread
  rw [List.length_take (l := rest.drop _), List.length_drop] at hlength
  obtain ⟨used, hused, hend⟩ := h.position
  simp only [tryReadMore, heof, Bool.true_eq_false, false_and, if_false, h.readError, if_true,
    unmarkEOF, Bool.false_eq_true, unmarkEOFInternal, growing, h.eofOffset heof]
  generalize ((log.take (seen r.reads)).drop r.endOfBufferOffset).take
    (kBlockSize - (offset + r.buffer.length)) = read at *
  by_cases hshort : read.length < kBlockSize - (offset + r.buffer.length)
  · simp only [hshort, if_true]
    refine ⟨_, rfl, ⟨?_, hfront, ?_, ?_, rfl, used, hused, ?_⟩,
      ⟨rfl, rfl, rfl, Nat.le_succ _⟩, rfl, ?_⟩
    · rw [List.length_append]
      omega
    · dsimp only
      rw [List.length_append]
      exact (decide_eq_true (by omega)).symm
    · intro _
      dsimp only
      rw [List.length_append, Nat.add_assoc]
    · dsimp only
      rw [List.length_append, hend, Nat.add_assoc]
    · dsimp only
      rw [List.length_append, hlength]
      omega
  · simp only [hshort, if_false, if_true]
    refine ⟨_, rfl, ⟨?_, hfront, ?_, ?_, rfl, used, hused, ?_⟩,
      ⟨rfl, rfl, rfl, Nat.le_succ _⟩, rfl, ?_⟩
    · rw [List.length_append]
      omega
    · dsimp only
      rw [List.length_append]
      exact (decide_eq_false (by omega)).symm
    · intro hfalse
      cases hfalse
    · dsimp only
      rw [List.length_append, hend, Nat.add_assoc]
    · dsimp only
      rw [List.length_append, hlength]
      omega

theorem tryReadMore_block (seen : Nat → Nat) (h : At log offset rest r) (heof : r.eof = false) :
    ∃ r', r.tryReadMore (growing log seen) = (true, r') ∧
      At log 0 (rest.drop r.buffer.length) r' ∧ Kept r r' ∧ r'.reads = r.reads + 1 ∧
      r'.buffer.length = min (rest.length - r.buffer.length)
        (min kBlockSize (seen r.reads - r.endOfBufferOffset)) := by
  have hread := h.read_eq (seen r.reads) kBlockSize
  have hlength := congrArg List.length hread
  rw [List.length_take (l := rest.drop _), List.length_drop] at hlength
  have hfront : ((log.take (seen r.reads)).drop r.endOfBufferOffset).take kBlockSize <+:
      rest.drop r.buffer.length := hread ▸ List.take_prefix _ _
  obtain ⟨used, hused, hend⟩ := h.position
  have hsplit : log = (used ++ r.buffer) ++ rest.drop r.buffer.length := by
    obtain ⟨more, rfl⟩ := h.buffer
    rw [List.drop_left, List.append_assoc, hused]
  simp only [tryReadMore, heof, h.readError, and_self, if_true, readBlock, growing]
  generalize ((log.take (seen r.reads)).drop r.endOfBufferOffset).take kBlockSize = block at *
  have hposition : r.endOfBufferOffset + block.length = (used ++ r.buffer).length + block.length := by
    rw [hend, List.length_append]
  by_cases hshort : block.length < kBlockSize
  · simp only [hshort, if_true]
    refine ⟨_, rfl, ⟨?_, hfront, ?_, ?_, rfl, _, hsplit, hposition⟩,
      ⟨rfl, rfl, rfl, Nat.le_succ _⟩, rfl, hlength.trans (Nat.min_comm ..)⟩
    · rw [Nat.zero_add]
      exact Nat.le_of_lt hshort
    · rw [Nat.zero_add]
      exact (decide_eq_true hshort).symm
    · intro _
      exact (Nat.zero_add _).symm
  · simp only [hshort, if_false]
    refine ⟨_, rfl, ⟨?_, hfront, ?_, ?_, rfl, _, hsplit, hposition⟩,
      ⟨rfl, rfl, rfl, Nat.le_succ _⟩, rfl, hlength.trans (Nat.min_comm ..)⟩
    · dsimp only
      omega
    · rw [Nat.zero_add]
      exact (decide_eq_false hshort).symm
    · intro hfalse
      cases hfalse

theorem fill_enough (hneed : need ≤ r.buffer.length) (hbound : 0 < bound) :
    r.fill file need bound = some (true, r) := by
  obtain ⟨bound, rfl⟩ := Nat.exists_eq_succ_of_ne_zero (Nat.ne_of_gt hbound)
  rw [fill, if_pos hneed]

theorem fill_more (hneed : r.buffer.length < need) (hmore : r.tryReadMore file = (true, r')) :
    r.fill file need (bound + 1) =
      if r'.buffer.length = r.buffer.length then some (false, r') else fill file need bound r' := by
  rw [fill, if_neg (Nat.not_le.mpr hneed), hmore]

theorem fill_in_block (seen : Nat → Nat) (need bound : Nat) (h : At log offset rest r)
    (hblock : offset + need ≤ kBlockSize) (hrest : need ≤ rest.length)
    (hbound : need - r.buffer.length < bound) :
    ∃ filled r', r.fill (growing log seen) need bound = some (filled, r') ∧ At log offset rest r' ∧
      Kept r r' ∧ (filled = true → need ≤ r'.buffer.length) ∧
      (filled = false → Short seen (log.length - rest.length + need) r r') := by
  induction bound generalizing r with
  | zero => exact absurd hbound (Nat.not_lt_zero _)
  | succ bound ih =>
    by_cases hneed : need ≤ r.buffer.length
    · exact ⟨true, r, fill_enough hneed (Nat.succ_pos _), h, .refl r, fun _ => hneed, by simp⟩
    · rw [Nat.not_le] at hneed
      have heof : r.eof = true := by
        rw [h.eof]
        exact decide_eq_true (by omega)
      obtain ⟨r', hmore, hat, hkept, hreads, hlength⟩ := tryReadMore_eof seen h heof
      rw [fill_more hneed hmore]
      by_cases hsame : r'.buffer.length = r.buffer.length
      · rw [if_pos hsame]
        refine ⟨false, r', rfl, hat, hkept, by simp, fun _ => ⟨r.reads, Nat.le_refl _, ?_, ?_⟩⟩
        · omega
        · have hposition := h.length_log
          omega
      · rw [if_neg hsame]
        obtain ⟨filled, r'', hfill, hat', hkept', henough, hshort⟩ := ih hat (by omega)
        refine ⟨filled, r'', hfill, hat', hkept.trans hkept', henough, fun hfalse => ?_⟩
        exact (hshort hfalse).mono hkept.reads (Nat.le_refl _) (Nat.le_refl _)

-- Waiting for a header behind a trailer that ends the block: the trailer is passed over when all
-- of it is there.
theorem fill_behind_trailer (seen : Nat → Nat) (h : At log offset (trailer ++ rest) r)
    (htrailer : offset + trailer.length = kBlockSize) (hshort : trailer.length < kHeaderSize)
    (hrest : kHeaderSize ≤ rest.length)
    (hbound : trailer.length - r.buffer.length + kHeaderSize + 1 < bound) :
    ∃ filled r', r.fill (growing log seen) kHeaderSize bound = some (filled, r') ∧ Kept r r' ∧
      (filled = true → At log 0 rest r' ∧ kHeaderSize ≤ r'.buffer.length) ∧
      (filled = false → (At log offset (trailer ++ rest) r' ∨ At log 0 rest r') ∧
        Short seen (log.length - rest.length + kHeaderSize) r r') := by
  induction bound generalizing r with
  | zero => exact absurd hbound (Nat.not_lt_zero _)
  | succ bound ih =>
    have hfits := h.fits
    have hposition := h.length_log
    rw [List.length_append] at hposition
    have hneed : r.buffer.length < kHeaderSize := by omega
    by_cases heof : r.eof = true
    · obtain ⟨r', hmore, hat, hkept, hreads, hlength⟩ := tryReadMore_eof seen h heof
      rw [List.length_append] at hlength
      rw [fill_more hneed hmore]
      by_cases hsame : r'.buffer.length = r.buffer.length
      · rw [if_pos hsame]
        have hlt : offset + r.buffer.length < kBlockSize := by
          rw [h.eof] at heof
          exact of_decide_eq_true heof
        refine ⟨false, r', rfl, hkept, by simp, fun _ => ⟨.inl hat, r.reads, ?_, ?_, ?_⟩⟩ <;> omega
      · rw [if_neg hsame]
        obtain ⟨filled, r'', hfill, hkept', hfilled, hwaits⟩ := ih hat (by omega)
        refine ⟨filled, r'', hfill, hkept.trans hkept', hfilled, fun hfalse => ?_⟩
        obtain ⟨hat', hshort'⟩ := hwaits hfalse
        exact ⟨hat', hshort'.mono hkept.reads (Nat.le_refl _) (Nat.le_refl _)⟩
    · -- the block is read whole, so the trailer is all there is in the buffer
      have hblock : ¬offset + r.buffer.length < kBlockSize := by
        rwa [h.eof, decide_eq_true_eq] at heof
      have hbuffer : r.buffer.length = trailer.length := by omega
      obtain ⟨r', hmore, hat, hkept, hreads, hlength⟩ :=
        tryReadMore_block seen h (Bool.not_eq_true _ ▸ heof)
      rw [hbuffer, List.drop_left] at hat
      rw [List.length_append] at hlength
      rw [fill_more hneed hmore]
      by_cases hsame : r'.buffer.length = r.buffer.length
      · rw [if_pos hsame]
        have hheader : kHeaderSize < kBlockSize := by decide
        refine ⟨false, r', rfl, hkept, by simp, fun _ => ⟨.inr hat, r.reads, ?_, ?_, ?_⟩⟩ <;> omega
      · rw [if_neg hsame]
        obtain ⟨filled, r'', hfill, hat', hkept', henough, hshort'⟩ :=
          fill_in_block seen kHeaderSize bound hat (by decide) hrest (by omega)
        refine ⟨filled, r'', hfill, hkept.trans hkept', fun htrue => ⟨hat', henough htrue⟩,
          fun hfalse => ⟨.inr hat', ?_⟩⟩
        exact (hshort' hfalse).mono hkept.reads (Nat.le_refl _) (Nat.le_refl _)

theorem fill_header (seen : Nat → Nat) (h : At log offset (trailer ++ rest) r)
    (htrailer : trailer.length = format.padding offset) (hrest : kHeaderSize ≤ rest.length)
    (hbound : 2 * kHeaderSize + 1 < bound) :
    ∃ filled r', r.fill (growing log seen) kHeaderSize bound = some (filled, r') ∧ Kept r r' ∧
      (filled = true → At log (format.start offset) rest r' ∧ kHeaderSize ≤ r'.buffer.length) ∧
      (filled = false →
        (At log offset (trailer ++ rest) r' ∨ At log (format.start offset) rest r') ∧
        Short seen (log.length - rest.length + kHeaderSize) r r') := by
  have hfits := h.fits
  by_cases hlt : kBlockSize - offset < kHeaderSize
  · have hpadding : format.padding offset = kBlockSize - offset := format.padding_of_lt hlt
    rw [format.start_of_lt hlt]
    exact fill_behind_trailer seen h (by omega) (by omega) hrest (by omega)
  · rw [format.padding_of_not_lt hlt, List.length_eq_zero_iff] at htrailer
    rw [htrailer, List.nil_append] at h ⊢
    rw [format.start_of_not_lt hlt]
    obtain ⟨filled, r', hfill, hat, hkept, henough, hshort⟩ :=
      fill_in_block seen kHeaderSize bound h (by omega) hrest (by omega)
    exact ⟨filled, r', hfill, hkept, fun htrue => ⟨hat, henough htrue⟩,
      fun hfalse => ⟨.inl hat, hshort hfalse⟩⟩

theorem fill_nil (seen : Nat → Nat) (h : At log offset [] r) (hbound : 0 < bound) :
    ∃ offset' r', r.fill (growing log seen) kHeaderSize bound = some (false, r') ∧
      At log offset' [] r' ∧ Kept r r' := by
  obtain ⟨bound, rfl⟩ := Nat.exists_eq_succ_of_ne_zero (Nat.ne_of_gt hbound)
  have hempty : r.buffer.length = 0 := Nat.le_zero.mp h.buffer.length_le
  have hneed : r.buffer.length < kHeaderSize := by
    rw [hempty]
    decide
  by_cases heof : r.eof = true
  · obtain ⟨r', hmore, hat, hkept, _, hlength⟩ := tryReadMore_eof seen h heof
    rw [fill_more hneed hmore, if_pos (by rw [hlength]; simp)]
    exact ⟨offset, r', rfl, hat, hkept⟩
  · obtain ⟨r', hmore, hat, hkept, _, hlength⟩ :=
      tryReadMore_block seen h (Bool.not_eq_true _ ▸ heof)
    rw [fill_more hneed hmore, if_pos (by rw [hlength, hempty]; simp)]
    rw [List.drop_nil] at hat
    exact ⟨0, r', rfl, hat, hkept⟩

end Growth

end MlkvPlus.Log.FragmentBufferedReader
