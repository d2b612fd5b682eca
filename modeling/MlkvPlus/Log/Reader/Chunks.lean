import MlkvPlus.Data.Framing.Chunks
import MlkvPlus.Log.Reader.Replay

namespace MlkvPlus.Log.Reader

open Framing (Chunk absorb assemble)

-- The loop of ReadRecord with `part` as the record under way.
def loop (env : ReaderEnv) (mode : WALRecoveryMode) (fuel : Nat) (part : Option Bytes)
    (r : Reader) : Option (Option Bytes × Reader) :=
  readRecordLoop env mode fuel part.isSome (part.getD []) r

-- Up to reports, the switch of ReadRecord absorbs the fragment.
theorem dispatch_absorb (env : ReaderEnv) (mode : WALRecoveryMode) (part : Option Bytes)
    (kind : Framing.Kind) (body : Bytes) (r : Reader) (h : Loaded offset rest r) :
    ∃ r', Loaded offset rest r' ∧
      dispatch env mode part.isSome (part.getD [])
          { code := (noChecksumType kind).code, fragment := body } r =
        match absorb part body kind with
        | (some data, _) => .record data r'
        | (none, part') => .next part'.isSome (part'.getD []) r' := by
  have hreport (bytes : Nat) (reason : String) (r : Reader) (h : Loaded offset rest r) :
      Loaded offset rest (r.reportCorruption bytes reason) := ⟨h.buffer, h.file, h.eof⟩
  have hread (r : Reader) (h : Loaded offset rest r) :
      Loaded offset rest { r with firstRecordRead := true } := ⟨h.buffer, h.file, h.eof⟩
  -- a first or full fragment reports the record it cuts off, if that has content
  have hcut (reason : String) : Loaded offset rest
      (if (part.isSome && !(part.getD []).isEmpty) = true then
        r.reportCorruption (part.getD []).length reason else r) := by
    split
    · exact hreport _ _ r h
    · exact h
  cases kind with
  | full => exact ⟨_, hread _ (hcut "partial record without end(1)"), rfl⟩
  | first => exact ⟨_, hcut "partial record without end(2)", rfl⟩
  | middle =>
    cases part with
    | none => exact ⟨_, hreport _ "missing start of fragmented record(1)" r h, rfl⟩
    | some scratch => exact ⟨r, h, rfl⟩
  | last =>
    cases part with
    | none => exact ⟨_, hreport _ "missing start of fragmented record(2)" r h, rfl⟩
    | some scratch => exact ⟨_, hread r h, rfl⟩

section Stream

variable (env : ReaderEnv) (mode : WALRecoveryMode)
variable (filler : Bytes) (hfiller : kHeaderSize ≤ filler.length)

theorem loop_nil (fuel : Nat) (part : Option Bytes) (hfuel : 0 < fuel)
    (h : Loaded offset [] r) : ∃ r', loop env mode fuel part r = some (none, r') := by
  obtain ⟨fuel, rfl⟩ := Nat.exists_eq_succ_of_ne_zero (Nat.ne_of_gt hfuel)
  have hread : ∃ physical r', r.readPhysicalRecord env = (physical, r') ∧ Torn physical r' := by
    by_cases hend : kBlockSize - offset = 0
    · obtain ⟨r₁, hloaded, _, hskip⟩ := skip_trailer env h (by rw [hend]; decide)
        (Nat.le_of_eq hend)
      obtain ⟨physical, r', hshort, htorn, _⟩ :=
        read_short env hloaded (by simp [kHeaderSize]) (by simp [kBlockSize])
      exact ⟨physical, r', hskip.trans hshort, htorn⟩
    · obtain ⟨physical, r', hshort, htorn, _⟩ :=
        read_short env h (by decide) (Nat.pos_of_ne_zero hend)
      exact ⟨physical, r', hshort, htorn⟩
  obtain ⟨physical, r₁, hread, htorn⟩ := hread
  obtain ⟨r', hstop⟩ := dispatch_torn env mode part.isSome (part.getD []) htorn
  exact ⟨r', by simp only [loop, readRecordLoop, hread, hstop]⟩

theorem loop_place (chunks : List (Chunk UInt8)) (offset fuel : Nat) (part : Option Bytes)
    (r : Reader) (hfits : format.Fits offset chunks)
    (hfuel : ((noChecksumLayout filler hfiller).place offset chunks).length < fuel)
    (h : Loaded offset ((noChecksumLayout filler hfiller).place offset chunks) r) :
    (assemble part chunks = [] ∧ ∃ r', loop env mode fuel part r = some (none, r')) ∨
      ∃ data rest offset' r', assemble part chunks = data :: assemble none rest ∧
        loop env mode fuel part r = some (some data, r') ∧
        format.Fits offset' rest ∧
        Loaded offset' ((noChecksumLayout filler hfiller).place offset' rest) r' ∧
        ((noChecksumLayout filler hfiller).place offset' rest).length <
          ((noChecksumLayout filler hfiller).place offset chunks).length := by
  induction chunks generalizing offset fuel part r with
  | nil => exact .inl ⟨rfl, loop_nil env mode fuel part (Nat.zero_lt_of_lt hfuel) h⟩
  | cons chunk chunks ih =>
    cases chunk with
    | trailer =>
      simp only [Framing.Layout.place] at h hfuel ⊢
      rw [List.length_append] at hfuel ⊢
      obtain ⟨r₁, hloaded, _, hread⟩ := skip_padding env filler hfiller h
      have hcases := ih (format.start offset) fuel part r₁ hfits.2
        (Nat.lt_of_le_of_lt (Nat.le_add_left _ _) hfuel) hloaded
      rw [loop, readRecordLoop_congr env mode hread, ← loop]
      obtain hdone | ⟨data, rest, offset', r', hrecord, hloop, hfits', hloaded', hlt⟩ := hcases
      · exact .inl hdone
      · exact .inr ⟨data, rest, offset', r', hrecord, hloop, hfits', hloaded',
          Nat.lt_of_lt_of_le hlt (Nat.le_add_left _ _)⟩
    | fragment kind body =>
      obtain ⟨fuel, rfl⟩ :=
        Nat.exists_eq_succ_of_ne_zero (Nat.ne_of_gt (Nat.zero_lt_of_lt hfuel))
      have hlength : ((noChecksumLayout filler hfiller).place offset
          (.fragment kind body :: chunks)).length = kHeaderSize + body.length +
          ((noChecksumLayout filler hfiller).place
            (format.move offset (.fragment kind body)) chunks).length := by
        rw [Framing.Layout.place, List.length_append, List.length_append,
          Framing.Layout.header_length]
        rfl
      have hheader : 0 < kHeaderSize := by decide
      obtain ⟨r₁, hread, hloaded, _⟩ := read_fragment env kind hfits.1 h
      obtain ⟨r₂, hloaded', hdispatch⟩ := dispatch_absorb env mode part kind body r₁ hloaded
      have hloop : loop env mode (fuel + 1) part r =
          match absorb part body kind with
          | (some data, _) => some (some data, r₂)
          | (none, part') => loop env mode fuel part' r₂ := by
        simp only [loop, readRecordLoop, hread, hdispatch]
        rcases absorb part body kind with ⟨_ | data, part'⟩ <;> rfl
      have hfinished := Framing.absorb_finished part body kind
      rw [hloop, assemble]
      generalize absorb part body kind = result at hfinished ⊢
      obtain ⟨_ | data, part'⟩ := result
      · obtain hdone | ⟨data, rest, offset', r', hrecord, hnext, hfits', hloaded', hlt⟩ :=
          ih _ fuel part' r₂ hfits.2 (by rw [hlength] at hfuel; omega) hloaded'
        · exact .inl hdone
        · exact .inr ⟨data, rest, offset', r', hrecord, hnext, hfits', hloaded', by
            rw [hlength]
            omega⟩
      · cases hfinished data rfl
        exact .inr ⟨data, chunks, _, r₂, rfl, rfl, hfits.2, hloaded', by
          rw [hlength]
          omega⟩

-- The reader returns exactly the records that the chunks of a file add up to.
theorem readRecords_place (chunks : List (Chunk UInt8)) (offset fuel count : Nat) (r : Reader)
    (hfits : format.Fits offset chunks)
    (hfuel : ((noChecksumLayout filler hfiller).place offset chunks).length < fuel)
    (hcount : ((noChecksumLayout filler hfiller).place offset chunks).length < count)
    (h : Loaded offset ((noChecksumLayout filler hfiller).place offset chunks) r) :
    ∃ r', readRecords env mode fuel count r = some (assemble none chunks, r') := by
  induction count generalizing chunks offset r with
  | zero => omega
  | succ count ih =>
    obtain ⟨hnil, r', hloop⟩ | ⟨data, rest, offset', r₁, hrecord, hloop, hfits', hloaded, hlt⟩ :=
      loop_place env mode filler hfiller chunks offset fuel none r hfits hfuel h
    · have hread : r.readRecord env mode fuel = some (none, r') := hloop
      exact ⟨r', by simp only [readRecords, hread, hnil]⟩
    · have hread : r.readRecord env mode fuel = some (some data, r₁) := hloop
      obtain ⟨r', hrest⟩ := ih rest offset' r₁ hfits' (by omega) (by omega) hloaded
      exact ⟨r', by simp only [readRecords, hread, hrest, hrecord, Option.map_some]⟩

end Stream

end MlkvPlus.Log.Reader
