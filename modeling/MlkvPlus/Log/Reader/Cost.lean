import MlkvPlus.Data.Framing.Shifted
import MlkvPlus.Log.Reader.Dispatch

namespace MlkvPlus.Log.Reader

def left (r : Reader) : Nat :=
  r.buffer.length + r.file.length

def isFragment (code : UInt8) : Bool :=
  isFull code || isFirst code || isMiddle code || isLast code

def held (inFragmentedRecord : Bool) (scratch : Bytes) : Nat :=
  if inFragmentedRecord = true then scratch.length else 0

theorem parseBody_cases (h : parseBody env r headerSize length type = (physical, r')) :
    ∃ buffer, r' = { r with buffer := buffer } ∧
      (isFragment physical.code = false ∧ buffer.length ≤ r.buffer.length - headerSize ∨
        headerSize + length ≤ r.buffer.length ∧ physical.code = type ∧
          physical.fragment.length = length ∧
          buffer.length = r.buffer.length - (headerSize + length)) := by
  unfold parseBody at h
  split at h
  · cases h
    exact ⟨[], rfl, .inl ⟨rfl, Nat.zero_le _⟩⟩
  · rename_i hlong
    split at h
    · cases h
      refine ⟨_, rfl, .inl ⟨rfl, ?_⟩⟩
      rw [List.length_drop]
      omega
    · split at h
      · cases h
        exact ⟨[], rfl, .inl ⟨rfl, Nat.zero_le _⟩⟩
      · split at h
        · cases h
          exact ⟨[], rfl, .inl ⟨rfl, Nat.zero_le _⟩⟩
        · cases h
          refine ⟨_, rfl, .inr ⟨Nat.le_of_not_lt hlong, rfl, ?_, List.length_drop⟩⟩
          rw [List.length_take, List.length_drop]
          omega

structure Paid (physical : Physical) (r r' : Reader) : Prop where
  block : r'.buffer.length ≤ kBlockSize
  left_le : r'.left ≤ r.left
  fragment : isFragment physical.code = true →
    physical.fragment.length ≤ kBlockSize - kHeaderSize ∧
      r'.left + kHeaderSize + physical.fragment.length ≤ r.left

theorem parseBody_paid (env : ReaderEnv) (r : Reader) (length : Nat) (type : UInt8)
    (hblock : r.buffer.length ≤ kBlockSize) (hheader : kHeaderSize ≤ headerSize) :
    Paid (r.parseBody env headerSize length type).1 r (r.parseBody env headerSize length type).2 := by
  obtain ⟨buffer, hplace, ⟨hcode, hbuffer⟩ | ⟨hle, -, hfragment, hbuffer⟩⟩ :=
    parseBody_cases (Prod.mk.eta (p := r.parseBody env headerSize length type)).symm
  · rw [hplace]
    refine ⟨by simp only; omega, by simp only [left]; omega, ?_⟩
    rw [hcode]
    exact fun hfragment => absurd hfragment (by decide)
  · rw [hplace]
    refine ⟨by simp only; omega, by simp only [left]; omega, fun _ => ⟨by omega, ?_⟩⟩
    simp only [left]
    omega

theorem parsePhysicalRecord_paid (hblock : r.buffer.length ≤ kBlockSize)
    (h : parsePhysicalRecord env r = (some physical, r')) : Paid physical r r' := by
  unfold parsePhysicalRecord at h
  split at h
  · simp only at h
    split at h
    · split at h
      · cases h
        exact ⟨hblock, Nat.le_refl _, fun hfragment => absurd hfragment (by decide)⟩
      · split at h
        · cases h
        · cases h
          have hpaid (length : Nat) (type : UInt8) := parseBody_paid env { r with recycled := true }
            length type hblock (show kHeaderSize ≤ kRecyclableHeaderSize by decide)
          exact ⟨(hpaid _ _).block, (hpaid _ _).left_le, (hpaid _ _).fragment⟩
    · cases h
      exact parseBody_paid env r _ _ hblock (Nat.le_refl _)
  · cases h

theorem readPhysicalRecord_paid (env : ReaderEnv) (r : Reader)
    (hblock : r.buffer.length ≤ kBlockSize) :
    Paid (r.readPhysicalRecord env).1 r (r.readPhysicalRecord env).2 := by
  fun_induction readPhysicalRecord env r with
  | case1 r physical r' hparse => exact parsePhysicalRecord_paid hblock hparse
  | case2 r r' hparse physical r'' hmore =>
    obtain ⟨hfile, -⟩ := parse_none hparse
    unfold readMore at hmore
    split at hmore
    · cases hmore
    · split at hmore <;> cases hmore
      all_goals
        refine ⟨Nat.zero_le _, ?_, fun hfragment => absurd hfragment (by simp [isFragment]; decide)⟩
        simp only [left, hfile, List.length_nil]
        omega
  | case3 r r' hparse r'' hmore hlt ih =>
    obtain ⟨hfile, -⟩ := parse_none hparse
    have hplace : r''.buffer.length ≤ kBlockSize ∧ r''.left ≤ r.left := by
      unfold readMore at hmore
      split at hmore
      · cases hmore
        simp only [left, hfile, List.length_take, List.length_drop]
        omega
      · split at hmore <;> cases hmore
    have hpaid := ih hplace.1
    exact ⟨hpaid.block, Nat.le_trans hpaid.left_le hplace.2, fun hfragment =>
      ⟨(hpaid.fragment hfragment).1, Nat.le_trans (hpaid.fragment hfragment).2 hplace.2⟩⟩

-- What a record that is returned has cost: at least a header for each of its fragments.
theorem readRecordLoop_paid (hblock : r.buffer.length ≤ kBlockSize)
    (h : readRecordLoop env mode fuel inFragmentedRecord scratch r = some (some data, r')) :
    r'.buffer.length ≤ kBlockSize ∧ ∃ count sum, 0 < count ∧
      sum ≤ (kBlockSize - kHeaderSize) * count ∧
      data.length ≤ held inFragmentedRecord scratch + sum ∧
      r'.left + sum + kHeaderSize * count ≤ r.left := by
  induction fuel generalizing inFragmentedRecord scratch r with
  | zero => cases h
  | succ fuel ih =>
    obtain ⟨physical, r₁, hread, hpass⟩ := readRecordLoop_cases h
    have hpaid : Paid physical r r₁ := by
      have hboth := readPhysicalRecord_paid env r hblock
      rw [hread] at hboth
      exact hboth
    obtain hends | ⟨inFragmentedRecord', scratch', r₂, hgoes, hnext⟩ := hpass
    · have hplace : r'.left = r₁.left := by
        rw [left, left, hends.place.buffer, hends.place.file]
      have hfragment : isFragment physical.code = true := by
        obtain ⟨hfull, -⟩ | ⟨hlast, -⟩ := hends.record
        · simp [isFragment, hfull]
        · simp [isFragment, hlast]
      obtain ⟨hle, hcost⟩ := hpaid.fragment hfragment
      refine ⟨hends.place.buffer ▸ hpaid.block, 1, physical.fragment.length, Nat.one_pos, ?_, ?_, ?_⟩
      · rw [Nat.mul_one]
        exact hle
      · obtain ⟨-, rfl⟩ | ⟨-, hfragmented, rfl⟩ := hends.record
        · exact Nat.le_add_left _ _
        · rw [held, if_pos hfragmented, List.length_append]
      · rw [hplace, Nat.mul_one]
        omega
    · have hplace : r₂.left = r₁.left := by
        rw [left, left, hgoes.place.buffer, hgoes.place.file]
      obtain ⟨hblock', count, sum, hpos, hsum, hdata, hcost⟩ :=
        ih (hgoes.place.buffer ▸ hpaid.block) hnext
      have hleft := hpaid.left_le
      refine ⟨hblock', ?_⟩
      -- the fragment counts if its data is held now
      by_cases hheld : held inFragmentedRecord' scratch' ≤ held inFragmentedRecord scratch
      · exact ⟨count, sum, hpos, hsum, by omega, by omega⟩
      · have hfragmented : inFragmentedRecord' = true := by
          by_contra hnot
          rw [held, if_neg hnot] at hheld
          exact hheld (Nat.zero_le _)
        rw [held, if_pos hfragmented] at hheld hdata
        obtain ⟨hfragment, hlength⟩ : isFragment physical.code = true ∧ scratch'.length ≤
            held inFragmentedRecord scratch + physical.fragment.length := by
          obtain ⟨hfirst, rfl⟩ | ⟨hmiddle, hbefore, rfl⟩ | ⟨-, rfl⟩ := hgoes.record hfragmented
          · exact ⟨by simp [isFragment, hfirst], Nat.le_add_left _ _⟩
          · refine ⟨by simp [isFragment, hmiddle], ?_⟩
            rw [held, if_pos hbefore, List.length_append]
          · exact absurd (Nat.zero_le _) hheld
        obtain ⟨hle, hcost'⟩ := hpaid.fragment hfragment
        refine ⟨count + 1, physical.fragment.length + sum, Nat.succ_pos _, ?_, by omega, ?_⟩
        · rw [Nat.mul_succ]
          omega
        · rw [Nat.mul_succ]
          omega

theorem size_le_of_readRecordLoop (hblock : r.buffer.length ≤ kBlockSize)
    (h : readRecordLoop env mode fuel inFragmentedRecord scratch r = some (some data, r')) :
    format.size format.blockSize (data.length - held inFragmentedRecord scratch) + r'.left ≤
      r.left := by
  obtain ⟨-, count, sum, hpos, hsum, hdata, hcost⟩ := readRecordLoop_paid hblock h
  have hsize := format.size_le_of_count hpos
    (show data.length - held inFragmentedRecord scratch ≤ (kBlockSize - kHeaderSize) * count by omega)
  have hheader : format.headerSize * count = kHeaderSize * count := rfl
  omega

theorem sizes_le_of_readRecords (hblock : r.buffer.length ≤ kBlockSize)
    (h : readRecords env mode fuel count r = some (records, r')) :
    (records.map fun data => format.size format.blockSize data.length).sum ≤ r.left := by
  induction count generalizing r records with
  | zero => cases h
  | succ count ih =>
    rw [readRecords] at h
    split at h
    · cases h
    · cases h
      exact Nat.zero_le _
    · rename_i data r₁ hread
      obtain ⟨⟨rest, r₂⟩, hrest, hresult⟩ := Option.map_eq_some_iff.mp h
      cases hresult
      have hcost := size_le_of_readRecordLoop hblock hread
      have hmore := ih (readRecordLoop_paid hblock hread).1 hrest
      rw [held, if_neg (by decide), Nat.sub_zero] at hcost
      rw [List.map_cons, List.sum_cons]
      omega

end MlkvPlus.Log.Reader
