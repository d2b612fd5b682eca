import MlkvPlus.WriteBatch.Varint
import Mathlib.Algebra.BigOperators.Group.List.Basic

namespace MlkvPlus.WriteBatch

open Gds

theorem varintSize_le_of_lt (hpos : 0 < groups) (hlt : value < 2 ^ (7 * groups)) :
    varintSize value ≤ groups := by
  have hgroup (k : Nat) (hle : 2 ^ (7 * k) ≤ value) : k < groups := by
    have hpow : 2 ^ (7 * k) < 2 ^ (7 * groups) := Nat.lt_of_le_of_lt hle hlt
    have := (Nat.pow_lt_pow_iff_right (by decide)).mp hpow
    omega
  unfold varintSize
  by_cases h7 : 2 ^ 7 ≤ value
  · have := hgroup 1 h7
    by_cases h14 : 2 ^ 14 ≤ value
    · have := hgroup 2 h14
      by_cases h21 : 2 ^ 21 ≤ value
      · have := hgroup 3 h21
        by_cases h28 : 2 ^ 28 ≤ value
        · have := hgroup 4 h28
          simp only [h7, h14, h21, h28, ite_true]
          omega
        · simp only [h7, h14, h21, h28, ite_true, ite_false]
          omega
      · simp only [h7, h14, h21, show ¬2 ^ 28 ≤ value by omega, ite_true, ite_false]
        omega
    · simp only [h7, h14, show ¬2 ^ 21 ≤ value by omega, show ¬2 ^ 28 ≤ value by omega, ite_true,
        ite_false]
      omega
  · simp only [h7, show ¬2 ^ 14 ≤ value by omega, show ¬2 ^ 21 ≤ value by omega,
      show ¬2 ^ 28 ≤ value by omega, ite_false]
    omega

theorem varintSize_mono (hle : a ≤ b) : varintSize a ≤ varintSize b := by
  unfold varintSize
  have hstep (bound : Nat) : (if bound ≤ a then 1 else 0) ≤ (if bound ≤ b then 1 else 0) := by
    split
    · rw [if_pos (by omega)]
    · omega
  have h7 := hstep (2 ^ 7)
  have h14 := hstep (2 ^ 14)
  have h21 := hstep (2 ^ 21)
  have h28 := hstep (2 ^ 28)
  omega

theorem length_putVarint32 (value : Nat) : (putVarint32 value).length = varintSize value := by
  unfold putVarint32 varintSize
  repeat' split
  all_goals first | rfl | omega

theorem length_recordBytes_le (key value : Bytes) :
    (recordBytes key value).length ≤ recordSize key.length value.length := by
  have hkey := varintSize_mono (Nat.mod_le key.length (2 ^ 32))
  have hvalue := varintSize_mono (Nat.mod_le value.length (2 ^ 32))
  simp only [recordBytes, recordSize, List.length_append, List.length_cons, length_putVarint32]
  omega

theorem length_storeRecords (pairs : List α) (size : α → Nat) (record : α → Bytes)
    (start : Nat) (memory : Bytes) (hsize : ∀ pair ∈ pairs, (record pair).length ≤ size pair)
    (hfits : start + (pairs.map size).sum ≤ memory.length) :
    (storeRecords memory
      ((exclusiveScan start (pairs.map size)).zip (pairs.map record))).length =
      memory.length := by
  induction pairs generalizing start memory with
  | nil => rfl
  | cons pair rest ih =>
    have hrecord := hsize pair (List.mem_cons_self ..)
    rw [List.map_cons, List.sum_cons] at hfits
    have hstore := Bytes.length_store memory start (record pair) (by omega)
    simp only [List.map_cons, exclusiveScan, List.zip_cons_cons, storeRecords]
    rw [ih _ _ (fun pair hmem => hsize pair (List.mem_cons_of_mem _ hmem))
      (by rw [hstore]; omega), hstore]

theorem length_header (memory : DeviceBuffer size) (sequenceNumber count : Nat)
    (hle : kWriteBatchHeader ≤ size) :
    ((Bytes.store memory.1 0 (Bytes.fixed 8 sequenceNumber)).store 8 (Bytes.fixed 4 count)).length =
      size := by
  have hsize := memory.2
  simp only [kWriteBatchHeader] at hle
  have hsequence := Bytes.length_store memory.1 0 (Bytes.fixed 8 sequenceNumber)
    (by rw [Bytes.length_fixed]; omega)
  rw [Bytes.length_store _ 8 _ (by rw [Bytes.length_fixed, hsequence]; omega), hsequence, hsize]

theorem generateTypedWriteBatch_ok [Scalar K] [Scalar V]
    (fresh : (size : Nat) → DeviceBuffer size) (pairs : List (K × Vector V dim))
    (sequenceNumber : Nat) (hpos : 0 < pairs.length) :
    ∃ payload, generateTypedWriteBatch fresh pairs sequenceNumber = .ok payload ∧
      payload.length = kWriteBatchHeader +
        pairs.length * recordSize (Scalar.size K) (Scalar.size V * dim) := by
  have hne : ¬pairs.length = 0 := by omega
  have hsum : (pairs.map fun _ => recordSize (Scalar.size K) (Scalar.size V * dim)).sum =
      pairs.length * recordSize (Scalar.size K) (Scalar.size V * dim) := by
    rw [List.map_const', List.sum_replicate_nat]
  have hrecords (pair : K × Vector V dim) (_ : pair ∈ pairs) :
      (recordBytes (Scalar.toBytes pair.1) (vectorBytes pair.2)).length ≤
        recordSize (Scalar.size K) (Scalar.size V * dim) := by
    have hle := length_recordBytes_le (Scalar.toBytes pair.1) (vectorBytes pair.2)
    rwa [Scalar.length_toBytes, length_vectorBytes] at hle
  simp only [generateTypedWriteBatch, hne, ite_false]
  refine ⟨_, rfl, ?_⟩
  rw [← hsum]
  generalize htotal : kWriteBatchHeader +
    (pairs.map fun _ => recordSize (Scalar.size K) (Scalar.size V * dim)).sum = total
  have hheader := length_header (fresh total) sequenceNumber pairs.length (by omega)
  exact (length_storeRecords pairs _ _ kWriteBatchHeader _ hrecords
    (Nat.le_of_eq (htotal.trans hheader.symm))).trans hheader

theorem le_exclusiveScan (start : Nat) (sizes : List Nat) :
    ∀ offset ∈ exclusiveScan start sizes, start ≤ offset := by
  induction sizes generalizing start with
  | nil => exact List.forall_mem_nil _
  | cons size rest ih =>
    rw [exclusiveScan, List.forall_mem_cons]
    exact ⟨Nat.le_refl _, fun offset hmem => Nat.le_of_add_right_le (ih _ offset hmem)⟩

theorem take_storeRecords (memory : Bytes) (records : List (Nat × Bytes))
    (hrecords : ∀ record ∈ records, count ≤ record.1) (hle : count ≤ memory.length) :
    (storeRecords memory records).take count = memory.take count := by
  induction records generalizing memory with
  | nil => rfl
  | cons record rest ih =>
    obtain ⟨hrecord, hrest⟩ := List.forall_mem_cons.mp hrecords
    have hstore := Bytes.take_store memory record.2 hrecord hle
    have hlength : count ≤ (memory.store record.1 record.2).length := by
      have hsame := congrArg List.length hstore
      rw [List.length_take, List.length_take, Nat.min_eq_left hle] at hsame
      omega
    rw [storeRecords, ih _ hrest hlength, hstore]

theorem take_header (memory : Bytes) (sequenceNumber count : Nat) :
    ((memory.store 0 (Bytes.fixed 8 sequenceNumber)).store 8 (Bytes.fixed 4 count)).take
      kWriteBatchHeader = Bytes.fixed 8 sequenceNumber ++ Bytes.fixed 4 count := by
  have hfirst : (memory.store 0 (Bytes.fixed 8 sequenceNumber)).take 8 =
      Bytes.fixed 8 sequenceNumber := by
    rw [Bytes.store, List.take_zero, List.nil_append]
    exact List.take_left' (Bytes.length_fixed 8 sequenceNumber)
  rw [Bytes.store, hfirst]
  exact List.take_left' (by simp [kWriteBatchHeader])

theorem generateTypedWriteBatch_header [Scalar K] [Scalar V] {pairs : List (K × Vector V dim)}
    (h : generateTypedWriteBatch fresh pairs sequenceNumber = .ok payload) :
    payload.take kWriteBatchHeader =
      Bytes.fixed 8 sequenceNumber ++ Bytes.fixed 4 pairs.length := by
  unfold generateTypedWriteBatch at h
  split at h
  · cases h
  cases h
  generalize htotal : kWriteBatchHeader +
    (pairs.map fun _ => recordSize (Scalar.size K) (Scalar.size V * dim)).sum = total
  rw [take_storeRecords _ _ (fun record hmem => ?_), take_header]
  · rw [length_header _ _ _ (by omega)]
    omega
  · exact le_exclusiveScan _ _ _ (List.of_mem_zip hmem).1

theorem getLengthPrefixedSlice_spec (h : getLengthPrefixedSlice input = some (slice, rest)) :
    varintSize slice.length + slice.length + rest.length ≤ input.length := by
  unfold getLengthPrefixedSlice at h
  split at h
  · cases h
  · rename_i length tail hvarint
    split at h
    · rename_i hle
      cases h
      -- a number is never shorter than its encoding
      obtain ⟨bytes, rfl, hbytes⟩ := getVarint32_eq_some_iff.mp hvarint
      have hsize := varintSize_le_of_lt hbytes.length_pos hbytes.lt
      rw [List.length_take, List.length_drop, List.length_append, Nat.min_eq_left hle]
      omega
    · cases h

theorem decodeRecord_spec (h : decodeRecord input = some (entry, rest)) :
    recordSize entry.key.length entry.value.length + rest.length ≤ input.length := by
  unfold decodeRecord at h
  split at h
  · cases h
  · split at h
    · split at h
      · cases h
      · rename_i hkey
        split at h
        · cases h
        · rename_i hvalue
          cases h
          have hkey := getLengthPrefixedSlice_spec hkey
          have hvalue := getLengthPrefixedSlice_spec hvalue
          simp only [recordSize, List.length_cons]
          omega
    · cases h

theorem decodeRecords_spec (fuel : Nat) (input : Bytes) (entries : List Entry)
    (h : decodeRecords fuel input = some entries) :
    (entries.map fun entry => recordSize entry.key.length entry.value.length).sum ≤
        input.length ∧
      (entries = [] → input = []) := by
  induction fuel generalizing input entries with
  | zero =>
    cases input with
    | nil =>
      cases h
      simp
    | cons byte input => cases h
  | succ fuel ih =>
    cases input with
    | nil =>
      cases h
      simp
    | cons byte input =>
      rw [decodeRecords] at h
      split at h
      · cases h
      · rename_i entry rest hrecord
        obtain ⟨tail, htail, rfl⟩ := Option.map_eq_some_iff.mp h
        have hsum := (ih rest tail htail).1
        have hsize := decodeRecord_spec hrecord
        refine ⟨?_, by simp⟩
        rw [List.map_cons, List.sum_cons]
        omega

-- The puts a batch decodes to fill the batch, with nothing before, between or behind them.
theorem decode_spec (h : decode batch = some (sequenceNumber, entries)) :
    kWriteBatchHeader +
        (entries.map fun entry => recordSize entry.key.length entry.value.length).sum ≤
        batch.length ∧
      (kWriteBatchHeader < batch.length → entries ≠ []) := by
  unfold decode at h
  split at h
  · cases h
  · rename_i hheader
    simp only at h
    split at h
    · cases h
    · rename_i decoded hrecords
      split at h
      · cases h
        obtain ⟨hsum, hnil⟩ := decodeRecords_spec _ _ _ hrecords
        rw [List.length_drop] at hsum
        refine ⟨by omega, ?_⟩
        intro hlt hempty
        have hlength := congrArg List.length (hnil hempty)
        rw [List.length_drop, List.length_nil] at hlength
        omega
      · cases h

end MlkvPlus.WriteBatch
