import MlkvPlus.WriteBatch.Sizes

namespace MlkvPlus.WriteBatch

-- A batch as RocksDB lays it out.
def encode (sequenceNumber : Nat) (entries : List Entry) : Bytes :=
  Bytes.fixed 8 sequenceNumber ++ Bytes.fixed 4 entries.length ++
    entries.flatMap fun entry => recordBytes entry.key entry.value

theorem getLengthPrefixedSlice_putVarint32 (slice rest : Bytes) (hlength : slice.length < 2 ^ 32) :
    getLengthPrefixedSlice (putVarint32 slice.length ++ (slice ++ rest)) = some (slice, rest) := by
  rw [getLengthPrefixedSlice, getVarint32_putVarint32 hlength]
  dsimp only
  rw [List.length_append, if_pos (Nat.le_add_right ..), List.take_left, List.drop_left]

theorem decodeRecord_recordBytes (entry : Entry) (rest : Bytes)
    (hkey : entry.key.length < 2 ^ 32) (hvalue : entry.value.length < 2 ^ 32) :
    decodeRecord (recordBytes entry.key entry.value ++ rest) = some (entry, rest) := by
  have hslice := getLengthPrefixedSlice_putVarint32 entry.key
    (putVarint32 entry.value.length ++ (entry.value ++ rest)) hkey
  have hslice' := getLengthPrefixedSlice_putVarint32 entry.value rest hvalue
  rw [recordBytes, Nat.mod_eq_of_lt hkey, Nat.mod_eq_of_lt hvalue]
  simp only [List.cons_append, List.append_assoc, decodeRecord, if_true, hslice, hslice']

theorem decodeRecords_flatMap (entries : List Entry) (fuel : Nat)
    (hsizes : ∀ entry ∈ entries, entry.key.length < 2 ^ 32 ∧ entry.value.length < 2 ^ 32)
    (hfuel : entries.length ≤ fuel) :
    decodeRecords fuel (entries.flatMap fun entry => recordBytes entry.key entry.value) =
      some entries := by
  induction entries generalizing fuel with
  | nil => cases fuel <;> rfl
  | cons entry rest ih =>
    obtain ⟨hentry, hrest⟩ := List.forall_mem_cons.mp hsizes
    cases fuel with
    | zero => cases hfuel
    | succ fuel =>
      have hrecord := decodeRecord_recordBytes entry
        (rest.flatMap fun entry => recordBytes entry.key entry.value) hentry.1 hentry.2
      rw [List.flatMap_cons]
      rw [recordBytes] at hrecord ⊢
      simp only [List.cons_append] at hrecord ⊢
      rw [decodeRecords, hrecord]
      dsimp only
      rw [ih fuel hrest (Nat.le_of_succ_le_succ hfuel), Option.map_some]

theorem length_le_length_records (entries : List Entry) :
    entries.length ≤ (entries.flatMap fun entry => recordBytes entry.key entry.value).length := by
  induction entries with
  | nil => exact Nat.le_refl _
  | cons entry rest ih =>
    rw [List.flatMap_cons, List.length_append, List.length_cons]
    have hpos : 0 < (recordBytes entry.key entry.value).length := Nat.succ_pos _
    omega

theorem decode_encode (sequenceNumber : Nat) (entries : List Entry)
    (hsequence : sequenceNumber < 2 ^ 64) (hcount : entries.length < 2 ^ 32)
    (hsizes : ∀ entry ∈ entries, entry.key.length < 2 ^ 32 ∧ entry.value.length < 2 ^ 32) :
    decode (encode sequenceNumber entries) = some (sequenceNumber, entries) := by
  have hheader : (Bytes.fixed 8 sequenceNumber ++ Bytes.fixed 4 entries.length).length =
      kWriteBatchHeader := by
    rw [List.length_append, Bytes.length_fixed, Bytes.length_fixed]
    rfl
  have hlength := length_le_length_records entries
  have hrecords := decodeRecords_flatMap entries (encode sequenceNumber entries).length hsizes
    (by rw [encode, List.length_append]; omega)
  have hcountField : Bytes.decodeFixed (((encode sequenceNumber entries).drop 8).take 4) =
      entries.length := by
    rw [encode, List.append_assoc, List.drop_left' (Bytes.length_fixed ..),
      List.take_left' (Bytes.length_fixed ..), Bytes.decodeFixed_fixed_of_lt (by omega)]
  have hsequenceField : Bytes.decodeFixed ((encode sequenceNumber entries).take 8) =
      sequenceNumber := by
    rw [encode, List.append_assoc, List.take_left' (Bytes.length_fixed ..),
      Bytes.decodeFixed_fixed_of_lt (by omega)]
  have hdrop : (encode sequenceNumber entries).drop kWriteBatchHeader =
      entries.flatMap fun entry => recordBytes entry.key entry.value := by
    rw [encode, List.drop_left' hheader]
  rw [decode, if_neg (by rw [encode, List.length_append, hheader]; omega)]
  simp only [hdrop, hrecords, hcountField, hsequenceField, if_true]

end MlkvPlus.WriteBatch
