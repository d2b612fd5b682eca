import MlkvPlus.Gds.Block
import MlkvPlus.WriteBatch.Varint

namespace MlkvPlus.Gds

open Numerals

namespace Device

variable {data : Memory} {p limit : Nat}

-- The decoder of RocksDB and the one on the device do the same with the same bytes.
theorem getVarint32From_eq (groups shift p result : Nat) :
    getVarint32From data limit groups shift p result =
      (WriteBatch.getVarint32From groups shift result (data.read p (limit - p))).map
        fun found => (limit - found.2.length, found.1) := by
  induction groups generalizing shift p result with
  | zero => rfl
  | succ groups ih =>
    rw [getVarint32From]
    by_cases hlt : p < limit
    · have hread : data.read p (limit - p) = data p :: data.read (p + 1) (limit - (p + 1)) := by
        rw [← Memory.read_succ]
        exact congrArg _ (by omega)
      rw [if_pos hlt, hread, WriteBatch.getVarint32From]
      dsimp only
      split
      · rw [ih]
      · rw [Option.map_some, Memory.length_read, Nat.sub_sub_self hlt]
    · rw [if_neg hlt, Nat.sub_eq_zero_of_le (Nat.le_of_not_lt hlt)]
      rfl

theorem getVarint32Ptr_eq (data : Memory) (p limit : Nat) :
    getVarint32Ptr data p limit =
      (WriteBatch.getVarint32 (data.read p (limit - p))).map
        fun found => (limit - found.2.length, found.1) := by
  rw [getVarint32Ptr, WriteBatch.getVarint32, ← getVarint32From_eq]
  split
  case isTrue hle =>
    rw [getVarint32From, if_neg (Nat.not_lt.mpr hle)]
  case isFalse => rfl

theorem getVarint32Ptr_eq_some_iff :
    getVarint32Ptr data p limit = some (next, value) ↔
      ∃ bytes, data.Stores p bytes ∧ Varint 5 32 bytes value ∧ next = p + bytes.length ∧
        next ≤ limit := by
  rw [getVarint32Ptr_eq, Option.map_eq_some_iff]
  constructor
  · rintro ⟨⟨_, rest⟩, hfound, hpair⟩
    dsimp only at hpair
    obtain ⟨rfl, rfl⟩ := Prod.mk.inj hpair
    obtain ⟨bytes, hread, hvarint⟩ := WriteBatch.getVarint32_eq_some_iff.mp hfound
    rw [Memory.read_eq_iff, Memory.stores_append, List.length_append] at hread
    have hpos := hvarint.length_pos
    exact ⟨bytes, hread.2.1, hvarint, by omega, by omega⟩
  · rintro ⟨bytes, hstores, hvarint, rfl, hle⟩
    refine ⟨(value, data.read (p + bytes.length) (limit - (p + bytes.length))), ?_, ?_⟩
    · refine WriteBatch.getVarint32_eq_some_iff.mpr ⟨bytes, ?_, hvarint⟩
      rw [← hstores, Memory.length_read, ← Memory.read_add]
      exact congrArg _ (by omega)
    · rw [Memory.length_read, Nat.sub_sub_self hle]

def decodeVarints (data : Memory) (p limit : Nat) : Option DecodedEntry := do
  let (p, shared) ← getVarint32Ptr data p limit
  let (p, nonShared) ← getVarint32Ptr data p limit
  let (p, valueLength) ← getVarint32Ptr data p limit
  some { keyPtr := p, shared, nonShared, valueLength }

-- Three numbers in a row, and what follows them.
def Lengths (data : Memory) (p limit : Nat) (entry : DecodedEntry) : Prop :=
  ∃ shared nonShared valueLength : Bytes,
    data.Stores p (shared ++ nonShared ++ valueLength) ∧
    Varint 5 32 shared entry.shared ∧ Varint 5 32 nonShared entry.nonShared ∧
    Varint 5 32 valueLength entry.valueLength ∧
    entry.keyPtr = p + (shared ++ nonShared ++ valueLength).length ∧ entry.keyPtr ≤ limit

theorem decodeVarints_eq_some_iff :
    decodeVarints data p limit = some entry ↔ Lengths data p limit entry := by
  constructor
  · intro h
    obtain ⟨⟨afterShared, _⟩, hshared, h⟩ := Option.bind_eq_some_iff.mp h
    obtain ⟨⟨afterNonShared, _⟩, hnonShared, h⟩ := Option.bind_eq_some_iff.mp h
    obtain ⟨⟨keyPtr, _⟩, hvalueLength, h⟩ := Option.bind_eq_some_iff.mp h
    cases h
    obtain ⟨shared, hfirst, hvarint, rfl, -⟩ := getVarint32Ptr_eq_some_iff.mp hshared
    obtain ⟨nonShared, hsecond, hvarint', rfl, -⟩ := getVarint32Ptr_eq_some_iff.mp hnonShared
    obtain ⟨valueLength, hthird, hvarint'', rfl, hle⟩ := getVarint32Ptr_eq_some_iff.mp hvalueLength
    refine ⟨shared, nonShared, valueLength, ?_, hvarint, hvarint', hvarint'', ?_, hle⟩
    · rw [Memory.stores_append, Memory.stores_append, List.length_append, ← Nat.add_assoc]
      exact ⟨⟨hfirst, hsecond⟩, hthird⟩
    · simp only [List.length_append, Nat.add_assoc]
  · rintro ⟨shared, nonShared, valueLength, hstores, hvarint, hvarint', hvarint'', hnext, hle⟩
    rw [Memory.stores_append, Memory.stores_append, List.length_append, ← Nat.add_assoc] at hstores
    simp only [List.length_append] at hnext
    obtain ⟨⟨hfirst, hsecond⟩, hthird⟩ := hstores
    have hshared : getVarint32Ptr data p limit = _ :=
      getVarint32Ptr_eq_some_iff.mpr ⟨shared, hfirst, hvarint, rfl, by omega⟩
    have hnonShared : getVarint32Ptr data (p + shared.length) limit = _ :=
      getVarint32Ptr_eq_some_iff.mpr ⟨nonShared, hsecond, hvarint', rfl, by omega⟩
    have hvalueLength : getVarint32Ptr data (p + shared.length + nonShared.length) limit = _ :=
      getVarint32Ptr_eq_some_iff.mpr ⟨valueLength, hthird, hvarint'', rfl, by omega⟩
    simp only [decodeVarints, hshared, hnonShared, hvalueLength, Option.bind_eq_bind,
      Option.bind_some]
    obtain ⟨keyPtr, _, _, _⟩ := entry
    dsimp only at hnext ⊢
    rw [hnext, ← Nat.add_assoc, ← Nat.add_assoc]

theorem Lengths.bounds (h : Lengths data p limit entry) :
    p + 3 ≤ entry.keyPtr ∧ entry.keyPtr ≤ limit := by
  obtain ⟨shared, nonShared, valueLength, -, hvarint, hvarint', hvarint'', hnext, hle⟩ := h
  have hpos := hvarint.length_pos
  have hpos' := hvarint'.length_pos
  have hpos'' := hvarint''.length_pos
  simp only [List.length_append] at hnext
  exact ⟨by omega, hle⟩

theorem Lengths.small (h : Lengths data p limit entry) :
    entry.nonShared < 2 ^ 32 ∧ entry.valueLength < 2 ^ 32 := by
  obtain ⟨shared, nonShared, valueLength, -, -, hvarint, hvarint', -⟩ := h
  exact ⟨hvarint.lt_word, hvarint'.lt_word⟩

theorem Lengths.eq_iff (h : Lengths data p limit entry) :
    Lengths data p limit other ↔ other = entry := by
  rw [← decodeVarints_eq_some_iff] at h ⊢
  rw [h, Option.some.injEq]
  exact eq_comm

theorem getVarint32Ptr_byte (hlt : p < limit) (hbyte : (data p).toNat < 128) :
    getVarint32Ptr data p limit = some (p + 1, (data p).toNat) := by
  refine getVarint32Ptr_eq_some_iff.mpr ⟨[data p], rfl, ⟨?_, _, .last hbyte, ?_⟩, rfl, hlt⟩
  · exact Nat.le_add_left 1 4
  · rw [Nat.mod_eq_of_lt (by omega)]

theorem decodeLengths_eq (hlimit : p + 3 ≤ limit) :
    decodeLengths data p limit = decodeVarints data p limit := by
  rw [decodeLengths]
  split
  case isTrue hsmall =>
    have hbytes := Nat.left_le_or.trans_lt hsmall
    have hshared := getVarint32Ptr_byte (show p < limit by omega)
      (Nat.left_le_or.trans_lt hbytes)
    have hnonShared := getVarint32Ptr_byte (show p + 1 < limit by omega)
      (Nat.right_le_or.trans_lt hbytes)
    have hvalueLength := getVarint32Ptr_byte (show p + 1 + 1 < limit by omega)
      (Nat.right_le_or.trans_lt hsmall)
    simp only [decodeVarints, hshared, hnonShared, hvalueLength, Option.bind_eq_bind,
      Option.bind_some]
  case isFalse => rfl

def decodeEntrySlow (data : Memory) (p limit : Nat) : Option DecodedEntry := do
  let entry ← decodeVarints data p limit
  if (limit - entry.keyPtr) % 2 ^ 32 < (entry.nonShared + entry.valueLength) % 2 ^ 32 then none
  else some entry

theorem decodeEntry_eq_decodeEntrySlow (data : Memory) (p limit : Nat) :
    decodeEntry data p limit = decodeEntrySlow data p limit := by
  rw [decodeEntry, decodeEntrySlow]
  split
  case isTrue hshort =>
    -- three numbers take three bytes
    have hnone : decodeVarints data p limit = none := by
      rw [Option.eq_none_iff_forall_ne_some]
      intro entry hentry
      have hbounds := (decodeVarints_eq_some_iff.mp hentry).bounds
      omega
    rw [hnone]
    rfl
  case isFalse hlong =>
    rw [decodeLengths_eq (Nat.le_of_not_lt hlong)]
    cases decodeVarints data p limit <;> rfl

theorem decodeEntry_eq_some_iff :
    decodeEntry data p limit = some entry ↔
      Lengths data p limit entry ∧
        (entry.nonShared + entry.valueLength) % 2 ^ 32 ≤ (limit - entry.keyPtr) % 2 ^ 32 := by
  rw [decodeEntry_eq_decodeEntrySlow, decodeEntrySlow, Option.bind_eq_bind, Option.bind_eq_some_iff]
  simp only [Option.ite_none_left_eq_some, Option.some.injEq, Nat.not_lt,
    decodeVarints_eq_some_iff]
  constructor
  · rintro ⟨_, hlengths, hfits, rfl⟩
    exact ⟨hlengths, hfits⟩
  · rintro ⟨hlengths, hfits⟩
    exact ⟨entry, hlengths, hfits, rfl⟩

-- What passes for an entry: its key and value fit before the limit, if the sum of their
-- lengths is taken modulo 2^32.
theorem decodeEntry_bounds (hlimit : limit < 2 ^ 32) (h : decodeEntry data p limit = some entry) :
    p + 3 ≤ entry.keyPtr ∧
      entry.keyPtr + (entry.nonShared + entry.valueLength) % 2 ^ 32 ≤ limit := by
  obtain ⟨hlengths, hfits⟩ := decodeEntry_eq_some_iff.mp h
  obtain ⟨hlow, hhigh⟩ := hlengths.bounds
  rw [Nat.mod_eq_of_lt (a := limit - entry.keyPtr) (by omega)] at hfits
  omega

end Device

-- An entry is accepted with the lengths that three numbers in a row give, by either path. It
-- fits unless the sum of the lengths leaves 32 bits and less than 2^32 bytes are there.
theorem decodeEntry_fits_iff (data : Memory) (p limit : Nat) :
    Device.decodeEntry data p limit = Device.decodeEntrySlow data p limit ∧
      ∀ entry, Device.decodeEntry data p limit = some entry →
        (∀ other, Device.Lengths data p limit other ↔ other = entry) ∧
        (entry.keyPtr + entry.nonShared + entry.valueLength ≤ limit ↔
          entry.nonShared + entry.valueLength < 2 ^ 32 ∨ entry.keyPtr + 2 ^ 32 ≤ limit) := by
  refine ⟨Device.decodeEntry_eq_decodeEntrySlow data p limit, ?_⟩
  intro entry h
  obtain ⟨hlengths, hfits⟩ := Device.decodeEntry_eq_some_iff.mp h
  obtain ⟨-, hhigh⟩ := hlengths.bounds
  obtain ⟨hnonShared, hvalueLength⟩ := hlengths.small
  exact ⟨fun other => hlengths.eq_iff, by omega⟩

theorem decodeEntry_fits_iff_small :
    let data := Memory.ofBytes [0, 1, 1, 7, 8]
    let entry : DecodedEntry := ⟨3, 0, 1, 1⟩
    Device.decodeEntry data 0 5 = some entry ∧
      entry.keyPtr + entry.nonShared + entry.valueLength ≤ 5 := by
  intro data entry
  have haccepted : Device.decodeEntry data 0 5 = some entry := by decide
  exact ⟨haccepted, ((decodeEntry_fits_iff data 0 5).2 entry haccepted).2.mpr (.inl (by decide))⟩

-- A key of 2^32 - 1 bytes and a value of one byte, in a region of seven bytes.
theorem decodeEntry_wrapped :
    let data := Memory.ofBytes [0, 0xff, 0xff, 0xff, 0xff, 0x0f, 1]
    let entry : DecodedEntry := ⟨7, 0, 2 ^ 32 - 1, 1⟩
    Device.decodeEntry data 0 7 = some entry ∧
      ¬entry.keyPtr + entry.nonShared + entry.valueLength ≤ 7 := by
  decide

end MlkvPlus.Gds
