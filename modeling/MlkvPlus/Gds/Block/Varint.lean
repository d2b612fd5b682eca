import MlkvPlus.Gds.Block.Entry
import MlkvPlus.WriteBatch.Sizes

namespace MlkvPlus.Gds

open WriteBatch (putVarint32 varint_putVarint32 varintSize length_putVarint32)

namespace Device

def varint32ReadsFrom (data : Memory) (limit : Nat) : Nat → Nat → List Nat
  | 0, _ => []
  | groups + 1, p =>
    if p < limit then
      p :: if (data p).toNat &&& 128 ≠ 0 then varint32ReadsFrom data limit groups (p + 1) else []
    else []

def varint32Reads (data : Memory) (p limit : Nat) : List Nat :=
  if limit ≤ p then [] else varint32ReadsFrom data limit 5 p

variable {data : Memory} {p limit : Nat}

theorem varint32ReadsFrom_bounds (data : Memory) (limit groups p : Nat) :
    ∀ address ∈ varint32ReadsFrom data limit groups p, p ≤ address ∧ address < limit := by
  induction groups generalizing p with
  | zero => exact List.forall_mem_nil _
  | succ groups ih =>
    rw [varint32ReadsFrom]
    split
    case isFalse => exact List.forall_mem_nil _
    case isTrue hlt =>
      rw [List.forall_mem_cons]
      refine ⟨⟨le_rfl, hlt⟩, ?_⟩
      split
      · intro address hmem
        have hbounds := ih (p + 1) address hmem
        omega
      · exact List.forall_mem_nil _

theorem varint32Reads_bounds (data : Memory) (p limit : Nat) :
    ∀ address ∈ varint32Reads data p limit, p ≤ address ∧ address < limit := by
  rw [varint32Reads]
  split
  · exact List.forall_mem_nil _
  · exact varint32ReadsFrom_bounds data limit 5 p

theorem getVarint32From_congr (groups shift p result : Nat)
    (hsame : ∀ address ∈ varint32ReadsFrom data limit groups p, data' address = data address) :
    getVarint32From data' limit groups shift p result =
      getVarint32From data limit groups shift p result := by
  induction groups generalizing shift p result with
  | zero => rfl
  | succ groups ih =>
    rw [varint32ReadsFrom] at hsame
    rw [getVarint32From, getVarint32From]
    by_cases hlt : p < limit
    · rw [if_pos hlt, List.forall_mem_cons] at hsame
      simp only [if_pos hlt, hsame.1]
      by_cases hmore : (data p).toNat &&& 128 ≠ 0
      · rw [if_pos hmore] at hsame
        rw [if_pos hmore, if_pos hmore, ih _ _ _ hsame.2]
      · rw [if_neg hmore, if_neg hmore]
    · rw [if_neg hlt, if_neg hlt]

theorem getVarint32Ptr_congr (p : Nat)
    (hsame : ∀ address ∈ varint32Reads data p limit, data' address = data address) :
    getVarint32Ptr data' p limit = getVarint32Ptr data p limit := by
  rw [varint32Reads] at hsame
  rw [getVarint32Ptr, getVarint32Ptr]
  by_cases hle : limit ≤ p
  · rw [if_pos hle, if_pos hle]
  · rw [if_neg hle] at hsame
    rw [if_neg hle, if_neg hle, getVarint32From_congr 5 0 p 0 hsame]

-- A number cut short: what was read there would begin it.
theorem getVarint32Ptr_truncated (hvalue : value < 2 ^ 32)
    (hcount : count < (putVarint32 value).length)
    (hstores : data.Stores p ((putVarint32 value).take count)) :
    getVarint32Ptr data p (p + count) = none := by
  rw [Option.eq_none_iff_forall_ne_some]
  rintro ⟨_, number⟩ h
  obtain ⟨bytes, hbytes, hvarint, rfl, hle⟩ := getVarint32Ptr_eq_some_iff.mp h
  have hlength : count = bytes.length + (count - bytes.length) := by omega
  rw [Memory.Stores, List.length_take_of_le hcount.le, hlength, Memory.read_add, hbytes,
    ← hlength] at hstores
  have happend : bytes ++ (data.read (p + bytes.length) (count - bytes.length) ++
      (putVarint32 value).drop count) = putVarint32 value ++ [] := by
    rw [← List.append_assoc, hstores, List.take_append_drop, List.append_nil]
  obtain ⟨rfl, -⟩ := hvarint.unique (varint_putVarint32 hvalue) happend
  omega

end Device

-- Numbers written in front of whatever the memory holds are read back. Numbers that are cut
-- short are refused, for what stands before the limit alone.
theorem getVarint32Ptr_putVarint32 (memory : Memory) (p : Nat) (value : UInt32) :
    (putVarint32 value.toNat).length = varintSize value.toNat ∧
      (∀ limit, p + (putVarint32 value.toNat).length ≤ limit →
        Device.getVarint32Ptr (memory.store p (putVarint32 value.toNat)) p limit =
          some (p + (putVarint32 value.toNat).length, value.toNat)) ∧
      ∀ count, count < (putVarint32 value.toNat).length →
        let cut := memory.store p ((putVarint32 value.toNat).take count)
        Device.getVarint32Ptr cut p (p + count) = none ∧
          (∀ address ∈ Device.varint32Reads cut p (p + count), address < p + count) ∧
          ∀ other : Memory,
            (∀ address ∈ Device.varint32Reads cut p (p + count), other address = cut address) →
            Device.getVarint32Ptr other p (p + count) = none := by
  refine ⟨length_putVarint32 _, ?_, ?_⟩
  · intro limit hlimit
    exact Device.getVarint32Ptr_eq_some_iff.mpr
      ⟨_, memory.read_store_self p _, varint_putVarint32 value.toNat_lt, rfl, hlimit⟩
  · intro count hcount cut
    have hnone : Device.getVarint32Ptr cut p (p + count) = none :=
      Device.getVarint32Ptr_truncated value.toNat_lt hcount (memory.read_store_self p _)
    refine ⟨hnone, ?_, ?_⟩
    · intro address hmem
      exact (Device.varint32Reads_bounds cut p (p + count) address hmem).2
    · intro other hsame
      rw [Device.getVarint32Ptr_congr p hsame, hnone]

end MlkvPlus.Gds
