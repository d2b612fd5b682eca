import MlkvPlus.Data.Bytes

namespace MlkvPlus

-- Byte-addressed memory.
abbrev Memory := Nat → UInt8

namespace Memory

def store (memory : Memory) (start : Nat) (data : Bytes) : Memory := fun address =>
  if start ≤ address ∧ address < start + data.length then data.getD (address - start) 0
  else memory address

def read (memory : Memory) (start length : Nat) : Bytes :=
  (List.range length).map fun index => memory (start + index)

@[simp] theorem length_read (memory : Memory) (start length : Nat) :
    (memory.read start length).length = length := by
  simp [read]

theorem getElem_read (memory : Memory) (start length index : Nat)
    (hindex : index < (memory.read start length).length) :
    (memory.read start length)[index] = memory (start + index) := by
  simp [read]

theorem read_add (memory : Memory) (start first second : Nat) :
    memory.read start (first + second) =
      memory.read start first ++ memory.read (start + first) second := by
  rw [read, List.range_add, List.map_append, List.map_map]
  simp only [read, Function.comp_def, Nat.add_assoc]

theorem read_succ (memory : Memory) (start length : Nat) :
    memory.read start (length + 1) = memory start :: memory.read (start + 1) length := by
  rw [Nat.add_comm length, read_add]
  simp [read]

theorem read_skip (memory : Memory) (start size skip length : Nat) (hle : skip + length ≤ size) :
    memory.read (start + skip) length = ((memory.read start size).drop skip).take length := by
  obtain ⟨rest, rfl⟩ := Nat.exists_eq_add_of_le hle
  rw [read_add, read_add, List.append_assoc, List.drop_left' (length_read ..),
    List.take_left' (length_read ..)]

theorem read_store (memory : Memory) (start skip length : Nat) (data : Bytes)
    (hle : skip + length ≤ data.length) :
    (memory.store start data).read (start + skip) length = (data.drop skip).take length := by
  apply List.ext_getElem
  · rw [length_read, List.length_take, List.length_drop]
    omega
  · intro index hread htake
    rw [length_read] at hread
    have hin : start ≤ start + skip + index ∧ start + skip + index < start + data.length := by
      omega
    have hget : start + skip + index - start = skip + index := by omega
    have hindex : skip + index < data.length := by omega
    rw [getElem_read, store, if_pos hin, hget, List.getElem_take, List.getElem_drop,
      List.getD_eq_getElem?_getD, List.getElem?_eq_getElem hindex, Option.getD_some]

theorem read_store_self (memory : Memory) (start : Nat) (data : Bytes) :
    (memory.store start data).read start data.length = data := by
  have hread := memory.read_store start 0 data.length data (by omega)
  rwa [List.drop_zero, List.take_length] at hread

theorem read_store_of_disjoint (memory : Memory) (start other length : Nat) (data : Bytes)
    (hdisjoint : other + length ≤ start ∨ start + data.length ≤ other) :
    (memory.store start data).read other length = memory.read other length := by
  apply List.map_congr_left
  intro index hindex
  rw [List.mem_range] at hindex
  exact if_neg (by omega)

theorem read_store_append (memory : Memory) (length : Nat) (data : Bytes) :
    (memory.store length data).read 0 (length + data.length) = memory.read 0 length ++ data := by
  rw [read_add, read_store_of_disjoint _ _ _ _ _ (by omega), Nat.zero_add, read_store_self]

def Stores (memory : Memory) (start : Nat) (data : Bytes) : Prop :=
  memory.read start data.length = data

theorem stores_append {memory : Memory} :
    memory.Stores start (first ++ second) ↔
      memory.Stores start first ∧ memory.Stores (start + first.length) second := by
  rw [Stores, List.length_append, read_add]
  constructor
  · intro h
    exact List.append_inj h (length_read ..)
  · rintro ⟨hfirst, hsecond⟩
    rw [hfirst, hsecond]

theorem read_eq_iff {memory : Memory} :
    memory.read start length = data ↔ length = data.length ∧ memory.Stores start data := by
  constructor
  · rintro rfl
    rw [Stores, length_read]
    exact ⟨rfl, rfl⟩
  · rintro ⟨rfl, hstores⟩
    exact hstores

-- Memory that begins with the given bytes.
def ofBytes (data : Bytes) : Memory := fun address => data.getD address 0

theorem stores_ofBytes (data : Bytes) : (ofBytes data).Stores 0 data := by
  apply List.ext_getElem
  · rw [length_read]
  · intro index hread hindex
    rw [getElem_read, ofBytes, Nat.zero_add, List.getD_eq_getElem?_getD,
      List.getElem?_eq_getElem hindex, Option.getD_some]

end Memory

end MlkvPlus
