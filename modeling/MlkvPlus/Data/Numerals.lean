import MlkvPlus.Data.Bytes

namespace MlkvPlus.Numerals

-- A digit set below the digits that are still to come, all of it cut to a machine word.
theorem or_digit (hdigit : digit < 2 ^ bits) (result rest shift width : Nat) :
    result ||| (digit <<< shift) % 2 ^ width ||| (rest <<< (shift + bits)) % 2 ^ width =
      result ||| ((digit + 2 ^ bits * rest) <<< shift) % 2 ^ width := by
  have hrest : rest <<< (shift + bits) = (2 ^ bits * rest) <<< shift := by
    rw [Nat.add_comm, Nat.shiftLeft_add, Nat.shiftLeft_eq rest, Nat.mul_comm]
  rw [Nat.or_assoc, hrest, ← Nat.or_mod_two_pow, ← Nat.shiftLeft_or_distrib, Nat.or_comm digit,
    ← Nat.two_pow_add_eq_or_of_lt hdigit, Nat.add_comm]

-- A number in groups of seven bits, lowest first. The high bit of a byte says that another
-- byte follows.
inductive Numeral : Bytes → Nat → Prop where
  | last {byte : UInt8} (hbyte : byte.toNat < 128) : Numeral [byte] byte.toNat
  | more {byte : UInt8} {rest : Bytes} {value : Nat} (hbyte : 128 ≤ byte.toNat)
      (hrest : Numeral rest value) : Numeral (byte :: rest) (byte.toNat % 128 + 128 * value)

theorem and_128_ne_zero_iff (byte : UInt8) : byte.toNat &&& 128 ≠ 0 ↔ 128 ≤ byte.toNat :=
  (by decide +kernel : ∀ byte : Fin 256, byte.val &&& 128 ≠ 0 ↔ 128 ≤ byte.val)
    ⟨byte.toNat, byte.toNat_lt⟩

theorem and_127 (value : Nat) : value &&& 127 = value % 128 :=
  Nat.and_two_pow_sub_one_eq_mod value 7

namespace Numeral

variable {bytes other : Bytes} {value number : Nat}

theorem length_pos (h : Numeral bytes value) : 0 < bytes.length := by
  cases h <;> exact Nat.succ_pos _

theorem lt (h : Numeral bytes value) : value < 2 ^ (7 * bytes.length) := by
  induction h with
  | last hbyte => exact hbyte
  | @more byte rest value _ _ ih =>
    have hlow := Nat.mod_lt byte.toNat (show 0 < 128 by decide)
    rw [List.length_cons, Nat.mul_add, Nat.pow_add]
    omega

-- No number begins another one, so what is read at an address is one number at most.
theorem unique (h : Numeral bytes value) (hother : Numeral other number)
    (happend : bytes ++ rest = other ++ rest') : bytes = other ∧ value = number := by
  induction h generalizing other number with
  | last hbyte =>
    cases hother with
    | last =>
      obtain ⟨rfl, -⟩ := List.cons.inj happend
      exact ⟨rfl, rfl⟩
    | more hbyte' =>
      obtain ⟨rfl, -⟩ := List.cons.inj happend
      omega
  | more hbyte _ ih =>
    cases hother with
    | last hbyte' =>
      obtain ⟨rfl, -⟩ := List.cons.inj happend
      omega
    | more _ hrest =>
      obtain ⟨rfl, htail⟩ := List.cons.inj happend
      obtain ⟨rfl, rfl⟩ := ih hrest htail
      exact ⟨rfl, rfl⟩

end Numeral

-- A number of at most so many groups, read into a machine word: the bits above it are lost.
def Varint (groups width : Nat) (bytes : Bytes) (value : Nat) : Prop :=
  bytes.length ≤ groups ∧ ∃ number, Numeral bytes number ∧ value = number % 2 ^ width

namespace Varint

variable {groups width value number : Nat} {bytes other : Bytes}

theorem length_pos (h : Varint groups width bytes value) : 0 < bytes.length := by
  obtain ⟨-, number, hnumeral, -⟩ := h
  exact hnumeral.length_pos

theorem lt (h : Varint groups width bytes value) : value < 2 ^ (7 * bytes.length) := by
  obtain ⟨-, number, hnumeral, rfl⟩ := h
  exact (Nat.mod_le ..).trans_lt hnumeral.lt

theorem lt_word (h : Varint groups width bytes value) : value < 2 ^ width := by
  obtain ⟨-, number, -, rfl⟩ := h
  exact Nat.mod_lt _ (Nat.two_pow_pos width)

theorem unique (h : Varint groups width bytes value) (hother : Varint groups width other number)
    (happend : bytes ++ rest = other ++ rest') : bytes = other ∧ value = number := by
  obtain ⟨-, _, hnumeral, rfl⟩ := h
  obtain ⟨-, _, hnumeral', rfl⟩ := hother
  obtain ⟨rfl, rfl⟩ := hnumeral.unique hnumeral' happend
  exact ⟨rfl, rfl⟩

end Varint

end MlkvPlus.Numerals
