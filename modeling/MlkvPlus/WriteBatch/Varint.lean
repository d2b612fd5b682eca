import MlkvPlus.Data.Numerals
import MlkvPlus.WriteBatch

namespace MlkvPlus.WriteBatch

open Numerals

theorem putVarint32_cons (hge : 128 ≤ value) (hlt : value < 2 ^ 35) :
    putVarint32 value = UInt8.ofNat (value ||| 128) :: putVarint32 (value / 128) := by
  have hdiv : value / 128 = value >>> 7 := (Nat.shiftRight_eq_div_pow value 7).symm
  have hfirst : ¬value < 2 ^ 7 := by omega
  have h14 : value >>> 7 < 2 ^ 7 ↔ value < 2 ^ 14 := by omega
  have h21 : value >>> 7 < 2 ^ 14 ↔ value < 2 ^ 21 := by omega
  have h28 : value >>> 7 < 2 ^ 21 ↔ value < 2 ^ 28 := by omega
  have h35 : value >>> 7 < 2 ^ 28 := by omega
  rw [hdiv, putVarint32, putVarint32]
  simp only [← Nat.shiftRight_add, Nat.reduceAdd, hfirst, h14, h21, h28, h35, if_false, if_true]
  split_ifs <;> rfl

theorem putVarint32_small (hlt : value < 128) : putVarint32 value = [UInt8.ofNat value] := by
  exact if_pos hlt

theorem toNat_more (value : Nat) : (UInt8.ofNat (value ||| 128)).toNat = value % 128 + 128 := by
  have hmod : (value ||| 128) % 2 ^ 8 = value % 2 ^ 8 ||| 128 := Nat.or_mod_two_pow
  have hbyte : value % 2 ^ 8 ||| 128 = value % 2 ^ 8 % 128 + 128 :=
    (by decide +kernel : ∀ byte : Fin 256, byte.val ||| 128 = byte.val % 128 + 128)
      ⟨value % 2 ^ 8, Nat.mod_lt _ (by decide)⟩
  rw [UInt8.toNat_ofNat', hmod, hbyte]
  omega

theorem numeral_putVarint32 (hlt : value < 2 ^ 35) : Numeral (putVarint32 value) value := by
  induction value using Nat.strongRecOn with
  | ind value ih =>
    by_cases hsmall : value < 128
    · have hbyte : (UInt8.ofNat value).toNat = value := by
        rw [UInt8.toNat_ofNat']
        omega
      have hlast := Numeral.last (show (UInt8.ofNat value).toNat < 128 by omega)
      rwa [hbyte, ← putVarint32_small hsmall] at hlast
    · have hbyte := toNat_more value
      have hmore := Numeral.more (show 128 ≤ (UInt8.ofNat (value ||| 128)).toNat by omega)
        (ih (value / 128) (by omega) (by omega))
      rw [← putVarint32_cons (by omega) hlt] at hmore
      have hvalue : (UInt8.ofNat (value ||| 128)).toNat % 128 + 128 * (value / 128) = value := by
        omega
      rwa [hvalue] at hmore

theorem varint_putVarint32 (hlt : value < 2 ^ 32) : Varint 5 32 (putVarint32 value) value := by
  refine ⟨?_, value, numeral_putVarint32 (by omega), (Nat.mod_eq_of_lt hlt).symm⟩
  rw [putVarint32]
  split_ifs <;> simp

-- What decoding reads: the bytes of a number, set behind what is there.
theorem getVarint32From_eq_some_iff :
    getVarint32From groups shift result input = some (value, rest) ↔
      ∃ bytes number, input = bytes ++ rest ∧ bytes.length ≤ groups ∧ Numeral bytes number ∧
        value = result ||| (number <<< shift) % 2 ^ 32 := by
  induction groups generalizing shift result input with
  | zero =>
    refine iff_of_false (fun h => by cases h) ?_
    rintro ⟨bytes, number, -, hlength, hnumeral, -⟩
    exact absurd hlength hnumeral.length_pos.not_ge
  | succ groups ih =>
    cases input with
    | nil =>
      refine iff_of_false (fun h => by cases h) ?_
      rintro ⟨bytes, number, happend, -, hnumeral, -⟩
      have hpos := hnumeral.length_pos
      rw [(List.append_eq_nil_iff.mp happend.symm).1] at hpos
      cases hpos
    | cons byte input =>
      rw [getVarint32From]
      by_cases hmore : 128 ≤ byte.toNat
      · rw [if_pos ((and_128_ne_zero_iff byte).mpr hmore), ih, and_127]
        have hdigit := Nat.mod_lt byte.toNat (show 0 < 2 ^ 7 by decide)
        constructor
        · rintro ⟨bytes, number, rfl, hlength, hnumeral, rfl⟩
          exact ⟨byte :: bytes, _, rfl, Nat.succ_le_succ hlength, .more hmore hnumeral,
            or_digit hdigit ..⟩
        · rintro ⟨_, _, happend, hlength, hnumeral, rfl⟩
          cases hnumeral with
          | last hlast =>
            obtain ⟨rfl, -⟩ := List.cons.inj happend
            omega
          | more _ hrest =>
            obtain ⟨rfl, rfl⟩ := List.cons.inj happend
            exact ⟨_, _, rfl, Nat.le_of_succ_le_succ hlength, hrest, (or_digit hdigit ..).symm⟩
      · rw [if_neg (mt (and_128_ne_zero_iff byte).mp hmore)]
        constructor
        · intro h
          cases h
          exact ⟨[byte], _, rfl, Nat.succ_le_succ (Nat.zero_le _), .last (by omega), rfl⟩
        · rintro ⟨_, _, happend, -, hnumeral, rfl⟩
          cases hnumeral with
          | last =>
            obtain ⟨rfl, rfl⟩ := List.cons.inj happend
            rfl
          | more hbyte =>
            obtain ⟨rfl, -⟩ := List.cons.inj happend
            omega

theorem getVarint32_eq_some_iff :
    getVarint32 input = some (value, rest) ↔
      ∃ bytes, input = bytes ++ rest ∧ Varint 5 32 bytes value := by
  rw [getVarint32, getVarint32From_eq_some_iff]
  simp only [Nat.shiftLeft_zero, Nat.zero_or, Varint]
  constructor
  · rintro ⟨bytes, number, happend, hlength, hnumeral, hvalue⟩
    exact ⟨bytes, happend, hlength, number, hnumeral, hvalue⟩
  · rintro ⟨bytes, happend, hlength, number, hnumeral, hvalue⟩
    exact ⟨bytes, number, happend, hlength, hnumeral, hvalue⟩

theorem getVarint32_putVarint32 (hvalue : value < 2 ^ 32) (rest : Bytes) :
    getVarint32 (putVarint32 value ++ rest) = some (value, rest) :=
  getVarint32_eq_some_iff.mpr ⟨_, rfl, varint_putVarint32 hvalue⟩

end MlkvPlus.WriteBatch
