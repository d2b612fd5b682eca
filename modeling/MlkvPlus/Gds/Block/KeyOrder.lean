import Mathlib.Data.List.Lex
import Mathlib.Data.Prod.Lex
import Mathlib.Order.Compare
import MlkvPlus.Gds.Block

namespace MlkvPlus.Gds.KeyOrder

-- Bytes as unsigned numbers.
scoped instance byteOrder : LinearOrder UInt8 where
  le_refl := UInt8.le_refl
  le_trans _ _ _ := UInt8.le_trans
  le_antisymm _ _ := UInt8.le_antisymm
  le_total := UInt8.le_total
  lt_iff_le_not_ge a b := by
    rw [UInt8.lt_iff_toNat_lt, UInt8.le_iff_toNat_le, UInt8.le_iff_toNat_le]
    omega
  toDecidableLE := inferInstance
  toDecidableLT := inferInstance
  toDecidableEq := inferInstance

end MlkvPlus.Gds.KeyOrder

namespace MlkvPlus

theorem Bytes.decodeFixed_injective (hlength : first.length = second.length)
    (h : decodeFixed first = decodeFixed second) : first = second := by
  induction first generalizing second with
  | nil => exact (List.eq_nil_of_length_eq_zero hlength.symm).symm
  | cons byte rest ih =>
    cases second with
    | nil => cases hlength
    | cons byte' rest' =>
      have hlt := byte.toNat_lt
      have hlt' := byte'.toNat_lt
      rw [decodeFixed, decodeFixed] at h
      have hrest := ih (Nat.succ.inj hlength) (by omega)
      rw [hrest, UInt8.toNat_inj.mp (show byte.toNat = byte'.toNat by omega)]

namespace Gds

open scoped KeyOrder

-- The order of internal keys: the versions of one user key stand newest first.
def Precedes (a b : Bytes) : Prop :=
  userKey a < userKey b ∨ userKey a = userKey b ∧ keyTail b < keyTail a

instance (a b : Bytes) : Decidable (Precedes a b) :=
  inferInstanceAs (Decidable (_ ∨ _))

-- The same order as that of a pair.
def internalKey (key : Bytes) : Lex (Bytes × ℕᵒᵈ) :=
  toLex (userKey key, OrderDual.toDual (keyTail key))

theorem precedes_iff (a b : Bytes) : Precedes a b ↔ internalKey a < internalKey b := by
  rw [internalKey, internalKey, Prod.Lex.toLex_lt_toLex]
  rfl

theorem Precedes.trans (hab : Precedes a b) (hbc : Precedes b c) : Precedes a c := by
  rw [precedes_iff] at *
  exact hab.trans hbc

theorem internalKey_injective (ha : Device.kInternalKeyTail ≤ a.length)
    (hb : Device.kInternalKeyTail ≤ b.length) (h : internalKey a = internalKey b) : a = b := by
  obtain ⟨huser, htail⟩ := Prod.mk.inj (toLex_inj.mp h)
  have htail := OrderDual.toDual_inj.mp htail
  have hlength := congrArg List.length huser
  simp only [userKey, List.length_take] at hlength
  have hdrop := Bytes.decodeFixed_injective (by simp only [List.length_drop]; omega) htail
  rw [← List.take_append_drop (a.length - Device.kInternalKeyTail) a, hdrop]
  exact (congrArg (· ++ _) huser).trans (List.take_append_drop _ b)

theorem compares_compareSlices (a b : Bytes) : (Device.compareSlices a b).Compares a b := by
  induction a generalizing b with
  | nil =>
    cases b with
    | nil => exact rfl
    | cons byte' rest' => exact List.Lex.nil
  | cons byte rest ih =>
    cases b with
    | nil => exact List.Lex.nil
    | cons byte' rest' =>
      rw [Device.compareSlices]
      split
      case isTrue hlt => exact List.Lex.rel hlt
      case isFalse hge =>
        split
        case isTrue hgt => exact List.Lex.rel hgt
        case isFalse hle =>
          obtain rfl : byte = byte' := le_antisymm (not_lt.mp hle) (not_lt.mp hge)
          have hrest := ih rest'
          cases hcompare : Device.compareSlices rest rest' with
          | lt =>
            rw [hcompare] at hrest
            exact List.Lex.cons hrest
          | eq =>
            rw [hcompare] at hrest
            exact congrArg _ hrest
          | gt =>
            rw [hcompare] at hrest
            exact List.Lex.cons hrest

theorem compares_compareInternalKeys (ha : Device.kInternalKeyTail ≤ a.length)
    (hb : Device.kInternalKeyTail ≤ b.length) :
    (Device.compareInternalKeys a b).Compares (internalKey a) (internalKey b) := by
  have huser := compares_compareSlices (userKey a) (userKey b)
  rw [Device.compareInternalKeys, if_neg (by omega)]
  cases hcompare : Device.compareSlices (userKey a) (userKey b) with
  | lt =>
    rw [hcompare] at huser
    exact Prod.Lex.toLex_lt_toLex.mpr (Or.inl huser)
  | gt =>
    rw [hcompare] at huser
    exact Prod.Lex.toLex_lt_toLex.mpr (Or.inl huser)
  | eq =>
    rw [hcompare] at huser
    have huser : userKey a = userKey b := huser
    dsimp only
    split
    case isTrue hlt => exact Prod.Lex.toLex_lt_toLex.mpr (Or.inr ⟨huser, hlt⟩)
    case isFalse hge =>
      split
      case isTrue hgt => exact Prod.Lex.toLex_lt_toLex.mpr (Or.inr ⟨huser.symm, hgt⟩)
      case isFalse hle =>
        have htail : keyTail a = keyTail b := by omega
        exact congrArg toLex (Prod.ext huser (congrArg OrderDual.toDual htail))

theorem compareInternalKeys_lt_iff (ha : Device.kInternalKeyTail ≤ a.length)
    (hb : Device.kInternalKeyTail ≤ b.length) :
    Device.compareInternalKeys a b = .lt ↔ Precedes a b := by
  rw [precedes_iff]
  exact (compares_compareInternalKeys ha hb).eq_lt

theorem compareInternalKeys_eq_iff (ha : Device.kInternalKeyTail ≤ a.length)
    (hb : Device.kInternalKeyTail ≤ b.length) : Device.compareInternalKeys a b = .eq ↔ a = b := by
  rw [(compares_compareInternalKeys ha hb).eq_eq]
  exact ⟨internalKey_injective ha hb, congrArg internalKey⟩

end Gds

end MlkvPlus
