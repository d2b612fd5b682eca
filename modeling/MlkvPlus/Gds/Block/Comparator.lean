import Mathlib.Order.RelIso.Set
import MlkvPlus.Data.Numerals
import MlkvPlus.Gds.Block.KeyOrder
import MlkvPlus.Gds.Table

namespace MlkvPlus.Gds

open scoped KeyOrder

namespace Device

-- The loop over the bytes that both keys have, up to the first difference.
def compareBytes (a b : Memory) : (count i : Nat) → Option Int
  | 0, _ => none
  | count + 1, i =>
    if a i < b i then some (-1)
    else if b i < a i then some 1
    else compareBytes a b count (i + 1)

-- The loop and the lengths behind it, which both comparisons have.
def compareOr (tie : Int) (a : Memory) (aLen : Nat) (b : Memory) (bLen : Nat) : Int :=
  (compareBytes a b (if aLen < bLen then aLen else bLen) 0).getD
    (if aLen < bLen then -1 else if bLen < aLen then 1 else tie)

def compareSlicesPtr (a : Memory) (aLen : Nat) (b : Memory) (bLen : Nat) : Int :=
  compareOr 0 a aLen b bLen

-- The eight bytes behind a user key, put together in 64 bits.
def trailer (key : Memory) (userLen : Nat) : Nat :=
  (List.range kInternalKeyTail).foldl
    (fun num i => num ||| ((key (userLen + i)).toNat <<< (i * 8)) % 2 ^ 64) 0

def compareInternalKeysPtr (a : Memory) (aLen : Nat) (b : Memory) (bLen : Nat) : Int :=
  if aLen < kInternalKeyTail ∨ bLen < kInternalKeyTail then compareSlicesPtr a aLen b bLen
  else
    let aUserLen := aLen - kInternalKeyTail
    let bUserLen := bLen - kInternalKeyTail
    let aNum := trailer a aUserLen
    let bNum := trailer b bUserLen
    compareOr (if bNum < aNum then -1 else if aNum < bNum then 1 else 0) a aUserLen b bUserLen

def resultOr (tie : Int) : Ordering → Int
  | .lt => -1
  | .eq => tie
  | .gt => 1

theorem compareBytes_eq (tie : Int) (a b : Memory) (aLen bLen i : Nat) :
    (compareBytes a b (if aLen < bLen then aLen else bLen) i).getD
        (if aLen < bLen then -1 else if bLen < aLen then 1 else tie) =
      resultOr tie (compareSlices (a.read i aLen) (b.read i bLen)) := by
  induction aLen generalizing bLen i with
  | zero =>
    cases bLen with
    | zero => rfl
    | succ bLen =>
      rw [if_pos (Nat.succ_pos bLen), if_pos (Nat.succ_pos bLen), Memory.read_succ]
      rfl
  | succ aLen ih =>
    cases bLen with
    | zero =>
      rw [if_neg (Nat.not_lt_zero _), if_neg (Nat.not_lt_zero _), if_pos (Nat.succ_pos aLen),
        Memory.read_succ]
      rfl
    | succ bLen =>
      have hcount : (if aLen + 1 < bLen + 1 then aLen + 1 else bLen + 1) =
          (if aLen < bLen then aLen else bLen) + 1 := by
        simp only [Nat.add_lt_add_iff_right, apply_ite (· + 1)]
      rw [hcount, Memory.read_succ, Memory.read_succ, compareBytes, compareSlices]
      split
      case isTrue => rfl
      case isFalse =>
        split
        case isTrue => rfl
        case isFalse =>
          rw [← ih bLen (i + 1)]
          simp only [Nat.add_lt_add_iff_right]

theorem compareOr_eq (tie : Int) (a b : Memory) (aLen bLen : Nat) :
    compareOr tie a aLen b bLen =
      resultOr tie (compareSlices (a.read 0 aLen) (b.read 0 bLen)) :=
  compareBytes_eq tie a b aLen bLen 0

theorem foldl_trailer (key : Memory) (userLen count : Nat) :
    (List.range count).foldl
        (fun num i => num ||| ((key (userLen + i)).toNat <<< (i * 8)) % 2 ^ 64) 0 =
      Bytes.decodeFixed (key.read userLen count) % 2 ^ 64 := by
  induction count with
  | zero => rfl
  | succ count ih =>
    have hlow := Bytes.decodeFixed_lt (key.read userLen count)
    rw [Memory.length_read, show 256 = 2 ^ 8 from rfl, ← Nat.pow_mul] at hlow
    have hdigit := Numerals.or_digit hlow 0 (key (userLen + count)).toNat 0 64
    rw [Nat.shiftLeft_zero, Nat.shiftLeft_zero, Nat.zero_or, Nat.zero_or, Nat.zero_add] at hdigit
    rw [List.range_succ, List.foldl_append, ih, List.foldl_cons, List.foldl_nil, Nat.mul_comm,
      hdigit, Memory.read_add, Bytes.decodeFixed_append, Memory.length_read,
      show 256 = 2 ^ 8 from rfl, ← Nat.pow_mul, Memory.read_succ]
    rfl

theorem trailer_eq (key : Memory) (hlen : kInternalKeyTail ≤ len) :
    trailer key (len - kInternalKeyTail) = keyTail (key.read 0 len) := by
  have hread := key.read_skip 0 len (len - kInternalKeyTail) kInternalKeyTail (by omega)
  rw [List.take_of_length_le (by rw [List.length_drop, Memory.length_read]; omega),
    Nat.zero_add] at hread
  have hlt : Bytes.decodeFixed (key.read (len - kInternalKeyTail) kInternalKeyTail) < 2 ^ 64 := by
    have hfixed := Bytes.decodeFixed_lt (key.read (len - kInternalKeyTail) kInternalKeyTail)
    rw [Memory.length_read] at hfixed
    exact hfixed
  rw [trailer, foldl_trailer, keyTail, Memory.length_read, ← hread, Nat.mod_eq_of_lt hlt]

theorem read_user (key : Memory) (len : Nat) :
    key.read 0 (len - kInternalKeyTail) = userKey (key.read 0 len) := by
  rw [userKey, Memory.length_read]
  exact key.read_skip 0 len 0 (len - kInternalKeyTail) (by omega)

theorem compareInternalKeysPtr_eq (a b : Memory) (aLen bLen : Nat) :
    compareInternalKeysPtr a aLen b bLen =
      resultOr 0 (compareInternalKeys (a.read 0 aLen) (b.read 0 bLen)) := by
  rw [compareInternalKeysPtr, compareInternalKeys, Memory.length_read, Memory.length_read]
  split
  case isTrue => exact compareOr_eq ..
  case isFalse hlong =>
    obtain ⟨ha, hb⟩ := not_or.mp hlong
    dsimp only
    rw [compareOr_eq, read_user, read_user, trailer_eq a (Nat.le_of_not_lt ha),
      trailer_eq b (Nat.le_of_not_lt hb)]
    cases compareSlices (userKey (a.read 0 aLen)) (userKey (b.read 0 bLen)) with
    | lt => rfl
    | gt => rfl
    | eq =>
      dsimp only [resultOr]
      split
      · rfl
      · split <;> rfl

end Device

-- The keys that the comparison does not take for slices.
abbrev InternalKey := { key : Bytes // Device.kInternalKeyTail ≤ key.length }

namespace InternalKey

def compareTo (a b : InternalKey) : Int :=
  Device.compareInternalKeysPtr (Memory.ofBytes a.1) a.1.length (Memory.ofBytes b.1) b.1.length

def sequence (key : InternalKey) : Nat := keyTail key.1 >>> 8

def type (key : InternalKey) : Nat := keyTail key.1 &&& 0xff

theorem compareTo_eq (a b : InternalKey) :
    a.compareTo b = Device.resultOr 0 (Device.compareInternalKeys a.1 b.1) := by
  rw [compareTo, Device.compareInternalKeysPtr_eq, Memory.stores_ofBytes, Memory.stores_ofBytes]

theorem compareTo_neg_iff (a b : InternalKey) :
    a.compareTo b < 0 ↔ internalKey a.1 < internalKey b.1 := by
  rw [compareTo_eq, ← (compares_compareInternalKeys a.2 b.2).eq_lt]
  cases Device.compareInternalKeys a.1 b.1 <;> decide

theorem compareTo_eq_zero_iff (a b : InternalKey) : a.compareTo b = 0 ↔ a = b := by
  rw [compareTo_eq, Subtype.ext_iff, ← compareInternalKeys_eq_iff a.2 b.2]
  cases Device.compareInternalKeys a.1 b.1 <;> decide

theorem compareTo_swap (a b : InternalKey) : a.compareTo b = -b.compareTo a := by
  have hswap : Device.compareInternalKeys b.1 a.1 = (Device.compareInternalKeys a.1 b.1).swap :=
    (compares_compareInternalKeys b.2 a.2).inj
      (Ordering.compares_swap.mpr (compares_compareInternalKeys a.2 b.2))
  rw [compareTo_eq, compareTo_eq, hswap]
  cases Device.compareInternalKeys a.1 b.1 <;> rfl

theorem compareTo_eq_ite (a b : InternalKey) :
    a.compareTo b = if Precedes a.1 b.1 then -1 else if Precedes b.1 a.1 then 1 else 0 := by
  have hless := compareInternalKeys_lt_iff a.2 b.2
  have hgreater : Device.compareInternalKeys a.1 b.1 = .gt ↔ Precedes b.1 a.1 := by
    rw [precedes_iff]
    exact (compares_compareInternalKeys a.2 b.2).eq_gt
  simp only [compareTo_eq, ← hless, ← hgreater]
  cases Device.compareInternalKeys a.1 b.1 <;> rfl

-- Keys are compared as their pairs are, and no two keys have the same pair.
theorem isStrictTotalOrder_compareTo :
    IsStrictTotalOrder InternalKey fun a b => a.compareTo b < 0 := by
  let embedding : (fun a b : InternalKey => a.compareTo b < 0) ↪r
      ((· < ·) : Lex (Bytes × ℕᵒᵈ) → Lex (Bytes × ℕᵒᵈ) → Prop) :=
    { toFun := fun key => internalKey key.1
      inj' := fun a b heq => Subtype.ext (internalKey_injective a.2 b.2 heq)
      map_rel_iff' := (compareTo_neg_iff _ _).symm }
  exact embedding.isStrictTotalOrder

theorem tail_eq (key : InternalKey) : keyTail key.1 = key.sequence * 256 + key.type := by
  have htype : key.type = keyTail key.1 % 256 := Nat.and_two_pow_sub_one_eq_mod _ 8
  have hsequence : key.sequence = keyTail key.1 / 256 := Nat.shiftRight_eq_div_pow _ 8
  omega

-- The versions of a key that a snapshot sees are those from the seek key on.
theorem compareTo_seek_iff {entry seek : InternalKey} (huser : userKey entry.1 = userKey seek.1)
    (htype : entry.type ≤ kValueTypeForSeek)
    (hseek : keyTail seek.1 = snapshot <<< 8 ||| kValueTypeForSeek) :
    0 ≤ entry.compareTo seek ↔ entry.sequence ≤ snapshot := by
  have hbyte : kValueTypeForSeek < 2 ^ 8 := by decide
  have hpacked : snapshot <<< 8 ||| kValueTypeForSeek = snapshot * 256 + kValueTypeForSeek := by
    rw [Nat.shiftLeft_eq, Nat.mul_comm, ← Nat.two_pow_add_eq_or_of_lt hbyte, Nat.mul_comm]
  have htail := entry.tail_eq
  rw [← not_lt, compareTo_neg_iff, ← precedes_iff, Precedes, huser]
  simp only [lt_irrefl, false_or, true_and]
  omega

end InternalKey

-- The comparison on the device orders keys as RocksDB does, and a seek for a snapshot skips
-- exactly the versions that are newer.
theorem compareTo_rocksdb_order :
    IsStrictTotalOrder InternalKey (fun a b => a.compareTo b < 0) ∧
      (∀ a b : InternalKey, a.compareTo b = -b.compareTo a ∧ (a.compareTo b = 0 ↔ a = b) ∧
        a.compareTo b = if Precedes a.1 b.1 then -1 else if Precedes b.1 a.1 then 1 else 0) ∧
      ∀ (entry seek : InternalKey) (snapshot : Nat), userKey entry.1 = userKey seek.1 →
        entry.type ≤ kValueTypeForSeek →
        keyTail seek.1 = snapshot <<< 8 ||| kValueTypeForSeek →
        (0 ≤ entry.compareTo seek ↔ entry.sequence ≤ snapshot) := by
  refine ⟨InternalKey.isStrictTotalOrder_compareTo, ?_, ?_⟩
  · intro a b
    exact ⟨a.compareTo_swap b, a.compareTo_eq_zero_iff b, a.compareTo_eq_ite b⟩
  · intro entry seek snapshot huser htype hseek
    exact InternalKey.compareTo_seek_iff huser htype hseek

-- Version 3 is there for a snapshot at 5.
theorem compareTo_rocksdb_order_seen :
    let entry : InternalKey := ⟨packKey [7] 3 1, by decide⟩
    let seek : InternalKey := ⟨lookupKey [7] 5, by decide⟩
    userKey entry.1 = userKey seek.1 ∧ entry.type ≤ kValueTypeForSeek ∧
      keyTail seek.1 = 5 <<< 8 ||| kValueTypeForSeek ∧ 0 ≤ entry.compareTo seek := by
  intro entry seek
  have huser : userKey entry.1 = userKey seek.1 := rfl
  have htype : entry.type ≤ kValueTypeForSeek := by decide
  have hseek : keyTail seek.1 = 5 <<< 8 ||| kValueTypeForSeek := rfl
  refine ⟨huser, htype, hseek, ?_⟩
  exact (compareTo_rocksdb_order.2.2 entry seek 5 huser htype hseek).mpr (by decide)

end MlkvPlus.Gds
