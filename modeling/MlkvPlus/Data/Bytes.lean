import Mathlib.Data.Nat.ModEq
import Mathlib.Tactic.Ring

namespace MlkvPlus

abbrev Bytes := List UInt8

namespace Bytes

-- The `width` low-order bytes of a number, least significant first.
def fixed : Nat → Nat → Bytes
  | 0, _ => []
  | width + 1, value => UInt8.ofNat value :: fixed width (value / 256)

def decodeFixed : Bytes → Nat
  | [] => 0
  | byte :: rest => byte.toNat + 256 * decodeFixed rest

@[simp] theorem length_fixed (width value : Nat) : (fixed width value).length = width := by
  induction width generalizing value with
  | zero => rfl
  | succ width ih => simp [fixed, ih]

theorem decodeFixed_fixed (width value : Nat) :
    decodeFixed (fixed width value) = value % 256 ^ width := by
  induction width generalizing value with
  | zero => simp [fixed, decodeFixed, Nat.mod_one]
  | succ width ih =>
    have hbyte : (UInt8.ofNat value).toNat = value % 256 := by simp
    rw [fixed, decodeFixed, ih, hbyte, Nat.pow_succ', Nat.mod_mul]

theorem decodeFixed_fixed_of_lt (hlt : value < 256 ^ width) :
    decodeFixed (fixed width value) = value := by
  rw [decodeFixed_fixed, Nat.mod_eq_of_lt hlt]

theorem decodeFixed_append (first second : Bytes) :
    decodeFixed (first ++ second) =
      decodeFixed first + 256 ^ first.length * decodeFixed second := by
  induction first with
  | nil => simp [decodeFixed]
  | cons byte rest ih =>
    rw [List.cons_append, decodeFixed, decodeFixed, ih, List.length_cons, Nat.pow_succ']
    ring

theorem decodeFixed_lt (bytes : Bytes) : decodeFixed bytes < 256 ^ bytes.length := by
  induction bytes with
  | nil => exact Nat.one_pos
  | cons byte rest ih =>
    have hbyte := byte.toNat_lt
    rw [decodeFixed, List.length_cons, Nat.pow_succ']
    omega

def store (memory : Bytes) (offset : Nat) (data : Bytes) : Bytes :=
  memory.take offset ++ data ++ memory.drop (offset + data.length)

theorem length_store (memory : Bytes) (offset : Nat) (data : Bytes)
    (hle : offset + data.length ≤ memory.length) :
    (store memory offset data).length = memory.length := by
  simp only [store, List.length_append, List.length_take, List.length_drop]
  omega

theorem take_store (memory : Bytes) (data : Bytes) (hoffset : count ≤ offset)
    (hle : count ≤ memory.length) : (store memory offset data).take count = memory.take count := by
  have hlength : count ≤ (memory.take offset).length := by
    rw [List.length_take]
    omega
  rw [store, List.append_assoc, List.take_append_of_le_length hlength, List.take_take,
    Nat.min_eq_left hoffset]

end Bytes

-- Memory on the device, of the size it was allocated with.
abbrev DeviceBuffer (size : Nat) := { bytes : Bytes // bytes.length = size }

def DeviceBuffer.zeros (size : Nat) : DeviceBuffer size :=
  ⟨List.replicate size 0, List.length_replicate⟩

-- A type whose values are copied between host and device byte by byte.
class Scalar (α : Type) where
  size : Nat
  toBytes : α → Bytes
  ofBytes : Bytes → α
  length_toBytes : ∀ value, (toBytes value).length = size
  ofBytes_toBytes : ∀ value, ofBytes (toBytes value) = value

instance : Scalar UInt64 where
  size := 8
  toBytes value := Bytes.fixed 8 value.toNat
  ofBytes bytes := UInt64.ofNat (Bytes.decodeFixed bytes)
  length_toBytes _ := Bytes.length_fixed _ _
  ofBytes_toBytes value := by
    rw [Bytes.decodeFixed_fixed_of_lt value.toNat_lt, UInt64.ofNat_toNat]

-- 32-bit values, by their bit patterns.
instance : Scalar UInt32 where
  size := 4
  toBytes value := Bytes.fixed 4 value.toNat
  ofBytes bytes := UInt32.ofNat (Bytes.decodeFixed bytes)
  length_toBytes _ := Bytes.length_fixed _ _
  ofBytes_toBytes value := by
    rw [Bytes.decodeFixed_fixed_of_lt value.toNat_lt, UInt32.ofNat_toNat]

theorem Scalar.toBytes_injective [Scalar α] : Function.Injective (toBytes (α := α)) :=
  Function.LeftInverse.injective ofBytes_toBytes

def vectorBytes [Scalar α] (values : Vector α count) : Bytes :=
  values.toList.flatMap Scalar.toBytes

theorem length_vectorBytes [Scalar α] (values : Vector α count) :
    (vectorBytes values).length = Scalar.size α * count := by
  have hsum (elements : List α) :
      (elements.flatMap Scalar.toBytes).length = Scalar.size α * elements.length := by
    induction elements with
    | nil => rfl
    | cons element rest ih =>
      rw [List.flatMap_cons, List.length_append, Scalar.length_toBytes, ih, List.length_cons,
        Nat.mul_succ, Nat.add_comm]
  rw [vectorBytes, hsum, Vector.length_toList]

theorem vectorBytes_slice [Scalar α] (values : Vector α count) (index : Fin count) :
    ((vectorBytes values).drop (index * Scalar.size α)).take (Scalar.size α) =
      Scalar.toBytes values[index] := by
  have hslice (elements : List α) (position : Nat) (hposition : position < elements.length) :
      ((elements.flatMap Scalar.toBytes).drop (position * Scalar.size α)).take (Scalar.size α) =
        Scalar.toBytes elements[position] := by
    induction elements generalizing position with
    | nil => cases hposition
    | cons element rest ih =>
      cases position with
      | zero =>
        rw [Nat.zero_mul, List.drop_zero, List.flatMap_cons,
          List.take_left' (Scalar.length_toBytes element)]
        rfl
      | succ position =>
        rw [List.flatMap_cons, Nat.succ_mul, Nat.add_comm, ← List.drop_drop,
          List.drop_left' (Scalar.length_toBytes element),
          ih position (Nat.lt_of_succ_lt_succ hposition)]
        rfl
  exact hslice values.toList index (by rw [Vector.length_toList]; exact index.isLt)

-- How a call ends: with a result, by an exception, or by taking the process down.
inductive Outcome (α : Type) where
  | returned (value : α)
  | threw (what : String)
  | aborted (reason : String)
  deriving DecidableEq, Repr

def Outcome.map {α β : Type} (f : α → β) : Outcome α → Outcome β
  | .returned value => .returned (f value)
  | .threw what => .threw what
  | .aborted reason => .aborted reason

-- A failed assertion stops the process only in builds that check assertions.
def checkedAssert (assertions : Bool) (condition : Prop) [Decidable condition] (text : String)
    (next : Outcome α × σ) (state : σ) : Outcome α × σ :=
  if assertions ∧ ¬condition then (.aborted text, state) else next

@[simp] theorem checkedAssert_of_true (assertions : Bool) (condition : Prop)
    [Decidable condition] (text : String) (next : Outcome α × σ) (state : σ)
    (hcondition : condition) :
    checkedAssert assertions condition text next state = next := by
  simp [checkedAssert, hcondition]

theorem next_of_checkedAssert_returned {condition : Prop} [Decidable condition]
    (h : checkedAssert assertions condition text next state = (.returned value, state')) :
    next = (.returned value, state') := by
  unfold checkedAssert at h
  split at h
  · cases h
  · exact h

end MlkvPlus
