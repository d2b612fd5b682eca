import MlkvPlus.Db.Decoding

namespace MlkvPlus.MemDiskTree

-- The values of the output that are assigned, and the bytes of the slice that are used: the size
-- field, and those of the values that are copied.
def Assigns (threads : Nat → List CopyStep) (index : Nat) : Prop :=
  ∃ thread, index ∈ (threads thread).filterMap CopyStep.output

def UsesByte (valueSize : Nat) (threads : Nat → List CopyStep) (index : Nat) : Prop :=
  index < 8 ∨ ∃ thread, ∃ source ∈ (threads thread).filterMap CopyStep.source,
    source ≤ index ∧ index < source + valueSize

def DeviceInside (valueSize : Nat) (raw : RawSlice) (outputNull launchError : Bool) (dim : Nat) :
    Prop :=
  ∀ threads, deviceDeserializeValueArray valueSize raw outputNull launchError = some threads →
    (∀ index, UsesByte valueSize threads index → index < raw.size) ∧
      ∀ index, Assigns threads index ↔ index < dim

-- How many values the launched threads copy. The grid has 32 bits, and so has the number by which
-- a thread knows itself.
def copiedCount (valueSize hSize : Nat) : Nat :=
  min hSize
    (min (launchedBlocks (chooseKernel valueSize hSize).1 * 256) (2 ^ 32) *
      copyWidth valueSize hSize)

-- The host decoder allocates an array of as many values as the size field says, or throws, and
-- copies all of them. Then `dim` values are copied from the array.
def hostDeserializeValueArray (valueSize : Nat) (allocates : Nat → Bool) (raw : RawSlice) :
    Option Nat :=
  if 2 ^ 63 ≤ valueSize * raw.hSize ∨ allocates (valueSize * raw.hSize) = false then none
  else some raw.hSize

def HostUsesByte (valueSize length index : Nat) : Prop :=
  index < 8 ∨ 8 ≤ index ∧ index < 8 + valueSize * length % 2 ^ 64

def HostInside (valueSize : Nat) (allocates : Nat → Bool) (raw : RawSlice) (dim : Nat) : Prop :=
  ∀ length, hostDeserializeValueArray valueSize allocates raw = some length →
    (∀ index, HostUsesByte valueSize length index → index < raw.size) ∧
      ∀ index < dim, index < length

-- When the decoders refuse a stored value: the device decoder looks at the size of the slice and at
-- its size field, the host decoder only asks for the memory that the size field stands for.
def DeviceRefuses (valueSize : Nat) (raw : RawSlice) (outputNull launchError : Bool) : Prop :=
  raw.size = 0 ∨ raw.null = true ∨ outputNull = true ∨ raw.hSize = 0 ∨
    raw.size < (8 + valueSize * raw.hSize) % 2 ^ 64 ∨
    launchedBlocks (chooseKernel valueSize raw.hSize).1 = 0 ∨ launchError = true

def HostRefuses (valueSize : Nat) (allocates : Nat → Bool) (raw : RawSlice) : Prop :=
  2 ^ 63 ≤ valueSize * raw.hSize ∨ allocates (valueSize * raw.hSize) = false

theorem deviceDeserialize_eq_none_iff :
    deviceDeserializeValueArray valueSize raw outputNull launchError = none ↔
      DeviceRefuses valueSize raw outputNull launchError := by
  rw [deviceDeserializeValueArray, DeviceRefuses]
  dsimp only
  rw [← RawSlice.hSize, expectedRawSize]
  split_ifs with hempty hnull hzero hshort hlaunch
  · exact iff_of_true rfl (hempty.imp_right .inl)
  · exact iff_of_true rfl (.inr (.inr (.inl hnull)))
  · exact iff_of_true rfl (.inr (.inr (.inr (.inl hzero))))
  · exact iff_of_true rfl (.inr (.inr (.inr (.inr (.inl hshort)))))
  · exact iff_of_true rfl (.inr (.inr (.inr (.inr (.inr hlaunch)))))
  · refine iff_of_false not_false ?_
    rintro (hsize | hraw | hnone | hfield | hlong | hstart)
    · exact hempty (.inl hsize)
    · exact hempty (.inr hraw)
    · exact hnull hnone
    · exact hzero hfield
    · exact hshort hlong
    · exact hlaunch hstart

section Launched

variable {V : Type} [Scalar V] {width hSize count : Nat}
  {kernel : (thread index : Nat) → List CopyStep}

theorem exists_thread_iff (hwidth : 0 < width) (element : Nat) :
    (∃ thread < launchedBlocks count * 256, element ∈ elementsOf width hSize (thread % 2 ^ 32)) ↔
      element < min hSize (min (launchedBlocks count * 256) (2 ^ 32) * width) := by
  have hdiv := Nat.div_lt_iff_lt_mul (x := element)
    (y := min (launchedBlocks count * 256) (2 ^ 32)) hwidth
  rw [lt_min_iff, ← hdiv, lt_min_iff]
  simp only [mem_elementsOf hwidth]
  constructor
  · rintro ⟨thread, hthread, helement, hindex⟩
    rw [hindex]
    exact ⟨helement, (Nat.mod_le ..).trans_lt hthread, Nat.mod_lt _ (by decide)⟩
  · rintro ⟨helement, hthread, hindex⟩
    exact ⟨element / width, hthread, helement, (Nat.mod_eq_of_lt hindex).symm⟩

theorem Copies.assigns_iff (h : Copies V width hSize kernel) (hwidth : 0 < width) (index : Nat) :
    Assigns (launch count kernel) index ↔
      index < min hSize (min (launchedBlocks count * 256) (2 ^ 32) * width) := by
  rw [← exists_thread_iff hwidth, Assigns]
  refine exists_congr fun thread => ?_
  rw [launch]
  split
  case isTrue hthread => simp only [h.outputs, hthread, true_and]
  case isFalse hthread => simp [hthread]

theorem Copies.usesByte_iff (h : Copies V width hSize kernel) (hwidth : 0 < width) (index : Nat) :
    UsesByte (Scalar.size V) (launch count kernel) index ↔
      index < 8 ∨ ∃ element < min hSize (min (launchedBlocks count * 256) (2 ^ 32) * width),
        8 + element * Scalar.size V ≤ index ∧
          index < 8 + element * Scalar.size V + Scalar.size V := by
  rw [UsesByte]
  refine or_congr_right ?_
  simp only [← exists_thread_iff hwidth]
  constructor
  · rintro ⟨thread, source, hsource, hindex⟩
    rw [launch] at hsource
    split at hsource
    case isTrue hthread =>
      rw [h.sources] at hsource
      obtain ⟨element, helement, rfl⟩ := List.mem_map.mp hsource
      exact ⟨element, ⟨thread, hthread, helement⟩, hindex⟩
    case isFalse => cases hsource
  · rintro ⟨element, ⟨thread, hthread, helement⟩, hindex⟩
    refine ⟨thread, 8 + element * Scalar.size V, ?_, hindex⟩
    rw [launch, if_pos hthread, h.sources]
    exact List.mem_map_of_mem helement

end Launched

theorem forall_byte_lt_iff (valueSize count size : Nat) :
    (∀ index, (index < 8 ∨ ∃ element < count, 8 + element * valueSize ≤ index ∧
        index < 8 + element * valueSize + valueSize) → index < size) ↔
      8 + valueSize * count ≤ size := by
  constructor
  · intro hall
    cases hcount : valueSize * count with
    | zero => exact hall 7 (.inl (by decide))
    | succ last =>
      cases count with
      | zero => cases hcount
      | succ count =>
        have hpos : valueSize ≠ 0 := by
          rintro rfl
          simp at hcount
        rw [Nat.mul_succ, Nat.mul_comm] at hcount
        have hlast := hall (8 + last) (.inr ⟨count, Nat.lt_succ_self count, by omega, by omega⟩)
        omega
  · rintro hle index (hfield | ⟨element, helement, -, hlt⟩)
    · omega
    · have hmul : (element + 1) * valueSize ≤ count * valueSize :=
        Nat.mul_le_mul_right _ helement
      rw [Nat.succ_mul] at hmul
      rw [Nat.mul_comm] at hle
      omega

theorem assigns_launch_iff (V : Type) [Scalar V] (hSize index : Nat) :
    Assigns (launch (chooseKernel (Scalar.size V) hSize).1 (chooseKernel (Scalar.size V) hSize).2)
        index ↔ index < copiedCount (Scalar.size V) hSize :=
  (copies_chooseKernel (V := V) hSize).assigns_iff (copyWidth_pos _ _) index

theorem usesByte_launch_iff (V : Type) [Scalar V] (hSize index : Nat) :
    UsesByte (Scalar.size V)
        (launch (chooseKernel (Scalar.size V) hSize).1 (chooseKernel (Scalar.size V) hSize).2)
        index ↔
      index < 8 ∨ ∃ element < copiedCount (Scalar.size V) hSize,
        8 + element * Scalar.size V ≤ index ∧
          index < 8 + element * Scalar.size V + Scalar.size V :=
  (copies_chooseKernel (V := V) hSize).usesByte_iff (copyWidth_pos _ _) index

theorem forall_lt_iff_lt {first second : Nat} :
    (∀ index, index < first ↔ index < second) ↔ first = second := by
  constructor
  · intro hall
    have hleft := hall first
    have hright := hall second
    omega
  · rintro rfl index
    rfl

theorem deviceInside_iff (V : Type) [Scalar V] (raw : RawSlice) (outputNull launchError : Bool)
    (dim : Nat) :
    DeviceInside (Scalar.size V) raw outputNull launchError dim ↔
      DeviceRefuses (Scalar.size V) raw outputNull launchError ∨
        8 + Scalar.size V * copiedCount (Scalar.size V) raw.hSize ≤ raw.size ∧
          copiedCount (Scalar.size V) raw.hSize = dim := by
  rw [← deviceDeserialize_eq_none_iff]
  cases hresult : deviceDeserializeValueArray (Scalar.size V) raw outputNull launchError with
  | none => simp [DeviceInside, hresult]
  | some threads =>
    obtain ⟨-, -, -, -, rfl⟩ := deviceDeserialize_eq_some_iff.mp hresult
    rw [or_iff_right (by simp), ← forall_byte_lt_iff, ← forall_lt_iff_lt]
    simp only [DeviceInside, hresult, Option.some.injEq, forall_eq', usesByte_launch_iff,
      assigns_launch_iff]

theorem hostInside_iff (valueSize : Nat) (allocates : Nat → Bool) (raw : RawSlice) (dim : Nat) :
    HostInside valueSize allocates raw dim ↔
      HostRefuses valueSize allocates raw ∨
        8 + valueSize * raw.hSize ≤ raw.size ∧ dim ≤ raw.hSize := by
  rw [HostInside, hostDeserializeValueArray, HostRefuses]
  split_ifs with hfails
  · exact iff_of_true (fun _ hnone => nomatch hnone) (.inl hfails)
  · rw [or_iff_right hfails]
    rw [not_or, Nat.not_le] at hfails
    simp only [Option.some.injEq, forall_eq', HostUsesByte,
      Nat.mod_eq_of_lt (hfails.1.trans (by decide : 2 ^ 63 < 2 ^ 64))]
    refine and_congr ⟨fun hall => ?_, fun hle index hindex => ?_⟩ ⟨fun hall => ?_, fun hle => ?_⟩
    · have hlast := hall (7 + valueSize * raw.hSize) (by omega)
      omega
    · omega
    · by_contra hlt
      exact absurd (hall raw.hSize (Nat.not_le.mp hlt)) (Nat.lt_irrefl _)
    · intro index hindex
      omega

theorem copiedCount_of_lt (valueSize : Nat) (hlt : hSize < 2 ^ 31) :
    copiedCount valueSize hSize = hSize := by
  obtain ⟨hcount, henough⟩ := chooseKernel_enough valueSize hlt
  refine Nat.min_eq_left (henough.trans (Nat.mul_le_mul_right _ ?_))
  rw [launchedBlocks_eq (by omega)]
  omega

-- The device decoder believes the size field: it copies as many values as the field says, or as
-- the truncated grid has threads for, whatever `dim` is, and its check of the length is made in
-- 64 bits. The host decoder checks nothing. Where the field is `dim` and the values are all
-- there, both stay inside.
theorem decoding_inside_iff (V : Type) [Scalar V] (raw : RawSlice) (outputNull launchError : Bool)
    (allocates : Nat → Bool) (dim : Nat) :
    (DeviceInside (Scalar.size V) raw outputNull launchError dim ↔
      DeviceRefuses (Scalar.size V) raw outputNull launchError ∨
        8 + Scalar.size V * copiedCount (Scalar.size V) raw.hSize ≤ raw.size ∧
          copiedCount (Scalar.size V) raw.hSize = dim) ∧
    (HostInside (Scalar.size V) allocates raw dim ↔
      HostRefuses (Scalar.size V) allocates raw ∨
        8 + Scalar.size V * raw.hSize ≤ raw.size ∧ dim ≤ raw.hSize) ∧
    (raw.hSize = dim ∧ dim < 2 ^ 31 ∧ 8 + Scalar.size V * dim ≤ raw.size →
      DeviceInside (Scalar.size V) raw outputNull launchError dim ∧
        HostInside (Scalar.size V) allocates raw dim) := by
  refine ⟨deviceInside_iff V raw outputNull launchError dim,
    hostInside_iff (Scalar.size V) allocates raw dim, ?_⟩
  rintro ⟨rfl, hlt, hle⟩
  constructor
  · rw [deviceInside_iff, copiedCount_of_lt (Scalar.size V) hlt]
    exact .inr ⟨hle, rfl⟩
  · rw [hostInside_iff]
    exact .inr ⟨hle, Nat.le_refl _⟩

-- Two values of eight bytes.
def storedTwo : RawSlice := ⟨.ofBytes (Bytes.fixed 8 2 ++ Bytes.fixed 8 5 ++ Bytes.fixed 8 6), 24,
  false⟩

theorem decoding_inside_two :
    storedTwo.hSize = 2 ∧ DeviceInside 8 storedTwo false false 2 ∧
      HostInside 8 (fun _ => true) storedTwo 2 := by
  have hSize : storedTwo.hSize = 2 := by decide
  obtain ⟨-, -, hinside⟩ := decoding_inside_iff UInt64 storedTwo false false (fun _ => true) 2
  exact ⟨hSize, hinside ⟨hSize, by decide, by decide⟩⟩

-- Sixteen bytes whose size field says 2^61 + 1, which the check takes for 1.
def wrappedSize : RawSlice := ⟨.ofBytes (Bytes.fixed 8 (2 ^ 61 + 1) ++ Bytes.fixed 8 5), 16, false⟩

-- Under `dim` = 1 the two values are written to an output of one; under `dim` = 3 the host copies
-- three values out of an array of two. The wrapped size makes the kernel read behind the slice,
-- and the host reads behind eight bytes that say 2.
theorem decoding_outside :
    (∃ threads, deviceDeserializeValueArray 8 storedTwo false false = some threads ∧
      Assigns threads 1) ∧
    (hostDeserializeValueArray 8 (fun _ => true) storedTwo = some 2 ∧
      ¬HostInside 8 (fun _ => true) storedTwo 3) ∧
    (∃ threads, deviceDeserializeValueArray 8 wrappedSize false false = some threads ∧
      UsesByte 8 threads 16) ∧
    ¬HostInside 8 (fun _ => true) ⟨.ofBytes (Bytes.fixed 8 2), 8, false⟩ 2 := by
  have htwo : storedTwo.hSize = 2 := by decide
  have hwrapped : wrappedSize.hSize = 2 ^ 61 + 1 := by decide
  have hshort : RawSlice.hSize ⟨.ofBytes (Bytes.fixed 8 2), 8, false⟩ = 2 := by decide
  refine ⟨⟨_, deviceDeserialize_eq_some_iff.mpr ⟨by decide, ?_, ?_, ?_, rfl⟩,
    (assigns_launch_iff UInt64 _ 1).mpr ?_⟩, ⟨?_, ?_⟩,
    ⟨_, deviceDeserialize_eq_some_iff.mpr ⟨by decide, ?_, ?_, ?_, rfl⟩,
      (usesByte_launch_iff UInt64 _ 16).mpr (.inr ⟨1, ?_, by decide⟩)⟩, ?_⟩
  · rw [htwo]
    decide
  · rw [htwo]
    decide
  · rw [htwo]
    decide
  · rw [htwo]
    decide
  · rw [hostDeserializeValueArray, htwo]
    decide
  · rw [hostInside_iff, HostRefuses, htwo]
    decide
  · rw [hwrapped]
    decide
  · rw [hwrapped]
    decide
  · rw [hwrapped]
    decide
  · rw [hwrapped]
    decide
  · rw [hostInside_iff, HostRefuses, hshort]
    decide

end MlkvPlus.MemDiskTree
