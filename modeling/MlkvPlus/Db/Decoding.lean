import MlkvPlus.Data.Interleaving
import MlkvPlus.Db.Tiers
import MlkvPlus.MemDisk.Agreement

namespace MlkvPlus.MemDiskTree

-- A slice on the device: what is in memory from its first byte on, and its size.
structure RawSlice where
  data : Memory
  size : Nat
  null : Bool := false

-- What a thread of a kernel does: it copies one value, at once or through its element of the
-- shared memory of its block.
inductive CopyStep where
  | copy (output source : Nat)
  | load (slot : Nat × Nat) (source : Nat)
  | store (output : Nat) (slot : Nat × Nat)
  deriving DecidableEq, Repr

namespace CopyStep

def output : CopyStep → Option Nat
  | .copy output _ => some output
  | .load _ _ => none
  | .store output _ => some output

def source : CopyStep → Option Nat
  | .copy _ source => some source
  | .load _ source => some source
  | .store _ _ => none

def slot : CopyStep → Option (Nat × Nat)
  | .copy _ _ => none
  | .load slot _ => some slot
  | .store _ slot => some slot

end CopyStep

structure DecodeMemory (V : Type) where
  shared : Nat × Nat → V
  output : Nat → V

variable {V : Type} [Scalar V]

def DecodeMemory.step (raw : Memory) (s : DecodeMemory V) : CopyStep → DecodeMemory V
  | .copy output source =>
    { s with output := Function.update s.output output
               (Scalar.ofBytes (raw.read source (Scalar.size V))) }
  | .load slot source =>
    { s with shared := Function.update s.shared slot
               (Scalar.ofBytes (raw.read source (Scalar.size V))) }
  | .store output slot => { s with output := Function.update s.output output (s.shared slot) }

section Kernels

variable (valueSize offset numElements : Nat)

def copyElement (index : Nat) : CopyStep := .copy index (offset + index * valueSize)

def kernelDeserializeValueArray (_thread idx : Nat) : List CopyStep :=
  if idx < numElements then [copyElement valueSize offset idx] else []

-- The barrier between the two parts is left out: with it the threads have fewer orders.
def kernelDeserializeValueArrayShared (thread globalIdx : Nat) : List CopyStep :=
  let slot := (thread / 256, thread % 256)
  (if globalIdx < numElements then [.load slot (offset + globalIdx * valueSize)] else []) ++
    if globalIdx < numElements then [.store globalIdx slot] else []

def vecSize : Nat := if valueSize ≥ 8 then 2 else 4

def kernelDeserializeValueArrayVectorized (_thread idx : Nat) : List CopyStep :=
  let vecIdx := idx * vecSize valueSize
  if vecIdx + vecSize valueSize ≤ numElements then
    (List.range (vecSize valueSize)).map fun i => copyElement valueSize offset (vecIdx + i)
  else if vecIdx < numElements then
    (List.range (numElements - vecIdx)).map fun i => copyElement valueSize offset (vecIdx + i)
  else []

end Kernels

-- The kernel for an array of `hSize` values, with the number of threads that are asked for.
def chooseKernel (valueSize hSize : Nat) : Nat × ((thread index : Nat) → List CopyStep) :=
  if hSize ≤ 4096 then (hSize, kernelDeserializeValueArrayShared valueSize 8 hSize)
  else if valueSize = 4 ∨ valueSize = 8 then
    ((hSize + vecSize valueSize - 1) % 2 ^ 64 / vecSize valueSize,
      kernelDeserializeValueArrayVectorized valueSize 8 hSize)
  else (hSize, kernelDeserializeValueArray valueSize 8 hSize)

def expectedRawSize (valueSize hSize : Nat) : Nat := (8 + valueSize * hSize) % 2 ^ 64

-- `none` is the result false. A grid of no block, or of too many, is an error of the launch.
def deviceDeserializeValueArray (valueSize : Nat) (raw : RawSlice) (outputNull launchError : Bool) :
    Option (Nat → List CopyStep) :=
  if raw.size = 0 ∨ raw.null = true then none
  else if outputNull = true then none
  else
    let hSize := Bytes.decodeFixed (raw.data.read 0 8)
    if hSize = 0 then none
    else if raw.size < expectedRawSize valueSize hSize then none
    else
      let (count, kernel) := chooseKernel valueSize hSize
      if launchedBlocks count = 0 ∨ launchError = true then none
      else some (launch count kernel)

def RawSlice.hSize (raw : RawSlice) : Nat := Bytes.decodeFixed (raw.data.read 0 8)

theorem deviceDeserialize_eq_some_iff :
    deviceDeserializeValueArray valueSize raw outputNull launchError = some threads ↔
      (raw.size ≠ 0 ∧ raw.null = false ∧ outputNull = false ∧ launchError = false) ∧
      raw.hSize ≠ 0 ∧ expectedRawSize valueSize raw.hSize ≤ raw.size ∧
      launchedBlocks (chooseKernel valueSize raw.hSize).1 ≠ 0 ∧
      launch (chooseKernel valueSize raw.hSize).1 (chooseKernel valueSize raw.hSize).2 =
        threads := by
  rw [deviceDeserializeValueArray]
  dsimp only
  rw [← RawSlice.hSize]
  split_ifs with hempty hnull hzero hshort hlaunch
  · refine iff_of_false not_false ?_
    rintro ⟨⟨hsize, hraw, -⟩, -⟩
    simp [hsize, hraw] at hempty
  · simp [hnull]
  · simp [hzero]
  · refine iff_of_false not_false ?_
    rintro ⟨-, -, hexpected, -⟩
    omega
  · refine iff_of_false not_false ?_
    rintro ⟨⟨-, -, -, herror⟩, -, -, hblocks, -⟩
    simp [herror, hblocks] at hlaunch
  · rw [not_or, Bool.not_eq_true] at hempty hlaunch
    rw [Bool.not_eq_true] at hnull
    constructor
    · intro hsome
      exact ⟨⟨hempty.1, hempty.2, hnull, hlaunch.2⟩, hzero, Nat.not_lt.mp hshort, hlaunch.1,
        Option.some.inj hsome⟩
    · rintro ⟨-, -, -, -, hthreads⟩
      exact congrArg some hthreads

def elementsOf (width hSize index : Nat) : List Nat :=
  List.range' (index * width) (min width (hSize - index * width))

theorem mem_elementsOf (hwidth : 0 < width) :
    element ∈ elementsOf width hSize index ↔ element < hSize ∧ element / width = index := by
  rw [elementsOf, List.mem_range'_1, Nat.div_eq_iff hwidth]
  have hsucc : (index + 1) * width = index * width + width := Nat.succ_mul index width
  omega

-- Whatever the kernel, a thread copies its `width` values from the bytes they are at, through
-- no other slot of the shared memory than its own.
structure Copies (V : Type) [Scalar V] (width hSize : Nat)
    (kernel : (thread index : Nat) → List CopyStep) : Prop where
  outputs : ∀ thread index,
    (kernel thread index).filterMap CopyStep.output = elementsOf width hSize index
  sources : ∀ thread index, (kernel thread index).filterMap CopyStep.source =
    (elementsOf width hSize index).map fun element => 8 + element * Scalar.size V
  slots : ∀ thread index, ∀ step ∈ kernel thread index, ∀ slot, step.slot = some slot →
    slot = (thread / 256, thread % 256)
  values : ∀ thread index raw (s : DecodeMemory V), ∀ element ∈ elementsOf width hSize index,
    ((kernel thread index).foldl (DecodeMemory.step raw) s).output element =
      Scalar.ofBytes (raw.read (8 + element * Scalar.size V) (Scalar.size V))

theorem output_foldl_copies (raw : Memory) (s : DecodeMemory V) (offset element : Nat)
    (elements : List Nat) :
    ((elements.map (copyElement (Scalar.size V) offset)).foldl (DecodeMemory.step raw) s).output
        element =
      if element ∈ elements then
        Scalar.ofBytes (raw.read (offset + element * Scalar.size V) (Scalar.size V))
      else s.output element := by
  induction elements generalizing s with
  | nil => rfl
  | cons first rest ih =>
    rw [List.map_cons, List.foldl_cons, ih]
    by_cases hrest : element ∈ rest
    · rw [if_pos hrest, if_pos (List.mem_cons_of_mem _ hrest)]
    · rw [if_neg hrest, copyElement, DecodeMemory.step]
      by_cases heq : element = first
      · rw [if_pos (by simp [heq]), heq]
        exact Function.update_self ..
      · rw [if_neg (by simp [heq, hrest])]
        exact Function.update_of_ne heq ..

theorem copies_of_eq (h : ∀ thread index, kernel thread index =
      (elementsOf width hSize index).map (copyElement (Scalar.size V) 8)) :
    Copies V width hSize kernel where
  outputs thread index := by
    rw [h, List.filterMap_map]
    exact List.filterMap_some
  sources thread index := by
    rw [h, List.filterMap_map]
    exact congrFun List.filterMap_eq_map _
  slots thread index step hstep slot hslot := by
    rw [h] at hstep
    obtain ⟨element, -, rfl⟩ := List.mem_map.mp hstep
    cases hslot
  values thread index raw s element helement := by
    rw [h, output_foldl_copies, if_pos helement]

theorem elementsOf_one (hSize index : Nat) :
    elementsOf 1 hSize index = if index < hSize then [index] else [] := by
  rw [elementsOf, Nat.mul_one]
  by_cases hindex : index < hSize
  · rw [if_pos hindex, show min 1 (hSize - index) = 1 by omega]
    rfl
  · rw [if_neg hindex, show min 1 (hSize - index) = 0 by omega]
    rfl

theorem copies_kernel (hSize : Nat) :
    Copies V 1 hSize (kernelDeserializeValueArray (Scalar.size V) 8 hSize) := by
  refine copies_of_eq fun thread index => ?_
  rw [kernelDeserializeValueArray, elementsOf_one]
  split
  · rfl
  · rfl

theorem copies_vectorized (hSize : Nat) :
    Copies V (vecSize (Scalar.size V)) hSize
      (kernelDeserializeValueArrayVectorized (Scalar.size V) 8 hSize) := by
  refine copies_of_eq fun thread index => ?_
  rw [kernelDeserializeValueArrayVectorized, elementsOf, List.range'_eq_map_range, List.map_map]
  generalize index * vecSize (Scalar.size V) = start
  split
  · rw [Nat.min_eq_left (by omega)]
    rfl
  · split
    · rw [Nat.min_eq_right (by omega)]
      rfl
    · rw [show min (vecSize (Scalar.size V)) (hSize - start) = 0 by omega]
      rfl

theorem copies_shared (hSize : Nat) :
    Copies V 1 hSize (kernelDeserializeValueArrayShared (Scalar.size V) 8 hSize) where
  outputs thread index := by
    rw [kernelDeserializeValueArrayShared, elementsOf_one]
    by_cases hindex : index < hSize
    · simp only [hindex, if_true]
      rfl
    · simp [hindex]
  sources thread index := by
    rw [kernelDeserializeValueArrayShared, elementsOf_one]
    by_cases hindex : index < hSize
    · simp only [hindex, if_true]
      rfl
    · simp [hindex]
  slots thread index step hstep slot hslot := by
    rw [kernelDeserializeValueArrayShared] at hstep
    by_cases hindex : index < hSize
    · simp only [hindex, if_true, List.singleton_append, List.mem_cons, List.not_mem_nil,
        or_false] at hstep
      rcases hstep with rfl | rfl
      · exact (Option.some.inj hslot).symm
      · exact (Option.some.inj hslot).symm
    · simp [hindex] at hstep
  values thread index raw s element helement := by
    rw [elementsOf_one] at helement
    split at helement
    case isTrue hindex =>
      obtain rfl := List.mem_singleton.mp helement
      simp [kernelDeserializeValueArrayShared, hindex, DecodeMemory.step]
    case isFalse => cases helement

def copyWidth (valueSize hSize : Nat) : Nat :=
  if hSize ≤ 4096 then 1 else if valueSize = 4 ∨ valueSize = 8 then vecSize valueSize else 1

theorem copyWidth_cases (valueSize hSize : Nat) :
    copyWidth valueSize hSize = 1 ∨ copyWidth valueSize hSize = 2 ∨
      copyWidth valueSize hSize = 4 := by
  rw [copyWidth, vecSize]
  split_ifs
  · exact .inl rfl
  · exact .inr (.inl rfl)
  · exact .inr (.inr rfl)
  · exact .inl rfl

theorem copyWidth_pos (valueSize hSize : Nat) : 0 < copyWidth valueSize hSize := by
  have hcases := copyWidth_cases valueSize hSize
  omega

theorem copies_chooseKernel (hSize : Nat) :
    Copies V (copyWidth (Scalar.size V) hSize) hSize (chooseKernel (Scalar.size V) hSize).2 := by
  rw [copyWidth, chooseKernel]
  split
  · exact copies_shared hSize
  · split
    · exact copies_vectorized hSize
    · exact copies_kernel hSize

theorem chooseKernel_count (hlt : hSize < 2 ^ 64) :
    (chooseKernel valueSize hSize).1 =
      (hSize + copyWidth valueSize hSize - 1) % 2 ^ 64 / copyWidth valueSize hSize := by
  have hone : (hSize + 1 - 1) % 2 ^ 64 / 1 = hSize := by
    rw [Nat.add_sub_cancel, Nat.div_one, Nat.mod_eq_of_lt hlt]
  rw [copyWidth, chooseKernel]
  split
  · exact hone.symm
  · split
    · rfl
    · exact hone.symm

namespace DecodeMemory

-- What one thread sees of its own: a value of the output, and its slot.
def view (element : Nat) (slot : Nat × Nat) (s : DecodeMemory V) : V × V :=
  (s.output element, s.shared slot)

theorem view_step_of_other {step : CopyStep} (raw : Memory) (s : DecodeMemory V)
    (houtput : step.output ≠ some element) (hslot : step.slot ≠ some slot) :
    (s.step raw step).view element slot = s.view element slot := by
  cases step with
  | copy output source =>
    have hne : element ≠ output := fun heq => houtput (congrArg some heq.symm)
    simp [view, DecodeMemory.step, hne]
  | load used source =>
    have hne : slot ≠ used := fun heq => hslot (congrArg some heq.symm)
    simp [view, DecodeMemory.step, hne]
  | store output used =>
    have hne : element ≠ output := fun heq => houtput (congrArg some heq.symm)
    simp [view, DecodeMemory.step, hne]

theorem view_step_congr {step : CopyStep} {element : Nat} {slot : Nat × Nat} (raw : Memory)
    {s t : DecodeMemory V} (hslot : ∀ used, step.slot = some used → used = slot)
    (h : s.view element slot = t.view element slot) :
    (s.step raw step).view element slot = (t.step raw step).view element slot := by
  obtain ⟨houtput, hshared⟩ := Prod.mk.inj h
  cases step with
  | copy output source => simp [view, DecodeMemory.step, Function.update_apply, houtput, hshared]
  | load used source => simp [view, DecodeMemory.step, Function.update_apply, houtput, hshared]
  | store output used =>
    obtain rfl := hslot used rfl
    simp [view, DecodeMemory.step, Function.update_apply, houtput, hshared]

end DecodeMemory

section Runs

variable {width hSize count : Nat} {kernel : (thread index : Nat) → List CopyStep}
  {run : List CopyStep}

theorem mem_launch (hcount : count ≤ 2 ^ 32) (h : step ∈ launch count kernel thread) :
    step ∈ kernel thread thread := by
  rw [launch, launchedBlocks_eq hcount] at h
  split at h
  case isTrue hthread => rwa [Nat.mod_eq_of_lt (by omega)] at h
  case isFalse => cases h

theorem Copies.output_of_mem (h : Copies V width hSize kernel) (hwidth : 0 < width)
    (hstep : step ∈ kernel thread index) (houtput : step.output = some element) :
    element < hSize ∧ element / width = index := by
  rw [← mem_elementsOf hwidth, ← h.outputs thread index]
  exact List.mem_filterMap.mpr ⟨step, hstep, houtput⟩

theorem launch_of_element (hwidth : 0 < width) (hcount : count ≤ 2 ^ 32)
    (henough : hSize ≤ count * width) (helement : element < hSize) :
    launch count kernel (element / width) = kernel (element / width) (element / width) := by
  refine launch_of_lt hcount ((Nat.div_lt_iff_lt_mul hwidth).mpr ?_)
  omega

theorem Copies.run_output (h : Copies V width hSize kernel) (hwidth : 0 < width)
    (hcount : count ≤ 2 ^ 32) (henough : hSize ≤ count * width)
    (hrun : Interleaves (launch count kernel) run) (raw : Memory) (s : DecodeMemory V)
    {element : Nat} (helement : element < hSize) :
    (run.foldl (DecodeMemory.step raw) s).output element =
      Scalar.ofBytes (raw.read (8 + element * Scalar.size V) (Scalar.size V)) := by
  generalize hthread : element / width = thread
  have hview := hrun.foldl_view (DecodeMemory.step raw)
    (DecodeMemory.view element (thread / 256, thread % 256)) thread ?_ ?_ s
  · have houtput := congrArg Prod.fst hview
    rw [← hthread, launch_of_element hwidth hcount henough helement] at houtput
    exact houtput.trans (h.values _ _ raw s element ((mem_elementsOf hwidth).mpr ⟨helement, rfl⟩))
  · intro other hne step hstep state
    have hmem := mem_launch hcount hstep
    refine DecodeMemory.view_step_of_other raw state (fun houtput => ?_) fun hslot => ?_
    · exact hne ((h.output_of_mem hwidth hmem houtput).2.symm.trans hthread)
    · have hslots := Prod.mk.inj (h.slots other other step hmem _ hslot)
      omega
  · intro step hstep first second hsame
    exact DecodeMemory.view_step_congr raw (h.slots thread thread step (mem_launch hcount hstep))
      hsame

theorem Copies.run_count (h : Copies V width hSize kernel) (hwidth : 0 < width)
    (hcount : count ≤ 2 ^ 32) (henough : hSize ≤ count * width)
    (hrun : Interleaves (launch count kernel) run) (helement : element < hSize) :
    (run.filterMap CopyStep.output).count element = 1 := by
  have hfilter := hrun.filter_eq (fun step => step.output == some element) (element / width)
    fun other hne step hstep => by
      rw [beq_eq_false_iff_ne]
      intro houtput
      exact hne (h.output_of_mem hwidth (mem_launch hcount hstep) houtput).2.symm
  rw [List.count_filterMap, List.countP_eq_length_filter, hfilter, ← List.countP_eq_length_filter,
    ← List.count_filterMap, launch_of_element hwidth hcount henough helement, h.outputs]
  exact List.count_eq_one_of_mem List.nodup_range' ((mem_elementsOf hwidth).mpr ⟨helement, rfl⟩)

theorem Copies.run_lt (h : Copies V width hSize kernel) (hwidth : 0 < width)
    (hcount : count ≤ 2 ^ 32) (hrun : Interleaves (launch count kernel) run)
    (helement : element ∈ run.filterMap CopyStep.output) : element < hSize := by
  obtain ⟨step, hstep, houtput⟩ := List.mem_filterMap.mp helement
  obtain ⟨thread, hthread⟩ := hrun.mem hstep
  exact (h.output_of_mem hwidth (mem_launch hcount hthread) houtput).1

end Runs

theorem chooseKernel_enough (valueSize : Nat) (hlt : hSize < 2 ^ 31) :
    (chooseKernel valueSize hSize).1 ≤ 2 ^ 31 ∧
      hSize ≤ (chooseKernel valueSize hSize).1 * copyWidth valueSize hSize := by
  rw [chooseKernel_count (by omega)]
  rcases copyWidth_cases valueSize hSize with hwidth | hwidth | hwidth
  · rw [hwidth]
    omega
  · rw [hwidth]
    omega
  · rw [hwidth]
    omega

theorem launchedBlocks_ne_zero (hpos : 0 < count) (hcount : count ≤ 2 ^ 31) :
    launchedBlocks count ≠ 0 := by
  rw [launchedBlocks_eq (by omega)]
  omega

theorem deserializeValueArray_eq {data : Memory} (hdata : data.Stores 0 bytes)
    (hlength : 8 + Scalar.size V * Bytes.decodeFixed (data.read 0 8) ≤ bytes.length) :
    (deserializeValueArray bytes : List V) =
      (List.range (Bytes.decodeFixed (data.read 0 8))).map fun index =>
        Scalar.ofBytes (data.read (8 + index * Scalar.size V) (Scalar.size V)) := by
  have hread : ∀ skip length, skip + length ≤ bytes.length →
      data.read skip length = (bytes.drop skip).take length := by
    intro skip length hle
    have hskip := data.read_skip 0 bytes.length skip length hle
    rwa [Nat.zero_add, hdata] at hskip
  have hfield : data.read 0 8 = bytes.take 8 := hread 0 8 (by omega)
  rw [deserializeValueArray, ← hfield]
  refine List.map_congr_left fun index hindex => ?_
  have hlast : (index + 1) * Scalar.size V ≤
      Bytes.decodeFixed (data.read 0 8) * Scalar.size V :=
    Nat.mul_le_mul_right _ (List.mem_range.mp hindex)
  rw [Nat.succ_mul] at hlast
  rw [Nat.mul_comm] at hlength
  rw [hread _ _ (by omega)]

theorem decodeFixed_serialize (hdim : dim < 2 ^ 64) (values : Vector V dim) {data : Memory}
    (hdata : data.Stores 0 (serializeValueArray values)) :
    Bytes.decodeFixed (data.read 0 8) = dim := by
  have hfield := (Memory.stores_append.mp hdata).1
  rw [Memory.Stores, Bytes.length_fixed] at hfield
  rw [hfield, Bytes.decodeFixed_fixed_of_lt (hdim.trans_eq (by norm_num))]

-- Both decoders give the same values, in whatever order the threads run.
theorem deviceDeserialize_eq_deserialize {dim : Nat} (hdim : 1 ≤ dim) (hlt : dim < 2 ^ 31)
    (values : Vector V dim) (raw : RawSlice)
    (hdata : raw.data.Stores 0 (serializeValueArray values))
    (hrawSize : raw.size = (serializeValueArray values).length) (hnull : raw.null = false) :
    ∃ threads, deviceDeserializeValueArray (Scalar.size V) raw false false = some threads ∧
      ∀ run, Interleaves threads run → ∀ s : DecodeMemory V,
        (∀ index < dim, (run.filterMap CopyStep.output).count index = 1) ∧
        (∀ index ∈ run.filterMap CopyStep.output, index < dim) ∧
        (List.range dim).map (run.foldl (DecodeMemory.step raw.data) s).output =
          deserializeValueArray (serializeValueArray values) := by
  have hfield := decodeFixed_serialize (by omega) values hdata
  have hlength := length_serializeValueArray values
  obtain ⟨hcount, henough⟩ := chooseKernel_enough (Scalar.size V) hlt
  have hwidth := copyWidth_pos (Scalar.size V) dim
  have hpos : 0 < (chooseKernel (Scalar.size V) dim).1 :=
    Nat.pos_of_mul_pos_right (hdim.trans henough)
  have hexpected : expectedRawSize (Scalar.size V) dim ≤ raw.size := by
    rw [hrawSize, hlength]
    exact Nat.mod_le ..
  have hlaunch : deviceDeserializeValueArray (Scalar.size V) raw false false =
      some (launch (chooseKernel (Scalar.size V) dim).1 (chooseKernel (Scalar.size V) dim).2) := by
    rw [deviceDeserialize_eq_some_iff, RawSlice.hSize, hfield]
    exact ⟨⟨by omega, hnull, rfl, rfl⟩, by omega, hexpected, launchedBlocks_ne_zero hpos hcount, rfl⟩
  refine ⟨_, hlaunch, fun run hrun s => ?_⟩
  have hcopies := copies_chooseKernel (V := V) dim
  refine ⟨fun index hindex => ?_, fun index hindex => ?_, ?_⟩
  · exact hcopies.run_count hwidth (by omega) henough hrun hindex
  · exact hcopies.run_lt hwidth (by omega) hrun hindex
  · rw [deserializeValueArray_eq hdata (by rw [hfield]; omega), hfield]
    refine List.map_congr_left fun index hindex => ?_
    exact hcopies.run_output hwidth (by omega) henough hrun raw.data s (List.mem_range.mp hindex)

theorem exists_run
    (h : deviceDeserializeValueArray valueSize raw outputNull launchError = some threads) :
    ∃ run, Interleaves threads run := by
  obtain ⟨-, -, -, -, hthreads⟩ := deviceDeserialize_eq_some_iff.mp h
  rw [← hthreads]
  exact ⟨_, launch_inOrder _ _⟩

theorem deviceDeserialize_eq_deserialize_three :
    let values : Vector UInt32 3 := #v[7, 8, 9]
    let raw : RawSlice := ⟨.ofBytes (serializeValueArray values), 20, false⟩
    ∃ threads run, deviceDeserializeValueArray 4 raw false false = some threads ∧
      Interleaves threads run ∧
      (List.range 3).map (run.foldl (DecodeMemory.step raw.data)
        (⟨fun _ => 0, fun _ => 0⟩ : DecodeMemory UInt32)).output = [7, 8, 9] := by
  intro values raw
  obtain ⟨threads, hthreads, hruns⟩ := deviceDeserialize_eq_deserialize (by decide) (by decide)
    values raw (Memory.stores_ofBytes _) (by rw [length_serializeValueArray]; rfl) rfl
  obtain ⟨run, hrun⟩ := exists_run hthreads
  refine ⟨threads, run, hthreads, hrun, ?_⟩
  rw [(hruns run hrun _).2.2, deserialize_serialize (by decide)]
  rfl

end MlkvPlus.MemDiskTree
