import MlkvPlus.Data.Interleaving
import MlkvPlus.Gds.Block.Position
import MlkvPlus.WriteBatch.RoundTrip

namespace MlkvPlus.WriteBatch

open Gds

section Kernel

variable {K V : Type} [Scalar K] [Scalar V] {dim : Nat}

def entryOf (pair : K × Vector V dim) : Entry :=
  ⟨Scalar.toBytes pair.1, vectorBytes pair.2⟩

def pairOf (entry : Entry) : K × Vector V dim :=
  (Scalar.ofBytes entry.key, Vector.ofFn fun index : Fin dim =>
    Scalar.ofBytes ((entry.value.drop (index * Scalar.size V)).take (Scalar.size V)))

theorem pairOf_entryOf (pair : K × Vector V dim) : pairOf (entryOf pair) = pair := by
  obtain ⟨key, values⟩ := pair
  refine Prod.ext (Scalar.ofBytes_toBytes key) ?_
  ext index hindex
  simp only [pairOf, entryOf, Vector.getElem_ofFn]
  rw [vectorBytes_slice values ⟨index, hindex⟩, Scalar.ofBytes_toBytes]
  rfl

-- The scratch arrays hold `size_t` numbers.
def recordSizes (pairs : List (K × Vector V dim)) : List Nat :=
  pairs.map fun _ => recordSize (Scalar.size K) (Scalar.size V * dim % 2 ^ 64) % 2 ^ 64

def recordOffsets (pairs : List (K × Vector V dim)) : List Nat :=
  (exclusiveScan kWriteBatchHeader (recordSizes pairs)).map (· % 2 ^ 64)

def totalBatchSize (pairs : List (K × Vector V dim)) : Nat :=
  (kWriteBatchHeader + (recordSizes pairs).sum) % 2 ^ 64

-- The header is cleared, and then its two fields are written.
def headerWrites (sequenceNumber count : Nat) : List (Nat × UInt8) :=
  writesAt 0 (List.replicate kWriteBatchHeader 0) ++ writesAt 0 (Bytes.fixed 8 sequenceNumber) ++
    writesAt 8 (Bytes.fixed 4 count)

def recordWrites (pairs : List (K × Vector V dim)) (index : Nat) : List (Nat × UInt8) :=
  match pairs[index]? with
  | none => []
  | some (key, values) => writesAt ((recordOffsets pairs).getD index 0)
      (recordBytes (Scalar.toBytes key) (vectorBytes values))

-- One thread, which takes its index for an `int`.
def generateTypedWriteBatchKernel (pairs : List (K × Vector V dim)) (sequenceNumber index : Nat) :
    List (Nat × UInt8) :=
  (if toInt32 index = 0 then headerWrites sequenceNumber pairs.length else []) ++
    recordWrites pairs (toSize (toInt32 index))

def batchThreads (pairs : List (K × Vector V dim)) (sequenceNumber : Nat) :
    Nat → List (Nat × UInt8) :=
  launch pairs.length fun _ => generateTypedWriteBatchKernel pairs sequenceNumber

end Kernel

theorem mem_fst_headerWrites :
    address ∈ (headerWrites sequenceNumber count).map Prod.fst ↔ address < kWriteBatchHeader := by
  simp only [headerWrites, List.map_append, fst_writesAt, List.mem_append, List.mem_range'_1,
    List.length_replicate, Bytes.length_fixed, kWriteBatchHeader]
  omega

theorem length_recordBytes (key value : Bytes) (hkey : key.length < 2 ^ 32)
    (hvalue : value.length < 2 ^ 32) :
    (recordBytes key value).length = recordSize key.length value.length := by
  simp only [recordBytes, recordSize, List.length_append, List.length_cons, length_putVarint32,
    Nat.mod_eq_of_lt hkey, Nat.mod_eq_of_lt hvalue]
  omega

theorem getElem?_exclusiveScan (start size count index : Nat) (hindex : index < count) :
    (exclusiveScan start (List.replicate count size))[index]? = some (start + index * size) := by
  induction count generalizing start index with
  | zero => cases hindex
  | succ count ih =>
    rw [List.replicate_succ, exclusiveScan]
    cases index with
    | zero => rw [List.getElem?_cons_zero, Nat.zero_mul, Nat.add_zero]
    | succ index =>
      rw [List.getElem?_cons_succ, ih _ _ (Nat.lt_of_succ_lt_succ hindex), Nat.succ_mul,
        Nat.add_assoc, Nat.add_comm size]

theorem storeRecords_eq (pairs : List α) (size : α → Nat) (record : α → Bytes) (start : Nat)
    (memory : Bytes) (hsize : ∀ pair ∈ pairs, (record pair).length = size pair)
    (hlength : memory.length = start + (pairs.map size).sum) :
    storeRecords memory ((exclusiveScan start (pairs.map size)).zip (pairs.map record)) =
      memory.take start ++ pairs.flatMap record := by
  induction pairs generalizing start memory with
  | nil =>
    rw [List.map_nil, List.sum_nil, Nat.add_zero] at hlength
    simp only [List.map_nil, exclusiveScan, List.zip_nil_right, storeRecords, List.flatMap_nil,
      List.append_nil]
    rw [← hlength, List.take_length]
  | cons pair rest ih =>
    obtain ⟨hpair, hrest⟩ := List.forall_mem_cons.mp hsize
    rw [List.map_cons, List.sum_cons] at hlength
    have hstore := Bytes.length_store memory start (record pair) (by omega)
    have htake : (memory.store start (record pair)).take (start + size pair) =
        memory.take start ++ record pair := by
      rw [Bytes.store]
      refine List.take_left' ?_
      rw [List.length_append, List.length_take]
      omega
    simp only [List.map_cons, exclusiveScan, List.zip_cons_cons, storeRecords]
    rw [ih _ _ hrest (by rw [hstore]; omega), htake, List.append_assoc, List.flatMap_cons]

theorem separate (size : Nat) (hne : first ≠ second) :
    (first + 1) * size ≤ second * size ∨ (second + 1) * size ≤ first * size := by
  rcases Nat.lt_or_gt_of_ne hne with hlt | hgt
  · exact .inl (Nat.mul_le_mul_right size hlt)
  · exact .inr (Nat.mul_le_mul_right size hgt)

theorem covered (size count start address : Nat) (hpos : 0 < size) :
    (address < start ∨ ∃ index, index < count ∧ start + index * size ≤ address ∧
      address < start + (index + 1) * size) ↔ address < start + count * size := by
  constructor
  · rintro (hlt | ⟨index, hindex, _, hlt⟩)
    · omega
    · have hle := Nat.mul_le_mul_right size (Nat.succ_le_of_lt hindex)
      rw [Nat.succ_eq_add_one] at hle
      omega
  · intro hlt
    by_cases hstart : address < start
    · exact .inl hstart
    · refine .inr ⟨(address - start) / size, ?_, ?_, ?_⟩
      · exact (Nat.div_lt_iff_lt_mul hpos).mpr (by omega)
      · have hle := Nat.div_mul_le_self (address - start) size
        omega
      · have hlt := Nat.lt_mul_div_succ (address - start) hpos
        rw [Nat.mul_comm] at hlt
        omega

theorem stores_flatMap {memory : Memory} (size : Nat) (record : α → Bytes) (pairs : List α)
    (start : Nat) (hsize : ∀ pair ∈ pairs, (record pair).length = size)
    (hstores : ∀ (index : Nat) (hindex : index < pairs.length),
      memory.Stores (start + index * size) (record pairs[index])) :
    memory.Stores start (pairs.flatMap record) := by
  induction pairs generalizing start with
  | nil => rfl
  | cons pair rest ih =>
    obtain ⟨hpair, hrest⟩ := List.forall_mem_cons.mp hsize
    have hfirst := hstores 0 (Nat.succ_pos _)
    rw [Nat.zero_mul, Nat.add_zero] at hfirst
    rw [List.flatMap_cons, Memory.stores_append, hpair]
    refine ⟨hfirst, ih _ hrest fun index hindex => ?_⟩
    have hnext := hstores (index + 1) (Nat.succ_lt_succ hindex)
    rwa [Nat.succ_mul, Nat.add_comm (index * size), ← Nat.add_assoc] at hnext

section Batch

variable {K V : Type} [Scalar K] [Scalar V] {dim : Nat}

-- All pairs of a batch take the same room.
def pairSize (_ : List (K × Vector V dim)) : Nat :=
  recordSize (Scalar.size K) (Scalar.size V * dim)

-- The sizes that a batch may have.
structure Fits (pairs : List (K × Vector V dim)) : Prop where
  key : Scalar.size K < 2 ^ 32
  value : Scalar.size V * dim < 2 ^ 32
  count : pairs.length < 2 ^ 31
  total : kWriteBatchHeader + pairs.length * pairSize pairs < 2 ^ 64

theorem encode_entries (sequenceNumber : Nat) (pairs : List (K × Vector V dim)) :
    encode sequenceNumber (pairs.map entryOf) =
      Bytes.fixed 8 sequenceNumber ++ Bytes.fixed 4 pairs.length ++
        pairs.flatMap fun pair => recordBytes (Scalar.toBytes pair.1) (vectorBytes pair.2) := by
  rw [encode, List.length_map, List.flatMap_map]
  rfl

namespace Fits

variable {pairs : List (K × Vector V dim)} (hfits : Fits pairs)
include hfits

theorem length_entryBytes {pair : K × Vector V dim} :
    (recordBytes (Scalar.toBytes pair.1) (vectorBytes pair.2)).length =
      pairSize pairs := by
  have hlength := length_recordBytes (Scalar.toBytes pair.1) (vectorBytes pair.2)
    (by rw [Scalar.length_toBytes]; exact hfits.key)
    (by rw [length_vectorBytes]; exact hfits.value)
  rwa [Scalar.length_toBytes, length_vectorBytes] at hlength

theorem recordSizes_eq (hne : pairs ≠ []) :
    recordSizes pairs =
      List.replicate pairs.length (pairSize pairs) := by
  have hle := Nat.le_mul_of_pos_left (pairSize pairs) (List.length_pos_iff.mpr hne)
  have htotal := hfits.total
  have hvalue := hfits.value
  have hsize : pairSize pairs < 2 ^ 64 := by omega
  rw [pairSize] at hsize ⊢
  rw [recordSizes, List.map_const', Nat.mod_eq_of_lt (a := Scalar.size V * dim) (by omega),
    Nat.mod_eq_of_lt hsize]

theorem totalBatchSize_eq (hne : pairs ≠ []) :
    totalBatchSize pairs =
      kWriteBatchHeader + pairs.length * pairSize pairs := by
  rw [totalBatchSize, hfits.recordSizes_eq hne, List.sum_replicate_nat,
    Nat.mod_eq_of_lt hfits.total]

theorem recordWrites_eq (hindex : index < pairs.length) :
    recordWrites pairs index =
      writesAt (kWriteBatchHeader + index * pairSize pairs)
        (recordBytes (Scalar.toBytes pairs[index].1) (vectorBytes pairs[index].2)) := by
  have hne := List.ne_nil_of_length_pos (Nat.zero_lt_of_lt hindex)
  have hscan := getElem?_exclusiveScan kWriteBatchHeader
    (pairSize pairs) pairs.length index hindex
  have hmul := Nat.mul_le_mul_right (pairSize pairs) hindex.le
  have htotal := hfits.total
  have hoffset : (recordOffsets pairs).getD index 0 =
      kWriteBatchHeader + index * pairSize pairs := by
    rw [recordOffsets, hfits.recordSizes_eq hne, List.getD_eq_getElem?_getD, List.getElem?_map,
      hscan, Option.map_some, Option.getD_some, Nat.mod_eq_of_lt (by omega)]
  rw [recordWrites, List.getElem?_eq_getElem hindex]
  dsimp only
  rw [hoffset]

theorem length_encode (hne : pairs ≠ []) (sequenceNumber : Nat) :
    (encode sequenceNumber (pairs.map entryOf)).length = totalBatchSize pairs := by
  have hrecords : (pairs.flatMap fun pair =>
      recordBytes (Scalar.toBytes pair.1) (vectorBytes pair.2)).length =
      pairs.length * pairSize pairs := by
    simp only [List.length_flatMap, hfits.length_entryBytes, List.map_const',
      List.sum_replicate_nat]
  rw [encode_entries, List.length_append, List.length_append, Bytes.length_fixed,
    Bytes.length_fixed, hrecords, hfits.totalBatchSize_eq hne, kWriteBatchHeader]

theorem fst_recordWrites {index : Nat} (hindex : index < pairs.length) :
    (recordWrites pairs index).map Prod.fst =
      List.range' (kWriteBatchHeader + index * pairSize pairs)
        (pairSize pairs) := by
  rw [hfits.recordWrites_eq hindex, fst_writesAt, hfits.length_entryBytes]

theorem mem_fst_recordWrites :
    address ∈ (recordWrites pairs index).map Prod.fst ↔ index < pairs.length ∧
      kWriteBatchHeader + index * pairSize pairs ≤ address ∧
      address < kWriteBatchHeader + (index + 1) * pairSize pairs := by
  by_cases hindex : index < pairs.length
  · rw [hfits.fst_recordWrites hindex, List.mem_range'_1, Nat.succ_mul, ← Nat.add_assoc]
    exact (and_iff_right hindex).symm
  · rw [recordWrites, List.getElem?_eq_none (Nat.le_of_not_lt hindex)]
    simp [hindex]

-- The 32-bit index of a thread is its number, and the threads behind the pairs do nothing.
theorem batchThreads_eq (hne : pairs ≠ []) (sequenceNumber thread : Nat) :
    batchThreads pairs sequenceNumber thread =
      (if thread = 0 then headerWrites sequenceNumber pairs.length else []) ++
        recordWrites pairs thread := by
  have hpos := List.length_pos_iff.mpr hne
  have hcount := hfits.count
  by_cases hthread : thread < pairs.length
  · have hzero : ((thread : Int) = 0) = (thread = 0) := by simp
    rw [batchThreads, launch_of_lt (by omega) hthread, generateTypedWriteBatchKernel,
      toInt32_of_lt (by omega), toSize_natCast (by omega)]
    simp only [hzero]
  · have hidle : recordWrites pairs thread = [] := by
      rw [recordWrites, List.getElem?_eq_none (by omega)]
    have hlaunch : batchThreads pairs sequenceNumber thread = [] := by
      refine launch_of_idle (by omega) fun hlt => ?_
      rw [generateTypedWriteBatchKernel, toInt32_of_lt (by omega), toSize_natCast (by omega), hidle,
        if_neg (by omega), List.append_nil]
    rw [hlaunch, hidle, if_neg (by omega), List.append_nil]

theorem bounds_of_mem_batchThreads (hne : pairs ≠ [])
    (h : write ∈ batchThreads pairs sequenceNumber thread) :
    (thread = 0 ∧ write.1 < kWriteBatchHeader) ∨
      (kWriteBatchHeader + thread * pairSize pairs ≤ write.1 ∧
        write.1 < kWriteBatchHeader + (thread + 1) * pairSize pairs) := by
  rw [hfits.batchThreads_eq hne, List.mem_append] at h
  rcases h with hheader | hrecord
  · left
    split at hheader
    case isFalse => cases hheader
    case isTrue hzero => exact ⟨hzero, mem_fst_headerWrites.mp (List.mem_map_of_mem hheader)⟩
  · right
    exact (hfits.mem_fst_recordWrites.mp (List.mem_map_of_mem hrecord)).2

-- Whatever the order of the threads, each record is as its thread wrote it.
theorem stores_record (hne : pairs ≠ []) {sequenceNumber : Nat}
    (hrun : Interleaves (batchThreads pairs sequenceNumber) run) (memory : Memory)
    (hindex : index < pairs.length) :
    Memory.Stores (writeCells memory run)
      (kWriteBatchHeader + index * pairSize pairs)
      (recordBytes (Scalar.toBytes pairs[index].1) (vectorBytes pairs[index].2)) := by
  rw [Memory.Stores, hfits.length_entryBytes, Memory.read_of_interleaves hrun memory index]
  · rw [hfits.batchThreads_eq hne, writeCells_append, hfits.recordWrites_eq hindex,
      Memory.writeCells_writesAt]
    have hread := Memory.read_store_self
      (writeCells memory (if index = 0 then headerWrites sequenceNumber pairs.length else []))
      (kWriteBatchHeader + index * pairSize pairs)
      (recordBytes (Scalar.toBytes pairs[index].1) (vectorBytes pairs[index].2))
    rwa [hfits.length_entryBytes] at hread
  · intro other hother write hmem
    rcases hfits.bounds_of_mem_batchThreads hne hmem with hheader | hrecord
    · left
      omega
    · rcases separate (pairSize pairs) hother with hbefore | hbehind
      · left
        omega
      · right
        rw [Nat.succ_mul] at hbehind
        omega

theorem stores_header (hne : pairs ≠ [])
    (hrun : Interleaves (batchThreads pairs sequenceNumber) run) (memory : Memory) :
    Memory.Stores (writeCells memory run) 0
      (Bytes.fixed 8 sequenceNumber ++ Bytes.fixed 4 pairs.length) := by
  have hpos := List.length_pos_iff.mpr hne
  have hlength : (Bytes.fixed 8 sequenceNumber ++ Bytes.fixed 4 pairs.length).length =
      kWriteBatchHeader := by
    rw [List.length_append, Bytes.length_fixed, Bytes.length_fixed]
    rfl
  rw [Memory.Stores, hlength, Memory.read_of_interleaves hrun memory 0]
  · rw [hfits.batchThreads_eq hne, if_pos rfl, writeCells_append, hfits.recordWrites_eq hpos,
      Memory.writeCells_writesAt, Memory.read_store_of_disjoint _ _ _ _ _ (by omega)]
    -- the fields come after the clearing, and the two of them fill the header
    rw [headerWrites, writeCells_append, writeCells_append, Memory.writeCells_writesAt,
      Memory.writeCells_writesAt, Memory.writeCells_writesAt]
    generalize memory.store 0 (List.replicate kWriteBatchHeader 0) = cleared
    have hfields := Memory.read_store_append (cleared.store 0 (Bytes.fixed 8 sequenceNumber)) 8
      (Bytes.fixed 4 pairs.length)
    have hsequence := Memory.read_store_self cleared 0 (Bytes.fixed 8 sequenceNumber)
    rw [Bytes.length_fixed] at hfields hsequence
    rw [← hsequence]
    exact hfields
  · intro other hother write hmem
    rcases hfits.bounds_of_mem_batchThreads hne hmem with hheader | hrecord
    · exact absurd hheader.1 hother
    · omega

-- All orders of the threads give one batch.
theorem read_batch (hne : pairs ≠ []) {sequenceNumber : Nat}
    (hrun : Interleaves (batchThreads pairs sequenceNumber) run) (memory : Memory) :
    Memory.read (writeCells memory run) 0 (totalBatchSize pairs) =
      encode sequenceNumber (pairs.map entryOf) := by
  have hrecords : Memory.Stores (writeCells memory run) kWriteBatchHeader
      (pairs.flatMap fun pair => recordBytes (Scalar.toBytes pair.1) (vectorBytes pair.2)) := by
    refine stores_flatMap (pairSize pairs) _ pairs kWriteBatchHeader
      (fun pair _ => hfits.length_entryBytes) fun index hindex => ?_
    exact hfits.stores_record hne hrun memory hindex
  have hbatch := Memory.stores_append.mpr ⟨hfits.stores_header hne hrun memory, by
    rw [List.length_append, Bytes.length_fixed, Bytes.length_fixed]
    exact hrecords⟩
  rw [← encode_entries, Memory.Stores, hfits.length_encode hne] at hbatch
  exact hbatch

-- The same batch as when the records are stored one after the other.
theorem generateTypedWriteBatch_eq (hne : pairs ≠ []) (fresh : (size : Nat) → DeviceBuffer size)
    (sequenceNumber : Nat) :
    generateTypedWriteBatch fresh pairs sequenceNumber =
      .ok (encode sequenceNumber (pairs.map entryOf)) := by
  rw [generateTypedWriteBatch, if_neg (List.length_pos_iff.mpr hne).ne']
  dsimp only
  generalize htotal : kWriteBatchHeader +
    (pairs.map fun _ => recordSize (Scalar.size K) (Scalar.size V * dim)).sum = total
  have hheader := length_header (fresh total) sequenceNumber pairs.length (by omega)
  have hrecords := storeRecords_eq pairs
    (fun _ => recordSize (Scalar.size K) (Scalar.size V * dim))
    (fun pair => recordBytes (Scalar.toBytes pair.1) (vectorBytes pair.2)) kWriteBatchHeader _
    (fun pair _ => hfits.length_entryBytes) (hheader.trans htotal.symm)
  rw [hrecords, take_header, encode_entries]

end Fits

-- Whatever the order in which the threads run, they fill the buffer with one batch, each byte
-- by one of them, and RocksDB reads the pairs back from it.
theorem batchThreads_encode_pairs (pairs : List (K × Vector V dim)) (sequenceNumber : UInt64)
    (hne : pairs ≠ []) (hkey : Scalar.size K = 8) (hvalue : Scalar.size V * dim < 2 ^ 32)
    (hcount : pairs.length < 2 ^ 31)
    (htotal : kWriteBatchHeader +
      pairs.length * recordSize (Scalar.size K) (Scalar.size V * dim) < 2 ^ 64) :
    let header := (headerWrites sequenceNumber.toNat pairs.length).map Prod.fst
    let region := fun index => (recordWrites pairs index).map Prod.fst
    (∀ index, header.Disjoint (region index)) ∧
      (∀ first second, first ≠ second → (region first).Disjoint (region second)) ∧
      (∀ address, address ∈ header ∨ (∃ index, address ∈ region index) ↔
        address < totalBatchSize pairs) ∧
      ∃ payload : Bytes,
        payload.length = totalBatchSize pairs ∧
        (∀ memory run, Interleaves (batchThreads pairs sequenceNumber.toNat) run →
          Memory.read (writeCells memory run) 0 (totalBatchSize pairs) = payload) ∧
        (∀ fresh, generateTypedWriteBatch fresh pairs sequenceNumber.toNat = .ok payload) ∧
        Bytes.decodeFixed ((payload.drop 8).take 4) = pairs.length ∧
        ∃ entries, decode payload = some (sequenceNumber.toNat, entries) ∧
          entries.map pairOf = pairs := by
  intro header region
  have hfits : Fits pairs := ⟨by omega, hvalue, hcount, htotal⟩
  have hheader : ∀ address, address ∈ header ↔ address < kWriteBatchHeader := by
    intro address
    exact mem_fst_headerWrites
  refine ⟨?_, ?_, ?_, encode sequenceNumber.toNat (pairs.map entryOf),
    hfits.length_encode hne _, ?_, ?_, ?_, pairs.map entryOf, ?_, ?_⟩
  · intro index address hmem hrecord
    have hbounds := (hfits.mem_fst_recordWrites.mp hrecord).2
    have hlt := (hheader address).mp hmem
    omega
  · intro first second hdistinct address hfirst hsecond
    obtain ⟨_, hlow, hhigh⟩ := hfits.mem_fst_recordWrites.mp hfirst
    obtain ⟨_, hlow', hhigh'⟩ := hfits.mem_fst_recordWrites.mp hsecond
    rcases separate (pairSize pairs) hdistinct with hle | hle
    · omega
    · omega
  · intro address
    have hpos : 0 < pairSize pairs := by
      rw [pairSize, recordSize]
      omega
    have hcovered := covered (pairSize pairs) pairs.length kWriteBatchHeader address hpos
    simp only [hheader, region, hfits.mem_fst_recordWrites, hfits.totalBatchSize_eq hne, hcovered]
  · intro memory run hrun
    exact hfits.read_batch hne hrun memory
  · intro fresh
    exact hfits.generateTypedWriteBatch_eq hne fresh sequenceNumber.toNat
  · rw [encode, List.append_assoc, List.drop_left' (Bytes.length_fixed ..),
      List.take_left' (Bytes.length_fixed ..), List.length_map,
      Bytes.decodeFixed_fixed_of_lt (by omega)]
  · refine decode_encode _ _ sequenceNumber.toNat_lt (by rw [List.length_map]; omega) ?_
    intro entry hentry
    obtain ⟨pair, _, rfl⟩ := List.mem_map.mp hentry
    rw [entryOf, Scalar.length_toBytes, length_vectorBytes]
    exact ⟨hfits.key, hvalue⟩
  · simp only [List.map_map, Function.comp_def, pairOf_entryOf, List.map_id']

theorem batchThreads_encode_pairs_two :
    let pairs : List (UInt64 × Vector UInt32 1) := [(7, #v[1]), (9, #v[2])]
    totalBatchSize pairs = 42 ∧
      ∃ run payload, Interleaves (batchThreads pairs 5) run ∧
        (∀ memory, Memory.read (writeCells memory run) 0 42 = payload) ∧
        ∃ entries, decode payload = some (5, entries) ∧ entries.map pairOf = pairs := by
  intro pairs
  have hsize : totalBatchSize pairs = 42 := by decide
  obtain ⟨_, _, _, payload, _, hruns, _, _, entries, hdecode, hentries⟩ :=
    batchThreads_encode_pairs pairs 5 (by decide) rfl (by decide) (by decide) (by decide)
  have hrun : Interleaves (batchThreads pairs 5) _ := launch_inOrder _ _
  rw [hsize] at hruns
  exact ⟨hsize, _, payload, hrun, fun memory => hruns memory _ hrun, entries, hdecode, hentries⟩

end Batch

end MlkvPlus.WriteBatch
