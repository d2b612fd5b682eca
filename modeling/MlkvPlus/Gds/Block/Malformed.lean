import MlkvPlus.Gds.Block.Entry

namespace MlkvPlus.Gds

theorem restartOffset_lt (hsize : blockSize < 2 ^ 32)
    (h : initializeBlockMetadata assertions data blockSize = .returned metadata) :
    metadata.restartOffset < 2 ^ 32 := by
  rw [initializeBlockMetadata] at h
  split at h
  case isTrue =>
    cases h
    exact hsize
  case isFalse =>
    dsimp only at h
    split at h
    case isTrue => cases h
    case isFalse =>
      cases h
      dsimp only
      split
      · exact Nat.mod_lt _ (Nat.two_pow_pos 32)
      · exact hsize

namespace GDSDataBlockIter

variable {data : Memory} {target : Bytes} {iter next : GDSDataBlockIter}

-- The value length goes through a signed `int`, but the offset behind it is taken modulo 2^32.
theorem nextOffset_loadEntry (bound : Nat) (data : Memory) (iter : GDSDataBlockIter)
    (entry : DecodedEntry) (hfits : entry.keyPtr + (entry.nonShared + entry.valueLength) % 2 ^ 32 <
      2 ^ 32) :
    (iter.loadEntry bound data entry).nextOffset =
      entry.keyPtr + (entry.nonShared + entry.valueLength) % 2 ^ 32 := by
  have hsigned : toInt32 entry.valueLength % 2 ^ 32 = (entry.valueLength : Int) % 2 ^ 32 :=
    Int.bmod_emod
  rw [nextOffset, loadEntry]
  dsimp only
  omega

-- A pass that goes on has moved forward, and not past the restarts.
theorem scanEntry_more (hrestarts : iter.restarts < 2 ^ 32)
    (h : scanEntry data target iter = .more next) :
    iter.current < next.current ∧ next.current ≤ iter.restarts ∧
      next.restarts = iter.restarts := by
  rw [scanEntry] at h
  split at h
  case isFalse => cases h
  case isTrue hlt =>
    split at h
    case h_1 => cases h
    case h_2 entry hentry =>
      dsimp only at h
      split at h
      case isTrue => cases h
      case isFalse =>
        obtain ⟨hlow, hhigh⟩ := Device.decodeEntry_bounds hrestarts hentry
        have hnext := nextOffset_loadEntry kSeekBound data iter entry (by omega)
        rw [← Pass.more.inj h, current_moveTo, hnext]
        refine ⟨?_, hhigh, ?_⟩
        · omega
        · rw [restarts_moveTo, restarts_loadEntry]

theorem scan_isSome (data : Memory) (target : Bytes) (fuel : Nat)
    (hrestarts : iter.restarts < 2 ^ 32) (hfuel : iter.restarts - iter.current < fuel) :
    (scan data target fuel iter).isSome = true := by
  induction fuel generalizing iter with
  | zero => exact absurd hfuel (Nat.not_lt_zero _)
  | succ fuel ih =>
    rw [scan]
    split
    case h_1 => rfl
    case h_2 next hmore =>
      obtain ⟨hcurrent, hend, hsame⟩ := scanEntry_more hrestarts hmore
      exact ih (by omega) (by omega)

-- The range of restarts has at most 2^32 places, and the scan has at most 2^32 offsets.
theorem seekKernel_isSome (data : Memory) (target : Bytes) (hrestarts : iter.restarts < 2 ^ 32)
    (hfuel : 2 ^ 32 ≤ fuel) : (seekKernel data target fuel iter).isSome = true := by
  obtain ⟨right, hright⟩ : ∃ right : Int,
      right = ((iter.numRestarts + 2 ^ 32 - 1) % 2 ^ 32 : Nat) := ⟨_, rfl⟩
  have hsearch : (Search.search (probeRestart data iter.restarts target) fuel (-1)
      right).isSome = true := Search.search_isSome fuel (-1) right (by omega)
  rw [seekKernel, ← hright]
  dsimp only
  split
  case h_1 hnone =>
    rw [hnone] at hsearch
    cases hsearch
  case h_2 => rfl
  case h_3 left hleft =>
    refine scan_isSome data target fuel hrestarts ?_
    simp only [moveToRestart]
    omega

-- On any memory Seek ends, and every pass of its scan that goes on moves forward.
theorem seek_terminates (assertions : Bool) (data : Memory) (blockSize : Nat)
    (hsize : blockSize < 2 ^ 32) (metadata : DeviceBlockMetadata)
    (hmetadata : initializeBlockMetadata assertions data blockSize = .returned metadata)
    (buffer : GDSDataBlockIterDevicePinnedBuffer) (target : Bytes) :
    (∀ fuel, 2 ^ 32 ≤ fuel →
      (seekKernel data target fuel ⟨initializeIteratorState metadata, buffer⟩).isSome = true) ∧
    ∀ iter next : GDSDataBlockIter, iter.restarts = metadata.restartOffset →
      scanEntry data target iter = .more next →
        iter.current < next.current ∧ next.current ≤ next.restarts ∧
          next.restarts = metadata.restartOffset := by
  have hrestarts := restartOffset_lt hsize hmetadata
  refine ⟨fun fuel hfuel => seekKernel_isSome data target hrestarts hfuel, ?_⟩
  intro iter next hiter hmore
  obtain ⟨hcurrent, hend, hsame⟩ := scanEntry_more (by omega) hmore
  omega

theorem seek_terminates_four_bytes :
    (seekKernel (fun _ => 7) [1] (2 ^ 32)
      ⟨initializeIteratorState ⟨0x7070707, 0xe3e3e3e4, 0, 4⟩, ⟨false, 0, fun _ => 0, 0, 0⟩⟩).isSome =
        true :=
  (seek_terminates true (fun _ => 7) 4 (by decide) ⟨0x7070707, 0xe3e3e3e4, 0, 4⟩ (by decide)
    ⟨false, 0, fun _ => 0, 0, 0⟩ [1]).1 (2 ^ 32) le_rfl

-- Next ends the iteration, or the next offset moves forward, and not past the restarts.
theorem nextKernel_forward (data : Memory) (hrestarts : iter.restarts < 2 ^ 32) :
    (iter.nextKernel data).validFlag = false ∨
      iter.nextOffset < (iter.nextKernel data).nextOffset ∧
        (iter.nextKernel data).nextOffset ≤ iter.restarts ∧
        (iter.nextKernel data).restarts = iter.restarts := by
  rw [nextKernel]
  split
  case isTrue hinvalid => exact Or.inl hinvalid
  case isFalse =>
    dsimp only
    rw [restarts_moveTo, current_moveTo]
    split
    case isTrue => exact Or.inl rfl
    case isFalse =>
      split
      case h_1 => exact Or.inl rfl
      case h_2 entry hentry =>
        obtain ⟨hlow, hhigh⟩ := Device.decodeEntry_bounds hrestarts hentry
        rw [nextOffset_accept, nextOffset_loadEntry _ _ _ _ (by omega)]
        exact Or.inr ⟨by omega, hhigh, rfl⟩

theorem nextUntilInvalid_ends (data : Memory) (fuel : Nat) (hrestarts : iter.restarts < 2 ^ 32)
    (hfuel : iter.restarts - iter.nextOffset < fuel) :
    ∃ result, nextUntilInvalid data fuel iter = some result ∧ result.validFlag = false := by
  induction fuel generalizing iter with
  | zero => exact absurd hfuel (Nat.not_lt_zero _)
  | succ fuel ih =>
    rw [nextUntilInvalid]
    split
    case isTrue hinvalid => exact ⟨_, rfl, hinvalid⟩
    case isFalse hvalid =>
      obtain ⟨hforward, hend, hsame⟩ := (nextKernel_forward data hrestarts).resolve_left hvalid
      exact ih (by omega) (by omega)

theorem seekToLast_invalid (assertions : Bool) (data : Memory) (blockSize : Nat)
    (hsize : blockSize < 2 ^ 32) (metadata : DeviceBlockMetadata)
    (hmetadata : initializeBlockMetadata assertions data blockSize = .returned metadata)
    (buffer : GDSDataBlockIterDevicePinnedBuffer) (fuel : Nat) (hfuel : 2 ^ 32 ≤ fuel) :
    ∃ result, seekToLastImpl data fuel ⟨initializeIteratorState metadata, buffer⟩ = some result ∧
      result.validFlag = false := by
  have hrestarts := restartOffset_lt hsize hmetadata
  rw [seekToLastImpl]
  split
  case isTrue hinvalid => exact ⟨_, rfl, hinvalid⟩
  case isFalse =>
    have hsame : (seekToFirstKernel data ⟨initializeIteratorState metadata, buffer⟩).restarts =
        metadata.restartOffset := restarts_seekToFirstKernel ..
    exact nextUntilInvalid_ends data fuel (by omega) (by omega)

def oneEntry : Memory :=
  Memory.ofBytes [0, 9, 1, 7, 1, 1, 0, 0, 0, 0, 0, 0, 5, 0, 0, 0, 0, 1, 0, 0, 0]

theorem initialize_oneEntry :
    initializeBlockMetadata true oneEntry 21 = .returned ⟨1, 13, 0, 21⟩ := by
  decide

theorem seekToLast_invalid_oneEntry :
    ∃ result, seekToLastImpl oneEntry (2 ^ 32)
        ⟨initializeIteratorState ⟨1, 13, 0, 21⟩, ⟨false, 0, fun _ => 0, 0, 0⟩⟩ = some result ∧
      result.validFlag = false :=
  seekToLast_invalid true oneEntry 21 (by decide) ⟨1, 13, 0, 21⟩ initialize_oneEntry
    ⟨false, 0, fun _ => 0, 0, 0⟩ (2 ^ 32) le_rfl

theorem seekToLast_misses_oneEntry :
    let iter : GDSDataBlockIter :=
      ⟨initializeIteratorState ⟨1, 13, 0, 21⟩, ⟨false, 0, fun _ => 0, 0, 0⟩⟩
    (iter.seekToFirstKernel oneEntry).validFlag = true ∧
      (iter.seekToFirstKernel oneEntry).key = [7, 1, 1, 0, 0, 0, 0, 0, 0] ∧
      (iter.seekToFirstKernel oneEntry).dValue oneEntry = [5] ∧
      (seekToLastImpl oneEntry 2 iter).map (fun last => last.validFlag) = some false := by
  decide

-- The indices of the restart points that Seek reads: those that its search probes, and the one
-- that its scan starts at.
def seekIndices (data : Memory) (target : Bytes) (fuel : Nat) (iter : GDSDataBlockIter) :
    List Nat :=
  let right : Int := ((iter.numRestarts + 2 ^ 32 - 1) % 2 ^ 32 : Nat)
  let probe := probeRestart data iter.restarts target
  let probed := (Search.visited probe fuel (-1) right).map fun place => (place % 2 ^ 32).toNat
  match Search.search probe fuel (-1) right with
  | some (some left) => probed ++ [if left = -1 then 0 else (left % 2 ^ 32).toNat]
  | _ => probed

-- The addresses of the restart points that SeekToFirst, at index 0, and Seek read.
def restartReads (data : Memory) (target : Bytes) (fuel : Nat) (iter : GDSDataBlockIter) :
    List Nat :=
  (0 :: seekIndices data target fuel iter).map fun index => iter.restarts + index * kRestartSize

theorem seekIndices_lt (data : Memory) (target : Bytes) (fuel : Nat) (hpos : 0 < iter.numRestarts)
    (hlt : iter.numRestarts < 2 ^ 32) :
    ∀ index ∈ seekIndices data target fuel iter, index < iter.numRestarts := by
  obtain ⟨right, hright⟩ : ∃ right : Int,
      right = ((iter.numRestarts + 2 ^ 32 - 1) % 2 ^ 32 : Nat) := ⟨_, rfl⟩
  have hlast : right = (iter.numRestarts : Int) - 1 := by omega
  have hprobed : ∀ index ∈ (Search.visited (probeRestart data iter.restarts target) fuel (-1)
      right).map fun place => (place % 2 ^ 32).toNat, index < iter.numRestarts := by
    intro index hindex
    obtain ⟨place, hplace, rfl⟩ := List.mem_map.mp hindex
    have hbounds := Search.mem_visited hplace
    omega
  rw [seekIndices, ← hright]
  split
  case h_2 => exact hprobed
  case h_1 left hleft =>
    have hbounds := Search.search_bounds (by omega) hleft
    refine List.forall_mem_append.mpr ⟨hprobed, List.forall_mem_singleton.mpr ?_⟩
    split <;> omega

end GDSDataBlockIter

theorem initializeBlockMetadata_eq (hsize : kRestartSize ≤ blockSize)
    (hfooter : decodeFooter (Device.decodeFixed32 data (blockSize - kRestartSize)) blockSize =
      (numRestarts, 0)) (assertions : Bool) :
    initializeBlockMetadata assertions data blockSize = .returned {
      numRestarts
      restartOffset :=
        if 0 < numRestarts then
          sub64 blockSize ((1 + numRestarts) % 2 ^ 32 * kRestartSize) % 2 ^ 32
        else blockSize
      indexType := 0
      blockSize } := by
  rw [initializeBlockMetadata, if_neg (Nat.not_lt.mpr hsize)]
  dsimp only
  rw [hfooter]
  exact if_neg fun habort => Nat.zero_ne_one habort.2

-- The restart points are read inside the block exactly when it has a restart array, and room
-- for it and its length. No block is rejected before.
theorem restartReads_inside_iff (assertions : Bool) (data : Memory) (blockSize numRestarts : Nat)
    (hsize : kRestartSize ≤ blockSize) (hlt : blockSize < 2 ^ 32)
    (hfooter : decodeFooter (Device.decodeFixed32 data (blockSize - kRestartSize)) blockSize =
      (numRestarts, 0)) (buffer : GDSDataBlockIterDevicePinnedBuffer) (target : Bytes)
    (fuel : Nat) :
    ∃ metadata, initializeBlockMetadata assertions data blockSize = .returned metadata ∧
      ((∀ address ∈ GDSDataBlockIter.restartReads data target fuel
            ⟨initializeIteratorState metadata, buffer⟩, address + kRestartSize ≤ blockSize) ∧
          metadata.restartOffset + kRestartSize * (metadata.numRestarts + 1) = blockSize ↔
        0 < numRestarts ∧ kRestartSize * (numRestarts + 1) ≤ blockSize) := by
  refine ⟨_, initializeBlockMetadata_eq hsize hfooter assertions, ?_⟩
  have hword : kRestartSize = 4 := rfl
  simp only [hword] at hsize ⊢
  constructor
  · rintro ⟨-, hoffset⟩
    split at hoffset <;> omega
  · rintro ⟨hpos, hfits⟩
    have hoffset : sub64 blockSize ((1 + numRestarts) % 2 ^ 32 * 4) % 2 ^ 32 =
        blockSize - 4 * (numRestarts + 1) := by
      rw [Nat.mod_eq_of_lt (show 1 + numRestarts < 2 ^ 32 by omega),
        sub64_of_le (by omega) (by omega)]
      omega
    rw [if_pos hpos, hoffset]
    refine ⟨?_, by omega⟩
    intro address haddress
    obtain ⟨index, hindex, rfl⟩ := List.mem_map.mp haddress
    have hrestarts : numRestarts < 2 ^ 32 := by omega
    have hindexLt : index < numRestarts := by
      rcases List.mem_cons.mp hindex with rfl | hindex
      · exact hpos
      · exact GDSDataBlockIter.seekIndices_lt data target fuel hpos hrestarts index hindex
    simp only [initializeIteratorState, hword]
    omega

theorem restartReads_inside_iff_one_restart :
    ∃ metadata, initializeBlockMetadata true (Memory.ofBytes [0, 0, 0, 0, 1, 0, 0, 0]) 8 =
        .returned metadata ∧
      (∀ address ∈ GDSDataBlockIter.restartReads (Memory.ofBytes [0, 0, 0, 0, 1, 0, 0, 0]) [1] 9
        ⟨initializeIteratorState metadata, ⟨false, 0, fun _ => 0, 0, 0⟩⟩, address + 4 ≤ 8) := by
  obtain ⟨metadata, hmetadata, hiff⟩ := restartReads_inside_iff true
    (Memory.ofBytes [0, 0, 0, 0, 1, 0, 0, 0]) 8 1 (by decide) (by decide) (by decide)
    ⟨false, 0, fun _ => 0, 0, 0⟩ [1] 9
  exact ⟨metadata, hmetadata, (hiff.mpr (by decide)).1⟩

-- A block of four zero bytes: SeekToFirst reads the word behind it.
theorem restartReads_outside :
    initializeBlockMetadata true (fun _ => 0) 4 = .returned ⟨0, 4, 0, 4⟩ ∧
      4 ∈ GDSDataBlockIter.restartReads (fun _ => 0) [] 1
        ⟨initializeIteratorState ⟨0, 4, 0, 4⟩, ⟨false, 0, fun _ => 0, 0, 0⟩⟩ := by
  decide

end MlkvPlus.Gds
