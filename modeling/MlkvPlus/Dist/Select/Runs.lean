import MlkvPlus.Dist.Select.Warps

namespace MlkvPlus.Dist

open Ranges

section Positions

theorem paddedInputSize_eq (hkeys : numKeys < 2 ^ 31) :
    paddedInputSize numKeys = warpSize * ((numKeys + warpSize - 1) / warpSize) := by
  rw [paddedInputSize, warpSize, Nat.mod_eq_of_lt (by omega), Nat.mul_comm]

theorem le_paddedInputSize (hkeys : numKeys < 2 ^ 31) : numKeys ≤ paddedInputSize numKeys := by
  rw [paddedInputSize_eq hkeys, warpSize]
  omega

theorem warpBases_eq (hkeys : numKeys < 2 ^ 31) (hsm : 0 < smCount) (warp : Nat) :
    warpBases smCount numKeys warp =
      (strided warp (keyWarpsPerBlock * smCount) ((numKeys + warpSize - 1) / warpSize)).map
        (warpSize * ·) := by
  have hwarps : 0 < keyWarpsPerBlock * smCount := Nat.mul_pos (by decide) hsm
  generalize hrounds : (numKeys + warpSize - 1) / warpSize = rounds
  rw [warpBases, paddedInputSize_eq hkeys, hrounds]
  generalize keyWarpsPerBlock * smCount = warps at *
  have hcount : (warpSize * rounds - warpSize * warp + warpSize * warps - 1) / (warpSize * warps) =
      (rounds - warp + warps - 1) / warps := by
    rw [← Nat.div_div_eq_div_mul]
    refine congrArg (· / warps) ?_
    rw [warpSize]
    omega
  rw [strided, strided, hcount]
  apply List.ext_getElem
  · simp only [List.length_range', List.length_map]
  · intro index _ _
    rw [List.getElem_map, List.getElem_range', List.getElem_range', Nat.mul_add, Nat.mul_assoc]

theorem positions_perm (hkeys : numKeys < 2 ^ 31) (hsm : 0 < smCount) (lanes : Nat → Nat → List Nat)
    (hlanes : ∀ warp base, (lanes warp base).Perm (List.range warpSize)) :
    ((List.range (keyWarpsPerBlock * smCount)).flatMap fun warp =>
      (warpBases smCount numKeys warp).flatMap fun base => (lanes warp base).map (base + ·)).Perm
        (List.range (paddedInputSize numKeys)) := by
  have hbases : ((List.range (keyWarpsPerBlock * smCount)).flatMap (warpBases smCount numKeys)).Perm
      ((List.range ((numKeys + warpSize - 1) / warpSize)).map (warpSize * ·)) := by
    rw [List.flatMap_congr fun warp _ => warpBases_eq hkeys hsm warp, ← List.map_flatMap]
    exact (strided_perm (Nat.mul_pos (by decide) hsm) _).map _
  have hsorted : ((List.range (keyWarpsPerBlock * smCount)).flatMap fun warp =>
      (warpBases smCount numKeys warp).flatMap fun base => (lanes warp base).map (base + ·)).Perm
        ((List.range (keyWarpsPerBlock * smCount)).flatMap fun warp =>
          (warpBases smCount numKeys warp).flatMap fun base =>
            (List.range warpSize).map (base + ·)) :=
    List.Perm.flatMap_left _ fun warp _ => List.Perm.flatMap_left _ fun base _ =>
      (hlanes warp base).map _
  refine hsorted.trans ?_
  rw [← List.flatMap_assoc]
  refine (hbases.flatMap_right _).trans (List.Perm.of_eq ?_)
  rw [List.flatMap_map, Lists.flatMap_range_add, paddedInputSize_eq hkeys]

end Positions

variable {κ : Type} {n : Nat} {owner : κ → Fin n} {indices : List κ}

-- The chunk of a rank in the order of the positions.
def inOrder (owner : κ → Fin n) (indices : List κ) (rank : Fin n) : List (Fin indices.length) :=
  (List.finRange indices.length).filter fun position => owner (indices.get position) = rank

theorem entries_range (hbound : indices.length ≤ bound) (rank : Fin n) :
    entries indices ((List.range bound).filter fun position =>
      indices[position]?.map (fun key => (owner key : Nat)) = some (rank : Nat)) =
      (inOrder owner indices rank).map fun position => (indices.get position, (position : Nat)) := by
  obtain ⟨rest, rfl⟩ := Nat.exists_eq_add_of_le hbound
  have hbehind : ((List.range rest).map (indices.length + ·)).filter (fun position =>
      decide (indices[position]?.map (fun key => (owner key : Nat)) = some (rank : Nat))) = [] := by
    refine List.filter_eq_nil_iff.mpr fun position hposition => ?_
    obtain ⟨behind, _, rfl⟩ := List.mem_map.mp hposition
    simp
  rw [List.range_add, List.filter_append, hbehind, List.append_nil,
    ← List.map_coe_finRange_eq_range, List.filter_map, entries, List.filterMap_map, inOrder,
    ← List.filterMap_eq_map]
  have hfilter : (List.finRange indices.length).filter ((fun position =>
      decide (indices[position]?.map (fun key => (owner key : Nat)) = some (rank : Nat))) ∘ Fin.val) =
      (List.finRange indices.length).filter fun position =>
        owner (indices.get position) = rank := by
    refine List.filter_congr fun position _ => ?_
    simp [Fin.ext_iff]
  rw [hfilter]
  refine List.filterMap_congr fun position _ => ?_
  simp

namespace SelectRun

variable {launcher : SelectLauncher}

def sequential (launcher : SelectLauncher) (chunks : Nat) (chunkOf : κ → Nat) (inputKeys : List κ)
    (shared : WarpMemory κ) (buffers : Nat → κ × Nat) :
    SelectRun launcher chunks chunkOf inputKeys :=
  let flushes := fun warp => if warp < keyWarpsPerBlock * launcher.smCount then
    warpFlushes chunkOf launcher.itemsPerGpuPerWarp inputKeys chunks launcher.smCount warp
      (fun _ => List.range warpSize) shared else []
  { lanes := fun _ _ => List.range warpSize
    lanes_perm := fun _ _ => List.Perm.refl _
    shared := fun _ => shared
    buffers := buffers
    threads := fun warp => program warp (flushes warp)
    programs := fun warp => program_isProgram warp (flushes warp)
    run := (List.range (keyWarpsPerBlock * launcher.smCount)).flatMap fun warp =>
      program warp (flushes warp)
    interleaves := by
      refine .inOrder _ List.nodup_range fun warp hwarp => ?_
      rw [List.mem_range] at hwarp
      simp only [flushes, if_neg hwarp]
      rfl }

theorem enlisted_sequential (launcher : SelectLauncher) (chunks : Nat) (chunkOf : κ → Nat)
    (inputKeys : List κ) (shared : WarpMemory κ) (buffers : Nat → κ × Nat) (chunk : Nat) :
    enlisted chunk (sequential launcher chunks chunkOf inputKeys shared buffers).run =
      (List.range (keyWarpsPerBlock * launcher.smCount)).flatMap fun warp =>
        brought chunk (warpFlushes chunkOf launcher.itemsPerGpuPerWarp inputKeys chunks
          launcher.smCount warp (fun _ => List.range warpSize) shared) := by
  rw [enlisted, sequential]
  dsimp only
  rw [List.flatMap_assoc]
  refine List.flatMap_congr fun warp hwarp => ?_
  rw [if_pos (List.mem_range.mp hwarp)]
  exact (program_isProgram warp _).enlisted_eq chunk

theorem count_finish (run : SelectRun launcher chunks chunkOf indices) (chunk : Nat) :
    run.finish.count chunk = (enlisted chunk run.run).length := by
  rw [finish, count_foldl_step, Nat.zero_add]

theorem copied_eq (run : SelectRun launcher chunks chunkOf indices)
    (hsize : ∀ chunk, (enlisted chunk run.run).length ≤ indices.length) :
    run.copied = (List.range chunks).flatMap fun chunk => enlisted chunk run.run := by
  refine List.flatMap_congr fun chunk _ => ?_
  rw [count_finish]
  apply List.ext_getElem
  · rw [List.length_map, List.length_range]
  · intro place _ hplace
    rw [List.getElem_map, List.getElem_range]
    exact (foldl_step run.interleaves run.programs hsize _ (fun _ => rfl) chunk).2 place _
      (List.getElem?_eq_getElem hplace)

section Chunks

variable (run : SelectRun launcher n (fun key => (owner key : Nat)) indices)
  (hkeys : indices.length < 2 ^ 31) (hsm : 0 < launcher.smCount)
  (hitems : warpSize < launcher.itemsPerGpuPerWarp) (hranks : n ≤ warpSize)

include hkeys hsm hitems hranks

theorem enlisted_perm_entries (chunk : Nat) :
    (enlisted chunk run.run).Perm
      (entries indices ((List.range (paddedInputSize indices.length)).filter fun position =>
        indices[position]?.map (fun key => (owner key : Nat)) = some chunk)) := by
  have hperm := enlisted_perm run.interleaves run.programs
    (List.nodup_range (n := keyWarpsPerBlock * launcher.smCount))
    (fun warp hwarp => if_neg fun hlt => hwarp (List.mem_range.mpr hlt)) chunk
  have hbrought : ((List.range (keyWarpsPerBlock * launcher.smCount)).flatMap fun warp =>
      brought chunk (if warp < keyWarpsPerBlock * launcher.smCount then
        warpFlushes (fun key => (owner key : Nat)) launcher.itemsPerGpuPerWarp indices n
          launcher.smCount warp (run.lanes warp) (run.shared warp)
        else [])) =
      entries indices
        (((List.range (keyWarpsPerBlock * launcher.smCount)).flatMap fun warp =>
          (warpBases launcher.smCount indices.length warp).flatMap fun base =>
            (run.lanes warp base).map (base + ·)).filter fun position =>
              indices[position]?.map (fun key => (owner key : Nat)) = some chunk) := by
    rw [entries, List.filter_flatMap, List.filterMap_flatMap]
    refine List.flatMap_congr fun warp hwarp => ?_
    rw [if_pos (List.mem_range.mp hwarp), brought_warpFlushes (fun key => (owner key).isLt)
      (run.lanes_perm warp) hitems hranks, List.filter_flatMap]
    rfl
  rw [hbrought] at hperm
  exact hperm.trans (((positions_perm hkeys hsm run.lanes run.lanes_perm).filter _).filterMap _)

theorem enlisted_perm_inOrder (rank : Fin n) :
    (enlisted rank run.run).Perm
      ((inOrder owner indices rank).map fun position =>
        (indices.get position, (position : Nat))) := by
  rw [← entries_range (le_paddedInputSize hkeys) rank]
  exact run.enlisted_perm_entries hkeys hsm hitems hranks rank

theorem length_enlisted_le (chunk : Nat) :
    (enlisted chunk run.run).length ≤ indices.length := by
  by_cases hchunk : chunk < n
  · have hperm := run.enlisted_perm_inOrder hkeys hsm hitems hranks ⟨chunk, hchunk⟩
    rw [hperm.length_eq, List.length_map]
    exact (List.length_filter_le ..).trans (List.length_finRange).le
  · have hperm := run.enlisted_perm_entries hkeys hsm hitems hranks chunk
    rw [List.filter_eq_nil_iff.mpr, entries_nil] at hperm
    · rw [hperm.length_eq]
      exact Nat.zero_le _
    · intro position _
      rw [decide_eq_true_eq, Option.map_eq_some_iff]
      rintro ⟨key, _, rfl⟩
      exact hchunk (owner key).isLt

end Chunks

-- Every run of the kernel selects, whatever the order of warps and lanes.
theorem exists_selection (run : SelectRun launcher n (fun key => (owner key : Nat)) indices)
    (hkeys : indices.length < 2 ^ 31) (hsm : 0 < launcher.smCount)
    (hitems : warpSize < launcher.itemsPerGpuPerWarp) (hranks : n ≤ warpSize) :
    ∃ selection : Selection owner indices, run.output = selection.selected ∧
      run.order = selection.order ∧ run.splits = selection.splits := by
  choose chunks hperm henlisted using fun rank =>
    Lists.exists_map_of_perm (run.enlisted_perm_inOrder hkeys hsm hitems hranks rank)
  have hcopied : run.copied = (List.ofFn chunks).flatten.map fun position =>
      (indices.get position, (position : Nat)) := by
    rw [run.copied_eq (run.length_enlisted_le hkeys hsm hitems hranks),
      ← List.map_coe_finRange_eq_range, List.flatMap_map,
      List.flatMap_congr fun rank _ => henlisted rank, ← List.map_flatMap, List.flatMap_def,
      List.ofFn_eq_map]
  let selection : Selection owner indices :=
    { chunks := chunks
      perm := by
        refine List.Perm.trans ?_ (Lists.flatten_filter_perm
          (fun position => owner (indices.get position)) (List.finRange indices.length))
        rw [List.ofFn_eq_map, List.ofFn_eq_map, ← List.flatMap_def, ← List.flatMap_def]
        exact List.Perm.flatMap_left _ fun rank _ => hperm rank
      owned := by
        intro rank position hposition
        simpa using (List.mem_filter.mp ((hperm rank).mem_iff.mp hposition)).2 }
  refine ⟨selection, ?_, ?_, ?_⟩
  · rw [output, hcopied, List.map_map]
    rfl
  · rw [order, hcopied, List.map_map]
    rfl
  · rw [splits, ← List.map_coe_finRange_eq_range, List.map_map, Selection.splits, List.ofFn_eq_map]
    refine List.map_congr_left fun rank _ => ?_
    rw [Function.comp_apply, count_finish, henlisted, List.length_map]

end SelectRun

end MlkvPlus.Dist
