import Mathlib.Data.List.GetD
import MlkvPlus.Dist.Routing
import MlkvPlus.Dist.Select.Runs

namespace MlkvPlus.Dist

open Exchange Ranges

section Kernel

variable {α : Type}

-- ReorderLauncher takes 1024 threads in each of 2 * sm_count_ blocks.
def reorderThreads (smCount : Nat) : Nat :=
  1024 * (2 * smCount)

-- Element `i` of the vectors goes to the same column of the row that `order` names.
def reorderWrite (dimension : Nat) (inputs : Nat → α) (order : List Nat) (i : Nat) : Nat × α :=
  (order.getD (i / dimension) 0 * dimension + i % dimension, inputs i)

def reorderKernel (smCount dimension : Nat) (inputs : Nat → α) (order : List Nat) :
    Nat → List (Nat × α) :=
  gridStride (reorderThreads smCount) (order.length * dimension)
    (reorderWrite dimension inputs order)

-- Vectors behind each other.
def flat (dimension : Nat) (zero : α) (rows : List (Nat → α)) (i : Nat) : α :=
  (rows.getD (i / dimension) fun _ => zero) (i % dimension)

theorem flat_eq {dimension column : Nat} (zero : α) {rows : List (Nat → α)} {index : Nat}
    {row : Nat → α} (hcolumn : column < dimension) (hrow : rows[index]? = some row) :
    flat dimension zero rows (index * dimension + column) = row column := by
  have hpos := Nat.zero_lt_of_lt hcolumn
  rw [flat, Nat.mul_comm, Nat.mul_add_div hpos, Nat.div_eq_of_lt hcolumn, Nat.add_zero,
    List.getD_eq_getElem?_getD, hrow, Option.getD_some, Nat.mul_add_mod, Nat.mod_eq_of_lt hcolumn]

theorem reorderKernel_eq {smCount dimension : Nat} {inputs : Nat → α} {order : List Nat}
    {run : List (Nat × α)} (hrun : Interleaves (reorderKernel smCount dimension inputs order) run)
    (hsm : 0 < smCount) (hnodup : order.Nodup) (outputs : Nat → α) {index position column : Nat}
    (hposition : order[index]? = some position) (hcolumn : column < dimension) :
    writeCells outputs run (position * dimension + column) =
      inputs (index * dimension + column) := by
  have hpos := Nat.zero_lt_of_lt hcolumn
  have hrows : ∀ i < order.length * dimension, i / dimension < order.length := fun i hi =>
    Nat.div_lt_of_lt_mul (by rwa [Nat.mul_comm])
  have hinj : ∀ i < order.length * dimension, ∀ j < order.length * dimension,
      (reorderWrite dimension inputs order i).1 = (reorderWrite dimension inputs order j).1 →
        i = j := by
    intro i hi j hj hsame
    obtain ⟨hrow, hmod⟩ := cell_inj (Nat.mod_lt i hpos) (Nat.mod_lt j hpos) hsame
    rw [List.getD_eq_getElem _ _ (hrows i hi), List.getD_eq_getElem _ _ (hrows j hj),
      hnodup.getElem_inj_iff] at hrow
    rw [← Nat.div_add_mod i dimension, ← Nat.div_add_mod j dimension, hrow, hmod]
  obtain ⟨hlt, hget⟩ := List.getElem?_eq_some_iff.mp hposition
  have hindex : index * dimension + column < order.length * dimension := by
    calc index * dimension + column < index * dimension + dimension :=
          Nat.add_lt_add_left hcolumn _
      _ = (index + 1) * dimension := (Nat.succ_mul ..).symm
      _ ≤ order.length * dimension := Nat.mul_le_mul_right _ hlt
  have hcell := writeCells_gridStride hrun (Nat.mul_pos (by decide) (Nat.mul_pos (by decide) hsm))
    hinj outputs hindex
  have hdiv : (index * dimension + column) / dimension = index := by
    rw [Nat.mul_comm, Nat.mul_add_div hpos, Nat.div_eq_of_lt hcolumn, Nat.add_zero]
  have hmod : (index * dimension + column) % dimension = column := by
    rw [Nat.mul_comm, Nat.mul_add_mod, Nat.mod_eq_of_lt hcolumn]
  rw [reorderWrite] at hcell
  dsimp only at hcell
  rwa [hdiv, hmod, List.getD_eq_getElem _ _ hlt, hget] at hcell

end Kernel

theorem Selection.exists_place {κ : Type} {n : Nat} {owner : κ → Fin n} {indices : List κ}
    (selection : Selection owner indices) {index : Nat} {key : κ}
    (hkey : indices[index]? = some key) :
    ∃ place : Nat, selection.order[place]? = some index ∧ selection.selected[place]? = some key := by
  obtain ⟨hlt, hget⟩ := List.getElem?_eq_some_iff.mp hkey
  have hmem : (⟨index, hlt⟩ : Fin indices.length) ∈ (List.ofFn selection.chunks).flatten :=
    selection.perm.mem_iff.mpr (List.mem_finRange _)
  obtain ⟨place, hplace⟩ := List.mem_iff_getElem?.mp hmem
  refine ⟨place, ?_, ?_⟩
  · rw [Selection.order, List.getElem?_map, hplace, Option.map_some]
  · rw [Selection.selected, List.getElem?_map, hplace, Option.map_some, List.get_eq_getElem, hget]

section Kernels

variable {κ α : Type} {n : Nat} {owner : κ → Fin n} {indices : Fin n → List κ}
  {launcher : Fin n → SelectLauncher}

-- all2all_dense_embedding up to the last step, with what the kernels return on every rank.
def exchangeEmbeddings
    (run : ∀ rank, SelectRun (launcher rank) n (fun key => (owner key : Nat)) (indices rank))
    (read : Fin n → List κ → Outcome (List (Nat → α))) : Option (Fin n → List (Nat → α)) := do
  let (exIndices, rsplits) ← alltoall (fun rank => (run rank).output) fun rank => (run rank).splits
  let embeddings ← collect fun rank => value? (read rank (keyMap (exIndices rank)))
  let (exEmbeddings, _) ← alltoall embeddings rsplits
  some exEmbeddings

-- Whatever the orders of the warps, lanes and threads on all ranks: the element of a vector
-- that a rank asked for is in its place. The local read need not return on an empty batch, where
-- every rank owns one of the requested keys.
theorem lookup_by_kernels
    (run : ∀ rank, SelectRun (launcher rank) n (fun key => (owner key : Nat)) (indices rank))
    (hkeys : ∀ rank, (indices rank).length < 2 ^ 31) (hsm : ∀ rank, 0 < (launcher rank).smCount)
    (hitems : ∀ rank, warpSize < (launcher rank).itemsPerGpuPerWarp) (hranks : n ≤ warpSize)
    (row : Fin n → κ → Nat → α) (read : Fin n → List κ → Outcome (List (Nat → α)))
    (hread : ∀ rank keys, (keys = [] → ∀ sender, ∀ key ∈ indices sender, owner key ≠ rank) →
      read rank keys = .returned (keys.map (row rank))) :
    ∃ exEmbeddings, exchangeEmbeddings run read = some exEmbeddings ∧
      ∀ (rank : Fin n) (dimension : Nat) (zero : α) (writes : List (Nat × α)),
        Interleaves (reorderKernel (launcher rank).smCount dimension
          (flat dimension zero (exEmbeddings rank)) (run rank).order) writes →
        ∀ (index : Nat) (key : κ), (indices rank)[index]? = some key → ∀ column < dimension,
          writeCells (fun _ => zero) writes (index * dimension + column) =
            row (owner key) key column := by
  choose selection houtput horder hsplits using fun rank =>
    (run rank).exists_selection (hkeys rank) (hsm rank) (hitems rank) hranks
  have hrows := alltoall_rows selection row
  rw [Option.map_eq_some_iff] at hrows
  obtain ⟨⟨rows, splits⟩, hsent, hrows⟩ := hrows
  dsimp only at hrows
  refine ⟨rows, ?_, ?_⟩
  · have hexchange := exchangeIndices_eq selection
    rw [exchangeIndices] at hexchange
    have hreturns (rank : Fin n) : read rank (batch selection rank) =
        .returned ((batch selection rank).map (row rank)) := by
      refine hread rank _ fun hnil sender key hkey howner => ?_
      have hmem := (mem_batch_iff selection rank key).mpr ⟨sender, hkey, howner⟩
      rw [hnil] at hmem
      cases hmem
    simp only [exchangeEmbeddings, houtput, hsplits, hexchange, Option.bind_eq_bind,
      Option.bind_some, keyMap, hreturns, value?, collect_some, hsent]
  · intro rank dimension zero writes hwrites index key hkey column hcolumn
    obtain ⟨place, hplace, hselected⟩ := (selection rank).exists_place hkey
    have hrow : (rows rank)[place]? = some (row (owner key) key) := by
      rw [hrows, List.getElem?_map, hselected, Option.map_some]
    have hnodup : (run rank).order.Nodup := by
      rw [horder]
      exact (selection rank).order_perm.nodup_iff.mpr List.nodup_range
    rw [reorderKernel_eq hwrites (hsm rank) hnodup _ (by rw [horder, hplace]) hcolumn,
      flat_eq zero hcolumn hrow]

theorem lookup_by_kernels_two_ranks :
    let indices : Fin (2 : UInt64).toNat → List Int64 := fun rank =>
      if rank.val = 0 then [7, 4, -2] else []
    let run := fun rank => SelectRun.sequential
      (SelectLauncher.initialized 108 167936 8 (2 : UInt64).toNat) (2 : UInt64).toNat
      (fun key => (lookupRank 2 (by decide) key : Nat)) (indices rank)
      ⟨fun _ => 0, fun _ => 0, fun _ => 0⟩ fun _ => (0, 0)
    let read : Fin (2 : UInt64).toNat → List Int64 → Outcome (List (Nat → Nat × Int64 × Nat)) :=
      fun rank keys => if keys = [] then .threw "DB not initialized or invalid batch size"
        else .returned (keys.map fun key column => (rank.val, key, column))
    ∃ exEmbeddings, exchangeEmbeddings run read = some exEmbeddings ∧
      ∀ (rank : Fin (2 : UInt64).toNat) (dimension : Nat) (zero : Nat × Int64 × Nat)
        (writes : List (Nat × Nat × Int64 × Nat)),
        Interleaves (reorderKernel 108 dimension (flat dimension zero (exEmbeddings rank))
          (run rank).order) writes →
        ∀ (index : Nat) (key : Int64), (indices rank)[index]? = some key →
          ∀ column < dimension, writeCells (fun _ => zero) writes (index * dimension + column) =
            ((lookupRank 2 (by decide) key : Nat), key, column) := by
  intro indices run read
  have howned : ∀ rank : Fin (2 : UInt64).toNat, ∃ sender, ∃ key ∈ indices sender,
      lookupRank 2 (by decide) key = rank := by decide
  refine lookup_by_kernels run (by decide) (fun _ => by decide) (fun _ => by decide) (by decide)
    (fun rank key column => (rank.val, key, column)) read fun rank keys hempty => if_neg fun hnil => ?_
  obtain ⟨sender, key, hkey, howner⟩ := howned rank
  exact hempty hnil sender key hkey howner

end Kernels

end MlkvPlus.Dist
