import MlkvPlus.Dist

namespace MlkvPlus.Dist

open Exchange

variable {κ ρ : Type} {n : Nat} {owner : κ → Fin n}

theorem collect_some {α : Type} (values : Fin n → α) :
    collect (fun rank => some (values rank)) = some values := by
  simp [collect]

theorem collect_eq_none {α : Type} {results : Fin n → Option α} {rank : Fin n}
    (hrank : results rank = none) : collect results = none := by
  rw [collect, dif_neg]
  intro hall
  have hsome := hall rank
  rw [hrank] at hsome
  cases hsome

theorem alltoall_joined {α : Type} (blocks : Fin n → Fin n → List α) :
    alltoall (joined blocks) (sizes blocks) =
      some (joined fun party other => blocks other party,
        sizes fun party other => blocks other party) := by
  rw [alltoall, if_pos (sum_sizes blocks), exchange_joined, exchange_sizes]

namespace Selection

variable {indices : List κ}

theorem length_order (selection : Selection owner indices) :
    selection.order.length = indices.length := by
  rw [order, List.length_map, selection.perm.length_eq, List.length_finRange]

theorem order_perm (selection : Selection owner indices) :
    selection.order.Perm (List.range indices.length) := by
  have hmap := selection.perm.map Fin.val
  rwa [List.map_coe_finRange_eq_range] at hmap

theorem mem_chunk_iff (selection : Selection owner indices) (rank : Fin n) (key : κ) :
    key ∈ (selection.chunks rank).map indices.get ↔ key ∈ indices ∧ owner key = rank := by
  constructor
  · intro hmem
    obtain ⟨position, hposition, rfl⟩ := List.mem_map.mp hmem
    exact ⟨List.get_mem _ _, selection.owned rank position hposition⟩
  · rintro ⟨hmem, hrank⟩
    obtain ⟨position, rfl⟩ := List.mem_iff_get.mp hmem
    have hflat : position ∈ (List.ofFn selection.chunks).flatten :=
      selection.perm.mem_iff.mpr (List.mem_finRange position)
    obtain ⟨chunk, hchunk, hposition⟩ := List.mem_flatten.mp hflat
    obtain ⟨other, rfl⟩ := (List.mem_ofFn' selection.chunks chunk).mp hchunk
    rw [selection.owned other position hposition] at hrank
    subst hrank
    exact List.mem_map_of_mem hposition

theorem reorder_selected (selection : Selection owner indices) (zero : ρ) (row : κ → ρ) :
    reorder zero (selection.selected.map row) selection.order = some (indices.map row) := by
  have hvalue : ∀ position : Fin indices.length,
      ((indices.map row).getD position zero) = row (indices.get position) := by
    intro position
    simp
  have hselected : selection.selected.map row =
      selection.order.map fun position => (indices.map row).getD position zero := by
    simp only [selected, order, List.map_map]
    exact List.map_congr_left fun position _ => (hvalue position).symm
  have hlength : (selection.selected.map row).length = indices.length := by
    rw [hselected, List.length_map, length_order]
  rw [reorder, if_pos (by rw [hlength, length_order]), hlength, hselected,
    ← List.map_prod_left_eq_zip]
  have hscatter := scatter_of_perm (List.replicate indices.length zero) selection.order
    (fun position => (indices.map row).getD position zero)
    (by rw [List.length_replicate]; exact selection.order_perm)
  rw [List.length_replicate] at hscatter
  refine congrArg some (hscatter.trans ?_)
  apply List.ext_getElem
  · simp
  · intro index hleft hright
    have hindex : index < indices.length := by simpa using hright
    simpa using hvalue ⟨index, hindex⟩

end Selection

section Ranks

variable {indices : Fin n → List κ} (selection : ∀ rank, Selection owner (indices rank))

def requests (sender receiver : Fin n) : List κ :=
  ((selection sender).chunks receiver).map (indices sender).get

def batch (rank : Fin n) : List κ :=
  joined (fun receiver sender => requests selection sender receiver) rank

theorem selected_eq (rank : Fin n) :
    (selection rank).selected = joined (requests selection) rank := by
  rw [Selection.selected, List.map_flatten, List.map_ofFn]
  rfl

theorem splits_eq (rank : Fin n) :
    (selection rank).splits = sizes (requests selection) rank := by
  simp only [Selection.splits, sizes, requests, List.length_map]

theorem exchangeIndices_eq :
    exchangeIndices selection = some (batch selection,
      sizes fun receiver sender => requests selection sender receiver) := by
  simp only [exchangeIndices, selected_eq, splits_eq]
  exact alltoall_joined (requests selection)

theorem mem_batch_iff (rank : Fin n) (key : κ) :
    key ∈ batch selection rank ↔ ∃ sender, key ∈ indices sender ∧ owner key = rank := by
  simp only [batch, joined, List.mem_flatten, List.mem_ofFn']
  constructor
  · rintro ⟨_, ⟨sender, rfl⟩, hmem⟩
    exact ⟨sender, ((selection sender).mem_chunk_iff rank key).mp hmem⟩
  · rintro ⟨sender, hmem⟩
    exact ⟨_, ⟨sender, rfl⟩, ((selection sender).mem_chunk_iff rank key).mpr hmem⟩

theorem alltoall_rows (row : Fin n → κ → ρ) :
    (alltoall (fun rank => (batch selection rank).map (row rank))
        (sizes fun receiver sender => requests selection sender receiver)).map Prod.fst =
      some fun rank => (selection rank).selected.map fun key => row (owner key) key := by
  have hrows : (fun rank => (batch selection rank).map (row rank)) =
      joined fun receiver sender => (requests selection sender receiver).map (row receiver) := by
    funext rank
    rw [batch, map_joined]
    rfl
  have hsizes : (sizes fun receiver sender => requests selection sender receiver) =
      sizes fun receiver sender => (requests selection sender receiver).map (row receiver) := by
    funext rank
    simp only [sizes, List.length_map]
  rw [hrows, hsizes, alltoall_joined, Option.map_some]
  refine congrArg some (funext fun rank => ?_)
  rw [selected_eq, map_joined]
  -- a request is answered by the owner of its indices
  have hblock : ∀ receiver, (requests selection rank receiver).map (row receiver) =
      (requests selection rank receiver).map fun key => row (owner key) key := by
    intro receiver
    refine List.map_congr_left fun key hmem => ?_
    rw [(((selection rank).mem_chunk_iff receiver key).mp hmem).2]
  simp only [joined, hblock]

theorem all2allDenseEmbedding_of_reads (zero : ρ) {row : Fin n → κ → ρ}
    {read : Fin n → List κ → Outcome (List ρ)}
    (hread : ∀ rank, read rank (batch selection rank) =
      .returned ((batch selection rank).map (row rank))) :
    all2allDenseEmbedding zero selection read =
      some fun rank => (indices rank).map fun key => row (owner key) key := by
  have hrows := alltoall_rows selection row
  rw [Option.map_eq_some_iff] at hrows
  obtain ⟨⟨rows, splits⟩, hsent, rfl⟩ := hrows
  simp only [all2allDenseEmbedding, exchangeIndices_eq, Option.bind_eq_bind, Option.bind_some,
    keyMap, hread, value?, collect_some, hsent, Selection.reorder_selected]

theorem all2allDenseEmbedding_eq_none (zero : ρ) {read : Fin n → List κ → Outcome (List ρ)}
    (rank : Fin n) (hrank : value? (read rank (batch selection rank)) = none) :
    all2allDenseEmbedding zero selection read = none := by
  have hcollect : collect (fun rank => value? (read rank (keyMap (batch selection rank)))) = none :=
    collect_eq_none hrank
  simp only [all2allDenseEmbedding, exchangeIndices_eq, Option.bind_eq_bind, Option.bind_some,
    hcollect, Option.bind_none]

end Ranks

-- Every rank gets the rows of its indices in the order in which it asked, each from the rank
-- that the selection sent the index to.
theorem lookup_in_request_order (indices : Fin n → List κ)
    (selection : ∀ rank, Selection owner (indices rank)) (zero : ρ) (row : Fin n → κ → ρ) :
    ∃ outputs : Fin n → List ρ,
      all2allDenseEmbedding zero selection (fun rank keys => .returned (keys.map (row rank))) =
        some outputs ∧
      ∀ rank, (outputs rank).length = (indices rank).length ∧
        ∀ (index : Nat) (key : κ), (indices rank)[index]? = some key →
          (outputs rank)[index]? = some (row (owner key) key) := by
  refine ⟨_, all2allDenseEmbedding_of_reads selection zero fun _ => rfl, fun rank => ⟨List.length_map _, ?_⟩⟩
  intro index key hkey
  rw [List.getElem?_map, hkey, Option.map_some]

end MlkvPlus.Dist
