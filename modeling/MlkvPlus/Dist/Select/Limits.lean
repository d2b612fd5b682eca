import MlkvPlus.Dist.Routing
import MlkvPlus.Dist.Select.Runs

namespace MlkvPlus.Dist

open Ranges

variable {κ : Type} {n : Nat} {owner : κ → Fin n} {indices : List κ}

theorem warpSize_lt_items_iff (smCount : Nat) (hranks : 0 < n)
    (hshared : 4096 + 32 * n ≤ sharedMemory) :
    warpSize < (SelectLauncher.initialized smCount sharedMemory keyBytes n).itemsPerGpuPerWarp ↔
      4096 + (384 * (keyBytes + 4) + 32) * n ≤ sharedMemory := by
  have hpos : 0 < n * keyWarpsPerBlock * (keyBytes + 4) :=
    Nat.mul_pos (Nat.mul_pos hranks (by decide)) (by omega)
  have hitems : ∀ quotient, warpSize < quotient / 16 * 16 ↔ 48 ≤ quotient := by
    intro quotient
    rw [warpSize]
    omega
  have hproduct : 48 * (n * keyWarpsPerBlock * (keyBytes + 4)) = 384 * (keyBytes + 4) * n := by
    rw [keyWarpsPerBlock]
    ring
  simp only [SelectLauncher.initialized]
  rw [hitems, Nat.le_div_iff_mul_le hpos, hproduct, keyWarpsPerBlock, Nat.add_mul]
  omega

theorem items_cases (h : ¬warpSize <
      (SelectLauncher.initialized smCount sharedMemory keyBytes n).itemsPerGpuPerWarp) :
    (SelectLauncher.initialized smCount sharedMemory keyBytes n).itemsPerGpuPerWarp = warpSize ∨
      (SelectLauncher.initialized smCount sharedMemory keyBytes n).itemsPerGpuPerWarp + 16 ≤
        warpSize := by
  simp only [SelectLauncher.initialized, warpSize] at *
  omega

theorem layout_le (hshared : 4096 + 32 * n ≤ sharedMemory) :
    keyWarpsPerBlock *
        (n * (SelectLauncher.initialized smCount sharedMemory keyBytes n).itemsPerGpuPerWarp) *
        (keyBytes + 4) + 4 * (n * keyWarpsPerBlock) ≤
      (SelectLauncher.initialized smCount sharedMemory keyBytes n).maxSharedMemoryPerSm := by
  simp only [SelectLauncher.initialized]
  generalize hquotient : (sharedMemory - 4 * 1024 - 4 * keyWarpsPerBlock * n) /
    (n * keyWarpsPerBlock * (keyBytes + 4)) = quotient
  have hfit : quotient * (n * keyWarpsPerBlock * (keyBytes + 4)) ≤
      sharedMemory - 4 * 1024 - 4 * keyWarpsPerBlock * n := hquotient ▸ Nat.div_mul_le_self ..
  calc keyWarpsPerBlock * (n * (quotient / 16 * 16)) * (keyBytes + 4) + 4 * (n * keyWarpsPerBlock)
      = quotient / 16 * 16 * (n * keyWarpsPerBlock * (keyBytes + 4)) +
          4 * (n * keyWarpsPerBlock) := by ring
    _ ≤ quotient * (n * keyWarpsPerBlock * (keyBytes + 4)) + 4 * (n * keyWarpsPerBlock) :=
        Nat.add_le_add_right (Nat.mul_le_mul_right _ (Nat.div_mul_le_self ..)) _
    _ ≤ sharedMemory - 4 * 1024 := by
        rw [keyWarpsPerBlock] at *
        omega

-- The parts of all warps of a block and their counters fit into the shared memory of a block, and
-- no key is stored outside the part of its warp.
theorem stores_inside {smCount sharedMemory keyBytes warp : Nat} {lanes : Nat → List Nat}
    (hlanes : ∀ base, (lanes base).Perm (List.range warpSize)) (hranks : n ≤ 32)
    (hshared : 4096 + (384 * (keyBytes + 4) + 32) * n ≤ sharedMemory)
    (memory : WarpMemory κ) :
    let launcher := SelectLauncher.initialized smCount sharedMemory keyBytes n
    let items := launcher.itemsPerGpuPerWarp
    keyWarpsPerBlock * (n * items) * (keyBytes + 4) + 4 * (n * keyWarpsPerBlock) ≤
        launcher.maxSharedMemoryPerSm ∧
      ∀ (before after : List Nat) (base : Nat) (placed rest : List Nat) (lane : Nat) (key : κ),
        warpBases smCount indices.length warp = before ++ base :: after →
        lanes base = placed ++ lane :: rest → indices[base + lane]? = some key →
        let memory := (passes (fun key => (owner key : Nat)) items indices lanes before
          (clearCounts n warp memory)).2
        let holding := placed.foldl (placeKey (fun key => (owner key : Nat)) items indices base)
          ⟨memory, fun _ => {}⟩
        owner key * items + holding.memory.cntSmem (owner key) < n * items := by
  have hlaunch : 4096 + 32 * n ≤ sharedMemory := by
    rw [Nat.add_mul] at hshared
    omega
  dsimp only
  refine ⟨layout_le hlaunch, ?_⟩
  intro before after base placed rest lane key hbases hplaced hkey
  have hitems := (warpSize_lt_items_iff smCount (Nat.zero_lt_of_lt (owner key).isLt) hlaunch).mpr
    hshared
  have hchunks : ∀ key : κ, (owner key : Nat) < n := fun key => (owner key).isLt
  obtain ⟨held, hheld, hroom, _⟩ := passes_spec
    (clearCounts_holds _ indices warp hranks memory) hchunks hlanes
    (fun _ => by rw [List.length_nil]; omega) hitems before
  have horder := hlanes base
  rw [hplaced] at horder
  exact store_lt hheld hchunks horder hroom key

theorem stores_inside_eight_ranks :
    let launcher := SelectLauncher.initialized 108 167936 8 (8 : UInt64).toNat
    let items := launcher.itemsPerGpuPerWarp
    let indices : List Int64 := [3, -1, 11]
    let memory : WarpMemory Int64 := ⟨fun _ => 0, fun _ => 0, fun _ => 5⟩
    let owner := lookupRank 8 (by decide)
    items = 208 ∧
      keyWarpsPerBlock * ((8 : UInt64).toNat * items) * (8 + 4) +
          4 * ((8 : UInt64).toNat * keyWarpsPerBlock) ≤ launcher.maxSharedMemoryPerSm ∧
      ∀ (before after : List Nat) (base : Nat) (placed rest : List Nat) (lane : Nat) (key : Int64),
        warpBases 108 indices.length 0 = before ++ base :: after →
        List.range warpSize = placed ++ lane :: rest → indices[base + lane]? = some key →
        let memory := (passes (fun key => (owner key : Nat)) items indices
          (fun _ => List.range warpSize) before (clearCounts (8 : UInt64).toNat 0 memory)).2
        let holding := placed.foldl (placeKey (fun key => (owner key : Nat)) items indices base)
          ⟨memory, fun _ => {}⟩
        owner key * items + holding.memory.cntSmem (owner key) < (8 : UInt64).toNat * items :=
  ⟨by decide, stores_inside (fun _ => List.Perm.refl _) (by decide) (by decide) _⟩

namespace SelectRun

variable {launcher : SelectLauncher}

-- A run selects when it returns one of the selections.
def Selects (run : SelectRun launcher n (fun key => (owner key : Nat)) indices) : Prop :=
  ∃ selection : Selection owner indices, run.output = selection.selected ∧
    run.order = selection.order ∧ run.splits = selection.splits

theorem Selects.length_enlisted_le
    {run : SelectRun launcher n (fun key => (owner key : Nat)) indices} (h : run.Selects)
    (hchunk : chunk < n) : (enlisted chunk run.run).length ≤ indices.length := by
  obtain ⟨selection, -, -, hsplits⟩ := h
  have hsplit := congrArg (·[chunk]?) hsplits
  simp only [splits, Selection.splits, List.getElem?_map, List.getElem?_range hchunk,
    List.getElem?_ofFn, hchunk, dif_pos, Option.map_some, Option.some.injEq] at hsplit
  rw [← run.count_finish, hsplit]
  have hlength := selection.perm.length_eq
  rw [List.length_finRange] at hlength
  exact (List.sublist_flatten_of_mem (List.mem_ofFn.mpr ⟨⟨chunk, hchunk⟩, rfl⟩)).length_le.trans
    hlength.le

theorem Selects.disjoint {run : SelectRun launcher n (fun key => (owner key : Nat)) indices}
    (h : run.Selects) (hsize : ∀ chunk, (enlisted chunk run.run).length ≤ indices.length)
    (hlt : first < second) (hsecond : second < n) (hentry : entry ∈ enlisted first run.run) :
    entry ∉ enlisted second run.run := by
  obtain ⟨selection, -, horder, -⟩ := h
  have hnodup : run.order.Nodup := by
    rw [horder]
    exact selection.order_perm.nodup_iff.mpr List.nodup_range
  rw [order, run.copied_eq hsize, List.map_flatMap, List.nodup_flatMap] at hnodup
  have hdisjoint := List.pairwise_iff_getElem.mp hnodup.2 first second
    (by rw [List.length_range]; omega) (by rwa [List.length_range]) hlt
  rw [List.getElem_range, List.getElem_range] at hdisjoint
  intro hmem
  exact hdisjoint (List.mem_map_of_mem hentry) (List.mem_map_of_mem hmem)

end SelectRun

section ManyRanks

theorem warpBases_zero (hsm : 0 < smCount) (warp : Nat) : warpBases smCount 0 warp = [] := by
  rw [warpBases_eq (by decide) hsm, strided]
  have hrounds : (0 + warpSize - 1) / warpSize = 0 := by decide
  have hpos : 0 < keyWarpsPerBlock * smCount := Nat.mul_pos (by decide) hsm
  rw [hrounds, Nat.zero_sub, Nat.zero_add, Nat.div_eq_of_lt (Nat.sub_lt hpos Nat.one_pos)]
  rfl

-- With more ranks than lanes the last counters of a block are not cleared.
theorem not_selects_of_ranks {launcher : SelectLauncher} (hsm : 0 < launcher.smCount)
    (hranks : warpSize < n) (key : κ) :
    ¬(SelectRun.sequential launcher n (fun key => (owner key : Nat)) []
      ⟨fun _ => key, fun _ => 0, fun _ => 1⟩ fun _ => (key, 0)).Selects := by
  intro hselects
  have hchunk : n - 1 < n := Nat.sub_lt (by omega) Nat.one_pos
  have hnone := Nat.le_zero.mp (hselects.length_enlisted_le hchunk)
  rw [SelectRun.enlisted_sequential, List.length_eq_zero_iff, List.flatMap_eq_nil_iff] at hnone
  -- the last warp of the first block
  have hlast := hnone 7 (List.mem_range.mpr (by rw [keyWarpsPerBlock]; omega))
  have hcount : (clearCounts n 7 ⟨fun _ => key, fun _ => 0, fun _ => 1⟩).cntSmem (n - 1) = 1 := by
    refine if_neg fun hcleared => ?_
    rw [warpSize] at hranks
    have hfirst := hcleared.1
    rw [warpSize, keyWarpsPerBlock] at hfirst
    omega
  rw [warpFlushes, List.length_nil, warpBases_zero hsm, passes] at hlast
  dsimp only at hlast
  rw [List.nil_append, flushTail, brought_map _ (List.nodup_range.filter _), if_pos, held,
    hcount] at hlast
  · cases hlast
  · rw [List.mem_filter, List.mem_range, hcount]
    exact ⟨hchunk, by decide⟩

end ManyRanks

section FewItems

-- A batch of at most one pass is all in the first warp.
theorem warpBases_onePass (warp : Nat) (hsm : 0 < smCount) (hpos : 0 < numKeys)
    (hkeys : numKeys ≤ warpSize) :
    warpBases smCount numKeys warp =
      (strided warp (keyWarpsPerBlock * smCount) 1).map (warpSize * ·) := by
  rw [warpSize] at hkeys
  have hrounds : (numKeys + warpSize - 1) / warpSize = 1 := by
    rw [warpSize]
    omega
  rw [warpBases_eq (by omega) hsm, hrounds]

theorem warpBases_first (hsm : 0 < smCount) (hpos : 0 < numKeys) (hkeys : numKeys ≤ warpSize) :
    warpBases smCount numKeys 0 = [0] := by
  have hwarps : 0 < keyWarpsPerBlock * smCount := Nat.mul_pos (by decide) hsm
  rw [warpBases_onePass 0 hsm hpos hkeys, strided, Nat.sub_zero, Nat.add_sub_cancel_left,
    Nat.div_self hwarps]
  rfl

theorem warpBases_rest (hsm : 0 < smCount) (hpos : 0 < numKeys) (hkeys : numKeys ≤ warpSize)
    (hwarp : 0 < warp) : warpBases smCount numKeys warp = [] := by
  have hwarps : 0 < keyWarpsPerBlock * smCount := Nat.mul_pos (by decide) hsm
  rw [warpBases_onePass warp hsm hpos hkeys, strided, Nat.sub_eq_zero_of_le hwarp, Nat.zero_add,
    Nat.div_eq_of_lt (Nat.sub_lt hwarps Nat.one_pos)]
  rfl

theorem clearCounts_zero (chunks warp : Nat) (key : κ) :
    clearCounts chunks warp (⟨fun _ => key, fun _ => 0, fun _ => 0⟩ : WarpMemory κ) =
      ⟨fun _ => key, fun _ => 0, fun _ => 0⟩ := by
  rw [clearCounts]
  congr 1
  funext chunk
  exact ite_self _

theorem enlisted_onePass (hsm : 0 < launcher.smCount) (hpos : 0 < indices.length)
    (hkeys : indices.length ≤ warpSize) (key : κ) (buffers : Nat → κ × Nat) (chunk : Nat) :
    enlisted chunk (SelectRun.sequential launcher n (fun key => (owner key : Nat)) indices
      ⟨fun _ => key, fun _ => 0, fun _ => 0⟩ buffers).run =
      let (flushes, memory) := pass (fun key => (owner key : Nat)) launcher.itemsPerGpuPerWarp
        indices 0 (List.range warpSize) ⟨fun _ => key, fun _ => 0, fun _ => 0⟩
      brought chunk flushes ++ brought chunk (flushTail launcher.itemsPerGpuPerWarp n memory) := by
  obtain ⟨warps, hwarps⟩ : ∃ warps, keyWarpsPerBlock * launcher.smCount = warps + 1 :=
    Nat.exists_eq_add_one.mpr (Nat.mul_pos (by decide) hsm)
  have hidle : ∀ warp, 0 < warp → brought chunk (warpFlushes (fun key => (owner key : Nat))
      launcher.itemsPerGpuPerWarp indices n launcher.smCount warp (fun _ => List.range warpSize)
      ⟨fun _ => key, fun _ => 0, fun _ => 0⟩) = [] := by
    intro warp hwarp
    rw [warpFlushes, warpBases_rest hsm hpos hkeys hwarp, clearCounts_zero, passes]
    dsimp only
    rw [List.nil_append, flushTail, List.filter_eq_nil_iff.mpr (by simp)]
    rfl
  rw [SelectRun.enlisted_sequential, hwarps, List.range_succ_eq_map, List.flatMap_cons,
    List.flatMap_map, List.flatMap_eq_nil_iff.mpr fun warp _ => hidle _ (Nat.succ_pos warp),
    List.append_nil, warpFlushes, warpBases_first hsm hpos hkeys, clearCounts_zero]
  simp only [passes, List.append_nil, brought_append]

theorem foldl_placeKey_idle (warp : Warp κ) (lanes : List Nat)
    (hidle : ∀ lane ∈ lanes, indices.length ≤ base + lane) :
    lanes.foldl (placeKey chunkOf items indices base) warp = warp := by
  induction lanes with
  | nil => rfl
  | cons lane rest ih =>
    rw [List.foldl_cons, placeKey_of_none warp
      (List.getElem?_eq_none (hidle lane List.mem_cons_self))]
    exact ih fun other hother => hidle other (List.mem_cons_of_mem _ hother)

-- With as many items as lanes, a lane without a key is taken for full, and flushes what the
-- first chunk holds once more.
theorem not_selects_of_items_eq {launcher : SelectLauncher} (hsm : 0 < launcher.smCount)
    (hitems : launcher.itemsPerGpuPerWarp = warpSize) (hkey : (owner key : Nat) = 0) :
    ¬(SelectRun.sequential launcher n (fun key => (owner key : Nat)) [key]
      ⟨fun _ => key, fun _ => 0, fun _ => 0⟩ fun _ => (key, 0)).Selects := by
  intro hselects
  have hle := hselects.length_enlisted_le (Nat.zero_lt_of_lt (owner key).isLt)
  have hkeys : [key].length ≤ warpSize := Nat.succ_le_of_lt (by decide : 0 < warpSize)
  have hpos : 0 < [key].length := Nat.one_pos
  rw [enlisted_onePass hsm hpos hkeys] at hle
  have hwarp : (List.range warpSize).foldl (placeKey (fun key => (owner key : Nat))
      launcher.itemsPerGpuPerWarp [key] 0)
      ⟨⟨fun _ => key, fun _ => 0, fun _ => 0⟩, fun _ => {}⟩ =
      placeKey (fun key => (owner key : Nat)) launcher.itemsPerGpuPerWarp [key] 0
        ⟨⟨fun _ => key, fun _ => 0, fun _ => 0⟩, fun _ => {}⟩ 0 := by
    rw [warpSize, List.range_succ_eq_map, List.foldl_cons]
    refine foldl_placeKey_idle _ _ fun lane hlane => ?_
    obtain ⟨before, -, rfl⟩ := List.mem_map.mp hlane
    simp
  have hlanes : (placeKey (fun key => (owner key : Nat)) launcher.itemsPerGpuPerWarp [key] 0
      ⟨⟨fun _ => key, fun _ => 0, fun _ => 0⟩, fun _ => {}⟩ 0).lanes = fun _ => {} := by
    funext lane
    rw [placeKey_of_some _ rfl]
    dsimp only
    rw [hkey, Function.update_apply, ite_self]
  have hcount : (placeKey (fun key => (owner key : Nat)) launcher.itemsPerGpuPerWarp [key] 0
      ⟨⟨fun _ => key, fun _ => 0, fun _ => 0⟩, fun _ => {}⟩ 0).memory.cntSmem 0 = 1 := by
    rw [placeKey_of_some _ rfl]
    dsimp only
    rw [hkey, Function.update_self]
  have hfull : fullChunks launcher.itemsPerGpuPerWarp
      (placeKey (fun key => (owner key : Nat)) launcher.itemsPerGpuPerWarp [key] 0
        ⟨⟨fun _ => key, fun _ => 0, fun _ => 0⟩, fun _ => {}⟩ 0).lanes =
      List.replicate warpSize 0 := by
    rw [hlanes, hitems]
    decide
  unfold pass at hle
  dsimp only at hle
  rw [hwarp, hfull, List.length_append] at hle
  have hbrought : ∀ contents : Nat → List (κ × Nat),
      (brought 0 ((List.replicate warpSize 0).map fun chunk => (chunk, contents chunk))).length =
        warpSize * (contents 0).length := by
    intro contents
    simp [brought, List.flatMap_replicate, List.length_flatten]
  rw [hbrought, held, List.length_map, List.length_range, hcount, warpSize] at hle
  exact absurd hle (by simp; omega)

-- The counters do not depend on what else is in shared memory.
theorem cntSmem_foldl (chunkOf : κ → Nat) (items : Nat) (indices : List κ) (base : Nat)
    (lanes : List Nat) (warp : Warp κ) (chunk : Nat) :
    (lanes.foldl (placeKey chunkOf items indices base) warp).memory.cntSmem chunk =
      warp.memory.cntSmem chunk + (arrivals chunkOf indices base lanes chunk).length := by
  induction lanes generalizing warp with
  | nil => rfl
  | cons lane rest ih =>
    rw [List.foldl_cons, ih, arrivals, arrivals, List.map_cons, List.filter_cons]
    cases hkey : indices[base + lane]? with
    | none => simp [placeKey_of_none warp hkey]
    | some key =>
      rw [placeKey_of_some warp hkey]
      dsimp only
      rw [Function.update_apply]
      by_cases heq : chunk = chunkOf key
      · simp [heq]
        omega
      · simp [heq, Ne.symm heq]

-- A batch with more keys of the first chunk than a warp has places for it, and one key of the
-- second chunk.
def overfull (items : Nat) (key next : κ) : List κ :=
  List.replicate (items + 1) key ++ [next]

theorem length_overfull (items : Nat) (key next : κ) :
    (overfull items key next).length = items + 2 := by
  rw [overfull, List.length_append, List.length_replicate, List.length_singleton]

theorem arrivals_overfull (hitems : items + 2 ≤ warpSize) (hkey : (owner key : Nat) = 0)
    (hnext : (owner next : Nat) = 1) :
    items < (arrivals (fun key => (owner key : Nat)) (overfull items key next) 0
        (List.range warpSize) 0).length ∧
      0 < (arrivals (fun key => (owner key : Nat)) (overfull items key next) 0
        (List.range warpSize) 1).length := by
  have hlanes : List.range warpSize = List.range (items + 1) ++
      (List.range (warpSize - (items + 1))).map (items + 1 + ·) := by
    rw [← List.range_add, Nat.add_sub_cancel' (by omega)]
  constructor
  · rw [arrivals, hlanes, List.map_append, List.filter_append, List.length_append,
      List.filter_eq_self.mpr, List.length_map, List.length_range]
    · omega
    · intro position hposition
      obtain ⟨lane, hlane, rfl⟩ := List.mem_map.mp hposition
      rw [List.mem_range] at hlane
      rw [Nat.zero_add, overfull, List.getElem?_append_left (by rwa [List.length_replicate]),
        List.getElem?_replicate_of_lt hlane, Option.map_some, hkey]
      exact decide_eq_true rfl
  · refine List.length_pos_of_mem (a := items + 1) (List.mem_filter.mpr ⟨?_, ?_⟩)
    · exact List.mem_map.mpr ⟨items + 1, List.mem_range.mpr (by omega), Nat.zero_add _⟩
    · rw [overfull, List.getElem?_append_right (by rw [List.length_replicate]),
        List.length_replicate, Nat.sub_self]
      simp [hnext]

-- The keys of one chunk run into the places of the next one.
theorem not_selects_of_items_lt {launcher : SelectLauncher} (hsm : 0 < launcher.smCount)
    (hitems : launcher.itemsPerGpuPerWarp + 16 ≤ warpSize) (hkey : (owner key : Nat) = 0)
    (hnext : (owner next : Nat) = 1) :
    ¬(SelectRun.sequential launcher n (fun key => (owner key : Nat))
      (overfull launcher.itemsPerGpuPerWarp key next)
      ⟨fun _ => key, fun _ => 0, fun _ => 0⟩ fun _ => (key, 0)).Selects := by
  have hlanes : launcher.itemsPerGpuPerWarp + 2 ≤ warpSize := by omega
  have hranks : 1 < n := hnext ▸ (owner next).isLt
  have hlength := length_overfull launcher.itemsPerGpuPerWarp key next
  have hcount := cntSmem_foldl (fun key => (owner key : Nat)) launcher.itemsPerGpuPerWarp
    (overfull launcher.itemsPerGpuPerWarp key next) 0 (List.range warpSize)
    ⟨⟨fun _ => key, fun _ => 0, fun _ => 0⟩, fun _ => {}⟩
  have harrivals := arrivals_overfull hlanes hkey hnext
  generalize overfull launcher.itemsPerGpuPerWarp key next = indices at *
  generalize hwarp : (List.range warpSize).foldl (placeKey (fun key => (owner key : Nat))
    launcher.itemsPerGpuPerWarp indices 0)
    ⟨⟨fun _ => key, fun _ => 0, fun _ => 0⟩, fun _ => {}⟩ = warp at *
  dsimp only at hcount
  have hfirst : launcher.itemsPerGpuPerWarp < warp.memory.cntSmem 0 := by
    rw [hcount, Nat.zero_add]
    exact harrivals.1
  have hsecond : 0 < warp.memory.cntSmem 1 := by
    rw [hcount, Nat.zero_add]
    exact harrivals.2
  have hfull : fullChunks launcher.itemsPerGpuPerWarp warp.lanes = [] := by
    rw [fullChunks, List.map_eq_nil_iff, List.filter_eq_nil_iff]
    intro lane _
    rw [isFull, beq_iff_eq]
    omega
  have henlisted : ∀ chunk, enlisted chunk (SelectRun.sequential launcher n
      (fun key => (owner key : Nat)) indices ⟨fun _ => key, fun _ => 0, fun _ => 0⟩
      fun _ => (key, 0)).run = if chunk < n ∧ warp.memory.cntSmem chunk ≠ 0 then
        held launcher.itemsPerGpuPerWarp warp.memory chunk else [] := by
    intro chunk
    rw [enlisted_onePass hsm (by omega) (by omega), pass]
    dsimp only
    rw [hwarp, hfull, List.map_nil, flushTail, brought_map _ (List.nodup_range.filter _)]
    refine (List.nil_append _).trans (if_congr ?_ rfl rfl)
    rw [List.mem_filter, List.mem_range, decide_eq_true_eq]
    rfl
  intro hselects
  have hsize : ∀ chunk, (enlisted chunk (SelectRun.sequential launcher n
      (fun key => (owner key : Nat)) indices ⟨fun _ => key, fun _ => 0, fun _ => 0⟩
      fun _ => (key, 0)).run).length ≤ indices.length := by
    intro chunk
    by_cases hchunk : chunk < n
    · exact hselects.length_enlisted_le hchunk
    · rw [henlisted, if_neg fun h => hchunk h.1]
      exact Nat.zero_le _
  -- the last place of the first chunk is the first of the second one
  have hlast : (warp.memory.keySmem launcher.itemsPerGpuPerWarp,
      warp.memory.idxSmem launcher.itemsPerGpuPerWarp) ∈ enlisted 0 (SelectRun.sequential launcher n
      (fun key => (owner key : Nat)) indices ⟨fun _ => key, fun _ => 0, fun _ => 0⟩
      fun _ => (key, 0)).run := by
    rw [henlisted, if_pos ⟨by omega, by omega⟩, held, List.mem_map]
    exact ⟨launcher.itemsPerGpuPerWarp, List.mem_range.mpr hfirst, by
      rw [Nat.zero_mul, Nat.zero_add]⟩
  refine hselects.disjoint hsize Nat.one_pos hranks hlast ?_
  rw [henlisted, if_pos ⟨hranks, by omega⟩, held, List.mem_map]
  exact ⟨0, List.mem_range.mpr hsecond, by rw [Nat.one_mul, Nat.add_zero]⟩

end FewItems

-- All runs select exactly for up to 32 ranks and enough shared memory.
theorem selects_iff {smCount sharedMemory keyBytes : Nat} (hsm : 0 < smCount)
    (hshared : 4096 + 32 * n ≤ sharedMemory) {key next : κ} (hkey : (owner key : Nat) = 0)
    (hnext : (owner next : Nat) = 1) :
    (∀ (indices : List κ) (run : SelectRun
        (SelectLauncher.initialized smCount sharedMemory keyBytes n) n
        (fun key => (owner key : Nat)) indices), indices.length < 2 ^ 31 → run.Selects) ↔
      n ≤ 32 ∧ 4096 + (384 * (keyBytes + 4) + 32) * n ≤ sharedMemory := by
  have hpos : 0 < n := Nat.zero_lt_of_lt (owner key).isLt
  rw [← warpSize_lt_items_iff smCount hpos hshared]
  constructor
  · intro hall
    constructor
    · by_contra hranks
      exact not_selects_of_ranks hsm (Nat.lt_of_not_le hranks) key (hall [] _ (by simp))
    · by_contra hitems
      rcases items_cases hitems with heq | hlt
      · exact not_selects_of_items_eq hsm heq hkey (hall [key] _ (by simp))
      · refine not_selects_of_items_lt hsm hlt hkey hnext (hall _ _ ?_)
        rw [warpSize] at hlt
        rw [length_overfull]
        omega
  · rintro ⟨hranks, hitems⟩ indices run hkeys
    exact run.exists_selection hkeys hsm hitems hranks

theorem selects_eight_ranks :
    (SelectLauncher.initialized 108 167936 8 (8 : UInt64).toNat).itemsPerGpuPerWarp = 208 ∧
      ∀ (indices : List Int64)
        (run : SelectRun (SelectLauncher.initialized 108 167936 8 (8 : UInt64).toNat)
          (8 : UInt64).toNat (fun key => (lookupRank 8 (by decide) key : Nat)) indices),
        indices.length < 2 ^ 31 → run.Selects :=
  ⟨by decide, (selects_iff (by decide) (by decide)
    (by decide : (lookupRank 8 _ 0 : Nat) = 0)
    (by decide : (lookupRank 8 _ 1 : Nat) = 1)).mpr ⟨by decide, by decide⟩⟩

end MlkvPlus.Dist
