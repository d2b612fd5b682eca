import MlkvPlus.Dist.Select

namespace MlkvPlus.Dist

open Ranges

variable {κ : Type} {chunkOf : κ → Nat} {items chunks : Nat} {inputKeys : List κ}

def entries (inputKeys : List κ) (positions : List Nat) : List (κ × Nat) :=
  positions.filterMap fun position => inputKeys[position]?.map fun key => (key, position)

theorem entries_nil (inputKeys : List κ) : entries inputKeys [] = [] := rfl

theorem entries_append (inputKeys : List κ) (first second : List Nat) :
    entries inputKeys (first ++ second) = entries inputKeys first ++ entries inputKeys second :=
  List.filterMap_append

-- The shared memory of a warp holds the keys at some positions for each chunk.
structure Holds (items chunks : Nat) (inputKeys : List κ) (memory : WarpMemory κ)
    (positions : Nat → List Nat) : Prop where
  count : ∀ chunk < chunks, memory.cntSmem chunk = (positions chunk).length
  stored : ∀ chunk (place : Nat) position, (positions chunk)[place]? = some position →
    memory.idxSmem (chunk * items + place) = position ∧
      inputKeys[position]? = some (memory.keySmem (chunk * items + place))

theorem Holds.held_eq (h : Holds items chunks inputKeys memory positions) (hchunk : chunk < chunks)
    :
    held items memory chunk = entries inputKeys (positions chunk) := by
  have hpositions : positions chunk =
      (List.range (memory.cntSmem chunk)).map fun place =>
        memory.idxSmem (chunk * items + place) := by
    apply List.ext_getElem
    · rw [List.length_map, List.length_range, h.count chunk hchunk]
    · intro place hplace _
      rw [List.getElem_map, List.getElem_range]
      exact (h.stored chunk place _ (List.getElem?_eq_getElem hplace)).1.symm
  rw [held, entries, hpositions, List.filterMap_map, ← List.filterMap_eq_map]
  refine List.filterMap_congr fun place hplace => ?_
  rw [List.mem_range, h.count chunk hchunk] at hplace
  obtain ⟨hidx, hkey⟩ := h.stored chunk place _ (List.getElem?_eq_getElem hplace)
  rw [Function.comp_apply, Function.comp_apply, hidx, hkey, Option.map_some]

-- The keys that one pass brings to a chunk, in the order in which the lanes come.
def arrivals (chunkOf : κ → Nat) (inputKeys : List κ) (base : Nat) (lanes : List Nat)
    (chunk : Nat) : List Nat :=
  (lanes.map (base + ·)).filter fun position => inputKeys[position]?.map chunkOf = some chunk

theorem arrivals_append_singleton (base : Nat) (lanes : List Nat) (lane chunk : Nat) :
    arrivals chunkOf inputKeys base (lanes ++ [lane]) chunk =
      arrivals chunkOf inputKeys base lanes chunk ++
        if inputKeys[base + lane]?.map chunkOf = some chunk then [base + lane] else [] := by
  simp [arrivals, List.filter_cons]

theorem arrivals_eq_nil (hchunks : ∀ key, chunkOf key < chunks) (hchunk : chunks ≤ chunk) :
    arrivals chunkOf inputKeys base lanes chunk = [] := by
  refine List.filter_eq_nil_iff.mpr fun position _ => ?_
  rw [decide_eq_true_eq, Option.map_eq_some_iff]
  rintro ⟨key, _, rfl⟩
  exact Nat.not_lt.mpr hchunk (hchunks key)

-- A lane that has a key knows its place among the arrivals of its chunk.
def LaneAt (chunkOf : κ → Nat) (inputKeys : List κ) (base : Nat) (before : Nat → List Nat)
    (placed : List Nat) (lane : Nat) (vars : Lane) : Prop :=
  match inputKeys[base + lane]? with
  | none => vars = {}
  | some key => vars.chunkId = chunkOf key ∧
      ∃ place, vars.currLocalIdx = (before (chunkOf key)).length + place ∧
        (arrivals chunkOf inputKeys base placed (chunkOf key))[place]? = some (base + lane)

theorem LaneAt.mono (h : LaneAt chunkOf inputKeys base before placed lane vars) (next : Nat) :
    LaneAt chunkOf inputKeys base before (placed ++ [next]) lane vars := by
  unfold LaneAt at h ⊢
  split
  case h_1 hkey => rwa [hkey] at h
  case h_2 key hkey =>
    rw [hkey] at h
    obtain ⟨hchunk, place, hlocal, hplace⟩ := h
    refine ⟨hchunk, place, hlocal, ?_⟩
    rw [arrivals_append_singleton, List.getElem?_append_left
      (List.getElem?_eq_some_iff.mp hplace).1, hplace]

-- The lanes `placed` have put their keys behind what the warp held before.
structure Placed (chunkOf : κ → Nat) (items chunks : Nat) (inputKeys : List κ) (base : Nat)
    (before : Nat → List Nat) (placed : List Nat) (warp : Warp κ) : Prop where
  holds : Holds items chunks inputKeys warp.memory fun chunk =>
    before chunk ++ arrivals chunkOf inputKeys base placed chunk
  lanes : ∀ lane ∈ placed, LaneAt chunkOf inputKeys base before placed lane (warp.lanes lane)
  others : ∀ lane, lane ∉ placed → warp.lanes lane = {}

theorem length_arrivals_le (chunkOf : κ → Nat) (inputKeys : List κ) (base : Nat)
    (lanes : List Nat) (chunk : Nat) :
    (arrivals chunkOf inputKeys base lanes chunk).length ≤ lanes.length :=
  (List.length_filter_le ..).trans (List.length_map _).le

theorem Holds.place (h : Holds items chunks inputKeys memory positions)
    (hroom : ∀ chunk, (positions chunk).length < items) (hchunk : chunk < chunks)
    (hkey : inputKeys[position]? = some key) :
    Holds items chunks inputKeys
      { keySmem := Function.update memory.keySmem (chunk * items + memory.cntSmem chunk) key
        idxSmem := Function.update memory.idxSmem (chunk * items + memory.cntSmem chunk) position
        cntSmem := Function.update memory.cntSmem chunk (memory.cntSmem chunk + 1) }
      (Function.update positions chunk (positions chunk ++ [position])) where
  count other hother := by
    dsimp only
    by_cases heq : other = chunk
    · rw [heq, Function.update_self, Function.update_self, h.count chunk hchunk,
        List.length_append, List.length_singleton]
    · rw [Function.update_of_ne heq, Function.update_of_ne heq, h.count other hother]
  stored other place found hfound := by
    dsimp only
    rw [h.count chunk hchunk]
    by_cases hcell : other * items + place = chunk * items + (positions chunk).length
    · have hplace : place < items := by
        have hlt := (List.getElem?_eq_some_iff.mp hfound).1
        by_cases heq : other = chunk
        · rw [heq] at hcell
          exact Nat.add_left_cancel hcell ▸ hroom chunk
        · rw [Function.update_of_ne heq] at hlt
          exact hlt.trans (hroom other)
      obtain ⟨rfl, rfl⟩ := cell_inj hplace (hroom chunk) hcell
      rw [Function.update_self, List.getElem?_append_right (Nat.le_refl _), Nat.sub_self] at hfound
      rw [hcell, Function.update_self, Function.update_self, ← Option.some.inj hfound]
      exact ⟨rfl, hkey⟩
    · rw [Function.update_of_ne hcell, Function.update_of_ne hcell]
      apply h.stored other place found
      by_cases heq : other = chunk
      · subst heq
        have hne : place ≠ (positions other).length := fun hsame => hcell (by rw [hsame])
        have hlt := (List.getElem?_eq_some_iff.mp hfound).1
        rw [Function.update_self] at hfound hlt
        rw [List.length_append, List.length_singleton] at hlt
        rwa [List.getElem?_append_left (by omega)] at hfound
      · rwa [Function.update_of_ne heq] at hfound

theorem placeKey_of_some (warp : Warp κ) (hkey : inputKeys[base + lane]? = some key) :
    placeKey chunkOf items inputKeys base warp lane =
      let slot := warp.memory.cntSmem (chunkOf key)
      { memory :=
          { keySmem := Function.update warp.memory.keySmem (chunkOf key * items + slot) key
            idxSmem := Function.update warp.memory.idxSmem (chunkOf key * items + slot)
              (base + lane)
            cntSmem := Function.update warp.memory.cntSmem (chunkOf key) (slot + 1) }
        lanes := Function.update warp.lanes lane ⟨chunkOf key, slot⟩ } := by
  rw [placeKey, hkey]

theorem placeKey_of_none (warp : Warp κ) (hkey : inputKeys[base + lane]? = none) :
    placeKey chunkOf items inputKeys base warp lane = warp := by
  rw [placeKey, hkey]

theorem Placed.next (h : Placed chunkOf items chunks inputKeys base before placed warp)
    (hchunks : ∀ key, chunkOf key < chunks)
    (hroom : ∀ chunk, (before chunk).length + warpSize ≤ items) (hnew : lane ∉ placed)
    (hplaced : placed.length < warpSize) :
    Placed chunkOf items chunks inputKeys base before (placed ++ [lane])
      (placeKey chunkOf items inputKeys base warp lane) := by
  cases hkey : inputKeys[base + lane]? with
  | none =>
    have hsame : ∀ chunk, arrivals chunkOf inputKeys base (placed ++ [lane]) chunk =
        arrivals chunkOf inputKeys base placed chunk := by
      intro chunk
      rw [arrivals_append_singleton, hkey]
      exact List.append_nil _
    rw [placeKey_of_none warp hkey]
    refine ⟨?_, fun other hother => ?_, fun other hother => ?_⟩
    · simpa only [hsame] using h.holds
    · rcases List.mem_append.mp hother with hold | hlane
      · exact (h.lanes other hold).mono lane
      · rw [List.mem_singleton] at hlane
        rw [hlane, LaneAt, hkey]
        exact h.others lane hnew
    · exact h.others other fun hold => hother (List.mem_append_left _ hold)
  | some key =>
    have hcount := h.holds.count (chunkOf key) (hchunks key)
    have hnext : (fun chunk => before chunk ++
        arrivals chunkOf inputKeys base (placed ++ [lane]) chunk) =
        Function.update (fun chunk => before chunk ++ arrivals chunkOf inputKeys base placed chunk)
          (chunkOf key) (before (chunkOf key) ++
            arrivals chunkOf inputKeys base placed (chunkOf key) ++ [base + lane]) := by
      funext chunk
      rw [arrivals_append_singleton, hkey, Option.map_some]
      by_cases heq : chunk = chunkOf key
      · rw [heq, if_pos rfl, Function.update_self, List.append_assoc]
      · rw [if_neg (fun hsame => heq (Option.some.inj hsame).symm), Function.update_of_ne heq,
          List.append_nil]
    rw [placeKey_of_some warp hkey]
    refine ⟨?_, fun other hother => ?_, fun other hother => ?_⟩
    · rw [hnext]
      refine h.holds.place (fun chunk => ?_) (hchunks key) hkey
      have harrived := length_arrivals_le chunkOf inputKeys base placed chunk
      have hbefore := hroom chunk
      rw [List.length_append]
      omega
    · by_cases heq : other = lane
      · subst heq
        dsimp only
        rw [Function.update_self, LaneAt, hkey]
        refine ⟨rfl, (arrivals chunkOf inputKeys base placed (chunkOf key)).length, ?_, ?_⟩
        · rw [hcount, List.length_append]
        · rw [arrivals_append_singleton, hkey, Option.map_some, if_pos rfl,
            List.getElem?_append_right (Nat.le_refl _), Nat.sub_self]
          rfl
      · have hold : other ∈ placed := by
          rcases List.mem_append.mp hother with hold | hlane
          · exact hold
          · exact absurd (List.mem_singleton.mp hlane) heq
        dsimp only
        rw [Function.update_of_ne heq]
        exact (h.lanes other hold).mono lane
    · rw [List.mem_append, List.mem_singleton, not_or] at hother
      dsimp only
      rw [Function.update_of_ne hother.2]
      exact h.others other hother.1

theorem foldl_placeKey (base : Nat) (h : Holds items chunks inputKeys memory before)
    (hchunks : ∀ key, chunkOf key < chunks)
    (hroom : ∀ chunk, (before chunk).length + warpSize ≤ items) (lanes : List Nat)
    (hnodup : lanes.Nodup) (hlength : lanes.length ≤ warpSize) :
    Placed chunkOf items chunks inputKeys base before lanes
      (lanes.foldl (placeKey chunkOf items inputKeys base) ⟨memory, fun _ => {}⟩) := by
  induction lanes using List.reverseRecOn with
  | nil =>
    refine ⟨?_, List.forall_mem_nil _, fun _ _ => rfl⟩
    rw [List.foldl_nil]
    simpa only [arrivals, List.map_nil, List.filter_nil, List.append_nil] using h
  | append_singleton placed lane ih =>
    rw [List.length_append, List.length_singleton] at hlength
    rw [List.nodup_append] at hnodup
    rw [List.foldl_append]
    refine (ih hnodup.1 (by omega)).next hchunks hroom ?_ (by omega)
    intro hold
    exact hnodup.2.2 lane hold lane (List.mem_singleton.mpr rfl) rfl

section Full

variable {base : Nat} {before : Nat → List Nat} {lanes : List Nat} {warp : Warp κ}

theorem Placed.isFull_iff (h : Placed chunkOf items chunks inputKeys base before lanes warp)
    (hlanes : lanes.Perm (List.range warpSize))
    (hroom : ∀ chunk, (before chunk).length + warpSize ≤ items) (hitems : warpSize < items)
    (hlane : lane < warpSize) :
    isFull items (warp.lanes lane) = true ↔
      (before (warp.lanes lane).chunkId ++
        arrivals chunkOf inputKeys base lanes (warp.lanes lane).chunkId)[items - warpSize]? =
          some (base + lane) := by
  have hat := h.lanes lane (hlanes.mem_iff.mpr (List.mem_range.mpr hlane))
  have hnodup : ∀ chunk, (arrivals chunkOf inputKeys base lanes chunk).Nodup := fun chunk =>
    ((hlanes.nodup_iff.mpr List.nodup_range).map fun _ _ => Nat.add_left_cancel).filter _
  rw [isFull, beq_iff_eq]
  unfold LaneAt at hat
  split at hat
  case h_1 hkey =>
    -- a lane without a key is at place 0 of chunk 0
    rw [hat]
    refine ⟨fun hfull => absurd hfull (by dsimp only; omega), fun hplace => ?_⟩
    rw [List.getElem?_append_right (by have := hroom 0; dsimp only; omega)] at hplace
    have hmem := List.mem_of_getElem? hplace
    rw [arrivals, List.mem_filter, hkey] at hmem
    simp at hmem
  case h_2 key hkey =>
    obtain ⟨hchunk, place, hlocal, hplace⟩ := hat
    have hbefore := hroom (chunkOf key)
    rw [hchunk, List.getElem?_append_right (by omega), ← hplace]
    have hlt := (List.getElem?_eq_some_iff.mp hplace).1
    constructor
    · intro hfull
      rw [show items - warpSize - (before (chunkOf key)).length = place by omega]
    · intro hsame
      have hindex := (List.getElem?_inj hlt (hnodup _)).mp hsame.symm
      omega

theorem Placed.mem_fullChunks (h : Placed chunkOf items chunks inputKeys base before lanes warp)
    (hlanes : lanes.Perm (List.range warpSize))
    (hroom : ∀ chunk, (before chunk).length + warpSize ≤ items) (hitems : warpSize < items)
    (chunk : Nat) :
    chunk ∈ fullChunks items warp.lanes ↔
      items < (before chunk ++ arrivals chunkOf inputKeys base lanes chunk).length + warpSize := by
  rw [fullChunks, List.mem_map]
  constructor
  · rintro ⟨lane, hlane, rfl⟩
    rw [List.mem_filter, List.mem_reverse, List.mem_range] at hlane
    have hplace := (h.isFull_iff hlanes hroom hitems hlane.1).mp hlane.2
    have hlt := (List.getElem?_eq_some_iff.mp hplace).1
    omega
  · intro hlength
    have hbefore := hroom chunk
    have hlt : items - warpSize <
        (before chunk ++ arrivals chunkOf inputKeys base lanes chunk).length := by omega
    have hplace := List.getElem?_eq_getElem hlt
    -- the place is behind what was held before, so a lane of this pass took it
    have hmem := List.mem_of_getElem?
      ((List.getElem?_append_right (by omega)).symm.trans hplace)
    obtain ⟨hlane, hchunk⟩ := List.mem_filter.mp hmem
    obtain ⟨lane, hlane, hposition⟩ := List.mem_map.mp hlane
    have hrange := List.mem_range.mp (hlanes.mem_iff.mp hlane)
    rw [← hposition] at hchunk hplace
    have hat := h.lanes lane hlane
    unfold LaneAt at hat
    split at hat
    case h_1 hkey =>
      rw [hkey] at hchunk
      simp at hchunk
    case h_2 key hkey =>
      rw [hkey] at hchunk
      have hsame : (warp.lanes lane).chunkId = chunk := by simpa [hat.1] using hchunk
      refine ⟨lane, ?_, hsame⟩
      rw [List.mem_filter, List.mem_reverse, List.mem_range,
        h.isFull_iff hlanes hroom hitems hrange, hsame]
      exact ⟨hrange, hplace⟩

theorem Placed.nodup_fullChunks (h : Placed chunkOf items chunks inputKeys base before lanes warp)
    (hlanes : lanes.Perm (List.range warpSize))
    (hroom : ∀ chunk, (before chunk).length + warpSize ≤ items) (hitems : warpSize < items) :
    (fullChunks items warp.lanes).Nodup := by
  refine List.Nodup.map_on ?_ ((List.nodup_reverse.mpr List.nodup_range).filter _)
  intro first hfirst second hsecond hsame
  rw [List.mem_filter, List.mem_reverse, List.mem_range] at hfirst hsecond
  have hleft := (h.isFull_iff hlanes hroom hitems hfirst.1).mp hfirst.2
  have hright := (h.isFull_iff hlanes hroom hitems hsecond.1).mp hsecond.2
  rw [hsame, hright] at hleft
  exact (Nat.add_left_cancel (Option.some.inj hleft)).symm

end Full

theorem resetCounts_apply (cntSmem : Nat → Nat) (full : List Nat) (chunk : Nat) :
    resetCounts cntSmem full chunk = if chunk ∈ full then 0 else cntSmem chunk := by
  induction full generalizing cntSmem with
  | nil => rfl
  | cons first rest ih =>
    rw [resetCounts, List.foldl_cons, ← resetCounts, ih, Function.update_apply]
    by_cases hrest : chunk ∈ rest
    · rw [if_pos hrest, if_pos (List.mem_cons_of_mem _ hrest)]
    · rw [if_neg hrest]
      exact if_congr (by simp [hrest]) rfl rfl

-- One pass: what a chunk had and what came to it is flushed or still held, and there is room
-- for another pass.
theorem pass_spec (base : Nat) (h : Holds items chunks inputKeys memory before)
    (hchunks : ∀ key, chunkOf key < chunks) (hlanes : lanes.Perm (List.range warpSize))
    (hroom : ∀ chunk, (before chunk).length + warpSize ≤ items) (hitems : warpSize < items) :
    ∃ after, Holds items chunks inputKeys (pass chunkOf items inputKeys base lanes memory).2 after ∧
      (∀ chunk, (after chunk).length + warpSize ≤ items) ∧
      ∀ chunk, brought chunk (pass chunkOf items inputKeys base lanes memory).1 ++
          entries inputKeys (after chunk) =
        entries inputKeys (before chunk ++ arrivals chunkOf inputKeys base lanes chunk) := by
  have hplaced := foldl_placeKey base h hchunks hroom lanes
    (hlanes.nodup_iff.mpr List.nodup_range) (by rw [hlanes.length_eq, List.length_range])
  have hmem := hplaced.mem_fullChunks hlanes hroom hitems
  have hnodup := hplaced.nodup_fullChunks hlanes hroom hitems
  unfold pass
  dsimp only
  generalize lanes.foldl (placeKey chunkOf items inputKeys base) ⟨memory, fun _ => {}⟩ = warp at *
  refine ⟨fun chunk => if chunk ∈ fullChunks items warp.lanes then [] else
    before chunk ++ arrivals chunkOf inputKeys base lanes chunk, ⟨?_, ?_⟩, ?_, ?_⟩
  · intro chunk hchunk
    dsimp only
    rw [resetCounts_apply]
    split
    case isTrue => rfl
    case isFalse => exact hplaced.holds.count chunk hchunk
  · intro chunk place position hposition
    split at hposition
    case isTrue => cases hposition
    case isFalse => exact hplaced.holds.stored chunk place position hposition
  · intro chunk
    dsimp only
    split
    case isTrue => rw [List.length_nil]; omega
    case isFalse hnot =>
      rw [hmem] at hnot
      omega
  · intro chunk
    rw [brought_map _ hnodup]
    dsimp only
    split
    case isTrue hfull =>
      have hchunk : chunk < chunks := by
        by_contra hout
        have hbefore := hroom chunk
        rw [hmem, arrivals_eq_nil hchunks (Nat.le_of_not_lt hout), List.append_nil] at hfull
        omega
      rw [hplaced.holds.held_eq hchunk]
      exact List.append_nil _
    case isFalse => exact List.nil_append _

theorem store_lt (h : Holds items chunks inputKeys memory before)
    (hchunks : ∀ key, chunkOf key < chunks)
    (hlanes : (placed ++ lane :: rest).Perm (List.range warpSize))
    (hroom : ∀ chunk, (before chunk).length + warpSize ≤ items) (key : κ) :
    chunkOf key * items + (placed.foldl (placeKey chunkOf items inputKeys base)
      ⟨memory, fun _ => {}⟩).memory.cntSmem (chunkOf key) < chunks * items := by
  have hlength := hlanes.length_eq
  rw [List.length_append, List.length_cons, List.length_range] at hlength
  have hplaced := foldl_placeKey base h hchunks hroom placed
    (List.Nodup.of_append_left (hlanes.nodup_iff.mpr List.nodup_range)) (by omega)
  have harrived := length_arrivals_le chunkOf inputKeys base placed (chunkOf key)
  have hbefore := hroom (chunkOf key)
  rw [hplaced.holds.count _ (hchunks key), List.length_append]
  calc chunkOf key * items + ((before (chunkOf key)).length +
        (arrivals chunkOf inputKeys base placed (chunkOf key)).length)
      < chunkOf key * items + items := by omega
    _ = (chunkOf key + 1) * items := (Nat.succ_mul ..).symm
    _ ≤ chunks * items := Nat.mul_le_mul_right _ (hchunks key)

theorem passes_spec (h : Holds items chunks inputKeys memory before)
    (hchunks : ∀ key, chunkOf key < chunks)
    (hlanes : ∀ base, (lanes base).Perm (List.range warpSize))
    (hroom : ∀ chunk, (before chunk).length + warpSize ≤ items) (hitems : warpSize < items)
    (bases : List Nat) :
    ∃ after,
      Holds items chunks inputKeys (passes chunkOf items inputKeys lanes bases memory).2 after ∧
      (∀ chunk, (after chunk).length + warpSize ≤ items) ∧
      ∀ chunk, brought chunk (passes chunkOf items inputKeys lanes bases memory).1 ++
          entries inputKeys (after chunk) =
        entries inputKeys (before chunk ++
          bases.flatMap fun base => arrivals chunkOf inputKeys base (lanes base) chunk) := by
  induction bases generalizing memory before with
  | nil =>
    refine ⟨before, h, hroom, fun chunk => ?_⟩
    rw [List.flatMap_nil, List.append_nil]
    exact List.nil_append _
  | cons base rest ih =>
    obtain ⟨between, hbetween, hroom', hpass⟩ := pass_spec base h hchunks (hlanes base)
      hroom hitems
    obtain ⟨after, hafter, hroom'', hrest⟩ := ih hbetween hroom'
    refine ⟨after, hafter, hroom'', fun chunk => ?_⟩
    rw [passes, brought_append, List.append_assoc, hrest, entries_append, ← List.append_assoc,
      hpass, ← entries_append, List.append_assoc]
    rfl

theorem brought_flushTail (h : Holds items chunks inputKeys memory positions)
    (hchunk : chunk < chunks) :
    brought chunk (flushTail items chunks memory) = entries inputKeys (positions chunk) := by
  rw [flushTail, brought_map _ (List.nodup_range.filter _), ← h.held_eq hchunk]
  split
  case isTrue => rfl
  case isFalse hnot =>
    have hzero : memory.cntSmem chunk = 0 := by simpa [hchunk] using hnot
    rw [held, hzero]
    rfl

theorem clearCounts_eq_zero (hchunks : chunks ≤ warpSize) (hchunk : chunk < chunks)
    (memory : WarpMemory κ) : (clearCounts chunks warp memory).cntSmem chunk = 0 := by
  have hwarp : warp % keyWarpsPerBlock < keyWarpsPerBlock := Nat.mod_lt _ (by decide)
  refine if_pos ?_
  have hcounter : warp % keyWarpsPerBlock * chunks + chunk < chunks * keyWarpsPerBlock := by
    calc warp % keyWarpsPerBlock * chunks + chunk
        < warp % keyWarpsPerBlock * chunks + chunks := Nat.add_lt_add_left hchunk _
      _ = (warp % keyWarpsPerBlock + 1) * chunks := (Nat.succ_mul ..).symm
      _ ≤ keyWarpsPerBlock * chunks := Nat.mul_le_mul_right _ hwarp
      _ = chunks * keyWarpsPerBlock := Nat.mul_comm ..
  exact ⟨hcounter.trans_le (Nat.mul_le_mul_right _ hchunks), hcounter⟩

theorem clearCounts_holds (items : Nat) (inputKeys : List κ) (warp : Nat)
    (hchunks : chunks ≤ warpSize) (memory : WarpMemory κ) :
    Holds items chunks inputKeys (clearCounts chunks warp memory) fun _ => [] where
  count _ hchunk := clearCounts_eq_zero hchunks hchunk memory
  stored _ _ _ hnone := by cases hnone

theorem brought_warpFlushes (hchunks : ∀ key, chunkOf key < chunks)
    (hlanes : ∀ base, (lanes base).Perm (List.range warpSize)) (hitems : warpSize < items)
    (hcleared : chunks ≤ warpSize) (memory : WarpMemory κ) (chunk : Nat) :
    brought chunk (warpFlushes chunkOf items inputKeys chunks smCount warp lanes memory) =
      entries inputKeys ((warpBases smCount inputKeys.length warp).flatMap fun base =>
        arrivals chunkOf inputKeys base (lanes base) chunk) := by
  obtain ⟨after, hafter, _, hbrought⟩ := passes_spec
    (clearCounts_holds items inputKeys warp hcleared memory)
    hchunks hlanes (fun _ => by rw [List.length_nil]; omega) hitems
    (warpBases smCount inputKeys.length warp)
  have hall := hbrought chunk
  rw [List.nil_append] at hall
  rw [warpFlushes]
  dsimp only
  rw [brought_append, ← hall]
  refine congrArg _ ?_
  by_cases hchunk : chunk < chunks
  · exact brought_flushTail hafter hchunk
  · -- nothing comes to a chunk that does not exist
    rw [List.flatMap_eq_nil_iff.mpr fun base _ =>
      arrivals_eq_nil hchunks (Nat.le_of_not_lt hchunk), entries_nil] at hall
    rw [(List.append_eq_nil_iff.mp hall).2, flushTail, brought_map _ (List.nodup_range.filter _),
      if_neg]
    intro hmem
    exact hchunk (List.mem_range.mp (List.mem_filter.mp hmem).1)

end MlkvPlus.Dist
