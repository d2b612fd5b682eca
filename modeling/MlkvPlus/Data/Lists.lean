import Mathlib.Algebra.BigOperators.Fin
import Mathlib.Data.List.AList
import Mathlib.Data.List.Forall2
import Mathlib.Data.List.Nodup

namespace MlkvPlus.Lists

variable {α β : Type}

theorem findIdx_congr {elements : List α} (h : ∀ element ∈ elements, p element = q element) :
    elements.findIdx p = elements.findIdx q := by
  induction elements with
  | nil => rfl
  | cons element rest ih =>
    rw [List.findIdx_cons, List.findIdx_cons, h element List.mem_cons_self,
      ih fun other hother => h other (List.mem_cons_of_mem _ hother)]

theorem dropWhile_congr {elements : List α} (h : ∀ element ∈ elements, p element = q element) :
    elements.dropWhile p = elements.dropWhile q := by
  rw [List.dropWhile_eq_drop_findIdx_not, List.dropWhile_eq_drop_findIdx_not,
    findIdx_congr fun element helement => congrArg not (h element helement)]

theorem flatten_filter_perm [DecidableEq α] (owner : α → Fin n) (elements : List α) :
    (List.ofFn fun rank => elements.filter fun element => owner element = rank).flatten.Perm
      elements := by
  rw [List.perm_iff_count]
  intro element
  rw [List.count_flatten, List.map_ofFn, List.sum_ofFn]
  -- only the chunk of its owner counts an element
  rw [Finset.sum_eq_single (owner element)]
  · exact List.count_filter (by simp)
  · intro rank _ hrank
    exact List.count_eq_zero.mpr (by simp [hrank.symm])
  · intro hmem
    exact absurd (Finset.mem_univ _) hmem

theorem flatMap_range_add (width count : Nat) :
    ((List.range count).flatMap fun round => (List.range width).map (width * round + ·)) =
      List.range (width * count) := by
  induction count with
  | zero => rfl
  | succ count ih =>
    rw [List.range_succ, List.flatMap_append, ih, Nat.mul_succ, List.range_add,
      List.flatMap_singleton]

theorem exists_map_of_perm {f : α → β} {source : List α} {target : List β}
    (h : target.Perm (source.map f)) :
    ∃ order : List α, order.Perm source ∧ target = order.map f := by
  have hmap : List.Forall₂ (fun image element => image = f element) (source.map f) source :=
    List.forall₂_map_left_iff.mpr (List.forall₂_same.mpr fun _ _ => rfl)
  obtain ⟨order, hforall, hperm⟩ := List.perm_comp_forall₂ h hmap
  refine ⟨order, hperm, ?_⟩
  rwa [← List.forall₂_eq_eq_eq, List.forall₂_map_right_iff]

section Owners

theorem filterMap_range_getElem? (list : List α) (select : α → Option β) :
    ((List.range list.length).filterMap fun index => list[index]?.bind select) =
      list.filterMap select := by
  induction list with
  | nil => rfl
  | cons first rest ih =>
    rw [List.length_cons, List.range_succ_eq_map, List.filterMap_cons, List.filterMap_map,
      List.filterMap_cons]
    simp only [List.getElem?_cons_zero, Option.bind_some, Function.comp_def,
      List.getElem?_cons_succ, Nat.succ_eq_add_one, ih]

theorem map_range_eq_filterMap {owners : List Nat} {place : Nat → β} {pick : Nat → Option β}
    (h : ∀ slot thread, owners[slot]? = some thread → pick thread = some (place slot)) :
    (List.range owners.length).map place = owners.filterMap pick := by
  induction owners generalizing place with
  | nil => rfl
  | cons first rest ih =>
    have hrest := @ih (fun slot => place (slot + 1)) fun slot thread hslot =>
      h (slot + 1) thread (by rwa [List.getElem?_cons_succ])
    rw [List.length_cons, List.range_succ_eq_map, List.map_cons, List.map_map,
      List.filterMap_cons, h 0 first List.getElem?_cons_zero, ← hrest]
    rfl

def selectFlag (flag : Bool) (project : α → β) (entry : α × Bool) : Option β :=
  if entry.2 = flag then some (project entry.1) else none

theorem isSome_selectFlag_iff {batch : List (α × Bool)} (project : α → β) (thread : Nat) :
    (batch[thread]?.bind (selectFlag flag project)).isSome = true ↔
      ∃ entry, batch[thread]? = some (entry, flag) := by
  cases batch[thread]? with
  | none => simp
  | some entry =>
    obtain ⟨entry, own⟩ := entry
    by_cases hown : own = flag
    · simp [selectFlag, hown]
    · simp [selectFlag, hown]

theorem map_filter_eq_filterMap (batch : List (α × Bool)) (flag : Bool) (project : α → β) :
    (batch.filter fun entry => entry.2 = flag).map (fun entry => project entry.1) =
      batch.filterMap (selectFlag flag project) := by
  rw [← List.filterMap_eq_map, List.filterMap_filter]
  refine List.filterMap_congr fun entry _ => ?_
  simp only [selectFlag, decide_eq_true_eq, Function.comp_apply]

-- Slots that belong to the entries with one flag, one each.
theorem perm_of_owners {batch : List (α × Bool)} {flag : Bool} {owners : List Nat}
    (place : Nat → β) (project : α → β) (hnodup : owners.Nodup)
    (hmem : ∀ thread, thread ∈ owners ↔ ∃ entry, batch[thread]? = some (entry, flag))
    (hplace : ∀ slot thread entry, owners[slot]? = some thread →
      batch[thread]? = some (entry, flag) → place slot = project entry) :
    ((List.range owners.length).map place).Perm
      ((batch.filter fun entry => entry.2 = flag).map fun entry => project entry.1) := by
  have hplaces : (List.range owners.length).map place =
      owners.filterMap fun thread => batch[thread]?.bind (selectFlag flag project) := by
    refine map_range_eq_filterMap fun slot thread hslot => ?_
    obtain ⟨entry, hentry⟩ := (hmem thread).mp (List.mem_of_getElem? hslot)
    rw [hplace slot thread entry hslot hentry, hentry]
    exact if_pos rfl
  have howners : owners.Perm ((List.range batch.length).filter fun thread =>
      (batch[thread]?.bind (selectFlag flag project)).isSome) := by
    refine (List.perm_ext_iff_of_nodup hnodup (List.nodup_range.filter _)).mpr fun thread => ?_
    rw [List.mem_filter, isSome_selectFlag_iff, ← hmem, List.mem_range]
    refine ⟨fun hthread => ⟨?_, hthread⟩, And.right⟩
    obtain ⟨entry, hentry⟩ := (hmem thread).mp hthread
    exact (List.getElem?_eq_some_iff.mp hentry).1
  have hselected := howners.filterMap fun thread => batch[thread]?.bind (selectFlag flag project)
  rw [List.filterMap_filter] at hselected
  rw [hplaces, map_filter_eq_filterMap,
    ← filterMap_range_getElem? batch (selectFlag flag project)]
  refine hselected.trans (List.Perm.of_eq (List.filterMap_congr fun thread _ => ?_))
  cases batch[thread]?.bind (selectFlag flag project) with
  | none => rfl
  | some value => rfl

end Owners

section AssociationList

variable {κ : Type} [DecidableEq κ]

theorem lookup_erase_some {map : AList fun _ : κ => β}
    (h : (map.erase key).lookup other = some found) :
    other ≠ key ∧ map.lookup other = some found := by
  by_cases heq : other = key
  · rw [heq, AList.lookup_erase] at h
    cases h
  · rw [AList.lookup_erase_ne heq] at h
    exact ⟨heq, h⟩

theorem lookup_insert_cases {map : AList fun _ : κ => β}
    (h : (map.insert key value).lookup other = some found) :
    other = key ∧ found = value ∨ other ≠ key ∧ map.lookup other = some found := by
  by_cases heq : other = key
  · rw [heq, AList.lookup_insert] at h
    exact Or.inl ⟨heq, (Option.some.inj h).symm⟩
  · rw [AList.lookup_insert_ne heq] at h
    exact Or.inr ⟨heq, h⟩

theorem length_keys_insert {map : AList fun _ : κ => β} (hnew : map.lookup key = none) (value : β) :
    (map.insert key value).keys.length = map.keys.length + 1 := by
  have hnot : key ∉ map.keys := by
    rw [← AList.mem_keys, ← AList.lookup_eq_none]
    exact hnew
  rw [AList.keys_insert, List.erase_of_not_mem hnot, List.length_cons]

end AssociationList

end MlkvPlus.Lists
