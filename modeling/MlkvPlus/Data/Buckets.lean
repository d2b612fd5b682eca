import Mathlib.Data.List.Induction
import MlkvPlus.Data.Tiered

namespace MlkvPlus.Buckets

open Tiered

variable {ι κ W : Type} {hash : κ → ι} {width : Nat}

-- A table that never grows: a key goes into the bucket of its hash, a bucket has `width` slots,
-- and its entries are in the order of their use, oldest first.
structure Table (hash : κ → ι) (width : Nat) (W : Type) where
  width_pos : 0 < width
  bucket : ι → List (κ × W)
  fits : ∀ index, (bucket index).length ≤ width
  placed : ∀ index, ∀ entry ∈ bucket index, hash entry.1 = index
  distinct : ∀ index, ((bucket index).map Prod.fst).Nodup

def Table.empty (hash : κ → ι) (width : Nat) (W : Type) (hwidth : 0 < width) :
    Table hash width W where
  width_pos := hwidth
  bucket _ := []
  fits _ := Nat.zero_le _
  placed _ entry hentry := by cases hentry
  distinct _ := List.nodup_nil

variable [DecidableEq κ]

-- The entry becomes the newest one. A full bucket loses its oldest entry to a new key.
def place (width : Nat) (bucket : List (κ × W)) (entry : κ × W) : List (κ × W) :=
  let others := bucket.filter fun other => other.1 ≠ entry.1
  (if others.length < width then others else others.tail) ++ [entry]

theorem place_eq (width : Nat) (bucket : List (κ × W)) (entry : κ × W) :
    ∃ kept, kept <:+ bucket.filter (fun other => other.1 ≠ entry.1) ∧
      place width bucket entry = kept ++ [entry] := by
  rw [place]
  split
  · exact ⟨_, List.suffix_rfl, rfl⟩
  · exact ⟨_, List.tail_suffix _, rfl⟩

theorem mem_place {bucket : List (κ × W)} (h : other ∈ place width bucket entry) :
    other = entry ∨ other ∈ bucket ∧ other.1 ≠ entry.1 := by
  obtain ⟨kept, hkept, heq⟩ := place_eq width bucket entry
  rw [heq, List.mem_append, List.mem_singleton] at h
  refine h.symm.imp id fun hmem => ?_
  simpa using hkept.mem hmem

theorem nodup_place (entry : κ × W) (h : (bucket.map Prod.fst).Nodup) :
    ((place width bucket entry).map Prod.fst).Nodup := by
  obtain ⟨kept, hkept, heq⟩ := place_eq width bucket entry
  have hsublist : kept.Sublist bucket := hkept.sublist.trans List.filter_sublist
  rw [heq, List.map_append, List.map_singleton]
  refine (h.sublist (hsublist.map Prod.fst)).append (List.nodup_singleton _) ?_
  rw [List.disjoint_singleton, List.mem_map]
  rintro ⟨other, hother, hfst⟩
  have hne := (List.mem_filter.mp (hkept.mem hother)).2
  rw [hfst] at hne
  simp at hne

theorem length_place_le (hwidth : 0 < width) (entry : κ × W) (h : bucket.length ≤ width) :
    (place width bucket entry).length ≤ width := by
  have hothers := List.length_filter_le (fun other => decide (other.1 ≠ entry.1)) bucket
  rw [place]
  split
  · rw [List.length_append, List.length_singleton]
    omega
  · rw [List.length_append, List.length_singleton, List.length_tail]
    omega

-- Entries with other keys at the new end of a bucket stay there, if all fit in.
theorem suffix_place {bucket newest : List (κ × W)} (h : newest <:+ bucket)
    (hnew : entry.1 ∉ newest.map Prod.fst) (hlength : newest.length < width) :
    newest ++ [entry] <:+ place width bucket entry := by
  have hfilter : newest.filter (fun other => decide (other.1 ≠ entry.1)) = newest := by
    rw [List.filter_eq_self]
    intro other hother
    exact decide_eq_true fun heq => hnew (heq ▸ List.mem_map_of_mem hother)
  have hothers := h.filter fun other => decide (other.1 ≠ entry.1)
  rw [hfilter] at hothers
  rw [place]
  split
  case isTrue => exact List.suffix_append_self_iff.mpr hothers
  case isFalse hfull =>
    refine List.suffix_append_self_iff.mpr
      (List.suffix_of_suffix_length_le hothers (List.tail_suffix _) ?_)
    rw [List.length_tail]
    omega

variable [DecidableEq ι]

namespace Table

def insertOrAssign (table : Table hash width W) (entry : κ × W) : Table hash width W where
  width_pos := table.width_pos
  bucket := Function.update table.bucket (hash entry.1)
    (place width (table.bucket (hash entry.1)) entry)
  fits index := by
    rw [Function.update_apply]
    split
    · exact length_place_le table.width_pos entry (table.fits _)
    · exact table.fits index
  placed index other hother := by
    rw [Function.update_apply] at hother
    split at hother
    case isTrue hindex =>
      rw [hindex]
      rcases mem_place hother with rfl | ⟨hmem, -⟩
      · rfl
      · exact table.placed _ other hmem
    case isFalse => exact table.placed index other hother
  distinct index := by
    rw [Function.update_apply]
    split
    · exact nodup_place entry (table.distinct _)
    · exact table.distinct index

def insertAll (table : Table hash width W) (entries : List (κ × W)) : Table hash width W :=
  entries.foldl insertOrAssign table

def find (table : Table hash width W) (key : κ) : Option W :=
  (table.bucket (hash key)).lookup key

omit [DecidableEq ι] in
theorem find_eq_some_iff (table : Table hash width W) (key : κ) (value : W) :
    table.find key = some value ↔ (key, value) ∈ table.bucket (hash key) := by
  rw [find, List.lookup_eq_some_iff]
  constructor
  · rintro ⟨before, rest, heq, -⟩
    rw [heq]
    simp
  · intro hmem
    obtain ⟨before, rest, heq⟩ := List.append_of_mem hmem
    refine ⟨before, rest, heq, fun other hother => ?_⟩
    have hdistinct := table.distinct (hash key)
    rw [heq, List.map_append, List.map_cons, List.nodup_middle, List.nodup_cons] at hdistinct
    rw [bne_iff_ne]
    rintro rfl
    exact hdistinct.1 (List.mem_append_left _ (List.mem_map.mpr ⟨other, hother, rfl⟩))

omit [DecidableEq ι] in
theorem find_isSome_iff (table : Table hash width W) (key : κ) :
    (table.find key).isSome = true ↔ key ∈ (table.bucket (hash key)).map Prod.fst := by
  rw [Option.isSome_iff_exists]
  simp only [find_eq_some_iff, List.mem_map]
  constructor
  · rintro ⟨value, hmem⟩
    exact ⟨(key, value), hmem, rfl⟩
  · rintro ⟨entry, hmem, rfl⟩
    exact ⟨entry.2, hmem⟩

theorem bucket_insertOrAssign (table : Table hash width W) (entry : κ × W) (index : ι) :
    (table.insertOrAssign entry).bucket index =
      if hash entry.1 = index then place width (table.bucket index) entry
      else table.bucket index := by
  rw [insertOrAssign]
  dsimp only
  rw [Function.update_apply]
  by_cases hindex : hash entry.1 = index
  · rw [if_pos hindex, if_pos hindex.symm, hindex]
  · rw [if_neg hindex, if_neg (Ne.symm hindex)]

theorem insertAll_append (table : Table hash width W) (first second : List (κ × W)) :
    table.insertAll (first ++ second) = (table.insertAll first).insertAll second :=
  List.foldl_append

-- What the table still has is what was written last.
theorem find_insertOrAssign {table : Table hash width W}
    (h : (table.insertOrAssign entry).find key = some value) :
    Function.update table.find entry.1 (some entry.2) key = some value := by
  rw [find_eq_some_iff, bucket_insertOrAssign] at h
  by_cases hkey : key = entry.1
  · rw [hkey, if_pos rfl] at h
    rcases mem_place h with heq | ⟨-, hne⟩
    · rw [hkey, Function.update_self, ← heq]
    · exact absurd rfl hne
  · rw [Function.update_of_ne hkey, find_eq_some_iff]
    split at h
    · rcases mem_place h with rfl | ⟨hmem, -⟩
      · exact absurd rfl hkey
      · exact hmem
    · exact h

theorem find_insertAll {table : Table hash width W}
    (h : (table.insertAll entries).find key = some value) :
    writeAll table.find entries key = some value := by
  induction entries generalizing table with
  | nil => exact h
  | cons entry rest ih =>
    have hrest := @ih (table.insertOrAssign entry) h
    rw [writeAll_cons]
    by_cases hkey : key ∈ rest.map Prod.fst
    · rw [← hrest]
      exact writeAll_congr fun hnot => absurd hkey hnot
    · rw [writeAll_of_notMem hkey] at hrest ⊢
      exact find_insertOrAssign hrest

theorem suffix_insertAll (table : Table hash width W) {entries : List (κ × W)}
    (hdistinct : (entries.map Prod.fst).Nodup)
    (hlength : (entries.filter fun entry => hash entry.1 = index).length ≤ width) :
    entries.filter (fun entry => hash entry.1 = index) <:+
      (table.insertAll entries).bucket index := by
  induction entries using List.reverseRecOn with
  | nil => exact List.nil_suffix
  | append_singleton entries entry ih =>
    rw [List.map_append, List.nodup_append_comm, List.map_singleton, List.singleton_append,
      List.nodup_cons] at hdistinct
    have hbucket : (table.insertAll (entries ++ [entry])).bucket index =
        if hash entry.1 = index then place width ((table.insertAll entries).bucket index) entry
        else (table.insertAll entries).bucket index := by
      rw [insertAll_append]
      exact bucket_insertOrAssign _ entry index
    by_cases hindex : hash entry.1 = index
    · have hfilter : (entries ++ [entry]).filter (fun entry => hash entry.1 = index) =
          entries.filter (fun entry => hash entry.1 = index) ++ [entry] := by
        rw [List.filter_append, List.filter_singleton, decide_eq_true hindex]
        rfl
      rw [hfilter, List.length_append, List.length_singleton] at hlength
      rw [hfilter, hbucket, if_pos hindex]
      refine suffix_place (ih hdistinct.2 (Nat.le_of_succ_le hlength)) (fun hmem => ?_) hlength
      exact hdistinct.1 (List.map_subset _ (List.filter_subset_self _) hmem)
    · have hfilter : (entries ++ [entry]).filter (fun entry => hash entry.1 = index) =
          entries.filter (fun entry => hash entry.1 = index) := by
        rw [List.filter_append, List.filter_singleton, decide_eq_false hindex]
        exact List.append_nil _
      rw [hfilter] at hlength ⊢
      rw [hbucket, if_neg hindex]
      exact ih hdistinct.2 hlength

-- All of a batch of distinct keys are in the table afterwards if and only if no bucket gets
-- more of them than it has slots.
theorem find_insertAll_isSome_iff (table : Table hash width W)
    (hdistinct : (entries.map Prod.fst).Nodup) :
    (∀ entry ∈ entries, ((table.insertAll entries).find entry.1).isSome = true) ↔
      ∀ index, (entries.filter fun entry => hash entry.1 = index).length ≤ width := by
  simp only [find_isSome_iff]
  constructor
  · intro hfound index
    have hnodup : ((entries.filter fun entry => hash entry.1 = index).map Prod.fst).Nodup :=
      hdistinct.sublist (List.filter_sublist.map _)
    have hsubset : (entries.filter fun entry => hash entry.1 = index).map Prod.fst ⊆
        ((table.insertAll entries).bucket index).map Prod.fst := by
      intro key hkey
      obtain ⟨entry, hentry, rfl⟩ := List.mem_map.mp hkey
      obtain ⟨hmem, hindex⟩ := List.mem_filter.mp hentry
      have hplace := hfound entry hmem
      rwa [of_decide_eq_true hindex] at hplace
    calc (entries.filter fun entry => hash entry.1 = index).length
        = ((entries.filter fun entry => hash entry.1 = index).map Prod.fst).length :=
          (List.length_map _).symm
      _ ≤ (((table.insertAll entries).bucket index).map Prod.fst).length :=
          hnodup.length_le_of_subset hsubset
      _ = ((table.insertAll entries).bucket index).length := List.length_map _
      _ ≤ width := (table.insertAll entries).fits index
  · intro hlength entry hentry
    have hsuffix := table.suffix_insertAll hdistinct (hlength (hash entry.1))
    refine List.mem_map_of_mem (hsuffix.mem (List.mem_filter.mpr ⟨hentry, ?_⟩))
    exact decide_eq_true rfl

end Table

end MlkvPlus.Buckets
