import Mathlib.Data.List.Perm.Basic
import MlkvPlus.Sst.FilePicker.Calls

namespace MlkvPlus.Sst

variable {K : Type}

section Saver

variable {rocks : RocksDB K} (hrocks : rocks.Saves) {context : GetContext K}
include hrocks

theorem RocksDB.Saves.keepsKey : KeepsKey GetContext.userKey rocks.saveValue :=
  fun context entry saved h hmore => (hrocks.more context entry saved h hmore).1

-- Versions in two parts: the second part counts if the first one does not settle the lookup.
theorem saveEntries_append_of_searches
    (h : saveEntries rocks.saveValue context first = .returned (.ok, next))
    (hkeys : ∀ entry ∈ first, entry.userKey = context.userKey)
    (hstart : context.state.searches = true) (hstate : next.state.searches = true)
    (second : List (Entry K)) :
    saveEntries rocks.saveValue context (first ++ second) =
        saveEntries rocks.saveValue next second ∧
      next.userKey = context.userKey ∧
      next.maxCoveringTombstoneSeq = context.maxCoveringTombstoneSeq := by
  induction first generalizing context with
  | nil =>
    cases h
    exact ⟨rfl, rfl, rfl⟩
  | cons entry first ih =>
    rw [List.cons_append]
    cases hsave : rocks.saveValue context entry with
    | threw what | aborted reason =>
      rw [saveEntries, hsave] at h
      cases h
    | returned saved =>
      by_cases hread : saved.readStatus = .ok
      case neg =>
        rw [saveEntries_of_failed hsave first hread] at h
        exact absurd (Prod.mk.inj (Outcome.returned.inj h)).1 hread
      cases hmore : saved.more with
      | true =>
        obtain ⟨hkey, hseq, hsearches⟩ := hrocks.more context entry saved hsave hmore
        rw [saveEntries_of_more hsave _ hread hmore] at h ⊢
        obtain ⟨hrest, hnext, hnextSeq⟩ := ih h (fun other hother =>
          (hkeys other (List.mem_cons_of_mem _ hother)).trans hkey.symm) hsearches
        exact ⟨hrest, hnext.trans hkey, hnextSeq.trans hseq⟩
      | false =>
        rw [saveEntries_of_ends hsave first hread hmore] at h
        cases h
        rw [hrocks.ends context entry saved (hkeys entry List.mem_cons_self) hstart hsave
          hmore hread] at hstate
        cases hstate

-- A result that ends the search of the files.
def Settled (result : Outcome (Status × GetContext K)) : Prop :=
  ∀ next, result = .returned (.ok, next) → next.state.searches = false

theorem saveEntries_append_of_settled (h : saveEntries rocks.saveValue context first = result)
    (hstart : context.state.searches = true) (hresult : Settled result) (second : List (Entry K)) :
    saveEntries rocks.saveValue context (first ++ second) = result := by
  induction first generalizing context with
  | nil =>
    have hfalse := hresult context h.symm
    rw [hstart] at hfalse
    cases hfalse
  | cons entry first ih =>
    rw [List.cons_append]
    cases hsave : rocks.saveValue context entry with
    | threw what | aborted reason =>
      rw [saveEntries, hsave] at h ⊢
      exact h
    | returned saved =>
      by_cases hread : saved.readStatus = .ok
      case neg =>
        rw [saveEntries_of_failed hsave _ hread] at h ⊢
        exact h
      cases hmore : saved.more with
      | true =>
        rw [saveEntries_of_more hsave _ hread hmore] at h ⊢
        exact ih h (hrocks.more context entry saved hsave hmore).2.2
      | false =>
        rw [saveEntries_of_ends hsave _ hread hmore] at h ⊢
        exact h

end Saver

section Files

variable [LinearOrder K] {key : K} {snapshot : Nat} {rocks : RocksDB K} {context : GetContext K}

theorem SstFile.mem_visible {file : SstFile K} :
    entry ∈ file.visible key snapshot ↔
      entry ∈ file.entries ∧ entry.userKey = key ∧ entry.sequence ≤ snapshot := by
  rw [SstFile.visible, List.mem_filter, decide_eq_true_eq]

-- Under a range deletion of the memtables no file is looked at.
theorem Version.search_covered (hseq : 0 < context.maxCoveringTombstoneSeq.getD 0)
    (files : List (PickedFile K)) :
    Version.search rocks snapshot context files = Version.finish context := by
  cases files with
  | nil => rfl
  | cons file rest => rw [Version.search, if_pos hseq]

section Uncovered

variable (hrocks : rocks.Saves) (hseq : ¬0 < context.maxCoveringTombstoneSeq.getD 0)
include hrocks hseq

theorem Version.search_file (file : SstFile K) (rest : List (PickedFile K)) :
    Version.search rocks snapshot context (.readable file :: rest) =
      match saveEntries rocks.saveValue context (file.visible context.userKey snapshot) with
      | .returned (status, next) =>
        if status ≠ .ok then .returned (status, next)
        else
          match next.state with
          | .kNotFound | .kMerge => Version.search rocks snapshot next rest
          | .kFound => .returned (.ok, next)
          | .kDeleted => .returned (.notFound, next)
          | .kCorrupt => .returned (.corruption "corrupted key for ", next)
          | .kUnexpectedBlobIndex =>
            .returned (.notSupported ("Encounter unexpected blob index. Please open DB " ++
              "with ROCKSDB_NAMESPACE::blob_db::BlobDB instead."), next)
          | .kMergeOperatorFailed => .returned (.corruption "kMergeOperatorFailed", next)
      | .threw what => .threw what
      | .aborted reason => .aborted reason := by
  rw [Version.search, if_neg hseq, TableCache.get_readable]
  exact SstFile.get_eq hrocks.other hrocks.keepsKey file snapshot context ▸ rfl

theorem Version.search_goes_on
    (hget : saveEntries rocks.saveValue context (file.visible context.userKey snapshot) =
      .returned (.ok, next)) (hstate : next.state.searches = true) (rest : List (PickedFile K)) :
    Version.search rocks snapshot context (.readable file :: rest) =
      Version.search rocks snapshot next rest := by
  rw [Version.search_file hrocks hseq, hget]
  dsimp only
  rw [if_neg (not_not.mpr rfl)]
  cases hnext : next.state with
  | kNotFound => rfl
  | kMerge => rfl
  | _ =>
    rw [hnext] at hstate
    cases hstate

theorem Version.search_settled
    (hfirst : saveEntries rocks.saveValue context (first.visible context.userKey snapshot) =
      result)
    (hsecond : saveEntries rocks.saveValue context (second.visible context.userKey snapshot) =
      result) (hresult : Settled result) (rest others : List (PickedFile K)) :
    Version.search rocks snapshot context (.readable first :: rest) =
      Version.search rocks snapshot context (.readable second :: others) := by
  rw [Version.search_file hrocks hseq, Version.search_file hrocks hseq, hfirst, hsecond]
  cases result with
  | threw what => rfl
  | aborted reason => rfl
  | returned answer =>
    obtain ⟨status, next⟩ := answer
    dsimp only
    split_ifs with hstatus
    · rfl
    · have hstate := hresult next (by rw [not_not.mp hstatus])
      cases hnext : next.state with
      | kNotFound | kMerge =>
        rw [hnext] at hstate
        cases hstate
      | _ => rfl

omit hseq in
theorem Version.search_cases (file : SstFile K) (hstate : context.state.searches = true) :
    (∃ next, next.userKey = context.userKey ∧
      next.maxCoveringTombstoneSeq = context.maxCoveringTombstoneSeq ∧
      next.state.searches = true ∧
      saveEntries rocks.saveValue context (file.visible context.userKey snapshot) =
        .returned (.ok, next) ∧
      ∀ older, saveEntries rocks.saveValue context
        (file.visible context.userKey snapshot ++ older) =
          saveEntries rocks.saveValue next older) ∨
    ∃ result, Settled result ∧
      ∀ older, saveEntries rocks.saveValue context
        (file.visible context.userKey snapshot ++ older) = result := by
  have hkeys : ∀ entry ∈ file.visible context.userKey snapshot,
      entry.userKey = context.userKey := fun entry hentry => (SstFile.mem_visible.mp hentry).2.1
  obtain ⟨result, hresult⟩ : ∃ result, saveEntries rocks.saveValue context
    (file.visible context.userKey snapshot) = result := ⟨_, rfl⟩
  by_cases hgoes : ∃ next, result = .returned (.ok, next) ∧ next.state.searches = true
  · obtain ⟨next, rfl, hnext⟩ := hgoes
    have happend := saveEntries_append_of_searches hrocks hresult hkeys hstate hnext
    obtain ⟨-, hkey, hsame⟩ := happend []
    exact Or.inl ⟨next, hkey, hsame, hnext, hresult, fun older => (happend older).1⟩
  · have hsettled : Settled result := fun next hnext =>
      Bool.eq_false_iff.mpr fun hsearches => hgoes ⟨next, hnext, hsearches⟩
    exact Or.inr ⟨result, hsettled, saveEntries_append_of_settled hrocks hresult hstate hsettled⟩

end Uncovered

theorem Version.search_whole (hrocks : rocks.Saves) {files : List (SstFile K)}
    (hwhole : whole.visible context.userKey snapshot =
      files.flatMap fun file => file.visible context.userKey snapshot)
    (hstate : context.state.searches = true) :
    Version.search rocks snapshot context (files.map .readable) =
      Version.search rocks snapshot context [.readable whole] := by
  by_cases hseq : 0 < context.maxCoveringTombstoneSeq.getD 0
  · rw [Version.search_covered hseq, Version.search_covered hseq]
  induction files generalizing whole context with
  | nil =>
    refine (Version.search_goes_on hrocks hseq ?_ hstate []).symm
    rw [hwhole]
    rfl
  | cons file files ih =>
    rw [List.flatMap_cons] at hwhole
    rw [List.map_cons]
    rcases Version.search_cases hrocks file hstate with
      ⟨next, hkey, hsame, hnext, hfile, happend⟩ | ⟨result, hsettled, happend⟩
    · -- The older versions alone are a file as well.
      have hsorted := whole.sorted.filter
        fun entry => decide (entry.userKey = context.userKey ∧ entry.sequence ≤ snapshot)
      change (whole.visible context.userKey snapshot).Pairwise Entry.Before at hsorted
      rw [hwhole] at hsorted
      let older : SstFile K := ⟨_, (List.pairwise_append.mp hsorted).2.1⟩
      have holder : older.visible next.userKey snapshot =
          files.flatMap fun file => file.visible next.userKey snapshot := by
        rw [hkey]
        refine List.filter_eq_self.mpr fun entry hentry => decide_eq_true ?_
        obtain ⟨file, -, hvisible⟩ := List.mem_flatMap.mp hentry
        exact (SstFile.mem_visible.mp hvisible).2
      have hnextSeq : ¬0 < next.maxCoveringTombstoneSeq.getD 0 := hsame ▸ hseq
      rw [Version.search_goes_on hrocks hseq hfile hnext, ih holder hnext hnextSeq,
        Version.search_file hrocks hseq, Version.search_file hrocks hnextSeq, hwhole, happend,
        holder, hkey]
    · refine Version.search_settled hrocks hseq ?_ (hwhole ▸ happend _) hsettled _ _
      rw [← happend [], List.append_nil]

-- Where both files have versions of a key, those of the first are the newer ones.
def SstFile.Newer (first second : SstFile K) : Prop :=
  ∀ entry ∈ first.entries, ∀ older ∈ second.entries, entry.userKey = older.userKey →
    older.sequence < entry.sequence

instance (first second : SstFile K) : Decidable (first.Newer second) :=
  inferInstanceAs (Decidable (∀ entry ∈ first.entries, ∀ older ∈ second.entries, _ → _))

instance (first second : Entry K) : Decidable (first.Before second) :=
  inferInstanceAs (Decidable (_ ∨ _))

theorem Entry.Before.ne {first second : Entry K} (h : first.Before second) : first ≠ second := by
  rintro rfl
  rcases h with hlt | ⟨-, hlt⟩
  · exact lt_irrefl _ hlt
  · exact lt_irrefl _ hlt

theorem Entry.Before.asymm {first second : Entry K} (h : first.Before second) :
    ¬second.Before first := by
  rintro (hlt | ⟨heq, hlt⟩)
  · rcases h with hlt' | ⟨heq', -⟩
    · exact lt_asymm hlt hlt'
    · exact hlt.ne heq'.symm
  · rcases h with hlt' | ⟨-, hlt'⟩
    · exact hlt'.ne heq.symm
    · exact lt_asymm hlt hlt'

-- Files with the newer versions first give the versions in the order of one file of all entries.
theorem visible_of_newer {files : List (SstFile K)} (hnewer : files.Pairwise SstFile.Newer)
    {whole : SstFile K} (hentries : ∀ entry, entry ∈ whole.entries ↔ ∃ file ∈ files, entry ∈ file.entries) :
    whole.visible key snapshot = files.flatMap fun file => file.visible key snapshot := by
  have hwhole : (whole.visible key snapshot).Pairwise Entry.Before := whole.sorted.filter _
  have hfiles : (files.flatMap fun file => file.visible key snapshot).Pairwise Entry.Before := by
    refine List.pairwise_flatMap.mpr ⟨fun file _ => file.sorted.filter _, hnewer.imp ?_⟩
    intro first second hnewer entry hentry older holder
    obtain ⟨hmem, hkey, -⟩ := SstFile.mem_visible.mp hentry
    obtain ⟨hmem', hkey', -⟩ := SstFile.mem_visible.mp holder
    exact Or.inr ⟨hkey.trans hkey'.symm, hnewer entry hmem older hmem' (hkey.trans hkey'.symm)⟩
  refine List.Perm.eq_of_pairwise (fun first second _ _ h h' => absurd h' h.asymm) hwhole hfiles ?_
  refine (List.perm_ext_iff_of_nodup (hwhole.imp Entry.Before.ne) (hfiles.imp Entry.Before.ne)).mpr ?_
  intro entry
  simp only [SstFile.mem_visible, List.mem_flatMap, hentries]
  constructor
  · rintro ⟨⟨file, hfile, hentry⟩, hvisible⟩
    exact ⟨file, hfile, hentry, hvisible⟩
  · rintro ⟨file, hfile, hentry, hvisible⟩
    exact ⟨⟨file, hfile, hentry⟩, hvisible⟩

end Files

section Levels

variable [LinearOrder K]

-- The files of a version in the order of a search.
def VersionStorageInfo.files (storage : VersionStorageInfo K) : List (FdWithKeyRange K) :=
  storage.levelFilesBrief.flatten

-- Flushes go to the front of level 0, and compactions move versions down: the files of level 0
-- are newest first, and a level has newer versions than those below it.
structure VersionStorageInfo.NewestFirst (storage : VersionStorageInfo K) : Prop where
  levelZero : ∀ files ∈ storage.levelFilesBrief.head?,
    files.Pairwise fun first second => first.file.Newer second.file
  levels : storage.levelFilesBrief.Pairwise fun upper lower =>
    ∀ first ∈ upper, ∀ second ∈ lower, first.file.Newer second.file

theorem newer_of_before {first second : FdWithKeyRange K}
    (h : first.largestKey.Before second.smallestKey) : first.file.Newer second.file := by
  intro entry hentry older holder hkey
  have hbefore : entry.internalKey.Before older.internalKey :=
    (h.trans_not_before (second.smallest_le older holder)).of_not_before
      (first.le_largest entry hentry)
  rcases hbefore with hlt | ⟨-, hlater⟩
  · exact absurd hkey hlt.ne
  · exact hlater

theorem VersionStorageInfo.NewestFirst.files {storage : VersionStorageInfo K}
    (h : storage.NewestFirst) : (storage.files.map FdWithKeyRange.file).Pairwise SstFile.Newer := by
  rw [List.pairwise_map, VersionStorageInfo.files, List.pairwise_flatten]
  refine ⟨fun files hfiles => ?_, h.levels⟩
  obtain ⟨level, hlevel⟩ := List.mem_iff_getElem?.mp hfiles
  rcases Nat.eq_zero_or_pos level with rfl | hpos
  · exact h.levelZero files (by rw [List.head?_eq_getElem?, hlevel]; rfl)
  · exact (FilePicker.ascending_of_level hpos hlevel).imp newer_of_before

theorem visible_of_not_asked {storage : VersionStorageInfo K}
    (h : FilePicker.asks storage key snapshot level files f = false) :
    f.file.visible key snapshot = [] := by
  refine List.eq_nil_iff_forall_not_mem.mpr fun entry hentry => ?_
  obtain ⟨hmem, hkey, hsequence⟩ := SstFile.mem_visible.mp hentry
  have hrange : f.HasInRange key := by
    rw [← hkey]
    exact ⟨InternalKey.userKey_le_of_not_before (f.smallest_le entry hmem),
      InternalKey.userKey_le_of_not_before (f.le_largest entry hmem)⟩
  have hlargest : ¬f.largestKey.Before ⟨key, snapshot⟩ := fun hbefore =>
    f.le_largest entry hmem (hbefore.trans_not_before fun hlate => by
      rcases hlate with hlt | ⟨-, hlt⟩
      · exact hlt.ne hkey
      · exact hlt.not_ge hsequence)
  rw [FilePicker.asks] at h
  split at h
  · simp [hrange] at h
  · simp [hrange, hlargest] at h

theorem visible_hitsFrom {storage : VersionStorageInfo K} (files : List (FdWithKeyRange K)) :
    ((FilePicker.hitsFrom (FilePicker.asks storage key snapshot level all) level files).flatMap
        fun hit => hit.file.file.visible key snapshot) =
      files.flatMap fun f => f.file.visible key snapshot := by
  induction files with
  | nil => rfl
  | cons f rest ih =>
    rw [FilePicker.hitsFrom, List.flatMap_cons]
    split
    · rw [List.flatMap_cons, ih]
    · rename_i hnot
      rw [ih, visible_of_not_asked (Bool.eq_false_iff.mpr hnot), List.nil_append]

theorem visible_hits (storage : VersionStorageInfo K) (key : K) (snapshot : Nat) :
    ((FilePicker.hits storage key snapshot).flatMap fun hit => hit.file.file.visible key snapshot) =
      storage.files.flatMap fun f => f.file.visible key snapshot := by
  suffices h : ∀ level levels, ((FilePicker.levelsHits storage key snapshot level levels).flatMap
      fun hit => hit.file.file.visible key snapshot) =
        levels.flatten.flatMap fun f => f.file.visible key snapshot from h 0 _
  intro level levels
  induction levels generalizing level with
  | nil => rfl
  | cons files rest ih =>
    rw [FilePicker.levelsHits, List.flatMap_append, ih, visible_hitsFrom, List.flatten_cons,
      List.flatMap_append]

-- The files handed out one after the other until null, as a search gets them.
def FilePicker.Picks (storage : VersionStorageInfo K) (key : K) (snapshot : Nat)
    (files : List (SstFile K)) : Prop :=
  ∃ picker, FilePicker.new storage key snapshot = .returned picker ∧
    ∀ fuel, storage.levelFilesBrief.length < fuel → ∃ found : List (Hit K),
      files = found.map (fun hit => hit.file.file) ∧
      FilePicker.getNextFiles storage key snapshot fuel (found.length + 1) picker =
        some (.returned (found.map some ++ [none]))

theorem FilePicker.picks_hits (storage : VersionStorageInfo K) (key : K) (snapshot : Nat) :
    FilePicker.Picks storage key snapshot
      ((FilePicker.hits storage key snapshot).map fun hit => hit.file.file) := by
  obtain ⟨picker, hnew, hcalls⟩ := FilePicker.exists_tracks storage key snapshot
  refine ⟨picker, hnew, fun fuel hfuel => ⟨_, rfl, ?_⟩⟩
  rw [FilePicker.getNextFiles_tracks hcalls hfuel, List.range_succ, List.map_append]
  refine congrArg (fun results => some (Outcome.returned results)) (congrArg₂ (· ++ ·) ?_ ?_)
  · refine List.ext_getElem (by simp) fun i hi hi' => ?_
    simp only [List.length_map, List.length_range] at hi
    simp [hi]
  · simp

-- A file of all entries says which versions the picked files bring, in which order.
theorem visible_picked {storage : VersionStorageInfo K} (hordered : storage.NewestFirst)
    {whole : SstFile K}
    (hentries : ∀ entry, entry ∈ whole.entries ↔ ∃ f ∈ storage.files, entry ∈ f.file.entries)
    (key : K) (snapshot : Nat) :
    whole.visible key snapshot =
      ((FilePicker.hits storage key snapshot).map fun hit => hit.file.file).flatMap
        fun file => file.visible key snapshot := by
  rw [List.flatMap_map, visible_hits, visible_of_newer hordered.files, List.flatMap_map]
  intro entry
  rw [hentries]
  simp only [List.mem_map, exists_exists_and_eq_and]

section TwoLevels

-- An indexer that leaves every file of the next level in the bounds.
def FileIndexer.all (levels : List (List (FdWithKeyRange K))) :
    FileIndexer levels where
  getNextLevelIndex level _ _ _ := (0, ((levels.getD (level + 1) []).length : Int) - 1)
  encloses key level index files f next _ _ _ hnext _ := by
    rw [List.getD_eq_getElem?_getD, hnext]
    refine ⟨le_rfl, by simp, by simp, fun i g _ hlt => absurd hlt (by simp), fun i g hg hlt => ?_⟩
    obtain ⟨hi, -⟩ := List.getElem?_eq_some_iff.mp hg
    simp at hlt
    omega

-- Versions of key 7 in level 0 and at the end of one file and the start of the next in level 1.
def twoLevels : VersionStorageInfo Nat where
  levelFilesBrief := [
    [⟨⟨[⟨7, 5, .kTypeValue, [5]⟩], by decide⟩, ⟨7, 5⟩, ⟨7, 5⟩, by decide, by decide, by decide⟩],
    [⟨⟨[⟨3, 1, .kTypeValue, [1]⟩, ⟨7, 3, .kTypeValue, [3]⟩], by decide⟩, ⟨3, 1⟩, ⟨7, 3⟩,
        by decide, by decide, by decide⟩,
      ⟨⟨[⟨7, 2, .kTypeValue, [2]⟩, ⟨9, 4, .kTypeValue, [4]⟩], by decide⟩, ⟨7, 2⟩, ⟨9, 4⟩,
        by decide, by decide, by decide⟩]]
  sorted := by decide
  fileIndexer := .all _

def allEntries : SstFile Nat where
  entries := [⟨3, 1, .kTypeValue, [1]⟩, ⟨7, 5, .kTypeValue, [5]⟩, ⟨7, 3, .kTypeValue, [3]⟩,
    ⟨7, 2, .kTypeValue, [2]⟩, ⟨9, 4, .kTypeValue, [4]⟩]
  sorted := by decide

theorem twoLevels_newestFirst : twoLevels.NewestFirst where
  levelZero := by decide
  levels := by decide

theorem mem_allEntries (entry : Entry Nat) :
    entry ∈ allEntries.entries ↔ ∃ f ∈ twoLevels.files, entry ∈ f.file.entries := by
  simp only [allEntries, twoLevels, VersionStorageInfo.files, List.flatten_cons, List.flatten_nil,
    List.append_nil, List.cons_append, List.nil_append, List.mem_cons, List.not_mem_nil,
    exists_eq_or_imp, exists_eq_left, or_false]
  tauto

end TwoLevels

-- The GDS lookup of a key that got nothing but values.
theorem GDSDBAccessor.search_versions {files : List (SstFile K)}
    (hvalues : ∀ entry ∈ files.flatMap fun file => file.visible key snapshot,
      entry.type = .kTypeValue) (value : Bytes) :
    search rocks operator key snapshot value (files.map .readable) =
      match (files.flatMap fun file => file.visible key snapshot).head? with
      | some entry => .returned (true, .ok, entry.value)
      | none => .returned (false, .ok, value) := by
  induction files with
  | nil => rfl
  | cons file files ih =>
    rw [List.flatMap_cons] at hvalues ⊢
    rw [List.map_cons]
    cases hnewest : file.newest key snapshot with
    | none =>
      have hnil : file.visible key snapshot = [] := List.head?_eq_none_iff.mp hnewest
      rw [search_none hnewest, hnil, List.nil_append]
      exact ih fun entry hentry => hvalues entry (List.mem_append_right _ hentry)
    | some entry =>
      obtain ⟨rest, hvisible⟩ := List.head?_eq_some_iff.mp hnewest
      have htype := hvalues entry (by rw [hvisible]; exact List.mem_cons_self)
      rw [search_value hnewest htype, hvisible]
      rfl

end Levels

end MlkvPlus.Sst
