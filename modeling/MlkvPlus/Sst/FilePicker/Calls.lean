import MlkvPlus.Sst.FilePicker

namespace MlkvPlus.Sst

variable {K : Type} [LinearOrder K]

namespace InternalKey

variable {first second third : InternalKey K}

theorem Before.userKey_le (h : first.Before second) : first.userKey ≤ second.userKey := by
  rcases h with hlt | ⟨heq, -⟩
  · exact hlt.le
  · exact heq.le

theorem userKey_le_of_not_before (h : ¬first.Before second) : second.userKey ≤ first.userKey :=
  le_of_not_gt fun hlt => h (Or.inl hlt)

theorem Before.trans_not_before (h : first.Before second) (hthird : ¬third.Before second) :
    first.Before third := by
  rcases lt_or_eq_of_le (userKey_le_of_not_before hthird) with hlt | heq
  · exact Or.inl (h.userKey_le.trans_lt hlt)
  · have hsequence : third.sequence ≤ second.sequence :=
      Nat.le_of_not_lt fun hlater => hthird (Or.inr ⟨heq.symm, hlater⟩)
    rcases h with hlt | ⟨hsame, hlater⟩
    · exact Or.inl (hlt.trans_eq heq)
    · exact Or.inr ⟨hsame.trans heq, hsequence.trans_lt hlater⟩

theorem Before.of_not_before (h : first.Before second) (hthird : ¬first.Before third) :
    third.Before second := by
  rcases lt_or_eq_of_le (userKey_le_of_not_before hthird) with hlt | heq
  · exact Or.inl (hlt.trans_le h.userKey_le)
  · have hsequence : first.sequence ≤ third.sequence :=
      Nat.le_of_not_lt fun hlater => hthird (Or.inr ⟨heq.symm, hlater⟩)
    rcases h with hlt | ⟨hsame, hlater⟩
    · exact Or.inl (heq.trans_lt hlt)
    · exact Or.inr ⟨heq.trans hsame, hlater.trans_le hsequence⟩

theorem Before.trans (h : first.Before second) (hsecond : second.Before third) :
    first.Before third := by
  rcases h with hlt | ⟨hsame, hlater⟩
  · exact Or.inl (hlt.trans_le hsecond.userKey_le)
  · rcases hsecond with hlt | ⟨hsame', hlater'⟩
    · exact Or.inl (hsame.trans_lt hlt)
    · exact Or.inr ⟨hsame.trans hsame', hlater'.trans hlater⟩

end InternalKey

namespace FdWithKeyRange

def HasInRange (f : FdWithKeyRange K) (key : K) : Prop :=
  f.smallestKey.userKey ≤ key ∧ key ≤ f.largestKey.userKey

instance (f : FdWithKeyRange K) (key : K) : Decidable (f.HasInRange key) :=
  inferInstanceAs (Decidable (_ ∧ _))

variable {f : FdWithKeyRange K} {key : K}

theorem cmpSmallest_lt_iff : f.cmpSmallest key = .lt ↔ key < f.smallestKey.userKey :=
  compare_lt_iff_lt

theorem cmpSmallest_gt_iff : f.cmpSmallest key = .gt ↔ f.smallestKey.userKey < key :=
  compare_gt_iff_gt

theorem cmpLargest_of_le (h : f.smallestKey.userKey ≤ key) :
    f.cmpLargest key = compare key f.largestKey.userKey :=
  if_neg fun hlt => absurd (cmpSmallest_lt_iff.mp hlt) h.not_gt

theorem out_of_range_iff :
    (f.cmpSmallest key = .lt ∨ f.cmpLargest key = .gt) ↔ ¬f.HasInRange key := by
  rw [cmpSmallest_lt_iff]
  rcases lt_or_ge key f.smallestKey.userKey with hlt | hge
  · simp [HasInRange, hlt]
  · rw [cmpLargest_of_le hge, compare_gt_iff_gt]
    simp [HasInRange, hge]

theorem userKey_le (f : FdWithKeyRange K) : f.smallestKey.userKey ≤ f.largestKey.userKey :=
  InternalKey.userKey_le_of_not_before f.ordered

end FdWithKeyRange

def Ascending (files : List (FdWithKeyRange K)) : Prop :=
  files.Pairwise fun first second => first.largestKey.Before second.smallestKey

section Ascending

variable {files : List (FdWithKeyRange K)}

theorem Ascending.before (h : Ascending files) {i j : Nat} {first second : FdWithKeyRange K}
    (hij : i < j) (hfirst : files[i]? = some first) (hsecond : files[j]? = some second) :
    first.largestKey.Before second.smallestKey := by
  obtain ⟨hi, rfl⟩ := List.getElem?_eq_some_iff.mp hfirst
  obtain ⟨hj, rfl⟩ := List.getElem?_eq_some_iff.mp hsecond
  exact List.pairwise_iff_getElem.mp h i j hi hj hij

-- The largest keys ascend with the files, so those before a key come first.
theorem Ascending.largest_before (h : Ascending files) {i j : Nat} (hij : i ≤ j)
    (hfirst : files[i]? = some first) (hsecond : files[j]? = some second)
    (hbefore : second.largestKey.Before ikey) : first.largestKey.Before ikey := by
  rcases Nat.lt_or_eq_of_le hij with hlt | rfl
  · exact ((h.before hlt hfirst hsecond).trans_not_before second.ordered).trans hbefore
  · rw [hfirst] at hsecond
    cases hsecond
    exact hbefore

theorem findFileInRange_spec (h : Ascending files) (ikey : InternalKey K) {left right : Nat}
    (hleft : left ≤ right) (hright : right ≤ files.length) :
    left ≤ findFileInRange files ikey left right ∧ findFileInRange files ikey left right ≤ right ∧
      (∀ i f, left ≤ i → i < findFileInRange files ikey left right → files[i]? = some f →
        f.largestKey.Before ikey) ∧
      ∀ f, findFileInRange files ikey left right < right →
        files[findFileInRange files ikey left right]? = some f → ¬f.largestKey.Before ikey := by
  have hspec := @Search.lowerBound_spec
    (fun index => files[index]?.any fun f => decide (f.largestKey.Before ikey)) left (right - left) ?_
  · obtain ⟨hlow, hhigh, hbefore, hfound⟩ := hspec
    refine ⟨hlow, hhigh.trans_eq (by omega), fun i f hi hlt hf => ?_, fun f hlt hf => ?_⟩
    · simpa [hf] using hbefore i hi hlt
    · have hfalse := hfound (hlt.trans_eq (by omega))
      rw [findFileInRange] at hf
      simpa [hf] using hfalse
  · intro i j hi hij hj hbefore
    have hj' : j < files.length := by omega
    have hi' : i < files.length := by omega
    simp only [List.getElem?_eq_getElem hj', Option.any_some, decide_eq_true_eq] at hbefore
    simp only [List.getElem?_eq_getElem hi', Option.any_some, decide_eq_true_eq]
    exact h.largest_before hij (List.getElem?_eq_getElem hi') (List.getElem?_eq_getElem hj') hbefore

end Ascending

theorem Encloses.all {key : K} (h : Encloses key files left right) :
    Encloses key files left ((files.length : Int) - 1) where
  nonneg := h.nonneg
  le_succ := by
    have hle := h.le_succ
    have hlt := h.lt_length
    omega
  lt_length := by omega
  below := h.below
  above index f hf hlt := by
    obtain ⟨hindex, -⟩ := List.getElem?_eq_some_iff.mp hf
    omega

namespace FilePicker

section Hits

-- The files of a level that a lookup has to ask, from one on.
def hitsFrom (asks : FdWithKeyRange K → Bool) (level : Nat) :
    List (FdWithKeyRange K) → List (Hit K)
  | [] => []
  | f :: rest =>
    if asks f = true then ⟨f, level, rest.isEmpty⟩ :: hitsFrom asks level rest
    else hitsFrom asks level rest

variable {asks : FdWithKeyRange K → Bool} {level : Nat} {files : List (FdWithKeyRange K)}

theorem hitsFrom_eq_nil (h : ∀ f ∈ files, asks f = false) : hitsFrom asks level files = [] := by
  induction files with
  | nil => rfl
  | cons f rest ih =>
    rw [hitsFrom, h f List.mem_cons_self, if_neg Bool.false_ne_true]
    exact ih fun g hg => h g (List.mem_cons_of_mem _ hg)

theorem hitsFrom_drop (count : Nat) (h : ∀ i f, i < count → files[i]? = some f → asks f = false) :
    hitsFrom asks level (files.drop count) = hitsFrom asks level files := by
  induction count generalizing files with
  | zero => rfl
  | succ count ih =>
    cases files with
    | nil => rfl
    | cons f rest =>
      rw [List.drop_succ_cons, ih fun i g hi hg => h (i + 1) g (by omega) hg, hitsFrom,
        h 0 f (by omega) rfl, if_neg Bool.false_ne_true]

end Hits

variable (storage : VersionStorageInfo K) (key : K) (snapshot : Nat)

-- Level 0 is asked where the range of a file has the key, or everywhere. In a sorted level also the
-- largest version in the file matters.
def asks (level : Nat) (files : List (FdWithKeyRange K)) (f : FdWithKeyRange K) : Bool :=
  if level = 0 then !filtersLevel storage files || decide (f.HasInRange key)
  else decide (f.HasInRange key ∧ ¬f.largestKey.Before ⟨key, snapshot⟩)

def levelsHits : Nat → List (List (FdWithKeyRange K)) → List (Hit K)
  | _, [] => []
  | level, files :: rest =>
    hitsFrom (asks storage key snapshot level files) level files ++ levelsHits (level + 1) rest

def hits : List (Hit K) := levelsHits storage key snapshot 0 storage.levelFilesBrief

variable {storage key snapshot} {picker : FilePicker} {files : List (FdWithKeyRange K)}

theorem asks_eq_false (hlevel : 0 < level)
    (h : f.HasInRange key → f.largestKey.Before ⟨key, snapshot⟩) :
    asks storage key snapshot level files f = false := by
  rw [asks, if_neg hlevel.ne', decide_eq_false_iff_not]
  exact fun hasked => hasked.2 (h hasked.1)

-- What the bounds say of a level before a file of it is looked at.
def Known (key : K) (picker : FilePicker) (level : Nat) (files : List (FdWithKeyRange K)) : Prop :=
  picker.searchLeftBound = 0 ∧ picker.searchRightBound = kLevelMaxIndex ∨
    0 < level ∧ Encloses key files picker.searchLeftBound picker.searchRightBound

def rightBound (picker : FilePicker) (files : List (FdWithKeyRange K)) : Int :=
  if picker.searchRightBound = kLevelMaxIndex then (files.length : Int) - 1
  else picker.searchRightBound

theorem Known.encloses {level : Nat} (h : Known key picker level files) :
    Encloses key files picker.searchLeftBound (picker.rightBound files) := by
  rw [rightBound]
  rcases h with ⟨hleft, hright⟩ | ⟨-, hencloses⟩
  · rw [if_pos hright, hleft]
    refine ⟨le_rfl, by omega, by omega, fun index f hf hlt => absurd hlt (by omega), ?_⟩
    intro index f hf hlt
    obtain ⟨hindex, -⟩ := List.getElem?_eq_some_iff.mp hf
    omega
  · split
    · exact hencloses.all
    · exact hencloses

-- The search of a level that has started. `passed` are the files to the left.
structure Started (storage : VersionStorageInfo K) (key : K) (snapshot : Nat)
    (picker : FilePicker) (files : List (FdWithKeyRange K)) : Prop where
  passed : ∀ i f, i < picker.currIndexInCurrLevel → files[i]? = some f →
    f.largestKey.userKey ≤ key
  ahead : ∀ f ∈ files.drop picker.currIndexInCurrLevel, ¬f.largestKey.Before ⟨key, snapshot⟩
  moved : picker.currIndexInCurrLevel ≠ picker.startIndexInCurrLevel →
    ∀ f ∈ files.drop picker.currIndexInCurrLevel, key ≤ f.smallestKey.userKey
  known : files.drop picker.currIndexInCurrLevel = [] →
    ∀ next, storage.levelFilesBrief[picker.currLevel + 1]? = some next →
      Known key picker (picker.currLevel + 1) next

structure Ready (storage : VersionStorageInfo K) (key : K) (snapshot : Nat)
    (picker : FilePicker) (files : List (FdWithKeyRange K)) : Prop where
  searching : picker.searchEnded = false
  level : storage.levelFilesBrief[picker.currLevel]? = some files
  first : picker.currLevel = 0 →
    picker.searchLeftBound = 0 ∧ picker.searchRightBound = kLevelMaxIndex
  started : 0 < picker.currLevel → Started storage key snapshot picker files

-- The files that a picker still has to hand out.
def Tracks (storage : VersionStorageInfo K) (key : K) (snapshot : Nat) (picker : FilePicker)
    (remaining : List (Hit K)) : Prop :=
  picker.searchEnded = true ∧ remaining = [] ∨
    ∃ files, Ready storage key snapshot picker files ∧ remaining =
      hitsFrom (asks storage key snapshot picker.currLevel files) picker.currLevel
          (files.drop picker.currIndexInCurrLevel) ++
        levelsHits storage key snapshot (picker.currLevel + 1)
          (storage.levelFilesBrief.drop (picker.currLevel + 1))

theorem ascending_of_level {level : Nat} (hlevel : 0 < level)
    (h : storage.levelFilesBrief[level]? = some files) : Ascending files := by
  refine storage.sorted files (List.mem_of_getElem? (i := level - 1) ?_)
  rw [List.getElem?_tail, Nat.sub_add_cancel hlevel]
  exact h

theorem drop_eq_cons (h : storage.levelFilesBrief.drop level = files :: rest) :
    storage.levelFilesBrief[level]? = some files ∧
      storage.levelFilesBrief.drop (level + 1) = rest := by
  constructor
  · rw [← List.head?_drop, h]
    rfl
  · rw [← List.drop_drop, h]
    rfl

theorem hits_of_bounds {level : Nat} (hlevel : 0 < level) {left right : Int}
    (h : Encloses key files left right)
    (hbefore : ∀ (i : Nat) f, left ≤ i → (i : Int) ≤ right → files[i]? = some f →
      f.largestKey.Before ⟨key, snapshot⟩) :
    hitsFrom (asks storage key snapshot level files) level files = [] := by
  refine hitsFrom_eq_nil fun f hf => asks_eq_false hlevel fun hrange => ?_
  obtain ⟨i, hi⟩ := List.mem_iff_getElem?.mp hf
  rcases lt_or_ge (i : Int) left with hlow | hlow
  · exact Or.inl (h.below i f hi hlow)
  · rcases lt_or_ge right (i : Int) with hhigh | hhigh
    · exact absurd (h.above i f hi hhigh) hrange.1.not_gt
    · exact hbefore i f hlow hhigh hi

-- What PrepareNextLevel keeps of the last call, and where it comes to.
structure Prepared (storage : VersionStorageInfo K) (key : K) (snapshot : Nat)
    (before : FilePicker) (remaining : List (Hit K)) (after : FilePicker) : Prop where
  tracks : Tracks storage key snapshot after remaining
  le : before.currLevel ≤ after.currLevel
  level : after.hitFileLevel = before.hitFileLevel
  last : after.isHitFileLastInLevel = before.isHitFileLastInLevel

theorem started_of_find (hlevel : 0 < picker.currLevel)
    (hat : storage.levelFilesBrief[picker.currLevel]? = some files) {left right : Int}
    (h : Encloses key files left right) {start : Nat} (hright : (start : Int) ≤ right)
    (hbefore : ∀ i f, left.toNat ≤ i → i < start → files[i]? = some f →
      f.largestKey.Before ⟨key, snapshot⟩)
    (hstart : ∀ f, files[start]? = some f → ¬f.largestKey.Before ⟨key, snapshot⟩) :
    Started storage key snapshot (picker.startAt start) files ∧
      hitsFrom (asks storage key snapshot picker.currLevel files) picker.currLevel
          (files.drop start) =
        hitsFrom (asks storage key snapshot picker.currLevel files) picker.currLevel files := by
  have hsorted := ascending_of_level hlevel hat
  have hlength : start < files.length := by
    have hlt := h.lt_length
    omega
  have hpassed : ∀ i f, i < start → files[i]? = some f → f.largestKey.Before ⟨key, snapshot⟩ := by
    intro i f hi hf
    rcases Nat.lt_or_ge i left.toNat with hlow | hlow
    · exact Or.inl (h.below i f hf (by omega))
    · exact hbefore i f hlow hi hf
  refine ⟨⟨fun i f hi hf => (hpassed i f hi hf).userKey_le, ?_, fun hmoved => absurd rfl hmoved, ?_⟩, ?_⟩
  · intro f hf hlate
    obtain ⟨i, hi⟩ := List.mem_iff_getElem?.mp hf
    rw [List.getElem?_drop] at hi
    exact hstart _ (List.getElem?_eq_getElem hlength)
      (hsorted.largest_before (Nat.le_add_right start i) (List.getElem?_eq_getElem hlength) hi hlate)
  · intro hnil
    exact absurd (List.drop_eq_nil_iff.mp hnil) (Nat.not_le_of_lt hlength)
  · exact hitsFrom_drop start fun i f hi hf => asks_eq_false hlevel fun _ => hpassed i f hi hf

-- What PrepareNextLevel does at one level: it leaves a level behind that has no hit, or starts in
-- it at its first hit.
def LevelSkipped (storage : VersionStorageInfo K) (key : K) (snapshot : Nat) (picker : FilePicker)
    (files : List (FdWithKeyRange K)) (rest : List (List (FdWithKeyRange K))) : Prop :=
  ∃ right, prepareLevel ⟨key, snapshot⟩ (files :: rest) picker =
      prepareLevel ⟨key, snapshot⟩ rest { picker with searchRightBound := right }.skipLevel ∧
    hitsFrom (asks storage key snapshot picker.currLevel files) picker.currLevel files = []

def LevelEntered (storage : VersionStorageInfo K) (key : K) (snapshot : Nat) (picker : FilePicker)
    (files : List (FdWithKeyRange K)) (rest : List (List (FdWithKeyRange K))) : Prop :=
  ∃ right start, prepareLevel ⟨key, snapshot⟩ (files :: rest) picker =
      .returned ({ picker with searchRightBound := right }.startAt start) ∧
    Ready storage key snapshot ({ picker with searchRightBound := right }.startAt start) files ∧
    hitsFrom (asks storage key snapshot picker.currLevel files) picker.currLevel
        (files.drop start) =
      hitsFrom (asks storage key snapshot picker.currLevel files) picker.currLevel files

section Levels

variable {rest : List (List (FdWithKeyRange K))}

theorem prepareLevel_empty (hknown : Known key picker picker.currLevel files)
    (hempty : files.length = 0) : LevelSkipped storage key snapshot picker files rest := by
  have hbounds : picker.searchLeftBound = 0 ∧
      (picker.searchRightBound = -1 ∨ picker.searchRightBound = kLevelMaxIndex) := by
    rcases hknown with ⟨hleft, hright⟩ | ⟨-, hknown⟩
    · exact ⟨hleft, Or.inr hright⟩
    · have hnonneg := hknown.nonneg
      have hle := hknown.le_succ
      have hlt := hknown.lt_length
      rw [hempty] at hlt
      exact ⟨by omega, Or.inl (by omega)⟩
  refine ⟨picker.searchRightBound, ?_, ?_⟩
  · rw [prepareLevel, if_pos hempty, if_neg (not_not.mpr hbounds.1), if_neg (by tauto)]
  · rw [List.length_eq_zero_iff.mp hempty]
    rfl

theorem prepareLevel_first (hat : storage.levelFilesBrief[picker.currLevel]? = some files)
    (hknown : Known key picker picker.currLevel files) (hnonempty : files.length ≠ 0)
    (hfirst : picker.currLevel = 0) : LevelEntered storage key snapshot picker files rest := by
  refine ⟨picker.searchRightBound, 0, ?_, ⟨rfl, hat, fun _ => ?_, fun hpos => ?_⟩, rfl⟩
  · rw [prepareLevel, if_neg hnonempty, if_pos hfirst]
  · rcases hknown with hreset | ⟨hpos, -⟩
    · exact hreset
    · omega
  · exact absurd hpos (by rw [startAt, hfirst]; exact lt_irrefl 0)

theorem prepareLevel_search (hat : storage.levelFilesBrief[picker.currLevel]? = some files)
    (hencloses : Encloses key files picker.searchLeftBound (picker.rightBound files))
    (hnonempty : files.length ≠ 0) (hdeep : picker.currLevel ≠ 0)
    (hle : picker.searchLeftBound ≤ picker.searchRightBound) :
    LevelSkipped storage key snapshot picker files rest ∨
      LevelEntered storage key snapshot picker files rest := by
  have hlevel := Nat.pos_of_ne_zero hdeep
  have hnonneg : 0 ≤ picker.rightBound files := by
    rw [rightBound]
    split
    · omega
    · exact hencloses.nonneg.trans hle
  have hleft := hencloses.nonneg
  have hsucc := hencloses.le_succ
  have hlength := hencloses.lt_length
  obtain ⟨hlow, hhigh, hbefore, hfound⟩ := findFileInRange_spec
    (ascending_of_level hlevel hat) ⟨key, snapshot⟩
    (show picker.searchLeftBound.toNat ≤ (picker.rightBound files).toNat + 1 by omega)
    (by omega)
  have hsearch : prepareLevel ⟨key, snapshot⟩ (files :: rest) picker =
      if (findFileInRange files ⟨key, snapshot⟩ picker.searchLeftBound.toNat
          ((picker.rightBound files).toNat + 1) : Int) = picker.rightBound files + 1 then
        prepareLevel ⟨key, snapshot⟩ rest
          { picker with searchRightBound := picker.rightBound files }.skipLevel
      else .returned ({ picker with searchRightBound := picker.rightBound files }.startAt
        (findFileInRange files ⟨key, snapshot⟩ picker.searchLeftBound.toNat
          ((picker.rightBound files).toNat + 1))) := by
    rw [prepareLevel, if_neg hnonempty, if_neg hdeep, if_pos hle]
    rfl
  generalize findFileInRange files ⟨key, snapshot⟩ picker.searchLeftBound.toNat
    ((picker.rightBound files).toNat + 1) = start at hlow hhigh hbefore hfound hsearch
  by_cases hend : (start : Int) = picker.rightBound files + 1
  · rw [if_pos hend] at hsearch
    exact Or.inl ⟨_, hsearch, hits_of_bounds hlevel hencloses fun i f hi hi' hf =>
      hbefore i f (by omega) (by omega) hf⟩
  · rw [if_neg hend] at hsearch
    obtain ⟨hstarted, hhits⟩ := @started_of_find _ _ storage key snapshot
      { picker with searchRightBound := picker.rightBound files } files hlevel hat _ _
      hencloses start (by omega) hbefore fun f hf => hfound f (by omega) hf
    exact Or.inr ⟨_, start, hsearch,
      ⟨rfl, hat, fun hzero => absurd hzero hdeep, fun _ => hstarted⟩, hhits⟩

theorem prepareLevel_cases (hat : storage.levelFilesBrief[picker.currLevel]? = some files)
    (hknown : Known key picker picker.currLevel files) :
    LevelSkipped storage key snapshot picker files rest ∨
      LevelEntered storage key snapshot picker files rest := by
  by_cases hempty : files.length = 0
  · exact Or.inl (prepareLevel_empty hknown hempty)
  by_cases hfirst : picker.currLevel = 0
  · exact Or.inr (prepareLevel_first hat hknown hempty hfirst)
  by_cases hle : picker.searchLeftBound ≤ picker.searchRightBound
  · exact prepareLevel_search hat hknown.encloses hempty hfirst hle
  · refine Or.inl ⟨picker.searchRightBound, ?_, ?_⟩
    · rw [prepareLevel, if_neg hempty, if_neg hfirst, if_neg hle]
    · rcases hknown with ⟨hleft, hright⟩ | ⟨-, hnarrow⟩
      · exact absurd (by rw [hleft, hright]; decide) hle
      · exact hits_of_bounds (Nat.pos_of_ne_zero hfirst) hnarrow fun i f hlow hhigh hf => by omega

end Levels

theorem prepareLevel_prepared (hlevels : storage.levelFilesBrief.drop picker.currLevel = levels)
    (hknown : ∀ files, storage.levelFilesBrief[picker.currLevel]? = some files →
      Known key picker picker.currLevel files) :
    ∃ after, prepareLevel ⟨key, snapshot⟩ levels picker = .returned after ∧
      Prepared storage key snapshot picker
        (levelsHits storage key snapshot picker.currLevel levels) after := by
  induction levels generalizing picker with
  | nil => exact ⟨_, rfl, Or.inl ⟨rfl, rfl⟩, le_rfl, rfl, rfl⟩
  | cons files rest ih =>
    obtain ⟨hat, hrest⟩ := drop_eq_cons hlevels
    have hcases : LevelSkipped storage key snapshot picker files rest ∨
        LevelEntered storage key snapshot picker files rest :=
      prepareLevel_cases hat (hknown files hat)
    obtain ⟨right, hskip, hnone⟩ | ⟨right, start, hstart, hready, hhits⟩ := hcases
    · obtain ⟨after, hprepare, hafter⟩ :=
        @ih { picker with searchRightBound := right }.skipLevel hrest
          fun _ _ => Or.inl ⟨rfl, rfl⟩
      refine ⟨after, hskip.trans hprepare, ?_, (Nat.le_succ _).trans hafter.le, hafter.level,
        hafter.last⟩
      rw [levelsHits, hnone, List.nil_append]
      exact hafter.tracks
    · refine ⟨_, hstart, Or.inr ⟨files, hready, ?_⟩, le_rfl, rfl, rfl⟩
      rw [levelsHits, ← hhits, ← hrest]
      rfl

-- A call that returns the next file, or null after the last one.
def Returns (storage : VersionStorageInfo K) (key : K) (snapshot : Nat) (remaining : List (Hit K))
    (found : Option (FdWithKeyRange K)) (after : FilePicker) : Prop :=
  (found.map fun f => (⟨f, after.hitFileLevel.getD 0, after.isHitFileLastInLevel⟩ : Hit K)) =
      remaining.head? ∧
    Tracks storage key snapshot after remaining.tail

def Scanned (storage : VersionStorageInfo K) (key : K) (snapshot : Nat) (level : Nat)
    (remaining : List (Hit K)) (found : Option (FdWithKeyRange K)) (after : FilePicker) : Prop :=
  found.isSome = true ∧ Returns storage key snapshot remaining found after ∨
    found = none ∧ after.currLevel = level ∧
      remaining = levelsHits storage key snapshot (level + 1)
        (storage.levelFilesBrief.drop (level + 1)) ∧
      ∀ next, storage.levelFilesBrief[level + 1]? = some next → Known key after (level + 1) next

theorem Ready.mark (h : Ready storage key snapshot picker files) (isLast : Bool) :
    Ready storage key snapshot (picker.mark isLast) files where
  searching := h.searching
  level := h.level
  first := h.first
  started hlevel :=
    have hstarted := h.started hlevel
    ⟨hstarted.passed, hstarted.ahead, hstarted.moved, hstarted.known⟩

theorem prepareNextLevel_prepared
    (hknown : ∀ next, storage.levelFilesBrief[picker.currLevel + 1]? = some next →
      Known key picker (picker.currLevel + 1) next) :
    ∃ after, picker.prepareNextLevel storage key snapshot = .returned after ∧
      Prepared storage key snapshot { picker with currLevel := picker.currLevel + 1 }
        (levelsHits storage key snapshot (picker.currLevel + 1)
          (storage.levelFilesBrief.drop (picker.currLevel + 1))) after :=
  @prepareLevel_prepared _ _ storage key snapshot
    { picker with currLevel := picker.currLevel + 1 } _ rfl hknown

section Level

variable {f : FdWithKeyRange K} {rest : List (FdWithKeyRange K)}

theorem drop_index (hdrop : files.drop picker.currIndexInCurrLevel = f :: rest) :
    files[picker.currIndexInCurrLevel]? = some f ∧
      files.drop (picker.currIndexInCurrLevel + 1) = rest := by
  constructor
  · rw [← List.head?_drop, hdrop]
    rfl
  · rw [← List.drop_drop, hdrop]
    rfl

theorem filtersLevel_of_pos (hlevel : 0 < picker.currLevel)
    (h : storage.levelFilesBrief[picker.currLevel]? = some files) :
    filtersLevel storage files = true := by
  obtain ⟨hlt, -⟩ := List.getElem?_eq_some_iff.mp h
  exact decide_eq_true (Or.inl (by omega))

-- Level 0 keeps the bounds, and hands out file after file.
theorem scanLevel_first (h : Ready storage key snapshot picker files)
    (hlevel : picker.currLevel = 0) (hdrop : files.drop picker.currIndexInCurrLevel = rest) :
    ∃ found after, picker.scanLevel storage key snapshot (filtersLevel storage files) rest =
        .returned (found, after) ∧
      Scanned storage key snapshot picker.currLevel
        (hitsFrom (asks storage key snapshot picker.currLevel files) picker.currLevel rest ++
          levelsHits storage key snapshot (picker.currLevel + 1)
            (storage.levelFilesBrief.drop (picker.currLevel + 1))) found after := by
  induction rest generalizing picker with
  | nil =>
    exact ⟨none, picker, rfl, Or.inr ⟨rfl, rfl, rfl, fun _ _ => Or.inl (h.first hlevel)⟩⟩
  | cons f rest ih =>
    obtain ⟨hf, hrest⟩ := drop_index hdrop
    have hready := h.mark rest.isEmpty
    have hmark : (picker.mark rest.isEmpty).currLevel = 0 := hlevel
    have hnarrowed : (picker.mark rest.isEmpty).narrowed storage key f =
        picker.mark rest.isEmpty := if_neg hmark.not_gt
    have hnext : Ready storage key snapshot (picker.mark rest.isEmpty).next files :=
      ⟨hready.searching, hready.level, hready.first, fun hpos => absurd hpos hmark.not_gt⟩
    have hasks : asks storage key snapshot picker.currLevel files f =
        (!filtersLevel storage files || decide (f.HasInRange key)) := if_pos hlevel
    -- A file that is asked for is handed out, and the next one follows.
    have htake : asks storage key snapshot picker.currLevel files f = true → ∀ cmpLargest,
        ∃ found after, (picker.mark rest.isEmpty).handOut storage key snapshot f cmpLargest =
            .returned (found, after) ∧
          Scanned storage key snapshot picker.currLevel
            (hitsFrom (asks storage key snapshot picker.currLevel files) picker.currLevel
                (f :: rest) ++
              levelsHits storage key snapshot (picker.currLevel + 1)
                (storage.levelFilesBrief.drop (picker.currLevel + 1))) found after := by
      intro htrue cmpLargest
      refine ⟨some f, (picker.mark rest.isEmpty).next, if_neg fun hpos => hmark.not_gt hpos.1,
        Or.inl ⟨rfl, ?_⟩⟩
      rw [hitsFrom, if_pos htrue]
      refine ⟨rfl, Or.inr ⟨files, hnext, ?_⟩⟩
      rw [← hrest]
      rfl
    rw [scanLevel]
    by_cases hfilters : filtersLevel storage files = true
    · rw [if_pos hfilters, if_neg fun hassert => hassert.1 hmark, hnarrowed]
      by_cases hrange : f.HasInRange key
      · rw [if_neg (fun hout => FdWithKeyRange.out_of_range_iff.mp hout hrange)]
        exact htake (by rw [hasks, hfilters, decide_eq_true hrange]; rfl) _
      · have hnot : asks storage key snapshot picker.currLevel files f = false := by
          rw [hasks, hfilters, decide_eq_false hrange]
          rfl
        rw [if_pos (FdWithKeyRange.out_of_range_iff.mpr hrange), if_pos hmark, hitsFrom, hnot,
          if_neg Bool.false_ne_true]
        exact ih hnext hlevel hrest
    · rw [if_neg hfilters]
      exact htake (by rw [hasks, Bool.eq_false_iff.mpr hfilters]; rfl) _

-- Behind a file with the key below its largest one, no file of the level has it in range.
theorem hits_behind (hlevel : 0 < picker.currLevel)
    (hat : storage.levelFilesBrief[picker.currLevel]? = some files)
    (hdrop : files.drop picker.currIndexInCurrLevel = f :: rest)
    (hkey : key < f.largestKey.userKey) :
    hitsFrom (asks storage key snapshot picker.currLevel files) picker.currLevel rest = [] := by
  have hsorted : Ascending (f :: rest) :=
    hdrop ▸ List.Pairwise.drop (ascending_of_level hlevel hat)
  refine hitsFrom_eq_nil fun g hg => asks_eq_false hlevel fun hrange => ?_
  have hbehind := (List.pairwise_cons.mp hsorted).1 g hg
  exact absurd hrange.1 (hkey.trans_le hbehind.userKey_le).not_ge

-- With the key as the largest one of a file, its older versions may be in the next file.
theorem Ready.behind (h : Ready storage key snapshot picker files) (hlevel : 0 < picker.currLevel)
    (hdrop : files.drop picker.currIndexInCurrLevel = f :: rest) (hkey : key = f.largestKey.userKey)
    (isLast : Bool) (hknown : ∀ next, storage.levelFilesBrief[picker.currLevel + 1]? = some next →
      Known key { picker.mark isLast with searchLeftBound := left, searchRightBound := right }
        (picker.currLevel + 1) next) :
    Ready storage key snapshot
      { picker.mark isLast with searchLeftBound := left, searchRightBound := right }.next files := by
  have hstarted := h.started hlevel
  obtain ⟨hf, hrest⟩ := drop_index hdrop
  have hsorted : Ascending (f :: rest) :=
    hdrop ▸ List.Pairwise.drop (ascending_of_level hlevel h.level)
  refine ⟨h.searching, h.level, fun hzero => absurd hzero hlevel.ne', fun _ => ⟨?_, ?_, ?_, fun _ => hknown⟩⟩
  · intro i g hi hg
    rcases Nat.lt_or_eq_of_le (Nat.le_of_lt_succ hi) with hlt | rfl
    · exact hstarted.passed i g hlt hg
    · cases hf.symm.trans hg
      exact hkey.ge
  · exact fun g hg => hstarted.ahead g (hdrop ▸ List.mem_cons_of_mem f (hrest ▸ hg))
  · intro _ g hg
    have hbehind := (List.pairwise_cons.mp hsorted).1 g (hrest ▸ hg)
    exact hkey.le.trans hbehind.userKey_le

theorem scanLevel_sorted (h : Ready storage key snapshot picker files)
    (hlevel : 0 < picker.currLevel) (hdrop : files.drop picker.currIndexInCurrLevel = rest) :
    ∃ found after, picker.scanLevel storage key snapshot (filtersLevel storage files) rest =
        .returned (found, after) ∧
      Scanned storage key snapshot picker.currLevel
        (hitsFrom (asks storage key snapshot picker.currLevel files) picker.currLevel rest ++
          levelsHits storage key snapshot (picker.currLevel + 1)
            (storage.levelFilesBrief.drop (picker.currLevel + 1))) found after := by
  have hstarted := h.started hlevel
  cases rest with
  | nil => exact ⟨none, picker, rfl, Or.inr ⟨rfl, rfl, rfl, hstarted.known hdrop⟩⟩
  | cons f rest =>
    obtain ⟨hf, hrest⟩ := drop_index hdrop
    have hahead : ¬f.largestKey.Before ⟨key, snapshot⟩ :=
      hstarted.ahead f (hdrop ▸ List.mem_cons_self)
    have hlargest : key ≤ f.largestKey.userKey := InternalKey.userKey_le_of_not_before hahead
    let bounds := storage.fileIndexer.getNextLevelIndex picker.currLevel
      picker.currIndexInCurrLevel (f.cmpSmallest key) (f.cmpLargest key)
    let after : FilePicker := { picker.mark rest.isEmpty with
      searchLeftBound := bounds.1, searchRightBound := bounds.2 }
    have hafter : (picker.mark rest.isEmpty).narrowed storage key f = after := if_pos hlevel
    have hknown : ∀ next, storage.levelFilesBrief[picker.currLevel + 1]? = some next →
        Known key after (picker.currLevel + 1) next := fun next hnext =>
      Or.inr ⟨Nat.succ_pos _, storage.fileIndexer.encloses key picker.currLevel
        picker.currIndexInCurrLevel files f next hlevel h.level hf hnext hstarted.passed⟩
    have hassert : ¬((picker.mark rest.isEmpty).currLevel ≠ 0 ∧
        (picker.mark rest.isEmpty).currIndexInCurrLevel ≠
          (picker.mark rest.isEmpty).startIndexInCurrLevel ∧ f.cmpSmallest key = .gt) := by
      rintro ⟨-, hmoved, hgt⟩
      have hsmallest := hstarted.moved hmoved f (hdrop ▸ List.mem_cons_self)
      exact absurd (FdWithKeyRange.cmpSmallest_gt_iff.mp hgt) hsmallest.not_gt
    rw [scanLevel, filtersLevel_of_pos hlevel h.level, if_pos rfl, if_neg hassert, hafter]
    by_cases hrange : f.HasInRange key
    · have hasks : asks storage key snapshot picker.currLevel files f = true :=
        (if_neg hlevel.ne').trans (decide_eq_true ⟨hrange, hahead⟩)
      rw [if_neg fun hout => FdWithKeyRange.out_of_range_iff.mp hout hrange, hitsFrom,
        if_pos hasks, handOut, FdWithKeyRange.cmpLargest_of_le hrange.1]
      rcases lt_or_eq_of_le hlargest with hlt | heq
      · obtain ⟨final, hprepare, hfinal⟩ := @prepareNextLevel_prepared _ _ storage key snapshot
          after hknown
        rw [if_pos ⟨hlevel, compare_lt_iff_lt.mpr hlt⟩, hprepare,
          hits_behind hlevel h.level hdrop hlt]
        refine ⟨some f, final, rfl, Or.inl ⟨rfl, ?_, hfinal.tracks⟩⟩
        rw [hfinal.level, hfinal.last]
        rfl
      · have hready := h.behind hlevel hdrop heq rest.isEmpty hknown
        rw [if_neg fun hcmp => absurd (compare_lt_iff_lt.mp hcmp.2) heq.not_lt]
        refine ⟨some f, after.next, rfl, Or.inl ⟨rfl, rfl, Or.inr ⟨files, hready, ?_⟩⟩⟩
        rw [← hrest]
        rfl
    · rw [if_pos (FdWithKeyRange.out_of_range_iff.mpr hrange),
        if_neg (show (picker.mark rest.isEmpty).currLevel ≠ 0 from hlevel.ne')]
      have hsmallest : key < f.smallestKey.userKey := by
        by_contra hge
        exact hrange ⟨le_of_not_gt hge, hlargest⟩
      refine ⟨none, after, rfl, Or.inr ⟨rfl, rfl, ?_, hknown⟩⟩
      rw [hitsFrom, asks_eq_false hlevel fun hrange' => absurd hrange' hrange,
        if_neg Bool.false_ne_true,
        hits_behind hlevel h.level hdrop (hsmallest.trans_le f.userKey_le)]
      rfl

end Level

theorem getNextFile_returns (h : Tracks storage key snapshot picker remaining)
    (hfuel : storage.levelFilesBrief.length - picker.currLevel < fuel) :
    ∃ found after, getNextFile storage key snapshot fuel picker = some (.returned (found, after)) ∧
      Returns storage key snapshot remaining found after := by
  induction fuel generalizing picker remaining with
  | zero => omega
  | succ fuel ih =>
    rcases h with ⟨hended, rfl⟩ | ⟨files, hready, rfl⟩
    · exact ⟨none, picker, if_pos hended, rfl, Or.inl ⟨hended, rfl⟩⟩
    · obtain ⟨hlt, -⟩ := List.getElem?_eq_some_iff.mp hready.level
      have hfiles : storage.levelFilesBrief.getD picker.currLevel [] = files := by
        rw [List.getD_eq_getElem?_getD, hready.level]
        rfl
      have hscan := (Nat.eq_zero_or_pos picker.currLevel).elim
        (fun hzero => scanLevel_first hready hzero rfl)
        (fun hpos => scanLevel_sorted hready hpos rfl)
      obtain ⟨found, after, hscan, hscanned⟩ := hscan
      rw [getNextFile, if_neg (by rw [hready.searching]; exact Bool.false_ne_true), hfiles]
      simp only [hscan]
      rcases hscanned with ⟨hsome, hreturns⟩ | ⟨rfl, hlevel, hremaining, hknown⟩
      · obtain ⟨f, rfl⟩ := Option.isSome_iff_exists.mp hsome
        exact ⟨some f, after, rfl, hreturns⟩
      · rw [← hlevel] at hknown
        obtain ⟨next, hprepare, hnext⟩ :=
          @prepareNextLevel_prepared _ _ storage key snapshot after hknown
        have hle : after.currLevel + 1 ≤ next.currLevel := hnext.le
        rw [hremaining, ← hlevel]
        simp only [hprepare]
        have hfewer : storage.levelFilesBrief.length - next.currLevel < fuel := by omega
        exact ih hnext.tracks hfewer

theorem getNextFiles_tracks (h : Tracks storage key snapshot picker remaining)
    (hfuel : storage.levelFilesBrief.length < fuel) (calls : Nat) :
    getNextFiles storage key snapshot fuel calls picker =
      some (.returned ((List.range calls).map fun call => remaining[call]?)) := by
  induction calls generalizing picker remaining with
  | zero => rfl
  | succ calls ih =>
    obtain ⟨found, after, hcall, hfound, htracks⟩ :=
      getNextFile_returns h ((Nat.sub_le _ _).trans_lt hfuel)
    simp only [getNextFiles, hcall, hfound, ih htracks, Option.map_some, Outcome.map]
    rw [List.range_succ_eq_map, List.map_cons, List.map_map, List.head?_eq_getElem?]
    refine congrArg (fun results => some (Outcome.returned (remaining[0]? :: results))) ?_
    refine List.map_congr_left fun call _ => ?_
    exact List.getElem?_tail

theorem exists_tracks (storage : VersionStorageInfo K) (key : K) (snapshot : Nat) :
    ∃ picker, FilePicker.new storage key snapshot = .returned picker ∧
      Tracks storage key snapshot picker (hits storage key snapshot) := by
  obtain ⟨picker, hnew, hprepared⟩ := @prepareLevel_prepared _ _ storage key snapshot {
    currLevel := 0
    hitFileLevel := none
    searchLeftBound := 0
    searchRightBound := kLevelMaxIndex
    searchEnded := false
    isHitFileLastInLevel := false
    currIndexInCurrLevel := 0
    startIndexInCurrLevel := 0 } _ rfl fun _ _ => Or.inl ⟨rfl, rfl⟩
  exact ⟨picker, hnew, hprepared.tracks⟩

-- Each call returns the next file that a lookup has to ask, and after the last one null; no
-- assertion fails.
theorem getNextFiles_eq (storage : VersionStorageInfo K) (key : K) (snapshot : Nat) :
    ∃ picker, FilePicker.new storage key snapshot = .returned picker ∧
      ∀ fuel calls, storage.levelFilesBrief.length < fuel →
        getNextFiles storage key snapshot fuel calls picker = some (.returned
          ((List.range calls).map fun call => (hits storage key snapshot)[call]?)) := by
  obtain ⟨picker, hnew, htracks⟩ := exists_tracks storage key snapshot
  exact ⟨picker, hnew, fun fuel calls hfuel => getNextFiles_tracks htracks hfuel calls⟩

end FilePicker

end MlkvPlus.Sst
