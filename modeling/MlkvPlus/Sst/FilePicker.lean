import MlkvPlus.Data.Search
import MlkvPlus.Sst.Lookup

namespace MlkvPlus.Sst

variable {K : Type}

structure InternalKey (K : Type) where
  userKey : K
  sequence : Nat
  deriving DecidableEq, Repr

def Entry.internalKey (entry : Entry K) : InternalKey K := ⟨entry.userKey, entry.sequence⟩

variable [LinearOrder K]

-- The lookup key has the largest type, so the types decide nothing.
def InternalKey.Before (first second : InternalKey K) : Prop :=
  first.userKey < second.userKey ∨
    first.userKey = second.userKey ∧ second.sequence < first.sequence

instance (first second : InternalKey K) : Decidable (first.Before second) :=
  inferInstanceAs (Decidable (_ ∨ _))

-- The keys of a file are between its smallest and its largest key.
structure FdWithKeyRange (K : Type) [LinearOrder K] where
  file : SstFile K
  smallestKey : InternalKey K
  largestKey : InternalKey K
  ordered : ¬largestKey.Before smallestKey
  smallest_le : ∀ entry ∈ file.entries, ¬entry.internalKey.Before smallestKey
  le_largest : ∀ entry ∈ file.entries, ¬largestKey.Before entry.internalKey

-- The two comparisons of a lookup with a file. The second starts as -1, and is not made for a
-- key below the file.
def FdWithKeyRange.cmpSmallest (f : FdWithKeyRange K) (key : K) : Ordering :=
  compare key f.smallestKey.userKey

def FdWithKeyRange.cmpLargest (f : FdWithKeyRange K) (key : K) : Ordering :=
  if f.cmpSmallest key = .lt then .lt else compare key f.largestKey.userKey

-- Inclusive bounds that enclose the files of a level whose range has the key.
structure Encloses (key : K) (files : List (FdWithKeyRange K)) (left right : Int) : Prop where
  nonneg : 0 ≤ left
  le_succ : left ≤ right + 1
  lt_length : right < files.length
  below : ∀ (index : Nat) f, files[index]? = some f → (index : Int) < left → f.largestKey.userKey < key
  above : ∀ (index : Nat) f, files[index]? = some f → right < (index : Int) → key < f.smallestKey.userKey

-- Fractional cascading: from the comparisons with one file of a level to the files of the next
-- level. The files to the left of the one compared with are not above the key.
structure FileIndexer (levels : List (List (FdWithKeyRange K))) where
  getNextLevelIndex : Nat → Nat → Ordering → Ordering → Int × Int
  encloses : ∀ key level index files f next, 0 < level → levels[level]? = some files →
    files[index]? = some f → levels[level + 1]? = some next →
    (∀ i previous, i < index → files[i]? = some previous → previous.largestKey.userKey ≤ key) →
    let bounds := getNextLevelIndex level index (f.cmpSmallest key) (f.cmpLargest key)
    Encloses key next bounds.1 bounds.2

-- The levels up to the last one with a file. Only the files of level 0 overlap.
structure VersionStorageInfo (K : Type) [LinearOrder K] where
  levelFilesBrief : List (List (FdWithKeyRange K))
  sorted : ∀ files ∈ levelFilesBrief.tail,
    files.Pairwise fun first second => first.largestKey.Before second.smallestKey
  fileIndexer : FileIndexer levelFilesBrief

def kLevelMaxIndex : Int := 2 ^ 31 - 1

-- The first file in the range whose largest key is not before the key.
def findFileInRange (files : List (FdWithKeyRange K)) (ikey : InternalKey K) (left right : Nat) :
    Nat :=
  Search.lowerBound (fun index => files[index]?.any fun f => decide (f.largestKey.Before ikey))
    left (right - left)

-- `hitFileLevel` starts as -1.
structure FilePicker where
  currLevel : Nat
  hitFileLevel : Option Nat
  searchLeftBound : Int
  searchRightBound : Int
  searchEnded : Bool
  isHitFileLastInLevel : Bool
  currIndexInCurrLevel : Nat
  startIndexInCurrLevel : Nat
  deriving DecidableEq, Repr

-- A file that was handed out, with its level and whether it is the last one there.
structure Hit (K : Type) [LinearOrder K] where
  file : FdWithKeyRange K
  level : Nat
  isLast : Bool

namespace FilePicker

-- A level in which nothing is compared says nothing about the next one.
def skipLevel (picker : FilePicker) : FilePicker :=
  { picker with
    searchLeftBound := 0
    searchRightBound := kLevelMaxIndex
    currLevel := picker.currLevel + 1 }

def startAt (picker : FilePicker) (index : Nat) : FilePicker :=
  { picker with
    searchEnded := false
    startIndexInCurrLevel := index
    currIndexInCurrLevel := index }

-- The loop of PrepareNextLevel, over the levels from the current one on.
def prepareLevel (ikey : InternalKey K) :
    List (List (FdWithKeyRange K)) → FilePicker → Outcome FilePicker
  | [], picker => .returned { picker with searchEnded := true }
  | files :: rest, picker =>
    if files.length = 0 then
      if picker.searchLeftBound ≠ 0 then .aborted "search_left_bound_ == 0"
      else if picker.searchRightBound ≠ -1 ∧ picker.searchRightBound ≠ kLevelMaxIndex then
        .aborted ("search_right_bound_ == -1 || " ++
          "search_right_bound_ == FileIndexer::kLevelMaxIndex")
      else prepareLevel ikey rest picker.skipLevel
    else if picker.currLevel = 0 then .returned (picker.startAt 0)
    else if picker.searchLeftBound ≤ picker.searchRightBound then
      let right := if picker.searchRightBound = kLevelMaxIndex then (files.length : Int) - 1
        else picker.searchRightBound
      -- One more than the right bound, which was found from the user key alone.
      let start := findFileInRange files ikey picker.searchLeftBound.toNat (right.toNat + 1)
      if (start : Int) = right + 1 then
        prepareLevel ikey rest { picker with searchRightBound := right }.skipLevel
      else .returned ({ picker with searchRightBound := right }.startAt start)
    else prepareLevel ikey rest picker.skipLevel

section Search

variable (storage : VersionStorageInfo K) (key : K) (snapshot : Nat)

def prepareNextLevel (picker : FilePicker) : Outcome FilePicker :=
  prepareLevel ⟨key, snapshot⟩ (storage.levelFilesBrief.drop (picker.currLevel + 1))
    { picker with currLevel := picker.currLevel + 1 }

-- The constructor: the level before the first one is -1.
def new : Outcome FilePicker :=
  prepareLevel ⟨key, snapshot⟩ storage.levelFilesBrief {
    currLevel := 0
    hitFileLevel := none
    searchLeftBound := 0
    searchRightBound := kLevelMaxIndex
    searchEnded := false
    isHitFileLastInLevel := false
    currIndexInCurrLevel := 0
    startIndexInCurrLevel := 0 }

-- A level is not filtered if it is the only one and has at most three files.
def filtersLevel (files : List (FdWithKeyRange K)) : Bool :=
  decide (1 < storage.levelFilesBrief.length ∨ 3 < files.length)

def narrowed (picker : FilePicker) (f : FdWithKeyRange K) : FilePicker :=
  if 0 < picker.currLevel then
    let bounds := storage.fileIndexer.getNextLevelIndex picker.currLevel
      picker.currIndexInCurrLevel (f.cmpSmallest key) (f.cmpLargest key)
    { picker with searchLeftBound := bounds.1, searchRightBound := bounds.2 }
  else picker

def next (picker : FilePicker) : FilePicker :=
  { picker with currIndexInCurrLevel := picker.currIndexInCurrLevel + 1 }

def mark (picker : FilePicker) (isLast : Bool) : FilePicker :=
  { picker with hitFileLevel := some picker.currLevel, isHitFileLastInLevel := isLast }

-- Below its largest key a file is the last one of its level that can have the key.
def handOut (picker : FilePicker) (f : FdWithKeyRange K) (cmpLargest : Ordering) :
    Outcome (Option (FdWithKeyRange K) × FilePicker) :=
  if 0 < picker.currLevel ∧ cmpLargest = .lt then
    (picker.prepareNextLevel storage key snapshot).map fun picker => (some f, picker)
  else .returned (some f, picker.next)

-- The loop over the files of a level, from the current one on.
def scanLevel (filters : Bool) :
    List (FdWithKeyRange K) → FilePicker → Outcome (Option (FdWithKeyRange K) × FilePicker)
  | [], picker => .returned (none, picker)
  | f :: rest, start =>
    let picker := start.mark rest.isEmpty
    if filters = true then
      if picker.currLevel ≠ 0 ∧ picker.currIndexInCurrLevel ≠ picker.startIndexInCurrLevel ∧
          f.cmpSmallest key = .gt then
        .aborted ("curr_level_ == 0 || curr_index_in_curr_level_ == start_index_in_curr_level_ || " ++
          "user_comparator_->CompareWithoutTimestamp(user_key_, ExtractUserKey(f->smallest_key)) <= 0")
      else if f.cmpSmallest key = .lt ∨ f.cmpLargest key = .gt then
        if picker.currLevel = 0 then scanLevel filters rest (picker.narrowed storage key f).next
        else .returned (none, picker.narrowed storage key f)
      else (picker.narrowed storage key f).handOut storage key snapshot f (f.cmpLargest key)
    else picker.handOut storage key snapshot f .lt

-- The loop over the levels; `none` stands for a loop that does not end within `fuel` levels.
def getNextFile : Nat → FilePicker → Option (Outcome (Option (FdWithKeyRange K) × FilePicker))
  | 0, _ => none
  | fuel + 1, picker =>
    if picker.searchEnded = true then some (.returned (none, picker))
    else
      let files := storage.levelFilesBrief.getD picker.currLevel []
      match picker.scanLevel storage key snapshot (filtersLevel storage files)
          (files.drop picker.currIndexInCurrLevel) with
      | .returned (some f, picker) => some (.returned (some f, picker))
      | .returned (none, picker) =>
        match picker.prepareNextLevel storage key snapshot with
        | .returned picker => getNextFile fuel picker
        | .threw what => some (.threw what)
        | .aborted reason => some (.aborted reason)
      | .threw what => some (.threw what)
      | .aborted reason => some (.aborted reason)

-- What a number of calls return, with what the picker then says about the file.
def getNextFiles (fuel : Nat) : Nat → FilePicker → Option (Outcome (List (Option (Hit K))))
  | 0, _ => some (.returned [])
  | calls + 1, picker =>
    match getNextFile storage key snapshot fuel picker with
    | none => none
    | some (.threw what) => some (.threw what)
    | some (.aborted reason) => some (.aborted reason)
    | some (.returned (found, picker)) =>
      let hit := found.map fun f => ⟨f, picker.hitFileLevel.getD 0, picker.isHitFileLastInLevel⟩
      (getNextFiles fuel calls picker).map (Outcome.map (hit :: ·))

end Search

end FilePicker

end MlkvPlus.Sst
