import MlkvPlus.Sst

namespace MlkvPlus.Sst

open Gds (IOStatus)

variable {K : Type}

-- The versions of a key that a snapshot sees, newest first.
def SstFile.visible [LinearOrder K] (file : SstFile K) (key : K) (snapshot : Nat) : List (Entry K) :=
  file.entries.filter fun entry => entry.userKey = key ∧ entry.sequence ≤ snapshot

-- The order that a lookup needs.
def Entry.NotAfter [LinearOrder K] (first second : Entry K) : Prop :=
  first.userKey < second.userKey ∨
    first.userKey = second.userKey ∧ second.sequence ≤ first.sequence

theorem Entry.Before.notAfter [LinearOrder K] {first second : Entry K}
    (h : first.Before second) : first.NotAfter second :=
  h.imp_right fun hsame => ⟨hsame.1, hsame.2.le⟩

theorem dropWhile_sorted [LinearOrder K] (key : K) (snapshot : Nat) (entries : List (Entry K))
    (hsorted : entries.Pairwise Entry.NotAfter) :
    (entries.dropWhile fun entry =>
        decide (entry.userKey < key ∨ entry.userKey = key ∧ snapshot < entry.sequence)) =
      (entries.filter fun entry => entry.userKey = key ∧ entry.sequence ≤ snapshot) ++
        entries.filter fun entry => key < entry.userKey := by
  induction entries with
  | nil => rfl
  | cons entry rest ih =>
    obtain ⟨hfirst, hrest⟩ := List.pairwise_cons.mp hsorted
    rcases lt_trichotomy entry.userKey key with hlt | heq | hgt
    · rw [List.dropWhile_cons_of_pos (by simp [hlt]), List.filter_cons_of_neg (by simp [hlt.ne]),
        List.filter_cons_of_neg (by simp [hlt.le]), ih hrest]
    · by_cases hnew : snapshot < entry.sequence
      · rw [List.dropWhile_cons_of_pos (by simp [heq, hnew]),
          List.filter_cons_of_neg (by simp [hnew]), List.filter_cons_of_neg (by simp [heq]),
          ih hrest]
      · have hstay : (rest.dropWhile fun entry => decide (entry.userKey < key ∨
            entry.userKey = key ∧ snapshot < entry.sequence)) = rest := by
          cases rest with
          | nil => rfl
          | cons next rest =>
            refine List.dropWhile_cons_of_neg ?_
            rcases hfirst next List.mem_cons_self with hlater | ⟨hsame, holder⟩
            · rw [heq] at hlater
              simp [hlater.le, hlater.ne']
            · rw [heq] at hsame
              simp only [← hsame, lt_irrefl, false_or, true_and, decide_eq_true_eq]
              omega
        rw [List.dropWhile_cons_of_neg (by simp [heq, hnew]),
          List.filter_cons_of_pos (by simpa [heq] using hnew),
          List.filter_cons_of_neg (by simp [heq]), List.cons_append, ← ih hrest, hstay]
    · have hlater : ∀ next ∈ rest, key < next.userKey := by
        intro next hnext
        rcases hfirst next hnext with hlater | ⟨hsame, -⟩
        · exact hgt.trans hlater
        · exact hsame ▸ hgt
      have hnone : (rest.filter fun entry => entry.userKey = key ∧ entry.sequence ≤ snapshot) = [] :=
        List.filter_eq_nil_iff.mpr fun next hnext => by simp [(hlater next hnext).ne']
      have hall : (rest.filter fun entry => key < entry.userKey) = rest :=
        List.filter_eq_self.mpr fun next hnext => by simpa using hlater next hnext
      rw [List.dropWhile_cons_of_neg (by simp [hgt.le, hgt.ne']),
        List.filter_cons_of_neg (by simp [hgt.ne']),
        List.filter_cons_of_pos (by simpa using hgt), hnone, hall, List.nil_append]

theorem SstFile.seek_eq [LinearOrder K] (file : SstFile K) (key : K) (snapshot : Nat) :
    ∃ rest, file.seek key snapshot = file.visible key snapshot ++ rest ∧
      ∀ entry ∈ rest, entry.userKey ≠ key := by
  have hsorted := file.sorted.imp Entry.Before.notAfter
  refine ⟨_, dropWhile_sorted key snapshot file.entries hsorted, ?_⟩
  intro entry hentry
  exact (of_decide_eq_true (List.mem_filter.mp hentry).2).ne'

section Savers

variable {C : Type}

-- An entry of another key ends the search of a file.
def StopsAtOthers (userKey : C → K) (save : C → Entry K → Outcome (Saved C)) : Prop :=
  ∀ context entry, entry.userKey ≠ userKey context →
    save context entry = .returned { more := false, context }

-- The next entry is looked at for the same key.
def KeepsKey (userKey : C → K) (save : C → Entry K → Outcome (Saved C)) : Prop :=
  ∀ context entry saved, save context entry = .returned saved → saved.more = true →
    userKey saved.context = userKey context

variable {userKey : C → K} {save : C → Entry K → Outcome (Saved C)} {context : C}

section Step

variable {entry : Entry K} {saved : Saved C} (hsave : save context entry = .returned saved)
  (rest : List (Entry K))
include hsave

theorem saveEntries_of_failed (hread : saved.readStatus ≠ .ok) :
    saveEntries save context (entry :: rest) = .returned (saved.readStatus, saved.context) := by
  simp only [saveEntries, hsave, if_pos hread]

theorem saveEntries_of_more (hread : saved.readStatus = .ok) (hmore : saved.more = true) :
    saveEntries save context (entry :: rest) = saveEntries save saved.context rest := by
  simp only [saveEntries, hsave, hread, ne_eq, not_true_eq_false, if_false, if_pos hmore]

theorem saveEntries_of_ends (hread : saved.readStatus = .ok) (hmore : saved.more = false) :
    saveEntries save context (entry :: rest) = .returned (.ok, saved.context) := by
  simp only [saveEntries, hsave, hread, ne_eq, not_true_eq_false, if_false, hmore,
    Bool.false_eq_true]

end Step

theorem StopsAtOthers.saveEntries (h : StopsAtOthers userKey save)
    (hrest : ∀ entry ∈ rest, entry.userKey ≠ userKey context) :
    saveEntries save context rest = .returned (.ok, context) := by
  cases rest with
  | nil => rfl
  | cons entry rest =>
    exact saveEntries_of_ends (h context entry (hrest entry List.mem_cons_self)) rest rfl rfl

theorem saveEntries_append_other (hstops : StopsAtOthers userKey save)
    (hkeeps : KeepsKey userKey save) (visible : List (Entry K))
    (hrest : ∀ entry ∈ rest, entry.userKey ≠ userKey context) :
    saveEntries save context (visible ++ rest) = saveEntries save context visible := by
  induction visible generalizing context with
  | nil => exact hstops.saveEntries hrest
  | cons entry visible ih =>
    rw [List.cons_append, saveEntries, saveEntries]
    cases hsave : save context entry with
    | threw what => rfl
    | aborted reason => rfl
    | returned saved =>
      by_cases hmore : saved.more = true
      · have hrest' := hkeeps context entry saved hsave hmore ▸ hrest
        simp only [if_pos hmore, ih hrest']
      · simp only [if_neg hmore]

variable [LinearOrder K]

theorem SstFile.get_eq (hstops : StopsAtOthers userKey save) (hkeeps : KeepsKey userKey save)
    (file : SstFile K) (snapshot : Nat) (context : C) :
    file.get save (userKey context) snapshot context =
      saveEntries save context (file.visible (userKey context) snapshot) := by
  obtain ⟨rest, hseek, hrest⟩ := file.seek_eq (userKey context) snapshot
  rw [SstFile.get, hseek, saveEntries_append_other hstops hkeeps _ hrest]

def SstFile.newest (file : SstFile K) (key : K) (snapshot : Nat) : Option (Entry K) :=
  (file.visible key snapshot).head?

theorem SstFile.newest_userKey {file : SstFile K} (h : file.newest key snapshot = some entry) :
    entry.userKey = key := by
  have hmem := List.mem_filter.mp (List.mem_of_head? h)
  exact (of_decide_eq_true hmem.2).1

variable {file : SstFile K} {key : K} {snapshot : Nat} (hkey : userKey context = key)
include hkey

theorem SstFile.get_of_none (hstops : StopsAtOthers userKey save)
    (h : file.newest key snapshot = none) :
    file.get save key snapshot context = .returned (.ok, context) := by
  obtain ⟨rest, hseek, hrest⟩ := file.seek_eq key snapshot
  have hnone : file.visible key snapshot = [] := List.head?_eq_none_iff.mp h
  rw [SstFile.get, hseek, hnone, List.nil_append, hstops.saveEntries (hkey ▸ hrest)]

omit hkey

theorem SstFile.get_of_ends (h : file.newest key snapshot = some entry)
    (hsave : save context entry = .returned { more := false, context := next }) :
    file.get save key snapshot context = .returned (.ok, next) := by
  obtain ⟨rest, hseek, -⟩ := file.seek_eq key snapshot
  obtain ⟨older, hvisible⟩ := List.head?_eq_some_iff.mp h
  rw [SstFile.get, hseek, hvisible, List.cons_append]
  exact saveEntries_of_ends hsave _ rfl rfl

end Savers

def ValueType.isDeletion : ValueType → Bool
  | .kTypeDeletion | .kTypeDeletionWithTimestamp | .kTypeSingleDeletion | .kTypeRangeDeletion => true
  | _ => false

def ValueType.isPoint (type : ValueType) : Bool :=
  type = .kTypeValue ∨ type = .kTypeMerge ∨ type.isDeletion = true

namespace RocksDB

-- What is assumed of RocksDB's saver: it is for one key, and the states in which it asks for more
-- are those in which a lookup goes on.
structure Saves (rocks : RocksDB K) : Prop where
  other : StopsAtOthers GetContext.userKey rocks.saveValue
  more : ∀ context entry saved, rocks.saveValue context entry = .returned saved →
    saved.more = true → saved.context.userKey = context.userKey ∧
      saved.context.maxCoveringTombstoneSeq = context.maxCoveringTombstoneSeq ∧
      saved.context.state.searches = true
  ends : ∀ context entry saved, entry.userKey = context.userKey → context.state.searches = true →
    rocks.saveValue context entry = .returned saved → saved.more = false →
    saved.readStatus = .ok → saved.context.state.searches = false

-- What is assumed of puts, deletions and merges of a key of which nothing was seen yet. A merge
-- that the operator can do leaves the state.
structure Points (rocks : RocksDB K) : Prop extends rocks.Saves where
  value : ∀ context entry, entry.userKey = context.userKey → context.state = .kNotFound →
    context.doMerge = true → context.covers entry = false → entry.type = .kTypeValue →
    rocks.saveValue context entry = .returned { more := false, context := { context with
      state := .kFound
      pinnableVal := context.pinnableVal.map fun _ => entry.value } }
  deletion : ∀ context entry, entry.userKey = context.userKey → context.state = .kNotFound →
    entry.type.isDeletion = true →
    rocks.saveValue context entry =
      .returned { more := false, context := { context with state := .kDeleted } }
  operand : ∀ context entry operator result, entry.userKey = context.userKey →
    context.state = .kNotFound → context.doMerge = true → context.covers entry = false →
    entry.type = .kTypeMerge → context.mergeOperator = some operator →
    operator.shouldMerge (entry.value :: context.operands).reverse = true →
    operator.fullMerge context.userKey none (entry.value :: context.operands) = some result →
    ∃ next, rocks.saveValue context entry = .returned { more := false, context := next } ∧
      next.state = .kFound ∧ next.pinnableVal = context.pinnableVal.map fun _ => result
  noBase : ∀ context operator result next, context.mergeOperator = some operator →
    operator.fullMerge context.userKey none context.operands = some result →
    rocks.mergeWithNoBaseValue context = .returned next → next.state = context.state

end RocksDB

namespace RocksDB

-- A saver that keeps to the assumptions: the GDS saver without the value formats, and with the
-- value in `pinnableVal`.
def merge (base : Option Bytes) (context : GetContext K) : Outcome (GetContext K) :=
  match context.mergeOperator with
  | none => .aborted "merge_operator_ != nullptr"
  | some operator =>
    match operator.fullMerge context.userKey base context.operands with
    | some result =>
      .returned { context with pinnableVal := context.pinnableVal.map fun _ => result }
    | none => .returned { context with state := .kMergeOperatorFailed }

def finishMerge (base : Option Bytes) (context : GetContext K) :
    Outcome (Saved (GetContext K)) :=
  (merge base { context with state := .kFound }).map fun merged =>
    { more := false, context := merged }

def withOperand (context : GetContext K) (operand : Bytes) : GetContext K :=
  { context with state := .kMerge, operands := operand :: context.operands }

def saveOperand (context : GetContext K) (operand : Bytes) : Outcome (Saved (GetContext K)) :=
  if (withOperand context operand).shouldMerge = true then
    finishMerge none (withOperand context operand)
  else .returned { more := true, context := withOperand context operand }

def plain [DecidableEq K] : RocksDB K where
  saveValue context entry :=
    if entry.userKey ≠ context.userKey then .returned { more := false, context }
    else if context.state.searches = false then
      .aborted "state_ == kNotFound || state_ == kMerge"
    else if context.covers entry = true ∨ entry.type.isDeletion = true then
      if context.state = .kNotFound then
        .returned { more := false, context := { context with state := .kDeleted } }
      else finishMerge none context
    else if entry.type = .kTypeMerge then saveOperand context entry.value
    else if context.state = .kNotFound then
      .returned { more := false, context := { context with
        state := .kFound
        pinnableVal := context.pinnableVal.map fun _ => entry.value } }
    else finishMerge (some entry.value) context
  mergeWithNoBaseValue := merge none
  mergeWithPlainBaseValue value := merge (some value)
  mergeWithWideColumnBaseValue value := merge (some value)
  parsePackedValueForValue value := value
  valueOfDefaultColumn := some

theorem merge_returned {base : Option Bytes} {context next : GetContext K}
    (h : merge base context = .returned next) :
    ∃ operator, context.mergeOperator = some operator ∧
      match operator.fullMerge context.userKey base context.operands with
      | some result => next = { context with pinnableVal := context.pinnableVal.map fun _ => result }
      | none => next = { context with state := .kMergeOperatorFailed } := by
  rw [merge] at h
  cases hoperator : context.mergeOperator with
  | none =>
    rw [hoperator] at h
    cases h
  | some operator =>
    simp only [hoperator] at h
    refine ⟨operator, rfl, ?_⟩
    split at h <;> (cases h; simp_all)

theorem finishMerge_settled {base : Option Bytes} {context : GetContext K}
    {saved : Saved (GetContext K)} (h : finishMerge base context = .returned saved) :
    saved.more = false ∧ saved.context.state.searches = false := by
  rw [finishMerge] at h
  cases hmerge : merge base { context with state := .kFound } with
  | threw what | aborted reason =>
    rw [hmerge] at h
    cases h
  | returned next =>
    rw [hmerge] at h
    cases h
    obtain ⟨operator, -, hnext⟩ := merge_returned hmerge
    split at hnext <;> (cases hnext; exact ⟨rfl, rfl⟩)

theorem saveOperand_cases {context : GetContext K} {operand : Bytes}
    {saved : Saved (GetContext K)} (h : saveOperand context operand = .returned saved) :
    saved.more = false ∧ saved.context.state.searches = false ∨
      saved = { more := true, context := { context with
        state := .kMerge
        operands := operand :: context.operands } } := by
  rw [saveOperand] at h
  split_ifs at h
  · exact Or.inl (finishMerge_settled h)
  · exact Or.inr (Outcome.returned.inj h).symm

-- A call on an entry of the key settles the lookup, or is that of an operand and asks for more.
theorem plain_cases [DecidableEq K] {context : GetContext K}
    (h : plain.saveValue context entry = .returned saved) :
    entry.userKey ≠ context.userKey ∧ saved = { more := false, context } ∨
      saved.more = false ∧ saved.context.state.searches = false ∨
      saved = { more := true, context := { context with
        state := .kMerge
        operands := entry.value :: context.operands } } := by
  simp only [plain] at h
  split_ifs at h with hkey
  · exact Or.inl ⟨hkey, (Outcome.returned.inj h).symm⟩
  · cases h
    exact Or.inr (Or.inl ⟨rfl, rfl⟩)
  · exact Or.inr (Or.inl (finishMerge_settled h))
  · exact Or.inr (saveOperand_cases h)
  · cases h
    exact Or.inr (Or.inl ⟨rfl, rfl⟩)
  · exact Or.inr (Or.inl (finishMerge_settled h))

theorem plain_saves [DecidableEq K] : (plain : RocksDB K).Saves where
  other context entry hother := if_pos hother
  more context entry saved h hmore := by
    rcases plain_cases h with ⟨-, rfl⟩ | ⟨hfalse, -⟩ | rfl
    · cases hmore
    · rw [hfalse] at hmore
      cases hmore
    · exact ⟨rfl, rfl, rfl⟩
  ends context entry saved hkey _ h hmore _ := by
    rcases plain_cases h with ⟨hother, -⟩ | ⟨-, hsettled⟩ | rfl
    · exact absurd hkey hother
    · exact hsettled
    · cases hmore

theorem plain_points [DecidableEq K] : (plain : RocksDB K).Points where
  toSaves := plain_saves
  value context entry hkey hstate _ hcovers htype := by
    simp [plain, hkey, hstate, GetState.searches, hcovers, htype, ValueType.isDeletion]
  deletion context entry hkey hstate htype := by
    simp [plain, hkey, hstate, GetState.searches, htype]
  operand context entry operator result hkey hstate _ hcovers htype hoperator hshould hmerge := by
    refine ⟨{ context with
      state := .kFound
      operands := entry.value :: context.operands
      pinnableVal := context.pinnableVal.map fun _ => result }, ?_, rfl, rfl⟩
    simp only [plain, hkey, ne_eq, not_true_eq_false, if_false, hstate, GetState.searches,
      Bool.true_eq_false, hcovers, htype, ValueType.isDeletion, Bool.false_eq_true, or_self,
      if_true, saveOperand, withOperand, GetContext.shouldMerge, hoperator, hshould, finishMerge,
      merge, hmerge, Outcome.map]
  noBase context operator result next hoperator hresult h := by
    obtain ⟨other, hother, hnext⟩ := merge_returned h
    obtain rfl : operator = other := Option.some.inj (hoperator.symm.trans hother)
    rw [hresult] at hnext
    rw [hnext]

end RocksDB

-- An operator that is content with any operands.
def MergeOperator.eager (result : Bytes) : MergeOperator K where
  fullMerge _ _ _ := some result
  shouldMerge _ := true

namespace GDSGetContext

variable [DecidableEq K] {rocks : RocksDB K} {context : GDSGetContext K} {entry : Entry K}

theorem stopsAtOthers (rocks : RocksDB K) :
    StopsAtOthers (fun context : GDSGetContext K => context.userKey) (saveValue rocks) :=
  fun _ _ hother => if_pos hother

omit [DecidableEq K] in
theorem finishMerge_ends (h : context.finishMerge merge = .returned saved) :
    ∃ base, merge { context.toGetContext with state := .kFound } = .returned base ∧
      saved = { more := false, context := { context with toGetContext := base } } := by
  rw [finishMerge] at h
  cases hmerge : merge { context.toGetContext with state := .kFound } with
  | threw what | aborted reason =>
    rw [hmerge] at h
    cases h
  | returned base =>
    rw [hmerge] at h
    exact ⟨base, rfl, (Outcome.returned.inj h).symm⟩

omit [DecidableEq K] in
theorem saveBaseValue_ends {type : ValueType}
    (h : saveBaseValue rocks context type value = .returned saved) :
    saved.more = false ∧ saved.readStatus = .ok := by
  rw [saveBaseValue] at h
  split_ifs at h
  all_goals first
    | (cases h; exact ⟨rfl, rfl⟩)
    | (obtain ⟨base, -, rfl⟩ := finishMerge_ends h; exact ⟨rfl, rfl⟩)
    | (split at h <;> cases h <;> exact ⟨rfl, rfl⟩)

omit [DecidableEq K] in
theorem saveDeletion_ends (h : saveDeletion rocks context = .returned saved) :
    saved.more = false ∧ saved.readStatus = .ok := by
  rw [saveDeletion] at h
  split_ifs at h
  · cases h
    exact ⟨rfl, rfl⟩
  · obtain ⟨base, -, rfl⟩ := finishMerge_ends h
    exact ⟨rfl, rfl⟩
  · cases h
    exact ⟨rfl, rfl⟩

-- Only an operand asks for more, and only if the operator is not content with what it has.
theorem saveValue_more (h : saveValue rocks context entry = .returned saved)
    (hmore : saved.more = true) :
    entry.userKey = context.userKey ∧ entry.type = .kTypeMerge ∧
      context.wantsMore entry.value = true ∧
      saved = { more := true, context := context.withOperand entry.value } := by
  rw [saveValue] at h
  split_ifs at h with hkey hstate hcovered
  · cases h
    cases hmore
  · rw [(saveDeletion_ends h).1] at hmore
    cases hmore
  · split at h
    case h_9 htype =>
      rw [saveOperand] at h
      split_ifs at h with hwants
      · cases h
        exact ⟨not_not.mp hkey, htype, hwants, rfl⟩
      · obtain ⟨base, -, rfl⟩ := finishMerge_ends h
        cases hmore
    all_goals first
      | (rw [(saveBaseValue_ends h).1] at hmore; cases hmore)
      | (rw [(saveDeletion_ends h).1] at hmore; cases hmore)
      | (cases h; cases hmore)

-- Only a blob index is an error of its own.
theorem saveValue_failed (h : saveValue rocks context entry = .returned saved)
    (hread : saved.readStatus ≠ .ok) :
    entry.userKey = context.userKey ∧ entry.type = .kTypeBlobIndex := by
  rw [saveValue] at h
  split_ifs at h with hkey hstate hcovered
  · cases h
    exact absurd rfl hread
  · exact absurd (saveDeletion_ends h).2 hread
  · split at h
    case h_4 htype => exact ⟨not_not.mp hkey, htype⟩
    case h_9 =>
      rw [saveOperand] at h
      split_ifs at h
      · cases h
        exact absurd rfl hread
      · obtain ⟨base, -, rfl⟩ := finishMerge_ends h
        exact absurd rfl hread
    all_goals first
      | exact absurd (saveBaseValue_ends h).2 hread
      | exact absurd (saveDeletion_ends h).2 hread

theorem keepsKey (rocks : RocksDB K) :
    KeepsKey (fun context : GDSGetContext K => context.userKey) (saveValue rocks) := by
  intro context entry saved h hmore
  obtain ⟨-, -, -, rfl⟩ := saveValue_more h hmore
  rfl

section Searching

variable (hkey : entry.userKey = context.userKey) (hstate : context.state.searches = true)
  (hcovers : context.covers entry = false)
include hkey hstate hcovers

theorem saveValue_of_type :
    saveValue rocks context entry =
      match entry.type with
      | .kTypeValue | .kTypeValuePreferredSeqno | .kTypeWideColumnEntity =>
        saveBaseValue rocks context entry.type entry.value
      | .kTypeBlobIndex =>
        .returned
          { more := false
            context := context.withState .kCorrupt
            readStatus := .notSupported ("GDS SaveValue does not support kTypeBlobIndex - " ++
              "blob values are not supported in GDS mode") }
      | .kTypeDeletion | .kTypeDeletionWithTimestamp | .kTypeSingleDeletion
      | .kTypeRangeDeletion => saveDeletion rocks context
      | .kTypeMerge => saveOperand rocks context entry.value := by
  rw [saveValue, if_neg (not_not.mpr hkey), if_neg (by rw [hstate]; decide)]
  exact if_neg (by rw [hcovers]; decide)

theorem saveValue_blobIndex (htype : entry.type = .kTypeBlobIndex) :
    ∃ saved, saveValue rocks context entry = .returned saved ∧ saved.readStatus ≠ .ok := by
  rw [saveValue_of_type hkey hstate hcovers, htype]
  exact ⟨_, rfl, Sst.Status.noConfusion⟩

theorem saveValue_operand (htype : entry.type = .kTypeMerge)
    (hmore : context.wantsMore entry.value = true) :
    saveValue rocks context entry =
      .returned { more := true, context := context.withOperand entry.value } := by
  rw [saveValue_of_type hkey hstate hcovers, htype]
  exact if_pos hmore

end Searching

variable (hkey : entry.userKey = context.userKey) (hstate : context.state = .kNotFound)
include hkey hstate

theorem saveValue_value (hcovers : context.covers entry = false) (hmerge : context.doMerge = true)
    (hvalue : context.deviceValue.isSome = true) (htype : entry.type = .kTypeValue) :
    saveValue rocks context entry = .returned { more := false, context := { context with
      state := .kFound
      deviceValue := some entry.value } } := by
  have hnone : context.deviceValue.isNone = false := by
    rw [← Option.not_isSome, hvalue]
    rfl
  simp [saveValue, saveBaseValue, withState, hkey, hstate, GetState.searches, hcovers, htype,
    hmerge, hnone]

theorem saveValue_deletion (htype : entry.type.isDeletion = true) :
    saveValue rocks context entry =
      .returned { more := false, context := context.withState .kDeleted } := by
  have hdeletion : saveDeletion rocks context =
      .returned { more := false, context := context.withState .kDeleted } := if_pos hstate
  rw [saveValue, if_neg (not_not.mpr hkey), if_neg (by rw [hstate]; decide)]
  split_ifs
  · exact hdeletion
  · cases h : entry.type with
    | kTypeDeletion | kTypeDeletionWithTimestamp | kTypeSingleDeletion | kTypeRangeDeletion =>
      exact hdeletion
    | _ =>
      rw [h] at htype
      cases htype

-- A merged value has nowhere to go: the device value stays as the caller passed it.
theorem saveValue_eager (hrocks : rocks.Points) (hcovers : context.covers entry = false)
    (hmerge : context.doMerge = true) (hoperator : context.mergeOperator = some (.eager result))
    (htype : entry.type = .kTypeMerge) (h : saveValue rocks context entry = .returned saved) :
    ∃ next : GDSGetContext K, saved = { more := false, context := next } ∧
      next.state = .kFound ∧ next.deviceValue = context.deviceValue := by
  have hcontent : context.wantsMore entry.value = false := by
    simp [wantsMore, withOperand, GetContext.shouldMerge, pushOperand, withState, hoperator,
      MergeOperator.eager, hmerge]
  rw [saveValue_of_type hkey (by rw [hstate]; rfl) hcovers, htype] at h
  dsimp only at h
  rw [saveOperand, if_neg (by rw [hcontent]; decide)] at h
  obtain ⟨base, hbase, rfl⟩ := finishMerge_ends h
  have hfound := hrocks.noBase _ (.eager result) result base (by exact hoperator) rfl hbase
  exact ⟨_, rfl, hfound, rfl⟩

end GDSGetContext

section Search

variable [LinearOrder K] {rocks : RocksDB K} {operator : Option (MergeOperator K)} {key : K}
  {snapshot : Nat} {value : Bytes} {file : SstFile K} {rest : List (PickedFile K)}
  {entry : Entry K}

-- A file that opens and reads without errors and has no range deletions.
def PickedFile.readable (file : SstFile K) : PickedFile K := { file }

omit [LinearOrder K] in
theorem GetContext.cover_zero (context : GetContext K) : context.cover 0 = context := by
  obtain ⟨operator, userKey, state, pinnableVal, operands, doMerge, seq⟩ := context
  cases seq <;> simp [GetContext.cover]

theorem TableCache.get_readable (rocks : RocksDB K) (file : SstFile K) (snapshot : Nat)
    (context : GetContext K) :
    TableCache.get rocks (.readable file) snapshot context =
      file.get rocks.saveValue context.userKey snapshot context := by
  simp only [TableCache.get, PickedFile.readable, ne_eq, not_true_eq_false, if_false,
    GetContext.cover_zero]

theorem Version.search_readable {context : GetContext K}
    (hseq : context.maxCoveringTombstoneSeq = some 0)
    (hget : file.get rocks.saveValue context.userKey snapshot context = .returned (.ok, next)) :
    Version.search rocks snapshot context (.readable file :: rest) =
      match next.state with
      | .kNotFound | .kMerge => Version.search rocks snapshot next rest
      | .kFound => .returned (.ok, next)
      | .kDeleted => .returned (.notFound, next)
      | .kCorrupt => .returned (.corruption "corrupted key for ", next)
      | .kUnexpectedBlobIndex =>
        .returned (.notSupported ("Encounter unexpected blob index. Please open DB " ++
          "with ROCKSDB_NAMESPACE::blob_db::BlobDB instead."), next)
      | .kMergeOperatorFailed => .returned (.corruption "kMergeOperatorFailed", next) := by
  rw [Version.search, hseq, TableCache.get_readable, hget]
  rfl

section RocksDB

variable (hrocks : rocks.Points)
include hrocks

theorem Version.get_none (h : file.newest key snapshot = none) :
    Version.get rocks operator (.readable file :: rest) key snapshot {} value =
      Version.get rocks operator rest key snapshot {} value := by
  have hget : file.get rocks.saveValue key snapshot (Version.context operator key {} value) =
      .returned (.ok, Version.context operator key {} value) :=
    SstFile.get_of_none rfl hrocks.other h
  rw [Version.get, Version.search_readable rfl hget]
  rfl

theorem Version.get_value (h : file.newest key snapshot = some entry)
    (htype : entry.type = .kTypeValue) :
    Version.get rocks operator (.readable file :: rest) key snapshot {} value =
      .returned (.ok, entry.value) := by
  have hsave := hrocks.value (Version.context operator key {} value) entry
    (SstFile.newest_userKey h) rfl rfl rfl htype
  rw [Version.get, Version.search_readable rfl (SstFile.get_of_ends h hsave)]
  rfl

theorem Version.get_deletion (h : file.newest key snapshot = some entry)
    (htype : entry.type.isDeletion = true) :
    Version.get rocks operator (.readable file :: rest) key snapshot {} value =
      .returned (.notFound, value) := by
  have hsave := hrocks.deletion (Version.context operator key {} value) entry
    (SstFile.newest_userKey h) rfl htype
  rw [Version.get, Version.search_readable rfl (SstFile.get_of_ends h hsave)]
  rfl

theorem Version.get_eager {result : Bytes} (h : file.newest key snapshot = some entry)
    (htype : entry.type = .kTypeMerge) :
    Version.get rocks (some (.eager result)) (.readable file :: rest) key snapshot {} value =
      .returned (.ok, result) := by
  obtain ⟨next, hsave, hstate, hvalue⟩ := hrocks.operand
    (Version.context (some (.eager result)) key {} value) entry (.eager result) result
    (SstFile.newest_userKey h) rfl rfl rfl htype rfl rfl rfl
  rw [Version.get, Version.search_readable rfl (SstFile.get_of_ends h hsave), hstate]
  simp only [Outcome.map, hvalue]
  rfl

end RocksDB

theorem GDSDBAccessor.search_readable (hget : file.get (GDSGetContext.saveValue rocks) key snapshot
      { mergeOperator := operator, userKey := key, deviceValue := some value } =
        .returned (.ok, next)) :
    search rocks operator key snapshot value (.readable file :: rest) =
      match next.state with
      | .kFound => .returned (true, .ok, next.deviceValue.getD value)
      | .kCorrupt => .returned (false, .ioError "Corrupted key", next.deviceValue.getD value)
      | _ => search rocks operator key snapshot (next.deviceValue.getD value) rest := by
  cases hstate : next.state with
  | _ =>
    simp only [search, PickedFile.readable, ne_eq, not_true_eq_false, if_false,
      Bool.true_eq_false, hget, hstate]

theorem GDSDBAccessor.search_none (h : file.newest key snapshot = none) :
    search rocks operator key snapshot value (.readable file :: rest) =
      search rocks operator key snapshot value rest :=
  search_readable (SstFile.get_of_none rfl (GDSGetContext.stopsAtOthers rocks) h)

-- A file whose newest visible version is a deletion is passed over like one without any.
theorem GDSDBAccessor.search_deletion (h : file.newest key snapshot = some entry)
    (htype : entry.type.isDeletion = true) :
    search rocks operator key snapshot value (.readable file :: rest) =
      search rocks operator key snapshot value rest :=
  search_readable (SstFile.get_of_ends h
    (GDSGetContext.saveValue_deletion (SstFile.newest_userKey h) rfl htype))

theorem GDSDBAccessor.search_value (h : file.newest key snapshot = some entry)
    (htype : entry.type = .kTypeValue) :
    search rocks operator key snapshot value (.readable file :: rest) =
      .returned (true, .ok, entry.value) :=
  search_readable (SstFile.get_of_ends h
    (GDSGetContext.saveValue_value (SstFile.newest_userKey h) rfl rfl rfl rfl htype))

theorem GDSDBAccessor.search_eager (hrocks : rocks.Points)
    (h : file.newest key snapshot = some entry) (htype : entry.type = .kTypeMerge)
    (hsearch : search rocks (some (.eager result)) key snapshot value (.readable file :: rest) =
      .returned answer) : answer = (true, .ok, value) := by
  let fresh : GDSGetContext K :=
    { mergeOperator := some (.eager result), userKey := key, deviceValue := some value }
  cases hsave : GDSGetContext.saveValue rocks fresh entry with
  | returned saved =>
    obtain ⟨next, rfl, hstate, hvalue⟩ := GDSGetContext.saveValue_eager
      (SstFile.newest_userKey h) rfl hrocks rfl rfl rfl htype hsave
    rw [search_readable (SstFile.get_of_ends h hsave), hstate, hvalue] at hsearch
    exact (Outcome.returned.inj hsearch).symm
  | threw what | aborted reason =>
    obtain ⟨others, hseek, -⟩ := file.seek_eq key snapshot
    obtain ⟨older, hvisible⟩ := List.head?_eq_some_iff.mp h
    have hget : file.get (GDSGetContext.saveValue rocks) key snapshot fresh =
        saveEntries (GDSGetContext.saveValue rocks) fresh (entry :: (older ++ others)) := by
      rw [SstFile.get, hseek, hvisible, List.cons_append]
    rw [saveEntries, hsave] at hget
    rw [search] at hsearch
    simp only [PickedFile.readable, ne_eq, not_true_eq_false, if_false, Bool.true_eq_false]
      at hsearch
    rw [hget] at hsearch
    cases hsearch

end Search

section Agreement

variable [LinearOrder K]

-- The type of the newest visible version in each file that has one.
def newestTypes (files : List (SstFile K)) (key : K) (snapshot : Nat) : List ValueType :=
  files.filterMap fun file => (file.newest key snapshot).map Entry.type

-- What RocksDB finds is found, and absent is what RocksDB does not find.
def Agrees (rocks : RocksDB K) (operator : Option (MergeOperator K)) (files : List (PickedFile K))
    (slice : KeySlice) (key : K) (snapshot : Nat) (value : Bytes) : Prop :=
  (∀ found, Version.get rocks operator files key snapshot {} [] = .returned (.ok, found) →
    GDSDBAccessor.getFromSST rocks operator files slice key snapshot value =
      .returned (.SUCCESS, found)) ∧
  ((∃ left, GDSDBAccessor.getFromSST rocks operator files slice key snapshot value =
      .returned (.KEY_NOT_FOUND, left)) ↔
    ∃ left, Version.get rocks operator files key snapshot {} [] = .returned (.notFound, left))

-- The device copy of the key that GetFromSST accepts.
def KeySlice.Usable (slice : KeySlice) : Prop :=
  slice.size ≠ 0 ∧ slice.data ≠ 0

variable {rocks : RocksDB K} {files : List (SstFile K)} {key : K} {snapshot : Nat}
  {value : Bytes} {operator : Option (MergeOperator K)}

theorem newestTypes_of_none (h : file.newest key snapshot = none) :
    newestTypes (file :: files) key snapshot = newestTypes files key snapshot :=
  List.filterMap_cons_none (by rw [h]; rfl)

theorem newestTypes_of_some (h : file.newest key snapshot = some entry) :
    newestTypes (file :: files) key snapshot = entry.type :: newestTypes files key snapshot :=
  List.filterMap_cons_some (by rw [h]; rfl)

-- Both searches come to the first file with a visible version.
theorem first_file (hrocks : rocks.Points) {type : ValueType}
    (h : (newestTypes files key snapshot).head? = some type) :
    ∃ file entry rest, file.newest key snapshot = some entry ∧ entry.type = type ∧
      (∀ operator value, Version.get rocks operator (files.map .readable) key snapshot {} value =
        Version.get rocks operator (.readable file :: rest) key snapshot {} value) ∧
      ∀ operator value, GDSDBAccessor.search rocks operator key snapshot value
          (files.map .readable) =
        GDSDBAccessor.search rocks operator key snapshot value (.readable file :: rest) := by
  induction files with
  | nil => cases h
  | cons file files ih =>
    cases hnewest : file.newest key snapshot with
    | none =>
      rw [newestTypes_of_none hnewest] at h
      obtain ⟨first, entry, rest, hfirst, htype, hget, hsearch⟩ := ih h
      refine ⟨first, entry, rest, hfirst, htype, ?_, ?_⟩
      · intro operator value
        rw [List.map_cons, Version.get_none hrocks hnewest, hget]
      · intro operator value
        rw [List.map_cons, GDSDBAccessor.search_none hnewest, hsearch]
    | some entry =>
      rw [newestTypes_of_some hnewest, List.head?_cons, Option.some.injEq] at h
      exact ⟨file, entry, files.map .readable, hnewest, h, fun _ _ => rfl, fun _ _ => rfl⟩

theorem found_of_put (hrocks : rocks.Points) (operator : Option (MergeOperator K)) (value : Bytes)
    (h : (newestTypes files key snapshot).head? = some .kTypeValue) :
    ∃ found, Version.get rocks operator (files.map .readable) key snapshot {} [] =
        .returned (.ok, found) ∧
      GDSDBAccessor.search rocks operator key snapshot value (files.map .readable) =
        .returned (true, .ok, found) := by
  obtain ⟨file, entry, rest, hnewest, htype, hget, hsearch⟩ := first_file hrocks h
  rw [hget, hsearch]
  exact ⟨entry.value, Version.get_value hrocks hnewest htype,
    GDSDBAccessor.search_value hnewest htype⟩

-- The merged value is RocksDB's, the value that the accessor finds is the one from before.
theorem merged_of_merge (hrocks : rocks.Points) (value result : Bytes)
    (h : (newestTypes files key snapshot).head? = some .kTypeMerge) :
    Version.get rocks (some (.eager result)) (files.map .readable) key snapshot {} [] =
        .returned (.ok, result) ∧
      ∀ answer, GDSDBAccessor.search rocks (some (.eager result)) key snapshot value
        (files.map .readable) = .returned answer → answer = (true, .ok, value) := by
  obtain ⟨file, entry, rest, hnewest, htype, hget, hsearch⟩ := first_file hrocks h
  rw [hget, hsearch]
  exact ⟨Version.get_eager hrocks hnewest htype,
    fun _ => GDSDBAccessor.search_eager hrocks hnewest htype⟩

theorem search_of_deleted (h : ∀ type ∈ newestTypes files key snapshot, type.isDeletion = true) :
    GDSDBAccessor.search rocks operator key snapshot value (files.map .readable) =
      .returned (false, .ok, value) := by
  induction files with
  | nil => rfl
  | cons file files ih =>
    rw [List.map_cons]
    cases hnewest : file.newest key snapshot with
    | none =>
      rw [newestTypes_of_none hnewest] at h
      rw [GDSDBAccessor.search_none hnewest, ih h]
    | some entry =>
      rw [newestTypes_of_some hnewest, List.forall_mem_cons] at h
      rw [GDSDBAccessor.search_deletion hnewest h.1, ih h.2]

theorem notFound_of_deletion (hrocks : rocks.Points)
    (h : ∀ type ∈ (newestTypes files key snapshot).head?, type.isDeletion = true) :
    Version.get rocks operator (files.map .readable) key snapshot {} value =
      .returned (.notFound, value) := by
  induction files with
  | nil => rfl
  | cons file files ih =>
    rw [List.map_cons]
    cases hnewest : file.newest key snapshot with
    | none =>
      rw [newestTypes_of_none hnewest] at h
      rw [Version.get_none hrocks hnewest, ih h]
    | some entry =>
      rw [newestTypes_of_some hnewest] at h
      exact Version.get_deletion hrocks hnewest (h entry.type rfl)

-- Under an eager operator a file with a put or a merge on top keeps the search from ending
-- without a value.
theorem search_of_live (hrocks : rocks.Points)
    (hpoint : ∀ type ∈ newestTypes files key snapshot, type.isPoint = true)
    (h : ¬∀ type ∈ newestTypes files key snapshot, type.isDeletion = true) (result left : Bytes) :
    GDSDBAccessor.search rocks (some (.eager result)) key snapshot value (files.map .readable) ≠
      .returned (false, .ok, left) := by
  induction files with
  | nil => exact absurd (fun _ hmem => nomatch hmem) h
  | cons file files ih =>
    rw [List.map_cons]
    cases hnewest : file.newest key snapshot with
    | none =>
      rw [newestTypes_of_none hnewest] at h hpoint
      rw [GDSDBAccessor.search_none hnewest]
      exact ih hpoint h
    | some entry =>
      rw [newestTypes_of_some hnewest, List.forall_mem_cons] at h hpoint
      rcases of_decide_eq_true hpoint.1 with hvalue | hmerge | hdeletion
      · rw [GDSDBAccessor.search_value hnewest hvalue]
        simp
      · intro hsearch
        cases GDSDBAccessor.search_eager hrocks hnewest hmerge hsearch
      · rw [GDSDBAccessor.search_deletion hnewest hdeletion]
        exact ih hpoint.2 fun hall => h ⟨hdeletion, hall⟩

section GetFromSST

variable {slice : KeySlice} {picked : List (PickedFile K)} (husable : slice.Usable)
include husable

theorem getFromSST_of_found (h : GDSDBAccessor.search rocks operator key snapshot value picked =
      .returned (true, .ok, found)) :
    GDSDBAccessor.getFromSST rocks operator picked slice key snapshot value =
      .returned (.SUCCESS, found) := by
  rw [GDSDBAccessor.getFromSST, if_neg (not_or.mpr husable), h]
  rfl

theorem getFromSST_of_none (h : GDSDBAccessor.search rocks operator key snapshot value picked =
      .returned (false, .ok, left)) :
    GDSDBAccessor.getFromSST rocks operator picked slice key snapshot value =
      .returned (.KEY_NOT_FOUND, left) := by
  rw [GDSDBAccessor.getFromSST, if_neg (not_or.mpr husable), h]
  rfl

end GetFromSST

-- What the search ended with, read off the result.
theorem search_of_getFromSST
    (h : GDSDBAccessor.getFromSST rocks operator picked slice key snapshot value =
      .returned (result, last)) (hresult : result ≠ .INVALID_PARAMETER) :
    ∃ found status, GDSDBAccessor.search rocks operator key snapshot value picked =
        .returned (found, status, last) ∧
      result = if found = true then .SUCCESS else
        if status ≠ .ok then .ROCKSDB_ERROR else .KEY_NOT_FOUND := by
  rw [GDSDBAccessor.getFromSST] at h
  split at h
  · cases h
    exact absurd rfl hresult
  split at h
  · rename_i found status value' hsearch
    refine ⟨found, status, ?_⟩
    split_ifs at h ⊢
    all_goals
      cases h
      exact ⟨hsearch, rfl⟩
  · cases h
  · cases h

theorem search_of_keyNotFound
    (h : GDSDBAccessor.getFromSST rocks operator picked slice key snapshot value =
      .returned (.KEY_NOT_FOUND, left)) :
    GDSDBAccessor.search rocks operator key snapshot value picked =
      .returned (false, .ok, left) := by
  obtain ⟨found, status, hsearch, hresult⟩ := search_of_getFromSST h nofun
  split_ifs at hresult with hfound hstatus
  rw [hsearch, Bool.eq_false_iff.mpr hfound, not_not.mp hstatus]

theorem search_of_success
    (h : GDSDBAccessor.getFromSST rocks operator picked slice key snapshot value =
      .returned (.SUCCESS, found)) :
    ∃ status, GDSDBAccessor.search rocks operator key snapshot value picked =
      .returned (true, status, found) := by
  obtain ⟨_, status, hsearch, hresult⟩ := search_of_getFromSST h nofun
  split_ifs at hresult with hfound
  exact ⟨status, hfound ▸ hsearch⟩

theorem get_cases (hrocks : rocks.Points)
    (hpoint : ∀ type ∈ newestTypes files key snapshot, type.isPoint = true) (result : Bytes) :
    (∃ found, Version.get rocks (some (.eager result)) (files.map .readable) key snapshot {} [] =
        .returned (.ok, found)) ∨
      Version.get rocks (some (.eager result)) (files.map .readable) key snapshot {} [] =
        .returned (.notFound, []) := by
  cases htop : (newestTypes files key snapshot).head? with
  | none => exact Or.inr (notFound_of_deletion hrocks (by simp [htop]))
  | some type =>
    rcases of_decide_eq_true (hpoint type (List.mem_of_head? htop)) with
      rfl | rfl | hdeletion
    · obtain ⟨found, hget, -⟩ := found_of_put hrocks (some (.eager result)) [] htop
      exact Or.inl ⟨found, hget⟩
    · exact Or.inl ⟨result, (merged_of_merge hrocks [] result htop).1⟩
    · exact Or.inr (notFound_of_deletion hrocks (by simpa [htop] using hdeletion))

-- An empty or null device key is refused, whatever the files hold.
theorem usable_of_agrees (hrocks : rocks.Points)
    (hpoint : ∀ type ∈ newestTypes files key snapshot, type.isPoint = true)
    (h : Agrees rocks (some (.eager result)) (files.map .readable) slice key snapshot value) :
    slice.Usable := by
  refine not_or.mp fun hrefused => ?_
  have hanswer : GDSDBAccessor.getFromSST rocks (some (.eager result)) (files.map .readable) slice
      key snapshot value = .returned (.INVALID_PARAMETER, value) := if_pos hrefused
  obtain ⟨hfound, hmissing⟩ := h
  rw [hanswer] at hfound hmissing
  rcases get_cases hrocks hpoint result with ⟨found, hget⟩ | hget
  · cases hfound found hget
  · obtain ⟨left, hleft⟩ := hmissing.mpr ⟨[], hget⟩
    cases hleft

end Agreement

end MlkvPlus.Sst
