import MlkvPlus.Data.Transition
import MlkvPlus.Sst.Lookup

namespace MlkvPlus.Sst

open Transition

section Search

variable {K : Type} [LinearOrder K] {key : K} {snapshot : Nat}

def Visible (entries : List (Entry K)) (key : K) (snapshot : Nat) : Prop :=
  ∃ entry ∈ entries, entry.userKey = key ∧ entry.sequence ≤ snapshot

omit [LinearOrder K] in
theorem Visible.mono (h : Visible before key snapshot) (hsub : ∀ entry ∈ before, entry ∈ after) :
    Visible after key snapshot := by
  obtain ⟨entry, hentry, hvisible⟩ := h
  exact ⟨entry, hsub entry hentry, hvisible⟩

def entriesOf (files : List (SstFile K)) : List (Entry K) :=
  files.flatMap SstFile.entries

theorem SstFile.newest_mem {file : SstFile K} (h : file.newest key snapshot = some entry) :
    entry ∈ file.entries :=
  (List.mem_filter.mp (List.mem_of_head? h)).1

theorem SstFile.not_visible_of_none {file : SstFile K} (h : file.newest key snapshot = none) :
    ¬Visible file.entries key snapshot := by
  rintro ⟨entry, hentry, hvisible⟩
  have hnil : file.visible key snapshot = [] := List.head?_eq_none_iff.mp h
  have hmem : entry ∈ file.visible key snapshot :=
    List.mem_filter.mpr ⟨hentry, decide_eq_true hvisible⟩
  rw [hnil] at hmem
  cases hmem

theorem GDSDBAccessor.search_visible {rocks : RocksDB K}
    (hvalues : ∀ entry ∈ entriesOf (files.map PickedFile.file), entry.userKey = key →
      entry.type = .kTypeValue)
    (hvisible : Visible (entriesOf (files.map PickedFile.file)) key snapshot) :
    search rocks operator key snapshot value files ≠ .returned (false, .ok, left) := by
  induction files with
  | nil =>
    obtain ⟨entry, hentry, -⟩ := hvisible
    cases hentry
  | cons picked rest ih =>
    obtain ⟨file, findTable, gdsReader, readStatus, seq⟩ := picked
    by_cases htable : findTable = .ok
    case neg => simp [search, htable]
    by_cases hreader : gdsReader = true
    case neg => simp [search, htable, hreader]
    by_cases hread : readStatus = .ok
    case neg => simp [search, htable, hreader, hread]
    subst htable hreader hread
    have hfile : ∀ entry ∈ file.entries,
        entry ∈ entriesOf (((⟨file, .ok, true, .ok, seq⟩ : PickedFile K) :: rest).map
          PickedFile.file) := fun entry hentry =>
      List.mem_append_left _ hentry
    change search rocks operator key snapshot value (.readable file :: rest) ≠ _
    cases hnewest : file.newest key snapshot with
    | some entry =>
      have htype := hvalues entry (hfile entry (SstFile.newest_mem hnewest))
        (SstFile.newest_userKey hnewest)
      rw [search_value hnewest htype]
      simp
    | none =>
      rw [search_none hnewest]
      refine ih (fun entry hentry => hvalues entry (List.mem_append_right _ hentry)) ?_
      obtain ⟨entry, hentry, hsees⟩ := hvisible
      rcases List.mem_append.mp hentry with hhere | hlater
      · exact absurd ⟨entry, hhere, hsees⟩ (SstFile.not_visible_of_none hnewest)
      · exact ⟨entry, hlater, hsees⟩

theorem GDSDBAccessor.getFromSST_visible
    (hvalues : ∀ entry ∈ entriesOf (files.map PickedFile.file), entry.userKey = key →
      entry.type = .kTypeValue)
    (hvisible : Visible (entriesOf (files.map PickedFile.file)) key snapshot) :
    getFromSST rocks operator files slice key snapshot value ≠ .returned (.KEY_NOT_FOUND, left) :=
  fun hmissed => search_visible hvalues hvisible (search_of_keyNotFound hmissed)

end Search

namespace Snapshot

-- A lookup has chosen its number, and then holds the files of its SuperVersion.
inductive Phase (K : Type) [LinearOrder K] where
  | chosen
  | referenced (files : List (SstFile K))

-- `flushed` says that a file had a version of the key when the lookup started.
structure Lookup (K : Type) [LinearOrder K] where
  key : K
  snapshot : Nat
  flushed : Bool
  phase : Phase K

structure Answer (K : Type) where
  key : K
  flushed : Bool
  overwrittenOnly : Bool
  result : Outcome (OperationResult × Bytes)

-- `snapshots` are the numbers RocksDB knows to be in use, and `overwrittenOnly` the keys that
-- got nothing but values.
structure State (Client K : Type) [LinearOrder K] where
  lastSequence : Nat
  memtable : List (Entry K)
  files : List (SstFile K)
  snapshots : List Nat
  overwrittenOnly : K → Bool
  lookups : Client → Option (Lookup K)
  answers : List (Answer K)

-- What a search meets: RocksDB's part of it, the device copy of the key, the memory of the
-- output, and what opening and reading the files gives.
structure SearchEnv (K : Type) where
  rocks : RocksDB K
  mergeOperator : Option (MergeOperator K) := none
  slice : KeySlice
  value : Bytes := []
  findTable : Nat → Status := fun _ => .ok
  gdsReader : Nat → Bool := fun _ => true
  readStatus : Nat → Status := fun _ => .ok
  coveringTombstoneSeq : Nat → Nat := fun _ => 0

inductive Event (Client K : Type) [LinearOrder K] where
  | write (key : K) (type : ValueType) (value : Bytes)
  | getSnapshot
  | releaseSnapshot (snapshot : Nat)
  | flush (file : SstFile K)
  | compact (after : List (SstFile K))
  | choose (client : Client) (key : K) (snapshot : Option Nat)
  | reference (client : Client)
  | search (client : Client) (env : SearchEnv K)

section

variable {K : Type} [LinearOrder K]

-- A newer version takes the place of this one for every snapshot in the list.
def Droppable (snapshots : List Nat) (entries : List (Entry K)) (entry : Entry K) : Prop :=
  ∃ newer ∈ entries, newer.userKey = entry.userKey ∧ entry.sequence < newer.sequence ∧
    ∀ snapshot ∈ snapshots, ¬(entry.sequence ≤ snapshot ∧ snapshot < newer.sequence)

instance (snapshots : List Nat) (entries : List (Entry K)) (entry : Entry K) :
    Decidable (Droppable snapshots entries entry) :=
  inferInstanceAs (Decidable (∃ newer ∈ entries, newer.userKey = entry.userKey ∧
    entry.sequence < newer.sequence ∧
      ∀ snapshot ∈ snapshots, ¬(entry.sequence ≤ snapshot ∧ snapshot < newer.sequence)))

-- What a flush or a compaction may make of the entries it reads.
def Retains (snapshots : List Nat) (before after : List (Entry K)) : Prop :=
  (∀ entry ∈ after, entry ∈ before) ∧
    ∀ entry ∈ before, entry ∉ after → Droppable snapshots before entry

instance (snapshots : List Nat) (before after : List (Entry K)) :
    Decidable (Retains snapshots before after) :=
  inferInstanceAs (Decidable ((∀ entry ∈ after, entry ∈ before) ∧
    ∀ entry ∈ before, entry ∉ after → Droppable snapshots before entry))

def SearchEnv.picked (env : SearchEnv K) (files : List (SstFile K)) : List (PickedFile K) :=
  files.mapIdx fun index file =>
    ⟨file, env.findTable index, env.gdsReader index, env.readStatus index,
      env.coveringTombstoneSeq index⟩

-- The files a lookup will search, if it references the SuperVersion now.
def Lookup.files (lookup : Lookup K) (current : List (SstFile K)) : List (SstFile K) :=
  match lookup.phase with
  | .chosen => current
  | .referenced files => files

-- The newest version that a snapshot sees is not dropped for it.
theorem visible_of_droppable {before after : List (Entry K)}
    (hdropped : ∀ entry ∈ before, entry.userKey = key → entry ∉ after →
      Droppable [snapshot] before entry) (hvisible : Visible before key snapshot) :
    Visible after key snapshot := by
  obtain ⟨entry, hentry, hkey, hle⟩ := hvisible
  -- from a dropped version to the newer one that took its place
  induction hdistance : snapshot - entry.sequence using Nat.strong_induction_on generalizing entry
    with
  | _ distance ih =>
    by_cases hkept : entry ∈ after
    · exact ⟨entry, hkept, hkey, hle⟩
    · obtain ⟨newer, hnewer, hsame, hlt, hneeded⟩ := hdropped entry hentry hkey hkept
      have hsees := hneeded snapshot (List.mem_singleton.mpr rfl)
      exact ih (snapshot - newer.sequence) (by omega) newer hnewer (hsame.trans hkey) (by omega)
        rfl

end

variable {Client K : Type} [LinearOrder K]

namespace State

def flushed (s : State Client K) : List (Entry K) := entriesOf s.files

def stored (s : State Client K) : List (Entry K) := s.memtable ++ s.flushed

def write (s : State Client K) (key : K) (type : ValueType) (value : Bytes) : State Client K :=
  { s with
    lastSequence := s.lastSequence + 1
    memtable := ⟨key, s.lastSequence + 1, type, value⟩ :: s.memtable
    overwrittenOnly := fun other =>
      s.overwrittenOnly other && (decide (other ≠ key) || decide (type = .kTypeValue)) }

variable [DecidableEq Client]

-- Without a snapshot in the read options the number is the last one, and nobody is told.
def choose (s : State Client K) (client : Client) (key : K) (snapshot : Option Nat) :
    State Client K :=
  let lookup : Lookup K := ⟨key, snapshot.getD s.lastSequence,
    s.flushed.any fun entry => decide (entry.userKey = key), .chosen⟩
  { s with lookups := Function.update s.lookups client (some lookup) }

def reference (s : State Client K) (client : Client) (lookup : Lookup K) : State Client K :=
  let next := { lookup with phase := .referenced s.files }
  { s with lookups := Function.update s.lookups client (some next) }

def search (s : State Client K) (client : Client) (env : SearchEnv K) (lookup : Lookup K)
    (files : List (SstFile K)) : State Client K :=
  let result := GDSDBAccessor.getFromSST env.rocks env.mergeOperator (env.picked files) env.slice
    lookup.key lookup.snapshot env.value
  let answer := ⟨lookup.key, lookup.flushed, s.overwrittenOnly lookup.key, result⟩
  { s with
    lookups := Function.update s.lookups client none
    answers := answer :: s.answers }

def step (s : State Client K) : Event Client K → Option (State Client K)
  | .write key type value => some (s.write key type value)
  | .getSnapshot => some { s with snapshots := s.lastSequence :: s.snapshots }
  | .releaseSnapshot snapshot => some { s with snapshots := s.snapshots.erase snapshot }
  | .flush file =>
    if Retains s.snapshots s.memtable file.entries then
      some { s with memtable := [], files := file :: s.files }
    else none
  | .compact after =>
    if Retains s.snapshots s.flushed (entriesOf after) then some { s with files := after } else none
  | .choose client key snapshot =>
    if (s.lookups client).isNone = true ∧ ∀ number ∈ snapshot, number ∈ s.snapshots then
      some (s.choose client key snapshot)
    else none
  | .reference client =>
    match s.lookups client with
    | some lookup@⟨_, _, _, .chosen⟩ => some (s.reference client lookup)
    | _ => none
  | .search client env =>
    match s.lookups client with
    | some lookup@⟨_, _, _, .referenced files⟩ => some (s.search client env lookup files)
    | _ => none

end State

-- The numbers of the versions are not above the last one.
def machine (Client K : Type) [LinearOrder K] [DecidableEq Client] :
    Machine (State Client K) (Event Client K) where
  initial s := (∀ client, s.lookups client = none) ∧ s.answers = [] ∧
    (∀ entry ∈ s.stored, entry.sequence ≤ s.lastSequence) ∧
    ∀ entry ∈ s.stored, s.overwrittenOnly entry.userKey = true → entry.type = .kTypeValue
  step := State.step

-- A key that had a flushed version and was never deleted is not missed.
def Answer.Right (answer : Answer K) : Prop :=
  answer.flushed = true → answer.overwrittenOnly = true →
    ∀ value, answer.result ≠ .returned (.KEY_NOT_FOUND, value)

-- A compaction keeps, of the key of a lookup that has chosen its number and not yet referenced
-- the SuperVersion, what a snapshot at that number would need. A snapshot in the read options
-- sees some flushed version of the key.
def Calm (s : State Client K) : Event Client K → Prop
  | .compact after => ∀ client lookup, s.lookups client = some lookup → lookup.phase = .chosen →
      ∀ entry ∈ s.flushed, entry.userKey = lookup.key → entry ∉ entriesOf after →
        Droppable [lookup.snapshot] s.flushed entry
  | .choose _ key (some snapshot) => (∃ entry ∈ s.flushed, entry.userKey = key) →
      Visible s.flushed key snapshot
  | _ => True

structure Inv (s : State Client K) : Prop where
  bound : ∀ entry ∈ s.stored, entry.sequence ≤ s.lastSequence
  values : ∀ entry ∈ s.stored, s.overwrittenOnly entry.userKey = true → entry.type = .kTypeValue
  visible : ∀ client lookup, s.lookups client = some lookup → lookup.flushed = true →
    Visible (entriesOf (lookup.files s.files)) lookup.key lookup.snapshot
  pinned : ∀ client lookup, s.lookups client = some lookup →
    ∀ entry ∈ entriesOf (lookup.files s.files), s.overwrittenOnly entry.userKey = true →
      entry.type = .kTypeValue
  answers : ∀ answer ∈ s.answers, answer.Right

variable {s : State Client K}

theorem Inv.write (h : Inv s) (key : K) (type : ValueType) (value : Bytes) :
    Inv (s.write key type value) := by
  have honly : ∀ other, (s.write key type value).overwrittenOnly other = true →
      s.overwrittenOnly other = true := fun other hother => (Bool.and_eq_true_iff.mp hother).1
  refine ⟨fun entry hentry => ?_, fun entry hentry hput => ?_, h.visible,
    fun client lookup hlookup entry hentry hput =>
      h.pinned client lookup hlookup entry hentry (honly _ hput), h.answers⟩
  · change entry.sequence ≤ s.lastSequence + 1
    rcases List.mem_cons.mp hentry with rfl | hold
    · exact Nat.le_refl _
    · exact Nat.le_succ_of_le (h.bound entry hold)
  · rcases List.mem_cons.mp hentry with rfl | hold
    · simpa using (Bool.and_eq_true_iff.mp hput).2
    · exact h.values entry hold (honly _ hput)

-- A flush or a compaction brings no new versions, and changes nothing for a lookup that has its
-- SuperVersion.
theorem Inv.withFiles (h : Inv s)
    (hstored : ∀ entry ∈ memtable ++ entriesOf after, entry ∈ s.stored)
    (hvisible : ∀ client lookup, s.lookups client = some lookup → lookup.phase = .chosen →
      Visible s.flushed lookup.key lookup.snapshot →
      Visible (entriesOf after) lookup.key lookup.snapshot) :
    Inv { s with memtable := memtable, files := after } := by
  refine ⟨fun entry hentry => h.bound entry (hstored entry hentry),
    fun entry hentry => h.values entry (hstored entry hentry),
    fun client lookup hlookup hflushed => ?_, fun client lookup hlookup entry hentry => ?_,
    h.answers⟩
  · have hbefore := h.visible client lookup hlookup hflushed
    cases hphase : lookup.phase with
    | chosen =>
      rw [Lookup.files, hphase] at hbefore ⊢
      exact hvisible client lookup hlookup hphase hbefore
    | referenced files =>
      rw [Lookup.files, hphase] at hbefore ⊢
      exact hbefore
  · have hbefore := h.pinned client lookup hlookup
    cases hphase : lookup.phase with
    | chosen =>
      rw [Lookup.files, hphase] at hentry
      exact h.values entry (hstored entry (List.mem_append_right _ hentry))
    | referenced files =>
      rw [Lookup.files, hphase] at hbefore hentry
      exact hbefore entry hentry

theorem Inv.flush (h : Inv s) (hretains : Retains s.snapshots s.memtable file.entries) :
    Inv { s with memtable := [], files := file :: s.files } := by
  refine h.withFiles (fun entry hentry => ?_) fun client lookup _ _ hvisible =>
    hvisible.mono fun entry hentry => List.mem_append_right _ hentry
  have hcases : entry ∈ file.entries ++ s.flushed := hentry
  rcases List.mem_append.mp hcases with hnew | hold
  · exact List.mem_append_left _ (hretains.1 entry hnew)
  · exact List.mem_append_right _ hold

theorem Inv.compact (h : Inv s) {after : List (SstFile K)}
    (hretains : Retains s.snapshots s.flushed (entriesOf after)) (hcalm : Calm s (.compact after)) :
    Inv { s with files := after } := by
  refine h.withFiles (fun entry hentry => ?_) fun client lookup hlookup hphase hvisible =>
    visible_of_droppable (hcalm client lookup hlookup hphase) hvisible
  rcases List.mem_append.mp hentry with hold | hkept
  · exact List.mem_append_left _ hold
  · exact List.mem_append_right _ (hretains.1 entry hkept)

theorem picked_files (env : SearchEnv K) (files : List (SstFile K)) :
    (env.picked files).map PickedFile.file = files := by
  apply List.ext_getElem
  · simp [SearchEnv.picked]
  · intro index hpicked hfile
    simp [SearchEnv.picked]

variable [DecidableEq Client]

theorem Inv.update (h : Inv s) (client : Client)
    (hvisible : ∀ lookup, changed = some lookup → lookup.flushed = true →
      Visible (entriesOf (lookup.files s.files)) lookup.key lookup.snapshot)
    (hpinned : ∀ lookup, changed = some lookup → lookup.files s.files = s.files) :
    Inv { s with lookups := Function.update s.lookups client changed } := by
  refine ⟨h.bound, h.values, fun other lookup hlookup => ?_, fun other lookup hlookup => ?_,
    h.answers⟩
  · rcases some_of_update hlookup with hchanged | hold
    · exact hvisible lookup hchanged
    · exact h.visible other lookup hold
  · rcases some_of_update hlookup with hchanged | hold
    · dsimp only
      rw [hpinned lookup hchanged]
      exact fun entry hentry => h.values entry (List.mem_append_right _ hentry)
    · exact h.pinned other lookup hold

theorem Inv.choose (h : Inv s) (client : Client) (key : K) (snapshot : Option Nat)
    (hcalm : Calm s (.choose client key snapshot)) : Inv (s.choose client key snapshot) := by
  refine h.update client ?_ (by rintro lookup ⟨rfl⟩; rfl)
  rintro lookup ⟨rfl⟩ hflushed
  obtain ⟨entry, hentry, hkey⟩ := List.any_eq_true.mp hflushed
  have hsame : entry.userKey = key := of_decide_eq_true hkey
  cases snapshot with
  | none => exact ⟨entry, hentry, hsame, h.bound entry (List.mem_append_right _ hentry)⟩
  | some number => exact hcalm ⟨entry, hentry, hsame⟩

theorem Inv.reference (h : Inv s) (hlookup : s.lookups client = some lookup)
    (hphase : lookup.phase = .chosen) : Inv (s.reference client lookup) := by
  refine h.update client ?_ (by rintro next ⟨rfl⟩; rfl)
  rintro next ⟨rfl⟩ hflushed
  have hvisible := h.visible client lookup hlookup hflushed
  rw [Lookup.files, hphase] at hvisible
  exact hvisible

theorem Inv.search (h : Inv s) (env : SearchEnv K) (hlookup : s.lookups client = some lookup)
    (hphase : lookup.phase = .referenced files) : Inv (s.search client env lookup files) := by
  have hrest : Inv { s with lookups := Function.update s.lookups client none } :=
    h.update client (by simp) (by simp)
  refine ⟨hrest.bound, hrest.values, hrest.visible, hrest.pinned,
    List.forall_mem_cons.mpr ⟨fun hflushed hput value => ?_, h.answers⟩⟩
  have hvisible := h.visible client lookup hlookup hflushed
  have hpinned := h.pinned client lookup hlookup
  rw [Lookup.files, hphase] at hvisible hpinned
  refine GDSDBAccessor.getFromSST_visible (fun entry hentry hkey => ?_) ?_
  · rw [picked_files] at hentry
    exact hpinned entry hentry (hkey ▸ hput)
  · rw [picked_files]
    exact hvisible

theorem Inv.step (h : Inv s) (hcalm : Calm s event) (hstep : s.step event = some next) :
    Inv next := by
  cases event with
  | write key type value =>
    cases hstep
    exact h.write key type value
  | getSnapshot =>
    cases hstep
    exact ⟨h.bound, h.values, h.visible, h.pinned, h.answers⟩
  | releaseSnapshot snapshot =>
    cases hstep
    exact ⟨h.bound, h.values, h.visible, h.pinned, h.answers⟩
  | flush file =>
    simp only [State.step, Option.ite_none_right_eq_some, Option.some.injEq] at hstep
    obtain ⟨hretains, rfl⟩ := hstep
    exact h.flush hretains
  | compact after =>
    simp only [State.step, Option.ite_none_right_eq_some, Option.some.injEq] at hstep
    obtain ⟨hretains, rfl⟩ := hstep
    exact h.compact hretains hcalm
  | choose client key snapshot =>
    simp only [State.step, Option.ite_none_right_eq_some, Option.some.injEq] at hstep
    obtain ⟨-, rfl⟩ := hstep
    exact h.choose client key snapshot hcalm
  | reference client =>
    rw [State.step] at hstep
    split at hstep
    · rename_i hlookup
      cases hstep
      exact h.reference hlookup rfl
    · cases hstep
  | search client env =>
    rw [State.step] at hstep
    split at hstep
    · rename_i hlookup
      cases hstep
      exact h.search env hlookup rfl
    · cases hstep

-- In every interleaving in which the compactions leave the running lookups what they need, no
-- flushed key is missed.
theorem flushed_keys_found (s : State Client K) (h : (machine Client K).Reachable Calm s) :
    ∀ answer ∈ s.answers, answer.Right := by
  have hinv : Inv s := by
    refine h.invariant (fun start hstart => ?_) fun before event after hbefore hcalm hstep =>
      hbefore.step hcalm hstep
    obtain ⟨hidle, hanswers, hbound, hvalues⟩ := hstart
    refine ⟨hbound, hvalues, fun client lookup hlookup => ?_, fun client lookup hlookup => ?_, ?_⟩
    · rw [hidle] at hlookup
      cases hlookup
    · rw [hidle] at hlookup
      cases hlookup
    · rw [hanswers]
      exact List.forall_mem_nil _
  exact hinv.answers

def opened : State Nat Nat := ⟨0, [], [], [], fun _ => true, fun _ => none, []⟩

-- A file with one version of key 7.
def oneVersion (sequence : Nat) (value : Bytes) : SstFile Nat :=
  ⟨[⟨7, sequence, .kTypeValue, value⟩], List.pairwise_singleton _ _⟩

-- Key 7 has a flushed version, a lookup chooses number 1, and the key is overwritten and flushed.
def overwriteAfterChoice : List (Event Nat Nat) :=
  [.write 7 .kTypeValue [1], .flush (oneVersion 1 [1]), .choose 0 7 none,
    .write 7 .kTypeValue [2], .flush (oneVersion 2 [2])]

-- The compaction comes after the SuperVersion is referenced.
def compactLate : List (Event Nat Nat) :=
  overwriteAfterChoice ++
    [.reference 0, .compact [oneVersion 2 [2]], .search 0 { rocks := .plain, slice := ⟨4096, 8⟩ }]

theorem flushed_keys_found_compactLate :
    ∃ s, (machine Nat Nat).exec opened compactLate = some s ∧
      s.answers = [⟨7, true, true, .returned (.SUCCESS, [1])⟩] ∧
      ∀ answer ∈ s.answers, answer.Right := by
  have hcalm : (machine Nat Nat).Allows Calm opened compactLate := by
    refine .cons trivial rfl <| .cons trivial rfl <| .cons trivial rfl <| .cons trivial rfl <|
      .cons trivial rfl <| .cons trivial rfl <| .cons ?_ rfl <| .cons trivial rfl trivial
    intro client lookup hlookup hphase
    by_cases hclient : client = 0
    · subst hclient
      cases hlookup
      cases hphase
    · simp [State.reference, State.choose, State.write, opened, hclient] at hlookup
  have hinitial : (machine Nat Nat).initial opened :=
    ⟨fun _ => rfl, rfl, List.forall_mem_nil _, List.forall_mem_nil _⟩
  exact ⟨_, rfl, rfl, flushed_keys_found _ (.exec compactLate (.start hinitial) hcalm rfl)⟩

-- The compaction drops version 1, which no snapshot needs, before the SuperVersion is referenced.
-- The search then finds version 2 only, and that is above its number.
def compactEarly : List (Event Nat Nat) :=
  overwriteAfterChoice ++
    [.compact [oneVersion 2 [2]], .reference 0, .search 0 { rocks := .plain, slice := ⟨4096, 8⟩ }]

theorem flushed_key_missed_compactEarly :
    ∃ s, (machine Nat Nat).exec opened compactEarly = some s ∧
      (machine Nat Nat).Reachable (fun _ _ => True) s ∧
      s.answers = [⟨7, true, true, .returned (.KEY_NOT_FOUND, [])⟩] ∧
      ∃ answer ∈ s.answers, ¬answer.Right := by
  have hinitial : (machine Nat Nat).initial opened :=
    ⟨fun _ => rfl, rfl, List.forall_mem_nil _, List.forall_mem_nil _⟩
  refine ⟨_, rfl, .exec compactEarly (.start hinitial) (Machine.allows_true _ _ _) rfl, rfl, _,
    List.mem_cons_self, fun hright => ?_⟩
  exact hright rfl rfl [] rfl

end Snapshot

end MlkvPlus.Sst
