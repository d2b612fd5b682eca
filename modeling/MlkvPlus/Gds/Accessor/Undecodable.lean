import MlkvPlus.Gds.Accessor
import MlkvPlus.Gds.Block.Malformed

namespace MlkvPlus.Gds

open Sst (Status GDSGetContext KeySlice MergeOperator)

namespace GDSDataBlockIter

variable {data : Memory} {target : Bytes}

theorem restarts_scanEntry
    (h : scanEntry data target iter = .stop next ∨ scanEntry data target iter = .more next) :
    next.restarts = iter.restarts := by
  rw [scanEntry] at h
  split at h
  case isFalse =>
    rcases h with h | h
    · cases h
      rfl
    · cases h
  case isTrue =>
    split at h
    case h_1 =>
      rcases h with h | h
      · cases h
        rfl
      · cases h
    case h_2 entry _ =>
      dsimp only at h
      split at h
      · rcases h with h | h
        · cases h
          rw [restarts_accept, restarts_loadEntry]
        · cases h
      · rcases h with h | h
        · cases h
        · cases h
          rw [restarts_moveTo, restarts_loadEntry]

theorem restarts_scan (h : scan data target fuel iter = some next) :
    next.restarts = iter.restarts := by
  induction fuel generalizing iter with
  | zero => cases h
  | succ fuel ih =>
    rw [scan] at h
    split at h
    case h_1 stopped hstop =>
      cases h
      exact restarts_scanEntry (Or.inl hstop)
    case h_2 more hmore => exact (ih h).trans (restarts_scanEntry (Or.inr hmore))

theorem restarts_seekKernel (h : seekKernel data target fuel iter = some next) :
    next.restarts = iter.restarts := by
  rw [seekKernel] at h
  dsimp only at h
  split at h
  · cases h
  · cases h
    rfl
  · exact (restarts_scan h).trans rfl

end GDSDataBlockIter

-- What a lookup has before it: an entry as the iterator shows it, a block that is not read or not
-- initialised, or the end of the blocks for the key. `index` is the status that the index
-- iterator has there.
inductive Seen where
  | entry (index : Status) (key value : Bytes)
  | broken (status : Status)
  | ended (index : Status)

namespace GDSBlockBasedTableReader

variable {reader : GDSBlockBasedTableReader} {fuel : Nat} {key : Bytes} {skipFilters : Bool}

-- The keys and values of a block from the position of the iterator on.
def shown (data : Memory) :
    Nat → GDSDataBlockIter → Option (List (Bytes × Bytes) × GDSDataBlockIter)
  | 0, _ => none
  | fuel + 1, iter =>
    if iter.validFlag = true then
      (shown data fuel (iter.nextKernel data)).map fun rest =>
        ((iter.key, iter.dValue data) :: rest.1, rest.2)
    else some ([], iter)

-- Everything in the blocks of the index entries, up to the first that is not searched.
def sees (reader : GDSBlockBasedTableReader) (fuel : Nat) (key : Bytes) (skipFilters : Bool) :
    List IndexEntry → GDSDataBlockIterDevicePinnedBuffer → Option (List Seen)
  | [], _ => some [.ended (reader.indexStatus key [])]
  | entry :: rest, buffer =>
    let index := reader.indexStatus key (entry :: rest)
    if fallsBetween key skipFilters entry.value = true then some [.ended index]
    else
      match reader.newDataBlockIterator entry.value.handle buffer with
      | .error status => some [.broken status]
      | .ok (data, biter) =>
        match biter.seekKernel data key fuel with
        | none => none
        | some biter =>
          match shown data fuel biter with
          | none => none
          | some (entries, last) =>
            (reader.sees fuel key skipFilters rest
              last.toGDSDataBlockIterDevicePinnedBuffer).map fun later =>
                entries.map (fun entry => .entry index entry.1 entry.2) ++ later

section Ends

theorem shown_isSome (data : Memory) (hrestarts : iter.restarts < 2 ^ 32)
    (hfuel : iter.restarts - iter.nextOffset + 1 < fuel) :
    (shown data fuel iter).isSome = true := by
  induction fuel generalizing iter with
  | zero => omega
  | succ fuel ih =>
    rw [shown]
    split
    case isFalse => rfl
    case isTrue =>
      rw [Option.isSome_map]
      rcases iter.nextKernel_forward data hrestarts with hinvalid | ⟨hforward, hend, hsame⟩
      · obtain ⟨fuel, rfl⟩ := Nat.exists_eq_add_one_of_ne_zero (show fuel ≠ 0 by omega)
        rw [shown, if_neg (by rw [hinvalid]; decide)]
        rfl
      · exact ih (by omega) (by omega)

theorem restarts_newDataBlockIterator
    (h : reader.newDataBlockIterator handle buffer = .ok (data, iter)) :
    iter.restarts < 2 ^ 32 := by
  rw [newDataBlockIterator] at h
  split at h
  · cases h
  · split at h
    · cases h
    · split at h
      case h_1 metadata hmetadata =>
        split at h
        · cases h
          exact restartOffset_lt (Nat.mod_lt _ (Nat.two_pow_pos 32)) hmetadata
        · cases h
      · cases h
      · cases h

theorem sees_isSome (hfuel : 2 ^ 33 ≤ fuel) (entries : List IndexEntry)
    (buffer : GDSDataBlockIterDevicePinnedBuffer) :
    (reader.sees fuel key skipFilters entries buffer).isSome = true := by
  induction entries generalizing buffer with
  | nil => rfl
  | cons entry rest ih =>
    rw [sees]
    split
    · rfl
    · split
      · rfl
      case h_2 data biter hnew =>
        have hrestarts := restarts_newDataBlockIterator hnew
        have hseek := biter.seekKernel_isSome data key hrestarts (show 2 ^ 32 ≤ fuel by omega)
        split
        case h_1 hnone =>
          rw [hnone] at hseek
          cases hseek
        case h_2 found hfound =>
          have hsame := GDSDataBlockIter.restarts_seekKernel hfound
          have hshown : (shown data fuel found).isSome = true :=
            shown_isSome data (by omega) (by omega)
          split
          case h_1 hnone =>
            rw [hnone] at hshown
            cases hshown
          case h_2 => rw [Option.isSome_map, ih]

end Ends

-- Why a lookup fails on what it has before it. It goes on from entry to entry only over operands
-- of its own key that the merge operator is not content with, and what it meets then is a block
-- that cannot be used, a key that does not parse or a blob index; or it ends there, and the index
-- iterator has an error.
inductive Fails (rocks : Sst.RocksDB Bytes) : GDSGetContext Bytes → List Seen → Prop where
  | block {context : GDSGetContext Bytes} {status : Status} {rest : List Seen}
      (hstatus : status ≠ .ok) : Fails rocks context (.broken status :: rest)
  | key {context : GDSGetContext Bytes} {index status : Status} {key value : Bytes}
      {rest : List Seen} (hparse : parseInternalKey key = .error status) :
      Fails rocks context (.entry index key value :: rest)
  | blobIndex {context : GDSGetContext Bytes} {index : Status} {key value : Bytes}
      {rest : List Seen} {parsed : ParsedInternalKey} (hparse : parseInternalKey key = .ok parsed)
      (hkey : parsed.userKey = context.userKey) (htype : parsed.type = .kTypeBlobIndex) :
      Fails rocks context (.entry index key value :: rest)
  | operand {context : GDSGetContext Bytes} {index : Status} {key value : Bytes}
      {rest : List Seen} {parsed : ParsedInternalKey} (hparse : parseInternalKey key = .ok parsed)
      (hkey : parsed.userKey = context.userKey) (htype : parsed.type = .kTypeMerge)
      (hmore : context.wantsMore value = true)
      (hrest : Fails rocks (context.withOperand value) rest) :
      Fails rocks context (.entry index key value :: rest)
  | index {context next : GDSGetContext Bytes} {index : Status} {key value : Bytes}
      {rest : List Seen} {parsed : ParsedInternalKey} (hparse : parseInternalKey key = .ok parsed)
      (hends : GDSGetContext.saveValue rocks context
        ⟨parsed.userKey, parsed.sequence, parsed.type, value⟩ =
          .returned { more := false, context := next })
      (hindex : index ≠ .ok) : Fails rocks context (.entry index key value :: rest)
  | ended {context : GDSGetContext Bytes} {index : Status} {rest : List Seen}
      (hindex : index ≠ .ok) : Fails rocks context (.ended index :: rest)

theorem fails_broken_iff {rocks : Sst.RocksDB Bytes} :
    Fails rocks context [.broken status] ↔ status ≠ .ok := by
  constructor
  · intro h
    cases h with
    | block hstatus => exact hstatus
  · exact .block

theorem fails_ended_iff {rocks : Sst.RocksDB Bytes} :
    Fails rocks context [.ended index] ↔ index ≠ .ok := by
  constructor
  · intro h
    cases h with
    | ended hindex => exact hindex
  · exact .ended

-- A context in which a lookup goes on, as GetFromSST sets it up.
structure Searching (context : GDSGetContext Bytes) : Prop where
  state : context.state.searches = true
  uncovered : context.maxCoveringTombstoneSeq = none

theorem Searching.covers (h : Searching context) (entry : Sst.Entry Bytes) :
    context.covers entry = false := by
  rw [Sst.GetContext.covers, h.uncovered]
  rfl

theorem Searching.withOperand (h : Searching context) (operand : Bytes) :
    Searching (context.withOperand operand) :=
  ⟨rfl, h.uncovered⟩

section Block

variable {rocks : Sst.RocksDB Bytes} {context : GDSGetContext Bytes}

theorem fails_entry_iff (hsearching : Searching context)
    (hparse : parseInternalKey key = .ok parsed) (rest : List Seen) :
    Fails rocks context (.entry index key value :: rest) ↔
      ∃ saved, GDSGetContext.saveValue rocks context
          ⟨parsed.userKey, parsed.sequence, parsed.type, value⟩ = .returned saved ∧
        (saved.readStatus ≠ .ok ∨
          saved.readStatus = .ok ∧ saved.more = false ∧ index ≠ .ok ∨
          saved.readStatus = .ok ∧ saved.more = true ∧ Fails rocks saved.context rest) := by
  have hcovers := hsearching.covers ⟨parsed.userKey, parsed.sequence, parsed.type, value⟩
  constructor
  · intro h
    cases h with
    | key hother =>
      rw [hparse] at hother
      cases hother
    | blobIndex hother hkey htype =>
      obtain rfl := Except.ok.inj (hparse.symm.trans hother)
      obtain ⟨saved, hsave, hread⟩ :=
        GDSGetContext.saveValue_blobIndex hkey hsearching.state hcovers htype
      exact ⟨saved, hsave, Or.inl hread⟩
    | operand hother hkey htype hmore hrest =>
      obtain rfl := Except.ok.inj (hparse.symm.trans hother)
      exact ⟨_, GDSGetContext.saveValue_operand hkey hsearching.state hcovers htype hmore,
        Or.inr (Or.inr ⟨rfl, rfl, hrest⟩)⟩
    | index hother hends hindex =>
      obtain rfl := Except.ok.inj (hparse.symm.trans hother)
      exact ⟨_, hends, Or.inr (Or.inl ⟨rfl, rfl, hindex⟩)⟩
  · rintro ⟨saved, hsave, hread | ⟨hread, hends, hindex⟩ | ⟨hread, hmore, hrest⟩⟩
    · obtain ⟨hkey, htype⟩ := GDSGetContext.saveValue_failed hsave hread
      exact .blobIndex hparse hkey htype
    · obtain ⟨more, next, status⟩ := saved
      obtain rfl : status = .ok := hread
      obtain rfl : more = false := hends
      exact .index hparse hsave hindex
    · obtain ⟨hkey, htype, hwants, rfl⟩ := GDSGetContext.saveValue_more hsave hmore
      exact .operand hparse hkey htype hwants hrest

theorem parseInternalKey_ne_ok (h : parseInternalKey key = .error status) : status ≠ .ok := by
  rintro rfl
  rw [parseInternalKey] at h
  split_ifs at h
  · cases h
  · split at h <;> cases h

theorem saveBlock_goes_on (h : saveBlock rocks data fuel iter context = some (.returned search))
    (hstatus : search.status = .ok) (hdone : search.done = false) :
    (Searching context → Searching search.context) ∧
      ∀ entries last, shown data fuel iter = some (entries, last) → last = search.iter := by
  induction fuel generalizing iter context with
  | zero => cases h
  | succ fuel ih =>
    rw [saveBlock] at h
    split at h
    case isFalse hinvalid =>
      cases h
      refine ⟨id, fun entries last hshown => ?_⟩
      rw [shown, if_neg hinvalid] at hshown
      cases hshown
      rfl
    case isTrue hvalid =>
      split at h
      case h_1 hparse =>
        cases h
        exact absurd hstatus (parseInternalKey_ne_ok hparse)
      case h_2 =>
        split at h
        case h_1 saved hsave =>
          split_ifs at h with hread hmore
          · cases h
            exact absurd hstatus hread
          · obtain ⟨-, -, -, rfl⟩ := GDSGetContext.saveValue_more hsave hmore
            obtain ⟨hsearching, hlast⟩ := ih h
            refine ⟨fun hstart => hsearching (hstart.withOperand _), fun entries last hshown => ?_⟩
            rw [shown, if_pos hvalid] at hshown
            obtain ⟨⟨rest, stop⟩, hrest, heq⟩ := Option.map_eq_some_iff.mp hshown
            cases heq
            exact hlast rest stop hrest
          · cases h
            cases hdone
        · cases h
        · cases h

theorem fails_block_iff (hshown : shown data fuel iter = some (entries, last))
    (hsearching : Searching context) (index : Status) (later : List Seen) :
    Fails rocks context
        (entries.map (fun entry => Seen.entry index entry.1 entry.2) ++ later) ↔
      ∃ search, saveBlock rocks data fuel iter context = some (.returned search) ∧
        (search.status ≠ .ok ∨
          search.status = .ok ∧ search.done = true ∧ index ≠ .ok ∨
          search.status = .ok ∧ search.done = false ∧ Fails rocks search.context later) := by
  induction fuel generalizing iter context entries with
  | zero => cases hshown
  | succ fuel ih =>
    rw [shown] at hshown
    rw [saveBlock]
    split at hshown
    case isFalse hinvalid =>
      cases hshown
      simp only [if_neg hinvalid, List.map_nil, List.nil_append, Option.some.injEq,
        Outcome.returned.injEq, exists_eq_left', ne_eq, not_true_eq_false, Bool.false_eq_true,
        false_and, and_false, false_or, true_and]
    case isTrue hvalid =>
      obtain ⟨⟨rest, stop⟩, hrest, heq⟩ := Option.map_eq_some_iff.mp hshown
      cases heq
      rw [if_pos hvalid, List.map_cons, List.cons_append]
      cases hparse : parseInternalKey iter.key with
      | error status =>
        exact iff_of_true (.key hparse)
          ⟨_, rfl, Or.inl (parseInternalKey_ne_ok hparse)⟩
      | ok parsed =>
        rw [fails_entry_iff hsearching hparse]
        dsimp only
        cases hsave : GDSGetContext.saveValue rocks context
            ⟨parsed.userKey, parsed.sequence, parsed.type, iter.dValue data⟩ with
        | threw what | aborted reason => simp
        | returned saved =>
          simp only [Outcome.returned.injEq, exists_eq_left']
          by_cases hread : saved.readStatus = .ok
          · cases hmore : saved.more with
            | false => simp [hread]
            | true =>
              obtain ⟨-, -, -, rfl⟩ := GDSGetContext.saveValue_more hsave hmore
              simp only [ne_eq, not_true_eq_false, if_false, if_true, false_or,
                Bool.true_eq_false, false_and, and_false, true_and]
              exact ih hrest (hsearching.withOperand _)
          · simp [hread]

end Block

theorem sees_block (hbetween : ¬fallsBetween key skipFilters entry.value = true)
    (hnew : reader.newDataBlockIterator entry.value.handle buffer = .ok (data, biter))
    (h : reader.sees fuel key skipFilters (entry :: rest) buffer = some stream) :
    ∃ found entries last later, biter.seekKernel data key fuel = some found ∧
      shown data fuel found = some (entries, last) ∧
      reader.sees fuel key skipFilters rest last.toGDSDataBlockIterDevicePinnedBuffer =
        some later ∧
      stream = entries.map (fun shown =>
        Seen.entry (reader.indexStatus key (entry :: rest)) shown.1 shown.2) ++ later := by
  rw [sees, if_neg hbetween, hnew] at h
  dsimp only at h
  split at h
  · cases h
  case h_2 found hfound =>
    split at h
    · cases h
    case h_2 entries last hshown =>
      obtain ⟨later, hlater, rfl⟩ := Option.map_eq_some_iff.mp h
      exact ⟨found, entries, last, later, hfound, hshown, hlater, rfl⟩

theorem getFrom_fails_iff {entries : List IndexEntry}
    (hsees : reader.sees fuel key skipFilters entries buffer = some stream)
    (hsearching : Searching context) :
    (∃ status last, reader.getFrom fuel key skipFilters entries buffer context =
      some (.returned (status, last)) ∧ status ≠ .ok) ↔ Fails reader.rocks context stream := by
  induction entries generalizing buffer context stream with
  | nil =>
    cases hsees
    simp [getFrom, fails_ended_iff]
  | cons entry rest ih =>
    rw [getFrom]
    by_cases hbetween : fallsBetween key skipFilters entry.value = true
    · rw [sees, if_pos hbetween] at hsees
      cases hsees
      simp [if_pos hbetween, fails_ended_iff]
    rw [if_neg hbetween, searchBlock]
    cases hnew : reader.newDataBlockIterator entry.value.handle buffer with
    | error status =>
      rw [sees, if_neg hbetween, hnew] at hsees
      cases hsees
      simp [fails_broken_iff]
    | ok started =>
      obtain ⟨found, shownEntries, last, later, hseek, hshown, hlater, rfl⟩ :=
        sees_block hbetween hnew hsees
      rw [fails_block_iff hshown hsearching]
      simp only [hseek]
      cases hsave : saveBlock reader.rocks started.1 fuel found context with
      | none => simp
      | some outcome =>
        cases outcome with
        | threw what | aborted reason => simp
        | returned search =>
          dsimp only
          by_cases hstatus : search.status = .ok
          case neg => simp [hstatus]
          cases hdone : search.done with
          | true => simp [hstatus, hdone]
          | false =>
            obtain ⟨hgoes, hlast⟩ := saveBlock_goes_on hsave hstatus hdone
            rw [hlast _ _ hshown] at hlater
            simpa [hstatus, hdone] using ih hlater (hgoes hsearching)

-- An iterator that is no longer valid ends the loop like the end of the block: the error of the
-- kernel stays on the device.
theorem saveBlock_invalid
    (h : saveBlock reader.rocks data fuel iter context = some (.returned search))
    (hinvalid : search.iter.validFlag = false) : search.status = .ok ∧ search.done = false := by
  induction fuel generalizing iter context with
  | zero => cases h
  | succ fuel ih =>
    rw [saveBlock] at h
    split at h
    case isFalse =>
      cases h
      exact ⟨rfl, rfl⟩
    case isTrue hvalid =>
      split at h
      · cases h
        rw [hvalid] at hinvalid
        cases hinvalid
      · split at h
        · split_ifs at h
          · cases h
            rw [hvalid] at hinvalid
            cases hinvalid
          · exact ih h
          · cases h
            rw [hvalid] at hinvalid
            cases hinvalid
        · cases h
        · cases h

theorem searchBlock_invalid
    (h : reader.searchBlock fuel key handle buffer context = some (.returned (.ok search)))
    (hinvalid : search.iter.validFlag = false) :
    search.status = .ok ∧ search.done = false ∧
      (Searching context → Searching search.context) := by
  rw [searchBlock] at h
  split at h
  · cases h
  · split at h
    · cases h
    · split at h
      · cases h
      case h_2 hsave =>
        cases h
        obtain ⟨hstatus, hdone⟩ := saveBlock_invalid hsave hinvalid
        exact ⟨hstatus, hdone, (saveBlock_goes_on hsave hstatus hdone).1⟩
      · cases h
      · cases h

-- A lookup that goes over the index entries until SeekKernel or NextKernel stops on an entry that
-- it cannot decode. The last three arguments are what is left to search then.
inductive Stops (reader : GDSBlockBasedTableReader) (fuel : Nat) (key : Bytes)
    (skipFilters : Bool) :
    List IndexEntry → GDSDataBlockIterDevicePinnedBuffer → GDSGetContext Bytes →
      List IndexEntry → GDSDataBlockIterDevicePinnedBuffer → GDSGetContext Bytes → Prop where
  | here {entry : IndexEntry} {rest : List IndexEntry}
      {buffer : GDSDataBlockIterDevicePinnedBuffer} {context : GDSGetContext Bytes}
      {search : BlockSearch} (hbetween : fallsBetween key skipFilters entry.value = false)
      (hsearch : reader.searchBlock fuel key entry.value.handle buffer context =
        some (.returned (.ok search)))
      (hinvalid : search.iter.validFlag = false) (herror : search.iter.errorCode = 1) :
      Stops reader fuel key skipFilters (entry :: rest) buffer context rest
        search.iter.toGDSDataBlockIterDevicePinnedBuffer search.context
  | later {entry : IndexEntry} {rest left : List IndexEntry}
      {buffer buffer' : GDSDataBlockIterDevicePinnedBuffer} {context context' : GDSGetContext Bytes}
      {search : BlockSearch} (hbetween : fallsBetween key skipFilters entry.value = false)
      (hsearch : reader.searchBlock fuel key entry.value.handle buffer context =
        some (.returned (.ok search)))
      (hinvalid : search.iter.validFlag = false)
      (hrest : Stops reader fuel key skipFilters rest
        search.iter.toGDSDataBlockIterDevicePinnedBuffer search.context left buffer' context') :
      Stops reader fuel key skipFilters (entry :: rest) buffer context left buffer' context'

theorem getFrom_invalid (hbetween : fallsBetween key skipFilters entry.value = false)
    (hsearch : reader.searchBlock fuel key entry.value.handle buffer context =
      some (.returned (.ok search))) (hinvalid : search.iter.validFlag = false) :
    reader.getFrom fuel key skipFilters (entry :: rest) buffer context =
      reader.getFrom fuel key skipFilters rest
        search.iter.toGDSDataBlockIterDevicePinnedBuffer search.context := by
  obtain ⟨hstatus, hdone, -⟩ := searchBlock_invalid hsearch hinvalid
  rw [getFrom, if_neg (by rw [hbetween]; decide), hsearch]
  dsimp only
  rw [if_neg (not_not.mpr hstatus), if_neg (by rw [hdone]; decide)]

theorem Stops.getFrom_eq
    (h : reader.Stops fuel key skipFilters entries buffer context rest buffer' context') :
    reader.getFrom fuel key skipFilters entries buffer context =
      reader.getFrom fuel key skipFilters rest buffer' context' := by
  induction h with
  | here hbetween hsearch hinvalid _ => exact getFrom_invalid hbetween hsearch hinvalid
  | later hbetween hsearch hinvalid _ ih =>
    rw [getFrom_invalid hbetween hsearch hinvalid]
    exact ih

theorem Stops.searching
    (h : reader.Stops fuel key skipFilters entries buffer context rest buffer' context')
    (hsearching : Searching context) : Searching context' := by
  induction h with
  | here _ hsearch hinvalid _ => exact (searchBlock_invalid hsearch hinvalid).2.2 hsearching
  | later _ hsearch hinvalid _ ih =>
    exact ih ((searchBlock_invalid hsearch hinvalid).2.2 hsearching)

end GDSBlockBasedTableReader

namespace GDSDBAccessor

open scoped KeyOrder
open GDSBlockBasedTableReader

-- A table of a list of blocks with their index entries, read without a filter.
def readerOf (blocks : List (IndexEntry × Except Status Memory)) : GDSBlockBasedTableReader where
  rocks := .plain
  assertions := true
  comparatorName := "leveldb.BytewiseComparator"
  filterMayMatch _ := true
  iterSeek key := (blocks.map Prod.fst).dropWhile fun entry => Precedes entry.separator key
  iterStatus _ _ := .ok
  readBlock handle :=
    match blocks.find? fun block => block.1.value.handle = handle with
    | some block => block.2
    | none => .error (.ioError "GDS read failed: ")

-- One restart point and an entry of one byte, which is too short for its three lengths.
def undecodable : Memory :=
  Memory.ofBytes [0, 0, 0, 0, 0, 1, 0, 0, 0]

def undecodableBlock : IndexEntry × Except Status Memory :=
  (⟨packKey [7] 0 0, ⟨⟨0, 9⟩, []⟩⟩, .ok undecodable)

def unreadableBlock : IndexEntry × Except Status Memory :=
  (⟨packKey [9] 0 0, ⟨⟨14, 9⟩, []⟩⟩, .error (.ioError "GDS read failed: "))

def fileOf (reader : GDSBlockBasedTableReader) : TableFile where
  reader := some reader
  buffer := DataBlock.freshBuffer

theorem newDataBlockIterator_undecodable (blocks : List (IndexEntry × Except Status Memory))
    (buffer : GDSDataBlockIterDevicePinnedBuffer) :
    (readerOf (undecodableBlock :: blocks)).newDataBlockIterator ⟨0, 9⟩ buffer =
      .ok (undecodable, ⟨initializeIteratorState ⟨1, 1, 0, 9⟩, buffer⟩) := by
  have hread : (readerOf (undecodableBlock :: blocks)).readBlock ⟨0, 9⟩ = .ok undecodable := rfl
  have hmetadata : initializeBlockMetadata (readerOf (undecodableBlock :: blocks)).assertions
      undecodable (9 % 2 ^ 32) = .returned ⟨1, 1, 0, 9⟩ := by
    show initializeBlockMetadata true undecodable (9 % 2 ^ 32) = _
    decide
  have hcomparator : "Bytewise".toList <:+:
      (readerOf (undecodableBlock :: blocks)).comparatorName.toList := by
    show "Bytewise".toList <:+: "leveldb.BytewiseComparator".toList
    decide
  rw [newDataBlockIterator, hread]
  dsimp only
  rw [if_neg (show ¬9 < kRestartSize by decide), hmetadata]
  dsimp only
  rw [if_pos hcomparator]

theorem seekKernel_undecodable (target : Bytes) (buffer : GDSDataBlockIterDevicePinnedBuffer)
    (fuel : Nat) :
    GDSDataBlockIter.seekKernel undecodable target (fuel + 2)
        ⟨initializeIteratorState ⟨1, 1, 0, 9⟩, buffer⟩ =
      some (.invalidate ⟨initializeIteratorState ⟨1, 1, 0, 9⟩, buffer⟩ 1) := by
  have hprobe : GDSDataBlockIter.probeRestart undecodable 1 target 0 = none := by
    have hdecode : Device.decodeEntry undecodable 0 1 = none := by decide
    have hrestart : Device.getRestartPoint undecodable 1 0 = 0 := by decide
    simp [GDSDataBlockIter.probeRestart, hrestart, hdecode]
  have hsearch : Search.search (GDSDataBlockIter.probeRestart undecodable 1 target) (fuel + 2)
      (-1) 0 = some none := by
    simp [Search.search, hprobe]
  simp only [GDSDataBlockIter.seekKernel, initializeIteratorState]
  simp [hsearch]

theorem stops_undecodable (blocks : List (IndexEntry × Except Status Memory))
    (context : GDSGetContext Bytes) (fuel : Nat) :
    (readerOf (undecodableBlock :: blocks)).Stops (fuel + 2) (lookupKey [7] 1) false
      ((readerOf (undecodableBlock :: blocks)).iterSeek (lookupKey [7] 1)) DataBlock.freshBuffer
      context (blocks.map Prod.fst) DataBlock.freshBuffer context := by
  have hseek : (readerOf (undecodableBlock :: blocks)).iterSeek (lookupKey [7] 1) =
      undecodableBlock.1 :: blocks.map Prod.fst := by
    simp only [readerOf, List.map_cons]
    exact List.dropWhile_cons_of_neg (by decide)
  have hsearch : (readerOf (undecodableBlock :: blocks)).searchBlock (fuel + 2) (lookupKey [7] 1)
      ⟨0, 9⟩ DataBlock.freshBuffer context = some (.returned (.ok ⟨.ok, false, context,
        .invalidate ⟨initializeIteratorState ⟨1, 1, 0, 9⟩, DataBlock.freshBuffer⟩ 1⟩)) := by
    rw [searchBlock, newDataBlockIterator_undecodable]
    dsimp only
    rw [seekKernel_undecodable]
    rfl
  have hbetween : fallsBetween (lookupKey [7] 1) false undecodableBlock.1.value = false := rfl
  have hstops := @Stops.here _ _ _ _ _ (blocks.map Prod.fst) _ _ _ hbetween hsearch rfl rfl
  rw [hseek]
  exact hstops

end GDSDBAccessor

end MlkvPlus.Gds
