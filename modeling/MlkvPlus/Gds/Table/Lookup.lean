import Mathlib.Algebra.Order.BigOperators.Group.List
import MlkvPlus.Gds.Block.Seek
import MlkvPlus.Gds.Table
import MlkvPlus.Sst.Lookup

namespace MlkvPlus.Gds

open scoped KeyOrder
open Sst (Entry Status GDSGetContext Saved ValueType saveEntries)

theorem length_packKey (user : Bytes) (sequence type : Nat) :
    (packKey user sequence type).length = user.length + Device.kInternalKeyTail := by
  rw [packKey, List.length_append, Bytes.length_fixed]
  rfl

theorem tail_le_packKey (user : Bytes) (sequence type : Nat) :
    Device.kInternalKeyTail ≤ (packKey user sequence type).length := by
  rw [length_packKey]
  exact Nat.le_add_left ..

theorem tail_le_lookupKey (user : Bytes) (snapshot : Nat) :
    Device.kInternalKeyTail ≤ (lookupKey user snapshot).length :=
  tail_le_packKey ..

theorem userKey_packKey (user : Bytes) (sequence type : Nat) :
    userKey (packKey user sequence type) = user := by
  rw [userKey, length_packKey, Nat.add_sub_cancel, packKey, List.take_left]

theorem keyTail_packKey (user : Bytes) {sequence type : Nat} (hsequence : sequence < 2 ^ 56)
    (htype : type < 256) :
    keyTail (packKey user sequence type) = sequence * 256 + type := by
  rw [keyTail, length_packKey, Nat.add_sub_cancel, packKey, List.drop_left,
    Bytes.decodeFixed_fixed_of_lt (by omega)]

def typeByte : ValueType → Nat
  | .kTypeDeletion => 0x0
  | .kTypeValue => 0x1
  | .kTypeMerge => 0x2
  | .kTypeSingleDeletion => 0x7
  | .kTypeRangeDeletion => 0xF
  | .kTypeBlobIndex => 0x11
  | .kTypeDeletionWithTimestamp => 0x14
  | .kTypeWideColumnEntity => 0x16
  | .kTypeValuePreferredSeqno => 0x18

theorem typeByte_le (type : ValueType) : typeByte type ≤ kValueTypeForSeek := by
  cases type <;> decide

theorem valueType?_typeByte (type : ValueType) : valueType? (typeByte type) = some type := by
  cases type <;> rfl

def encodeEntry (entry : Entry Bytes) : BlockEntry where
  key := packKey entry.userKey entry.sequence (typeByte entry.type)
  value := entry.value

theorem tail_le_encodeEntry (entry : Entry Bytes) :
    Device.kInternalKeyTail ≤ (encodeEntry entry).key.length :=
  tail_le_packKey ..

theorem parseInternalKey_encodeEntry {entry : Entry Bytes} (h : entry.sequence < 2 ^ 56) :
    parseInternalKey (encodeEntry entry).key =
      .ok ⟨entry.userKey, entry.sequence, entry.type⟩ := by
  have htype := typeByte_le entry.type
  have hseek : kValueTypeForSeek = 24 := rfl
  have htail : keyTail (encodeEntry entry).key = entry.sequence * 256 + typeByte entry.type :=
    keyTail_packKey _ h (by omega)
  have hlow : (entry.sequence * 256 + typeByte entry.type) % 256 = typeByte entry.type := by omega
  have hhigh : (entry.sequence * 256 + typeByte entry.type) / 256 = entry.sequence := by omega
  rw [parseInternalKey, htail, hlow, hhigh, valueType?_typeByte, encodeEntry, length_packKey,
    userKey_packKey, if_neg (by omega)]

-- What stands before the key that a lookup seeks.
def before {K : Type} [LinearOrder K] (user : K) (snapshot : Nat) (entry : Entry K) : Bool :=
  entry.userKey < user ∨ entry.userKey = user ∧ snapshot < entry.sequence

theorem before_iff {K : Type} [LinearOrder K] {user : K} {snapshot : Nat} {entry : Entry K} :
    before user snapshot entry = true ↔
      entry.userKey < user ∨ entry.userKey = user ∧ snapshot < entry.sequence :=
  decide_eq_true_iff

theorem precedes_lookupKey_iff {entry : Entry Bytes} (hentry : entry.sequence < 2 ^ 56)
    (user : Bytes) {snapshot : Nat} (hsnapshot : snapshot < 2 ^ 56) :
    Precedes (encodeEntry entry).key (lookupKey user snapshot) ↔
      before user snapshot entry = true := by
  have htype := typeByte_le entry.type
  have hseek : kValueTypeForSeek = 24 := rfl
  rw [Precedes, encodeEntry, lookupKey, userKey_packKey, userKey_packKey,
    keyTail_packKey _ hentry (by omega), keyTail_packKey _ hsnapshot (by omega), before_iff]
  refine or_congr Iff.rfl (and_congr_right fun _ => ?_)
  omega

theorem Precedes.notAfter {first second : Entry Bytes} (hfirst : first.sequence < 2 ^ 56)
    (hsecond : second.sequence < 2 ^ 56)
    (h : Precedes (encodeEntry first).key (encodeEntry second).key) : first.NotAfter second := by
  have htype := typeByte_le first.type
  have htype' := typeByte_le second.type
  have hseek : kValueTypeForSeek = 24 := rfl
  rw [Precedes, encodeEntry, encodeEntry, userKey_packKey, userKey_packKey,
    keyTail_packKey _ hfirst (by omega), keyTail_packKey _ hsecond (by omega)] at h
  refine h.imp_right (And.imp_right fun hlt => ?_)
  omega

-- A data block of a table with its index entry. The separator is not before the last key, and the
-- first key, if the index has it, is that of the block.
structure TableBlock where
  entries : List (Entry Bytes)
  block : DataBlock
  index : IndexEntry
  encodes : block.entries = entries.map encodeEntry
  sequences : ∀ entry ∈ entries, entry.sequence < 2 ^ 56
  short : ∀ entry ∈ entries, (encodeEntry entry).key.length ≤ 512
  small : block.bytes.length < 2 ^ 31
  sized : index.value.handle.size = block.bytes.length
  bounded : ∀ entry ∈ entries, ¬Precedes index.separator (encodeEntry entry).key
  first : index.value.firstInternalKey = [] ∨
    entries.head?.map (fun entry => (encodeEntry entry).key) = some index.value.firstInternalKey

def entriesOf (blocks : List TableBlock) : List (Entry Bytes) :=
  blocks.flatMap TableBlock.entries

def Sorted (entries : List (Entry Bytes)) : Prop :=
  (entries.map fun entry => (encodeEntry entry).key).Pairwise Precedes

instance (entries : List (Entry Bytes)) : Decidable (Sorted entries) :=
  inferInstanceAs (Decidable (List.Pairwise _ _))

-- That a separator is before the next block is not needed: a seek that stops too early goes on
-- over the end of its block.
structure Table where
  blocks : List TableBlock
  sorted : Sorted (entriesOf blocks)

def Table.entries (table : Table) : List (Entry Bytes) :=
  entriesOf table.blocks

theorem sequence_lt (h : entry ∈ entriesOf blocks) : entry.sequence < 2 ^ 56 := by
  obtain ⟨block, -, hentry⟩ := List.mem_flatMap.mp h
  exact block.sequences entry hentry

theorem Sorted.notAfter (h : Sorted (entriesOf blocks)) :
    (entriesOf blocks).Pairwise Entry.NotAfter := by
  rw [Sorted, List.pairwise_map] at h
  refine h.imp_of_mem ?_
  intro first second hfirst hsecond hprecedes
  exact hprecedes.notAfter (sequence_lt hfirst) (sequence_lt hsecond)

-- The loop over a part of the entries: its status, and whether the saver has ended the search.
def saveUntil (save : GDSGetContext Bytes → Entry Bytes → Outcome (Saved (GDSGetContext Bytes)))
    (context : GDSGetContext Bytes) :
    List (Entry Bytes) → Outcome (Status × Bool × GDSGetContext Bytes)
  | [] => .returned (.ok, false, context)
  | entry :: rest =>
    match save context entry with
    | .returned saved =>
      if saved.readStatus ≠ .ok then .returned (saved.readStatus, false, saved.context)
      else if saved.more = true then saveUntil save saved.context rest
      else .returned (.ok, true, saved.context)
    | .threw what => .threw what
    | .aborted reason => .aborted reason

section SaveUntil

variable {save : GDSGetContext Bytes → Entry Bytes → Outcome (Saved (GDSGetContext Bytes))}

theorem saveEntries_append (context : GDSGetContext Bytes) (first second : List (Entry Bytes)) :
    saveEntries save context (first ++ second) =
      match saveUntil save context first with
      | .returned (status, done, context) =>
        if status ≠ .ok then .returned (status, context)
        else if done = true then .returned (.ok, context)
        else saveEntries save context second
      | .threw what => .threw what
      | .aborted reason => .aborted reason := by
  induction first generalizing context with
  | nil => rfl
  | cons entry rest ih =>
    rw [List.cons_append, saveEntries, saveUntil]
    cases save context entry with
    | threw what => rfl
    | aborted reason => rfl
    | returned saved =>
      dsimp only
      split_ifs with hread hmore
      · simp only [if_pos hread]
      · exact ih saved.context
      · rfl

theorem saveUntil_more (h : saveUntil (GDSGetContext.saveValue rocks) context entries =
      .returned (.ok, false, next)) : next.userKey = context.userKey := by
  induction entries generalizing context with
  | nil =>
    cases h
    rfl
  | cons entry rest ih =>
    rw [saveUntil] at h
    cases hsave : GDSGetContext.saveValue rocks context entry with
    | threw what | aborted reason =>
      rw [hsave] at h
      cases h
    | returned saved =>
      simp only [hsave] at h
      split_ifs at h with hread hmore
      · exact absurd (Prod.mk.inj (Outcome.returned.inj h)).1 hread
      · exact (ih h).trans (GDSGetContext.keepsKey rocks context entry saved hsave hmore)
      · cases h

end SaveUntil

namespace GDSDataBlockIter

variable {data : Memory}

def Faces (data : Memory) (items : List BlockItem) (iter : GDSDataBlockIter) : Prop :=
  match items with
  | [] => iter.validFlag = false
  | item :: rest => iter.At data item rest

theorem At.faces_next {iter : GDSDataBlockIter} (h : iter.At data item rest) :
    (iter.nextKernel data).Faces data rest := by
  cases rest with
  | nil => exact h.next_end.1
  | cons next rest => exact h.next

theorem Landed.faces {iter : GDSDataBlockIter} (h : iter.Landed data target items) :
    iter.Faces data
      (items.dropWhile fun item => Device.compareInternalKeys item.2.key target = .lt) := by
  rw [Landed] at h
  split at h
  case h_1 hdrop =>
    rw [hdrop]
    exact h.1
  case h_2 hdrop =>
    rw [hdrop]
    exact h

end GDSDataBlockIter

theorem TableBlock.ordered (block : TableBlock) (h : Sorted block.entries) :
    block.block.Ordered := by
  constructor
  · rw [block.encodes, List.map_map]
    exact h
  · intro entry hentry
    rw [block.encodes] at hentry
    obtain ⟨typed, -, rfl⟩ := List.mem_map.mp hentry
    exact tail_le_encodeEntry typed

theorem TableBlock.loaded (block : TableBlock) (h : data.Stores 0 block.block.bytes) :
    block.block.Loaded data := by
  refine ⟨h, block.small, fun entry hentry => ?_⟩
  rw [block.encodes] at hentry
  obtain ⟨typed, htyped, rfl⟩ := List.mem_map.mp hentry
  exact block.short typed htyped

theorem TableBlock.dropWhile_items (block : TableBlock) (user : Bytes)
    (hsnapshot : snapshot < 2 ^ 56) :
    (block.block.items.dropWhile fun item =>
        Device.compareInternalKeys item.2.key (lookupKey user snapshot) = .lt).map Prod.snd =
      (block.entries.dropWhile (before user snapshot)).map encodeEntry := by
  have hentries : (block.block.entries.dropWhile fun entry =>
      Device.compareInternalKeys entry.key (lookupKey user snapshot) = .lt) =
        (block.block.items.dropWhile fun item =>
          Device.compareInternalKeys item.2.key (lookupKey user snapshot) = .lt).map Prod.snd :=
    List.dropWhile_map
  rw [← hentries, block.encodes, List.dropWhile_map]
  refine congrArg (List.map encodeEntry) (Lists.dropWhile_congr fun entry hentry => ?_)
  rw [Function.comp_apply, Bool.eq_iff_iff, decide_eq_true_iff,
    compareInternalKeys_lt_iff (tail_le_encodeEntry entry) (tail_le_lookupKey user snapshot),
    precedes_lookupKey_iff (block.sequences entry hentry) user hsnapshot]

theorem entriesOf_cons (block : TableBlock) (rest : List TableBlock) :
    entriesOf (block :: rest) = block.entries ++ entriesOf rest :=
  List.flatMap_cons

theorem sorted_cons (h : Sorted (entriesOf (block :: rest))) :
    Sorted block.entries ∧ Sorted (entriesOf rest) := by
  rw [Sorted, entriesOf_cons, List.map_append, List.pairwise_append] at h
  exact ⟨h.1, h.2.1⟩

theorem Table.sorted_suffix (table : Table) {blocks : List TableBlock}
    (h : blocks <:+ table.blocks) : Sorted (entriesOf blocks) := by
  obtain ⟨skipped, hskipped⟩ := h
  have hall := table.sorted
  rw [← hskipped, Sorted, entriesOf, List.flatMap_append, List.map_append,
    List.pairwise_append] at hall
  exact hall.2.1

theorem not_before_of_notAfter {user : Bytes} {snapshot : Nat} {first second : Entry Bytes}
    (h : first.NotAfter second) (hfirst : before user snapshot first = false) :
    before user snapshot second = false := by
  rw [← Bool.not_eq_true, before_iff, not_or, not_and, not_lt] at *
  obtain ⟨hle, hsequence⟩ := hfirst
  rcases h with hlt | ⟨heq, hsecond⟩
  · exact ⟨(hle.trans_lt hlt).le, fun hsame => absurd hsame (hle.trans_lt hlt).ne'⟩
  · rw [← heq]
    refine ⟨hle, fun hsame => ?_⟩
    have hfirst := hsequence hsame
    omega

-- The seek position of a table is that of each of its blocks: where one block has an entry that
-- is not before the sought key, the later blocks are kept whole.
theorem dropWhile_entriesOf_cons {rest : List TableBlock} (h : Sorted (entriesOf (block :: rest)))
    (user : Bytes) (snapshot : Nat) :
    (entriesOf (block :: rest)).dropWhile (before user snapshot) =
      block.entries.dropWhile (before user snapshot) ++
        (entriesOf rest).dropWhile (before user snapshot) := by
  have hnotAfter := h.notAfter
  rw [entriesOf_cons, List.pairwise_append] at hnotAfter
  rw [entriesOf_cons, List.dropWhile_append]
  split
  case isTrue hempty => rw [List.isEmpty_iff.mp hempty, List.nil_append]
  case isFalse hkept =>
    congr 1
    cases hdrop : block.entries.dropWhile (before user snapshot) with
    | nil => exact absurd (by rw [hdrop]; rfl) hkept
    | cons entry kept =>
      have hentry : before user snapshot entry = false := by
        have hne : block.entries.dropWhile (before user snapshot) ≠ [] := by
          rw [hdrop]
          exact List.cons_ne_nil _ _
        simpa [hdrop] using List.head_dropWhile_not (before user snapshot) hne
      have hmem : entry ∈ block.entries :=
        (List.dropWhile_suffix _).subset (hdrop ▸ List.mem_cons_self)
      cases hrest : entriesOf rest with
      | nil => rfl
      | cons next later =>
        have hnext := hnotAfter.2.2 entry hmem next (hrest ▸ List.mem_cons_self)
        rw [List.dropWhile_cons_of_neg]
        rw [not_before_of_notAfter hnext hentry]
        decide

namespace GDSBlockBasedTableReader

variable {data : Memory}

theorem saveBlock_eq (rocks : Sst.RocksDB Bytes) {iter : GDSDataBlockIter}
    (hfaces : iter.Faces data items) (hentries : items.map Prod.snd = entries.map encodeEntry)
    (hsequences : ∀ entry ∈ entries, entry.sequence < 2 ^ 56) (hfuel : items.length < fuel)
    (context : GDSGetContext Bytes) :
    ∃ last, saveBlock rocks data fuel iter context =
      some ((saveUntil (GDSGetContext.saveValue rocks) context entries).map
        fun result => ⟨result.1, result.2.1, result.2.2, last⟩) := by
  induction entries generalizing items iter fuel context with
  | nil =>
    obtain ⟨fuel, rfl⟩ := Nat.exists_eq_add_one_of_ne_zero (Nat.ne_zero_of_lt hfuel)
    obtain rfl := List.map_eq_nil_iff.mp hentries
    have hinvalid : iter.validFlag = false := hfaces
    refine ⟨iter, ?_⟩
    rw [saveBlock, if_neg (by rw [hinvalid]; decide)]
    rfl
  | cons entry entries ih =>
    obtain ⟨fuel, rfl⟩ := Nat.exists_eq_add_one_of_ne_zero (Nat.ne_zero_of_lt hfuel)
    obtain ⟨item, rest, rfl, hitem, hrest⟩ := List.map_eq_cons_iff.mp hentries
    have hat : iter.At data item rest := hfaces
    rw [saveBlock, if_pos hat.valid, hat.shows.key, hat.shows.value, hitem,
      parseInternalKey_encodeEntry (hsequences entry List.mem_cons_self), saveUntil]
    dsimp only [encodeEntry]
    cases hsave : GDSGetContext.saveValue rocks context entry with
    | threw what => exact ⟨iter, rfl⟩
    | aborted reason => exact ⟨iter, rfl⟩
    | returned saved =>
      dsimp only
      split_ifs
      · exact ⟨iter, rfl⟩
      · exact ih hat.faces_next hrest
          (fun other hother => hsequences other (List.mem_cons_of_mem _ hother))
          (Nat.lt_of_succ_lt_succ hfuel) saved.context
      · exact ⟨iter, rfl⟩

-- What a put, a deletion or an entry of another key leaves.
def saved (context : GDSGetContext Bytes) (entry : Entry Bytes) : GDSGetContext Bytes :=
  if entry.userKey = context.userKey then
    if entry.type = .kTypeValue then
      { context with state := .kFound, deviceValue := some entry.value }
    else context.withState .kDeleted
  else context

-- A context that has seen nothing yet and knows no range deletion.
structure Fresh (context : GDSGetContext Bytes) : Prop where
  state : context.state = .kNotFound
  uncovered : context.maxCoveringTombstoneSeq = none
  doMerge : context.doMerge = true
  output : context.deviceValue.isSome = true

theorem saveValue_plain (rocks : Sst.RocksDB Bytes) (hfresh : Fresh context)
    (hplain : entry.type = .kTypeValue ∨ entry.type.isDeletion = true) :
    GDSGetContext.saveValue rocks context entry =
      .returned { more := false, context := saved context entry } := by
  rw [saved]
  by_cases hkey : entry.userKey = context.userKey
  · rw [if_pos hkey]
    rcases hplain with hvalue | hdeletion
    · have hcovers : context.covers entry = false := by
        rw [Sst.GetContext.covers, hfresh.uncovered]
        rfl
      rw [if_pos hvalue, GDSGetContext.saveValue_value hkey hfresh.state hcovers hfresh.doMerge
        hfresh.output hvalue]
    · rw [if_neg (by rintro hvalue; rw [hvalue] at hdeletion; cases hdeletion),
        GDSGetContext.saveValue_deletion hkey hfresh.state hdeletion]
  · rw [if_neg hkey, GDSGetContext.stopsAtOthers rocks context entry hkey]

section Search

-- A block that is read, and a lookup in it.
variable (reader : GDSBlockBasedTableReader)
  (hcomparator : "Bytewise".toList <:+: reader.comparatorName.toList) (block : TableBlock)
  (hread : reader.readBlock block.index.value.handle = .ok data)
  (hdata : data.Stores 0 block.block.bytes) (buffer : GDSDataBlockIterDevicePinnedBuffer)
include hcomparator hread hdata

theorem newDataBlockIterator_eq :
    reader.newDataBlockIterator block.index.value.handle buffer =
      .ok (data, ⟨initializeIteratorState block.block.metadata, buffer⟩) := by
  have hlength := block.block.length_bytes
  have hsmall := block.small
  have hsize : kRestartSize = 4 := rfl
  have hloaded := block.loaded hdata
  rw [newDataBlockIterator, hread, block.sized]
  dsimp only
  rw [if_neg (by omega), Nat.mod_eq_of_lt (by omega), hloaded.toStored.initialize reader.assertions]
  dsimp only
  rw [if_pos hcomparator]

variable (hsorted : Sorted block.entries) (user : Bytes) {snapshot : Nat}
  (hsnapshot : snapshot < 2 ^ 56) {fuel : Nat}
  (hfuel : block.block.items.length + block.block.intervals.length < fuel)
include hsorted hsnapshot hfuel

theorem searchBlock_faces :
    ∃ items, ∃ iter : GDSDataBlockIter, iter.Faces data items ∧
      iter.restarts = block.block.restartOffset ∧
      items.map Prod.snd = (block.entries.dropWhile (before user snapshot)).map encodeEntry ∧
      items.length < fuel ∧
      ∀ context, reader.searchBlock fuel (lookupKey user snapshot) block.index.value.handle buffer
        context = (saveBlock reader.rocks data fuel iter context).map
          fun outcome => outcome.map .ok := by
  obtain ⟨iter, hseek, hrestarts, hlanded⟩ := (block.loaded hdata).seek_ordered
    (block.ordered hsorted) (tail_le_lookupKey user snapshot)
    ⟨initializeIteratorState block.block.metadata, buffer⟩ rfl rfl hfuel
  have hlength : (block.block.items.dropWhile fun item =>
      Device.compareInternalKeys item.2.key (lookupKey user snapshot) = .lt).length ≤
        block.block.items.length := (List.dropWhile_sublist _).length_le
  refine ⟨_, iter, hlanded.faces, hrestarts, block.dropWhile_items user hsnapshot, by omega, ?_⟩
  intro context
  rw [searchBlock, newDataBlockIterator_eq reader hcomparator block hread hdata]
  dsimp only
  rw [hseek]
  dsimp only
  cases saveBlock reader.rocks data fuel iter context with
  | none => rfl
  | some outcome =>
    cases outcome with
    | returned search => rfl
    | threw what => rfl
    | aborted reason => rfl

theorem searchBlock_eq (context : GDSGetContext Bytes) :
    ∃ last, reader.searchBlock fuel (lookupKey user snapshot) block.index.value.handle buffer
        context =
      some ((saveUntil (GDSGetContext.saveValue reader.rocks) context
        (block.entries.dropWhile (before user snapshot))).map
          fun result => .ok ⟨result.1, result.2.1, result.2.2, last⟩) := by
  obtain ⟨items, iter, hfaces, -, hentries, hlength, hsearch⟩ := reader.searchBlock_faces
    hcomparator block hread hdata buffer hsorted user hsnapshot hfuel
  obtain ⟨last, hsave⟩ := saveBlock_eq reader.rocks hfaces hentries
    (fun entry hentry => block.sequences entry ((List.dropWhile_suffix _).subset hentry))
    hlength context
  refine ⟨last, ?_⟩
  rw [hsearch, hsave, Option.map_some]
  cases saveUntil (GDSGetContext.saveValue reader.rocks) context
      (block.entries.dropWhile (before user snapshot)) with
  | returned result => rfl
  | threw what => rfl
  | aborted reason => rfl

theorem searchBlock_plain (hplain : ∀ entry ∈ block.entries,
      entry.type = .kTypeValue ∨ entry.type.isDeletion = true) (hfresh : Fresh context) :
    ∃ iter : GDSDataBlockIter,
      match block.entries.dropWhile (before user snapshot) with
      | [] => reader.searchBlock fuel (lookupKey user snapshot) block.index.value.handle buffer
          context = some (.returned (.ok ⟨.ok, false, context, iter⟩))
      | entry :: _ => reader.searchBlock fuel (lookupKey user snapshot) block.index.value.handle
            buffer context = some (.returned (.ok ⟨.ok, true, saved context entry, iter⟩)) ∧
          iter.dValue data = entry.value ∧
          iter.valuePtr + toSize iter.valueLength < block.block.bytes.length := by
  obtain ⟨items, iter, hfaces, hrestarts, hentries, hlength, hsearch⟩ := reader.searchBlock_faces
    hcomparator block hread hdata buffer hsorted user hsnapshot hfuel
  obtain ⟨fuel, rfl⟩ := Nat.exists_eq_add_one_of_ne_zero (Nat.ne_zero_of_lt hlength)
  refine ⟨iter, ?_⟩
  rw [hsearch, saveBlock]
  cases hdrop : block.entries.dropWhile (before user snapshot) with
  | nil =>
    rw [hdrop] at hentries
    obtain rfl := List.map_eq_nil_iff.mp hentries
    have hinvalid : iter.validFlag = false := hfaces
    rw [if_neg (by rw [hinvalid]; decide)]
    rfl
  | cons entry more =>
    rw [hdrop] at hentries
    obtain ⟨item, rest, rfl, hitem, -⟩ := List.map_eq_cons_iff.mp hentries
    have hat : iter.At data item rest := hfaces
    have hentry : entry ∈ block.entries :=
      (List.dropWhile_suffix _).subset (hdrop ▸ List.mem_cons_self)
    have hvalue : iter.dValue data = entry.value := by
      rw [hat.shows.value, hitem]
      rfl
    refine ⟨?_, hvalue, ?_⟩
    · rw [if_pos hat.valid, hat.shows.key, hvalue, hitem,
        parseInternalKey_encodeEntry (block.sequences entry hentry)]
      dsimp only
      rw [saveValue_plain reader.rocks hfresh (hplain entry hentry)]
      rfl
    · have hends := hat.ahead.ends
      have hsize := block.block.length_bytes
      rw [hat.shows.ends]
      omega

end Search

theorem user_lt_of_fallsBetween (hsorted : Sorted (entriesOf (block :: rest)))
    (h : fallsBetween (lookupKey user snapshot) skipFilters block.index.value = true)
    (hentry : entry ∈ entriesOf (block :: rest)) : user < entry.userKey := by
  obtain ⟨hstored, -, hcompare⟩ := of_decide_eq_true h
  have hfirst := block.first.resolve_left hstored
  obtain ⟨first, hhead, hkey⟩ := Option.map_eq_some_iff.mp hfirst
  have hlt : user < first.userKey := by
    rw [(compares_compareSlices _ _).eq_lt, lookupKey, userKey_packKey, ← hkey, encodeEntry,
      userKey_packKey] at hcompare
    exact hcompare
  obtain ⟨others, hothers⟩ := List.head?_eq_some_iff.mp hhead
  have hnotAfter := hsorted.notAfter
  rw [entriesOf_cons, hothers, List.cons_append] at hnotAfter hentry
  rcases List.mem_cons.mp hentry with rfl | hlater
  · exact hlt
  · rcases (List.pairwise_cons.mp hnotAfter).1 entry hlater with hafter | ⟨hsame, -⟩
    · exact hlt.trans hafter
    · exact hsame ▸ hlt

-- The loop over the index is one loop over all entries from the sought key on.
theorem getFrom_eq (reader : GDSBlockBasedTableReader)
    (hcomparator : "Bytewise".toList <:+: reader.comparatorName.toList)
    (hstatus : ∀ key left, reader.iterStatus key left = .ok) (hsorted : Sorted (entriesOf blocks))
    (hreads : ∀ block ∈ blocks, ∃ data, reader.readBlock block.index.value.handle = .ok data ∧
      data.Stores 0 block.block.bytes) (hsnapshot : snapshot < 2 ^ 56) (skipFilters : Bool)
    (hfuel : ∀ block ∈ blocks, block.block.items.length + block.block.intervals.length < fuel)
    (buffer : GDSDataBlockIterDevicePinnedBuffer) (huser : context.userKey = user) :
    reader.getFrom fuel (lookupKey user snapshot) skipFilters (blocks.map TableBlock.index) buffer
        context =
      some (saveEntries (GDSGetContext.saveValue reader.rocks) context
        ((entriesOf blocks).dropWhile (before user snapshot))) := by
  have hindex : ∀ key left, reader.indexStatus key left = .ok := by
    intro key left
    rw [indexStatus, hstatus]
    rfl
  induction blocks generalizing buffer context with
  | nil =>
    rw [List.map_nil, getFrom, hindex]
    rfl
  | cons block rest ih =>
    obtain ⟨hblock, hrest⟩ := sorted_cons hsorted
    rw [List.map_cons, getFrom]
    by_cases hbetween : fallsBetween (lookupKey user snapshot) skipFilters block.index.value = true
    · rw [if_pos hbetween, hindex]
      have hother : ∀ entry ∈ (entriesOf (block :: rest)).dropWhile (before user snapshot),
          entry.userKey ≠ context.userKey := by
        intro entry hentry
        rw [huser]
        exact (user_lt_of_fallsBetween hsorted hbetween
          ((List.dropWhile_suffix _).subset hentry)).ne'
      rw [(GDSGetContext.stopsAtOthers reader.rocks).saveEntries hother]
    · obtain ⟨data, hread, hdata⟩ := hreads block List.mem_cons_self
      obtain ⟨last, hsearch⟩ := reader.searchBlock_eq hcomparator block hread hdata buffer
        hblock user hsnapshot (hfuel block List.mem_cons_self) context
      rw [if_neg hbetween, hsearch, dropWhile_entriesOf_cons hsorted, saveEntries_append]
      cases hsave : saveUntil (GDSGetContext.saveValue reader.rocks) context
          (block.entries.dropWhile (before user snapshot)) with
      | threw what => rfl
      | aborted reason => rfl
      | returned result =>
        obtain ⟨status, done, next⟩ := result
        dsimp only [Outcome.map]
        split_ifs with hfailed hdone
        · rfl
        · rw [hindex]
        · rw [not_not.mp hfailed, Bool.eq_false_iff.mpr hdone] at hsave
          exact ih hrest
            (fun other hother => hreads other (List.mem_cons_of_mem _ hother))
            (fun other hother => hfuel other (List.mem_cons_of_mem _ hother)) _
            ((saveUntil_more hsave).trans huser)

-- What the reader needs from the file, the index, the filter and the comparator of a table.
structure Serves (reader : GDSBlockBasedTableReader) (table : Table) : Prop where
  comparator : "Bytewise".toList <:+: reader.comparatorName.toList
  seeks : ∀ key, reader.iterSeek key = (table.blocks.map TableBlock.index).dropWhile fun entry =>
    Precedes entry.separator key
  status : ∀ key left, reader.iterStatus key left = .ok
  reads : ∀ block ∈ table.blocks, ∃ data, reader.readBlock block.index.value.handle = .ok data ∧
    data.Stores 0 block.block.bytes
  filters : ∀ user snapshot, reader.filterMayMatch (lookupKey user snapshot) = false →
    ∀ entry ∈ table.entries, entry.userKey ≠ user

end GDSBlockBasedTableReader

theorem dropWhile_skipped (blocks : List TableBlock) (user : Bytes) (hsnapshot : snapshot < 2 ^ 56)
    :
    (entriesOf (blocks.dropWhile fun block =>
        Precedes block.index.separator (lookupKey user snapshot))).dropWhile
          (before user snapshot) =
      (entriesOf blocks).dropWhile (before user snapshot) := by
  induction blocks with
  | nil => rfl
  | cons block rest ih =>
    by_cases hskip : Precedes block.index.separator (lookupKey user snapshot)
    · have hbefore : ∀ entry ∈ block.entries, before user snapshot entry = true := by
        intro entry hentry
        have hbounded := block.bounded entry hentry
        rw [← precedes_lookupKey_iff (block.sequences entry hentry) user hsnapshot]
        rw [precedes_iff] at *
        exact (not_lt.mp hbounded).trans_lt hskip
      rw [List.dropWhile_cons_of_pos (by simpa using hskip), ih, entriesOf_cons,
        List.dropWhile_append_of_pos hbefore]
    · rw [List.dropWhile_cons_of_neg (by simpa using hskip)]

-- The versions of a key that a snapshot sees, newest first.
def Table.visible (table : Table) (user : Bytes) (snapshot : Nat) : List (Entry Bytes) :=
  table.entries.filter fun entry => entry.userKey = user ∧ entry.sequence ≤ snapshot

def Table.newest (table : Table) (user : Bytes) (snapshot : Nat) : Option (Entry Bytes) :=
  (table.visible user snapshot).head?

theorem Table.sequence_le_newest {table : Table} (h : table.newest user snapshot = some entry)
    (hother : other ∈ table.visible user snapshot) : other.sequence ≤ entry.sequence := by
  obtain ⟨older, hvisible⟩ := List.head?_eq_some_iff.mp h
  have hsorted : (table.visible user snapshot).Pairwise Entry.NotAfter :=
    table.sorted.notAfter.filter _
  have hentry : entry ∈ table.visible user snapshot := hvisible ▸ List.mem_cons_self
  have huser := (of_decide_eq_true (List.mem_filter.mp hentry).2).1
  have huser' := (of_decide_eq_true (List.mem_filter.mp hother).2).1
  rw [hvisible] at hsorted hother
  rcases List.mem_cons.mp hother with rfl | holder
  · exact le_refl _
  · rcases (List.pairwise_cons.mp hsorted).1 other holder with hlt | ⟨-, hle⟩
    · exact absurd (huser.trans huser'.symm) hlt.ne
    · exact hle

-- What the seek position has behind the visible versions are later keys.
theorem Table.dropWhile_entries (table : Table) (user : Bytes) (snapshot : Nat) :
    ∃ later, table.entries.dropWhile (before user snapshot) =
        table.visible user snapshot ++ later ∧ ∀ entry ∈ later, entry.userKey ≠ user := by
  have hsorted := Sst.dropWhile_sorted user snapshot table.entries table.sorted.notAfter
  refine ⟨_, hsorted.trans (congrArg (· ++ _) ?_), ?_⟩
  · refine List.filter_congr fun entry _ => ?_
    exact decide_eq_decide.mpr Iff.rfl
  · intro entry hentry
    have hlt : user < entry.userKey := by simpa using (List.mem_filter.mp hentry).2
    exact hlt.ne'

theorem Table.newest_of_nil {table : Table}
    (h : table.entries.dropWhile (before user snapshot) = []) :
    table.newest user snapshot = none := by
  obtain ⟨later, hlater, -⟩ := table.dropWhile_entries user snapshot
  rw [h] at hlater
  rw [newest, (List.append_eq_nil_iff.mp hlater.symm).1]
  rfl

theorem Table.newest_of_cons {table : Table}
    (h : table.entries.dropWhile (before user snapshot) = entry :: rest) :
    table.newest user snapshot = if entry.userKey = user then some entry else none := by
  obtain ⟨later, hlater, hother⟩ := table.dropWhile_entries user snapshot
  rw [h] at hlater
  rw [newest]
  cases hvisible : table.visible user snapshot with
  | nil =>
    rw [hvisible, List.nil_append] at hlater
    rw [if_neg (hother entry (hlater ▸ List.mem_cons_self))]
    rfl
  | cons first older =>
    rw [hvisible, List.cons_append] at hlater
    obtain rfl : entry = first := (List.cons.inj hlater).1
    have hmem : entry ∈ table.visible user snapshot := hvisible ▸ List.mem_cons_self
    rw [if_pos (of_decide_eq_true (List.mem_filter.mp hmem).2).1]
    rfl

-- What a lookup leaves in a context.
def Found (newest : Option (Entry Bytes)) (context : GDSGetContext Bytes) : Prop :=
  match newest with
  | none => context.state = .kNotFound
  | some entry =>
    if entry.type = .kTypeValue then
      context.state = .kFound ∧ context.deviceValue = some entry.value
    else context.state = .kDeleted

namespace GDSBlockBasedTableReader

variable {reader : GDSBlockBasedTableReader} {table : Table}

section Seeks

variable (h : Serves reader table) {snapshot : Nat} (hsnapshot : snapshot < 2 ^ 56)
  (skipFilters : Bool) {fuel : Nat}
  (hfuel : ∀ block ∈ table.blocks,
    block.block.items.length + block.block.intervals.length < fuel)
  (buffer : GDSDataBlockIterDevicePinnedBuffer) (context : GDSGetContext Bytes)
include h hsnapshot hfuel

theorem Serves.getFrom_seek :
    reader.getFrom fuel (lookupKey context.userKey snapshot) skipFilters
        (reader.iterSeek (lookupKey context.userKey snapshot)) buffer context =
      some (saveEntries (GDSGetContext.saveValue reader.rocks) context
        (table.entries.dropWhile (before context.userKey snapshot))) := by
  obtain ⟨kept, hkept⟩ : ∃ kept, kept = table.blocks.dropWhile fun block =>
    decide (Precedes block.index.separator (lookupKey context.userKey snapshot)) := ⟨_, rfl⟩
  have hsuffix : kept <:+ table.blocks := hkept ▸ List.dropWhile_suffix _
  have hindex : reader.iterSeek (lookupKey context.userKey snapshot) =
      kept.map TableBlock.index := by
    rw [h.seeks, List.dropWhile_map, hkept]
    rfl
  have hdrop := dropWhile_skipped table.blocks context.userKey hsnapshot
  rw [← hkept] at hdrop
  rw [hindex, getFrom_eq reader h.comparator h.status (table.sorted_suffix hsuffix)
    (fun block hblock => h.reads block (hsuffix.subset hblock)) hsnapshot skipFilters
    (fun block hblock => hfuel block (hsuffix.subset hblock)) buffer rfl, hdrop]
  rfl

theorem Serves.get_seek :
    reader.get fuel (lookupKey context.userKey snapshot) skipFilters buffer context =
      some (saveEntries (GDSGetContext.saveValue reader.rocks) context
        (table.entries.dropWhile (before context.userKey snapshot))) := by
  rw [get]
  split
  case isTrue => exact h.getFrom_seek hsnapshot skipFilters hfuel buffer context
  case isFalse hfiltered =>
    have hfilter : reader.filterMayMatch (lookupKey context.userKey snapshot) = false := by
      simpa using (not_or.mp hfiltered).2
    rw [(GDSGetContext.stopsAtOthers reader.rocks).saveEntries fun entry hentry =>
      h.filters context.userKey snapshot hfilter entry ((List.dropWhile_suffix _).subset hentry)]

-- A lookup in the bytes of a table is the lookup in its file, where the order of the keys decides
-- whether they are equal.
theorem Serves.get_file (file : Sst.SstFile Bytes) (hfile : file.entries = table.entries) :
    reader.get fuel (lookupKey context.userKey snapshot) skipFilters buffer context =
      some (file.get (@GDSGetContext.saveValue Bytes LinearOrder.toDecidableEq reader.rocks)
        context.userKey snapshot context) := by
  have hsame : (LinearOrder.toDecidableEq : DecidableEq Bytes) = instDecidableEqList :=
    Subsingleton.elim _ _
  rw [h.get_seek hsnapshot skipFilters hfuel buffer context, ← hfile, hsame]
  rfl

end Seeks

theorem found_saved (hstate : context.state = .kNotFound) (entry : Entry Bytes) :
    Found (if entry.userKey = context.userKey then some entry else none)
      (saved context entry) := by
  rw [saved]
  by_cases hkey : entry.userKey = context.userKey
  · by_cases htype : entry.type = .kTypeValue
    · simp only [Found, if_pos hkey, if_pos htype, and_self]
    · simp only [Found, if_pos hkey, if_neg htype, GDSGetContext.withState]
  · rw [if_neg hkey, if_neg hkey]
    exact hstate

-- Without merges the loop ends with the entry at the seek position.
theorem saveEntries_newest (hplain : ∀ entry ∈ table.entries,
      entry.type = .kTypeValue ∨ entry.type.isDeletion = true) (rocks : Sst.RocksDB Bytes)
    (snapshot : Nat) (context : GDSGetContext Bytes) (hfresh : Fresh context) :
    ∃ last, saveEntries (GDSGetContext.saveValue rocks) context
        (table.entries.dropWhile (before context.userKey snapshot)) = .returned (.ok, last) ∧
      Found (table.newest context.userKey snapshot) last := by
  cases hdrop : table.entries.dropWhile (before context.userKey snapshot) with
  | nil =>
    rw [Table.newest_of_nil hdrop]
    exact ⟨context, rfl, hfresh.state⟩
  | cons entry rest =>
    have hentry : entry ∈ table.entries :=
      (List.dropWhile_suffix _).subset (hdrop ▸ List.mem_cons_self)
    have hsave := saveValue_plain rocks hfresh (hplain entry hentry)
    rw [Table.newest_of_cons hdrop, Sst.saveEntries_of_ends hsave rest rfl rfl]
    exact ⟨_, rfl, found_saved hfresh.state entry⟩

-- Whatever the blocks of a table and the versions in them are, a lookup finds the newest visible
-- version of a key: its value, that it is deleted, or that there is none.
theorem get_newest (reader : GDSBlockBasedTableReader) (table : Table) (h : Serves reader table)
    (hplain : ∀ entry ∈ table.entries, entry.type = .kTypeValue ∨ entry.type.isDeletion = true)
    (user : Bytes) (snapshot : Nat) (hsnapshot : snapshot < 2 ^ 56) (skipFilters : Bool)
    (buffer : GDSDataBlockIterDevicePinnedBuffer) (operator : Option (Sst.MergeOperator Bytes))
    (value : Bytes) :
    ∃ enough, ∀ fuel, enough ≤ fuel → ∃ context,
      reader.get fuel (lookupKey user snapshot) skipFilters buffer
          { mergeOperator := operator, userKey := user, deviceValue := some value } =
        some (.returned (.ok, context)) ∧
      Found (table.newest user snapshot) context := by
  refine ⟨(table.blocks.map fun block =>
    block.block.items.length + block.block.intervals.length).sum + 1, ?_⟩
  intro fuel henough
  have hfuel : ∀ block ∈ table.blocks,
      block.block.items.length + block.block.intervals.length < fuel := by
    intro block hblock
    have hle := List.single_le_sum (fun _ _ => Nat.zero_le _) _ (List.mem_map_of_mem hblock
      (f := fun block => block.block.items.length + block.block.intervals.length))
    omega
  obtain ⟨last, hsave, hfound⟩ := saveEntries_newest hplain reader.rocks snapshot
    { mergeOperator := operator, userKey := user, deviceValue := some value } ⟨rfl, rfl, rfl, rfl⟩
  have hget := h.get_seek hsnapshot skipFilters hfuel buffer
    { mergeOperator := operator, userKey := user, deviceValue := some value }
  rw [hsave] at hget
  exact ⟨last, hget, hfound⟩

-- Versions of a key in two blocks, of which the second has another key too.
def newer : List (Entry Bytes) :=
  [⟨[7], 3, .kTypeValue, [30]⟩, ⟨[7], 2, .kTypeDeletion, []⟩]

def older : List (Entry Bytes) :=
  [⟨[7], 1, .kTypeValue, [10]⟩, ⟨[9], 4, .kTypeValue, [40]⟩]

def twoBlocks : Table where
  blocks := [
    { entries := newer
      block := DataBlock.build 16 (newer.map encodeEntry) (by decide)
      index := ⟨packKey [7] 2 0, ⟨0, 32⟩, packKey [7] 3 1⟩
      encodes := DataBlock.entries_build ..
      sequences := by decide
      short := by decide
      small := by decide +kernel
      sized := by decide +kernel
      bounded := by decide
      first := by decide },
    { entries := older
      block := DataBlock.build 16 (older.map encodeEntry) (by decide)
      index := ⟨packKey [9] 4 1, ⟨37, 34⟩, packKey [7] 1 1⟩
      encodes := DataBlock.entries_build ..
      sequences := by decide
      short := by decide
      small := by decide +kernel
      sized := by decide +kernel
      bounded := by decide
      first := by decide }]
  sorted := by decide

-- A reader with the blocks of a table in memory and without a filter.
def memoryReader (table : Table) : GDSBlockBasedTableReader where
  rocks := .plain
  assertions := true
  comparatorName := "leveldb.BytewiseComparator"
  filterMayMatch _ := true
  iterSeek key := (table.blocks.map TableBlock.index).dropWhile fun entry =>
    Precedes entry.separator key
  iterStatus _ _ := .ok
  readBlock handle :=
    match table.blocks.find? fun block => block.index.value.handle = handle with
    | some block => .ok (Memory.ofBytes block.block.bytes)
    | none => .error (.ioError "GDS read failed: ")

theorem memoryReader_serves (table : Table)
    (hdistinct : (table.blocks.map fun block => block.index.value.handle).Nodup) :
    Serves (memoryReader table) table where
  comparator := show "Bytewise".toList <:+: "leveldb.BytewiseComparator".toList by decide
  seeks _ := rfl
  status _ _ := rfl
  reads block hblock := by
    have hfind : (table.blocks.find? fun other =>
        other.index.value.handle = block.index.value.handle).isSome = true :=
      List.find?_isSome.mpr ⟨block, hblock, decide_eq_true rfl⟩
    obtain ⟨other, hother⟩ := Option.isSome_iff_exists.mp hfind
    have hhandle : other.index.value.handle = block.index.value.handle :=
      of_decide_eq_true (List.find?_some hother :)
    obtain rfl : other = block :=
      List.inj_on_of_nodup_map hdistinct (List.mem_of_find?_eq_some hother) hblock hhandle
    refine ⟨Memory.ofBytes other.block.bytes, ?_, Memory.stores_ofBytes _⟩
    simp only [memoryReader, hother]
  filters _ _ h := by cases h

theorem get_twoBlocks :
    ∃ enough, ∀ fuel, enough ≤ fuel →
      (∃ context, (memoryReader twoBlocks).get fuel (lookupKey [7] 1) false DataBlock.freshBuffer
          { mergeOperator := none, userKey := [7], deviceValue := some [] } =
            some (.returned (.ok, context)) ∧
        context.state = .kFound ∧ context.deviceValue = some [10]) ∧
      ∃ context, (memoryReader twoBlocks).get fuel (lookupKey [7] 2) false DataBlock.freshBuffer
          { mergeOperator := none, userKey := [7], deviceValue := some [] } =
            some (.returned (.ok, context)) ∧ context.state = .kDeleted := by
  obtain ⟨enough, hfound⟩ := get_newest (memoryReader twoBlocks) twoBlocks
    (memoryReader_serves twoBlocks (by decide)) (by decide) [7] 1 (by decide) false
    DataBlock.freshBuffer none []
  obtain ⟨enough', hdeleted⟩ := get_newest (memoryReader twoBlocks) twoBlocks
    (memoryReader_serves twoBlocks (by decide)) (by decide) [7] 2 (by decide) false
    DataBlock.freshBuffer none []
  refine ⟨max enough enough', fun fuel hfuel => ⟨?_, ?_⟩⟩
  · exact hfound fuel (le_of_max_le_left hfuel)
  · exact hdeleted fuel (le_of_max_le_right hfuel)

end GDSBlockBasedTableReader

end MlkvPlus.Gds
