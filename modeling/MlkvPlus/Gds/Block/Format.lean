import MlkvPlus.Gds.Block.Entry
import MlkvPlus.WriteBatch.Sizes

namespace MlkvPlus.Gds

open WriteBatch (putVarint32 varint_putVarint32)

structure BlockEntry where
  key : Bytes
  value : Bytes
  deriving DecidableEq, Repr

-- An entry with the number of bytes that its key shares with the one before.
abbrev BlockItem := Nat × BlockEntry

def encodeItem (item : BlockItem) : Bytes :=
  putVarint32 item.1 ++ putVarint32 (item.2.key.length - item.1) ++
    putVarint32 item.2.value.length ++ (item.2.key.drop item.1 ++ item.2.value)

def encodeItems (items : List BlockItem) : Bytes :=
  items.flatMap encodeItem

-- Every key begins with the shared bytes of the key before it.
def Linked : Bytes → List BlockItem → Prop
  | _, [] => True
  | previous, (shared, entry) :: rest =>
    shared ≤ previous.length ∧ shared ≤ entry.key.length ∧
      entry.key.take shared = previous.take shared ∧ Linked entry.key rest

-- The entries from one restart point to the next; the first key is stored whole.
structure RestartInterval where
  first : BlockEntry
  rest : List BlockItem

def RestartInterval.items (interval : RestartInterval) : List BlockItem :=
  (0, interval.first) :: interval.rest

structure DataBlock where
  intervals : List RestartInterval
  nonempty : intervals ≠ []
  linked : ∀ interval ∈ intervals, Linked interval.first.key interval.rest

namespace DataBlock

def itemsOf (intervals : List RestartInterval) : List BlockItem :=
  intervals.flatMap RestartInterval.items

def items (block : DataBlock) : List BlockItem :=
  itemsOf block.intervals

def entries (block : DataBlock) : List BlockEntry :=
  block.items.map Prod.snd

def restartPoint (block : DataBlock) (index : Nat) : Nat :=
  (encodeItems (itemsOf (block.intervals.take index))).length

def restartPoints (block : DataBlock) : List Nat :=
  (List.range block.intervals.length).map block.restartPoint

-- The entries, the restart points and their number.
def bytes (block : DataBlock) : Bytes :=
  encodeItems block.items ++
    (block.restartPoints.flatMap (Bytes.fixed 4) ++ Bytes.fixed 4 block.intervals.length)

end DataBlock

-- How many bytes two keys have in common at their beginning.
def sharedLength : Bytes → Bytes → Nat
  | a :: rest, b :: rest' => if a = b then sharedLength rest rest' + 1 else 0
  | _, _ => 0

-- The block builder: `counter` entries after the last restart a new interval is due. The result
-- is the rest of the interval under way and the intervals behind it.
def buildFrom (interval : Nat) :
    Nat → Bytes → List BlockEntry → List BlockItem × List RestartInterval
  | _, _, [] => ([], [])
  | counter, lastKey, entry :: rest =>
    if counter < interval then
      let built := buildFrom interval (counter + 1) entry.key rest
      ((sharedLength lastKey entry.key, entry) :: built.1, built.2)
    else
      let built := buildFrom interval 1 entry.key rest
      ([], ⟨entry, built.1⟩ :: built.2)

theorem sharedLength_spec (first second : Bytes) :
    sharedLength first second ≤ first.length ∧ sharedLength first second ≤ second.length ∧
      second.take (sharedLength first second) = first.take (sharedLength first second) := by
  induction first generalizing second with
  | nil => simp [sharedLength]
  | cons byte rest ih =>
    cases second with
    | nil => simp [sharedLength]
    | cons byte' rest' =>
      rw [sharedLength]
      split
      case isTrue heq =>
        obtain ⟨hfirst, hsecond, htake⟩ := ih rest'
        refine ⟨Nat.succ_le_succ hfirst, Nat.succ_le_succ hsecond, ?_⟩
        rw [List.take_succ_cons, List.take_succ_cons, heq, htake]
      case isFalse => simp

theorem linked_buildFrom (interval counter : Nat) (lastKey : Bytes) (entries : List BlockEntry) :
    Linked lastKey (buildFrom interval counter lastKey entries).1 ∧
      ∀ built ∈ (buildFrom interval counter lastKey entries).2,
        Linked built.first.key built.rest := by
  induction entries generalizing counter lastKey with
  | nil => exact ⟨trivial, by simp [buildFrom]⟩
  | cons entry rest ih =>
    rw [buildFrom]
    split
    case isTrue =>
      obtain ⟨hrest, hintervals⟩ := ih (counter + 1) entry.key
      obtain ⟨hfirst, hsecond, htake⟩ := sharedLength_spec lastKey entry.key
      exact ⟨⟨hfirst, hsecond, htake, hrest⟩, hintervals⟩
    case isFalse =>
      obtain ⟨hrest, hintervals⟩ := ih 1 entry.key
      exact ⟨trivial, List.forall_mem_cons.mpr ⟨hrest, hintervals⟩⟩

theorem entries_buildFrom (interval counter : Nat) (lastKey : Bytes) (entries : List BlockEntry) :
    ((buildFrom interval counter lastKey entries).1 ++
      DataBlock.itemsOf (buildFrom interval counter lastKey entries).2).map Prod.snd = entries := by
  induction entries generalizing counter lastKey with
  | nil => rfl
  | cons entry rest ih =>
    rw [buildFrom]
    split
    case isTrue => exact congrArg _ (ih (counter + 1) entry.key)
    case isFalse => exact congrArg _ (ih 1 entry.key)

namespace DataBlock

def build (interval : Nat) (entries : List BlockEntry) (hentries : entries ≠ []) : DataBlock where
  intervals := (buildFrom interval interval [] entries).2
  nonempty := by
    cases entries with
    | nil => exact absurd rfl hentries
    | cons entry rest => simp [buildFrom]
  linked := (linked_buildFrom interval interval [] entries).2

theorem entries_build (interval : Nat) (entries : List BlockEntry) (hentries : entries ≠ []) :
    (build interval entries hentries).entries = entries := by
  have hbuilt := entries_buildFrom interval interval [] entries
  have hnil : (buildFrom interval interval [] entries).1 = [] := by
    cases entries with
    | nil => rfl
    | cons entry rest => simp [buildFrom]
  rwa [hnil, List.nil_append] at hbuilt

end DataBlock

theorem length_putVarint32_pos (value : Nat) : 0 < (putVarint32 value).length := by
  rw [WriteBatch.length_putVarint32, WriteBatch.varintSize]
  omega

theorem decodeEntry_item (hstores : data.Stores p (encodeItem item))
    (hlimit : p + (encodeItem item).length ≤ limit) (hlt : limit < 2 ^ 32)
    (hshared : item.1 < 2 ^ 32) :
    ∃ keyPtr, Device.decodeEntry data p limit = some
        ⟨keyPtr, item.1, item.2.key.length - item.1, item.2.value.length⟩ ∧
      data.Stores keyPtr (item.2.key.drop item.1) ∧
      data.Stores (keyPtr + (item.2.key.length - item.1)) item.2.value ∧
      keyPtr + (item.2.key.length - item.1) + item.2.value.length =
        p + (encodeItem item).length := by
  obtain ⟨hheader, hrest⟩ := Memory.stores_append.mp hstores
  obtain ⟨hkey, hvalue⟩ := Memory.stores_append.mp hrest
  rw [List.length_drop] at hvalue
  have hlength : (encodeItem item).length = (putVarint32 item.1 ++
      putVarint32 (item.2.key.length - item.1) ++ putVarint32 item.2.value.length).length +
        (item.2.key.length - item.1) + item.2.value.length := by
    simp only [encodeItem, List.length_append, List.length_drop]
    omega
  refine ⟨_, Device.decodeEntry_eq_some_iff.mpr ⟨?_, ?_⟩, hkey, hvalue, by omega⟩
  · refine ⟨_, _, _, hheader, varint_putVarint32 hshared, varint_putVarint32 (by omega),
      varint_putVarint32 (by omega), rfl, ?_⟩
    dsimp only
    omega
  · dsimp only
    omega

end MlkvPlus.Gds
