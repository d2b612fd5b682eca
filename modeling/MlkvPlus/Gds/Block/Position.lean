import MlkvPlus.Gds.Block.Format

namespace MlkvPlus.Gds

theorem toInt32_of_lt (hlt : value < 2 ^ 31) : toInt32 value = value := by
  exact Int.bmod_eq_of_le (by omega) (by omega)

theorem toSize_natCast {value : Nat} (hlt : value < 2 ^ 64) : toSize value = value := by
  rw [toSize]
  omega

theorem encodeItems_cons (item : BlockItem) (rest : List BlockItem) :
    encodeItems (item :: rest) = encodeItem item ++ encodeItems rest :=
  List.flatMap_cons

theorem encodeItems_append (first second : List BlockItem) :
    encodeItems (first ++ second) = encodeItems first ++ encodeItems second :=
  List.flatMap_append

theorem length_encodeItem_pos (item : BlockItem) : 0 < (encodeItem item).length := by
  have hpos := length_putVarint32_pos item.1
  simp only [encodeItem, List.length_append]
  omega

theorem linked_append (hfirst : Linked previous first)
    (hsecond : ∀ previous, Linked previous second) : Linked previous (first ++ second) := by
  induction first generalizing previous with
  | nil => exact hsecond previous
  | cons item rest ih =>
    obtain ⟨hprevious, hkey, htake, hrest⟩ := hfirst
    exact ⟨hprevious, hkey, htake, ih hrest⟩

namespace GDSDataBlockIter

variable {data : Memory} {previous : Bytes} {item : BlockItem} {items rest : List BlockItem}
  {offset : Nat} {iter : GDSDataBlockIter}

-- An iterator that shows an entry, whose value ends where the next entry begins.
structure Shows (data : Memory) (item : BlockItem) (iter : GDSDataBlockIter) : Prop where
  key : iter.key = item.2.key
  value : iter.dValue data = item.2.value
  ends : iter.valuePtr + toSize iter.valueLength = iter.nextOffset

theorem Shows.accept (h : Shows data item iter) : Shows data item iter.accept := by
  obtain ⟨hkey, hvalue, hends⟩ := h
  rw [GDSDataBlockIter.key] at hkey
  rw [dValue] at hvalue
  refine ⟨hkey, hvalue, ?_⟩
  rw [nextOffset_accept, ← hends, GDSDataBlockIter.accept]

-- The rest of a block is still to be decoded, and the key buffer has what its first key shares.
structure Ahead (data : Memory) (previous : Bytes) (items : List BlockItem) (offset : Nat)
    (iter : GDSDataBlockIter) : Prop where
  buffered : iter.keyBuffer.Stores 0 previous
  stored : data.Stores offset (encodeItems items)
  ends : offset + (encodeItems items).length = iter.restarts
  small : iter.restarts < 2 ^ 31
  linked : Linked previous items
  short : ∀ item ∈ items, item.2.key.length ≤ kKeyBufferSize

theorem stores_loaded {buffer : Memory} {key : Bytes} {shared : Nat}
    (hbuffer : buffer.Stores 0 previous) (hprevious : shared ≤ previous.length)
    (htake : key.take shared = previous.take shared) :
    (buffer.store shared (key.drop shared)).Stores 0 key := by
  have hshared : buffer.read 0 shared = previous.take shared := by
    have hskip := buffer.read_skip 0 previous.length 0 shared (by omega)
    rw [hbuffer] at hskip
    simpa using hskip
  have hlength : (key.take shared).length = shared := by
    rw [htake, List.length_take]
    omega
  rw [← List.take_append_drop shared key, Memory.stores_append, hlength, Nat.zero_add,
    List.take_append_drop]
  constructor
  · rw [Memory.Stores, hlength, Memory.read_store_of_disjoint _ _ _ _ _ (by omega), hshared, htake]
  · exact Memory.read_store_self ..

theorem Ahead.load (h : Ahead data previous (item :: rest) offset iter) {bound : Nat}
    (hbound : kKeyBufferSize ≤ bound) :
    ∃ entry, Device.decodeEntry data offset iter.restarts = some entry ∧ entry.shared = item.1 ∧
      data.read entry.keyPtr entry.nonShared = item.2.key.drop item.1 ∧
      (iter.loadEntry bound data entry).nextOffset = offset + (encodeItem item).length ∧
      Shows data item (iter.loadEntry bound data entry) ∧
      Ahead data item.2.key rest (offset + (encodeItem item).length)
        (iter.loadEntry bound data entry) := by
  obtain ⟨hbuffered, hstored, hends, hsmall, ⟨hprevious, hkey, htake, hlinked⟩, hshort⟩ := h
  rw [encodeItems_cons, List.length_append] at hends
  rw [encodeItems_cons, Memory.stores_append] at hstored
  have hlength := hshort item List.mem_cons_self
  have hsize : kKeyBufferSize = 512 := rfl
  obtain ⟨keyPtr, hdecode, hkeyStored, hvalueStored, hnext⟩ :=
    decodeEntry_item hstored.1 (show _ ≤ iter.restarts by omega) (by omega) (by omega)
  have hread : data.read keyPtr (item.2.key.length - item.1) = item.2.key.drop item.1 := by
    rw [← hkeyStored, List.length_drop]
  have hcopied : min (item.2.key.length - item.1) (bound - item.1) =
      item.2.key.length - item.1 := by omega
  have hkeyLength : (item.1 + (item.2.key.length - item.1)) % 2 ^ 32 = item.2.key.length := by
    omega
  have hbuffer : (iter.keyBuffer.store item.1
      (data.read keyPtr (min (item.2.key.length - item.1) (bound - item.1)))).Stores 0
        item.2.key := by
    rw [hcopied, hread]
    exact stores_loaded hbuffered hprevious htake
  refine ⟨_, hdecode, rfl, hread, ?_, ⟨?_, ?_, ?_⟩, ?_⟩
  · simp only [nextOffset, loadEntry, toInt32_of_lt (show item.2.value.length < 2 ^ 31 by omega)]
    omega
  · simp only [GDSDataBlockIter.key, loadEntry]
    rw [hkeyLength, toInt32_of_lt (by omega), toSize_natCast (by omega)]
    exact hbuffer
  · simp only [dValue, loadEntry]
    rw [toInt32_of_lt (by omega), toSize_natCast (by omega)]
    exact hvalueStored
  · simp only [nextOffset, loadEntry, toInt32_of_lt (show item.2.value.length < 2 ^ 31 by omega)]
    rw [toSize_natCast (by omega)]
    omega
  · refine ⟨hbuffer, hstored.2, ?_, ?_, hlinked,
      fun other hother => hshort other (List.mem_cons_of_mem _ hother)⟩
    · rw [restarts_loadEntry]
      omega
    · rw [restarts_loadEntry]
      exact hsmall

theorem Ahead.congr (h : Ahead data previous items offset iter)
    (hbuffer : other.keyBuffer = iter.keyBuffer) (hrestarts : other.restarts = iter.restarts) :
    Ahead data previous items offset other := by
  obtain ⟨hbuffered, hstored, hends, hsmall, hlinked, hshort⟩ := h
  exact ⟨hbuffer ▸ hbuffered, hstored, hrestarts ▸ hends, hrestarts ▸ hsmall, hlinked, hshort⟩

theorem Ahead.lt (h : Ahead data previous (item :: rest) offset iter) : offset < iter.restarts := by
  have hends := h.ends
  have hpos := length_encodeItem_pos item
  rw [encodeItems_cons, List.length_append] at hends
  omega

theorem Ahead.eq (h : Ahead data previous [] offset iter) : offset = iter.restarts :=
  h.ends

-- A valid iterator at an entry, with the rest of the block ahead.
structure At (data : Memory) (item : BlockItem) (rest : List BlockItem) (iter : GDSDataBlockIter) :
    Prop where
  valid : iter.validFlag = true
  noError : iter.errorCode = 0
  starts : iter.current + (encodeItem item).length = iter.nextOffset
  shows : Shows data item iter
  ahead : Ahead data item.2.key rest iter.nextOffset iter

theorem Ahead.at_load (h : Ahead data previous (item :: rest) offset iter)
    (hcurrent : iter.current = offset) (hbound : kKeyBufferSize ≤ bound) :
    ∃ entry, Device.decodeEntry data iter.current iter.restarts = some entry ∧
      entry.shared = item.1 ∧ (iter.loadEntry bound data entry).key = item.2.key ∧
      At data item rest (iter.loadEntry bound data entry).accept := by
  obtain ⟨entry, hdecode, hshared, -, hnext, hshows, hahead⟩ := h.load hbound
  rw [hcurrent]
  refine ⟨entry, hdecode, hshared, hshows.key, rfl, rfl, ?_, hshows.accept, ?_⟩
  · rw [nextOffset_accept, hnext, current_accept, current_loadEntry, hcurrent]
  · rw [nextOffset_accept, hnext]
    exact hahead.congr rfl rfl

theorem At.next_end (h : At data item [] iter) :
    (nextKernel data iter).validFlag = false ∧ (nextKernel data iter).errorCode = 0 := by
  have hend : iter.restarts ≤ iter.nextOffset := h.ahead.eq.ge
  rw [nextKernel, if_neg (by rw [h.valid]; decide)]
  dsimp only
  rw [restarts_moveTo, current_moveTo, if_pos hend]
  exact ⟨rfl, rfl⟩

theorem At.next {next : BlockItem} (h : At data item (next :: rest) iter) :
    At data next rest (nextKernel data iter) := by
  have hlt := h.ahead.lt
  have hahead : Ahead data item.2.key (next :: rest) iter.nextOffset
      (iter.moveTo iter.nextOffset) := h.ahead.congr rfl rfl
  obtain ⟨entry, hdecode, -, -, hat⟩ := hahead.at_load rfl (le_refl kKeyBufferSize)
  rw [nextKernel, if_neg (by rw [h.valid]; decide)]
  dsimp only
  rw [restarts_moveTo, current_moveTo, if_neg (Nat.not_le.mpr hlt)]
  rw [restarts_moveTo, current_moveTo] at hdecode
  rw [hdecode]
  exact hat

end GDSDataBlockIter

theorem decodeFixed32_words {words : List Nat}
    (hstores : data.Stores start (words.flatMap (Bytes.fixed 4)))
    (hwords : ∀ word ∈ words, word < 2 ^ 32) (hindex : words[index]? = some word) :
    Device.decodeFixed32 data (start + index * kRestartSize) = word := by
  induction words generalizing start index with
  | nil => simp at hindex
  | cons first rest ih =>
    rw [List.flatMap_cons, Memory.stores_append, Bytes.length_fixed] at hstores
    cases index with
    | zero =>
      obtain rfl : first = word := by simpa using hindex
      have hread : data.read start 4 = Bytes.fixed 4 first := by
        simpa [Memory.Stores] using hstores.1
      rw [Device.decodeFixed32, Nat.zero_mul, Nat.add_zero, hread,
        Bytes.decodeFixed_fixed_of_lt (hwords first List.mem_cons_self)]
    | succ index =>
      have hstart : start + (index + 1) * kRestartSize = start + 4 + index * kRestartSize := by
        rw [Nat.add_one_mul, kRestartSize]
        omega
      rw [hstart]
      exact ih hstores.2 (fun word hword => hwords word (List.mem_cons_of_mem _ hword))
        (by simpa using hindex)

namespace DataBlock

variable {block : DataBlock} {data : Memory}

theorem itemsOf_append (first second : List RestartInterval) :
    itemsOf (first ++ second) = itemsOf first ++ itemsOf second :=
  List.flatMap_append

theorem linked_itemsOf {intervals : List RestartInterval}
    (hlinked : ∀ interval ∈ intervals, Linked interval.first.key interval.rest)
    (previous : Bytes) : Linked previous (itemsOf intervals) := by
  induction intervals generalizing previous with
  | nil => trivial
  | cons interval rest ih =>
    have hrest := ih fun other hother => hlinked other (List.mem_cons_of_mem _ hother)
    -- a restart key is stored whole, so that it does not depend on the key before it
    refine ⟨Nat.zero_le _, Nat.zero_le _, rfl, ?_⟩
    exact linked_append (hlinked interval List.mem_cons_self) hrest

def restartOffset (block : DataBlock) : Nat :=
  (encodeItems block.items).length

theorem length_restartPoints (block : DataBlock) :
    (block.restartPoints.flatMap (Bytes.fixed 4)).length = block.intervals.length * 4 := by
  simp [List.length_flatMap, restartPoints, Function.comp_def, Bytes.length_fixed]

theorem length_bytes (block : DataBlock) :
    block.bytes.length = block.restartOffset + (block.intervals.length + 1) * 4 := by
  rw [bytes, List.length_append, List.length_append, length_restartPoints, Bytes.length_fixed,
    restartOffset]
  omega

theorem items_split (block : DataBlock) (index : Nat) :
    block.items = itemsOf (block.intervals.take index) ++ itemsOf (block.intervals.drop index) := by
  rw [← itemsOf_append, List.take_append_drop]
  rfl

theorem restartPoint_add (block : DataBlock) (index : Nat) :
    block.restartPoint index + (encodeItems (itemsOf (block.intervals.drop index))).length =
      block.restartOffset := by
  rw [restartOffset, items_split block index, encodeItems_append, List.length_append]
  rfl

-- A block in memory. What stands around it does not matter.
structure Stored (block : DataBlock) (data : Memory) : Prop where
  stored : data.Stores 0 block.bytes
  small : block.bytes.length < 2 ^ 32

-- A block with lengths that an `int` holds and keys that the key buffer holds.
structure Loaded (block : DataBlock) (data : Memory) : Prop where
  stored : data.Stores 0 block.bytes
  small : block.bytes.length < 2 ^ 31
  short : ∀ entry ∈ block.entries, entry.key.length ≤ kKeyBufferSize

theorem Loaded.toStored (h : Loaded block data) : Stored block data :=
  ⟨h.stored, h.small.trans (by decide)⟩

theorem Stored.restarts_stored (h : Stored block data) :
    data.Stores block.restartOffset (block.restartPoints.flatMap (Bytes.fixed 4)) ∧
      data.Stores (block.bytes.length - kRestartSize)
        (Bytes.fixed 4 block.intervals.length) := by
  have hlength := block.length_bytes
  have hsize : kRestartSize = 4 := rfl
  have hstored := h.stored
  rw [bytes, Memory.stores_append, Memory.stores_append] at hstored
  obtain ⟨-, hpoints, hcount⟩ := hstored
  rw [Nat.zero_add] at hpoints hcount
  refine ⟨hpoints, ?_⟩
  have haddress : block.bytes.length - kRestartSize = (encodeItems block.items).length +
      (block.restartPoints.flatMap (Bytes.fixed 4)).length := by
    rw [length_restartPoints, hlength, restartOffset]
    omega
  rw [haddress]
  exact hcount

def metadata (block : DataBlock) : DeviceBlockMetadata where
  numRestarts := block.intervals.length
  restartOffset := block.restartOffset
  indexType := 0
  blockSize := block.bytes.length

theorem Stored.initialize (h : Stored block data) (assertions : Bool) :
    initializeBlockMetadata assertions data block.bytes.length = .returned block.metadata := by
  have hlength := block.length_bytes
  have hsmall := h.small
  have hsize : kRestartSize = 4 := rfl
  have hpos : 0 < block.intervals.length := List.length_pos_iff.mpr block.nonempty
  have hfooter : Device.decodeFixed32 data (block.bytes.length - kRestartSize) =
      block.intervals.length := by
    have hread : data.read (block.bytes.length - kRestartSize) 4 =
        Bytes.fixed 4 block.intervals.length := by
      simpa [Memory.Stores] using h.restarts_stored.2
    rw [Device.decodeFixed32, hread, Bytes.decodeFixed_fixed_of_lt (by omega)]
  have hbit : block.intervals.length.testBit 31 = false := Nat.testBit_lt_two_pow (by omega)
  have hdecode : decodeFooter block.intervals.length block.bytes.length =
      (block.intervals.length, 0) := by
    rw [decodeFooter, hbit]
    split
    · rfl
    · rw [Nat.mod_eq_of_lt (by omega)]
      rfl
  have hoffset : sub64 block.bytes.length ((1 + block.intervals.length) % 2 ^ 32 * kRestartSize) %
      2 ^ 32 = block.restartOffset := by
    rw [hsize, sub64_of_le (by omega) (by omega)]
    omega
  rw [initializeBlockMetadata, if_neg (by omega), hfooter]
  dsimp only
  rw [hdecode]
  simp only [if_pos hpos, hoffset, Nat.zero_ne_one, and_false, if_false]
  rfl

theorem Stored.getRestartPoint (h : Stored block data) {index : Nat}
    (hindex : index < block.intervals.length) :
    Device.getRestartPoint data block.restartOffset index = block.restartPoint index := by
  have hlength := block.length_bytes
  have hsmall := h.small
  refine decodeFixed32_words h.restarts_stored.1 ?_ ?_
  · intro word hword
    obtain ⟨other, -, rfl⟩ := List.mem_map.mp hword
    have hadd := block.restartPoint_add other
    omega
  · simp [restartPoints, hindex]

theorem itemsOf_drop_suffix (block : DataBlock) (index : Nat) :
    itemsOf (block.intervals.drop index) <:+ block.items := by
  rw [items_split block index]
  exact List.suffix_append ..

theorem linked_drop (block : DataBlock) (index : Nat) :
    Linked [] (itemsOf (block.intervals.drop index)) :=
  linked_itemsOf (fun interval hinterval =>
    block.linked interval (List.mem_of_mem_drop hinterval)) []

theorem Stored.items_stored (h : Stored block data) (index : Nat) :
    data.Stores (block.restartPoint index)
      (encodeItems (itemsOf (block.intervals.drop index))) := by
  have hitems := (Memory.stores_append.mp h.stored).1
  rw [items_split block index, encodeItems_append, Memory.stores_append, Nat.zero_add] at hitems
  exact hitems.2

theorem Loaded.ahead (h : Loaded block data) (index : Nat) {iter : GDSDataBlockIter}
    (hrestarts : iter.restarts = block.restartOffset) :
    iter.Ahead data [] (itemsOf (block.intervals.drop index)) (block.restartPoint index) := by
  have hadd := block.restartPoint_add index
  have hlength := block.length_bytes
  have hsmall := h.small
  refine ⟨rfl, h.toStored.items_stored index, by rw [hadd, hrestarts],
    by rw [hrestarts]; omega, block.linked_drop index, ?_⟩
  intro item hitem
  exact h.short item.2 (List.mem_map_of_mem ((block.itemsOf_drop_suffix index).subset hitem))

theorem drop_eq (hinterval : block.intervals[index]? = some interval) :
    itemsOf (block.intervals.drop index) =
      (0, interval.first) :: (interval.rest ++ itemsOf (block.intervals.drop (index + 1))) := by
  obtain ⟨hindex, hget⟩ := List.getElem?_eq_some_iff.mp hinterval
  rw [List.drop_eq_getElem_cons hindex, hget]
  rfl

end DataBlock

end MlkvPlus.Gds
