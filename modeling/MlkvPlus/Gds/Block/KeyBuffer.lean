import MlkvPlus.Gds.Block.Malformed
import MlkvPlus.Gds.Block.Seek

namespace MlkvPlus.Gds

namespace GDSDataBlockIter

-- The places of the key buffer that the copy of an entry's key writes to.
def copyIndices (bound : Nat) (entry : DecodedEntry) : List Nat :=
  List.range' entry.shared (min entry.nonShared (bound - entry.shared))

theorem keyBuffer_load (bound : Nat) (data : Memory) (iter : GDSDataBlockIter)
    (entry : DecodedEntry) :
    (iter.loadEntry bound data entry).keyBuffer = iter.keyBuffer.store entry.shared
      (data.read entry.keyPtr (min entry.nonShared (bound - entry.shared))) := by
  rw [loadEntry]

theorem keyLength_load (bound : Nat) (data : Memory) (iter : GDSDataBlockIter)
    (entry : DecodedEntry) :
    (iter.loadEntry bound data entry).accept.keyLength =
      toInt32 ((entry.shared + entry.nonShared) % 2 ^ 32) := by
  rw [accept, loadEntry]

inductive IterCall where
  | seekToFirst
  | seek (target : Bytes)
  | next
  deriving DecidableEq, Repr

def perform (data : Memory) (fuel : Nat) (iter : GDSDataBlockIter) :
    IterCall → Option GDSDataBlockIter
  | .seekToFirst => some (iter.seekToFirstKernel data)
  | .seek target => iter.seekKernel data target fuel
  | .next => some (iter.nextKernel data)

def runCalls (data : Memory) (fuel : Nat) : GDSDataBlockIter → List IterCall → Option GDSDataBlockIter
  | iter, [] => some iter
  | iter, call :: rest =>
    match iter.perform data fuel call with
    | none => none
    | some iter => runCalls data fuel iter rest

-- The stores of the kernels into the key buffer.
def seekToFirstStores (data : Memory) (iter : GDSDataBlockIter) : List Nat :=
  let iter := iter.moveToRestart data 0
  match Device.decodeEntry data iter.current iter.restarts with
  | none => []
  | some entry => if entry.shared ≠ 0 then [] else copyIndices kSeekBound entry

def scanEntryStores (data : Memory) (iter : GDSDataBlockIter) : List Nat :=
  if iter.current < iter.restarts then
    match Device.decodeEntry data iter.current iter.restarts with
    | none => []
    | some entry => copyIndices kSeekBound entry
  else []

def scanStores (data : Memory) (target : Bytes) : Nat → GDSDataBlockIter → List Nat
  | 0, _ => []
  | fuel + 1, iter =>
    scanEntryStores data iter ++ match scanEntry data target iter with
      | .stop _ => []
      | .more iter => scanStores data target fuel iter

def seekStores (data : Memory) (target : Bytes) (fuel : Nat) (iter : GDSDataBlockIter) :
    List Nat :=
  let right : Int := ((iter.numRestarts + 2 ^ 32 - 1) % 2 ^ 32 : Nat)
  match Search.search (probeRestart data iter.restarts target) fuel (-1) right with
  | some (some left) =>
    let restartIdx := if left = -1 then 0 else (left % 2 ^ 32).toNat
    scanStores data target fuel (iter.moveToRestart data restartIdx)
  | _ => []

def nextStores (data : Memory) (iter : GDSDataBlockIter) : List Nat :=
  if iter.validFlag = false ∨ iter.restarts ≤ iter.nextOffset then []
  else
    match Device.decodeEntry data iter.nextOffset iter.restarts with
    | none => []
    | some entry => copyIndices kKeyBufferSize entry

def stores (data : Memory) (fuel : Nat) (iter : GDSDataBlockIter) : IterCall → List Nat
  | .seekToFirst => iter.seekToFirstStores data
  | .seek target => iter.seekStores data target fuel
  | .next => iter.nextStores data

def runStores (data : Memory) (fuel : Nat) : GDSDataBlockIter → List IterCall → List Nat
  | _, [] => []
  | iter, call :: rest =>
    iter.stores data fuel call ++ match iter.perform data fuel call with
      | none => []
      | some iter => runStores data fuel iter rest

-- What a call leaves as it was: where the restarts are, and the key buffer outside of its stores.
structure Frame (stores : List Nat) (iter result : GDSDataBlockIter) : Prop where
  restarts : result.restarts = iter.restarts
  numRestarts : result.numRestarts = iter.numRestarts
  keyBuffer : ∀ index, index ∉ stores → result.keyBuffer index = iter.keyBuffer index

theorem Frame.trans (hfirst : Frame first iter middle) (hsecond : Frame second middle result) :
    Frame (first ++ second) iter result := by
  refine ⟨hsecond.restarts.trans hfirst.restarts, hsecond.numRestarts.trans hfirst.numRestarts, ?_⟩
  intro index hindex
  obtain ⟨hnotFirst, hnotSecond⟩ := not_or.mp (mt List.mem_append.mpr hindex)
  rw [hsecond.keyBuffer index hnotSecond, hfirst.keyBuffer index hnotFirst]

theorem Frame.refl (iter : GDSDataBlockIter) : Frame [] iter iter :=
  ⟨rfl, rfl, fun _ _ => rfl⟩

theorem Frame.after {stores : List Nat} (hfirst : Frame [] iter middle)
    (hsecond : Frame stores middle result) : Frame stores iter result :=
  hfirst.trans hsecond

theorem Frame.before {stores : List Nat} (hfirst : Frame stores iter middle)
    (hsecond : Frame [] middle result) : Frame stores iter result := by
  have hframe := hfirst.trans hsecond
  rwa [List.append_nil] at hframe

theorem frame_invalidate (iter : GDSDataBlockIter) (errorCode : Nat) :
    Frame [] iter (iter.invalidate errorCode) :=
  ⟨rfl, rfl, fun _ _ => rfl⟩

theorem frame_accept (iter : GDSDataBlockIter) : Frame [] iter iter.accept :=
  ⟨rfl, rfl, fun _ _ => rfl⟩

theorem frame_moveTo (iter : GDSDataBlockIter) (offset : Nat) : Frame [] iter (iter.moveTo offset) :=
  ⟨rfl, rfl, fun _ _ => rfl⟩

theorem frame_moveToRestart (data : Memory) (iter : GDSDataBlockIter) (index : Nat) :
    Frame [] iter (iter.moveToRestart data index) :=
  ⟨rfl, rfl, fun _ _ => rfl⟩

theorem frame_loadEntry (bound : Nat) (data : Memory) (iter : GDSDataBlockIter)
    (entry : DecodedEntry) :
    Frame (copyIndices bound entry) iter (iter.loadEntry bound data entry) := by
  refine ⟨restarts_loadEntry .., by rw [loadEntry], ?_⟩
  intro index hindex
  rw [copyIndices, List.mem_range'_1] at hindex
  rw [keyBuffer_load, Memory.store, Memory.length_read]
  exact if_neg hindex

theorem frame_load_accept (bound : Nat) (data : Memory) (iter : GDSDataBlockIter)
    (entry : DecodedEntry) :
    Frame (copyIndices bound entry) iter (iter.loadEntry bound data entry).accept :=
  (frame_loadEntry bound data iter entry).before (frame_accept _)

theorem seekToFirstKernel_frame (data : Memory) (iter : GDSDataBlockIter) :
    Frame (iter.seekToFirstStores data) iter (iter.seekToFirstKernel data) := by
  refine (frame_moveToRestart data iter 0).after ?_
  rw [seekToFirstStores, seekToFirstKernel]
  obtain ⟨moved, hmoved⟩ : ∃ moved, moved = iter.moveToRestart data 0 := ⟨_, rfl⟩
  rw [← hmoved]
  cases Device.decodeEntry data moved.current moved.restarts with
  | none => exact frame_invalidate ..
  | some entry =>
    by_cases hshared : entry.shared ≠ 0
    · dsimp only
      rw [if_pos hshared, if_pos hshared]
      exact frame_invalidate ..
    · dsimp only
      rw [if_neg hshared, if_neg hshared]
      exact frame_load_accept ..

theorem nextKernel_frame (data : Memory) (iter : GDSDataBlockIter) :
    Frame (iter.nextStores data) iter (iter.nextKernel data) := by
  rw [nextStores, nextKernel]
  by_cases hinvalid : iter.validFlag = false
  · rw [if_pos hinvalid, if_pos (Or.inl hinvalid)]
    exact .refl iter
  · rw [if_neg hinvalid]
    refine (frame_moveTo iter iter.nextOffset).after ?_
    dsimp only
    rw [restarts_moveTo, current_moveTo]
    by_cases hend : iter.restarts ≤ iter.nextOffset
    · rw [if_pos hend, if_pos (Or.inr hend)]
      exact frame_invalidate ..
    · rw [if_neg hend, if_neg (not_or.mpr ⟨hinvalid, hend⟩)]
      cases Device.decodeEntry data iter.nextOffset iter.restarts with
      | none => exact frame_invalidate ..
      | some entry => exact frame_load_accept ..

theorem scanEntry_frame (hpass : scanEntry data target iter = .stop result ∨
      scanEntry data target iter = .more result) :
    Frame (scanEntryStores data iter) iter result := by
  rw [scanEntry] at hpass
  rw [scanEntryStores]
  split at hpass
  case isFalse hend =>
    obtain rfl := Pass.stop.inj (hpass.resolve_right Pass.noConfusion)
    rw [if_neg hend]
    exact (frame_moveTo ..).after (frame_invalidate ..)
  case isTrue hlt =>
    rw [if_pos hlt]
    cases hdecode : Device.decodeEntry data iter.current iter.restarts with
    | none =>
      rw [hdecode] at hpass
      obtain rfl := Pass.stop.inj (hpass.resolve_right Pass.noConfusion)
      exact frame_invalidate ..
    | some entry =>
      rw [hdecode] at hpass
      dsimp only at hpass ⊢
      split at hpass
      · obtain rfl := Pass.stop.inj (hpass.resolve_right Pass.noConfusion)
        exact frame_load_accept ..
      · obtain rfl := Pass.more.inj (hpass.resolve_left Pass.noConfusion)
        exact (frame_loadEntry ..).before (frame_moveTo ..)

theorem scan_frame (data : Memory) (target : Bytes) (fuel : Nat)
    (hscan : scan data target fuel iter = some result) :
    Frame (scanStores data target fuel iter) iter result := by
  induction fuel generalizing iter with
  | zero => cases hscan
  | succ fuel ih =>
    rw [scan] at hscan
    rw [scanStores]
    cases hpass : scanEntry data target iter with
    | stop last =>
      rw [hpass] at hscan
      obtain rfl := Option.some.inj hscan
      exact (scanEntry_frame (Or.inl hpass)).trans (.refl last)
    | more next =>
      rw [hpass] at hscan
      exact (scanEntry_frame (Or.inr hpass)).trans (ih hscan)

theorem seekKernel_frame (data : Memory) (target : Bytes) (fuel : Nat)
    (hseek : iter.seekKernel data target fuel = some result) :
    Frame (iter.seekStores data target fuel) iter result := by
  rw [seekKernel] at hseek
  rw [seekStores]
  dsimp only at hseek ⊢
  split at hseek
  case h_1 => cases hseek
  case h_2 hsearch =>
    rw [hsearch, ← Option.some.inj hseek]
    exact frame_invalidate ..
  case h_3 left hsearch =>
    rw [hsearch]
    exact (frame_moveToRestart ..).after (scan_frame data target fuel hseek)

theorem perform_frame (h : iter.perform data fuel call = some result) :
    Frame (iter.stores data fuel call) iter result := by
  cases call with
  | seekToFirst =>
    rw [← Option.some.inj h]
    exact seekToFirstKernel_frame data iter
  | seek target => exact seekKernel_frame data target fuel h
  | next =>
    rw [← Option.some.inj h]
    exact nextKernel_frame data iter

theorem runCalls_frame (h : runCalls data fuel iter calls = some result) :
    Frame (runStores data fuel iter calls) iter result := by
  induction calls generalizing iter with
  | nil =>
    rw [← Option.some.inj h]
    exact .refl iter
  | cons call rest ih =>
    rw [runCalls] at h
    rw [runStores]
    cases hperform : iter.perform data fuel call with
    | none =>
      rw [hperform] at h
      cases h
    | some next =>
      rw [hperform] at h
      exact (perform_frame hperform).trans (ih h)

-- The key that the buffer holds, which has no more than its own bytes.
def bufferedKey (iter : GDSDataBlockIter) : Bytes :=
  (iter.keyBuffer.read 0 kKeyBufferSize).take (toSize iter.keyLength)

-- The rest of a block is still to be decoded, and the key buffer has what its first key shares.
-- Keys may have any length; a key is not longer than what was read of the block for it.
structure KeysAhead (data : Memory) (previous : Bytes) (items : List BlockItem) (offset : Nat)
    (iter : GDSDataBlockIter) : Prop where
  buffered : iter.keyBuffer.Stores 0 previous
  stored : data.Stores offset (encodeItems items)
  ends : offset + (encodeItems items).length = iter.restarts
  small : iter.restarts < 2 ^ 32
  linked : Linked previous items
  within : previous.length ≤ offset

-- A valid iterator at an entry, with the whole key in the buffer.
structure KeyAt (data : Memory) (item : BlockItem) (rest : List BlockItem)
    (iter : GDSDataBlockIter) : Prop where
  valid : iter.validFlag = true
  starts : iter.current + (encodeItem item).length = iter.nextOffset
  keyLength : iter.keyLength = item.2.key.length
  short : item.2.key.length ≤ kKeyBufferSize
  ahead : KeysAhead data item.2.key rest iter.nextOffset iter

variable {data : Memory} {previous : Bytes} {item : BlockItem} {items rest : List BlockItem}
  {offset : Nat} {iter : GDSDataBlockIter}

theorem KeysAhead.lt (h : KeysAhead data previous (item :: rest) offset iter) :
    offset < iter.restarts := by
  have hends := h.ends
  have hpos := length_encodeItem_pos item
  rw [encodeItems_cons, List.length_append] at hends
  omega

theorem KeysAhead.congr (h : KeysAhead data previous items offset iter)
    (hbuffer : other.keyBuffer = iter.keyBuffer) (hrestarts : other.restarts = iter.restarts) :
    KeysAhead data previous items offset other := by
  obtain ⟨hbuffered, hstored, hends, hsmall, hlinked, hwithin⟩ := h
  exact ⟨hbuffer ▸ hbuffered, hstored, hrestarts ▸ hends, hrestarts ▸ hsmall, hlinked, hwithin⟩

theorem KeysAhead.accept (h : KeysAhead data previous items offset iter) :
    KeysAhead data previous items offset iter.accept :=
  h.congr rfl rfl

theorem KeysAhead.decode (h : KeysAhead data previous (item :: rest) offset iter) (bound : Nat) :
    ∃ entry, Device.decodeEntry data offset iter.restarts = some entry ∧
      entry.shared = item.1 ∧ entry.nonShared = item.2.key.length - item.1 ∧
      data.Stores entry.keyPtr (item.2.key.drop item.1) ∧
      item.2.key.length ≤ offset + (encodeItem item).length ∧
      (iter.loadEntry bound data entry).nextOffset = offset + (encodeItem item).length := by
  obtain ⟨-, hstored, hends, hsmall, ⟨hprevious, -, -, -⟩, hwithin⟩ := h
  rw [encodeItems_cons, List.length_append] at hends
  rw [encodeItems_cons, Memory.stores_append] at hstored
  obtain ⟨keyPtr, hdecode, hkeyStored, -, hnext⟩ :=
    decodeEntry_item hstored.1 (show _ ≤ iter.restarts by omega) hsmall (by omega)
  obtain ⟨-, hfits⟩ := Device.decodeEntry_bounds hsmall hdecode
  refine ⟨_, hdecode, rfl, rfl, hkeyStored, ?_, ?_⟩
  · have hlow := (Device.decodeEntry_bounds hsmall hdecode).1
    dsimp only at hlow
    omega
  · rw [nextOffset_loadEntry _ _ _ _ (by omega)]
    dsimp only
    omega

theorem KeysAhead.load (h : KeysAhead data previous (item :: rest) offset iter)
    (hbound : kKeyBufferSize ≤ bound) (hshort : item.2.key.length ≤ kKeyBufferSize)
    (hcurrent : iter.current = offset) :
    ∃ entry, Device.decodeEntry data iter.current iter.restarts = some entry ∧
      entry.shared = item.1 ∧ (∀ index ∈ copyIndices bound entry, index < kKeyBufferSize) ∧
      KeyAt data item rest (iter.loadEntry bound data entry).accept := by
  obtain ⟨entry, hdecode, hshared, hnonShared, hstored, hlength, hnext⟩ := h.decode bound
  obtain ⟨hbuffered, hitems, hends, hsmall, ⟨hprevious, hkey, htake, hlinked⟩, -⟩ := h
  have hsize : kKeyBufferSize = 512 := rfl
  rw [encodeItems_cons, Memory.stores_append] at hitems
  rw [encodeItems_cons, List.length_append] at hends
  have hcopied : min entry.nonShared (bound - entry.shared) = (item.2.key.drop item.1).length := by
    rw [List.length_drop]
    omega
  have hahead : KeysAhead data item.2.key rest (offset + (encodeItem item).length)
      (iter.loadEntry bound data entry) := by
    refine ⟨?_, hitems.2, ?_, ?_, hlinked, hlength⟩
    · rw [keyBuffer_load, hcopied, hstored, hshared]
      exact stores_loaded hbuffered hprevious htake
    · rw [restarts_loadEntry]
      omega
    · rw [restarts_loadEntry]
      exact hsmall
  refine ⟨entry, hcurrent ▸ hdecode, hshared, ?_, rfl, ?_, ?_, hshort, ?_⟩
  · intro index hindex
    rw [copyIndices, List.mem_range'_1] at hindex
    omega
  · rw [nextOffset_accept, hnext, current_accept, current_loadEntry, hcurrent]
  · have hsum : (entry.shared + entry.nonShared) % 2 ^ 32 = item.2.key.length := by omega
    rw [keyLength_load, hsum, toInt32_of_lt (by omega)]
  · rw [nextOffset_accept, hnext]
    exact hahead.accept

def OnEntry (data : Memory) (items : List BlockItem) (iter : GDSDataBlockIter) : Prop :=
  iter.validFlag = true → ∃ item rest, item :: rest <:+ items ∧ KeyAt data item rest iter

theorem scanEntry_onEntry (target : Bytes)
    (hahead : KeysAhead data previous (item :: rest) iter.current iter)
    (hshort : item.2.key.length ≤ kKeyBufferSize) :
    ∃ loaded : GDSDataBlockIter,
      (∀ index ∈ scanEntryStores data iter, index < kKeyBufferSize) ∧
      KeyAt data item rest loaded.accept ∧
      scanEntry data target iter =
        if Device.compareInternalKeys loaded.key target ≠ .lt then .stop loaded.accept
        else .more (loaded.moveTo loaded.nextOffset) := by
  obtain ⟨entry, hdecode, -, hinside, hat⟩ :=
    hahead.load (show _ ≤ kSeekBound by decide) hshort rfl
  refine ⟨_, ?_, hat, ?_⟩
  · rw [scanEntryStores, if_pos hahead.lt, hdecode]
    exact hinside
  · rw [scanEntry, if_pos hahead.lt, hdecode]

theorem scan_onEntry (target : Bytes) (fuel : Nat)
    (hahead : KeysAhead data previous items iter.current iter)
    (hshort : ∀ item ∈ items, item.2.key.length ≤ kKeyBufferSize) :
    (∀ index ∈ scanStores data target fuel iter, index < kKeyBufferSize) ∧
      ∀ result, scan data target fuel iter = some result → OnEntry data items result := by
  induction fuel generalizing previous items iter with
  | zero =>
    refine ⟨List.forall_mem_nil _, fun result hresult => ?_⟩
    cases hresult
  | succ fuel ih =>
    rw [scan, scanStores]
    cases items with
    | nil =>
      have hend : iter.current = iter.restarts := hahead.ends
      rw [scanEntry_end target hend, scanEntryStores,
        if_neg (by rw [hend]; exact lt_irrefl _)]
      refine ⟨List.forall_mem_nil _, fun result hresult hvalid => ?_⟩
      rw [← Option.some.inj hresult] at hvalid
      cases hvalid
    | cons item rest =>
      obtain ⟨hitem, hrest⟩ := List.forall_mem_cons.mp hshort
      obtain ⟨loaded, hinside, hat, hscan⟩ := scanEntry_onEntry target hahead hitem
      rw [hscan]
      by_cases hstop : Device.compareInternalKeys loaded.key target ≠ .lt
      · rw [if_pos hstop]
        refine ⟨List.forall_mem_append.mpr ⟨hinside, List.forall_mem_nil _⟩, ?_⟩
        intro result hresult hvalid
        rw [← Option.some.inj hresult]
        exact ⟨item, rest, List.suffix_rfl, hat⟩
      · rw [if_neg hstop]
        have hnext : KeysAhead data item.2.key rest (loaded.moveTo loaded.nextOffset).current
            (loaded.moveTo loaded.nextOffset) := hat.ahead.congr rfl rfl
        obtain ⟨hstores, hresults⟩ := ih hnext hrest
        refine ⟨List.forall_mem_append.mpr ⟨hinside, hstores⟩, ?_⟩
        intro result hresult hvalid
        obtain ⟨found, behind, hsuffix, hfound⟩ := hresults result hresult hvalid
        exact ⟨found, behind, hsuffix.trans (List.suffix_cons item rest), hfound⟩

-- A kernel that stops at an entry: it loads the entry in front of it.
def Arrives (data : Memory) (item : BlockItem) (rest : List BlockItem) (stores : List Nat)
    (result : GDSDataBlockIter) : Prop :=
  ∃ (before : GDSDataBlockIter) (previous : Bytes) (bound : Nat) (entry : DecodedEntry),
    KeysAhead data previous (item :: rest) before.current before ∧ kKeyBufferSize ≤ bound ∧
      Device.decodeEntry data before.current before.restarts = some entry ∧
      stores = copyIndices bound entry ∧ result = (before.loadEntry bound data entry).accept

variable {stores : List Nat} {result : GDSDataBlockIter}

theorem Arrives.keyAt (h : Arrives data item rest stores result)
    (hshort : item.2.key.length ≤ kKeyBufferSize) :
    (∀ index ∈ stores, index < kKeyBufferSize) ∧ KeyAt data item rest result := by
  obtain ⟨before, previous, bound, entry, hahead, hbound, hdecode, rfl, rfl⟩ := h
  obtain ⟨found, hfound, -, hinside, hat⟩ := hahead.load hbound hshort rfl
  obtain rfl : found = entry := Option.some.inj (hfound.symm.trans hdecode)
  exact ⟨hinside, hat⟩

theorem Arrives.valid (h : Arrives data item rest stores result) :
    result.validFlag = true ∧
      result.current + (encodeItems (item :: rest)).length = result.restarts := by
  obtain ⟨before, previous, bound, entry, hahead, -, -, -, rfl⟩ := h
  refine ⟨rfl, ?_⟩
  rw [current_accept, current_loadEntry, (frame_load_accept bound data before entry).restarts]
  exact hahead.ends

theorem length_bufferedKey_le (iter : GDSDataBlockIter) :
    iter.bufferedKey.length ≤ kKeyBufferSize := by
  rw [bufferedKey, List.length_take, Memory.length_read]
  omega

theorem KeyAt.bufferedKey_eq (h : KeyAt data item rest iter) : iter.bufferedKey = item.2.key := by
  have hsize : kKeyBufferSize = 512 := rfl
  have hshort := h.short
  have hread := iter.keyBuffer.read_skip 0 kKeyBufferSize 0 item.2.key.length (by omega)
  rw [List.drop_zero] at hread
  rw [bufferedKey, h.keyLength, toSize_natCast (by omega), ← hread]
  exact h.ahead.buffered

theorem KeyAt.next_arrives (h : KeyAt data item (next :: rest) iter) :
    Arrives data next rest (iter.nextStores data) (iter.nextKernel data) := by
  have hlt := h.ahead.lt
  have hahead : KeysAhead data item.2.key (next :: rest) iter.nextOffset
      (iter.moveTo iter.nextOffset) := h.ahead.congr rfl rfl
  obtain ⟨entry, hdecode, -⟩ := hahead.decode kKeyBufferSize
  refine ⟨iter.moveTo iter.nextOffset, item.2.key, kKeyBufferSize, entry, hahead, le_rfl, hdecode,
    ?_, ?_⟩
  · rw [restarts_moveTo] at hdecode
    rw [nextStores, if_neg (by simp [h.valid, hlt]), hdecode]
  · rw [nextKernel, if_neg (by simp [h.valid])]
    dsimp only
    rw [current_moveTo, if_neg (by rw [restarts_moveTo]; exact Nat.not_le.mpr hlt), hdecode]

theorem KeyAt.next_end (h : KeyAt data item [] iter) :
    iter.nextStores data = [] ∧ (iter.nextKernel data).validFlag = false := by
  have hend : iter.restarts ≤ iter.nextOffset := (h.ahead.ends : iter.nextOffset = _).ge
  constructor
  · rw [nextStores, if_pos (Or.inr hend)]
  · rw [nextKernel, if_neg (by simp [h.valid])]
    dsimp only
    rw [restarts_moveTo, current_moveTo, if_pos hend]
    rfl

end GDSDataBlockIter

namespace DataBlock

open GDSDataBlockIter

variable {block : DataBlock} {data : Memory} {iter : GDSDataBlockIter}

-- What holds between the calls, if the keys are short.
structure Positioned (block : DataBlock) (data : Memory) (iter : GDSDataBlockIter) : Prop where
  restarts : iter.restarts = block.restartOffset
  numRestarts : iter.numRestarts = block.intervals.length
  onEntry : OnEntry data block.items iter

theorem Stored.keysAhead (h : Stored block data) (hrestarts : iter.restarts = block.restartOffset)
    (hindex : index < block.intervals.length) :
    KeysAhead data [] (itemsOf (block.intervals.drop index))
      (iter.moveToRestart data index).current (iter.moveToRestart data index) := by
  have hcurrent : (iter.moveToRestart data index).current = block.restartPoint index := by
    rw [moveToRestart, hrestarts, h.getRestartPoint hindex]
  have hsame : (iter.moveToRestart data index).restarts = block.restartOffset := hrestarts
  have hadd := block.restartPoint_add index
  have hlength := block.length_bytes
  have hsmall := h.small
  rw [hcurrent]
  exact ⟨rfl, h.items_stored index, hadd.trans hsame.symm, by omega, block.linked_drop index,
    Nat.zero_le _⟩

theorem items_eq_cons (block : DataBlock) : ∃ entry rest, block.items = (0, entry) :: rest := by
  have hpos : 0 < block.intervals.length := List.length_pos_iff.mpr block.nonempty
  exact ⟨_, _, drop_eq (List.getElem?_eq_getElem hpos)⟩

theorem Stored.seekToFirst_arrives (h : Stored block data)
    (hrestarts : iter.restarts = block.restartOffset) :
    ∃ item rest, block.items = item :: rest ∧
      Arrives data item rest (iter.seekToFirstStores data) (iter.seekToFirstKernel data) := by
  obtain ⟨first, rest, hitems⟩ := block.items_eq_cons
  have hahead := h.keysAhead hrestarts (List.length_pos_iff.mpr block.nonempty)
  rw [List.drop_zero] at hahead
  change KeysAhead data [] block.items _ _ at hahead
  rw [hitems] at hahead
  obtain ⟨entry, hdecode, hshared, -⟩ := hahead.decode kSeekBound
  refine ⟨_, _, hitems, _, [], kSeekBound, entry, hahead, by decide, hdecode, ?_, ?_⟩
  · rw [seekToFirstStores, hdecode]
    exact if_neg (not_not.mpr hshared)
  · rw [seekToFirstKernel, hdecode]
    exact if_neg (not_not.mpr hshared)

theorem Stored.seekToFirst_onEntry (h : Stored block data)
    (hshort : ∀ item ∈ block.items, item.2.key.length ≤ kKeyBufferSize)
    (hrestarts : iter.restarts = block.restartOffset) :
    (∀ index ∈ iter.seekToFirstStores data, index < kKeyBufferSize) ∧
      OnEntry data block.items (iter.seekToFirstKernel data) := by
  obtain ⟨item, rest, hitems, harrives⟩ := h.seekToFirst_arrives hrestarts
  obtain ⟨hinside, hat⟩ := harrives.keyAt (hshort item (hitems ▸ List.mem_cons_self))
  exact ⟨hinside, fun _ => ⟨item, rest, hitems ▸ List.suffix_rfl, hat⟩⟩

theorem next_onEntry (hshort : ∀ item ∈ block.items, item.2.key.length ≤ kKeyBufferSize)
    (hon : OnEntry data block.items iter) :
    (∀ index ∈ iter.nextStores data, index < kKeyBufferSize) ∧
      OnEntry data block.items (iter.nextKernel data) := by
  by_cases hvalid : iter.validFlag = true
  · obtain ⟨item, rest, hsuffix, hat⟩ := hon hvalid
    cases rest with
    | nil =>
      obtain ⟨hstores, hend⟩ := hat.next_end
      rw [hstores]
      exact ⟨List.forall_mem_nil _, fun hflag => absurd hflag (by rw [hend]; decide)⟩
    | cons next rest =>
      have htail : next :: rest <:+ block.items := (List.suffix_cons item _).trans hsuffix
      obtain ⟨hinside, hnext⟩ :=
        hat.next_arrives.keyAt (hshort next (htail.subset List.mem_cons_self))
      exact ⟨hinside, fun _ => ⟨next, rest, htail, hnext⟩⟩
  · have hinvalid := Bool.eq_false_of_not_eq_true hvalid
    rw [nextStores, nextKernel, if_pos hinvalid, if_pos (Or.inl hinvalid)]
    exact ⟨List.forall_mem_nil _, hon⟩

theorem Stored.seek_onEntry (h : Stored block data)
    (hshort : ∀ item ∈ block.items, item.2.key.length ≤ kKeyBufferSize)
    (hrestarts : iter.restarts = block.restartOffset)
    (hcount : iter.numRestarts = block.intervals.length) (target : Bytes) (fuel : Nat) :
    (∀ index ∈ iter.seekStores data target fuel, index < kKeyBufferSize) ∧
      ∀ result, iter.seekKernel data target fuel = some result →
        OnEntry data block.items result := by
  have hlength := block.length_bytes
  have hsmall := h.small
  have hpos : 0 < block.intervals.length := List.length_pos_iff.mpr block.nonempty
  obtain ⟨right, hright⟩ : ∃ right : Int,
      right = ((iter.numRestarts + 2 ^ 32 - 1) % 2 ^ 32 : Nat) := ⟨_, rfl⟩
  rw [seekKernel, seekStores, ← hright]
  dsimp only
  cases hsearch : Search.search (probeRestart data iter.restarts target) fuel (-1) right with
  | none =>
    refine ⟨List.forall_mem_nil _, fun result hresult => ?_⟩
    cases hresult
  | some found =>
    cases found with
    | none =>
      refine ⟨List.forall_mem_nil _, fun result hresult hvalid => ?_⟩
      rw [← Option.some.inj hresult] at hvalid
      cases hvalid
    | some left =>
      -- the search stays among the restarts, also if a probe took the wrong half
      have hbounds := Search.search_bounds (by omega) hsearch
      have hindex : (if left = -1 then 0 else (left % 2 ^ 32).toNat) <
          block.intervals.length := by
        split <;> omega
      obtain ⟨hstores, hresults⟩ := scan_onEntry target fuel (h.keysAhead hrestarts hindex)
        fun item hitem => hshort item ((block.itemsOf_drop_suffix _).subset hitem)
      refine ⟨hstores, fun result hresult hvalid => ?_⟩
      obtain ⟨item, rest, hsuffix, hat⟩ := hresults result hresult hvalid
      exact ⟨item, rest, hsuffix.trans (block.itemsOf_drop_suffix _), hat⟩

theorem Stored.perform_positioned (h : Stored block data)
    (hshort : ∀ item ∈ block.items, item.2.key.length ≤ kKeyBufferSize) (iter : GDSDataBlockIter)
    (hrestarts : iter.restarts = block.restartOffset)
    (hcount : iter.numRestarts = block.intervals.length) (fuel : Nat) (call : IterCall)
    (hon : call = .next → OnEntry data block.items iter) :
    (∀ index ∈ iter.stores data fuel call, index < kKeyBufferSize) ∧
      ∀ result, iter.perform data fuel call = some result → Positioned block data result := by
  have hstep : (∀ index ∈ iter.stores data fuel call, index < kKeyBufferSize) ∧
      ∀ result, iter.perform data fuel call = some result → OnEntry data block.items result := by
    cases call with
    | seekToFirst =>
      obtain ⟨hstores, hfirst⟩ := h.seekToFirst_onEntry hshort hrestarts
      exact ⟨hstores, fun result hresult => Option.some.inj hresult ▸ hfirst⟩
    | seek target => exact h.seek_onEntry hshort hrestarts hcount target fuel
    | next =>
      obtain ⟨hstores, hnext⟩ := next_onEntry hshort (hon rfl)
      exact ⟨hstores, fun result hresult => Option.some.inj hresult ▸ hnext⟩
  refine ⟨hstep.1, fun result hresult => ?_⟩
  have hframe := perform_frame hresult
  exact ⟨hframe.restarts.trans hrestarts, hframe.numRestarts.trans hcount, hstep.2 result hresult⟩

theorem Stored.runCalls_positioned (h : Stored block data)
    (hshort : ∀ item ∈ block.items, item.2.key.length ≤ kKeyBufferSize) (fuel : Nat)
    (calls : List IterCall) (hpositioned : Positioned block data iter) :
    (∀ index ∈ runStores data fuel iter calls, index < kKeyBufferSize) ∧
      ∀ result, runCalls data fuel iter calls = some result → Positioned block data result := by
  induction calls generalizing iter with
  | nil => exact ⟨List.forall_mem_nil _, fun result hresult => Option.some.inj hresult ▸ hpositioned⟩
  | cons call rest ih =>
    obtain ⟨hstores, hresults⟩ := h.perform_positioned hshort iter hpositioned.restarts
      hpositioned.numRestarts fuel call fun _ => hpositioned.onEntry
    rw [runCalls, runStores]
    cases hperform : iter.perform data fuel call with
    | none =>
      refine ⟨List.forall_mem_append.mpr ⟨hstores, List.forall_mem_nil _⟩, ?_⟩
      intro result hresult
      cases hresult
    | some next =>
      obtain ⟨hrun, hlast⟩ := ih (hresults next hperform)
      exact ⟨List.forall_mem_append.mpr ⟨hstores, hrun⟩, hlast⟩

-- The iterator shows the key of the entry it stands on.
def ShowsKey (block : DataBlock) (iter : GDSDataBlockIter) : Prop :=
  ∃ index entry, block.entries[index]? = some entry ∧ iter.current = block.offset index ∧
    iter.bufferedKey = entry.key

theorem Positioned.showsKey (h : Positioned block data iter) (hvalid : iter.validFlag = true) :
    ShowsKey block iter := by
  obtain ⟨item, rest, hsuffix, hat⟩ := h.onEntry hvalid
  have hdrop := (List.suffix_iff_eq_drop.mp hsuffix).symm
  exact ⟨_, item.2, getElem?_of_drop hdrop,
    offset_eq hdrop hat.starts (hat.ahead.ends.trans h.restarts), hat.bufferedKey_eq⟩

theorem offset_lt (block : DataBlock) (hlt : first < second) (hfirst : first < block.items.length) :
    block.offset first < block.offset second := by
  obtain ⟨more, rfl⟩ := Nat.exists_eq_add_of_lt hlt
  have hpos := length_encodeItem_pos block.items[first]
  rw [offset, offset, Nat.add_assoc, List.take_add, encodeItems_append, List.length_append,
    List.drop_eq_getElem_cons hfirst, List.take_succ_cons, encodeItems_cons, List.length_append]
  omega

theorem offset_inj (block : DataBlock) (hfirst : first < block.items.length)
    (hsecond : second < block.items.length) (heq : block.offset first = block.offset second) :
    first = second := by
  rcases Nat.lt_trichotomy first second with hlt | hsame | hgt
  · exact absurd heq (Nat.ne_of_lt (block.offset_lt hlt hfirst))
  · exact hsame
  · exact absurd heq (Nat.ne_of_gt (block.offset_lt hgt hsecond))

theorem keyAt_of_showsKey {stores : List Nat} (harrives : Arrives data item rest stores iter)
    (hrestarts : iter.restarts = block.restartOffset)
    (hdrop : block.items.drop index = item :: rest) (hshows : ShowsKey block iter) :
    KeyAt data item rest iter := by
  obtain ⟨other, entry, hentry, hcurrent, hkey⟩ := hshows
  obtain ⟨-, hends⟩ := harrives.valid
  rw [encodeItems_cons, List.length_append, ← Nat.add_assoc] at hends
  have hoffset := offset_eq hdrop rfl (hends.trans hrestarts)
  have hitem := getElem?_of_drop hdrop
  have hlength : block.entries.length = block.items.length := List.length_map ..
  have hindex : other = index := by
    refine block.offset_inj ?_ ?_ (hcurrent.symm.trans hoffset)
    · rw [← hlength]
      exact (List.getElem?_eq_some_iff.mp hentry).1
    · rw [← hlength]
      exact (List.getElem?_eq_some_iff.mp hitem).1
  rw [hindex, hitem, Option.some.injEq] at hentry
  have hshort : item.2.key.length ≤ kKeyBufferSize := by
    rw [hentry, ← hkey]
    exact length_bufferedKey_le iter
  exact (harrives.keyAt hshort).2

theorem runCalls_append (hcalls : runCalls data fuel iter calls = some middle) (last : IterCall) :
    runCalls data fuel iter (calls ++ [last]) = middle.perform data fuel last := by
  induction calls generalizing iter with
  | nil =>
    rw [Option.some.inj hcalls, List.nil_append, runCalls]
    cases middle.perform data fuel last with
    | none => rfl
    | some result => rfl
  | cons call rest ih =>
    rw [runCalls] at hcalls
    rw [List.cons_append, runCalls]
    cases hperform : iter.perform data fuel call with
    | none =>
      rw [hperform] at hcalls
      cases hcalls
    | some next =>
      rw [hperform] at hcalls
      exact ih hcalls

theorem Stored.walk (h : Stored block data) (iter : GDSDataBlockIter)
    (hrestarts : iter.restarts = block.restartOffset)
    (hshows : ∀ rest result, runCalls data 0 iter (.seekToFirst :: rest) = some result →
      result.validFlag = true → ShowsKey block result) (index : Nat)
    (hdrop : block.items.drop index = item :: rest) :
    ∃ result, runCalls data 0 iter (.seekToFirst :: List.replicate index .next) = some result ∧
      KeyAt data item rest result := by
  induction index generalizing item rest with
  | zero =>
    obtain ⟨first, behind, hitems, harrives⟩ := h.seekToFirst_arrives hrestarts
    rw [List.drop_zero, hitems, List.cons.injEq] at hdrop
    obtain ⟨rfl, rfl⟩ := hdrop
    have hrun : runCalls data 0 iter [.seekToFirst] = some (iter.seekToFirstKernel data) := rfl
    exact ⟨_, hrun, keyAt_of_showsKey harrives ((runCalls_frame hrun).restarts.trans hrestarts)
      (show block.items.drop 0 = _ from hitems) (hshows [] _ hrun harrives.valid.1)⟩
  | succ index ih =>
    have hlt : index < block.items.length := by
      have hlength := congrArg List.length hdrop
      rw [List.length_drop, List.length_cons] at hlength
      omega
    have hcons : block.items.drop index = block.items[index] :: item :: rest := by
      rw [List.drop_eq_getElem_cons hlt, hdrop]
    obtain ⟨before, hbefore, hat⟩ := ih hcons
    have harrives := hat.next_arrives
    have hrun : runCalls data 0 iter (.seekToFirst :: List.replicate (index + 1) .next) =
        some (before.nextKernel data) := by
      rw [List.replicate_succ', ← List.cons_append]
      exact runCalls_append hbefore .next
    exact ⟨_, hrun, keyAt_of_showsKey harrives ((runCalls_frame hrun).restarts.trans hrestarts)
      hdrop (hshows _ _ hrun harrives.valid.1)⟩

-- Stores stay in the key buffer, and valid iterators show the whole key, exactly for blocks
-- whose keys the buffer can hold. The iterator is positioned before the first Next.
theorem keys_buffered_iff (block : DataBlock) (hsize : block.bytes.length < 2 ^ 32) (data : Memory)
    (hdata : data.Stores 0 block.bytes) (assertions : Bool) :
    ∃ metadata,
      initializeBlockMetadata assertions data block.bytes.length = .returned metadata ∧
      ((∀ (buffer : GDSDataBlockIterDevicePinnedBuffer) (fuel : Nat) (first : IterCall)
          (rest : List IterCall), first ≠ .next →
        (∀ index ∈ runStores data fuel ⟨initializeIteratorState metadata, buffer⟩ (first :: rest),
          index < kKeyBufferSize) ∧
        ∀ result, runCalls data fuel ⟨initializeIteratorState metadata, buffer⟩ (first :: rest) =
            some result → result.validFlag = true →
          ∃ index entry, block.entries[index]? = some entry ∧
            result.current = block.offset index ∧ result.bufferedKey = entry.key) ↔
        ∀ entry ∈ block.entries, entry.key.length ≤ kKeyBufferSize) := by
  have hstored : Stored block data := ⟨hdata, hsize⟩
  refine ⟨block.metadata, hstored.initialize assertions, ?_, ?_⟩
  · intro hproperty entry hentry
    obtain ⟨item, hitem, rfl⟩ := List.mem_map.mp hentry
    obtain ⟨index, hindex, hget⟩ := List.getElem_of_mem hitem
    have hdrop := List.drop_eq_getElem_cons hindex
    rw [hget] at hdrop
    obtain ⟨result, -, hat⟩ := hstored.walk
      ⟨initializeIteratorState block.metadata, freshBuffer⟩ rfl
      (fun rest => (hproperty freshBuffer 0 .seekToFirst rest (by decide)).2) index hdrop
    exact hat.short
  · intro hshort buffer fuel first rest hfirst
    have hitems : ∀ item ∈ block.items, item.2.key.length ≤ kKeyBufferSize :=
      fun item hitem => hshort item.2 (List.mem_map_of_mem hitem)
    obtain ⟨hstores, hresults⟩ := hstored.perform_positioned hitems
      ⟨initializeIteratorState block.metadata, buffer⟩ rfl rfl fuel first
      fun hnext => absurd hnext hfirst
    rw [runCalls, runStores]
    cases hperform : perform data fuel
        ⟨initializeIteratorState block.metadata, buffer⟩ first with
    | none =>
      refine ⟨List.forall_mem_append.mpr ⟨hstores, List.forall_mem_nil _⟩, ?_⟩
      intro result hresult
      cases hresult
    | some next =>
      obtain ⟨hrun, hlast⟩ := hstored.runCalls_positioned hitems fuel rest (hresults next hperform)
      exact ⟨List.forall_mem_append.mpr ⟨hstores, hrun⟩,
        fun result hresult hvalid => (hlast result hresult).showsKey hvalid⟩

theorem keys_buffered_iff_versions :
    ∃ metadata, initializeBlockMetadata true (Memory.ofBytes versions.bytes)
        versions.bytes.length = .returned metadata ∧
      ∀ (target : Bytes) (fuel : Nat),
        ∀ index ∈ runStores (Memory.ofBytes versions.bytes) fuel
          ⟨initializeIteratorState metadata, freshBuffer⟩ [.seek target, .next],
            index < kKeyBufferSize := by
  obtain ⟨metadata, hmetadata, hiff⟩ := keys_buffered_iff versions (by decide)
    (Memory.ofBytes versions.bytes) (Memory.stores_ofBytes _) true
  refine ⟨metadata, hmetadata, fun target fuel => ?_⟩
  exact (hiff.mpr (by decide) freshBuffer fuel (.seek target) [.next] IterCall.noConfusion).1

def longKeys : DataBlock :=
  build 1 [⟨List.replicate 513 7, []⟩, ⟨List.replicate 514 8, []⟩] (by decide)

-- SeekToFirst stores behind the buffer. Next does not, but says that the key is longer than it.
theorem longKeys_not_buffered :
    let data := Memory.ofBytes longKeys.bytes
    let iter : GDSDataBlockIter := ⟨initializeIteratorState longKeys.metadata, freshBuffer⟩
    let next := (iter.seekToFirstKernel data).nextKernel data
    initializeBlockMetadata true data longKeys.bytes.length = .returned longKeys.metadata ∧
      512 ∈ runStores data 0 iter [.seekToFirst] ∧
      next.validFlag = true ∧ next.keyLength = 514 ∧ next.bufferedKey.length = 512 := by
  decide +kernel

end DataBlock

end MlkvPlus.Gds
