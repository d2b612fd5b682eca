import MlkvPlus.Data.Lists
import MlkvPlus.Gds.Block.KeyOrder
import MlkvPlus.Gds.Block.Position

namespace MlkvPlus.Gds

namespace DataBlock

variable {block : DataBlock} {data : Memory}

theorem Loaded.index_lt (h : Loaded block data) (hindex : index < block.intervals.length) :
    index < 2 ^ 32 := by
  have hlength := block.length_bytes
  have hsmall := h.small
  omega

theorem Loaded.probeRestart (h : Loaded block data) (target : Bytes) {iter : GDSDataBlockIter}
    (hrestarts : iter.restarts = block.restartOffset) {index : Nat} {interval : RestartInterval}
    (hinterval : block.intervals[index]? = some interval) :
    GDSDataBlockIter.probeRestart data iter.restarts target index =
      some (Device.compareInternalKeys interval.first.key target) := by
  obtain ⟨hindex, -⟩ := List.getElem?_eq_some_iff.mp hinterval
  have hword : ((index : Int) % 2 ^ 32).toNat = index := by
    have hlt := h.index_lt hindex
    omega
  have hahead := h.ahead index hrestarts
  rw [drop_eq hinterval] at hahead
  obtain ⟨entry, hdecode, hshared, hread, -⟩ := hahead.load (le_refl kKeyBufferSize)
  rw [GDSDataBlockIter.probeRestart, hword, hrestarts, h.toStored.getRestartPoint hindex]
  rw [hrestarts] at hdecode
  simp only [hdecode, hshared, hread, List.drop_zero, ne_eq, not_true_eq_false, if_false]

end DataBlock

namespace GDSDataBlockIter

variable {data : Memory}

-- Where the kernel stops: at the first key that is not smaller than the target, or at the end.
def Landed (data : Memory) (target : Bytes) (items : List BlockItem) (iter : GDSDataBlockIter) :
    Prop :=
  match items.dropWhile fun item => Device.compareInternalKeys item.2.key target = .lt with
  | [] => iter.validFlag = false ∧ iter.errorCode = 0
  | item :: rest => iter.At data item rest

theorem scanEntry_end (target : Bytes) (h : iter.current = iter.restarts) :
    scanEntry data target iter = .stop ((iter.moveTo iter.restarts).invalidate 0) := by
  rw [scanEntry, if_neg (by rw [h]; exact lt_irrefl _)]

theorem scanEntry_load (target : Bytes)
    (hahead : iter.Ahead data previous (item :: rest) iter.current) :
    ∃ loaded : GDSDataBlockIter, loaded.restarts = iter.restarts ∧
      loaded.accept.At data item rest ∧
      scanEntry data target iter =
        if Device.compareInternalKeys item.2.key target ≠ .lt then .stop loaded.accept
        else .more (loaded.moveTo loaded.nextOffset) := by
  obtain ⟨entry, hdecode, -, hkey, hat⟩ := hahead.at_load rfl (show _ ≤ kSeekBound by decide)
  refine ⟨_, restarts_loadEntry .., hat, ?_⟩
  rw [scanEntry, if_pos hahead.lt]
  simp only [hdecode, hkey]

theorem scan_spec (target : Bytes) (hahead : iter.Ahead data previous items iter.current)
    (hfuel : items.length < fuel) :
    ∃ result, scan data target fuel iter = some result ∧ result.restarts = iter.restarts ∧
      Landed data target items result := by
  induction items generalizing previous fuel iter with
  | nil =>
    obtain ⟨fuel, rfl⟩ := Nat.exists_eq_add_one_of_ne_zero (Nat.ne_zero_of_lt hfuel)
    rw [scan, scanEntry_end target hahead.eq]
    exact ⟨_, rfl, rfl, rfl, rfl⟩
  | cons item rest ih =>
    obtain ⟨fuel, rfl⟩ := Nat.exists_eq_add_one_of_ne_zero (Nat.ne_zero_of_lt hfuel)
    obtain ⟨loaded, hrestarts, hat, hscan⟩ := scanEntry_load target hahead
    rw [scan, hscan]
    by_cases hlt : Device.compareInternalKeys item.2.key target = .lt
    · rw [if_neg (by simpa using hlt)]
      have hnext : (loaded.moveTo loaded.nextOffset).Ahead data item.2.key rest
          (loaded.moveTo loaded.nextOffset).current := hat.ahead.congr rfl rfl
      obtain ⟨result, hresult, hsame, hlanded⟩ := ih hnext (Nat.lt_of_succ_lt_succ hfuel)
      refine ⟨result, hresult, hsame.trans hrestarts, ?_⟩
      rw [Landed, List.dropWhile_cons_of_pos (by simpa using hlt)]
      exact hlanded
    · rw [if_pos hlt]
      refine ⟨loaded.accept, rfl, hrestarts, ?_⟩
      rw [Landed, List.dropWhile_cons_of_neg (by simpa using hlt)]
      exact hat

end GDSDataBlockIter

namespace DataBlock

variable {block : DataBlock} {data : Memory}

theorem Loaded.probePlace (h : Loaded block data) (target : Bytes) {iter : GDSDataBlockIter}
    (hrestarts : iter.restarts = block.restartOffset) {place : Int} (hlow : 0 ≤ place)
    (hhigh : place ≤ block.intervals.length - 1) :
    ∃ interval, block.intervals[place.toNat]? = some interval ∧
      GDSDataBlockIter.probeRestart data iter.restarts target place =
        some (Device.compareInternalKeys interval.first.key target) := by
  have hindex : place.toNat < block.intervals.length := by omega
  have hprobe := h.probeRestart target hrestarts (List.getElem?_eq_getElem hindex)
  rw [Int.toNat_of_nonneg hlow] at hprobe
  exact ⟨_, List.getElem?_eq_getElem hindex, hprobe⟩

theorem Loaded.search (h : Loaded block data) (target : Bytes) {iter : GDSDataBlockIter}
    (hrestarts : iter.restarts = block.restartOffset) {fuel : Nat}
    (hfuel : block.intervals.length < fuel) :
    ∃ found : Int, Search.search (GDSDataBlockIter.probeRestart data iter.restarts target) fuel (-1)
        (block.intervals.length - 1) = some (some found) ∧
      found ≤ block.intervals.length - 1 ∧
      (found = -1 ∨ 0 ≤ found ∧ ∃ interval, block.intervals[found.toNat]? = some interval ∧
        Device.compareInternalKeys interval.first.key target ≠ .gt) := by
  have hpos : 0 < block.intervals.length := List.length_pos_iff.mpr block.nonempty
  have hsome : ∀ place : Int, -1 < place → place ≤ block.intervals.length - 1 →
      (GDSDataBlockIter.probeRestart data iter.restarts target place).isSome = true := by
    intro place hlow hhigh
    obtain ⟨interval, -, hplace⟩ := h.probePlace target hrestarts (by omega) hhigh
    rw [hplace]
    rfl
  obtain ⟨found, hsearch, hleft, hfound, hplace⟩ := Search.search_spec fuel (-1)
    (block.intervals.length - 1) (by omega) (by omega) hsome
  refine ⟨found, hsearch, hfound, ?_⟩
  by_cases hfirst : found = -1
  · exact Or.inl hfirst
  · have hlow : 0 ≤ found := by omega
    obtain ⟨interval, hinterval, hcompare⟩ := h.probePlace target hrestarts hlow hfound
    refine Or.inr ⟨hlow, interval, hinterval, ?_⟩
    rw [hcompare] at hplace
    rcases hplace with hplace | hplace | hplace
    · exact absurd hplace hfirst
    · rw [Option.some.inj hplace]
      decide
    · rw [Option.some.inj hplace]
      decide

theorem Loaded.scan (h : Loaded block data) (target : Bytes) (iter : GDSDataBlockIter)
    (hrestarts : iter.restarts = block.restartOffset) (hindex : index < block.intervals.length)
    (hfuel : block.items.length < fuel) :
    ∃ result, GDSDataBlockIter.scan data target fuel (iter.moveToRestart data index) =
        some result ∧
      result.restarts = iter.restarts ∧
      result.Landed data target (itemsOf (block.intervals.drop index)) := by
  have hahead : (iter.moveToRestart data index).Ahead data []
      (itemsOf (block.intervals.drop index)) (iter.moveToRestart data index).current := by
    have hcurrent : (iter.moveToRestart data index).current = block.restartPoint index := by
      rw [GDSDataBlockIter.moveToRestart, hrestarts, h.toStored.getRestartPoint hindex]
    rw [hcurrent]
    exact h.ahead index hrestarts
  have hitems : (itemsOf (block.intervals.drop index)).length ≤ block.items.length := by
    rw [items_split block index, List.length_append]
    omega
  exact GDSDataBlockIter.scan_spec target hahead (show _ < fuel by omega)

theorem Loaded.seek (h : Loaded block data) (target : Bytes) (iter : GDSDataBlockIter)
    (hcount : iter.numRestarts = block.intervals.length)
    (hrestarts : iter.restarts = block.restartOffset) {fuel : Nat}
    (hfuel : block.items.length + block.intervals.length < fuel) :
    ∃ index result, iter.seekKernel data target fuel = some result ∧
      result.restarts = iter.restarts ∧
      result.Landed data target (itemsOf (block.intervals.drop index)) ∧
      (index = 0 ∨ ∃ interval, block.intervals[index]? = some interval ∧
        Device.compareInternalKeys interval.first.key target ≠ .gt) := by
  have hpos : 0 < block.intervals.length := List.length_pos_iff.mpr block.nonempty
  have hlt := h.index_lt (show block.intervals.length - 1 < block.intervals.length by omega)
  have hright : (((iter.numRestarts + 2 ^ 32 - 1) % 2 ^ 32 : Nat) : Int) =
      (block.intervals.length : Int) - 1 := by
    rw [hcount]
    omega
  obtain ⟨found, hsearch, hfound, hplace⟩ := h.search target hrestarts (show _ < fuel by omega)
  obtain ⟨index, hindex⟩ : ∃ index, index = if found = -1 then 0 else (found % 2 ^ 32).toNat :=
    ⟨_, rfl⟩
  -- `found` is -1 or the number of a restart, which 32 bits hold
  have hstart : index < block.intervals.length ∧ (index = 0 ∨ ∃ interval,
      block.intervals[index]? = some interval ∧
        Device.compareInternalKeys interval.first.key target ≠ .gt) := by
    rcases hplace with hfirst | ⟨hlow, hinterval⟩
    · rw [if_pos hfirst] at hindex
      exact ⟨by omega, Or.inl hindex⟩
    · rw [if_neg (by omega)] at hindex
      have hnat : found.toNat = index := by omega
      rw [hnat] at hinterval
      exact ⟨by omega, Or.inr hinterval⟩
  obtain ⟨result, hscan, hsame, hlanded⟩ := h.scan target iter hrestarts hstart.1
    (show _ < fuel by omega)
  refine ⟨index, result, ?_, hsame, hlanded, hstart.2⟩
  rw [GDSDataBlockIter.seekKernel]
  simp only [hright, hsearch, ← hindex]
  exact hscan

structure Ordered (block : DataBlock) : Prop where
  sorted : (block.entries.map BlockEntry.key).Pairwise Precedes
  long : ∀ entry ∈ block.entries, Device.kInternalKeyTail ≤ entry.key.length

theorem mem_entries (hitem : item ∈ itemsOf (block.intervals.take index) ∨
      item ∈ itemsOf (block.intervals.drop index)) : item.2 ∈ block.entries := by
  refine List.mem_map_of_mem ?_
  rw [items_split block index]
  exact List.mem_append.mpr hitem

-- Nothing in front of a restart key that is not above the target can be the lower bound.
theorem Ordered.precedes (h : Ordered block) (htarget : Device.kInternalKeyTail ≤ target.length)
    (hinterval : block.intervals[index]? = some interval)
    (hcompare : Device.compareInternalKeys interval.first.key target ≠ .gt)
    (hitem : item ∈ itemsOf (block.intervals.take index)) :
    Device.compareInternalKeys item.2.key target = .lt := by
  have hfirst : (0, interval.first) ∈ itemsOf (block.intervals.drop index) := by
    rw [drop_eq hinterval]
    exact List.mem_cons_self
  have hsorted := h.sorted
  rw [entries, items_split block index, List.map_append, List.map_append,
    List.pairwise_append] at hsorted
  have hbefore : Precedes item.2.key interval.first.key :=
    hsorted.2.2 _ (List.mem_map_of_mem (List.mem_map_of_mem hitem)) _
      (List.mem_map_of_mem (List.mem_map_of_mem hfirst))
  have hlong := h.long interval.first (mem_entries (Or.inr hfirst))
  rw [compareInternalKeys_lt_iff (h.long item.2 (mem_entries (Or.inl hitem))) htarget]
  cases horder : Device.compareInternalKeys interval.first.key target with
  | lt => exact hbefore.trans ((compareInternalKeys_lt_iff hlong htarget).mp horder)
  | eq => exact (compareInternalKeys_eq_iff hlong htarget).mp horder ▸ hbefore
  | gt => exact absurd horder hcompare

theorem Loaded.seek_ordered (h : Loaded block data) (hordered : Ordered block)
    (htarget : Device.kInternalKeyTail ≤ target.length) (iter : GDSDataBlockIter)
    (hcount : iter.numRestarts = block.intervals.length)
    (hrestarts : iter.restarts = block.restartOffset)
    (hfuel : block.items.length + block.intervals.length < fuel) :
    ∃ result, iter.seekKernel data target fuel = some result ∧
      result.restarts = block.restartOffset ∧ result.Landed data target block.items := by
  obtain ⟨index, result, hresult, hsame, hlanded, hplace⟩ := h.seek target iter hcount
    hrestarts hfuel
  refine ⟨result, hresult, hsame.trans hrestarts, ?_⟩
  have hskipped : ∀ item ∈ itemsOf (block.intervals.take index),
      decide (Device.compareInternalKeys item.2.key target = .lt) = true := by
    intro item hitem
    rcases hplace with rfl | ⟨interval, hinterval, hcompare⟩
    · cases hitem
    · exact decide_eq_true (hordered.precedes htarget hinterval hcompare hitem)
  rw [GDSDataBlockIter.Landed, items_split block index, List.dropWhile_append_of_pos hskipped]
  exact hlanded

-- The place of the first key that is not smaller than the target.
def lowerBound (block : DataBlock) (target : Bytes) : Nat :=
  block.entries.findIdx fun entry => ¬Precedes entry.key target

def offset (block : DataBlock) (index : Nat) : Nat :=
  (encodeItems (block.items.take index)).length

theorem dropWhile_items (hordered : Ordered block)
    (htarget : Device.kInternalKeyTail ≤ target.length) :
    (block.items.dropWhile fun item => Device.compareInternalKeys item.2.key target = .lt) =
      block.items.drop (block.lowerBound target) := by
  rw [List.dropWhile_eq_drop_findIdx_not, lowerBound, entries, List.findIdx_map]
  refine congrArg (fun index => block.items.drop index) (Lists.findIdx_congr fun item hitem => ?_)
  have hlong := hordered.long item.2 (List.mem_map_of_mem hitem)
  simp only [Function.comp_apply, decide_not, compareInternalKeys_lt_iff hlong htarget]

theorem offset_eq (hdrop : block.items.drop index = item :: rest)
    (hstarts : current + (encodeItem item).length = next)
    (hends : next + (encodeItems rest).length = block.restartOffset) :
    current = block.offset index := by
  have hlength : (encodeItems block.items).length =
      block.offset index + (encodeItems (item :: rest)).length := by
    rw [offset, ← hdrop, ← List.length_append, ← encodeItems_append, List.take_append_drop]
  rw [encodeItems_cons, List.length_append] at hlength
  rw [restartOffset] at hends
  omega

theorem current_eq {iter : GDSDataBlockIter} (hat : iter.At data item rest)
    (hrestarts : iter.restarts = block.restartOffset)
    (hdrop : block.items.drop index = item :: rest) : iter.current = block.offset index :=
  offset_eq hdrop hat.starts (hat.ahead.ends.trans hrestarts)

theorem getElem?_of_drop (hdrop : block.items.drop index = item :: rest) :
    block.entries[index]? = some item.2 := by
  have hget : block.items[index]? = some item := by
    have hhead := congrArg (fun items => items[0]?) hdrop
    simpa [List.getElem?_drop] using hhead
  rw [entries, List.getElem?_map, hget]
  rfl

-- The kernel stops at the lower bound of the target, with the whole key and the value.
theorem seek_lowerBound (block : DataBlock) (hsize : block.bytes.length < 2 ^ 31)
    (hkeys : ∀ entry ∈ block.entries, 8 ≤ entry.key.length ∧ entry.key.length ≤ 512)
    (hsorted : (block.entries.map BlockEntry.key).Pairwise Precedes) (data : Memory)
    (hdata : data.Stores 0 block.bytes) (target : Bytes) (htarget : 8 ≤ target.length)
    (assertions : Bool) (buffer : GDSDataBlockIterDevicePinnedBuffer) :
    ∃ metadata enough,
      initializeBlockMetadata assertions data block.bytes.length = .returned metadata ∧
      ∀ fuel, enough ≤ fuel → ∃ result : GDSDataBlockIter,
        GDSDataBlockIter.seekKernel data target fuel
          ⟨initializeIteratorState metadata, buffer⟩ = some result ∧
        match block.entries[block.lowerBound target]? with
        | none => result.validFlag = false ∧ result.errorCode = 0
        | some entry =>
          result.validFlag = true ∧ result.errorCode = 0 ∧
            result.current = block.offset (block.lowerBound target) ∧
            result.key = entry.key ∧ result.dValue data = entry.value := by
  have hloaded : Loaded block data := ⟨hdata, hsize, fun entry hentry => (hkeys entry hentry).2⟩
  have hordered : Ordered block := ⟨hsorted, fun entry hentry => (hkeys entry hentry).1⟩
  refine ⟨block.metadata, block.items.length + block.intervals.length + 1,
    hloaded.toStored.initialize assertions, ?_⟩
  intro fuel hfuel
  obtain ⟨result, hresult, hrestarts, hlanded⟩ := hloaded.seek_ordered hordered htarget
    ⟨initializeIteratorState block.metadata, buffer⟩ rfl rfl (show _ < fuel by omega)
  refine ⟨result, hresult, ?_⟩
  rw [GDSDataBlockIter.Landed, dropWhile_items hordered htarget] at hlanded
  cases hdrop : block.items.drop (block.lowerBound target) with
  | nil =>
    have hlength : block.entries.length ≤ block.lowerBound target := by
      rw [entries, List.length_map]
      exact List.drop_eq_nil_iff.mp hdrop
    rw [hdrop] at hlanded
    rw [List.getElem?_eq_none hlength]
    exact hlanded
  | cons item rest =>
    rw [hdrop] at hlanded
    rw [getElem?_of_drop hdrop]
    exact ⟨hlanded.valid, hlanded.noError, current_eq hlanded hrestarts hdrop,
      hlanded.shows.key, hlanded.shows.value⟩

-- Versions of two keys, in intervals of two entries.
def versions : DataBlock :=
  build 2 [⟨[7] ++ Bytes.fixed 8 0x301, [30]⟩, ⟨[7] ++ Bytes.fixed 8 0x201, [20]⟩,
    ⟨[9] ++ Bytes.fixed 8 0x101, [10]⟩] (by decide)

def freshBuffer : GDSDataBlockIterDevicePinnedBuffer where
  validFlag := false
  keyLength := 0
  keyBuffer _ := 0
  valueLength := 0
  valuePtr := 0

theorem seek_between_versions :
    ∃ metadata enough, initializeBlockMetadata true (Memory.ofBytes versions.bytes)
        versions.bytes.length = .returned metadata ∧
      ∀ fuel, enough ≤ fuel → ∃ result : GDSDataBlockIter,
        GDSDataBlockIter.seekKernel (Memory.ofBytes versions.bytes) ([7] ++ Bytes.fixed 8 0x2ff)
          fuel ⟨initializeIteratorState metadata, freshBuffer⟩ = some result ∧
        result.key = [7] ++ Bytes.fixed 8 0x201 ∧
        result.dValue (Memory.ofBytes versions.bytes) = [20] := by
  obtain ⟨metadata, enough, hinitialize, hseek⟩ := seek_lowerBound versions (by decide) (by decide)
    (by decide) (Memory.ofBytes versions.bytes) (Memory.stores_ofBytes _)
    ([7] ++ Bytes.fixed 8 0x2ff) (by decide) true freshBuffer
  refine ⟨metadata, enough, hinitialize, fun fuel hfuel => ?_⟩
  obtain ⟨result, hresult, hat⟩ := hseek fuel hfuel
  have hbound : versions.entries[versions.lowerBound ([7] ++ Bytes.fixed 8 0x2ff)]? =
      some ⟨[7] ++ Bytes.fixed 8 0x201, [20]⟩ := by decide
  rw [hbound] at hat
  exact ⟨result, hresult, hat.2.2.2⟩

end DataBlock

end MlkvPlus.Gds
