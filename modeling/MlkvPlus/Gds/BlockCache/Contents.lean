import MlkvPlus.Data.Lists
import MlkvPlus.Gds.BlockCache

namespace MlkvPlus.Gds.GPUBlockCache

-- The cached part of a file. Every block has a slot of its own, and the slots in use
-- and the free ones are all below their number.
structure Holds (contents : Bytes) (cache : GPUBlockCache) : Prop where
  allocated : cache.poolAllocated = true
  block : ∀ id block, cache.cacheMap.lookup id = some block →
    id * BLOCK_SIZE < contents.length ∧
    block.size = min BLOCK_SIZE (contents.length - id * BLOCK_SIZE) ∧
    cache.pool.read block.dData block.size = (contents.drop (id * BLOCK_SIZE)).take block.size ∧
    ∃ slot, cache.slotMap.lookup id = some slot ∧ block.dData = slot * BLOCK_SIZE
  same_keys : ∀ id, (cache.slotMap.lookup id).isSome = (cache.cacheMap.lookup id).isSome
  slot_inj : ∀ id other slot, cache.slotMap.lookup id = some slot →
    cache.slotMap.lookup other = some slot → id = other
  slot_not_free : ∀ id slot, cache.slotMap.lookup id = some slot → slot ∉ cache.freeSlots
  free_nodup : cache.freeSlots.Nodup
  slot_lt : ∀ id slot, cache.slotMap.lookup id = some slot →
    slot < cache.cacheMap.keys.length + cache.freeSlots.length
  free_lt : ∀ slot ∈ cache.freeSlots,
    slot < cache.cacheMap.keys.length + cache.freeSlots.length
  total_le : cache.cacheMap.keys.length + cache.freeSlots.length ≤ MAX_CACHED_BLOCKS

theorem BLOCK_SIZE_pos : 0 < BLOCK_SIZE := by decide

variable {contents : Bytes} {cache next last : GPUBlockCache}

theorem holds_create (contents : Bytes) (pool : Memory) : Holds contents (create pool) where
  allocated := rfl
  block _ _ h := nomatch h
  same_keys _ := rfl
  slot_inj _ _ _ h := nomatch h
  slot_not_free _ _ h := nomatch h
  free_nodup := List.nodup_nil
  slot_lt _ _ h := nomatch h
  free_lt _ h := nomatch h
  total_le := Nat.zero_le _

theorem touch_isSome (hlookup : cache.cacheMap.lookup blockId = some entry) (other : Nat) :
    ((cache.touch blockId entry).cacheMap.lookup other).isSome =
      (cache.cacheMap.lookup other).isSome := by
  by_cases heq : other = blockId
  · subst heq
    rw [touch, AList.lookup_insert, hlookup]
    rfl
  · rw [touch, AList.lookup_insert_ne heq]

theorem length_keys_touch (hlookup : cache.cacheMap.lookup blockId = some entry) :
    (cache.touch blockId entry).cacheMap.keys.length = cache.cacheMap.keys.length := by
  have hmem : blockId ∈ cache.cacheMap.keys :=
    AList.mem_keys.mp (AList.lookup_isSome.mp (by rw [hlookup]; rfl))
  have hpos := List.length_pos_of_mem hmem
  rw [touch, AList.keys_insert, List.length_cons, List.length_erase_of_mem hmem]
  omega

theorem Holds.touch (h : Holds contents cache)
    (hlookup : cache.cacheMap.lookup blockId = some entry) :
    Holds contents (cache.touch blockId entry) := by
  have hlength := length_keys_touch hlookup
  refine ⟨h.allocated, ?_, ?_, h.slot_inj, h.slot_not_free, h.free_nodup, ?_, ?_, ?_⟩
  · intro other found hfound
    by_cases heq : other = blockId
    · subst heq
      rw [GPUBlockCache.touch, AList.lookup_insert] at hfound
      cases hfound
      exact h.block other entry hlookup
    · rw [GPUBlockCache.touch, AList.lookup_insert_ne heq] at hfound
      exact h.block other found hfound
  · intro other
    rw [touch_isSome hlookup]
    exact h.same_keys other
  · rw [hlength]
    exact h.slot_lt
  · rw [hlength]
    exact h.free_lt
  · rw [hlength]
    exact h.total_le

theorem Holds.block_size (h : Holds contents cache)
    (hlookup : cache.cacheMap.lookup blockId = some entry) :
    entry.size ≤ BLOCK_SIZE ∧ blockId * BLOCK_SIZE + entry.size ≤ contents.length ∧
      (entry.size = BLOCK_SIZE ∨ blockId * BLOCK_SIZE + entry.size = contents.length) := by
  obtain ⟨hstart, hsize, -⟩ := h.block _ _ hlookup
  have hrest := Nat.add_sub_cancel' hstart.le
  rcases Nat.le_total BLOCK_SIZE (contents.length - blockId * BLOCK_SIZE) with hle | hle
  · rw [Nat.min_eq_left hle] at hsize
    exact ⟨hsize.le, by omega, Or.inl hsize⟩
  · rw [Nat.min_eq_right hle] at hsize
    exact ⟨by omega, by omega, Or.inr (by omega)⟩

theorem Holds.read_block (h : Holds contents cache)
    (hlookup : cache.cacheMap.lookup blockId = some entry) (skip n : Nat)
    (hle : skip + n ≤ entry.size) :
    cache.pool.read (entry.dData + skip) n =
      (contents.drop (blockId * BLOCK_SIZE + skip)).take n := by
  obtain ⟨hstart, hsize, hread, -⟩ := h.block blockId entry hlookup
  rw [Memory.read_skip _ _ entry.size _ _ hle, hread, List.drop_take, List.take_take,
    List.drop_drop, Nat.min_eq_left (by omega)]

theorem Holds.tryGet_hit (h : Holds contents cache) (hcontents : contents.length < 2 ^ 63)
    (hle : offset + n ≤ contents.length)
    (hlookup : cache.cacheMap.lookup (offset / BLOCK_SIZE) = some entry)
    (hinside : offset % BLOCK_SIZE + n ≤ BLOCK_SIZE) :
    cache.tryGet offset n = (some (entry.dData + offset % BLOCK_SIZE, n),
        cache.touch (offset / BLOCK_SIZE) entry) ∧
      cache.pool.read (entry.dData + offset % BLOCK_SIZE) n = (contents.drop offset).take n := by
  obtain ⟨hstart, hsize, -⟩ := h.block _ _ hlookup
  have hdiv := Nat.div_add_mod' offset BLOCK_SIZE
  have hfits : offset % BLOCK_SIZE + n ≤ entry.size := by omega
  have hsub : sub64 entry.size (offset % BLOCK_SIZE) = entry.size - offset % BLOCK_SIZE :=
    sub64_of_le (by omega) (by omega)
  refine ⟨?_, ?_⟩
  · simp only [tryGet, hlookup]
    rw [if_neg (by omega), hsub, Nat.min_eq_left (by omega)]
  · rw [h.read_block hlookup _ _ hfits, hdiv]

theorem Holds.tryGet_miss (h : Holds contents cache) (hbound : offset + n < 2 ^ 64)
    (hmiss : cache.cacheMap.lookup (offset / BLOCK_SIZE) = none ∨
      BLOCK_SIZE < offset % BLOCK_SIZE + n) : cache.tryGet offset n = (none, cache) := by
  cases hlookup : cache.cacheMap.lookup (offset / BLOCK_SIZE) with
  | none => simp only [tryGet, hlookup]
  | some entry =>
    obtain ⟨-, hsize, -⟩ := h.block _ _ hlookup
    have hlarge : BLOCK_SIZE < offset % BLOCK_SIZE + n :=
      hmiss.resolve_left (by rw [hlookup]; exact Option.some_ne_none _)
    have hmod := Nat.mod_le offset BLOCK_SIZE
    have hblock : BLOCK_SIZE = 262144 := rfl
    simp only [tryGet, hlookup]
    rw [if_pos (by omega)]

-- What the reads leave of the cache: the same blocks in the same places.
structure SameBlocks (cache next : GPUBlockCache) : Prop where
  pool : next.pool = cache.pool
  isSome : ∀ blockId, (next.cacheMap.lookup blockId).isSome = (cache.cacheMap.lookup blockId).isSome

theorem SameBlocks.refl (cache : GPUBlockCache) : SameBlocks cache cache :=
  ⟨rfl, fun _ => rfl⟩

theorem SameBlocks.trans (hfirst : SameBlocks cache next) (hsecond : SameBlocks next last) :
    SameBlocks cache last :=
  ⟨hsecond.pool.trans hfirst.pool, fun blockId =>
    (hsecond.isSome blockId).trans (hfirst.isSome blockId)⟩

theorem sameBlocks_touch (hlookup : cache.cacheMap.lookup blockId = some entry) :
    SameBlocks cache (cache.touch blockId entry) :=
  ⟨rfl, touch_isSome hlookup⟩

-- The subtractions `block.size - offset_in_block` of the copies, as minuend and subtrahend.
def copySubtractions (cache : GPUBlockCache) (requestSize : Nat) :
    Nat → Nat → Nat → Nat → List (Nat × Nat)
  | 0, _, _, _ => []
  | count + 1, blockId, copied, currentOffset =>
    let block := (cache.cacheMap.lookup blockId).getD ⟨0, 0, 0, 0⟩
    let offsetInBlock := sub64 currentOffset (blockId * BLOCK_SIZE)
    let bytesInThisBlock := min (sub64 requestSize copied) (sub64 block.size offsetInBlock)
    (block.size, offsetInBlock) :: copySubtractions (cache.touch blockId block) requestSize count
      (blockId + 1) (copied + bytesInThisBlock) (currentOffset + bytesInThisBlock)

def NoWrap (subtractions : List (Nat × Nat)) : Prop :=
  ∀ pair ∈ subtractions, pair.2 ≤ pair.1

theorem copyBlocks_step (n count : Nat) (output : Memory)
    (hlookup : cache.cacheMap.lookup blockId = some entry) (hposition : position < 2 ^ 64)
    (hn : n < 2 ^ 64) (hentry : entry.size < 2 ^ 64) (hcopied : copied ≤ n)
    (hstart : blockId * BLOCK_SIZE ≤ position) (hskip : skip = position - blockId * BLOCK_SIZE)
    (hinside : skip ≤ entry.size) (hbytes : bytes = min (n - copied) (entry.size - skip)) :
    cache.copyBlocks n (count + 1) blockId copied position output =
      (cache.touch blockId entry).copyBlocks n count (blockId + 1) (copied + bytes)
        (position + bytes) (output.store copied (cache.pool.read (entry.dData + skip) bytes)) ∧
    cache.copySubtractions n (count + 1) blockId copied position =
      (entry.size, skip) :: (cache.touch blockId entry).copySubtractions n count (blockId + 1)
        (copied + bytes) (position + bytes) := by
  constructor
  · simp only [GPUBlockCache.copyBlocks, hlookup, Option.getD_some, sub64_of_le hstart hposition,
      ← hskip, sub64_of_le hcopied hn, sub64_of_le hinside hentry, ← hbytes]
  · simp only [copySubtractions, hlookup, Option.getD_some, sub64_of_le hstart hposition,
      ← hskip, sub64_of_le hcopied hn, sub64_of_le hinside hentry, ← hbytes]

theorem Holds.copyBlocks (hcontents : contents.length < 2 ^ 63) (offset n : Nat)
    (hle : offset + n ≤ contents.length) (count : Nat) :
    ∀ (cache : GPUBlockCache) (blockId copied : Nat) (output : Memory), Holds contents cache →
    (∀ id, blockId ≤ id → id < blockId + count → (cache.cacheMap.lookup id).isSome = true) →
    blockId + count = (offset + n - 1) / BLOCK_SIZE + 1 → (count = 0 → copied = n) →
    (0 < count → copied < n ∧ blockId * BLOCK_SIZE ≤ offset + copied ∧
      offset + copied < (blockId + 1) * BLOCK_SIZE) →
    let result := cache.copyBlocks n count blockId copied (offset + copied) output
    Holds contents result.2 ∧ SameBlocks cache result.2 ∧
      result.1.read 0 n = output.read 0 copied ++
        (contents.drop (offset + copied)).take (n - copied) ∧
      NoWrap (cache.copySubtractions n count blockId copied (offset + copied)) := by
  induction count with
  | zero =>
    intro cache blockId copied output h hall hlast hdone _
    obtain rfl := hdone rfl
    refine ⟨h, .refl cache, ?_, List.forall_mem_nil _⟩
    rw [Nat.sub_self, List.take_zero, List.append_nil]
    rfl
  | succ count ih =>
    intro cache blockId copied output h hall hlast _ hnext
    obtain ⟨hmore, hstart, hinside⟩ := hnext (Nat.succ_pos count)
    obtain ⟨entry, hlookup⟩ := Option.isSome_iff_exists.mp (hall blockId le_rfl (by omega))
    obtain ⟨hfull, hfile, hsize⟩ := h.block_size hlookup
    obtain ⟨skip, hskip⟩ : ∃ skip, skip = offset + copied - blockId * BLOCK_SIZE := ⟨_, rfl⟩
    obtain ⟨bytes, hbytes⟩ : ∃ bytes, bytes = min (n - copied) (entry.size - skip) := ⟨_, rfl⟩
    have hnextStart : (blockId + 1) * BLOCK_SIZE = blockId * BLOCK_SIZE + BLOCK_SIZE :=
      Nat.add_one_mul blockId BLOCK_SIZE
    have hend : blockId + 1 ≤ (offset + n - 1) / BLOCK_SIZE ↔
        (blockId + 1) * BLOCK_SIZE ≤ offset + n - 1 := Nat.le_div_iff_mul_le BLOCK_SIZE_pos
    have hfits : skip + bytes ≤ entry.size := by omega
    have hdata : cache.pool.read (entry.dData + skip) bytes =
        (contents.drop (offset + copied)).take bytes := by
      rw [h.read_block hlookup _ _ hfits, hskip, Nat.add_sub_cancel' hstart]
    -- either the range ends in this block or the block is copied to its end
    have hcases : copied + bytes = n ∧ count = 0 ∨
        copied + bytes < n ∧ offset + copied + bytes = (blockId + 1) * BLOCK_SIZE ∧
          0 < count := by
      omega
    obtain ⟨hholds, hsame, hread, hnoWrap⟩ := ih (cache.touch blockId entry) (blockId + 1)
      (copied + bytes) (output.store copied (cache.pool.read (entry.dData + skip) bytes))
      (h.touch hlookup)
      (by
        intro id hfirst hlast
        rw [touch_isSome hlookup]
        exact hall id (by omega) (by omega))
      (by omega) (by omega)
      (by
        have hlater := Nat.add_one_mul (blockId + 1) BLOCK_SIZE
        have hpos := BLOCK_SIZE_pos
        omega)
    have hbefore : skip ≤ entry.size := by omega
    obtain ⟨hstep, hsubtract⟩ := copyBlocks_step n count output hlookup (by omega) (by omega)
      (by omega) hmore.le hstart hskip hbefore hbytes
    rw [Nat.add_assoc] at hstep hsubtract
    rw [hstep, hsubtract]
    refine ⟨hholds, (sameBlocks_touch hlookup).trans hsame, ?_,
      List.forall_mem_cons.mpr ⟨hbefore, hnoWrap⟩⟩
    have hstored := output.read_store_append copied (cache.pool.read (entry.dData + skip) bytes)
    rw [Memory.length_read, hdata] at hstored
    have hafter : (contents.drop (offset + copied)).take (n - copied) =
        (contents.drop (offset + copied)).take bytes ++
          (contents.drop (offset + (copied + bytes))).take (n - (copied + bytes)) := by
      have hsplit : n - copied = bytes + (n - (copied + bytes)) := by omega
      rw [hsplit, List.take_add, List.drop_drop, Nat.add_assoc]
    rw [hread, hdata, hstored, hafter, List.append_assoc]

-- Every block that the range touches is cached.
def Covers (cache : GPUBlockCache) (offset n : Nat) : Prop :=
  ∀ blockId, offset / BLOCK_SIZE ≤ blockId → blockId ≤ (offset + n - 1) / BLOCK_SIZE →
    (cache.cacheMap.lookup blockId).isSome = true

theorem required_iff_covers (cache : GPUBlockCache) (offset n : Nat) :
    (∀ blockId ∈ List.range' (offset / BLOCK_SIZE)
        ((offset + n - 1) / BLOCK_SIZE + 1 - offset / BLOCK_SIZE),
      (cache.cacheMap.lookup blockId).isSome = true) ↔ cache.Covers offset n := by
  simp only [List.mem_range'_1, Covers]
  refine forall_congr' fun blockId => ⟨?_, ?_⟩
  · intro h hfirst hlast
    exact h ⟨hfirst, by omega⟩
  · rintro h ⟨hfirst, hlast⟩
    exact h hfirst (by omega)

theorem Holds.copyBlocks_range (h : Holds contents cache) (hcontents : contents.length < 2 ^ 63)
    (hn : 0 < n) (hle : offset + n ≤ contents.length) (hcovers : cache.Covers offset n)
    (output : Memory) : let count := (offset + n - 1) / BLOCK_SIZE + 1 - offset / BLOCK_SIZE
    let result := cache.copyBlocks n count (offset / BLOCK_SIZE) 0 offset output
    Holds contents result.2 ∧ SameBlocks cache result.2 ∧
      result.1.read 0 n = (contents.drop offset).take n ∧
      NoWrap (cache.copySubtractions n count (offset / BLOCK_SIZE) 0 offset) := by
  have hdiv := Nat.div_add_mod' offset BLOCK_SIZE
  have hmod := Nat.mod_lt offset BLOCK_SIZE_pos
  have hlast : offset / BLOCK_SIZE ≤ (offset + n - 1) / BLOCK_SIZE :=
    Nat.div_le_div_right (by omega)
  exact Holds.copyBlocks hcontents offset n hle
    ((offset + n - 1) / BLOCK_SIZE + 1 - offset / BLOCK_SIZE) cache (offset / BLOCK_SIZE) 0 output h
    (fun id hfirst hlast => hcovers id hfirst (by omega))
    (by omega) (by omega)
    (by
      rw [Nat.add_one_mul]
      omega)

theorem Holds.tryGetMultiBlock_hit (h : Holds contents cache) (hcontents : contents.length < 2 ^ 63)
    (hn : 0 < n) (hle : offset + n ≤ contents.length) (hcovers : cache.Covers offset n)
    (output : Memory) :
    ∃ result next, cache.tryGetMultiBlock offset n output = (some result, next) ∧
      Holds contents next ∧ SameBlocks cache next ∧
      result.read 0 n = (contents.drop offset).take n := by
  obtain ⟨hholds, hsame, hread, -⟩ := h.copyBlocks_range hcontents hn hle hcovers output
  refine ⟨_, _, ?_, hholds, hsame, hread⟩
  have hend : (offset + n - 1) % 2 ^ 64 = offset + n - 1 := Nat.mod_eq_of_lt (by omega)
  rw [tryGetMultiBlock, if_neg (Nat.ne_of_gt hn), hend]
  exact if_pos ((required_iff_covers cache offset n).mpr hcovers)

theorem tryGetMultiBlock_miss (hn : 0 < n) (hbound : offset + n < 2 ^ 64)
    (hcovers : ¬cache.Covers offset n) (output : Memory) :
    cache.tryGetMultiBlock offset n output = (none, cache) := by
  have hend : (offset + n - 1) % 2 ^ 64 = offset + n - 1 := Nat.mod_eq_of_lt (by omega)
  rw [tryGetMultiBlock, if_neg (Nat.ne_of_gt hn), hend]
  exact if_neg (hcovers ∘ (required_iff_covers cache offset n).mp)

theorem foldl_least (rest : List (Sigma fun _ : Nat => CacheBlock)) :
    ∀ first : Sigma fun _ : Nat => CacheBlock,
      let least := rest.foldl (fun least entry =>
        if entry.2.accessCount < least.2.accessCount then entry else least) first
      least ∈ first :: rest ∧ ∀ entry ∈ first :: rest, least.2.accessCount ≤ entry.2.accessCount := by
  induction rest with
  | nil => exact fun first => ⟨List.mem_singleton_self first, by simp⟩
  | cons next rest ih =>
    intro first
    simp only [List.foldl_cons, List.forall_mem_cons]
    generalize hpicked : (if next.2.accessCount < first.2.accessCount then next else first) =
      picked
    have hfrom : picked ∈ [first, next] ∧ picked.2.accessCount ≤ first.2.accessCount ∧
        picked.2.accessCount ≤ next.2.accessCount := by
      subst hpicked
      split
      case isTrue hlt => exact ⟨by simp, hlt.le, le_rfl⟩
      case isFalse hle => exact ⟨by simp, le_rfl, Nat.le_of_not_lt hle⟩
    obtain ⟨hmem, hle⟩ := ih picked
    obtain ⟨hhead, hrest⟩ := List.forall_mem_cons.mp hle
    refine ⟨?_, hhead.trans hfrom.2.1, hhead.trans hfrom.2.2, hrest⟩
    rcases List.mem_cons.mp hmem with heq | hmem
    · rw [heq]
      exact List.mem_append_left rest hfrom.1
    · exact List.mem_append_right [first, next] hmem

theorem leastRecent_spec {map : AList fun _ : Nat => CacheBlock}
    (h : leastRecent map.entries = some blockId) :
    ∃ block, map.lookup blockId = some block ∧
      ∀ other found, map.lookup other = some found → block.accessCount ≤ found.accessCount := by
  cases hentries : map.entries with
  | nil =>
    rw [hentries] at h
    cases h
  | cons first rest =>
    rw [hentries] at h
    cases h
    obtain ⟨hmem, hle⟩ := foldl_least rest first
    rw [← hentries] at hmem hle
    refine ⟨_, AList.mem_lookup_iff.mpr hmem, fun other found hfound => ?_⟩
    exact hle ⟨other, found⟩ (AList.mem_lookup_iff.mp hfound)

theorem leastRecent_mem {map : AList fun _ : Nat => CacheBlock}
    (h : leastRecent map.entries = some blockId) : blockId ∈ map.keys := by
  obtain ⟨block, hlookup, -⟩ := leastRecent_spec h
  exact AList.mem_keys.mp (AList.lookup_isSome.mp (by rw [hlookup]; rfl))

theorem Holds.evictLRU (h : Holds contents cache) : Holds contents cache.evictLRU := by
  unfold GPUBlockCache.evictLRU
  cases hleast : leastRecent cache.cacheMap.entries with
  | none => exact h
  | some evicted =>
    have hmem : evicted ∈ cache.cacheMap.keys := leastRecent_mem hleast
    have hsome : (cache.cacheMap.lookup evicted).isSome = true :=
      AList.lookup_isSome.mpr (AList.mem_keys.mpr hmem)
    obtain ⟨slot, hslot⟩ := Option.isSome_iff_exists.mp ((h.same_keys evicted).trans hsome)
    have hpos := List.length_pos_of_mem hmem
    have hlength : (cache.cacheMap.erase evicted).keys.length + (slot :: cache.freeSlots).length =
        cache.cacheMap.keys.length + cache.freeSlots.length := by
      rw [AList.keys_erase, List.length_erase_of_mem hmem, List.length_cons]
      omega
    simp only [hslot, Option.getD_some]
    refine ⟨h.allocated, ?_, ?_, ?_, ?_, ?_, ?_, ?_, ?_⟩
    · intro id entry hentry
      obtain ⟨hne, hentry⟩ := Lists.lookup_erase_some hentry
      rw [AList.lookup_erase_ne hne]
      exact h.block id entry hentry
    · intro id
      by_cases heq : id = evicted
      · rw [heq, AList.lookup_erase, AList.lookup_erase]
        rfl
      · rw [AList.lookup_erase_ne heq, AList.lookup_erase_ne heq]
        exact h.same_keys id
    · intro id other found hid hother
      exact h.slot_inj id other found (Lists.lookup_erase_some hid).2 (Lists.lookup_erase_some hother).2
    · intro id found hfound hfree
      obtain ⟨hne, hold⟩ := Lists.lookup_erase_some hfound
      rcases List.mem_cons.mp hfree with heq | hfree
      · exact hne (h.slot_inj id evicted slot (heq ▸ hold) hslot)
      · exact h.slot_not_free id found hold hfree
    · exact List.nodup_cons.mpr ⟨h.slot_not_free evicted slot hslot, h.free_nodup⟩
    · intro id found hfound
      rw [hlength]
      exact h.slot_lt id found (Lists.lookup_erase_some hfound).2
    · intro found hfree
      rw [hlength]
      rcases List.mem_cons.mp hfree with heq | hfree
      · exact heq ▸ h.slot_lt evicted slot hslot
      · exact h.free_lt found hfree
    · rw [hlength]
      exact h.total_le

-- The slot a new block gets is nobody's.
structure FreshSlot (cache : GPUBlockCache) (slot : Nat) (rest : List Nat) : Prop where
  unused : ∀ id, cache.slotMap.lookup id ≠ some slot
  not_rest : slot ∉ rest
  rest_nodup : rest.Nodup
  rest_free : ∀ other ∈ rest, other ∈ cache.freeSlots
  slot_lt : slot < cache.cacheMap.keys.length + 1 + rest.length
  total : cache.cacheMap.keys.length + cache.freeSlots.length ≤
    cache.cacheMap.keys.length + 1 + rest.length
  total_le : cache.cacheMap.keys.length + 1 + rest.length ≤ MAX_CACHED_BLOCKS

theorem Holds.takeSlot (h : Holds contents cache)
    (hroom : cache.cacheMap.keys.length < MAX_CACHED_BLOCKS) :
    ∃ slot rest, cache.takeSlot = (slot, { cache with freeSlots := rest }) ∧
      FreshSlot cache slot rest := by
  cases hfree : cache.freeSlots with
  | nil =>
    refine ⟨cache.cacheMap.keys.length, [], ?_, ?_, List.not_mem_nil, List.nodup_nil,
      fun _ hmem => absurd hmem List.not_mem_nil, by simp, by simp [hfree], hroom⟩
    · simp only [GPUBlockCache.takeSlot, hfree]
      rw [← hfree]
    · intro id hslot
      have hlt := h.slot_lt id _ hslot
      rw [hfree, List.length_nil] at hlt
      omega
  | cons slot rest =>
    have hmem : slot ∈ cache.freeSlots := hfree ▸ List.mem_cons_self
    have hlt := h.free_lt slot hmem
    have htotal := h.total_le
    have hnodup := h.free_nodup
    rw [hfree, List.length_cons] at hlt htotal
    rw [hfree, List.nodup_cons] at hnodup
    refine ⟨slot, rest, by simp only [GPUBlockCache.takeSlot, hfree],
      fun id hslot => h.slot_not_free id slot hslot hmem, hnodup.1, hnodup.2,
      fun other hother => hfree ▸ List.mem_cons_of_mem slot hother, by omega,
      by rw [hfree, List.length_cons]; omega, by omega⟩

theorem slot_disjoint (hne : other ≠ slot) (hsize : size ≤ BLOCK_SIZE)
    (hcopied : copied ≤ BLOCK_SIZE) :
    other * BLOCK_SIZE + size ≤ slot * BLOCK_SIZE ∨
      slot * BLOCK_SIZE + copied ≤ other * BLOCK_SIZE := by
  rcases Nat.lt_or_gt_of_ne hne with hlt | hlt
  · have hle := Nat.mul_le_mul_right BLOCK_SIZE hlt
    rw [Nat.succ_mul] at hle
    omega
  · have hle := Nat.mul_le_mul_right BLOCK_SIZE hlt
    rw [Nat.succ_mul] at hle
    omega

theorem Holds.store (data : Bytes) (accessCount : Nat) (h : Holds contents cache)
    (hfresh : FreshSlot cache slot rest) (hnew : cache.cacheMap.lookup blockId = none)
    (hstart : blockId * BLOCK_SIZE < contents.length)
    (hlength : data.length = min BLOCK_SIZE (contents.length - blockId * BLOCK_SIZE))
    (hdata : data = (contents.drop (blockId * BLOCK_SIZE)).take data.length) :
    Holds contents { cache with
      pool := cache.pool.store (slot * BLOCK_SIZE) data
      freeSlots := rest
      accessCounter := accessCount
      cacheMap := cache.cacheMap.insert blockId
        ⟨blockId, slot * BLOCK_SIZE, data.length, accessCount⟩
      slotMap := cache.slotMap.insert blockId slot } := by
  have hkeys := Lists.length_keys_insert hnew
  have hcopied : data.length ≤ BLOCK_SIZE := hlength ▸ Nat.min_le_left _ _
  have hslots : ∀ id found, (cache.slotMap.insert blockId slot).lookup id = some found →
      id = blockId ∧ found = slot ∨ id ≠ blockId ∧ cache.slotMap.lookup id = some found :=
    fun id found => Lists.lookup_insert_cases
  refine ⟨h.allocated, ?_, ?_, ?_, ?_, hfresh.rest_nodup, ?_, ?_, ?_⟩
  · intro id entry hentry
    rcases Lists.lookup_insert_cases hentry with ⟨rfl, rfl⟩ | ⟨heq, hentry⟩
    · refine ⟨hstart, hlength, ?_, slot, AList.lookup_insert _, rfl⟩
      rw [Memory.read_store_self]
      exact hdata
    · obtain ⟨hin, hsize, hread, other, hother, haddress⟩ := h.block id entry hentry
      refine ⟨hin, hsize, ?_, other, ?_, haddress⟩
      · have hne : other ≠ slot := fun hslot => hfresh.unused id (hslot ▸ hother)
        rw [Memory.read_store_of_disjoint, hread]
        rw [haddress]
        exact slot_disjoint hne (h.block_size hentry).1 hcopied
      · rw [AList.lookup_insert_ne heq]
        exact hother
  · intro id
    by_cases heq : id = blockId
    · rw [heq, AList.lookup_insert, AList.lookup_insert]
      rfl
    · rw [AList.lookup_insert_ne heq, AList.lookup_insert_ne heq]
      exact h.same_keys id
  · intro id other found hid hother
    rcases hslots id found hid with ⟨hid, hslot⟩ | ⟨-, hid⟩ <;>
      rcases hslots other found hother with ⟨hother, hslot'⟩ | ⟨-, hother⟩
    · exact hid.trans hother.symm
    · exact absurd (hslot ▸ hother) (hfresh.unused other)
    · exact absurd (hslot' ▸ hid) (hfresh.unused id)
    · exact h.slot_inj id other found hid hother
  · intro id found hfound hfree
    rcases hslots id found hfound with ⟨-, hslot⟩ | ⟨-, hfound⟩
    · exact hfresh.not_rest (hslot ▸ hfree)
    · exact h.slot_not_free id found hfound (hfresh.rest_free found hfree)
  · intro id found hfound
    rw [hkeys]
    rcases hslots id found hfound with ⟨-, hslot⟩ | ⟨-, hfound⟩
    · exact hslot ▸ hfresh.slot_lt
    · exact (h.slot_lt id found hfound).trans_le hfresh.total
  · intro found hfree
    rw [hkeys]
    exact (h.free_lt found (hfresh.rest_free found hfree)).trans_le hfresh.total
  · rw [hkeys]
    exact hfresh.total_le

theorem evictLRU_lookup_none (hnew : cache.cacheMap.lookup blockId = none) :
    cache.evictLRU.cacheMap.lookup blockId = none := by
  unfold evictLRU
  cases leastRecent cache.cacheMap.entries with
  | none => exact hnew
  | some evicted =>
    by_cases heq : blockId = evicted
    · rw [heq]
      exact AList.lookup_erase _ _
    · exact (AList.lookup_erase_ne heq).trans hnew

theorem exists_leastRecent (hpos : 0 < cache.cacheMap.keys.length) :
    ∃ evicted, leastRecent cache.cacheMap.entries = some evicted := by
  rw [AList.keys, List.keys, List.length_map] at hpos
  cases hentries : cache.cacheMap.entries with
  | nil => simp [hentries] at hpos
  | cons first rest => exact ⟨_, rfl⟩

theorem length_keys_evictLRU (hpos : 0 < cache.cacheMap.keys.length) :
    cache.evictLRU.cacheMap.keys.length < cache.cacheMap.keys.length := by
  obtain ⟨evicted, hleast⟩ := exists_leastRecent hpos
  have hmem : evicted ∈ cache.cacheMap.keys := leastRecent_mem hleast
  rw [evictLRU, hleast]
  dsimp only
  rw [AList.keys_erase, List.length_erase_of_mem hmem]
  omega

theorem Holds.put (h : Holds contents cache)
    (haligned : blockStart / BLOCK_SIZE * BLOCK_SIZE = blockStart)
    (hstart : blockStart < contents.length)
    (hsize : min size BLOCK_SIZE = min BLOCK_SIZE (contents.length - blockStart))
    (hdata : source.read 0 (min size BLOCK_SIZE) =
      (contents.drop blockStart).take (min size BLOCK_SIZE)) :
    Holds contents (cache.put blockStart source size) := by
  rw [GPUBlockCache.put, if_neg (by rw [h.allocated]; decide)]
  by_cases hcached : (cache.cacheMap.lookup (blockStart / BLOCK_SIZE)).isSome = true
  · rwa [if_pos hcached]
  · rw [if_neg hcached]
    have hnew := Option.not_isSome_iff_eq_none.mp hcached
    generalize hroom : (if MAX_CACHED_BLOCKS ≤ cache.cacheMap.keys.length then cache.evictLRU
      else cache) = room
    obtain ⟨hholds, hlookup, hlt⟩ : Holds contents room ∧
        room.cacheMap.lookup (blockStart / BLOCK_SIZE) = none ∧
        room.cacheMap.keys.length < MAX_CACHED_BLOCKS := by
      subst hroom
      have htotal := h.total_le
      split
      case isTrue hfull =>
        have hpos : 0 < cache.cacheMap.keys.length := lt_of_lt_of_le (by decide) hfull
        have hless := length_keys_evictLRU hpos
        exact ⟨h.evictLRU, evictLRU_lookup_none hnew, by omega⟩
      case isFalse hfull => exact ⟨h, hnew, Nat.lt_of_not_le hfull⟩
    obtain ⟨slot, rest, htake, hfresh⟩ := hholds.takeSlot hlt
    have hslot := hfresh.slot_lt.trans_le hfresh.total_le
    simp only [htake]
    rw [if_neg (Nat.not_le_of_gt hslot)]
    have hlength : (source.read 0 (min size BLOCK_SIZE)).length = min size BLOCK_SIZE :=
      Memory.length_read ..
    have hstore := hholds.store (source.read 0 (min size BLOCK_SIZE))
      ((room.accessCounter + 1) % 2 ^ 64) hfresh hlookup (by rwa [haligned]) (by rwa [hlength, haligned])
      (by rwa [hlength, haligned])
    rwa [hlength] at hstore

end MlkvPlus.Gds.GPUBlockCache
