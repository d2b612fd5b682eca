import MlkvPlus.Data.Recency
import MlkvPlus.Gds.BlockCache.Runs

namespace MlkvPlus.Gds.GPUBlockCache

open Recency (Stamped stamped_empty)

def uses (cache : GPUBlockCache) : List Operation → List Nat
  | [] => []
  | operation :: rest => cache.usedBlocks operation ++ (cache.apply operation).uses rest

-- How many uses came after the most recent one of a block.
def usesSince (uses : List Nat) (blockId : Nat) : Nat :=
  uses.reverse.idxOf blockId

def stamp (cache : GPUBlockCache) (blockId : Nat) : Option Nat :=
  (cache.cacheMap.lookup blockId).map CacheBlock.accessCount

-- The access counts are the times of the most recent uses.
abbrev Clocked (cache : GPUBlockCache) (log : List Nat) : Prop :=
  Stamped cache.stamp cache.accessCounter log

variable {cache next : GPUBlockCache} {log : List Nat} {blockId : Nat} {block : CacheBlock}

theorem Clocked.insert (h : Clocked cache log) (hfew : log.length + 1 < 2 ^ 64)
    (hmap : next.cacheMap = cache.cacheMap.insert blockId block)
    (hcount : block.accessCount = (cache.accessCounter + 1) % 2 ^ 64)
    (hcounter : next.accessCounter = (cache.accessCounter + 1) % 2 ^ 64) :
    Clocked next (blockId :: log) := by
  have hclock := h.clock_le
  have hwrap : (cache.accessCounter + 1) % 2 ^ 64 = cache.accessCounter + 1 :=
    Nat.mod_eq_of_lt (by omega)
  have hstamp : next.stamp = Function.update cache.stamp blockId
      (some (cache.accessCounter + 1)) := by
    funext other
    by_cases heq : other = blockId
    · rw [heq, stamp, hmap, AList.lookup_insert, Function.update_self, Option.map_some, hcount,
        hwrap]
    · rw [stamp, hmap, AList.lookup_insert_ne heq, Function.update_of_ne heq, stamp]
  rw [Clocked, hstamp, hcounter, hwrap]
  exact h.use blockId

theorem Clocked.touch (h : Clocked cache log) (hfew : log.length + 1 < 2 ^ 64) :
    Clocked (cache.touch blockId block) (blockId :: log) :=
  h.insert hfew rfl rfl rfl

theorem Clocked.touchBlocks (blocks : List Nat) (h : Clocked cache log)
    (hfew : log.length + blocks.length < 2 ^ 64) :
    Clocked (cache.touchBlocks blocks) (blocks.reverse ++ log) := by
  induction blocks generalizing cache log with
  | nil => exact h
  | cons blockId rest ih =>
    rw [List.length_cons] at hfew
    have hfirst : Clocked (cache.touch blockId
        ((cache.cacheMap.lookup blockId).getD ⟨0, 0, 0, 0⟩)) (blockId :: log) :=
      h.touch (by omega)
    have hrest := ih hfirst (by rw [List.length_cons]; omega)
    rwa [List.reverse_cons, List.append_assoc, List.singleton_append]

-- The cache in which Put looks for a slot.
def room (cache : GPUBlockCache) : GPUBlockCache :=
  if MAX_CACHED_BLOCKS ≤ cache.cacheMap.keys.length then cache.evictLRU else cache

-- What Put does to the map: nothing, or it makes room, and then it inserts the block unless
-- there is no slot for it.
inductive PutStep (cache : GPUBlockCache) (blockId : Nat) : GPUBlockCache → Prop where
  | kept (hkept : cache.poolAllocated = false ∨
      (cache.cacheMap.lookup blockId).isSome = true) : PutStep cache blockId cache
  | full {next : GPUBlockCache} (hnew : cache.cacheMap.lookup blockId = none)
      (hmap : next.cacheMap = cache.room.cacheMap)
      (hcounter : next.accessCounter = cache.room.accessCounter) : PutStep cache blockId next
  | inserted {next : GPUBlockCache} {block : CacheBlock}
      (hnew : cache.cacheMap.lookup blockId = none)
      (hmap : next.cacheMap = cache.room.cacheMap.insert blockId block)
      (hcount : block.accessCount = (cache.room.accessCounter + 1) % 2 ^ 64)
      (hcounter : next.accessCounter = (cache.room.accessCounter + 1) % 2 ^ 64) :
      PutStep cache blockId next

theorem takeSlot_eq (cache : GPUBlockCache) :
    ∃ slot rest, cache.takeSlot = (slot, { cache with freeSlots := rest }) := by
  unfold takeSlot
  split
  · exact ⟨_, cache.freeSlots, rfl⟩
  · exact ⟨_, _, rfl⟩

theorem put_step (cache : GPUBlockCache) (fileOffset : Nat) (source : Memory) (size : Nat) :
    PutStep cache (fileOffset / BLOCK_SIZE) (cache.put fileOffset source size) := by
  unfold put
  dsimp only
  split
  case isTrue hpool => exact .kept (Or.inl hpool)
  split
  case isTrue hcached => exact .kept (Or.inr hcached)
  case isFalse hnew =>
    have hnone := Option.not_isSome_iff_eq_none.mp hnew
    rw [← room]
    obtain ⟨slot, rest, htake⟩ := takeSlot_eq cache.room
    rw [htake]
    dsimp only
    split
    · exact .full hnone rfl rfl
    · exact .inserted hnone rfl rfl rfl

theorem room_stamp (cache : GPUBlockCache) (blockId time : Nat)
    (h : cache.room.stamp blockId = some time) : cache.stamp blockId = some time := by
  unfold room at h
  split at h
  case isFalse => exact h
  case isTrue =>
    unfold evictLRU at h
    split at h
    · exact h
    · obtain ⟨found, hfound, htime⟩ := Option.map_eq_some_iff.mp h
      rw [stamp, (Lists.lookup_erase_some hfound).2, Option.map_some, htime]

theorem room_accessCounter (cache : GPUBlockCache) :
    cache.room.accessCounter = cache.accessCounter := by
  unfold room
  split
  · unfold evictLRU
    split <;> rfl
  · rfl

theorem room_lookup_none (hnew : cache.cacheMap.lookup blockId = none) :
    cache.room.cacheMap.lookup blockId = none := by
  unfold room
  split
  · exact evictLRU_lookup_none hnew
  · exact hnew

theorem Clocked.room (h : Clocked cache log) : Clocked cache.room log := by
  rw [Clocked, room_accessCounter]
  exact h.forget (room_stamp cache)

theorem Clocked.put (h : Clocked cache log) (fileOffset : Nat) (source : Memory) (size : Nat)
    (hfew : log.length + (cache.usedBlocks (.put fileOffset source size)).length < 2 ^ 64) :
    Clocked (cache.put fileOffset source size)
      ((cache.usedBlocks (.put fileOffset source size)).reverse ++ log) := by
  rw [usedBlocks] at hfew ⊢
  generalize hput : cache.put fileOffset source size = next at hfew ⊢
  cases hput ▸ cache.put_step fileOffset source size with
  | kept _ =>
    rw [if_neg fun hboth => by rw [hboth.1] at hboth; exact absurd hboth.2 (by decide)]
    exact h
  | full hnew hmap hcounter =>
    rw [if_neg fun hboth => by
      rw [hmap, room_lookup_none hnew] at hboth
      exact absurd hboth.2 (by decide)]
    have hstamp : next.stamp = cache.room.stamp := by
      funext other
      rw [stamp, hmap, stamp]
    rw [Clocked, hstamp, hcounter]
    exact h.room
  | inserted hnew hmap hcount hcounter =>
    have hused : cache.cacheMap.lookup (fileOffset / BLOCK_SIZE) = none ∧
        (next.cacheMap.lookup (fileOffset / BLOCK_SIZE)).isSome = true := by
      refine ⟨hnew, ?_⟩
      rw [hmap, AList.lookup_insert]
      rfl
    rw [if_pos hused] at hfew ⊢
    exact h.room.insert hfew hmap hcount hcounter

theorem Clocked.apply (h : Clocked cache log) (operation : Operation)
    (hfew : log.length + (cache.usedBlocks operation).length < 2 ^ 64) :
    Clocked (cache.apply operation) ((cache.usedBlocks operation).reverse ++ log) := by
  have hstep := cache.apply_step operation
  generalize cache.apply operation = next at hstep ⊢
  cases hstep with
  | put fileOffset source size => exact h.put fileOffset source size hfew
  | uses hcached => exact h.touchBlocks _ hfew
  | clear =>
    have hstamp : cache.clear.stamp = fun _ => none := by
      funext other
      rfl
    rw [Clocked, hstamp]
    exact stamped_empty log

theorem Clocked.run (operations : List Operation) (h : Clocked cache log)
    (hfew : log.length + (cache.uses operations).length < 2 ^ 64) :
    Clocked (cache.run operations) ((cache.uses operations).reverse ++ log) := by
  induction operations generalizing cache log with
  | nil => exact h
  | cons operation rest ih =>
    rw [uses, List.length_append] at hfew
    have hfirst := h.apply operation (by omega)
    have hrest := ih hfirst (by rw [List.length_append, List.length_reverse]; omega)
    rwa [uses, List.reverse_append, List.append_assoc]

def Cached (cache : GPUBlockCache) (blockId : Nat) : Prop :=
  (cache.cacheMap.lookup blockId).isSome = true

theorem Cached.touchBlocks (blocks : List Nat) (hcached : ∀ other ∈ blocks, cache.Cached other)
    (h : cache.Cached blockId) : (cache.touchBlocks blocks).Cached blockId := by
  induction blocks generalizing cache with
  | nil => exact h
  | cons first rest ih =>
    obtain ⟨hfirst, hrest⟩ := List.forall_mem_cons.mp hcached
    obtain ⟨entry, hlookup⟩ := Option.isSome_iff_exists.mp hfirst
    have hsame (other : Nat) : (cache.touch first entry).Cached other ↔ cache.Cached other := by
      rw [Cached, touch_isSome hlookup, Cached]
    rw [GPUBlockCache.touchBlocks, hlookup, Option.getD_some]
    exact ih (fun other hmem => (hsame other).mpr (hrest other hmem)) ((hsame blockId).mpr h)

-- Making room removes the least recently used block, and no other.
theorem leastRecent_of_room (h : cache.Cached blockId)
    (hroom : cache.room.cacheMap.lookup blockId = none) :
    leastRecent cache.cacheMap.entries = some blockId := by
  have hne : cache.cacheMap.lookup blockId ≠ none := Option.isSome_iff_ne_none.mp h
  unfold room at hroom
  split at hroom
  case isFalse => exact absurd hroom hne
  case isTrue =>
    unfold evictLRU at hroom
    split at hroom
    case h_1 => exact absurd hroom hne
    case h_2 evicted hleast =>
      by_cases heq : blockId = evicted
      · rw [heq, hleast]
      · rw [AList.lookup_erase_ne heq] at hroom
        exact absurd hroom hne

-- Only Clear and the Put of a block that is not cached remove blocks.
theorem removed_cases (h : cache.Cached blockId)
    (hremoved : ¬(cache.apply operation).Cached blockId) :
    operation = .clear ∨ ∃ fileOffset source size, operation = .put fileOffset source size ∧
      ¬cache.Cached (fileOffset / BLOCK_SIZE) ∧
      leastRecent cache.cacheMap.entries = some blockId := by
  have hstep := cache.apply_step operation
  generalize cache.apply operation = next at hstep hremoved
  cases hstep with
  | clear => exact Or.inl rfl
  | uses hcached => exact absurd (h.touchBlocks _ hcached) hremoved
  | put fileOffset source size =>
    refine Or.inr ⟨fileOffset, source, size, rfl, ?_⟩
    generalize hput : cache.put fileOffset source size = next at hremoved
    cases hput ▸ cache.put_step fileOffset source size with
    | kept _ => exact absurd h hremoved
    | full hnew hmap hcounter =>
      rw [Cached, hmap, Option.not_isSome_iff_eq_none] at hremoved
      exact ⟨Option.not_isSome_iff_eq_none.mpr hnew, leastRecent_of_room h hremoved⟩
    | inserted hnew hmap hcount hcounter =>
      have hne : blockId ≠ fileOffset / BLOCK_SIZE := by
        rintro rfl
        rw [Cached, hnew] at h
        cases h
      rw [Cached, hmap, AList.lookup_insert_ne hne, Option.not_isSome_iff_eq_none] at hremoved
      exact ⟨Option.not_isSome_iff_eq_none.mpr hnew, leastRecent_of_room h hremoved⟩

theorem exists_removed (hallocated : cache.poolAllocated = true)
    (hfull : MAX_CACHED_BLOCKS ≤ cache.cacheMap.keys.length)
    (hnew : ¬cache.Cached (fileOffset / BLOCK_SIZE)) (source : Memory) (size : Nat) :
    ∃ blockId, cache.Cached blockId ∧
      ¬(cache.apply (.put fileOffset source size)).Cached blockId := by
  obtain ⟨evicted, hleast⟩ := exists_leastRecent (lt_of_lt_of_le (by decide) hfull)
  obtain ⟨block, hlookup, -⟩ := leastRecent_spec hleast
  have hcached : cache.Cached evicted := Option.isSome_iff_exists.mpr ⟨block, hlookup⟩
  have hroom : cache.room.cacheMap.lookup evicted = none := by
    rw [room, if_pos hfull, evictLRU, hleast]
    exact AList.lookup_erase _ _
  have hne : evicted ≠ fileOffset / BLOCK_SIZE := fun heq => hnew (heq ▸ hcached)
  refine ⟨evicted, hcached, ?_⟩
  rw [GPUBlockCache.apply, Cached, Option.not_isSome_iff_eq_none]
  generalize hput : cache.put fileOffset source size = next
  cases hput ▸ cache.put_step fileOffset source size with
  | kept hkept =>
    rcases hkept with hpool | hold
    · rw [hallocated] at hpool
      cases hpool
    · exact absurd hold hnew
  | full _ hmap _ => rw [hmap, hroom]
  | inserted _ hmap _ _ => rw [hmap, AList.lookup_insert_ne hne, hroom]

-- The block with the smallest count is the one whose last use is the longest ago.
theorem Clocked.leastRecent (h : Clocked cache log)
    (hleast : leastRecent cache.cacheMap.entries = some blockId) (hother : cache.Cached other)
    (hne : other ≠ blockId) : log.idxOf other < log.idxOf blockId := by
  obtain ⟨block, hlookup, hle⟩ := leastRecent_spec hleast
  obtain ⟨found, hfound⟩ := Option.isSome_iff_exists.mp hother
  have hblock : cache.stamp blockId = some block.accessCount := by
    rw [stamp, hlookup, Option.map_some]
  have hstamp : cache.stamp other = some found.accessCount := by
    rw [stamp, hfound, Option.map_some]
  exact h.idxOf_lt hblock hstamp (hle other found hfound) hne

theorem clocked_construct (poolAllocated : Bool) (pool : Memory) :
    Clocked (construct poolAllocated pool) [] :=
  stamped_empty []

-- A block that disappears was cleared, or a Put of a block that was not cached evicted it, and
-- then every other cached block has been used since its last use.
theorem removed_least_recent (poolAllocated : Bool) (pool : Memory) (operations : List Operation)
    (operation : Operation) (blockId : Nat)
    (hfew : ((construct poolAllocated pool).uses operations).length < 2 ^ 64) :
    let cache := (construct poolAllocated pool).run operations
    let uses := (construct poolAllocated pool).uses operations
    cache.Cached blockId → ¬(cache.apply operation).Cached blockId →
      operation = .clear ∨ ∃ fileOffset source size, operation = .put fileOffset source size ∧
        ¬cache.Cached (fileOffset / BLOCK_SIZE) ∧ blockId ∈ uses ∧
        ∀ other, cache.Cached other → other ≠ blockId →
          usesSince uses other < usesSince uses blockId := by
  intro cache uses hcached hremoved
  have hclocked : Clocked cache (uses.reverse ++ []) :=
    (clocked_construct poolAllocated pool).run operations (by simpa using hfew)
  rw [List.append_nil] at hclocked
  refine (removed_cases hcached hremoved).imp_right ?_
  rintro ⟨fileOffset, source, size, hput, hnew, hleast⟩
  refine ⟨fileOffset, source, size, hput, hnew, ?_, fun other hother hne =>
    hclocked.leastRecent hleast hother hne⟩
  obtain ⟨entry, hentry⟩ := Option.isSome_iff_exists.mp hcached
  have hstamp : cache.stamp blockId = some entry.accessCount := by
    rw [stamp, hentry, Option.map_some]
  exact List.mem_reverse.mp (hclocked.used blockId _ hstamp)

def putsBelow (count : Nat) : List Operation :=
  (List.range count).map fun blockId => .put (blockId * BLOCK_SIZE) (fun _ => 0) 0

theorem length_uses_map_put (blocks : List Nat) (cache : GPUBlockCache) :
    (cache.uses (blocks.map fun blockId =>
      .put (blockId * BLOCK_SIZE) (fun _ => 0) 0)).length ≤ blocks.length := by
  induction blocks generalizing cache with
  | nil => exact Nat.zero_le _
  | cons blockId rest ih =>
    have hone : (cache.usedBlocks (.put (blockId * BLOCK_SIZE) (fun _ => 0) 0)).length ≤ 1 := by
      rw [usedBlocks]
      split
      · exact le_rfl
      · exact Nat.zero_le 1
    have hrest := ih (cache.apply (.put (blockId * BLOCK_SIZE) (fun _ => 0) 0))
    rw [List.map_cons, uses, List.length_append, List.length_cons]
    omega

-- A cache that has not evicted yet gives each new block the next slot.
structure Filled (count : Nat) (cache : GPUBlockCache) : Prop where
  allocated : cache.poolAllocated = true
  no_free : cache.freeSlots = []
  length_keys : cache.cacheMap.keys.length = count
  cached_iff : ∀ blockId, cache.Cached blockId ↔ blockId < count

theorem Filled.put (h : Filled count cache) (hroom : count < MAX_CACHED_BLOCKS) :
    Filled (count + 1) (cache.put (count * BLOCK_SIZE) (fun _ => 0) 0) := by
  have hid := Nat.mul_div_cancel count BLOCK_SIZE_pos
  have hnew : ¬(cache.cacheMap.lookup count).isSome = true :=
    fun hcached => Nat.lt_irrefl count ((h.cached_iff count).mp hcached)
  have hmem : count ∉ cache.cacheMap.keys := fun hmem =>
    hnew (AList.lookup_isSome.mpr (AList.mem_keys.mpr hmem))
  have hlength := h.length_keys
  have hslots : ¬MAX_CACHED_BLOCKS ≤ cache.cacheMap.keys.length := by omega
  have htake : cache.takeSlot = (cache.cacheMap.keys.length, cache) := by
    rw [takeSlot, h.no_free]
  rw [GPUBlockCache.put, if_neg (by rw [h.allocated]; decide), hid]
  dsimp only
  rw [if_neg hnew, if_neg hslots, htake]
  dsimp only
  rw [if_neg hslots]
  refine ⟨h.allocated, h.no_free, ?_, fun blockId => ?_⟩
  · rw [AList.keys_insert, List.length_cons, List.erase_of_not_mem hmem, hlength]
  · by_cases heq : blockId = count
    · rw [Cached, heq, AList.lookup_insert]
      exact iff_of_true rfl (Nat.lt_succ_self count)
    · rw [Cached, AList.lookup_insert_ne heq]
      exact (h.cached_iff blockId).trans (by omega)

theorem filled_run (pool : Memory) (count : Nat) (hle : count ≤ MAX_CACHED_BLOCKS) :
    Filled count ((construct true pool).run (putsBelow count)) := by
  induction count with
  | zero =>
    refine ⟨rfl, rfl, rfl, fun blockId => iff_of_false ?_ (Nat.not_lt_zero _)⟩
    intro hcached
    cases hcached
  | succ count ih =>
    have hfilled := ih (by omega)
    rw [putsBelow, List.range_succ, List.map_append, run, List.foldl_append]
    exact hfilled.put (by omega)

theorem removed_least_recent_full :
    let cache := (construct true fun _ => 0).run (putsBelow MAX_CACHED_BLOCKS)
    let uses := (construct true fun _ => 0).uses (putsBelow MAX_CACHED_BLOCKS)
    ∃ blockId, cache.Cached blockId ∧
      ¬(cache.apply (.put (MAX_CACHED_BLOCKS * BLOCK_SIZE) (fun _ => 0) 0)).Cached blockId ∧
      ∀ other, cache.Cached other → other ≠ blockId →
        usesSince uses other < usesSince uses blockId := by
  intro cache uses
  have hfilled : Filled MAX_CACHED_BLOCKS cache := filled_run _ _ le_rfl
  have hnew : ¬cache.Cached (MAX_CACHED_BLOCKS * BLOCK_SIZE / BLOCK_SIZE) := by
    rw [Nat.mul_div_cancel _ BLOCK_SIZE_pos, hfilled.cached_iff]
    exact Nat.lt_irrefl _
  obtain ⟨blockId, hcached, hremoved⟩ := exists_removed hfilled.allocated hfilled.length_keys.ge
    hnew (fun _ => 0) 0
  refine ⟨blockId, hcached, hremoved, ?_⟩
  have hfew : uses.length < 2 ^ 64 := by
    have hle := length_uses_map_put (List.range MAX_CACHED_BLOCKS) (construct true fun _ => 0)
    rw [List.length_range] at hle
    exact Nat.lt_of_le_of_lt hle (by decide)
  rcases removed_least_recent true (fun _ => 0) (putsBelow MAX_CACHED_BLOCKS)
    (.put (MAX_CACHED_BLOCKS * BLOCK_SIZE) (fun _ => 0) 0) blockId hfew hcached hremoved with
    hclear | ⟨_, _, _, -, -, -, hleast⟩
  · cases hclear
  · exact hleast

end MlkvPlus.Gds.GPUBlockCache
