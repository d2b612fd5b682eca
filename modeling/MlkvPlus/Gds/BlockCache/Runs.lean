import MlkvPlus.Gds.BlockCache.Contents

namespace MlkvPlus.Gds.GPUBlockCache

inductive Operation where
  | put (fileOffset : Nat) (source : Memory) (size : Nat)
  | tryGet (fileOffset requestSize : Nat)
  | tryGetMultiBlock (fileOffset requestSize : Nat) (output : Memory)
  | clear

def apply (cache : GPUBlockCache) : Operation → GPUBlockCache
  | .put fileOffset source size => cache.put fileOffset source size
  | .tryGet fileOffset requestSize => (cache.tryGet fileOffset requestSize).2
  | .tryGetMultiBlock fileOffset requestSize output =>
    (cache.tryGetMultiBlock fileOffset requestSize output).2
  | .clear => cache.clear

def run (cache : GPUBlockCache) (operations : List Operation) : GPUBlockCache :=
  operations.foldl apply cache

-- The cache as the constructor leaves it, with or without its pool.
def construct (poolAllocated : Bool) (pool : Memory) : GPUBlockCache :=
  { create pool with poolAllocated := poolAllocated }

variable {contents : Bytes} {cache : GPUBlockCache} {offset n : Nat}

-- What TryGet does: nothing, or a use of the block that has the first byte.
inductive TryGetStep (cache : GPUBlockCache) (offset n : Nat) :
    Option (Nat × Nat) × GPUBlockCache → Prop where
  | miss : TryGetStep cache offset n (none, cache)
  | hit {block : CacheBlock} (hlookup : cache.cacheMap.lookup (offset / BLOCK_SIZE) = some block)
      (hfits : (offset % BLOCK_SIZE + n) % 2 ^ 64 ≤ block.size) :
      TryGetStep cache offset n
        (some (block.dData + offset % BLOCK_SIZE, min n (sub64 block.size (offset % BLOCK_SIZE))),
          cache.touch (offset / BLOCK_SIZE) block)

theorem tryGet_step (cache : GPUBlockCache) (offset n : Nat) :
    TryGetStep cache offset n (cache.tryGet offset n) := by
  unfold tryGet
  dsimp only
  split
  case h_1 => exact .miss
  case h_2 block hlookup =>
    split
    case isTrue => exact .miss
    case isFalse hfits => exact .hit hlookup (Nat.le_of_not_lt hfits)

-- The blocks that TryGetMultiBlock asks for, in the order in which it uses them.
def requiredBlocks (offset n : Nat) : List Nat :=
  if n = 0 then []
  else List.range' (offset / BLOCK_SIZE)
    ((offset + n - 1) % 2 ^ 64 / BLOCK_SIZE + 1 - offset / BLOCK_SIZE)

def touchBlocks (cache : GPUBlockCache) : List Nat → GPUBlockCache
  | [] => cache
  | blockId :: rest =>
    (cache.touch blockId ((cache.cacheMap.lookup blockId).getD ⟨0, 0, 0, 0⟩)).touchBlocks rest

theorem copyBlocks_cache (n count : Nat) :
    ∀ (cache : GPUBlockCache) (blockId copied position : Nat) (output : Memory),
      (cache.copyBlocks n count blockId copied position output).2 =
        cache.touchBlocks (List.range' blockId count) := by
  induction count with
  | zero => exact fun _ _ _ _ _ => rfl
  | succ count ih =>
    intro cache blockId copied position output
    rw [copyBlocks, ih, List.range'_succ, touchBlocks]

-- What TryGetMultiBlock does: nothing, or a use of all blocks that it asks for.
inductive MultiStep (cache : GPUBlockCache) (offset n : Nat) :
    Option Memory × GPUBlockCache → Prop where
  | miss : MultiStep cache offset n (none, cache)
  | hit (output : Memory) (hcached : ∀ blockId ∈ requiredBlocks offset n,
      (cache.cacheMap.lookup blockId).isSome = true) :
      MultiStep cache offset n (some output, cache.touchBlocks (requiredBlocks offset n))

theorem tryGetMultiBlock_step (cache : GPUBlockCache) (offset n : Nat) (output : Memory) :
    MultiStep cache offset n (cache.tryGetMultiBlock offset n output) := by
  unfold tryGetMultiBlock
  split
  case isTrue hzero =>
    have hnone : requiredBlocks offset n = [] := if_pos hzero
    have hstep : MultiStep cache offset n (some output, cache.touchBlocks (requiredBlocks offset n)) :=
      .hit output (by rw [hnone]; exact List.forall_mem_nil _)
    rwa [hnone] at hstep
  case isFalse hpos =>
    have hblocks : requiredBlocks offset n = List.range' (offset / BLOCK_SIZE)
      ((offset + n - 1) % 2 ^ 64 / BLOCK_SIZE + 1 - offset / BLOCK_SIZE) := if_neg hpos
    dsimp only
    split
    case isFalse => exact .miss
    case isTrue hcached =>
      rw [copyBlocks_cache]
      rw [← hblocks] at hcached ⊢
      exact .hit _ hcached

-- The blocks that an operation uses, in order: the one that a Put inserts, the one that TryGet
-- hits, and those that TryGetMultiBlock copies from.
def usedBlocks (cache : GPUBlockCache) : Operation → List Nat
  | .put fileOffset source size =>
    if cache.cacheMap.lookup (fileOffset / BLOCK_SIZE) = none ∧
        ((cache.put fileOffset source size).cacheMap.lookup
          (fileOffset / BLOCK_SIZE)).isSome = true then
      [fileOffset / BLOCK_SIZE]
    else []
  | .tryGet fileOffset requestSize =>
    if (cache.tryGet fileOffset requestSize).1.isSome = true then [fileOffset / BLOCK_SIZE]
    else []
  | .tryGetMultiBlock fileOffset requestSize output =>
    if (cache.tryGetMultiBlock fileOffset requestSize output).1.isSome = true then
      requiredBlocks fileOffset requestSize
    else []
  | .clear => []

-- What an operation does: it puts a block, clears, or uses blocks that are cached.
inductive ApplyStep (cache : GPUBlockCache) : Operation → GPUBlockCache → Prop where
  | put (fileOffset : Nat) (source : Memory) (size : Nat) :
      ApplyStep cache (.put fileOffset source size) (cache.put fileOffset source size)
  | uses {operation : Operation} (hcached : ∀ blockId ∈ cache.usedBlocks operation,
      (cache.cacheMap.lookup blockId).isSome = true) :
      ApplyStep cache operation (cache.touchBlocks (cache.usedBlocks operation))
  | clear : ApplyStep cache .clear cache.clear

theorem ApplyStep.of_uses (hused : cache.usedBlocks operation = blocks)
    (hnext : cache.touchBlocks blocks = next)
    (hcached : ∀ blockId ∈ blocks, (cache.cacheMap.lookup blockId).isSome = true) :
    ApplyStep cache operation next := by
  subst hused hnext
  exact .uses hcached

theorem apply_step (cache : GPUBlockCache) (operation : Operation) :
    ApplyStep cache operation (cache.apply operation) := by
  cases operation with
  | put fileOffset source size => exact .put fileOffset source size
  | clear => exact .clear
  | tryGet fileOffset requestSize =>
    rw [GPUBlockCache.apply]
    generalize hget : cache.tryGet fileOffset requestSize = result
    cases hget ▸ cache.tryGet_step fileOffset requestSize with
    | miss => exact .of_uses (by rw [usedBlocks, hget]; rfl) rfl (List.forall_mem_nil _)
    | hit hlookup _ =>
      refine .of_uses (by rw [usedBlocks, hget]; rfl) ?_ (List.forall_mem_singleton.mpr ?_)
      · rw [touchBlocks, hlookup, Option.getD_some, touchBlocks]
      · rw [hlookup]
        rfl
  | tryGetMultiBlock fileOffset requestSize output =>
    rw [GPUBlockCache.apply]
    generalize hget : cache.tryGetMultiBlock fileOffset requestSize output = result
    cases hget ▸ cache.tryGetMultiBlock_step fileOffset requestSize output with
    | miss => exact .of_uses (by rw [usedBlocks, hget]; rfl) rfl (List.forall_mem_nil _)
    | hit _ hcached => exact .of_uses (by rw [usedBlocks, hget]; rfl) rfl hcached

theorem Holds.touchBlocks (blocks : List Nat) (h : Holds contents cache)
    (hcached : ∀ blockId ∈ blocks, (cache.cacheMap.lookup blockId).isSome = true) :
    Holds contents (cache.touchBlocks blocks) := by
  induction blocks generalizing cache with
  | nil => exact h
  | cons blockId rest ih =>
    obtain ⟨hfirst, hrest⟩ := List.forall_mem_cons.mp hcached
    obtain ⟨entry, hlookup⟩ := Option.isSome_iff_exists.mp hfirst
    rw [GPUBlockCache.touchBlocks, hlookup, Option.getD_some]
    refine ih (h.touch hlookup) fun other hmem => ?_
    rw [touch_isSome hlookup]
    exact hrest other hmem

theorem Holds.clear (h : Holds contents cache) : Holds contents cache.clear := by
  have hempty := holds_create contents cache.pool
  exact ⟨h.allocated, hempty.block, hempty.same_keys, hempty.slot_inj, hempty.slot_not_free,
    hempty.free_nodup, hempty.slot_lt, hempty.free_lt, hempty.total_le⟩

-- A Put of a block of the file, as the read path makes it.
def Operation.PutsFrom (contents : Bytes) : Operation → Prop
  | .put fileOffset source size =>
    BLOCK_SIZE ∣ fileOffset ∧ fileOffset < contents.length ∧
      size = min BLOCK_SIZE (contents.length - fileOffset) ∧
      source.read 0 size = (contents.drop fileOffset).take size
  | _ => True

theorem Holds.apply (h : Holds contents cache) (hputs : operation.PutsFrom contents) :
    Holds contents (cache.apply operation) := by
  have hstep := cache.apply_step operation
  generalize cache.apply operation = next at hstep ⊢
  cases hstep with
  | put fileOffset source size =>
    obtain ⟨haligned, hstart, hsize, hdata⟩ := hputs
    have hcapped : min size BLOCK_SIZE = size := by omega
    refine h.put (Nat.div_mul_cancel haligned) hstart ?_ ?_
    · rw [hcapped, hsize]
    · rw [hcapped, hdata]
  | uses hcached => exact h.touchBlocks _ hcached
  | clear => exact h.clear

theorem Holds.run (operations : List Operation) (h : Holds contents cache)
    (hputs : ∀ operation ∈ operations, operation.PutsFrom contents) :
    Holds contents (cache.run operations) := by
  induction operations generalizing cache with
  | nil => exact h
  | cons operation rest ih =>
    obtain ⟨hfirst, hrest⟩ := List.forall_mem_cons.mp hputs
    exact ih (h.apply hfirst) hrest

-- Without a pool nothing is ever cached.
structure Unused (cache : GPUBlockCache) : Prop where
  unallocated : cache.poolAllocated = false
  cacheMap_eq : cache.cacheMap = ∅
  slotMap_eq : cache.slotMap = ∅
  freeSlots_eq : cache.freeSlots = []

theorem Unused.lookup (h : Unused cache) (blockId : Nat) :
    cache.cacheMap.lookup blockId = none := by
  rw [h.cacheMap_eq]
  rfl

theorem Unused.apply (h : Unused cache) (operation : Operation) :
    Unused (cache.apply operation) := by
  have hstep := cache.apply_step operation
  generalize cache.apply operation = next at hstep ⊢
  cases hstep with
  | put fileOffset source size =>
    rw [GPUBlockCache.put, if_pos h.unallocated]
    exact h
  | uses hcached =>
    have hnone : cache.usedBlocks operation = [] :=
      List.eq_nil_iff_forall_not_mem.mpr fun blockId hmem => by
        have hsome := hcached blockId hmem
        rw [h.lookup] at hsome
        cases hsome
    rw [hnone]
    exact h
  | clear => exact ⟨h.unallocated, rfl, rfl, rfl⟩

theorem Unused.run (operations : List Operation) (h : Unused cache) :
    Unused (cache.run operations) := by
  induction operations generalizing cache with
  | nil => exact h
  | cons operation rest ih => exact ih (h.apply operation)

-- The maps and the pool as a cache of the file.
structure Represents (contents : Bytes) (cache : GPUBlockCache) : Prop where
  same_keys : ∀ id, (cache.cacheMap.lookup id).isSome = (cache.slotMap.lookup id).isSome
  bounded : cache.cacheMap.keys.length ≤ MAX_CACHED_BLOCKS
  placed : ∀ id block, cache.cacheMap.lookup id = some block →
    ∃ slot < MAX_CACHED_BLOCKS, cache.slotMap.lookup id = some slot ∧
      block.dData = slot * BLOCK_SIZE
  distinct : ∀ id other slot, cache.slotMap.lookup id = some slot →
    cache.slotMap.lookup other = some slot → id = other
  free_unused : ∀ id slot, cache.slotMap.lookup id = some slot → slot ∉ cache.freeSlots
  bytes : ∀ id block, cache.cacheMap.lookup id = some block → block.size ≤ BLOCK_SIZE ∧
    cache.pool.read block.dData block.size = (contents.drop (id * BLOCK_SIZE)).take block.size

theorem Holds.represents (h : Holds contents cache) : Represents contents cache where
  same_keys id := (h.same_keys id).symm
  bounded := (Nat.le_add_right _ _).trans h.total_le
  placed id block hlookup := by
    obtain ⟨-, -, -, slot, hslot, hdata⟩ := h.block id block hlookup
    exact ⟨slot, (h.slot_lt id slot hslot).trans_le h.total_le, hslot, hdata⟩
  distinct := h.slot_inj
  free_unused := h.slot_not_free
  bytes id block hlookup := by
    obtain ⟨-, -, hread, -⟩ := h.block id block hlookup
    exact ⟨(h.block_size hlookup).1, hread⟩

theorem Unused.represents (h : Unused cache) : Represents contents cache where
  same_keys id := by
    rw [h.cacheMap_eq, h.slotMap_eq]
    rfl
  bounded := by
    rw [h.cacheMap_eq]
    exact Nat.zero_le _
  placed id block hlookup := by
    rw [h.lookup] at hlookup
    cases hlookup
  distinct id other slot hslot := by
    rw [h.slotMap_eq] at hslot
    cases hslot
  free_unused id slot hslot := by
    rw [h.slotMap_eq] at hslot
    cases hslot
  bytes id block hlookup := by
    rw [h.lookup] at hlookup
    cases hlookup

-- The hits that a cache gives for a range are the bytes of the range.
structure Answers (contents : Bytes) (cache : GPUBlockCache) (offset n : Nat) : Prop where
  one : ∀ cachedPtr cachedSize, (cache.tryGet offset n).1 = some (cachedPtr, cachedSize) →
    cachedSize = n ∧ cache.pool.read cachedPtr cachedSize = (contents.drop offset).take n
  many : ∀ output result, (cache.tryGetMultiBlock offset n output).1 = some result →
    result.read 0 n = (contents.drop offset).take n

theorem Holds.answers (h : Holds contents cache) (hcontents : contents.length < 2 ^ 63)
    (hle : offset + n ≤ contents.length) : Answers contents cache offset n where
  one cachedPtr cachedSize hget := by
    generalize hresult : cache.tryGet offset n = result at hget
    cases hresult ▸ cache.tryGet_step offset n with
    | miss => cases hget
    | hit hlookup hfits =>
      have hmod := Nat.mod_le offset BLOCK_SIZE
      have hsize := (h.block_size hlookup).1
      rw [Nat.mod_eq_of_lt (by omega)] at hfits
      obtain ⟨htryGet, hread⟩ := h.tryGet_hit hcontents hle hlookup (hfits.trans hsize)
      rw [← hresult, htryGet] at hget
      cases hget
      exact ⟨rfl, hread⟩
  many output result hget := by
    rcases Nat.eq_zero_or_pos n with hzero | hpos
    · rw [hzero, List.take_zero]
      rfl
    by_cases hcovers : cache.Covers offset n
    · obtain ⟨found, next, hmulti, -, -, hread⟩ :=
        h.tryGetMultiBlock_hit hcontents hpos hle hcovers output
      rw [hmulti] at hget
      cases hget
      exact hread
    · rw [tryGetMultiBlock_miss hpos (by omega) hcovers] at hget
      cases hget

theorem Unused.answers (h : Unused cache) (hbound : offset + n < 2 ^ 64) :
    Answers contents cache offset n where
  one cachedPtr cachedSize hget := by
    generalize hresult : cache.tryGet offset n = result at hget
    cases hresult ▸ cache.tryGet_step offset n with
    | miss => cases hget
    | hit hlookup _ =>
      rw [h.lookup] at hlookup
      cases hlookup
  many output result hget := by
    rcases Nat.eq_zero_or_pos n with hzero | hpos
    · rw [hzero, List.take_zero]
      rfl
    have hcovers : ¬cache.Covers offset n := by
      intro hall
      have hsome := hall (offset / BLOCK_SIZE) le_rfl (Nat.div_le_div_right (by omega))
      rw [h.lookup] at hsome
      cases hsome
    rw [tryGetMultiBlock_miss hpos hbound hcovers] at hget
    cases hget

-- After any operations the cache is a part of the file, and its hits are the file's bytes.
theorem run_represents (contents : Bytes) (hcontents : contents.length < 2 ^ 63)
    (poolAllocated : Bool) (pool : Memory) (operations : List Operation)
    (hputs : ∀ operation ∈ operations, operation.PutsFrom contents) :
    let cache := (construct poolAllocated pool).run operations
    Represents contents cache ∧
      ∀ offset n, offset + n ≤ contents.length → Answers contents cache offset n := by
  intro cache
  cases poolAllocated with
  | true =>
    have hholds : Holds contents cache := (holds_create contents pool).run operations hputs
    exact ⟨hholds.represents, fun offset n hle => hholds.answers hcontents hle⟩
  | false =>
    have hstart : Unused (construct false pool) := ⟨rfl, rfl, rfl, rfl⟩
    have hunused : Unused cache := hstart.run operations
    exact ⟨hunused.represents, fun offset n hle => hunused.answers (by omega)⟩

theorem run_represents_one_block :
    let cache := (construct true fun _ => 0).run
      [.put 0 (Memory.ofBytes [5, 6, 7]) 3, .tryGet 0 1]
    Represents [5, 6, 7] cache ∧ (cache.tryGet 1 2).1 = some (1, 2) ∧
      cache.pool.read 1 2 = [6, 7] := by
  intro cache
  obtain ⟨hrepresents, hanswers⟩ := run_represents [5, 6, 7] (by decide) true (fun _ => 0)
    [.put 0 (Memory.ofBytes [5, 6, 7]) 3, .tryGet 0 1]
    (List.forall_mem_cons.mpr ⟨⟨by decide, by decide, by decide, by decide⟩,
      List.forall_mem_singleton.mpr trivial⟩)
  have hhit : (cache.tryGet 1 2).1 = some (1, 2) := by decide
  exact ⟨hrepresents, hhit, ((hanswers 1 2 (by decide)).one 1 2 hhit).2⟩

end MlkvPlus.Gds.GPUBlockCache
