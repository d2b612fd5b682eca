import MlkvPlus.Gds.RandomAccessFile.Transparency

namespace MlkvPlus.Gds

-- The device memories that the result of a read can point into.
inductive Region where
  | gpuBuffer
  | pool
  deriving DecidableEq, Repr

structure DeviceSlice where
  region : Region
  address : Nat
  size : Nat
  deriving DecidableEq, Repr

namespace DeviceSlice

def part (slice : DeviceSlice) (skip size : Nat) : DeviceSlice :=
  { slice with address := slice.address + skip, size := size }

end DeviceSlice

namespace GPUBlockCache

variable {cache next : GPUBlockCache} {id dData size : Nat}

-- A cached block at its place in the pool.
def Resident (cache : GPUBlockCache) (id dData size : Nat) : Prop :=
  ∃ block, cache.cacheMap.lookup id = some block ∧ block.dData = dData ∧ block.size = size

theorem Resident.touch (h : cache.Resident id dData size)
    (hentry : ∀ found, cache.cacheMap.lookup blockId = some found → entry = found) :
    (cache.touch blockId entry).Resident id dData size := by
  obtain ⟨block, hlookup, hdata, hsize⟩ := h
  by_cases heq : id = blockId
  · subst heq
    obtain rfl := hentry block hlookup
    exact ⟨_, AList.lookup_insert _, hdata, hsize⟩
  · refine ⟨block, ?_, hdata, hsize⟩
    rw [GPUBlockCache.touch, AList.lookup_insert_ne heq, hlookup]

theorem Resident.tryGet (h : cache.Resident id dData size) (offset n : Nat) :
    (cache.tryGet offset n).2.Resident id dData size := by
  unfold GPUBlockCache.tryGet
  dsimp only
  split
  case h_1 => exact h
  case h_2 block hlookup =>
    split
    · exact h
    · refine h.touch fun found hfound => ?_
      exact Option.some.inj (hlookup.symm.trans hfound)

theorem Resident.copyBlocks (n count : Nat) :
    ∀ {cache : GPUBlockCache} (blockId copied position : Nat) (output : Memory),
      cache.Resident id dData size →
      (cache.copyBlocks n count blockId copied position output).2.Resident id dData size := by
  induction count with
  | zero => exact fun _ _ _ _ h => h
  | succ count ih =>
    intro cache blockId copied position output h
    refine ih _ _ _ _ (h.touch fun found hfound => ?_)
    rw [hfound]
    rfl

theorem Resident.tryGetMultiBlock (h : cache.Resident id dData size) (offset n : Nat)
    (output : Memory) : (cache.tryGetMultiBlock offset n output).2.Resident id dData size := by
  unfold GPUBlockCache.tryGetMultiBlock
  dsimp only
  split
  · exact h
  · split
    · exact Resident.copyBlocks _ _ _ _ _ _ h
    · exact h

theorem Resident.put (h : cache.Resident id dData size) (blockStart : Nat) (source : Memory)
    (count : Nat) (hkept : MAX_CACHED_BLOCKS ≤ cache.cacheMap.keys.length →
      leastRecent cache.cacheMap.entries ≠ some id) :
    (cache.put blockStart source count).Resident id dData size := by
  obtain ⟨block, hlookup, hdata, hsize⟩ := h
  refine ⟨block, ?_, hdata, hsize⟩
  unfold GPUBlockCache.put
  dsimp only
  split
  · exact hlookup
  split
  · exact hlookup
  rename_i hnew
  have hne : id ≠ blockStart / BLOCK_SIZE := by
    rintro rfl
    rw [hlookup] at hnew
    exact hnew rfl
  generalize hroom : (if MAX_CACHED_BLOCKS ≤ cache.cacheMap.keys.length then cache.evictLRU
    else cache) = room
  have hroomLookup : room.cacheMap.lookup id = some block := by
    rw [← hroom]
    split
    case isFalse => exact hlookup
    case isTrue hfull =>
      unfold evictLRU
      cases hleast : leastRecent cache.cacheMap.entries with
      | none => exact hlookup
      | some evicted =>
        have hother : id ≠ evicted := fun heq => hkept hfull (heq ▸ hleast)
        exact (AList.lookup_erase_ne hother).trans hlookup
  have htaken : room.takeSlot.2.cacheMap = room.cacheMap := by
    unfold takeSlot
    split <;> rfl
  split
  · rw [htaken, hroomLookup]
  · rw [AList.lookup_insert_ne hne, htaken, hroomLookup]

end GPUBlockCache

namespace GDSRandomAccessFile

open GPUBlockCache

def memory (file : GDSRandomAccessFile) : Region → Memory
  | .gpuBuffer => file.gpuBuffer
  | .pool =>
    match file.gpuCache with
    | some cache => cache.pool
    | none => fun _ => 0

-- The memory as it is seen from the start of a slice on.
def memoryAt (file : GDSRandomAccessFile) (slice : DeviceSlice) : Memory := fun address =>
  file.memory slice.region (slice.address + address)

def bytesOf (file : GDSRandomAccessFile) (slice : DeviceSlice) : Bytes :=
  (file.memory slice.region).read slice.address slice.size

def cachedPtr? (file : GDSRandomAccessFile) (offset n : Nat) : Option Nat :=
  match file.gpuCache with
  | none => none
  | some cache =>
    match (cache.tryGet offset n).1 with
    | some (cachedPtr, cachedSize) => if n ≤ cachedSize then some cachedPtr else none
    | none => none

def copiesBlocks (file : GDSRandomAccessFile) (offset n : Nat) : Bool :=
  match file.gpuCache with
  | none => false
  | some cache =>
    ((cache.tryGet offset n).2.tryGetMultiBlock offset n file.gpuBuffer).1.isSome

-- Where Read without a scratch buffer leaves the bytes that it returns.
def slice (file : GDSRandomAccessFile) (offset n size : Nat) : DeviceSlice :=
  match file.cachedPtr? offset n with
  | some cachedPtr => ⟨.pool, cachedPtr, size⟩
  | none =>
    if file.copiesBlocks offset n = true then ⟨.gpuBuffer, 0, size⟩
    else ⟨.gpuBuffer, (alignPlan file.options.gdsAlignment
      (file.choosePlan offset n false)).offsetInRead, size⟩

variable {file next : GDSRandomAccessFile} {contents : FileContents} {offset n : Nat}

theorem read_gpuBuffer_readFile
    (h : file.readFile env contents offset n none = (.returned (.ok, bytes), next)) :
    next.gpuBuffer.read (alignPlan file.options.gdsAlignment
      (file.choosePlan offset n false)).offsetInRead bytes.length = bytes := by
  have htemp := file.filePlan_needTempBuffer offset n
  rw [filePlan, Option.isSome_none] at htemp
  unfold readFile at h
  simp only [Option.isSome_none, htemp, if_true, true_and] at h
  split at h
  case isTrue => cases h
  case isFalse =>
    have h := next_of_checkedAssert_returned (next_of_checkedAssert_returned h)
    split at h
    case h_1 => cases h
    case h_2 =>
      cases h
      rw [Memory.length_read]

-- What a cache that answers a read has done.
inductive Answered (cache : GPUBlockCache) (gpuBuffer : Memory) (offset n : Nat) :
    Option Bytes × Memory × GPUBlockCache → Prop where
  | block {cachedPtr cachedSize : Nat} {next : GPUBlockCache}
      (hget : cache.tryGet offset n = (some (cachedPtr, cachedSize), next))
      (hsize : n ≤ cachedSize) :
      Answered cache gpuBuffer offset n (some (next.pool.read cachedPtr n), gpuBuffer, next)
  | blocks {output : Memory} {next : GPUBlockCache}
      (hget : ∀ found ∈ (cache.tryGet offset n).1, found.2 < n)
      (hcopy : (cache.tryGet offset n).2.tryGetMultiBlock offset n gpuBuffer =
        (some output, next)) :
      Answered cache gpuBuffer offset n (some (output.read 0 n), output, next)

-- What a cache that does not answer it has left.
structure Missed (cache : GPUBlockCache) (offset n : Nat) (gpuBuffer : Memory)
    (next : GPUBlockCache) : Prop where
  get : ∀ found ∈ (cache.tryGet offset n).1, found.2 < n
  copy : (cache.tryGet offset n).2.tryGetMultiBlock offset n gpuBuffer = (none, next)

theorem readCached_cases (cache : GPUBlockCache) (gpuBuffer : Memory) (offset n : Nat) :
    Answered cache gpuBuffer offset n (readCached {} cache gpuBuffer offset n none) ∨
      ∃ next, readCached {} cache gpuBuffer offset n none = (none, gpuBuffer, next) ∧
        Missed cache offset n gpuBuffer next := by
  unfold readCached
  cases hget : cache.tryGet offset n with
  | mk found touched =>
    have hrest : (∀ place ∈ (cache.tryGet offset n).1, place.2 < n) →
        Answered cache gpuBuffer offset n
            (readCached.multiBlock {} gpuBuffer offset n none touched) ∨
          ∃ next, readCached.multiBlock {} gpuBuffer offset n none touched =
            (none, gpuBuffer, next) ∧ Missed cache offset n gpuBuffer next := by
      intro hsmall
      have htouched : touched = (cache.tryGet offset n).2 := by rw [hget]
      rw [htouched]
      cases hcopy : (cache.tryGet offset n).2.tryGetMultiBlock offset n gpuBuffer with
      | mk output next =>
        cases output with
        | some output =>
          simp only [readCached.multiBlock, hcopy, if_true]
          exact Or.inl (.blocks hsmall hcopy)
        | none =>
          simp only [readCached.multiBlock, hcopy, if_true]
          exact Or.inr ⟨next, rfl, hsmall, hcopy⟩
    rw [hget] at hrest
    cases found with
    | none =>
      refine hrest fun place hplace => ?_
      cases hplace
    | some place =>
      obtain ⟨cachedPtr, cachedSize⟩ := place
      dsimp only
      by_cases hsize : n ≤ cachedSize
      · rw [if_pos hsize]
        exact Or.inl (.block hget hsize)
      · rw [if_neg hsize]
        refine hrest fun place hplace => ?_
        cases hplace
        exact Nat.lt_of_not_le hsize

theorem cachedPtr?_eq_some (hcache : file.gpuCache = some cache)
    (hget : cache.tryGet offset n = (some (cachedPtr, cachedSize), touched))
    (hsize : n ≤ cachedSize) : file.cachedPtr? offset n = some cachedPtr := by
  simp only [cachedPtr?, hcache, hget, if_pos hsize]

theorem cachedPtr?_eq_none (hcache : file.gpuCache = some cache)
    (hget : ∀ found ∈ (cache.tryGet offset n).1, found.2 < n) :
    file.cachedPtr? offset n = none := by
  simp only [cachedPtr?, hcache]
  split
  case h_1 place hfound => exact if_neg (Nat.not_le_of_gt (hget _ hfound))
  case h_2 => rfl

theorem read_answered (hopen : file.gdsInitialized = true) (hcache : file.gpuCache = some cache)
    (h : readCached {} cache file.gpuBuffer offset n none = (some bytes, buffer, touched)) :
    file.read {} contents offset n none =
      (.returned (.ok, bytes), { file with gpuBuffer := buffer, gpuCache := some touched }) := by
  rw [read, if_neg (by rw [hopen]; decide), hcache]
  simp only [h]

theorem read_missed (hopen : file.gdsInitialized = true) (hcache : file.gpuCache = some cache)
    (h : readCached {} cache file.gpuBuffer offset n none = (none, file.gpuBuffer, touched)) :
    file.read {} contents offset n none =
      { file with gpuCache := some touched }.readFile {} contents offset n none := by
  rw [read, if_neg (by rw [hopen]; decide), hcache]
  simp only [h]

-- How a read that finds a cache ends: from one block, from several, or from the file.
inductive ReadThrough (file : GDSRandomAccessFile) (contents : FileContents) (offset n : Nat)
    (cache : GPUBlockCache) : Outcome (IOStatus × Bytes) × GDSRandomAccessFile → Prop where
  | block {cachedPtr cachedSize : Nat} {next : GPUBlockCache}
      (hget : cache.tryGet offset n = (some (cachedPtr, cachedSize), next))
      (hsize : n ≤ cachedSize) :
      ReadThrough file contents offset n cache
        (.returned (.ok, next.pool.read cachedPtr n), { file with gpuCache := some next })
  | blocks {output : Memory} {next : GPUBlockCache}
      (hget : ∀ found ∈ (cache.tryGet offset n).1, found.2 < n)
      (hcopy : (cache.tryGet offset n).2.tryGetMultiBlock offset n file.gpuBuffer =
        (some output, next)) :
      ReadThrough file contents offset n cache
        (.returned (.ok, output.read 0 n), { file with gpuBuffer := output, gpuCache := some next })
  | missed {touched : GPUBlockCache} (hmissed : Missed cache offset n file.gpuBuffer touched) :
      ReadThrough file contents offset n cache
        ({ file with gpuCache := some touched }.readFile {} contents offset n none)

theorem read_through (hopen : file.gdsInitialized = true) (hcache : file.gpuCache = some cache) :
    ReadThrough file contents offset n cache (file.read {} contents offset n none) := by
  rcases readCached_cases cache file.gpuBuffer offset n with hanswered | ⟨touched, hread, hmissed⟩
  · generalize hread : readCached {} cache file.gpuBuffer offset n none = result at hanswered
    cases hanswered with
    | block hget hsize =>
      rw [read_answered hopen hcache hread]
      exact .block hget hsize
    | blocks hget hcopy =>
      rw [read_answered hopen hcache hread]
      exact .blocks hget hcopy
  · rw [read_missed hopen hcache hread]
    exact .missed hmissed

theorem read_uncached (hopen : file.gdsInitialized = true) (hcache : file.gpuCache = none) :
    file.read {} contents offset n none = file.readFile {} contents offset n none := by
  rw [read, if_neg (by rw [hopen]; decide), hcache]

theorem slice_eq_buffer (hcached : file.cachedPtr? offset n = none) (size : Nat) :
    file.slice offset n size = ⟨.gpuBuffer, if file.copiesBlocks offset n = true then 0
      else (alignPlan file.options.gdsAlignment (file.choosePlan offset n false)).offsetInRead,
      size⟩ := by
  simp only [slice, hcached]
  split <;> rfl

theorem bytesOf_slice (hopen : file.gdsInitialized = true)
    (h : file.read {} contents offset n none = (.returned (.ok, bytes), next)) :
    next.bytesOf (file.slice offset n bytes.length) = bytes := by
  cases hcache : file.gpuCache with
  | none =>
    have hcached : file.cachedPtr? offset n = none := by simp only [cachedPtr?, hcache]
    have hcopies : file.copiesBlocks offset n = false := by simp only [copiesBlocks, hcache]
    rw [read_uncached hopen hcache] at h
    rw [slice_eq_buffer hcached, if_neg (by rw [hcopies]; decide)]
    exact read_gpuBuffer_readFile h
  | some cache =>
    have hthrough : ReadThrough file contents offset n cache _ := read_through hopen hcache
    generalize file.read {} contents offset n none = result at h hthrough
    cases hthrough with
    | block hget hsize =>
      cases h
      rw [slice, cachedPtr?_eq_some hcache hget hsize, Memory.length_read]
      rfl
    | blocks hget hcopy =>
      cases h
      have hcopies : file.copiesBlocks offset n = true := by
        simp only [copiesBlocks, hcache, hcopy, Option.isSome_some]
      rw [slice_eq_buffer (cachedPtr?_eq_none hcache hget), if_pos hcopies, Memory.length_read]
      rfl
    | @missed touched hmissed =>
      have hcopies : file.copiesBlocks offset n = false := by
        simp only [copiesBlocks, hcache, hmissed.copy, Option.isSome_none]
      have hplan : { file with gpuCache := some touched }.choosePlan offset n false =
          file.choosePlan offset n false := by
        simp only [choosePlan, hcache, Option.isSome_some]
      rw [slice_eq_buffer (cachedPtr?_eq_none hcache hmissed.get),
        if_neg (by rw [hcopies]; decide), ← hplan]
      exact read_gpuBuffer_readFile h

structure Ready (contents : FileContents) (options : GDSOptions) (file : GDSRandomAccessFile) :
    Prop where
  isOpen : file.gdsInitialized = true
  options_eq : file.options = options
  size_eq : file.fileSize = contents.1.length
  holds : ∀ cache, file.gpuCache = some cache → Holds contents.1 cache

theorem ready_openFile (contents : FileContents) (options : GDSOptions) (assertions : Bool)
    (gpuBuffer pool : Memory) :
    Ready contents options (openFile options assertions contents gpuBuffer pool) := by
  refine ⟨rfl, rfl, rfl, fun cache hcache => ?_⟩
  rw [openFile] at hcache
  split at hcache
  · cases hcache
    exact holds_create contents.1 pool
  · cases hcache

-- The reads that return their range: without a prefetch all of them do.
def Complete (file : GDSRandomAccessFile) (offset n : Nat) : Prop :=
  file.gpuCache = none ∨ file.options.enableCachePrefetch = false ∨ file.Served offset n

variable {options : GDSOptions}

theorem Open.ready (h : Open contents options file) : Ready contents options file := by
  obtain ⟨hopen, hoptions, hsize, cache, hcache, hholds⟩ := h
  refine ⟨hopen, hoptions, hsize, fun found hfound => ?_⟩
  rw [hcache] at hfound
  cases hfound
  exact hholds

theorem Ready.read (h : Ready contents options file)
    (halignment : options.gdsAlignment ∣ BLOCK_SIZE) (hn : 0 < n)
    (hle : offset + n ≤ contents.1.length) (hcomplete : file.Complete offset n) :
    ∃ next, file.read {} contents offset n none =
        (.returned (.ok, (contents.1.drop offset).take n), next) ∧
      Ready contents options next := by
  have hpos : 0 < file.options.gdsAlignment := by
    rw [h.options_eq]
    exact Nat.pos_of_dvd_of_pos halignment BLOCK_SIZE_pos
  have hbound : offset + n + file.options.gdsAlignment ≤ 2 ^ 64 :=
    bound_of_inside (h.options_eq ▸ halignment) hle
  cases hcache : file.gpuCache with
  | none =>
    have hdirect : ¬(file.gpuCache.isSome = true ∧ file.options.enableCachePrefetch = true ∧
        n < BLOCK_SIZE ∧ file.options.minReadSizeForCache ≤ n) := by
      rw [hcache]
      exact fun hsome => absurd hsome.1 (by decide)
    obtain ⟨plan, hplan, hserves, -, hsize, -⟩ := direct_plan none hpos hbound hdirect
    have hinside : offset ≤ contents.1.length := by omega
    obtain ⟨buffer, readBuffer, hread, -⟩ :=
      readFile_eq hplan hserves (Or.inl hinside) (by omega)
    rw [read_uncached h.isOpen hcache, hread, Nat.min_eq_left (by omega)]
    refine ⟨_, rfl, h.isOpen, h.options_eq, h.size_eq, fun cache hnext => ?_⟩
    simp only [cacheBlock, hcache, Option.map_none] at hnext
    cases hnext
  | some cache =>
    have hopen : Open contents options file :=
      ⟨h.isOpen, h.options_eq, h.size_eq, cache, hcache, h.holds cache hcache⟩
    have hdone : ∃ next, file.read {} contents offset n none =
        (.returned (.ok, (contents.1.drop offset).take n), next) ∧ Open contents options next := by
      by_cases hcovers : cache.Covers offset n
      · exact read_of_hit hopen hcache hn hle hcovers
      by_cases hprefetch : options.enableCachePrefetch = true
      · have hserved : file.Served offset n := by
          rcases hcomplete with hnone | hoff | hserved
          · rw [hcache] at hnone
            cases hnone
          · rw [h.options_eq, hprefetch] at hoff
            cases hoff
          · exact hserved
        exact read_of_served hopen hprefetch halignment hn hle hserved
      · exact read_of_direct hopen hcache hpos hn hbound (Or.inl (by omega)) hcovers
          (by rw [h.options_eq]; exact fun hboth => hprefetch hboth.1)
    obtain ⟨next, hread, hnext⟩ := hdone
    exact ⟨next, hread, hnext.ready⟩

-- A slice with the bytes of the file from an offset on, as long as nobody takes its place.
inductive Backed (contents : Bytes) (file : GDSRandomAccessFile) : DeviceSlice → Nat → Prop where
  | buffer {address size offset : Nat} (hread : file.gpuBuffer.read address size =
      (contents.drop offset).take size) : Backed contents file ⟨.gpuBuffer, address, size⟩ offset
  | block {cache : GPUBlockCache} {id dData length skip size : Nat}
      (hcache : file.gpuCache = some cache) (hresident : cache.Resident id dData length)
      (hskip : skip < length) (hfits : skip + size ≤ length) :
      Backed contents file ⟨.pool, dData + skip, size⟩ (id * BLOCK_SIZE + skip)

theorem Backed.bytesOf {slice : DeviceSlice} (h : Backed contents.1 file slice offset)
    (hready : Ready contents options file) :
    file.bytesOf slice = (contents.1.drop offset).take slice.size := by
  cases h with
  | buffer hread => exact hread
  | block hcache hresident hskip hfits =>
    obtain ⟨entry, hlookup, rfl, rfl⟩ := hresident
    have hread := (hready.holds _ hcache).read_block hlookup _ _ hfits
    rw [GDSRandomAccessFile.bytesOf, memory, hcache]
    exact hread

theorem Backed.part {contents : Bytes} {slice : DeviceSlice}
    (h : Backed contents file slice offset) {skip size : Nat} (hskip : skip < slice.size)
    (hfits : skip + size ≤ slice.size) :
    Backed contents file (slice.part skip size) (offset + skip) := by
  cases h with
  | @buffer address length offset hread =>
    refine .buffer ?_
    dsimp only at hskip hfits ⊢
    rw [Memory.read_skip _ _ length _ _ hfits, hread, List.drop_take, List.drop_drop,
      List.take_take, Nat.min_eq_left (by omega)]
  | @block cache id dData length inner outer hcache hresident hinner houter =>
    dsimp only at hskip hfits
    rw [DeviceSlice.part, Nat.add_assoc, Nat.add_assoc]
    exact .block hcache hresident (by omega) (by omega)

theorem block_of_cachedPtr? (h : file.cachedPtr? offset n = some cachedPtr) :
    ∃ cache block, file.gpuCache = some cache ∧
      cache.cacheMap.lookup (offset / BLOCK_SIZE) = some block ∧
      cachedPtr = block.dData + offset % BLOCK_SIZE ∧
      (offset % BLOCK_SIZE + n) % 2 ^ 64 ≤ block.size := by
  unfold cachedPtr? at h
  split at h
  case h_1 => cases h
  case h_2 cache hcache =>
    unfold tryGet at h
    dsimp only at h
    cases hlookup : cache.cacheMap.lookup (offset / BLOCK_SIZE) with
    | none =>
      simp only [hlookup] at h
      cases h
    | some block =>
      simp only [hlookup] at h
      by_cases hsmall : block.size < (offset % BLOCK_SIZE + n) % 2 ^ 64
      · simp only [if_pos hsmall] at h
        cases h
      · simp only [if_neg hsmall] at h
        split at h
        case isTrue =>
          cases h
          exact ⟨cache, block, hcache, hlookup, rfl, Nat.le_of_not_lt hsmall⟩
        case isFalse => cases h

theorem gpuBuffer_of_cached (hopen : file.gdsInitialized = true)
    (h : file.cachedPtr? offset n = some cachedPtr) :
    (file.read {} contents offset n none).2.gpuBuffer = file.gpuBuffer := by
  cases hcache : file.gpuCache with
  | none =>
    simp only [cachedPtr?, hcache] at h
    cases h
  | some cache =>
    have hthrough : ReadThrough file contents offset n cache _ := read_through hopen hcache
    generalize file.read {} contents offset n none = result at hthrough ⊢
    cases hthrough with
    | block => rfl
    | blocks hget =>
      rw [cachedPtr?_eq_none hcache hget] at h
      cases h
    | missed hmissed =>
      rw [cachedPtr?_eq_none hcache hmissed.get] at h
      cases h

theorem readFile_gpuCache (contents : FileContents) (offset n : Nat)
    (hcache : file.gpuCache = some cache) :
    ∃ next, (file.readFile {} contents offset n none).2.gpuCache = some next ∧
      (next = cache ∨ ∃ start source size, next = cache.put start source size) := by
  unfold readFile
  dsimp only
  split
  · exact ⟨cache, hcache, Or.inl rfl⟩
  unfold checkedAssert
  split
  · exact ⟨cache, hcache, Or.inl rfl⟩
  split
  · exact ⟨cache, hcache, Or.inl rfl⟩
  split
  · exact ⟨cache, hcache, Or.inl rfl⟩
  · rw [hcache]
    dsimp only [cacheBlock, Option.map_some]
    refine ⟨_, rfl, ?_⟩
    split
    · exact Or.inr ⟨_, _, _, rfl⟩
    · exact Or.inl rfl

theorem Missed.eq {cache touched : GPUBlockCache} {contents : Bytes} {buffer : Memory}
    (h : Missed cache offset n buffer touched) (hholds : Holds contents cache)
    (hbound : offset + n < 2 ^ 64) :
    touched = cache := by
  have hfirst : (cache.tryGet offset n).2 = cache := by
    have hget := h.get
    unfold tryGet at hget ⊢
    dsimp only at hget ⊢
    split at hget
    case h_1 => rfl
    case h_2 block hlookup =>
      split at hget
      case isTrue hsmall => rw [if_pos hsmall]
      case isFalse hfits =>
        have hsize := (hholds.block_size hlookup).1
        have hblock : BLOCK_SIZE = 262144 := rfl
        have hmod := Nat.mod_le offset BLOCK_SIZE
        have hless := hget _ rfl
        rw [Nat.mod_eq_of_lt (by omega)] at hfits
        rw [sub64_of_le (by omega) (by omega)] at hless
        omega
  have hcopy := h.copy
  unfold tryGetMultiBlock at hcopy
  dsimp only at hcopy
  split at hcopy
  · cases hcopy
  · split at hcopy
    · cases hcopy
    · cases hcopy
      exact hfirst

theorem resident_read (hready : Ready contents options file) (hbound : offset + n < 2 ^ 64)
    (hcache : file.gpuCache = some cache) {id dData length : Nat}
    (h : cache.Resident id dData length)
    (hkept : file.cachedPtr? offset n = none → MAX_CACHED_BLOCKS ≤ cache.cacheMap.keys.length →
      leastRecent cache.cacheMap.entries ≠ some id) :
    ∃ next, (file.read {} contents offset n none).2.gpuCache = some next ∧
      next.Resident id dData length := by
  have hthrough : ReadThrough file contents offset n cache _ :=
    read_through hready.isOpen hcache
  generalize file.read {} contents offset n none = result at hthrough ⊢
  cases hthrough with
  | block hget hsize =>
    have hnext := h.tryGet offset n
    rw [hget] at hnext
    exact ⟨_, rfl, hnext⟩
  | blocks hget hcopy =>
    have hnext := (h.tryGet offset n).tryGetMultiBlock offset n file.gpuBuffer
    rw [hcopy] at hnext
    exact ⟨_, rfl, hnext⟩
  | @missed touched hmissed =>
    obtain rfl := hmissed.eq (hready.holds cache hcache) hbound
    have hcached : { file with gpuCache := some touched }.gpuCache = some touched := rfl
    obtain ⟨next, hnext, rfl | ⟨start, source, size, rfl⟩⟩ :=
      readFile_gpuCache contents offset n hcached
    · exact ⟨_, hnext, h⟩
    · exact ⟨_, hnext, h.put start source size (hkept (cachedPtr?_eq_none hcache hmissed.get))⟩

-- A read takes the place of a slice: it goes through the buffer that the slice lies in, or a
-- full cache evicts the block that it lies in.
def Clobbers (file : GDSRandomAccessFile) (offset n : Nat) (slice : DeviceSlice) : Prop :=
  file.cachedPtr? offset n = none ∧
    match slice.region with
    | .gpuBuffer => True
    | .pool => ∃ cache id block, file.gpuCache = some cache ∧
        MAX_CACHED_BLOCKS ≤ cache.cacheMap.keys.length ∧
        leastRecent cache.cacheMap.entries = some id ∧ cache.cacheMap.lookup id = some block ∧
        block.dData ≤ slice.address ∧ slice.address < block.dData + BLOCK_SIZE

theorem Backed.read {slice : DeviceSlice} {place : Nat} (h : Backed contents.1 file slice place)
    (hready : Ready contents options file) (hbound : offset + n < 2 ^ 64)
    (hsafe : ¬file.Clobbers offset n slice) :
    Backed contents.1 (file.read {} contents offset n none).2 slice place := by
  cases h with
  | buffer hread =>
    have hcached : file.cachedPtr? offset n ≠ none := fun hnone => hsafe ⟨hnone, trivial⟩
    obtain ⟨cachedPtr, hcached⟩ := Option.ne_none_iff_exists'.mp hcached
    refine .buffer ?_
    rw [gpuBuffer_of_cached hready.isOpen hcached, hread]
  | @block cache id dData length skip size hcache hresident hskip hfits =>
    have hkept : file.cachedPtr? offset n = none →
        MAX_CACHED_BLOCKS ≤ cache.cacheMap.keys.length →
          leastRecent cache.cacheMap.entries ≠ some id := by
      intro hnone hfull hleast
      obtain ⟨block, hlookup, rfl, rfl⟩ := hresident
      have hsize := ((hready.holds cache hcache).block_size hlookup).1
      exact hsafe ⟨hnone, cache, id, block, hcache, hfull, hleast, hlookup,
        Nat.le_add_right .., Nat.add_lt_add_left (hskip.trans_le hsize) _⟩
    obtain ⟨next, hnext, hresident⟩ := resident_read hready hbound hcache hresident hkept
    exact .block hnext hresident hskip hfits

theorem backed_slice (hready : Ready contents options file)
    (hle : offset + n ≤ contents.1.length) (hn : 0 < n)
    (h : file.read {} contents offset n none =
      (.returned (.ok, (contents.1.drop offset).take n), next)) :
    Backed contents.1 next (file.slice offset n n) offset := by
  have hlength : ((contents.1.drop offset).take n).length = n := by
    rw [List.length_take, List.length_drop]
    omega
  have hbytes := bytesOf_slice hready.isOpen h
  rw [hlength] at hbytes
  have hcontents := contents.2
  have hbound : offset + n < 2 ^ 64 := by omega
  cases hcached : file.cachedPtr? offset n with
  | none =>
    rw [slice_eq_buffer hcached] at hbytes ⊢
    exact .buffer hbytes
  | some cachedPtr =>
    obtain ⟨cache, block, hcache, hlookup, rfl, hfits⟩ := block_of_cachedPtr? hcached
    have hmod := Nat.mod_le offset BLOCK_SIZE
    rw [Nat.mod_eq_of_lt (by omega)] at hfits
    have hresident : cache.Resident (offset / BLOCK_SIZE) block.dData block.size :=
      ⟨block, hlookup, rfl, rfl⟩
    obtain ⟨kept, hkept, hresident⟩ := resident_read hready hbound hcache hresident
      (fun hnone => absurd (hcached.symm.trans hnone) (Option.some_ne_none _))
    rw [h] at hkept
    have hbacked : Backed contents.1 next ⟨.pool, block.dData + offset % BLOCK_SIZE, n⟩
        (offset / BLOCK_SIZE * BLOCK_SIZE + offset % BLOCK_SIZE) :=
      .block hkept hresident (by omega) hfits
    rw [Nat.div_add_mod'] at hbacked
    rw [slice, hcached]
    exact hbacked

end GDSRandomAccessFile

end MlkvPlus.Gds
