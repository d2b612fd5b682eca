import MlkvPlus.Gds.BlockCache.Runs
import MlkvPlus.Gds.RandomAccessFile.Transparency

namespace MlkvPlus.Gds

-- The device reads up to the end of the file, or fails.
def CuFileRead.Full : CuFileRead → Prop
  | .short _ => False
  | _ => True

namespace GPUBlockCache

def tryGetSubtractions (cache : GPUBlockCache) (offset n : Nat) : List (Nat × Nat) :=
  match cache.cacheMap.lookup (offset / BLOCK_SIZE) with
  | none => []
  | some block =>
    if block.size < (offset % BLOCK_SIZE + n) % 2 ^ 64 then []
    else [(block.size, offset % BLOCK_SIZE)]

def multiBlockSubtractions (cache : GPUBlockCache) (offset n : Nat) : List (Nat × Nat) :=
  if n = 0 then []
  else
    let startBlock := offset / BLOCK_SIZE
    let endBlock := (offset + n - 1) % 2 ^ 64 / BLOCK_SIZE
    if ∀ blockId ∈ List.range' startBlock (endBlock + 1 - startBlock),
        (cache.cacheMap.lookup blockId).isSome = true then
      cache.copySubtractions n (endBlock + 1 - startBlock) startBlock 0 offset
    else []

-- The cache of a file, which stays empty if its pool could not be allocated.
def Mirrors (contents : Bytes) (cache : GPUBlockCache) : Prop :=
  Holds contents cache ∨ Unused cache

variable {contents : Bytes} {cache : GPUBlockCache} {offset n : Nat}

theorem Mirrors.apply (h : Mirrors contents cache) (hputs : operation.PutsFrom contents) :
    Mirrors contents (cache.apply operation) :=
  h.imp (fun hholds => hholds.apply hputs) fun hunused => hunused.apply operation

theorem Mirrors.lookup (h : Mirrors contents cache)
    (hlookup : cache.cacheMap.lookup blockId = some block) : Holds contents cache := by
  rcases h with hholds | hunused
  · exact hholds
  · rw [hunused.lookup] at hlookup
    cases hlookup

theorem Mirrors.answers (h : Mirrors contents cache) (hcontents : contents.length < 2 ^ 63)
    (hle : offset + n ≤ contents.length) : Answers contents cache offset n := by
  rcases h with hholds | hunused
  · exact hholds.answers hcontents hle
  · exact hunused.answers (by omega)

theorem covers_touch (hlookup : cache.cacheMap.lookup blockId = some entry) :
    (cache.touch blockId entry).Covers offset n ↔ cache.Covers offset n := by
  simp only [Covers, touch_isSome hlookup]

theorem tryGetSubtractions_noWrap (cache : GPUBlockCache) (hbound : offset + n < 2 ^ 64) :
    NoWrap (cache.tryGetSubtractions offset n) := by
  rw [tryGetSubtractions]
  split
  case h_1 => exact List.forall_mem_nil _
  case h_2 block hlookup =>
    split
    case isTrue => exact List.forall_mem_nil _
    case isFalse hfits =>
      have hmod := Nat.mod_le offset BLOCK_SIZE
      rw [Nat.mod_eq_of_lt (by omega)] at hfits
      exact List.forall_mem_singleton.mpr (by dsimp only; omega)

theorem multiBlockSubtractions_noWrap (h : Mirrors contents cache)
    (hcontents : contents.length < 2 ^ 63) (hbound : offset + n < 2 ^ 64)
    (hinside : 0 < n → cache.Covers offset n → offset + n ≤ contents.length) :
    NoWrap (cache.multiBlockSubtractions offset n) := by
  rw [multiBlockSubtractions]
  split
  case isTrue => exact List.forall_mem_nil _
  case isFalse hpos =>
    have hn : 0 < n := Nat.pos_of_ne_zero hpos
    have hend : (offset + n - 1) % 2 ^ 64 = offset + n - 1 := Nat.mod_eq_of_lt (by omega)
    dsimp only
    rw [hend]
    split
    case isFalse => exact List.forall_mem_nil _
    case isTrue hall =>
      have hcovers := (required_iff_covers cache offset n).mp hall
      have hlast : offset / BLOCK_SIZE ≤ (offset + n - 1) / BLOCK_SIZE :=
        Nat.div_le_div_right (by omega)
      obtain ⟨block, hlookup⟩ := Option.isSome_iff_exists.mp (hcovers _ le_rfl hlast)
      exact ((h.lookup hlookup).copyBlocks_range hcontents hn (hinside hn hcovers) hcovers
        cache.pool).2.2.2

end GPUBlockCache

namespace GDSRandomAccessFile

open GPUBlockCache

variable {contents : FileContents} {options : GDSOptions} {file : GDSRandomAccessFile}
  {offset n : Nat}

section Cache

variable {cache : GPUBlockCache}

-- A slice of the wanted length that has the bytes of the file, if the range is inside it.
def Returned (contents : FileContents) (offset n : Nat) (bytes : Bytes) : Prop :=
  bytes.length = n ∧
    (offset + n ≤ contents.1.length → bytes = (contents.1.drop offset).take n)

theorem tryGetMultiBlock_cases (h : Mirrors contents.1 cache) (offset n : Nat)
    (output : Memory) :
    (∃ result next, cache.tryGetMultiBlock offset n output = (some result, next) ∧
      Mirrors contents.1 next ∧ Returned contents offset n (result.read 0 n)) ∨
    ∃ next, cache.tryGetMultiBlock offset n output = (none, next) ∧ Mirrors contents.1 next := by
  have hnext : Mirrors contents.1 (cache.tryGetMultiBlock offset n output).2 :=
    @Mirrors.apply _ _ (.tryGetMultiBlock offset n output) h trivial
  have hmany : offset + n ≤ contents.1.length → ∀ result,
      (cache.tryGetMultiBlock offset n output).1 = some result →
        result.read 0 n = (contents.1.drop offset).take n :=
    fun hle => (h.answers contents.2 hle).many output
  generalize cache.tryGetMultiBlock offset n output = answer at hnext hmany ⊢
  obtain ⟨_ | result, next⟩ := answer
  · exact Or.inr ⟨next, rfl, hnext⟩
  · exact Or.inl ⟨result, next, rfl, hnext, Memory.length_read .., fun hle => hmany hle result rfl⟩

theorem multiBlock_cases (env : ReadEnv) (h : Mirrors contents.1 cache) (gpuBuffer : Memory)
    (offset n : Nat) (scratch : Option Memory) :
    (∃ bytes buffer next,
      readCached.multiBlock env gpuBuffer offset n scratch cache = (some bytes, buffer, next) ∧
        Mirrors contents.1 next ∧ Returned contents offset n bytes) ∨
    ∃ next, readCached.multiBlock env gpuBuffer offset n scratch cache = (none, gpuBuffer, next) ∧
      Mirrors contents.1 next := by
  cases scratch with
  | some scratch =>
    rw [readCached.multiBlock]
    rcases tryGetMultiBlock_cases h offset n scratch with ⟨result, next, hget, hnext, hbytes⟩ |
      ⟨next, hget, hnext⟩
    · rw [hget]
      exact Or.inl ⟨_, _, _, rfl, hnext, hbytes⟩
    · rw [hget]
      exact Or.inr ⟨_, rfl, hnext⟩
  | none =>
    rw [readCached.multiBlock]
    by_cases hbuffer : env.buffer = true
    · rw [if_pos hbuffer]
      rcases tryGetMultiBlock_cases h offset n gpuBuffer with
        ⟨result, next, hget, hnext, hbytes⟩ | ⟨next, hget, hnext⟩
      · rw [hget]
        exact Or.inl ⟨_, _, _, rfl, hnext, hbytes⟩
      · rw [hget]
        exact Or.inr ⟨_, rfl, hnext⟩
    · rw [if_neg hbuffer]
      exact Or.inr ⟨_, rfl, h⟩

theorem readCached_returned (env : ReadEnv) (h : Mirrors contents.1 cache) (gpuBuffer : Memory)
    (offset n : Nat) (scratch : Option Memory) :
    (∃ bytes buffer next,
      readCached env cache gpuBuffer offset n scratch = (some bytes, buffer, next) ∧
        Mirrors contents.1 next ∧ Returned contents offset n bytes) ∨
    ∃ next, readCached env cache gpuBuffer offset n scratch = (none, gpuBuffer, next) ∧
      Mirrors contents.1 next := by
  have hnext : Mirrors contents.1 (cache.tryGet offset n).2 :=
    @Mirrors.apply _ _ (.tryGet offset n) h trivial
  have hone : offset + n ≤ contents.1.length → Answers contents.1 cache offset n :=
    h.answers contents.2
  rw [readCached]
  generalize hget : cache.tryGet offset n = result at hnext
  cases hget ▸ cache.tryGet_step offset n with
  | miss => exact multiBlock_cases env hnext gpuBuffer offset n scratch
  | @hit block hlookup hfits =>
    dsimp only
    split
    case isFalse => exact multiBlock_cases env hnext gpuBuffer offset n scratch
    case isTrue hsize =>
      refine Or.inl ⟨_, _, _, rfl, hnext, Memory.length_read .., fun hle => ?_⟩
      obtain ⟨hlength, hread⟩ := (hone hle).one _ _ (congrArg Prod.fst hget)
      rw [hlength] at hread
      exact hread

end Cache

-- The reads that take a whole cache block.
def Prefetches (file : GDSRandomAccessFile) (n : Nat) : Prop :=
  file.gpuCache.isSome = true ∧ file.options.enableCachePrefetch = true ∧ n < BLOCK_SIZE ∧
    file.options.minReadSizeForCache ≤ n

theorem alignPlan_readOffset (plan : ReadPlan) (haligned : plan.readOffset % alignment = 0) :
    (alignPlan alignment plan).readOffset = plan.readOffset := by
  rw [alignPlan, if_neg (not_not.mpr haligned)]
  split <;> rfl

theorem choosePlan_readOffset (file : GDSRandomAccessFile) (hprefetch : file.Prefetches n)
    (offset : Nat) (hasScratch : Bool) :
    (file.choosePlan offset n hasScratch).readOffset = offset / BLOCK_SIZE * BLOCK_SIZE :=
  congrArg ReadPlan.readOffset (if_pos hprefetch)

theorem filePlan_shouldPrefetch_iff (file : GDSRandomAccessFile) (offset n : Nat)
    (scratch : Option Memory) :
    (file.filePlan offset n scratch).shouldPrefetch = true ↔ file.Prefetches n := by
  rw [filePlan, (alignPlan_flags _ _).1, choosePlan]
  split
  case isTrue hprefetch => exact iff_of_true rfl hprefetch
  case isFalse hdirect =>
    refine iff_of_false ?_ hdirect
    split <;> exact Bool.false_ne_true

-- The subtractions of the read from the file: `file_size_ - block_start` in front of it, and
-- `bytes_read - offset_in_read` behind it.
def fileSubtractions (env : ReadEnv) (contents : FileContents) (file : GDSRandomAccessFile)
    (offset n : Nat) (scratch : Option Memory) : List (Nat × Nat) :=
  let plan := file.filePlan offset n scratch
  (if plan.shouldPrefetch = true then [(file.fileSize, offset / BLOCK_SIZE * BLOCK_SIZE)] else []) ++
    if plan.needTempBuffer = true ∧ env.buffer = false then []
    else
      match readData env.read contents.1 plan with
      | .error _ => []
      | .ok data => [(data.length, plan.offsetInRead)]

def cachedSubtractions (env : ReadEnv) (cache : GPUBlockCache) (offset n : Nat)
    (scratch : Option Memory) : List (Nat × Nat) :=
  cache.tryGetSubtractions offset n ++
    match cache.tryGet offset n with
    | (some (_, cachedSize), cache) => if n ≤ cachedSize then [] else multiBlock cache
    | (none, cache) => multiBlock cache
where
  multiBlock (cache : GPUBlockCache) : List (Nat × Nat) :=
    if scratch.isSome = true ∨ env.buffer = true then cache.multiBlockSubtractions offset n else []

-- The length computations of the GPU overload.
def readSubtractions (env : ReadEnv) (contents : FileContents) (file : GDSRandomAccessFile)
    (offset n : Nat) (scratch : Option Memory) : List (Nat × Nat) :=
  match file.gpuCache with
  | none => file.fileSubtractions env contents offset n scratch
  | some cache =>
    cachedSubtractions env cache offset n scratch ++
      match readCached env cache file.gpuBuffer offset n scratch with
      | (some _, _, _) => []
      | (none, gpuBuffer, cache) =>
        { file with gpuBuffer := gpuBuffer, gpuCache := some cache }.fileSubtractions env
          contents offset n scratch

-- The one of the host overload is guarded.
def hostSubtractions (env : HostReadEnv) (contents : FileContents) (file : GDSRandomAccessFile)
    (offset n : Nat) : List (Nat × Nat) :=
  let alignment := file.options.gdsAlignment
  let plan := hostPlan alignment offset n
  match readData env.read contents.1 plan with
  | .error _ => []
  | .ok data =>
    if ¬(offset % alignment = 0 ∧ n % alignment = 0) ∧ plan.offsetInRead < data.length then
      [(data.length, plan.offsetInRead)]
    else []

-- What holds of an open file between reads.
structure Reached (contents : FileContents) (options : GDSOptions) (file : GDSRandomAccessFile) :
    Prop where
  isOpen : file.gdsInitialized = true
  options_eq : file.options = options
  size_eq : file.fileSize = contents.1.length
  cached : ∀ cache, file.gpuCache = some cache → Mirrors contents.1 cache

-- A read that does not fail goes as if every call had succeeded.
theorem readFile_cases (hfull : env.read.Full) (file : GDSRandomAccessFile) (offset n : Nat)
    (scratch : Option Memory) :
    file.readFile env contents offset n scratch = file.readFile {} contents offset n scratch ∨
      ∃ message, file.readFile env contents offset n scratch =
        (.returned (.ioError message, []), file) := by
  rw [readFile, readFile]
  dsimp only
  generalize alignPlan file.options.gdsAlignment (file.choosePlan offset n scratch.isSome) = plan
  have hallocated : ¬(plan.needTempBuffer = true ∧ true = false) := fun h => Bool.noConfusion h.2
  by_cases hbuffer : plan.needTempBuffer = true ∧ env.buffer = false
  · rw [if_pos hbuffer]
    exact Or.inr ⟨_, rfl⟩
  · rw [if_neg hbuffer, if_neg hallocated]
    cases hread : env.read with
    | complete => exact Or.inl rfl
    | short count =>
      rw [hread] at hfull
      exact hfull.elim
    | failed code =>
      rw [checkedAssert, checkedAssert, checkedAssert, checkedAssert]
      split
      · exact Or.inl rfl
      · split
        · exact Or.inl rfl
        · exact Or.inr ⟨_, rfl⟩

theorem prefetched_putsFrom (hfile : file.fileSize = contents.1.length)
    (halignment : file.options.gdsAlignment ∣ BLOCK_SIZE) {scratch : Option Memory}
    {plan : ReadPlan} (hplan : file.filePlan offset n scratch = plan)
    (hprefetch : plan.shouldPrefetch = true) {data : Bytes}
    (hdata : data = (contents.1.drop plan.readOffset).take plan.readN) (hpos : 0 < data.length)
    (target : Memory) :
    (Operation.put (offset / BLOCK_SIZE * BLOCK_SIZE) (target.store 0 data)
      (min data.length BLOCK_SIZE)).PutsFrom contents.1 := by
  have hprefetches := (file.filePlan_shouldPrefetch_iff offset n scratch).mp (hplan ▸ hprefetch)
  have haligned : offset / BLOCK_SIZE * BLOCK_SIZE % file.options.gdsAlignment = 0 :=
    Nat.mod_eq_zero_of_dvd (halignment.mul_left _)
  have hstart : plan.readOffset = offset / BLOCK_SIZE * BLOCK_SIZE := by
    have hchosen := file.choosePlan_readOffset hprefetches offset scratch.isSome
    rw [← hplan, filePlan, alignPlan_readOffset _ (hchosen ▸ haligned), hchosen]
  have hlength : data.length = min plan.readN (contents.1.length - plan.readOffset) := by
    rw [hdata, List.length_take, List.length_drop]
  have hinside : offset / BLOCK_SIZE * BLOCK_SIZE < contents.1.length := by omega
  obtain ⟨found, hfound, -, -, -, hblock, hend⟩ :=
    prefetch_plan scratch hfile halignment hinside.le hprefetches
  rw [← hfound.symm.trans hplan] at hlength hdata hstart
  rw [hstart] at hlength hdata
  rw [min_of_prefetched hblock hend] at hlength
  have hcapped : min data.length BLOCK_SIZE = data.length := by omega
  rw [hcapped]
  refine ⟨Nat.dvd_mul_left _ _, hinside, hlength, ?_⟩
  rw [Memory.read_store_self]
  refine hdata.trans ?_
  rw [List.take_eq_take_iff, List.length_drop, hlength, min_of_prefetched hblock hend,
    Nat.min_assoc, Nat.min_self]

theorem Reached.readFile (h : Reached contents options file)
    (halignment : options.gdsAlignment ∣ BLOCK_SIZE) (offset n : Nat) (scratch : Option Memory) :
    Reached contents options (file.readFile {} contents offset n scratch).2 := by
  obtain ⟨hopen, hoptions, hsize, hcached⟩ := h
  rw [← hoptions] at halignment
  rw [GDSRandomAccessFile.readFile]
  dsimp only
  generalize hplan : alignPlan file.options.gdsAlignment (file.choosePlan offset n scratch.isSome) =
    plan
  rw [checkedAssert, checkedAssert, readData]
  split
  · exact ⟨hopen, hoptions, hsize, hcached⟩
  split
  · exact ⟨hopen, hoptions, hsize, hcached⟩
  split
  · exact ⟨hopen, hoptions, hsize, hcached⟩
  · refine ⟨hopen, hoptions, hsize, fun cache hcache => ?_⟩
    obtain ⟨before, hbefore, rfl⟩ := Option.map_eq_some_iff.mp hcache
    split
    case isFalse => exact hcached before hbefore
    case isTrue hput =>
      exact (hcached before hbefore).apply
        (prefetched_putsFrom hsize halignment hplan hput.2 rfl hput.1 _)

theorem Reached.read (h : Reached contents options file)
    (halignment : options.gdsAlignment ∣ BLOCK_SIZE) (hfull : env.read.Full) (offset n : Nat)
    (scratch : Option Memory) :
    Reached contents options (file.read env contents offset n scratch).2 := by
  have hfile : ∀ file, Reached contents options file →
      Reached contents options (file.readFile env contents offset n scratch).2 := by
    intro file h
    rcases readFile_cases hfull file offset n scratch with heq | ⟨message, heq⟩
    · rw [heq]
      exact h.readFile halignment offset n scratch
    · rw [heq]
      exact h
  rw [GDSRandomAccessFile.read, if_neg (by rw [h.isOpen]; decide)]
  cases hcache : file.gpuCache with
  | none => exact hfile file h
  | some cache =>
    rcases readCached_returned env (h.cached cache hcache) file.gpuBuffer offset n scratch with
      ⟨bytes, buffer, next, heq, hnext, -⟩ | ⟨next, heq, hnext⟩
    · dsimp only
      rw [heq]
      exact ⟨h.isOpen, h.options_eq, h.size_eq, fun found hfound => Option.some.inj hfound ▸ hnext⟩
    · dsimp only
      rw [heq]
      exact hfile _
        ⟨h.isOpen, h.options_eq, h.size_eq, fun found hfound => Option.some.inj hfound ▸ hnext⟩

theorem Reached.readHost (h : Reached contents options file) (env : HostReadEnv) (offset n : Nat)
    (scratch : Option Memory) :
    Reached contents options (file.readHost env contents offset n scratch).2 := by
  obtain ⟨hopen, hoptions, hsize, hcached⟩ := h
  unfold GDSRandomAccessFile.readHost
  dsimp only
  rw [if_neg (by rw [hopen]; decide)]
  split
  · exact ⟨hopen, hoptions, hsize, hcached⟩
  · exact ⟨hopen, hoptions, hsize, hcached⟩
  · rw [checkedAssert, checkedAssert]
    split
    · exact ⟨hopen, hoptions, hsize, hcached⟩
    · split
      · exact ⟨hopen, hoptions, hsize, hcached⟩
      · split
        · exact ⟨hopen, hoptions, hsize, hcached⟩
        · split <;> exact ⟨hopen, hoptions, hsize, hcached⟩

inductive Request where
  | gpu (env : ReadEnv) (offset n : Nat) (scratch : Option Memory)
  | host (env : HostReadEnv) (offset n : Nat) (scratch : Option Memory)

def Request.Full : Request → Prop
  | .gpu env _ _ _ => env.read.Full
  | .host env _ _ _ => env.read.Full

def perform (contents : FileContents) (file : GDSRandomAccessFile) :
    Request → GDSRandomAccessFile
  | .gpu env offset n scratch => (file.read env contents offset n scratch).2
  | .host env offset n scratch => (file.readHost env contents offset n scratch).2

def performAll (contents : FileContents) (file : GDSRandomAccessFile) (requests : List Request) :
    GDSRandomAccessFile :=
  requests.foldl (perform contents) file

-- A file as the constructor leaves it, whose cache has its pool or not.
def construct (options : GDSOptions) (assertions poolAllocated : Bool) (contents : FileContents)
    (gpuBuffer pool : Memory) : GDSRandomAccessFile :=
  { openFile options assertions contents gpuBuffer pool with
    gpuCache := if options.enableGPUCache = true then
        some (GPUBlockCache.construct poolAllocated pool)
      else none }

theorem reached_construct (options : GDSOptions) (assertions poolAllocated : Bool)
    (contents : FileContents) (gpuBuffer pool : Memory) :
    Reached contents options
      (construct options assertions poolAllocated contents gpuBuffer pool) := by
  refine ⟨rfl, rfl, rfl, fun cache hcache => ?_⟩
  rw [construct] at hcache
  dsimp only at hcache
  split at hcache
  case isFalse => cases hcache
  case isTrue =>
    rw [← Option.some.inj hcache]
    cases poolAllocated with
    | true => exact Or.inl (holds_create contents.1 pool)
    | false => exact Or.inr ⟨rfl, rfl, rfl, rfl⟩

theorem Reached.performAll (halignment : options.gdsAlignment ∣ BLOCK_SIZE)
    (hfull : ∀ request ∈ requests, request.Full) (h : Reached contents options file) :
    Reached contents options (file.performAll contents requests) := by
  induction requests generalizing file with
  | nil => exact h
  | cons request rest ih =>
    obtain ⟨hfirst, hrest⟩ := List.forall_mem_cons.mp hfull
    refine ih hrest ?_
    cases request with
    | gpu env offset n scratch => exact h.read halignment hfirst offset n scratch
    | host env offset n scratch => exact h.readHost env offset n scratch

-- When the read from the file computes its lengths without a wrap: at the end of the file at
-- last, or behind it at an aligned offset and without a prefetch.
def FileSafe (contents : FileContents) (file : GDSRandomAccessFile) (offset n : Nat) : Prop :=
  offset ≤ contents.1.length ∨ ¬file.Prefetches n ∧ file.options.gdsAlignment ∣ offset

section Lengths

variable (hfile : file.fileSize = contents.1.length)
  (halignment : file.options.gdsAlignment ∣ BLOCK_SIZE)
  (hbound : offset + n + file.options.gdsAlignment ≤ 2 ^ 64)

include hfile halignment hbound

theorem FileSafe.plan (hsafe : FileSafe contents file offset n) (scratch : Option Memory) :
    Serves file.options.gdsAlignment offset (file.filePlan offset n scratch) ∧
      (offset ≤ contents.1.length ∨ (file.filePlan offset n scratch).offsetInRead = 0) ∧
      (file.filePlan offset n scratch).offsetInRead ≤ (file.filePlan offset n scratch).readN := by
  have hlow := block_start_le offset
  have hhigh := lt_block_end offset
  by_cases hprefetch : file.Prefetches n
  · have hinside := hsafe.resolve_right fun h => h.1 hprefetch
    obtain ⟨plan, hplan, hserves, hstart, -, hblock, hend⟩ :=
      prefetch_plan scratch hfile halignment (hlow.trans hinside) hprefetch
    have hserved := hserves.start
    rw [filePlan, hplan]
    exact ⟨hserves, Or.inl hinside, by omega⟩
  · obtain ⟨plan, hplan, hserves, hzero, hsize, -⟩ :=
      direct_plan scratch (Nat.pos_of_dvd_of_pos halignment BLOCK_SIZE_pos) hbound hprefetch
    rw [filePlan, hplan]
    exact ⟨hserves, hsafe.imp_right fun h => hzero h.2, by omega⟩

theorem FileSafe.readFile (hsafe : FileSafe contents file offset n) (scratch : Option Memory) :
    ∃ count next, file.readFile {} contents offset n scratch =
      (.returned (.ok, (contents.1.drop offset).take count), next) := by
  obtain ⟨hserves, hinside, hreach⟩ := hsafe.plan hfile halignment hbound scratch
  obtain ⟨buffer, readBuffer, hread, -⟩ := readFile_eq rfl hserves hinside hreach
  exact ⟨_, _, hread⟩

theorem FileSafe.noWrap (hsafe : FileSafe contents file offset n) (hfull : env.read.Full)
    (scratch : Option Memory) : NoWrap (file.fileSubtractions env contents offset n scratch) := by
  obtain ⟨hserves, hinside, hreach⟩ := hsafe.plan hfile halignment hbound scratch
  have hstart := hserves.start
  refine List.forall_mem_append.mpr ⟨?_, ?_⟩
  · split
    case isFalse => exact List.forall_mem_nil _
    case isTrue hprefetch =>
      have hprefetches := (file.filePlan_shouldPrefetch_iff offset n scratch).mp hprefetch
      have hlow := block_start_le offset
      have hle := hsafe.resolve_right fun h => h.1 hprefetches
      exact List.forall_mem_singleton.mpr (hfile ▸ hlow.trans hle)
  · split
    case isTrue => exact List.forall_mem_nil _
    case isFalse =>
      cases hread : env.read with
      | complete =>
        refine List.forall_mem_singleton.mpr ?_
        dsimp only
        rw [List.length_take, List.length_drop]
        omega
      | short count =>
        rw [hread] at hfull
        exact hfull.elim
      | failed code => exact List.forall_mem_nil _

-- Behind the end of the file less is read than lies in front of the range.
theorem fileSafe_of_noWrap (hnoWrap : NoWrap (file.fileSubtractions {} contents offset n scratch)) :
    FileSafe contents file offset n := by
  obtain ⟨hfirst, hsecond⟩ := List.forall_mem_append.mp hnoWrap
  have hallocated : ¬((file.filePlan offset n scratch).needTempBuffer = true ∧
      ({} : ReadEnv).buffer = false) := fun h => Bool.noConfusion h.2
  rw [if_neg hallocated] at hsecond
  have hread : (file.filePlan offset n scratch).offsetInRead ≤
      min (file.filePlan offset n scratch).readN
        (contents.1.length - (file.filePlan offset n scratch).readOffset) := by
    have hpair := hsecond _ (List.mem_singleton_self _)
    dsimp only at hpair
    rwa [List.length_take, List.length_drop] at hpair
  by_cases hprefetch : file.Prefetches n
  · have hshould := (file.filePlan_shouldPrefetch_iff offset n scratch).mpr hprefetch
    rw [if_pos hshould] at hfirst
    have hlow := hfirst _ (List.mem_singleton_self _)
    dsimp only at hlow
    rw [hfile] at hlow
    obtain ⟨plan, hplan, hserves, hblock, -⟩ := prefetch_plan scratch hfile halignment hlow hprefetch
    have hstart := hserves.start
    rw [filePlan, hplan] at hread
    exact Or.inl (by omega)
  · obtain ⟨plan, hplan, hserves, hzero, hsize, -⟩ :=
      direct_plan scratch (Nat.pos_of_dvd_of_pos halignment BLOCK_SIZE_pos) hbound hprefetch
    have hstart := hserves.start
    rw [filePlan, hplan] at hread
    by_cases hinside : offset ≤ contents.1.length
    · exact Or.inl hinside
    · refine Or.inr ⟨hprefetch, ?_⟩
      have hnone : plan.offsetInRead = 0 := by omega
      rw [← hstart, hnone]
      exact Nat.dvd_of_mod_eq_zero hserves.offset_aligned

end Lengths

section Answers

variable {cache : GPUBlockCache}

theorem readCached_none (env : ReadEnv) (h : Mirrors contents.1 cache) (hn : 0 < n)
    (hbound : offset + n < 2 ^ 64) (hcovers : ¬cache.Covers offset n) (gpuBuffer : Memory)
    (scratch : Option Memory) :
    readCached env cache gpuBuffer offset n scratch = (none, gpuBuffer, cache) := by
  rcases h with hholds | hunused
  · exact readCached_miss env hholds hn hbound hcovers gpuBuffer scratch
  · refine readCached_of_miss env hn hbound hcovers ?_ gpuBuffer scratch
    rw [tryGet, hunused.lookup]

theorem tryGetMultiBlock_isSome (hbound : offset + n < 2 ^ 64)
    (hcovers : n = 0 ∨ cache.Covers offset n) (output : Memory) :
    (cache.tryGetMultiBlock offset n output).1.isSome = true := by
  rw [tryGetMultiBlock]
  by_cases hzero : n = 0
  · rw [if_pos hzero]
    rfl
  · have hend : (offset + n - 1) % 2 ^ 64 = offset + n - 1 := Nat.mod_eq_of_lt (by omega)
    rw [if_neg hzero, hend]
    dsimp only
    rw [if_pos ((required_iff_covers cache offset n).mpr (hcovers.resolve_left hzero))]
    rfl

theorem readCached_isSome (env : ReadEnv) (scratch : Option Memory)
    (hroom : scratch.isSome = true ∨ env.buffer = true) (hbound : offset + n < 2 ^ 64)
    (hcovers : n = 0 ∨ cache.Covers offset n) (gpuBuffer : Memory) :
    (readCached env cache gpuBuffer offset n scratch).1.isSome = true := by
  have hmulti : ∀ next : GPUBlockCache, (n = 0 ∨ next.Covers offset n) →
      (readCached.multiBlock env gpuBuffer offset n scratch next).1.isSome = true := by
    intro next hnext
    cases scratch with
    | some scratch =>
      have hsome := tryGetMultiBlock_isSome hbound hnext scratch
      rw [readCached.multiBlock]
      generalize next.tryGetMultiBlock offset n scratch = answer at hsome ⊢
      obtain ⟨_ | result, last⟩ := answer
      · cases hsome
      · rfl
    | none =>
      have hsome := tryGetMultiBlock_isSome hbound hnext gpuBuffer
      rw [readCached.multiBlock, if_pos (hroom.resolve_left Bool.false_ne_true)]
      generalize next.tryGetMultiBlock offset n gpuBuffer = answer at hsome ⊢
      obtain ⟨_ | result, last⟩ := answer
      · cases hsome
      · rfl
  rw [readCached]
  generalize hget : cache.tryGet offset n = result
  cases hget ▸ cache.tryGet_step offset n with
  | miss => exact hmulti cache hcovers
  | @hit block hlookup hfits =>
    dsimp only
    split
    · rfl
    · exact hmulti _ (hcovers.imp_right (covers_touch hlookup).mpr)

theorem cachedSubtractions_noWrap (env : ReadEnv) (h : Mirrors contents.1 cache)
    (hbound : offset + n < 2 ^ 64)
    (hinside : 0 < n → cache.Covers offset n → offset + n ≤ contents.1.length)
    (scratch : Option Memory) : NoWrap (cachedSubtractions env cache offset n scratch) := by
  have hmulti : ∀ next : GPUBlockCache, Mirrors contents.1 next →
      (next.Covers offset n ↔ cache.Covers offset n) →
        NoWrap (cachedSubtractions.multiBlock env offset n scratch next) := by
    intro next hnext hsame
    rw [cachedSubtractions.multiBlock]
    split
    · exact multiBlockSubtractions_noWrap hnext contents.2 hbound
        fun hn hcovers => hinside hn (hsame.mp hcovers)
    · exact List.forall_mem_nil _
  have hnext : Mirrors contents.1 (cache.tryGet offset n).2 :=
    @Mirrors.apply _ _ (.tryGet offset n) h trivial
  refine List.forall_mem_append.mpr ⟨tryGetSubtractions_noWrap cache hbound, ?_⟩
  generalize hget : cache.tryGet offset n = result at hnext ⊢
  cases hget ▸ cache.tryGet_step offset n with
  | miss => exact hmulti cache h Iff.rfl
  | @hit block hlookup hfits =>
    dsimp only
    split
    · exact List.forall_mem_nil _
    · exact hmulti _ hnext (covers_touch hlookup)

end Answers

-- The cache answers a read of nothing, and a read of blocks that it has.
def CacheAnswers (file : GDSRandomAccessFile) (offset n : Nat) : Prop :=
  ∃ cache, file.gpuCache = some cache ∧ (n = 0 ∨ cache.Covers offset n)

-- When the GPU overload stays inside the file.
structure ReadSafe (contents : FileContents) (file : GDSRandomAccessFile) (offset n : Nat) :
    Prop where
  answered : file.CacheAnswers offset n → 0 < n → offset + n ≤ contents.1.length
  -- a read of nothing goes on to the file if there is no memory for the copy
  empty : file.CacheAnswers offset n → n = 0 → file.Prefetches n →
    offset / BLOCK_SIZE * BLOCK_SIZE ≤ contents.1.length
  missed : ¬file.CacheAnswers offset n → FileSafe contents file offset n

def Within (contents : FileContents) (offset : Nat) (bytes : Bytes) : Prop :=
  bytes.length ≤ contents.1.length - offset ∧ bytes = (contents.1.drop offset).take bytes.length

theorem within_take (contents : FileContents) (offset count : Nat) :
    Within contents offset ((contents.1.drop offset).take count) := by
  constructor
  · rw [List.length_take, List.length_drop]
    omega
  · rw [List.take_eq_take_iff, List.length_take]
    omega

section GpuOverload

variable {env : ReadEnv} {scratch : Option Memory}

theorem FileSafe.reads (h : FileSafe contents file offset n)
    (hfile : file.fileSize = contents.1.length)
    (halignment : file.options.gdsAlignment ∣ BLOCK_SIZE)
    (hbound : offset + n + file.options.gdsAlignment ≤ 2 ^ 64) (hfull : env.read.Full)
    (scratch : Option Memory) :
    (∀ bytes, (file.readFile env contents offset n scratch).1 = .returned (.ok, bytes) →
      Within contents offset bytes) ∧
    NoWrap (file.fileSubtractions env contents offset n scratch) := by
  refine ⟨fun bytes hread => ?_, h.noWrap hfile halignment hbound hfull scratch⟩
  rcases readFile_cases hfull file offset n scratch with heq | ⟨message, heq⟩
  · obtain ⟨count, next, hok⟩ := h.readFile hfile halignment hbound scratch
    rw [heq, hok] at hread
    cases hread
    exact within_take contents offset count
  · rw [heq] at hread
    cases hread

-- Without memory for a temporary buffer only the prefetch has computed a length.
theorem readFile_without_buffer (env : ReadEnv) (contents : FileContents)
    (file : GDSRandomAccessFile) (offset n : Nat) (hbuffer : env.buffer = false) :
    file.readFile env contents offset n none =
        (.returned (.ioError "Failed to ensure GPU buffer", []), file) ∧
      (NoWrap (file.fileSubtractions env contents offset n none) ↔
        (file.Prefetches n → offset / BLOCK_SIZE * BLOCK_SIZE ≤ file.fileSize)) := by
  have htemp := file.filePlan_needTempBuffer offset n
  have hshould := file.filePlan_shouldPrefetch_iff offset n none
  constructor
  · exact if_pos ⟨htemp, hbuffer⟩
  · have hfailed : (file.filePlan offset n none).needTempBuffer = true ∧ env.buffer = false :=
      ⟨htemp, hbuffer⟩
    rw [fileSubtractions, if_pos hfailed, List.append_nil, ← hshould]
    split
    case isTrue hprefetch =>
      rw [NoWrap, List.forall_mem_singleton]
      exact ⟨fun hle _ => hle, fun hle => hle hprefetch⟩
    case isFalse hdirect =>
      exact iff_of_true (List.forall_mem_nil _) fun hprefetch => absurd hprefetch hdirect

variable {cache : GPUBlockCache}

theorem prefetches_congr (hcache : file.gpuCache = some cache) (next : GPUBlockCache) :
    { file with gpuCache := some next }.Prefetches n ↔ file.Prefetches n := by
  rw [Prefetches, Prefetches, hcache]
  rfl

theorem ReadSafe.fileSafe (h : ReadSafe contents file offset n) (hn : 0 < n) :
    FileSafe contents file offset n := by
  by_cases hanswers : file.CacheAnswers offset n
  · have hle := h.answered hanswers hn
    exact Or.inl (by omega)
  · exact h.missed hanswers

theorem read_of_answer (contents : FileContents) (hopen : file.gdsInitialized = true)
    (hcache : file.gpuCache = some cache)
    (heq : readCached env cache file.gpuBuffer offset n scratch = (some bytes, buffer, next)) :
    (file.read env contents offset n scratch).1 = .returned (.ok, bytes) ∧
      file.readSubtractions env contents offset n scratch =
        cachedSubtractions env cache offset n scratch := by
  rw [GDSRandomAccessFile.read, readSubtractions, if_neg (by rw [hopen]; decide), hcache]
  dsimp only
  rw [heq]
  exact ⟨rfl, List.append_nil _⟩

theorem read_of_none (contents : FileContents) (hopen : file.gdsInitialized = true)
    (hcache : file.gpuCache = some cache)
    (heq : readCached env cache file.gpuBuffer offset n scratch = (none, file.gpuBuffer, next)) :
    file.read env contents offset n scratch =
        { file with gpuCache := some next }.readFile env contents offset n scratch ∧
      file.readSubtractions env contents offset n scratch =
        cachedSubtractions env cache offset n scratch ++
          { file with gpuCache := some next }.fileSubtractions env contents offset n scratch := by
  rw [GDSRandomAccessFile.read, readSubtractions, if_neg (by rw [hopen]; decide), hcache]
  dsimp only
  rw [heq]
  exact ⟨rfl, rfl⟩

theorem Returned.within (h : Returned contents offset n bytes)
    (hinside : 0 < n → offset + n ≤ contents.1.length) : Within contents offset bytes := by
  obtain ⟨hlength, hbytes⟩ := h
  rcases Nat.eq_zero_or_pos n with hzero | hn
  · rw [hzero, List.length_eq_zero_iff] at hlength
    rw [hlength]
    exact ⟨Nat.zero_le _, rfl⟩
  · rw [hbytes (hinside hn)]
    exact within_take contents offset n

theorem no_room_of_none {gpuBuffer buffer : Memory} (hbound : offset + n < 2 ^ 64) (hzero : n = 0)
    (heq : readCached env cache gpuBuffer offset n scratch = (none, buffer, next)) :
    scratch = none ∧ env.buffer = false := by
  have hroom : ¬(scratch.isSome = true ∨ env.buffer = true) := by
    intro hroom
    have hsome := readCached_isSome env scratch hroom hbound
      (Or.inl hzero : n = 0 ∨ cache.Covers offset n) gpuBuffer
    rw [heq] at hsome
    cases hsome
  obtain ⟨hscratch, hbuffer⟩ := not_or.mp hroom
  exact ⟨Option.not_isSome_iff_eq_none.mp hscratch, Bool.eq_false_of_not_eq_true hbuffer⟩

theorem ReadSafe.read_cached (h : ReadSafe contents file offset n)
    (hreached : Reached contents options file)
    (halignment : file.options.gdsAlignment ∣ BLOCK_SIZE)
    (hbound : offset + n + file.options.gdsAlignment ≤ 2 ^ 64) (hfull : env.read.Full)
    (hcache : file.gpuCache = some cache) :
    (∀ bytes, (file.read env contents offset n scratch).1 = .returned (.ok, bytes) →
      Within contents offset bytes) ∧
    NoWrap (file.readSubtractions env contents offset n scratch) := by
  have hsize := hreached.size_eq
  have hpos := Nat.pos_of_dvd_of_pos halignment BLOCK_SIZE_pos
  have hrange : offset + n < 2 ^ 64 := by omega
  have hcached := hreached.cached cache hcache
  have hinside : 0 < n → cache.Covers offset n → offset + n ≤ contents.1.length :=
    fun hn hcovers => h.answered ⟨cache, hcache, Or.inr hcovers⟩ hn
  have hlengths := cachedSubtractions_noWrap env hcached hrange hinside scratch
  rcases readCached_returned env hcached file.gpuBuffer offset n scratch with
    ⟨bytes, buffer, next, heq, -, hreturned⟩ | ⟨next, heq, -⟩
  · obtain ⟨hread, hsubtractions⟩ := read_of_answer contents hreached.isOpen hcache heq
    rw [hread, hsubtractions]
    refine ⟨fun found hfound => ?_, hlengths⟩
    cases hfound
    refine hreturned.within fun hn => hinside hn ?_
    by_contra hmiss
    rw [readCached_none env hcached hn hrange hmiss] at heq
    cases heq
  · obtain ⟨hread, hsubtractions⟩ := read_of_none contents hreached.isOpen hcache heq
    have hprefetches := prefetches_congr (n := n) hcache next
    rw [hread, hsubtractions]
    rcases Nat.eq_zero_or_pos n with hzero | hn
    · obtain ⟨rfl, hbuffer⟩ := no_room_of_none hrange hzero heq
      obtain ⟨hfailed, hnoWrap⟩ := readFile_without_buffer env contents
        { file with gpuCache := some next } offset n hbuffer
      rw [hfailed]
      refine ⟨fun bytes hok => ?_, List.forall_mem_append.mpr ⟨hlengths, hnoWrap.mpr ?_⟩⟩
      · cases hok
      · intro hprefetch
        have hempty := h.empty ⟨cache, hcache, Or.inl hzero⟩ hzero (hprefetches.mp hprefetch)
        exact hempty.trans_eq hsize.symm
    · have hsafe : FileSafe contents { file with gpuCache := some next } offset n :=
        (h.fileSafe hn).imp_right fun hdirect => ⟨mt hprefetches.mp hdirect.1, hdirect.2⟩
      obtain ⟨hwithin, hnoWrap⟩ := hsafe.reads hsize halignment hbound hfull scratch
      exact ⟨hwithin, List.forall_mem_append.mpr ⟨hlengths, hnoWrap⟩⟩

theorem not_cacheAnswers_of_none (hcache : file.gpuCache = none) :
    ¬file.CacheAnswers offset n := by
  rintro ⟨cache, hsome, -⟩
  rw [hcache] at hsome
  cases hsome

theorem ReadSafe.read (h : ReadSafe contents file offset n)
    (hreached : Reached contents options file)
    (halignment : file.options.gdsAlignment ∣ BLOCK_SIZE)
    (hbound : offset + n + file.options.gdsAlignment ≤ 2 ^ 64) (hfull : env.read.Full) :
    (∀ bytes, (file.read env contents offset n scratch).1 = .returned (.ok, bytes) →
      Within contents offset bytes) ∧
    NoWrap (file.readSubtractions env contents offset n scratch) := by
  cases hcache : file.gpuCache with
  | some cache => exact h.read_cached hreached halignment hbound hfull hcache
  | none =>
    have hsafe := h.missed (not_cacheAnswers_of_none hcache)
    rw [GDSRandomAccessFile.read, readSubtractions, if_neg (by rw [hreached.isOpen]; decide),
      hcache]
    exact hsafe.reads hreached.size_eq halignment hbound hfull scratch

-- Where the GPU overload is not safe, it returns bytes from behind the file, or a length wraps.
theorem readSafe_of_reads (hreached : Reached contents options file)
    (halignment : file.options.gdsAlignment ∣ BLOCK_SIZE)
    (hbound : offset + n + file.options.gdsAlignment ≤ 2 ^ 64)
    (hreads : ∀ (env : ReadEnv) (scratch : Option Memory), env.read.Full →
      (∀ bytes, (file.read env contents offset n scratch).1 = .returned (.ok, bytes) →
        Within contents offset bytes) ∧
      NoWrap (file.readSubtractions env contents offset n scratch)) :
    ReadSafe contents file offset n := by
  have hsize := hreached.size_eq
  have hpos := Nat.pos_of_dvd_of_pos halignment BLOCK_SIZE_pos
  constructor
  case answered =>
    rintro ⟨cache, hcache, hcovers⟩ hn
    have hsome := readCached_isSome {} none (Or.inr rfl)
      (show offset + n < 2 ^ 64 by omega) hcovers file.gpuBuffer
    rcases readCached_returned {} (hreached.cached cache hcache) file.gpuBuffer offset n none with
      ⟨bytes, buffer, next, heq, -, hlength, -⟩ | ⟨next, heq, -⟩
    · obtain ⟨hread, -⟩ := read_of_answer contents hreached.isOpen hcache heq
      obtain ⟨hle, -⟩ := (hreads {} none trivial).1 bytes hread
      omega
    · rw [heq] at hsome
      cases hsome
  case empty =>
    rintro ⟨cache, hcache, -⟩ hzero hprefetch
    by_contra hgt
    have hlookup : cache.cacheMap.lookup (offset / BLOCK_SIZE) = none := by
      cases hblock : cache.cacheMap.lookup (offset / BLOCK_SIZE) with
      | none => rfl
      | some block =>
        obtain ⟨hstart, -⟩ :=
          ((hreached.cached cache hcache).lookup hblock).block _ _ hblock
        omega
    have heq : readCached { buffer := false } cache file.gpuBuffer offset n none =
        (none, file.gpuBuffer, cache) := by
      rw [readCached, tryGet, hlookup]
      rfl
    obtain ⟨-, hsubtractions⟩ := read_of_none contents hreached.isOpen hcache heq
    have hnoWrap := (hreads { buffer := false } none trivial).2
    rw [hsubtractions] at hnoWrap
    obtain ⟨-, hfile⟩ := List.forall_mem_append.mp hnoWrap
    have hle := (readFile_without_buffer { buffer := false } contents
      { file with gpuCache := some cache } offset n rfl).2.mp hfile
      ((prefetches_congr hcache cache).mpr hprefetch)
    exact hgt (hle.trans_eq hsize)
  case missed =>
    intro hmissed
    have hnoWrap := (hreads {} none trivial).2
    cases hcache : file.gpuCache with
    | none =>
      rw [readSubtractions, hcache] at hnoWrap
      exact fileSafe_of_noWrap hsize halignment hbound hnoWrap
    | some cache =>
      have hn : 0 < n := Nat.pos_of_ne_zero fun hzero => hmissed ⟨cache, hcache, Or.inl hzero⟩
      have heq := readCached_none {} (hreached.cached cache hcache) hn (by omega)
        (fun hcovers => hmissed ⟨cache, hcache, Or.inr hcovers⟩) file.gpuBuffer none
      obtain ⟨-, hsubtractions⟩ := read_of_none contents hreached.isOpen hcache heq
      have hsame : { file with gpuCache := some cache } = file := by rw [← hcache]
      rw [hsubtractions, hsame] at hnoWrap
      exact fileSafe_of_noWrap hsize halignment hbound (List.forall_mem_append.mp hnoWrap).2

end GpuOverload

section HostOverload

def hostSlice (contents : FileContents) (file : GDSRandomAccessFile) (offset n : Nat) : Bytes :=
  let plan := hostPlan file.options.gdsAlignment offset n
  let data := (contents.1.drop plan.readOffset).take plan.readN
  (file.gpuBuffer.store 0 data).read plan.offsetInRead
    (hostBytes file.options.gdsAlignment offset n data.length plan.offsetInRead)

theorem readHost_slice (hfull : env.read.Full)
    (hread : (file.readHost env contents offset n scratch).1 = .returned (.ok, bytes)) :
    bytes = file.hostSlice contents offset n := by
  unfold GDSRandomAccessFile.readHost at hread
  dsimp only at hread
  split at hread
  · cases hread
  split at hread
  · cases hread
  · cases hread
  rw [checkedAssert, checkedAssert] at hread
  split at hread
  · cases hread
  split at hread
  · cases hread
  cases hcall : env.read with
  | short count =>
    rw [hcall] at hfull
    exact hfull.elim
  | failed code =>
    rw [hcall] at hread
    cases hread
  | complete =>
    rw [hcall] at hread
    dsimp only [readData] at hread
    split at hread
    · cases hread
    · exact (Prod.mk.inj (Outcome.returned.inj hread)).2.symm

theorem readHost_ok (contents : FileContents) (hopen : file.gdsInitialized = true)
    (hpos : 0 < file.options.gdsAlignment)
    (hbound : offset + n + file.options.gdsAlignment ≤ 2 ^ 64) (scratch : Memory) :
    (file.readHost {} contents offset n (some scratch)).1 =
      .returned (.ok, file.hostSlice contents offset n) := by
  obtain ⟨hserves, -⟩ := hostPlan_serves hpos hbound
  unfold GDSRandomAccessFile.readHost
  dsimp only
  rw [if_neg (by rw [hopen]; decide), checkedAssert_of_true _ _ _ _ _ hserves.size_aligned,
    checkedAssert_of_true _ _ _ _ _ hserves.offset_aligned]
  rfl

theorem slice_within {target : Memory} {data : Bytes} {readOffset readN skip count : Nat}
    (hdata : data = (contents.1.drop readOffset).take readN) (hstart : readOffset + skip = offset)
    (hcount : skip + count ≤ data.length) :
    Within contents offset ((target.store 0 data).read skip count) := by
  have hread := target.read_store 0 skip count data hcount
  rw [Nat.zero_add] at hread
  rw [hread, hdata, List.drop_take, List.drop_drop, hstart, List.take_take]
  exact within_take contents offset _

theorem hostSlice_within_iff (hpos : 0 < file.options.gdsAlignment)
    (hbound : offset + n + file.options.gdsAlignment ≤ 2 ^ 64) :
    Within contents offset (file.hostSlice contents offset n) ↔
      n = 0 ∨ offset < contents.1.length ∨
        file.options.gdsAlignment ∣ offset ∧ file.options.gdsAlignment ∣ n := by
  obtain ⟨hserves, hzero, hsize⟩ := hostPlan_serves hpos hbound
  have hstart := hserves.start
  have hcontents := contents.2
  rw [hostSlice]
  generalize hostPlan file.options.gdsAlignment offset n = plan at *
  obtain ⟨data, hdata⟩ : ∃ data, data = (contents.1.drop plan.readOffset).take plan.readN :=
    ⟨_, rfl⟩
  have hlength : data.length = min plan.readN (contents.1.length - plan.readOffset) := by
    rw [hdata, List.length_take, List.length_drop]
  rw [← hdata]
  by_cases haligned : offset % file.options.gdsAlignment = 0 ∧ n % file.options.gdsAlignment = 0
  · have hdvd := haligned.imp Nat.dvd_of_mod_eq_zero Nat.dvd_of_mod_eq_zero
    have hskip := hzero hdvd.1
    rw [hostBytes, if_pos haligned]
    exact iff_of_true (slice_within hdata hstart (by omega)) (Or.inr (Or.inr hdvd))
  rw [hostBytes, if_neg haligned]
  by_cases hread : plan.offsetInRead < data.length
  · rw [if_pos hread, sub64_of_le hread.le (by omega)]
    exact iff_of_true (slice_within hdata hstart (by omega)) (Or.inr (Or.inl (by omega)))
  rw [if_neg hread]
  rcases Nat.eq_zero_or_pos n with hempty | hn
  · rw [hempty]
    exact iff_of_true ⟨Nat.zero_le _, rfl⟩ (Or.inl rfl)
  · -- nothing of the range was read, and yet `n` bytes are returned
    refine iff_of_false ?_ ?_
    · rintro ⟨hle, -⟩
      rw [Memory.length_read] at hle
      omega
    · rintro (hempty | hinside | ⟨hoffset, hcount⟩)
      · omega
      · omega
      · exact haligned ⟨Nat.mod_eq_zero_of_dvd hoffset, Nat.mod_eq_zero_of_dvd hcount⟩

theorem hostSubtractions_noWrap (env : HostReadEnv) (contents : FileContents)
    (file : GDSRandomAccessFile) (offset n : Nat) :
    NoWrap (file.hostSubtractions env contents offset n) := by
  rw [hostSubtractions]
  split
  · exact List.forall_mem_nil _
  · split
    case isTrue hguard => exact List.forall_mem_singleton.mpr hguard.2.le
    case isFalse => exact List.forall_mem_nil _

end HostOverload

-- After any reads, the next one stays inside the file, and its lengths do not wrap, exactly in
-- these cases. The device may fail, but not stop early.
theorem reads_within_file_iff (contents : FileContents) (options : GDSOptions)
    (assertions poolAllocated : Bool) (gpuBuffer pool : Memory)
    (halignment : options.gdsAlignment ∣ BLOCK_SIZE) (requests : List Request)
    (hrequests : ∀ request ∈ requests, request.Full) (offset n : Nat)
    (hbound : offset + n + options.gdsAlignment ≤ 2 ^ 63) :
    let file := (construct options assertions poolAllocated contents gpuBuffer pool).performAll
      contents requests
    ((∀ (env : ReadEnv) (scratch : Option Memory), env.read.Full →
        (∀ bytes, (file.read env contents offset n scratch).1 = .returned (.ok, bytes) →
          Within contents offset bytes) ∧
        NoWrap (file.readSubtractions env contents offset n scratch)) ↔
      ReadSafe contents file offset n) ∧
    ((∀ (env : HostReadEnv) (scratch : Option Memory), env.read.Full →
        (∀ bytes, (file.readHost env contents offset n scratch).1 = .returned (.ok, bytes) →
          Within contents offset bytes) ∧
        NoWrap (file.hostSubtractions env contents offset n)) ↔
      n = 0 ∨ offset < contents.1.length ∨
        options.gdsAlignment ∣ offset ∧ options.gdsAlignment ∣ n) := by
  intro file
  have hreached : Reached contents options file :=
    (reached_construct options assertions poolAllocated contents gpuBuffer pool).performAll
      halignment hrequests
  have hoptions := hreached.options_eq
  rw [← hoptions] at halignment hbound ⊢
  have hwide : offset + n + file.options.gdsAlignment ≤ 2 ^ 64 := by omega
  have hpos := Nat.pos_of_dvd_of_pos halignment BLOCK_SIZE_pos
  refine ⟨⟨readSafe_of_reads hreached halignment hwide, ?_⟩, ?_, ?_⟩
  · exact fun hsafe env scratch hfull => hsafe.read hreached halignment hwide hfull
  · intro hreads
    have hok := readHost_ok contents hreached.isOpen hpos hwide gpuBuffer
    exact (hostSlice_within_iff hpos hwide).mp ((hreads {} (some gpuBuffer) trivial).1 _ hok)
  · refine fun hcases env scratch hfull => ⟨fun bytes hread => ?_,
      hostSubtractions_noWrap env contents file offset n⟩
    rw [readHost_slice hfull hread]
    exact (hostSlice_within_iff hpos hwide).mpr hcases

theorem reads_within_file_iff_small :
    let contents : FileContents := ⟨[5, 6, 7], by decide⟩
    let file := (construct {} true true contents (fun _ => 0) (fun _ => 0)).performAll contents
      [.gpu {} 0 2 none]
    (∀ (env : ReadEnv) (scratch : Option Memory), env.read.Full →
      (∀ bytes, (file.read env contents 1 2 scratch).1 = .returned (.ok, bytes) →
        Within contents 1 bytes) ∧
      NoWrap (file.readSubtractions env contents 1 2 scratch)) ∧
    ∀ (env : HostReadEnv) (scratch : Option Memory), env.read.Full →
      (∀ bytes, (file.readHost env contents 1 2 scratch).1 = .returned (.ok, bytes) →
        Within contents 1 bytes) ∧
      NoWrap (file.hostSubtractions env contents 1 2) := by
  obtain ⟨hgpu, hhost⟩ := reads_within_file_iff ⟨[5, 6, 7], by decide⟩ {} true true (fun _ => 0)
    (fun _ => 0) (by decide) [.gpu {} 0 2 none] (List.forall_mem_singleton.mpr trivial) 1 2
    (by decide)
  refine ⟨hgpu.mpr ⟨fun _ _ => by decide, fun _ hzero => absurd hzero (by decide), fun _ => ?_⟩,
    hhost.mpr (Or.inr (Or.inl (by decide)))⟩
  exact Or.inl (by decide)

-- Three bytes, and reads that return ten: from behind the end, from a cached block up to its end,
-- and from behind the end by the host overload.
theorem reads_behind_file :
    let contents : FileContents := ⟨[5, 6, 7], by decide⟩
    let file := construct {} true true contents (fun _ => 0) (fun _ => 0)
    (file.read {} contents 5 10 none).1 = .returned (.ok, [0, 0, 0, 0, 0, 0, 0, 0, 0, 0]) ∧
      (file.performAll contents [.gpu {} 0 2 none]).readSubtractions {} contents 5 10 none =
        [(3, 5)] ∧
      ((file.performAll contents [.gpu {} 0 2 none]).read {} contents 1 10 none).1 =
        .returned (.ok, [6, 7, 7, 0, 0, 0, 0, 0, 0, 0]) ∧
      (file.readHost {} contents 5 10 (some fun _ => 0)).1 =
        .returned (.ok, [0, 0, 0, 0, 0, 0, 0, 0, 0, 0]) := by
  decide +kernel

end GDSRandomAccessFile

end MlkvPlus.Gds
