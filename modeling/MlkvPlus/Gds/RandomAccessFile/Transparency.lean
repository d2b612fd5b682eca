import MlkvPlus.Gds.BlockCache.Contents
import MlkvPlus.Gds.RandomAccessFile

namespace MlkvPlus.Gds.GDSRandomAccessFile

open GPUBlockCache

theorem block_start_le (offset : Nat) : offset / BLOCK_SIZE * BLOCK_SIZE ≤ offset :=
  Nat.div_mul_le_self offset BLOCK_SIZE

theorem lt_block_end (offset : Nat) :
    offset < offset / BLOCK_SIZE * BLOCK_SIZE + BLOCK_SIZE := by
  have hdiv := Nat.div_add_mod' offset BLOCK_SIZE
  have hmod := Nat.mod_lt offset BLOCK_SIZE_pos
  omega

theorem one_block_iff (hn : 0 < n) :
    offset / BLOCK_SIZE = (offset + n - 1) / BLOCK_SIZE ↔
      offset + n ≤ offset / BLOCK_SIZE * BLOCK_SIZE + BLOCK_SIZE := by
  have hle : offset / BLOCK_SIZE ≤ (offset + n - 1) / BLOCK_SIZE :=
    Nat.div_le_div_right (by omega)
  have hlt := Nat.div_lt_iff_lt_mul BLOCK_SIZE_pos (x := offset + n - 1)
    (y := offset / BLOCK_SIZE + 1)
  rw [Nat.add_one_mul] at hlt
  omega

variable {contents : FileContents} {offset n : Nat}

theorem readCached_hit (h : Holds contents.1 cache) (hn : 0 < n)
    (hle : offset + n ≤ contents.1.length) (hcovers : cache.Covers offset n) (gpuBuffer : Memory)
    (scratch : Option Memory) :
    ∃ buffer next, readCached {} cache gpuBuffer offset n scratch =
        (some ((contents.1.drop offset).take n), buffer, next) ∧ Holds contents.1 next := by
  by_cases hone : offset / BLOCK_SIZE = (offset + n - 1) / BLOCK_SIZE
  · obtain ⟨entry, hlookup⟩ := Option.isSome_iff_exists.mp (hcovers _ le_rfl hone.le)
    have hinside := (one_block_iff hn).mp hone
    have hdiv := Nat.div_add_mod' offset BLOCK_SIZE
    obtain ⟨hget, hread⟩ := h.tryGet_hit contents.2 hle hlookup (by omega)
    refine ⟨gpuBuffer, cache.touch (offset / BLOCK_SIZE) entry, ?_, h.touch hlookup⟩
    simp only [readCached, hget, le_refl, if_true]
    rw [← hread]
    rfl
  · have hdiv := Nat.div_add_mod' offset BLOCK_SIZE
    have hstraddle := mt (one_block_iff hn).mpr hone
    have hmiss : cache.tryGet offset n = (none, cache) := h.tryGet_miss (by omega) (Or.inr (by omega))
    cases scratch with
    | none =>
      obtain ⟨result, next, hget, hholds, -, hread⟩ :=
        h.tryGetMultiBlock_hit contents.2 hn hle hcovers gpuBuffer
      exact ⟨result, next, by simp [readCached, readCached.multiBlock, hmiss, hget, hread], hholds⟩
    | some scratch =>
      obtain ⟨result, next, hget, hholds, -, hread⟩ :=
        h.tryGetMultiBlock_hit contents.2 hn hle hcovers scratch
      exact ⟨gpuBuffer, next, by simp [readCached, readCached.multiBlock, hmiss, hget, hread],
        hholds⟩

theorem readCached_of_miss (env : ReadEnv) (hn : 0 < n) (hbound : offset + n < 2 ^ 64)
    (hcovers : ¬cache.Covers offset n) (hmiss : cache.tryGet offset n = (none, cache))
    (gpuBuffer : Memory) (scratch : Option Memory) :
    readCached env cache gpuBuffer offset n scratch = (none, gpuBuffer, cache) := by
  cases scratch with
  | none =>
    simp [readCached, readCached.multiBlock, hmiss, tryGetMultiBlock_miss hn hbound hcovers]
  | some scratch =>
    simp [readCached, readCached.multiBlock, hmiss, tryGetMultiBlock_miss hn hbound hcovers]

theorem readCached_miss (env : ReadEnv) (h : Holds contents.1 cache) (hn : 0 < n)
    (hbound : offset + n < 2 ^ 64) (hcovers : ¬cache.Covers offset n) (gpuBuffer : Memory)
    (scratch : Option Memory) :
    readCached env cache gpuBuffer offset n scratch = (none, gpuBuffer, cache) := by
  refine readCached_of_miss env hn hbound hcovers (h.tryGet_miss hbound ?_) gpuBuffer scratch
  by_cases hone : offset / BLOCK_SIZE = (offset + n - 1) / BLOCK_SIZE
  · refine Or.inl (Option.not_isSome_iff_eq_none.mp fun hsome => hcovers ?_)
    intro blockId hfirst hlast
    rwa [Nat.le_antisymm (hlast.trans hone.ge) hfirst]
  · have hdiv := Nat.div_add_mod' offset BLOCK_SIZE
    have hstraddle := mt (one_block_iff hn).mpr hone
    exact Or.inr (by omega)

-- A plan that starts at or before the wanted range, at offsets the device accepts.
structure Serves (alignment offset : Nat) (plan : ReadPlan) : Prop where
  offset_aligned : plan.readOffset % alignment = 0
  size_aligned : plan.readN % alignment = 0
  start : plan.readOffset + plan.offsetInRead = offset
  direct : plan.needTempBuffer = false → plan.offsetInRead = 0

theorem readFile_eq {file : GDSRandomAccessFile}
    (hplan : alignPlan file.options.gdsAlignment (file.choosePlan offset n scratch.isSome) = plan)
    (hserves : Serves file.options.gdsAlignment offset plan)
    (hinside : offset ≤ contents.1.length ∨ plan.offsetInRead = 0)
    (hreach : plan.offsetInRead ≤ plan.readN) :
    ∃ buffer readBuffer, file.readFile {} contents offset n scratch =
      (.returned (.ok, (contents.1.drop offset).take (min n (plan.readN - plan.offsetInRead))),
        { file with
          gpuBuffer := buffer
          gpuCache := cacheBlock file.gpuCache plan (offset / BLOCK_SIZE * BLOCK_SIZE) readBuffer
            (min plan.readN (contents.1.length - plan.readOffset)) }) ∧
      readBuffer.read 0 (min plan.readN (contents.1.length - plan.readOffset)) =
        (contents.1.drop plan.readOffset).take plan.readN := by
  have hcontents := contents.2
  have hstart := hserves.start
  obtain ⟨data, hdata⟩ : ∃ data, data = (contents.1.drop plan.readOffset).take plan.readN :=
    ⟨_, rfl⟩
  obtain ⟨bytes, hbytes⟩ : ∃ bytes,
      bytes = (contents.1.drop offset).take (min n (plan.readN - plan.offsetInRead)) := ⟨_, rfl⟩
  have hlength : data.length = min plan.readN (contents.1.length - plan.readOffset) := by
    rw [hdata, List.length_take, List.length_drop]
  have hactual : min n (sub64 (min plan.readN (contents.1.length - plan.readOffset))
      plan.offsetInRead) = bytes.length := by
    rw [sub64_of_le (by omega) (by omega), hbytes, List.length_take, List.length_drop]
    omega
  have hslice : (data.drop plan.offsetInRead).take bytes.length = bytes := by
    rw [hdata, List.drop_take, List.drop_drop, hstart, List.take_take]
    conv_rhs => rw [← List.take_length (l := bytes), hbytes, List.take_take]
    rw [← hbytes]
    congr 1
    rw [hbytes, List.length_take]
    omega
  have hskip : ∀ target : Memory, (target.store 0 data).read
      (if plan.needTempBuffer = true then plan.offsetInRead else 0) bytes.length = bytes := by
    intro target
    have hat : (if plan.needTempBuffer = true then plan.offsetInRead else 0) =
        0 + plan.offsetInRead := by
      split
      case isTrue => rw [Nat.zero_add]
      case isFalse htemp => rw [hserves.direct (Bool.eq_false_iff.mpr htemp)]
    have hfits : plan.offsetInRead + bytes.length ≤ data.length := by
      rw [hlength, hbytes, List.length_take, List.length_drop]
      omega
    rw [hat, Memory.read_store _ _ _ _ _ hfits, hslice]
  obtain ⟨target, htarget⟩ : ∃ target, target =
      if plan.needTempBuffer = true then file.gpuBuffer else scratch.getD file.gpuBuffer :=
    ⟨_, rfl⟩
  refine ⟨if plan.needTempBuffer = true then target.store 0 data else file.gpuBuffer,
    target.store 0 data, ?_, ?_⟩
  · simp only [readFile, hplan]
    rw [if_neg (by simp), checkedAssert_of_true _ _ _ _ _ hserves.size_aligned,
      checkedAssert_of_true _ _ _ _ _ hserves.offset_aligned]
    simp only [readData, ← hdata, ← htarget, hlength, hactual, hskip, ← hbytes]
  · rw [← hlength, Memory.read_store_self, hdata]

section Plans

variable {alignment : Nat}

theorem le_round_up (halignment : 0 < alignment) (size : Nat) :
    size ≤ (size + alignment - 1) / alignment * alignment := by
  have hdiv := Nat.div_add_mod' (size + alignment - 1) alignment
  have hmod := Nat.mod_lt (size + alignment - 1) halignment
  omega

theorem round_up_le (halignment : 0 < alignment) (hle : size ≤ bound) (hbound : alignment ∣ bound) :
    (size + alignment - 1) / alignment * alignment ≤ bound := by
  obtain ⟨count, rfl⟩ := hbound
  have hlt : (size + alignment - 1) / alignment < count + 1 := by
    rw [Nat.div_lt_iff_lt_mul halignment, Nat.add_one_mul, Nat.mul_comm count]
    omega
  rw [Nat.mul_comm]
  exact Nat.mul_le_mul_left alignment (Nat.le_of_lt_succ hlt)

theorem alignPlan_of_aligned (plan : ReadPlan) (hoffset : plan.readOffset % alignment = 0)
    (hsize : plan.readN % alignment = 0) : alignPlan alignment plan = plan := by
  rw [alignPlan, if_neg (not_not.mpr hoffset)]
  exact if_neg (not_not.mpr hsize)

-- Aligning a plan that starts at an aligned offset only makes it read further.
theorem alignPlan_spec (halignment : 0 < alignment) (plan : ReadPlan)
    (hoffset : plan.readOffset % alignment = 0) (hbound : plan.readN + alignment ≤ 2 ^ 64) :
    ∃ size, alignPlan alignment plan = { plan with readN := size } ∧ size % alignment = 0 ∧
      plan.readN ≤ size ∧ ∀ bound, plan.readN ≤ bound → alignment ∣ bound → size ≤ bound := by
  rw [alignPlan, if_neg (not_not.mpr hoffset)]
  by_cases hsize : plan.readN % alignment = 0
  · exact ⟨plan.readN, if_neg (not_not.mpr hsize), hsize, le_rfl, fun _ hle _ => hle⟩
  · rw [if_pos hsize, Nat.mod_eq_of_lt (show plan.readN + alignment - 1 < 2 ^ 64 by omega)]
    exact ⟨_, rfl, Nat.mul_mod_left _ _, le_round_up halignment _, fun _ => round_up_le halignment⟩

theorem hostPlan_serves (halignment : 0 < alignment) (hbound : offset + n + alignment ≤ 2 ^ 64) :
    Serves alignment offset (hostPlan alignment offset n) ∧
      (alignment ∣ offset → (hostPlan alignment offset n).offsetInRead = 0) ∧
      (hostPlan alignment offset n).offsetInRead + n ≤ (hostPlan alignment offset n).readN := by
  by_cases haligned : offset % alignment = 0 ∧ n % alignment = 0
  · rw [hostPlan, if_pos haligned]
    exact ⟨⟨haligned.1, haligned.2, rfl, fun _ => rfl⟩, fun _ => rfl, (Nat.zero_add n).le⟩
  · have hstart := Nat.div_mul_le_self offset alignment
    have hwrap : (offset - offset / alignment * alignment + n + alignment - 1) % 2 ^ 64 =
        offset - offset / alignment * alignment + n + alignment - 1 :=
      Nat.mod_eq_of_lt (by omega)
    rw [hostPlan, if_neg haligned]
    simp only [hwrap]
    refine ⟨⟨Nat.mul_mod_left _ _, Nat.mul_mod_left _ _, Nat.add_sub_cancel' hstart, ?_⟩,
      fun hdvd => ?_, le_round_up halignment _⟩
    · exact fun htemp => Bool.noConfusion htemp
    · rw [Nat.div_mul_cancel hdvd, Nat.sub_self]

end Plans

def filePlan (file : GDSRandomAccessFile) (offset n : Nat) (scratch : Option Memory) : ReadPlan :=
  alignPlan file.options.gdsAlignment (file.choosePlan offset n scratch.isSome)

theorem alignPlan_flags (alignment : Nat) (plan : ReadPlan) :
    (alignPlan alignment plan).shouldPrefetch = plan.shouldPrefetch ∧
      (alignPlan alignment plan).needTempBuffer = plan.needTempBuffer := by
  rw [alignPlan]
  split <;> split <;> exact ⟨rfl, rfl⟩

theorem filePlan_needTempBuffer (file : GDSRandomAccessFile) (offset n : Nat) :
    (file.filePlan offset n none).needTempBuffer = true := by
  rw [filePlan, (alignPlan_flags _ _).2, choosePlan]
  split
  · rfl
  · split <;> rfl

-- What every read of an open file keeps, with cache and prefetch on.
structure Open (contents : FileContents) (options : GDSOptions) (file : GDSRandomAccessFile) :
    Prop where
  isOpen : file.gdsInitialized = true
  options_eq : file.options = options
  size_eq : file.fileSize = contents.1.length
  cached : ∃ cache, file.gpuCache = some cache ∧ Holds contents.1 cache

section Reads

variable {options : GDSOptions} {file : GDSRandomAccessFile} {scratch : Option Memory}

theorem Open.holds (h : Open contents options file) (hcache : file.gpuCache = some cache) :
    Holds contents.1 cache := by
  obtain ⟨found, hfound, hholds⟩ := h.cached
  exact Option.some.inj (hfound.symm.trans hcache) ▸ hholds

theorem direct_plan (scratch : Option Memory) (halignment : 0 < file.options.gdsAlignment)
    (hbound : offset + n + file.options.gdsAlignment ≤ 2 ^ 64)
    (hdirect : ¬(file.gpuCache.isSome = true ∧ file.options.enableCachePrefetch = true ∧
      n < BLOCK_SIZE ∧ file.options.minReadSizeForCache ≤ n)) :
    ∃ plan, alignPlan file.options.gdsAlignment (file.choosePlan offset n scratch.isSome) = plan ∧
      Serves file.options.gdsAlignment offset plan ∧
      (file.options.gdsAlignment ∣ offset → plan.offsetInRead = 0) ∧
      plan.offsetInRead + n ≤ plan.readN ∧ plan.shouldPrefetch = false := by
  obtain ⟨hserves, hzero, hle⟩ := hostPlan_serves halignment hbound
  by_cases haligned : offset % file.options.gdsAlignment = 0 ∧ n % file.options.gdsAlignment = 0
  · rw [choosePlan, if_neg hdirect, if_pos haligned]
    exact ⟨_, alignPlan_of_aligned _ haligned.1 haligned.2,
      ⟨haligned.1, haligned.2, rfl, fun _ => rfl⟩, fun _ => rfl, (Nat.zero_add n).le, rfl⟩
  · have hplan : file.choosePlan offset n scratch.isSome =
        hostPlan file.options.gdsAlignment offset n := by
      rw [choosePlan, if_neg hdirect, if_neg haligned, hostPlan, if_neg haligned]
    rw [hplan]
    refine ⟨_, alignPlan_of_aligned _ hserves.offset_aligned hserves.size_aligned, hserves, hzero,
      hle, ?_⟩
    rw [hostPlan, if_neg haligned]

theorem prefetch_plan (scratch : Option Memory) (hfile : file.fileSize = contents.1.length)
    (halignment : file.options.gdsAlignment ∣ BLOCK_SIZE)
    (hoffset : offset / BLOCK_SIZE * BLOCK_SIZE ≤ contents.1.length)
    (hprefetch : file.gpuCache.isSome = true ∧ file.options.enableCachePrefetch = true ∧
      n < BLOCK_SIZE ∧ file.options.minReadSizeForCache ≤ n) :
    ∃ plan, alignPlan file.options.gdsAlignment (file.choosePlan offset n scratch.isSome) = plan ∧
      Serves file.options.gdsAlignment offset plan ∧
      plan.readOffset = offset / BLOCK_SIZE * BLOCK_SIZE ∧ plan.shouldPrefetch = true ∧
      plan.readN ≤ BLOCK_SIZE ∧ (plan.readN = BLOCK_SIZE ∨
        contents.1.length - offset / BLOCK_SIZE * BLOCK_SIZE ≤ plan.readN) := by
  have hstart := block_start_le offset
  have hcontents := contents.2
  obtain ⟨size, hplan, hsize, hle, hbound⟩ :=
    alignPlan_spec (Nat.pos_of_dvd_of_pos halignment BLOCK_SIZE_pos)
      ⟨offset / BLOCK_SIZE * BLOCK_SIZE,
        min BLOCK_SIZE (contents.1.length - offset / BLOCK_SIZE * BLOCK_SIZE),
        offset - offset / BLOCK_SIZE * BLOCK_SIZE, true, true⟩
      (Nat.mod_eq_zero_of_dvd (halignment.mul_left _)) (by
        have hle := Nat.le_of_dvd BLOCK_SIZE_pos halignment
        have hblock : BLOCK_SIZE = 262144 := rfl
        dsimp only
        omega)
  have hrest : sub64 file.fileSize (offset / BLOCK_SIZE * BLOCK_SIZE) =
      contents.1.length - offset / BLOCK_SIZE * BLOCK_SIZE := by
    rw [hfile]
    exact sub64_of_le (by omega) (by omega)
  rw [choosePlan, if_pos hprefetch]
  simp only [hrest]
  rw [hplan]
  have hblock : size ≤ BLOCK_SIZE := hbound BLOCK_SIZE (Nat.min_le_left _ _) halignment
  refine ⟨_, rfl, ⟨Nat.mod_eq_zero_of_dvd (halignment.mul_left _), hsize,
    Nat.add_sub_cancel' hstart, nofun⟩, rfl, rfl, hblock, ?_⟩
  rcases min_le_iff.mp hle with hle | hle
  · exact Or.inl (Nat.le_antisymm hblock hle)
  · exact Or.inr hle

theorem read_of_miss (hopen : file.gdsInitialized = true) (hcache : file.gpuCache = some cache)
    (hholds : Holds contents.1 cache) (hn : 0 < n) (hbound : offset + n < 2 ^ 64)
    (hcovers : ¬cache.Covers offset n) :
    file.read {} contents offset n scratch = file.readFile {} contents offset n scratch := by
  have hsame : { file with gpuCache := some cache } = file := by rw [← hcache]
  rw [read, if_neg (by rw [hopen]; decide), hcache]
  simp only [readCached_miss {} hholds hn hbound hcovers]
  rw [hsame]

theorem read_of_hit (hopen : Open contents options file) (hcache : file.gpuCache = some cache)
    (hn : 0 < n) (hle : offset + n ≤ contents.1.length) (hcovers : cache.Covers offset n) :
    ∃ next, file.read {} contents offset n scratch =
        (.returned (.ok, (contents.1.drop offset).take n), next) ∧
      Open contents options next := by
  have hholds := hopen.holds hcache
  obtain ⟨buffer, next, hread, hnext⟩ :=
    readCached_hit hholds hn hle hcovers file.gpuBuffer scratch
  refine ⟨{ file with gpuBuffer := buffer, gpuCache := some next }, ?_,
    hopen.isOpen, hopen.options_eq, hopen.size_eq, next, rfl, hnext⟩
  rw [read, if_neg (by rw [hopen.isOpen]; decide), hcache]
  simp only [hread]

theorem read_of_direct {cache : GPUBlockCache} (hopen : Open contents options file)
    (hcache : file.gpuCache = some cache) (halignment : 0 < file.options.gdsAlignment)
    (hn : 0 < n) (hbound : offset + n + file.options.gdsAlignment ≤ 2 ^ 64)
    (hinside : offset ≤ contents.1.length ∨ file.options.gdsAlignment ∣ offset)
    (hcovers : ¬cache.Covers offset n)
    (hdirect : ¬(file.options.enableCachePrefetch = true ∧ n < BLOCK_SIZE ∧
      file.options.minReadSizeForCache ≤ n)) :
    ∃ next, file.read {} contents offset n scratch =
        (.returned (.ok, (contents.1.drop offset).take n), next) ∧
      Open contents options next := by
  have hholds := hopen.holds hcache
  obtain ⟨plan, hplan, hserves, hstart, hsize, hprefetch⟩ := direct_plan scratch halignment hbound
    (mt And.right hdirect)
  obtain ⟨buffer, readBuffer, hread, -⟩ :=
    readFile_eq hplan hserves (hinside.imp_right hstart) (by omega)
  rw [read_of_miss hopen.isOpen hcache hholds hn (by omega) hcovers, hread,
    Nat.min_eq_left (by omega)]
  refine ⟨_, rfl, hopen.isOpen, hopen.options_eq, hopen.size_eq, cache, ?_, hholds⟩
  simp [cacheBlock, hprefetch, hcache]

theorem min_of_prefetched {size block rest : Nat} (hle : size ≤ block)
    (h : size = block ∨ rest ≤ size) : min size rest = min block rest := by
  omega

theorem read_of_prefetch (scratch : Option Memory) {cache : GPUBlockCache}
    (hopen : Open contents options file)
    (hcache : file.gpuCache = some cache) (hprefetch : file.options.enableCachePrefetch = true)
    (halignment : file.options.gdsAlignment ∣ BLOCK_SIZE) (hn : 0 < n)
    (hinside : offset ≤ contents.1.length) (hcovers : ¬cache.Covers offset n)
    (hsmall : n < BLOCK_SIZE) (hmin : file.options.minReadSizeForCache ≤ n) :
    ∃ next, file.read {} contents offset n scratch =
        (.returned (.ok, (contents.1.drop offset).take
          (min n (offset / BLOCK_SIZE * BLOCK_SIZE + BLOCK_SIZE - offset))), next) ∧
      Open contents options next := by
  have hholds := hopen.holds hcache
  have hcontents := contents.2
  have hsize : BLOCK_SIZE = 262144 := rfl
  have hlow := block_start_le offset
  have hhigh := lt_block_end offset
  obtain ⟨plan, hplan, hserves, hstart, hfetch, hblock, hend⟩ :=
    prefetch_plan scratch hopen.size_eq halignment (hlow.trans hinside)
      ⟨by rw [hcache]; rfl, hprefetch, hsmall, hmin⟩
  have hserved := hserves.start
  obtain ⟨buffer, readBuffer, hread, hbuffer⟩ :=
    readFile_eq hplan hserves (Or.inl hinside) (by omega)
  rw [hstart, min_of_prefetched hblock hend] at hread hbuffer
  have hbytes : (contents.1.drop offset).take (min n (plan.readN - plan.offsetInRead)) =
      (contents.1.drop offset).take
        (min n (offset / BLOCK_SIZE * BLOCK_SIZE + BLOCK_SIZE - offset)) := by
    rw [List.take_eq_take_iff, List.length_drop]
    omega
  rw [read_of_miss hopen.isOpen hcache hholds hn (by omega) hcovers, hread, hbytes]
  refine ⟨_, rfl, hopen.isOpen, hopen.options_eq, hopen.size_eq, _,
    by rw [hcache]; rfl, ?_⟩
  have hcapped : min (min BLOCK_SIZE (contents.1.length - offset / BLOCK_SIZE * BLOCK_SIZE))
      BLOCK_SIZE = min BLOCK_SIZE (contents.1.length - offset / BLOCK_SIZE * BLOCK_SIZE) :=
    Nat.min_eq_left (Nat.min_le_left _ _)
  split
  case isFalse => exact hholds
  case isTrue hfetched =>
    have hbefore := Nat.lt_of_sub_pos (Nat.lt_min.mp hfetched.1).2
    refine hholds.put (by rw [Nat.mul_div_cancel _ BLOCK_SIZE_pos]) hbefore ?_ ?_
    · rw [hcapped, hcapped]
    · rw [hcapped, hcapped, hbuffer, List.take_eq_take_iff, List.length_drop,
        min_of_prefetched hblock hend, Nat.min_assoc, Nat.min_self]

-- The reads that the cached path answers in full: those that bypass the prefetch, those
-- inside one cache block, and those whose blocks are all cached.
def Served (file : GDSRandomAccessFile) (offset n : Nat) : Prop :=
  BLOCK_SIZE ≤ n ∨ n < file.options.minReadSizeForCache ∨
    offset / BLOCK_SIZE = (offset + n - 1) / BLOCK_SIZE ∨
    ∃ cache, file.gpuCache = some cache ∧ cache.Covers offset n

theorem bound_of_inside (halignment : alignment ∣ BLOCK_SIZE) (hle : offset + n ≤ contents.1.length) :
    offset + n + alignment ≤ 2 ^ 64 := by
  have hcontents := contents.2
  have hsize := Nat.le_of_dvd BLOCK_SIZE_pos halignment
  have hblock : BLOCK_SIZE = 262144 := rfl
  omega

theorem read_of_served (hopen : Open contents options file)
    (hprefetch : options.enableCachePrefetch = true)
    (halignment : options.gdsAlignment ∣ BLOCK_SIZE) (hn : 0 < n)
    (hle : offset + n ≤ contents.1.length) (hserved : file.Served offset n) :
    ∃ next, file.read {} contents offset n scratch =
        (.returned (.ok, (contents.1.drop offset).take n), next) ∧
      Open contents options next := by
  obtain ⟨cache, hcache, hholds⟩ := hopen.cached
  rw [← hopen.options_eq] at hprefetch halignment
  have hpos := Nat.pos_of_dvd_of_pos halignment BLOCK_SIZE_pos
  by_cases hcovers : cache.Covers offset n
  · exact read_of_hit hopen hcache hn hle hcovers
  by_cases hdirect : BLOCK_SIZE ≤ n ∨ n < file.options.minReadSizeForCache
  · exact read_of_direct hopen hcache hpos hn (bound_of_inside halignment hle)
      (Or.inl (by omega)) hcovers (by omega)
  · obtain ⟨hsmall, hmin⟩ := not_or.mp hdirect
    have hone : offset / BLOCK_SIZE = (offset + n - 1) / BLOCK_SIZE := by
      rcases hserved with hlarge | htiny | hone | ⟨found, hfound, hall⟩
      · exact absurd hlarge hsmall
      · exact absurd htiny hmin
      · exact hone
      · exact absurd (Option.some.inj (hfound.symm.trans hcache) ▸ hall) hcovers
    have hinside := (one_block_iff hn).mp hone
    have hread := read_of_prefetch scratch hopen hcache hprefetch halignment hn (by omega) hcovers
      (Nat.lt_of_not_le hsmall) (Nat.le_of_not_lt hmin)
    rwa [Nat.min_eq_left (by omega)] at hread

-- Every other read ends at the end of its first block, with status OK.
theorem read_of_not_served (hopen : Open contents options file)
    (hprefetch : options.enableCachePrefetch = true)
    (halignment : options.gdsAlignment ∣ BLOCK_SIZE) (hn : 0 < n)
    (hle : offset + n ≤ contents.1.length) (hserved : ¬file.Served offset n) :
    offset / BLOCK_SIZE * BLOCK_SIZE + BLOCK_SIZE - offset < n ∧
    ∃ next, file.read {} contents offset n scratch =
        (.returned (.ok, (contents.1.drop offset).take
          (offset / BLOCK_SIZE * BLOCK_SIZE + BLOCK_SIZE - offset)), next) ∧
      Open contents options next := by
  obtain ⟨cache, hcache, hholds⟩ := hopen.cached
  rw [← hopen.options_eq] at hprefetch halignment
  simp only [Served, not_or, not_exists, not_and] at hserved
  obtain ⟨hsmall, hmin, hone, hcovers⟩ := hserved
  have hstraddle := mt (one_block_iff hn).mpr hone
  have hread := read_of_prefetch scratch hopen hcache hprefetch halignment hn (by omega)
    (hcovers cache hcache) (Nat.lt_of_not_le hsmall) (Nat.le_of_not_lt hmin)
  rw [Nat.min_eq_right (by omega)] at hread
  exact ⟨by omega, hread⟩

end Reads

structure ReadRequest where
  offset : Nat
  n : Nat
  scratch : Option Memory

def ReadRequest.Inside (contents : FileContents) (request : ReadRequest) : Prop :=
  0 < request.n ∧ request.offset + request.n ≤ contents.1.length

def readAll (contents : FileContents) (file : GDSRandomAccessFile) :
    List ReadRequest → GDSRandomAccessFile
  | [] => file
  | request :: rest =>
    (file.read {} contents request.offset request.n request.scratch).2.readAll contents rest

section Runs

variable {options : GDSOptions}

theorem open_openFile (contents : FileContents) (assertions : Bool) (gpuBuffer pool : Memory)
    (hcache : options.enableGPUCache = true) :
    Open contents options (openFile options assertions contents gpuBuffer pool) :=
  ⟨rfl, rfl, rfl, .create pool, if_pos hcache, holds_create contents.1 pool⟩

theorem Open.read {request : ReadRequest} (hopen : Open contents options file)
    (hprefetch : options.enableCachePrefetch = true)
    (halignment : options.gdsAlignment ∣ BLOCK_SIZE) (hinside : request.Inside contents) :
    Open contents options (file.read {} contents request.offset request.n request.scratch).2 := by
  obtain ⟨hn, hle⟩ := hinside
  by_cases hserved : file.Served request.offset request.n
  · obtain ⟨next, hread, hnext⟩ := read_of_served hopen hprefetch halignment hn hle hserved
    rwa [hread]
  · obtain ⟨-, next, hread, hnext⟩ :=
      read_of_not_served hopen hprefetch halignment hn hle hserved
    rwa [hread]

theorem Open.readAll (hprefetch : options.enableCachePrefetch = true)
    (halignment : options.gdsAlignment ∣ BLOCK_SIZE)
    (hinside : ∀ request ∈ requests, request.Inside contents) :
    ∀ {file : GDSRandomAccessFile}, Open contents options file →
      Open contents options (file.readAll contents requests) := by
  induction requests with
  | nil => exact fun hopen => hopen
  | cons request rest ih =>
    obtain ⟨hfirst, hrest⟩ := List.forall_mem_cons.mp hinside
    exact fun hopen => ih hrest (hopen.read hprefetch halignment hfirst)

-- After any reads of the file, the next one returns its range exactly when it is served.
theorem read_eq_contents_iff (contents : FileContents) (options : GDSOptions) (assertions : Bool)
    (gpuBuffer pool : Memory) (hcache : options.enableGPUCache = true)
    (hprefetch : options.enableCachePrefetch = true)
    (halignment : options.gdsAlignment ∣ BLOCK_SIZE) (requests : List ReadRequest)
    (hrequests : ∀ request ∈ requests, request.Inside contents) (request : ReadRequest)
    (hrequest : request.Inside contents) :
    let file := (openFile options assertions contents gpuBuffer pool).readAll contents requests
    (file.read {} contents request.offset request.n request.scratch).1 =
        .returned (.ok, (contents.1.drop request.offset).take request.n) ↔
      file.Served request.offset request.n := by
  intro file
  have hopen : Open contents options file :=
    (open_openFile contents assertions gpuBuffer pool hcache).readAll hprefetch halignment hrequests
  obtain ⟨hn, hle⟩ := hrequest
  by_cases hserved : file.Served request.offset request.n
  · obtain ⟨next, hread, -⟩ := read_of_served hopen hprefetch halignment hn hle hserved
    rw [hread]
    exact iff_of_true rfl hserved
  · obtain ⟨hless, next, hread, -⟩ := read_of_not_served hopen hprefetch halignment hn hle hserved
    rw [hread]
    refine iff_of_false (fun heq => ?_) hserved
    -- the slice is shorter than the range
    simp only [Outcome.returned.injEq, Prod.mk.injEq, true_and] at heq
    have hlength := congrArg List.length heq
    rw [List.length_take, List.length_take, List.length_drop] at hlength
    omega

theorem read_eq_contents_iff_two_reads :
    let contents : FileContents := ⟨[5, 6, 7], by decide⟩
    let file := (openFile {} true contents (fun _ => 0) (fun _ => 0)).readAll contents
      [⟨0, 2, none⟩]
    (file.read {} contents 1 2 none).1 = .returned (.ok, [6, 7]) :=
  (read_eq_contents_iff ⟨[5, 6, 7], by decide⟩ {} true (fun _ => 0) (fun _ => 0) rfl rfl
    (by decide) [⟨0, 2, none⟩] (List.forall_mem_singleton.mpr ⟨by decide, by decide⟩)
    ⟨1, 2, none⟩ ⟨by decide, by decide⟩).mpr (Or.inr (Or.inr (Or.inl (by decide))))

theorem read_across_fresh_blocks :
    let contents : FileContents := ⟨List.replicate (BLOCK_SIZE + 1) 7, by
      rw [List.length_replicate]; decide⟩
    ((openFile {} true contents (fun _ => 0) (fun _ => 0)).read {} contents (BLOCK_SIZE - 1) 2
        none).1 = .returned (.ok, [7]) ∧
      (contents.1.drop (BLOCK_SIZE - 1)).take 2 = [7, 7] := by
  intro contents
  have hopen := open_openFile contents true (fun _ => 0) (fun _ => 0)
    (show ({} : GDSOptions).enableGPUCache = true from rfl)
  have hdrop : ∀ count ≤ 2, (contents.1.drop (BLOCK_SIZE - 1)).take count =
      List.replicate count 7 := by
    intro count hcount
    rw [List.drop_replicate, List.take_replicate]
    congr 1
    exact Nat.min_eq_left hcount
  have hfresh : ¬(openFile {} true contents (fun _ => 0) (fun _ => 0)).Served
      (BLOCK_SIZE - 1) 2 := by
    rintro (hlarge | hmin | hone | ⟨cache, hcache, hcovers⟩)
    · exact absurd hlarge (by decide)
    · exact absurd hmin (by decide)
    · exact absurd hone (by decide)
    · cases hcache
      exact absurd (hcovers 0 (by decide) (by decide)) (by decide)
  obtain ⟨-, next, hread, -⟩ := read_of_not_served hopen rfl (by decide) (by decide)
    (by rw [List.length_replicate]; decide) hfresh
  rw [hread]
  exact ⟨congrArg (fun bytes => Outcome.returned (IOStatus.ok, bytes)) (hdrop 1 (by decide)),
    hdrop 2 le_rfl⟩

end Runs

end MlkvPlus.Gds.GDSRandomAccessFile
