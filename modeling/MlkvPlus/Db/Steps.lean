import MlkvPlus.Db.Tiers

namespace MlkvPlus

open Tiered

variable {K V : Type} {dim : Nat} {reserved : K → Bool}

theorem DB.mem_foundPairs {table : K → Option (Vector V dim)} {keys : List K} {key : K}
    {values : Vector V dim} :
    (key, values) ∈ foundPairs table keys ↔ key ∈ keys ∧ table key = some values := by
  simp only [foundPairs, List.mem_filterMap, Option.map_eq_some_iff, Prod.mk.injEq]
  constructor
  · rintro ⟨other, hother, found, hfound, rfl, rfl⟩
    exact ⟨hother, hfound⟩
  · rintro ⟨hkey, hvalues⟩
    exact ⟨key, hkey, values, hvalues, rfl, rfl⟩

-- The platform does what the code takes for granted: the check of the found flags is right, and
-- the host can read memory of the device.
structure ReadEnv.Works (env : ReadEnv reserved V dim) : Prop where
  exact : ∀ found, env.allFound found = found.all id
  host : env.hostReads = true

section Buffer

variable [DecidableEq K] {env : ReadEnv reserved V dim} {s : DB K V dim} {keys : List K} {key : K}

namespace GPUTreeHkv

variable {buffer : K → Option (Vector V dim)} {current : List K} {pairs : List (K × Vector V dim)}

theorem multisetBuffer_of_mem (env : ReadEnv reserved V dim) (current : List K)
    (buffer : K → Option (Vector V dim)) (hmem : key ∈ pairs.map Prod.fst)
    (hreserved : reserved key = false) :
    ∃ values, (key, values) ∈ pairs ∧
      multisetBuffer env current buffer pairs key = some values := by
  obtain ⟨pair, hpair, rfl⟩ := List.mem_map.mp hmem
  have hkept : pair.1 ∈ (pairs.filter fun pair => reserved pair.1 = false).map Prod.fst :=
    List.mem_map_of_mem (List.mem_filter.mpr ⟨hpair, by simpa using hreserved⟩)
  obtain ⟨values, hvalues, hwrite⟩ := writeAll_of_mem
    (fun key => if key ∈ current ∨ env.keeps key = true then buffer key else none) hkept
  exact ⟨values, (List.mem_filter.mp hvalues).1, hwrite⟩

theorem multisetBuffer_of_notMem (hcurrent : key ∈ current) (hmem : key ∉ pairs.map Prod.fst) :
    multisetBuffer env current buffer pairs key = buffer key := by
  have hkept : key ∉ (pairs.filter fun pair => reserved pair.1 = false).map Prod.fst :=
    fun hkept => hmem (List.map_subset _ (List.filter_subset_self _) hkept)
  rw [multisetBuffer, writeAll_of_notMem hkept, if_pos (Or.inl hcurrent)]

end GPUTreeHkv

namespace DB

theorem lookup_eq (env : ReadEnv reserved V dim) (s : DB K V dim) (keys : List K) :
    s.lookup env keys = { s with buffer := (s.lookup env keys).buffer } := by
  unfold lookup
  dsimp only
  split
  · rfl
  · rfl

theorem mem_missedKeys {config : StorageConfig} {table : K → Option (Vector V dim)} :
    key ∈ missedKeys config table keys ↔ key ∈ keys ∧ table key = none := by
  unfold missedKeys
  dsimp only
  split
  · simp [List.mem_filter]
  · simp [List.mem_dedup, List.mem_filter]

theorem buffer_lookup (hkey : key ∈ keys) (hgpu : s.gpu key = some values)
    (hreserved : reserved key = false) : (s.lookup env keys).buffer key = some values := by
  have hpair : (key, values) ∈ foundPairs s.gpu keys := mem_foundPairs.mpr ⟨hkey, hgpu⟩
  have hsome : foundPairs s.gpu keys ≠ [] := List.ne_nil_of_mem hpair
  obtain ⟨found, hfound, hbuffer⟩ := GPUTreeHkv.multisetBuffer_of_mem env [] s.buffer
    (List.mem_map_of_mem (f := Prod.fst) hpair) hreserved
  rw [lookup, if_neg hsome]
  refine hbuffer.trans ?_
  rw [← (mem_foundPairs.mp hfound).2, hgpu]

end DB

end Buffer

variable [Scalar K] [Scalar V]

namespace MemDiskTree

-- Where no read fails, the two paths of a single read ask for the same.
theorem get_eq_getResult {env : ReadEnv reserved V dim} (hmemtable : env.memtableStatus key = true)
    (hread : env.readStatus key = true) (config : StorageConfig) (rocks : RocksDB) :
    get config env rocks key =
      getResult env (rocks.get config.forceSkipMemtable (Scalar.toBytes key)) := by
  have hok : ¬env.readStatus key = false := by rw [hread]; decide
  rw [get, if_neg hok, if_neg hok, memtableValue, if_pos hmemtable, RocksDB.get]
  split
  · by_cases hskip : config.forceSkipMemtable = true
    · rw [if_pos hskip, if_pos hskip]
    · rw [if_neg hskip, if_neg hskip]
      cases hraw : rocks.memtable (Scalar.toBytes key) with
      | none => rw [overlay_of_none hraw]
      | some raw => rw [overlay_of_some hraw]
  · rfl

theorem map_fst_multiget (env : ReadEnv reserved V dim) (rocks : RocksDB) (keys : List K) :
    (multiget env rocks keys).map Prod.fst = keys := by
  apply List.ext_getElem
  · simp [multiget]
  · intro index hleft hright
    simp [multiget]

theorem map_fst_multigetGds (config : StorageConfig) (env : ReadEnv reserved V dim)
    (rocks : RocksDB) (keys : List K) :
    (multigetGds config env rocks keys).map Prod.fst = keys := by
  apply List.ext_getElem
  · simp [multigetGds]
  · intro index hleft hright
    simp [multigetGds]

end MemDiskTree

namespace DB

theorem map_fst_readBack (env : ReadEnv reserved V dim) (s : DB K V dim) (missed : List K) :
    (s.readBack env missed).map Prod.fst = missed := by
  unfold readBack
  split
  · exact MemDiskTree.map_fst_multigetGds s.config env s.rocks missed
  · exact MemDiskTree.map_fst_multiget env s.rocks missed

variable [DecidableEq K] {env : ReadEnv reserved V dim} {s : DB K V dim} {keys : List K}

def backPairs (env : ReadEnv reserved V dim) (s : DB K V dim) (keys : List K) :
    List (K × Vector V dim) :=
  s.readBack env (missedKeys s.config s.gpu keys)

def stored (env : ReadEnv reserved V dim) (s : DB K V dim) (keys : List K) : DB K V dim :=
  (s.lookup env keys).written (env.schedule s.gpu (s.backPairs env keys)).events

theorem answer_of_gpu {t : DB K V dim} (hbuffer : t.buffer = (s.lookup env keys).buffer)
    (hkey : key ∈ keys) (hgpu : s.gpu key = some values) (hreserved : reserved key = false) :
    (t.answer env keys (s.backPairs env keys)).2.buffer key = some values := by
  have hnotMem : key ∉ (s.backPairs env keys).map Prod.fst := by
    rw [backPairs, map_fst_readBack, mem_missedKeys, hgpu]
    rintro ⟨_, hnone⟩
    cases hnone
  refine (GPUTreeHkv.multisetBuffer_of_notMem hkey hnotMem).trans ?_
  rw [hbuffer]
  exact buffer_lookup hkey hgpu hreserved

theorem answer_of_missed (env : ReadEnv reserved V dim) (t : DB K V dim) (hkey : key ∈ keys)
    (hgpu : s.gpu key = none) (hreserved : reserved key = false) :
    ∃ values, (key, values) ∈ s.backPairs env keys ∧
      (t.answer env keys (s.backPairs env keys)).2.buffer key = some values := by
  have hmem : key ∈ (s.backPairs env keys).map Prod.fst := by
    rw [backPairs, map_fst_readBack]
    exact mem_missedKeys.mpr ⟨hkey, hgpu⟩
  exact GPUTreeHkv.multisetBuffer_of_mem env keys t.buffer hmem hreserved

omit [Scalar K] [Scalar V] [DecidableEq K] in
theorem saysAllFound_iff (henv : env.Works) :
    s.saysAllFound env keys ↔ ∀ key ∈ keys, (s.gpu key).isSome = true := by
  rw [saysAllFound, henv.exact, List.all_map, List.all_eq_true]
  rfl

-- The read goes past the GPU table and survives the read of the missed keys.
structure GoesBelow (env : ReadEnv reserved V dim) (s : DB K V dim) (keys : List K) : Prop where
  nonempty : keys ≠ []
  missed : ¬s.saysAllFound env keys
  alive : ¬s.crashes env (missedKeys s.config s.gpu keys)

omit [Scalar V] [DecidableEq K] in
theorem not_crashes_of_host (hhost : env.hostReads = true) (missed : List K) :
    ¬s.crashes env missed := by
  rintro ⟨-, hfalse, -⟩
  rw [hhost] at hfalse
  cases hfalse

omit [Scalar V] in
theorem goesBelow_of_works (henv : env.Works)
    (hmissed : ¬∀ key ∈ keys, (s.gpu key).isSome = true) : s.GoesBelow env keys where
  nonempty := by
    rintro rfl
    exact hmissed (List.forall_mem_nil _)
  missed := fun hfound => hmissed ((saysAllFound_iff henv).mp hfound)
  alive := not_crashes_of_host henv.host _

omit [Scalar K] [Scalar V] [DecidableEq K] in
theorem not_all_found (hkey : key ∈ keys) (hgpu : s.gpu key = none) :
    ¬∀ other ∈ keys, (s.gpu other).isSome = true := by
  intro hall
  have hsome := hall key hkey
  rw [hgpu] at hsome
  cases hsome

theorem multiget_found (hopen : s.initialized = true) (hkeys : keys ≠ [])
    (hfound : s.saysAllFound env keys) :
    s.multiget env keys = (.returned (.SUCCESS, keys.map s.gpu), s) := by
  rw [multiget, if_neg (by simp [hopen, hkeys]), if_pos hfound]

theorem multiget_crashed (hopen : s.initialized = true) (hkeys : keys ≠ [])
    (hmissed : ¬s.saysAllFound env keys)
    (hcrash : s.crashes env (missedKeys s.config s.gpu keys)) :
    s.multiget env keys = (.aborted "segmentation fault", s.lookup env keys) := by
  rw [multiget, if_neg (by simp [hopen, hkeys]), if_neg hmissed, if_pos hcrash]

theorem multiget_stopped (hopen : s.initialized = true) (hstop : ¬s.GoesBelow env keys) :
    (s.multiget env keys).2 = s ∨ (s.multiget env keys).2 = s.lookup env keys := by
  by_cases hkeys : keys = []
  · rw [multiget, if_pos (Or.inr hkeys)]
    exact Or.inl rfl
  by_cases hfound : s.saysAllFound env keys
  · rw [multiget_found hopen hkeys hfound]
    exact Or.inl rfl
  by_cases hcrash : s.crashes env (missedKeys s.config s.gpu keys)
  · rw [multiget_crashed hopen hkeys hfound hcrash]
    exact Or.inr rfl
  · exact absurd ⟨hkeys, hfound, hcrash⟩ hstop

theorem multiget_unchanged (hopen : s.initialized = true) (hfound : s.saysAllFound env keys) :
    (s.multiget env keys).2 = s := by
  by_cases hkeys : keys = []
  · rw [multiget, if_pos (Or.inr hkeys)]
  · rw [multiget_found hopen hkeys hfound]

theorem answer_of_stopped (hopen : s.initialized = true) (hstop : ¬s.GoesBelow env keys)
    (hreturned : s.multiget env keys = (.returned (result, found), next)) :
    s.saysAllFound env keys ∧ keys ≠ [] ∧ found = keys.map s.gpu := by
  by_cases hkeys : keys = []
  · rw [multiget, if_pos (Or.inr hkeys)] at hreturned
    cases hreturned
  by_cases hfound : s.saysAllFound env keys
  · rw [multiget_found hopen hkeys hfound] at hreturned
    cases hreturned
    exact ⟨hfound, hkeys, rfl⟩
  by_cases hcrash : s.crashes env (missedKeys s.config s.gpu keys)
  · rw [multiget_crashed hopen hkeys hfound hcrash] at hreturned
    cases hreturned
  · exact absurd ⟨hkeys, hfound, hcrash⟩ hstop

theorem readBack_lookup (env : ReadEnv reserved V dim) (s : DB K V dim) (keys : List K) :
    (s.lookup env keys).readBack env (missedKeys s.config s.gpu keys) = s.backPairs env keys := by
  rw [lookup_eq]
  rfl

theorem multiget_eq (hopen : s.initialized = true) (hbelow : s.GoesBelow env keys) :
    s.multiget env keys =
      match (s.lookup env keys).multiset env.toWriteEnv (s.backPairs env keys) with
      | (.returned _, t) =>
        (.returned (.SUCCESS, (t.answer env keys (s.backPairs env keys)).1),
          (t.answer env keys (s.backPairs env keys)).2)
      | (.threw what, t) => (.threw what, t)
      | (.aborted reason, t) => (.aborted reason, t) := by
  rw [multiget, if_neg (by simp [hopen, hbelow.nonempty]), if_neg hbelow.missed,
    if_neg hbelow.alive]
  generalize hback : s.backPairs env keys = pairs
  rw [← readBack_lookup] at hback
  subst hback
  rfl

theorem multiset_backPairs (env : ReadEnv reserved V dim) (hfault : env.fault = none)
    (hopen : s.initialized = true) (keys : List K) :
    (s.lookup env keys).multiset env.toWriteEnv (s.backPairs env keys) =
      (.returned .SUCCESS, s.stored env keys) := by
  have hgpu : (s.lookup env keys).gpu = s.gpu := by rw [lookup_eq]
  rw [multiset_clean _ hfault (by rw [lookup_eq]; exact hopen), hgpu]
  rfl

theorem multiget_missed (hfault : env.fault = none) (hopen : s.initialized = true)
    (hbelow : s.GoesBelow env keys) :
    s.multiget env keys =
      (.returned (.SUCCESS, ((s.stored env keys).answer env keys (s.backPairs env keys)).1),
        ((s.stored env keys).answer env keys (s.backPairs env keys)).2) := by
  rw [multiget_eq hopen hbelow, multiset_backPairs env hfault hopen]

end DB

end MlkvPlus
