import MlkvPlus.Db

namespace MlkvPlus

open Tiered

variable {K V : Type} {dim : Nat} [Scalar K] [Scalar V] {reserved : K → Bool}

theorem deserialize_serialize (hdim : dim < 2 ^ 64) (values : Vector V dim) :
    deserializeValueArray (serializeValueArray values) = values.toList := by
  have hsize : (serializeValueArray values).take 8 = Bytes.fixed 8 dim :=
    List.take_left' (Bytes.length_fixed 8 dim)
  have hcount : Bytes.decodeFixed (Bytes.fixed 8 dim) = dim :=
    Bytes.decodeFixed_fixed_of_lt (hdim.trans_eq (by norm_num))
  apply List.ext_getElem
  · simp [deserializeValueArray, hsize, hcount]
  · intro index hindex hlist
    have hlt : index < dim := by rwa [Vector.length_toList] at hlist
    have hslice := vectorBytes_slice values ⟨index, hlt⟩
    simp only [deserializeValueArray, List.getElem_map, List.getElem_range]
    rw [serializeValueArray, ← List.drop_drop, List.drop_left' (Bytes.length_fixed 8 dim), hslice,
      Scalar.ofBytes_toBytes]
    rfl

theorem serialize_injective (hdim : dim < 2 ^ 64) {first second : Vector V dim}
    (h : serializeValueArray first = serializeValueArray second) : first = second := by
  have hlists := congrArg (deserializeValueArray (V := V)) h
  rw [deserialize_serialize hdim, deserialize_serialize hdim] at hlists
  exact Vector.toList_inj.mp hlists

theorem MemDiskTree.loadVector_serialize (hdim : dim < 2 ^ 64) (heap : Nat → V)
    (values : Vector V dim) : loadVector heap (serializeValueArray values) = values := by
  ext index hindex
  simp [loadVector, deserialize_serialize hdim, List.getD_eq_getElem?_getD]

def RocksDB.stored (rocks : RocksDB) (key : K) : Option Bytes :=
  rocks.get false (Scalar.toBytes key)

theorem stored_flush (rocks : RocksDB) : (rocks.flush.stored : K → Option Bytes) = rocks.stored := by
  funext key
  simp [RocksDB.stored, RocksDB.get, RocksDB.flush, overlay]

namespace DB

-- What a reader of both tiers sees, as the bytes of the lower one.
def view (s : DB K V dim) : K → Option Bytes :=
  overlay (encoded serializeValueArray s.gpu) s.rocks.stored

theorem view_of_gpu {s : DB K V dim} (h : s.gpu key = some values) :
    s.view key = some (serializeValueArray values) :=
  overlay_of_some (by rw [encoded, h]; rfl)

theorem view_of_missed {s : DB K V dim} (h : s.gpu key = none) : s.view key = s.rocks.stored key :=
  overlay_of_none (by rw [encoded, h]; rfl)

end DB

theorem MemDiskTree.putEvicted_rocks (config : StorageConfig) (env : PutEnv reserved V dim)
    (rocks : RocksDB) (values : Vector V dim) :
    (putEvicted config env rocks values).2 = rocks ∨ ∃ found : Vector V dim,
      (putEvicted config env rocks values).2 = put rocks env.keyVariable found := by
  have hput : (if env.status = true then put rocks env.keyVariable values else rocks) = rocks ∨
      ∃ found : Vector V dim, (if env.status = true then put rocks env.keyVariable values else rocks) =
        put rocks env.keyVariable found := by
    split
    · exact Or.inr ⟨values, rfl⟩
    · exact Or.inl rfl
  unfold putEvicted
  split
  · exact Or.inl rfl
  dsimp only
  split
  · exact hput
  · exact hput

omit [Scalar K] [Scalar V] in
theorem Schedule.events_eq_nil {batch : List (K × Vector V dim)} (schedule : Schedule reserved batch)
    (h : ∀ key, key ∉ (inserts schedule.events).map Prod.fst) : schedule.events = [] := by
  have hnone : inserts schedule.events = [] := by
    rw [← List.map_eq_nil_iff (f := Prod.fst), List.eq_nil_iff_forall_not_mem]
    exact h
  exact eq_nil_of_inserts_drops hnone (schedule.quiet hnone)

omit [Scalar K] [Scalar V] in
theorem mem_inserts {batch : List (K × Vector V dim)} (schedule : Schedule reserved batch)
    (key : K) : key ∈ (inserts schedule.events).map Prod.fst ↔
      key ∈ batch.map Prod.fst ∧ reserved key = false := by
  rw [(schedule.complete.map Prod.fst).mem_iff]
  constructor
  · intro hkey
    obtain ⟨pair, hpair, rfl⟩ := List.mem_map.mp hkey
    obtain ⟨hbatch, hreserved⟩ := List.mem_filter.mp hpair
    exact ⟨List.mem_map_of_mem hbatch, by simpa using hreserved⟩
  · rintro ⟨hkey, hreserved⟩
    obtain ⟨pair, hpair, rfl⟩ := List.mem_map.mp hkey
    exact List.mem_map_of_mem (List.mem_filter.mpr ⟨hpair, by simpa using hreserved⟩)

omit [Scalar K] [Scalar V] in
theorem Schedule.events_of_nil (schedule : Schedule reserved ([] : List (K × Vector V dim))) :
    schedule.events = [] :=
  schedule.events_eq_nil fun key hkey => List.not_mem_nil ((mem_inserts schedule key).mp hkey).1

variable [DecidableEq K]

theorem stored_multiset (rocks : RocksDB) (pairs : List (K × Vector V dim)) :
    ((MemDiskTree.multiset rocks pairs).stored : K → Option Bytes) =
      writeAll rocks.stored (encodeAll serializeValueArray pairs) := by
  have hentries : pairs.map MemDiskTree.entryOf = (encodeAll serializeValueArray pairs).map
      fun pair => (Scalar.toBytes pair.1, pair.2) := by
    simp [encodeAll, MemDiskTree.entryOf]
  have hrename := writeAll_rename (Scalar.toBytes (α := K)) Scalar.toBytes_injective
    (overlay rocks.memtable rocks.sst) (encodeAll serializeValueArray pairs)
  rw [← hentries, ← overlay_writeAll] at hrename
  exact hrename

omit [DecidableEq K] in
theorem memtable_multiset (rocks : RocksDB) {pairs : List (K × Vector V dim)}
    (hmem : key ∈ pairs.map Prod.fst) (hsame : ∀ found, (key, found) ∈ pairs → found = values) :
    (MemDiskTree.multiset rocks pairs).memtable (Scalar.toBytes key) =
      some (serializeValueArray values) := by
  have hentry : Scalar.toBytes key ∈ (pairs.map MemDiskTree.entryOf).map Prod.fst := by
    obtain ⟨pair, hpair, rfl⟩ := List.mem_map.mp hmem
    rw [List.map_map]
    exact List.mem_map.mpr ⟨pair, hpair, rfl⟩
  obtain ⟨raw, hraw, hwrite⟩ := writeAll_of_mem rocks.memtable hentry
  obtain ⟨pair, hpair, heq⟩ := List.mem_map.mp hraw
  obtain ⟨hbytes, rfl⟩ := Prod.mk.inj heq
  obtain rfl := Scalar.toBytes_injective hbytes
  rw [← hsame pair.2 hpair]
  exact hwrite

omit [Scalar V] in
theorem GPUTreeHkv.put_table (env : PutEnv reserved V dim) (table : K → Option (Vector V dim))
    (key : K) (values : Vector V dim) :
    (put env table key values).2.1 = table ∨
      (put env table key values).2.1 = (insertAndEvict env table key values).1 := by
  unfold put
  split
  · exact Or.inl rfl
  · exact Or.inl rfl
  · exact Or.inr rfl
  generalize insertAndEvict env table key values = result
  obtain ⟨after, evicted⟩ := result
  cases evicted with
  | none => exact Or.inr rfl
  | some entry => exact Or.inr rfl

namespace DB

def written (s : DB K V dim) (events : List (Event K (Vector V dim))) : DB K V dim :=
  { s with
    gpu := (run s.gpu events).1
    rocks := MemDiskTree.multiset s.rocks (run s.gpu events).2 }

theorem multiset_clean {env : WriteEnv reserved V dim} {s : DB K V dim}
    (batch : List (K × Vector V dim)) (hfault : env.fault = none) (hopen : s.initialized = true) :
    s.multiset env batch =
      (.returned .SUCCESS, s.written (env.schedule s.gpu batch).events) := by
  rw [multiset, if_neg (by rw [hopen]; decide)]
  by_cases hbatch : batch = []
  · subst hbatch
    rw [if_pos rfl, (env.schedule s.gpu []).events_of_nil]
    rfl
  rw [if_neg hbatch]
  by_cases hevicted : (run s.gpu (env.schedule s.gpu batch).events).2 = []
  · simp only [GPUTreeHkv.multiset, hfault, hbatch, hevicted, reduceCtorEq, if_false, if_true,
      written]
    rfl
  · simp only [GPUTreeHkv.multiset, hfault, hbatch, hevicted, reduceCtorEq, if_false, written]

theorem multiset_success {env : WriteEnv reserved V dim} {s : DB K V dim}
    (batch : List (K × Vector V dim)) (hfault : env.fault = none) (hopen : s.initialized = true) :
    ∃ events, s.multiset env batch = (.returned .SUCCESS, s.written events) ∧
      ∀ pair ∈ inserts events, pair ∈ batch := by
  refine ⟨_, multiset_clean batch hfault hopen, fun pair hpair => ?_⟩
  exact (List.mem_filter.mp ((env.schedule s.gpu batch).complete.mem_iff.mp hpair)).1

theorem multiset_eq (env : WriteEnv reserved V dim) (s : DB K V dim)
    (batch : List (K × Vector V dim)) :
    (s.multiset env batch).2 =
      { s with
        gpu := (s.multiset env batch).2.gpu
        rocks := (s.multiset env batch).2.rocks } := by
  unfold multiset
  split
  · rfl
  split
  · rfl
  split
  · rfl
  · split
    · rfl
    · rfl
    · rfl
  · rfl

def putTiers (env : PutEnv reserved V dim) (s : DB K V dim) (key : K) (values : Vector V dim) :
    DB K V dim :=
  { s with
    gpu := (GPUTreeHkv.insertAndEvict env s.gpu key values).1
    rocks := match (GPUTreeHkv.insertAndEvict env s.gpu key values).2 with
      | some entry =>
        if env.status = true then MemDiskTree.put s.rocks env.keyVariable entry.2 else s.rocks
      | none => s.rocks }

-- A put, whatever fails in it, touches the two tiers only, and each of them once at most.
theorem put_cases (env : PutEnv reserved V dim) (s : DB K V dim) (key : K)
    (values : Vector V dim) : ∃ outcome gpu rocks,
      s.put env key values = (outcome, { s with gpu := gpu, rocks := rocks }) ∧
      (gpu = s.gpu ∨ gpu = (GPUTreeHkv.insertAndEvict env s.gpu key values).1) ∧
      (rocks = s.rocks ∨ ∃ found : Vector V dim,
        rocks = MemDiskTree.put s.rocks env.keyVariable found) := by
  have htable := GPUTreeHkv.put_table env s.gpu key values
  unfold put
  split
  · exact ⟨_, _, _, rfl, Or.inl rfl, Or.inl rfl⟩
  generalize GPUTreeHkv.put env s.gpu key values = result at htable ⊢
  obtain ⟨outcome, table, evicted⟩ := result
  cases outcome with
  | threw what => exact ⟨_, _, _, rfl, htable, Or.inl rfl⟩
  | aborted reason => exact ⟨_, _, _, rfl, htable, Or.inl rfl⟩
  | returned status =>
    cases evicted with
    | none => exact ⟨_, _, _, rfl, htable, Or.inl rfl⟩
    | some entry =>
      have hrocks := MemDiskTree.putEvicted_rocks s.config env s.rocks entry.2
      dsimp only
      generalize MemDiskTree.putEvicted s.config env s.rocks entry.2 = lower at hrocks ⊢
      obtain ⟨lowerOutcome, rocks⟩ := lower
      cases lowerOutcome with
      | threw what => exact ⟨_, _, _, rfl, htable, hrocks⟩
      | aborted reason => exact ⟨_, _, _, rfl, htable, hrocks⟩
      | returned status =>
        dsimp only
        split
        · exact ⟨_, _, _, rfl, htable, hrocks⟩
        · exact ⟨_, _, _, rfl, htable, hrocks⟩

theorem view_written (s : DB K V dim) (events : List (Event K (Vector V dim))) :
    (s.written events).view =
      writeAll s.view (encodeAll serializeValueArray (inserts events)) := by
  rw [view, written, stored_multiset]
  exact overlay_run serializeValueArray s.gpu s.rocks.stored events

theorem view_multiset {env : WriteEnv reserved V dim} {s : DB K V dim}
    {batch : List (K × Vector V dim)} (hfault : env.fault = none) (hopen : s.initialized = true)
    (hnodup : (batch.map Prod.fst).Nodup) :
    (s.multiset env batch).2.view = writeAll s.view (encodeAll serializeValueArray
      (batch.filter fun pair => reserved pair.1 = false)) := by
  have hperm := (env.schedule s.gpu batch).complete
  have hkept : ((batch.filter fun pair => reserved pair.1 = false).map Prod.fst).Nodup :=
    hnodup.sublist (List.filter_sublist.map Prod.fst)
  rw [multiset_clean batch hfault hopen, view_written]
  refine writeAll_perm ?_ (hperm.map _)
  rw [map_fst_encodeAll]
  exact (hperm.map Prod.fst).nodup_iff.mpr hkept

end DB

end MlkvPlus
