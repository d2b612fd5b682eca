import MlkvPlus.Db.Shown

namespace MlkvPlus

open Tiered

variable {K V : Type} {dim : Nat} [Scalar K] [Scalar V] {reserved : K → Bool}

namespace MemDiskTree

variable {config : StorageConfig} {env : ReadEnv reserved V dim} {rocks : RocksDB} {keys : List K}
  {key : K} {values : Vector V dim}

def plainValue (env : ReadEnv reserved V dim) (rocks : RocksDB) (index : Nat) (key : K) :
    Vector V dim :=
  if env.readStatus key = true then
    ((rocks.get false (Scalar.toBytes key)).map (loadVector env.heap)).getD (env.garbage index)
  else env.garbage index

def gdsValue (config : StorageConfig) (env : ReadEnv reserved V dim) (rocks : RocksDB)
    (keys : List K) (index : Nat) (key : K) : Vector V dim :=
  match if config.forceSkipMemtable = true then none else memtableValue env rocks key with
  | some raw => loadVector env.heap raw
  | none => ((sstValues env rocks (neededKeys config env rocks keys)).lookup index).getD
      (env.garbage index)

theorem multiget_eq_mapIdx : multiget env rocks keys =
    keys.mapIdx fun index key => (key, plainValue env rocks index key) := rfl

theorem multigetGds_eq_mapIdx : multigetGds config env rocks keys =
    keys.mapIdx fun index key => (key, gdsValue config env rocks keys index key) := rfl

omit [Scalar K] [Scalar V] in
theorem mem_mapIdx_pair {value : Nat → K → Vector V dim} :
    (key, values) ∈ keys.mapIdx (fun index key => (key, value index key)) ↔
      ∃ index, keys[index]? = some key ∧ values = value index key := by
  rw [List.mem_mapIdx]
  constructor
  · rintro ⟨index, hindex, heq⟩
    obtain ⟨rfl, rfl⟩ := Prod.mk.inj heq
    exact ⟨index, List.getElem?_eq_getElem hindex, rfl⟩
  · rintro ⟨index, hindex, rfl⟩
    obtain ⟨hlt, rfl⟩ := List.getElem?_eq_some_iff.mp hindex
    exact ⟨index, hlt, rfl⟩

-- The memtable tier gives the key's value.
def Held (memtable : K → Bool) (rocks : RocksDB) (key : K) : Prop :=
  memtable key = true ∧ (rocks.memtable (Scalar.toBytes key)).isSome = true

omit [Scalar V] in
theorem memtableValue_eq_none_iff :
    memtableValue env rocks key = none ↔ ¬Held env.memtableStatus rocks key := by
  rw [memtableValue, Held]
  split
  case isTrue hstatus => simp [hstatus]
  case isFalse hstatus => simp [hstatus]

omit [Scalar V] in
theorem memtableValue_eq_some_iff : memtableValue env rocks key = some raw ↔
    env.memtableStatus key = true ∧ rocks.memtable (Scalar.toBytes key) = some raw := by
  rw [memtableValue]
  split
  case isTrue hstatus => simp [hstatus]
  case isFalse hstatus => simp [hstatus]

omit [Scalar V] in
theorem mem_neededKeys : (key, index) ∈ neededKeys config env rocks keys ↔
    config.forceSkipMemtable = false ∧ keys[index]? = some key ∧
      ¬Held env.memtableStatus rocks key := by
  rw [← memtableValue_eq_none_iff, neededKeys]
  split
  case isTrue hskip => simp [hskip]
  case isFalse hskip => simp [hskip, List.mem_filter, List.mem_zipIdx_iff_getElem?]

omit [Scalar V] in
theorem sorted_neededKeys (config : StorageConfig) (env : ReadEnv reserved V dim) (rocks : RocksDB)
    (keys : List K) :
    (neededKeys config env rocks keys).Pairwise fun first second => first.2 < second.2 := by
  rw [neededKeys]
  split
  · exact List.Pairwise.nil
  have hall : keys.zipIdx.Pairwise fun first second => first.2 < second.2 := by
    rw [← List.pairwise_map (f := Prod.snd) (R := (· < ·)), List.zipIdx_map_snd]
    exact List.pairwise_lt_range'
  exact hall.sublist List.filter_sublist

-- The bytes of a key that is the null pointer when taken as one.
def IsNull (key : K) : Prop := Scalar.toBytes key = List.replicate (Scalar.size K) 0

-- The loop goes on behind the key.
def Passes (files : K → Bool) (key : K) : Prop := ¬IsNull key ∧ files key = true

-- Up to the first key that it does not pass, the loop over the files reads what is there.
theorem mem_sstValues_iff (hsorted : needed.Pairwise fun first second => first.2 < second.2) :
    (index, values) ∈ sstValues env rocks needed ↔
      ∃ key raw, (key, index) ∈ needed ∧
        (∀ entry ∈ needed, entry.2 ≤ index → Passes env.readStatus entry.1) ∧
        rocks.sst (Scalar.toBytes key) = some raw ∧ values = loadVector env.heap raw := by
  induction needed with
  | nil => simp [sstValues]
  | cons entry rest ih =>
    obtain ⟨first, position⟩ := entry
    obtain ⟨hfirst, hrest⟩ := List.pairwise_cons.mp hsorted
    have hposition : ∀ key, (key, index) ∈ (first, position) :: rest → position ≤ index := by
      intro key hmem
      rcases List.mem_cons.mp hmem with heq | hmem
      · rw [(Prod.mk.inj heq).2]
      · exact (hfirst _ hmem).le
    rw [sstValues]
    split
    · rename_i hstop
      constructor
      · intro hmem
        cases hmem
      · rintro ⟨key, raw, hmem, hread, -⟩
        obtain ⟨hnull, hstatus⟩ := hread _ List.mem_cons_self (hposition key hmem)
        rcases hstop with hzero | hfails
        · exact absurd hzero hnull
        · rw [hstatus] at hfails
          cases hfails
    · rename_i hstop
      have hpasses : Passes env.readStatus first := by simpa [Passes, IsNull] using hstop
      simp only [List.forall_mem_cons, hpasses, implies_true, true_and]
      split
      · rename_i hnone
        rw [ih hrest]
        constructor
        · rintro ⟨key, raw, hmem, hread⟩
          exact ⟨key, raw, List.mem_cons_of_mem _ hmem, hread⟩
        · rintro ⟨key, raw, hmem, hread, hraw, hvalues⟩
          rcases List.mem_cons.mp hmem with heq | hmem
          · rw [(Prod.mk.inj heq).1, hnone] at hraw
            cases hraw
          · exact ⟨key, raw, hmem, hread, hraw, hvalues⟩
      · rename_i found hfound
        rw [List.mem_cons, ih hrest]
        constructor
        · rintro (heq | ⟨key, raw, hmem, hread⟩)
          · obtain ⟨rfl, rfl⟩ := Prod.mk.inj heq
            refine ⟨first, found, List.mem_cons_self, fun entry hentry hle => ?_, hfound, rfl⟩
            exact absurd (hfirst entry hentry) hle.not_gt
          · exact ⟨key, raw, List.mem_cons_of_mem _ hmem, hread⟩
        · rintro ⟨key, raw, hmem, hread, hraw, hvalues⟩
          rcases List.mem_cons.mp hmem with heq | hmem
          · obtain ⟨rfl, rfl⟩ := Prod.mk.inj heq
            rw [hfound] at hraw
            cases hraw
            exact Or.inl (by rw [hvalues])
          · exact Or.inr ⟨key, raw, hmem, hread, hraw, hvalues⟩

-- The GDS path reads the bytes for the key at an index: from the memtable tier, or from the files
-- if the loop gets so far. `memtable` and `files` say which reads work.
def GdsReads (memtable files : K → Bool) (config : StorageConfig) (rocks : RocksDB) (keys : List K)
    (index : Nat) (key : K) (raw : Bytes) : Prop :=
  config.forceSkipMemtable = false ∧
    (memtable key = true ∧ rocks.memtable (Scalar.toBytes key) = some raw ∨
      ¬Held memtable rocks key ∧ rocks.sst (Scalar.toBytes key) = some raw ∧
        ∀ (earlier : Nat) other, keys[earlier]? = some other → earlier ≤ index →
          Held memtable rocks other ∨ Passes files other)

theorem GdsReads.unique (hfirst : GdsReads memtable files config rocks keys index key first)
    (hsecond : GdsReads memtable files config rocks keys index key second) : first = second := by
  rcases hfirst.2 with ⟨hstatus, hraw⟩ | ⟨hmiss, hraw, -⟩
  · rcases hsecond.2 with ⟨-, hother⟩ | ⟨hmiss, -⟩
    · rw [hraw] at hother
      exact Option.some.inj hother
    · exact absurd ⟨hstatus, by rw [hraw]; rfl⟩ hmiss
  · rcases hsecond.2 with ⟨hstatus, hother⟩ | ⟨-, hother, -⟩
    · exact absurd ⟨hstatus, by rw [hother]; rfl⟩ hmiss
    · rw [hraw] at hother
      exact Option.some.inj hother

theorem lookup_sstValues_iff (hkey : keys[index]? = some key)
    (hheld : ¬Held env.memtableStatus rocks key) :
    (sstValues env rocks (neededKeys config env rocks keys)).lookup index = some values ↔
      ∃ raw, GdsReads env.memtableStatus env.readStatus config rocks keys index key raw ∧
        values = loadVector env.heap raw := by
  have hreads : ∀ values, (index, values) ∈ sstValues env rocks (neededKeys config env rocks keys) ↔
      ∃ raw, GdsReads env.memtableStatus env.readStatus config rocks keys index key raw ∧
        values = loadVector env.heap raw := by
    intro values
    rw [mem_sstValues_iff (sorted_neededKeys config env rocks keys)]
    constructor
    · rintro ⟨other, raw, hneeded, hpass, hraw, hvalues⟩
      obtain ⟨hskip, hother, -⟩ := mem_neededKeys.mp hneeded
      rw [hkey] at hother
      cases hother
      refine ⟨raw, ⟨hskip, Or.inr ⟨hheld, hraw, fun earlier other hother hle => ?_⟩⟩, hvalues⟩
      by_cases hfound : Held env.memtableStatus rocks other
      · exact Or.inl hfound
      · exact Or.inr (hpass (other, earlier) (mem_neededKeys.mpr ⟨hskip, hother, hfound⟩) hle)
    · rintro ⟨raw, ⟨hskip, hwhere⟩, hvalues⟩
      rcases hwhere with ⟨hstatus, hraw⟩ | ⟨-, hraw, hpass⟩
      · exact absurd ⟨hstatus, by rw [hraw]; rfl⟩ hheld
      · refine ⟨key, raw, mem_neededKeys.mpr ⟨hskip, hkey, hheld⟩, fun entry hentry hle => ?_,
          hraw, hvalues⟩
        obtain ⟨-, hother, hmiss⟩ := mem_neededKeys.mp hentry
        exact (hpass entry.2 entry.1 hother hle).resolve_left hmiss
  constructor
  · intro hlookup
    obtain ⟨before, after, hsplit, -⟩ := List.lookup_eq_some_iff.mp hlookup
    refine (hreads values).mp ?_
    rw [hsplit]
    exact List.mem_append_right before List.mem_cons_self
  · intro hvalues
    have hsome : ((sstValues env rocks (neededKeys config env rocks keys)).lookup index).isSome =
        true := List.lookup_isSome_iff.mpr ⟨_, (hreads values).mpr hvalues, by simp⟩
    obtain ⟨found, hfound⟩ := Option.isSome_iff_exists.mp hsome
    obtain ⟨before, after, hsplit, -⟩ := List.lookup_eq_some_iff.mp hfound
    have hmem : (index, found) ∈ sstValues env rocks (neededKeys config env rocks keys) := by
      rw [hsplit]
      exact List.mem_append_right before List.mem_cons_self
    obtain ⟨raw, hraw, rfl⟩ := (hreads found).mp hmem
    obtain ⟨other, hother, rfl⟩ := hvalues
    rw [hfound, GdsReads.unique hraw hother]

theorem gdsValue_of_reads (hkey : keys[index]? = some key)
    (hreads : GdsReads env.memtableStatus env.readStatus config rocks keys index key raw) :
    gdsValue config env rocks keys index key = loadVector env.heap raw := by
  rw [gdsValue, if_neg (by rw [hreads.1]; decide)]
  by_cases hheld : Held env.memtableStatus rocks key
  · obtain ⟨other, hother⟩ := Option.isSome_iff_exists.mp hheld.2
    rw [memtableValue_eq_some_iff.mpr ⟨hheld.1, hother⟩]
    rcases hreads.2 with ⟨-, hraw⟩ | ⟨hmiss, -⟩
    · rw [hother] at hraw
      cases hraw
      rfl
    · exact absurd hheld hmiss
  · rw [memtableValue_eq_none_iff.mpr hheld]
    dsimp only
    rw [(lookup_sstValues_iff hkey hheld).mpr ⟨raw, hreads, rfl⟩, Option.getD_some]

theorem gdsValue_of_not_reads (hkey : keys[index]? = some key)
    (hreads : ∀ raw, ¬GdsReads env.memtableStatus env.readStatus config rocks keys index key raw) :
    gdsValue config env rocks keys index key = env.garbage index := by
  have hheld : config.forceSkipMemtable = false → ¬Held env.memtableStatus rocks key := by
    rintro hskip ⟨hstatus, hsome⟩
    obtain ⟨raw, hraw⟩ := Option.isSome_iff_exists.mp hsome
    exact hreads raw ⟨hskip, Or.inl ⟨hstatus, hraw⟩⟩
  have hnone : (if config.forceSkipMemtable = true then none else memtableValue env rocks key) =
      none := by
    split
    · rfl
    · rename_i hskip
      exact memtableValue_eq_none_iff.mpr (hheld (Bool.eq_false_of_not_eq_true hskip))
  rw [gdsValue, hnone]
  dsimp only
  cases hlookup : (sstValues env rocks (neededKeys config env rocks keys)).lookup index with
  | none => rfl
  | some values =>
    cases hskip : config.forceSkipMemtable with
    | true =>
      rw [neededKeys, if_pos hskip] at hlookup
      cases hlookup
    | false =>
      obtain ⟨raw, hraw, -⟩ := (lookup_sstValues_iff hkey (hheld hskip)).mp hlookup
      exact absurd hraw (hreads raw)

end MemDiskTree

theorem exists_other_vector (hdim : dim < 2 ^ 64) (raw : Option Bytes)
    (h : ¬(Subsingleton (Vector V dim) ∧ raw.isSome = true)) :
    ∃ values : Vector V dim, raw ≠ some (serializeValueArray values) := by
  by_cases hraw : raw.isSome = true
  · have hnot : ¬Subsingleton (Vector V dim) := fun hone => h ⟨hone, hraw⟩
    rw [not_subsingleton_iff_nontrivial] at hnot
    obtain ⟨first, second, hne⟩ := hnot
    by_cases hfirst : raw = some (serializeValueArray first)
    · refine ⟨second, fun hsecond => hne ?_⟩
      rw [hfirst] at hsecond
      exact serialize_injective hdim (Option.some.inj hsecond)
    · exact ⟨first, hfirst⟩
  · refine ⟨Vector.replicate dim (Scalar.ofBytes []), fun hsome => hraw ?_⟩
    rw [hsome]
    rfl

namespace DB

variable [DecidableEq K] {s : DB K V dim} {env : ReadEnv reserved V dim} {keys : List K} {key : K}
  {values : Vector V dim}

-- What the configured path has for the missed key at an index.
def readValue (env : ReadEnv reserved V dim) (s : DB K V dim) (keys : List K) (index : Nat)
    (key : K) : Vector V dim :=
  if s.config.enableGdsGetFromSst = true then
    MemDiskTree.gdsValue s.config env s.rocks (missedKeys s.config s.gpu keys) index key
  else MemDiskTree.plainValue env s.rocks index key

theorem mem_backPairs : (key, values) ∈ s.backPairs env keys ↔
    ∃ index, (missedKeys s.config s.gpu keys)[index]? = some key ∧
      values = s.readValue env keys index key := by
  unfold backPairs readBack readValue
  split
  · rw [MemDiskTree.multigetGds_eq_mapIdx, MemDiskTree.mem_mapIdx_pair]
  · rw [MemDiskTree.multiget_eq_mapIdx, MemDiskTree.mem_mapIdx_pair]

-- The answers of a batch read that meets no failing write.
structure Answers (env : ReadEnv reserved V dim) (s : DB K V dim) (keys : List K)
    (answer : K → Option (Vector V dim)) : Prop where
  refused : ∀ key ∈ keys, reserved key = true → answer key = none
  gpu : ∀ key ∈ keys, ∀ values, s.gpu key = some values → answer key = some values
  missed : ∀ key ∈ keys, reserved key = false → s.gpu key = none →
    ∃ values, (key, values) ∈ s.backPairs env keys ∧ answer key = some values

theorem Sane.multiget_answers (h : Sane reserved s) (hfault : env.fault = none)
    (hbelow : s.GoesBelow env keys) :
    ∃ answer next, s.multiget env keys = (.returned (.SUCCESS, keys.map answer), next) ∧
      Answers env s keys answer := by
  have hstored : Sane reserved (s.stored env keys) := by
    have hwrite := (h.lookup env keys).multiset env.toWriteEnv (s.backPairs env keys)
    rwa [multiset_backPairs env hfault h.isOpen] at hwrite
  refine ⟨_, _, multiget_missed hfault h.isOpen hbelow, fun key hkey hreserved => ?_,
    fun key hkey values hgpu => ?_, fun key hkey hreserved hgpu => ?_⟩
  · by_contra hsome
    rw [← Ne, Option.ne_none_iff_isSome] at hsome
    rw [(hstored.answer env keys (s.backPairs env keys)).buffer key hsome] at hreserved
    cases hreserved
  · refine answer_of_gpu rfl hkey hgpu (h.gpu key ?_)
    rw [hgpu]
    rfl
  · exact answer_of_missed env (s.stored env keys) hkey hgpu hreserved

-- A check that finds nothing missing gives the same answers, as far as keys can be stored at all.
theorem Sane.answers_of_found (h : Sane reserved s) (hkeys : keys ≠ [])
    (hanswer : s.saysAllFound env keys)
    (hfound : ∀ key ∈ keys, reserved key = false → (s.gpu key).isSome = true) :
    ∃ answer next, s.multiget env keys = (.returned (.SUCCESS, keys.map answer), next) ∧
      Answers env s keys answer := by
  refine ⟨s.gpu, s, multiget_found h.isOpen hkeys hanswer, fun key hkey hreserved => ?_,
    fun _ _ _ hgpu => hgpu, fun key hkey hfree hgpu => ?_⟩
  · by_contra hsome
    rw [← Ne, Option.ne_none_iff_isSome] at hsome
    rw [h.gpu key hsome] at hreserved
    cases hreserved
  · have hsome := hfound key hkey hfree
    rw [hgpu] at hsome
    cases hsome

theorem shown_multiget (hopen : s.initialized = true) (hbelow : s.GoesBelow env keys)
    (hfault : env.fault ≠ some .noTable) :
    (s.multiget env keys).2.shown = (s.readBackTiers env keys).shown := by
  obtain ⟨buffer, hnext⟩ := multiget_tiers hopen hbelow hfault
  rw [hnext]
  rfl

end DB

end MlkvPlus
