import MlkvPlus.Db.Steps

namespace MlkvPlus

open Tiered

variable {K V : Type} {dim : Nat} [Scalar K] [Scalar V] {reserved : K → Bool}

-- Neither CUDA nor RocksDB fails.
structure ReadEnv.Clean (env : ReadEnv reserved V dim) : Prop extends env.Works where
  fault : env.fault = none
  memtable : ∀ key, env.memtableStatus key = true
  read : ∀ key, env.readStatus key = true

omit [Scalar K] in
theorem ReadEnv.works_dropping (dropped : List K) (fault : Option Fault) :
    (ReadEnv.dropping reserved dropped fault : ReadEnv reserved V dim).Works :=
  ⟨fun _ => rfl, rfl⟩

omit [Scalar K] in
theorem ReadEnv.clean_dropping (dropped : List K) :
    (ReadEnv.dropping reserved dropped none : ReadEnv reserved V dim).Clean :=
  ⟨works_dropping dropped none, rfl, fun _ => rfl, fun _ => rfl⟩

-- The calls of a client that keeps the contract of the hash table, and RocksDB's own flushes.
def Op.Plain : Op K V dim reserved → Prop
  | .put _ _ _ => False
  | .multiset env batch =>
    env.fault = none ∧ (batch.map Prod.fst).Nodup ∧ ∀ pair ∈ batch, reserved pair.1 = false
  | .get _ _ => True
  | .multiget env _ => env.Clean
  | .flush => True

theorem MemDiskTree.mem_multiget (hdim : dim < 2 ^ 64) {env : ReadEnv reserved V dim}
    (henv : env.Clean) (hmem : (key, found) ∈ multiget env rocks keys)
    (hstored : rocks.stored key = some (serializeValueArray values)) : found = values := by
  obtain ⟨index, hindex, heq⟩ := List.mem_mapIdx.mp hmem
  obtain ⟨rfl, rfl⟩ := Prod.mk.inj heq
  rw [RocksDB.stored] at hstored
  rw [if_pos (henv.read _), hstored]
  exact loadVector_serialize hdim env.heap values

namespace DB

-- The store of the plain map is what a reader sees: the GPU copy if there is one, and the
-- copy in RocksDB otherwise.
structure Fresh (reserved : K → Bool) (config : StorageConfig) (store : K → Option (Vector V dim))
    (s : DB K V dim) : Prop where
  isOpen : s.initialized = true
  sameConfig : s.config = config
  plain : config.enableGdsGetFromSst = false
  unreserved : ∀ key values, store key = some values → reserved key = false
  view : ∀ key values, store key = some values → s.view key = some (serializeValueArray values)

variable {config : StorageConfig} {store : K → Option (Vector V dim)} {s : DB K V dim} {key : K}
  {values found : Vector V dim}

theorem Fresh.withBuffer (h : Fresh reserved config store s)
    (buffer : K → Option (Vector V dim)) : Fresh reserved config store { s with buffer := buffer } :=
  ⟨h.isOpen, h.sameConfig, h.plain, h.unreserved, h.view⟩

theorem Fresh.flush (h : Fresh reserved config store s) :
    Fresh reserved config store { s with rocks := s.rocks.flush } := by
  refine ⟨h.isOpen, h.sameConfig, h.plain, h.unreserved, fun key values hstore => ?_⟩
  have hview := h.view key values hstore
  rwa [DB.view, ← stored_flush] at hview

theorem Fresh.gpu (hdim : dim < 2 ^ 64) (h : Fresh reserved config store s)
    (hstore : store key = some values) (hgpu : s.gpu key = some found) : found = values := by
  have hview := h.view key values hstore
  rw [view_of_gpu hgpu] at hview
  exact serialize_injective hdim (Option.some.inj hview)

theorem Fresh.rocks (h : Fresh reserved config store s) (hstore : store key = some values)
    (hgpu : s.gpu key = none) : s.rocks.stored key = some (serializeValueArray values) := by
  rw [← view_of_missed hgpu]
  exact h.view key values hstore

theorem Fresh.get_eq (hdim : dim < 2 ^ 64) (h : Fresh reserved config store s)
    (hskip : config.forceSkipMemtable = false) {env : ReadEnv reserved V dim} (henv : env.Clean)
    (hstore : store key = some values) :
    s.get env key = .returned (.SUCCESS, some values) := by
  rw [DB.get, if_neg (by rw [h.isOpen]; decide)]
  cases hgpu : s.gpu key with
  | some found => rw [h.gpu hdim hstore hgpu]
  | none =>
    have hrocks := h.rocks hstore hgpu
    rw [RocksDB.stored] at hrocks
    rw [MemDiskTree.get_eq_getResult (henv.memtable key) (henv.read key), h.sameConfig, hskip,
      hrocks, MemDiskTree.getResult, MemDiskTree.loadVector_serialize hdim]

end DB

variable [DecidableEq K]

-- A plain map: only the batch writes change it.
def Op.apply (store : K → Option (Vector V dim)) : Op K V dim reserved → K → Option (Vector V dim)
  | .multiset _ batch => writeAll store batch
  | _ => store

def lastWrite (ops : List (Op K V dim reserved)) : K → Option (Vector V dim) :=
  ops.foldl Op.apply fun _ => none

namespace DB

variable {config : StorageConfig} {store : K → Option (Vector V dim)} {s : DB K V dim}
  {env : ReadEnv reserved V dim} {keys : List K} {key : K} {values : Vector V dim}

theorem Fresh.backPairs (hdim : dim < 2 ^ 64) (h : Fresh reserved config store s) (henv : env.Clean)
    (hstore : store key = some values) {found : Vector V dim}
    (hmem : (key, found) ∈ s.backPairs env keys) : found = values := by
  have hkey : key ∈ (s.backPairs env keys).map Prod.fst := List.mem_map_of_mem hmem
  rw [DB.backPairs, map_fst_readBack] at hkey
  rw [DB.backPairs, readBack, if_neg (by rw [h.sameConfig, h.plain]; decide)] at hmem
  exact MemDiskTree.mem_multiget hdim henv hmem (h.rocks hstore (mem_missedKeys.mp hkey).2)

theorem Fresh.multiset {env : WriteEnv reserved V dim} (h : Fresh reserved config store s)
    (hfault : env.fault = none) (hnodup : (batch.map Prod.fst).Nodup)
    (hbatch : ∀ pair ∈ batch, reserved pair.1 = false) :
    Fresh reserved config (writeAll store batch) (s.multiset env batch).2 := by
  have hsame : ∀ key values, writeAll store batch key = some values →
      key ∉ batch.map Prod.fst → store key = some values := by
    intro key values hwrite hkey
    rwa [writeAll_of_notMem hkey] at hwrite
  refine ⟨?_, ?_, h.plain, ?_, ?_⟩
  · rw [multiset_eq]
    exact h.isOpen
  · rw [multiset_eq]
    exact h.sameConfig
  · intro key values hwrite
    by_cases hkey : key ∈ batch.map Prod.fst
    · obtain ⟨pair, hpair, rfl⟩ := List.mem_map.mp hkey
      exact hbatch pair hpair
    · exact h.unreserved key values (hsame key values hwrite hkey)
  · intro key values hwrite
    have hview : key ∉ (encodeAll serializeValueArray batch).map Prod.fst →
        s.view key = encoded serializeValueArray store key := by
      intro hkey
      rw [map_fst_encodeAll] at hkey
      have hstore := hsame key values hwrite hkey
      rw [h.view key values hstore, encoded, hstore]
      rfl
    rw [view_multiset hfault h.isOpen hnodup, List.filter_eq_self.mpr (by simpa using hbatch),
      writeAll_congr hview, writeAll_encodeAll, encoded, hwrite]
    rfl

theorem Fresh.written (h : Fresh reserved config store s)
    (hinserts : ∀ key found values, (key, found) ∈ inserts events → store key = some values →
      found = values) : Fresh reserved config store (s.written events) := by
  refine ⟨h.isOpen, h.sameConfig, h.plain, h.unreserved, fun key values hstore => ?_⟩
  rw [view_written]
  exact writeAll_encodeAll_same _ (h.view key values hstore) fun found hfound =>
    hinserts key found values hfound hstore

theorem Fresh.lookup (h : Fresh reserved config store s) (env : ReadEnv reserved V dim)
    (keys : List K) : Fresh reserved config store (s.lookup env keys) := by
  rw [lookup_eq]
  exact h.withBuffer _

theorem Fresh.stored (hdim : dim < 2 ^ 64) (h : Fresh reserved config store s) (henv : env.Clean)
    (keys : List K) : Fresh reserved config store (s.stored env keys) := by
  refine (h.lookup env keys).written fun key found values hfound hstore => ?_
  have hcomplete := (env.schedule s.gpu (s.backPairs env keys)).complete
  exact h.backPairs hdim henv hstore (List.mem_filter.mp (hcomplete.mem_iff.mp hfound)).1

theorem Fresh.multiget (hdim : dim < 2 ^ 64) (h : Fresh reserved config store s)
    (henv : env.Clean) (keys : List K) :
    Fresh reserved config store (s.multiget env keys).2 := by
  by_cases hfound : ∀ key ∈ keys, (s.gpu key).isSome = true
  · rw [multiget_unchanged h.isOpen ((saysAllFound_iff henv.toWorks).mpr hfound)]
    exact h
  · rw [multiget_missed henv.fault h.isOpen (goesBelow_of_works henv.toWorks hfound)]
    exact (h.stored hdim henv keys).withBuffer _

theorem Fresh.step (hdim : dim < 2 ^ 64) (h : Fresh reserved config store s) {op : Op K V dim reserved}
    (hop : op.Plain) : Fresh reserved config (op.apply store) (s.step op) := by
  cases op with
  | put env key values => exact hop.elim
  | multiset env batch => exact h.multiset hop.1 hop.2.1 hop.2.2
  | get env key => exact h
  | multiget env keys => exact h.multiget hdim hop keys
  | flush => exact h.flush

theorem Fresh.runOps (hdim : dim < 2 ^ 64) (h : Fresh reserved config store s)
    {ops : List (Op K V dim reserved)} (hops : ∀ op ∈ ops, op.Plain) :
    Fresh reserved config (ops.foldl Op.apply store) (s.runOps ops) := by
  induction ops generalizing store s with
  | nil => exact h
  | cons op rest ih =>
    exact ih (h.step hdim (hops op List.mem_cons_self))
      fun other hother => hops other (List.mem_cons_of_mem op hother)

theorem Fresh.answer_eq (hdim : dim < 2 ^ 64) (h : Fresh reserved config store s) (henv : env.Clean)
    (hkey : key ∈ keys) (hstore : store key = some values) :
    ((s.stored env keys).answer env keys (s.backPairs env keys)).2.buffer key = some values := by
  have hreserved := h.unreserved key values hstore
  cases hgpu : s.gpu key with
  | some found =>
    obtain rfl := h.gpu hdim hstore hgpu
    exact answer_of_gpu rfl hkey hgpu hreserved
  | none =>
    obtain ⟨found, hfound, hanswer⟩ := answer_of_missed env (s.stored env keys) hkey hgpu hreserved
    obtain rfl := h.backPairs hdim henv hstore hfound
    exact hanswer

theorem Fresh.multiget_eq (hdim : dim < 2 ^ 64) (h : Fresh reserved config store s) (henv : env.Clean)
    (hkey : key ∈ keys) (hstore : store key = some values) :
    ∃ answer next, s.multiget env keys = (.returned (.SUCCESS, keys.map answer), next) ∧
      answer key = some values := by
  by_cases hfound : ∀ key ∈ keys, (s.gpu key).isSome = true
  · refine ⟨_, _, multiget_found h.isOpen (List.ne_nil_of_mem hkey)
      ((saysAllFound_iff henv.toWorks).mpr hfound), ?_⟩
    obtain ⟨found, hgpu⟩ := Option.isSome_iff_exists.mp (hfound key hkey)
    rw [hgpu, h.gpu hdim hstore hgpu]
  · exact ⟨_, _, multiget_missed henv.fault h.isOpen (goesBelow_of_works henv.toWorks hfound),
      h.answer_eq hdim henv hkey hstore⟩

-- Whatever the GPU table evicts and whatever is read in between, the reads return the vector
-- of the last batch write of a key. Within a call the evicted arrays stand in the order in
-- which the table drops the entries; where a call drops no key twice, that order does not show.
theorem reads_return_lastWrite (hdim : dim < 2 ^ 64) {db : DB K V dim}
    (hopen : db.initialized = true) (hgds : db.config.enableGdsGetFromSst = false)
    (hskip : db.config.forceSkipMemtable = false) {ops : List (Op K V dim reserved)}
    (hops : ∀ op ∈ ops, op.Plain) {key : K} {values : Vector V dim}
    (hwrite : lastWrite ops key = some values) {env : ReadEnv reserved V dim}
    (henv : env.Clean) :
    (db.runOps ops).get env key = .returned (.SUCCESS, some values) ∧
      ∀ keys, key ∈ keys → ∃ found next,
        (db.runOps ops).multiget env keys = (.returned (.SUCCESS, found), next) ∧
          found.length = keys.length ∧
          ∀ index : Nat, keys[index]? = some key → found[index]? = some (some values) := by
  have hempty : Fresh reserved db.config (fun _ => none) db :=
    ⟨hopen, rfl, hgds, fun _ _ => nofun, fun _ _ => nofun⟩
  have hfresh := hempty.runOps hdim hops
  refine ⟨hfresh.get_eq hdim hskip henv hwrite, fun keys hkey => ?_⟩
  obtain ⟨answer, next, hmultiget, hanswer⟩ := hfresh.multiget_eq hdim henv hkey hwrite
  refine ⟨keys.map answer, next, hmultiget, List.length_map _, fun index hindex => ?_⟩
  rw [List.getElem?_map, hindex, Option.map_some, hanswer]

-- The key is evicted by the write of it, comes back with a read, and is written again.
theorem reads_return_lastWrite_evicted :
    let env : ReadEnv (fun _ : UInt64 => false) UInt32 1 := .dropping _ [7] none
    let ops : List (Op UInt64 UInt32 1 fun _ => false) :=
      [.multiset env.toWriteEnv [(7, #v[1])], .multiget env [8, 7, 7],
        .multiset env.toWriteEnv [(7, #v[2]), (9, #v[3])]]
    lastWrite ops 7 = some #v[2] ∧
      ((DB.opened {}).runOps ops).get env 7 = .returned (.SUCCESS, some #v[2]) := by
  intro env ops
  have hops : ∀ op ∈ ops, op.Plain := by
    simp only [ops, List.forall_mem_cons]
    refine ⟨⟨rfl, by decide, fun _ _ => rfl⟩, ReadEnv.clean_dropping [7],
      ⟨rfl, by decide, fun _ _ => rfl⟩, List.forall_mem_nil _⟩
  exact ⟨rfl, (reads_return_lastWrite (by decide) rfl rfl rfl hops rfl
    (ReadEnv.clean_dropping [7])).1⟩

end DB

end MlkvPlus
