import MlkvPlus.Db.Reads

namespace MlkvPlus

open Tiered

variable {K V : Type} {dim : Nat} [Scalar K] [Scalar V] {reserved : K → Bool}

def IsEncoding (V : Type) [Scalar V] (dim : Nat) (raw : Bytes) : Prop :=
  ∃ values : Vector V dim, raw = serializeValueArray values

-- RocksDB holds encoded vectors only, whatever the keys are that they are under.
structure RocksDB.Encoded (V : Type) [Scalar V] (dim : Nat) (rocks : RocksDB) : Prop where
  memtable : Each (IsEncoding V dim) rocks.memtable
  sst : Each (IsEncoding V dim) rocks.sst

namespace RocksDB

variable {rocks : RocksDB}

theorem encoded_empty : Encoded V dim .empty := ⟨fun _ _ => nofun, fun _ _ => nofun⟩

theorem Encoded.write (h : rocks.Encoded V dim) (hbatch : ∀ pair ∈ batch, IsEncoding V dim pair.2) :
    (rocks.write batch).Encoded V dim :=
  ⟨h.memtable.writeAll hbatch, h.sst⟩

theorem Encoded.multiset (h : rocks.Encoded V dim) (pairs : List (K × Vector V dim)) :
    (MemDiskTree.multiset rocks pairs).Encoded V dim := by
  refine h.write fun entry hentry => ?_
  obtain ⟨pair, -, rfl⟩ := List.mem_map.mp hentry
  exact ⟨pair.2, rfl⟩

theorem Encoded.put (h : rocks.Encoded V dim) (keyVariable : DeviceBuffer (Scalar.size K))
    (values : Vector V dim) : (MemDiskTree.put rocks keyVariable values).Encoded V dim := by
  refine h.write fun entry hentry => ?_
  rw [List.mem_singleton.mp hentry]
  exact ⟨values, rfl⟩

theorem Encoded.flush (h : rocks.Encoded V dim) : rocks.flush.Encoded V dim :=
  ⟨fun _ _ => nofun, h.memtable.overlay h.sst⟩

theorem Encoded.get (h : rocks.Encoded V dim) (skipMemtable : Bool) :
    Each (IsEncoding V dim) (rocks.get skipMemtable) := by
  intro key raw hraw
  cases skipMemtable with
  | true => exact h.sst key raw hraw
  | false => exact h.memtable.overlay h.sst key raw hraw

end RocksDB

namespace DB

-- What a read of one key sees, as the bytes of the lower tier.
def shown (s : DB K V dim) : K → Option Bytes :=
  overlay (encoded serializeValueArray s.gpu) s.below

theorem shown_of_gpu {s : DB K V dim} (h : s.gpu key = some values) :
    s.shown key = some (serializeValueArray values) :=
  overlay_of_some (by rw [encoded, h]; rfl)

theorem shown_of_missed {s : DB K V dim} (h : s.gpu key = none) : s.shown key = s.below key :=
  overlay_of_none (by rw [encoded, h]; rfl)

theorem shown_congr {s t : DB K V dim} (hgpu : t.gpu key = s.gpu key)
    (hbelow : t.below key = s.below key) : t.shown key = s.shown key := by
  rw [shown, shown, overlay, overlay, encoded, encoded, hgpu, hbelow]

theorem shown_eq_view {s : DB K V dim} (hskip : s.config.forceSkipMemtable = false) :
    s.shown = s.view := by
  funext key
  rw [shown, view, overlay, overlay, below, hskip]
  rfl

-- What every run keeps: no reserved key is in a table, and RocksDB holds encoded vectors.
structure Reached (reserved : K → Bool) (s : DB K V dim) : Prop extends Sane reserved s where
  encoded : s.rocks.Encoded V dim

theorem Reached.isEncoding {s : DB K V dim} (h : Reached reserved s) {key : K} {raw : Bytes}
    (hraw : s.shown key = some raw) : IsEncoding V dim raw := by
  cases hgpu : s.gpu key with
  | some values =>
    rw [shown_of_gpu hgpu] at hraw
    exact ⟨values, (Option.some.inj hraw).symm⟩
  | none =>
    rw [shown_of_missed hgpu] at hraw
    exact h.encoded.get _ _ raw hraw

theorem Reached.get_iff (hdim : dim < 2 ^ 64) {s : DB K V dim} (h : Reached reserved s)
    {env : ReadEnv reserved V dim} (henv : env.Clean) (key : K) (values : Vector V dim) :
    s.get env key = .returned (.SUCCESS, some values) ↔
      s.shown key = some (serializeValueArray values) := by
  have hsame : ∀ found : Vector V dim,
      (Outcome.returned (OperationResult.SUCCESS, some found) =
          Outcome.returned (OperationResult.SUCCESS, some values)) ↔
        some (serializeValueArray found) = some (serializeValueArray values) := by
    intro found
    constructor
    · intro heq
      cases heq
      rfl
    · intro heq
      rw [serialize_injective hdim (Option.some.inj heq)]
  rw [get, if_neg (by rw [h.isOpen]; decide)]
  cases hgpu : s.gpu key with
  | some found =>
    rw [shown_of_gpu hgpu]
    exact hsame found
  | none =>
    rw [shown_of_missed hgpu, below,
      MemDiskTree.get_eq_getResult (henv.memtable key) (henv.read key)]
    cases hraw : s.rocks.get s.config.forceSkipMemtable (Scalar.toBytes key) with
    | none => simp [MemDiskTree.getResult]
    | some raw =>
      obtain ⟨found, rfl⟩ := h.encoded.get _ _ raw hraw
      rw [MemDiskTree.getResult, MemDiskTree.loadVector_serialize hdim]
      exact hsame found

-- A read of the key returns the vector.
def Returns (reserved : K → Bool) (s : DB K V dim) (key : K) (values : Vector V dim) : Prop :=
  ∀ env : ReadEnv reserved V dim, env.Clean → s.get env key = .returned (.SUCCESS, some values)

-- What a read of the key returned it still returns.
def KeepsRead (reserved : K → Bool) (s s' : DB K V dim) (key : K) : Prop :=
  ∀ env : ReadEnv reserved V dim, env.Clean → ∀ values,
    s.get env key = .returned (.SUCCESS, some values) →
      s'.get env key = .returned (.SUCCESS, some values)

theorem Reached.returns_iff (hdim : dim < 2 ^ 64) {s : DB K V dim} (h : Reached reserved s) (key : K)
    (values : Vector V dim) :
    Returns reserved s key values ↔ s.shown key = some (serializeValueArray values) := by
  constructor
  · intro hreturns
    refine (h.get_iff hdim (ReadEnv.clean_dropping []) key values).mp ?_
    exact hreturns _ (ReadEnv.clean_dropping [])
  · intro hshown env henv
    exact (h.get_iff hdim henv key values).mpr hshown

theorem Reached.keepsRead_iff (hdim : dim < 2 ^ 64) {s s' : DB K V dim} (h : Reached reserved s)
    (h' : Reached reserved s') (key : K) :
    KeepsRead reserved s s' key ↔ ∀ raw, s.shown key = some raw → s'.shown key = some raw := by
  constructor
  · intro hkeeps raw hraw
    obtain ⟨values, rfl⟩ := h.isEncoding hraw
    have hget := (h.get_iff hdim (ReadEnv.clean_dropping []) key values).mpr hraw
    exact (h'.get_iff hdim (ReadEnv.clean_dropping []) key values).mp
      (hkeeps _ (ReadEnv.clean_dropping []) values hget)
  · intro hshown env henv values hget
    exact (h'.get_iff hdim henv key values).mpr
      (hshown _ ((h.get_iff hdim henv key values).mp hget))

variable [DecidableEq K]

theorem rocks_multiset (env : WriteEnv reserved V dim) (s : DB K V dim)
    (batch : List (K × Vector V dim)) :
    (s.multiset env batch).2.rocks = s.rocks ∨ ∃ evicted : List (K × Vector V dim),
      (s.multiset env batch).2.rocks = MemDiskTree.multiset s.rocks evicted := by
  unfold multiset
  split
  · exact Or.inl rfl
  split
  · exact Or.inl rfl
  split
  · exact Or.inl rfl
  · split
    · exact Or.inl rfl
    · exact Or.inr ⟨_, rfl⟩
    · exact Or.inr ⟨_, rfl⟩
  · exact Or.inl rfl

theorem encoded_multiset (env : WriteEnv reserved V dim) {s : DB K V dim}
    (h : s.rocks.Encoded V dim) (batch : List (K × Vector V dim)) :
    (s.multiset env batch).2.rocks.Encoded V dim := by
  rcases rocks_multiset env s batch with hrocks | ⟨evicted, hrocks⟩
  · rw [hrocks]
    exact h
  · rw [hrocks]
    exact h.multiset evicted

theorem Reached.step (h : Reached reserved s) (op : Op K V dim reserved) :
    Reached reserved (s.step op) := by
  refine ⟨h.toSane.step op, ?_⟩
  cases op with
  | put env key values =>
    obtain ⟨outcome, gpu, rocks, hput, -, hrocks⟩ := put_cases env s key values
    rw [DB.step, hput]
    rcases hrocks with rfl | ⟨found, rfl⟩
    · exact h.encoded
    · exact h.encoded.put env.keyVariable found
  | multiset env batch => exact encoded_multiset env h.encoded batch
  | get env key => exact h.encoded
  | multiget env keys =>
    have hlookup : (s.lookup env keys).rocks.Encoded V dim := by
      rw [lookup_eq]
      exact h.encoded
    by_cases hbelow : s.GoesBelow env keys
    · obtain ⟨buffer, hnext⟩ := multiget_next h.isOpen hbelow
      rw [DB.step, hnext]
      exact encoded_multiset env.toWriteEnv hlookup (s.backPairs env keys)
    · rcases multiget_stopped h.isOpen hbelow with hsame | hnext
      · rw [DB.step, hsame]
        exact h.encoded
      · rw [DB.step, hnext]
        exact hlookup
  | flush => exact h.encoded.flush

theorem Reached.runOps (h : Reached reserved s) (ops : List (Op K V dim reserved)) :
    Reached reserved (s.runOps ops) := by
  induction ops generalizing s with
  | nil => exact h
  | cons op rest ih => exact ih (h.step op)

theorem reached_runOps (config : StorageConfig) (ops : List (Op K V dim reserved)) :
    Reached reserved ((opened config : DB K V dim).runOps ops) :=
  Reached.runOps ⟨sane_opened config, RocksDB.encoded_empty⟩ ops

section Attempted

variable {s : DB K V dim} {batch : List (K × Vector V dim)} {env : WriteEnv reserved V dim} {key : K}

theorem gpu_attempted (hkey : key ∉ (inserts (env.schedule s.gpu batch).events).map Prod.fst)
    (h : (s.attempted env batch).gpu key = some values) : s.gpu key = some values :=
  (run_origin (Or.inl h)).resolve_right fun hmem => hkey (List.mem_map_of_mem hmem)

theorem attempted_quiet (env : WriteEnv reserved V dim)
    (hreserved : ∀ key ∈ batch.map Prod.fst, reserved key ≠ false) :
    s.attempted env batch = s := by
  have hevents : (env.schedule s.gpu batch).events = [] := by
    refine Schedule.events_eq_nil _ fun key hkey => ?_
    obtain ⟨hmem, hfree⟩ := (mem_inserts (env.schedule s.gpu batch) key).mp hkey
    exact hreserved key hmem hfree
  rw [attempted, hevents]
  split
  · rfl
  · rfl

theorem view_attempted (hkept : env.fault.any Fault.losesEvicted = false) :
    (s.attempted env batch).view = writeAll s.view (encodeAll serializeValueArray
      (inserts (env.schedule s.gpu batch).events)) := by
  have hwritten : s.attempted env batch = s.written (env.schedule s.gpu batch).events := by
    rw [attempted, hkept]
    rfl
  rw [hwritten, view_written]

theorem shown_of_written
    (hkey : key ∉ (inserts (env.schedule s.gpu batch).events).map Prod.fst)
    (hskip : s.config.forceSkipMemtable = false)
    (hkept : env.fault.any Fault.losesEvicted = false) :
    (s.attempted env batch).shown key = s.shown key := by
  rw [shown_eq_view hskip, shown_eq_view (s := s.attempted env batch) hskip, view_attempted hkept,
    writeAll_of_notMem]
  rwa [map_fst_encodeAll]

theorem shown_of_covered
    (hkey : key ∉ (inserts (env.schedule s.gpu batch).events).map Prod.fst)
    (hlost : s.config.forceSkipMemtable = true ∨ env.fault.any Fault.losesEvicted = true)
    (hbelow : ∀ values, s.gpu key = some values →
      s.below key = some (serializeValueArray values)) :
    (s.attempted env batch).shown key = s.shown key := by
  have hsame := congrFun (below_attempted env hlost batch) key
  cases hgpu : s.gpu key with
  | none =>
    have hafter : (s.attempted env batch).gpu key = none := by
      by_contra hsome
      obtain ⟨values, hvalues⟩ := Option.ne_none_iff_exists'.mp hsome
      rw [gpu_attempted hkey hvalues] at hgpu
      cases hgpu
    exact shown_congr (hafter.trans hgpu.symm) hsame
  | some values =>
    rw [shown_of_gpu hgpu]
    cases hafter : (s.attempted env batch).gpu key with
    | none => rw [shown_of_missed hafter, hsame, hbelow values hgpu]
    | some found =>
      rw [gpu_attempted hkey hafter] at hgpu
      rw [shown_of_gpu hafter, Option.some.inj hgpu]

end Attempted

end DB

end MlkvPlus
