import MlkvPlus.Data.Transition
import MlkvPlus.Db.Reads

namespace MlkvPlus.Eviction

open Tiered Transition

-- What the holder of operation_mutex_ has left to do: the write of what its insert evicted.
inductive Pending {K : Type} [Scalar K] (reserved : K → Bool) (V : Type) (dim : Nat) where
  | multiset (env : WriteEnv reserved V dim) (evicted : List (K × Vector V dim))
  | put (env : PutEnv reserved V dim) (entry : K × Vector V dim)

-- A get between its two steps. `stored` is the vector of the key when the get began, `moments`
-- are the vectors that have been current since, and `inFlight` says that the entry of the key
-- was evicted and not yet written when the GPU table was asked.
structure Get (K V : Type) (dim : Nat) where
  key : K
  stored : Option (Vector V dim)
  moments : List (Vector V dim)
  inFlight : Bool

structure Answer (K V : Type) (dim : Nat) where
  key : K
  stored : Option (Vector V dim)
  moments : List (Vector V dim)
  result : OperationResult × Option (Vector V dim)

structure System (Client : Type) {K : Type} [Scalar K] (reserved : K → Bool) (V : Type)
    (dim : Nat) where
  db : DB K V dim
  pending : Option (Pending reserved V dim)
  current : K → Option (Vector V dim)
  gets : Client → Option (Get K V dim)
  answers : List (Answer K V dim)

inductive Action (Client : Type) {K : Type} [Scalar K] (reserved : K → Bool) (V : Type)
    (dim : Nat) where
  | multiset (env : WriteEnv reserved V dim) (batch : List (K × Vector V dim))
  | put (env : PutEnv reserved V dim) (key : K) (values : Vector V dim)
  | writeEvicted
  | find (client : Client) (key : K)
  | getMemDisk (client : Client) (env : ReadEnv reserved V dim)
  | flush

variable {Client K V : Type} {dim : Nat} [Scalar K] {reserved : K → Bool}

def Pending.entries : Pending reserved V dim → List (K × Vector V dim)
  | .multiset _ evicted => evicted
  | .put _ entry => [entry]

def Get.observe (get : Get K V dim) (current : K → Option (Vector V dim)) : Get K V dim :=
  { get with moments := get.moments ++ (current get.key).toList }

def Get.answer (get : Get K V dim) (result : OperationResult × Option (Vector V dim)) :
    Answer K V dim :=
  ⟨get.key, get.stored, get.moments, result⟩

variable [DecidableEq K]

-- What a batch brings into the GPU table, in the order of the inserts.
def inserted (env : WriteEnv reserved V dim) (table : K → Option (Vector V dim))
    (batch : List (K × Vector V dim)) : List (K × Vector V dim) :=
  if env.fault = some .noTable ∨ batch = [] then [] else inserts (env.schedule table batch).events

def insertedByPut (env : PutEnv reserved V dim) (key : K) (values : Vector V dim) :
    List (K × Vector V dim) :=
  if env.fault.any PutFault.beforeTable = true ∨ reserved key = true then [] else [(key, values)]

namespace System

def entries (s : System Client reserved V dim) : List (K × Vector V dim) :=
  s.pending.elim [] Pending.entries

-- The first step of a write. What comes into the table is current from here on.
def insert (s : System Client reserved V dim) (table : K → Option (Vector V dim))
    (pairs : List (K × Vector V dim)) (pending : Option (Pending reserved V dim)) :
    System Client reserved V dim :=
  { s with
    db := { s.db with gpu := table }
    pending := pending
    current := writeAll s.current pairs
    gets := fun client => (s.gets client).map fun get => get.observe (writeAll s.current pairs) }

def multiset (s : System Client reserved V dim) (env : WriteEnv reserved V dim)
    (batch : List (K × Vector V dim)) : System Client reserved V dim :=
  match GPUTreeHkv.multiset env s.db.gpu batch with
  | (.GPU_EVICTED, table, evicted) =>
    s.insert table (inserted env s.db.gpu batch) (some (.multiset env evicted))
  | (_, table, _) => s.insert table (inserted env s.db.gpu batch) none

def put (s : System Client reserved V dim) (env : PutEnv reserved V dim) (key : K)
    (values : Vector V dim) : System Client reserved V dim :=
  match GPUTreeHkv.put env s.db.gpu key values with
  | (.returned _, table, some entry) =>
    s.insert table (insertedByPut env key values) (some (.put env entry))
  | (_, table, _) => s.insert table (insertedByPut env key values) none

variable [Scalar V]

-- The second step, with what RocksDB holds after it.
def writtenRocks (s : System Client reserved V dim) : Pending reserved V dim → RocksDB
  | .multiset env evicted =>
    match env.fault with
    | some (.memdisk _) => s.db.rocks
    | _ => MemDiskTree.multiset s.db.rocks evicted
  | .put env entry => (MemDiskTree.putEvicted s.db.config env s.db.rocks entry.2).2

def writeEvicted (s : System Client reserved V dim) (pending : Pending reserved V dim) :
    System Client reserved V dim :=
  { s with
    db := { s.db with rocks := s.writtenRocks pending }
    pending := none
    gets := fun client => (s.gets client).map fun get => { get with inFlight := false } }

variable [DecidableEq Client]

-- A hit in the GPU table ends the get.
def find (s : System Client reserved V dim) (client : Client) (key : K) :
    System Client reserved V dim :=
  let get : Get K V dim :=
    ⟨key, s.current key, (s.current key).toList, decide (key ∈ s.entries.map Prod.fst)⟩
  match s.db.gpu key with
  | some values => { s with answers := get.answer (.SUCCESS, some values) :: s.answers }
  | none => { s with gets := Function.update s.gets client (some get) }

def lowerResult (s : System Client reserved V dim) (env : ReadEnv reserved V dim) (key : K) :
    OperationResult × Option (Vector V dim) :=
  match MemDiskTree.get s.db.config env s.db.rocks key with
  | (.SUCCESS, values) => (.SUCCESS, values)
  | _ => (.KEY_NOT_FOUND, none)

def getMemDisk (s : System Client reserved V dim) (client : Client)
    (env : ReadEnv reserved V dim) (get : Get K V dim) : System Client reserved V dim :=
  { s with
    gets := Function.update s.gets client none
    answers := get.answer (s.lowerResult env get.key) :: s.answers }

-- Writes hold operation_mutex_ over both steps, and gets take no lock.
def step (s : System Client reserved V dim) :
    Action Client reserved V dim → Option (System Client reserved V dim)
  | .multiset env batch =>
    if s.db.initialized = true ∧ s.pending.isNone = true then some (s.multiset env batch) else none
  | .put env key values =>
    if s.db.initialized = true ∧ s.pending.isNone = true then some (s.put env key values) else none
  | .writeEvicted => s.pending.map s.writeEvicted
  | .find client key =>
    if s.db.initialized = true ∧ (s.gets client).isNone = true then some (s.find client key)
    else none
  | .getMemDisk client env => (s.gets client).map (s.getMemDisk client env)
  | .flush => some { s with db := { s.db with rocks := s.db.rocks.flush } }

end System

-- Any open database, with no call running. What is current is what its tiers hold.
def machine (Client : Type) [DecidableEq Client] (reserved : K → Bool) (V : Type) [Scalar V]
    (dim : Nat) : Machine (System Client reserved V dim) (Action Client reserved V dim) where
  initial s := s.db.initialized = true ∧ s.pending = none ∧ (∀ client, s.gets client = none) ∧
    (∀ key values, s.current key = some values →
      s.db.view key = some (serializeValueArray values)) ∧ s.answers = []
  step := System.step

namespace System

variable [Scalar V]

-- The rest of a write, if it has one.
def finish (s : System Client reserved V dim) : System Client reserved V dim :=
  s.pending.elim s s.writeEvicted

-- With nobody in between, the two steps are the write of the database.
theorem finish_multiset {s : System Client reserved V dim} (hopen : s.db.initialized = true)
    (env : WriteEnv reserved V dim) (hbatch : batch ≠ []) :
    (s.multiset env batch).finish.db = (s.db.multiset env batch).2 := by
  rw [multiset, DB.multiset, if_neg (by rw [hopen]; decide), if_neg hbatch]
  obtain ⟨result, table, evicted⟩ := GPUTreeHkv.multiset env s.db.gpu batch
  cases result with
  | GPU_EVICTED =>
    simp only [finish, insert, Option.elim_some, writeEvicted, writtenRocks]
    cases env.fault with
    | none => rfl
    | some fault => cases fault <;> rfl
  | _ => rfl

theorem finish_put {s : System Client reserved V dim} (hopen : s.db.initialized = true)
    (env : PutEnv reserved V dim) (key : K) (values : Vector V dim) :
    (s.put env key values).finish.db = (s.db.put env key values).2 := by
  rw [put, DB.put, if_neg (by rw [hopen]; decide)]
  obtain ⟨outcome, table, evicted⟩ := GPUTreeHkv.put env s.db.gpu key values
  cases outcome with
  | threw what => rfl
  | aborted reason => rfl
  | returned result =>
    cases evicted with
    | none => rfl
    | some entry =>
      simp only [finish, insert, Option.elim_some, writeEvicted, writtenRocks]
      generalize MemDiskTree.putEvicted s.db.config env s.db.rocks entry.2 = lower
      obtain ⟨outcome, rocks⟩ := lower
      cases outcome with
      | returned result =>
        dsimp only
        split <;> rfl
      | threw what => rfl
      | aborted reason => rfl

variable [DecidableEq Client]

theorem get_of_steps (hopen : s.db.initialized = true) (hidle : s.gets client = none)
    (env : ReadEnv reserved V dim) (key : K) :
    ∃ rest next result, (rest = [] ∨ rest = [.getMemDisk client env]) ∧
      (machine Client reserved V dim).exec s (.find client key :: rest) = some next ∧
      s.db.get env key = .returned result ∧
      next.answers = ⟨key, s.current key, (s.current key).toList, result⟩ :: s.answers := by
  have hfind : s.step (.find client key) = some (s.find client key) := by
    rw [step, if_pos ⟨hopen, by rw [hidle]; rfl⟩]
  rw [DB.get, if_neg (by rw [hopen]; decide)]
  cases hgpu : s.db.gpu key with
  | some values =>
    refine ⟨[], s.find client key, _, Or.inl rfl, ?_, rfl, ?_⟩
    · simp only [Machine.exec, machine, hfind]
    · rw [find, hgpu]
      rfl
  | none =>
    let get : Get K V dim :=
      ⟨key, s.current key, (s.current key).toList, decide (key ∈ s.entries.map Prod.fst)⟩
    have hmiss : s.find client key =
        { s with gets := Function.update s.gets client (some get) } := by
      rw [find, hgpu]
    refine ⟨_, (s.find client key).getMemDisk client env get, s.lowerResult env key, Or.inr rfl,
      ?_, ?_, ?_⟩
    · simp only [Machine.exec, machine, hfind]
      rw [hmiss]
      simp only [step, Function.update_self, Option.map_some]
    · rw [lowerResult]
      obtain ⟨result, values⟩ := MemDiskTree.get s.db.config env s.db.rocks key
      cases result <;> rfl
    · rw [hmiss]
      rfl

end System

-- A get of a key that was stored when it began returns a vector that was current meanwhile.
def Answer.Right (answer : Answer K V dim) : Prop :=
  answer.stored.isSome = true →
    ∃ values ∈ answer.moments, answer.result = (.SUCCESS, some values)

-- HKV drops nothing for the put.
def EvictsNothing (env : PutEnv reserved V dim) (table : K → Option (Vector V dim)) (key : K) :
    Prop :=
  reserved key = true ∨ ∀ victim, env.victim table key = some victim →
    victim ≠ key ∧ table victim = none

-- The batch has one vector for a key that is being read.
def System.OneVector (s : System Client reserved V dim) (batch : List (K × Vector V dim)) : Prop :=
  ∀ client get, s.gets client = some get → ∀ first second, (get.key, first) ∈ batch →
    (get.key, second) ∈ batch → first = second

-- RocksDB answers, and is asked for what it was given.
def Reads (env : ReadEnv reserved V dim) (db : DB K V dim) (key : K) : Prop :=
  (env.memtableStatus key = true ∧ env.readStatus key = true) ∧
    (db.config.forceSkipMemtable = false ∨ db.rocks.memtable (Scalar.toBytes key) = none)

def Calm (s : System Client reserved V dim) : Action Client reserved V dim → Prop
  | .multiset env batch => env.fault.any Fault.losesEvicted = false ∧ s.OneVector batch
  | .put env key _ => EvictsNothing env s.db.gpu key
  | .getMemDisk client env => ∀ get, s.gets client = some get →
      get.inFlight = false ∧ Reads env s.db get.key
  | _ => True

-- The second step reaches RocksDB, under the keys of the entries.
def Pending.Lands : Pending reserved V dim → Prop
  | .multiset env _ => env.fault.any Fault.losesEvicted = false
  | .put _ _ => False

namespace System

variable {s : System Client reserved V dim}

theorem multiset_insert (batch : List (K × Vector V dim))
    (hkept : env.fault.any Fault.losesEvicted = false) :
    ∃ events pending, s.multiset env batch =
        s.insert (run s.db.gpu events).1 (inserts events) pending ∧
      pending.elim [] Pending.entries = (run s.db.gpu events).2 ∧
      (∀ next, pending = some next → next.Lands) ∧ ∀ pair ∈ inserts events, pair ∈ batch := by
  by_cases hnone : env.fault = some .noTable ∨ batch = []
  · refine ⟨[], none, ?_, rfl, by simp, List.forall_mem_nil _⟩
    rw [multiset, inserted, if_pos hnone, GPUTreeHkv.multiset]
    by_cases hfault : env.fault = some .noTable
    · rw [if_pos hfault]
      rfl
    · rw [if_neg hfault, if_pos (hnone.resolve_left hfault)]
      rfl
  · obtain ⟨hfault, hbatch⟩ := not_or.mp hnone
    have hafter : env.fault ≠ some .afterInsert := by
      intro hafter
      rw [hafter] at hkept
      cases hkept
    have hinserts : ∀ pair ∈ inserts (env.schedule s.db.gpu batch).events, pair ∈ batch :=
      fun pair hpair =>
        (List.mem_filter.mp ((env.schedule s.db.gpu batch).complete.mem_iff.mp hpair)).1
    rw [multiset, inserted, if_neg hnone, GPUTreeHkv.multiset, if_neg hfault, if_neg hbatch]
    dsimp only
    rw [if_neg hafter]
    by_cases hevicted : (run s.db.gpu (env.schedule s.db.gpu batch).events).2 = []
    · rw [if_pos hevicted]
      exact ⟨_, none, rfl, hevicted.symm, by simp, hinserts⟩
    · rw [if_neg hevicted]
      refine ⟨_, some (.multiset env _), rfl, rfl, ?_, hinserts⟩
      rintro next ⟨rfl⟩
      exact hkept

theorem insertAndEvict_quiet {env : PutEnv reserved V dim} (values : Vector V dim)
    (hquiet : EvictsNothing env table key) :
    GPUTreeHkv.insertAndEvict env table key values =
      (writeAll table (if reserved key = true then [] else [(key, values)]), none) := by
  rw [GPUTreeHkv.insertAndEvict]
  by_cases hreserved : reserved key = true
  · rw [if_pos hreserved, if_pos hreserved, writeAll_nil]
  rw [if_neg hreserved, if_neg hreserved, writeAll_cons, writeAll_nil]
  cases hvictim : env.victim table key with
  | none => rfl
  | some victim =>
    obtain ⟨hne, hnone⟩ := hquiet.resolve_left hreserved victim hvictim
    have habsent : Function.update table key (some values) victim = none := by
      rw [Function.update_of_ne hne, hnone]
    dsimp only
    rw [habsent, Option.map_none, ← habsent, Function.update_eq_self]

theorem put_insert {env : PutEnv reserved V dim} (values : Vector V dim)
    (hquiet : EvictsNothing env s.db.gpu key) :
    ∃ events, s.put env key values = s.insert (run s.db.gpu events).1 (inserts events) none ∧
      (run s.db.gpu events).2 = [] ∧ ∀ pair ∈ inserts events, pair = (key, values) := by
  refine ⟨insertThenDrop (insertedByPut env key values) [], ?_, ?_, ?_⟩
  · rw [run_insertThenDrop_nil, inserts_insertThenDrop, put, GPUTreeHkv.put,
      insertAndEvict_quiet values hquiet, insertedByPut]
    cases hfault : env.fault with
    | none => simp
    | some fault => cases fault <;> simp [PutFault.beforeTable]
  · rw [run_insertThenDrop_nil]
  · rw [inserts_insertThenDrop, insertedByPut]
    intro pair hpair
    split at hpair
    · cases hpair
    · exact List.mem_singleton.mp hpair

variable [Scalar V]

-- What a reader of both tiers sees once the evicted entries are written.
def settled (s : System Client reserved V dim) : K → Option Bytes :=
  overlay (encoded serializeValueArray s.db.gpu)
    (writeAll s.db.rocks.stored (encodeAll serializeValueArray s.entries))

theorem settled_insert (hfree : s.pending = none) {pending : Option (Pending reserved V dim)}
    (hentries : pending.elim [] Pending.entries = (run s.db.gpu events).2) :
    (s.insert (run s.db.gpu events).1 (inserts events) pending).settled =
      writeAll s.settled (encodeAll serializeValueArray (inserts events)) := by
  have hnone : s.entries = [] := by rw [entries, hfree]; rfl
  have hafter : (s.insert (run s.db.gpu events).1 (inserts events) pending).entries =
      (run s.db.gpu events).2 := hentries
  rw [settled, settled, hafter, hnone]
  exact overlay_run serializeValueArray s.db.gpu s.db.rocks.stored events

theorem stored_writtenRocks {pending : Pending reserved V dim} (hlands : pending.Lands) :
    (s.writtenRocks pending).stored =
      writeAll s.db.rocks.stored (encodeAll serializeValueArray pending.entries) := by
  cases pending with
  | put env entry => exact hlands.elim
  | multiset env evicted =>
    rw [writtenRocks]
    split
    · rename_i hfault
      rw [Pending.Lands, hfault] at hlands
      cases hlands
    · exact stored_multiset s.db.rocks evicted

end System

variable [Scalar V]

-- What a running get can still rely on.
structure Get.Held (current : K → Option (Vector V dim)) (stored : K → Option Bytes)
    (entries : List (K × Vector V dim)) (get : Get K V dim) : Prop where
  current : ∃ values ∈ get.moments, current get.key = some values
  settled : ∃ values ∈ get.moments,
    writeAll stored (encodeAll serializeValueArray entries) get.key =
      some (serializeValueArray values)
  stored : get.inFlight = false →
    ∃ values ∈ get.moments, stored get.key = some (serializeValueArray values)

structure System.Inv (s : System Client reserved V dim) : Prop where
  current : ∀ key values, s.current key = some values →
    s.settled key = some (serializeValueArray values)
  gets : ∀ client get, s.gets client = some get → get.stored.isSome = true →
    get.Held s.current s.db.rocks.stored s.entries
  lands : ∀ pending, s.pending = some pending → pending.Lands
  answers : ∀ answer ∈ s.answers, answer.Right

variable {s : System Client reserved V dim}

theorem System.Inv.gpu (hdim : dim < 2 ^ 64) (h : s.Inv) (hcurrent : s.current key = some values)
    (hgpu : s.db.gpu key = some found) : found = values := by
  have hsettled := h.current key values hcurrent
  have hupper : s.settled key = some (serializeValueArray found) :=
    overlay_of_some (by rw [encoded, hgpu]; rfl)
  rw [hupper] at hsettled
  exact serialize_injective hdim (Option.some.inj hsettled)

omit [Scalar K] in
theorem current_writeAll
    (h : ∀ key values, current key = some values → tiers key = some (serializeValueArray values))
    (pairs : List (K × Vector V dim)) (key : K) (values : Vector V dim)
    (hvalues : writeAll current pairs key = some values) :
    writeAll tiers (encodeAll serializeValueArray pairs) key =
      some (serializeValueArray values) := by
  have hsame : writeAll tiers (encodeAll serializeValueArray pairs) key =
      writeAll (encoded serializeValueArray current) (encodeAll serializeValueArray pairs) key := by
    refine writeAll_congr fun hkey => ?_
    rw [map_fst_encodeAll] at hkey
    rw [writeAll_of_notMem hkey] at hvalues
    rw [h key values hvalues, encoded, hvalues]
    rfl
  rw [hsame, writeAll_encodeAll, encoded, hvalues]
  rfl

omit [Scalar K] in
theorem Get.Held.insert {current table : K → Option (Vector V dim)} {stored : K → Option Bytes}
    {get : Get K V dim} (h : get.Held current stored [])
    (htable : ∀ values found, current get.key = some values → table get.key = some found →
      found = values)
    {events : List (Event K (Vector V dim))}
    (hone : ∀ first second, (get.key, first) ∈ inserts events →
      (get.key, second) ∈ inserts events → first = second) :
    (get.observe (writeAll current (inserts events))).Held (writeAll current (inserts events))
      stored (run table events).2 := by
  obtain ⟨values, hmoment, hcurrent⟩ := h.current
  have hkept : ∀ {found}, found ∈ get.moments →
      found ∈ (get.observe (writeAll current (inserts events))).moments :=
    fun hfound => List.mem_append_left _ hfound
  have hnew : ∀ {found}, writeAll current (inserts events) get.key = some found →
      found ∈ (get.observe (writeAll current (inserts events))).moments := by
    intro found hfound
    refine List.mem_append_right _ ?_
    rw [hfound]
    exact List.mem_singleton.mpr rfl
  refine ⟨?_, ?_, fun hflight => ?_⟩
  · have hsome := (writeAll_isSome current (inserts events) get.key).mpr
      (Or.inl (by rw [hcurrent]; rfl))
    obtain ⟨found, hfound⟩ := Option.isSome_iff_exists.mp hsome
    exact ⟨found, hnew hfound, hfound⟩
  · change ∃ found ∈ _, writeAll stored (encodeAll serializeValueArray (run table events).2)
      get.key = some (serializeValueArray found)
    by_cases hkey : get.key ∈ (run table events).2.map Prod.fst
    · rw [← map_fst_encodeAll serializeValueArray] at hkey
      obtain ⟨raw, hraw, hwrite⟩ := writeAll_of_mem stored hkey
      obtain ⟨found, hfound, rfl⟩ := (mem_encodeAll serializeValueArray).mp hraw
      refine ⟨found, ?_, hwrite⟩
      rcases run_origin (Or.inr hfound) with hgpu | hmem
      · rw [htable values found hcurrent hgpu]
        exact hkept hmoment
      · obtain ⟨last, hlast, hafter⟩ :=
          writeAll_of_mem current (List.mem_map_of_mem (f := Prod.fst) hmem)
        rw [hone found last hmem hlast]
        exact hnew hafter
    · obtain ⟨found, hfound, hstored⟩ := h.settled
      refine ⟨found, hkept hfound, ?_⟩
      rwa [writeAll_of_notMem (by rwa [map_fst_encodeAll])]
  · obtain ⟨found, hfound, hstored⟩ := h.stored hflight
    exact ⟨found, hkept hfound, hstored⟩

theorem System.Inv.insert (hdim : dim < 2 ^ 64) (h : s.Inv) (hfree : s.pending = none)
    {events : List (Event K (Vector V dim))} {pending : Option (Pending reserved V dim)}
    (hentries : pending.elim [] Pending.entries = (run s.db.gpu events).2)
    (hlands : ∀ next, pending = some next → next.Lands) (hone : s.OneVector (inserts events)) :
    (s.insert (run s.db.gpu events).1 (inserts events) pending).Inv where
  current key values hvalues := by
    rw [settled_insert hfree hentries]
    exact current_writeAll h.current (inserts events) key values hvalues
  gets client get hget hstored := by
    obtain ⟨before, hbefore, rfl⟩ := Option.map_eq_some_iff.mp hget
    have hnone : s.entries = [] := by rw [System.entries, hfree]; rfl
    have hheld := h.gets client before hbefore hstored
    rw [hnone] at hheld
    have hafter : (s.insert (run s.db.gpu events).1 (inserts events) pending).entries =
        (run s.db.gpu events).2 := hentries
    rw [hafter]
    exact hheld.insert (fun values found hcurrent hgpu => h.gpu hdim hcurrent hgpu)
      (hone client before hbefore)
  lands := hlands
  answers := h.answers

theorem System.Inv.writeEvicted (h : s.Inv) {pending : Pending reserved V dim}
    (hpending : s.pending = some pending) : (s.writeEvicted pending).Inv := by
  have hentries : s.entries = pending.entries := by rw [System.entries, hpending]; rfl
  have hstored : (s.writeEvicted pending).db.rocks.stored =
      writeAll s.db.rocks.stored (encodeAll serializeValueArray s.entries) := by
    rw [hentries]
    exact stored_writtenRocks (h.lands pending hpending)
  refine ⟨fun key values hvalues => ?_, fun client get hget hsome => ?_, fun next hnext => ?_,
    h.answers⟩
  · have hsettled : (s.writeEvicted pending).settled = s.settled := by
      rw [System.settled, System.settled, hstored]
      rfl
    rw [hsettled]
    exact h.current key values hvalues
  · obtain ⟨before, hbefore, rfl⟩ := Option.map_eq_some_iff.mp hget
    have hheld := h.gets client before hbefore hsome
    rw [hstored]
    exact ⟨hheld.current, hheld.settled, fun _ => hheld.settled⟩
  · cases hnext

theorem System.Inv.flush (h : s.Inv) :
    System.Inv { s with db := { s.db with rocks := s.db.rocks.flush } } := by
  have hstored := stored_flush (K := K) s.db.rocks
  refine ⟨fun key values hvalues => ?_, fun client get hget hsome => ?_, h.lands, h.answers⟩
  · rw [System.settled]
    dsimp only
    rw [hstored]
    exact h.current key values hvalues
  · dsimp only
    rw [hstored]
    exact h.gets client get hget hsome

omit [DecidableEq K] in
theorem getMemDisk_held (hdim : dim < 2 ^ 64) {env : ReadEnv reserved V dim}
    (hreads : Reads env db key) (hstored : db.rocks.stored key = some (serializeValueArray values))
    :
    MemDiskTree.get db.config env db.rocks key = (.SUCCESS, some values) := by
  have hget : db.rocks.get db.config.forceSkipMemtable (Scalar.toBytes key) =
      some (serializeValueArray values) := by
    rw [← hstored]
    rcases hreads.2 with hskip | hnone
    · rw [hskip]
      rfl
    · rw [RocksDB.stored, RocksDB.get, RocksDB.get, if_neg Bool.false_ne_true, overlay_of_none hnone,
        ite_self]
  rw [MemDiskTree.get_eq_getResult hreads.1.1 hreads.1.2, hget, MemDiskTree.getResult,
    MemDiskTree.loadVector_serialize hdim]

variable [DecidableEq Client]

theorem System.Inv.find (hdim : dim < 2 ^ 64) (h : s.Inv) (client : Client) (key : K) :
    (s.find client key).Inv := by
  cases hgpu : s.db.gpu key with
  | some found =>
    rw [System.find, hgpu]
    refine ⟨h.current, h.gets, h.lands, List.forall_mem_cons.mpr ⟨fun hsome => ?_, h.answers⟩⟩
    obtain ⟨values, hvalues⟩ := Option.isSome_iff_exists.mp hsome
    have hcurrent : s.current key = some values := hvalues
    refine ⟨values, ?_, ?_⟩
    · change values ∈ (s.current key).toList
      rw [hcurrent]
      exact List.mem_singleton.mpr rfl
    · rw [← h.gpu hdim hcurrent hgpu]
      rfl
  | none =>
    rw [System.find, hgpu]
    refine ⟨h.current, fun other get hget hsome => ?_, h.lands, h.answers⟩
    rcases some_of_update hget with hnew | hold
    · cases hnew
      obtain ⟨values, hvalues⟩ := Option.isSome_iff_exists.mp hsome
      have hcurrent : s.current key = some values := hvalues
      have hmoment : values ∈ (s.current key).toList := by
        rw [hcurrent]
        exact List.mem_singleton.mpr rfl
      have hsettled : writeAll s.db.rocks.stored (encodeAll serializeValueArray s.entries) key =
          some (serializeValueArray values) := by
        rw [← h.current key values hcurrent]
        exact (overlay_of_none (by rw [encoded, hgpu]; rfl)).symm
      refine ⟨⟨values, hmoment, hcurrent⟩, ⟨values, hmoment, hsettled⟩, fun hflight => ?_⟩
      refine ⟨values, hmoment, ?_⟩
      rw [← hsettled, writeAll_of_notMem]
      rw [map_fst_encodeAll]
      exact of_decide_eq_false hflight
    · exact h.gets other get hold hsome

theorem System.Inv.getMemDisk (hdim : dim < 2 ^ 64) (h : s.Inv) {get : Get K V dim}
    (hget : s.gets client = some get) (hflight : get.inFlight = false)
    (hreads : Reads env s.db get.key) : (s.getMemDisk client env get).Inv := by
  refine ⟨h.current, fun other running hrunning hsome => ?_, h.lands,
    List.forall_mem_cons.mpr ⟨fun hsome => ?_, h.answers⟩⟩
  · rcases some_of_update hrunning with hnone | hold
    · cases hnone
    · exact h.gets other running hold hsome
  · obtain ⟨values, hmoment, hstored⟩ := (h.gets client get hget hsome).stored hflight
    refine ⟨values, hmoment, ?_⟩
    change s.lowerResult env get.key = _
    rw [System.lowerResult, getMemDisk_held hdim hreads hstored]

theorem System.Inv.step (hdim : dim < 2 ^ 64) (h : s.Inv) {action : Action Client reserved V dim}
    {next : System Client reserved V dim} (hcalm : Calm s action)
    (hstep : s.step action = some next) : next.Inv := by
  cases action with
  | multiset env batch =>
    simp only [System.step, Option.ite_none_right_eq_some, Option.some.injEq] at hstep
    obtain ⟨⟨-, hfree⟩, rfl⟩ := hstep
    obtain ⟨events, pending, hinsert, hentries, hlands, hbatch⟩ :=
      System.multiset_insert batch hcalm.1
    rw [hinsert]
    refine h.insert hdim (Option.isNone_iff_eq_none.mp hfree) hentries hlands ?_
    exact fun client get hget first second hfirst hsecond =>
      hcalm.2 client get hget first second (hbatch _ hfirst) (hbatch _ hsecond)
  | put env key values =>
    simp only [System.step, Option.ite_none_right_eq_some, Option.some.injEq] at hstep
    obtain ⟨⟨-, hfree⟩, rfl⟩ := hstep
    obtain ⟨events, hinsert, hevicted, hpairs⟩ := System.put_insert values hcalm
    rw [hinsert]
    refine h.insert hdim (Option.isNone_iff_eq_none.mp hfree) hevicted.symm (by simp) ?_
    intro client get hget first second hfirst hsecond
    exact (Prod.mk.inj ((hpairs _ hfirst).trans (hpairs _ hsecond).symm)).2
  | writeEvicted =>
    obtain ⟨pending, hpending, rfl⟩ := Option.map_eq_some_iff.mp hstep
    exact h.writeEvicted hpending
  | find client key =>
    simp only [System.step, Option.ite_none_right_eq_some, Option.some.injEq] at hstep
    obtain ⟨-, rfl⟩ := hstep
    exact h.find hdim client key
  | getMemDisk client env =>
    obtain ⟨get, hget, rfl⟩ := Option.map_eq_some_iff.mp hstep
    obtain ⟨hflight, hreads⟩ := hcalm get hget
    exact h.getMemDisk hdim hget hflight hreads
  | flush =>
    cases hstep
    exact h.flush

-- In every interleaving in which no get asks RocksDB while the entry it needs is on its way
-- there, no stored key is missed.
theorem stored_keys_found (hdim : dim < 2 ^ 64) (s : System Client reserved V dim)
    (h : (machine Client reserved V dim).Reachable Calm s) :
    ∀ answer ∈ s.answers, answer.Right := by
  have hinv : s.Inv := by
    refine h.invariant (fun start hstart => ?_) fun before action after hbefore hcalm hstep =>
      hbefore.step hdim hcalm hstep
    obtain ⟨-, hfree, hidle, hcurrent, hanswers⟩ := hstart
    refine ⟨fun key values hvalues => ?_, fun client get hget => ?_, fun pending hpending => ?_, ?_⟩
    · rw [System.settled, System.entries, hfree]
      exact hcurrent key values hvalues
    · rw [hidle] at hget
      cases hget
    · rw [hfree] at hpending
      cases hpending
    · rw [hanswers]
      exact List.forall_mem_nil _
  exact hinv.answers

def opened : System Nat (fun _ : UInt64 => false) UInt32 1 :=
  ⟨.opened {}, none, fun _ => none, fun _ => none, []⟩

def dropping (dropped : List UInt64) : ReadEnv (fun _ : UInt64 => false) UInt32 1 :=
  .dropping _ dropped none

def storing (key : UInt64) (value : UInt32) (dropped : List UInt64) :
    Action Nat (fun _ : UInt64 => false) UInt32 1 :=
  .multiset (dropping dropped).toWriteEnv [(key, Vector.replicate 1 value)]

-- Key 7 is stored, and evicted by a write of key 8 that has not written it to RocksDB yet.
def storeAndEvict : List (Action Nat (fun _ : UInt64 => false) UInt32 1) :=
  [storing 7 1 [], storing 8 2 [7]]

def waiting : List (Action Nat (fun _ : UInt64 => false) UInt32 1) :=
  storeAndEvict ++ [.find 0 7, .writeEvicted, .getMemDisk 0 (dropping [])]

theorem stored_keys_found_waiting :
    ∃ s, (machine Nat (fun _ : UInt64 => false) UInt32 1).exec opened waiting = some s ∧
      s.answers = [⟨7, some #v[1], [#v[1]], (.SUCCESS, some #v[1])⟩] ∧
      ∀ answer ∈ s.answers, answer.Right := by
  have hidle : ∀ (s : System Nat (fun _ : UInt64 => false) UInt32 1) batch,
      (∀ client, s.gets client = none) → s.OneVector batch := by
    intro s batch hnone client get hget
    rw [hnone] at hget
    cases hget
  have hcalm : (machine Nat (fun _ : UInt64 => false) UInt32 1).Allows Calm opened waiting := by
    refine .cons ⟨rfl, hidle _ _ fun _ => rfl⟩ rfl <| .cons ⟨rfl, hidle _ _ fun _ => rfl⟩ rfl <|
      .cons trivial rfl <| .cons trivial rfl <| .cons (fun get hget => ?_) rfl trivial
    cases hget
    exact ⟨rfl, ⟨rfl, rfl⟩, Or.inl rfl⟩
  have hinitial : (machine Nat (fun _ : UInt64 => false) UInt32 1).initial opened :=
    ⟨rfl, rfl, fun _ => rfl, by simp [opened], rfl⟩
  exact ⟨_, rfl, rfl, stored_keys_found (by decide) _ (.exec waiting (.start hinitial) hcalm rfl)⟩

-- The get asks RocksDB before the writer does.
def between : List (Action Nat (fun _ : UInt64 => false) UInt32 1) :=
  storeAndEvict ++ [.find 0 7, .getMemDisk 0 (dropping []), .writeEvicted]

theorem stored_key_missed_between :
    ∃ s, (machine Nat (fun _ : UInt64 => false) UInt32 1).exec opened between = some s ∧
      (machine Nat (fun _ : UInt64 => false) UInt32 1).Reachable (fun _ _ => True) s ∧
      s.answers = [⟨7, some #v[1], [#v[1]], (.KEY_NOT_FOUND, none)⟩] ∧
      s.current 7 = some #v[1] ∧ ∃ answer ∈ s.answers, ¬answer.Right := by
  have hinitial : (machine Nat (fun _ : UInt64 => false) UInt32 1).initial opened :=
    ⟨rfl, rfl, fun _ => rfl, by simp [opened], rfl⟩
  refine ⟨_, rfl, .exec between (.start hinitial) (Machine.allows_true _ _ _) rfl, rfl, rfl, _,
    List.mem_cons_self, fun hright => ?_⟩
  obtain ⟨values, -, hresult⟩ := hright rfl
  exact absurd (Prod.mk.inj hresult).1 (by decide)

end MlkvPlus.Eviction
