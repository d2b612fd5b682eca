import MlkvPlus.Db.Refinement
import MlkvPlus.Db.Reserved

namespace MlkvPlus

open Tiered

-- A failure that comes after the eviction and before its write to RocksDB.
def Fault.losesEvicted : Fault → Bool
  | .afterInsert => true
  | .memdisk _ => true
  | _ => false

def PutFault.beforeTable : PutFault → Bool
  | .noTable => true
  | .beforeInsert _ => true
  | _ => false

variable {K V : Type} {dim : Nat} [Scalar K] {reserved : K → Bool}

-- The call got as far as the GPU table.
def Op.writes : Op K V dim reserved → K → Prop
  | .put env key _, other => env.fault.any PutFault.beforeTable = false ∧ other = key
  | .multiset env batch, other => env.fault ≠ some .noTable ∧ other ∈ batch.map Prod.fst
  | _, _ => False

def Written (ops : List (Op K V dim reserved)) (key : K) : Prop := ∃ op ∈ ops, op.writes key

namespace DB

-- What RocksDB shows under the read options of the configuration.
def below (s : DB K V dim) (key : K) : Option Bytes :=
  s.rocks.get s.config.forceSkipMemtable (Scalar.toBytes key)

-- RocksDB returns the key under the read options of the configuration.
def visibleBelow (s : DB K V dim) (key : K) : Prop :=
  (s.rocks.get s.config.forceSkipMemtable (Scalar.toBytes key)).isSome = true

def visible (s : DB K V dim) (key : K) : Prop := (s.gpu key).isSome = true ∨ s.visibleBelow key

variable [Scalar V]

theorem visible_iff_view {s : DB K V dim} (hskip : s.config.forceSkipMemtable = false) (key : K) :
    s.visible key ↔ (s.view key).isSome = true := by
  cases hgpu : s.gpu key with
  | some values => simp [visible, view_of_gpu hgpu, hgpu]
  | none => simp [visible, view_of_missed hgpu, hgpu, visibleBelow, hskip, RocksDB.stored]

def getFinds (env : ReadEnv reserved V dim) (s : DB K V dim) (key : K) : Prop :=
  ∃ values, s.get env key = .returned (.SUCCESS, some values)

theorem getFinds_iff {env : ReadEnv reserved V dim} (henv : env.Clean) {s : DB K V dim}
    (hopen : s.initialized = true) (key : K) : s.getFinds env key ↔ s.visible key := by
  rw [getFinds, get, if_neg (by rw [hopen]; decide), visible]
  cases hgpu : s.gpu key with
  | some values => simp
  | none =>
    rw [visibleBelow, MemDiskTree.get_eq_getResult (henv.memtable key) (henv.read key)]
    cases s.rocks.get s.config.forceSkipMemtable (Scalar.toBytes key) with
    | none => simp [MemDiskTree.getResult]
    | some raw => simp [MemDiskTree.getResult]

variable [DecidableEq K]

def multigetFinds (env : ReadEnv reserved V dim) (s : DB K V dim) (keys : List K) (index : Nat) :
    Prop :=
  ∃ found next values, s.multiget env keys = (.returned (.SUCCESS, found), next) ∧
    found[index]? = some (some values)

-- A batch read finds written keys only, and leaves what later reads find as it was.
structure CreatesNothing (ops : List (Op K V dim reserved)) (env : ReadEnv reserved V dim)
    (s : DB K V dim) (keys : List K) : Prop where
  found : ∀ index key, keys[index]? = some key → s.multigetFinds env keys index → Written ops key
  get : ∀ later : ReadEnv reserved V dim, later.Clean → ∀ key,
    (s.multiget env keys).2.getFinds later key ↔ s.getFinds later key
  multiget : ∀ later : ReadEnv reserved V dim, later.Clean → ∀ others index,
    (s.multiget env keys).2.multigetFinds later others index ↔ s.multigetFinds later others index

variable {s : DB K V dim} {env : ReadEnv reserved V dim} {keys : List K}

theorem Sane.answered (h : Sane reserved s) (hbelow : s.GoesBelow env keys)
    (hreturned : s.multiget env keys = (.returned (result, found), next)) :
    ∃ answer, found = keys.map answer ∧
      ∀ key ∈ keys, (answer key).isSome = true ↔ reserved key = false := by
  have hbuffer : ((s.lookup env keys).multiset env.toWriteEnv (s.backPairs env keys)).2.buffer =
      (s.lookup env keys).buffer := by
    rw [multiset_eq]
  have hwrite := (h.lookup env keys).multiset env.toWriteEnv (s.backPairs env keys)
  rw [multiget_eq h.isOpen hbelow] at hreturned
  split at hreturned
  · rename_i t heq
    rw [heq] at hbuffer hwrite
    cases hreturned
    refine ⟨(t.answer env keys (s.backPairs env keys)).2.buffer, rfl, fun key hkey =>
      ⟨(hwrite.answer env keys _).buffer key, fun hreserved => ?_⟩⟩
    cases hgpu : s.gpu key with
    | some values =>
      rw [answer_of_gpu hbuffer hkey hgpu hreserved]
      rfl
    | none =>
      obtain ⟨values, -, hanswer⟩ := answer_of_missed env t hkey hgpu hreserved
      rw [hanswer]
      rfl
  · cases hreturned
  · cases hreturned

theorem Sane.answered_free (h : Sane reserved s)
    (hreturned : s.multiget env keys = (.returned (result, found), next)) :
    ∃ answer, found = keys.map answer ∧
      ∀ key ∈ keys, (answer key).isSome = true → reserved key = false := by
  by_cases hbelow : s.GoesBelow env keys
  · obtain ⟨answer, hfound, hanswer⟩ := h.answered hbelow hreturned
    exact ⟨answer, hfound, fun key hkey => (hanswer key hkey).mp⟩
  · obtain ⟨-, -, hfound⟩ := answer_of_stopped h.isOpen hbelow hreturned
    exact ⟨s.gpu, hfound, fun key _ => h.gpu key⟩

theorem Sane.multigetFinds_iff (h : Sane reserved s) (henv : env.Works)
    (hreturned : ∃ found next, s.multiget env keys = (.returned (.SUCCESS, found), next))
    (index : Nat) :
    s.multigetFinds env keys index ↔ ∃ key, keys[index]? = some key ∧ reserved key = false := by
  obtain ⟨found, next, hmultiget⟩ := hreturned
  obtain ⟨answer, rfl, hanswer⟩ : ∃ answer, found = keys.map answer ∧
      ∀ key ∈ keys, (answer key).isSome = true ↔ reserved key = false := by
    by_cases hall : ∀ key ∈ keys, (s.gpu key).isSome = true
    · have hanswer := (saysAllFound_iff henv).mpr hall
      obtain ⟨-, -, hfound⟩ :=
        answer_of_stopped h.isOpen (fun hbelow => hbelow.missed hanswer) hmultiget
      exact ⟨s.gpu, hfound, fun key hkey => iff_of_true (hall key hkey) (h.gpu key (hall key hkey))⟩
    · exact h.answered (goesBelow_of_works henv hall) hmultiget
  constructor
  · rintro ⟨other, after, values, hother, hindex⟩
    rw [hmultiget] at hother
    cases hother
    rw [List.getElem?_map] at hindex
    obtain ⟨key, hkey, hvalues⟩ := Option.map_eq_some_iff.mp hindex
    refine ⟨key, hkey, (hanswer key (List.mem_of_getElem? hkey)).mp ?_⟩
    rw [hvalues]
    rfl
  · rintro ⟨key, hkey, hreserved⟩
    obtain ⟨values, hvalues⟩ :=
      Option.isSome_iff_exists.mp ((hanswer key (List.mem_of_getElem? hkey)).mpr hreserved)
    refine ⟨keys.map answer, next, values, hmultiget, ?_⟩
    rw [List.getElem?_map, hkey, Option.map_some, hvalues]

theorem multiget_returns (hopen : s.initialized = true) (hkeys : keys ≠ [])
    (hhost : env.hostReads = true) (hwrite : ∃ result,
      ((s.lookup env keys).multiset env.toWriteEnv (s.backPairs env keys)).1 = .returned result) :
    ∃ found next, s.multiget env keys = (.returned (.SUCCESS, found), next) := by
  by_cases hfound : s.saysAllFound env keys
  · exact ⟨_, _, multiget_found hopen hkeys hfound⟩
  · obtain ⟨result, hresult⟩ := hwrite
    rw [multiget_eq hopen ⟨hkeys, hfound, not_crashes_of_host hhost _⟩]
    split
    · exact ⟨_, _, rfl⟩
    · rename_i heq
      rw [heq] at hresult
      cases hresult
    · rename_i heq
      rw [heq] at hresult
      cases hresult

def attempted (env : WriteEnv reserved V dim) (s : DB K V dim) (batch : List (K × Vector V dim)) :
    DB K V dim :=
  { s with
    gpu := (run s.gpu (env.schedule s.gpu batch).events).1
    rocks := if env.fault.any Fault.losesEvicted = true then s.rocks
      else MemDiskTree.multiset s.rocks (run s.gpu (env.schedule s.gpu batch).events).2 }

theorem below_attempted (env : WriteEnv reserved V dim)
    (hlost : s.config.forceSkipMemtable = true ∨ env.fault.any Fault.losesEvicted = true)
    (batch : List (K × Vector V dim)) : (s.attempted env batch).below = s.below := by
  funext key
  rw [below, below]
  rcases hlost with hskip | hlost
  · have hsst : (s.attempted env batch).rocks.sst = s.rocks.sst := by
      rw [attempted]
      dsimp only
      split
      · rfl
      · rfl
    have hconfig : (s.attempted env batch).config.forceSkipMemtable = true := hskip
    rw [RocksDB.get, if_pos hconfig, RocksDB.get, if_pos hskip, hsst]
  · rw [attempted, hlost]
    rfl

theorem multiset_cases (env : WriteEnv reserved V dim) (batch : List (K × Vector V dim))
    (hopen : s.initialized = true) (hfault : env.fault ≠ some .noTable) :
    ∃ outcome, s.multiset env batch = (outcome, s.attempted env batch) ∧
      (env.fault = none ∨ (run s.gpu (env.schedule s.gpu batch).events).2 = [] →
        ∃ result, outcome = .returned result) ∧
      (env.fault ≠ none → (run s.gpu (env.schedule s.gpu batch).events).2 ≠ [] →
        outcome ≠ .returned .SUCCESS) := by
  have hempty : MemDiskTree.multiset s.rocks ([] : List (K × Vector V dim)) = s.rocks := rfl
  by_cases hbatch : batch = []
  · subst hbatch
    rw [multiset, if_neg (by rw [hopen]; decide), if_pos rfl, attempted,
      (env.schedule s.gpu []).events_of_nil]
    refine ⟨.returned .SUCCESS, ?_, fun _ => ⟨_, rfl⟩, fun _ hevicted => absurd rfl hevicted⟩
    split
    · rfl
    · rfl
  rw [multiset, if_neg (by rw [hopen]; decide), if_neg hbatch, GPUTreeHkv.multiset, if_neg hfault,
    if_neg hbatch, attempted]
  cases hcase : env.fault with
  | none =>
    by_cases hevicted : (run s.gpu (env.schedule s.gpu batch).events).2 = []
    · simp [hevicted, hempty]
    · simp [hevicted]
  | some fault =>
    cases fault with
    | noTable => exact absurd hcase hfault
    | afterInsert => simp [Fault.losesEvicted]
    | memdisk what =>
      by_cases hevicted : (run s.gpu (env.schedule s.gpu batch).events).2 = []
      · simp [hevicted, Fault.losesEvicted]
      · simp [hevicted, Fault.losesEvicted]
    | free what =>
      by_cases hevicted : (run s.gpu (env.schedule s.gpu batch).events).2 = []
      · simp [hevicted, hempty, Fault.losesEvicted]
      · simp [hevicted, Fault.losesEvicted]

theorem multiset_noTable (env : WriteEnv reserved V dim) (batch : List (K × Vector V dim))
    (hopen : s.initialized = true) (hfault : env.fault = some .noTable) :
    ∃ result, s.multiset env batch = (.returned result, s) := by
  rw [multiset, if_neg (by rw [hopen]; decide), GPUTreeHkv.multiset, if_pos hfault]
  split
  · exact ⟨_, rfl⟩
  · exact ⟨_, rfl⟩

theorem multiset_returns {env : WriteEnv reserved V dim} (hopen : s.initialized = true)
    (hcalm : env.fault = none ∨ (run s.gpu (env.schedule s.gpu batch).events).2 = []) :
    ∃ result, (s.multiset env batch).1 = .returned result := by
  by_cases hfault : env.fault = some .noTable
  · obtain ⟨result, hresult⟩ := multiset_noTable env batch hopen hfault
    exact ⟨result, by rw [hresult]⟩
  · obtain ⟨outcome, hmultiset, hreturned, -⟩ := multiset_cases env batch hopen hfault
    rw [hmultiset]
    exact hreturned hcalm

theorem Sane.multigetFinds_clean (h : Sane reserved s) (henv : env.Clean) (index : Nat) :
    s.multigetFinds env keys index ↔ ∃ key, keys[index]? = some key ∧ reserved key = false := by
  by_cases hkeys : keys = []
  · rw [multigetFinds, DB.multiget, if_pos (Or.inr hkeys), hkeys]
    simp
  · have hopen := (h.lookup env keys).isOpen
    exact h.multigetFinds_iff henv.toWorks (multiget_returns h.isOpen hkeys henv.host
      (multiset_returns hopen (Or.inl henv.fault))) index

def readBackTiers (env : ReadEnv reserved V dim) (s : DB K V dim) (keys : List K) : DB K V dim :=
  s.attempted env.toWriteEnv (s.backPairs env keys)

theorem multiget_next (hopen : s.initialized = true) (hbelow : s.GoesBelow env keys) :
    ∃ buffer, (s.multiget env keys).2 =
      { ((s.lookup env keys).multiset env.toWriteEnv (s.backPairs env keys)).2 with
        buffer := buffer } := by
  rw [multiget_eq hopen hbelow]
  split
  · rename_i t heq
    exact ⟨(t.answer env keys (s.backPairs env keys)).2.buffer, by rw [heq]; rfl⟩
  · rename_i t heq
    exact ⟨t.buffer, by rw [heq]⟩
  · rename_i t heq
    exact ⟨t.buffer, by rw [heq]⟩

theorem visible_of_stopped (hopen : s.initialized = true) (hstop : ¬s.GoesBelow env keys) :
    (s.multiget env keys).2.visible = s.visible := by
  rcases multiget_stopped hopen hstop with hsame | hlookup
  · rw [hsame]
  · rw [hlookup, lookup_eq]
    rfl

theorem visible_of_noTable (hopen : s.initialized = true) (hbelow : s.GoesBelow env keys)
    (hfault : env.fault = some .noTable) : (s.multiget env keys).2.visible = s.visible := by
  obtain ⟨buffer, hnext⟩ := multiget_next hopen hbelow
  obtain ⟨result, hwrite⟩ := multiset_noTable env.toWriteEnv (s.backPairs env keys)
    (by rw [lookup_eq]; exact hopen : (s.lookup env keys).initialized = true) hfault
  rw [hnext, hwrite, lookup_eq]
  rfl

theorem multiget_tiers (hopen : s.initialized = true) (hbelow : s.GoesBelow env keys)
    (hfault : env.fault ≠ some .noTable) :
    ∃ buffer, (s.multiget env keys).2 = { s.readBackTiers env keys with buffer := buffer } := by
  obtain ⟨buffer, hnext⟩ := multiget_next hopen hbelow
  obtain ⟨outcome, hwrite, -⟩ := multiset_cases env.toWriteEnv (s.backPairs env keys)
    (by rw [lookup_eq]; exact hopen : (s.lookup env keys).initialized = true) hfault
  refine ⟨buffer, ?_⟩
  rw [hnext, hwrite, lookup_eq]
  rfl

theorem visible_multiget (hopen : s.initialized = true) (hbelow : s.GoesBelow env keys)
    (hfault : env.fault ≠ some .noTable) :
    (s.multiget env keys).2.visible = (s.readBackTiers env keys).visible := by
  obtain ⟨buffer, hnext⟩ := multiget_tiers hopen hbelow hfault
  rw [hnext]
  rfl

theorem mem_inserts_back (env : ReadEnv reserved V dim) (key : K) :
    key ∈ (inserts (env.schedule s.gpu (s.backPairs env keys)).events).map Prod.fst ↔
      (key ∈ keys ∧ s.gpu key = none) ∧ reserved key = false := by
  rw [mem_inserts, backPairs, map_fst_readBack, mem_missedKeys]

theorem visible_readBackTiers (hskip : s.config.forceSkipMemtable = false)
    (hkept : env.fault.any Fault.losesEvicted = false) (key : K) :
    (s.readBackTiers env keys).visible key ↔
      s.visible key ∨ (key ∈ keys ∧ s.gpu key = none) ∧ reserved key = false := by
  have hwritten : s.readBackTiers env keys =
      s.written (env.schedule s.gpu (s.backPairs env keys)).events := by
    rw [readBackTiers, attempted, hkept]
    rfl
  rw [hwritten, visible_iff_view (s := s.written _) hskip, visible_iff_view hskip, view_written,
    writeAll_isSome, map_fst_encodeAll, mem_inserts_back]

theorem visibleBelow_readBackTiers (keys : List K)
    (hlost : s.config.forceSkipMemtable = true ∨ env.fault.any Fault.losesEvicted = true) (key : K) :
    (s.readBackTiers env keys).visibleBelow key ↔ s.visibleBelow key := by
  have hbelow := congrFun (below_attempted env.toWriteEnv hlost (s.backPairs env keys)) key
  rw [visibleBelow, visibleBelow, ← below, ← below, readBackTiers, hbelow]

-- What the read-back evicts is still visible below, or nothing is evicted at all.
def EvictionsVisible (reserved : K → Bool) (fault : Option Fault) (s : DB K V dim)
    (keys : List K) : Prop :=
  (s.config.forceSkipMemtable = false ∧ fault.any Fault.losesEvicted = false) ∨
    (∀ key ∈ keys, reserved key = false → (s.gpu key).isSome = true) ∨
    ∀ key, (s.gpu key).isSome = true → s.visibleBelow key

theorem visible_same (hfound : ∀ key ∈ keys, reserved key = false → s.visible key)
    (hkept : EvictionsVisible reserved env.fault s keys) (key : K) :
    (s.readBackTiers env keys).visible key ↔ s.visible key := by
  have hback : (key ∈ keys ∧ s.gpu key = none) ∧ reserved key = false → s.visible key :=
    fun hkey => hfound key hkey.1.1 hkey.2
  by_cases hcalm : s.config.forceSkipMemtable = false ∧ env.fault.any Fault.losesEvicted = false
  · rw [visible_readBackTiers hcalm.1 hcalm.2]
    exact or_iff_left_of_imp hback
  · have hlost : s.config.forceSkipMemtable = true ∨ env.fault.any Fault.losesEvicted = true := by
      simpa [or_iff_not_imp_left] using hcalm
    have hbelow := visibleBelow_readBackTiers keys hlost key
    rcases hkept.resolve_left hcalm with hgpu | hgpu
    · have hevents : (env.schedule s.gpu (s.backPairs env keys)).events = [] := by
        refine Schedule.events_eq_nil _ fun other hother => ?_
        obtain ⟨⟨hmem, hmissed⟩, hreserved⟩ := mem_inserts_back env other |>.mp hother
        have hsome := hgpu other hmem hreserved
        rw [hmissed] at hsome
        cases hsome
      have hsame : (s.readBackTiers env keys).gpu = s.gpu := by
        rw [readBackTiers, attempted, hevents]
        rfl
      rw [visible, visible, hbelow, hsame]
    · constructor
      · rintro (hrun | hrocks)
        · rcases isSome_of_run hrun with hsome | hmem
          · exact Or.inl hsome
          · exact hback (mem_inserts_back env key |>.mp hmem)
        · exact Or.inr (hbelow.mp hrocks)
      · rintro (hsome | hrocks)
        · exact Or.inr (hbelow.mpr (hgpu key hsome))
        · exact Or.inr (hbelow.mpr hrocks)

theorem schedule_dropping (s : DB K V dim) (keys dropped : List K) (fault : Option Fault) :
    ∃ pairs, ((ReadEnv.dropping reserved dropped fault).schedule s.gpu
        (s.backPairs (.dropping reserved dropped fault) keys)).events =
          insertThenDrop pairs (if pairs.isEmpty = true then [] else dropped) ∧
      ∀ key, key ∈ pairs.map Prod.fst ↔ (key ∈ keys ∧ s.gpu key = none) ∧ reserved key = false := by
  refine ⟨_, rfl, fun key => ?_⟩
  rw [← mem_inserts_back (.dropping reserved dropped fault)]
  exact iff_of_eq (congrArg (key ∈ List.map Prod.fst ·) (inserts_insertThenDrop _ _).symm)

theorem visible_of_dropping_nil (hkey : key ∈ keys) (hreserved : reserved key = false) :
    (s.readBackTiers (.dropping reserved [] fault) keys).visible key := by
  obtain ⟨pairs, hevents, hpairs⟩ := schedule_dropping s keys [] fault
  refine Or.inl ?_
  rw [readBackTiers, attempted, hevents, ite_self, run_insertThenDrop_nil]
  refine (writeAll_isSome s.gpu pairs key).mpr ?_
  cases hgpu : s.gpu key with
  | some values => exact Or.inl rfl
  | none => exact Or.inr ((hpairs key).mpr ⟨⟨hkey, hgpu⟩, hreserved⟩)

-- A key whose only copy was in the GPU table may be the one that goes.
theorem not_visible_of_dropping (hmissed : missed ∈ keys) (hreserved : reserved missed = false)
    (hnone : s.gpu missed = none) (hbelow : ¬s.visibleBelow key)
    (hlost : s.config.forceSkipMemtable = true ∨ fault.any Fault.losesEvicted = true) :
    ¬(s.readBackTiers (.dropping reserved [key] fault) keys).visible key := by
  obtain ⟨pairs, hevents, hpairs⟩ := schedule_dropping s keys [key] fault
  have hsome : pairs.isEmpty ≠ true := by
    intro hempty
    have hmem := (hpairs missed).mpr ⟨⟨hmissed, hnone⟩, hreserved⟩
    rw [List.isEmpty_iff.mp hempty] at hmem
    cases hmem
  rw [visible, not_or]
  constructor
  · rw [readBackTiers, attempted, hevents, if_neg hsome]
    dsimp only
    rw [run_insertThenDrop_one, Function.update_self]
    nofun
  · rwa [visibleBelow_readBackTiers keys hlost]

-- An entry that would be lost may go with the insert of a missed key.
theorem evictionsVisible_of_same (hopen : s.initialized = true) (hfault : fault ≠ some .noTable)
    (hgpu : ¬∀ key ∈ keys, (s.gpu key).isSome = true)
    (hsame : ∀ key, (s.multiget (.dropping reserved [key] fault) keys).2.visible key ↔
      s.visible key) : EvictionsVisible reserved fault s keys := by
  by_cases hcalm : s.config.forceSkipMemtable = false ∧ fault.any Fault.losesEvicted = false
  · exact Or.inl hcalm
  by_cases hmissed : ∀ key ∈ keys, reserved key = false → (s.gpu key).isSome = true
  · exact Or.inr (Or.inl hmissed)
  refine Or.inr (Or.inr fun key hkey => ?_)
  by_contra hbelow
  obtain ⟨missed, hmem, hreserved, hnone⟩ : ∃ missed, missed ∈ keys ∧
      reserved missed = false ∧ s.gpu missed = none := by simpa using hmissed
  have hlost : s.config.forceSkipMemtable = true ∨ fault.any Fault.losesEvicted = true := by
    simpa [or_iff_not_imp_left] using hcalm
  apply not_visible_of_dropping hmem hreserved hnone hbelow hlost
  rw [← visible_multiget hopen (goesBelow_of_works (ReadEnv.works_dropping _ _) hgpu) hfault, hsame]
  exact Or.inl hkey

theorem multiget_returns_dropping_nil (reserved : K → Bool) (fault : Option Fault)
    (hopen : s.initialized = true) (hkeys : keys ≠ []) : ∃ found next,
      s.multiget (.dropping reserved [] fault) keys = (.returned (.SUCCESS, found), next) := by
  have hlookup := lookup_eq (.dropping reserved [] fault) s keys
  refine multiget_returns hopen hkeys rfl
    (multiset_returns (by rw [hlookup]; exact hopen) (Or.inr ?_))
  obtain ⟨pairs, hevents, -⟩ := schedule_dropping s keys [] fault
  have hgpu : (s.lookup (.dropping reserved [] fault) keys).gpu = s.gpu := by rw [hlookup]
  rw [hgpu, hevents, ite_self, run_insertThenDrop_nil]

theorem Sane.createsNothing_iff (h : Sane reserved s) (ops : List (Op K V dim reserved)) :
    CreatesNothing ops env s keys ↔
      (∀ index key, keys[index]? = some key → s.multigetFinds env keys index → Written ops key) ∧
        ∀ key, (s.multiget env keys).2.visible key ↔ s.visible key := by
  have hnext := h.multiget env keys
  constructor
  · intro hcreates
    refine ⟨hcreates.found, fun key => ?_⟩
    have hclean : (ReadEnv.dropping reserved [] none : ReadEnv reserved V dim).Clean :=
      ReadEnv.clean_dropping []
    rw [← getFinds_iff hclean hnext.isOpen, ← getFinds_iff hclean h.isOpen]
    exact hcreates.get _ hclean key
  · rintro ⟨hfound, hvisible⟩
    refine ⟨hfound, fun later hlater key => ?_, fun later hlater others index => ?_⟩
    · rw [getFinds_iff hlater hnext.isOpen, getFinds_iff hlater h.isOpen]
      exact hvisible key
    · rw [hnext.multigetFinds_clean hlater, h.multigetFinds_clean hlater]

-- Whatever the read-back evicts, a batch read finds written keys only and changes nothing for
-- later reads, exactly when its keys were written and visible before, and no entry has its only
-- visible copy in the GPU table while evictions do not reach a place that readers look at.
theorem multiget_createsNothing_iff (config : StorageConfig) (ops : List (Op K V dim reserved))
    (fault : Option Fault) (keys : List K) :
    let s : DB K V dim := (DB.opened config).runOps ops
    (∀ env : ReadEnv reserved V dim, env.fault = fault → CreatesNothing ops env s keys) ↔
      (∀ key ∈ keys, reserved key = false → Written ops key) ∧
        (fault = some .noTable ∨
          (∀ key ∈ keys, reserved key = false → s.visible key) ∧
            EvictionsVisible reserved fault s keys) := by
  intro s
  have h : Sane reserved s := (sane_opened config).runOps ops
  constructor
  · intro hall
    have hquiet := (h.createsNothing_iff ops).mp (hall (.dropping reserved [] fault) rfl)
    constructor
    · intro key hkey hreserved
      obtain ⟨index, hindex⟩ := List.mem_iff_getElem?.mp hkey
      have hreturns := multiget_returns_dropping_nil reserved fault h.isOpen (List.ne_nil_of_mem hkey)
      exact hquiet.1 index key hindex ((h.multigetFinds_iff (ReadEnv.works_dropping _ _)
        hreturns index).mpr ⟨key, hindex, hreserved⟩)
    · by_cases hfault : fault = some .noTable
      · exact Or.inl hfault
      refine Or.inr ?_
      by_cases hgpu : ∀ key ∈ keys, (s.gpu key).isSome = true
      · exact ⟨fun key hkey _ => Or.inl (hgpu key hkey), Or.inr (Or.inl fun key hkey _ => hgpu key hkey)⟩
      constructor
      · intro key hkey hreserved
        rw [← hquiet.2, visible_multiget h.isOpen
          (goesBelow_of_works (ReadEnv.works_dropping _ _) hgpu) hfault]
        exact visible_of_dropping_nil hkey hreserved
      · exact evictionsVisible_of_same h.isOpen hfault hgpu fun key =>
          ((h.createsNothing_iff ops).mp (hall (.dropping reserved [key] fault) rfl)).2 key
  · rintro ⟨hwritten, hkept⟩ env rfl
    rw [h.createsNothing_iff]
    constructor
    · rintro index key hindex ⟨found, next, values, hmultiget, hfound⟩
      obtain ⟨answer, rfl, hanswer⟩ := h.answered_free hmultiget
      have hkey := List.mem_of_getElem? hindex
      refine hwritten key hkey (hanswer key hkey ?_)
      rw [List.getElem?_map, hindex, Option.map_some] at hfound
      rw [Option.some.inj hfound]
      rfl
    · intro key
      by_cases hbelow : s.GoesBelow env keys
      · rcases hkept with hfault | ⟨hvisible, hevictions⟩
        · rw [visible_of_noTable h.isOpen hbelow hfault]
        · by_cases hfault : env.fault = some .noTable
          · rw [visible_of_noTable h.isOpen hbelow hfault]
          · rw [visible_multiget h.isOpen hbelow hfault]
            exact visible_same hvisible hevictions key
      · rw [visible_of_stopped h.isOpen hbelow]

-- A batch read of a key that nobody wrote, on a new database.
theorem multiget_creates_key :
    let env : ReadEnv (fun _ : UInt64 => false) UInt32 1 := .dropping _ [] none
    let s : DB UInt64 UInt32 1 := .opened {}
    s.get env 7 = .returned (.KEY_NOT_FOUND, none) ∧
      (s.multiget env [7]).1 = .returned (.SUCCESS, [some #v[0]]) ∧
      (s.multiget env [7]).2.get env 7 = .returned (.SUCCESS, some #v[0]) ∧
      ¬CreatesNothing [] env s [7] := by
  intro env s
  have hafter : (s.multiget env [7]).2.get env 7 = .returned (.SUCCESS, some #v[0]) := rfl
  refine ⟨rfl, rfl, hafter, fun hcreates => ?_⟩
  obtain ⟨values, hbefore⟩ := (hcreates.get env (ReadEnv.clean_dropping []) 7).mp ⟨_, hafter⟩
  cases hbefore

end DB

end MlkvPlus
