import Mathlib.Data.List.Range
import MlkvPlus.Db.ReadBack
import MlkvPlus.GpuTree.AllFound

namespace MlkvPlus

open Tiered

-- The pairs for which `last` holds come in after the others, and nothing goes.
def Schedule.lastly {K W : Type} (reserved : K → Bool) (last : K × W → Bool)
    (batch : List (K × W)) : Schedule reserved batch :=
  let pairs := batch.filter fun pair => reserved pair.1 = false
  { events := insertThenDrop (pairs.filter (fun pair => !last pair) ++ pairs.filter last) []
    complete := by
      rw [inserts_insertThenDrop]
      exact List.perm_append_comm.trans (List.filter_append_perm last pairs)
    quiet := by
      rw [drops_insertThenDrop]
      exact fun _ => rfl }

variable {K V : Type} {dim : Nat} {reserved : K → Bool}

theorem Schedule.run_lastly [DecidableEq K] (table : K → Option (Vector V dim))
    (last : K × Vector V dim → Bool) (hmem : (key, values) ∈ batch) (hfree : reserved key = false)
    (hlast : ∀ pair, last pair = true ↔ pair = (key, values)) :
    (run table (Schedule.lastly reserved last batch).events).1 key = some values := by
  have hkept : (key, values) ∈ (batch.filter fun pair => reserved pair.1 = false).filter last :=
    List.mem_filter.mpr ⟨List.mem_filter.mpr ⟨hmem, by simpa using hfree⟩, (hlast _).mpr rfl⟩
  rw [lastly, run_insertThenDrop_nil, writeAll_append]
  obtain ⟨found, hfound, hwrite⟩ := writeAll_of_mem
    (writeAll table ((batch.filter fun pair => reserved pair.1 = false).filter fun pair => !last pair))
    (List.mem_map_of_mem (f := Prod.fst) hkept)
  obtain rfl := (Prod.mk.inj ((hlast _).mp (List.mem_filter.mp hfound).2)).2
  exact hwrite

-- Nothing fails: the check of the found flags gives an answer that it can give, and the host can
-- read memory of the device or not.
structure ReadEnv.Runs (host : Bool) (env : ReadEnv reserved V dim) : Prop where
  check : ∀ found, GPUTreeHkv.CanAnswer found (env.allFound found)
  host : env.hostReads = host
  fault : env.fault = none
  memtable : ∀ key, env.memtableStatus key = true
  read : ∀ key, env.readStatus key = true

-- The same with the blocks of the check one after the other.
def ReadEnv.inOrder (host : Bool) (env : ReadEnv reserved V dim) : ReadEnv reserved V dim :=
  { env with
    allFound := GPUTreeHkv.answerInOrder
    hostReads := host }

theorem ReadEnv.Clean.runs_inOrder {env : ReadEnv reserved V dim} (h : env.Clean) (host : Bool) :
    (env.inOrder host).Runs host :=
  ⟨GPUTreeHkv.canAnswer_inOrder, rfl, h.fault, h.memtable, h.read⟩

variable [Scalar K] [Scalar V]

namespace MemDiskTree

variable {config : StorageConfig} {env : ReadEnv reserved V dim} {rocks : RocksDB} {keys : List K}
  {key : K} {values : Vector V dim} {index : Nat}

theorem stored_of_gdsReads
    (h : GdsReads (fun _ => true) (fun _ => true) config rocks keys index key raw) :
    rocks.stored key = some raw := by
  rcases h.2 with ⟨-, hraw⟩ | ⟨hmiss, hraw, -⟩
  · exact overlay_of_some hraw
  · have hnone : rocks.memtable (Scalar.toBytes key) = none := by
      by_contra hsome
      exact hmiss ⟨rfl, Option.ne_none_iff_isSome.mp hsome⟩
    exact (overlay_of_none hnone).trans hraw

theorem plainValue_of_stored (hdim : dim < 2 ^ 64) (hread : env.readStatus key = true)
    (hstored : rocks.stored key = some (serializeValueArray values)) :
    plainValue env rocks index key = values := by
  rw [RocksDB.stored] at hstored
  rw [plainValue, if_pos hread, hstored]
  exact loadVector_serialize hdim env.heap values

end MemDiskTree

namespace DB

def withGds (s : DB K V dim) (enabled : Bool) : DB K V dim :=
  { s with config := { s.config with enableGdsGetFromSst := enabled } }

omit [Scalar K] [Scalar V] in
theorem Sane.withGds {s : DB K V dim} (h : Sane reserved s) (enabled : Bool) :
    Sane reserved (s.withGds enabled) :=
  ⟨h.isOpen, h.gpu, h.buffer⟩

-- The keys of the batch that the GPU table misses, with repetitions.
def missedInBatch (s : DB K V dim) (keys : List K) : List K :=
  keys.filter fun key => (s.gpu key).isNone

omit [Scalar K] [Scalar V] in
theorem mem_missedInBatch {s : DB K V dim} {keys : List K} {key : K} :
    key ∈ s.missedInBatch keys ↔ key ∈ keys ∧ s.gpu key = none := by
  simp [missedInBatch, List.mem_filter]

variable [DecidableEq K]

-- The two paths report the same keys with the same vectors, and the GDS path leaves the stored
-- values as they were, whatever either of them finds in memory and however its blocks run.
def PathsAgree (reserved : K → Bool) (host : Bool) (s : DB K V dim) (keys : List K) : Prop :=
  ∀ env other : ReadEnv reserved V dim, env.Runs host → other.Runs host →
    ((s.withGds true).multiget env keys).1 = ((s.withGds false).multiget other keys).1 ∧
      ((s.withGds true).multiget env keys).2.view = s.view

-- A missed key shows in the first block of the check, or all missed keys are reserved.
def CheckCopes (reserved : K → Bool) (s : DB K V dim) (keys : List K) : Prop :=
  (∃ key ∈ keys.take 256, s.gpu key = none) ∨
    ∀ key ∈ keys, reserved key = false → (s.gpu key).isSome = true

-- The host can read the keys of the device, or has none to read.
def HostCopes (host : Bool) (s : DB K V dim) (keys : List K) : Prop :=
  host = true ∨ s.config.forceSkipMemtable = true ∨
    ∀ key ∈ keys, s.gpu key = none → (s.rocks.memtable (Scalar.toBytes key)).isSome = true

-- And for the missed keys the GDS path reads what is stored.
structure GdsCovers (reserved : K → Bool) (host : Bool) (s : DB K V dim) (keys : List K) : Prop where
  check : CheckCopes reserved s keys
  host : HostCopes host s keys
  reads : ∀ (index : Nat) key, (s.missedInBatch keys)[index]? = some key → reserved key = false →
    ∃ raw, s.rocks.stored key = some raw ∧
      (MemDiskTree.GdsReads (fun _ => true) (fun _ => true) s.config s.rocks (s.missedInBatch keys)
        index key raw ∨ Subsingleton (Vector V dim))

variable {host : Bool} {s : DB K V dim} {env : ReadEnv reserved V dim} {keys : List K} {key : K}
  {values : Vector V dim}

theorem mem_back_gds : (key, values) ∈ (s.withGds true).backPairs env keys ↔
    ∃ index, (s.missedInBatch keys)[index]? = some key ∧
      values = MemDiskTree.gdsValue s.config env s.rocks (s.missedInBatch keys) index key :=
  mem_backPairs

omit [Scalar V] [DecidableEq K] in
theorem gdsReads_of_runs (henv : env.Runs host) :
    MemDiskTree.GdsReads env.memtableStatus env.readStatus s.config s.rocks (s.missedInBatch keys)
        index key raw ↔
      MemDiskTree.GdsReads (fun _ => true) (fun _ => true) s.config s.rocks (s.missedInBatch keys)
        index key raw := by
  rw [funext henv.memtable, funext henv.read]

theorem Reached.back_gds (hdim : dim < 2 ^ 64) (h : Reached reserved s) (henv : env.Runs host)
    (hcovers : GdsCovers reserved host s keys) (hfree : reserved key = false)
    (hmem : (key, values) ∈ (s.withGds true).backPairs env keys) :
    s.rocks.stored key = some (serializeValueArray values) := by
  obtain ⟨index, hindex, hvalues⟩ := mem_back_gds.mp hmem
  obtain ⟨raw, hraw, hreads⟩ := hcovers.reads index key hindex hfree
  obtain ⟨found, rfl⟩ := h.encoded.get false _ raw hraw
  rw [hraw]
  rcases hreads with hreads | hone
  · rw [hvalues, MemDiskTree.gdsValue_of_reads hindex ((gdsReads_of_runs henv).mpr hreads),
      MemDiskTree.loadVector_serialize hdim]
  · rw [Subsingleton.elim values found]

theorem Reached.back_plain (hdim : dim < 2 ^ 64) (h : Reached reserved s) (henv : env.Runs host)
    (hstored : (s.rocks.stored key).isSome = true)
    (hmem : (key, values) ∈ (s.withGds false).backPairs env keys) :
    s.rocks.stored key = some (serializeValueArray values) := by
  obtain ⟨index, -, hvalues⟩ := mem_backPairs.mp hmem
  obtain ⟨raw, hraw⟩ := Option.isSome_iff_exists.mp hstored
  obtain ⟨found, rfl⟩ := h.encoded.get false _ raw hraw
  have hplain : (s.withGds false).readValue env keys index key = found :=
    MemDiskTree.plainValue_of_stored hdim (henv.read key) hraw
  rw [hraw, hvalues, hplain]

theorem Reached.same_answer (hdim : dim < 2 ^ 64) (h : Reached reserved s)
    {other : ReadEnv reserved V dim} (henv : env.Runs host) (hother : other.Runs host)
    (hcovers : GdsCovers reserved host s keys) {first second : K → Option (Vector V dim)}
    (hfirst : Answers env (s.withGds true) keys first)
    (hsecond : Answers other (s.withGds false) keys second) (hkey : key ∈ keys) :
    first key = second key := by
  by_cases hreserved : reserved key = true
  · rw [hfirst.refused key hkey hreserved, hsecond.refused key hkey hreserved]
  have hfree := Bool.eq_false_of_not_eq_true hreserved
  rcases Option.eq_none_or_eq_some (s.gpu key) with hgpu | ⟨values, hgpu⟩
  · obtain ⟨found, hfound, hgds⟩ := hfirst.missed key hkey hfree hgpu
    obtain ⟨read, hread, hplain⟩ := hsecond.missed key hkey hfree hgpu
    have hstored := h.back_gds hdim henv hcovers hfree hfound
    have hsame := h.back_plain hdim hother (by rw [hstored]; rfl) hread
    rw [hstored] at hsame
    rw [hgds, hplain, serialize_injective hdim (Option.some.inj hsame)]
  · rw [hfirst.gpu key hkey values hgpu, hsecond.gpu key hkey values hgpu]

section Check

variable (hlength : keys.length ≤ 2 ^ 32)
include hlength

omit [DecidableEq K] [Scalar K] [Scalar V] in
-- A wrong yes needs a first block without a missed key.
theorem found_of_saysAllFound (henv : env.Runs host) (hkeys : keys ≠ [])
    (hcheck : CheckCopes reserved s keys)
    (hanswer : s.saysAllFound env keys) :
    ∀ key ∈ keys, reserved key = false → (s.gpu key).isSome = true := by
  refine hcheck.resolve_left ?_
  rintro ⟨key, hkey, hgpu⟩
  have hcan := henv.check (keys.map fun key => (s.gpu key).isSome)
  rw [show env.allFound _ = true from hanswer, GPUTreeHkv.canAnswer_true_iff
    (by rwa [List.length_map]) (by simpa using hkeys), ← List.map_take] at hcan
  exact hcan (List.mem_map.mpr ⟨key, hkey, by rw [hgpu]; rfl⟩)

omit [DecidableEq K] [Scalar K] [Scalar V] in
theorem saysAllFound_inOrder (env : ReadEnv reserved V dim) (host : Bool) (hkeys : keys ≠ []) :
    s.saysAllFound (env.inOrder host) keys ↔ ∀ key ∈ keys, (s.gpu key).isSome = true := by
  have hanswer : GPUTreeHkv.answerInOrder (keys.map fun key => (s.gpu key).isSome) =
      (keys.map fun key => (s.gpu key).isSome).all id :=
    GPUTreeHkv.answerInOrder_eq (by rwa [List.length_map]) (by simpa using hkeys)
  rw [saysAllFound, show (env.inOrder host).allFound = GPUTreeHkv.answerInOrder from rfl, hanswer,
    List.all_map, List.all_eq_true]
  rfl

theorem Sane.answers_of_runs (h : Sane reserved s) (henv : env.Runs host) (hkeys : keys ≠ [])
    (hcheck : CheckCopes reserved s keys)
    (halive : ¬s.crashes env (missedKeys s.config s.gpu keys)) :
    ∃ answer next, s.multiget env keys = (.returned (.SUCCESS, keys.map answer), next) ∧
      Answers env s keys answer := by
  by_cases hanswer : s.saysAllFound env keys
  · exact h.answers_of_found hkeys hanswer (found_of_saysAllFound hlength henv hkeys hcheck hanswer)
  · exact h.multiget_answers henv.fault ⟨hkeys, hanswer, halive⟩

end Check

omit [Scalar V] [DecidableEq K] in
theorem not_crashes_withGds_false (env : ReadEnv reserved V dim) (missed : List K) :
    ¬(s.withGds false).crashes env missed := by
  rintro ⟨hgds, -⟩
  cases hgds

omit [Scalar V] [DecidableEq K] in
theorem crashes_withGds_true_iff (henv : env.Runs host) :
    (s.withGds true).crashes env (s.missedInBatch keys) ↔
      host = false ∧ s.config.forceSkipMemtable = false ∧
        ∃ key ∈ keys, s.gpu key = none ∧ s.rocks.memtable (Scalar.toBytes key) = none := by
  have hneeded : ∀ entry, entry ∈ MemDiskTree.neededKeys s.config env s.rocks (s.missedInBatch keys) ↔
      s.config.forceSkipMemtable = false ∧ (s.missedInBatch keys)[entry.2]? = some entry.1 ∧
        s.rocks.memtable (Scalar.toBytes entry.1) = none := by
    intro entry
    rw [MemDiskTree.mem_neededKeys, MemDiskTree.Held, henv.memtable]
    simp
  constructor
  · rintro ⟨-, hhost, hne⟩
    rw [henv.host] at hhost
    obtain ⟨entry, hentry⟩ := List.exists_mem_of_ne_nil _ hne
    obtain ⟨hskip, hindex, hnone⟩ := (hneeded entry).mp hentry
    obtain ⟨hkey, hgpu⟩ := mem_missedInBatch.mp (List.mem_of_getElem? hindex)
    exact ⟨hhost, hskip, entry.1, hkey, hgpu, hnone⟩
  · rintro ⟨hhost, hskip, key, hkey, hgpu, hnone⟩
    obtain ⟨index, hindex⟩ := List.mem_iff_getElem?.mp (mem_missedInBatch.mpr ⟨hkey, hgpu⟩)
    refine ⟨rfl, henv.host.trans hhost, ?_⟩
    exact List.ne_nil_of_mem ((hneeded (key, index)).mpr ⟨hskip, hindex, hnone⟩)

omit [Scalar V] [DecidableEq K] in
theorem HostCopes.not_crashes (hhost : HostCopes host s keys) (henv : env.Runs host) :
    ¬(s.withGds true).crashes env (s.missedInBatch keys) := by
  rw [crashes_withGds_true_iff henv]
  rintro ⟨hfalse, hskip, key, hkey, hgpu, hnone⟩
  rcases hhost with htrue | htrue | hmemtable
  · rw [hfalse] at htrue
    cases htrue
  · rw [hskip] at htrue
    cases htrue
  · have hsome := hmemtable key hkey hgpu
    rw [hnone] at hsome
    cases hsome

theorem view_multiget (hfault : env.fault = none) (hopen : s.initialized = true)
    (hbelow : s.GoesBelow env keys) :
    (s.multiget env keys).2.view = writeAll s.view (encodeAll serializeValueArray
      (inserts (env.schedule s.gpu (s.backPairs env keys)).events)) := by
  obtain ⟨buffer, hnext⟩ := multiget_tiers hopen hbelow (by rw [hfault]; nofun)
  rw [hnext, ← view_attempted (by rw [hfault]; rfl)]
  rfl

theorem Reached.view_of_covers (hdim : dim < 2 ^ 64) (h : Reached reserved s) (henv : env.Runs host)
    (hcovers : GdsCovers reserved host s keys) :
    ((s.withGds true).multiget env keys).2.view = s.view := by
  by_cases hbelow : (s.withGds true).GoesBelow env keys
  · rw [view_multiget (s := s.withGds true) henv.fault h.isOpen hbelow]
    funext key
    by_cases hkey : key ∈ (inserts (env.schedule s.gpu
        ((s.withGds true).backPairs env keys)).events).map Prod.fst
    · have hback := mem_inserts_back (s := s.withGds true) env key |>.mp hkey
      have hstored : ∀ found, (key, found) ∈ inserts (env.schedule s.gpu
          ((s.withGds true).backPairs env keys)).events →
            s.rocks.stored key = some (serializeValueArray found) := by
        intro found hfound
        have hcomplete := (env.schedule s.gpu ((s.withGds true).backPairs env keys)).complete
        exact h.back_gds hdim henv hcovers hback.2
          (List.mem_filter.mp (hcomplete.mem_iff.mp hfound)).1
      obtain ⟨pair, hpair, rfl⟩ := List.mem_map.mp hkey
      have hview : s.view pair.1 = some (serializeValueArray pair.2) := by
        have hgpu : s.gpu pair.1 = none := hback.1.2
        rw [view_of_missed hgpu]
        exact hstored pair.2 hpair
      rw [hview]
      refine writeAll_encodeAll_same _ hview fun found hfound => ?_
      have hsame := hstored found hfound
      rw [hstored pair.2 hpair] at hsame
      exact serialize_injective hdim (Option.some.inj hsame).symm
    · rw [writeAll_of_notMem (by rwa [map_fst_encodeAll])]
      rfl
  · rcases multiget_stopped (s := s.withGds true) h.isOpen hbelow with hsame | hlookup
    · rw [hsame]
      rfl
    · rw [hlookup, lookup_eq]
      rfl

section Needed

variable (hlength : keys.length ≤ 2 ^ 32)
include hlength

-- With its blocks in order the check is right, and the plain path then finds every missed key.
theorem Sane.plain_answers (h : Sane reserved s) (host : Bool) (hkeys : keys ≠ []) :
    ∃ answer next, (s.withGds false).multiget ((ReadEnv.dropping reserved [] none).inOrder host) keys =
        (.returned (.SUCCESS, keys.map answer), next) ∧
      ∀ key ∈ keys, reserved key = false → (answer key).isSome = true := by
  let env : ReadEnv reserved V dim := (ReadEnv.dropping reserved [] none).inOrder host
  have halive := not_crashes_withGds_false (s := s) env (missedKeys (s.withGds false).config s.gpu keys)
  by_cases hanswer : s.saysAllFound env keys
  · have hall := (saysAllFound_inOrder hlength _ host hkeys).mp hanswer
    exact ⟨s.gpu, _, multiget_found (s := s.withGds false) h.isOpen hkeys hanswer,
      fun key hkey _ => hall key hkey⟩
  · have hbelow : (s.withGds false).GoesBelow env keys := ⟨hkeys, hanswer, halive⟩
    obtain ⟨answer, next, hmultiget, hanswers⟩ := (h.withGds false).multiget_answers rfl hbelow
    refine ⟨answer, next, hmultiget, fun key hkey hfree => ?_⟩
    cases hgpu : s.gpu key with
    | some values =>
      rw [hanswers.gpu key hkey values hgpu]
      rfl
    | none =>
      obtain ⟨values, -, hvalues⟩ := hanswers.missed key hkey hfree hgpu
      rw [hvalues]
      rfl

-- Otherwise the GDS path can take the batch for found and report the missed key as missing.
theorem Reached.check_of_agree (h : Reached reserved s) (hagree : PathsAgree reserved host s keys) :
    CheckCopes reserved s keys := by
  by_contra hnot
  simp only [CheckCopes, not_or, not_exists, not_and, not_forall, Bool.not_eq_true] at hnot
  obtain ⟨hfirst, key, hkey, hfree, hmissed⟩ := hnot
  have hkeys := List.ne_nil_of_mem hkey
  let flags := keys.map fun key => (s.gpu key).isSome
  have hyes : GPUTreeHkv.CanAnswer flags true := by
    rw [GPUTreeHkv.canAnswer_true_iff (by rwa [List.length_map]) (by simpa [flags] using hkeys),
      ← List.map_take]
    intro hmem
    obtain ⟨other, hother, hfalse⟩ := List.mem_map.mp hmem
    exact hfirst other hother (by simpa using hfalse)
  let calm : ReadEnv reserved V dim := .dropping reserved [] none
  let env : ReadEnv reserved V dim :=
    { calm with
      allFound := fun found => if found = flags then true else GPUTreeHkv.answerInOrder found
      hostReads := host }
  have henv : env.Runs host := by
    refine ⟨fun found => ?_, rfl, rfl, fun _ => rfl, fun _ => rfl⟩
    by_cases hflags : found = flags
    · rw [show env.allFound found = true from if_pos hflags, hflags]
      exact hyes
    · rw [show env.allFound found = GPUTreeHkv.answerInOrder found from if_neg hflags]
      exact GPUTreeHkv.canAnswer_inOrder found
  have hsame := (hagree env (calm.inOrder host) henv
    ((ReadEnv.clean_dropping []).runs_inOrder host)).1
  obtain ⟨answer, next, hplain, hfound⟩ := h.toSane.plain_answers hlength host hkeys
  have hanswer : (s.withGds true).saysAllFound env keys := if_pos rfl
  have hgds := multiget_found (s := s.withGds true) h.isOpen hkeys hanswer
  rw [hplain, hgds] at hsame
  obtain ⟨index, hindex⟩ := List.mem_iff_getElem?.mp hkey
  have hmaps := congrArg (·[index]?) (Prod.mk.inj (Outcome.returned.inj hsame)).2
  rw [List.getElem?_map, List.getElem?_map, hindex, Option.map_some, Option.map_some] at hmaps
  have hsome := hfound key hkey hfree
  rw [← Option.some.inj hmaps, show (s.withGds true).gpu = s.gpu from rfl, hmissed] at hsome
  cases hsome

-- Where the host cannot read the keys, the process ends.
theorem Reached.host_of_agree (h : Reached reserved s) (hagree : PathsAgree reserved host s keys) :
    HostCopes host s keys := by
  by_contra hnot
  simp only [HostCopes, not_or, not_forall, Bool.not_eq_true, Option.isSome_eq_false_iff,
    Option.isNone_iff_eq_none] at hnot
  obtain ⟨hhost, hskip, key, hkey, hgpu, hnone⟩ := hnot
  have hkeys := List.ne_nil_of_mem hkey
  let env : ReadEnv reserved V dim := (ReadEnv.dropping reserved [] none).inOrder host
  have henv : env.Runs host := (ReadEnv.clean_dropping []).runs_inOrder host
  have hcrash : (s.withGds true).crashes env (s.missedInBatch keys) :=
    (crashes_withGds_true_iff henv).mpr ⟨hhost, hskip, key, hkey, hgpu, hnone⟩
  have hmissed : ¬(s.withGds true).saysAllFound env keys := by
    rw [show (s.withGds true).saysAllFound env keys ↔ _ from saysAllFound_inOrder hlength _ host hkeys]
    exact not_all_found hkey hgpu
  obtain ⟨answer, next, hplain, -⟩ := h.toSane.plain_answers hlength host hkeys
  have hsame := (hagree env env henv henv).1
  rw [multiget_crashed (s := s.withGds true) h.isOpen hkeys hmissed hcrash, hplain] at hsame
  cases hsame

omit [Scalar K] [Scalar V] [DecidableEq K] hlength in
theorem missed_of_getElem {index : Nat} (hindex : (s.missedInBatch keys)[index]? = some key) :
    key ∈ keys ∧ s.gpu key = none :=
  mem_missedInBatch.mp (List.mem_of_getElem? hindex)

theorem Reached.reads_of_agree (hdim : dim < 2 ^ 64) (h : Reached reserved s)
    (hagree : PathsAgree reserved host s keys)
    (hhost : HostCopes host s keys) {index : Nat}
    (hindex : (s.missedInBatch keys)[index]? = some key) (hfree : reserved key = false) :
    ∃ raw, s.rocks.stored key = some raw ∧
      (MemDiskTree.GdsReads (fun _ => true) (fun _ => true) s.config s.rocks (s.missedInBatch keys)
        index key raw ∨ Subsingleton (Vector V dim)) := by
  obtain ⟨hkey, hgpu⟩ := missed_of_getElem hindex
  have hkeys := List.ne_nil_of_mem hkey
  have hmissed := not_all_found hkey hgpu
  have hbelow : ∀ {env : ReadEnv reserved V dim}, (env.inOrder host).Runs host →
      (s.withGds true).GoesBelow (env.inOrder host) keys := by
    intro env henv
    exact ⟨hkeys, fun hanswer => hmissed ((saysAllFound_inOrder hlength env host hkeys).mp hanswer),
      hhost.not_crashes henv⟩
  have hstored : (s.rocks.stored key).isSome = true := by
    -- a key that is not stored would be created
    let env : ReadEnv reserved V dim := (ReadEnv.dropping reserved [] none).inOrder host
    have henv : env.Runs host := (ReadEnv.clean_dropping []).runs_inOrder host
    have hafter := congrFun (hagree env env henv henv).2 key
    rw [view_multiget (s := s.withGds true) rfl h.isOpen (hbelow henv)] at hafter
    have hcreated := (writeAll_isSome (s.withGds true).view (encodeAll serializeValueArray
      (inserts (env.schedule s.gpu ((s.withGds true).backPairs env keys)).events)) key).mpr
        (Or.inr (by
          rw [map_fst_encodeAll]
          exact (mem_inserts_back (s := s.withGds true) env key).mpr ⟨⟨hkey, hgpu⟩, hfree⟩))
    rw [← view_of_missed hgpu, ← hafter]
    exact hcreated
  obtain ⟨raw, hraw⟩ := Option.isSome_iff_exists.mp hstored
  refine ⟨raw, hraw, ?_⟩
  by_contra hnot
  obtain ⟨hreads, hone⟩ := not_or.mp hnot
  obtain ⟨wrong, hwrong⟩ := exists_other_vector hdim (s.view key) fun hsame => hone hsame.1
  classical
  let env : ReadEnv reserved V dim :=
    { schedule := fun _ batch => .lastly reserved (fun pair => decide (pair = (key, wrong))) batch
      garbage := fun _ => wrong
      heap := fun _ => Scalar.ofBytes [] }
  have hclean : env.Clean := ⟨⟨fun _ => rfl, rfl⟩, rfl, fun _ => rfl, fun _ => rfl⟩
  have henv := hclean.runs_inOrder host
  have hmisses : ∀ other, ¬MemDiskTree.GdsReads (env.inOrder host).memtableStatus
      (env.inOrder host).readStatus (s.withGds true).config s.rocks (s.missedInBatch keys) index key
      other := by
    intro other hother
    have hread := (gdsReads_of_runs (s := s) henv).mp hother
    rw [MemDiskTree.stored_of_gdsReads hread] at hraw
    cases hraw
    exact hreads hread
  have hgarbage := MemDiskTree.gdsValue_of_not_reads hindex hmisses
  have hmem : (key, wrong) ∈ (s.withGds true).backPairs (env.inOrder host) keys :=
    mem_back_gds.mpr ⟨index, hindex, hgarbage.symm⟩
  obtain ⟨buffer, hnext⟩ := multiget_tiers (s := s.withGds true) h.isOpen (hbelow henv)
    (Option.some_ne_none _).symm
  have hlast : (((s.withGds true).multiget (env.inOrder host) keys).2).gpu key = some wrong := by
    rw [hnext]
    exact Schedule.run_lastly s.gpu _ hmem hfree fun pair => decide_eq_true_iff
  have hafter := congrFun (hagree _ _ henv henv).2 key
  rw [view_of_gpu hlast] at hafter
  exact hwrong hafter.symm

end Needed

end DB

end MlkvPlus
