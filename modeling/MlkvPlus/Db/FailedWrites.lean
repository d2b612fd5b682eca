import MlkvPlus.Db.Shown

namespace MlkvPlus

open Tiered

variable {K V : Type} {dim : Nat} [Scalar K] [Scalar V] {reserved : K → Bool}

namespace DB

-- What can go with a failing batch write is still below, where reads look for it.
def LossCovered (reserved : K → Bool) (fault : Option Fault) (s : DB K V dim)
    (batch : List (K × Vector V dim)) : Prop :=
  fault = none ∨ fault = some .noTable ∨
    (∀ key ∈ batch.map Prod.fst, reserved key = true) ∨
    (s.config.forceSkipMemtable = false ∧ fault.any Fault.losesEvicted = false) ∨
    ∀ key values, key ∉ batch.map Prod.fst → s.gpu key = some values →
      s.below key = some (serializeValueArray values)

variable [DecidableEq K] {s : DB K V dim} {batch : List (K × Vector V dim)}

theorem LossCovered.shown_attempted {env : WriteEnv reserved V dim}
    (h : LossCovered reserved env.fault s batch) (hkey : key ∉ batch.map Prod.fst)
    (hfault : env.fault ≠ none) (htable : env.fault ≠ some .noTable) :
    (s.attempted env batch).shown key = s.shown key := by
  have hout : key ∉ (inserts (env.schedule s.gpu batch).events).map Prod.fst :=
    fun hmem => hkey ((mem_inserts (env.schedule s.gpu batch) key).mp hmem).1
  by_cases hcalm : s.config.forceSkipMemtable = false ∧ env.fault.any Fault.losesEvicted = false
  · exact shown_of_written hout hcalm.1 hcalm.2
  rcases ((h.resolve_left hfault).resolve_left htable) with hreserved | hcalm' | hbelow
  · rw [attempted_quiet env fun key hmem => by simp [hreserved key hmem]]
  · exact absurd hcalm' hcalm
  · refine shown_of_covered hout ?_ fun values => hbelow key values hkey
    simpa [or_iff_not_imp_left] using hcalm

omit [Scalar K] [Scalar V] [DecidableEq K] in
theorem events_dropping (dropped : List K) (hmissed : missed ∈ batch.map Prod.fst)
    (hfree : reserved missed = false) :
    (Schedule.dropping reserved dropped batch).events =
      insertThenDrop (batch.filter fun pair => reserved pair.1 = false) dropped := by
  obtain ⟨pair, hpair, rfl⟩ := List.mem_map.mp hmissed
  have hmem : pair ∈ batch.filter fun pair => reserved pair.1 = false :=
    List.mem_filter.mpr ⟨hpair, by simpa using hfree⟩
  have hsome : (batch.filter fun pair => reserved pair.1 = false).isEmpty ≠ true := by
    rw [Ne, List.isEmpty_iff]
    exact List.ne_nil_of_mem hmem
  simp only [Schedule.dropping]
  rw [if_neg hsome]

theorem attempted_dropping (fault : Option Fault) (hmissed : missed ∈ batch.map Prod.fst)
    (hfree : reserved missed = false) (hkey : key ∉ batch.map Prod.fst)
    (hgpu : s.gpu key = some values) :
    (s.attempted (ReadEnv.dropping reserved [key] fault).toWriteEnv batch).gpu key = none ∧
      (run s.gpu (Schedule.dropping reserved [key] batch).events).2 = [(key, values)] := by
  have hnotMem : key ∉ (batch.filter fun pair => reserved pair.1 = false).map Prod.fst :=
    fun hmem => hkey (List.map_subset _ (List.filter_subset_self _) hmem)
  have hevents := events_dropping [key] hmissed hfree
  constructor
  · change (run s.gpu (Schedule.dropping reserved [key] batch).events).1 key = none
    rw [hevents, run_insertThenDrop_one, Function.update_self]
  · rw [hevents, dropped_insertThenDrop_one, writeAll_of_notMem hnotMem, hgpu]
    rfl

-- Whatever goes with it, a failing batch write keeps what reads of the other keys return,
-- exactly when the evicted entries reach RocksDB first, or nothing can go that is not below.
theorem multiset_failure_iff (hdim : dim < 2 ^ 64) (config : StorageConfig)
    (ops : List (Op K V dim reserved)) (batch : List (K × Vector V dim)) (fault : Option Fault) :
    let s : DB K V dim := (opened config).runOps ops
    (∀ env : WriteEnv reserved V dim, env.fault = fault →
        (s.multiset env batch).1 ≠ .returned .SUCCESS → ∀ key, key ∉ batch.map Prod.fst →
          KeepsRead reserved s (s.multiset env batch).2 key) ↔
      LossCovered reserved fault s batch := by
  intro s
  have h : Reached reserved s := reached_runOps config ops
  constructor
  · intro hkeeps
    by_contra hcovered
    simp only [LossCovered, not_or, not_forall] at hcovered
    obtain ⟨hfault, htable, ⟨missed, hmissed, hreserved⟩, hcalm, key, values, hkey, hgpu, hbelow⟩ :=
      hcovered
    have hfree : reserved missed = false := Bool.eq_false_of_not_eq_true hreserved
    have hlost : s.config.forceSkipMemtable = true ∨ fault.any Fault.losesEvicted = true := by
      simpa [or_iff_not_imp_left] using hcalm
    let env : WriteEnv reserved V dim := (ReadEnv.dropping reserved [key] fault).toWriteEnv
    obtain ⟨hgone, hevicted⟩ := attempted_dropping fault hmissed hfree hkey hgpu
    obtain ⟨outcome, hmultiset, -, hfails⟩ := multiset_cases env batch h.isOpen htable
    have hfailed : outcome ≠ .returned .SUCCESS := hfails hfault (by rw [show
      (run s.gpu (env.schedule s.gpu batch).events).2 = _ from hevicted]; nofun)
    have hkept := hkeeps env rfl (by rw [hmultiset]; exact hfailed) key hkey
    rw [hmultiset] at hkept
    have hafter := h.step (.multiset env batch)
    rw [DB.step, hmultiset] at hafter
    have hshown := (h.keepsRead_iff hdim hafter key).mp hkept _ (shown_of_gpu hgpu)
    rw [shown_of_missed hgone, congrFun (below_attempted env hlost batch) key] at hshown
    exact hbelow hshown
  · rintro hcovered env rfl hfailed key hkey
    have hafter := h.step (.multiset env batch)
    refine (h.keepsRead_iff hdim hafter key).mpr fun raw hraw => ?_
    by_cases hfault : env.fault = none
    · rw [multiset_clean batch hfault h.isOpen] at hfailed
      exact absurd rfl hfailed
    by_cases htable : env.fault = some .noTable
    · obtain ⟨result, hsame⟩ := multiset_noTable env batch h.isOpen htable
      rw [DB.step, hsame, hraw]
    · obtain ⟨outcome, hmultiset, -⟩ := multiset_cases env batch h.isOpen htable
      rw [DB.step, hmultiset, hcovered.shown_attempted hkey hfault htable, hraw]

-- The evicted entry is in RocksDB when the call fails.
theorem multiset_failure_covered :
    let env : WriteEnv (fun _ : UInt64 => false) UInt32 1 :=
      (ReadEnv.dropping _ [1] (some (.free "cudaFree(evicted_data.keys)"))).toWriteEnv
    let calm : WriteEnv (fun _ : UInt64 => false) UInt32 1 := (ReadEnv.dropping _ [] none).toWriteEnv
    let s : DB UInt64 UInt32 1 := (opened {}).runOps [.multiset calm [(1, #v[5])]]
    (s.multiset env [(2, #v[6])]).1 = .threw "cudaFree(evicted_data.keys)" ∧
      (s.multiset env [(2, #v[6])]).2.gpu 1 = none ∧
      KeepsRead (fun _ => false) s (s.multiset env [(2, #v[6])]).2 1 := by
  intro env calm s
  have hfailed : (s.multiset env [(2, #v[6])]).1 = .threw "cudaFree(evicted_data.keys)" := rfl
  have hcovered : LossCovered (fun _ => false) env.fault s [(2, #v[6])] :=
    Or.inr (Or.inr (Or.inr (Or.inl ⟨rfl, rfl⟩)))
  refine ⟨hfailed, rfl, ?_⟩
  exact (multiset_failure_iff (by decide) {} [.multiset calm [(1, #v[5])]] [(2, #v[6])] _).mpr hcovered
    env rfl (by rw [hfailed]; nofun) 1 (by decide)

-- The entry that went with the failed write had no other copy.
theorem multiset_failure_loses :
    let env : WriteEnv (fun _ : UInt64 => false) UInt32 1 :=
      (ReadEnv.dropping _ [1] (some (.memdisk "Failed to write batch to RocksDB"))).toWriteEnv
    let calm : WriteEnv (fun _ : UInt64 => false) UInt32 1 := (ReadEnv.dropping _ [] none).toWriteEnv
    let read : ReadEnv (fun _ : UInt64 => false) UInt32 1 := .dropping _ [] none
    let s : DB UInt64 UInt32 1 := (opened {}).runOps [.multiset calm [(1, #v[5])]]
    s.get read 1 = .returned (.SUCCESS, some #v[5]) ∧
      (s.multiset env [(2, #v[6])]).1 = .threw "Failed to write batch to RocksDB" ∧
      (s.multiset env [(2, #v[6])]).2.get read 1 = .returned (.KEY_NOT_FOUND, none) ∧
      ¬KeepsRead (fun _ => false) s (s.multiset env [(2, #v[6])]).2 1 := by
  intro env calm read s
  have hbefore : s.get read 1 = .returned (.SUCCESS, some #v[5]) := rfl
  have hafter : (s.multiset env [(2, #v[6])]).2.get read 1 = .returned (.KEY_NOT_FOUND, none) := rfl
  refine ⟨hbefore, rfl, hafter, fun hkeeps => ?_⟩
  have hkept := hkeeps read (ReadEnv.clean_dropping []) #v[5] hbefore
  rw [hafter] at hkept
  cases hkept

end DB

end MlkvPlus
