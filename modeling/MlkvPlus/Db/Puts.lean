import MlkvPlus.Db.Shown

namespace MlkvPlus

open Tiered

variable {K V : Type} {dim : Nat} [Scalar K] [Scalar V] {reserved : K → Bool}

theorem MemDiskTree.putEvicted_returned {env : PutEnv reserved V dim}
    (h : putEvicted config env rocks values = (.returned result, rocks')) :
    rocks' = if env.status = true then put rocks env.keyVariable values else rocks := by
  unfold putEvicted at h
  split at h
  · cases h
  dsimp only at h
  split at h
  · cases h
  · exact (Prod.mk.inj h).2.symm

variable [DecidableEq K]

omit [Scalar V] in
theorem GPUTreeHkv.put_returned {env : PutEnv reserved V dim}
    (h : put env table key values = (.returned result, table', evicted)) :
    env.fault = some .noTable ∧ table' = table ∧ evicted = none ∨
      env.fault ≠ some .noTable ∧ insertAndEvict env table key values = (table', evicted) := by
  unfold put at h
  split at h
  · rename_i hfault
    cases h
    exact Or.inl ⟨hfault, rfl, rfl⟩
  · cases h
  · cases h
  · rename_i hfault _ _
    refine Or.inr ⟨hfault, ?_⟩
    generalize insertAndEvict env table key values = pair at h ⊢
    obtain ⟨after, entry⟩ := pair
    cases entry with
    | none =>
      cases h
      rfl
    | some entry =>
      cases h
      rfl

namespace DB

-- Without a table a put does nothing and returns SUCCESS as well.
theorem put_success {env : PutEnv reserved V dim} {s s' : DB K V dim} {key : K}
    {values : Vector V dim} (hput : s.put env key values = (.returned .SUCCESS, s')) :
    s' = if env.fault = some .noTable then s else s.putTiers env key values := by
  rw [put] at hput
  split at hput
  · cases hput
  split at hput
  · rename_i table htable
    cases hput
    rcases GPUTreeHkv.put_returned htable with ⟨hfault, rfl, -⟩ | ⟨hfault, hresult⟩
    · rw [if_pos hfault]
    · rw [if_neg hfault, putTiers, hresult]
  · rename_i table entry htable
    rcases GPUTreeHkv.put_returned htable with ⟨-, -, hnone⟩ | ⟨hfault, hresult⟩
    · cases hnone
    split at hput
    · rename_i rocks hrocks
      split at hput
      · cases hput
      · cases hput
        rw [if_neg hfault, putTiers, hresult, MemDiskTree.putEvicted_returned hrocks]
    · cases hput
    · cases hput
  · cases hput
  · cases hput

-- The lower tier's put goes through, and to a place that reads look at.
def PutLands (env : PutEnv reserved V dim) (s : DB K V dim) : Prop :=
  env.status = true ∧ s.config.forceSkipMemtable = false

instance (env : PutEnv reserved V dim) (s : DB K V dim) : Decidable (PutLands env s) :=
  inferInstanceAs (Decidable (_ ∧ _))

-- The entry is where reads look for it: it was there already, or the memory at `&key` happens
-- to be its key. And if that memory is the key of another stored entry, it is the same vector.
structure VictimKept (env : PutEnv reserved V dim) (s : DB K V dim) (key victim : K)
    (found : Vector V dim) : Prop where
  own : PutLands env s ∧ env.keyVariable.1 = Scalar.toBytes victim ∨
    s.below victim = some (serializeValueArray found)
  others : PutLands env s → ∀ other, other ≠ key → s.gpu other = none →
    env.keyVariable.1 = Scalar.toBytes other → ∀ raw, s.below other = some raw →
      raw = serializeValueArray found

def PutKeeps (env : PutEnv reserved V dim) (s : DB K V dim) (key : K) (values : Vector V dim) :
    Prop :=
  if env.fault = some .noTable ∨ reserved key = true then
    s.shown key = some (serializeValueArray values)
  else
    ∀ victim found, env.victim s.gpu key = some victim →
      Function.update s.gpu key (some values) victim = some found →
        VictimKept env s key victim found

variable {env : PutEnv reserved V dim} {s : DB K V dim} {key victim : K}
  {values found : Vector V dim}

theorem putTiers_reserved (hreserved : reserved key = true) : s.putTiers env key values = s := by
  rw [putTiers, GPUTreeHkv.insertAndEvict, if_pos hreserved]

theorem putTiers_quiet (hreserved : reserved key ≠ true)
    (hquiet : ∀ victim, env.victim s.gpu key = some victim →
      Function.update s.gpu key (some values) victim = none) :
    s.putTiers env key values =
      { s with gpu := Function.update s.gpu key (some values) } := by
  rw [putTiers, GPUTreeHkv.insertAndEvict, if_neg hreserved]
  cases hvictim : env.victim s.gpu key with
  | none => rfl
  | some victim =>
    have hnone := hquiet victim hvictim
    dsimp only
    rw [← hnone, Function.update_eq_self, hnone]
    rfl

def evicting (env : PutEnv reserved V dim) (s : DB K V dim) (key : K) (values : Vector V dim)
    (victim : K) (found : Vector V dim) : DB K V dim :=
  { s with
    gpu := Function.update (Function.update s.gpu key (some values)) victim none
    rocks := if env.status = true then MemDiskTree.put s.rocks env.keyVariable found else s.rocks }

@[simp] theorem gpu_evicting : (s.evicting env key values victim found).gpu =
    Function.update (Function.update s.gpu key (some values)) victim none := rfl

theorem putTiers_evicting (hreserved : reserved key ≠ true)
    (hvictim : env.victim s.gpu key = some victim)
    (hfound : Function.update s.gpu key (some values) victim = some found) :
    s.putTiers env key values = s.evicting env key values victim found := by
  rw [putTiers, GPUTreeHkv.insertAndEvict, if_neg hreserved, hvictim]
  dsimp only
  rw [hfound]
  rfl

theorem below_evicting (other : K) :
    (s.evicting env key values victim found).below other =
      if PutLands env s ∧ env.keyVariable.1 = Scalar.toBytes other then
        some (serializeValueArray found)
      else s.below other := by
  simp only [below, evicting]
  cases hstatus : env.status with
  | false => simp [PutLands, hstatus]
  | true =>
    cases hskip : s.config.forceSkipMemtable with
    | true => simp [PutLands, hskip, RocksDB.get, MemDiskTree.put, RocksDB.write]
    | false =>
      simp only [PutLands, hstatus, hskip, if_true, true_and, RocksDB.get, MemDiskTree.put,
        RocksDB.write, writeAll_cons, writeAll_nil, overlay_update, reduceCtorEq, if_false,
        Function.update_apply, eq_comm]

theorem below_victim_iff :
    (s.evicting env key values victim found).below victim = some (serializeValueArray found) ↔
      PutLands env s ∧ env.keyVariable.1 = Scalar.toBytes victim ∨
        s.below victim = some (serializeValueArray found) := by
  rw [below_evicting]
  split
  · rename_i hlands
    exact iff_of_true rfl (Or.inl hlands)
  · rename_i hlost
    exact (or_iff_right hlost).symm

theorem keeps_evicting_iff (hkey : other ≠ key) (hother : other ≠ victim) :
    (∀ raw, s.shown other = some raw →
        (s.evicting env key values victim found).shown other = some raw) ↔
      (PutLands env s → s.gpu other = none → env.keyVariable.1 = Scalar.toBytes other →
        ∀ raw, s.below other = some raw → raw = serializeValueArray found) := by
  have hgpu : (s.evicting env key values victim found).gpu other = s.gpu other := by
    rw [gpu_evicting, Function.update_of_ne hother, Function.update_of_ne hkey]
  cases htable : s.gpu other with
  | some held =>
    rw [htable] at hgpu
    rw [shown_of_gpu htable, shown_of_gpu hgpu]
    simp
  | none =>
    rw [htable] at hgpu
    rw [shown_of_missed htable, shown_of_missed hgpu, below_evicting]
    split
    · rename_i hlands
      simp only [hlands.1, hlands.2, forall_const, Option.some.injEq]
      exact forall_congr' fun raw => imp_congr_right fun _ => eq_comm
    · rename_i hlost
      refine iff_of_true (fun raw hraw => hraw) fun hlands _ hbytes => ?_
      exact absurd ⟨hlands, hbytes⟩ hlost

omit [Scalar K] [Scalar V] in
theorem victim_cases (hfound : Function.update s.gpu key (some values) victim = some found) :
    victim = key ∧ found = values ∨ victim ≠ key ∧ s.gpu victim = some found := by
  by_cases heq : victim = key
  · rw [heq, Function.update_self] at hfound
    exact Or.inl ⟨heq, (Option.some.inj hfound).symm⟩
  · rw [Function.update_of_ne heq] at hfound
    exact Or.inr ⟨heq, hfound⟩

theorem shown_evicting_victim :
    (s.evicting env key values victim found).shown victim =
      (s.evicting env key values victim found).below victim :=
  shown_of_missed (by rw [gpu_evicting, Function.update_self])

theorem evicting_keeps_iff (hfound : Function.update s.gpu key (some values) victim = some found) :
    ((s.evicting env key values victim found).shown key = some (serializeValueArray values) ∧
      ∀ other, other ≠ key → ∀ raw, s.shown other = some raw →
        (s.evicting env key values victim found).shown other = some raw) ↔
      VictimKept env s key victim found := by
  have hothers : (∀ other, other ≠ key → other ≠ victim → ∀ raw, s.shown other = some raw →
        (s.evicting env key values victim found).shown other = some raw) ↔
      (PutLands env s → ∀ other, other ≠ key → s.gpu other = none →
        env.keyVariable.1 = Scalar.toBytes other → ∀ raw, s.below other = some raw →
          raw = serializeValueArray found) := by
    constructor
    · intro hkeeps hlands other hkey hnone
      have hvictim : other ≠ victim := by
        rintro rfl
        rcases victim_cases hfound with ⟨heq, -⟩ | ⟨-, hsome⟩
        · exact hkey heq
        · rw [hnone] at hsome
          cases hsome
      exact (keeps_evicting_iff hkey hvictim).mp (hkeeps other hkey hvictim) hlands hnone
    · intro hhit other hkey hvictim
      exact (keeps_evicting_iff hkey hvictim).mpr fun hlands => hhit hlands other hkey
  rcases victim_cases hfound with ⟨rfl, rfl⟩ | ⟨hne, hgpu⟩
  · rw [shown_evicting_victim, below_victim_iff]
    constructor
    · rintro ⟨hown, hkeeps⟩
      exact ⟨hown, hothers.mp fun other hkey _ => hkeeps other hkey⟩
    · rintro ⟨hown, hhit⟩
      exact ⟨hown, fun other hkey => hothers.mpr hhit other hkey hkey⟩
  · have hkey : (s.evicting env key values victim found).shown key =
        some (serializeValueArray values) :=
      shown_of_gpu (by rw [gpu_evicting, Function.update_of_ne hne.symm, Function.update_self])
    constructor
    · rintro ⟨-, hkeeps⟩
      have hvictim := hkeeps victim hne _ (shown_of_gpu hgpu)
      rw [shown_evicting_victim, below_victim_iff] at hvictim
      exact ⟨hvictim, hothers.mp fun other hother _ => hkeeps other hother⟩
    · rintro ⟨hown, hhit⟩
      refine ⟨hkey, fun other hother => ?_⟩
      by_cases heq : other = victim
      · subst heq
        intro raw hraw
        rw [shown_of_gpu hgpu] at hraw
        rw [shown_evicting_victim, below_victim_iff.mpr hown, hraw]
      · exact hothers.mpr hhit other hother heq

-- The key reads back the vector, and the other stored keys read back what they read before.
structure Stores (reserved : K → Bool) (s s' : DB K V dim) (key : K) (values : Vector V dim) :
    Prop where
  own : Returns reserved s' key values
  others : ∀ other, other ≠ key → KeepsRead reserved s s' other

omit [DecidableEq K] in
theorem Reached.stores_iff (hdim : dim < 2 ^ 64) (h : Reached reserved s) (h' : Reached reserved s') :
    Stores reserved s s' key values ↔
      s'.shown key = some (serializeValueArray values) ∧
        ∀ other, other ≠ key → ∀ raw, s.shown other = some raw → s'.shown other = some raw := by
  rw [← h'.returns_iff hdim]
  constructor
  · rintro ⟨hown, hothers⟩
    exact ⟨hown, fun other hother => (h.keepsRead_iff hdim h' other).mp (hothers other hother)⟩
  · rintro ⟨hown, hothers⟩
    exact ⟨hown, fun other hother => (h.keepsRead_iff hdim h' other).mpr (hothers other hother)⟩

-- A put that returns SUCCESS stores its vector and loses no other exactly when the table is
-- there and takes the key, and what it evicts ends where reads look for it.
theorem put_stores_iff (hdim : dim < 2 ^ 64) (config : StorageConfig)
    (ops : List (Op K V dim reserved)) (env : PutEnv reserved V dim) (key : K)
    (values : Vector V dim) {s' : DB K V dim}
    (hput : ((opened config).runOps ops).put env key values = (.returned .SUCCESS, s')) :
    Stores reserved ((opened config).runOps ops) s' key values ↔
      PutKeeps env ((opened config).runOps ops) key values := by
  have h : Reached reserved ((opened config).runOps ops : DB K V dim) := reached_runOps config ops
  generalize (opened config : DB K V dim).runOps ops = s at hput h ⊢
  have h' : Reached reserved s' := by
    have hstep := h.step (.put env key values)
    rwa [DB.step, hput] at hstep
  rw [h.stores_iff hdim h', put_success hput, PutKeeps]
  by_cases hunchanged : env.fault = some .noTable ∨ reserved key = true
  · have hsame : (if env.fault = some .noTable then s else s.putTiers env key values) = s := by
      split
      · rfl
      · rename_i hfault
        exact putTiers_reserved (hunchanged.resolve_left hfault)
    rw [hsame, if_pos hunchanged]
    exact and_iff_left fun _ _ _ hraw => hraw
  obtain ⟨hfault, hreserved⟩ := not_or.mp hunchanged
  rw [if_neg hfault, if_neg hunchanged]
  by_cases hquiet : ∀ victim, env.victim s.gpu key = some victim →
      Function.update s.gpu key (some values) victim = none
  · rw [putTiers_quiet hreserved hquiet]
    refine iff_of_true ⟨?_, fun other hother raw hraw => ?_⟩ fun victim found hvictim hfound => ?_
    · exact shown_of_gpu (Function.update_self ..)
    · rw [← hraw]
      exact shown_congr (Function.update_of_ne hother ..) rfl
    · rw [hquiet victim hvictim] at hfound
      cases hfound
  · push Not at hquiet
    obtain ⟨victim, hvictim, hsome⟩ := hquiet
    obtain ⟨found, hfound⟩ := Option.ne_none_iff_exists'.mp hsome
    rw [putTiers_evicting hreserved hvictim hfound, evicting_keeps_iff hfound]
    constructor
    · intro hkept other held hother hheld
      rw [hvictim] at hother
      cases hother
      rw [hfound] at hheld
      cases hheld
      exact hkept
    · intro hkept
      exact hkept victim found hvictim hfound

-- A put that evicts nothing, next to a stored key.
theorem put_stores_quiet :
    let env : PutEnv (fun _ : UInt64 => false) UInt32 1 :=
      { victim := fun _ _ => none, keyVariable := ⟨List.replicate 8 1, rfl⟩ }
    let s : DB UInt64 UInt32 1 := (opened {}).runOps [.put env 1 #v[5]]
    (s.put env 2 #v[6]).1 = .returned .SUCCESS ∧
      Stores (fun _ => false) s (s.put env 2 #v[6]).2 2 #v[6] := by
  intro env s
  refine ⟨rfl, (put_stores_iff (by decide) {} [.put env 1 #v[5]] env 2 #v[6] rfl).mpr ?_⟩
  exact fun victim found hvictim => nomatch hvictim

-- The second put evicts the first key, whose vector goes to RocksDB under the bytes of a
-- pointer. Both puts return SUCCESS.
theorem put_loses_victim :
    let quiet : PutEnv (fun _ : UInt64 => false) UInt32 1 :=
      { victim := fun _ _ => none, keyVariable := ⟨List.replicate 8 16, rfl⟩ }
    let env : PutEnv (fun _ : UInt64 => false) UInt32 1 :=
      { victim := fun _ _ => some 1, keyVariable := ⟨List.replicate 8 16, rfl⟩ }
    let read : ReadEnv (fun _ : UInt64 => false) UInt32 1 := .dropping _ [] none
    let s : DB UInt64 UInt32 1 := (opened {}).runOps [.put quiet 1 #v[5]]
    s.get read 1 = .returned (.SUCCESS, some #v[5]) ∧
      (s.put env 2 #v[6]).1 = .returned .SUCCESS ∧
      (s.put env 2 #v[6]).2.get read 1 = .returned (.KEY_NOT_FOUND, none) ∧
      ¬Stores (fun _ => false) s (s.put env 2 #v[6]).2 2 #v[6] := by
  intro quiet env read s
  have hbefore : s.get read 1 = .returned (.SUCCESS, some #v[5]) := rfl
  have hafter : (s.put env 2 #v[6]).2.get read 1 = .returned (.KEY_NOT_FOUND, none) := rfl
  refine ⟨hbefore, rfl, hafter, fun hstores => ?_⟩
  have hkept := hstores.others 1 (by decide) read (ReadEnv.clean_dropping []) #v[5] hbefore
  rw [hafter] at hkept
  cases hkept

end DB

end MlkvPlus
