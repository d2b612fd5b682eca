import MlkvPlus.Db.Steps

namespace MlkvPlus

open Tiered

variable {K V : Type} {dim : Nat} {reserved : K → Bool}

namespace DB

-- The keys that HKV reserves are in no table.
structure Sane (reserved : K → Bool) (s : DB K V dim) : Prop where
  isOpen : s.initialized = true
  gpu : ∀ key, (s.gpu key).isSome = true → reserved key = false
  buffer : ∀ key, (s.buffer key).isSome = true → reserved key = false

theorem sane_opened (config : StorageConfig) :
    Sane reserved (opened config : DB K V dim) :=
  ⟨rfl, fun _ => nofun, fun _ => nofun⟩

end DB

variable [DecidableEq K]

theorem GPUTreeHkv.isSome_of_multiset {env : WriteEnv reserved V dim}
    (h : ((multiset env table batch).2.1 key).isSome = true) :
    (table key).isSome = true ∨ reserved key = false := by
  have hrun : ((run table (env.schedule table batch).events).1 key).isSome = true →
      (table key).isSome = true ∨ reserved key = false := by
    intro hsome
    exact (isSome_of_run hsome).imp_right fun hkey =>
      ((mem_inserts (env.schedule table batch) key).mp hkey).2
  unfold multiset at h
  split at h
  · exact Or.inl h
  split at h
  · exact Or.inl h
  dsimp only at h
  split at h
  · exact hrun h
  split at h
  · exact hrun h
  · exact hrun h

theorem GPUTreeHkv.isSome_of_insertAndEvict [Scalar K] {env : PutEnv reserved V dim}
    (h : ((insertAndEvict env table key values).1 other).isSome = true) :
    (table other).isSome = true ∨ reserved other = false := by
  have hinserted : (Function.update table key (some values) other).isSome = true →
      reserved key ≠ true → (table other).isSome = true ∨ reserved other = false := by
    intro hsome hreserved
    by_cases heq : other = key
    · exact Or.inr (heq ▸ Bool.eq_false_of_not_eq_true hreserved)
    · rw [Function.update_of_ne heq] at hsome
      exact Or.inl hsome
  unfold insertAndEvict at h
  split at h
  · exact Or.inl h
  rename_i hreserved
  split at h
  · exact hinserted h hreserved
  · obtain ⟨found, hfound⟩ := Option.isSome_iff_exists.mp h
    refine hinserted ?_ hreserved
    rw [eq_some_of_update_none hfound]
    rfl

theorem GPUTreeHkv.isSome_of_multisetBuffer {env : ReadEnv reserved V dim}
    (h : (multisetBuffer env current buffer pairs key).isSome = true) :
    (buffer key).isSome = true ∨ reserved key = false := by
  rcases (writeAll_isSome _ _ key).mp h with hkept | hkey
  · split at hkept
    · exact Or.inl hkept
    · cases hkept
  · obtain ⟨pair, hpair, rfl⟩ := List.mem_map.mp hkey
    exact Or.inr (by simpa using (List.mem_filter.mp hpair).2)

namespace DB

theorem Sane.lookup (h : Sane reserved s) (env : ReadEnv reserved V dim) (keys : List K) :
    Sane reserved (s.lookup env keys) := by
  unfold DB.lookup
  dsimp only
  split
  · exact h
  · exact ⟨h.isOpen, h.gpu, fun key hkey =>
      (GPUTreeHkv.isSome_of_multisetBuffer hkey).elim (h.buffer key) id⟩

theorem Sane.answer (h : Sane reserved s) (env : ReadEnv reserved V dim) (keys : List K)
    (pairs : List (K × Vector V dim)) : Sane reserved (s.answer env keys pairs).2 :=
  ⟨h.isOpen, h.gpu, fun key hkey =>
    (GPUTreeHkv.isSome_of_multisetBuffer hkey).elim (h.buffer key) id⟩

variable [Scalar K] [Scalar V]

theorem gpu_multiset (env : WriteEnv reserved V dim) {s : DB K V dim} (hopen : s.initialized = true)
    (batch : List (K × Vector V dim)) :
    (s.multiset env batch).2.gpu = (GPUTreeHkv.multiset env s.gpu batch).2.1 := by
  rw [multiset, if_neg (by rw [hopen]; decide)]
  split
  · rename_i hbatch
    rw [GPUTreeHkv.multiset, if_pos hbatch]
    split
    · rfl
    · rfl
  split
  · rename_i heq
    rw [heq]
  · rename_i heq
    rw [heq]
    split
    · rfl
    · rfl
    · rfl
  · rename_i heq
    rw [heq]

theorem Sane.multiset (h : Sane reserved s) (env : WriteEnv reserved V dim)
    (batch : List (K × Vector V dim)) : Sane reserved (s.multiset env batch).2 := by
  refine ⟨?_, fun key hkey => ?_, fun key hkey => ?_⟩
  · rw [multiset_eq]
    exact h.isOpen
  · rw [gpu_multiset env h.isOpen] at hkey
    exact (GPUTreeHkv.isSome_of_multiset hkey).elim (h.gpu key) id
  · rw [multiset_eq] at hkey
    exact h.buffer key hkey

theorem Sane.multiget (h : Sane reserved s) (env : ReadEnv reserved V dim) (keys : List K) :
    Sane reserved (s.multiget env keys).2 := by
  by_cases hbelow : s.GoesBelow env keys
  · have hwrite := (h.lookup env keys).multiset env.toWriteEnv (s.backPairs env keys)
    rw [multiget_eq h.isOpen hbelow]
    split
    · rename_i heq
      rw [heq] at hwrite
      exact hwrite.answer env keys _
    · rename_i heq
      rwa [heq] at hwrite
    · rename_i heq
      rwa [heq] at hwrite
  · rcases multiget_stopped h.isOpen hbelow with hsame | hlookup
    · rw [hsame]
      exact h
    · rw [hlookup]
      exact h.lookup env keys

theorem Sane.step {s : DB K V dim} (h : Sane reserved s) (op : Op K V dim reserved) :
    Sane reserved (s.step op) := by
  cases op with
  | put env key values =>
    obtain ⟨outcome, gpu, rocks, hput, hgpu, -⟩ := put_cases env s key values
    rw [DB.step, hput]
    refine ⟨h.isOpen, fun other hother => ?_, h.buffer⟩
    rcases hgpu with rfl | rfl
    · exact h.gpu other hother
    · exact (GPUTreeHkv.isSome_of_insertAndEvict hother).elim (h.gpu other) id
  | multiset env batch => exact h.multiset env batch
  | get env key => exact h
  | multiget env keys => exact h.multiget env keys
  | flush => exact ⟨h.isOpen, h.gpu, h.buffer⟩

theorem Sane.runOps (h : Sane reserved s) (ops : List (Op K V dim reserved)) :
    Sane reserved (s.runOps ops) := by
  induction ops generalizing s with
  | nil => exact h
  | cons op rest ih => exact ih (h.step op)

end DB

end MlkvPlus
