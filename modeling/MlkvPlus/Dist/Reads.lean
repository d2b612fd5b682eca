import MlkvPlus.Db.Steps
import MlkvPlus.Dist.Routing

namespace MlkvPlus

-- The keys of the torch binding, by their bit patterns.
instance : Scalar Int64 where
  size := 8
  toBytes value := Scalar.toBytes value.toUInt64
  ofBytes bytes := (Scalar.ofBytes bytes : UInt64).toInt64
  length_toBytes value := Scalar.length_toBytes value.toUInt64
  ofBytes_toBytes value := by
    rw [Scalar.ofBytes_toBytes]
    rfl

variable {K V : Type} [Scalar K] [DecidableEq K] [Scalar V] {dim : Nat} {reserved : K → Bool}

namespace Dist

-- What a call of the torch binding meets: `empty` is the memory of the output tensor, and the
-- errors are those that CUDA reports when the read is done.
structure CallEnv {K : Type} (reserved : K → Bool) (V : Type) (dim : Nat)
    extends ReadEnv reserved V dim where
  empty : Nat → Vector V dim
  syncErr : Option String := none
  lastErr : Option String := none

-- CUDA does not fail, and the host can read memory of the device where the GDS path does so.
structure CallEnv.Clean (env : CallEnv reserved V dim) : Prop where
  fault : env.fault = none
  host : env.hostReads = true
  syncErr : env.syncErr = none
  lastErr : env.lastErr = none

-- DummyVar::Read does not look at the result of multiget, and the found flags are dropped.
def read (env : CallEnv reserved V dim) (db : DB K V dim) (indices : List K) :
    Outcome (List (Vector V dim)) × DB K V dim :=
  match db.multiget env.toReadEnv indices with
  | (.returned (_, found), db) =>
    match env.syncErr, env.lastErr with
    | some what, _ => (.threw ("CUDA sync error after read: " ++ what), db)
    | none, some what => (.threw ("CUDA error after read: " ++ what), db)
    | none, none => (.returned (found.mapIdx fun index row => row.getD (env.empty index)), db)
  | (.threw what, db) => (.threw what, db)
  | (.aborted reason, db) => (.aborted reason, db)

theorem read_nil (env : CallEnv reserved V dim) (db : DB K V dim) :
    (read env db []).1 = .threw "DB not initialized or invalid batch size" := by
  rw [read, DB.multiget, if_pos (Or.inr rfl)]

theorem read_returns_iff {env : CallEnv reserved V dim} (hclean : env.Clean)
    (hopen : db.initialized = true) (indices : List K) :
    (∃ rows, (read env db indices).1 = .returned rows) ↔ indices ≠ [] := by
  constructor
  · rintro ⟨rows, hrows⟩ rfl
    rw [read_nil] at hrows
    cases hrows
  · intro hindices
    by_cases hfound : db.saysAllFound env.toReadEnv indices
    · rw [read, DB.multiget_found hopen hindices hfound]
      simp only [hclean.syncErr, hclean.lastErr]
      exact ⟨_, rfl⟩
    · rw [read, DB.multiget_missed hclean.fault hopen
        ⟨hindices, hfound, DB.not_crashes_of_host hclean.host _⟩]
      simp only [hclean.syncErr, hclean.lastErr]
      exact ⟨_, rfl⟩

section Ranks

variable {n : Nat} {owner : K → Fin n} {indices : Fin n → List K}

omit [Scalar K] [DecidableEq K] in
theorem batch_ne_nil_iff (selection : ∀ rank, Selection owner (indices rank)) (rank : Fin n) :
    batch selection rank ≠ [] ↔ ∃ sender, ∃ key ∈ indices sender, owner key = rank := by
  constructor
  · intro hne
    obtain ⟨key, hkey⟩ := List.exists_mem_of_ne_nil _ hne
    obtain ⟨sender, hmem⟩ := (mem_batch_iff selection rank key).mp hkey
    exact ⟨sender, key, hmem⟩
  · rintro ⟨sender, key, hmem⟩
    exact List.ne_nil_of_mem ((mem_batch_iff selection rank key).mpr ⟨sender, hmem⟩)

-- The local read returns on all ranks when each of them owns one of the requested keys.
theorem local_reads_return_iff (db : Fin n → DB K V dim)
    (hopen : ∀ rank, (db rank).initialized = true) (env : Fin n → CallEnv reserved V dim)
    (hclean : ∀ rank, (env rank).Clean)
    (selection : ∀ rank, Selection owner (indices rank)) :
    ∃ batches splits, exchangeIndices selection = some (batches, splits) ∧
      ((∀ rank, ∃ rows, (read (env rank) (db rank) (keyMap (batches rank))).1 = .returned rows) ↔
        ∀ rank, ∃ sender, ∃ key ∈ indices sender, owner key = rank) := by
  refine ⟨_, _, exchangeIndices_eq selection, forall_congr' fun rank => ?_⟩
  rw [keyMap, read_returns_iff (hclean rank) (hopen rank), batch_ne_nil_iff]

end Ranks

-- Two ranks; the first asks for two keys, and the second for nothing.
def twoKeys (first second : Int64) : Fin 2 → List Int64
  | 0 => [first, second]
  | 1 => []

def selectTwo (first second : Int64) (rank : Fin 2) :
    Selection (lookupRank 2 (by decide)) (twoKeys first second rank) :=
  distSelect _ _ (List.finRange _) (List.Perm.refl _)

def quiet : CallEnv (fun _ : Int64 => false) UInt32 1 :=
  { ReadEnv.dropping _ [] none with empty := fun _ => #v[0] }

theorem clean_quiet : quiet.Clean := ⟨rfl, rfl, rfl, rfl⟩

theorem local_reads_return_spread :
    ∃ batches splits, exchangeIndices (selectTwo 4 5) = some (batches, splits) ∧
      ∀ rank : Fin 2, ∃ rows,
        (read quiet (DB.opened {}) (keyMap (batches rank))).1 = .returned rows := by
  obtain ⟨batches, splits, hexchange, hiff⟩ := local_reads_return_iff (fun _ => DB.opened {})
    (fun _ => rfl) (fun _ => quiet) (fun _ => clean_quiet) (selectTwo 4 5)
  refine ⟨batches, splits, hexchange, hiff.mpr fun rank => ⟨(0 : Fin 2), ?_⟩⟩
  revert rank
  decide

-- Both keys belong to the first rank, so that the second one has nothing to read.
theorem empty_batch_raises :
    ∃ batches splits, exchangeIndices (selectTwo 4 6) = some (batches, splits) ∧
      batches (1 : Fin 2) = [] ∧
      (read quiet (DB.opened {}) (keyMap (batches (1 : Fin 2)))).1 =
        .threw "DB not initialized or invalid batch size" ∧
      all2allDenseEmbedding #v[0] (selectTwo 4 6)
        (fun _ keys => (read quiet (DB.opened {}) keys).1) = none := by
  have hempty : batch (selectTwo 4 6) (1 : Fin 2) = [] := by decide
  refine ⟨_, _, exchangeIndices_eq (selectTwo 4 6), hempty, ?_, ?_⟩
  · rw [hempty]
    exact read_nil _ _
  · refine all2allDenseEmbedding_eq_none _ _ (1 : Fin 2) ?_
    rw [hempty, read_nil]
    rfl

end Dist

end MlkvPlus
