import Mathlib.Data.Int.ModEq
import MlkvPlus.Dist.Lookup

namespace MlkvPlus.Dist

variable {ρ : Type}

theorem toNat_toUInt64 (key : Int64) :
    (key.toUInt64.toNat : Int) = if 0 ≤ key.toInt then key.toInt else key.toInt + 2 ^ 64 := by
  have hlt := key.toUInt64.toNat_lt
  have hint : key.toInt = Int.bmod key.toUInt64.toNat (2 ^ 64) := by
    rw [Int64.toInt, BitVec.toInt_eq_toNat_bmod]
    rfl
  rw [hint, Int.bmod_def]
  split <;> split <;> omega

theorem chunkId_eq (key : Int64) (chunks : UInt64) :
    ((chunkId key chunks).toNat : Int) =
      (if 0 ≤ key.toInt then key.toInt else key.toInt + 2 ^ 64) % chunks.toNat := by
  rw [chunkId, UInt64.toNat_mod, Int.natCast_emod, toNat_toUInt64]

theorem remainder_eq (key : Int64) (numGpus : UInt64) :
    remainder key numGpus = key.toInt % numGpus.toNat :=
  Int.fmod_eq_emod_of_nonneg _ (Int.natCast_nonneg _)

-- Both ranks agree when the shift by `2 ^ 64` does not change the residue.
theorem remainder_eq_chunkId_iff (key : Int64) (numGpus : UInt64) :
    remainder key numGpus = (chunkId key numGpus).toNat ↔
      0 ≤ key.toInt ∨ numGpus.toNat ∣ 2 ^ 64 := by
  rw [remainder_eq, chunkId_eq]
  by_cases hkey : 0 ≤ key.toInt
  · simp [hkey]
  · rw [if_neg hkey]
    have hdvd : key.toInt % numGpus.toNat = (key.toInt + 2 ^ 64) % numGpus.toNat ↔
        (numGpus.toNat : Int) ∣ 2 ^ 64 := by
      rw [← Int.ModEq, Int.modEq_iff_dvd, add_sub_cancel_left]
    rw [hdvd, or_iff_right hkey]
    exact_mod_cast Int.natCast_dvd_natCast

def lookupRank (numGpus : UInt64) (hpos : 0 < numGpus.toNat) (key : Int64) : Fin numGpus.toNat :=
  ⟨(chunkId key numGpus).toNat, by
    rw [chunkId, UInt64.toNat_mod]
    exact Nat.mod_lt _ hpos⟩

-- What a rank has for a key after dist_assign ran on all ranks.
def assigned (numGpus : UInt64) (keys : List Int64) (values : List ρ) (rank : Fin numGpus.toNat)
    (key : Int64) : Option ρ :=
  (distAssign numGpus rank keys values).lookup key

theorem assigned_isSome_iff (numGpus : UInt64) {keys : List Int64} {values : List ρ}
    (hlength : keys.length = values.length) (rank : Fin numGpus.toNat) {key : Int64}
    (hkey : key ∈ keys) :
    (assigned numGpus keys values rank key).isSome = true ↔ remainder key numGpus = rank := by
  have hfst : (keys.zip values).map Prod.fst = keys := List.map_fst_zip hlength.le
  rw [assigned, List.lookup_isSome_iff]
  constructor
  · rintro ⟨pair, hpair, hfound⟩
    rw [eq_of_beq hfound]
    simpa using (List.mem_filter.mp hpair).2
  · intro hrank
    rw [← hfst] at hkey
    obtain ⟨pair, hpair, rfl⟩ := List.mem_map.mp hkey
    exact ⟨pair, List.mem_filter.mpr ⟨hpair, by simpa using hrank⟩, beq_self_eq_true _⟩

-- Exactly the keys that are not negative, and all keys when the number of ranks divides
-- `2 ^ 64`, are looked up where they were stored. The ranks have to read what they are sent.
theorem routes_agree_iff (numGpus : UInt64) (hpos : 0 < numGpus.toNat) (key : Int64) :
    (remainder key numGpus = (lookupRank numGpus hpos key : Nat) ↔
      0 ≤ key.toInt ∨ numGpus.toNat ∣ 2 ^ 64) ∧
    ∀ (keys : List Int64) (values : List ρ), keys.length = values.length → key ∈ keys →
      ∀ (indices : Fin numGpus.toNat → List Int64)
        (selection : ∀ rank, Selection (lookupRank numGpus hpos) (indices rank))
        (read : Fin numGpus.toNat → List Int64 → Outcome (List (Option ρ))),
        (∀ rank, read rank (batch selection rank) =
          .returned ((batch selection rank).map (assigned numGpus keys values rank))) →
        ∀ (sender : Fin numGpus.toNat) (index : Nat), (indices sender)[index]? = some key →
          ∃ outputs : Fin numGpus.toNat → List (Option ρ),
            all2allDenseEmbedding none selection read = some outputs ∧
            ((∃ value, (outputs sender)[index]? = some (some value)) ↔
              0 ≤ key.toInt ∨ numGpus.toNat ∣ 2 ^ 64) := by
  have hroute := remainder_eq_chunkId_iff key numGpus
  refine ⟨hroute, fun keys values hlength hkey indices selection read hread sender index hindex =>
    ⟨_, all2allDenseEmbedding_of_reads selection none hread, ?_⟩⟩
  rw [List.getElem?_map, hindex, Option.map_some, ← hroute]
  refine Iff.trans ?_ (assigned_isSome_iff numGpus hlength (lookupRank numGpus hpos key) hkey)
  rw [Option.isSome_iff_exists]
  simp only [Option.some.injEq]

-- A local read that refuses an empty batch, as DB::multiget does.
def readAssigned (numGpus : UInt64) (keys : List Int64) (values : List ρ)
    (rank : Fin numGpus.toNat) (batch : List Int64) : Outcome (List (Option ρ)) :=
  if batch = [] then .threw "DB not initialized or invalid batch size"
  else .returned (batch.map (assigned numGpus keys values rank))

-- The first of three ranks asks for three keys.
def request (keys : List Int64) : Fin 3 → List Int64
  | 0 => keys
  | _ => []

def selectRequest (owner : Int64 → Fin 3) (keys : List Int64) (rank : Fin 3) :
    Selection owner (request keys rank) :=
  distSelect owner _ (List.finRange _) (List.Perm.refl _)

theorem routes_agree_seven :
    (remainder 7 3 = (lookupRank 3 (by decide) 7 : Nat)) ∧
    ∃ outputs : Fin 3 → List (Option Nat),
      all2allDenseEmbedding none (selectRequest (lookupRank 3 (by decide)) [7, 6, 5])
        (readAssigned 3 [5, 6, 7] [50, 60, 70]) = some outputs ∧
      ∃ value, (outputs 0)[0]? = some (some value) := by
  have hcond : 0 ≤ (7 : Int64).toInt ∨ (3 : UInt64).toNat ∣ 2 ^ 64 := Or.inl (by decide)
  have hread : ∀ rank, readAssigned 3 [5, 6, 7] [50, 60, 70] rank
      (batch (selectRequest (lookupRank 3 (by decide)) [7, 6, 5]) rank) =
        .returned ((batch (selectRequest (lookupRank 3 (by decide)) [7, 6, 5]) rank).map
          (assigned 3 [5, 6, 7] ([50, 60, 70] : List Nat) rank)) := by decide
  obtain ⟨hrank, hfound⟩ := routes_agree_iff (ρ := Nat) 3 (by decide) 7
  obtain ⟨outputs, hlookup, hvalue⟩ := hfound [5, 6, 7] [50, 60, 70] rfl (by simp)
    (request [7, 6, 5]) (selectRequest (lookupRank 3 (by decide)) [7, 6, 5])
    (readAssigned 3 [5, 6, 7] [50, 60, 70]) hread (0 : Fin 3) 0 rfl
  exact ⟨hrank.mpr hcond, outputs, hlookup, hvalue.mpr hcond⟩

-- With three ranks, -1 is stored on the last rank and looked up on the first.
theorem negative_key_lost :
    remainder (-1) 3 = 2 ∧ (lookupRank 3 (by decide) (-1) : Nat) = 0 ∧
    assigned 3 [-1, 1, 2] [10, 11, 12] (2 : Fin 3) (-1) = some 10 ∧
    all2allDenseEmbedding none (selectRequest (lookupRank 3 (by decide)) [-1, 1, 2])
      (readAssigned 3 [-1, 1, 2] [10, 11, 12]) =
        some fun rank => if rank = 0 then [none, some 11, some 12] else [] := by
  have hread : ∀ rank, readAssigned 3 [-1, 1, 2] [10, 11, 12] rank
      (batch (selectRequest (lookupRank 3 (by decide)) [-1, 1, 2]) rank) =
        .returned ((batch (selectRequest (lookupRank 3 (by decide)) [-1, 1, 2]) rank).map
          (assigned 3 [-1, 1, 2] [10, 11, 12] rank)) := by decide
  refine ⟨by decide, by decide, by decide, ?_⟩
  rw [all2allDenseEmbedding_of_reads _ none hread]
  refine congrArg some (funext fun rank => ?_)
  revert rank
  decide

end MlkvPlus.Dist
