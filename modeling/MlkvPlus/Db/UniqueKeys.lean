import MlkvPlus.Db.Steps

namespace MlkvPlus

variable {K V : Type} {dim : Nat} {reserved : K → Bool}

-- A call of one of the two hash tables, with the pairs it gets. HKV is told that the keys of a
-- call are distinct.
inductive TableCall (K V : Type) (dim : Nat) where
  | multiset (pairs : List (K × Vector V dim))
  | multisetBuffer (current : List K) (pairs : List (K × Vector V dim))

def TableCall.keys : TableCall K V dim → List K
  | .multiset pairs => pairs.map Prod.fst
  | .multisetBuffer _ pairs => pairs.map Prod.fst

namespace DB

theorem map_fst_foundPairs (table : K → Option (Vector V dim)) (keys : List K) :
    (foundPairs table keys).map Prod.fst = keys.filter fun key => (table key).isSome := by
  induction keys with
  | nil => rfl
  | cons key rest ih =>
    have hcons : foundPairs table (key :: rest) =
        ((table key).map fun values => (key, values)).toList ++ foundPairs table rest := by
      cases htable : table key with
      | none => simp [foundPairs, htable]
      | some values => simp [foundPairs, htable]
    rw [hcons, List.map_append, ih]
    cases htable : table key with
    | none => simp [htable]
    | some values => simp [htable]

variable [DecidableEq K]

theorem nodup_missedKeys_iff (config : StorageConfig) (table : K → Option (Vector V dim))
    (keys : List K) :
    (missedKeys config table keys).Nodup ↔
      (config.enableGdsGetFromSst = true → (keys.filter fun key => (table key).isNone).Nodup) := by
  rw [missedKeys]
  split
  case isTrue hgds => simp [hgds]
  case isFalse hgds => simp [hgds, List.nodup_dedup]

variable [Scalar K] [Scalar V]

def tableCalls (env : ReadEnv reserved V dim) (s : DB K V dim) (keys : List K) :
    List (TableCall K V dim) :=
  if s.initialized = false ∨ keys = [] then []
  else if s.saysAllFound env keys then []
  else
    let found := foundPairs s.gpu keys
    let pairs := (s.lookup env keys).readBack env (missedKeys s.config s.gpu keys)
    (if found = [] then [] else [.multisetBuffer [] found]) ++
      if s.crashes env (missedKeys s.config s.gpu keys) then []
      else .multiset pairs ::
        match (s.lookup env keys).multiset env.toWriteEnv pairs with
        | (.returned _, _) => [.multisetBuffer keys pairs]
        | _ => []

def applyCall (env : ReadEnv reserved V dim) (s : DB K V dim) : TableCall K V dim → DB K V dim
  | .multiset pairs => (s.multiset env.toWriteEnv pairs).2
  | .multisetBuffer current pairs =>
    { s with buffer := GPUTreeHkv.multisetBuffer env current s.buffer pairs }

variable {env : ReadEnv reserved V dim} {s : DB K V dim} {keys : List K}

theorem tableCalls_of_found (hfound : s.saysAllFound env keys) : s.tableCalls env keys = [] := by
  rw [tableCalls, if_pos hfound, ite_self]

theorem tableCalls_of_missed (hopen : s.initialized = true) (hkeys : keys ≠ [])
    (hmissed : ¬s.saysAllFound env keys) :
    s.tableCalls env keys =
      (if foundPairs s.gpu keys = [] then [] else [.multisetBuffer [] (foundPairs s.gpu keys)]) ++
        if s.crashes env (missedKeys s.config s.gpu keys) then []
        else .multiset (s.backPairs env keys) ::
          match (s.lookup env keys).multiset env.toWriteEnv (s.backPairs env keys) with
          | (.returned _, _) => [.multisetBuffer keys (s.backPairs env keys)]
          | _ => [] := by
  rw [tableCalls, if_neg (by simp [hopen, hkeys]), if_neg hmissed]
  dsimp only
  rw [readBack_lookup]

theorem tableCalls_of_below (hopen : s.initialized = true) (hbelow : s.GoesBelow env keys) :
    s.tableCalls env keys =
      (if foundPairs s.gpu keys = [] then [] else [.multisetBuffer [] (foundPairs s.gpu keys)]) ++
        .multiset (s.backPairs env keys) ::
          match (s.lookup env keys).multiset env.toWriteEnv (s.backPairs env keys) with
          | (.returned _, _) => [.multisetBuffer keys (s.backPairs env keys)]
          | _ => [] := by
  rw [tableCalls_of_missed hopen hbelow.nonempty hbelow.missed, if_neg hbelow.alive]

-- The calls are all that a batch read does to the state.
theorem multiget_eq_applyCalls (env : ReadEnv reserved V dim) (s : DB K V dim) (keys : List K) :
    (s.multiget env keys).2 = (s.tableCalls env keys).foldl (applyCall env) s := by
  by_cases hclosed : s.initialized = false ∨ keys = []
  · rw [multiget, tableCalls, if_pos hclosed, if_pos hclosed]
    rfl
  obtain ⟨hinitialized, hkeys⟩ := not_or.mp hclosed
  have hopen : s.initialized = true := Bool.eq_true_of_not_eq_false hinitialized
  by_cases hfound : s.saysAllFound env keys
  · rw [tableCalls_of_found hfound, multiget_unchanged hopen hfound]
    rfl
  have hlookup : ((if foundPairs s.gpu keys = [] then []
      else [.multisetBuffer [] (foundPairs s.gpu keys)] : List (TableCall K V dim)).foldl
        (applyCall env) s) = s.lookup env keys := by
    rw [lookup]
    split
    · rfl
    · rfl
  rw [tableCalls_of_missed hopen hkeys hfound, List.foldl_append, hlookup]
  by_cases hcrash : s.crashes env (missedKeys s.config s.gpu keys)
  · rw [multiget_crashed hopen hkeys hfound hcrash, if_pos hcrash]
    rfl
  rw [multiget_eq hopen ⟨hkeys, hfound, hcrash⟩, if_neg hcrash, List.foldl_cons, applyCall]
  generalize (s.lookup env keys).multiset env.toWriteEnv (s.backPairs env keys) = written
  obtain ⟨result, t⟩ := written
  cases result with
  | returned result => rfl
  | threw what => rfl
  | aborted reason => rfl

theorem keys_of_mem_tableCalls (hopen : s.initialized = true) (hbelow : s.GoesBelow env keys)
    (hcall : call ∈ s.tableCalls env keys) :
    call.keys = keys.filter (fun key => (s.gpu key).isSome) ∨
      call.keys = missedKeys s.config s.gpu keys := by
  have hback : (s.backPairs env keys).map Prod.fst = missedKeys s.config s.gpu keys :=
    map_fst_readBack env s _
  rw [tableCalls_of_below hopen hbelow, List.mem_append, List.mem_cons] at hcall
  rcases hcall with hfound | rfl | hlast
  · split at hfound
    · cases hfound
    · rw [List.mem_singleton.mp hfound]
      exact .inl (map_fst_foundPairs s.gpu keys)
  · exact .inr hback
  · split at hlast
    · rw [List.mem_singleton.mp hlast]
      exact .inr hback
    · cases hlast

-- The array of the found keys holds a key as often as the batch does, on both paths; so does
-- the array of the missed keys with the GDS path on, and the plain path makes it a set. The
-- threads put the keys down in any order.
theorem tableCalls_nodup_iff (env : ReadEnv reserved V dim) (henv : env.Works) (s : DB K V dim)
    (keys : List K) :
    (∀ call ∈ s.tableCalls env keys, ∀ array : List K, array.Perm call.keys → array.Nodup) ↔
      s.initialized = false ∨ (∀ key ∈ keys, (s.gpu key).isSome = true) ∨
        ((keys.filter fun key => (s.gpu key).isSome).Nodup ∧
          (s.config.enableGdsGetFromSst = true →
            (keys.filter fun key => (s.gpu key).isNone).Nodup)) := by
  rw [← nodup_missedKeys_iff]
  by_cases hclosed : s.initialized = false
  · simp [tableCalls, hclosed]
  have hopen : s.initialized = true := Bool.eq_true_of_not_eq_false hclosed
  by_cases hfound : ∀ key ∈ keys, (s.gpu key).isSome = true
  · rw [tableCalls_of_found ((saysAllFound_iff henv).mpr hfound)]
    exact iff_of_true (List.forall_mem_nil _) (.inr (.inl hfound))
  have hbelow : s.GoesBelow env keys := goesBelow_of_works henv hfound
  rw [or_iff_right hclosed, or_iff_right hfound]
  constructor
  · intro hnodup
    have hcalls := tableCalls_of_below hopen hbelow
    constructor
    · by_cases hnone : foundPairs s.gpu keys = []
      · rw [← map_fst_foundPairs, hnone]
        exact List.nodup_nil
      · refine hnodup (.multisetBuffer [] (foundPairs s.gpu keys)) ?_ _ ?_
        · rw [hcalls, if_neg hnone]
          simp
        · rw [TableCall.keys, map_fst_foundPairs]
    · refine hnodup (.multiset (s.backPairs env keys)) ?_ _ ?_
      · rw [hcalls]
        simp
      · rw [TableCall.keys, backPairs, map_fst_readBack]
  · rintro ⟨hfoundKeys, hmissedKeys⟩ call hcall array harray
    rw [harray.nodup_iff]
    rcases keys_of_mem_tableCalls hopen hbelow hcall with hkeys | hkeys
    · rw [hkeys]
      exact hfoundKeys
    · rw [hkeys]
      exact hmissedKeys

def holdingOne (gds : Bool) : DB UInt64 UInt32 1 where
  config := { enableGdsGetFromSst := gds }
  initialized := true
  gpu key := if key = 1 then some #v[5] else none
  buffer _ := none
  rocks := .empty

-- The found keys and the missed keys of the batch are distinct.
theorem tableCalls_nodup_three :
    let env : ReadEnv (fun _ : UInt64 => false) UInt32 1 := .dropping _ [] none
    ((holdingOne true).tableCalls env [1, 2, 3]).map TableCall.keys = [[1], [2, 3], [2, 3]] ∧
      ∀ call ∈ (holdingOne true).tableCalls env [1, 2, 3],
        ∀ array : List UInt64, array.Perm call.keys → array.Nodup := by
  intro env
  exact ⟨rfl, (tableCalls_nodup_iff env ⟨fun _ => rfl, rfl⟩ (holdingOne true) [1, 2, 3]).mpr
    (.inr (.inr (by decide)))⟩

-- The key 1 goes twice into the lookup buffer, on both paths, and with the GDS path on a missed
-- key goes twice into both tables.
theorem tableCalls_duplicate :
    (∀ gds : Bool, ∃ call ∈ (holdingOne gds).tableCalls
        (.dropping (fun _ => false) [] none) [1, 1, 2],
      call.keys = [1, 1]) ∧
      ((holdingOne true).tableCalls (.dropping (fun _ => false) [] none) [2, 2]).map
        TableCall.keys = [[2, 2], [2, 2]] := by
  decide

end DB

end MlkvPlus
