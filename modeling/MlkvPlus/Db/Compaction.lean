import MlkvPlus.Data.Lists
import MlkvPlus.Data.Slots

namespace MlkvPlus

-- What a thread of extract_found_keys_values_kernel does, one step at a time. The copies carry
-- what they read from the inputs.
inductive ExtractStep (K V : Type) (dim : Nat) where
  | reserveFound (thread : Nat)
  | copyKey (thread : Nat) (key : K)
  | copyValue (thread : Nat) (d : Fin dim) (value : V)
  | reserveUnfound (thread : Nat)
  | copyUnfound (thread : Nat) (key : K)

-- The counters, the output arrays and the output_pos of every thread.
structure Extraction (K V : Type) where
  foundCount : Nat
  unfoundCount : Nat
  keysFound : Nat → K
  valuesFound : Nat → V
  keysUnfound : Nat → K
  outputPos : Nat → Nat

variable {K V : Type} {dim : Nat}

-- The batch as pairs with their found flags. The unfound outputs may be null.
def extractFoundKeysValuesKernel (batch : List ((K × Vector V dim) × Bool)) (unfoundGiven : Bool)
    (thread index : Nat) : List (ExtractStep K V dim) :=
  match batch[index]? with
  | none => []
  | some ((key, values), true) =>
    .reserveFound thread :: .copyKey thread key ::
      (List.finRange dim).map fun d => .copyValue thread d values[d]
  | some ((key, _), false) =>
    if unfoundGiven = true then [.reserveUnfound thread, .copyUnfound thread key] else []

def extractThreads (batch : List ((K × Vector V dim) × Bool)) (unfoundGiven : Bool) :
    Nat → List (ExtractStep K V dim) :=
  launch batch.length (extractFoundKeysValuesKernel batch unfoundGiven)

namespace Extraction

def step (s : Extraction K V) : ExtractStep K V dim → Extraction K V
  | .reserveFound thread => { s with
      foundCount := s.foundCount + 1
      outputPos := Function.update s.outputPos thread s.foundCount }
  | .copyKey thread key => { s with
      keysFound := Function.update s.keysFound (s.outputPos thread) key }
  | .copyValue thread d value => { s with
      valuesFound := Function.update s.valuesFound (s.outputPos thread * dim + d) value }
  | .reserveUnfound thread => { s with
      unfoundCount := s.unfoundCount + 1
      outputPos := Function.update s.outputPos thread s.unfoundCount }
  | .copyUnfound thread key => { s with
      keysUnfound := Function.update s.keysUnfound (s.outputPos thread) key }

-- The key and the vector at a place of the found outputs.
def pairAt (s : Extraction K V) (slot : Nat) : K × Vector V dim :=
  (s.keysFound slot, Vector.ofFn fun d => s.valuesFound (slot * dim + d))

-- The outputs split the batch.
structure Partitions (s : Extraction K V) (batch : List ((K × Vector V dim) × Bool))
    (unfoundGiven : Bool) : Prop where
  found : ((List.range s.foundCount).map s.pairAt).Perm
    ((batch.filter fun entry => entry.2).map Prod.fst)
  unfound : unfoundGiven = true → ((List.range s.unfoundCount).map s.keysUnfound).Perm
    ((batch.filter fun entry => !entry.2).map fun entry => entry.1.1)
  total : unfoundGiven = true → s.foundCount + s.unfoundCount = batch.length

end Extraction

section Slots

open Slots

-- The two groups are told by the flag. Part `none` of a slot is the key, part `d` the component
-- of the vector.
def ExtractStep.toSlots : ExtractStep K V dim → Action Nat Bool (Option (Fin dim))
  | .reserveFound thread => .reserve true thread
  | .copyKey thread _ => .copy true thread none
  | .copyValue thread d _ => .copy true thread (some d)
  | .reserveUnfound thread => .reserve false thread
  | .copyUnfound thread _ => .copy false thread none

def Extraction.view (dim : Nat) (s : Extraction K V) :
    State Nat Bool (Option (Fin dim)) (Option (K ⊕ V)) where
  count flag := if flag = true then s.foundCount else s.unfoundCount
  position := s.outputPos
  cells flag slot part :=
    match flag, part with
    | true, none => some (.inl (s.keysFound slot))
    | true, some d => some (.inr (s.valuesFound (slot * dim + d)))
    | false, none => some (.inl (s.keysUnfound slot))
    | false, some _ => none

def groupOf (unfoundGiven : Bool) (entry : (K × Vector V dim) × Bool) : Option Bool :=
  if entry.2 = true then some true else if unfoundGiven = true then some false else none

def partsOf (dim : Nat) (flag : Bool) : List (Option (Fin dim)) :=
  if flag = true then none :: (List.finRange dim).map some else [none]

def partValue (pair : K × Vector V dim) : Option (Fin dim) → K ⊕ V
  | none => .inl pair.1
  | some d => .inr pair.2[d]

variable (batch : List ((K × Vector V dim) × Bool)) (unfoundGiven : Bool)

def threadGroup (thread : Nat) : Option Bool :=
  if thread < launchedBlocks batch.length * 256 then
    batch[thread % 2 ^ 32]?.bind (groupOf unfoundGiven)
  else none

def threadValue (thread : Nat) (part : Option (Fin dim)) : Option (K ⊕ V) :=
  batch[thread % 2 ^ 32]?.map fun entry => partValue entry.1 part

theorem map_toSlots_extractThreads (thread : Nat) :
    (extractThreads batch unfoundGiven thread).map ExtractStep.toSlots =
      program (threadGroup batch unfoundGiven) (partsOf dim) thread := by
  rw [extractThreads, launch, program, threadGroup]
  by_cases hlt : thread < launchedBlocks batch.length * 256
  · rw [if_pos hlt, if_pos hlt, extractFoundKeysValuesKernel]
    cases batch[thread % 2 ^ 32]? with
    | none => rfl
    | some entry =>
      obtain ⟨⟨key, values⟩, flag⟩ := entry
      cases flag with
      | true =>
        simp only [Option.bind_some, groupOf, if_true, partsOf, List.map_cons, List.map_map]
        rfl
      | false =>
        cases unfoundGiven with
        | true => rfl
        | false => rfl
  · rw [if_neg hlt, if_neg hlt]
    rfl

-- The copies of a thread bring what belongs to it.
def ExtractStep.Carries (value : Nat → Option (Fin dim) → Option (K ⊕ V)) :
    ExtractStep K V dim → Prop
  | .reserveFound _ => True
  | .copyKey thread key => value thread none = some (.inl key)
  | .copyValue thread d component => value thread (some d) = some (.inr component)
  | .reserveUnfound _ => True
  | .copyUnfound thread key => value thread none = some (.inl key)

theorem carries_of_mem (h : action ∈ extractThreads batch unfoundGiven thread) :
    action.Carries (threadValue batch) := by
  rw [extractThreads, launch] at h
  split at h
  case isFalse => cases h
  case isTrue =>
    rw [extractFoundKeysValuesKernel] at h
    cases hentry : batch[thread % 2 ^ 32]? with
    | none =>
      rw [hentry] at h
      cases h
    | some entry =>
      obtain ⟨⟨key, values⟩, flag⟩ := entry
      have hvalue (part : Option (Fin dim)) :
          threadValue batch thread part = some (partValue (key, values) part) := by
        rw [threadValue, hentry]
        rfl
      rw [hentry] at h
      cases flag with
      | true =>
        simp only [List.mem_cons, List.mem_map] at h
        rcases h with rfl | rfl | ⟨d, _, rfl⟩
        · trivial
        · exact hvalue none
        · exact hvalue (some d)
      | false =>
        dsimp only at h
        split at h
        case isFalse => cases h
        case isTrue =>
          simp only [List.mem_cons, List.not_mem_nil, or_false] at h
          rcases h with rfl | rfl
          · trivial
          · exact hvalue none

theorem place_inj (slot other : Nat) (d e : Fin dim) :
    slot * dim + d = other * dim + e ↔ slot = other ∧ d = e := by
  have hd := d.isLt
  have he := e.isLt
  constructor
  · intro heq
    have hpos : 0 < dim := Nat.zero_lt_of_lt hd
    have hdiv := congrArg (· / dim) heq
    have hmod := congrArg (· % dim) heq
    simp only [Nat.mul_comm _ dim, Nat.mul_add_div hpos, Nat.mul_add_mod, Nat.div_eq_of_lt hd,
      Nat.div_eq_of_lt he, Nat.mod_eq_of_lt hd, Nat.mod_eq_of_lt he, Nat.add_zero] at hdiv hmod
    exact ⟨hdiv, Fin.ext hmod⟩
  · rintro ⟨rfl, rfl⟩
    rfl

namespace Extraction

theorem cells_copyKey (s : Extraction K V) (thread : Nat) (key : K) :
    ((s.step (.copyKey thread key : ExtractStep K V dim)).view dim).cells =
      fun flag slot part =>
        if flag = true ∧ slot = s.outputPos thread ∧ part = none then some (.inl key)
        else (s.view dim).cells flag slot part := by
  funext flag slot part
  cases flag with
  | false =>
    cases part with
    | none => simp [view, step]
    | some e => simp [view, step]
  | true =>
    cases part with
    | some d => simp [view, step]
    | none =>
      simp only [view, step, true_and, and_true, Function.update_apply]
      split
      · rfl
      · rfl

theorem cells_copyValue (s : Extraction K V) (thread : Nat) (d : Fin dim) (value : V) :
    ((s.step (.copyValue thread d value : ExtractStep K V dim)).view dim).cells =
      fun flag slot part =>
        if flag = true ∧ slot = s.outputPos thread ∧ part = some d then some (.inr value)
        else (s.view dim).cells flag slot part := by
  funext flag slot part
  cases flag with
  | false =>
    cases part with
    | none => simp [view, step]
    | some e => simp [view, step]
  | true =>
    cases part with
    | none => simp [view, step]
    | some e =>
      simp only [view, step, true_and, Function.update_apply, place_inj, Option.some.injEq]
      split
      · rfl
      · rfl

theorem cells_copyUnfound (s : Extraction K V) (thread : Nat) (key : K) :
    ((s.step (.copyUnfound thread key : ExtractStep K V dim)).view dim).cells =
      fun flag slot part =>
        if flag = false ∧ slot = s.outputPos thread ∧ part = none then some (.inl key)
        else (s.view dim).cells flag slot part := by
  funext flag slot part
  cases flag with
  | true =>
    cases part with
    | none => simp [view, step]
    | some e => simp [view, step]
  | false =>
    cases part with
    | some d => simp [view, step]
    | none =>
      simp only [view, step, true_and, and_true, Function.update_apply]
      split
      · rfl
      · rfl

theorem view_step (s : Extraction K V) (action : ExtractStep K V dim)
    (hcarries : action.Carries value) :
    (s.step action).view dim = Slots.step value (s.view dim) action.toSlots := by
  cases action with
  | reserveFound thread =>
    refine State.ext ?_ rfl rfl
    funext flag
    cases flag with
    | true => rfl
    | false => rfl
  | reserveUnfound thread =>
    refine State.ext ?_ rfl rfl
    funext flag
    cases flag with
    | true => rfl
    | false => rfl
  | copyKey thread key =>
    refine State.ext rfl rfl ((cells_copyKey s thread key).trans ?_)
    rw [← show value thread none = some (.inl key) from hcarries]
    rfl
  | copyValue thread d component =>
    refine State.ext rfl rfl ((cells_copyValue s thread d component).trans ?_)
    rw [← show value thread (some d) = some (.inr component) from hcarries]
    rfl
  | copyUnfound thread key =>
    refine State.ext rfl rfl ((cells_copyUnfound s thread key).trans ?_)
    rw [← show value thread none = some (.inl key) from hcarries]
    rfl

end Extraction

theorem Extraction.view_run (run : List (ExtractStep K V dim))
    (hcarries : ∀ action ∈ run, action.Carries value) (s : Extraction K V) :
    (run.foldl step s).view dim =
      (run.map ExtractStep.toSlots).foldl (Slots.step value) (s.view dim) := by
  induction run generalizing s with
  | nil => rfl
  | cons action rest ih =>
    obtain ⟨hfirst, hrest⟩ := List.forall_mem_cons.mp hcarries
    rw [List.foldl_cons, ih hrest, List.map_cons, List.foldl_cons, view_step s action hfirst]

theorem exists_extract_owners (hrun : Interleaves (extractThreads batch unfoundGiven) run)
    (hfound : s.foundCount = 0) (hunfound : s.unfoundCount = 0) :
    ∃ owners : Bool → List Nat, ∀ flag, (owners flag).Nodup ∧
      (∀ thread, thread ∈ owners flag ↔ threadGroup batch unfoundGiven thread = some flag) ∧
      ((run.foldl Extraction.step s).view dim).count flag = (owners flag).length ∧
      ∀ (slot thread : Nat), (owners flag)[slot]? = some thread → ∀ part ∈ partsOf dim flag,
        ((run.foldl Extraction.step s).view dim).cells flag slot part =
          threadValue batch thread part := by
  have hslots := hrun.map ExtractStep.toSlots
  rw [funext (map_toSlots_extractThreads batch unfoundGiven)] at hslots
  have hcarries : ∀ action ∈ run, action.Carries (threadValue batch) := by
    intro action haction
    obtain ⟨thread, hthread⟩ := hrun.mem haction
    exact carries_of_mem batch unfoundGiven hthread
  obtain ⟨owners, howners⟩ := exists_owners (threadValue batch) hslots (s.view dim) (by
    intro flag
    cases flag with
    | true => exact hfound
    | false => exact hunfound)
  rw [← Extraction.view_run run hcarries s] at howners
  exact ⟨owners, howners⟩

end Slots

theorem threadGroup_eq {batch : List ((K × Vector V dim) × Bool)} {unfoundGiven : Bool}
    (hsize : batch.length ≤ 2 ^ 32) (thread : Nat) :
    threadGroup batch unfoundGiven thread = batch[thread]?.bind (groupOf unfoundGiven) := by
  rw [threadGroup, launchedBlocks_eq hsize]
  by_cases hlt : thread < (batch.length + 255) / 256 * 256
  · rw [if_pos hlt, Nat.mod_eq_of_lt (by omega)]
  · rw [if_neg hlt, List.getElem?_eq_none (by omega)]
    rfl

section Partition

variable {batch : List ((K × Vector V dim) × Bool)} {unfoundGiven : Bool}

theorem threadGroup_eq_some (hsize : batch.length ≤ 2 ^ 32)
    (hflag : flag = true ∨ unfoundGiven = true) (thread : Nat) :
    threadGroup batch unfoundGiven thread = some flag ↔
      ∃ pair, batch[thread]? = some (pair, flag) := by
  rw [threadGroup_eq hsize]
  cases batch[thread]? with
  | none => simp
  | some entry =>
    obtain ⟨pair, own⟩ := entry
    cases own with
    | true =>
      cases flag with
      | true => simp [groupOf]
      | false => simp [groupOf]
    | false =>
      cases flag with
      | true =>
        cases unfoundGiven with
        | true => simp [groupOf]
        | false => simp [groupOf]
      | false =>
        rw [hflag.resolve_left (by decide)]
        simp [groupOf]

theorem threadValue_eq (hsize : batch.length ≤ 2 ^ 32) (hentry : batch[thread]? = some (pair, flag))
    (part : Option (Fin dim)) : threadValue batch thread part = some (partValue pair part) := by
  have hlt := (List.getElem?_eq_some_iff.mp hentry).1
  rw [threadValue, Nat.mod_eq_of_lt (by omega), hentry]
  rfl

theorem found_perm (hsize : batch.length ≤ 2 ^ 32) {final : Extraction K V} {owners : List Nat}
    (hnodup : owners.Nodup)
    (hmem : ∀ thread, thread ∈ owners ↔ threadGroup batch unfoundGiven thread = some true)
    (hcells : ∀ (slot thread : Nat), owners[slot]? = some thread → ∀ part ∈ partsOf dim true,
      (final.view dim).cells true slot part = threadValue batch thread part) :
    ((List.range owners.length).map final.pairAt).Perm
      ((batch.filter fun entry => entry.2).map Prod.fst) := by
  have hperm := Lists.perm_of_owners final.pairAt id hnodup
    (fun thread => (hmem thread).trans (threadGroup_eq_some hsize (.inl rfl) thread)) ?_
  · simpa only [Bool.decide_eq_true, id_eq] using hperm
  · intro slot thread pair hslot hentry
    have hparts (part : Option (Fin dim)) (hpart : part ∈ partsOf dim true) :=
      (hcells slot thread hslot part hpart).trans (threadValue_eq hsize hentry part)
    refine Prod.ext (Sum.inl.inj (Option.some.inj (hparts none (List.mem_cons_self ..)))) ?_
    ext d hd
    have hcomponent := hparts (some ⟨d, hd⟩)
      (List.mem_cons_of_mem _ (List.mem_map_of_mem (List.mem_finRange _)))
    simp only [Extraction.pairAt, Vector.getElem_ofFn]
    exact Sum.inr.inj (Option.some.inj hcomponent)

theorem unfound_perm (hsize : batch.length ≤ 2 ^ 32) (hgiven : unfoundGiven = true)
    {final : Extraction K V} {owners : List Nat} (hnodup : owners.Nodup)
    (hmem : ∀ thread, thread ∈ owners ↔ threadGroup batch unfoundGiven thread = some false)
    (hcells : ∀ (slot thread : Nat), owners[slot]? = some thread → ∀ part ∈ partsOf dim false,
      (final.view dim).cells false slot part = threadValue batch thread part) :
    ((List.range owners.length).map final.keysUnfound).Perm
      ((batch.filter fun entry => !entry.2).map fun entry => entry.1.1) := by
  have hperm := Lists.perm_of_owners final.keysUnfound Prod.fst hnodup
    (fun thread => (hmem thread).trans (threadGroup_eq_some hsize (.inr hgiven) thread)) ?_
  · simpa only [Bool.decide_eq_false] using hperm
  · intro slot thread pair hslot hentry
    have hkey := (hcells slot thread hslot none (List.mem_singleton_self _)).trans
      (threadValue_eq hsize hentry none)
    exact Sum.inl.inj (Option.some.inj hkey)

theorem partitions_of_run (hsize : batch.length ≤ 2 ^ 32) {s : Extraction K V}
    (hrun : Interleaves (extractThreads batch unfoundGiven) run) (hfound : s.foundCount = 0)
    (hunfound : s.unfoundCount = 0) :
    (run.foldl Extraction.step s).Partitions batch unfoundGiven := by
  obtain ⟨owners, howners⟩ := exists_extract_owners batch unfoundGiven hrun hfound hunfound
  generalize run.foldl Extraction.step s = final at howners ⊢
  obtain ⟨hnodup, hmem, hfoundCount, hcells⟩ := howners true
  obtain ⟨hnodup', hmem', hunfoundCount, hcells'⟩ := howners false
  have hfoundPerm := found_perm hsize hnodup hmem hcells
  have hunfoundPerm := fun hgiven => unfound_perm hsize hgiven hnodup' hmem' hcells'
  rw [← show final.foundCount = (owners true).length from hfoundCount] at hfoundPerm
  rw [← show final.unfoundCount = (owners false).length from hunfoundCount] at hunfoundPerm
  refine ⟨hfoundPerm, hunfoundPerm, fun hgiven => ?_⟩
  have hlength := hfoundPerm.length_eq
  have hlength' := (hunfoundPerm hgiven).length_eq
  rw [List.length_map, List.length_range, List.length_map] at hlength hlength'
  rw [hlength, hlength', ← List.length_eq_length_filter_add]

end Partition

section Large

variable [Inhabited K] [Inhabited V]

def lastFound (K V : Type) [Inhabited K] [Inhabited V] (dim batchSize : Nat) :
    List ((K × Vector V dim) × Bool) :=
  List.replicate (batchSize - 1) (default, false) ++ [(default, true)]

theorem length_lastFound (hpos : 0 < batchSize) :
    (lastFound K V dim batchSize).length = batchSize := by
  rw [lastFound, List.length_append, List.length_replicate, List.length_singleton]
  omega

-- Behind 2^32 entries the indices begin again, and no thread comes to the last entry.
theorem foundCount_lastFound (hsize : 2 ^ 32 < batchSize)
    (hrun : Interleaves (extractThreads (lastFound K V dim batchSize) unfoundGiven) run)
    (hfound : s.foundCount = 0) (hunfound : s.unfoundCount = 0) :
    (run.foldl Extraction.step s).foundCount = 0 := by
  obtain ⟨owners, howners⟩ := exists_extract_owners _ unfoundGiven hrun hfound hunfound
  obtain ⟨-, hmem, hcount, -⟩ := howners true
  have hnone : owners true = [] := by
    refine List.eq_nil_iff_forall_not_mem.mpr fun thread hthread => ?_
    have hgroup := (hmem thread).mp hthread
    have hindex := Nat.mod_lt thread (Nat.two_pow_pos 32)
    have hentry : (lastFound K V dim batchSize)[thread % 2 ^ 32]? = some (default, false) := by
      rw [lastFound, List.getElem?_append_left (by rw [List.length_replicate]; omega),
        List.getElem?_replicate, if_pos (by omega)]
    rw [threadGroup, hentry, Option.bind_some, groupOf] at hgroup
    cases unfoundGiven with
    | true => simp at hgroup
    | false => simp at hgroup
  rw [hnone] at hcount
  exact hcount

theorem not_partitions_lastFound (dim : Nat) (hsize : 2 ^ 32 < batchSize) (unfoundGiven : Bool) :
    ∃ (run : List (ExtractStep K V dim)) (s : Extraction K V),
      Interleaves (extractThreads (lastFound K V dim batchSize) unfoundGiven) run ∧
      s.foundCount = 0 ∧ s.unfoundCount = 0 ∧ (run.foldl Extraction.step s).foundCount = 0 ∧
      ¬(run.foldl Extraction.step s).Partitions (lastFound K V dim batchSize) unfoundGiven := by
  have hrun : Interleaves (extractThreads (lastFound K V dim batchSize) unfoundGiven) _ :=
    launch_inOrder _ _
  let start : Extraction K V :=
    ⟨0, 0, fun _ => default, fun _ => default, fun _ => default, fun _ => 0⟩
  have hcount := foundCount_lastFound (s := start) hsize hrun rfl rfl
  refine ⟨_, start, hrun, rfl, rfl, hcount, fun hpartitions => ?_⟩
  have hperm := hpartitions.found
  rw [hcount, List.range_zero, List.map_nil, List.nil_perm, List.map_eq_nil_iff,
    List.filter_eq_nil_iff] at hperm
  exact hperm (default, true) (List.mem_append_right _ (List.mem_singleton_self _)) rfl

-- The outputs split every batch in every order of the threads, as long as its size fits in the
-- 32 bits of a thread's index.
theorem extract_partitions_iff (dim batchSize : Nat) :
    (∀ (batch : List ((K × Vector V dim) × Bool)), batch.length = batchSize →
      ∀ (unfoundGiven : Bool) (run : List (ExtractStep K V dim)) (s : Extraction K V),
        Interleaves (extractThreads batch unfoundGiven) run →
        s.foundCount = 0 → s.unfoundCount = 0 →
        (run.foldl Extraction.step s).Partitions batch unfoundGiven) ↔
      batchSize ≤ 2 ^ 32 := by
  constructor
  · intro hall
    by_contra hlarge
    have hsize := Nat.lt_of_not_le hlarge
    obtain ⟨run, s, hrun, hfound, hunfound, -, hnot⟩ :=
      not_partitions_lastFound (K := K) (V := V) dim hsize true
    exact hnot (hall _ (length_lastFound (by omega)) true run s hrun hfound hunfound)
  · intro hsize batch hlength unfoundGiven run s hrun hfound hunfound
    exact partitions_of_run (hlength.trans_le hsize) hrun hfound hunfound

end Large

-- 2^32 + 1 keys, of which the last one is found: nothing comes out.
theorem extract_loses_last :
    ∃ (run : List (ExtractStep UInt64 UInt32 1)) (s : Extraction UInt64 UInt32),
      Interleaves (extractThreads (lastFound UInt64 UInt32 1 (2 ^ 32 + 1)) true) run ∧
      s.foundCount = 0 ∧ s.unfoundCount = 0 ∧ (run.foldl Extraction.step s).foundCount = 0 ∧
      ¬(run.foldl Extraction.step s).Partitions (lastFound UInt64 UInt32 1 (2 ^ 32 + 1)) true :=
  not_partitions_lastFound 1 (Nat.lt_succ_self _) true

end MlkvPlus
