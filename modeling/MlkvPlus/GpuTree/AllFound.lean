import MlkvPlus.Data.Interleaving
import MlkvPlus.MemDisk

namespace MlkvPlus.GPUTreeHkv

-- Whether a thread of the block meets an element that is false.
def holdsFalse (found : List Bool) (block : Nat) : Bool :=
  (List.range 256).any fun thread => found[(block * 256 + thread) % 2 ^ 32]? == some false

-- One block of check_all_true_kernel as one step. The first block sets the result to 1 before
-- its threads look at their elements.
def checkBlock (found : List Bool) (result : Int) (block : Nat) : Int :=
  let result := if block = 0 then 1 else result
  if holdsFalse found block = true then 0 else result

def checkAllTrue (found : List Bool) (initial : Int) (order : List Nat) : Int :=
  order.foldl (checkBlock found) initial

-- The result and the found flags. `allTrue` is what the pool buffer's d_all_true held before.
def multigetGpuOnly (table : K → Option W) (keys : List K) (allTrue : Int) (order : List Nat) :
    OperationResult × List Bool :=
  let found := keys.map fun key => (table key).isSome
  (if checkAllTrue found allTrue order = 1 then .GPU_ALL_FOUND else .SUCCESS, found)

theorem holdsFalse_iff :
    holdsFalse found block = true ↔
      ∃ thread < 256, found[(block * 256 + thread) % 2 ^ 32]? = some false := by
  simp [holdsFalse]

theorem holdsFalse_zero : holdsFalse found 0 = true ↔ false ∈ found.take 256 := by
  rw [holdsFalse_iff, List.mem_iff_getElem?]
  constructor
  · rintro ⟨thread, hthread, helement⟩
    rw [Nat.zero_mul, Nat.zero_add, Nat.mod_eq_of_lt (by omega)] at helement
    exact ⟨thread, by rw [List.getElem?_take, if_pos hthread, helement]⟩
  · rintro ⟨index, helement⟩
    rw [List.getElem?_take] at helement
    split at helement
    case isFalse => cases helement
    case isTrue hlt =>
      refine ⟨index, hlt, ?_⟩
      rwa [Nat.zero_mul, Nat.zero_add, Nat.mod_eq_of_lt (by omega)]

theorem false_mem_of_holdsFalse (h : holdsFalse found block = true) : false ∈ found := by
  obtain ⟨thread, _, helement⟩ := holdsFalse_iff.mp h
  exact List.mem_of_getElem? helement

theorem checkAllTrue_of_zero_notMem (found : List Bool) (result : Int) (order : List Nat)
    (hzero : 0 ∉ order) :
    checkAllTrue found result order =
      if order.any (holdsFalse found) = true then 0 else result := by
  induction order generalizing result with
  | nil => rfl
  | cons block rest ih =>
    rw [List.mem_cons, not_or] at hzero
    have hfirst : checkBlock found result block =
        if holdsFalse found block = true then 0 else result := by
      rw [checkBlock, if_neg (Ne.symm hzero.1)]
    have hrest := ih (checkBlock found result block) hzero.2
    rw [hfirst] at hrest
    rw [checkAllTrue, List.foldl_cons, hfirst, ← checkAllTrue, hrest, List.any_cons]
    cases holdsFalse found block with
    | false => rfl
    | true => simp

-- What ran before the first block is forgotten.
theorem checkAllTrue_split (found : List Bool) (initial : Int) (before after : List Nat)
    (hzero : 0 ∉ after) :
    checkAllTrue found initial (before ++ 0 :: after) = 1 ↔
      ∀ block ∈ 0 :: after, holdsFalse found block = false := by
  have hsplit : checkAllTrue found initial (before ++ 0 :: after) =
      checkAllTrue found (checkBlock found (checkAllTrue found initial before) 0) after := by
    rw [checkAllTrue, List.foldl_append, List.foldl_cons]
    rfl
  rw [hsplit, checkAllTrue_of_zero_notMem found _ after hzero, List.forall_mem_cons, checkBlock]
  cases hfirst : holdsFalse found 0 with
  | true => simp
  | false =>
    cases hafter : after.any (holdsFalse found) with
    | true =>
      obtain ⟨block, hblock, hfalse⟩ := List.any_eq_true.mp hafter
      simp only [if_true, zero_ne_one, true_and, false_iff, not_forall]
      exact ⟨block, hblock, by rw [hfalse]; decide⟩
    | false =>
      simp only [Bool.false_eq_true, if_false, if_true, true_and, true_iff]
      intro block hblock
      exact Bool.eq_false_iff.mpr fun htrue =>
        Bool.eq_false_iff.mp hafter (List.any_eq_true.mpr ⟨block, hblock, htrue⟩)

theorem range_perm_zero_last (hpos : 0 < count) :
    (List.range' 1 (count - 1) ++ [0]).Perm (List.range count) := by
  obtain ⟨rest, rfl⟩ := Nat.exists_eq_succ_of_ne_zero hpos.ne'
  have hrange : List.range (rest + 1) = 0 :: List.range' 1 rest := by
    rw [List.range_eq_range', List.range'_succ]
  rw [hrange, Nat.succ_sub_one]
  exact List.perm_append_comm

section Orders

variable {found : List Bool}

theorem checkAllTrue_cases (initial : Int) (hpos : 0 < launchedBlocks found.length)
    (horder : order.Perm (List.range (launchedBlocks found.length))) :
    ∃ after, checkAllTrue found initial order = 1 ↔
      ∀ block ∈ 0 :: after, holdsFalse found block = false := by
  have hmem : 0 ∈ order := horder.mem_iff.mpr (List.mem_range.mpr hpos)
  obtain ⟨before, after, rfl⟩ := List.append_of_mem hmem
  have hnodup := horder.nodup_iff.mpr List.nodup_range
  have hzero := (List.nodup_cons.mp (List.nodup_append.mp hnodup).2.1).1
  exact ⟨after, checkAllTrue_split found initial before after hzero⟩

theorem checkAllTrue_of_all (initial : Int) (hpos : 0 < launchedBlocks found.length)
    (horder : order.Perm (List.range (launchedBlocks found.length)))
    (hall : ∀ flag ∈ found, flag = true) : checkAllTrue found initial order = 1 := by
  obtain ⟨after, hiff⟩ := checkAllTrue_cases initial hpos horder
  refine hiff.mpr fun block _ => Bool.eq_false_iff.mpr fun hfalse => ?_
  exact absurd (hall false (false_mem_of_holdsFalse hfalse)) (by decide)

theorem checkAllTrue_of_first (initial : Int) (hpos : 0 < launchedBlocks found.length)
    (horder : order.Perm (List.range (launchedBlocks found.length)))
    (hfirst : false ∈ found.take 256) : checkAllTrue found initial order ≠ 1 := by
  obtain ⟨after, hiff⟩ := checkAllTrue_cases initial hpos horder
  intro hone
  have hnone := hiff.mp hone 0 (List.mem_cons_self ..)
  rw [holdsFalse_zero.mpr hfirst] at hnone
  cases hnone

-- With the first block last the answer is that of the first block.
theorem checkAllTrue_zero_last (initial : Int) (hfirst : false ∉ found.take 256) :
    checkAllTrue found initial
      (List.range' 1 (launchedBlocks found.length - 1) ++ [0]) = 1 := by
  refine (checkAllTrue_split found initial _ [] List.not_mem_nil).mpr ?_
  rw [List.forall_mem_singleton]
  exact Bool.eq_false_iff.mpr fun htrue => hfirst (holdsFalse_zero.mp htrue)

end Orders

-- A check that says yes although an element is false: no block runs and the old value was 1, or
-- the first block knows nothing of it and runs last. Nobody looks at the error of a launch.
theorem checkAllTrue_sound_iff (found : List Bool) :
    (∀ (initial : Int) (order : List Nat),
        order.Perm (List.range (launchedBlocks found.length)) →
        checkAllTrue found initial order = 1 → ∀ flag ∈ found, flag = true) ↔
      (∀ flag ∈ found, flag = true) ∨
        (0 < launchedBlocks found.length ∧ false ∈ found.take 256) := by
  constructor
  · intro hsound
    rcases Nat.eq_zero_or_pos (launchedBlocks found.length) with hnone | hpos
    · rw [hnone] at hsound
      exact .inl (hsound 1 [] (List.Perm.refl _) rfl)
    · by_cases hfirst : false ∈ found.take 256
      · exact .inr ⟨hpos, hfirst⟩
      · exact .inl (hsound 0 _ (range_perm_zero_last hpos) (checkAllTrue_zero_last 0 hfirst))
  · rintro (hall | ⟨hpos, hfirst⟩) initial order horder hone
    · exact hall
    · exact absurd hone (checkAllTrue_of_first initial hpos horder hfirst)

theorem checkAllTrue_iff (found : List Bool) :
    (∀ (initial : Int) (order : List Nat),
        order.Perm (List.range (launchedBlocks found.length)) →
        (checkAllTrue found initial order = 1 ↔ ∀ flag ∈ found, flag = true)) ↔
      0 < launchedBlocks found.length ∧
        ((∀ flag ∈ found, flag = true) ∨ false ∈ found.take 256) := by
  constructor
  · intro hright
    have hsound := (checkAllTrue_sound_iff found).mp fun initial order horder =>
      (hright initial order horder).mp
    refine ⟨Nat.pos_of_ne_zero fun hnone => ?_, hsound.imp_right And.right⟩
    -- no block runs, and the old value is the answer
    rw [hnone] at hright
    have hone := (hright 1 [] (List.Perm.refl _)).mp rfl
    have hzero : (0 : Int) = 1 := (hright 0 [] (List.Perm.refl _)).mpr hone
    exact absurd hzero (by decide)
  · rintro ⟨hpos, hcases⟩ initial order horder
    refine ⟨?_, checkAllTrue_of_all initial hpos horder⟩
    exact (checkAllTrue_sound_iff found).mpr (hcases.imp_right (⟨hpos, ·⟩)) initial order horder

-- An answer that the check can give: in some order of the blocks, and with something in the
-- result before.
def CanAnswer (found : List Bool) (answer : Bool) : Prop :=
  ∃ (initial : Int) (order : List Nat), order.Perm (List.range (launchedBlocks found.length)) ∧
    (answer = true ↔ checkAllTrue found initial order = 1)

def answerInOrder (found : List Bool) : Bool :=
  checkAllTrue found 0 (List.range (launchedBlocks found.length)) = 1

theorem canAnswer_inOrder (found : List Bool) : CanAnswer found (answerInOrder found) :=
  ⟨0, _, List.Perm.refl _, decide_eq_true_iff⟩

section Sizes

variable {found : List Bool} (hlength : found.length ≤ 2 ^ 32)
include hlength

theorem holdsFalse_of_mem (hmem : false ∈ found) :
    ∃ block < launchedBlocks found.length, holdsFalse found block = true := by
  obtain ⟨index, helement⟩ := List.mem_iff_getElem?.mp hmem
  obtain ⟨hlt, -⟩ := List.getElem?_eq_some_iff.mp helement
  have hplace : index / 256 * 256 + index % 256 = index := Nat.div_add_mod' index 256
  refine ⟨index / 256, by rw [launchedBlocks_eq hlength]; omega, ?_⟩
  refine holdsFalse_iff.mpr ⟨index % 256, Nat.mod_lt _ (by decide), ?_⟩
  rw [hplace, Nat.mod_eq_of_lt (by omega), helement]

theorem launchedBlocks_pos (hpos : found ≠ []) : 0 < launchedBlocks found.length := by
  have hlength' := List.length_pos_iff.mpr hpos
  rw [launchedBlocks_eq hlength]
  omega

theorem answerInOrder_eq (hpos : found ≠ []) : answerInOrder found = found.all id := by
  have hlaunched := launchedBlocks_pos hlength hpos
  obtain ⟨rest, hrest⟩ := Nat.exists_eq_succ_of_ne_zero hlaunched.ne'
  have hsplit := checkAllTrue_split found 0 [] (List.range' 1 rest) (by rw [List.mem_range'_1]; omega)
  have hrange : [] ++ 0 :: List.range' 1 rest = List.range (launchedBlocks found.length) := by
    rw [hrest, List.range_eq_range', List.range'_succ, List.nil_append]
  rw [hrange] at hsplit
  rw [Bool.eq_iff_iff, answerInOrder, decide_eq_true_iff, hsplit, List.all_eq_true]
  constructor
  · intro hnone flag hflag
    by_contra hfalse
    obtain rfl := Bool.eq_false_of_not_eq_true hfalse
    obtain ⟨block, hblock, hholds⟩ := holdsFalse_of_mem hlength hflag
    rw [hnone block (by rw [← List.nil_append (0 :: _), hrange]; exact List.mem_range.mpr hblock)]
      at hholds
    cases hholds
  · intro hall block _
    refine Bool.eq_false_iff.mpr fun hfalse => ?_
    exact absurd (hall false (false_mem_of_holdsFalse hfalse)) (by decide)

theorem canAnswer_true_iff (hpos : found ≠ []) :
    CanAnswer found true ↔ false ∉ found.take 256 := by
  have hlaunched := launchedBlocks_pos hlength hpos
  constructor
  · rintro ⟨initial, order, horder, hone⟩ hfirst
    exact checkAllTrue_of_first initial hlaunched horder hfirst (hone.mp rfl)
  · intro hfirst
    exact ⟨0, _, range_perm_zero_last hlaunched, iff_of_true rfl (checkAllTrue_zero_last 0 hfirst)⟩

end Sizes

theorem multigetGpuOnly_eq {table : K → Option W} {keys : List K} {allTrue : Int}
    {order : List Nat} :
    (multigetGpuOnly table keys allTrue order).1 = .GPU_ALL_FOUND ↔
      checkAllTrue (keys.map fun key => (table key).isSome) allTrue order = 1 := by
  rw [multigetGpuOnly]
  dsimp only
  split
  case isTrue hone => exact iff_of_true rfl hone
  case isFalse hother =>
    refine iff_of_false ?_ hother
    intro hsuccess
    cases hsuccess

-- The check is right in every order of the blocks if all elements are true or one of the first
-- 256 is false. Otherwise a block that runs before the first one is overruled by it, and a
-- lookup takes the batch for found.
theorem allFound_check_iff (found : List Bool) (table : K → Option W) (keys : List K) :
    ((∀ (initial : Int) (order : List Nat),
        order.Perm (List.range (launchedBlocks found.length)) →
        (checkAllTrue found initial order = 1 ↔ ∀ flag ∈ found, flag = true)) ↔
      0 < launchedBlocks found.length ∧
        ((∀ flag ∈ found, flag = true) ∨ false ∈ found.take 256)) ∧
    ((∀ (initial : Int) (order : List Nat),
        order.Perm (List.range (launchedBlocks keys.length)) →
        (multigetGpuOnly table keys initial order).1 = .GPU_ALL_FOUND →
        ∀ key ∈ keys, (table key).isSome = true) ↔
      (∀ key ∈ keys, (table key).isSome = true) ∨
        (0 < launchedBlocks keys.length ∧ ∃ key ∈ keys.take 256, table key = none)) := by
  refine ⟨checkAllTrue_iff found, ?_⟩
  have hsound := checkAllTrue_sound_iff (keys.map fun key => (table key).isSome)
  have htake : false ∈ (keys.map fun key => (table key).isSome).take 256 ↔
      ∃ key ∈ keys.take 256, table key = none := by
    rw [← List.map_take, List.mem_map]
    simp only [Option.isSome_eq_false_iff, Option.isNone_iff_eq_none]
  simp only [htake, List.length_map, List.forall_mem_map] at hsound
  simp only [multigetGpuOnly_eq]
  exact hsound

-- The 257th element is false, and its block runs before the first one.
theorem allFound_check_wrong :
    let found := List.replicate 256 true ++ [false]
    let table := fun key : Nat => if key < 256 then some key else none
    [1, 0].Perm (List.range (launchedBlocks found.length)) ∧
      checkAllTrue found 0 [1, 0] = 1 ∧ ¬(∀ flag ∈ found, flag = true) ∧
      (multigetGpuOnly table (List.range 257) 0 [1, 0]).1 = .GPU_ALL_FOUND ∧ table 256 = none := by
  intro found table
  have hlength : found.length = 257 := by
    rw [List.length_append, List.length_replicate, List.length_singleton]
  have hfirst : false ∉ found.take 256 := by
    rw [List.take_left' List.length_replicate]
    exact fun hmem => absurd (List.eq_of_mem_replicate hmem) (by decide)
  have hone := checkAllTrue_zero_last 0 hfirst
  rw [hlength] at hone
  have hfound : (List.range 257).map (fun key => (table key).isSome) = found := by
    have hbelow : ∀ key ∈ List.range 256, (table key).isSome = true := by
      intro key hkey
      exact congrArg Option.isSome (if_pos (List.mem_range.mp hkey))
    rw [List.range_succ, List.map_append, List.map_congr_left hbelow, List.map_const',
      List.length_range]
    rfl
  refine ⟨?_, hone, ?_, ?_, rfl⟩
  · rw [hlength]
    decide
  · intro hall
    exact absurd (hall false (List.mem_append_right _ (List.mem_singleton_self _))) (by decide)
  · rw [multigetGpuOnly_eq, hfound]
    exact hone

end MlkvPlus.GPUTreeHkv
