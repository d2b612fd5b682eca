import MlkvPlus.Data.Interleaving
import Mathlib.Data.List.Nodup
import Mathlib.Data.List.Perm.Basic

namespace MlkvPlus

theorem Interleaves.perm {ι α : Type} [DecidableEq ι] {threads : ι → List α} {run : List α}
    (h : Interleaves threads run) {order : List ι} (hnodup : order.Nodup)
    (hrest : ∀ thread, thread ∉ order → threads thread = []) :
    run.Perm (order.flatMap threads) := by
  induction h with
  | done hended =>
    rw [List.flatMap_eq_nil_iff.mpr fun thread _ => hended thread]
  | @step threads moving action rest run hnext _ ih =>
    have hmoving : moving ∈ order := by
      by_contra hout
      rw [hrest moving hout] at hnext
      cases hnext
    have hsame : ∀ part : List ι, moving ∉ part →
        part.flatMap (Function.update threads moving rest) = part.flatMap threads := by
      intro part hpart
      refine List.flatMap_congr fun thread hthread => Function.update_of_ne ?_ ..
      rintro rfl
      exact hpart hthread
    have hperm := ih fun thread hthread => by
      have hne : thread ≠ moving := by
        rintro rfl
        exact hthread hmoving
      rw [Function.update_of_ne hne, hrest thread hthread]
    obtain ⟨before, after, rfl⟩ := List.append_of_mem hmoving
    have hsides := List.perm_middle.nodup_iff.mp hnodup
    rw [List.nodup_cons, List.mem_append, not_or] at hsides
    rw [List.flatMap_append, List.flatMap_cons, Function.update_self, hsame before hsides.1.1,
      hsame after hsides.1.2] at hperm
    rw [List.flatMap_append, List.flatMap_cons, hnext, List.cons_append]
    exact (hperm.cons action).trans List.perm_middle.symm

-- The indices that a loop takes from `start` on in steps of `stride`.
def strided (start stride bound : Nat) : List Nat :=
  List.range' start ((bound - start + stride - 1) / stride) stride

theorem mem_strided (hstride : 0 < stride) :
    index ∈ strided start stride bound ↔ index < bound ∧ ∃ round, index = start + stride * round := by
  rw [strided, List.mem_range']
  have hround : ∀ round, round < (bound - start + stride - 1) / stride ↔
      start + stride * round < bound := by
    intro round
    rw [← Nat.succ_le_iff, Nat.le_div_iff_mul_le hstride, Nat.succ_mul, Nat.mul_comm round]
    omega
  constructor
  · rintro ⟨round, hlt, rfl⟩
    exact ⟨(hround round).mp hlt, round, rfl⟩
  · rintro ⟨hlt, round, rfl⟩
    exact ⟨round, (hround round).mpr hlt, rfl⟩

-- The threads of a grid that all step by the size of the grid share the indices among them.
theorem strided_perm (hthreads : 0 < threads) (bound : Nat) :
    ((List.range threads).flatMap fun thread => strided thread threads bound).Perm
      (List.range bound) := by
  have hmod : ∀ {thread index : Nat}, thread < threads → index ∈ strided thread threads bound →
      index % threads = thread := by
    intro thread index hthread hindex
    obtain ⟨_, round, rfl⟩ := (mem_strided hthreads).mp hindex
    rw [Nat.add_mul_mod_self_left, Nat.mod_eq_of_lt hthread]
  refine (List.perm_ext_iff_of_nodup (List.nodup_flatMap.mpr ⟨fun thread _ => ?_, ?_⟩)
    List.nodup_range).mpr fun index => ?_
  · exact List.nodup_range' threads hthreads
  · refine List.nodup_range.imp_of_mem fun hfirst hsecond hne index hleft hright => hne ?_
    rw [← hmod (List.mem_range.mp hfirst) hleft, hmod (List.mem_range.mp hsecond) hright]
  · rw [List.mem_flatMap, List.mem_range]
    constructor
    · rintro ⟨thread, _, hindex⟩
      exact ((mem_strided hthreads).mp hindex).1
    · intro hlt
      refine ⟨index % threads, List.mem_range.mpr (Nat.mod_lt _ hthreads),
        (mem_strided hthreads).mpr ⟨hlt, index / threads, ?_⟩⟩
      rw [Nat.mod_add_div]

section GridStride

variable {α : Type}

theorem writeCells_of_not_mem (cells : Nat → α) (h : address ∉ writes.map Prod.fst) :
    writeCells cells writes address = cells address := by
  induction writes generalizing cells with
  | nil => rfl
  | cons write rest ih =>
    rw [List.map_cons, List.mem_cons, not_or] at h
    rw [writeCells_cons, ih _ h.2, Function.update_of_ne h.1]

theorem writeCells_of_mem (cells : Nat → α) (hnodup : (writes.map Prod.fst).Nodup)
    (hwrite : write ∈ writes) : writeCells cells writes write.1 = write.2 := by
  obtain ⟨before, after, rfl⟩ := List.append_of_mem hwrite
  rw [List.map_append, List.map_cons] at hnodup
  have hafter := (List.nodup_cons.mp hnodup.of_append_right).1
  rw [writeCells_append, writeCells_cons, writeCells_of_not_mem _ hafter, Function.update_self]

def gridStride (threads bound : Nat) (write : Nat → Nat × α) (thread : Nat) : List (Nat × α) :=
  if thread < threads then (strided thread threads bound).map write else []

-- Every order of the threads leaves the same when no two indices write the same cell.
theorem writeCells_gridStride (hrun : Interleaves (gridStride threads bound write) run)
    (hthreads : 0 < threads) (hwrite : ∀ i < bound, ∀ j < bound, (write i).1 = (write j).1 → i = j)
    (cells : Nat → α) {index : Nat} (hindex : index < bound) :
    writeCells cells run (write index).1 = (write index).2 := by
  have hperm : run.Perm ((List.range bound).map write) := by
    refine (hrun.perm (List.nodup_range (n := threads)) fun thread hthread =>
      if_neg fun hlt => hthread (List.mem_range.mpr hlt)).trans ?_
    refine List.Perm.trans (List.Perm.of_eq ?_) ((strided_perm hthreads bound).map write)
    rw [List.map_flatMap]
    exact List.flatMap_congr fun thread hthread => if_pos (List.mem_range.mp hthread)
  have hnodup : (run.map Prod.fst).Nodup := by
    rw [(hperm.map _).nodup_iff, List.map_map]
    refine List.nodup_range.map_on fun i hi j hj hsame => ?_
    exact hwrite i (List.mem_range.mp hi) j (List.mem_range.mp hj) hsame
  refine writeCells_of_mem cells hnodup (hperm.mem_iff.mpr ?_)
  exact List.mem_map_of_mem (List.mem_range.mpr hindex)

end GridStride

namespace Ranges

theorem cell_inj {size region other place slot : Nat} (hplace : place < size) (hslot : slot < size)
    (h : region * size + place = other * size + slot) : region = other ∧ place = slot := by
  have hregion : region = other := by
    have hdiv := congrArg (· / size) h
    simpa only [Nat.mul_comm _ size, Nat.mul_add_div (Nat.zero_lt_of_lt hplace),
      Nat.div_eq_of_lt hplace, Nat.div_eq_of_lt hslot, Nat.add_zero] using hdiv
  subst hregion
  exact ⟨rfl, Nat.add_left_cancel h⟩

-- A thread takes consecutive places of a region from an atomic counter, one for each of its
-- items, and then copies the items there.
inductive Action (ι α : Type) where
  | reserve (thread : ι) (region : Nat) (items : List α)
  | copy (thread : ι) (region offset : Nat) (item : α)

-- The regions stand behind each other, with `size` cells each.
structure State (ι α : Type) where
  count : Nat → Nat
  base : ι → Nat
  cells : Nat → α

variable {ι α : Type} [DecidableEq ι]

def step (size : Nat) (s : State ι α) : Action ι α → State ι α
  | .reserve thread region items => { s with
      count := Function.update s.count region (s.count region + items.length)
      base := Function.update s.base thread (s.count region) }
  | .copy thread region offset item => { s with
      cells := Function.update s.cells (region * size + (s.base thread + offset)) item }

theorem count_reserve (size : Nat) (s : State ι α) (thread : ι) (region : Nat) (items : List α) :
    (step size s (.reserve thread region items)).count =
      Function.update s.count region (s.count region + items.length) := rfl

theorem base_reserve (size : Nat) (s : State ι α) (thread : ι) (region : Nat) (items : List α) :
    (step size s (.reserve thread region items)).base =
      Function.update s.base thread (s.count region) := rfl

theorem cells_copy (size : Nat) (s : State ι α) (thread : ι) (region offset : Nat) (item : α) :
    (step size s (.copy thread region offset item)).cells =
      Function.update s.cells (region * size + (s.base thread + offset)) item := rfl

def copies (thread : ι) (region : Nat) (items : List α) : List (Action ι α) :=
  items.mapIdx fun offset item => .copy thread region offset item

omit [DecidableEq ι] in
theorem mem_copies {thread : ι} {region : Nat} {items : List α} {action : Action ι α} :
    action ∈ copies thread region items ↔
      ∃ (offset : Nat) (item : α), items[offset]? = some item ∧
        action = .copy thread region offset item := by
  rw [copies, List.mem_mapIdx]
  constructor
  · rintro ⟨offset, hlt, rfl⟩
    exact ⟨offset, _, List.getElem?_eq_getElem hlt, rfl⟩
  · rintro ⟨offset, item, hitem, rfl⟩
    obtain ⟨hlt, rfl⟩ := List.getElem?_eq_some_iff.mp hitem
    exact ⟨offset, hlt, rfl⟩

-- The copies that follow one reservation come in any order.
inductive Program (thread : ι) : List (Nat × List α) → List (Action ι α) → Prop where
  | done : Program thread [] []
  | flush {region : Nat} {items : List α} {copied actions : List (Action ι α)}
      {flushes : List (Nat × List α)} (hcopied : copied.Perm (copies thread region items))
      (hrest : Program thread flushes actions) :
      Program thread ((region, items) :: flushes)
        (.reserve thread region items :: (copied ++ actions))

-- The items an action brings to a region.
def Action.brings (region : Nat) : Action ι α → List α
  | .reserve _ other items => if other = region then items else []
  | .copy .. => []

def enlisted (region : Nat) (run : List (Action ι α)) : List α :=
  run.flatMap (Action.brings region)

def brought (region : Nat) (flushes : List (Nat × List α)) : List α :=
  flushes.flatMap fun flush => if flush.1 = region then flush.2 else []

theorem brought_append (region : Nat) (first second : List (Nat × List α)) :
    brought region (first ++ second) = brought region first ++ brought region second :=
  List.flatMap_append

theorem brought_map (contents : Nat → List α) {regions : List Nat} (hnodup : regions.Nodup)
    (region : Nat) :
    brought region (regions.map fun region => (region, contents region)) =
      if region ∈ regions then contents region else [] := by
  induction regions with
  | nil => rfl
  | cons first rest ih =>
    rw [List.nodup_cons] at hnodup
    have hrest := ih hnodup.2
    rw [brought] at hrest ⊢
    rw [List.map_cons, List.flatMap_cons, hrest]
    by_cases heq : first = region
    · subst heq
      rw [if_pos rfl, if_neg hnodup.1, if_pos List.mem_cons_self, List.append_nil]
    · rw [if_neg heq, List.nil_append]
      exact if_congr (by simp [Ne.symm heq]) rfl rfl

omit [DecidableEq ι] in
theorem Program.enlisted_eq {thread : ι} {flushes : List (Nat × List α)}
    {actions : List (Action ι α)} (h : Program thread flushes actions) (region : Nat) :
    enlisted region actions = brought region flushes := by
  induction h with
  | done => rfl
  | @flush other items copied actions flushes hcopied _ ih =>
    have hnone : copied.flatMap (Action.brings region) = [] := by
      refine List.flatMap_eq_nil_iff.mpr fun action haction => ?_
      obtain ⟨_, _, _, rfl⟩ := mem_copies.mp (hcopied.mem_iff.mp haction)
      rfl
    rw [enlisted] at ih ⊢
    rw [List.flatMap_cons, List.flatMap_append, hnone, List.nil_append, ih]
    rfl

def program (thread : ι) (flushes : List (Nat × List α)) : List (Action ι α) :=
  flushes.flatMap fun flush =>
    .reserve thread flush.1 flush.2 :: copies thread flush.1 flush.2

omit [DecidableEq ι] in
theorem program_isProgram (thread : ι) (flushes : List (Nat × List α)) :
    Program thread flushes (program thread flushes) := by
  induction flushes with
  | nil => exact .done
  | cons flush flushes ih => exact .flush (List.Perm.refl _) ih

-- What is left of a thread: the copies to the range it has, then further flushes.
structure Progress (s : State ι α) (owners : Nat → List α) (thread : ι)
    (pending remaining : List (Action ι α)) : Prop where
  place : ∀ action ∈ pending, ∃ region offset item, action = .copy thread region offset item ∧
    (owners region)[s.base thread + offset]? = some item
  later : ∃ flushes actions, Program thread flushes actions ∧ remaining = pending ++ actions

-- `owners` lists the items of each region in the order of their places.
structure Inv (size : Nat) (threads : ι → List (Action ι α)) (s : State ι α)
    (owners : Nat → List α) (pending : ι → List (Action ι α)) : Prop where
  count : ∀ region, s.count region = (owners region).length
  progress : ∀ thread, Progress s owners thread (pending thread) (threads thread)
  filled : ∀ region place item, (owners region)[place]? = some item →
    s.cells (region * size + place) = item ∨
      ∃ thread offset, place = s.base thread + offset ∧
        .copy thread region offset item ∈ pending thread

namespace Inv

variable {size : Nat} {threads : ι → List (Action ι α)} {s : State ι α} {owners : Nat → List α}
  {pending : ι → List (Action ι α)} {thread : ι}

theorem reserve (h : Inv size threads s owners pending) (hpending : pending thread = [])
    (hcopied : copied.Perm (copies thread region items)) (hrest : Program thread flushes actions) :
    Inv size (Function.update threads thread (copied ++ actions))
      (step size s (.reserve thread region items))
      (fun other => owners other ++ Action.brings other (.reserve thread region items))
      (Function.update pending thread copied) where
  count other := by
    rw [count_reserve, List.length_append, ← h.count other]
    by_cases heq : other = region
    · rw [heq, Function.update_self, Action.brings, if_pos rfl]
    · rw [Function.update_of_ne heq, Action.brings, if_neg (Ne.symm heq)]
      rfl
  progress other := by
    by_cases heq : other = thread
    · rw [heq, Function.update_self, Function.update_self]
      refine ⟨fun action haction => ?_, flushes, actions, hrest, rfl⟩
      obtain ⟨offset, item, hitem, rfl⟩ := mem_copies.mp (hcopied.mem_iff.mp haction)
      refine ⟨region, offset, item, rfl, ?_⟩
      rw [base_reserve, Function.update_self, h.count, Action.brings, if_pos rfl,
        List.getElem?_append_right (Nat.le_add_right ..), Nat.add_sub_cancel_left, hitem]
    · rw [Function.update_of_ne heq, Function.update_of_ne heq]
      refine ⟨fun action haction => ?_, (h.progress other).later⟩
      obtain ⟨place, offset, item, rfl, hitem⟩ := (h.progress other).place action haction
      refine ⟨place, offset, item, rfl, ?_⟩
      rw [base_reserve, Function.update_of_ne heq, List.getElem?_append_left
        (List.getElem?_eq_some_iff.mp hitem).1, hitem]
  filled other place item hitem := by
    by_cases hlt : place < (owners other).length
    · rw [List.getElem?_append_left hlt] at hitem
      refine (h.filled other place item hitem).imp_right ?_
      rintro ⟨member, offset, hplace, hmem⟩
      have hne : member ≠ thread := by
        rintro rfl
        rw [hpending] at hmem
        cases hmem
      refine ⟨member, offset, ?_, ?_⟩
      · rw [base_reserve, Function.update_of_ne hne, hplace]
      · rwa [Function.update_of_ne hne]
    · rw [List.getElem?_append_right (Nat.le_of_not_lt hlt), Action.brings] at hitem
      by_cases heq : region = other
      · rw [if_pos heq] at hitem
        refine .inr ⟨thread, place - (owners other).length, ?_, ?_⟩
        · rw [base_reserve, Function.update_self, h.count, heq]
          omega
        · rw [Function.update_self, ← heq]
          refine hcopied.mem_iff.mpr (mem_copies.mpr ⟨_, item, ?_, rfl⟩)
          rw [heq, hitem]
      · rw [if_neg heq] at hitem
        cases hitem

theorem copy {region offset : Nat} (h : Inv size threads s owners pending)
    (hsize : ∀ region, (owners region).length ≤ size)
    (hpending : pending thread = .copy thread region offset item :: rest)
    (hrest : Program thread flushes actions) :
    Inv size (Function.update threads thread (rest ++ actions))
      (step size s (.copy thread region offset item)) owners
      (Function.update pending thread rest) where
  count := h.count
  progress other := by
    by_cases heq : other = thread
    · rw [heq, Function.update_self, Function.update_self]
      refine ⟨fun action haction => ?_, flushes, actions, hrest, rfl⟩
      exact (h.progress thread).place action (by rw [hpending]; exact List.mem_cons_of_mem _ haction)
    · rw [Function.update_of_ne heq, Function.update_of_ne heq]
      exact ⟨(h.progress other).place, (h.progress other).later⟩
  filled other place value hvalue := by
    obtain ⟨_, _, _, hsame, hitem⟩ := (h.progress thread).place (.copy thread region offset item)
      (by rw [hpending]; exact List.mem_cons_self)
    cases hsame
    have hlt := (List.getElem?_eq_some_iff.mp hitem).1
    have hplace := (List.getElem?_eq_some_iff.mp hvalue).1
    rw [cells_copy]
    by_cases hcell : other * size + place = region * size + (s.base thread + offset)
    · -- one place has one item
      obtain ⟨rfl, rfl⟩ := cell_inj (Nat.lt_of_lt_of_le hplace (hsize other))
        (Nat.lt_of_lt_of_le hlt (hsize region)) hcell
      rw [hitem] at hvalue
      left
      rw [hcell, Function.update_self, Option.some.inj hvalue]
    · rw [Function.update_of_ne hcell]
      refine (h.filled other place value hvalue).imp_right ?_
      rintro ⟨member, slot, hslot, hmem⟩
      refine ⟨member, slot, hslot, ?_⟩
      by_cases heq : member = thread
      · rw [heq, Function.update_self]
        rw [heq, hpending] at hmem
        rcases List.mem_cons.mp hmem with hnow | hlater
        · cases hnow
          rw [heq] at hslot
          exact absurd (by rw [hslot]) hcell
        · exact hlater
      · rwa [Function.update_of_ne heq]

theorem next (h : Inv size threads s owners pending)
    (hsize : ∀ region, (owners region).length ≤ size) (hnext : threads thread = action :: rest) :
    ∃ pending', Inv size (Function.update threads thread rest) (step size s action)
      (fun region => owners region ++ Action.brings region action) pending' := by
  obtain ⟨hplace, flushes, actions, hprogram, hremaining⟩ := h.progress thread
  rw [hnext] at hremaining
  cases hpending : pending thread with
  | nil =>
    rw [hpending, List.nil_append] at hremaining
    subst hremaining
    cases hprogram with
    | flush hcopied hrest => exact ⟨_, h.reserve hpending hcopied hrest⟩
  | cons first later =>
    obtain ⟨region, offset, item, rfl, _⟩ :=
      hplace first (by rw [hpending]; exact List.mem_cons_self)
    rw [hpending, List.cons_append] at hremaining
    cases hremaining
    have hkept : (fun other => owners other ++
        Action.brings other (.copy thread region offset item)) = owners :=
      funext fun other => List.append_nil _
    rw [hkept]
    exact ⟨_, h.copy hsize hpending hprogram⟩

end Inv

theorem count_foldl_step (size : Nat) (run : List (Action ι α)) (s : State ι α) (region : Nat) :
    (run.foldl (step size) s).count region = s.count region + (enlisted region run).length := by
  induction run generalizing s with
  | nil => rfl
  | cons action rest ih =>
    rw [List.foldl_cons, ih, enlisted, enlisted, List.flatMap_cons, List.length_append,
      ← Nat.add_assoc]
    refine congrArg (· + _) ?_
    cases action with
    | reserve thread other items =>
      rw [count_reserve, Function.update_apply, Action.brings]
      by_cases heq : region = other
      · rw [if_pos heq, if_pos heq.symm, heq]
      · rw [if_neg heq, if_neg (Ne.symm heq)]
        rfl
    | copy => rfl

-- When all threads are done, every region holds the items brought to it, in the order of the
-- reservations, and its counter is their number.
theorem foldl_step {flushes : ι → List (Nat × List α)} (hrun : Interleaves threads run)
    (hprograms : ∀ thread, Program thread (flushes thread) (threads thread))
    (hsize : ∀ region, (enlisted region run).length ≤ size) (s : State ι α)
    (hcount : ∀ region, s.count region = 0) (region : Nat) :
    (run.foldl (step size) s).count region = (enlisted region run).length ∧
      ∀ place item, (enlisted region run)[place]? = some item →
        (run.foldl (step size) s).cells (region * size + place) = item := by
  have hstart : Inv size threads s (fun _ => []) (fun _ => []) := by
    refine ⟨hcount, fun thread => ⟨List.forall_mem_nil _, flushes thread, threads thread,
      hprograms thread, rfl⟩, ?_⟩
    intro _ _ _ hnone
    cases hnone
  suffices hall : ∀ {threads : ι → List (Action ι α)} {run : List (Action ι α)},
      Interleaves threads run → ∀ (s : State ι α) (owners : Nat → List α)
        (pending : ι → List (Action ι α)), Inv size threads s owners pending →
        (∀ region, (owners region ++ enlisted region run).length ≤ size) →
        (run.foldl (step size) s).count region = (owners region ++ enlisted region run).length ∧
          ∀ place item, (owners region ++ enlisted region run)[place]? = some item →
            (run.foldl (step size) s).cells (region * size + place) = item by
    simpa only [List.nil_append] using hall hrun s (fun _ => []) (fun _ => []) hstart hsize
  intro threads run hrun
  induction hrun with
  | done hended =>
    intro s owners pending hinv _
    rw [enlisted, List.flatMap_nil, List.append_nil]
    refine ⟨hinv.count region, fun place item hitem => ?_⟩
    rcases hinv.filled region place item hitem with hcell | ⟨thread, offset, _, hmem⟩
    · exact hcell
    · obtain ⟨_, _, _, _, hremaining⟩ := hinv.progress thread
      rw [hended thread] at hremaining
      rw [(List.append_eq_nil_iff.mp hremaining.symm).1] at hmem
      cases hmem
  | @step threads thread action rest run hnext _ ih =>
    intro s owners pending hinv hsize
    have howners : ∀ region, (owners region).length ≤ size := fun region =>
      Nat.le_trans (by rw [List.length_append]; exact Nat.le_add_right ..) (hsize region)
    obtain ⟨pending', hinv'⟩ := hinv.next howners hnext
    have hlist : ∀ region, owners region ++ enlisted region (action :: run) =
        owners region ++ Action.brings region action ++ enlisted region run := by
      intro region
      rw [enlisted, List.flatMap_cons, List.append_assoc]
      rfl
    rw [List.foldl_cons, hlist region]
    exact ih _ _ pending' hinv' fun region => by rw [← hlist]; exact hsize region

-- The items of a region are those its threads bring, whatever the order of the steps.
theorem enlisted_perm {threads : ι → List (Action ι α)} {run : List (Action ι α)}
    {flushes : ι → List (Nat × List α)} (hrun : Interleaves threads run)
    (hprograms : ∀ thread, Program thread (flushes thread) (threads thread)) {order : List ι}
    (hnodup : order.Nodup) (hrest : ∀ thread, thread ∉ order → flushes thread = [])
    (region : Nat) :
    (enlisted region run).Perm (order.flatMap fun thread => brought region (flushes thread)) := by
  have hidle : ∀ thread, thread ∉ order → threads thread = [] := by
    intro thread hthread
    have hprogram := hprograms thread
    rw [hrest thread hthread] at hprogram
    generalize threads thread = actions at hprogram
    cases hprogram
    rfl
  refine ((hrun.perm hnodup hidle).flatMap_right _).trans (List.Perm.of_eq ?_)
  rw [List.flatMap_assoc]
  exact List.flatMap_congr fun thread _ => (hprograms thread).enlisted_eq region

end Ranges

end MlkvPlus
