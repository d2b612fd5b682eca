import MlkvPlus.Data.Memory
import Mathlib.Logic.Function.Basic

namespace MlkvPlus

-- The runs of several threads: in every step one of them does its next action.
inductive Interleaves {ι α : Type} [DecidableEq ι] : (ι → List α) → List α → Prop where
  | done {threads : ι → List α} (h : ∀ thread, threads thread = []) : Interleaves threads []
  | step {threads : ι → List α} {thread : ι} {action : α} {rest run : List α}
      (hnext : threads thread = action :: rest)
      (hrun : Interleaves (Function.update threads thread rest) run) :
      Interleaves threads (action :: run)

namespace Interleaves

variable {ι α σ : Type} [DecidableEq ι] {threads : ι → List α} {run : List α}

-- What holds at the start and is kept by every action of every thread holds when all are done.
theorem invariant {step : σ → α → σ} (inv : (ι → List α) → σ → Prop)
    (hstep : ∀ threads s thread action rest, inv threads s → threads thread = action :: rest →
      inv (Function.update threads thread rest) (step s action))
    (h : Interleaves threads run) (s : σ) (hinv : inv threads s) :
    ∃ ended, (∀ thread, ended thread = []) ∧ inv ended (run.foldl step s) := by
  induction h generalizing s with
  | done hended => exact ⟨_, hended, hinv⟩
  | step hnext _ ih => exact ih _ (hstep _ _ _ _ _ hinv hnext)

theorem mem (h : Interleaves threads run) (haction : action ∈ run) :
    ∃ thread, action ∈ threads thread := by
  induction h with
  | done _ => cases haction
  | @step threads moving next rest run hnext _ ih =>
    rcases List.mem_cons.mp haction with rfl | hrest
    · exact ⟨moving, by rw [hnext]; exact List.mem_cons_self ..⟩
    · obtain ⟨thread, hthread⟩ := ih hrest
      by_cases heq : thread = moving
      · rw [heq, Function.update_self] at hthread
        exact ⟨moving, by rw [hnext]; exact List.mem_cons_of_mem _ hthread⟩
      · rw [Function.update_of_ne heq] at hthread
        exact ⟨thread, hthread⟩

theorem map {β : Type} (rename : α → β) (h : Interleaves threads run) :
    Interleaves (fun thread => (threads thread).map rename) (run.map rename) := by
  induction h with
  | done hended => exact .done fun thread => by rw [hended thread, List.map_nil]
  | @step threads moving action rest run hnext _ ih =>
    refine .step (by rw [hnext, List.map_cons]) ?_
    have hupdate : (fun thread => (Function.update threads moving rest thread).map rename) =
        Function.update (fun thread => (threads thread).map rename) moving
          (rest.map rename) := by
      funext thread
      by_cases heq : thread = moving
      · rw [heq, Function.update_self, Function.update_self]
      · rw [Function.update_of_ne heq, Function.update_of_ne heq]
    rwa [hupdate] at ih

-- Actions that only one thread has come in the order of that thread.
theorem filter_eq (h : Interleaves threads run) (keep : α → Bool) (thread : ι)
    (hother : ∀ other, other ≠ thread → ∀ action ∈ threads other, keep action = false) :
    run.filter keep = (threads thread).filter keep := by
  induction h with
  | done hended => rw [hended thread, List.filter_nil]
  | @step threads moving action rest run hnext _ ih =>
    have hrest : ∀ other, other ≠ thread →
        ∀ action ∈ Function.update threads moving rest other, keep action = false := by
      intro other hne action hmem
      by_cases heq : other = moving
      · rw [heq, Function.update_self] at hmem
        exact hother other hne action (by rw [heq, hnext]; exact List.mem_cons_of_mem _ hmem)
      · rw [Function.update_of_ne heq] at hmem
        exact hother other hne action hmem
    rw [List.filter_cons, ih hrest]
    by_cases heq : moving = thread
    · rw [← heq, Function.update_self, hnext, List.filter_cons]
    · have hdropped := hother moving heq action (by rw [hnext]; exact List.mem_cons_self ..)
      rw [Function.update_of_ne (Ne.symm heq), hdropped]
      rfl

theorem foldl_congr_view {β : Type} {step : σ → α → σ} {view : σ → β} {actions : List α}
    (hown : ∀ action ∈ actions, ∀ s t, view s = view t → view (step s action) = view (step t action))
    {s t : σ} (h : view s = view t) : view (actions.foldl step s) = view (actions.foldl step t) := by
  induction actions generalizing s t with
  | nil => exact h
  | cons action rest ih =>
    have hrest := fun other hother => hown other (List.mem_cons_of_mem _ hother)
    exact ih hrest (hown action List.mem_cons_self s t h)

-- A part of the state that one thread alone changes, and that its actions depend on alone, is as
-- that thread leaves it.
theorem foldl_view {β : Type} (step : σ → α → σ) (view : σ → β) (h : Interleaves threads run)
    (thread : ι)
    (hother : ∀ other, other ≠ thread → ∀ action ∈ threads other, ∀ s,
      view (step s action) = view s)
    (hown : ∀ action ∈ threads thread, ∀ s t, view s = view t →
      view (step s action) = view (step t action)) (s : σ) :
    view (run.foldl step s) = view ((threads thread).foldl step s) := by
  induction h generalizing s with
  | done hended => rw [hended thread]
  | @step threads moving action rest run hnext _ ih =>
    have hsubset : ∀ other, Function.update threads moving rest other ⊆ threads other := by
      intro other
      by_cases heq : other = moving
      · rw [heq, Function.update_self, hnext]
        exact List.subset_cons_self ..
      · rw [Function.update_of_ne heq]
        exact List.Subset.refl _
    rw [List.foldl_cons, ih (fun other hne next hmem => hother other hne next (hsubset other hmem))
      fun next hmem => hown next (hsubset thread hmem)]
    by_cases heq : moving = thread
    · rw [← heq, Function.update_self, hnext, List.foldl_cons]
    · rw [Function.update_of_ne (Ne.symm heq)]
      refine foldl_congr_view hown (hother moving heq action ?_ s)
      rw [hnext]
      exact List.mem_cons_self

theorem inOrder (order : List ι) (hnodup : order.Nodup)
    (hrest : ∀ thread, thread ∉ order → threads thread = []) :
    Interleaves threads (order.flatMap threads) := by
  induction order generalizing threads with
  | nil => exact .done fun thread => hrest thread (List.not_mem_nil)
  | cons first order ih =>
    obtain ⟨hfirst, hnodup⟩ := List.nodup_cons.mp hnodup
    generalize hactions : threads first = actions
    induction actions generalizing threads with
    | nil =>
      rw [List.flatMap_cons, hactions, List.nil_append]
      refine ih hnodup fun thread hthread => ?_
      by_cases heq : thread = first
      · rw [heq, hactions]
      · exact hrest thread (by simp [heq, hthread])
    | cons action actions ihActions =>
      have hsame : order.flatMap (Function.update threads first actions) =
          order.flatMap threads := by
        rw [List.flatMap_def, List.flatMap_def]
        refine congrArg List.flatten (List.map_congr_left fun thread hthread => ?_)
        have hne : thread ≠ first := by
          rintro rfl
          exact hfirst hthread
        exact Function.update_of_ne hne ..
      have hrun := @ihActions (Function.update threads first actions)
        (fun thread hthread => by
          rw [Function.update_of_ne (fun heq => hthread (by simp [heq]))]
          exact hrest thread hthread)
        (Function.update_self ..)
      rw [List.flatMap_cons, Function.update_self, hsame] at hrun
      rw [List.flatMap_cons, hactions, List.cons_append]
      exact .step hactions hrun

end Interleaves

-- The grid for one thread per element, in blocks of 256 threads. The sum is a `size_t`, and the
-- grid has 32 bits.
def gridSize (count : Nat) : Nat :=
  (count + 255) % 2 ^ 64 / 256 % 2 ^ 32

-- A grid of no block or of more than 2^31 - 1 blocks is refused.
def launchedBlocks (count : Nat) : Nat :=
  if gridSize count < 2 ^ 31 then gridSize count else 0

-- The threads of a launch, counted through all blocks. A thread knows itself by
-- blockIdx.x * blockDim.x + threadIdx.x, which is computed in 32 bits.
def launch {α : Type} (count : Nat) (kernel : (thread index : Nat) → List α) (thread : Nat) :
    List α :=
  if thread < launchedBlocks count * 256 then kernel thread (thread % 2 ^ 32) else []

theorem launchedBlocks_eq (hcount : count ≤ 2 ^ 32) :
    launchedBlocks count = (count + 255) / 256 := by
  have hgrid : gridSize count = (count + 255) / 256 := by
    rw [gridSize]
    omega
  rw [launchedBlocks, hgrid, if_pos (by omega)]

section Launch

variable {α : Type} {count thread : Nat} {kernel : (thread index : Nat) → List α}

theorem launch_of_lt (hcount : count ≤ 2 ^ 32) (hthread : thread < count) :
    launch count kernel thread = kernel thread thread := by
  rw [launch, launchedBlocks_eq hcount, if_pos (by omega), Nat.mod_eq_of_lt (by omega)]

theorem launch_of_idle (hcount : count ≤ 2 ^ 32)
    (hidle : thread < (count + 255) / 256 * 256 → kernel thread thread = []) :
    launch count kernel thread = [] := by
  rw [launch, launchedBlocks_eq hcount]
  split
  case isTrue hlt => rw [Nat.mod_eq_of_lt (by omega), hidle hlt]
  case isFalse => rfl

theorem launch_inOrder (count : Nat) (kernel : (thread index : Nat) → List α) :
    Interleaves (launch count kernel)
      ((List.range (launchedBlocks count * 256)).flatMap (launch count kernel)) :=
  .inOrder _ List.nodup_range fun _ hthread => if_neg (fun hlt => hthread (List.mem_range.mpr hlt))

end Launch

section Writes

variable {α : Type}

-- Single writes to an array, in the order in which they happen.
def writeCells (cells : Nat → α) (writes : List (Nat × α)) : Nat → α :=
  writes.foldl (fun cells write => Function.update cells write.1 write.2) cells

@[simp] theorem writeCells_cons (cells : Nat → α) (write : Nat × α) (rest : List (Nat × α)) :
    writeCells cells (write :: rest) =
      writeCells (Function.update cells write.1 write.2) rest := rfl

theorem writeCells_append (cells : Nat → α) (first second : List (Nat × α)) :
    writeCells cells (first ++ second) = writeCells (writeCells cells first) second :=
  List.foldl_append

theorem Interleaves.writeCells_eq {ι : Type} [DecidableEq ι] {threads : ι → List (Nat × α)}
    (h : Interleaves threads run) (cells : Nat → α) (thread : ι) (index : Nat)
    (hother : ∀ other, other ≠ thread → ∀ write ∈ threads other, write.1 ≠ index) :
    writeCells cells run index = writeCells cells (threads thread) index := by
  refine h.foldl_view _ (fun cells => cells index) thread ?_ ?_ cells
  · intro other hne write hmem cells
    exact Function.update_of_ne (Ne.symm (hother other hne write hmem)) ..
  · intro write _ cells cells' hsame
    by_cases heq : index = write.1
    · rw [heq, Function.update_self, Function.update_self]
    · rw [Function.update_of_ne heq, Function.update_of_ne heq, hsame]

-- Writes to consecutive cells.
def writesAt (start : Nat) : List α → List (Nat × α)
  | [] => []
  | value :: rest => (start, value) :: writesAt (start + 1) rest

theorem fst_writesAt (start : Nat) (data : List α) :
    (writesAt start data).map Prod.fst = List.range' start data.length := by
  induction data generalizing start with
  | nil => rfl
  | cons value rest ih =>
    rw [writesAt, List.map_cons, ih, List.length_cons, List.range'_succ]

end Writes

namespace Memory

theorem writeCells_writesAt (memory : Memory) (start : Nat) (data : Bytes) :
    writeCells memory (writesAt start data) = memory.store start data := by
  induction data generalizing memory start with
  | nil =>
    funext address
    exact (if_neg (by rw [List.length_nil]; omega)).symm
  | cons byte rest ih =>
    rw [writesAt, writeCells_cons, ih]
    funext address
    simp only [store, List.length_cons]
    by_cases heq : address = start
    · subst heq
      rw [if_neg (by omega), if_pos (by omega), Function.update_self, Nat.sub_self]
      rfl
    · rw [Function.update_of_ne heq]
      by_cases hin : start + 1 ≤ address ∧ address < start + 1 + rest.length
      · rw [if_pos hin, if_pos (by omega),
          show address - start = address - (start + 1) + 1 by omega, List.getD_cons_succ]
      · rw [if_neg hin, if_neg (by omega)]

theorem read_of_interleaves {ι : Type} [DecidableEq ι] {threads : ι → List (Nat × UInt8)}
    (h : Interleaves threads run) (memory : Memory) (thread : ι) (start length : Nat)
    (hother : ∀ other, other ≠ thread →
      ∀ write ∈ threads other, write.1 < start ∨ start + length ≤ write.1) :
    Memory.read (writeCells memory run) start length =
      Memory.read (writeCells memory (threads thread)) start length := by
  apply List.map_congr_left
  intro index hindex
  rw [List.mem_range] at hindex
  refine h.writeCells_eq memory thread (start + index) fun other hne write hmem => ?_
  have hbounds := hother other hne write hmem
  omega

end Memory

end MlkvPlus
