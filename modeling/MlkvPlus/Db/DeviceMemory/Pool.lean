import MlkvPlus.Data.Ownership
import Mathlib.Data.List.Range
import Mathlib.Algebra.BigOperators.Group.List.Basic

namespace MlkvPlus.DeviceMemory

open Ownership

-- Calls whose failure is looked at, and calls whose failure is not.
def cudaMalloc (fails : Nat → Bool) : Program (Option Nat) := do
  if ← succeeds fails then return some (← allocate) else return none

def cudaFree (pointer : Nat) : Program Unit := do
  let _ ← release pointer

def cudaFreeAll : List Nat → Program Unit
  | [] => pure ()
  | pointer :: pointers => do
      cudaFree pointer
      cudaFreeAll pointers

-- The fields of a buffer that are not null. They are set in the order d_keys, d_values,
-- d_values_out, d_found, d_all_true, and those after a failed allocation stay null.
abbrev PoolBuffer := List Nat

def bufferFields : Nat := 5

def PoolBuffer.usable (buffer : PoolBuffer) : Bool := buffer.length = bufferFields

-- The fields that are left. A failure frees the earlier ones, and leaves them set.
def initFields (fails : Nat → Bool) : Nat → PoolBuffer → Program PoolBuffer
  | 0, buffer => pure buffer
  | left + 1, buffer => do
      match ← cudaMalloc fails with
      | none =>
        cudaFreeAll buffer
        pure buffer
      | some pointer => initFields fails left (buffer ++ [pointer])

def initBuffers (fails : Nat → Bool) : Nat → Program (List PoolBuffer)
  | 0 => pure []
  | left + 1 => do
      let buffer ← initFields fails bufferFields []
      let buffers ← initBuffers fails left
      pure (buffer :: buffers)

def initDeviceBuffers (fails : Nat → Bool) (numBuffers : Nat) : Program (List PoolBuffer) :=
  initBuffers fails (max numBuffers 2)

def freeDeviceBuffers : List PoolBuffer → Program Unit
  | [] => pure ()
  | buffer :: buffers => do
      cudaFreeAll buffer
      freeDeviceBuffers buffers

def poolMemory (buffers : List PoolBuffer) : Multiset Nat :=
  ((buffers.filter PoolBuffer.usable).flatten : List Nat)

-- The pointers that were freed when their buffer could not be completed.
def stale (buffers : List PoolBuffer) : List Nat :=
  (buffers.filter fun buffer => !buffer.usable).flatten

section Frees

variable {pointers : List Nat}

theorem cudaFreeAll_owned (heap : Heap) (frame : Multiset Nat)
    (hlive : heap.live = frame + (pointers : Multiset Nat)) :
    cudaFreeAll pointers heap = .ok () { heap with live := frame } := by
  induction pointers generalizing heap with
  | nil =>
    rw [Multiset.coe_nil, add_zero] at hlive
    rw [← hlive]
    rfl
  | cons pointer pointers ih =>
    rw [← Multiset.cons_coe, Multiset.add_cons] at hlive
    have hmem : pointer ∈ heap.live := hlive ▸ Multiset.mem_cons_self ..
    have hfree : cudaFree pointer heap =
        .ok () { heap with live := frame + (pointers : Multiset Nat) } := by
      refine (bind_ok (if_pos hmem)).trans ?_
      rw [hlive, Multiset.erase_cons_head]
      rfl
    exact (bind_ok hfree).trans (ih _ rfl)

theorem cudaFreeAll_stale (heap : Heap) (hstale : ∀ pointer ∈ pointers, pointer ∉ heap.live) :
    cudaFreeAll pointers heap =
      .ok () { heap with mistakes := heap.mistakes + pointers.length } := by
  induction pointers generalizing heap with
  | nil => rfl
  | cons pointer pointers ih =>
    have hfree : cudaFree pointer heap =
        .ok () { heap with mistakes := heap.mistakes + 1 } :=
      bind_ok (if_neg (hstale pointer List.mem_cons_self))
    have hrest := ih { heap with mistakes := heap.mistakes + 1 } fun other hother =>
      hstale other (List.mem_cons_of_mem _ hother)
    rw [Nat.add_assoc, Nat.add_comm 1] at hrest
    exact (bind_ok hfree).trans hrest

end Frees

section Buffers

variable {buffer : PoolBuffer} {buffers : List PoolBuffer}

theorem poolMemory_usable (h : buffer.usable = true) :
    poolMemory (buffer :: buffers) = poolMemory buffers + (buffer : Multiset Nat) := by
  rw [poolMemory, List.filter_cons_of_pos h, List.flatten_cons, ← Multiset.coe_add, add_comm]
  rfl

theorem poolMemory_unusable (h : ¬buffer.usable = true) :
    poolMemory (buffer :: buffers) = poolMemory buffers := by
  rw [poolMemory, List.filter_cons_of_neg h]
  rfl

theorem stale_usable (h : buffer.usable = true) : stale (buffer :: buffers) = stale buffers := by
  rw [stale, List.filter_cons_of_neg (by rw [h]; decide)]
  rfl

theorem stale_unusable (h : ¬buffer.usable = true) :
    stale (buffer :: buffers) = buffer ++ stale buffers := by
  have hunusable : (!buffer.usable) = true := by simpa using h
  rw [stale, List.filter_cons, if_pos hunusable, List.flatten_cons]
  rfl

theorem mem_of_mem_poolMemory (h : pointer ∈ poolMemory buffers) :
    ∃ buffer ∈ buffers, pointer ∈ buffer := by
  obtain ⟨buffer, hbuffer, hpointer⟩ := List.mem_flatten.mp (Multiset.mem_coe.mp h)
  exact ⟨buffer, List.mem_of_mem_filter hbuffer, hpointer⟩

theorem mem_of_mem_stale (h : pointer ∈ stale buffers) : ∃ buffer ∈ buffers, pointer ∈ buffer := by
  obtain ⟨buffer, hbuffer, hpointer⟩ := List.mem_flatten.mp h
  exact ⟨buffer, List.mem_of_mem_filter hbuffer, hpointer⟩

end Buffers

theorem initFields_spec (fails : Nat → Bool) (left : Nat) (buffer : PoolBuffer) (heap : Heap)
    (frame : Multiset Nat) (hlive : heap.live = frame + (buffer : Multiset Nat)) :
    ∃ count after, count ≤ left ∧ (count ≠ left → ∃ call, fails call = true) ∧
      initFields fails left buffer heap = .ok (buffer ++ List.range' heap.next count) after ∧
      after.next = heap.next + count ∧ after.mistakes = heap.mistakes ∧
      after.live = if count = left
        then frame + ((buffer ++ List.range' heap.next count : List Nat) : Multiset Nat)
        else frame := by
  induction left generalizing buffer heap with
  | zero =>
    refine ⟨0, heap, le_rfl, (absurd rfl ·), ?_, rfl, rfl, ?_⟩
    · rw [List.range'_zero, List.append_nil]
      rfl
    · rw [if_pos rfl, List.range'_zero, List.append_nil, hlive]
  | succ left ih =>
    cases hfails : fails heap.calls with
    | true =>
      have hmalloc : cudaMalloc fails heap =
          .ok none { heap with calls := heap.calls + 1 } := by
        refine (bind_ok rfl).trans ?_
        rw [hfails]
        rfl
      have hfree := cudaFreeAll_owned { heap with calls := heap.calls + 1 } frame hlive
      refine ⟨0, ⟨heap.next, frame, heap.mistakes, heap.calls + 1⟩, Nat.zero_le _,
        fun _ => ⟨heap.calls, hfails⟩, (bind_ok hmalloc).trans ((bind_ok hfree).trans ?_), rfl, rfl, ?_⟩
      · rw [List.range'_zero, List.append_nil]
        rfl
      · rw [if_neg (Nat.succ_ne_zero left).symm]
    | false =>
      have hmalloc : cudaMalloc fails heap = .ok (some heap.next)
          ⟨heap.next + 1, heap.next ::ₘ heap.live, heap.mistakes, heap.calls + 1⟩ := by
        refine (bind_ok rfl).trans ?_
        rw [hfails]
        rfl
      have hnext : heap.next ::ₘ heap.live =
          frame + ((buffer ++ [heap.next] : List Nat) : Multiset Nat) := by
        rw [hlive, ← Multiset.coe_add, Multiset.coe_singleton, ← add_assoc,
          ← Multiset.singleton_add, add_comm]
      obtain ⟨count, after, hcount, hfailed, hrun, hafter, hmistakes, hheld⟩ :=
        ih (buffer ++ [heap.next]) ⟨heap.next + 1, _, heap.mistakes, heap.calls + 1⟩ hnext
      have hfields : buffer ++ [heap.next] ++ List.range' (heap.next + 1) count =
          buffer ++ List.range' heap.next (count + 1) := by
        rw [List.append_assoc, List.range'_succ]
        rfl
      dsimp only at hrun hafter hheld
      rw [hfields] at hrun hheld
      refine ⟨count + 1, after, Nat.succ_le_succ hcount, fun hne => hfailed (by omega),
        (bind_ok hmalloc).trans hrun, ?_, hmistakes, ?_⟩
      · rw [hafter, Nat.add_assoc, Nat.add_comm 1]
      · simpa only [Nat.succ.injEq, Nat.add_right_cancel_iff] using hheld

theorem initFields_buffer (fails : Nat → Bool) (heap : Heap) :
    ∃ buffer after, initFields fails bufferFields [] heap = .ok buffer after ∧
      heap.next ≤ after.next ∧ (∀ pointer ∈ buffer, heap.next ≤ pointer ∧ pointer < after.next) ∧
      (buffer.usable = true ∨ ∃ call, fails call = true) ∧
      after.mistakes = heap.mistakes ∧ after.live = heap.live + poolMemory [buffer] := by
  obtain ⟨count, after, hcount, hfailed, hrun, hnext, hmistakes, hlive⟩ :=
    initFields_spec fails bufferFields [] heap heap.live (add_zero _).symm
  have husable : PoolBuffer.usable (List.range' heap.next count) = true ↔ count = bufferFields := by
    rw [PoolBuffer.usable, decide_eq_true_iff, List.length_range']
  refine ⟨List.range' heap.next count, after, hrun, by omega, fun pointer hpointer => ?_,
    (em (count = bufferFields)).imp husable.mpr hfailed, hmistakes, ?_⟩
  · have hrange := List.mem_range'_1.mp hpointer
    omega
  · by_cases hall : count = bufferFields
    · rw [hlive, if_pos hall, poolMemory_usable (husable.mpr hall)]
      rfl
    · rw [hlive, if_neg hall, poolMemory_unusable (mt husable.mp hall)]
      exact (add_zero _).symm

-- What a pool holds between two states of the allocator.
structure Pooled (first last : Nat) (buffers : List PoolBuffer) : Prop where
  le : first ≤ last
  fresh : ∀ buffer ∈ buffers, ∀ pointer ∈ buffer, first ≤ pointer ∧ pointer < last
  apart : ∀ pointer ∈ stale buffers, pointer ∉ poolMemory buffers

theorem Pooled.cons (hle : first ≤ middle)
    (hbuffer : ∀ pointer ∈ buffer, first ≤ pointer ∧ pointer < middle)
    (h : Pooled middle last buffers) : Pooled first last (buffer :: buffers) := by
  refine ⟨hle.trans h.le, ?_, ?_⟩
  · intro other hother pointer hpointer
    obtain rfl | hother := List.mem_cons.mp hother
    · exact ⟨(hbuffer pointer hpointer).1, (hbuffer pointer hpointer).2.trans_le h.le⟩
    · have hfresh := h.fresh other hother pointer hpointer
      exact ⟨hle.trans hfresh.1, hfresh.2⟩
  · intro pointer hstale hmemory
    by_cases husable : buffer.usable = true
    · rw [stale_usable husable] at hstale
      rw [poolMemory_usable husable] at hmemory
      obtain hmemory | hmemory := Multiset.mem_add.mp hmemory
      · exact h.apart pointer hstale hmemory
      · obtain ⟨other, hother, hpointer⟩ := mem_of_mem_stale hstale
        have hfirst := (h.fresh other hother pointer hpointer).1
        exact absurd (hbuffer pointer (Multiset.mem_coe.mp hmemory)).2 (not_lt_of_ge hfirst)
    · rw [stale_unusable husable] at hstale
      rw [poolMemory_unusable husable] at hmemory
      obtain hstale | hstale := List.mem_append.mp hstale
      · obtain ⟨other, hother, hpointer⟩ := mem_of_mem_poolMemory hmemory
        have hfirst := (h.fresh other hother pointer hpointer).1
        exact absurd (hbuffer pointer hstale).2 (not_lt_of_ge hfirst)
      · exact h.apart pointer hstale hmemory

theorem initBuffers_pooled (fails : Nat → Bool) (count : Nat) (heap : Heap) :
    ∃ buffers after, initBuffers fails count heap = .ok buffers after ∧
      buffers.length = count ∧ Pooled heap.next after.next buffers ∧
      (∀ buffer ∈ buffers, buffer.usable = true ∨ ∃ call, fails call = true) ∧
      after.mistakes = heap.mistakes ∧ after.live = heap.live + poolMemory buffers := by
  induction count generalizing heap with
  | zero =>
    refine ⟨[], heap, rfl, rfl, ⟨le_rfl, ?_, ?_⟩, ?_, rfl, (add_zero _).symm⟩
    · exact fun _ h => absurd h List.not_mem_nil
    · exact fun _ h => absurd h List.not_mem_nil
    · exact fun _ h => absurd h List.not_mem_nil
  | succ count ih =>
    obtain ⟨buffer, middle, hbuffer, hle, hfresh, husable, hmistakes, hlive⟩ :=
      initFields_buffer fails heap
    obtain ⟨buffers, after, hbuffers, hlength, hpooled, husables, hrest, hafter⟩ := ih middle
    refine ⟨buffer :: buffers, after, (bind_ok hbuffer).trans (bind_ok hbuffers),
      by rw [List.length_cons, hlength], .cons hle hfresh hpooled,
      List.forall_mem_cons.mpr ⟨husable, husables⟩, hrest.trans hmistakes, ?_⟩
    rw [hafter, hlive, add_assoc]
    by_cases hall : buffer.usable = true
    · rw [poolMemory_usable hall, poolMemory_usable hall, add_comm (poolMemory buffers)]
      rfl
    · rw [poolMemory_unusable hall, poolMemory_unusable hall]
      exact congrArg _ (zero_add _)

-- The destructor does not know which buffers were given up.
theorem freeDeviceBuffers_spec (heap : Heap) (frame : Multiset Nat)
    (hlive : heap.live = frame + poolMemory buffers)
    (hstale : ∀ pointer ∈ stale buffers, pointer ∉ heap.live) :
    freeDeviceBuffers buffers heap = .ok () { heap with
      live := frame, mistakes := heap.mistakes + (stale buffers).length } := by
  induction buffers generalizing heap with
  | nil =>
    change heap.live = frame + 0 at hlive
    rw [add_zero] at hlive
    rw [← hlive]
    rfl
  | cons buffer buffers ih =>
    by_cases husable : buffer.usable = true
    · rw [poolMemory_usable husable, ← add_assoc] at hlive
      rw [stale_usable husable] at hstale ⊢
      refine (bind_ok (cudaFreeAll_owned heap _ hlive)).trans (ih _ rfl fun pointer hpointer => ?_)
      rw [hlive] at hstale
      exact fun hmem => hstale pointer hpointer (Multiset.mem_add.mpr (.inl hmem))
    · rw [poolMemory_unusable husable] at hlive
      rw [stale_unusable husable] at hstale ⊢
      have hfree := cudaFreeAll_stale heap fun pointer hpointer =>
        hstale pointer (List.mem_append_left _ hpointer)
      have hrest := ih { heap with mistakes := heap.mistakes + buffer.length } hlive
        fun pointer hpointer => hstale pointer (List.mem_append_right _ hpointer)
      rw [Nat.add_assoc, ← List.length_append] at hrest
      exact (bind_ok hfree).trans hrest

-- Over its life the pool gives back all it took. The pointers of a buffer that was given up are
-- freed once more.
theorem pool_lifetime (fails : Nat → Bool) (numBuffers : Nat) (heap : Heap)
    (hheap : ∀ pointer ∈ heap.live, pointer < heap.next) :
    ∃ buffers middle after, initDeviceBuffers fails numBuffers heap = .ok buffers middle ∧
      buffers.length = max numBuffers 2 ∧ middle.live = heap.live + poolMemory buffers ∧
      (∀ buffer ∈ buffers, buffer.usable = true ∨ ∃ call, fails call = true) ∧
      freeDeviceBuffers buffers middle = .ok () after ∧ after.live = heap.live ∧
      after.mistakes = heap.mistakes + (stale buffers).length := by
  obtain ⟨buffers, middle, hbuffers, hlength, hpooled, husables, hmistakes, hlive⟩ :=
    initBuffers_pooled fails (max numBuffers 2) heap
  have hstale : ∀ pointer ∈ stale buffers, pointer ∉ middle.live := by
    intro pointer hpointer hmem
    rw [hlive] at hmem
    obtain hmem | hmem := Multiset.mem_add.mp hmem
    · obtain ⟨buffer, hbuffer, hfield⟩ := mem_of_mem_stale hpointer
      exact absurd (hheap pointer hmem) (not_lt_of_ge (hpooled.fresh buffer hbuffer pointer hfield).1)
    · exact hpooled.apart pointer hpointer hmem
  refine ⟨buffers, middle, _, hbuffers, hlength, hlive, husables,
    freeDeviceBuffers_spec middle _ hlive hstale, rfl, ?_⟩
  rw [hmistakes]

theorem pool_lifetime_fourth_fails :
    ∃ buffers middle after, initDeviceBuffers (fun call => call == 3) 4 ⟨0, 0, 0, 0⟩ =
        .ok buffers middle ∧
      buffers.length = max 4 2 ∧ middle.live = 0 + poolMemory buffers ∧
      (∀ buffer ∈ buffers, buffer.usable = true ∨ ∃ call, (call == 3) = true) ∧
      freeDeviceBuffers buffers middle = .ok () after ∧ after.live = 0 ∧
      after.mistakes = 0 + (stale buffers).length :=
  pool_lifetime (fun call => call == 3) 4 ⟨0, 0, 0, 0⟩ fun _ h => absurd h (Multiset.notMem_zero _)

end MlkvPlus.DeviceMemory
