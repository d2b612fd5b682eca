import Mathlib.Algebra.BigOperators.Group.Multiset.Basic
import Mathlib.Data.Multiset.AddSub

namespace MlkvPlus.Ownership

-- Memory that is handed out and given back. `mistakes` counts the pointers that were given back
-- without being handed out, and `calls` the calls of the runtime so far.
structure Heap where
  next : Nat
  live : Multiset Nat
  mistakes : Nat
  calls : Nat

-- A program that throws keeps what it did before.
abbrev Program := EStateM String Heap

-- Which calls fail is said by their number.
def succeeds (fails : Nat → Bool) : Program Bool := fun heap =>
  .ok (!fails heap.calls) { heap with calls := heap.calls + 1 }

def allocate : Program Nat := fun heap =>
  .ok heap.next { heap with next := heap.next + 1, live := heap.next ::ₘ heap.live }

def release (pointer : Nat) : Program Bool := fun heap =>
  if pointer ∈ heap.live then .ok true { heap with live := heap.live.erase pointer }
  else .ok false { heap with mistakes := heap.mistakes + 1 }

variable {α β : Type} {program : Program α} {next : α → Program β} {heap after : Heap}

theorem bind_ok (h : program heap = .ok value after) :
    (program >>= next) heap = next value after := by
  change EStateM.bind program next heap = _
  rw [EStateM.bind, h]

theorem release_of_mem (heap : Heap) (h : pointer ∈ heap.live) :
    release pointer heap = .ok true { heap with live := heap.live.erase pointer } :=
  if_pos h

end MlkvPlus.Ownership
