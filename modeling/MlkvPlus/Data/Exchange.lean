import Mathlib.Algebra.BigOperators.Group.List.Lemmas
import Mathlib.Algebra.GroupWithZero.Nat
import Mathlib.Data.List.OfFn

namespace MlkvPlus.Exchange

variable {α β : Type} {n : Nat}

-- The block of one receiver in a tensor that is cut by `sizes`.
def block (sizes : List Nat) (tensor : List α) (receiver : Nat) : List α :=
  (tensor.take (sizes.take (receiver + 1)).sum).drop (sizes.take receiver).sum

-- Every party gets the blocks sent to it, in the order of the senders.
def exchange (sizes : Fin n → List Nat) (tensors : Fin n → List α) (receiver : Fin n) : List α :=
  (List.ofFn fun sender => block (sizes sender) (tensors sender) receiver).flatten

-- The tensor of a party from its blocks, and their sizes.
def joined (blocks : Fin n → Fin n → List α) (party : Fin n) : List α :=
  (List.ofFn (blocks party)).flatten

def sizes (blocks : Fin n → Fin n → List α) (party : Fin n) : List Nat :=
  List.ofFn fun other => (blocks party other).length

theorem sizes_eq_map (blocks : Fin n → Fin n → List α) (party : Fin n) :
    sizes blocks party = (List.ofFn (blocks party)).map List.length :=
  List.map_ofFn.symm

theorem sum_sizes (blocks : Fin n → Fin n → List α) (party : Fin n) :
    (sizes blocks party).sum = (joined blocks party).length := by
  rw [sizes_eq_map, joined, List.length_flatten]

theorem block_joined (blocks : Fin n → Fin n → List α) (party other : Fin n) :
    block (sizes blocks party) (joined blocks party) other = blocks party other := by
  have hother : (other : Nat) < (List.ofFn (blocks party)).length := by
    rw [List.length_ofFn]
    exact other.isLt
  rw [block, sizes_eq_map, joined, List.drop_take_succ_flatten_eq_getElem _ _ hother,
    List.getElem_ofFn]

-- An exchange transposes the matrix of blocks.
theorem exchange_joined (blocks : Fin n → Fin n → List α) :
    exchange (sizes blocks) (joined blocks) = joined fun party other => blocks other party := by
  funext receiver
  simp only [exchange, block_joined]
  rfl

theorem joined_singleton (element : Fin n → Fin n → α) (party : Fin n) :
    joined (fun party other => [element party other]) party = List.ofFn (element party) := by
  have hmap : List.ofFn (fun other => [element party other]) =
      (List.ofFn (element party)).map fun value => [value] := by
    rw [List.map_ofFn]
    rfl
  rw [joined, hmap, ← List.flatMap_def, List.flatMap_singleton']

theorem exchange_sizes (blocks : Fin n → Fin n → List α) :
    exchange (fun _ => List.replicate n 1) (sizes blocks) =
      sizes fun party other => blocks other party := by
  have hsizes : sizes blocks = joined fun party other => [(blocks party other).length] := by
    funext party
    rw [joined_singleton]
    rfl
  have hones : (fun _ : Fin n => List.replicate n 1) =
      sizes fun party other => [(blocks party other).length] := by
    funext party
    simp only [sizes, List.length_singleton, List.ofFn_const]
  rw [hones, hsizes, exchange_joined]
  funext party
  rw [joined_singleton]
  rfl

theorem map_joined (blocks : Fin n → Fin n → List α) (f : α → β) (party : Fin n) :
    (joined blocks party).map f = joined (fun party other => (blocks party other).map f) party := by
  rw [joined, joined, List.map_flatten, List.map_ofFn]
  rfl

-- Write each value to its position, one after the other.
def scatter (initial : List α) (writes : List (Nat × α)) : List α :=
  writes.foldl (fun output write => output.set write.1 write.2) initial

theorem length_scatter (initial : List α) (writes : List (Nat × α)) :
    (scatter initial writes).length = initial.length := by
  induction writes generalizing initial with
  | nil => rfl
  | cons write rest ih =>
    rw [scatter, List.foldl_cons]
    exact (ih _).trans List.length_set

theorem scatter_getElem? (initial : List α) (order : List Nat) (value : Nat → α)
    (hindex : index < initial.length) :
    (scatter initial (order.map fun position => (position, value position)))[index]? =
      if index ∈ order then some (value index) else initial[index]? := by
  induction order generalizing initial with
  | nil => simp [scatter]
  | cons position rest ih =>
    rw [List.map_cons, scatter, List.foldl_cons]
    have hset : index < (initial.set position (value position)).length := by
      rw [List.length_set]
      exact hindex
    refine (ih (initial.set position (value position)) hset).trans ?_
    by_cases hmem : index ∈ rest
    · simp [hmem]
    · by_cases heq : index = position
      · subst heq
        simp [hmem, hindex]
      · simp [hmem, heq, List.getElem?_set_ne (Ne.symm heq)]

theorem scatter_of_perm (initial : List α) (order : List Nat) (value : Nat → α)
    (hperm : order.Perm (List.range initial.length)) :
    scatter initial (order.map fun position => (position, value position)) =
      (List.range initial.length).map value := by
  apply List.ext_getElem?
  intro index
  by_cases hindex : index < initial.length
  · have hmem : index ∈ order := hperm.mem_iff.mpr (List.mem_range.mpr hindex)
    rw [scatter_getElem? initial order value hindex, if_pos hmem]
    simp [hindex]
  · rw [List.getElem?_eq_none (by rw [length_scatter]; omega),
      List.getElem?_eq_none (by simp; omega)]

end MlkvPlus.Exchange
