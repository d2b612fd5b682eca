import Mathlib.Data.List.FinRange
import MlkvPlus.Data.Bytes
import MlkvPlus.Data.Exchange
import MlkvPlus.Data.Lists

namespace MlkvPlus.Dist

open Exchange

variable {κ ρ : Type} {n : Nat}

-- The rank a lookup is sent to. The key is signed and the number of chunks is not, so the
-- key is taken for an unsigned number first.
def chunkId (key : Int64) (chunks : UInt64) : UInt64 :=
  key.toUInt64 % chunks

-- The rank that keeps a key: the remainder of Python and torch is that of the floor division.
def remainder (key : Int64) (numGpus : UInt64) : Int :=
  Int.fmod key.toInt numGpus.toNat

-- What dist_select returns for the indices of one rank: their positions, grouped by the
-- ranks that own them.
structure Selection (owner : κ → Fin n) (indices : List κ) where
  chunks : Fin n → List (Fin indices.length)
  perm : (List.ofFn chunks).flatten.Perm (List.finRange indices.length)
  owned : ∀ rank, ∀ position ∈ chunks rank, owner (indices.get position) = rank

namespace Selection

variable {owner : κ → Fin n} {indices : List κ}

def order (selection : Selection owner indices) : List Nat :=
  (List.ofFn selection.chunks).flatten.map Fin.val

def selected (selection : Selection owner indices) : List κ :=
  (List.ofFn selection.chunks).flatten.map indices.get

def splits (selection : Selection owner indices) : List Nat :=
  List.ofFn fun rank => (selection.chunks rank).length

end Selection

-- The threads of selectKernel reach the indices in any order; within a chunk the positions
-- stand in the order in which they were reached, and the chunks are copied behind each other.
def distSelect (owner : κ → Fin n) (indices : List κ) (schedule : List (Fin indices.length))
    (hschedule : schedule.Perm (List.finRange indices.length)) : Selection owner indices where
  chunks rank := schedule.filter fun position => owner (indices.get position) = rank
  perm := (Lists.flatten_filter_perm (fun position => owner (indices.get position)) schedule).trans
    hschedule
  owned rank position hmem := by simpa using (List.mem_filter.mp hmem).2

-- A step that every rank takes: it goes on when no rank raises.
def collect {α : Type} (results : Fin n → Option α) : Option (Fin n → α) :=
  if h : ∀ rank, (results rank).isSome = true then some fun rank => (results rank).get (h rank)
  else none

-- TorchDist.alltoall: first the split sizes are exchanged, one for each rank. Splits that do
-- not add up to the tensor are refused.
def alltoall {α : Type} (tensor : Fin n → List α) (splits : Fin n → List Nat) :
    Option ((Fin n → List α) × (Fin n → List Nat)) :=
  let outputSplitSizes := exchange (fun _ => List.replicate n 1) splits
  if ∀ rank, (splits rank).sum = (tensor rank).length then
    some (exchange splits tensor, outputSplitSizes)
  else none

-- Row `j` goes to position `order[j]` of a tensor of zeros.
def reorder (zero : ρ) (embedding : List ρ) (order : List Nat) : Option (List ρ) :=
  if embedding.length = order.length then
    some (scatter (List.replicate embedding.length zero) (order.zip embedding))
  else none

def value? {α : Type} : Outcome α → Option α
  | .returned value => some value
  | .threw _ => none
  | .aborted _ => none

-- MLKVPlusDB.key_map
def keyMap (keys : List κ) : List κ := keys

section Lookup

variable {owner : κ → Fin n} {indices : Fin n → List κ}

-- The exchange of the indices: what each rank is to read, and how much of it for whom.
def exchangeIndices (selection : ∀ rank, Selection owner (indices rank)) :
    Option ((Fin n → List κ) × (Fin n → List Nat)) :=
  alltoall (fun rank => (selection rank).selected) fun rank => (selection rank).splits

-- A rank that raises leaves the others waiting in the next collective.
def all2allDenseEmbedding (zero : ρ) (selection : ∀ rank, Selection owner (indices rank))
    (read : Fin n → List κ → Outcome (List ρ)) : Option (Fin n → List ρ) := do
  let (exIndices, rsplits) ← exchangeIndices selection
  let embeddings ← collect fun rank => value? (read rank (keyMap (exIndices rank)))
  let (exEmbeddings, _) ← alltoall embeddings rsplits
  collect fun rank => reorder zero (exEmbeddings rank) (selection rank).order

end Lookup

-- The pairs that dist_assign keeps on one rank.
def distAssign (numGpus : UInt64) (rank : Nat) (keys : List Int64) (values : List ρ) :
    List (Int64 × ρ) :=
  (keys.zip values).filter fun pair => remainder pair.1 numGpus = rank

end MlkvPlus.Dist
