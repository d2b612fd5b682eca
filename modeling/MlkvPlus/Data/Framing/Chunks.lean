import MlkvPlus.Data.Framing

namespace MlkvPlus.Framing

-- What goes into a stream: the padding that closes a block, or a fragment.
inductive Chunk (α : Type) where
  | trailer
  | fragment (kind : Kind) (body : List α)
  deriving DecidableEq, Repr

variable {α : Type}

namespace Format

variable (f : Format)

-- The block offset behind a chunk, and behind several.
def move (offset : Nat) : Chunk α → Nat
  | .trailer => f.start offset
  | .fragment _ body => offset + f.headerSize + body.length

def position (offset : Nat) (chunks : List (Chunk α)) : Nat :=
  chunks.foldl f.move offset

-- No fragment is split across two blocks.
def Fits : Nat → List (Chunk α) → Prop
  | _, [] => True
  | offset, chunk :: rest => f.move offset chunk ≤ f.blockSize ∧ Fits (f.move offset chunk) rest

theorem position_append (offset : Nat) (chunks rest : List (Chunk α)) :
    f.position offset (chunks ++ rest) = f.position (f.position offset chunks) rest :=
  List.foldl_append

theorem fits_append (offset : Nat) (chunks rest : List (Chunk α)) :
    f.Fits offset (chunks ++ rest) ↔
      f.Fits offset chunks ∧ f.Fits (f.position offset chunks) rest := by
  induction chunks generalizing offset with
  | nil => simp [Fits, position]
  | cons chunk chunks ih =>
    simp only [List.cons_append, Fits, position, List.foldl_cons, ih, and_assoc]

end Format

namespace Layout

variable (l : Layout α)

def place : Nat → List (Chunk α) → List α
  | _, [] => []
  | offset, .trailer :: rest => l.filler.take (l.padding offset) ++ place (l.start offset) rest
  | offset, .fragment kind body :: rest =>
    l.header kind body ++ body ++ place (offset + l.headerSize + body.length) rest

theorem place_append (offset : Nat) (chunks rest : List (Chunk α)) :
    l.place offset (chunks ++ rest) =
      l.place offset chunks ++ l.place (l.position offset chunks) rest := by
  induction chunks generalizing offset with
  | nil => rfl
  | cons chunk chunks ih =>
    cases chunk with
    | trailer =>
      rw [List.cons_append, place, place, ih, List.append_assoc]
      rfl
    | fragment kind body =>
      rw [List.cons_append, place, place, ih, List.append_assoc (_ ++ body)]
      rfl

theorem position_modEq (hfits : l.Fits offset chunks) (hle : offset ≤ l.blockSize) :
    l.position offset chunks ≡ offset + (l.place offset chunks).length [MOD l.blockSize] := by
  induction chunks generalizing offset with
  | nil => exact Nat.ModEq.refl offset
  | cons chunk chunks ih =>
    have hrest := ih hfits.2 hfits.1
    cases chunk with
    | trailer =>
      refine hrest.trans ?_
      rw [place, List.length_append, l.length_padding, ← Nat.add_assoc]
      exact Nat.ModEq.add_right _ (l.start_modEq hle)
    | fragment kind body =>
      refine hrest.trans ?_
      rw [place, List.length_append, List.length_append, l.header_length, ← Nat.add_assoc,
        ← Nat.add_assoc]
      exact Nat.ModEq.refl _

end Layout

-- What a fragment makes of the record that is under way: a finished record, if it ends
-- one, and what is under way behind it.
def absorb (part : Option (List α)) (body : List α) : Kind → Option (List α) × Option (List α)
  | .full => (some body, none)
  | .first => (none, some body)
  | .middle => (none, part.map (· ++ body))
  | .last => (part.map (· ++ body), none)

theorem absorb_finished (part : Option (List α)) (body : List α) (kind : Kind) (data : List α)
    (h : (absorb part body kind).1 = some data) : (absorb part body kind).2 = none := by
  cases kind with
  | full => rfl
  | first => cases h
  | middle => cases h
  | last => rfl

-- The records of a stream. A record that is not finished is dropped by the next first
-- fragment, and a fragment without a first one is skipped.
def assemble : Option (List α) → List (Chunk α) → List (List α)
  | _, [] => []
  | part, .trailer :: rest => assemble part rest
  | part, .fragment kind body :: rest =>
    (absorb part body kind).1.toList ++ assemble (absorb part body kind).2 rest

end MlkvPlus.Framing
