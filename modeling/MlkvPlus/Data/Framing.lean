import Mathlib.Algebra.BigOperators.Group.List.Basic
import Mathlib.Algebra.GroupWithZero.Nat
import Mathlib.Data.Nat.ModEq
import Mathlib.Order.Bounds.Basic

namespace MlkvPlus.Framing

-- A stream of fixed-size blocks. Every fragment of a record carries a header,
-- and no header is split across two blocks.
structure Format where
  blockSize : Nat
  headerSize : Nat
  header_pos : 0 < headerSize
  header_lt : headerSize < blockSize

inductive Kind where
  | full
  | first
  | middle
  | last
  deriving DecidableEq, Repr

def Kind.of : Bool → Bool → Kind
  | true, true => .full
  | true, false => .first
  | false, true => .last
  | false, false => .middle

-- One fragment, with the padding that precedes its header in the stream.
structure Piece (α : Type) where
  padding : Nat
  kind : Kind
  body : List α
  deriving DecidableEq, Repr

namespace Format

variable {α β : Type} (f : Format)

-- Where the next header goes when `offset` bytes of the block are used.
def start (offset : Nat) : Nat :=
  if f.blockSize - offset < f.headerSize then 0 else offset

def padding (offset : Nat) : Nat :=
  if f.blockSize - offset < f.headerSize then f.blockSize - offset else 0

def room (offset : Nat) : Nat :=
  f.blockSize - f.start offset - f.headerSize

theorem start_add_header_le (offset : Nat) : f.start offset + f.headerSize ≤ f.blockSize := by
  have hlt := f.header_lt
  have hpos := f.header_pos
  unfold start
  split <;> omega

theorem start_add_room (offset : Nat) :
    f.start offset + f.headerSize + f.room offset = f.blockSize := by
  have hle := f.start_add_header_le offset
  unfold room
  omega

theorem start_of_lt (hlt : f.blockSize - offset < f.headerSize) : f.start offset = 0 := by
  simp [start, hlt]

theorem start_of_not_lt (hlt : ¬f.blockSize - offset < f.headerSize) :
    f.start offset = offset := by
  simp [start, hlt]

theorem padding_of_lt (hlt : f.blockSize - offset < f.headerSize) :
    f.padding offset = f.blockSize - offset := by
  simp [padding, hlt]

theorem padding_of_not_lt (hlt : ¬f.blockSize - offset < f.headerSize) :
    f.padding offset = 0 := by
  simp [padding, hlt]

@[simp] theorem start_blockSize : f.start f.blockSize = 0 :=
  f.start_of_lt (by have := f.header_pos; omega)

@[simp] theorem padding_blockSize : f.padding f.blockSize = 0 := by
  simp [padding]

theorem start_zero : f.start 0 = f.start f.blockSize := by
  have hlt := f.header_lt
  rw [start_blockSize, f.start_of_not_lt (by omega)]

theorem padding_zero : f.padding 0 = f.padding f.blockSize := by
  have hlt := f.header_lt
  rw [padding_blockSize, f.padding_of_not_lt (by omega)]

theorem room_zero : f.room 0 = f.room f.blockSize := by
  simp only [room, f.start_zero]

theorem room_pos (offset : Nat) (hne : offset + f.headerSize ≠ f.blockSize) :
    0 < f.room offset := by
  have hle := f.start_add_header_le offset
  have hlt := f.header_lt
  unfold room
  unfold start at hle ⊢
  split at hle <;> rename_i hs <;> simp only [hs, ite_true, ite_false]
  · omega
  · omega

-- The bound on the recursion: a fragment either takes data, or it is the
-- empty one that fills the last header-sized gap of a block.
def fuel (offset length : Nat) : Nat :=
  2 * length + if offset + f.headerSize = f.blockSize then 1 else 0

theorem fuel_blockSize (length : Nat) : f.fuel f.blockSize length = 2 * length := by
  have hpos := f.header_pos
  have hne : f.blockSize + f.headerSize ≠ f.blockSize := by omega
  simp only [fuel, hne, ite_false, Nat.add_zero]

theorem fuel_drop_lt (offset length : Nat) (hlt : f.room offset < length) :
    f.fuel f.blockSize (length - f.room offset) < f.fuel offset length := by
  rw [fuel_blockSize]
  by_cases hne : offset + f.headerSize = f.blockSize
  · simp only [fuel, hne, ite_true]
    omega
  · have hroom := f.room_pos offset hne
    simp only [fuel, hne, ite_false]
    omega

-- The fragments of one record. A fragment that does not end the record fills
-- its block, so every later fragment starts on a fresh block.
def pieces (offset : Nat) (isFirst : Bool) (data : List α) : List (Piece α) :=
  if data.length ≤ f.room offset then
    [⟨f.padding offset, .of isFirst true, data⟩]
  else
    ⟨f.padding offset, .of isFirst false, data.take (f.room offset)⟩ ::
      pieces f.blockSize false (data.drop (f.room offset))
termination_by f.fuel offset data.length
decreasing_by
  rw [List.length_drop]
  exact f.fuel_drop_lt offset data.length (by omega)

theorem pieces_of_le (offset : Nat) (isFirst : Bool) (data : List α)
    (hle : data.length ≤ f.room offset) :
    f.pieces offset isFirst data = [⟨f.padding offset, .of isFirst true, data⟩] := by
  rw [pieces]
  simp [hle]

theorem pieces_of_lt (offset : Nat) (isFirst : Bool) (data : List α)
    (hlt : f.room offset < data.length) :
    f.pieces offset isFirst data =
      ⟨f.padding offset, .of isFirst false, data.take (f.room offset)⟩ ::
        f.pieces f.blockSize false (data.drop (f.room offset)) := by
  rw [pieces]
  simp [show ¬data.length ≤ f.room offset by omega]

theorem pieces_induction {motive : Nat → Bool → List α → Prop}
    (last : ∀ offset isFirst data, data.length ≤ f.room offset → motive offset isFirst data)
    (more : ∀ offset isFirst data, f.room offset < data.length →
      motive f.blockSize false (data.drop (f.room offset)) → motive offset isFirst data)
    (offset : Nat) (isFirst : Bool) (data : List α) : motive offset isFirst data := by
  by_cases hle : data.length ≤ f.room offset
  · exact last offset isFirst data hle
  · exact more offset isFirst data (by omega)
      (pieces_induction last more f.blockSize false (data.drop (f.room offset)))
termination_by f.fuel offset data.length
decreasing_by
  rw [List.length_drop]
  exact f.fuel_drop_lt offset data.length (by omega)

theorem pieces_zero (isFirst : Bool) (data : List α) :
    f.pieces 0 isFirst data = f.pieces f.blockSize isFirst data := by
  conv_lhs => rw [pieces, f.room_zero, f.padding_zero]
  conv_rhs => rw [pieces]

-- The stream length of a record of `length` bytes, and the block offset behind it.
def size (offset length : Nat) : Nat :=
  if length ≤ f.room offset then f.padding offset + f.headerSize + length
  else f.padding offset + f.headerSize + f.room offset +
    size f.blockSize (length - f.room offset)
termination_by f.fuel offset length
decreasing_by exact f.fuel_drop_lt offset length (by omega)

def after (offset length : Nat) : Nat :=
  if length ≤ f.room offset then f.start offset + f.headerSize + length
  else after f.blockSize (length - f.room offset)
termination_by f.fuel offset length
decreasing_by exact f.fuel_drop_lt offset length (by omega)

theorem size_of_le (offset length : Nat) (hle : length ≤ f.room offset) :
    f.size offset length = f.padding offset + f.headerSize + length := by
  rw [size]
  simp [hle]

theorem size_of_lt (offset length : Nat) (hlt : f.room offset < length) :
    f.size offset length = f.padding offset + f.headerSize + f.room offset +
      f.size f.blockSize (length - f.room offset) := by
  rw [size]
  simp [show ¬length ≤ f.room offset by omega]

theorem after_of_le (offset length : Nat) (hle : length ≤ f.room offset) :
    f.after offset length = f.start offset + f.headerSize + length := by
  rw [after]
  simp [hle]

theorem after_of_lt (offset length : Nat) (hlt : f.room offset < length) :
    f.after offset length = f.after f.blockSize (length - f.room offset) := by
  rw [after]
  simp [show ¬length ≤ f.room offset by omega]

theorem header_le_size (offset length : Nat) : f.headerSize ≤ f.size offset length := by
  by_cases hle : length ≤ f.room offset
  · rw [f.size_of_le offset length hle]
    omega
  · rw [f.size_of_lt offset length (by omega)]
    omega

theorem size_zero (length : Nat) : f.size 0 length = f.size f.blockSize length := by
  conv_lhs => rw [size, f.room_zero, f.padding_zero]
  conv_rhs => rw [size]

theorem after_zero (length : Nat) : f.after 0 length = f.after f.blockSize length := by
  conv_lhs => rw [after, f.room_zero, f.start_zero]
  conv_rhs => rw [after]

theorem start_modEq (hle : offset ≤ f.blockSize) :
    f.start offset ≡ offset + f.padding offset [MOD f.blockSize] := by
  by_cases hlt : f.blockSize - offset < f.headerSize
  · rw [f.start_of_lt hlt, f.padding_of_lt hlt, Nat.add_sub_of_le hle]
    exact (Nat.modEq_zero_iff_dvd.mpr (Nat.dvd_refl _)).symm
  · rw [f.start_of_not_lt hlt, f.padding_of_not_lt hlt, Nat.add_zero]

theorem after_modEq (offset length : Nat) (hle : offset ≤ f.blockSize) :
    f.after offset length ≡ offset + f.size offset length [MOD f.blockSize] := by
  induction offset, length using size.induct f with
  | case1 offset length hroom =>
    rw [f.after_of_le offset length hroom, f.size_of_le offset length hroom, Nat.add_assoc,
      Nat.add_assoc (f.padding offset), ← Nat.add_assoc offset]
    exact Nat.ModEq.add_right _ (f.start_modEq hle)
  | case2 offset length hroom ih =>
    rw [f.after_of_lt offset length (by omega), f.size_of_lt offset length (by omega)]
    -- the fragment ends at the block end
    have hend : f.blockSize ≡ offset + f.padding offset + f.headerSize + f.room offset
        [MOD f.blockSize] := by
      have hstart := (f.start_modEq hle).add_right (f.headerSize + f.room offset)
      rw [← Nat.add_assoc, ← Nat.add_assoc, f.start_add_room] at hstart
      exact hstart
    refine (ih (Nat.le_refl _)).trans ?_
    rw [← Nat.add_assoc, ← Nat.add_assoc, ← Nat.add_assoc]
    exact hend.add_right _

theorem after_bounds (offset length : Nat) :
    0 < f.after offset length ∧ f.after offset length ≤ f.blockSize := by
  induction offset, length using size.induct f with
  | case1 offset length hroom =>
    have hadd := f.start_add_room offset
    have hpos := f.header_pos
    rw [f.after_of_le offset length hroom]
    omega
  | case2 offset length hroom ih =>
    rw [f.after_of_lt offset length (by omega)]
    exact ih

-- The stream lengths of consecutive records.
def sizes : Nat → List Nat → List Nat
  | _, [] => []
  | offset, length :: rest => f.size offset length :: sizes (f.after offset length) rest

-- The padding in front of each of consecutive records.
def paddings : Nat → List Nat → List Nat
  | _, [] => []
  | offset, length :: rest => f.padding offset :: paddings (f.after offset length) rest

def total (offset : Nat) (lengths : List Nat) : Nat :=
  (f.sizes offset lengths).sum

def finish (offset : Nat) (lengths : List Nat) : Nat :=
  lengths.foldl f.after offset

theorem finish_modEq (offset : Nat) (lengths : List Nat) (hle : offset ≤ f.blockSize) :
    f.finish offset lengths ≡ offset + f.total offset lengths [MOD f.blockSize] := by
  induction lengths generalizing offset with
  | nil => exact Nat.ModEq.refl offset
  | cons length rest ih =>
    rw [total, sizes, List.sum_cons, ← Nat.add_assoc]
    exact (ih _ (f.after_bounds offset length).2).trans
      (Nat.ModEq.add_right _ (f.after_modEq offset length hle))

theorem finish_bounds (offset : Nat) (lengths : List Nat) (hpos : 0 < offset)
    (hle : offset ≤ f.blockSize) :
    0 < f.finish offset lengths ∧ f.finish offset lengths ≤ f.blockSize := by
  induction lengths generalizing offset with
  | nil => exact ⟨hpos, hle⟩
  | cons length rest ih =>
    obtain ⟨hpos', hle'⟩ := f.after_bounds offset length
    exact ih _ hpos' hle'

@[simp] theorem length_sizes (offset : Nat) (lengths : List Nat) :
    (f.sizes offset lengths).length = lengths.length := by
  induction lengths generalizing offset with
  | nil => rfl
  | cons length rest ih => simp [sizes, ih]

theorem sizes_take (offset : Nat) (lengths : List Nat) (count : Nat) :
    f.sizes offset (lengths.take count) = (f.sizes offset lengths).take count := by
  induction lengths generalizing offset count with
  | nil => simp [sizes]
  | cons length rest ih =>
    cases count with
    | zero => simp [sizes]
    | succ count => simp [sizes, ih]

theorem start_start (offset : Nat) : f.start (f.start offset) = f.start offset := by
  have hlt := f.header_lt
  by_cases hpad : f.blockSize - offset < f.headerSize
  · rw [f.start_of_lt hpad, f.start_of_not_lt (by omega)]
  · rw [f.start_of_not_lt hpad, f.start_of_not_lt hpad]

theorem padding_start (offset : Nat) : f.padding (f.start offset) = 0 := by
  have hle := f.start_add_header_le offset
  exact f.padding_of_not_lt (by omega)

theorem room_start (offset : Nat) : f.room (f.start offset) = f.room offset := by
  rw [room, room, f.start_start]

theorem after_start (offset length : Nat) : f.after (f.start offset) length = f.after offset length := by
  by_cases hle : length ≤ f.room offset
  · rw [f.after_of_le offset length hle, f.after_of_le _ length (by rwa [f.room_start]),
      f.start_start]
  · rw [f.after_of_lt offset length (by omega), f.after_of_lt _ length (by rw [f.room_start]; omega),
      f.room_start]

theorem sizes_zero (lengths : List Nat) : f.sizes 0 lengths = f.sizes f.blockSize lengths := by
  cases lengths with
  | nil => rfl
  | cons length rest => rw [sizes, sizes, f.size_zero, f.after_zero]

end Format

-- A format with the bytes of its headers and padding. A header may depend on what follows it.
structure Layout (α : Type) extends Format where
  header : Kind → List α → List α
  filler : List α
  header_length : ∀ kind body, (header kind body).length = headerSize
  filler_length : headerSize ≤ filler.length

namespace Layout

variable {α : Type} (l : Layout α)

def encode (piece : Piece α) : List α :=
  l.filler.take piece.padding ++ l.header piece.kind piece.body ++ piece.body

def record (offset : Nat) (isFirst : Bool) (data : List α) : List α :=
  (l.pieces offset isFirst data).flatMap l.encode

def log : Nat → List (List α) → List α
  | _, [] => []
  | offset, data :: rest =>
    l.record offset true data ++ log (l.after offset data.length) rest

theorem padding_lt (offset : Nat) : l.padding offset < l.headerSize := by
  have hpos := l.header_pos
  unfold Format.padding
  split <;> omega

theorem paddings_lt (offset : Nat) (lengths : List Nat) :
    ∀ size ∈ l.paddings offset lengths, size < l.headerSize := by
  induction lengths generalizing offset with
  | nil => simp [Format.paddings]
  | cons length rest ih =>
    rw [Format.paddings, List.forall_mem_cons]
    exact ⟨l.padding_lt offset, ih _⟩

theorem length_padding (offset : Nat) :
    (l.filler.take (l.padding offset)).length = l.padding offset := by
  have hlt := l.padding_lt offset
  have hfill := l.filler_length
  rw [List.length_take]
  omega

theorem length_encode (offset : Nat) (kind : Kind) (body : List α) :
    (l.encode ⟨l.padding offset, kind, body⟩).length =
      l.padding offset + l.headerSize + body.length := by
  simp only [encode, List.length_append, l.length_padding, l.header_length]

theorem record_of_le (offset : Nat) (isFirst : Bool) (data : List α)
    (hle : data.length ≤ l.room offset) :
    l.record offset isFirst data = l.encode ⟨l.padding offset, .of isFirst true, data⟩ := by
  simp [record, l.pieces_of_le offset isFirst data hle]

theorem record_of_lt (offset : Nat) (isFirst : Bool) (data : List α)
    (hlt : l.room offset < data.length) :
    l.record offset isFirst data =
      l.encode ⟨l.padding offset, .of isFirst false, data.take (l.room offset)⟩ ++
        l.record l.blockSize false (data.drop (l.room offset)) := by
  simp [record, l.pieces_of_lt offset isFirst data hlt]

theorem record_eq (offset : Nat) (isFirst : Bool) (data : List α) :
    l.record offset isFirst data =
      l.encode ⟨l.padding offset, .of isFirst (decide (data.length ≤ l.room offset)),
        data.take (l.room offset)⟩ ++
      if data.length ≤ l.room offset then [] else
        l.record l.blockSize false (data.drop (l.room offset)) := by
  by_cases hle : data.length ≤ l.room offset
  · rw [l.record_of_le offset isFirst data hle, decide_eq_true hle, List.take_of_length_le hle,
      if_pos hle, List.append_nil]
  · rw [l.record_of_lt offset isFirst data (Nat.lt_of_not_le hle), decide_eq_false hle, if_neg hle]

theorem length_record (offset : Nat) (isFirst : Bool) (data : List α) :
    (l.record offset isFirst data).length = l.size offset data.length := by
  induction offset, isFirst, data using l.pieces_induction with
  | last offset isFirst data hle =>
    rw [l.record_of_le offset isFirst data hle, l.size_of_le offset data.length hle,
      l.length_encode]
  | more offset isFirst data hlt ih =>
    rw [l.record_of_lt offset isFirst data hlt, l.size_of_lt offset data.length hlt,
      List.length_append, l.length_encode, ih, List.length_take, List.length_drop,
      Nat.min_eq_left (Nat.le_of_lt hlt)]

theorem log_zero (records : List (List α)) : l.log 0 records = l.log l.blockSize records := by
  cases records with
  | nil => rfl
  | cons data rest => rw [log, log, l.after_zero, record, record, l.pieces_zero]

theorem length_log (offset : Nat) (records : List (List α)) :
    (l.log offset records).length = l.total offset (records.map List.length) := by
  induction records generalizing offset with
  | nil => rfl
  | cons data rest ih =>
    simp only [log, List.length_append, l.length_record, ih, Format.total, List.map_cons,
      Format.sizes, List.sum_cons]

theorem count_le_length_log (offset : Nat) (records : List (List α)) :
    records.length ≤ (l.log offset records).length := by
  induction records generalizing offset with
  | nil => exact Nat.zero_le _
  | cons data rest ih =>
    have hheader := l.header_le_size offset data.length
    have hpos := l.header_pos
    have hrest := ih (l.after offset data.length)
    rw [List.length_cons, log, List.length_append, l.length_record]
    omega

-- The same layout over another content of the padding bytes.
def withFiller (filler : List α) (hfiller : l.headerSize ≤ filler.length) : Layout α :=
  { l with filler := filler, filler_length := hfiller }

-- Only the first fragment of a record is padded.
theorem record_withFiller (filler : List α) (hfiller : l.headerSize ≤ filler.length) (offset : Nat)
    (isFirst : Bool) (data : List α) :
    (l.withFiller filler hfiller).record offset isFirst data =
      filler.take (l.padding offset) ++
        (l.record offset isFirst data).drop (l.padding offset) := by
  induction offset, isFirst, data using l.pieces_induction with
  | last offset isFirst data hle =>
    rw [l.record_of_le offset isFirst data hle,
      (l.withFiller filler hfiller).record_of_le offset isFirst data hle, encode, encode,
      List.append_assoc, List.append_assoc, List.drop_left' (l.length_padding offset)]
    rfl
  | more offset isFirst data hlt ih =>
    rw [l.padding_blockSize, List.take_zero, List.drop_zero, List.nil_append] at ih
    have hrest : (l.withFiller filler hfiller).record
        (l.withFiller filler hfiller).blockSize false
        (data.drop ((l.withFiller filler hfiller).room offset)) =
        l.record l.blockSize false (data.drop (l.room offset)) := ih
    rw [l.record_of_lt offset isFirst data hlt,
      (l.withFiller filler hfiller).record_of_lt offset isFirst data hlt, hrest, encode, encode,
      List.append_assoc, List.append_assoc, List.append_assoc, List.append_assoc,
      List.drop_left' (l.length_padding offset)]
    rfl

theorem record_withFiller_iff (filler : List α) (hfiller : l.headerSize ≤ filler.length)
    (offset : Nat) (isFirst : Bool) (data : List α) :
    (l.withFiller filler hfiller).record offset isFirst data = l.record offset isFirst data ↔
      filler.take (l.padding offset) = l.filler.take (l.padding offset) := by
  have hself := l.record_withFiller l.filler l.filler_length offset isFirst data
  have hsplit : l.record offset isFirst data =
      l.filler.take (l.padding offset) ++ (l.record offset isFirst data).drop (l.padding offset) :=
    hself
  rw [record_withFiller]
  constructor
  · intro heq
    rw [hsplit] at heq
    rw [List.drop_left' (l.length_padding offset)] at heq
    exact List.append_cancel_right heq
  · intro heq
    rw [heq]
    exact hsplit.symm

-- Two contents of the padding give the same stream when they agree on every padding of it.
theorem log_withFiller_iff (filler : List α) (hfiller : l.headerSize ≤ filler.length)
    (offset : Nat) (records : List (List α)) :
    (l.withFiller filler hfiller).log offset records = l.log offset records ↔
      ∀ size ∈ l.paddings offset (records.map List.length),
        filler.take size = l.filler.take size := by
  induction records generalizing offset with
  | nil => simp [log, Format.paddings]
  | cons data rest ih =>
    have hlength : ((l.withFiller filler hfiller).record offset true data).length =
        (l.record offset true data).length := by
      rw [length_record, length_record]
      rfl
    rw [log, log, List.map_cons, Format.paddings, List.forall_mem_cons, ← ih,
      ← l.record_withFiller_iff filler hfiller offset true data]
    constructor
    · intro heq
      exact List.append_inj heq hlength
    · rintro ⟨hrecord, hrest⟩
      rw [hrecord]
      exact congrArg _ hrest

end Layout

-- How many leading records lie entirely within the first `budget` bytes.
def intact : Nat → List Nat → Nat
  | _, [] => 0
  | budget, size :: rest => if size ≤ budget then intact (budget - size) rest + 1 else 0

theorem intact_isGreatest (budget : Nat) (sizes : List Nat) :
    IsGreatest {count | count ≤ sizes.length ∧ (sizes.take count).sum ≤ budget}
      (intact budget sizes) := by
  induction sizes generalizing budget with
  | nil => exact ⟨by simp [intact], by rintro count ⟨hcount, _⟩; simpa [intact] using hcount⟩
  | cons size rest ih =>
    by_cases hle : size ≤ budget
    · obtain ⟨⟨hlen, hsum⟩, hmax⟩ := ih (budget - size)
      refine ⟨⟨?_, ?_⟩, ?_⟩
      · simp only [intact, hle, ite_true, List.length_cons]
        omega
      · simp only [intact, hle, ite_true, List.take_succ_cons, List.sum_cons]
        omega
      · rintro count ⟨hcount, htotal⟩
        cases count with
        | zero => omega
        | succ count =>
          simp only [List.length_cons, List.take_succ_cons, List.sum_cons] at hcount htotal
          have hbound := hmax ⟨show count ≤ rest.length by omega,
            show (rest.take count).sum ≤ budget - size by omega⟩
          simp only [intact, hle, ite_true]
          omega
    · refine ⟨by simp [intact, hle], ?_⟩
      rintro count ⟨_, htotal⟩
      cases count with
      | zero => omega
      | succ count =>
        simp only [List.take_succ_cons, List.sum_cons] at htotal
        omega

theorem intact_eq_length (budget : Nat) (sizes : List Nat) :
    intact budget sizes = sizes.length ↔ sizes.sum ≤ budget := by
  obtain ⟨⟨hlen, hsum⟩, hmax⟩ := intact_isGreatest budget sizes
  constructor
  · intro heq
    simpa [heq] using hsum
  · intro hle
    exact Nat.le_antisymm hlen (hmax ⟨Nat.le_refl _, by simpa using hle⟩)

-- Fewer bytes than the first records take hold fewer records.
theorem intact_le_of_lt (hlt : budget < (sizes.take (count + 1)).sum) :
    intact budget sizes ≤ count := by
  by_contra hmore
  have hgreatest := (intact_isGreatest budget sizes).1.2
  have hfirst : sizes.take (count + 1) = (sizes.take (intact budget sizes)).take (count + 1) := by
    rw [List.take_take, Nat.min_eq_left (by omega)]
  have hsplit := congrArg List.sum (List.take_append_drop (count + 1)
    (sizes.take (intact budget sizes)))
  rw [← hfirst, List.sum_append] at hsplit
  omega

end MlkvPlus.Framing
