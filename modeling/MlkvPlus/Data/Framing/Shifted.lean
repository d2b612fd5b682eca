import MlkvPlus.Data.Framing

namespace MlkvPlus.Framing.Format

variable (f : Format)

theorem room_blockSize : f.room f.blockSize = f.blockSize - f.headerSize := by
  rw [room, f.start_blockSize, Nat.sub_zero]

theorem exists_count (length : Nat) :
    ∃ count, 0 < count ∧ length ≤ (f.blockSize - f.headerSize) * count ∧
      f.size f.blockSize length = length + f.headerSize * count := by
  have hlt := f.header_lt
  have hroom := f.room_blockSize
  induction length using Nat.strongRecOn with
  | ind length ih =>
    by_cases hle : length ≤ f.room f.blockSize
    · refine ⟨1, Nat.one_pos, by omega, ?_⟩
      rw [f.size_of_le _ _ hle, f.padding_blockSize]
      omega
    · obtain ⟨count, -, hcount, hsize⟩ := ih (length - f.room f.blockSize) (by omega)
      refine ⟨count + 1, Nat.succ_pos count, by rw [Nat.mul_succ]; omega, ?_⟩
      rw [f.size_of_lt _ _ (by omega), f.padding_blockSize, hsize, Nat.mul_succ]
      omega

theorem size_le_of_count (hpos : 0 < count)
    (hle : length ≤ (f.blockSize - f.headerSize) * count) :
    f.size f.blockSize length ≤ length + f.headerSize * count := by
  have hroom := f.room_blockSize
  induction count generalizing length with
  | zero => omega
  | succ count ih =>
    rw [Nat.mul_succ] at hle ⊢
    by_cases hlast : length ≤ f.room f.blockSize
    · rw [f.size_of_le _ _ hlast, f.padding_blockSize]
      omega
    · have hcount : 0 < count := by
        rw [Nat.pos_iff_ne_zero]
        rintro rfl
        omega
      have hrest := ih hcount (show length - f.room f.blockSize ≤ _ by omega)
      rw [f.size_of_lt _ _ (by omega), f.padding_blockSize]
      omega

theorem size_ge (offset length : Nat) :
    f.padding offset + f.headerSize + length ≤ f.size offset length := by
  induction offset, length using size.induct f with
  | case1 offset length hle => rw [f.size_of_le _ _ hle]
  | case2 offset length hlt ih =>
    rw [f.padding_blockSize] at ih
    rw [f.size_of_lt _ _ (by omega)]
    omega

theorem size_add_le (length more : Nat) :
    f.size f.blockSize length + more ≤ f.size f.blockSize (length + more) := by
  obtain ⟨count, hpos, hcount, hsize⟩ := f.exists_count (length + more)
  have hle := f.size_le_of_count hpos (show length ≤ _ by omega)
  omega

theorem size_of_padding_pos (offset length : Nat) (hpad : 0 < f.padding offset) :
    f.size offset length = f.padding offset + f.size f.blockSize length := by
  have hlt : f.blockSize - offset < f.headerSize := by
    by_contra hlong
    rw [f.padding_of_not_lt hlong] at hpad
    exact absurd hpad (Nat.lt_irrefl 0)
  have hroom : f.room offset = f.room f.blockSize := by
    rw [room, room, f.start_of_lt hlt, f.start_blockSize]
  by_cases hle : length ≤ f.room offset
  · rw [f.size_of_le _ _ hle, f.size_of_le _ _ (hroom ▸ hle), f.padding_blockSize]
    omega
  · rw [f.size_of_lt offset length (Nat.lt_of_not_le hle),
      f.size_of_lt f.blockSize length (hroom ▸ Nat.lt_of_not_le hle), f.padding_blockSize, hroom]
    omega

theorem size_le_of_padding (offset length : Nat) (hpad : f.padding offset = 0) :
    f.size offset length ≤ f.headerSize + f.size f.blockSize length := by
  by_cases hle : length ≤ f.room offset
  · have hsize := f.size_ge f.blockSize length
    rw [f.size_of_le _ _ hle, hpad]
    omega
  · have hmore := f.size_add_le (length - f.room offset) (f.room offset)
    rw [Nat.sub_add_cancel (by omega)] at hmore
    rw [f.size_of_lt _ _ (by omega), hpad]
    omega

theorem size_blockSize_le (offset length : Nat) :
    f.size f.blockSize length ≤ f.size offset length := by
  have hadd := f.start_add_room offset
  by_cases hle : length ≤ f.room offset
  · have hone := f.size_le_of_count Nat.one_pos (show length ≤ _ by omega)
    have hsize := f.size_ge offset length
    omega
  · obtain ⟨count, -, hcount, hsize⟩ := f.exists_count (length - f.room offset)
    have hfewest := f.size_le_of_count (Nat.succ_pos count)
      (show length ≤ _ by rw [Nat.mul_succ]; omega)
    rw [Nat.mul_succ] at hfewest
    rw [f.size_of_lt offset length (by omega)]
    omega

-- The records of a stream whose blocks end `shift` bytes earlier for the reader than for the
-- writer. The reader finds a record as it was written when no padding precedes it and each of
-- its fragments lies in one block of the reader's: it has two at most.
def InStep (shift offset length : Nat) : Prop :=
  f.padding offset = 0 ∧
    (shift + f.start offset) % f.blockSize + f.headerSize + min length (f.room offset) ≤
      f.blockSize ∧
    (f.room offset < length →
      shift % f.blockSize + f.headerSize + (length - f.room offset) ≤ f.blockSize)

instance (shift offset length : Nat) : Decidable (f.InStep shift offset length) :=
  inferInstanceAs (Decidable (_ ∧ _ ∧ _))

def AllInStep (shift : Nat) : Nat → List Nat → Prop
  | _, [] => True
  | offset, length :: rest =>
    f.InStep shift offset length ∧ AllInStep shift (f.after offset length) rest

theorem AllInStep.of_append {f : Format} (h : f.AllInStep shift offset (lengths ++ more)) :
    f.AllInStep shift offset lengths := by
  induction lengths generalizing offset with
  | nil => exact trivial
  | cons length rest ih => exact ⟨h.1, ih h.2⟩

theorem exists_not_inStep (hnot : ¬f.AllInStep shift offset lengths) :
    ∃ front length rest, lengths = front ++ length :: rest ∧ f.AllInStep shift offset front ∧
      ¬f.InStep shift (f.finish offset front) length := by
  induction lengths generalizing offset with
  | nil => exact absurd trivial hnot
  | cons length rest ih =>
    by_cases hfirst : f.InStep shift offset length
    · obtain ⟨front, length', rest', rfl, hfront, hlost⟩ := ih fun hrest => hnot ⟨hfirst, hrest⟩
      exact ⟨length :: front, length', rest', rfl, ⟨hfirst, hfront⟩, hlost⟩
    · exact ⟨[], length, rest, rfl, trivial, hfirst⟩

-- No record is padded or cut more often than its length asks for.
def Tight (offset : Nat) (lengths : List Nat) : Prop :=
  f.total offset lengths = (lengths.map (f.size f.blockSize)).sum

theorem sum_size_le_total (offset : Nat) (lengths : List Nat) :
    (lengths.map (f.size f.blockSize)).sum ≤ f.total offset lengths := by
  induction lengths generalizing offset with
  | nil => exact Nat.le_refl _
  | cons length rest ih =>
    rw [List.map_cons, List.sum_cons, total, sizes, List.sum_cons]
    exact Nat.add_le_add (f.size_blockSize_le offset length) (ih _)

theorem tight_cons (offset length : Nat) (rest : List Nat) :
    f.Tight offset (length :: rest) ↔
      f.size offset length = f.size f.blockSize length ∧
        f.Tight (f.after offset length) rest := by
  have hfirst := f.size_blockSize_le offset length
  have hrest := f.sum_size_le_total (f.after offset length) rest
  rw [Tight, Tight, List.map_cons, List.sum_cons, total, sizes, List.sum_cons]
  rw [total] at hrest ⊢
  omega

theorem tight_singleton (length : Nat) : f.Tight 0 [length] :=
  (f.tight_cons 0 length []).mpr ⟨f.size_zero length, rfl⟩

theorem total_le_of_append (offset : Nat) (lengths more : List Nat) :
    f.total offset lengths ≤ f.total offset (lengths ++ more) := by
  induction lengths generalizing offset with
  | nil => exact Nat.zero_le _
  | cons length rest ih =>
    rw [List.cons_append, total, total, sizes, sizes, List.sum_cons, List.sum_cons]
    exact Nat.add_le_add_left (ih _) _

end MlkvPlus.Framing.Format
