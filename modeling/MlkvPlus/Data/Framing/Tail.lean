import MlkvPlus.Data.Framing

namespace MlkvPlus.Framing

namespace Format

theorem pieces_finish_zero {α : Type} (f : Format) (lengths : List Nat) (isFirst : Bool)
    (data : List α) :
    f.pieces (f.finish 0 lengths) isFirst data =
      f.pieces (f.finish f.blockSize lengths) isFirst data := by
  cases lengths with
  | nil => exact f.pieces_zero isFirst data
  | cons length rest => rw [finish, finish, List.foldl, List.foldl, f.after_zero]

theorem total_zero (f : Format) (lengths : List Nat) :
    f.total 0 lengths = f.total f.blockSize lengths := by
  cases lengths with
  | nil => rfl
  | cons length rest => rw [total, total, sizes, sizes, f.size_zero, f.after_zero]

end Format

namespace Layout

variable {α : Type} (l : Layout α)

theorem log_append (offset : Nat) (front records : List (List α)) :
    l.log offset (front ++ records) =
      l.log offset front ++ l.log (l.finish offset (front.map List.length)) records := by
  induction front generalizing offset with
  | nil => rfl
  | cons data rest ih =>
    rw [List.cons_append, log, log, ih, List.append_assoc]
    rfl

-- A change of one byte of a stream is one of the record that it stands in.
theorem set_log (hlt : index < l.size (l.finish offset (front.map List.length)) data.length)
    (rest : List (List α)) (value : α) :
    (l.log offset (front ++ data :: rest)).set (l.total offset (front.map List.length) + index)
        value =
      l.log offset front ++
        ((l.record (l.finish offset (front.map List.length)) true data).set index value ++
          l.log (l.after (l.finish offset (front.map List.length)) data.length) rest) := by
  rw [← l.length_record _ true] at hlt
  rw [l.log_append, log, ← l.length_log, List.set_append_right _ _ (Nat.le_add_right _ _),
    Nat.add_sub_cancel_left, List.set_append_left _ _ hlt]

-- What is left of a stream: its later records, maybe with the end of another one before them.
def Tail (records : List (List α)) (offset : Nat) (stream : List α) : Prop :=
  ∃ later, later <:+ records ∧ (stream = l.log offset later ∨ l.padding offset = 0 ∧
    ∃ data, stream = l.record offset false data ++ l.log (l.after offset data.length) later)

theorem tail_nil (records : List (List α)) (offset : Nat) : l.Tail records offset [] :=
  ⟨[], List.nil_suffix, .inl rfl⟩

theorem tail_log (records : List (List α)) (offset : Nat) :
    l.Tail records offset (l.log offset records) :=
  ⟨records, List.suffix_refl records, .inl rfl⟩

theorem tail_record (records : List (List α)) (data : List α) :
    l.Tail records l.blockSize
      (l.record l.blockSize false data ++ l.log (l.after l.blockSize data.length) records) :=
  ⟨records, List.suffix_refl records, .inr ⟨l.padding_blockSize, data, rfl⟩⟩

theorem Tail.mono (h : l.Tail records offset stream) (hsuffix : records <:+ more) :
    l.Tail more offset stream := by
  obtain ⟨later, hlater, hstream⟩ := h
  exact ⟨later, hlater.trans hsuffix, hstream⟩

theorem record_of_padded (isFirst : Bool) (data : List α)
    (hlt : l.blockSize - offset < l.headerSize) :
    l.record offset isFirst data =
      l.filler.take (l.blockSize - offset) ++ l.record l.blockSize isFirst data := by
  have hpad := l.padding_of_lt hlt
  have hroom : l.room offset = l.room l.blockSize := by
    rw [Format.room, Format.room, l.start_of_lt hlt, l.start_blockSize]
  rw [l.record_eq offset isFirst data, l.record_eq l.blockSize isFirst data, hroom, hpad,
    l.padding_blockSize]
  simp only [encode, List.take_zero, List.nil_append, List.append_assoc]

-- At the end of a block a stream goes on with the end of a record or with whole records.
theorem tail_drop_log (hle : offset ≤ l.blockSize) (records : List (List α)) :
    l.Tail records l.blockSize ((l.log offset records).drop (l.blockSize - offset)) := by
  induction records generalizing offset with
  | nil =>
    rw [log, List.drop_nil]
    exact l.tail_nil [] l.blockSize
  | cons data rest ih =>
    rw [log]
    by_cases hlt : l.blockSize - offset < l.headerSize
    · have hlength : (l.filler.take (l.blockSize - offset)).length = l.blockSize - offset := by
        rw [← l.padding_of_lt hlt]
        exact l.length_padding offset
      have hafter : l.after offset data.length = l.after l.blockSize data.length := by
        rw [← l.after_start offset, l.start_of_lt hlt, l.after_zero]
      rw [l.record_of_padded true data hlt, List.append_assoc, List.drop_left' hlength, hafter]
      exact l.tail_log (data :: rest) l.blockSize
    · have hstart := l.start_of_not_lt hlt
      have hadd := l.start_add_room offset
      have hpad := l.padding_of_not_lt hlt
      rw [hstart] at hadd
      by_cases hfits : data.length ≤ l.room offset
      · have hlength := l.length_record offset true data
        rw [l.size_of_le offset data.length hfits, hpad, Nat.zero_add] at hlength
        have hafter := l.after_of_le offset data.length hfits
        rw [hstart] at hafter
        have hrest := ih (show l.after offset data.length ≤ l.blockSize by omega)
        rw [List.drop_append, List.drop_eq_nil_of_le (by omega), List.nil_append, hlength,
          show l.blockSize - offset - (l.headerSize + data.length) =
            l.blockSize - l.after offset data.length by omega]
        exact hrest.mono l (List.suffix_cons data rest)
      · have hlong := Nat.lt_of_not_le hfits
        have hbody : (data.take (l.room offset)).length = l.room offset := by
          rw [List.length_take, Nat.min_eq_left (Nat.le_of_lt hlong)]
        have hlength := l.length_encode offset (.of true false) (data.take (l.room offset))
        rw [hpad, hbody, Nat.zero_add] at hlength
        rw [l.record_of_lt offset true data hlong, List.append_assoc, hpad,
          List.drop_left' (hlength.trans (by omega)), l.after_of_lt offset data.length hlong,
          ← List.length_drop]
        exact (l.tail_record rest _).mono l (List.suffix_cons data rest)

end Layout

end MlkvPlus.Framing
