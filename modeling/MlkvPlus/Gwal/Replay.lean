import MlkvPlus.Gwal.Framing
import MlkvPlus.Log.Reader.Replay

namespace MlkvPlus.Gds.GWALWriter

open Log

section Fresh

variable (assertions : Bool) (headerBuffer : DeviceBuffer kRecyclableHeaderSize)
variable (trailerBuffer : DeviceBuffer trailerBufferSize)

theorem addRecords_create (payloads : List Bytes) :
    ∃ w, (create [] assertions headerBuffer trailerBuffer).addRecords payloads =
        (.returned .ok, w) ∧ w.Ready ∧
      w.dest.contents = (create [] assertions headerBuffer trailerBuffer).layout.log
        format.blockSize payloads := by
  have hready := ready_create assertions headerBuffer trailerBuffer
  obtain ⟨w, hadd, hready', hcontents⟩ := addRecords_ready hready payloads
  refine ⟨w, hadd, hready', ?_⟩
  have hoffset : (create [] assertions headerBuffer trailerBuffer).blockOffset = 0 := rfl
  have hempty : (create [] assertions headerBuffer trailerBuffer).dest.contents = [] := rfl
  rw [hcontents, hempty, List.nil_append, hoffset]
  exact Framing.Layout.log_zero _ payloads

theorem length_contents_addRecords (payloads : List Bytes) :
    ((create [] assertions headerBuffer trailerBuffer).addRecords payloads).2.dest.contents.length =
      (format.sizes format.blockSize (payloads.map List.length)).sum := by
  obtain ⟨w, hadd, _, hcontents⟩ := addRecords_create assertions headerBuffer trailerBuffer payloads
  rw [hadd, hcontents]
  exact Framing.Layout.length_log _ format.blockSize payloads

variable (env : ReaderEnv)

theorem readRecords_take (mode : WALRecoveryMode) (payloads : List Bytes) (cut extra : Nat)
    (hadd : (create [] assertions headerBuffer trailerBuffer).addRecords payloads =
      (.returned .ok, w)) :
    ∃ r, Reader.readRecords env mode ((w.dest.contents.take cut).length + 1 + extra)
        ((w.dest.contents.take cut).length + 1 + extra) { file := w.dest.contents.take cut } =
        some (payloads.take (Framing.intact cut
          (format.sizes format.blockSize (payloads.map List.length))), r) ∧
      (w.dest.contents.length ≤ cut → r.reports = [] ∧ r.buffer = [] ∧ r.file = []) := by
  obtain ⟨_, hadd', _, hcontents⟩ :=
    addRecords_create assertions headerBuffer trailerBuffer payloads
  cases hadd.symm.trans hadd'
  have hloaded := Reader.loaded_open (w.dest.contents.take cut)
  rw [hcontents] at hloaded ⊢
  obtain ⟨r, hread, hend⟩ := Reader.readRecords_log env mode _ (length_filler _) payloads
    format.blockSize cut _ _ _ (Nat.lt_of_lt_of_le (Nat.lt_succ_self _) (Nat.le_add_right _ extra))
    (Nat.lt_of_lt_of_le (Nat.lt_succ_self _) (Nat.le_add_right _ extra)) hloaded
  refine ⟨r, hread, ?_⟩
  intro hle
  exact hend ((Framing.Layout.length_log _ format.blockSize payloads).symm.trans_le hle)

-- Every list of payloads is read back from the complete file, without a report
-- and without leaving input behind, in every recovery mode. No assertion fails.
theorem readRecords_addRecords (mode : WALRecoveryMode) (payloads : List Bytes) (extra : Nat) :
    ∃ w, (create [] assertions headerBuffer trailerBuffer).addRecords payloads =
        (.returned .ok, w) ∧
      ∃ r, Reader.readRecords env mode ((w.dest.close {}).length + 1 + extra)
          ((w.dest.close {}).length + 1 + extra) { file := w.dest.close {} } =
          some (payloads, r) ∧
        r.reports = [] ∧ r.buffer = [] ∧ r.file = [] := by
  obtain ⟨w, hadd, hready, _⟩ := addRecords_create assertions headerBuffer trailerBuffer payloads
  obtain ⟨r, hread, hend⟩ := readRecords_take assertions headerBuffer trailerBuffer env mode
    payloads w.dest.contents.length extra hadd
  have hlength := length_contents_addRecords assertions headerBuffer trailerBuffer payloads
  rw [hadd] at hlength
  have hall : Framing.intact w.dest.contents.length
      (format.sizes format.blockSize (payloads.map List.length)) = payloads.length := by
    have hintact := (Framing.intact_eq_length w.dest.contents.length
      (format.sizes format.blockSize (payloads.map List.length))).mpr (Nat.le_of_eq hlength.symm)
    rw [hintact, format.length_sizes, List.length_map]
  rw [List.take_length, hall, List.take_length] at hread
  refine ⟨w, hadd, r, ?_, hend (Nat.le_refl _)⟩
  rw [hready.sound.close_eq]
  exact hread

-- A torn log replays the longest prefix whose fragments all lie in what is left of it.
theorem readRecords_torn (payloads : List Bytes) (m extra : Nat) :
    ∃ w, (create [] assertions headerBuffer trailerBuffer).addRecords payloads =
        (.returned .ok, w) ∧
      ∃ count r, Reader.readRecords env .kTolerateCorruptedTailRecords
          (((w.dest.close {}).take m).length + 1 + extra)
          (((w.dest.close {}).take m).length + 1 + extra) { file := (w.dest.close {}).take m } =
          some (payloads.take count, r) ∧
        IsGreatest {count | count ≤ payloads.length ∧
          ((create [] assertions headerBuffer trailerBuffer).addRecords
            (payloads.take count)).2.dest.contents.length ≤ m} count := by
  obtain ⟨w, hadd, hready, _⟩ := addRecords_create assertions headerBuffer trailerBuffer payloads
  obtain ⟨r, hread, _⟩ := readRecords_take assertions headerBuffer trailerBuffer env
    .kTolerateCorruptedTailRecords payloads m extra hadd
  have hgreatest := Framing.intact_isGreatest m
    (format.sizes format.blockSize (payloads.map List.length))
  refine ⟨w, hadd,
    Framing.intact m (format.sizes format.blockSize (payloads.map List.length)), r, ?_, ?_⟩
  · rw [hready.sound.close_eq]
    exact hread
  · simp only [format.length_sizes, List.length_map, ← format.sizes_take, ← List.map_take,
      ← length_contents_addRecords assertions headerBuffer trailerBuffer] at hgreatest
    exact hgreatest

end Fresh

end MlkvPlus.Gds.GWALWriter
