import MlkvPlus.Gwal.Framing
import MlkvPlus.Log.Checksum
import MlkvPlus.Log.Writer.Framing

namespace MlkvPlus.Gds.GWALWriter

open Log

theorem filler_take_iff (w : GWALWriter) (hsize : size < kHeaderSize) :
    w.filler.take size = Writer.trailer.take size ↔
      ∀ index, 0 < index → index < size → w.trailerBuffer.1[index]? = some 0 := by
  have hlength := w.trailerBuffer.2
  simp only [trailerBufferSize] at hlength
  simp only [kHeaderSize] at hsize
  have hfiller (index : Nat) (hindex : index < size) :
      w.filler[index]? = if index < 1 then some 0 else w.trailerBuffer.1[index]? := by
    rw [filler, fillTrailerKernel, List.getElem?_mapIdx, List.getElem?_eq_getElem (by omega)]
    by_cases hfirst : index < 1 <;> simp [hfirst]
  have htrailer (index : Nat) (hindex : index < size) : Writer.trailer[index]? = some 0 :=
    List.getElem?_replicate_of_lt (by omega)
  constructor
  · intro heq index hpos hlt
    have hbyte := congrArg (·[index]?) heq
    simp only [List.getElem?_take, hlt, ite_true, hfiller index hlt, htrailer index hlt,
      show ¬index < 1 by omega, ite_false] at hbyte
    exact hbyte
  · intro hzero
    apply List.ext_getElem?
    intro index
    rw [List.getElem?_take, List.getElem?_take]
    by_cases hlt : index < size
    · rw [if_pos hlt, if_pos hlt, hfiller index hlt, htrailer index hlt]
      by_cases hfirst : index < 1
      · rw [if_pos hfirst]
      · rw [if_neg hfirst]
        exact hzero index (by omega) hlt
    · rw [if_neg hlt, if_neg hlt]

section Fresh

variable (assertions : Bool) (headerBuffer : DeviceBuffer kRecyclableHeaderSize)
variable (trailerBuffer : DeviceBuffer trailerBufferSize)
variable (crc : Crc32c) (logNumber : Nat) (manualFlush : Bool)

theorem logs_eq_iff (payloads : List Bytes) :
    (create [] assertions headerBuffer trailerBuffer).layout.log 0 payloads =
        (Writer.noChecksumFrame false logNumber).log 0 payloads ↔
      ∀ size ∈ format.paddings 0 (payloads.map List.length), ∀ index, 0 < index → index < size →
        trailerBuffer.1[index]? = some 0 := by
  -- both writers lay out the same fragments: only the block trailers differ
  have hiff := (Writer.noChecksumFrame false logNumber).log_withFiller_iff
    (create [] assertions headerBuffer trailerBuffer).filler (length_filler _) 0 payloads
  have hlt := (Writer.noChecksumFrame false logNumber).paddings_lt 0 (payloads.map List.length)
  refine hiff.trans (forall₂_congr ?_)
  intro size hmem
  exact filler_take_iff _ (hlt size hmem)

theorem addRecords_both (payloads : List Bytes) :
    ∃ g w, (create [] assertions headerBuffer trailerBuffer).addRecords payloads =
        (.returned .ok, g) ∧
      (Writer.create logNumber false false manualFlush assertions).addRecords crc payloads =
        (.returned .ok, w) ∧
      g.dest.close {} = (create [] assertions headerBuffer trailerBuffer).layout.log 0 payloads ∧
      w.dest = (Writer.noChecksumFrame false logNumber).log 0 payloads := by
  obtain ⟨g, hg, hready, hcontents⟩ :=
    addRecords_ready (ready_create assertions headerBuffer trailerBuffer) payloads
  obtain ⟨w, hw, hdest⟩ :=
    Writer.addRecords_create crc logNumber false manualFlush assertions payloads
  have hempty : (create [] assertions headerBuffer trailerBuffer).dest.contents = [] := rfl
  refine ⟨g, w, hg, hw, ?_, hdest⟩
  rw [hready.sound.close_eq, hcontents, hempty, List.nil_append]
  rfl

-- Their files are the same exactly when the bytes of the trailer buffer that reach the
-- file were zero, the first byte of a trailer apart.
theorem same_file_iff (payloads : List Bytes) :
    ∃ g w, (create [] assertions headerBuffer trailerBuffer).addRecords payloads =
        (.returned .ok, g) ∧
      (Writer.create logNumber false false manualFlush assertions).addRecords crc payloads =
        (.returned .ok, w) ∧
      (g.dest.close {} = w.dest ↔
        ∀ size ∈ format.paddings 0 (payloads.map List.length),
          ∀ index, 0 < index → index < size → trailerBuffer.1[index]? = some 0) := by
  obtain ⟨g, w, hg, hw, hclose, hdest⟩ :=
    addRecords_both assertions headerBuffer trailerBuffer crc logNumber manualFlush payloads
  refine ⟨g, w, hg, hw, ?_⟩
  rw [hclose, hdest]
  exact logs_eq_iff assertions headerBuffer trailerBuffer logNumber payloads

end Fresh

-- The first record leaves two bytes of its block.
theorem different_files : ∃ g w,
    (create [] true (.zeros _) ⟨List.replicate trailerBufferSize 255, rfl⟩).addRecords
      [List.replicate 32759 0, []] = (.returned .ok, g) ∧
    (Writer.create 7 false false false true).addRecords .xorSum [List.replicate 32759 0, []] =
      (.returned .ok, w) ∧
    g.dest.close {} ≠ w.dest := by
  obtain ⟨g, w, hg, hw, hclose, hdest⟩ := addRecords_both true (.zeros _)
    ⟨List.replicate trailerBufferSize 255, rfl⟩ _ 7 false [List.replicate 32759 0, []]
  refine ⟨g, w, hg, hw, ?_⟩
  rw [hclose, hdest]
  intro heq
  have hroom : (32759 : Nat) ≤ format.room 0 := by decide
  have hmem : 2 ∈ format.paddings 0 [32759, 0] := by
    simp only [Framing.Format.paddings, format.after_of_le 0 32759 hroom]
    decide
  have hbyte := (logs_eq_iff _ _ _ 7 _).mp heq 2 (by
    simp only [List.map_cons, List.length_replicate, List.length_nil, List.map_nil]
    exact hmem) 1 (by decide) (by decide)
  exact absurd hbyte (by decide)

end MlkvPlus.Gds.GWALWriter
