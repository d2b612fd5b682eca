import MlkvPlus.Gwal.Framing
import MlkvPlus.Log.Reader.Chunks

namespace MlkvPlus.Gds

open Log
open Framing (Chunk absorb assemble)

-- One call of AddRecord, with the outcomes of the CUDA calls of its fragments.
structure AddRecordCall where
  env : Nat → FragmentEnv
  data : Bytes

namespace GWALWriter

-- A caller that goes on whether a call returns an error or throws, and the records for
-- which it got an OK. A failed assertion ends the process.
def runCalls (w : GWALWriter) : List AddRecordCall → GWALWriter × List Bytes
  | [] => (w, [])
  | call :: rest =>
    match w.addRecord call.env call.data with
    | (.returned .ok, w') => ((runCalls w' rest).1, call.data :: (runCalls w' rest).2)
    | (.aborted _, w') => (w', [])
    | (_, w') => runCalls w' rest

-- `w'` is `w` after these chunks.
structure Wrote (w : GWALWriter) (chunks : List (Chunk UInt8)) (w' : GWALWriter) : Prop where
  ready : w'.Ready
  appended : stream.Appended Keeps w (w.layout.place w.blockOffset chunks) w'
  offset : w'.blockOffset = format.position w.blockOffset chunks
  fits : format.Fits w.blockOffset chunks

theorem Wrote.nil (hready : w.Ready) (buffer : DeviceBuffer kRecyclableHeaderSize) :
    Wrote w [] { w with headerBuffer := buffer } where
  ready := ⟨hready.sound, hready.options, hready.bufferSize, hready.offset_le⟩
  appended := .nil ⟨hready.sound.toDense, rfl, rfl, rfl, id, fun _ _ => rfl⟩ rfl rfl
  offset := rfl
  fits := trivial

theorem Wrote.trans (h : Wrote w chunks w') (h' : Wrote w' chunks' w'') :
    Wrote w (chunks ++ chunks') w'' where
  ready := h'.ready
  appended := by
    have hlayout : w'.layout = w.layout := h.appended.layout
    have hplace := h.appended.trans h'.appended
    rw [hlayout, h.offset] at hplace
    rw [w.layout.place_append]
    exact hplace
  offset := by rw [h'.offset, h.offset, format.position_append]
  fits := (format.fits_append _ _ _).mpr ⟨h.fits, h.offset ▸ h'.fits⟩

theorem wrote_trailer (henv : env.Kept) (hready : w.Ready)
    (hswitch : switchBlock env w = (.returned .ok, w')) : Wrote w [.trailer] w' := by
  have happended := switchBlock_ok henv hready.sound.toDense hswitch
  have hstart := Nat.le_trans (Nat.le_add_right _ _) (format.start_add_header_le w.blockOffset)
  have hoffset := blockOffset_of_switchBlock hswitch
  refine ⟨hready.keeps happended.keeps (hoffset.trans_le hstart), ?_, hoffset, hstart, trivial⟩
  rw [Framing.Layout.place, Framing.Layout.place, List.append_nil]
  exact happended

theorem wrote_fragment (henv : env.Kept) (hready : w.Ready) (kind : Framing.Kind)
    (hemit : emitPhysicalRecordFromGPU env w (noChecksumType kind) data = (.returned .ok, w'))
    (hfits : w.blockOffset + kHeaderSize + data.length ≤ kBlockSize) :
    Wrote w [.fragment kind data] w' := by
  have happended := emit_ok henv hready.sound.toDense hemit
  have hoffset := blockOffset_of_emit hemit
  refine ⟨hready.keeps happended.keeps (hoffset.trans_le hfits), ?_, hoffset, hfits, trivial⟩
  rw [Framing.Layout.place, Framing.Layout.place, List.append_nil]
  exact happended

theorem addFragment_kept (henv : env.Kept) (hready : w.Ready) (isBegin : Bool) (left : Bytes) :
    (∃ w', addFragment env isBegin w left =
        (.returned .ok, w', left.drop (format.room w.blockOffset)) ∧
      Wrote w [.trailer, .fragment
        (.of isBegin (decide (left.length ≤ format.room w.blockOffset)))
        (left.take (format.room w.blockOffset))] w') ∨
    ∃ outcome w' left' chunks, addFragment env isBegin w left = (outcome, w', left') ∧
      (Failed outcome ∧ ¬env.Complete) ∧ Wrote w chunks w' ∧
      (chunks = [] ∨ chunks = [.trailer]) := by
  obtain ⟨w₁, hswitch⟩ | ⟨htrailer, hthrew⟩ := switchBlock_kept env henv w (hready.accepts _)
  · have htrailer := wrote_trailer henv hready hswitch
    have hfits := fits_of_switchBlock hswitch left
    rw [addFragment_eq hswitch]
    obtain ⟨w', hemit⟩ | ⟨hcopies, outcome, buffer, hemit, houtcome⟩ := emit_kept env henv w₁
      (.of isBegin (decide (left.length ≤ format.room w.blockOffset)))
      (left.take (format.room w.blockOffset)) (htrailer.ready.accepts _) hfits
    · rw [hemit]
      exact .inl ⟨w', rfl, htrailer.trans (wrote_fragment henv htrailer.ready _ hemit hfits)⟩
    · rw [hemit]
      exact .inr ⟨outcome, _, _, [.trailer] ++ [], rfl, ⟨houtcome, hcopies⟩,
        htrailer.trans (.nil htrailer.ready buffer), .inr rfl⟩
  · refine .inr ⟨.threw "CUDA error", w, left, [], ?_, ⟨trivial, htrailer⟩,
      .nil hready w.headerBuffer, .inl rfl⟩
    simp only [addFragment, hthrew]

-- A reader that is about to see a fragment of a record: all it has read of that record
-- is `before`. Ahead of the first fragment it may hold the rest of a failed call.
def Awaits (isBegin : Bool) (before : Bytes) (part : Option Bytes) : Prop :=
  if isBegin = true then before = [] else part = some before

theorem absorb_awaited (h : Awaits isBegin before part) (body : Bytes) (isEnd : Bool) :
    absorb part body (.of isBegin isEnd) =
      if isEnd = true then (some (before ++ body), none) else (none, some (before ++ body)) := by
  cases isBegin with
  | true =>
    cases (h : before = [])
    cases isEnd <;> rfl
  | false =>
    cases (h : part = some before)
    cases isEnd <;> rfl

theorem addRecordLoop_stopped (env : Nat → FragmentEnv)
    (hstep : addFragment (env 0) isBegin w left = (outcome, w', left'))
    (hfailed : Failed outcome) : addRecordLoop env isBegin w left = (outcome, w') := by
  refine Framing.Emitter.run_of_done hstep ?_
  rintro rfl
  exact absurd rfl hfailed

theorem assemble_stopped (part : Option Bytes)
    (hchunks : chunks = [] ∨ chunks = [Chunk.trailer]) (rest : List (Chunk UInt8)) :
    assemble part (chunks ++ rest) = assemble part rest := by
  obtain rfl | rfl := hchunks <;> rfl

-- AddRecord writes a record that a reader returns, if it returned OK, and otherwise
-- fragments that never end a record.
theorem addRecordLoop_kept (env : Nat → FragmentEnv) (henv : ∀ index, (env index).Kept)
    (isBegin : Bool) (w : GWALWriter) (hready : w.Ready) (left before : Bytes)
    (part : Option Bytes) (hpart : Awaits isBegin before part) :
    ∃ outcome w' chunks, addRecordLoop env isBegin w left = (outcome, w') ∧ Wrote w chunks w' ∧
      ((outcome = .returned .ok ∧ ∀ rest,
          assemble part (chunks ++ rest) = (before ++ left) :: assemble none rest) ∨
        ((Failed outcome ∧ ∃ index, ¬(env index).Complete) ∧
          ∃ part', ∀ rest, assemble part (chunks ++ rest) = assemble part' rest)) := by
  generalize hoffset : w.blockOffset = offset
  induction offset, isBegin, left using format.pieces_induction
    generalizing w env before part with
  | last offset isBegin left hle =>
    subst hoffset
    obtain ⟨w', hstep, hwrote⟩ | ⟨outcome, w', left', chunks, hstep, hfailed, hwrote, hchunks⟩ :=
      addFragment_kept (henv 0) hready isBegin left
    · rw [List.drop_eq_nil_of_le hle] at hstep
      rw [List.take_of_length_le hle, decide_eq_true hle] at hwrote
      refine ⟨_, w', _, Framing.Emitter.run_of_done hstep fun _ => rfl, hwrote, .inl ⟨rfl, ?_⟩⟩
      intro rest
      simp only [List.cons_append, assemble, absorb_awaited hpart, ite_true]
      rfl
    · exact ⟨outcome, w', chunks, addRecordLoop_stopped env hstep hfailed.1, hwrote,
        .inr ⟨⟨hfailed.1, 0, hfailed.2⟩, part, assemble_stopped part hchunks⟩⟩
  | more offset isBegin left hlt ih =>
    subst hoffset
    obtain ⟨w₁, hstep, hwrote⟩ | ⟨outcome, w', left', chunks, hstep, hfailed, hwrote, hchunks⟩ :=
      addFragment_kept (henv 0) hready isBegin left
    · have hpos : 0 < (left.drop (format.room w.blockOffset)).length := by
        rw [List.length_drop]
        omega
      have hoffset := (addFragment_progress hstep).2
      rw [Nat.min_eq_right (Nat.le_of_lt hlt), format.start_add_room] at hoffset
      rw [decide_eq_false (Nat.not_le.mpr hlt)] at hwrote
      obtain ⟨outcome, w', chunks, hloop, hrest, hyields⟩ := ih (fun index => env (index + 1))
        (fun index => henv (index + 1)) w₁ hwrote.ready
        (before ++ left.take (format.room w.blockOffset)) _ rfl hoffset
      refine ⟨outcome, w', _, (Framing.Emitter.run_of_more hstep hpos).trans hloop,
        hwrote.trans hrest, ?_⟩
      rw [List.append_assoc, List.take_append_drop] at hyields
      simp only [List.cons_append, List.nil_append, assemble, absorb_awaited hpart]
      obtain hall | ⟨⟨hfailed, index, hindex⟩, hparts⟩ := hyields
      · exact .inl hall
      · exact .inr ⟨⟨hfailed, index + 1, hindex⟩, hparts⟩
    · exact ⟨outcome, w', chunks, addRecordLoop_stopped env hstep hfailed.1, hwrote,
        .inr ⟨⟨hfailed.1, 0, hfailed.2⟩, part, assemble_stopped part hchunks⟩⟩

theorem addRecord_kept (henv : ∀ index, (env index).Kept) {w : GWALWriter} (hready : w.Ready)
    (data : Bytes) :
    ∃ outcome w', w.addRecord env data = (outcome, w') ∧ w'.Ready ∧
      (outcome = .returned .ok ∨ Failed outcome ∧ ∃ index, ¬(env index).Complete) := by
  obtain ⟨outcome, w', chunks, hadd, hwrote, hyields⟩ :=
    addRecordLoop_kept env henv true w hready data [] none rfl
  exact ⟨outcome, w', hadd, hwrote.ready, hyields.imp And.left And.left⟩

-- The header and the payload of a first fragment are always copied.
theorem prepared_of_addRecord (h : addRecord env w data = (.returned .ok, w')) :
    (env 0).Prepared := by
  obtain ⟨w₁, left', hpass, -⟩ := Framing.Emitter.pass_of_run h
  obtain ⟨w₂, -, hemit⟩ := emit_of_addFragment hpass
  exact (emit_returned w₂ hemit).1

theorem runCalls_failed {w : GWALWriter} (call : AddRecordCall)
    (hadd : w.addRecord call.env call.data = (outcome, w')) (hfailed : Failed outcome)
    (calls : List AddRecordCall) : w.runCalls (call :: calls) = w'.runCalls calls := by
  simp only [runCalls, hadd]
  cases outcome with
  | returned status =>
    cases status with
    | ok => exact absurd rfl hfailed
    | _ => rfl
  | threw what => rfl
  | aborted text => exact hfailed.elim

theorem runCalls_append (calls more : List AddRecordCall)
    (hcalls : ∀ call ∈ calls, ∀ index, (call.env index).Kept) {w : GWALWriter}
    (hready : w.Ready) :
    w.runCalls (calls ++ more) =
      (((w.runCalls calls).1.runCalls more).1,
        (w.runCalls calls).2 ++ ((w.runCalls calls).1.runCalls more).2) := by
  induction calls generalizing w with
  | nil => rfl
  | cons call calls ih =>
    have hrest (next : AddRecordCall) (hnext : next ∈ calls) := hcalls next (.tail _ hnext)
    obtain ⟨outcome, w₁, hadd, hready₁, houtcome⟩ :=
      addRecord_kept (hcalls call (.head _)) hready call.data
    obtain rfl | ⟨hfailed, -⟩ := houtcome
    · simp only [List.cons_append, runCalls, hadd, ih hrest hready₁]
    · rw [List.cons_append, runCalls_failed call hadd hfailed,
        runCalls_failed call hadd hfailed,
        ih hrest hready₁]

-- The chunks of a run of calls add up to the records that were reported as written.
theorem runCalls_kept (calls : List AddRecordCall)
    (hcalls : ∀ call ∈ calls, ∀ index, (call.env index).Kept) (w : GWALWriter)
    (hready : w.Ready) (part : Option Bytes) :
    ∃ chunks, Wrote w chunks (w.runCalls calls).1 ∧
      assemble part chunks = (w.runCalls calls).2 := by
  induction calls generalizing w part with
  | nil => exact ⟨[], .nil hready w.headerBuffer, rfl⟩
  | cons call calls ih =>
    have hrest (next : AddRecordCall) (hnext : next ∈ calls) := hcalls next (.tail _ hnext)
    obtain ⟨outcome, w₁, chunks, hadd, hwrote, hyields⟩ := addRecordLoop_kept call.env
      (hcalls call (.head _)) true w hready call.data [] part rfl
    have hrecord : w.addRecord call.env call.data = (outcome, w₁) := hadd
    obtain ⟨rfl, hyields⟩ | ⟨⟨hfailed, -⟩, part', hyields⟩ := hyields
    · obtain ⟨more, hmore, hrecords⟩ := ih hrest w₁ hwrote.ready none
      simp only [runCalls, hrecord]
      exact ⟨chunks ++ more, hwrote.trans hmore, by rw [hyields, hrecords]; rfl⟩
    · obtain ⟨more, hmore, hrecords⟩ := ih hrest w₁ hwrote.ready part'
      rw [runCalls_failed call hrecord hfailed]
      exact ⟨chunks ++ more, hwrote.trans hmore, by rw [hyields, hrecords]⟩

section Fresh

variable (assertions : Bool) (headerBuffer : DeviceBuffer kRecyclableHeaderSize)
variable (trailerBuffer : DeviceBuffer trailerBufferSize)

theorem place_fresh (l : Framing.Layout UInt8) (chunks : List (Chunk UInt8)) :
    l.place l.blockSize (.trailer :: chunks) = l.place 0 chunks := by
  rw [Framing.Layout.place, l.padding_blockSize, l.start_blockSize, List.take_zero,
    List.nil_append]

-- Where every failure comes before the append of a fragment, the block offset keeps up
-- with the file and the reader finds exactly the records that were reported as written.
theorem runCalls_framed (calls : List AddRecordCall)
    (hcalls : ∀ call ∈ calls, ∀ index, (call.env index).Kept) :
    let w := ((create [] assertions headerBuffer trailerBuffer).runCalls calls).1
    w.blockOffset ≡ w.dest.fileSize + w.dest.writeBuffer.length [MOD kBlockSize] ∧
      ∀ (env : ReaderEnv) (mode : WALRecoveryMode) (extra : Nat), ∃ r,
        Reader.readRecords env mode ((w.dest.close {}).length + 1 + extra)
          ((w.dest.close {}).length + 1 + extra) { file := w.dest.close {} } =
          some (((create [] assertions headerBuffer trailerBuffer).runCalls calls).2, r) := by
  have hready := ready_create assertions headerBuffer trailerBuffer
  generalize hw₀ : create [] assertions headerBuffer trailerBuffer = w₀ at hready
  have hoffset : w₀.blockOffset = 0 := by rw [← hw₀]; rfl
  have hempty : w₀.dest.contents = [] := by rw [← hw₀]; rfl
  obtain ⟨chunks, hwrote, hrecords⟩ := runCalls_kept calls hcalls w₀ hready none
  generalize (w₀.runCalls calls).1 = w at hwrote
  have hsound := hwrote.ready.sound
  have hcontents : w.dest.contents =
      w₀.dest.contents ++ w₀.layout.place w₀.blockOffset chunks := hwrote.appended.contents
  rw [hempty, List.nil_append, hoffset] at hcontents
  constructor
  · have hmod := w₀.layout.position_modEq hwrote.fits hready.offset_le
    have hlength : w.dest.contents.length = w.dest.fileSize + w.dest.writeBuffer.length := by
      rw [hsound.contents_eq, List.length_append, hsound.disk_length]
    rw [← hlength, hcontents, hwrote.offset]
    rw [hoffset, Nat.zero_add] at hmod
    rw [hoffset]
    exact hmod
  · intro env mode extra
    rw [hsound.close_eq, hcontents, ← place_fresh, ← hrecords]
    have hfits : format.Fits format.blockSize (.trailer :: chunks) := by
      rw [Framing.Format.Fits, Framing.Format.move, format.start_blockSize, ← hoffset]
      exact ⟨hready.offset_le, hwrote.fits⟩
    have hfuel (length : Nat) : length < length + 1 + extra := by omega
    exact Reader.readRecords_place env mode _ (length_filler w₀) (.trailer :: chunks) kBlockSize
      _ _ _ hfits (hfuel _) (hfuel _) (Reader.loaded_open _)

end Fresh

-- A header that cannot be formatted, then a record.
theorem runCalls_framed_after_throw :
    let w := ((create [] true ⟨List.replicate 11 0, rfl⟩ ⟨List.replicate 16 0, rfl⟩).runCalls
      [⟨fun _ => { formatHeader := false }, [1]⟩, ⟨fun _ => {}, [2]⟩]).1
    w.blockOffset ≡ w.dest.fileSize + w.dest.writeBuffer.length [MOD kBlockSize] := by
  refine (runCalls_framed true _ _ _ ?_).1
  intro call hcall index
  simp only [List.mem_cons, List.not_mem_nil, or_false] at hcall
  obtain rfl | rfl := hcall
  · exact ⟨rfl, rfl, rfl⟩
  · exact ⟨rfl, rfl, rfl⟩

-- The record is in the file when the check behind the append throws.
theorem runCalls_shifted :
    let w := ((create [] true ⟨List.replicate 11 0, rfl⟩ ⟨List.replicate 16 0, rfl⟩).runCalls
      [⟨fun _ => { synchronize := false }, [7]⟩]).1
    ¬w.blockOffset ≡ w.dest.fileSize + w.dest.writeBuffer.length [MOD kBlockSize] := by
  have hadd := addRecordLoop_stopped (fun _ => { synchronize := false })
    (show addFragment { synchronize := false } true
      (create [] true ⟨List.replicate 11 0, rfl⟩ ⟨List.replicate 16 0, rfl⟩) [7] = _ from rfl)
    trivial
  simp only [runCalls, addRecord, hadd]
  decide

end GWALWriter

end MlkvPlus.Gds
