import MlkvPlus.Gwal.Replay
import MlkvPlus.Log.Reader.Shifted

namespace MlkvPlus.Gds.GWALWriter

open Log

section Reopened

variable (assertions : Bool)
variable (headerBuffer headerBuffer' : DeviceBuffer kRecyclableHeaderSize)
variable (trailerBuffer trailerBuffer' : DeviceBuffer trailerBufferSize)

-- The file that a writer leaves behind when it is destroyed.
def closedLog (payloads : List Bytes) : Bytes :=
  ((create [] assertions headerBuffer trailerBuffer).addRecords payloads).2.dest.close {}

theorem closedLog_eq (payloads : List Bytes) :
    closedLog assertions headerBuffer trailerBuffer payloads =
      (create [] assertions headerBuffer trailerBuffer).layout.log format.blockSize payloads := by
  obtain ⟨w, hadd, hready, hcontents⟩ :=
    addRecords_create assertions headerBuffer trailerBuffer payloads
  rw [closedLog, hadd, hready.sound.close_eq, hcontents]

theorem length_closedLog (payloads : List Bytes) :
    (closedLog assertions headerBuffer trailerBuffer payloads).length =
      format.total 0 (payloads.map List.length) := by
  rw [closedLog_eq, Framing.Format.total, format.sizes_zero]
  exact Framing.Layout.length_log _ format.blockSize payloads

theorem finish_modEq_total (lengths : List Nat) :
    format.finish format.blockSize lengths ≡ format.total 0 lengths [MOD kBlockSize] := by
  rw [Framing.Format.total, format.sizes_zero]
  have hmod := format.finish_modEq format.blockSize lengths (Nat.le_refl _)
  exact hmod.trans (Nat.add_modEq_left)

theorem dense_create (file : Bytes) :
    (create file assertions headerBuffer trailerBuffer).dest.Dense :=
  ⟨⟨show 0 < 4096 by decide, show 0 < 4096 by decide⟩, rfl, rfl⟩

theorem contents_create (file : Bytes) :
    (create file assertions headerBuffer trailerBuffer).dest.contents = file := by
  simp [create, GDSFileSystem.initializeGDS, GDSFileSystem.contents]

theorem lays_dense : emitter.Lays stream FragmentEnv.Kept Keeps (·.dest.Dense) :=
  lays id fun _ hkeeps _ => hkeeps.dense

-- A second writer counts its blocks from the end of the file. In builds with assertions it
-- writes nothing to a file that does not end with a whole unit.
theorem close_of_addRecords (file : Bytes) (payloads : List Bytes)
    (hadd : (create file assertions headerBuffer trailerBuffer).addRecords payloads =
      (.returned .ok, w)) :
    w.dest.close {} = file ++
        (create file assertions headerBuffer trailerBuffer).layout.log 0 payloads ∧
      (assertions = true → 4096 ∣ file.length ∨
        format.total 0 (payloads.map List.length) < 4096) := by
  obtain ⟨hdense, happended⟩ := Framing.addAll_appended (fun _ h => Keeps.refl h)
    (fun hgood hrecord => lays_dense.run (fun _ => .clean) hgood hrecord) payloads
    (dense_create assertions headerBuffer trailerBuffer file) hadd
  have hcontents : w.dest.contents = file ++
      (create file assertions headerBuffer trailerBuffer).layout.log 0 payloads := by
    rw [← contents_create assertions headerBuffer trailerBuffer file]
    exact happended.contents
  refine ⟨hdense.close_eq.trans hcontents, ?_⟩
  intro hassert
  rw [or_iff_not_imp_left]
  intro hndvd
  have hsize : w.dest.fileSize = file.length := happended.keeps.unaligned hassert hndvd
  have hoptions : w.dest.options = {} := happended.keeps.options
  have hstaged := hdense.staged_lt
  have hlength := congrArg List.length hcontents
  have hlog : ((create file assertions headerBuffer trailerBuffer).layout.log 0 payloads).length =
      format.total 0 (payloads.map List.length) := Framing.Layout.length_log _ 0 payloads
  rw [hdense.contents_eq, List.length_append, hdense.disk_length, hsize, List.length_append,
    hlog] at hlength
  rw [hoptions] at hstaged
  change _ < 4096 at hstaged
  omega

theorem addRecords_reopened (file : Bytes) (payloads : List Bytes)
    (hstaged : assertions = true → 4096 ∣ file.length ∨
      format.total 0 (payloads.map List.length) < 4096) :
    ∃ w, (create file assertions headerBuffer trailerBuffer).addRecords payloads =
      (.returned .ok, w) := by
  have hdense := dense_create assertions headerBuffer trailerBuffer file
  obtain ⟨w, hadd, -⟩ := addRecords_accepts lays_dense id hdense payloads
    ⟨hdense, rfl, Nat.zero_le _, fun hassert => (hstaged hassert).imp_right
      fun hlt => (Nat.zero_add _).trans_lt hlt⟩
  exact ⟨w, hadd⟩

-- A second writer on the same path, as the reader sees it.
def ReadsBack (env : ReaderEnv) (mode : WALRecoveryMode) (extra : Nat)
    (p q : List Bytes) : Prop :=
  ∃ w, (create (closedLog assertions headerBuffer trailerBuffer p) assertions headerBuffer'
      trailerBuffer').addRecords q = (.returned .ok, w) ∧
    ∃ r, Reader.readRecords env mode ((w.dest.close {}).length + 1 + extra)
      ((w.dest.close {}).length + 1 + extra) { file := w.dest.close {} } = some (p ++ q, r)

def reopenedLog (p q : List Bytes) : Bytes :=
  closedLog assertions headerBuffer trailerBuffer p ++
    (create (closedLog assertions headerBuffer trailerBuffer p) assertions headerBuffer'
      trailerBuffer').layout.log 0 q

variable (env : ReaderEnv) (mode : WALRecoveryMode) (extra : Nat)

def FileReads (file : Bytes) (records : List Bytes) : Prop :=
  ∃ r, Reader.readRecords env mode (file.length + 1 + extra) (file.length + 1 + extra)
    { file := file } = some (records, r)

theorem readsBack_iff_fileReads (p q : List Bytes) :
    ReadsBack assertions headerBuffer headerBuffer' trailerBuffer trailerBuffer' env mode extra
        p q ↔
      (assertions = true → 4096 ∣ format.total 0 (p.map List.length) ∨
        format.total 0 (q.map List.length) < 4096) ∧
      FileReads env mode extra
        (reopenedLog assertions headerBuffer headerBuffer' trailerBuffer trailerBuffer' p q)
        (p ++ q) := by
  rw [← length_closedLog assertions headerBuffer trailerBuffer p]
  constructor
  · rintro ⟨w, hadd, hread⟩
    obtain ⟨hclose, hstaged⟩ := close_of_addRecords assertions headerBuffer' trailerBuffer' _ q hadd
    rw [hclose] at hread
    exact ⟨hstaged, hread⟩
  · rintro ⟨hstaged, hread⟩
    obtain ⟨w, hadd⟩ := addRecords_reopened assertions headerBuffer' trailerBuffer' _ q hstaged
    refine ⟨w, hadd, ?_⟩
    rw [(close_of_addRecords assertions headerBuffer' trailerBuffer' _ q hadd).1]
    exact hread

theorem readRecords_closedLog (p : List Bytes) (more : Bytes) (fuel : Nat)
    (hfuel : (closedLog assertions headerBuffer trailerBuffer p ++ more).length < fuel) :
    ∃ r count, Reader.Loaded (format.finish format.blockSize (p.map List.length)) more r ∧
      r.recycled = false ∧ (p ≠ [] → r.firstRecordRead = true) ∧ more.length < count ∧
      Reader.readRecords env mode fuel fuel
          { file := closedLog assertions headerBuffer trailerBuffer p ++ more } =
        (Reader.readRecords env mode fuel count r).map fun (rest, r') => (p ++ rest, r') := by
  have hloaded := Reader.loaded_open (closedLog assertions headerBuffer trailerBuffer p ++ more)
  have hlength : p.length ≤ (closedLog assertions headerBuffer trailerBuffer p).length := by
    rw [closedLog_eq]
    exact Framing.Layout.count_le_length_log _ _ p
  rw [List.length_append] at hfuel
  obtain ⟨count, hcount⟩ := Nat.exists_eq_add_of_le (show p.length ≤ fuel by omega)
  have hlog := congrArg List.length (closedLog_eq assertions headerBuffer trailerBuffer p)
  rw [closedLog_eq] at hloaded
  obtain ⟨r, hrest, hrecycled, -, hfirst, hread⟩ :=
    (Reader.reads_noChecksum env mode _ (length_filler _) false).records p format.blockSize fuel
      count more _ (hlog.symm.trans_lt (by omega)) rfl hloaded
  refine ⟨r, count, hrest, hrecycled, fun hne => hfirst (.inr hne), by omega, ?_⟩
  nth_rewrite 2 [hcount]
  rw [closedLog_eq]
  exact hread

theorem fileReads_reopenedLog (p q : List Bytes) (hp : p ≠ []) :
    ∃ fuel count r, Reader.Behind (format.total 0 (p.map List.length)) 0
        ((create (closedLog assertions headerBuffer trailerBuffer p) assertions headerBuffer'
          trailerBuffer').layout.log 0 q) r ∧
      q.length < count ∧ 2 ≤ fuel ∧
      (FileReads env mode extra
          (reopenedLog assertions headerBuffer headerBuffer' trailerBuffer trailerBuffer' p q)
          (p ++ q) ↔
        ∃ r', Reader.readRecords env mode fuel count r = some (q, r')) := by
  generalize hlog : (create (closedLog assertions headerBuffer trailerBuffer p) assertions
    headerBuffer' trailerBuffer').layout.log 0 q = log
  rw [FileReads, reopenedLog, hlog]
  generalize hfuel : (closedLog assertions headerBuffer trailerBuffer p ++ log).length + 1 + extra =
    fuel
  obtain ⟨r, count, hloaded, hrecycled, hfirst, hcount, hread⟩ := readRecords_closedLog assertions
    headerBuffer trailerBuffer env mode p log fuel (by omega)
  have hbounds := format.finish_bounds format.blockSize (p.map List.length) (by decide)
    (Nat.le_refl _)
  have hlength := Framing.Layout.count_le_length_log (create (closedLog assertions headerBuffer
    trailerBuffer p) assertions headerBuffer' trailerBuffer').layout 0 q
  rw [hlog] at hlength
  refine ⟨fuel, count, r, ⟨⟨hfirst hp, hrecycled⟩, _, hbounds.2, finish_modEq_total _, hloaded⟩,
    Nat.lt_of_le_of_lt hlength hcount, ?_, ?_⟩
  · -- the old file holds a record
    obtain ⟨data, rest, rfl⟩ := List.exists_cons_of_ne_nil hp
    have hheader : kHeaderSize ≤ format.size 0 data.length := format.header_le_size 0 data.length
    rw [List.length_append, length_closedLog, List.map_cons, Framing.Format.total,
      Framing.Format.sizes, List.sum_cons] at hfuel
    simp only [kHeaderSize] at hheader
    omega
  · rw [hread]
    simp only [Option.map_eq_some_iff, Prod.exists, Prod.mk.injEq, List.append_cancel_left_eq]
    constructor
    · rintro ⟨r', rest, r'', hrest, rfl, rfl⟩
      exact ⟨_, hrest⟩
    · rintro ⟨r', hrest⟩
      exact ⟨r', q, r', hrest, rfl, rfl⟩

theorem ne_nil_of_not_dvd (hndvd : ¬kBlockSize ∣ format.total 0 (p.map List.length)) :
    p ≠ ([] : List Bytes) := by
  rintro rfl
  exact hndvd (Nat.dvd_zero _)

-- Which records a second writer can add to a log, by the lengths of the records before it and of
-- its own: the old ones fill whole blocks, or the new ones stay within the blocks of the reader.
-- In builds with assertions they must also not reach the disk, unless the old file ends with a
-- whole unit.
def Appendable (assertions : Bool) (old new : List Nat) : Prop :=
  kBlockSize ∣ format.total 0 old ∨
    format.AllInStep (format.total 0 old) 0 new ∧
      (assertions = true → 4096 ∣ format.total 0 old ∨ format.total 0 new < 4096)

theorem Appendable.of_append (h : Appendable assertions old (new ++ more)) :
    Appendable assertions old new := by
  obtain hdvd | ⟨hall, hstaged⟩ := h
  · exact .inl hdvd
  · refine .inr ⟨hall.of_append, ?_⟩
    intro hassert
    exact (hstaged hassert).imp_right (format.total_le_of_append 0 new more).trans_lt

theorem readsBack_of_dvd (p q : List Bytes)
    (hdvd : kBlockSize ∣ format.total 0 (p.map List.length)) :
    ReadsBack assertions headerBuffer headerBuffer' trailerBuffer trailerBuffer' env mode extra
      p q := by
  rw [readsBack_iff_fileReads]
  refine ⟨fun _ => .inl (Nat.dvd_trans (by decide) hdvd), ?_⟩
  generalize hw : create (closedLog assertions headerBuffer trailerBuffer p) assertions
    headerBuffer' trailerBuffer' = w
  have hzero : w.layout.log 0 q = w.layout.log format.blockSize q := w.layout.log_zero q
  rw [FileReads, reopenedLog, hw, hzero]
  generalize hfuel : (closedLog assertions headerBuffer trailerBuffer p ++
    w.layout.log format.blockSize q).length + 1 + extra = fuel
  obtain ⟨r, count, hloaded, hrecycled, -, hcount, hread⟩ := readRecords_closedLog assertions
    headerBuffer trailerBuffer env mode p (w.layout.log format.blockSize q) fuel (by omega)
  -- the reader has read the last block of the old file to its end
  have hbounds := format.finish_bounds format.blockSize (p.map List.length) (by decide)
    (Nat.le_refl _)
  have hend : format.finish format.blockSize (p.map List.length) = kBlockSize := by
    have hmod := (finish_modEq_total (p.map List.length)).trans (Nat.modEq_zero_iff_dvd.mpr hdvd)
    exact Nat.le_antisymm hbounds.2 (Nat.le_of_dvd hbounds.1 (Nat.modEq_zero_iff_dvd.mp hmod))
  rw [hend] at hloaded
  rw [List.length_append] at hfuel
  obtain ⟨r', hrest, -⟩ := (Reader.reads_noChecksum env mode _ w.length_filler false).whole q
    format.blockSize fuel count r (show (w.layout.log format.blockSize q).length < fuel by omega)
    (Nat.lt_of_le_of_lt (w.layout.count_le_length_log format.blockSize q) hcount) hrecycled hloaded
  exact ⟨r', hread.trans (by rw [hrest, Option.map_some])⟩

theorem readsBack_of_appendable (p q : List Bytes)
    (h : Appendable assertions (p.map List.length) (q.map List.length)) :
    ReadsBack assertions headerBuffer headerBuffer' trailerBuffer trailerBuffer' env mode extra
      p q := by
  by_cases hdvd : kBlockSize ∣ format.total 0 (p.map List.length)
  · exact readsBack_of_dvd assertions headerBuffer headerBuffer' trailerBuffer trailerBuffer' env
      mode extra p q hdvd
  · obtain ⟨hall, hstaged⟩ := h.resolve_left hdvd
    obtain ⟨fuel, count, r, hbehind, hcount, hfuel, hreads⟩ := fileReads_reopenedLog assertions
      headerBuffer headerBuffer' trailerBuffer trailerBuffer' env mode extra p q
      (ne_nil_of_not_dvd hdvd)
    rw [readsBack_iff_fileReads, hreads]
    exact ⟨hstaged, Reader.readRecords_inStep _ (length_filler _) q hfuel hcount (Nat.zero_le _)
      hall hbehind⟩

-- Lists that are read back whatever their bytes are, and every initial part with them.
theorem appendable_of_readsBack_all (p q : List Bytes)
    (hall : ∀ q', q'.map List.length <+: q.map List.length →
      ReadsBack assertions headerBuffer headerBuffer' trailerBuffer trailerBuffer' env mode extra
        p q') :
    Appendable assertions (p.map List.length) (q.map List.length) := by
  rw [Appendable, or_iff_not_imp_left]
  intro hndvd
  have hq := hall q (List.prefix_refl _)
  rw [readsBack_iff_fileReads] at hq
  refine ⟨?_, hq.1⟩
  by_contra hnot
  obtain ⟨front, length, rest, hlengths, hfront, hlost⟩ := format.exists_not_inStep hnot
  -- up to the record out of step, with bytes that the reader refuses as types
  let refused (length : Nat) : Bytes := List.replicate length RecordType.kRecyclableFullType.code
  have hmap (lengths : List Nat) : (lengths.map refused).map List.length = lengths := by
    rw [List.map_map]
    exact (List.map_congr_left fun length _ => List.length_replicate).trans lengths.map_id'
  have hread := hall (front.map refused ++ [refused length]) (by
    rw [← List.map_singleton, ← List.map_append, hmap, hlengths]
    exact ⟨rest, by rw [List.append_assoc, List.singleton_append]⟩)
  obtain ⟨fuel, count, r, hbehind, -, hfuel, hreads⟩ := fileReads_reopenedLog assertions
    headerBuffer headerBuffer' trailerBuffer trailerBuffer' env mode extra p
    (front.map refused ++ [refused length]) (ne_nil_of_not_dvd hndvd)
  rw [readsBack_iff_fileReads, hreads] at hread
  obtain ⟨-, r', hread⟩ := hread
  exact Reader.not_readRecords_of_not_inStep _ (length_filler _) (front.map refused) hndvd hfuel
    (Nat.zero_le _) (by decide) (by rw [hmap]; exact hfront) (by rw [hmap]; exact hlost) hbehind
    hread

theorem appendable_of_readsBack (p q : List Bytes) (htight : format.Tight 0 (q.map List.length))
    (h : ReadsBack assertions headerBuffer headerBuffer' trailerBuffer trailerBuffer' env mode
      extra p q) :
    Appendable assertions (p.map List.length) (q.map List.length) := by
  rw [Appendable, or_iff_not_imp_left]
  intro hndvd
  obtain ⟨fuel, count, r, hbehind, -, hfuel, hreads⟩ := fileReads_reopenedLog assertions
    headerBuffer headerBuffer' trailerBuffer trailerBuffer' env mode extra p q
    (ne_nil_of_not_dvd hndvd)
  rw [readsBack_iff_fileReads, hreads] at h
  obtain ⟨hstaged, r', hread⟩ := h
  exact ⟨Reader.allInStep_of_readRecords _ (length_filler _) q hndvd hfuel (Nat.zero_le _) htight
    hbehind hread, hstaged⟩

-- The lengths of the old and the new records decide whether a reopened log is read back, for
-- every list and each of its initial parts. A list that is cut nowhere without need is read back
-- only then; all others may be so by what their bytes happen to be.
theorem readsBack_iff (p q : List Bytes) :
    ((∀ q', q'.map List.length <+: q.map List.length →
        ReadsBack assertions headerBuffer headerBuffer' trailerBuffer trailerBuffer' env mode
          extra p q') ↔
      Appendable assertions (p.map List.length) (q.map List.length)) ∧
    (format.Tight 0 (q.map List.length) →
      (ReadsBack assertions headerBuffer headerBuffer' trailerBuffer trailerBuffer' env mode
          extra p q ↔
        Appendable assertions (p.map List.length) (q.map List.length))) := by
  refine ⟨⟨appendable_of_readsBack_all assertions headerBuffer headerBuffer' trailerBuffer
    trailerBuffer' env mode extra p q, ?_⟩, ?_⟩
  · rintro happendable q' ⟨rest, hrest⟩
    rw [← hrest] at happendable
    exact readsBack_of_appendable assertions headerBuffer headerBuffer' trailerBuffer
      trailerBuffer' env mode extra p q' happendable.of_append
  · intro htight
    exact ⟨appendable_of_readsBack assertions headerBuffer headerBuffer' trailerBuffer
      trailerBuffer' env mode extra p q htight,
      readsBack_of_appendable assertions headerBuffer headerBuffer' trailerBuffer
        trailerBuffer' env mode extra p q⟩

end Reopened

-- Behind a record of one byte: the new one starts in the same block and ends in the next.
theorem reopened_record_lost :
    ¬ReadsBack false ⟨List.replicate 11 0, rfl⟩ ⟨List.replicate 11 0, rfl⟩
      ⟨List.replicate 16 0, rfl⟩ ⟨List.replicate 16 0, rfl⟩
      { checksum := true
        logNumber := 1
        unmask := id
        crc32c := List.length
        decodesCompression := fun _ => false
        predecessorReports := fun _ _ => []
        timestampReports := fun _ => [] }
      .kPointInTimeRecovery 0 [[1]] [List.replicate 32754 0] := by
  intro h
  have hold : format.total 0 ([[1]].map (List.length (α := UInt8))) = 8 :=
    (congrArg (· + 0) (format.size_of_le 0 1 (by decide)))
  have hlength : [List.replicate 32754 (0 : UInt8)].map List.length = [32754] := by
    rw [List.map_singleton, List.length_replicate]
  have happendable := appendable_of_readsBack _ _ _ _ _ _ _ _ _ _
    (by rw [hlength]; exact format.tight_singleton 32754) h
  rw [Appendable, hold, hlength] at happendable
  obtain hdvd | ⟨⟨⟨-, hfirst, -⟩, -⟩, -⟩ := happendable
  · exact absurd hdvd (by decide)
  · exact absurd hfirst (by decide)

end MlkvPlus.Gds.GWALWriter
