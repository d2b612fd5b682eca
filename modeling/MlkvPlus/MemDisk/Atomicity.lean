import MlkvPlus.Gwal.Faults
import MlkvPlus.MemDisk.Agreement
import MlkvPlus.MemDisk.Durability

namespace MlkvPlus

open Gds Log WriteBatch

-- The first sequence number and the count in the header of a batch.
def sequenceRange (payload : Bytes) : Nat × Nat :=
  (Bytes.decodeFixed (payload.take 8), Bytes.decodeFixed ((payload.drop 8).take 4))

theorem sequenceRange_of_generate [Scalar K] [Scalar V] {pairs : List (K × Vector V dim)}
    (hsequence : sequenceNumber < 2 ^ 64) (hcount : pairs.length < 2 ^ 32)
    (h : generateTypedWriteBatch fresh pairs sequenceNumber = .ok payload) :
    sequenceRange payload = (sequenceNumber, pairs.length) := by
  have hheader := generateTypedWriteBatch_header h
  have hfirst : payload.take 8 = Bytes.fixed 8 sequenceNumber := by
    have htake := congrArg (List.take 8) hheader
    rw [List.take_take, List.take_left' (Bytes.length_fixed 8 sequenceNumber)] at htake
    exact htake
  have hsecond : (payload.drop 8).take 4 = Bytes.fixed 4 pairs.length := by
    have hdrop := congrArg (List.drop 8) hheader
    rw [List.drop_take, List.drop_left' (Bytes.length_fixed 8 sequenceNumber)] at hdrop
    exact hdrop
  rw [sequenceRange, hfirst, hsecond,
    Bytes.decodeFixed_fixed_of_lt (hsequence.trans_eq (by norm_num)),
    Bytes.decodeFixed_fixed_of_lt (hcount.trans_eq (by norm_num))]

def Call.count : Call K V dim → Nat
  | .put _ _ => 1
  | .multiset pairs => pairs.length

section Conditions

variable {K : Type} [Scalar K]

-- RocksDB's part of a call goes through.
def CallEnv.Writes (V : Type) [Scalar V] (dim : Nat) (env : CallEnv K) : Prop :=
  (Scalar.size K < 2 ^ 32 ∧ 8 + Scalar.size V * dim < 2 ^ 32) ∧ env.writeStatus = true

-- The log's part goes through.
def CallEnv.Logs (env : CallEnv K) : Prop :=
  env.walStatus = true ∧ ∀ index, (env.fragments index).Complete

-- The log's part stops before the first fragment of the record.
def CallEnv.LogStops (env : CallEnv K) : Prop :=
  env.walStatus = false ∨ ¬(env.fragments 0).Prepared

end Conditions

namespace MemDisk

variable {K V : Type} [Scalar K] [Scalar V] {dim : Nat}

-- Both parts of a call go through, or the part that comes second stops the call together with
-- the first one. A fragment that was appended is counted, and the numbers fit.
structure AllOrNone (s : MemDisk) (env : CallEnv K) (operation : Call K V dim) : Prop where
  kept : ∀ index, (env.fragments index).Kept
  count : operation.count < 2 ^ 32
  sequence : s.lastSequence + operation.count < 2 ^ 64
  parts : match operation with
    | .put _ _ => env.Writes V dim ∧ env.Logs ∨ ¬env.Writes V dim ∧ env.LogStops
    | .multiset _ => env.Writes V dim ∨ env.LogStops

-- What such a call does: everything, or nothing.
structure Done (s : MemDisk) (operation : Call K V dim) (s' : MemDisk) : Prop where
  sequence : s'.lastSequence = s.lastSequence + operation.count
  record : ∃ payload, sequenceRange payload = (s.lastSequence + 1, operation.count) ∧
    s'.appended = s.appended ++ [(s'.walFile, payload)]

structure Untouched (s s' : MemDisk) : Prop where
  sequence : s'.lastSequence = s.lastSequence
  memtable : s'.memtable = s.memtable
  appended : s'.appended = s.appended

-- A run of such calls, with changes of the current WAL between them.
inductive AtomicRun (K V : Type) [Scalar K] [Scalar V] (dim : Nat) (config : StorageConfig) :
    MemDisk → Prop where
  | start (lastSequence wal : Nat) (assertions : Bool)
      (headerBuffer : DeviceBuffer kRecyclableHeaderSize)
      (trailerBuffer : DeviceBuffer trailerBufferSize) :
      AtomicRun K V dim config
        (initializeTree lastSequence wal assertions headerBuffer trailerBuffer)
  | call (env : CallEnv K) (operation : Call K V dim) : AtomicRun K V dim config s →
      AllOrNone s env operation →
      s.call config env operation = (outcome, s') → AtomicRun K V dim config s'
  | newWal (gap : Nat) : AtomicRun K V dim config s →
      AtomicRun K V dim config { s with currentWal := s.currentWal + gap + 1 }

-- The writer went through calls of AddRecord that kept its block offset right, and the payloads
-- of its file are those for which it returned OK.
structure Framed (s : MemDisk) : Prop where
  writer : ∃ assertions headerBuffer trailerBuffer calls,
    (∀ call ∈ calls, ∀ index, (call.env index).Kept) ∧
      (GWALWriter.create [] assertions headerBuffer trailerBuffer).runCalls calls =
        (s.writer, s.payloads s.walFile)
  file_le : s.walFile ≤ s.currentWal
  appended_le : ∀ record ∈ s.appended, record.1 ≤ s.walFile

variable {s : MemDisk} {env : CallEnv K}

theorem Framed.ready (h : Framed s) : s.writer.Ready := by
  obtain ⟨assertions, headerBuffer, trailerBuffer, calls, hcalls, hrun⟩ := h.writer
  obtain ⟨chunks, hwrote, -⟩ := GWALWriter.runCalls_kept calls hcalls _
    (GWALWriter.ready_create assertions headerBuffer trailerBuffer) none
  rw [hrun] at hwrote
  exact hwrote.ready

-- Only the log changes.
structure LogOnly (s s' : MemDisk) : Prop where
  framed : Framed s'
  sequence : s'.lastSequence = s.lastSequence
  memtable : s'.memtable = s.memtable

theorem LogOnly.trans (h : LogOnly s s') (h' : LogOnly s' s'') : LogOnly s s'' :=
  ⟨h'.framed, h'.sequence.trans h.sequence, h'.memtable.trans h.memtable⟩

theorem Framed.selectWriter (h : Framed s) (env : CallEnv K) :
    ∃ outcome s', s.selectWriter env = (outcome, s') ∧ LogOnly s s' ∧ s'.appended = s.appended ∧
      (outcome = .returned () ∧ env.walStatus = true ∨
        (∃ what, outcome = .threw what) ∧ env.walStatus = false) := by
  unfold MemDisk.selectWriter
  split
  · rename_i hstatus
    exact ⟨_, _, rfl, ⟨h, rfl, rfl⟩, rfl, Or.inr ⟨⟨_, rfl⟩, hstatus⟩⟩
  rename_i hstatus
  rw [Bool.not_eq_false] at hstatus
  split
  · exact ⟨_, _, rfl, ⟨h, rfl, rfl⟩, rfl, Or.inl ⟨rfl, hstatus⟩⟩
  · -- a writer on the new file, which has no record yet
    rename_i hother
    have hlt : s.walFile < s.currentWal := Nat.lt_of_le_of_ne h.file_le hother
    have hnil : s.payloads s.currentWal = [] := payloads_eq_nil s h.appended_le hlt
    refine ⟨_, _, rfl, ⟨⟨⟨s.writer.dest.assertions, env.headerBuffer, env.trailerBuffer, [],
      List.forall_mem_nil _, ?_⟩, Nat.le_refl _, ?_⟩, rfl, rfl⟩, rfl, Or.inl ⟨rfl, hstatus⟩⟩
    · exact Prod.ext rfl hnil.symm
    · intro record hmem
      exact Nat.le_trans (h.appended_le record hmem) (Nat.le_of_lt hlt)

theorem Framed.appendRecord (h : Framed s) (hkept : ∀ index, (env.fragments index).Kept)
    (payload : Bytes) :
    ∃ outcome s', s.appendRecord env payload = (outcome, s') ∧ LogOnly s s' ∧
      (outcome = .returned () ∧ (env.fragments 0).Prepared ∧
          s'.appended = s.appended ++ [(s'.walFile, payload)] ∨
        (∃ what, outcome = .threw what) ∧ (∃ index, ¬(env.fragments index).Complete) ∧
          s'.appended = s.appended) := by
  obtain ⟨assertions, headerBuffer, trailerBuffer, calls, hcalls, hrun⟩ := h.writer
  obtain ⟨outcome, writer, hadd, -, houtcome⟩ := GWALWriter.addRecord_kept hkept h.ready payload
  have hmore : ∀ call ∈ calls ++ [⟨env.fragments, payload⟩], ∀ index, (call.env index).Kept := by
    rw [List.forall_mem_append]
    exact ⟨hcalls, List.forall_mem_singleton.mpr hkept⟩
  have hnext := GWALWriter.runCalls_append calls [⟨env.fragments, payload⟩] hcalls
    (GWALWriter.ready_create assertions headerBuffer trailerBuffer)
  rw [hrun] at hnext
  obtain rfl | ⟨hfailed, hindex⟩ := houtcome
  · have hwrote : (GWALWriter.runCalls s.writer [⟨env.fragments, payload⟩]) =
        (writer, [payload]) := by
      simp only [GWALWriter.runCalls, hadd]
    rw [hwrote] at hnext
    have hpayloads := payloads_append s s.walFile payload writer
    have hreturned : s.appendRecord env payload = (.returned (), { s with
        writer := writer, appended := s.appended ++ [(s.walFile, payload)] }) := by
      rw [MemDisk.appendRecord, hadd]
    refine ⟨_, _, hreturned, ⟨⟨⟨assertions, headerBuffer, trailerBuffer, _, hmore, ?_⟩,
      h.file_le, ?_⟩, rfl, rfl⟩, Or.inl ⟨rfl, GWALWriter.prepared_of_addRecord hadd, rfl⟩⟩
    · rw [hnext, hpayloads]
    · exact List.forall_mem_append.mpr ⟨h.appended_le, List.forall_mem_singleton.mpr le_rfl⟩
  · have hwrote : (GWALWriter.runCalls s.writer [⟨env.fragments, payload⟩]) = (writer, []) :=
      GWALWriter.runCalls_failed ⟨env.fragments, payload⟩ hadd hfailed []
    rw [hwrote, List.append_nil] at hnext
    have hframed : Framed { s with writer := writer } :=
      ⟨⟨assertions, headerBuffer, trailerBuffer, _, hmore, hnext⟩, h.file_le, h.appended_le⟩
    have hthrew : ∃ what, s.appendRecord env payload = (.threw what, { s with writer := writer }) := by
      rw [MemDisk.appendRecord, hadd]
      cases outcome with
      | returned status =>
        cases status with
        | ok => exact absurd rfl hfailed
        | _ => exact ⟨_, rfl⟩
      | threw what => exact ⟨_, rfl⟩
      | aborted text => exact hfailed.elim
    obtain ⟨what, hthrew⟩ := hthrew
    exact ⟨_, _, hthrew, ⟨hframed, rfl, rfl⟩, Or.inr ⟨⟨what, rfl⟩, hindex, rfl⟩⟩

-- The log part of a call, with failures that come before the append of a fragment.
theorem Framed.logBatch (h : Framed s) (hkept : ∀ index, (env.fragments index).Kept)
    (pairs : List (K × Vector V dim)) (hpos : 0 < pairs.length) (sequenceNumber : Nat) :
    ∃ outcome s', s.logBatch env pairs sequenceNumber = (outcome, s') ∧ LogOnly s s' ∧
      (outcome = .returned () ∧ ¬env.LogStops ∧
          (∃ payload, generateTypedWriteBatch env.fresh pairs sequenceNumber = .ok payload ∧
            s'.appended = s.appended ++ [(s'.walFile, payload)]) ∨
        (∃ what, outcome = .threw what) ∧ ¬env.Logs ∧ s'.appended = s.appended) := by
  obtain ⟨payload, hgenerate, -⟩ :=
    generateTypedWriteBatch_ok env.fresh pairs sequenceNumber hpos
  obtain ⟨selected, s₁, hselect, honly, hsame, hstatus⟩ := h.selectWriter env
  obtain ⟨rfl, hwal⟩ | ⟨⟨what, rfl⟩, hwal⟩ := hstatus
  · obtain ⟨outcome, s', happend, honly', houtcome⟩ := honly.framed.appendRecord hkept payload
    refine ⟨outcome, s', by rw [MemDisk.logBatch, hselect, hgenerate]; exact happend,
      honly.trans honly', ?_⟩
    rw [← hsame]
    obtain ⟨hreturned, hprepared, happended⟩ | ⟨hthrew, ⟨index, hincomplete⟩, happended⟩ := houtcome
    · refine Or.inl ⟨hreturned, ?_, payload, hgenerate, happended⟩
      rintro (hfalse | hunprepared)
      · rw [hwal] at hfalse
        cases hfalse
      · exact hunprepared hprepared
    · exact Or.inr ⟨hthrew, fun hlogs => hincomplete (hlogs.2 index), happended⟩
  · refine ⟨.threw what, s₁, by rw [MemDisk.logBatch, hselect], honly,
      Or.inr ⟨⟨what, rfl⟩, fun hlogs => ?_, hsame⟩⟩
    rw [hlogs.1] at hwal
    cases hwal

theorem rocksPut_writes (s : MemDisk) (hwrites : env.Writes V dim) (values : Vector V dim) :
    s.rocksPut env values = (true, { s with
      lastSequence := s.lastSequence + 1
      memtable := s.memtable ++
        numbered (s.lastSequence + 1) [⟨env.keyVariable.1, serializeValueArray values⟩] }) := by
  rw [rocksPut, put_accepts hwrites.1.1 hwrites.1.2 [] _ env.keyVariable.2]
  simp only [List.nil_append, write, hwrites.2, Bool.true_eq_false, ite_false,
    List.length_singleton]

theorem rocksPut_refused (s : MemDisk) (hrefused : ¬env.Writes V dim) (values : Vector V dim) :
    s.rocksPut env values = (false, s) := by
  by_cases hsize : Scalar.size K < 2 ^ 32 ∧ 8 + Scalar.size V * dim < 2 ^ 32
  · have hstatus : env.writeStatus = false := by
      by_contra hstatus
      exact hrefused ⟨hsize, by simpa using hstatus⟩
    rw [rocksPut, put_accepts hsize.1 hsize.2 [] _ env.keyVariable.2]
    dsimp only
    rw [write, if_pos hstatus]
  · obtain ⟨message, hput⟩ := put_refuses hsize [] _ env.keyVariable.2 values
    rw [rocksPut, hput]

variable {config : StorageConfig}

theorem Framed.put (hlog : config.enableGdsLog = true) (h : Framed s) {values : Vector V dim}
    (hparts : AllOrNone s env (.put key values)) :
    ∃ outcome s', s.put config env key values = (outcome, s') ∧ Framed s' ∧
      (outcome = .returned .SUCCESS ∧ Done s (.put key values) s' ∨
        outcome ≠ .returned .SUCCESS ∧ Untouched s s') := by
  obtain ⟨hwrites, hlogs⟩ | ⟨hrefused, hstops⟩ := hparts.parts
  · have hput := rocksPut_writes s hwrites values
    generalize hs₁ : { s with
      lastSequence := s.lastSequence + 1
      memtable := s.memtable ++ numbered (s.lastSequence + 1)
        [⟨env.keyVariable.1, serializeValueArray values⟩] } = s₁ at hput
    have hframed : Framed s₁ := by
      rw [← hs₁]
      exact ⟨h.writer, h.file_le, h.appended_le⟩
    have hsequence : s₁.lastSequence = s.lastSequence + 1 := by rw [← hs₁]
    have happended₁ : s₁.appended = s.appended := by rw [← hs₁]
    obtain ⟨outcome, s', hbatch, honly, houtcome⟩ :=
      hframed.logBatch hparts.kept [(key, values)] Nat.one_pos s₁.lastSequence
    obtain ⟨rfl, -, payload, hgenerate, happended⟩ :=
      houtcome.resolve_right fun hstopped => hstopped.2.1 hlogs
    refine ⟨.returned .SUCCESS, s', ?_, honly.framed, Or.inl ⟨rfl, ?_, payload, ?_, ?_⟩⟩
    · simp only [MemDisk.put, hput, hlog, if_true, hbatch]
    · rw [honly.sequence, hsequence]
      rfl
    · have hcount : [(key, values)].length < 2 ^ 32 := hparts.count
      rw [← hsequence]
      refine sequenceRange_of_generate ?_ hcount hgenerate
      rw [hsequence]
      exact hparts.sequence
    · rw [happended, happended₁]
  · obtain ⟨outcome, s', hbatch, honly, houtcome⟩ :=
      h.logBatch hparts.kept [(key, values)] Nat.one_pos s.lastSequence
    obtain ⟨⟨what, rfl⟩, -, happended⟩ :=
      houtcome.resolve_left fun hreturned => hreturned.2.1 hstops
    refine ⟨.threw what, s', ?_, honly.framed,
      Or.inr ⟨by simp, honly.sequence, honly.memtable, happended⟩⟩
    simp only [MemDisk.put, rocksPut_refused s hrefused values, hlog, if_true, hbatch]

theorem Framed.multiset (hlog : config.enableGdsLog = true) (h : Framed s)
    {pairs : List (K × Vector V dim)} (hparts : AllOrNone s env (.multiset pairs)) :
    ∃ outcome s', s.multiset config env pairs = (outcome, s') ∧ Framed s' ∧
      (outcome = .returned .SUCCESS ∧ Done s (.multiset pairs) s' ∨
        outcome ≠ .returned .SUCCESS ∧ Untouched s s') := by
  by_cases hempty : pairs.length = 0
  · have hthrew : s.multiset config env pairs = (.threw "RocksDB multiset error", s) := by
      rw [MemDisk.multiset, if_pos hempty]
    exact ⟨_, _, hthrew, h, Or.inr ⟨by simp, rfl, rfl, rfl⟩⟩
  have hpos := Nat.pos_of_ne_zero hempty
  obtain ⟨outcome, s₁, hbatch, honly, houtcome⟩ :=
    h.logBatch hparts.kept pairs hpos (s.lastSequence + 1)
  obtain ⟨rfl, hgoes, payload, hgenerate, happended⟩ | ⟨⟨what, rfl⟩, -, happended⟩ := houtcome
  · have hwrites : env.Writes V dim := hparts.parts.resolve_right hgoes
    have hlength : (buildBatch pairs).length = pairs.length := by
      rw [buildBatch_of_accepted hwrites.1.1 hwrites.1.2, List.length_map]
    have hframed : Framed { s₁ with
        lastSequence := s₁.lastSequence + (buildBatch pairs).length
        memtable := s₁.memtable ++ numbered (s₁.lastSequence + 1) (buildBatch pairs) } :=
      ⟨honly.framed.writer, honly.framed.file_le, honly.framed.appended_le⟩
    refine ⟨.returned .SUCCESS, _, ?_, hframed, Or.inl ⟨rfl, ?_, payload, ?_, happended⟩⟩
    · simp only [MemDisk.multiset, hempty, hlog, if_true, if_false, hbatch, writeBatch, write,
        hwrites.2, Bool.true_eq_false]
    · dsimp only
      rw [honly.sequence, hlength]
      rfl
    · have hfits := hparts.sequence
      refine sequenceRange_of_generate ?_ hparts.count hgenerate
      simp only [Call.count] at hfits
      omega
  · refine ⟨.threw what, s₁, ?_, honly.framed,
      Or.inr ⟨by simp, honly.sequence, honly.memtable, happended⟩⟩
    simp only [MemDisk.multiset, hempty, hlog, if_true, if_false, hbatch]

theorem Framed.call (hlog : config.enableGdsLog = true) (h : Framed s)
    {operation : Call K V dim} (hparts : AllOrNone s env operation) :
    ∃ outcome s', s.call config env operation = (outcome, s') ∧ Framed s' ∧
      (outcome = .returned .SUCCESS ∧ Done s operation s' ∨
        outcome ≠ .returned .SUCCESS ∧ Untouched s s') := by
  cases operation with
  | put key values => exact h.put hlog hparts
  | multiset pairs => exact h.multiset hlog hparts

-- The ranges of the records follow one another, and end before the next sequence number.
structure Ordered (s : MemDisk) : Prop where
  increasing : (s.appended.map fun record => sequenceRange record.2).Pairwise
    fun first second => first.1 + first.2 ≤ second.1
  bounded : ∀ record ∈ s.appended,
    (sequenceRange record.2).1 + (sequenceRange record.2).2 ≤ s.lastSequence + 1

omit [Scalar K] [Scalar V] in
theorem Ordered.done {s' : MemDisk} {operation : Call K V dim} (h : Ordered s)
    (hdone : Done s operation s') : Ordered s' := by
  obtain ⟨payload, hrange, happended⟩ := hdone.record
  constructor
  · rw [happended, List.map_append, List.pairwise_append]
    refine ⟨h.increasing, List.pairwise_singleton _ _, ?_⟩
    intro first hfirst second hsecond
    obtain ⟨record, hrecord, rfl⟩ := List.mem_map.mp hfirst
    obtain ⟨last, hlast, rfl⟩ := List.mem_map.mp hsecond
    rw [List.mem_singleton.mp hlast, hrange]
    exact h.bounded record hrecord
  · rw [happended, List.forall_mem_append, List.forall_mem_singleton, hrange, hdone.sequence]
    refine ⟨fun record hrecord => ?_, ?_⟩
    · have hbound := h.bounded record hrecord
      omega
    · dsimp only
      omega

theorem Ordered.untouched (h : Ordered s) (hsame : Untouched s s') : Ordered s' := by
  obtain ⟨hincreasing, hbounded⟩ := h
  rw [← hsame.appended] at hincreasing hbounded
  rw [← hsame.sequence] at hbounded
  exact ⟨hincreasing, hbounded⟩

theorem AtomicRun.invariant (hlog : config.enableGdsLog = true)
    (h : AtomicRun K V dim config s) : Framed s ∧ Ordered s := by
  induction h with
  | start lastSequence wal assertions headerBuffer trailerBuffer =>
    exact ⟨⟨⟨assertions, headerBuffer, trailerBuffer, [], List.forall_mem_nil _, rfl⟩,
      Nat.le_refl _, List.forall_mem_nil _⟩, List.Pairwise.nil, List.forall_mem_nil _⟩
  | call env operation _ hparts hcall ih =>
    obtain ⟨outcome, s', hcall', hframed, hdone⟩ := ih.1.call hlog hparts
    cases hcall.symm.trans hcall'
    refine ⟨hframed, ?_⟩
    obtain ⟨-, hdone⟩ | ⟨-, hsame⟩ := hdone
    · exact ih.2.done hdone
    · exact ih.2.untouched hsame
  | newWal gap _ ih =>
    obtain ⟨hframed, hordered⟩ := ih
    have hle := hframed.file_le
    exact ⟨⟨hframed.writer, by dsimp only; omega, hframed.appended_le⟩,
      hordered.increasing, hordered.bounded⟩

-- In a run whose calls do both of their parts or neither, a call that fails leaves the records
-- and the memtable alone, the ranges of the records follow one another, and the reader returns
-- the records of the current file.
theorem atomic_of_allOrNone (hlog : config.enableGdsLog = true) {s : MemDisk}
    (hrun : AtomicRun K V dim config s) :
    (∀ (env : CallEnv K) (operation : Call K V dim) outcome s', AllOrNone s env operation →
        s.call config env operation = (outcome, s') → outcome ≠ .returned .SUCCESS →
          s'.appended = s.appended ∧ s'.memtable = s.memtable) ∧
      (s.appended.map fun record => sequenceRange record.2).Pairwise
        (fun first second => first.1 + first.2 ≤ second.1) ∧
      ∀ (env : ReaderEnv) (mode : WALRecoveryMode) (extra : Nat), ∃ r,
        Reader.readRecords env mode ((s.writer.dest.close {}).length + 1 + extra)
          ((s.writer.dest.close {}).length + 1 + extra) { file := s.writer.dest.close {} } =
          some (s.payloads s.walFile, r) := by
  obtain ⟨hframed, hordered⟩ := hrun.invariant hlog
  refine ⟨fun env operation outcome s' hparts hcall hfailed => ?_, hordered.increasing, ?_⟩
  · obtain ⟨outcome', next, hcall', -, hdone⟩ := hframed.call hlog hparts
    cases hcall.symm.trans hcall'
    have hsame := (hdone.resolve_left fun hsuccess => hfailed hsuccess.1).2
    exact ⟨hsame.appended, hsame.memtable⟩
  · obtain ⟨assertions, headerBuffer, trailerBuffer, calls, hcalls, hcreated⟩ := hframed.writer
    have hread := (GWALWriter.runCalls_framed assertions headerBuffer trailerBuffer calls hcalls).2
    rw [hcreated] at hread
    exact hread

-- Neither part of the call goes through.
theorem atomic_of_both_failing :
    let env : CallEnv UInt64 := { clearedEnv with walStatus := false, writeStatus := false }
    ∃ s', clearedTree.call { enableGdsLog := true } env
        (.put (7 : UInt64) (#v[1] : Vector UInt32 1)) =
          (.threw "Failed to get current wal file", s') ∧
      s'.appended = clearedTree.appended ∧ s'.memtable = clearedTree.memtable := by
  intro env
  have hparts : AllOrNone clearedTree env (.put (7 : UInt64) (#v[1] : Vector UInt32 1)) :=
    ⟨fun _ => .clean, by decide, by decide, Or.inr ⟨nofun, Or.inl rfl⟩⟩
  have hlog : ({ enableGdsLog := true } : StorageConfig).enableGdsLog = true := rfl
  have hcall : clearedTree.call { enableGdsLog := true } env
      (.put (7 : UInt64) (#v[1] : Vector UInt32 1)) =
        (.threw "Failed to get current wal file", clearedTree) := rfl
  exact ⟨_, hcall,
    (atomic_of_allOrNone hlog (.start 0 4 true _ _)).1 env _ _ _ hparts hcall nofun⟩

theorem framed_clearedTree : Framed clearedTree :=
  ⟨⟨true, .zeros _, .zeros _, [], List.forall_mem_nil _, rfl⟩, Nat.le_refl _,
    List.forall_mem_nil _⟩

-- A batch that is logged and not applied: its record stays, and the next record has the same
-- sequence number. And a put that is applied and not logged.
theorem failed_calls_leave_traces :
    let unapplied : CallEnv UInt64 := { clearedEnv with writeStatus := false }
    let unlogged : CallEnv UInt64 := { clearedEnv with walStatus := false }
    (∃ s' s'', clearedTree.call { enableGdsLog := true } unapplied
          (.multiset [((7 : UInt64), (#v[1] : Vector UInt32 1))]) =
            (.threw "Failed to write batch to RocksDB", s') ∧
        s'.appended ≠ clearedTree.appended ∧
        s'.call { enableGdsLog := true } clearedEnv
          (.multiset [((8 : UInt64), (#v[2] : Vector UInt32 1))]) = (.returned .SUCCESS, s'') ∧
        s''.appended.map (fun record => sequenceRange record.2) = [(1, 1), (1, 1)]) ∧
      ∃ s', clearedTree.call { enableGdsLog := true } unlogged
          (.put (7 : UInt64) (#v[1] : Vector UInt32 1)) =
            (.threw "Failed to get current wal file", s') ∧
        s'.memtable ≠ clearedTree.memtable := by
  intro unapplied unlogged
  refine ⟨?_, _, rfl, nofun⟩
  have hlog : ({ enableGdsLog := true } : StorageConfig).enableGdsLog = true := rfl
  have hkept (index : Nat) : (unapplied.fragments index).Kept := .clean
  have hlogs : unapplied.Logs := ⟨rfl, fun _ => .clean⟩
  obtain ⟨outcome, s', hbatch, honly, houtcome⟩ := framed_clearedTree.logBatch hkept
    [((7 : UInt64), (#v[1] : Vector UInt32 1))] Nat.one_pos (clearedTree.lastSequence + 1)
  obtain ⟨rfl, -, payload, hgenerate, happended⟩ :=
    houtcome.resolve_right fun hstopped => hstopped.2.1 hlogs
  have hrange := sequenceRange_of_generate (by decide) (by decide) hgenerate
  have hsequence : s'.lastSequence = 0 := honly.sequence
  have hthrew : clearedTree.multiset { enableGdsLog := true } unapplied
      [((7 : UInt64), (#v[1] : Vector UInt32 1))] =
        (.threw "Failed to write batch to RocksDB", s') := by
    rw [multiset, if_neg (by simp), if_pos hlog, hbatch]
    rfl
  have hparts : AllOrNone s' clearedEnv (.multiset [((8 : UInt64), (#v[2] : Vector UInt32 1))]) :=
    ⟨fun _ => .clean, by decide, by rw [hsequence]; decide, Or.inl ⟨by decide, rfl⟩⟩
  obtain ⟨s'', hnext⟩ := multiset_ready { enableGdsLog := true } clearedEnv s' rfl (fun _ => rfl) rfl
    honly.framed.ready [((8 : UInt64), (#v[2] : Vector UInt32 1))] Nat.one_pos
  obtain ⟨outcome, next, hcall, -, hdone⟩ := honly.framed.multiset hlog hparts
  cases hnext.symm.trans hcall
  obtain ⟨second, hsecond, hrecords⟩ := (hdone.resolve_right fun hfailed => hfailed.1 rfl).2.record
  refine ⟨s', s'', hthrew, ?_, hnext, ?_⟩
  · rw [happended]
    exact List.append_ne_nil_of_right_ne_nil _ (List.cons_ne_nil _ _)
  · rw [hrecords, happended, List.map_append, List.map_append, List.map_singleton,
      List.map_singleton, hrange, hsecond, hsequence]
    rfl

end MemDisk

end MlkvPlus
